import CoSimIO.ModelPart.Bulk

/-! # The mesh of a `ModelPart`, and its creation in another one -/

namespace CoSimIO

open Sequences

set_option autoImplicit false

/-- An `Element` with the ids of its nodes -/
structure ElementData where
  id : Int64
  type : ElementType
  nodes : List Int64
deriving DecidableEq

/-- The constructor of `Element` accepts the data. -/
structure ElementData.Accepted (element : ElementData) : Prop where
  id : 1 ≤ element.id
  nodes : 1 ≤ element.nodes.length
  count : Int32.ofNat element.type.numberOfNodes = Int32.ofNat element.nodes.length

def Element.data (heap : Heap) (element : Element) : ElementData :=
  ⟨element.id, element.type, element.nodes.map heap.nodeId⟩

namespace ModelPart

def meshNodes (s : State) : List Node := s.part.nodes.data.map s.heap.nodes

def meshElements (s : State) : List ElementData :=
  s.part.elements.data.map fun ref => (s.heap.elements ref).data s.heap

theorem map_id_meshNodes (s : State) : (meshNodes s).map Node.id = nodeIds s := by
  rw [meshNodes, List.map_map]
  rfl

theorem map_id_meshElements (s : State) : (meshElements s).map ElementData.id = elementIds s := by
  rw [meshElements, List.map_map]
  rfl

section Frame

variable {s : State} {l g : Nat × ModelPart} {heap' : Heap}

theorem meshNodes_congr (h : Invariant s l g) (hHeap : s.heap.Extends heap') :
    s.part.nodes.data.map heap'.nodes = meshNodes s :=
  List.map_congr_left fun ref hRef => hHeap.nodes ref (h.nodes.bounded ref hRef)

theorem meshElements_congr (h : Invariant s l g) (hHeap : s.heap.Extends heap') :
    s.part.elements.data.map (fun ref => (heap'.elements ref).data heap') = meshElements s := by
  apply List.map_congr_left
  intro ref hRef
  have hNodes : (s.heap.elements ref).nodes.map heap'.nodeId =
      (s.heap.elements ref).nodes.map s.heap.nodeId := by
    apply List.map_congr_left
    intro node hNode
    have hMem := (h.elementNodes ref hRef).1 hNode
    exact congrArg Node.id (hHeap.nodes node (h.nodes.bounded node hMem))
  rw [hHeap.elements ref (h.elements.bounded ref hRef), Element.data, hNodes]
  rfl

theorem meshElements_withNode (h : Invariant s l g) (node : Node) :
    meshElements (withNode s l node) = meshElements s :=
  meshElements_congr h (Heap.extends_addNode s.heap node)

theorem meshNodes_withNode (h : Invariant s l g) (node : Node) :
    meshNodes (withNode s l node) = meshNodes s ++ [node] := by
  have hOld := meshNodes_congr h (Heap.extends_addNode s.heap node)
  have hLast : (s.heap.addNode node).nodes s.heap.nextNode = node :=
    Heap.addNode_nodes_self node
  rw [meshNodes, withNode]
  dsimp only [pushNode]
  rw [IndexedVector.pushBack_data, List.map_append, hOld, List.map_singleton, hLast]

theorem meshElements_withElement (h : Invariant s l g) (element : Element) :
    meshElements (withElement s l element) = meshElements s ++ [element.data s.heap] := by
  have hOld := meshElements_congr h (Heap.extends_addElement s.heap element)
  have hLast : (s.heap.addElement element).elements s.heap.nextElement = element :=
    Heap.addElement_elements_self element
  rw [meshElements, withElement]
  dsimp only [pushElement]
  rw [IndexedVector.pushBack_data, List.map_append, hOld, List.map_singleton, hLast]
  rfl

theorem nodesOf_ids {part : ModelPart} {heap : Heap} {ids : List Int64} {refs : List Nat}
    (hNodes : part.nodes.Sound heap.nodeId heap.nextNode) :
    nodesOf part ids = .ok refs ↔ refs.map heap.nodeId = ids ∧ refs ⊆ part.nodes.data := by
  induction ids generalizing refs with
  | nil =>
    rw [nodesOf, List.map_eq_nil_iff]
    constructor
    · intro h
      obtain rfl := Except.ok.inj h
      exact ⟨rfl, List.nil_subset _⟩
    · rintro ⟨rfl, -⟩
      rfl
  | cons id ids ih =>
    rw [nodesOf, pGetNode]
    constructor
    · intro h
      cases hFind : part.nodes.find id with
      | none =>
        rw [hFind] at h
        cases h
      | some first =>
        cases hRest : nodesOf part ids with
        | error message =>
          rw [hFind, hRest] at h
          cases h
        | ok rest =>
          rw [hFind, hRest] at h
          obtain rfl := Except.ok.inj h
          obtain ⟨hMem, hId⟩ := (hNodes.find_iff id first).mp hFind
          obtain ⟨hIds, hSubset⟩ := ih.mp hRest
          exact ⟨congrArg₂ List.cons hId hIds, List.cons_subset.mpr ⟨hMem, hSubset⟩⟩
    · rintro ⟨hIds, hSubset⟩
      cases refs with
      | nil => cases hIds
      | cons ref refs =>
        obtain ⟨hId, hIds⟩ := List.cons.inj hIds
        obtain ⟨hMem, hSubset⟩ := List.cons_subset.mp hSubset
        rw [(hNodes.find_iff id ref).mpr ⟨hMem, hId⟩, ih.mpr ⟨hIds, hSubset⟩]
        rfl

end Frame

theorem one_le_of_cast {type : ElementType} {count : Nat}
    (h : Int32.ofNat type.numberOfNodes = Int32.ofNat count) : 1 ≤ count := by
  have hCount := numberOfNodes_of_cast h
  have hType : 1 ≤ type.numberOfNodes := by cases type <;> decide
  omega

section Runs

variable {s : State} {l g : Nat × ModelPart} {P : State → Prop}

theorem createEach_induction
    (hCreate : ∀ {s l g} creation {s'}, Invariant s l g → P s →
      create s creation = (s', .ok ()) → P s')
    (h : Invariant s l g) (hP : P s) (todo : List Creation) : P (createEach s todo).1 := by
  induction todo generalizing s l g with
  | nil => exact hP
  | cons creation todo ih =>
    rcases h.create creation with ⟨message, hThrows⟩ | ⟨s', l', g', hStep, h', -⟩
    · rw [createEach, hThrows]
      exact hP
    · rw [createEach, hStep]
      exact ih h' (hCreate creation h hP hStep)

/-- What holds of parts without a mesh, and what creations keep, holds always. -/
theorem Reachable.induction (hReachable : Reachable s)
    (hEmpty : ∀ s, s.part.nodes = .empty → s.part.elements = .empty → P s)
    (hCreate : ∀ {s l g} creation {s'}, Invariant s l g → P s →
      create s creation = (s', .ok ()) → P s') : P s := by
  obtain ⟨heap, name, start, ops, hNew, rfl⟩ := hReachable
  obtain ⟨l, g, h, hLog, -⟩ := invariant_new hNew
  have hStart : P ⟨start.1, start.2⟩ := by
    rcases new_cases heap name with ⟨message, hThrows⟩ | ⟨-, -, hStart⟩
    · rw [hThrows] at hNew
      nomatch hNew
    · rw [hStart] at hNew
      obtain rfl := Except.ok.inj hNew
      exact hEmpty _ rfl rfl
  generalize (⟨start.1, start.2⟩ : State) = s at h hLog hStart
  generalize ([] : List Creation) = log at hLog
  induction ops generalizing s l g log with
  | nil => exact hStart
  | cons op ops ih =>
    obtain ⟨l', g', h', hLog', -⟩ := h.apply hLog op
    refine ih l' g' _ h' ?_ _ hLog'
    cases op with
    | clear => exact hEmpty _ rfl rfl
    | _ =>
      rw [apply_fst (by nofun)]
      exact createEach_induction hCreate h hStart _

/-- The data of every element passed the checks of the constructor. -/
theorem Reachable.accepted (hReachable : Reachable s) :
    ∀ element ∈ meshElements s, element.Accepted := by
  refine hReachable.induction (P := fun s => ∀ element ∈ meshElements s, element.Accepted) ?_ ?_
  · intro s hNodes hElements
    rw [meshElements, hElements]
    nofun
  intro s l g creation s' h hAccepted hCreate
  cases creation with
  | node data =>
    rcases createNewNode_cases data.id data.x data.y data.z h.isLocal with
      ⟨message, hThrows⟩ | ⟨-, -, hState⟩
    · nomatch hThrows.symm.trans hCreate
    · obtain rfl := (Prod.mk.inj (hState.symm.trans hCreate)).1
      rw [meshElements_withNode h]
      exact hAccepted
  | ghostNode data partitionIndex rehash =>
    rcases createNewGhostNode_cases data.id data.x data.y data.z rehash partitionIndex
      h.isGhost with ⟨message, hThrows⟩ | ⟨-, -, s₁, hPrepared, hState⟩
    · nomatch hThrows.symm.trans hCreate
    · obtain rfl := (Prod.mk.inj (hState.symm.trans hCreate)).1
      have hSame : meshElements (withGhostNode s₁ g ⟨data.id, data.x, data.y, data.z⟩
          partitionIndex) = meshElements s₁ :=
        meshElements_congr (h.prepared hPrepared).1 (Heap.extends_addNode s₁.heap _)
      rw [hSame]
      cases hPrepared with
      | found _ => exact hAccepted
      | added _ _ _ => exact hAccepted
  | element id type connectivities size =>
    rcases createNewElement_cases id type connectivities h.isLocal with
      ⟨message, hThrows⟩ | ⟨-, hId, nodes, hNodes, hCount, hState⟩
    · nomatch hThrows.symm.trans hCreate
    · obtain rfl := (Prod.mk.inj (hState.symm.trans hCreate)).1
      obtain ⟨hLength, -⟩ := nodesOf_spec hNodes
      rw [meshElements_withElement h]
      intro element hElement
      cases List.mem_append.mp hElement with
      | inl hOld => exact hAccepted element hOld
      | inr hLast =>
        obtain rfl := List.mem_singleton.mp hLast
        exact ⟨hId, by rw [Element.data, List.length_map]; exact one_le_of_cast hCount,
          by rw [Element.data, List.length_map]; exact hCount⟩

end Runs

section Building

variable {s : State} {l g : Nat × ModelPart}

def nodeCreation (node : Node) : Creation := .node ⟨node.id, node.x, node.y, node.z⟩

theorem contains_eq_false {idOf : Nat → Int64} {next : Nat} {v : IndexedVector}
    (h : v.Sound idOf next) {id : Int64} (hNew : id ∉ v.data.map idOf) : v.contains id = false := by
  rw [Bool.eq_false_iff]
  intro hContains
  exact hNew ((h.contains_iff id).mp hContains)

theorem createNewNode_ok (h : Invariant s l g) {node : Node} (hId : 1 ≤ node.id)
    (hContains : s.part.nodes.contains node.id = false) :
    create s (nodeCreation node) = (withNode s l node, .ok ()) := by
  have hNode : Node.new node.id node.x node.y node.z = .ok node := by
    rw [Node.new, if_neg (Int64.not_lt.mpr hId)]
  change createNewNode s node.id node.x node.y node.z = _
  rw [createNewNode, hContains, hNode]
  dsimp only
  rw [if_neg Bool.false_ne_true]
  rw [show (pushNode s.heap.nextNode node.id s.part).localModelPart = some l from h.isLocal]
  rfl

/-- The creation of local nodes one after the other -/
theorem createEach_nodes (h : Invariant s l g) {nodes : List Node}
    (hPositive : ∀ node ∈ nodes, 1 ≤ node.id)
    (hNew : (nodeIds s ++ nodes.map Node.id).Nodup)
    (hLocal : l.2.nodes.data = s.part.nodes.data) :
    ∃ s' l', createEach s (nodes.map nodeCreation) = (s', .ok ()) ∧ Invariant s' l' g ∧
      meshNodes s' = meshNodes s ++ nodes ∧ s'.part.elements = s.part.elements ∧
      l'.2.nodes.data = s'.part.nodes.data := by
  induction nodes generalizing s l with
  | nil => exact ⟨s, l, rfl, h, (List.append_nil _).symm, rfl, hLocal⟩
  | cons node nodes ih =>
    have hId := hPositive node List.mem_cons_self
    have hDisjoint := List.disjoint_of_nodup_append hNew
    have hContains : s.part.nodes.contains node.id = false :=
      contains_eq_false h.nodes fun hMem => hDisjoint hMem List.mem_cons_self
    have hCreate := createNewNode_ok h hId hContains
    have hIds : nodeIds (withNode s l node) = nodeIds s ++ [node.id] := by
      rw [← map_id_meshNodes, meshNodes_withNode h, List.map_append, map_id_meshNodes]
      rfl
    obtain ⟨s', l', hRest, h', hNodes, hElements, hLocal'⟩ := ih (h.withNode hContains hId)
      (fun other hOther => hPositive other (List.mem_cons_of_mem node hOther))
      (by rwa [hIds, List.append_assoc]) (congrArg (· ++ [s.heap.nextNode]) hLocal)
    refine ⟨s', l', ?_, h', ?_, hElements, hLocal'⟩
    · rw [List.map_cons, createEach, hCreate]
      exact hRest
    · rw [hNodes, meshNodes_withNode h, List.append_assoc]
      rfl

def elementCreation (element : ElementData) (size : element.nodes.length < 2 ^ 64) : Creation :=
  .element element.id element.type element.nodes size

theorem exists_refs {idOf : Nat → Int64} {ids : List Int64} {data : List Nat}
    (h : ids ⊆ data.map idOf) : ∃ refs, refs.map idOf = ids ∧ refs ⊆ data := by
  induction ids with
  | nil => exact ⟨[], rfl, nofun⟩
  | cons id ids ih =>
    obtain ⟨hFirst, hRest⟩ := List.cons_subset.mp h
    obtain ⟨ref, hRef, rfl⟩ := List.mem_map.mp hFirst
    obtain ⟨refs, rfl, hRefs⟩ := ih hRest
    exact ⟨ref :: refs, rfl, List.cons_subset.mpr ⟨hRef, hRefs⟩⟩

theorem createNewElement_ok (h : Invariant s l g) {element : ElementData}
    (hAccepted : element.Accepted) (size : element.nodes.length < 2 ^ 64)
    (hContains : s.part.elements.contains element.id = false)
    (hNodes : element.nodes ⊆ nodeIds s) :
    ∃ refs, refs.map s.heap.nodeId = element.nodes ∧ refs ⊆ s.part.nodes.data ∧
      create s (elementCreation element size) =
        (withElement s l ⟨element.id, element.type, refs⟩, .ok ()) := by
  obtain ⟨refs, hIds, hRefs⟩ := exists_refs hNodes
  have hLength : refs.length = element.nodes.length := by rw [← hIds, List.length_map]
  have hFound : nodesOf s.part element.nodes = .ok refs := (nodesOf_ids h.nodes).mpr ⟨hIds, hRefs⟩
  have hNew : Element.new element.id element.type refs =
      .ok ⟨element.id, element.type, refs⟩ := by
    have hSome := hAccepted.nodes
    rw [Element.new, if_neg (Int64.not_lt.mpr hAccepted.id), if_neg (by omega), hLength,
      if_neg (not_not.mpr hAccepted.count)]
  refine ⟨refs, hIds, hRefs, ?_⟩
  change createNewElement s element.id element.type element.nodes = _
  rw [createNewElement, hContains, if_neg Bool.false_ne_true, hFound]
  dsimp only
  rw [hNew]
  dsimp only
  rw [show (pushElement s.heap.nextElement element.id s.part).localModelPart = some l
    from h.isLocal]
  rfl

theorem createEach_elements (h : Invariant s l g) {elements : List ElementData}
    (hAccepted : ∀ element ∈ elements, element.Accepted)
    (hSize : ∀ element ∈ elements, element.nodes.length < 2 ^ 64)
    (hNodes : ∀ element ∈ elements, element.nodes ⊆ nodeIds s)
    (hNew : (elementIds s ++ elements.map ElementData.id).Nodup) :
    ∃ s' l', createEach s (elements.pmap elementCreation hSize) = (s', .ok ()) ∧
      Invariant s' l' g ∧ meshElements s' = meshElements s ++ elements ∧
      meshNodes s' = meshNodes s ∧ s'.part.nodes = s.part.nodes ∧ l'.2.nodes = l.2.nodes := by
  induction elements generalizing s l with
  | nil => exact ⟨s, l, rfl, h, (List.append_nil _).symm, rfl, rfl, rfl⟩
  | cons element elements ih =>
    have hFirst := hAccepted element List.mem_cons_self
    have hSizeFirst := hSize element List.mem_cons_self
    have hContains : s.part.elements.contains element.id = false :=
      contains_eq_false h.elements fun hMem =>
        List.disjoint_of_nodup_append hNew hMem List.mem_cons_self
    obtain ⟨refs, hIds, hRefs, hCreate⟩ := createNewElement_ok h hFirst hSizeFirst hContains
      (hNodes element List.mem_cons_self)
    have hLength : refs.length < 2 ^ 64 := by
      rw [← hIds, List.length_map] at hSizeFirst
      exact hSizeFirst
    have hData : (Element.mk element.id element.type refs).data s.heap = element := by
      rw [Element.data, hIds]
    have hElements := meshElements_withElement h ⟨element.id, element.type, refs⟩
    rw [hData] at hElements
    have hElementIds : elementIds (withElement s l ⟨element.id, element.type, refs⟩) =
        elementIds s ++ [element.id] := by
      rw [← map_id_meshElements, hElements, List.map_append, map_id_meshElements]
      rfl
    obtain ⟨s', l', hRest, h', hElements', hNodes', hPart, hLocal⟩ :=
      ih (h.withElement hContains hFirst.id hRefs hLength)
        (fun other hOther => hAccepted other (List.mem_cons_of_mem element hOther))
        (fun other hOther => hSize other (List.mem_cons_of_mem element hOther))
        (fun other hOther => hNodes other (List.mem_cons_of_mem element hOther))
        (by rwa [hElementIds, List.append_assoc])
    refine ⟨s', l', ?_, h', ?_, hNodes', hPart, hLocal⟩
    · rw [List.pmap_cons, createEach, hCreate]
      exact hRest
    · rw [hElements', hElements, List.append_assoc]
      rfl

/-- A part without nodes and elements becomes one with the mesh, all nodes are local. -/
theorem build_mesh (h : Invariant s l g) (hNoNodes : s.part.nodes.data = [])
    (hNoElements : s.part.elements.data = []) {nodes : List Node} {elements : List ElementData}
    (hPositive : ∀ node ∈ nodes, 1 ≤ node.id) (hNodeIds : (nodes.map Node.id).Nodup)
    (hElementIds : (elements.map ElementData.id).Nodup)
    (hAccepted : ∀ element ∈ elements, element.Accepted)
    (hSize : ∀ element ∈ elements, element.nodes.length < 2 ^ 64)
    (hNodes : ∀ element ∈ elements, element.nodes ⊆ nodes.map Node.id) :
    ∃ s₁ s' l', createEach s (nodes.map nodeCreation) = (s₁, .ok ()) ∧
      createEach s₁ (elements.pmap elementCreation hSize) = (s', .ok ()) ∧ Invariant s' l' g ∧
      meshNodes s' = nodes ∧ meshElements s' = elements ∧
      l'.2.nodes.data = s'.part.nodes.data := by
  have hLocal : l.2.nodes.data = [] := by
    have hLength := h.interleaves.perm.length_eq
    rw [hNoNodes, List.length_append, List.length_nil] at hLength
    exact List.length_eq_zero_iff.mp (by omega)
  have hNoIds : nodeIds s = [] := by rw [nodeIds, hNoNodes, List.map_nil]
  obtain ⟨s₁, l₁, hFirst, h₁, hMesh, hElements, hLocal₁⟩ := createEach_nodes h hPositive
    (by rwa [hNoIds]) (by rw [hLocal, hNoNodes])
  have hMesh₁ : meshNodes s₁ = nodes := by rw [hMesh, meshNodes, hNoNodes, List.map_nil]; rfl
  have hIds₁ : nodeIds s₁ = nodes.map Node.id := by rw [← map_id_meshNodes, hMesh₁]
  have hNone : meshElements s₁ = [] := by
    rw [meshElements, hElements, hNoElements, List.map_nil]
  have hNoElementIds : elementIds s₁ = [] := by rw [← map_id_meshElements, hNone, List.map_nil]
  obtain ⟨s', l', hSecond, h', hElements', hNodes', hPart, hLocal'⟩ :=
    createEach_elements h₁ hAccepted hSize (by rwa [hIds₁]) (by rwa [hNoElementIds])
  refine ⟨s₁, s', l', hFirst, hSecond, h', hNodes'.trans hMesh₁, ?_, ?_⟩
  · rw [hElements', hNone]
    rfl
  · rw [hLocal', hPart]
    exact hLocal₁

end Building

end ModelPart

end CoSimIO
