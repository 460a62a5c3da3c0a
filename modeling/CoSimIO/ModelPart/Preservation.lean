import CoSimIO.ModelPart.Invariant

/-! # Every operation preserves the invariant -/

namespace CoSimIO.ModelPart

open Sequences

set_option autoImplicit false

variable {s s' : State} {l g : Nat × ModelPart} {heap : Heap} {partitionIndex : Int32}

theorem internal_internal (heap : Heap) (name : Text) : Internal heap name (internal name) where
  name := rfl
  nodes := IndexedVector.sound_empty
  elements := IndexedVector.sound_empty
  noLocal := rfl
  noGhost := rfl
  noPartitions := rfl

theorem partition_newPartition (heap heap' : Heap) (partitionIndex : Int32) :
    Partition heap' (newPartition heap partitionIndex) where
  name := rfl
  nodes := IndexedVector.sound_empty
  elements := rfl
  inner := ⟨heap.nextModelPart + 1, rfl, rfl⟩
  noPartitions := rfl

theorem invariant_initialize (heap : Heap) (part : ModelPart) (hNodes : part.nodes = .empty)
    (hElements : part.elements = .empty) (hPartitions : part.partitionModelParts = []) :
    Invariant ⟨(initializeInternalModelParts heap part).1,
      (initializeInternalModelParts heap part).2⟩
      (heap.nextModelPart, internal "local".toList)
      (heap.nextModelPart + 1, internal "ghost".toList) := by
  have hOwners : (initializeInternalModelParts heap part).2.owners =
      [heap.nextModelPart, heap.nextModelPart + 1] := by
    rw [owners_eq]
    change _ ++ ownersOfPartitions part.partitionModelParts = _
    rw [hPartitions]
    rfl
  exact {
    isLocal := rfl
    isGhost := rfl
    nodes := hNodes ▸ IndexedVector.sound_empty
    elements := hElements ▸ IndexedVector.sound_empty
    localPart := internal_internal _ _
    ghostPart := internal_internal _ _
    ghostElements := rfl
    interleaves := by
      change Interleaves [] [] part.nodes.data
      rw [hNodes]
      exact .nil
    localElements := by
      change [] = part.elements.data
      rw [hElements]
      rfl
    keys := by
      change (part.partitionModelParts.map Prod.fst).Nodup
      rw [hPartitions]
      exact .nil
    partitions := by
      change ∀ entry ∈ part.partitionModelParts, _
      rw [hPartitions]
      nofun
    ghostNodes := by
      change (part.partitionModelParts.flatMap _).Perm []
      rw [hPartitions]
      exact .nil
    elementNodes := by
      change ∀ ref ∈ part.elements.data, _
      rw [hElements]
      nofun
    owners := by
      rw [hOwners]
      simp
    ownersBound := by
      rw [hOwners]
      rintro owner hOwner
      change owner < heap.nextModelPart + 2
      simp at hOwner
      omega }

theorem Invariant.clear (s : State) : ∃ l g, Invariant (clear s) l g :=
  ⟨_, _, invariant_initialize s.heap
    { s.part with nodes := .empty, elements := .empty, partitionModelParts := [] } rfl rfl rfl⟩

theorem Sound.not_mem {idOf : Nat → Int64} {next : Nat} {v : IndexedVector} {id : Int64}
    (h : v.Sound idOf next) (hNew : v.contains id = false) : id ∉ v.data.map idOf := by
  rintro hMem
  rw [(h.contains_iff id).mpr hMem] at hNew
  nomatch hNew

theorem notMem_of_subset {idOf : Nat → Int64} {xs ys : List Nat} {id : Int64}
    (h : id ∉ ys.map idOf) (hSubset : xs ⊆ ys) : id ∉ xs.map idOf :=
  fun hMem => h (List.map_subset idOf hSubset hMem)

namespace Invariant

theorem localNodes_subset (h : Invariant s l g) : l.2.nodes.data ⊆ s.part.nodes.data :=
  fun _ hRef => h.interleaves.perm.mem_iff.mpr (List.mem_append_left _ hRef)

theorem ghostNodes_subset (h : Invariant s l g) : g.2.nodes.data ⊆ s.part.nodes.data :=
  fun _ hRef => h.interleaves.perm.mem_iff.mpr (List.mem_append_right _ hRef)

theorem partitionNodes_subset (h : Invariant s l g) {entry : Int32 × Nat × ModelPart}
    (hEntry : entry ∈ s.part.partitionModelParts) :
    entry.2.2.nodes.data ⊆ s.part.nodes.data := by
  rintro ref hRef
  apply h.ghostNodes_subset
  exact h.ghostNodes.mem_iff.mp (List.mem_flatMap.mpr ⟨entry, hEntry, hRef⟩)

/-- A node that is not there yet can be appended to every list of nodes. -/
theorem node_new (h : Invariant s l g) {node : Node}
    (hContains : s.part.nodes.contains node.id = false) :
    node.id ∉ s.part.nodes.data.map (s.heap.addNode node).nodeId :=
  Sound.not_mem (nodes_mono h.nodes (Heap.extends_addNode s.heap node)) hContains

theorem elementNodes_subset (h : Invariant s l g) {heap' : Heap} {nodes' : List Nat}
    (hHeap : s.heap.Extends heap') (hNodes : s.part.nodes.data ⊆ nodes') :
    ∀ ref ∈ s.part.elements.data, (heap'.elements ref).nodes ⊆ nodes' ∧
      (heap'.elements ref).nodes.length < 2 ^ 64 := by
  rintro ref hRef
  obtain ⟨hSubset, hLength⟩ := h.elementNodes ref hRef
  rw [hHeap.elements ref (h.elements.bounded ref hRef)]
  exact ⟨List.Subset.trans hSubset hNodes, hLength⟩

theorem owners_withNode (h : Invariant s l g) (node : Node) :
    (ModelPart.withNode s l node).part.owners = s.part.owners := by
  rw [owners_eq, owners_eq s.part, h.isLocal]
  exact congrArg (fun inner => l.1 :: inner ++ ownersOf s.part.ghostModelPart ++
    ownersOfPartitions s.part.partitionModelParts) (owners_pushNode _ _ l.2)

theorem withNode (h : Invariant s l g) {node : Node}
    (hContains : s.part.nodes.contains node.id = false) (hId : 1 ≤ node.id) :
    Invariant (withNode s l node) (l.1, pushNode s.heap.nextNode node.id l.2) g := by
  have hHeap := Heap.extends_addNode s.heap node
  have hRef : s.heap.nextNode < (s.heap.addNode node).nextNode := Nat.lt_succ_self _
  have hNodeId : (s.heap.addNode node).nodeId s.heap.nextNode = node.id :=
    congrArg Node.id (Heap.addNode_nodes_self node)
  have hNew := h.node_new hContains
  exact {
    isLocal := rfl
    isGhost := h.isGhost
    nodes := (nodes_mono h.nodes hHeap).pushBack hRef hNodeId hId hNew
    elements := elements_mono h.elements hHeap
    localPart := (h.localPart.mono hHeap).pushNode hRef hNodeId hId
      (notMem_of_subset hNew h.localNodes_subset)
    ghostPart := h.ghostPart.mono hHeap
    ghostElements := h.ghostElements
    interleaves := h.interleaves.concat_left s.heap.nextNode
    localElements := h.localElements
    keys := h.keys
    partitions := fun entry hEntry => (h.partitions entry hEntry).mono hHeap
    ghostNodes := h.ghostNodes
    elementNodes := h.elementNodes_subset hHeap (List.subset_append_left _ _)
    owners := h.owners_withNode node ▸ h.owners
    ownersBound := h.owners_withNode node ▸ h.ownersBound }

theorem owners_withElement (h : Invariant s l g) (element : Element) :
    (ModelPart.withElement s l element).part.owners = s.part.owners := by
  rw [owners_eq, owners_eq s.part, h.isLocal]
  exact congrArg (fun inner => l.1 :: inner ++ ownersOf s.part.ghostModelPart ++
    ownersOfPartitions s.part.partitionModelParts) (owners_pushElement _ _ l.2)

theorem withElement (h : Invariant s l g) {element : Element}
    (hContains : s.part.elements.contains element.id = false) (hId : 1 ≤ element.id)
    (hNodes : element.nodes ⊆ s.part.nodes.data) (hLength : element.nodes.length < 2 ^ 64) :
    Invariant (withElement s l element) (l.1, pushElement s.heap.nextElement element.id l.2)
      g := by
  have hHeap := Heap.extends_addElement s.heap element
  have hRef : s.heap.nextElement < (s.heap.addElement element).nextElement := Nat.lt_succ_self _
  have hElementId : (s.heap.addElement element).elementId s.heap.nextElement = element.id :=
    congrArg Element.id (Heap.addElement_elements_self element)
  have hNew := Sound.not_mem (elements_mono h.elements hHeap) hContains
  have hLocal : l.2.elements.data ⊆ s.part.elements.data := by
    rw [h.localElements]
    exact List.Subset.refl _
  have hElements := h.elementNodes_subset hHeap (List.Subset.refl s.part.nodes.data)
  exact {
    isLocal := rfl
    isGhost := h.isGhost
    nodes := nodes_mono h.nodes hHeap
    elements := (elements_mono h.elements hHeap).pushBack hRef hElementId hId hNew
    localPart := (h.localPart.mono hHeap).pushElement hRef hElementId hId
      (notMem_of_subset hNew hLocal)
    ghostPart := h.ghostPart.mono hHeap
    ghostElements := h.ghostElements
    interleaves := h.interleaves
    localElements := congrArg (· ++ [s.heap.nextElement]) h.localElements
    keys := h.keys
    partitions := fun entry hEntry => (h.partitions entry hEntry).mono hHeap
    ghostNodes := h.ghostNodes
    elementNodes := by
      rintro ref hMem
      rcases List.mem_append.mp hMem with hOld | hLast
      · exact hElements ref hOld
      · obtain rfl := List.mem_singleton.mp hLast
        have hHere : (ModelPart.withElement s l element).heap.elements s.heap.nextElement =
          element := Heap.addElement_elements_self element
        rw [hHere]
        exact ⟨hNodes, hLength⟩
    owners := h.owners_withElement element ▸ h.owners
    ownersBound := h.owners_withElement element ▸ h.ownersBound }

theorem prepared (h : Invariant s l g) (hPrepared : Prepared s partitionIndex s') :
    Invariant s' l g ∧ partitionIndex ∈ partitionKeys s' := by
  cases hPrepared with
  | found hFound => exact ⟨h, hFound⟩
  | added entries hMissing hPerm =>
    have hHeap : s.heap.Extends { s.heap with nextModelPart := s.heap.nextModelPart + 3 } :=
      Heap.extends_nextModelPart (Nat.le_add_right _ 3)
    have hKeys : (entries.map Prod.fst).Perm (partitionKeys s ++ [partitionIndex]) := by
      have hMap := hPerm.map Prod.fst
      rwa [List.map_append] at hMap
    have hOwners : ({ s.part with partitionModelParts := entries } : ModelPart).owners.Perm
        (s.part.owners ++ [s.heap.nextModelPart, s.heap.nextModelPart + 1,
          s.heap.nextModelPart + 2]) := by
      have hEntries := hPerm.flatMap_right fun entry => entry.2.1 :: entry.2.2.owners
      rw [List.flatMap_append] at hEntries
      rw [owners_eq, owners_eq s.part, ownersOfPartitions_eq, ownersOfPartitions_eq,
        List.append_assoc (ownersOf _ ++ ownersOf _)]
      exact hEntries.append_left _
    constructor
    · exact { h with
        nodes := nodes_mono h.nodes hHeap
        elements := elements_mono h.elements hHeap
        localPart := h.localPart.mono hHeap
        ghostPart := h.ghostPart.mono hHeap
        keys := by
          apply hKeys.nodup_iff.mpr
          exact List.nodup_append'.mpr ⟨h.keys, List.nodup_singleton _, by simpa using hMissing⟩
        partitions := by
          rintro entry hEntry
          rcases List.mem_append.mp (hPerm.mem_iff.mp hEntry) with hOld | hLast
          · exact (h.partitions entry hOld).mono hHeap
          · obtain rfl := List.mem_singleton.mp hLast
            exact partition_newPartition _ _ partitionIndex
        ghostNodes := by
          have hNodes := hPerm.flatMap_right fun entry => entry.2.2.nodes.data
          rw [List.flatMap_append] at hNodes
          change (entries.flatMap fun entry => entry.2.2.nodes.data).Perm _
          apply hNodes.trans
          change (partitionNodes s.part ++ []).Perm _
          rw [List.append_nil]
          exact h.ghostNodes
        owners := by
          apply hOwners.nodup_iff.mpr
          apply List.nodup_append'.mpr ⟨h.owners, by simp, ?_⟩
          rintro owner hOld hNew
          have hBound := h.ownersBound owner hOld
          simp at hNew
          omega
        ownersBound := by
          rintro owner hOwner
          change owner < s.heap.nextModelPart + 3
          rcases List.mem_append.mp (hOwners.mem_iff.mp hOwner) with hOld | hNew
          · exact Nat.lt_add_right 3 (h.ownersBound owner hOld)
          · simp at hNew
            omega }
    · exact hKeys.mem_iff.mpr (by simp)

end Invariant

section Push

variable {ref : Nat} {id : Int64} {entries : List (Int32 × Nat × ModelPart)}

theorem pushPartitionNode_of_ne {entry : Int32 × Nat × ModelPart}
    (h : entry.1 ≠ partitionIndex) : pushPartitionNode partitionIndex ref id entry = entry :=
  if_neg h

@[simp] theorem pushPartitionNode_fst (entry : Int32 × Nat × ModelPart) :
    (pushPartitionNode partitionIndex ref id entry).1 = entry.1 := by
  rw [pushPartitionNode]
  split <;> rfl

theorem owners_pushPartitionNode (entry : Int32 × Nat × ModelPart) :
    (pushPartitionNode partitionIndex ref id entry).2.1 ::
      (pushPartitionNode partitionIndex ref id entry).2.2.owners =
      entry.2.1 :: entry.2.2.owners := by
  rw [pushPartitionNode]
  split
  · rw [owners_pushNode]
  · rfl

/-- Exactly one part of a partition gets the node. -/
theorem flatMap_pushPartitionNode (hKeys : (entries.map Prod.fst).Nodup)
    (hMem : partitionIndex ∈ entries.map Prod.fst) :
    ((entries.map (pushPartitionNode partitionIndex ref id)).flatMap
      fun entry => entry.2.2.nodes.data).Perm
      ((entries.flatMap fun entry => entry.2.2.nodes.data) ++ [ref]) := by
  induction entries with
  | nil => nomatch hMem
  | cons entry entries ih =>
    rw [List.map_cons, List.nodup_cons] at hKeys
    rw [List.map_cons, List.flatMap_cons, List.flatMap_cons, List.append_assoc]
    rcases eq_or_ne entry.1 partitionIndex with hHere | hElsewhere
    · have hRest : entries.map (pushPartitionNode partitionIndex ref id) = entries := by
        have hOthers : ∀ other ∈ entries, pushPartitionNode partitionIndex ref id other = other := by
          rintro other hOther
          apply pushPartitionNode_of_ne
          rintro hKey
          exact hKeys.1 (List.mem_map.mpr ⟨other, hOther, hKey.trans hHere.symm⟩)
        exact (List.map_congr_left hOthers).trans (List.map_id' entries)
      have hEntry : (pushPartitionNode partitionIndex ref id entry).2.2.nodes.data =
          entry.2.2.nodes.data ++ [ref] := by
        rw [pushPartitionNode, if_pos hHere]
        rfl
      rw [hRest, hEntry, List.append_assoc]
      exact (List.perm_append_comm).append_left _
    · have hLater : partitionIndex ∈ entries.map Prod.fst := by
        rcases List.mem_cons.mp hMem with hEq | hMem
        · exact absurd hEq.symm hElsewhere
        · exact hMem
      rw [pushPartitionNode_of_ne hElsewhere]
      exact (ih hKeys.2 hLater).append_left _

end Push

namespace Invariant

theorem owners_withGhostNode (h : Invariant s l g) (node : Node) (partitionIndex : Int32) :
    (ModelPart.withGhostNode s g node partitionIndex).part.owners = s.part.owners := by
  have hEntries : ownersOfPartitions (s.part.partitionModelParts.map
      (pushPartitionNode partitionIndex s.heap.nextNode node.id)) =
      ownersOfPartitions s.part.partitionModelParts := by
    rw [ownersOfPartitions_eq, ownersOfPartitions_eq, List.flatMap_map]
    exact congrArg List.flatten (List.map_congr_left fun entry _ => owners_pushPartitionNode entry)
  rw [owners_eq, owners_eq s.part, h.isGhost]
  change ownersOf s.part.localModelPart ++ (g.1 :: (pushNode _ _ g.2).owners) ++
    ownersOfPartitions (s.part.partitionModelParts.map
      (pushPartitionNode partitionIndex s.heap.nextNode node.id)) = _
  rw [hEntries, owners_pushNode]
  rfl

theorem withGhostNode (h : Invariant s l g) {node : Node}
    (hIndex : partitionIndex ∈ partitionKeys s)
    (hContains : s.part.nodes.contains node.id = false) (hId : 1 ≤ node.id) :
    Invariant (withGhostNode s g node partitionIndex) l
      (g.1, pushNode s.heap.nextNode node.id g.2) := by
  have hHeap := Heap.extends_addNode s.heap node
  have hRef : s.heap.nextNode < (s.heap.addNode node).nextNode := Nat.lt_succ_self _
  have hNodeId : (s.heap.addNode node).nodeId s.heap.nextNode = node.id :=
    congrArg Node.id (Heap.addNode_nodes_self node)
  have hNew := h.node_new hContains
  exact {
    isLocal := h.isLocal
    isGhost := rfl
    nodes := (nodes_mono h.nodes hHeap).pushBack hRef hNodeId hId hNew
    elements := elements_mono h.elements hHeap
    localPart := h.localPart.mono hHeap
    ghostPart := (h.ghostPart.mono hHeap).pushNode hRef hNodeId hId
      (notMem_of_subset hNew h.ghostNodes_subset)
    ghostElements := h.ghostElements
    interleaves := h.interleaves.concat_right s.heap.nextNode
    localElements := h.localElements
    keys := by
      change ((s.part.partitionModelParts.map _).map Prod.fst).Nodup
      rw [List.map_map]
      exact (List.map_congr_left fun entry _ => pushPartitionNode_fst entry) ▸ h.keys
    partitions := by
      rintro entry' hEntry'
      obtain ⟨entry, hEntry, rfl⟩ := List.mem_map.mp hEntry'
      have hPartition := (h.partitions entry hEntry).mono hHeap
      rw [pushPartitionNode]
      split
      · exact hPartition.pushNode hRef hNodeId hId
          (notMem_of_subset hNew (h.partitionNodes_subset hEntry))
      · exact hPartition
    ghostNodes := (flatMap_pushPartitionNode h.keys hIndex).trans (h.ghostNodes.append_right _)
    elementNodes := h.elementNodes_subset hHeap (List.subset_append_left _ _)
    owners := h.owners_withGhostNode node partitionIndex ▸ h.owners
    ownersBound := h.owners_withGhostNode node partitionIndex ▸ h.ownersBound }

end Invariant

section Create

def Creation.nodeId : Creation → Option Int64
  | .node data => some data.id
  | .ghostNode data _ _ => some data.id
  | .element _ _ _ _ => none

def Creation.elementId : Creation → Option Int64
  | .node _ => none
  | .ghostNode _ _ _ => none
  | .element id _ _ _ => some id

/-- The number of connectivities is not taken for another one by the cast to `int`. -/
def Creation.Fits : Creation → Prop
  | .element _ type connectivities _ =>
    connectivities.length % 2 ^ 32 = type.numberOfNodes →
      connectivities.length = type.numberOfNodes
  | _ => True

def nodeIds (s : State) : List Int64 := s.part.nodes.data.map s.heap.nodeId

def elementIds (s : State) : List Int64 := s.part.elements.data.map s.heap.elementId

/-- Every element has the number of nodes of its type. -/
def Complete (s : State) : Prop :=
  ∀ ref ∈ s.part.elements.data,
    (s.heap.elements ref).nodes.length = (s.heap.elements ref).type.numberOfNodes

/-- What a creation that does not throw adds. -/
structure Created (s s' : State) (creation : Creation) : Prop where
  nodeIds : nodeIds s' = nodeIds s ++ creation.nodeId.toList
  elementIds : elementIds s' = elementIds s ++ creation.elementId.toList
  complete : creation.Fits → Complete s → Complete s'

theorem nodeIds_congr (h : Invariant s l g) {heap' : Heap} (hHeap : s.heap.Extends heap') :
    s.part.nodes.data.map heap'.nodeId = nodeIds s :=
  List.map_congr_left fun ref hRef =>
    congrArg Node.id (hHeap.nodes ref (h.nodes.bounded ref hRef))

theorem elementIds_congr (h : Invariant s l g) {heap' : Heap} (hHeap : s.heap.Extends heap') :
    s.part.elements.data.map heap'.elementId = elementIds s :=
  List.map_congr_left fun ref hRef =>
    congrArg Element.id (hHeap.elements ref (h.elements.bounded ref hRef))

theorem created_node (h : Invariant s l g) {node : Node} {part : ModelPart}
    {creation : Creation} (hNodes : part.nodes.data = s.part.nodes.data ++ [s.heap.nextNode])
    (hElements : part.elements = s.part.elements) (hNode : creation.nodeId = some node.id)
    (hElement : creation.elementId = none) :
    Created s ⟨s.heap.addNode node, part⟩ creation where
  nodeIds := by
    have hOld := nodeIds_congr h (Heap.extends_addNode s.heap node)
    have hLast : (s.heap.addNode node).nodeId s.heap.nextNode = node.id :=
      congrArg Node.id (Heap.addNode_nodes_self node)
    rw [nodeIds, hNodes, hNode, List.map_append, hOld, List.map_singleton, hLast]
    rfl
  elementIds := by
    rw [hElement, Option.toList_none, List.append_nil, elementIds, hElements]
    rfl
  complete := by
    rintro - hComplete ref hRef
    rw [hElements] at hRef
    exact hComplete ref hRef

theorem created_element (h : Invariant s l g) {element : Element} {part : ModelPart}
    {creation : Creation} (hNodes : part.nodes = s.part.nodes)
    (hElements : part.elements.data = s.part.elements.data ++ [s.heap.nextElement])
    (hNode : creation.nodeId = none) (hElement : creation.elementId = some element.id)
    (hCount : creation.Fits → element.nodes.length = element.type.numberOfNodes) :
    Created s ⟨s.heap.addElement element, part⟩ creation where
  nodeIds := by
    rw [hNode, Option.toList_none, List.append_nil, nodeIds, hNodes]
    rfl
  elementIds := by
    have hOld := elementIds_congr h (Heap.extends_addElement s.heap element)
    have hLast : (s.heap.addElement element).elementId s.heap.nextElement = element.id :=
      congrArg Element.id (Heap.addElement_elements_self element)
    rw [elementIds, hElements, hElement, List.map_append, hOld, List.map_singleton, hLast]
    rfl
  complete := by
    rintro hFits hComplete ref hRef
    rw [hElements] at hRef
    rcases List.mem_append.mp hRef with hOld | hLast
    · dsimp only
      rw [(Heap.extends_addElement s.heap element).elements ref (h.elements.bounded ref hOld)]
      exact hComplete ref hOld
    · obtain rfl := List.mem_singleton.mp hLast
      dsimp only
      rw [Heap.addElement_elements_self]
      exact hCount hFits

theorem numberOfNodes_lt_int (type : ElementType) : type.numberOfNodes < 2 ^ 31 := by
  cases type <;> decide

/-- The comparison as `int` is one modulo `2 ^ 32`. -/
theorem numberOfNodes_of_cast {type : ElementType} {count : Nat}
    (h : Int32.ofNat type.numberOfNodes = Int32.ofNat count) :
    count % 2 ^ 32 = type.numberOfNodes := by
  have hBits := congrArg (fun v : Int32 => v.toBitVec.toNat) h
  have hType := numberOfNodes_lt_int type
  simp only [Int32.toBitVec_ofNat', BitVec.toNat_ofNat] at hBits
  omega

/-- A creation throws and changes nothing, or it keeps the invariant. -/
theorem Invariant.create (h : Invariant s l g) (creation : Creation) :
    (∃ message, ModelPart.create s creation = (s, .error message)) ∨
    ∃ s' l' g', ModelPart.create s creation = (s', .ok ()) ∧ Invariant s' l' g' ∧
      Created s s' creation := by
  cases creation with
  | node data =>
    rcases createNewNode_cases data.id data.x data.y data.z h.isLocal with hThrows | ⟨hContains, hId, hCreate⟩
    · exact .inl hThrows
    · exact .inr ⟨_, _, _, hCreate, h.withNode hContains hId, created_node h rfl rfl rfl rfl⟩
  | ghostNode data partitionIndex rehash =>
    rcases createNewGhostNode_cases data.id data.x data.y data.z rehash partitionIndex
      h.isGhost with hThrows | ⟨hContains, hId, s', hPrepared, hCreate⟩
    · exact .inl hThrows
    · obtain ⟨h', hIndex⟩ := h.prepared hPrepared
      let node : Node := ⟨data.id, data.x, data.y, data.z⟩
      have hCreated : Created s' (ModelPart.withGhostNode s' g node partitionIndex)
          (.ghostNode data partitionIndex rehash) := created_node h' rfl rfl rfl rfl
      cases hPrepared with
      | found _ =>
        exact .inr ⟨_, _, _, hCreate, h'.withGhostNode hIndex hContains hId, hCreated⟩
      | added _ _ _ =>
        obtain ⟨hNodeIds, hElementIds, hComplete⟩ := hCreated
        exact .inr ⟨_, _, _, hCreate, h'.withGhostNode hIndex hContains hId, hNodeIds,
          hElementIds, hComplete⟩
  | element id type connectivities size =>
    rcases createNewElement_cases id type connectivities h.isLocal with hThrows | ⟨hContains, hId, nodes, hNodes, hCast, hCreate⟩
    · exact .inl hThrows
    · obtain ⟨hLength, hRefs⟩ := nodesOf_spec hNodes
      refine .inr ⟨_, _, _, hCreate, h.withElement hContains hId ?_ (hLength ▸ size),
        created_element h rfl rfl rfl rfl ?_⟩
      · rintro ref hRef
        obtain ⟨other, hFind⟩ := hRefs ref hRef
        exact ((h.nodes.find_iff other ref).mp hFind).1
      · rintro hFits
        dsimp only
        rw [hLength] at hCast ⊢
        exact hFits (numberOfNodes_of_cast hCast)

end Create

end CoSimIO.ModelPart
