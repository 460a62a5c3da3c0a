import CoSimIO.ModelPart.Basic

/-! # The invariant of a `ModelPart` and what a creation does to it -/

namespace CoSimIO

open Sequences

set_option autoImplicit false

namespace Heap

/-- Objects that exist stay as they are. -/
structure Extends (heap heap' : Heap) : Prop where
  nodes : ∀ ref < heap.nextNode, heap'.nodes ref = heap.nodes ref
  elements : ∀ ref < heap.nextElement, heap'.elements ref = heap.elements ref
  nextNode : heap.nextNode ≤ heap'.nextNode
  nextElement : heap.nextElement ≤ heap'.nextElement
  nextModelPart : heap.nextModelPart ≤ heap'.nextModelPart

theorem extends_addNode (heap : Heap) (node : Node) : heap.Extends (heap.addNode node) where
  nodes _ hRef := if_neg (Nat.ne_of_lt hRef)
  elements _ _ := rfl
  nextNode := Nat.le_succ _
  nextElement := Nat.le_refl _
  nextModelPart := Nat.le_refl _

theorem extends_addElement (heap : Heap) (element : Element) :
    heap.Extends (heap.addElement element) where
  nodes _ _ := rfl
  elements _ hRef := if_neg (Nat.ne_of_lt hRef)
  nextNode := Nat.le_refl _
  nextElement := Nat.le_succ _
  nextModelPart := Nat.le_refl _

variable {heap : Heap}

theorem extends_nextModelPart {next : Nat} (h : heap.nextModelPart ≤ next) :
    heap.Extends { heap with nextModelPart := next } where
  nodes _ _ := rfl
  elements _ _ := rfl
  nextNode := Nat.le_refl _
  nextElement := Nat.le_refl _
  nextModelPart := h

@[simp] theorem addNode_nodes_self (node : Node) :
    (heap.addNode node).nodes heap.nextNode = node := if_pos rfl

@[simp] theorem addElement_elements_self (element : Element) :
    (heap.addElement element).elements heap.nextElement = element := if_pos rfl

end Heap

namespace IndexedVector

/-- The entries are objects of the heap with positive ids, and the access map finds them. -/
structure Sound (idOf : Nat → Int64) (next : Nat) (v : IndexedVector) : Prop where
  indexes : Indexes idOf v.data v.accessMap
  bounded : ∀ ref ∈ v.data, ref < next
  positive : ∀ ref ∈ v.data, 1 ≤ idOf ref

variable {idOf idOf' : Nat → Int64} {next next' : Nat} {v : IndexedVector}

theorem sound_empty : empty.Sound idOf next where
  indexes := indexes_nil
  bounded := nofun
  positive := nofun

theorem Sound.mono (h : v.Sound idOf next) (hIds : ∀ ref < next, idOf' ref = idOf ref)
    (hNext : next ≤ next') : v.Sound idOf' next' where
  indexes := h.indexes.congr fun ref hRef => (hIds ref (h.bounded ref hRef)).symm
  bounded ref hRef := Nat.lt_of_lt_of_le (h.bounded ref hRef) hNext
  positive ref hRef := by
    rw [hIds ref (h.bounded ref hRef)]
    exact h.positive ref hRef

theorem Sound.contains_iff (h : v.Sound idOf next) (id : Int64) :
    v.contains id = true ↔ id ∈ v.data.map idOf :=
  h.indexes.isSome_iff id

theorem Sound.find_iff (h : v.Sound idOf next) (id : Int64) (ref : Nat) :
    v.find id = some ref ↔ ref ∈ v.data ∧ idOf ref = id := by
  rw [find, Option.bind_eq_some_iff]
  constructor
  · rintro ⟨i, hIndex, hRef⟩
    obtain ⟨ref', hRef', hId⟩ := (h.indexes id i).mp hIndex
    obtain rfl := Option.some.inj (hRef'.symm.trans hRef)
    exact ⟨List.mem_of_getElem? hRef, hId⟩
  · rintro ⟨hMem, hId⟩
    obtain ⟨i, hRef⟩ := List.getElem?_of_mem hMem
    exact ⟨i, (h.indexes id i).mpr ⟨ref, hRef, hId⟩, hRef⟩

theorem Sound.find_eq_none_iff (h : v.Sound idOf next) (id : Int64) :
    v.find id = none ↔ id ∉ v.data.map idOf := by
  rw [Option.eq_none_iff_forall_ne_some]
  constructor
  · rintro hNone hMem
    obtain ⟨ref, hRef, hId⟩ := List.mem_map.mp hMem
    exact hNone ref ((h.find_iff id ref).mpr ⟨hRef, hId⟩)
  · rintro hNone ref hFind
    obtain ⟨hRef, hId⟩ := (h.find_iff id ref).mp hFind
    exact hNone (List.mem_map.mpr ⟨ref, hRef, hId⟩)

@[simp] theorem pushBack_data (ref : Nat) (id : Int64) :
    (v.pushBack ref id).data = v.data ++ [ref] := rfl

theorem Sound.pushBack (h : v.Sound idOf next) {ref : Nat} {id : Int64} (hRef : ref < next)
    (hId : idOf ref = id) (hPositive : 1 ≤ id) (hNew : id ∉ v.data.map idOf) :
    (v.pushBack ref id).Sound idOf next := by
  subst hId
  have hLength : (v.data ++ [ref]).length - 1 = v.data.length := by simp
  constructor
  · rw [IndexedVector.pushBack, hLength]
    exact h.indexes.concat hNew
  · rintro other hOther
    rcases List.mem_append.mp hOther with hOld | hLast
    · exact h.bounded other hOld
    · obtain rfl := List.mem_singleton.mp hLast
      exact hRef
  · rintro other hOther
    rcases List.mem_append.mp hOther with hOld | hLast
    · exact h.positive other hOld
    · obtain rfl := List.mem_singleton.mp hLast
      exact hPositive

theorem Sound.nodup (h : v.Sound idOf next) : v.data.Nodup :=
  List.Nodup.of_map idOf h.indexes.nodup

/-- There are fewer positive ids than `IdType` has values. -/
theorem length_lt_of_ids {ids : List Int64} (hNodup : ids.Nodup) (hPositive : ∀ id ∈ ids, 1 ≤ id) :
    ids.length < 2 ^ 63 := by
  have hMapped : (ids.map fun id => id.toInt.toNat - 1).Nodup := by
    apply hNodup.map_on
    intro a ha b hb hEq
    have hA := Int64.le_iff_toInt_le.mp (hPositive a ha)
    have hB := Int64.le_iff_toInt_le.mp (hPositive b hb)
    apply Int64.toInt_inj.mp
    have hOne : (1 : Int64).toInt = 1 := by decide
    omega
  have hSubset : (ids.map fun id => id.toInt.toNat - 1) ⊆ List.range (2 ^ 63 - 1) := by
    intro n hn
    obtain ⟨id, hId, rfl⟩ := List.mem_map.mp hn
    have hPos := Int64.le_iff_toInt_le.mp (hPositive id hId)
    have hBound := id.toInt_lt
    have hOne : (1 : Int64).toInt = 1 := by decide
    rw [List.mem_range]
    omega
  have hLength := hMapped.length_le_of_subset hSubset
  rw [List.length_map, List.length_range] at hLength
  omega

theorem Sound.length_lt (h : v.Sound idOf next) : v.data.length < 2 ^ 63 := by
  have hIds : (v.data.map idOf).length < 2 ^ 63 := by
    apply length_lt_of_ids h.indexes.nodup
    intro id hId
    obtain ⟨ref, hRef, rfl⟩ := List.mem_map.mp hId
    exact h.positive ref hRef
  rwa [List.length_map] at hIds

end IndexedVector

namespace ModelPart

mutual

/-- The part itself and all parts inside it. -/
def parts : ModelPart → List ModelPart
  | ⟨name, nodes, elements, localPart, ghostPart, partitions⟩ =>
    ⟨name, nodes, elements, localPart, ghostPart, partitions⟩ ::
      (partsOf localPart ++ partsOf ghostPart ++ partsOfPartitions partitions)

def partsOf : Option (Nat × ModelPart) → List ModelPart
  | none => []
  | some (_, part) => part.parts

def partsOfPartitions : List (Int32 × Nat × ModelPart) → List ModelPart
  | [] => []
  | (_, _, part) :: entries => part.parts ++ partsOfPartitions entries

end

mutual

/-- The objects that the `unique_ptr`s inside the part own. -/
def owners : ModelPart → List Nat
  | ⟨_, _, _, localPart, ghostPart, partitions⟩ =>
    ownersOf localPart ++ ownersOf ghostPart ++ ownersOfPartitions partitions

def ownersOf : Option (Nat × ModelPart) → List Nat
  | none => []
  | some (owner, part) => owner :: part.owners

def ownersOfPartitions : List (Int32 × Nat × ModelPart) → List Nat
  | [] => []
  | (_, owner, part) :: entries => owner :: part.owners ++ ownersOfPartitions entries

end

theorem parts_eq (part : ModelPart) : part.parts = part ::
    (partsOf part.localModelPart ++ partsOf part.ghostModelPart ++
      partsOfPartitions part.partitionModelParts) := by
  cases part
  rfl

theorem owners_eq (part : ModelPart) : part.owners =
    ownersOf part.localModelPart ++ ownersOf part.ghostModelPart ++
      ownersOfPartitions part.partitionModelParts := by
  cases part
  rfl

theorem partsOfPartitions_eq (entries : List (Int32 × Nat × ModelPart)) :
    partsOfPartitions entries = entries.flatMap fun entry => entry.2.2.parts := by
  induction entries with
  | nil => rfl
  | cons entry entries ih =>
    rw [partsOfPartitions, ih, List.flatMap_cons]

theorem ownersOfPartitions_eq (entries : List (Int32 × Nat × ModelPart)) :
    ownersOfPartitions entries =
      entries.flatMap fun entry => entry.2.1 :: entry.2.2.owners := by
  induction entries with
  | nil => rfl
  | cons entry entries ih =>
    rw [ownersOfPartitions, ih, List.flatMap_cons]

@[simp] theorem owners_pushNode (ref : Nat) (id : Int64) (part : ModelPart) :
    (pushNode ref id part).owners = part.owners := by
  rw [owners_eq, owners_eq part]
  rfl

@[simp] theorem owners_pushElement (ref : Nat) (id : Int64) (part : ModelPart) :
    (pushElement ref id part).owners = part.owners := by
  rw [owners_eq, owners_eq part]
  rfl

/-- A part without parts of its own. -/
structure Internal (heap : Heap) (name : Text) (part : ModelPart) : Prop where
  name : part.name = name
  nodes : part.nodes.Sound heap.nodeId heap.nextNode
  elements : part.elements.Sound heap.elementId heap.nextElement
  noLocal : part.localModelPart = none
  noGhost : part.ghostModelPart = none
  noPartitions : part.partitionModelParts = []

/-- The part of a partition: it has nodes only, its local and ghost part are empty. -/
structure Partition (heap : Heap) (entry : Int32 × Nat × ModelPart) : Prop where
  name : entry.2.2.name = Serializer.integerText entry.1.toInt
  nodes : entry.2.2.nodes.Sound heap.nodeId heap.nextNode
  elements : entry.2.2.elements = .empty
  inner : ∃ owner, entry.2.2.localModelPart = some (owner, internal "local".toList) ∧
    entry.2.2.ghostModelPart = some (owner + 1, internal "ghost".toList)
  noPartitions : entry.2.2.partitionModelParts = []

def partitionNodes (part : ModelPart) : List Nat :=
  part.partitionModelParts.flatMap fun entry => entry.2.2.nodes.data

/-- `l` and `g` are the local and the ghost part. -/
structure Invariant (s : State) (l g : Nat × ModelPart) : Prop where
  isLocal : s.part.localModelPart = some l
  isGhost : s.part.ghostModelPart = some g
  nodes : s.part.nodes.Sound s.heap.nodeId s.heap.nextNode
  elements : s.part.elements.Sound s.heap.elementId s.heap.nextElement
  localPart : Internal s.heap "local".toList l.2
  ghostPart : Internal s.heap "ghost".toList g.2
  ghostElements : g.2.elements = .empty
  interleaves : Interleaves l.2.nodes.data g.2.nodes.data s.part.nodes.data
  localElements : l.2.elements.data = s.part.elements.data
  keys : (s.part.partitionModelParts.map Prod.fst).Nodup
  partitions : ∀ entry ∈ s.part.partitionModelParts, Partition s.heap entry
  ghostNodes : (partitionNodes s.part).Perm g.2.nodes.data
  elementNodes : ∀ ref ∈ s.part.elements.data, (s.heap.elements ref).nodes ⊆ s.part.nodes.data ∧
    (s.heap.elements ref).nodes.length < 2 ^ 64
  owners : s.part.owners.Nodup
  ownersBound : ∀ owner ∈ s.part.owners, owner < s.heap.nextModelPart

section Frame

variable {heap heap' : Heap} {name : Text} {part : ModelPart}
  {entry : Int32 × Nat × ModelPart} {v : IndexedVector} {id : Int64} {ref : Nat}

theorem nodes_mono (h : v.Sound heap.nodeId heap.nextNode) (hHeap : heap.Extends heap') :
    v.Sound heap'.nodeId heap'.nextNode :=
  h.mono (fun ref hRef => congrArg Node.id (hHeap.nodes ref hRef)) hHeap.nextNode

theorem elements_mono (h : v.Sound heap.elementId heap.nextElement)
    (hHeap : heap.Extends heap') : v.Sound heap'.elementId heap'.nextElement :=
  h.mono (fun ref hRef => congrArg Element.id (hHeap.elements ref hRef)) hHeap.nextElement

theorem Internal.mono (h : Internal heap name part) (hHeap : heap.Extends heap') :
    Internal heap' name part :=
  { h with
    nodes := nodes_mono h.nodes hHeap
    elements := elements_mono h.elements hHeap }

theorem Partition.mono (h : Partition heap entry) (hHeap : heap.Extends heap') :
    Partition heap' entry :=
  { h with nodes := nodes_mono h.nodes hHeap }

theorem Internal.pushNode (h : Internal heap name part) (hRef : ref < heap.nextNode)
    (hId : heap.nodeId ref = id) (hPositive : 1 ≤ id)
    (hNew : id ∉ part.nodes.data.map heap.nodeId) :
    Internal heap name (pushNode ref id part) :=
  { h with nodes := h.nodes.pushBack hRef hId hPositive hNew }

theorem Internal.pushElement (h : Internal heap name part) (hRef : ref < heap.nextElement)
    (hId : heap.elementId ref = id) (hPositive : 1 ≤ id)
    (hNew : id ∉ part.elements.data.map heap.elementId) :
    Internal heap name (pushElement ref id part) :=
  { h with elements := h.elements.pushBack hRef hId hPositive hNew }

theorem Partition.pushNode (h : Partition heap entry) (hRef : ref < heap.nextNode)
    (hId : heap.nodeId ref = id) (hPositive : 1 ≤ id)
    (hNew : id ∉ entry.2.2.nodes.data.map heap.nodeId) :
    Partition heap (entry.1, entry.2.1, ModelPart.pushNode ref id entry.2.2) :=
  { h with nodes := h.nodes.pushBack hRef hId hPositive hNew }

end Frame

section Cases

variable (s : State) (l g : Nat × ModelPart)

/-- The state after a local node was appended. -/
def withNode (node : Node) : State :=
  ⟨s.heap.addNode node, { pushNode s.heap.nextNode node.id s.part with
    localModelPart := some (l.1, pushNode s.heap.nextNode node.id l.2) }⟩

def withGhostNode (node : Node) (partitionIndex : Int32) : State :=
  ⟨s.heap.addNode node, { pushNode s.heap.nextNode node.id s.part with
    ghostModelPart := some (g.1, pushNode s.heap.nextNode node.id g.2)
    partitionModelParts := s.part.partitionModelParts.map
      (pushPartitionNode partitionIndex s.heap.nextNode node.id) }⟩

def withElement (element : Element) : State :=
  ⟨s.heap.addElement element, { pushElement s.heap.nextElement element.id s.part with
    localModelPart := some (l.1, pushElement s.heap.nextElement element.id l.2) }⟩

def newPartition (heap : Heap) (partitionIndex : Int32) : Int32 × Nat × ModelPart :=
  (partitionIndex, heap.nextModelPart,
    { internal (Serializer.integerText partitionIndex.toInt) with
      localModelPart := some (heap.nextModelPart + 1, internal "local".toList)
      ghostModelPart := some (heap.nextModelPart + 2, internal "ghost".toList) })

def partitionKeys : List Int32 := s.part.partitionModelParts.map Prod.fst

/-- The part of the partition exists already, or it is the only change. -/
inductive Prepared (partitionIndex : Int32) : State → Prop
  | found : partitionIndex ∈ partitionKeys s → Prepared partitionIndex s
  | added (entries : List (Int32 × Nat × ModelPart)) : partitionIndex ∉ partitionKeys s →
      entries.Perm (s.part.partitionModelParts ++ [newPartition s.heap partitionIndex]) →
      Prepared partitionIndex ⟨{ s.heap with nextModelPart := s.heap.nextModelPart + 3 },
        { s.part with partitionModelParts := entries }⟩

variable {s l g} (id : Int64) (x y z : BitVec 64)

theorem new_cases (heap : Heap) (name : Text) :
    (∃ message, new heap name = .error message) ∨ (name ≠ [] ∧ '.' ∉ name ∧
      new heap name = .ok (initializeInternalModelParts heap (internal name))) := by
  rw [new]
  split
  · exact .inl ⟨_, rfl⟩
  · next hEmpty =>
    split
    · exact .inl ⟨_, rfl⟩
    · next hDot => exact .inr ⟨hEmpty, hDot, rfl⟩

theorem Node.new_cases : (∃ message, Node.new id x y z = .error message) ∨
    (1 ≤ id ∧ Node.new id x y z = .ok ⟨id, x, y, z⟩) := by
  rw [Node.new]
  split
  · exact .inl ⟨_, rfl⟩
  · next hId => exact .inr ⟨Int64.not_lt.mp hId, rfl⟩

/-- A creation throws and changes nothing, or it appends the new node. -/
theorem createNewNode_cases (hLocal : s.part.localModelPart = some l) :
    (∃ message, createNewNode s id x y z = (s, .error message)) ∨
    (s.part.nodes.contains id = false ∧ 1 ≤ id ∧
      createNewNode s id x y z = (withNode s l ⟨id, x, y, z⟩, .ok ())) := by
  rw [createNewNode]
  split
  · exact .inl ⟨_, rfl⟩
  · next hContains =>
    rcases Node.new_cases id x y z with ⟨message, hNode⟩ | ⟨hId, hNode⟩
    · rw [hNode]
      exact .inl ⟨_, rfl⟩
    · rw [hNode]
      refine .inr ⟨Bool.eq_false_iff.mpr hContains, hId, ?_⟩
      dsimp only
      rw [show (pushNode s.heap.nextNode id s.part).localModelPart = some l from hLocal]
      rfl

theorem new_partition (heap : Heap) (partitionIndex : Int32) :
    new { heap with nextModelPart := heap.nextModelPart + 1 }
      (Serializer.integerText partitionIndex.toInt) =
      .ok ({ heap with nextModelPart := heap.nextModelPart + 3 },
        (newPartition heap partitionIndex).2.2) := by
  have hDot : '.' ∉ Serializer.integerText partitionIndex.toInt := by
    rintro h
    exact absurd (Serializer.mem_integerText h) (by decide)
  rw [new, if_neg (Serializer.integerText_ne_nil _), if_neg hDot]
  rfl

theorem getPartitionModelPart_cases (s : State) (rehash : Rehash) (partitionIndex : Int32) :
    ∃ s', Prepared s partitionIndex s' ∧
      getPartitionModelPart s rehash partitionIndex = (s', .ok ()) := by
  rw [getPartitionModelPart]
  split
  · next hFound =>
    refine ⟨s, .found ?_, rfl⟩
    obtain ⟨entry, hEntry, hKey⟩ := List.any_eq_true.mp hFound
    exact List.mem_map.mpr ⟨entry, hEntry, of_decide_eq_true hKey⟩
  · next hMissing =>
    dsimp only
    rw [new_partition]
    refine ⟨_, .added _ ?_ (rehash.perm _), rfl⟩
    rintro hMem
    obtain ⟨entry, hEntry, hKey⟩ := List.mem_map.mp hMem
    exact hMissing (List.any_eq_true.mpr ⟨entry, hEntry, decide_eq_true hKey⟩)

/-- A partition part that is created together with the node could be created before it. -/
theorem createNewGhostNode_cases (rehash : Rehash) (partitionIndex : Int32)
    (hGhost : s.part.ghostModelPart = some g) :
    (∃ message, createNewGhostNode s rehash id x y z partitionIndex = (s, .error message)) ∨
    (s.part.nodes.contains id = false ∧ 1 ≤ id ∧ ∃ s', Prepared s partitionIndex s' ∧
      createNewGhostNode s rehash id x y z partitionIndex =
        (withGhostNode s' g ⟨id, x, y, z⟩ partitionIndex, .ok ())) := by
  rw [createNewGhostNode]
  split
  · exact .inl ⟨_, rfl⟩
  next hContains =>
  split
  · exact .inl ⟨_, rfl⟩
  rcases Node.new_cases id x y z with ⟨message, hNode⟩ | ⟨hId, hNode⟩
  · rw [hNode]
    exact .inl ⟨_, rfl⟩
  · rw [hNode]
    refine .inr ⟨Bool.eq_false_iff.mpr hContains, hId, ?_⟩
    dsimp only
    rw [show (pushNode s.heap.nextNode id s.part).ghostModelPart = some g from hGhost]
    dsimp only
    obtain ⟨s₁, hPrepared, hGet⟩ := getPartitionModelPart_cases
      ⟨s.heap.addNode ⟨id, x, y, z⟩, { pushNode s.heap.nextNode id s.part with
        ghostModelPart := some (g.1, pushNode s.heap.nextNode id g.2) }⟩ rehash partitionIndex
    rw [hGet]
    cases hPrepared with
    | found hFound => exact ⟨s, .found hFound, rfl⟩
    | added entries hMissing hPerm => exact ⟨_, .added entries hMissing hPerm, rfl⟩

theorem Element.new_cases (type : ElementType) (nodes : List Nat) :
    (∃ message, Element.new id type nodes = .error message) ∨
    (1 ≤ id ∧ 1 ≤ nodes.length ∧ Int32.ofNat type.numberOfNodes = Int32.ofNat nodes.length ∧
      Element.new id type nodes = .ok ⟨id, type, nodes⟩) := by
  rw [Element.new]
  split
  · exact .inl ⟨_, rfl⟩
  next hId =>
  split
  · exact .inl ⟨_, rfl⟩
  next hNodes =>
  split
  · exact .inl ⟨_, rfl⟩
  next hCount =>
  exact .inr ⟨Int64.not_lt.mp hId, Nat.le_of_not_lt hNodes, not_not.mp hCount, rfl⟩

theorem nodesOf_spec {part : ModelPart} {ids : List Int64} {refs : List Nat}
    (h : nodesOf part ids = .ok refs) :
    refs.length = ids.length ∧ ∀ ref ∈ refs, ∃ id, part.nodes.find id = some ref := by
  induction ids generalizing refs with
  | nil =>
    obtain rfl := Except.ok.inj h
    exact ⟨rfl, nofun⟩
  | cons id ids ih =>
    rw [nodesOf, pGetNode] at h
    cases hFind : part.nodes.find id with
    | none =>
      rw [hFind] at h
      nomatch h
    | some first =>
      cases hRest : nodesOf part ids with
      | error message =>
        rw [hFind, hRest] at h
        nomatch h
      | ok rest =>
        rw [hFind, hRest] at h
        obtain rfl := Except.ok.inj h
        obtain ⟨hLength, hRefs⟩ := ih hRest
        refine ⟨congrArg Nat.succ hLength, ?_⟩
        rintro ref hRef
        rcases List.mem_cons.mp hRef with rfl | hLater
        · exact ⟨id, hFind⟩
        · exact hRefs ref hLater

theorem createNewElement_cases (type : ElementType) (connectivities : List Int64)
    (hLocal : s.part.localModelPart = some l) :
    (∃ message, createNewElement s id type connectivities = (s, .error message)) ∨
    (s.part.elements.contains id = false ∧ 1 ≤ id ∧ ∃ nodes,
      nodesOf s.part connectivities = .ok nodes ∧
      Int32.ofNat type.numberOfNodes = Int32.ofNat nodes.length ∧
      createNewElement s id type connectivities =
        (withElement s l ⟨id, type, nodes⟩, .ok ())) := by
  rw [createNewElement]
  split
  · exact .inl ⟨_, rfl⟩
  next hContains =>
  cases hNodes : nodesOf s.part connectivities with
  | error message => exact .inl ⟨message, rfl⟩
  | ok nodes =>
    dsimp only
    rcases Element.new_cases id type nodes with
      ⟨message, hElement⟩ | ⟨hId, -, hCount, hElement⟩
    · rw [hElement]
      exact .inl ⟨message, rfl⟩
    · rw [hElement]
      refine .inr ⟨Bool.eq_false_iff.mpr hContains, hId, nodes, rfl, hCount, ?_⟩
      dsimp only
      rw [show (pushElement s.heap.nextElement id s.part).localModelPart = some l from hLocal]
      rfl

end Cases

end ModelPart

end CoSimIO
