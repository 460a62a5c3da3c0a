import CoSimIO.ModelPart.Placing
import CoSimIO.ModelPart.Preservation

/-! # How the parts inside a part are loaded

Their nodes and elements are loaded already, so that only pointers to them are in the stream.
-/

namespace CoSimIO

set_option autoImplicit false

/-- Only the number of model parts differs. -/
structure Heap.SameObjects (heap heap' : Heap) : Prop where
  nodes : heap'.nodes = heap.nodes
  elements : heap'.elements = heap.elements
  nextNode : heap'.nextNode = heap.nextNode
  nextElement : heap'.nextElement = heap.nextElement

theorem Heap.SameObjects.refl (heap : Heap) : heap.SameObjects heap := ⟨rfl, rfl, rfl, rfl⟩

theorem Heap.SameObjects.trans {heap₁ heap₂ heap₃ : Heap} (h : heap₁.SameObjects heap₂)
    (h' : heap₂.SameObjects heap₃) : heap₁.SameObjects heap₃ where
  nodes := h'.nodes.trans h.nodes
  elements := h'.elements.trans h.elements
  nextNode := h'.nextNode.trans h.nextNode
  nextElement := h'.nextElement.trans h.nextElement

namespace ModelPart

open Restore Restore.Writer Sequences Serializer

variable {cfg : Config} {rehash : Rehash} {heap : Heap} {layout : Object → BitVec 64}

section Part

variable {part old : ModelPart} {depth : Nat}
  {Before After₂ After₃ After₄ After₅ : List (BitVec 64) → Memory Heap → Prop}
  {P₃ P₄ : Option (Nat × ModelPart) → Prop}
  {P₅ : List (Int32 × Nat × ModelPart) → Prop}

/-- What `save` does after the nodes and elements -/
def saveInner (cfg : Config) (heap : Heap) (layout : Object → BitVec 64) (part : ModelPart) :
    Saver :=
  (saveOwned cfg heap layout "mpLocalModelPart".toList part.localModelPart).andThen
    ((saveOwned cfg heap layout "mpGhostModelPart".toList part.ghostModelPart).andThen
      ((emit (tracePoint cfg "mPartitionModelParts".toList)).andThen
        ((emit (Serializer.save cfg "size".toList
          (sizeItem part.partitionModelParts.length))).andThen
          (saveEntries cfg heap layout part.partitionModelParts))))

/-- What `load` does after the nodes and elements -/
def loadInner (cfg : Config) (rehash : Rehash) (depth : Nat) (old : ModelPart) (name : Text)
    (nodes elements : IndexedVector) : Loader Heap ModelPart := do
  let localPart ← loadOwned cfg (load cfg rehash depth) "mpLocalModelPart".toList
    old.localModelPart
  let ghostPart ← loadOwned cfg (load cfg rehash depth) "mpGhostModelPart".toList
    old.ghostModelPart
  loadPoint cfg "mPartitionModelParts".toList
  let size ← loadItem cfg "size".toList (.integer .unsignedLong)
    (BitVec.ofNat 64 old.partitionModelParts.length)
  let partitions ← (List.range size.toNat).foldlM
    (fun entries _ => loadEntry cfg rehash (load cfg rehash depth) entries)
    old.partitionModelParts
  return ⟨name, nodes, elements, localPart, ghostPart, partitions⟩

theorem reads_inner (name : Text) (nodes elements : IndexedVector)
    (hLocal : Reads (Ready cfg)
      (saveOwned cfg heap layout "mpLocalModelPart".toList part.localModelPart)
      (loadOwned cfg (load cfg rehash depth) "mpLocalModelPart".toList old.localModelPart)
      After₂ fun w s m => P₃ w ∧ After₃ s m)
    (hGhost : Reads (Ready cfg)
      (saveOwned cfg heap layout "mpGhostModelPart".toList part.ghostModelPart)
      (loadOwned cfg (load cfg rehash depth) "mpGhostModelPart".toList old.ghostModelPart)
      After₃ fun w s m => P₄ w ∧ After₄ s m)
    (hSize : part.partitionModelParts.length < 2 ^ 64)
    (hEntries : Reads (Ready cfg) (saveEntries cfg heap layout part.partitionModelParts)
      ((List.range part.partitionModelParts.length).foldlM
        (fun entries _ => loadEntry cfg rehash (load cfg rehash depth) entries)
        old.partitionModelParts) After₄ fun w s m => P₅ w ∧ After₅ s m) :
    Reads (Ready cfg) (saveInner cfg heap layout part)
      (loadInner cfg rehash depth old name nodes elements) After₂
      fun result s m => (result.name = name ∧ result.nodes = nodes ∧ result.elements = elements ∧
        P₃ result.localModelPart ∧ P₄ result.ghostModelPart ∧
        P₅ result.partitionModelParts) ∧ After₅ s m := by
  apply hLocal.bind
  intro localPart'
  apply (Reads.frame fun _ => hGhost).bind
  intro ghostPart'
  apply (reads_point (by decide)).bind
  intro _
  apply (reads_size hSize _).bind
  intro size
  apply Reads.of_fact
  intro hCount
  rw [hCount, ← andThen_emit_nil (saveEntries _ _ _ _)]
  apply (Reads.frame fun _ => Reads.frame fun _ => hEntries).bind
  intro entries'
  apply reads_pure
  rintro s m ⟨hP₃, hP₄, hP₅, hAfter⟩
  exact ⟨⟨rfl, rfl, rfl, hP₃, hP₄, hP₅⟩, hAfter⟩

/-- What is loaded member by member. -/
theorem reads_part (hName : Faithful cfg .string part.name)
    {After : IndexedVector → List (BitVec 64) → Memory Heap → Prop}
    {Between : IndexedVector → IndexedVector → List (BitVec 64) → Memory Heap → Prop}
    {Result : ModelPart → List (BitVec 64) → Memory Heap → Prop}
    (hNodes : Reads (Ready cfg)
      (part.nodes.save cfg "mNodes".toList (saveNodePointer cfg heap layout))
      (old.nodes.load cfg "mNodes".toList (nodePointee cfg) Heap.nodeId) Before After)
    (hElements : ∀ nodes, Reads (Ready cfg)
      (part.elements.save cfg "mElements".toList (saveElementPointer cfg heap layout))
      (old.elements.load cfg "mElements".toList (elementPointee cfg) Heap.elementId)
      (After nodes) fun elements => Between nodes elements)
    (hInner : ∀ nodes elements, Reads (Ready cfg) (saveInner cfg heap layout part)
      (loadInner cfg rehash depth old part.name nodes elements) (Between nodes elements) Result) :
    Reads (Ready cfg) (part.save cfg heap layout) (load cfg rehash (depth + 1) old) Before
      Result := by
  obtain ⟨name, nodes, elements, localPart, ghostPart, partitions⟩ := part
  rw [save, load]
  apply (reads_load (k := .string) (by decide) hName _).bind_eq
  apply hNodes.bind
  intro nodes'
  apply (hElements nodes').bind
  intro elements'
  exact hInner nodes' elements'

end Part

section Known

/-- The objects of the part are loaded, the parts that `pending` own are still to come. -/
structure Known (layout : Object → BitVec 64) (part : ModelPart) (r : Renaming) (loaded : Heap)
    (pending : List Nat) (s : List (BitVec 64)) (m : Memory Heap) : Prop where
  nodes : ∀ ref ∈ part.nodes.data,
    layout (.node ref) ∈ s ∧ m.Holds (layout (.node ref)) (r.node ref)
  elements : ∀ ref ∈ part.elements.data,
    layout (.element ref) ∈ s ∧ m.Holds (layout (.element ref)) (r.element ref)
  unread : ∀ owner ∈ pending, layout (.modelPart owner) ∉ s ∧
    m.loadedPointers (layout (.modelPart owner)) = none
  distinct : (pending.map fun owner => layout (.modelPart owner)).Nodup
  objects : loaded.SameObjects m.heap

/-- The objects have their ids at their new places. -/
structure KeepsIds (part : ModelPart) (r : Renaming) (heap loaded : Heap) : Prop where
  nodes : ∀ ref ∈ part.nodes.data, loaded.nodeId (r.node ref) = heap.nodeId ref
  elements : ∀ ref ∈ part.elements.data, loaded.elementId (r.element ref) = heap.elementId ref

variable {part inner old : ModelPart} {r : Renaming} {loaded : Heap} {pending : List Nat}
  {s : List (BitVec 64)} {m m' : Memory Heap} {v w : IndexedVector}

theorem Known.later (h : Known layout part r loaded pending s m) (hLater : m.Later m')
    (hObjects : m.heap.SameObjects m'.heap) :
    Known layout part r loaded pending s m' where
  nodes ref hRef := ⟨(h.nodes ref hRef).1, (h.nodes ref hRef).2.later hLater⟩
  elements ref hRef := ⟨(h.elements ref hRef).1, (h.elements ref hRef).2.later hLater⟩
  unread owner hOwner := by
    rw [hLater.loadedPointers]
    exact h.unread owner hOwner
  distinct := h.distinct
  objects := h.objects.trans hObjects

theorem holds_record {a b : BitVec 64} {ref : Nat} {object : Loaded} (h : m.Holds a ref)
    (hNew : m.loadedPointers b = none) : (m.record b object).Holds a ref := by
  obtain ⟨slot, hSlot, hLoaded, hContent⟩ := h
  have hNe : a ≠ b := by
    rintro rfl
    rw [hNew] at hLoaded
    nomatch hLoaded
  exact ⟨slot, hSlot, (if_neg hNe).trans hLoaded, hContent⟩

/-- The part that is loaded next is not one that is still to come. -/
theorem Known.record {owner : Nat} {object : Loaded}
    (h : Known layout part r loaded (owner :: pending) s m) :
    Known layout part r loaded pending (layout (.modelPart owner) :: s)
      (m.record (layout (.modelPart owner)) object) where
  nodes ref hRef := ⟨List.mem_cons_of_mem _ (h.nodes ref hRef).1,
    holds_record (h.nodes ref hRef).2 (h.unread owner List.mem_cons_self).2⟩
  elements ref hRef := ⟨List.mem_cons_of_mem _ (h.elements ref hRef).1,
    holds_record (h.elements ref hRef).2 (h.unread owner List.mem_cons_self).2⟩
  unread other hOther := by
    obtain ⟨hUnsaved, hUnread⟩ := h.unread other (List.mem_cons_of_mem owner hOther)
    have hDistinct := h.distinct
    rw [List.map_cons, List.nodup_cons] at hDistinct
    have hNe : layout (.modelPart other) ≠ layout (.modelPart owner) := by
      intro hEq
      exact hDistinct.1 (hEq ▸ List.mem_map_of_mem hOther)
    exact ⟨List.not_mem_cons_of_ne_of_not_mem hNe hUnsaved, (if_neg hNe).trans hUnread⟩
  distinct := (List.nodup_cons.mp h.distinct).2
  objects := h.objects

theorem reads_inner_vector {tag : Text} {address : Nat → BitVec 64} {content : Nat → Saver}
    {place : Nat → Nat} {T : Pointee Heap} {idOf : Heap → Nat → Int64} {id : Nat → Int64}
    (hTag : '"' ∉ tag) (hLength : v.data.length < 2 ^ 64) (hNodup : (v.data.map id).Nodup)
    (hHeld : ∀ s m, Known layout part r loaded pending s m → ∀ ref ∈ v.data,
      address ref ∈ s ∧ m.Holds (address ref) (place ref))
    (hIdOf : ∀ s m, Known layout part r loaded pending s m → idOf m.heap = idOf loaded)
    (hIds : ∀ ref ∈ v.data, idOf loaded (place ref) = id ref) :
    Reads (Ready cfg)
      (v.save cfg tag fun ref => savePointer cfg "E".toList none (address ref) (content ref))
      (w.load cfg tag T idOf) (Known layout part r loaded pending)
      fun result s m => Renamed place (idOf loaded) v result ∧
        Known layout part r loaded pending s m := by
  have hVector : Reads (Ready cfg)
      (saveVector cfg "mData".toList
        (fun ref => savePointer cfg "E".toList none (address ref) (content ref)) v.data)
      (loadPointerVector cfg "mData".toList (loadPointer cfg "E".toList T) w.data)
      (Known layout part r loaded pending)
      fun refs s m => refs = v.data.map place ∧ Known layout part r loaded pending s m := by
    apply Reads.pointwise
    intro s m hKnown
    apply (reads_vector_known (by decide) hLength (hHeld s m hKnown)).conseq fun _ _ h => h
    rintro refs s' m' ⟨hRefs, rfl, hLater, hHeap⟩
    exact ⟨hRefs, hKnown.later hLater (hHeap ▸ .refl _)⟩
  refine (reads_indexedVector hTag hVector ?_ hNodup).conseq (fun _ _ h => h) ?_
  · intro s m hKnown ref hRef
    rw [hIdOf s m hKnown]
    exact hIds ref hRef
  · rintro result s m ⟨hResult, hKnown⟩
    rw [hIdOf s m hKnown] at hResult
    exact ⟨hResult, hKnown⟩

theorem reads_inner_nodes (hIds : KeepsIds part r heap loaded)
    (hSubset : v.data ⊆ part.nodes.data) (hLength : v.data.length < 2 ^ 64)
    (hNodup : (v.data.map heap.nodeId).Nodup) :
    Reads (Ready cfg) (v.save cfg "mNodes".toList (saveNodePointer cfg heap layout))
      (w.load cfg "mNodes".toList (nodePointee cfg) Heap.nodeId)
      (Known layout part r loaded pending)
      fun result s m => Renamed r.node loaded.nodeId v result ∧
        Known layout part r loaded pending s m := by
  apply reads_inner_vector (by decide) hLength hNodup
  · intro s m hKnown ref hRef
    exact hKnown.nodes ref (hSubset hRef)
  · intro s m hKnown
    funext ref
    rw [Heap.nodeId, hKnown.objects.nodes]
    rfl
  · intro ref hRef
    exact hIds.nodes ref (hSubset hRef)

theorem reads_inner_elements (hIds : KeepsIds part r heap loaded)
    (hSubset : v.data ⊆ part.elements.data) (hLength : v.data.length < 2 ^ 64)
    (hNodup : (v.data.map heap.elementId).Nodup) :
    Reads (Ready cfg) (v.save cfg "mElements".toList (saveElementPointer cfg heap layout))
      (w.load cfg "mElements".toList (elementPointee cfg) Heap.elementId)
      (Known layout part r loaded pending)
      fun result s m => Renamed r.element loaded.elementId v result ∧
        Known layout part r loaded pending s m := by
  apply reads_inner_vector (by decide) hLength hNodup
  · intro s m hKnown ref hRef
    exact hKnown.elements ref (hSubset hRef)
  · intro s m hKnown
    funext ref
    rw [Heap.elementId, hKnown.objects.elements]
    rfl
  · intro ref hRef
    exact hIds.elements ref (hSubset hRef)

end Known

section Leaf

variable {part inner old : ModelPart} {r : Renaming} {loaded : Heap} {pending : List Nat}
  {s : List (BitVec 64)} {m m' : Memory Heap} {depth owner : Nat} {name tag : Text}

/-- There are no parts inside. -/
structure Leaf (part : ModelPart) : Prop where
  noLocal : part.localModelPart = none
  noGhost : part.ghostModelPart = none
  noPartitions : part.partitionModelParts = []

theorem Internal.leaf (h : Internal heap name part) : Leaf part :=
  ⟨h.noLocal, h.noGhost, h.noPartitions⟩

theorem Leaf.owners_eq (h : Leaf part) : part.owners = [] := by
  rw [ModelPart.owners_eq, h.noLocal, h.noGhost, h.noPartitions]
  rfl

theorem same_iff {nodeId elementId : Nat → Int64} {other : ModelPart} :
    Same r nodeId elementId inner other ↔ other.name = inner.name ∧
      Renamed r.node nodeId inner.nodes other.nodes ∧
      Renamed r.element elementId inner.elements other.elements ∧
      SameOwned r nodeId elementId inner.localModelPart other.localModelPart ∧
      SameOwned r nodeId elementId inner.ghostModelPart other.ghostModelPart ∧
      ∃ entries, other.partitionModelParts.Perm entries ∧
        SameEntries r nodeId elementId inner.partitionModelParts entries := by
  cases inner
  exact Iff.rfl

theorem same_of_leaf (hLeaf : Leaf inner) {other : ModelPart} (hOther : Leaf other)
    {nodeId elementId : Nat → Int64} (hName : other.name = inner.name)
    (hNodes : Renamed r.node nodeId inner.nodes other.nodes)
    (hElements : Renamed r.element elementId inner.elements other.elements) :
    Same r nodeId elementId inner other := by
  rw [same_iff, hLeaf.noLocal, hLeaf.noGhost, hLeaf.noPartitions, hOther.noLocal, hOther.noGhost,
    hOther.noPartitions]
  exact ⟨hName, hNodes, hElements, rfl, rfl, [], .refl _, rfl⟩

theorem reads_leaf (hIds : KeepsIds part r heap loaded) (hInner : Internal heap name inner)
    (hName : Faithful cfg .string name) (hNodes : inner.nodes.data ⊆ part.nodes.data)
    (hElements : inner.elements.data ⊆ part.elements.data) (hOld : Leaf old) :
    Reads (Ready cfg) (inner.save cfg heap layout) (load cfg rehash (depth + 1) old)
      (Known layout part r loaded pending)
      fun result s m => Same r loaded.nodeId loaded.elementId inner result ∧
        Known layout part r loaded pending s m := by
  have hNodeCount := hInner.nodes.length_lt
  have hElementCount := hInner.elements.length_lt
  have hLeaf := hInner.leaf
  have hEntries : Reads (Ready cfg) (saveEntries cfg heap layout inner.partitionModelParts)
      ((List.range inner.partitionModelParts.length).foldlM
        (fun entries _ => loadEntry cfg rehash (load cfg rehash depth) entries)
        old.partitionModelParts) (Known layout part r loaded pending)
      fun w s m => w = old.partitionModelParts ∧ Known layout part r loaded pending s m := by
    rw [hLeaf.noPartitions]
    exact reads_pure fun s m h => ⟨rfl, h⟩
  apply reads_part (by rw [hInner.name]; exact hName)
    (reads_inner_nodes hIds hNodes (by omega) hInner.nodes.indexes.nodup)
    fun _ => Reads.frame fun _ =>
      reads_inner_elements hIds hElements (by omega) hInner.elements.indexes.nodup
  intro nodes elements
  apply Reads.of_fact
  intro hNodes'
  apply Reads.of_fact
  intro hElements'
  refine Reads.conseq (reads_inner inner.name nodes elements
    (by rw [hLeaf.noLocal]; exact reads_unique_null)
    (by rw [hLeaf.noGhost]; exact reads_unique_null)
    (by rw [hLeaf.noPartitions]; decide) hEntries) (fun _ _ h => h) ?_
  rintro result s m ⟨⟨hResult, rfl, rfl, hLocal, hGhost, hPartitions⟩, hKnown⟩
  refine ⟨same_of_leaf hLeaf ⟨?_, ?_, ?_⟩ hResult hNodes' hElements', hKnown⟩
  · rw [hLocal, hOld.noLocal]
  · rw [hGhost, hOld.noGhost]
  · rw [hPartitions, hOld.noPartitions]

theorem leaf_internal (name : Text) : Leaf (internal name) := ⟨rfl, rfl, rfl⟩

variable {content : ModelPart → Loader Heap ModelPart} {owned : Option (Nat × ModelPart)}
  {rest : List Nat}

/-- A part that a `unique_ptr` owns is loaded into the old one, or into a new one. -/
theorem reads_owned (hTag : '"' ∉ tag) (hOld : ∀ o ∈ owned, Leaf o.2)
    (hContent : ∀ old, Leaf old → Reads (Ready cfg) (inner.save cfg heap layout) (content old)
      (Known layout part r loaded pending)
      fun result s m => Same r loaded.nodeId loaded.elementId inner result ∧
        Known layout part r loaded rest s m) :
    Reads (Ready cfg) (saveOwned cfg heap layout tag (some (owner, inner)))
      (loadOwned cfg content tag owned) (Known layout part r loaded (owner :: pending))
      fun result s m => SameOwned r loaded.nodeId loaded.elementId (some (owner, inner)) result ∧
        Known layout part r loaded rest s m := by
  apply reads_unique_new hTag
  intro s m hKnown
  obtain ⟨hUnsaved, hUnread⟩ := hKnown.unread owner List.mem_cons_self
  refine ⟨hUnsaved, hUnread, ?_⟩
  have hTaken : ∃ taken m', (∀ input, (owned.elim createDefault pure : Loader Heap _) (input, m) =
      .ok (taken, input, m')) ∧ Leaf taken.2 ∧ Known layout part r loaded (owner :: pending) s m' := by
    cases owned with
    | none =>
      refine ⟨(m.heap.nextModelPart, internal []),
        { m with heap := { m.heap with nextModelPart := m.heap.nextModelPart + 1 } },
        fun _ => rfl, leaf_internal [], ?_⟩
      exact hKnown.later ⟨rfl, Nat.le_refl _, fun _ _ => rfl⟩ ⟨rfl, rfl, rfl, rfl⟩
    | some taken => exact ⟨taken, m, fun _ => rfl, hOld taken rfl, hKnown⟩
  obtain ⟨taken, m', hTake, hLeaf, hKnown'⟩ := hTaken
  refine ⟨taken, m', hTake, (hContent taken.2 hLeaf).conseq ?_ ?_⟩
  · rintro s'' m'' ⟨rfl, rfl⟩
    exact hKnown'.record
  · rintro result s'' m'' ⟨hSame, hRest⟩
    exact ⟨⟨taken.1, result, rfl, hSame⟩, hRest⟩

theorem reads_owned_leaf (hIds : KeepsIds part r heap loaded) (hInner : Internal heap name inner)
    (hName : Faithful cfg .string name) (hNodes : inner.nodes.data ⊆ part.nodes.data)
    (hElements : inner.elements.data ⊆ part.elements.data) (hTag : '"' ∉ tag)
    (hOld : ∀ o ∈ owned, Leaf o.2) :
    Reads (Ready cfg) (saveOwned cfg heap layout tag (some (owner, inner)))
      (loadOwned cfg (load cfg rehash (depth + 1)) tag owned)
      (Known layout part r loaded (owner :: pending))
      fun result s m => SameOwned r loaded.nodeId loaded.elementId (some (owner, inner)) result ∧
        Known layout part r loaded pending s m :=
  reads_owned hTag hOld fun _ hLeaf => reads_leaf hIds hInner hName hNodes hElements hLeaf

theorem faithful_local : Faithful cfg .string "local".toList :=
  faithful_of_plain (by decide) (by decide)

theorem faithful_ghost : Faithful cfg .string "ghost".toList :=
  faithful_of_plain (by decide) (by decide)

end Leaf

section Partitions

variable {part old : ModelPart} {r : Renaming} {loaded : Heap} {pending : List Nat}
  {depth : Nat} {entry : Int32 × Nat × ModelPart}

theorem faithful_integerText (key : Int32) :
    Faithful cfg .string (integerText key.toInt) := by
  have hQuote : '"' ∉ integerText key.toInt := by
    intro hMem
    exact absurd (mem_integerText hMem) (by decide)
  have hDigits : (Nat.toDigits 10 key.toInt.natAbs).length ≤ 10 := by
    rw [Nat.length_toDigits_le_iff (by decide) (by decide)]
    have hLower := key.le_toInt
    have hUpper := key.toInt_lt
    omega
  refine faithful_of_plain ?_ hQuote
  rw [integerText]
  split
  · rw [List.length_cons]
    omega
  · omega

theorem reads_partition (hIds : KeepsIds part r heap loaded) (hEntry : Partition heap entry)
    (hNodes : entry.2.2.nodes.data ⊆ part.nodes.data) (hOld : Leaf old) :
    Reads (Ready cfg) (entry.2.2.save cfg heap layout) (load cfg rehash (depth + 2) old)
      (Known layout part r loaded (entry.2.2.owners ++ pending))
      fun result s m => Same r loaded.nodeId loaded.elementId entry.2.2 result ∧
        Known layout part r loaded pending s m := by
  obtain ⟨owner, hLocal, hGhost⟩ := hEntry.inner
  have hOwners : entry.2.2.owners = [owner, owner + 1] := by
    rw [owners_eq, hLocal, hGhost, hEntry.noPartitions]
    rfl
  have hNodeCount := hEntry.nodes.length_lt
  have hEntries : Reads (Ready cfg) (saveEntries cfg heap layout entry.2.2.partitionModelParts)
      ((List.range entry.2.2.partitionModelParts.length).foldlM
        (fun entries _ => loadEntry cfg rehash (load cfg rehash (depth + 1)) entries)
        old.partitionModelParts) (Known layout part r loaded pending)
      fun w s m => w = old.partitionModelParts ∧ Known layout part r loaded pending s m := by
    rw [hEntry.noPartitions]
    exact reads_pure fun s m h => ⟨rfl, h⟩
  have hLocalPart : Reads (Ready cfg)
      (saveOwned cfg heap layout "mpLocalModelPart".toList entry.2.2.localModelPart)
      (loadOwned cfg (load cfg rehash (depth + 1)) "mpLocalModelPart".toList old.localModelPart)
      (Known layout part r loaded (owner :: (owner + 1) :: pending))
      fun result s m => SameOwned r loaded.nodeId loaded.elementId
        (some (owner, internal "local".toList)) result ∧
        Known layout part r loaded ((owner + 1) :: pending) s m := by
    rw [hLocal, hOld.noLocal]
    exact reads_owned_leaf hIds (internal_internal heap _) faithful_local nofun nofun
      (by decide) nofun
  have hGhostPart : Reads (Ready cfg)
      (saveOwned cfg heap layout "mpGhostModelPart".toList entry.2.2.ghostModelPart)
      (loadOwned cfg (load cfg rehash (depth + 1)) "mpGhostModelPart".toList old.ghostModelPart)
      (Known layout part r loaded ((owner + 1) :: pending))
      fun result s m => SameOwned r loaded.nodeId loaded.elementId
        (some (owner + 1, internal "ghost".toList)) result ∧
        Known layout part r loaded pending s m := by
    rw [hGhost, hOld.noGhost]
    exact reads_owned_leaf hIds (internal_internal heap _) faithful_ghost nofun nofun
      (by decide) nofun
  rw [hOwners]
  apply reads_part (by rw [hEntry.name]; exact faithful_integerText entry.1)
    (reads_inner_nodes hIds hNodes (by omega) hEntry.nodes.indexes.nodup)
    fun _ => Reads.frame fun _ => reads_inner_elements hIds (by rw [hEntry.elements]; nofun)
      (by rw [hEntry.elements]; decide) (by rw [hEntry.elements]; exact List.nodup_nil)
  intro nodes elements
  apply Reads.of_fact
  intro hNodes'
  apply Reads.of_fact
  intro hElements'
  refine Reads.conseq (reads_inner entry.2.2.name nodes elements hLocalPart hGhostPart
    (by rw [hEntry.noPartitions]; decide) hEntries) (fun _ _ h => h) ?_
  · rintro result s m ⟨⟨hName, rfl, rfl, hLocal', hGhost', hPartitions'⟩, hKnown⟩
    refine ⟨same_iff.mpr ⟨hName, hNodes', hElements', ?_, ?_, [], ?_, ?_⟩, hKnown⟩
    · rw [hLocal]
      exact hLocal'
    · rw [hGhost]
      exact hGhost'
    · rw [hPartitions', hOld.noPartitions]
    · rw [hEntry.noPartitions]
      rfl

end Partitions

end ModelPart

end CoSimIO
