import CoSimIO.ModelPart.Bulk
import CoSimIO.ModelPart.PartitionMap

/-! # The parts that `load` is called for

Less than the invariant: nothing is known of the ids of the nodes of a partition part, because a
part that is not in the stream keeps its nodes while others are loaded into them.
-/

namespace CoSimIO.ModelPart

open Sequences

set_option autoImplicit false

/-- Objects that were created already, none of them twice -/
structure Placeable (next : Nat) (refs : List Nat) : Prop where
  nodup : refs.Nodup
  bounded : ∀ ref ∈ refs, ref < next

/-- The part of a partition, apart from the ids -/
structure Shaped (next : Nat) (entry : Entry) : Prop where
  name : entry.2.2.name = Serializer.integerText entry.1.toInt
  bounded : ∀ ref ∈ entry.2.2.nodes.data, ref < next
  elements : entry.2.2.elements = .empty
  inner : ∃ owner owner', entry.2.2.localModelPart = some (owner, internal "local".toList) ∧
    entry.2.2.ghostModelPart = some (owner', internal "ghost".toList)
  noPartitions : entry.2.2.partitionModelParts = []

structure Loadable (s : State) : Prop where
  nodes : Placeable s.heap.nextNode s.part.nodes.data
  elements : Placeable s.heap.nextElement s.part.elements.data
  localPart : ∃ l, s.part.localModelPart = some l ∧ Leaf l.2
  ghostPart : ∃ g, s.part.ghostModelPart = some g ∧ Leaf g.2
  keys : (keys s.part.partitionModelParts).Nodup
  partitions : ∀ entry ∈ s.part.partitionModelParts, Shaped s.heap.nextNode entry

section Steps

variable {next next' ref : Nat} {id : Int64} {refs : List Nat} {entry : Entry} {inner : ModelPart}
  {s s' : State} {l g : Nat × ModelPart} {heap : Heap} {partitionIndex : Int32}

theorem Placeable.concat (h : Placeable next refs) : Placeable (next + 1) (refs ++ [next]) where
  nodup := by
    rw [← List.concat_eq_append]
    exact h.nodup.concat fun hMem => Nat.lt_irrefl _ (h.bounded _ hMem)
  bounded ref hRef := by
    rcases List.mem_append.mp hRef with hOld | hLast
    · exact Nat.lt_succ_of_lt (h.bounded ref hOld)
    · exact Nat.lt_succ_of_le (Nat.le_of_eq (List.mem_singleton.mp hLast))

theorem Shaped.mono (h : Shaped next entry) (hNext : next ≤ next') : Shaped next' entry :=
  { h with bounded := fun ref hRef => Nat.lt_of_lt_of_le (h.bounded ref hRef) hNext }

theorem Shaped.pushNode (h : Shaped next entry) (hRef : ref < next) :
    Shaped next (entry.1, entry.2.1, ModelPart.pushNode ref id entry.2.2) :=
  { h with
    bounded := by
      intro other hOther
      rcases List.mem_append.mp hOther with hOld | hLast
      · exact h.bounded other hOld
      · exact List.mem_singleton.mp hLast ▸ hRef }

theorem Shaped.pushPartitionNode (h : Shaped next entry) (hRef : ref < next) :
    Shaped next (pushPartitionNode partitionIndex ref id entry) := by
  rw [ModelPart.pushPartitionNode]
  split
  · exact h.pushNode hRef
  · exact h

theorem shaped_newPartition (heap : Heap) (partitionIndex : Int32) :
    Shaped next (newPartition heap partitionIndex) where
  name := rfl
  bounded := nofun
  elements := rfl
  inner := ⟨_, _, rfl, rfl⟩
  noPartitions := rfl

theorem Partition.shaped (h : Partition heap entry) : Shaped heap.nextNode entry where
  name := h.name
  bounded := h.nodes.bounded
  elements := h.elements
  inner := by
    obtain ⟨owner, hLocal, hGhost⟩ := h.inner
    exact ⟨owner, owner + 1, hLocal, hGhost⟩
  noPartitions := h.noPartitions

theorem Invariant.loadable (h : Invariant s l g) : Loadable s where
  nodes := ⟨h.nodes.nodup, h.nodes.bounded⟩
  elements := ⟨h.elements.nodup, h.elements.bounded⟩
  localPart := ⟨l, h.isLocal, h.localPart.leaf⟩
  ghostPart := ⟨g, h.isGhost, h.ghostPart.leaf⟩
  keys := h.keys
  partitions entry hEntry := (h.partitions entry hEntry).shaped

theorem Leaf.pushNode (h : Leaf inner) : Leaf (pushNode ref id inner) :=
  ⟨h.noLocal, h.noGhost, h.noPartitions⟩

theorem Leaf.pushElement (h : Leaf inner) : Leaf (pushElement ref id inner) :=
  ⟨h.noLocal, h.noGhost, h.noPartitions⟩

theorem keys_pushPartitionNode (entries : List Entry) :
    keys (entries.map (pushPartitionNode partitionIndex ref id)) = keys entries := by
  rw [keys, List.map_map]
  exact List.map_congr_left fun entry _ => pushPartitionNode_fst entry

namespace Loadable

theorem withNode (h : Loadable s) (hLeaf : Leaf l.2) (node : Node) :
    Loadable (withNode s l node) where
  nodes := h.nodes.concat
  elements := h.elements
  localPart := ⟨_, rfl, hLeaf.pushNode⟩
  ghostPart := h.ghostPart
  keys := h.keys
  partitions entry hEntry := (h.partitions entry hEntry).mono (Nat.le_succ _)

theorem withGhostNode (h : Loadable s) (hLeaf : Leaf g.2) (node : Node) :
    Loadable (withGhostNode s g node partitionIndex) where
  nodes := h.nodes.concat
  elements := h.elements
  localPart := h.localPart
  ghostPart := ⟨_, rfl, hLeaf.pushNode⟩
  keys := (keys_pushPartitionNode _).symm ▸ h.keys
  partitions entry hEntry := by
    obtain ⟨old, hOld, rfl⟩ := List.mem_map.mp hEntry
    exact ((h.partitions old hOld).mono (Nat.le_succ _)).pushPartitionNode (Nat.lt_succ_self _)

theorem withElement (h : Loadable s) (hLeaf : Leaf l.2) (element : Element) :
    Loadable (withElement s l element) where
  nodes := h.nodes
  elements := h.elements.concat
  localPart := ⟨_, rfl, hLeaf.pushElement⟩
  ghostPart := h.ghostPart
  keys := h.keys
  partitions := h.partitions

theorem prepared (h : Loadable s) (hPrepared : Prepared s partitionIndex s') : Loadable s' := by
  cases hPrepared with
  | found hFound => exact h
  | added entries hMissing hPerm =>
    refine { h with keys := ?_, partitions := ?_ }
    · apply (hPerm.map Prod.fst).nodup_iff.mpr
      rw [List.map_append, List.map_singleton, ← List.concat_eq_append]
      exact h.keys.concat hMissing
    intro entry hEntry
    rcases List.mem_append.mp (hPerm.mem_iff.mp hEntry) with hOld | hNew
    · exact h.partitions entry hOld
    · obtain rfl := List.mem_singleton.mp hNew
      exact shaped_newPartition _ _

theorem create (h : Loadable s) (creation : Creation) : Loadable (create s creation).1 := by
  obtain ⟨l, hLocal, hLeafL⟩ := h.localPart
  obtain ⟨g, hGhost, hLeafG⟩ := h.ghostPart
  cases creation with
  | node data =>
    rw [ModelPart.create]
    rcases createNewNode_cases data.id data.x data.y data.z hLocal with
      ⟨message, hThrows⟩ | ⟨-, -, hState⟩
    · rw [hThrows]
      exact h
    · rw [hState]
      exact h.withNode hLeafL _
  | ghostNode data partitionIndex rehash =>
    rw [ModelPart.create]
    rcases createNewGhostNode_cases data.id data.x data.y data.z rehash partitionIndex hGhost with
      ⟨message, hThrows⟩ | ⟨-, -, s₁, hPrepared, hState⟩
    · rw [hThrows]
      exact h
    · rw [hState]
      exact (h.prepared hPrepared).withGhostNode hLeafG _
  | element id type connectivities size =>
    rw [ModelPart.create]
    rcases createNewElement_cases id type connectivities hLocal with
      ⟨message, hThrows⟩ | ⟨-, -, nodes, -, -, hState⟩
    · rw [hThrows]
      exact h
    · rw [hState]
      exact h.withElement hLeafL _

theorem createEach (h : Loadable s) (todo : List Creation) : Loadable (createEach s todo).1 := by
  induction todo generalizing s with
  | nil => exact h
  | cons creation todo ih =>
    have hNext := h.create creation
    rw [ModelPart.createEach]
    split
    · next hCreate => exact ih (by rwa [hCreate] at hNext)
    · next hCreate => rwa [hCreate] at hNext

theorem apply (h : Loadable s) (op : Op) : Loadable (apply s op).1 := by
  cases op with
  | clear =>
    obtain ⟨l, g, hInvariant⟩ := Invariant.clear s
    exact hInvariant.loadable
  | _ =>
    rw [apply_fst (by nofun)]
    exact h.createEach _

end Loadable

end Steps

end CoSimIO.ModelPart
