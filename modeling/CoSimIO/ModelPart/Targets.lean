import CoSimIO.ModelPart.Overwriting

/-! # Which parts `load` overwrites

What is loaded equals what was saved unless the part that it is loaded into has the part of a
partition that the saved one does not have, or has differently.
-/

namespace CoSimIO.ModelPart

open Sequences Serializer

set_option autoImplicit false

/-- Where the nodes of the part of a partition are among all nodes -/
def positions (part : ModelPart) (entry : Entry) : List (Option Nat) :=
  entry.2.2.nodes.data.map part.nodes.data.idxOf?

/-- The same partition with the nodes at the same places, and the same ids for them -/
structure MatchingEntry (s t : State) (saved entry : Entry) : Prop where
  key : entry.1 = saved.1
  positions : positions t.part entry = positions s.part saved
  accessMap : entry.2.2.nodes.accessMap = saved.2.2.nodes.accessMap

def Matches (s t : State) : Prop :=
  ∀ entry ∈ t.part.partitionModelParts, ∃ saved ∈ s.part.partitionModelParts,
    MatchingEntry s t saved entry

section Entries

variable {s t : State} {l g : Nat × ModelPart} {r : Renaming} {nodeId elementId : Nat → Int64}
  {heap : Heap} {next : Nat} {saved entry : Entry} {result : ModelPart}

theorem renamed_empty {place : Nat → Nat} {idOf : Nat → Int64} :
    Renamed place idOf .empty .empty := ⟨rfl, indexes_nil⟩

theorem sameOwned_internal {name : Text} {owner owner' : Nat} :
    SameOwned r nodeId elementId (some (owner, internal name)) (some (owner', internal name)) :=
  ⟨owner', internal name, rfl, same_of_leaf (leaf_internal name) (leaf_internal name) rfl
    renamed_empty renamed_empty⟩

/-- The parts of a partition can differ in their nodes only. -/
theorem sameEntry_iff (hSaved : Partition heap saved) (hEntry : Shaped next entry) :
    SameEntry r nodeId elementId saved entry ↔
      entry.1 = saved.1 ∧ Renamed r.node nodeId saved.2.2.nodes entry.2.2.nodes := by
  rw [SameEntry, same_iff]
  constructor
  · rintro ⟨hKey, -, hNodes, -⟩
    exact ⟨hKey, hNodes⟩
  · rintro ⟨hKey, hNodes⟩
    obtain ⟨owner, hLocal, hGhost⟩ := hSaved.inner
    obtain ⟨ownerL, ownerG, hLocal', hGhost'⟩ := hEntry.inner
    refine ⟨hKey, ?_, hNodes, ?_, ?_, ?_, ?_⟩
    · rw [hSaved.name, hEntry.name, hKey]
    · rw [hSaved.elements, hEntry.elements]
      exact renamed_empty
    · rw [hLocal, hLocal']
      exact sameOwned_internal
    · rw [hGhost, hGhost']
      exact sameOwned_internal
    · rw [hSaved.noPartitions, hEntry.noPartitions]
      exact ⟨[], .refl _, rfl⟩

theorem Renamed.congr {place place' : Nat → Nat} {idOf : Nat → Int64} {v w : IndexedVector}
    (h : Renamed place idOf v w) (hPlaces : ∀ ref ∈ v.data, place ref = place' ref) :
    Renamed place' idOf v w where
  data := h.data.trans (List.map_congr_left hPlaces)
  indexes := h.indexes

/-- An entry of the target is what an entry of the saved part becomes. -/
theorem renamed_iff (h : Invariant s l g) (h' : Loadable t) (hIds : KeepsIds s.part (places s t)
      s.heap heap) (hSaved : saved ∈ s.part.partitionModelParts)
    (hEntry : entry ∈ t.part.partitionModelParts) :
    Renamed (places s t).node heap.nodeId saved.2.2.nodes entry.2.2.nodes ↔
      positions t.part entry = positions s.part saved ∧
        entry.2.2.nodes.accessMap = saved.2.2.nodes.accessMap := by
  have hSubset := h.partitionNodes_subset hSaved
  have hIndexes : Indexes heap.nodeId (saved.2.2.nodes.data.map (places s t).node)
      saved.2.2.nodes.accessMap :=
    (h.partitions saved hSaved).nodes.indexes.map fun ref hRef => hIds.nodes ref (hSubset hRef)
  have hData : entry.2.2.nodes.data = saved.2.2.nodes.data.map (places s t).node ↔
      positions t.part entry = positions s.part saved :=
    eq_map_placed_iff h.nodes.nodup h'.nodes.nodup (fun _ hRef => hSubset hRef)
      (h'.partitions entry hEntry).bounded
  constructor
  · rintro ⟨hNodes, hMap⟩
    exact ⟨hData.mp hNodes, hMap.eq (hNodes ▸ hIndexes)⟩
  · rintro ⟨hPositions, hMap⟩
    have hNodes := hData.mpr hPositions
    exact ⟨hNodes, by rw [hNodes, hMap]; exact hIndexes⟩

theorem matchingEntry_iff (h : Invariant s l g) (h' : Loadable t) (hIds : KeepsIds s.part
      (places s t) s.heap heap) (hSaved : saved ∈ s.part.partitionModelParts)
    (hEntry : entry ∈ t.part.partitionModelParts) :
    SameEntry (places s t) heap.nodeId heap.elementId saved entry ↔
      MatchingEntry s t saved entry := by
  rw [sameEntry_iff (h.partitions saved hSaved) (h'.partitions entry hEntry),
    renamed_iff h h' hIds hSaved hEntry]
  exact ⟨fun ⟨hKey, hPositions, hMap⟩ => ⟨hKey, hPositions, hMap⟩,
    fun ⟨hKey, hPositions, hMap⟩ => ⟨hKey, hPositions, hMap⟩⟩

end Entries

section Keys

variable {r : Renaming} {nodeId elementId : Nat → Int64} {olds parts saved : List Entry}

/-- The entries that the map had before and the missing ones are all entries. -/
theorem perm_missing (hParts : (keys parts).Nodup) (hOlds : (keys olds).Nodup)
    (hSaved : saved ⊆ parts) (hSame : List.Forall₂ (SameEntry r nodeId elementId) saved olds) :
    parts.Perm (saved ++ missing olds parts) := by
  have hKeys : keys saved = keys olds := (map_fst_of_same hSame).symm
  have hNodup : (keys (saved ++ missing olds parts)).Nodup := by
    rw [keys_append, hKeys]
    exact nodup_keys_missing hOlds hParts
  rw [List.perm_ext_iff_of_nodup (.of_map Prod.fst hParts) (.of_map Prod.fst hNodup)]
  intro entry
  rw [List.mem_append, missing, List.mem_filter, decide_eq_true_iff, ← hKeys]
  constructor
  · intro hEntry
    by_cases hKey : entry.1 ∈ keys saved
    · obtain ⟨other, hOther, hSameKey⟩ := List.mem_map.mp hKey
      obtain rfl := List.inj_on_of_nodup_map hParts (hSaved hOther) hEntry hSameKey
      exact .inl hOther
    · exact .inr ⟨hEntry, hKey⟩
  · rintro (hEntry | ⟨hEntry, -⟩)
    · exact hSaved hEntry
    · exact hEntry

end Keys

section Result

variable {s t : State} {l g : Nat × ModelPart} {r : Renaming} {heap : Heap} {result : ModelPart}

theorem Overwritten.isomorphism (h : Invariant s l g) (h' : Loadable t)
    (hResult : Overwritten s t result heap) (hMatches : Matches s t) :
    Isomorphism (places s t) s ⟨heap, result⟩ where
  nodesInjective := placed_injective h.nodes.nodup h'.nodes.nodup h'.nodes.bounded
  elementsInjective := placed_injective h.elements.nodup h'.elements.nodup h'.elements.bounded
  nodes := hResult.values.nodes
  elements := hResult.values.elements
  part := by
    have hIds := hResult.values.keepsIds
    obtain ⟨news, hPerm, hNews⟩ := hResult.entries
    rw [List.take_length] at hNews
    have hOlds : ∀ entry ∈ t.part.partitionModelParts, ∃ saved ∈ s.part.partitionModelParts,
        SameEntry (places s t) heap.nodeId heap.elementId saved entry := by
      intro entry hEntry
      obtain ⟨saved, hSaved, hMatching⟩ := hMatches entry hEntry
      exact ⟨saved, hSaved, (matchingEntry_iff h h' hIds hSaved hEntry).mpr hMatching⟩
    obtain ⟨saved, hSubset, hSame⟩ := exists_related hOlds
    have hAll := perm_missing h.keys h'.keys hSubset hSame
    obtain ⟨entries, hEntries, hOrder⟩ := List.perm_comp_forall₂ hAll (List.rel_append hSame hNews)
    refine same_iff.mpr ⟨hResult.name, hResult.nodes, hResult.elements, hResult.localPart,
      hResult.ghostPart, entries, hPerm.trans hOrder.symm, sameEntries_iff.mpr hEntries⟩

/-- There is only one way to take the nodes to those of the result. -/
theorem Overwritten.place_eq (hResult : Overwritten s t result heap)
    (hSame : Same r heap.nodeId heap.elementId s.part result) :
    ∀ ref ∈ s.part.nodes.data, r.node ref = (places s t).node ref := by
  obtain ⟨-, hNodes, -⟩ := same_iff.mp hSame
  exact List.map_inj_left.mp (hNodes.data.symm.trans hResult.nodes.data)

theorem Overwritten.matches (h : Invariant s l g) (h' : Loadable t)
    (hResult : Overwritten s t result heap)
    (hSame : Same r heap.nodeId heap.elementId s.part result) : Matches s t := by
  intro entry hEntry
  obtain ⟨-, -, -, -, -, entries, hOrder, hEntries⟩ := same_iff.mp hSame
  obtain ⟨news, hPerm, -⟩ := hResult.entries
  have hMem : entry ∈ entries :=
    hOrder.mem_iff.mp (hPerm.mem_iff.mpr (List.mem_append_left news hEntry))
  obtain ⟨saved, hSaved, hEntry'⟩ := exists_of_mem_right (sameEntries_iff.mp hEntries) hMem
  have hPartition := h.partitions saved hSaved
  have hShaped := h'.partitions entry hEntry
  obtain ⟨hKey, hNodes⟩ := (sameEntry_iff hPartition hShaped).mp hEntry'
  refine ⟨saved, hSaved, (matchingEntry_iff h h' hResult.values.keepsIds hSaved hEntry).mp
    ((sameEntry_iff hPartition hShaped).mpr ⟨hKey, hNodes.congr ?_⟩)⟩
  intro ref hRef
  exact hResult.place_eq hSame ref (h.partitionNodes_subset hSaved hRef)

theorem Overwritten.isomorphic_iff (h : Invariant s l g) (h' : Loadable t)
    (hResult : Overwritten s t result heap) : Isomorphic s ⟨heap, result⟩ ↔ Matches s t := by
  constructor
  · rintro ⟨r, hIsomorphism⟩
    exact hResult.matches h h' hIsomorphism.part
  · intro hMatches
    exact ⟨places s t, hResult.isomorphism h h' hMatches⟩

end Result

end CoSimIO.ModelPart
