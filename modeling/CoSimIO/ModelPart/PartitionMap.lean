import CoSimIO.ModelPart.InnerParts

/-! # How the map of the partition parts is loaded

The entries of the map that is loaded into stay, and an entry with a key of theirs is dropped.
-/

namespace CoSimIO.ModelPart

open Restore Restore.Writer Sequences Serializer

set_option autoImplicit false

abbrev Entry : Type := Int32 × Nat × ModelPart

section Entries

variable {r : Renaming} {nodeId elementId : Nat → Int64} {olds entries news parts : List Entry}

/-- The same key and the same part -/
def SameEntry (r : Renaming) (nodeId elementId : Nat → Int64) (entry entry' : Entry) : Prop :=
  entry'.1 = entry.1 ∧ Same r nodeId elementId entry.2.2 entry'.2.2

theorem sameEntries_iff : SameEntries r nodeId elementId entries news ↔
    List.Forall₂ (SameEntry r nodeId elementId) entries news := by
  induction entries generalizing news with
  | nil => exact List.forall₂_nil_left_iff.symm
  | cons entry entries ih =>
    obtain ⟨key, owner, part⟩ := entry
    rw [List.forall₂_cons_left_iff]
    constructor
    · rintro ⟨owner', part', news', rfl, hSame, hRest⟩
      exact ⟨(key, owner', part'), news', ⟨rfl, hSame⟩, ih.mp hRest, rfl⟩
    · rintro ⟨⟨key', owner', part'⟩, news', ⟨rfl, hSame⟩, hRest, rfl⟩
      exact ⟨owner', part', news', rfl, hSame, ih.mpr hRest⟩

theorem map_fst_of_same (h : List.Forall₂ (SameEntry r nodeId elementId) entries news) :
    news.map Prod.fst = entries.map Prod.fst := by
  induction h with
  | nil => rfl
  | cons hEntry _ ih => exact congrArg₂ List.cons hEntry.1 ih

def keys (entries : List Entry) : List Int32 := entries.map Prod.fst

/-- The entries whose keys the map does not have -/
def missing (olds entries : List Entry) : List Entry :=
  entries.filter fun entry => entry.1 ∉ keys olds

theorem any_key (entries : List Entry) (key : Int32) :
    (entries.any fun entry => entry.1 = key) = decide (key ∈ keys entries) := by
  rw [Bool.eq_iff_iff, List.any_eq_true, decide_eq_true_iff, keys, List.mem_map]
  simp only [decide_eq_true_eq]

theorem missing_take_succ {i : Nat} {entry : Entry} (h : parts[i]? = some entry) :
    missing olds (parts.take (i + 1)) =
      missing olds (parts.take i) ++ if entry.1 ∈ keys olds then [] else [entry] := by
  rw [List.take_add_one, h, missing, List.filter_append]
  congr 1
  by_cases hKey : entry.1 ∈ keys olds
  · simp [hKey]
  · simp [hKey]

theorem keys_append (entries news : List Entry) : keys (entries ++ news) = keys entries ++ keys news :=
  List.map_append

theorem nodup_keys_missing (hOlds : (keys olds).Nodup) (hParts : (keys parts).Nodup) :
    (keys olds ++ keys (missing olds parts)).Nodup := by
  rw [List.nodup_append']
  refine ⟨hOlds, hParts.sublist (List.filter_sublist.map Prod.fst), ?_⟩
  intro key hOld hMissing
  obtain ⟨entry, hEntry, rfl⟩ := List.mem_map.mp hMissing
  exact of_decide_eq_true (List.mem_filter.mp hEntry).2 hOld

end Entries

section Loop

variable {cfg : Config} {rehash : Rehash} {heap : Heap} {layout : Object → BitVec 64}
  {part : ModelPart} {r : Renaming} {loaded : Heap} {pending : List Nat} {depth : Nat}
  {olds parts : List Entry}

def saveEntry (cfg : Config) (heap : Heap) (layout : Object → BitVec 64) (entry : Entry) : Saver :=
  (emit (tracePoint cfg "E".toList)).andThen
    ((emit (Serializer.save cfg "First".toList ⟨.integer .int, entry.1.toBitVec⟩)).andThen
      (saveOwned cfg heap layout "Second".toList (some entry.2)))

theorem saveEntries_eq (entries : List Entry) : saveEntries cfg heap layout entries =
    each (saveEntry cfg heap layout) entries := by
  induction entries with
  | nil => rfl
  | cons entry entries ih =>
    obtain ⟨key, owner, inner⟩ := entry
    rw [saveEntries, each, saveEntry, ih, andThen_assoc, andThen_assoc]
    rfl

/-- The map when the entries up to `i` are loaded -/
def EntriesLoaded (olds parts : List Entry) (r : Renaming) (loaded : Heap) (i : Nat)
    (entries : List Entry) : Prop :=
  ∃ news, entries.Perm (olds ++ news) ∧
    List.Forall₂ (SameEntry r loaded.nodeId loaded.elementId) (missing olds (parts.take i)) news

variable {i : Nat} {entry entry' : Entry} {entries : List Entry}

theorem notMem_keys_take (hKeys : (keys parts).Nodup) (hEntry : parts[i]? = some entry) :
    entry.1 ∉ keys (parts.take i) :=
  notMem_map_take hKeys hEntry

theorem EntriesLoaded.mem_keys_iff (h : EntriesLoaded olds parts r loaded i entries)
    (hKeys : (keys parts).Nodup) (hEntry : parts[i]? = some entry) :
    entry.1 ∈ keys entries ↔ entry.1 ∈ keys olds := by
  obtain ⟨news, hPerm, hSame⟩ := h
  have hNews : entry.1 ∉ keys news := by
    rw [keys, map_fst_of_same hSame]
    intro hMem
    obtain ⟨other, hOther, hKey⟩ := List.mem_map.mp hMem
    apply notMem_keys_take hKeys hEntry
    rw [← hKey]
    exact List.mem_map_of_mem (List.mem_of_mem_filter hOther)
  rw [keys, (hPerm.map Prod.fst).mem_iff, List.map_append, List.mem_append]
  exact or_iff_left hNews

theorem EntriesLoaded.drop (h : EntriesLoaded olds parts r loaded i entries)
    (hEntry : parts[i]? = some entry) (hOld : entry.1 ∈ keys olds) :
    EntriesLoaded olds parts r loaded (i + 1) entries := by
  obtain ⟨news, hPerm, hSame⟩ := h
  refine ⟨news, hPerm, ?_⟩
  rw [missing_take_succ hEntry, if_pos hOld, List.append_nil]
  exact hSame

theorem EntriesLoaded.insert (h : EntriesLoaded olds parts r loaded i entries)
    (hEntry : parts[i]? = some entry) (hNew : entry.1 ∉ keys olds)
    (hSame : SameEntry r loaded.nodeId loaded.elementId entry entry') (rehash : Rehash) :
    EntriesLoaded olds parts r loaded (i + 1) (rehash.order (entries ++ [entry'])) := by
  obtain ⟨news, hPerm, hRest⟩ := h
  refine ⟨news ++ [entry'], ?_, ?_⟩
  · rw [← List.append_assoc]
    exact (rehash.perm _).trans (hPerm.append_right [entry'])
  · rw [missing_take_succ hEntry, if_neg hNew]
    exact List.rel_append hRest (.cons hSame .nil)

theorem owners_drop (hEntry : parts[i]? = some entry) (pending : List Nat) :
    ownersOfPartitions (parts.drop i) ++ pending =
      entry.2.1 :: (entry.2.2.owners ++ (ownersOfPartitions (parts.drop (i + 1)) ++ pending)) := by
  obtain ⟨hLt, rfl⟩ := List.getElem?_eq_some_iff.mp hEntry
  rw [List.drop_eq_getElem_cons hLt, ownersOfPartitions, List.append_assoc]
  rfl

theorem reads_entry (hIds : KeepsIds part r heap loaded) (hKeys : (keys parts).Nodup)
    (hEntry : parts[i]? = some entry) (hPartition : Partition heap entry)
    (hNodes : entry.2.2.nodes.data ⊆ part.nodes.data) (entries : List Entry) :
    Reads (Ready cfg) (saveEntry cfg heap layout entry)
      (loadEntry cfg rehash (load cfg rehash (depth + 2)) entries)
      (fun s m => EntriesLoaded olds parts r loaded i entries ∧
        Known layout part r loaded (ownersOfPartitions (parts.drop i) ++ pending) s m)
      fun entries' s m => EntriesLoaded olds parts r loaded (i + 1) entries' ∧
        Known layout part r loaded (ownersOfPartitions (parts.drop (i + 1)) ++ pending) s m := by
  apply Reads.of_fact
  intro hLoaded
  rw [owners_drop hEntry]
  apply (reads_point (by decide)).bind
  intro _
  apply (reads_load (k := .integer .int) (by decide) trivial _).bind_eq
  rw [← andThen_emit_nil (saveOwned _ _ _ _ _)]
  have hOwned : Reads (Ready cfg) (saveOwned cfg heap layout "Second".toList (some entry.2))
      (loadOwned cfg (load cfg rehash (depth + 2)) "Second".toList none)
      (Known layout part r loaded (entry.2.1 ::
        (entry.2.2.owners ++ (ownersOfPartitions (parts.drop (i + 1)) ++ pending))))
      fun result s m => SameOwned r loaded.nodeId loaded.elementId (some entry.2) result ∧
        Known layout part r loaded (ownersOfPartitions (parts.drop (i + 1)) ++ pending) s m :=
    reads_owned (by decide) nofun fun _ hLeaf => reads_partition hIds hPartition hNodes hLeaf
  apply hOwned.bind
  intro owned
  apply Reads.of_fact
  rintro ⟨owner, inner, rfl, hSame⟩
  dsimp only
  rw [any_key, Int32.ofBitVec_toBitVec]
  have hOld := hLoaded.mem_keys_iff hKeys hEntry
  have hEntry' : SameEntry r loaded.nodeId loaded.elementId entry (entry.1, owner, inner) :=
    ⟨rfl, hSame⟩
  by_cases hKey : entry.1 ∈ keys entries
  · rw [decide_eq_true hKey, if_pos rfl]
    exact reads_pure fun s m hKnown => ⟨hLoaded.drop hEntry (hOld.mp hKey), hKnown⟩
  · rw [decide_eq_false hKey, if_neg Bool.false_ne_true]
    exact reads_pure fun s m hKnown =>
      ⟨hLoaded.insert hEntry (fun h => hKey (hOld.mpr h)) hEntry' rehash, hKnown⟩

/-- The loop over the entries -/
theorem reads_entries (hIds : KeepsIds part r heap loaded) (hKeys : (keys parts).Nodup)
    (hPartitions : ∀ entry ∈ parts, Partition heap entry)
    (hNodes : ∀ entry ∈ parts, entry.2.2.nodes.data ⊆ part.nodes.data) :
    Reads (Ready cfg) (saveEntries cfg heap layout parts)
      ((List.range parts.length).foldlM
        (fun entries _ => loadEntry cfg rehash (load cfg rehash (depth + 2)) entries) olds)
      (Known layout part r loaded (ownersOfPartitions parts ++ pending))
      fun entries s m => EntriesLoaded olds parts r loaded parts.length entries ∧
        Known layout part r loaded pending s m := by
  rw [saveEntries_eq]
  refine Reads.conseq (reads_each (fun i entries s m => EntriesLoaded olds parts r loaded i entries ∧
    Known layout part r loaded (ownersOfPartitions (parts.drop i) ++ pending) s m)
    List.length_range ?_ olds) ?_ ?_
  · intro i entry _ hEntry _ entries
    exact reads_entry hIds hKeys hEntry (hPartitions entry (List.mem_of_getElem? hEntry))
      (hNodes entry (List.mem_of_getElem? hEntry)) entries
  · intro s m hKnown
    exact ⟨⟨[], by rw [List.append_nil], .nil⟩, hKnown⟩
  · rintro entries s m ⟨hLoaded, hKnown⟩
    rw [List.drop_length] at hKnown
    exact ⟨hLoaded, hKnown⟩

end Loop

end CoSimIO.ModelPart
