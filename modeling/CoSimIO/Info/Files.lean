import CoSimIO.Info.Building
import CoSimIO.Serializer.Formats

/-! # An `Info` in a file, written and read by different processes -/

namespace CoSimIO

open Restore Restore.Writer Serializer

set_option autoImplicit false

/-- `FileSerializer(rFilename, rTrace)` for an existing file, then `load("info", info)` for an
empty `info` -/
def Info.loadFile (cfg : Config) (depth : Nat) (heap : InfoHeap) (file : Text) :
    Except Text (InfoHeap × Info) := do
  let loaded ← (do
    loadPoint cfg "info".toList
    Info.load cfg depth [] : Loader InfoHeap Info)
      ({ chars := file, good := true, numberOfLines := 0 }, startMemory heap)
  return (loaded.2.2.heap, loaded.1)

section Format

variable {cfg cfg' : Config}

theorem savePointer_congr (h : tracePoint cfg = tracePoint cfg') :
    savePointer cfg = savePointer cfg' := by
  funext tag registered address content
  simp only [savePointer, saveNew, h]

/-- The tags are all that depends on the trace type before the items are written. -/
theorem saveObject_congr (h : cfg.tracing = cfg'.tracing) (heap : InfoHeap)
    (layout : Nat → BitVec 64) (depth : Nat) (info : Info) :
    Info.saveObject cfg heap layout depth info = Info.saveObject cfg' heap layout depth info := by
  have hPoint := tracePoint_congr h
  have hPointer := savePointer_congr hPoint
  have hItem := saveItem_congr hPoint
  have hData : ∀ (saveInfo : Info → Saver) (data : InfoData),
      data.save cfg saveInfo = data.save cfg' saveInfo := by
    intro saveInfo data
    cases data with
    | base => rfl
    | scalar type mData => simp only [InfoData.save, hPoint, hItem]
    | info mData => simp only [InfoData.save, hPoint]
  have hInfo : Info.save cfg heap layout depth = Info.save cfg' heap layout depth := by
    induction depth with
    | zero => rfl
    | succ depth ih =>
      have hEntry : Info.saveEntry cfg heap layout (Info.save cfg heap layout depth) =
          Info.saveEntry cfg' heap layout (Info.save cfg' heap layout depth) := by
        funext entry
        obtain ⟨key, pointer⟩ := entry
        cases pointer with
        | none => simp only [Info.saveEntry, Info.saveData, hPoint, hItem]
        | some ref => simp only [Info.saveEntry, Info.saveData, hPoint, hItem, hPointer, hData, ih]
      funext info
      simp only [Info.save, hPoint, hItem, hEntry]
  rw [Info.saveObject, Info.saveObject, hPoint, hInfo]

end Format

section Legible

mutual

/-- The keys and values are written and read back. -/
def InfoValue.Legible (cfg : Config) : InfoValue → Prop
  | .scalar type mData => Faithful cfg type.kind mData ∧ Writable cfg ⟨type.kind, mData⟩
  | .info entries => entries.length < 2 ^ 64 ∧ LegibleEntries cfg entries

def LegibleEntries (cfg : Config) : List (Text × InfoValue) → Prop
  | [] => True
  | (key, value) :: entries =>
    (Faithful cfg .string key ∧ Writable cfg ⟨.string, key⟩) ∧ value.Legible cfg ∧
      LegibleEntries cfg entries

end

variable {cfg : Config} {heap : InfoHeap} {info : Info} {entries : List (Text × InfoValue)}

theorem legibleEntries_iff : LegibleEntries cfg entries ↔ ∀ entry ∈ entries,
    (Faithful cfg .string entry.1 ∧ Writable cfg ⟨.string, entry.1⟩) ∧
      entry.2.Legible cfg := by
  induction entries with
  | nil => exact ⟨fun _ => nofun, fun _ => trivial⟩
  | cons entry entries ih =>
    rw [List.forall_mem_cons, ← ih]
    exact and_assoc.symm

theorem Info.Legible.of_values (h : DenotesInfo heap entries info)
    (hLegible : LegibleEntries cfg entries) (hSize : entries.length < 2 ^ 64) :
    info.Legible cfg := by
  have hKeys : ∀ {entries : List (Text × InfoValue)} {info : Info},
      DenotesInfo heap entries info → info.map Prod.fst = entries.map Prod.fst := by
    intro entries
    induction entries with
    | nil =>
      intro info h
      obtain rfl : info = [] := h
      rfl
    | cons entry entries ih =>
      rintro info ⟨ref, rest, rfl, -, hRest⟩
      exact congrArg (entry.1 :: ·) (ih hRest)
  have hSame := hKeys h
  constructor
  · have hLength := congrArg List.length hSame
    rw [List.length_map, List.length_map] at hLength
    exact hLength ▸ hSize
  · intro entry hEntry
    have hKey : entry.1 ∈ entries.map Prod.fst := hSame ▸ List.mem_map_of_mem hEntry
    obtain ⟨other, hOther, hEq⟩ := List.mem_map.mp hKey
    exact hEq ▸ (legibleEntries_iff.mp hLegible other hOther).1

theorem InfoData.legible_of_value {value : InfoValue} {data : InfoData}
    (h : Denotes heap value data) (hLegible : value.Legible cfg) : data.Legible cfg := by
  cases value with
  | scalar type mData =>
    obtain rfl : data = .scalar type mData := h
    exact hLegible
  | info entries =>
    obtain ⟨info, rfl, hInfo⟩ := h
    exact Info.Legible.of_values hInfo hLegible.2 hLegible.1

theorem legible_visits (depth : Nat) (h : DenotesInfo heap entries info)
    (hLegible : LegibleEntries cfg entries) :
    ∀ ref ∈ info.visits heap depth, (heap.data ref).Legible cfg := by
  induction depth generalizing info entries with
  | zero =>
    intro ref hRef
    cases hRef
  | succ depth ih =>
    intro ref hRef
    induction entries generalizing info with
    | nil =>
      obtain rfl : info = [] := h
      cases hRef
    | cons entry entries ihEntries =>
      obtain ⟨first, rest, rfl, hValue, hRest⟩ := h
      obtain ⟨-, hFirst, hLater⟩ := hLegible
      rw [← List.singleton_append, Info.visits_append, Info.visits_singleton, List.mem_append,
        List.mem_cons] at hRef
      rcases hRef with (rfl | hInner) | hOther
      · exact InfoData.legible_of_value hValue hFirst
      · cases hEntry : entry.2 with
        | scalar type mData =>
          rw [hEntry] at hValue
          have hData : heap.data first = .scalar type mData := hValue
          rw [hData, InfoData.entries, Info.visits_nil] at hInner
          cases hInner
        | info inner =>
          rw [hEntry] at hValue hFirst
          obtain ⟨found, hData, hFound⟩ := hValue
          rw [hData] at hInner
          exact ih hFound hFirst.2 ref hInner
      · exact ihEntries hRest hLater hOther

theorem Info.Savable.of_values {layout : Nat → BitVec 64} {depth : Nat}
    (h : DenotesInfo heap entries info) (hLegible : LegibleEntries cfg entries)
    (hSize : entries.length < 2 ^ 64)
    (hDistinct : ∀ r ∈ info.visits heap depth, ∀ r' ∈ info.visits heap depth,
      layout r = layout r' → r = r') : info.Savable cfg heap layout depth where
  keys := Info.Legible.of_values h hLegible hSize
  objects := legible_visits depth h hLegible
  distinct := hDistinct

end Legible

/-- One process saves an `Info` to a file, the other loads the same values from it. -/
theorem loadFile_of_saveObject {cfg cfg' : Config} (hFormat : cfg.SameFormat cfg')
    {heap : InfoHeap} {layout : Nat → BitVec 64} {depth : Nat} {info : Info}
    {entries : List (Text × InfoValue)} (hSound : heap.Sound) (hFormed : info.Formed heap.next)
    (hDepth : heap.next < depth) (h : DenotesInfo heap entries info)
    (hLegible : LegibleEntries cfg entries) (hLegible' : LegibleEntries cfg' entries)
    (hSize : entries.length < 2 ^ 64) (hUnshared : info.Unshared heap depth)
    (hDistinct : ∀ r ∈ info.visits heap depth, ∀ r' ∈ info.visits heap depth,
      layout r = layout r' → r = r') :
    ∃ file, writeAll cfg (Info.saveObject cfg heap layout depth info) = .ok file ∧
      ∀ heap₀, ∃ r, Info.loadFile cfg' depth heap₀ file = .ok r ∧
        DenotesInfo r.1 entries r.2 := by
  have hSavable : info.Savable cfg heap layout depth := .of_values h hLegible hSize hDistinct
  have hSavable' : info.Savable cfg' heap layout depth := .of_values h hLegible' hSize hDistinct
  obtain ⟨file, hFile⟩ := exists_writeAll_saveObject hSavable
  obtain ⟨file', hFile'⟩ := exists_writeAll_saveObject hSavable'
  have hSame : file = file' := by
    rw [saveObject_congr hFormat.tracing] at hFile
    exact writeAll_congr hFormat hFile hFile'
  refine ⟨file, hFile, ?_⟩
  intro heap₀
  have hReady : Ready cfg' { chars := file, good := true, numberOfLines := 0 }
      (Info.saveObject cfg' heap layout depth info) := by
    refine ⟨rfl, [], file, [], nofun, fun _ => rfl, hSame ▸ hFile', ?_⟩
    rw [List.append_nil, List.nil_append]
  obtain ⟨loaded, input, s, m, hRun, hLoaded⟩ := loadedInfo_of_ready hSound hFormed
    (Nat.le_refl _) hDepth hSavable' heap₀ hReady
  have hFresh := (fresh_addresses_iff hDistinct).mpr hUnshared
  refine ⟨(m.heap, loaded), ?_, (hLoaded.fresh hFresh).2 entries h⟩
  rw [Info.loadFile, hRun]
  rfl

end CoSimIO
