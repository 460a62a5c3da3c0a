import CoSimIO.Info.Loading
import CoSimIO.Serializer.TraceTags

/-! # Saving an `Info` and loading it into an empty one -/

namespace CoSimIO

open Restore Restore.Writer Serializer

set_option autoImplicit false

section Writable

variable {cfg : Config} {heap : InfoHeap} {layout : Nat → BitVec 64} {depth : Nat} {info : Info}

theorem emits_data {data : InfoData} {saveInfo : Info → Saver} (hLegible : data.Legible cfg)
    (hInner : ∀ inner, data = .info inner → (saveInfo inner).Emits (Writable cfg)) :
    (data.save cfg saveInfo).Emits (Writable cfg) := by
  cases data with
  | base => exact emits_emit nofun
  | scalar type mData => exact (emits_point (by decide)).andThen (emits_save (by decide) hLegible.2)
  | info inner =>
    exact (emits_point (by decide)).andThen
      ((emits_point (by decide)).andThen (hInner inner rfl))

theorem emits_info (hSavable : info.Savable cfg heap layout depth) :
    (Info.save cfg heap layout depth info).Emits (Writable cfg) := by
  induction depth generalizing info with
  | zero => exact emits_emit nofun
  | succ depth ih =>
    refine (emits_point (by decide)).andThen
      ((emits_save (by decide) (writable_of_kind (by nofun))).andThen (emits_each ?_))
    rintro ⟨key, pointer⟩ hEntry
    refine (emits_point (by decide)).andThen
      ((emits_save (by decide) (hSavable.keys.keys _ hEntry).2).andThen ?_)
    cases pointer with
    | none => exact emits_emit (List.forall_mem_singleton.mpr (writable_of_kind (by nofun)))
    | some ref =>
      apply emits_savePointer (by decide)
      · intro name hName
        exact writable_string fun _ _ => (registeredName_plain hName).1
      · have hVisit := (List.cons_subset.mp (Info.cons_visits_subset heap depth hEntry)).1
        exact emits_data (hSavable.objects ref hVisit) fun inner hData =>
          ih (hSavable.inner hEntry hData)

end Writable

section RoundTrip

variable {cfg : Config} {s : InfoState} {layout : Nat → BitVec 64} {depth : Nat}

def InfoState.Reachable (s : InfoState) : Prop := ∃ ops, s = start.run ops

theorem InfoState.Reachable.sound (h : s.Reachable) : s.Sound := by
  obtain ⟨ops, rfl⟩ := h
  exact sound_start.run ops

/-- No object is under two keys, or under two paths of keys. -/
def Info.Unshared (heap : InfoHeap) (depth : Nat) (info : Info) : Prop :=
  (info.visits heap depth).Nodup

theorem fresh_addresses_iff {visits : List Nat}
    (hDistinct : ∀ r ∈ visits, ∀ r' ∈ visits, layout r = layout r' → r = r') :
    Fresh (visits.map layout) [] ↔ visits.Nodup := by
  constructor
  · intro h
    exact List.Nodup.of_map layout h.1
  · intro h
    exact ⟨h.map_on hDistinct, fun _ _ => List.not_mem_nil⟩

theorem emptied_start (active : List (BitVec 64)) (heap : InfoHeap) :
    Emptied active [] (startMemory heap) :=
  ⟨fun _ _ => rfl, nofun⟩

theorem exists_writeAll_saveObject {heap : InfoHeap} {info : Info}
    (hSavable : info.Savable cfg heap layout depth) :
    ∃ data, writeAll cfg (Info.saveObject cfg heap layout depth info) = .ok data := by
  apply writeAll_of_writable
  intro item hItem
  rcases List.mem_append.mp hItem with hPoint | hInfo
  · exact writable_tracePoint (by decide) (by decide) item hPoint
  · exact emits_info hSavable [] item hInfo

theorem loadedInfo_of_ready {heap : InfoHeap} {info : Info} {next : Nat} (hSound : heap.Sound)
    (hFormed : info.Formed next) (hNext : next ≤ heap.next) (hDepth : next < depth)
    (hSavable : info.Savable cfg heap layout depth) (heap₀ : InfoHeap) {input : Input}
    (hReady : Ready cfg input (Info.saveObject cfg heap layout depth info)) :
    ∃ loaded input' s m,
      (do
        loadPoint cfg "info".toList
        Info.load cfg depth [] : Loader InfoHeap Info) (input, startMemory heap₀) =
          .ok (loaded, input', m) ∧
      LoadedInfo heap [] ((info.visits heap depth).map layout) info [] (startMemory heap₀)
        loaded s m := by
  have hReads : Reads (Ready cfg)
      ((emit (tracePoint cfg "info".toList)).andThen (Info.save cfg heap layout depth info))
      (do
        loadPoint cfg "info".toList
        Info.load cfg depth [] : Loader InfoHeap Info)
      (fun s m => s = [] ∧ m = startMemory heap₀) fun loaded s m =>
        LoadedInfo heap [] ((info.visits heap depth).map layout) info [] (startMemory heap₀)
          loaded s m := by
    apply (reads_point (by decide)).bind
    rintro _
    exact reads_info hSound hFormed hNext hDepth hSavable (fun _ _ => List.not_mem_nil)
      (emptied_start [] heap₀)
  obtain ⟨loaded, input', m, hRun, -, hLoaded⟩ := hReads [] input (startMemory heap₀) []
    (by rw [List.append_nil]; exact hReady) ⟨rfl, rfl⟩
  exact ⟨loaded, input', _, m, hRun, hLoaded⟩

theorem loadedInfo_of_load {heap : InfoHeap} {info : Info} {next : Nat} (hSound : heap.Sound)
    (hFormed : info.Formed next) (hNext : next ≤ heap.next) (hDepth : next < depth)
    (hSavable : info.Savable cfg heap layout depth) (heap₀ : InfoHeap) : ∃ data loaded s m,
      writeAll cfg (Info.saveObject cfg heap layout depth info) = .ok data ∧
      Info.loadObject cfg depth heap₀ data = .ok (m.heap, loaded) ∧
      LoadedInfo heap [] ((info.visits heap depth).map layout) info [] (startMemory heap₀)
        loaded s m := by
  obtain ⟨data, hData⟩ := exists_writeAll_saveObject hSavable
  obtain ⟨loaded, input, s, m, hRun, hLoaded⟩ := loadedInfo_of_ready hSound hFormed hNext hDepth
    hSavable heap₀ (ready_streamSerializer hData)
  refine ⟨data, loaded, s, m, hData, ?_, hLoaded⟩
  rw [Info.loadObject, hRun]
  rfl

/-- In the text modes the keys and values have to be some that these represent. -/
theorem equalInfo_iff_of_load (hReachable : s.Reachable) (i : Nat)
    (hDepth : s.heap.next < depth) (hSavable : (s.infos i).Savable cfg s.heap layout depth)
    (heap : InfoHeap) : ∃ data r,
      writeAll cfg (Info.saveObject cfg s.heap layout depth (s.infos i)) = .ok data ∧
      Info.loadObject cfg depth heap data = .ok r ∧
      r.2.map Prod.fst = (s.infos i).map Prod.fst ∧
      (EqualInfo s.heap (s.infos i) r.1 r.2 ↔ (s.infos i).Unshared s.heap depth) := by
  have hSound := hReachable.sound
  obtain ⟨data, loaded, saved, m, hData, hLoad, hLoaded⟩ :=
    loadedInfo_of_load hSound.heap (hSound.infos i) (Nat.le_refl _) hDepth hSavable heap
  refine ⟨data, (m.heap, loaded), hData, hLoad, hLoaded.keys, ?_⟩
  rw [Info.Unshared, ← fresh_addresses_iff hSavable.distinct]
  constructor
  · rintro ⟨entries, -, hEntries⟩
    by_contra hShared
    exact hLoaded.shared hShared entries hEntries
  · intro hFresh
    obtain ⟨entries, hEntries⟩ := hSound.exists_entries i
    exact ⟨entries, hEntries, (hLoaded.fresh hFresh).2 entries hEntries⟩

/-- A number under the first key of the first info, and this under the second key of another. -/
def nestedInfo : InfoState :=
  InfoState.start.run [.set 0 "v".toList .int (1 : BitVec 32), .setInfo 1 "a".toList 0 []]

def noTraceConfig : Config where
  trace := .noTrace
  debug := false
  doubles := fourteenDigits
  uninitialized := 0

def someAddress (ref : Nat) : BitVec 64 := BitVec.ofNat 64 (8 * ref + 8)

theorem equalInfo_iff_of_load_nestedInfo : ∃ data r,
    writeAll noTraceConfig
      (Info.saveObject noTraceConfig nestedInfo.heap someAddress 3 (nestedInfo.infos 1)) =
        .ok data ∧
    Info.loadObject noTraceConfig 3 InfoState.start.heap data = .ok r ∧
    r.2.map Prod.fst = (nestedInfo.infos 1).map Prod.fst ∧
    (EqualInfo nestedInfo.heap (nestedInfo.infos 1) r.1 r.2 ↔
      (nestedInfo.infos 1).Unshared nestedInfo.heap 3) := by
  have hVisits : (nestedInfo.infos 1).visits nestedInfo.heap 3 = [1, 0] := by decide +kernel
  have hOuter : nestedInfo.infos 1 = [("a".toList, some 1)] := by decide +kernel
  have hInner : nestedInfo.heap.data 1 = .info [("v".toList, some 0)] := rfl
  have hPlain : ∀ key : Text, PlainTag key → key.length < 2 ^ 64 → ∀ pointer,
      Info.Legible noTraceConfig [(key, pointer)] := by
    intro key hKey hLength pointer
    exact ⟨Nat.one_lt_two_pow (by decide), List.forall_mem_singleton.mpr
      ⟨faithful_of_plain hLength hKey.1, writable_of_binary rfl _⟩⟩
  have hSavable : (nestedInfo.infos 1).Savable noTraceConfig nestedInfo.heap someAddress 3 := by
    constructor
    · exact hOuter ▸ hPlain _ (by decide) (by decide) _
    · rw [hVisits]
      refine List.forall_mem_cons.mpr ⟨?_, List.forall_mem_singleton.mpr ?_⟩
      · exact hInner ▸ hPlain _ (by decide) (by decide) _
      · exact ⟨trivial, writable_of_kind (by nofun)⟩
    · rw [hVisits]
      decide
  exact equalInfo_iff_of_load ⟨_, rfl⟩ 1 (by decide) hSavable InfoState.start.heap

/-- The same info under two keys -/
def sharedInfo : InfoState :=
  InfoState.start.run [.set 0 "v".toList .int (1 : BitVec 32), .setInfo 1 "a".toList 0 [],
    .setInfo 1 "b".toList 0 []]

theorem shared_value_lost : ∃ data r,
    writeAll noTraceConfig
      (Info.saveObject noTraceConfig sharedInfo.heap someAddress 4 (sharedInfo.infos 1)) =
        .ok data ∧
    Info.loadObject noTraceConfig 4 InfoState.start.heap data = .ok r ∧
    r.2.select r.1 ["b".toList] = some [("v".toList, none)] ∧
    ¬ EqualInfo sharedInfo.heap (sharedInfo.infos 1) r.1 r.2 := by
  obtain ⟨data, hData⟩ : ∃ data, writeAll noTraceConfig
      (Info.saveObject noTraceConfig sharedInfo.heap someAddress 4 (sharedInfo.infos 1)) =
        .ok data :=
    writeAll_of_writable fun item _ => writable_of_binary rfl item
  have hRun : ((writeAll noTraceConfig (Info.saveObject noTraceConfig sharedInfo.heap someAddress 4
      (sharedInfo.infos 1))).bind fun data =>
        (Info.loadObject noTraceConfig 4 InfoState.start.heap data).map fun r =>
          r.2.select r.1 ["b".toList]).toOption = some (some [("v".toList, none)]) := by
    decide +kernel
  rw [hData] at hRun
  cases hLoad : Info.loadObject noTraceConfig 4 InfoState.start.heap data with
  | error message =>
    rw [Except.bind, hLoad] at hRun
    nomatch hRun
  | ok r =>
    rw [Except.bind, hLoad] at hRun
    have hSelect : r.2.select r.1 ["b".toList] = some [("v".toList, none)] :=
      Option.some.inj hRun
    refine ⟨data, r, hData, hLoad, hSelect, ?_⟩
    rintro ⟨entries, -, hEntries⟩
    obtain ⟨inner, hInner⟩ := denotesInfo_select hEntries hSelect
    exact not_denotesInfo_null hInner

end RoundTrip

end CoSimIO
