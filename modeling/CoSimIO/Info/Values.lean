import CoSimIO.Info.Basic

/-! # What an `Info` contains, apart from the places of its objects -/

namespace CoSimIO

set_option autoImplicit false

inductive InfoValue
  | scalar (type : ScalarType) (mData : type.kind.Carrier)
  | info (entries : List (Text × InfoValue))

mutual

def Denotes (heap : InfoHeap) : InfoValue → InfoData → Prop
  | .scalar type mData, data => data = .scalar type mData
  | .info entries, data => ∃ info, data = .info info ∧ DenotesInfo heap entries info

/-- The same keys in the same order, and under every key an object with the value. -/
def DenotesInfo (heap : InfoHeap) : List (Text × InfoValue) → Info → Prop
  | [], info => info = []
  | (key, value) :: entries, info => ∃ ref rest, info = (key, some ref) :: rest ∧
    Denotes heap value (heap.data ref) ∧ DenotesInfo heap entries rest

end

/-- The same keys, and under every key and nested key the same value -/
def EqualInfo (heap : InfoHeap) (info : Info) (heap' : InfoHeap) (info' : Info) : Prop :=
  ∃ entries, DenotesInfo heap entries info ∧ DenotesInfo heap' entries info'

section Invariant

/-- The keys are in their order, and the objects are older than `next`. -/
structure Info.Formed (next : Nat) (info : Info) : Prop where
  ordered : OrderedMap.Ordered info
  pointers : ∀ entry ∈ info, ∃ ref < next, entry.2 = some ref

/-- An object refers to older objects only. -/
structure InfoHeap.Sound (heap : InfoHeap) : Prop where
  created : ∀ ref < heap.next, heap.data ref ≠ .base
  formed : ∀ ref < heap.next, ∀ info, heap.data ref = .info info → Info.Formed ref info

structure InfoState.Sound (s : InfoState) : Prop where
  heap : s.heap.Sound
  infos : ∀ i, Info.Formed s.heap.next (s.infos i)

variable {heap heap' : InfoHeap} {next next' ref : Nat} {info value : Info} {data : InfoData}
  {s : InfoState} {key : Text}

theorem Info.formed_nil : Info.Formed next [] := ⟨OrderedMap.ordered_nil, nofun⟩

theorem Info.Formed.mono (h : Info.Formed next info) (hNext : next ≤ next') :
    Info.Formed next' info where
  ordered := h.ordered
  pointers entry hEntry := by
    obtain ⟨ref, hRef, hPointer⟩ := h.pointers entry hEntry
    exact ⟨ref, Nat.lt_of_lt_of_le hRef hNext, hPointer⟩

theorem Info.Formed.set (h : Info.Formed next info) (hRef : ref < next) (key : Text) :
    Info.Formed next (OrderedMap.set key (some ref) info) where
  ordered := h.ordered.set key (some ref)
  pointers entry hEntry := by
    rcases OrderedMap.eq_or_mem_of_mem_set hEntry with rfl | hOld
    · exact ⟨ref, hRef, rfl⟩
    · exact h.pointers entry hOld

theorem Info.Formed.erase (h : Info.Formed next info) (key : Text) :
    Info.Formed next (OrderedMap.erase key info) where
  ordered := h.ordered.erase key
  pointers entry hEntry := h.pointers entry (List.mem_of_mem_filter hEntry)

theorem InfoHeap.Sound.add (h : heap.Sound) (hData : data ≠ .base)
    (hFormed : ∀ info, data = .info info → Info.Formed heap.next info) : (heap.add data).2.Sound where
  created ref hRef := by
    rcases Nat.lt_succ_iff_lt_or_eq.mp hRef with hOld | rfl
    · rw [InfoHeap.add_data_of_lt data hOld]
      exact h.created ref hOld
    · rwa [InfoHeap.add_data_self]
  formed ref hRef info hInfo := by
    rcases Nat.lt_succ_iff_lt_or_eq.mp hRef with hOld | rfl
    · rw [InfoHeap.add_data_of_lt data hOld] at hInfo
      exact h.formed ref hOld info hInfo
    · rw [InfoHeap.add_data_self] at hInfo
      exact hFormed info hInfo

theorem Info.Formed.select (h : heap.Sound) {path : List Text} (hInfo : Info.Formed heap.next info)
    (hSelect : info.select heap path = some value) : Info.Formed heap.next value := by
  induction path generalizing info with
  | nil =>
    obtain rfl := Option.some.inj hSelect
    exact hInfo
  | cons key path ih =>
    rw [Info.select] at hSelect
    split at hSelect
    · next ref hFind =>
      obtain ⟨ref', hRef, hPointer⟩ := hInfo.pointers _ (OrderedMap.mem_of_find hFind)
      obtain rfl := Option.some.inj hPointer
      split at hSelect
      · next inner hData => exact ih ((h.formed ref hRef inner hData).mono hRef.le) hSelect
      · nomatch hSelect
    · nomatch hSelect

theorem InfoState.Sound.assign (h : s.Sound) (hValue : Info.Formed s.heap.next value) (i : Nat) :
    (s.assign i value).Sound where
  heap := h.heap
  infos j := by
    rw [InfoState.assign]
    dsimp only
    split
    · exact hValue
    · exact h.infos j

theorem InfoState.Sound.setData (h : s.Sound) (hData : data ≠ .base)
    (hFormed : ∀ info, data = .info info → Info.Formed s.heap.next info) (i : Nat) (key : Text) :
    (s.setData i key data).Sound := by
  have hHeap : ({ s with heap := (s.heap.add data).2 } : InfoState).Sound :=
    ⟨h.heap.add hData hFormed, fun j => (h.infos j).mono (Nat.le_succ _)⟩
  exact hHeap.assign (((h.infos i).mono (Nat.le_succ _)).set (Nat.lt_succ_self _) key) i

theorem InfoState.Sound.apply (h : s.Sound) (op : InfoState.Op) : (s.apply op).Sound := by
  cases op with
  | set i key type mData => exact h.setData (by nofun) (by nofun) i key
  | setInfo i key source path =>
    rw [InfoState.apply]
    split
    · next value hSelect =>
      refine h.setData (by nofun) ?_ i key
      intro info hInfo
      obtain rfl := InfoData.info.inj hInfo
      exact (h.infos source).select h.heap hSelect
    · exact h
  | erase i key => exact h.assign ((h.infos i).erase key) i
  | clear i => exact h.assign Info.formed_nil i
  | copy i source path =>
    rw [InfoState.apply]
    split
    · next value hSelect => exact h.assign ((h.infos source).select h.heap hSelect) i
    · exact h

theorem InfoState.Sound.run (h : s.Sound) (ops : List InfoState.Op) : (s.run ops).Sound := by
  induction ops generalizing s with
  | nil => exact h
  | cons op ops ih => exact ih (h.apply op)

theorem InfoState.sound_start : InfoState.start.Sound := ⟨⟨nofun, nofun⟩, fun _ => Info.formed_nil⟩

end Invariant

section Denotes

variable {heap heap' : InfoHeap} {next : Nat} {info : Info}

theorem exists_denotesInfo (hInfo : Info.Formed next info)
    (hRefs : ∀ ref < next, ∃ value, Denotes heap value (heap.data ref)) :
    ∃ entries, DenotesInfo heap entries info := by
  obtain ⟨-, hPointers⟩ := hInfo
  induction info with
  | nil => exact ⟨[], rfl⟩
  | cons entry info ih =>
    obtain ⟨key, pointer⟩ := entry
    obtain ⟨ref, hRef, hPointer⟩ := hPointers _ List.mem_cons_self
    obtain rfl : pointer = some ref := hPointer
    obtain ⟨value, hValue⟩ := hRefs ref hRef
    obtain ⟨entries, hEntries⟩ := ih fun other hOther =>
      hPointers other (List.mem_cons_of_mem _ hOther)
    exact ⟨(key, value) :: entries, ref, info, rfl, hValue, hEntries⟩

theorem InfoHeap.Sound.exists_denotes (h : heap.Sound) {ref : Nat} (hRef : ref < heap.next) :
    ∃ value, Denotes heap value (heap.data ref) := by
  induction ref using Nat.strongRecOn with
  | ind ref ih =>
    cases hData : heap.data ref with
    | base => exact absurd hData (h.created ref hRef)
    | scalar type mData => exact ⟨.scalar type mData, rfl⟩
    | info inner =>
      obtain ⟨entries, hEntries⟩ := exists_denotesInfo (h.formed ref hRef inner hData)
        fun r hr => ih r hr (Nat.lt_trans hr hRef)
      exact ⟨.info entries, inner, rfl, hEntries⟩

theorem InfoState.Sound.exists_entries {s : InfoState} (h : s.Sound) (i : Nat) :
    ∃ entries, DenotesInfo s.heap entries (s.infos i) :=
  exists_denotesInfo (h.infos i) fun _ hRef => h.heap.exists_denotes hRef

theorem not_denotesInfo_null {entries : List (Text × InfoValue)} {key : Text} :
    ¬ DenotesInfo heap entries ((key, none) :: info) := by
  intro h
  cases entries with
  | nil => nomatch h
  | cons entry entries =>
    obtain ⟨ref, rest, hEntry, -⟩ := h
    nomatch hEntry

theorem denotes_of_mem {entries : List (Text × InfoValue)} {key : Text} {ref : Nat}
    (h : DenotesInfo heap entries info) (hEntry : (key, some ref) ∈ info) :
    ∃ value, Denotes heap value (heap.data ref) := by
  induction info generalizing entries with
  | nil => nomatch hEntry
  | cons first info ih =>
    cases entries with
    | nil => nomatch h
    | cons entry entries =>
      obtain ⟨r, rest, hFirst, hValue, hRest⟩ := h
      obtain ⟨rfl, rfl⟩ := List.cons.inj hFirst
      rcases List.mem_cons.mp hEntry with hHere | hLater
      · obtain rfl := Option.some.inj (Prod.mk.inj hHere).2
        exact ⟨entry.2, hValue⟩
      · exact ih hRest hLater

/-- `Get` of an `Info` inside another one -/
theorem denotesInfo_select {entries : List (Text × InfoValue)} {value : Info} {path : List Text}
    (h : DenotesInfo heap entries info) (hSelect : info.select heap path = some value) :
    ∃ inner, DenotesInfo heap inner value := by
  induction path generalizing entries info with
  | nil =>
    obtain rfl := Option.some.inj hSelect
    exact ⟨entries, h⟩
  | cons key path ih =>
    rw [Info.select] at hSelect
    split at hSelect
    · next ref hFind =>
      split at hSelect
      · next inner hData =>
        obtain ⟨innerValue, hValue⟩ := denotes_of_mem h (OrderedMap.mem_of_find hFind)
        rw [hData] at hValue
        cases innerValue with
        | scalar type mData => nomatch hValue
        | info innerEntries =>
          obtain ⟨found, hFound, hEntries⟩ := hValue
          obtain rfl := InfoData.info.inj hFound
          exact ih hEntries hSelect
      · nomatch hSelect
    · nomatch hSelect

end Denotes

section Region

/-- The pointers of the info that are not null point to objects from `low` to `high`. -/
def Info.Within (low high : Nat) (info : Info) : Prop :=
  ∀ entry ∈ info, ∀ ref, entry.2 = some ref → low ≤ ref ∧ ref < high

/-- The objects from `low` to `high` refer to each other only. -/
def InfoHeap.Region (heap : InfoHeap) (low high : Nat) : Prop :=
  ∀ ref, low ≤ ref → ref < high → ∀ info, heap.data ref = .info info → info.Within low high

variable {heap heap' : InfoHeap} {low high : Nat}

mutual

/-- Objects outside of the region do not matter. -/
theorem denotes_congr (hRegion : heap.Region low high)
    (hSame : ∀ ref, low ≤ ref → ref < high → heap'.data ref = heap.data ref) :
    ∀ {value : InfoValue} {data : InfoData}, (∀ info, data = .info info → info.Within low high) →
      (Denotes heap' value data ↔ Denotes heap value data)
  | .scalar _ _, _, _ => Iff.rfl
  | .info entries, data, hData => by
    rw [Denotes, Denotes]
    constructor
    · rintro ⟨info, rfl, hInfo⟩
      exact ⟨info, rfl, (denotesInfo_congr hRegion hSame (hData info rfl)).mp hInfo⟩
    · rintro ⟨info, rfl, hInfo⟩
      exact ⟨info, rfl, (denotesInfo_congr hRegion hSame (hData info rfl)).mpr hInfo⟩

theorem denotesInfo_congr (hRegion : heap.Region low high)
    (hSame : ∀ ref, low ≤ ref → ref < high → heap'.data ref = heap.data ref) :
    ∀ {entries : List (Text × InfoValue)} {info : Info}, info.Within low high →
      (DenotesInfo heap' entries info ↔ DenotesInfo heap entries info)
  | [], _, _ => Iff.rfl
  | (key, value) :: entries, info, hInfo => by
    rw [DenotesInfo, DenotesInfo]
    constructor
    · rintro ⟨ref, rest, rfl, hValue, hEntries⟩
      obtain ⟨hLow, hHigh⟩ := hInfo _ List.mem_cons_self ref rfl
      rw [hSame ref hLow hHigh] at hValue
      exact ⟨ref, rest, rfl, (denotes_congr hRegion hSame (hRegion ref hLow hHigh)).mp hValue,
        (denotesInfo_congr hRegion hSame fun entry hEntry =>
          hInfo entry (List.mem_cons_of_mem _ hEntry)).mp hEntries⟩
    · rintro ⟨ref, rest, rfl, hValue, hEntries⟩
      obtain ⟨hLow, hHigh⟩ := hInfo _ List.mem_cons_self ref rfl
      refine ⟨ref, rest, rfl, ?_, (denotesInfo_congr hRegion hSame fun entry hEntry =>
          hInfo entry (List.mem_cons_of_mem _ hEntry)).mpr hEntries⟩
      rw [hSame ref hLow hHigh]
      exact (denotes_congr hRegion hSame (hRegion ref hLow hHigh)).mpr hValue

end

end Region

end CoSimIO
