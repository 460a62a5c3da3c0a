import CoSimIO.Info.Access
import CoSimIO.Info.RoundTrip

/-! # The functions of `Info` as functions of values

An `Info` behaves like a map that holds its values itself, although its copies share the objects.
Whether its own objects are under one path each is followed apart from the values.
-/

namespace CoSimIO

open Serializer

set_option autoImplicit false

/-- What the variables of the type `Info` contain. -/
abbrev InfoValues : Type := Nat → List (Text × InfoValue)

namespace InfoValues

def select (entries : List (Text × InfoValue)) : List Text → Option (List (Text × InfoValue))
  | [] => some entries
  | key :: path => match OrderedMap.find entries key with
    | some (.info inner) => select inner path
    | _ => none

def assign (values : InfoValues) (i : Nat) (entries : List (Text × InfoValue)) : InfoValues :=
  fun j => if j = i then entries else values j

def apply (values : InfoValues) : InfoState.Op → InfoValues
  | .set i key type mData => values.assign i (OrderedMap.set key (.scalar type mData) (values i))
  | .setInfo i key source path => match select (values source) path with
    | some entries => values.assign i (OrderedMap.set key (.info entries) (values i))
    | none => values
  | .erase i key => values.assign i (OrderedMap.erase key (values i))
  | .clear i => values.assign i []
  | .copy i source path => match select (values source) path with
    | some entries => values.assign i entries
    | none => values

def run (values : InfoValues) : List InfoState.Op → InfoValues
  | [] => values
  | op :: ops => run (values.apply op) ops

variable {values : InfoValues} {i j : Nat}

@[simp] theorem assign_self (entries : List (Text × InfoValue)) :
    values.assign i entries i = entries := if_pos rfl

theorem assign_other (entries : List (Text × InfoValue)) (h : j ≠ i) :
    values.assign i entries j = values j := if_neg h

@[simp] theorem assign_assign (entries entries' : List (Text × InfoValue)) :
    (values.assign i entries).assign i entries' = values.assign i entries' := by
  funext j
  by_cases h : j = i
  · simp [assign, h]
  · simp [assign, h]

theorem run_append (values : InfoValues) (ops ops' : List InfoState.Op) :
    values.run (ops ++ ops') = (values.run ops).run ops' := by
  induction ops generalizing values with
  | nil => rfl
  | cons op ops ih => exact ih (values.apply op)

end InfoValues

/-- Every variable contains its values. -/
def InfoState.Contains (s : InfoState) (values : InfoValues) : Prop :=
  ∀ i, DenotesInfo s.heap (values i) (s.infos i)

section Values

variable {heap : InfoHeap} {info : Info} {entries : List (Text × InfoValue)} {key : Text}
  {value : InfoValue} {ref : Nat} {data : InfoData} {s : InfoState} {values : InfoValues}

theorem denotesInfo_set (h : DenotesInfo heap entries info)
    (hValue : Denotes heap value (heap.data ref)) :
    DenotesInfo heap (OrderedMap.set key value entries) (OrderedMap.set key (some ref) info) := by
  induction entries generalizing info with
  | nil =>
    obtain rfl : info = [] := h
    exact ⟨ref, [], rfl, hValue, rfl⟩
  | cons entry entries ih =>
    obtain ⟨first, rest, rfl, hFirst, hRest⟩ := h
    rw [OrderedMap.set, OrderedMap.set]
    split
    · exact ⟨ref, _, rfl, hValue, first, rest, rfl, hFirst, hRest⟩
    split
    · exact ⟨first, _, rfl, hFirst, ih hRest⟩
    · exact ⟨ref, rest, rfl, hValue, hRest⟩

theorem denotesInfo_erase (h : DenotesInfo heap entries info) (key : Text) :
    DenotesInfo heap (OrderedMap.erase key entries) (OrderedMap.erase key info) := by
  induction entries generalizing info with
  | nil =>
    obtain rfl : info = [] := h
    exact rfl
  | cons entry entries ih =>
    obtain ⟨first, rest, rfl, hFirst, hRest⟩ := h
    have hErased := ih hRest
    by_cases hKey : entry.1 = key
    · simpa [OrderedMap.erase, hKey] using hErased
    · simp only [OrderedMap.erase, ne_eq, hKey, not_false_eq_true, decide_true,
        List.filter_cons_of_pos]
      exact ⟨first, _, rfl, hFirst, hErased⟩

theorem find_none_of_denotesInfo (h : DenotesInfo heap entries info)
    (hFind : OrderedMap.find entries key = none) : OrderedMap.find info key = none := by
  induction entries generalizing info with
  | nil =>
    obtain rfl : info = [] := h
    rfl
  | cons entry entries ih =>
    obtain ⟨first, rest, rfl, -, hRest⟩ := h
    rw [OrderedMap.find_cons] at hFind ⊢
    split at hFind
    · nomatch hFind
    · next hKey => exact (if_neg hKey).trans (ih hRest hFind)

/-- `Get` of an `Info` inside another one finds one in the values, or finds none in both. -/
theorem select_of_denotesInfo (h : DenotesInfo heap entries info) (path : List Text) :
    (∃ inner value, InfoValues.select entries path = some inner ∧
      info.select heap path = some value ∧ DenotesInfo heap inner value) ∨
    (InfoValues.select entries path = none ∧ info.select heap path = none) := by
  induction path generalizing entries info with
  | nil => exact .inl ⟨entries, info, rfl, rfl, h⟩
  | cons key path ih =>
    rw [InfoValues.select, Info.select]
    cases hFind : OrderedMap.find entries key with
    | none =>
      rw [find_none_of_denotesInfo h hFind]
      exact .inr ⟨rfl, rfl⟩
    | some value =>
      obtain ⟨ref, hEntry, hValue⟩ := find_of_denotesInfo h hFind
      rw [hEntry]
      cases value with
      | scalar type mData =>
        have hData : heap.data ref = .scalar type mData := hValue
        refine .inr ⟨rfl, ?_⟩
        simp only [hData]
      | info inner =>
        obtain ⟨found, hData, hInner⟩ := hValue
        simp only [hData]
        exact ih hInner

theorem InfoHeap.Sound.region (h : heap.Sound) : heap.Region 0 heap.next := by
  intro ref _ hRef info hInfo entry hEntry r hr
  obtain ⟨r', hLt, hPointer⟩ := (h.formed ref hRef info hInfo).pointers entry hEntry
  obtain rfl := Option.some.inj (hPointer.symm.trans hr)
  exact ⟨Nat.zero_le _, Nat.lt_trans hLt hRef⟩

theorem Info.Formed.within (h : info.Formed heap.next) : info.Within 0 heap.next := by
  intro entry hEntry r hr
  obtain ⟨r', hLt, hPointer⟩ := h.pointers entry hEntry
  obtain rfl := Option.some.inj (hPointer.symm.trans hr)
  exact ⟨Nat.zero_le _, hLt⟩

theorem denotesInfo_add (hSound : heap.Sound) (hFormed : info.Formed heap.next)
    (h : DenotesInfo heap entries info) (data : InfoData) :
    DenotesInfo (heap.add data).2 entries info :=
  (denotesInfo_congr hSound.region (fun _ _ hRef => InfoHeap.add_data_of_lt data hRef)
    hFormed.within).mpr h

theorem InfoState.Contains.assign (h : s.Contains values) {info : Info}
    (hInfo : DenotesInfo s.heap entries info) (i : Nat) :
    (s.assign i info).Contains (values.assign i entries) := by
  intro j
  rw [InfoState.assign, InfoValues.assign]
  dsimp only
  split
  · exact hInfo
  · exact h j

theorem InfoState.Contains.setData (h : s.Contains values) (hSound : s.Sound)
    (hValue : Denotes (s.heap.add data).2 value data) (i : Nat) (key : Text) :
    (s.setData i key data).Contains
      (values.assign i (OrderedMap.set key value (values i))) := by
  have hAdded : ({ s with heap := (s.heap.add data).2 } : InfoState).Contains values :=
    fun j => denotesInfo_add hSound.heap (hSound.infos j) (h j) data
  apply hAdded.assign
  exact denotesInfo_set (hAdded i) ((InfoHeap.add_data_self s.heap data).symm ▸ hValue)

theorem InfoState.Contains.apply (h : s.Contains values) (hSound : s.Sound) (op : InfoState.Op) :
    (s.apply op).Contains (values.apply op) := by
  cases op with
  | set i key type mData =>
    have hValue : Denotes (s.heap.add (.scalar type mData)).2 (.scalar type mData)
        (.scalar type mData) := rfl
    exact h.setData hSound hValue i key
  | setInfo i key source path =>
    rw [InfoState.apply, InfoValues.apply]
    rcases select_of_denotesInfo (h source) path with
      ⟨inner, value, hInner, hValue, hDenotes⟩ | ⟨hNone, hNone'⟩
    · simp only [hInner, hValue]
      have hFormed := (hSound.infos source).select hSound.heap hValue
      have hAdded : Denotes (s.heap.add (.info value)).2 (.info inner) (.info value) :=
        ⟨value, rfl, denotesInfo_add hSound.heap hFormed hDenotes _⟩
      exact h.setData hSound hAdded i key
    · simp only [hNone, hNone']
      exact h
  | erase i key => exact h.assign (denotesInfo_erase (h i) key) i
  | clear i =>
    have hEmpty : DenotesInfo s.heap [] [] := rfl
    exact h.assign hEmpty i
  | copy i source path =>
    rw [InfoState.apply, InfoValues.apply]
    rcases select_of_denotesInfo (h source) path with
      ⟨inner, value, hInner, hValue, hDenotes⟩ | ⟨hNone, hNone'⟩
    · simp only [hInner, hValue]
      exact h.assign hDenotes i
    · simp only [hNone, hNone']
      exact h

/-- No function of a program shows that the copies share the objects. -/
theorem InfoState.Contains.run (h : s.Contains values) (hSound : s.Sound)
    (ops : List InfoState.Op) : (s.run ops).Contains (values.run ops) := by
  induction ops generalizing s values with
  | nil => exact h
  | cons op ops ih => exact ih (h.apply hSound op) (hSound.apply op)

end Values

section Exclusive

/-- The objects of the `Info` are from `low` to `high`, each under one path. -/
structure Info.Exclusive (heap : InfoHeap) (low high : Nat) (info : Info) : Prop where
  nodup : ∀ depth, (info.visits heap depth).Nodup
  range : ∀ depth, ∀ ref ∈ info.visits heap depth, low ≤ ref ∧ ref < high

variable {heap : InfoHeap} {info : Info} {low mid high : Nat} {data : InfoData}

theorem Info.exclusive_nil (heap : InfoHeap) (low high : Nat) :
    Info.Exclusive heap low high [] := by
  constructor
  · intro depth
    rw [Info.visits_nil]
    exact .nil
  · intro depth
    rw [Info.visits_nil]
    nofun

theorem visits_add (hSound : heap.Sound) (data : InfoData) (depth : Nat) {next : Nat}
    (hFormed : info.Formed next) (hNext : next ≤ heap.next) :
    info.visits (heap.add data).2 depth = info.visits heap depth := by
  induction depth generalizing info next with
  | zero => rfl
  | succ depth ih =>
    rw [Info.visits, Info.visits]
    apply List.flatMap_congr
    intro entry hEntry
    obtain ⟨ref, hRef, hPointer⟩ := hFormed.pointers entry hEntry
    have hOld : ref < heap.next := by omega
    rw [hPointer, Option.elim_some, Option.elim_some, InfoHeap.add_data_of_lt data hOld]
    cases hData : heap.data ref with
    | info inner =>
      rw [InfoData.entries, ih (hSound.formed ref hOld inner hData) (Nat.le_of_lt hOld)]
    | _ => rw [InfoData.entries, Info.visits_nil, Info.visits_nil]

theorem Info.Exclusive.add (h : info.Exclusive heap low high) (hSound : heap.Sound)
    (hFormed : info.Formed heap.next) (data : InfoData) :
    info.Exclusive (heap.add data).2 low high := by
  constructor
  · intro depth
    rw [visits_add hSound data depth hFormed (Nat.le_refl _)]
    exact h.nodup depth
  · intro depth
    rw [visits_add hSound data depth hFormed (Nat.le_refl _)]
    exact h.range depth

/-- A new object with older ones that the `Info` does not have -/
theorem Info.Exclusive.set (h : info.Exclusive heap low mid) (hSound : heap.Sound)
    (hFormed : info.Formed heap.next) (hInner : data.entries.Exclusive heap mid high)
    (hEntries : data.entries.Formed heap.next) (hLow : low ≤ mid) (hMid : mid ≤ high)
    (hHigh : high ≤ heap.next) (key : Text) :
    Info.Exclusive (heap.add data).2 low (heap.next + 1)
      (OrderedMap.set key (some heap.next) info) := by
  have hOuter := h.add hSound hFormed data
  have hInside := hInner.add hSound hEntries data
  obtain ⟨before, removed, after, hInfo, hSet⟩ :=
    OrderedMap.exists_split_set key (some heap.next) info
  have hVisits : ∀ depth,
      Info.visits (heap.add data).2 (depth + 1) (OrderedMap.set key (some heap.next) info) =
        Info.visits (heap.add data).2 (depth + 1) before ++
          ((heap.next :: data.entries.visits (heap.add data).2 depth) ++
            Info.visits (heap.add data).2 (depth + 1) after) := by
    intro depth
    have hSingle : Info.visits (heap.add data).2 (depth + 1) [(key, some heap.next)] =
        heap.next :: data.entries.visits (heap.add data).2 depth := by
      rw [Info.visits_singleton, InfoHeap.add_data_self]
    rw [hSet, Info.visits_append, ← List.singleton_append, Info.visits_append, hSingle]
  have hKept : ∀ depth, (Info.visits (heap.add data).2 depth before ++
      Info.visits (heap.add data).2 depth after).Sublist (info.visits (heap.add data).2 depth) := by
    intro depth
    rw [hInfo, Info.visits_append, Info.visits_append]
    exact (List.Sublist.refl _).append (List.sublist_append_right _ _)
  have hNew : ∀ depth, ∀ ref ∈ heap.next :: data.entries.visits (heap.add data).2 depth,
      mid ≤ ref ∧ ref < heap.next + 1 := by
    intro depth ref hRef
    rcases List.mem_cons.mp hRef with rfl | hMem
    · omega
    · have := hInside.range depth ref hMem
      omega
  have hFresh : ∀ depth, (heap.next :: data.entries.visits (heap.add data).2 depth).Nodup := by
    intro depth
    refine List.nodup_cons.mpr ⟨?_, hInside.nodup depth⟩
    intro hMem
    have := hInside.range depth heap.next hMem
    omega
  constructor
  · intro depth
    cases depth with
    | zero => exact .nil
    | succ depth =>
      rw [hVisits, (List.perm_append_comm_assoc _ _ _).nodup_iff, List.nodup_append']
      refine ⟨hFresh depth, (hOuter.nodup _).sublist (hKept _), ?_⟩
      intro ref hRef hOther
      have := hNew depth ref hRef
      have := hOuter.range _ ref ((hKept _).subset hOther)
      omega
  · intro depth ref hRef
    cases depth with
    | zero => nomatch hRef
    | succ depth =>
      rw [hVisits, (List.perm_append_comm_assoc _ _ _).mem_iff, List.mem_append] at hRef
      rcases hRef with hNewer | hOld
      · have := hNew depth ref hNewer
        omega
      · have := hOuter.range _ ref ((hKept _).subset hOld)
        omega

variable {s : InfoState} {i j : Nat}

theorem InfoState.run_append (s : InfoState) (ops ops' : List InfoState.Op) :
    s.run (ops ++ ops') = (s.run ops).run ops' := by
  induction ops generalizing s with
  | nil => rfl
  | cons op ops ih => exact ih (s.apply op)

/-- A new scalar, for this variable -/
def InfoState.Op.Sets (i : Nat) : InfoState.Op → Prop
  | .set info _ _ _ => info = i
  | _ => False

/-- The variable has objects from `low` on, and the others keep theirs. -/
structure InfoState.Grown (s t : InfoState) (i low : Nat) : Prop where
  sound : t.Sound
  next : s.heap.next ≤ t.heap.next
  exclusive : (t.infos i).Exclusive t.heap low t.heap.next
  others : ∀ j, j ≠ i → t.infos j = s.infos j
  kept : ∀ j, j ≠ i → ∀ low' high', (s.infos j).Exclusive s.heap low' high' →
    (t.infos j).Exclusive t.heap low' high'

theorem InfoState.grown_clear (hSound : s.Sound) (i low : Nat) :
    s.Grown (s.apply (.clear i)) i low := by
  have hOthers : ∀ j, j ≠ i → (s.apply (.clear i)).infos j = s.infos j := fun j hj => if_neg hj
  refine ⟨hSound.apply _, Nat.le_refl _, ?_, hOthers, ?_⟩
  · have hSelf : (s.apply (.clear i)).infos i = [] := if_pos rfl
    rw [hSelf]
    exact Info.exclusive_nil _ _ _
  · intro j hj low' high' h
    rw [hOthers j hj]
    exact h

theorem InfoState.Grown.set {t : InfoState} {low : Nat} (h : s.Grown t i low)
    (hLow : low ≤ t.heap.next) {op : InfoState.Op} (hOp : op.Sets i) :
    s.Grown (t.apply op) i low := by
  cases op with
  | set info key type mData =>
    obtain rfl : info = i := hOp
    have hOthers : ∀ j, j ≠ info → (t.apply (.set info key type mData)).infos j = s.infos j :=
      fun j hj => (if_neg hj).trans (h.others j hj)
    refine ⟨h.sound.apply _, Nat.le_succ_of_le h.next, ?_, hOthers, ?_⟩
    · have hSelf : (t.apply (.set info key type mData)).infos info =
          OrderedMap.set key (some t.heap.next) (t.infos info) := if_pos rfl
      rw [hSelf]
      exact h.exclusive.set h.sound.heap (h.sound.infos info) (Info.exclusive_nil _ _ _)
        Info.formed_nil hLow (Nat.le_refl _) (Nat.le_refl _) key
    · intro j hj low' high' hExclusive
      have hKept := h.kept j hj low' high' hExclusive
      rw [h.others j hj] at hKept
      rw [hOthers j hj]
      exact hKept.add h.sound.heap (h.others j hj ▸ h.sound.infos j) _
  | _ => exact hOp.elim

theorem InfoState.Grown.sets {t : InfoState} {low : Nat} (h : s.Grown t i low)
    (hLow : low ≤ t.heap.next) {ops : List InfoState.Op} (hOps : ∀ op ∈ ops, op.Sets i) :
    s.Grown (t.run ops) i low := by
  induction ops generalizing t with
  | nil => exact h
  | cons op ops ih =>
    have hFirst := h.set hLow (hOps op List.mem_cons_self)
    have hNext : t.heap.next ≤ (t.apply op).heap.next := by
      have hOp := hOps op List.mem_cons_self
      cases op with
      | set info key type mData => exact Nat.le_succ _
      | _ => exact hOp.elim
    exact ih hFirst (Nat.le_trans hLow hNext) fun other hOther =>
      hOps other (List.mem_cons_of_mem op hOther)

/-- An `Info` of scalars, and in it another one of scalars that was built after them -/
theorem exclusive_nested (hSound : s.Sound) (hNe : j ≠ i) {ops ops' : List InfoState.Op}
    (hOps : ∀ op ∈ ops, op.Sets i) (hOps' : ∀ op ∈ ops', op.Sets j) (key : Text) :
    ((s.run (.clear i :: ops ++ (.clear j :: ops' ++ [.setInfo i key j []]))).infos i).Exclusive
      (s.run (.clear i :: ops ++ (.clear j :: ops' ++ [.setInfo i key j []]))).heap s.heap.next
      (s.run (.clear i :: ops ++ (.clear j :: ops' ++ [.setInfo i key j []]))).heap.next := by
  rw [InfoState.run_append, InfoState.run_append]
  have hOuter : s.Grown (s.run (.clear i :: ops)) i s.heap.next :=
    (InfoState.grown_clear hSound i _).sets (Nat.le_refl _) hOps
  have hInner : (s.run (.clear i :: ops)).Grown
      ((s.run (.clear i :: ops)).run (.clear j :: ops')) j (s.run (.clear i :: ops)).heap.next :=
    (InfoState.grown_clear hOuter.sound j _).sets (Nat.le_refl _) hOps'
  generalize s.run (.clear i :: ops) = u at hOuter hInner ⊢
  generalize u.run (.clear j :: ops') = t at hInner ⊢
  have hSelf : (t.run [.setInfo i key j []]).infos i =
      OrderedMap.set key (some t.heap.next) (t.infos i) := if_pos rfl
  have hInside : (InfoData.info (t.infos j)).entries.Exclusive t.heap u.heap.next t.heap.next :=
    hInner.exclusive
  have hFormed : (InfoData.info (t.infos j)).entries.Formed t.heap.next := hInner.sound.infos j
  rw [hSelf]
  exact (hInner.kept i hNe.symm _ _ hOuter.exclusive).set hInner.sound.heap
    (hInner.sound.infos i) hInside hFormed hOuter.next hInner.next (Nat.le_refl _) key

end Exclusive

end CoSimIO
