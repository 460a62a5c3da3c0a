import CoSimIO.Info.Restoring

/-! # What `load` of one entry of an `Info` restores -/

namespace CoSimIO

open Restore Restore.Writer Serializer

set_option autoImplicit false

section Entry

variable {src : InfoHeap} {layout : Nat → BitVec 64} {active bs : List (BitVec 64)}
  {s₀ s₁ s : List (BitVec 64)} {m₀ m₁ m : Memory InfoHeap} {key : Text} {ref slot : Nat}
  {a : BitVec 64} {data : InfoData} {info : Info}

/-- The object with the entries of its `Info` loaded -/
def InfoData.withEntries : InfoData → Info → InfoData
  | .info _, loaded => .info loaded
  | data, _ => data

/-- The address was met before, so the pointer becomes a copy of one that is empty by now. -/
theorem loadedInfo_known (h : Emptied active s m) (ha : a ∈ s) (bs : List (BitVec 64)) :
    LoadedInfo src active (a :: bs) [(key, some ref)] s m [(key, none)] s
      (((m.newSlots [none]).assign m.nextSlot none).destroy m.nextSlot) where
  emptied := by
    constructor
    · exact h.unseen
    · intro b hb hActive
      obtain ⟨slot, hSlot, hLoaded, hContent⟩ := h.seen b hb hActive
      refine ⟨slot, Nat.lt_succ_of_lt hSlot, hLoaded, ?_⟩
      have hNe : slot ≠ m.nextSlot := Nat.ne_of_lt hSlot
      simp only [Memory.destroy, Memory.assign, Memory.newSlots, if_neg hNe, if_pos hSlot]
      exact hContent
  kept := by
    refine ⟨fun _ h => h, fun _ _ => rfl, Nat.le_succ _, ?_, Nat.le_refl _, fun _ _ => rfl⟩
    intro i hi
    have hNe : i ≠ m.nextSlot := Nat.ne_of_lt hi
    simp only [Memory.destroy, Memory.assign, Memory.newSlots, if_neg hNe, if_pos hi]
  bound b hb := .inl hb
  region r hLow hHigh := absurd hHigh (Nat.not_lt.mpr hLow)
  within entry hEntry r hr := by
    obtain rfl := List.mem_singleton.mp hEntry
    cases hr
  keys := rfl
  fresh hFresh := absurd ha (hFresh.2 a List.mem_cons_self)
  shared _ _ := not_denotesInfo_null

/-- The memory when the object of a new address is loaded -/
def nextEntry (m : Memory InfoHeap) (prototype : InfoData) (a : BitVec 64) : Memory InfoHeap :=
  ({ m.newSlots [none] with heap := (m.heap.add prototype).2 }.assign m.nextSlot
    (some m.heap.next)).record a (.slot m.nextSlot)

theorem emptied_nextEntry (h : Emptied active s m) (prototype : InfoData) (a : BitVec 64) :
    Emptied (a :: active) (a :: s) (nextEntry m prototype a) where
  unseen b hb := by
    rw [List.mem_cons, not_or] at hb
    exact (if_neg hb.1).trans (h.unseen b hb.2)
  seen b hb hActive := by
    rw [List.mem_cons, not_or] at hActive
    obtain ⟨slot, hSlot, hLoaded, hContent⟩ :=
      h.seen b ((List.mem_cons.mp hb).resolve_left hActive.1) hActive.2
    refine ⟨slot, Nat.lt_succ_of_lt hSlot, (if_neg hActive.1).trans hLoaded, ?_⟩
    have hNe : slot ≠ m.nextSlot := Nat.ne_of_lt hSlot
    simp only [nextEntry, Memory.record, Memory.assign, Memory.newSlots, if_neg hNe, if_pos hSlot]
    exact hContent

theorem denotes_withEntries {heap : InfoHeap} {value : InfoValue}
    (hInner : ∀ entries, DenotesInfo src entries data.entries → DenotesInfo heap entries info)
    (h : Denotes src value data) : Denotes heap value (data.withEntries info) := by
  cases value with
  | scalar type mData =>
    obtain rfl : data = .scalar type mData := h
    exact rfl
  | info entries =>
    obtain ⟨inner, rfl, hEntries⟩ := h
    exact ⟨info, rfl, hInner entries hEntries⟩

theorem denotes_entries {heap : InfoHeap} {value : InfoValue} (hData : data.entries ≠ [])
    (h : Denotes heap value (data.withEntries info)) :
    ∃ entries, DenotesInfo heap entries info := by
  cases data with
  | base => exact absurd rfl hData
  | scalar type mData => exact absurd rfl hData
  | info inner =>
    cases value with
    | scalar type mData => nomatch h
    | info entries =>
      obtain ⟨inner', hInner, hEntries⟩ := h
      obtain rfl := InfoData.info.inj hInner
      exact ⟨entries, hEntries⟩

theorem withEntries_eq_info {inner : Info} (h : data.withEntries info = .info inner) :
    inner = info := by
  cases data with
  | info old => exact (InfoData.info.inj h).symm
  | _ => nomatch h

theorem denotesInfo_singleton {heap : InfoHeap} {value : List (Text × InfoValue)} :
    DenotesInfo heap value [(key, some ref)] ↔
      ∃ v, value = [(key, v)] ∧ Denotes heap v (heap.data ref) := by
  constructor
  · intro h
    cases value with
    | nil => nomatch h
    | cons item value =>
      obtain ⟨r, rest, hEntries, hValue, hRest⟩ := h
      obtain ⟨hItem, rfl⟩ := List.cons.inj hEntries
      obtain ⟨rfl, hPointer⟩ := Prod.mk.inj hItem
      obtain rfl := Option.some.inj hPointer
      cases value with
      | nil => exact ⟨item.2, rfl, hValue⟩
      | cons other value =>
        obtain ⟨_, _, hNone, -⟩ := hRest
        nomatch hNone
  · rintro ⟨v, rfl, hValue⟩
    exact ⟨ref, [], rfl, hValue, rfl⟩

/-- The object that `make` created got its content, and the local pointer is gone. -/
theorem loadedInfo_new {prototype : InfoData} (hNew : a ∉ s₀) (hData : src.data ref = data)
    (hScalar : data.entries = [] → bs = [])
    (h : LoadedInfo src (a :: active) bs data.entries (a :: s₀) (nextEntry m₀ prototype a) info
      s m) :
    LoadedInfo src active (a :: bs) [(key, some ref)] s₀ m₀ [(key, some m₀.heap.next)] s
      ({ m with heap := m.heap.set m₀.heap.next (data.withEntries info) }.destroy m₀.nextSlot) := by
  have hNext : m₀.heap.next < m.heap.next := h.kept.next
  have hSlot : m₀.nextSlot < m.nextSlot := h.kept.nextSlot
  have hOlder : ∀ r, (nextEntry m₀ prototype a).heap.next ≤ r → r ≠ m₀.heap.next :=
    fun r hr => Nat.ne_of_gt hr
  have hSame : ∀ value, DenotesInfo (m.heap.set m₀.heap.next (data.withEntries info)) value info ↔
      DenotesInfo m.heap value info := by
    intro value
    apply denotesInfo_congr h.region ?_ h.within
    intro r hLow _
    exact InfoHeap.set_data_of_ne _ (hOlder r hLow)
  have hWiden : ∀ inner : Info, inner.Within (nextEntry m₀ prototype a).heap.next m.heap.next →
      inner.Within m₀.heap.next m.heap.next := by
    intro inner hInner entry hEntry r hr
    obtain ⟨hLow, hHigh⟩ := hInner entry hEntry r hr
    exact ⟨Nat.le_of_succ_le hLow, hHigh⟩
  constructor
  · constructor
    · exact h.emptied.unseen
    · intro b hb hActive
      rcases eq_or_ne b a with rfl | hOther
      · refine ⟨m₀.nextSlot, hSlot, ?_, congrArg Slot.content (if_pos rfl)⟩
        exact (h.kept.loaded b List.mem_cons_self).trans (if_pos rfl)
      · obtain ⟨slot, hLt, hLoaded, hContent⟩ :=
          h.emptied.seen b hb (List.not_mem_cons_of_ne_of_not_mem hOther hActive)
        refine ⟨slot, hLt, hLoaded, ?_⟩
        simp only [Memory.destroy]
        split
        · rfl
        · exact hContent
  · constructor
    · intro b hb
      exact h.kept.saved b (List.mem_cons_of_mem a hb)
    · intro b hb
      have hOther : b ≠ a := fun hEq => hNew (hEq ▸ hb)
      exact (h.kept.loaded b (List.mem_cons_of_mem a hb)).trans (if_neg hOther)
    · exact Nat.le_of_lt hSlot
    · intro i hi
      have hNe : i ≠ m₀.nextSlot := Nat.ne_of_lt hi
      refine (if_neg hNe).trans ((h.kept.slots i (Nat.lt_succ_of_lt hi)).trans ?_)
      simp only [nextEntry, Memory.record, Memory.assign, Memory.newSlots, if_neg hNe, if_pos hi]
    · exact Nat.le_of_lt hNext
    · intro r hr
      refine (InfoHeap.set_data_of_ne _ (Nat.ne_of_lt hr)).trans ?_
      exact (h.kept.data r (Nat.lt_succ_of_lt hr)).trans (InfoHeap.add_data_of_lt _ hr)
  · intro b hb
    rcases h.bound b hb with hOld | hInner
    · rcases List.mem_cons.mp hOld with rfl | hOld
      · exact .inr List.mem_cons_self
      · exact .inl hOld
    · exact .inr (List.mem_cons_of_mem a hInner)
  · intro r hLow hHigh inner hInner
    rcases Nat.eq_or_lt_of_le hLow with rfl | hLater
    · have hEq := withEntries_eq_info ((InfoHeap.set_data_self _ _ _).symm.trans hInner)
      exact hWiden inner (hEq ▸ h.within)
    · have hSet : (m.heap.set m₀.heap.next (data.withEntries info)).data r = m.heap.data r :=
        InfoHeap.set_data_of_ne _ (hOlder r hLater)
      exact hWiden inner (h.region r hLater hHigh inner (hSet.symm.trans hInner))
  · intro entry hEntry r hr
    obtain rfl := List.mem_singleton.mp hEntry
    obtain rfl := Option.some.inj hr
    exact ⟨Nat.le_refl _, hNext⟩
  · rfl
  · intro hFresh
    obtain ⟨-, hInner⟩ := fresh_cons.mp hFresh
    obtain ⟨hSaved, hValues⟩ := h.fresh hInner
    constructor
    · intro b hb
      rcases List.mem_cons.mp hb with rfl | hLater
      · exact h.kept.saved b List.mem_cons_self
      · exact hSaved b hLater
    · intro value hValue
      obtain ⟨v, rfl, hDenotes⟩ := denotesInfo_singleton.mp hValue
      refine denotesInfo_singleton.mpr ⟨v, rfl, ?_⟩
      refine (InfoHeap.set_data_self _ _ _).symm ▸ denotes_withEntries ?_ (hData ▸ hDenotes)
      exact fun entries hEntries => (hSame entries).mpr (hValues entries hEntries)
  · intro hShared value hValue
    have hInner : ¬ Fresh bs (a :: s₀) := fun hFresh => hShared (fresh_cons.mpr ⟨hNew, hFresh⟩)
    have hEntries : data.entries ≠ [] := fun hNone => hInner (hScalar hNone ▸ fresh_nil _)
    obtain ⟨v, -, hDenotes⟩ := denotesInfo_singleton.mp hValue
    have hContent : Denotes _ v (data.withEntries info) := InfoHeap.set_data_self _ _ _ ▸ hDenotes
    obtain ⟨entries, hLoaded⟩ := denotes_entries hEntries hContent
    exact h.shared hInner entries ((hSame entries).mp hLoaded)

end Entry

end CoSimIO
