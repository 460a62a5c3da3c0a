import CoSimIO.Info.Serialization
import CoSimIO.Info.Values
import CoSimIO.Serializer.PointerRules
import Mathlib.Data.List.Nodup

/-! # What `load` of an `Info` restores

The pointer that `mLoadedPointers` knows for an object is a local variable that is empty when the
address is met again, so only the first entry with an object gets it.
-/

namespace CoSimIO

open Restore Restore.Writer Serializer

set_option autoImplicit false

section Visits

variable (heap : InfoHeap)

def InfoData.entries : InfoData → Info
  | .base | .scalar _ _ => []
  | .info inner => inner

/-- The objects that `save` meets, in its order. -/
def Info.visits : Nat → Info → List Nat
  | 0, _ => []
  | depth + 1, info => info.flatMap fun entry =>
    entry.2.elim [] fun ref => ref :: Info.visits depth (heap.data ref).entries

variable {heap} {depth next : Nat} {info : Info}

theorem Info.visits_nil (depth : Nat) : Info.visits heap depth [] = [] := by
  cases depth <;> rfl

theorem Info.visits_lt (h : heap.Sound) (hInfo : Info.Formed next info) (hNext : next ≤ heap.next) :
    ∀ ref ∈ Info.visits heap depth info, ref < next := by
  induction depth generalizing next info with
  | zero => nofun
  | succ depth ih =>
    intro ref hRef
    obtain ⟨entry, hEntry, hMem⟩ := List.mem_flatMap.mp hRef
    obtain ⟨first, hFirst, hPointer⟩ := hInfo.pointers entry hEntry
    rw [hPointer] at hMem
    rcases List.mem_cons.mp hMem with rfl | hInner
    · exact hFirst
    · cases hData : heap.data first with
      | info inner =>
        rw [hData, InfoData.entries] at hInner
        have hLt := ih (h.formed first (by omega) inner hData) (by omega) ref hInner
        omega
      | _ =>
        rw [hData, InfoData.entries, Info.visits_nil] at hInner
        nomatch hInner

end Visits

section Fresh

variable {s₀ s₁ as bs : List (BitVec 64)} {a : BitVec 64}

/-- No address was met before, and none comes twice. -/
def Fresh (as s : List (BitVec 64)) : Prop := as.Nodup ∧ ∀ a ∈ as, a ∉ s

theorem fresh_nil (s : List (BitVec 64)) : Fresh [] s := ⟨.nil, nofun⟩

theorem fresh_cons : Fresh (a :: as) s₀ ↔ a ∉ s₀ ∧ Fresh as (a :: s₀) := by
  rw [Fresh, Fresh, List.nodup_cons, List.forall_mem_cons]
  constructor
  · rintro ⟨⟨hNew, hNodup⟩, hUnsaved, hRest⟩
    refine ⟨hUnsaved, hNodup, ?_⟩
    intro b hb
    exact List.not_mem_cons_of_ne_of_not_mem (fun hEq => hNew (hEq ▸ hb)) (hRest b hb)
  · rintro ⟨hUnsaved, hNodup, hRest⟩
    exact ⟨⟨fun hMem => hRest a hMem List.mem_cons_self, hNodup⟩, hUnsaved,
      fun b hb hMem => hRest b hb (List.mem_cons_of_mem a hMem)⟩

theorem fresh_append (hSaved : ∀ a, a ∈ s₁ ↔ a ∈ s₀ ∨ a ∈ as) :
    Fresh (as ++ bs) s₀ ↔ Fresh as s₀ ∧ Fresh bs s₁ := by
  simp only [Fresh, List.nodup_append', List.forall_mem_append, hSaved, not_or]
  constructor
  · rintro ⟨⟨hAs, hBs, hDisjoint⟩, hNewAs, hNewBs⟩
    exact ⟨⟨hAs, hNewAs⟩, hBs, fun b hb => ⟨hNewBs b hb, fun hMem => hDisjoint hMem hb⟩⟩
  · rintro ⟨⟨hAs, hNewAs⟩, hBs, hNew⟩
    exact ⟨⟨hAs, hBs, fun b hA hB => (hNew b hB).2 hA⟩, hNewAs, fun b hb => (hNew b hb).1⟩

end Fresh

section Loaded

variable {src : InfoHeap} {active as bs : List (BitVec 64)} {entries entries' info info' : Info}
  {s₀ s₁ s₂ s : List (BitVec 64)} {m₀ m₁ m₂ m : Memory InfoHeap}

/-- The pointers that were loaded are empty again, apart from those to the `active` objects,
which are being loaded. -/
structure Emptied (active s : List (BitVec 64)) (m : Memory InfoHeap) : Prop where
  unseen : ∀ a ∉ s, m.loadedPointers a = none
  seen : ∀ a ∈ s, a ∉ active → ∃ slot < m.nextSlot,
    m.loadedPointers a = some (.slot slot) ∧ (m.slots slot).content = none

/-- What was there stays there. -/
structure Kept (s₀ : List (BitVec 64)) (m₀ : Memory InfoHeap) (s : List (BitVec 64))
    (m : Memory InfoHeap) : Prop where
  saved : ∀ a ∈ s₀, a ∈ s
  loaded : ∀ a ∈ s₀, m.loadedPointers a = m₀.loadedPointers a
  nextSlot : m₀.nextSlot ≤ m.nextSlot
  slots : ∀ i < m₀.nextSlot, m.slots i = m₀.slots i
  next : m₀.heap.next ≤ m.heap.next
  data : ∀ ref < m₀.heap.next, m.heap.data ref = m₀.heap.data ref

theorem Kept.refl (s : List (BitVec 64)) (m : Memory InfoHeap) : Kept s m s m :=
  ⟨fun _ h => h, fun _ _ => rfl, Nat.le_refl _, fun _ _ => rfl, Nat.le_refl _, fun _ _ => rfl⟩

theorem Kept.trans (h : Kept s₀ m₀ s₁ m₁) (h' : Kept s₁ m₁ s₂ m₂) : Kept s₀ m₀ s₂ m₂ where
  saved a ha := h'.saved a (h.saved a ha)
  loaded a ha := (h'.loaded a (h.saved a ha)).trans (h.loaded a ha)
  nextSlot := Nat.le_trans h.nextSlot h'.nextSlot
  slots i hi := (h'.slots i (Nat.lt_of_lt_of_le hi h.nextSlot)).trans (h.slots i hi)
  next := Nat.le_trans h.next h'.next
  data ref hRef := (h'.data ref (Nat.lt_of_lt_of_le hRef h.next)).trans (h.data ref hRef)

/-- The entries are loaded: every one has an object if their addresses are fresh, otherwise
one has none. -/
structure LoadedInfo (src : InfoHeap) (active as : List (BitVec 64)) (entries : Info)
    (s₀ : List (BitVec 64)) (m₀ : Memory InfoHeap) (info : Info) (s : List (BitVec 64))
    (m : Memory InfoHeap) : Prop where
  emptied : Emptied active s m
  kept : Kept s₀ m₀ s m
  bound : ∀ a ∈ s, a ∈ s₀ ∨ a ∈ as
  region : m.heap.Region m₀.heap.next m.heap.next
  within : info.Within m₀.heap.next m.heap.next
  keys : info.map Prod.fst = entries.map Prod.fst
  fresh : Fresh as s₀ → (∀ a ∈ as, a ∈ s) ∧
    ∀ value, DenotesInfo src value entries → DenotesInfo m.heap value info
  shared : ¬ Fresh as s₀ → ∀ value, ¬ DenotesInfo m.heap value info

theorem loadedInfo_nil (h : Emptied active s m) : LoadedInfo src active [] [] s m [] s m where
  emptied := h
  kept := .refl s m
  bound a ha := .inl ha
  region ref hLow hHigh := absurd hHigh (Nat.not_lt.mpr hLow)
  within := nofun
  keys := rfl
  fresh _ := by
    refine ⟨nofun, ?_⟩
    intro value hValue
    cases value with
    | nil => rfl
    | cons entry value =>
      obtain ⟨ref, rest, hRest, -⟩ := hValue
      nomatch hRest
  shared hShared := absurd (fresh_nil s) hShared

theorem denotesInfo_append {heap : InfoHeap} {value : List (Text × InfoValue)} :
    DenotesInfo heap value (info ++ info') ↔ ∃ first second, value = first ++ second ∧
      DenotesInfo heap first info ∧ DenotesInfo heap second info' := by
  induction info generalizing value with
  | nil =>
    constructor
    · intro h
      exact ⟨[], value, rfl, rfl, h⟩
    · rintro ⟨first, second, rfl, hFirst, hSecond⟩
      cases first with
      | nil => exact hSecond
      | cons entry first =>
        obtain ⟨ref, rest, hRest, -⟩ := hFirst
        nomatch hRest
  | cons entry info ih =>
    constructor
    · intro h
      cases value with
      | nil => nomatch h
      | cons item value =>
        obtain ⟨ref, rest, hEntries, hValue, hRest⟩ := h
        obtain ⟨rfl, rfl⟩ := List.cons.inj hEntries
        obtain ⟨first, second, rfl, hFirst, hSecond⟩ := ih.mp hRest
        exact ⟨item :: first, second, rfl, ⟨ref, info, rfl, hValue, hFirst⟩, hSecond⟩
    · rintro ⟨first, second, rfl, hFirst, hSecond⟩
      cases first with
      | nil => nomatch hFirst
      | cons item first =>
        obtain ⟨ref, rest, hEntries, hValue, hRest⟩ := hFirst
        obtain ⟨rfl, rfl⟩ := List.cons.inj hEntries
        exact ⟨ref, info ++ info', rfl, hValue, ih.mpr ⟨first, second, rfl, hRest, hSecond⟩⟩

theorem LoadedInfo.append (h : LoadedInfo src active as entries s₀ m₀ info s₁ m₁)
    (h' : LoadedInfo src active bs entries' s₁ m₁ info' s₂ m₂) :
    LoadedInfo src active (as ++ bs) (entries ++ entries') s₀ m₀ (info ++ info') s₂ m₂ := by
  have hSame : ∀ value, DenotesInfo m₂.heap value info ↔ DenotesInfo m₁.heap value info :=
    fun value => denotesInfo_congr h.region (fun ref _ hRef => h'.kept.data ref hRef) h.within
  have hSaved : Fresh as s₀ → ∀ a, a ∈ s₁ ↔ a ∈ s₀ ∨ a ∈ as := by
    intro hFresh a
    exact ⟨h.bound a, fun ha => ha.elim (h.kept.saved a) ((h.fresh hFresh).1 a)⟩
  refine ⟨h'.emptied, h.kept.trans h'.kept, ?_, ?_, ?_, ?_, ?_, ?_⟩
  · intro a ha
    rcases h'.bound a ha with hOld | hNew
    · exact (h.bound a hOld).imp_right (List.mem_append_left bs)
    · exact .inr (List.mem_append_right as hNew)
  · intro ref hLow hHigh inner hInner
    rcases Nat.lt_or_ge ref m₁.heap.next with hOld | hNew
    · rw [h'.kept.data ref hOld] at hInner
      intro entry hEntry r hr
      obtain ⟨hLower, hUpper⟩ := h.region ref hLow hOld inner hInner entry hEntry r hr
      exact ⟨hLower, Nat.lt_of_lt_of_le hUpper h'.kept.next⟩
    · intro entry hEntry r hr
      obtain ⟨hLower, hUpper⟩ := h'.region ref hNew hHigh inner hInner entry hEntry r hr
      exact ⟨Nat.le_trans h.kept.next hLower, hUpper⟩
  · intro entry hEntry r hr
    rcases List.mem_append.mp hEntry with hOld | hNew
    · obtain ⟨hLower, hUpper⟩ := h.within entry hOld r hr
      exact ⟨hLower, Nat.lt_of_lt_of_le hUpper h'.kept.next⟩
    · obtain ⟨hLower, hUpper⟩ := h'.within entry hNew r hr
      exact ⟨Nat.le_trans h.kept.next hLower, hUpper⟩
  · rw [List.map_append, List.map_append, h.keys, h'.keys]
  · intro hFresh
    have hFirst : Fresh as s₀ := ⟨(List.nodup_append'.mp hFresh.1).1,
      fun a ha => hFresh.2 a (List.mem_append_left bs ha)⟩
    obtain ⟨-, hSecond⟩ := (fresh_append (hSaved hFirst)).mp hFresh
    constructor
    · intro a ha
      rcases List.mem_append.mp ha with hA | hB
      · exact h'.kept.saved a ((h.fresh hFirst).1 a hA)
      · exact (h'.fresh hSecond).1 a hB
    · intro value hValue
      obtain ⟨first, second, rfl, hValue₁, hValue₂⟩ := denotesInfo_append.mp hValue
      exact denotesInfo_append.mpr ⟨first, second, rfl,
        (hSame first).mpr ((h.fresh hFirst).2 first hValue₁), (h'.fresh hSecond).2 second hValue₂⟩
  · intro hShared value hValue
    obtain ⟨first, second, rfl, hValue₁, hValue₂⟩ := denotesInfo_append.mp hValue
    by_cases hFirst : Fresh as s₀
    · have hSecond : ¬ Fresh bs s₁ := fun hFresh =>
        hShared ((fresh_append (hSaved hFirst)).mpr ⟨hFirst, hFresh⟩)
      exact h'.shared hSecond second hValue₂
    · exact h.shared hFirst first ((hSame first).mp hValue₁)

end Loaded

end CoSimIO
