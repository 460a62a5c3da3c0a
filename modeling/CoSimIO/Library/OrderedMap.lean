import Mathlib.Order.Lattice
import Mathlib.Tactic.Common

/-! # Maps as lists of entries in the order of their keys -/

namespace OrderedMap

set_option autoImplicit false

variable {κ ν : Type} [LinearOrder κ] {entries : List (κ × ν)} {entry : κ × ν} {key k : κ} {v : ν}

def find (entries : List (κ × ν)) (key : κ) : Option ν :=
  (entries.find? fun entry => entry.1 = key).map Prod.snd

def has (entries : List (κ × ν)) (key : κ) : Bool := entries.any fun entry => entry.1 = key

/-- The value of an entry that exists is replaced. -/
def set (key : κ) (v : ν) : List (κ × ν) → List (κ × ν)
  | [] => [(key, v)]
  | entry :: entries =>
    if key < entry.1 then (key, v) :: entry :: entries
    else if entry.1 < key then entry :: set key v entries
    else (key, v) :: entries

/-- An entry that exists stays. -/
def insert (key : κ) (v : ν) (entries : List (κ × ν)) : List (κ × ν) :=
  if has entries key then entries else set key v entries

def erase (key : κ) (entries : List (κ × ν)) : List (κ × ν) :=
  entries.filter fun entry => entry.1 ≠ key

def Ordered (entries : List (κ × ν)) : Prop := entries.Pairwise fun a b => a.1 < b.1

theorem ordered_nil : Ordered ([] : List (κ × ν)) := .nil

theorem ordered_cons : Ordered (entry :: entries) ↔
    (∀ other ∈ entries, entry.1 < other.1) ∧ Ordered entries := List.pairwise_cons

theorem Ordered.erase (h : Ordered entries) (key : κ) : Ordered (erase key entries) :=
  List.Pairwise.filter _ h

theorem eq_or_mem_of_mem_set (h : entry ∈ set key v entries) :
    entry = (key, v) ∨ entry ∈ entries := by
  induction entries with
  | nil => exact .inl (List.mem_singleton.mp h)
  | cons first entries ih =>
    rw [set] at h
    split at h
    · exact List.mem_cons.mp h
    split at h
    · rcases List.mem_cons.mp h with rfl | hLater
      · exact .inr List.mem_cons_self
      · exact (ih hLater).imp_right (List.mem_cons_of_mem first)
    · rcases List.mem_cons.mp h with hHere | hLater
      · exact .inl hHere
      · exact .inr (List.mem_cons_of_mem first hLater)

theorem Ordered.set (h : Ordered entries) (key : κ) (v : ν) : Ordered (set key v entries) := by
  induction entries with
  | nil => exact List.pairwise_singleton _ _
  | cons first entries ih =>
    obtain ⟨hFirst, hRest⟩ := ordered_cons.mp h
    rw [OrderedMap.set]
    split
    · next hBefore =>
      refine ordered_cons.mpr ⟨?_, h⟩
      intro other hOther
      rcases List.mem_cons.mp hOther with rfl | hLater
      · exact hBefore
      · exact lt_trans hBefore (hFirst other hLater)
    split
    · next hAfter =>
      refine ordered_cons.mpr ⟨?_, ih hRest⟩
      intro other hOther
      rcases eq_or_mem_of_mem_set hOther with rfl | hLater
      · exact hAfter
      · exact hFirst other hLater
    · next hNotBefore hNotAfter =>
      have hKey : first.1 = key := le_antisymm (not_lt.mp hNotBefore) (not_lt.mp hNotAfter)
      exact ordered_cons.mpr ⟨hKey ▸ hFirst, hRest⟩

theorem exists_split_set (key : κ) (v : ν) (entries : List (κ × ν)) : ∃ before removed after,
    entries = before ++ (removed ++ after) ∧ set key v entries = before ++ (key, v) :: after := by
  induction entries with
  | nil => exact ⟨[], [], [], rfl, rfl⟩
  | cons first entries ih =>
    rw [set]
    split
    · exact ⟨[], [], first :: entries, rfl, rfl⟩
    split
    · obtain ⟨before, removed, after, hEntries, hSet⟩ := ih
      refine ⟨first :: before, removed, after, congrArg (first :: ·) hEntries, ?_⟩
      rw [hSet]
      rfl
    · exact ⟨[], [first], entries, rfl, rfl⟩

/-- A key after all others -/
theorem set_of_last (h : ∀ other ∈ entries, other.1 < key) :
    set key v entries = entries ++ [(key, v)] := by
  induction entries with
  | nil => rfl
  | cons first entries ih =>
    have hFirst := h first List.mem_cons_self
    rw [set, if_neg (lt_asymm hFirst), if_pos hFirst, ih fun other hOther =>
      h other (List.mem_cons_of_mem first hOther)]
    rfl

theorem insert_of_last (h : ∀ other ∈ entries, other.1 < key) :
    insert key v entries = entries ++ [(key, v)] := by
  have hNew : ¬ has entries key = true := by
    rw [has, List.any_eq_true]
    rintro ⟨other, hOther, hKey⟩
    exact ne_of_lt (h other hOther) (of_decide_eq_true hKey)
  rw [insert, if_neg hNew, set_of_last h]

@[simp] theorem find_nil (k : κ) : find ([] : List (κ × ν)) k = none := rfl

theorem find_cons (entry : κ × ν) (entries : List (κ × ν)) (k : κ) :
    find (entry :: entries) k = if entry.1 = k then some entry.2 else find entries k := by
  rw [find, List.find?_cons]
  split
  · next hKey =>
    rw [if_pos (of_decide_eq_true hKey)]
    rfl
  · next hKey =>
    rw [if_neg (of_decide_eq_false hKey)]
    rfl

theorem mem_of_find (h : find entries k = some v) : (k, v) ∈ entries := by
  induction entries with
  | nil => nomatch h
  | cons first entries ih =>
    rw [find_cons] at h
    split at h
    · next hKey =>
      obtain rfl := Option.some.inj h
      exact hKey ▸ List.mem_cons_self
    · exact List.mem_cons_of_mem first (ih h)

@[simp] theorem find_set_self (key : κ) (v : ν) (entries : List (κ × ν)) :
    find (set key v entries) key = some v := by
  induction entries with
  | nil => exact (find_cons _ _ _).trans (if_pos rfl)
  | cons first entries ih =>
    rw [set]
    split
    · exact (find_cons _ _ _).trans (if_pos rfl)
    split
    · next hLess =>
      rw [find_cons, if_neg (ne_of_lt hLess)]
      exact ih
    · exact (find_cons _ _ _).trans (if_pos rfl)

theorem find_set_of_ne (h : k ≠ key) (v : ν) (entries : List (κ × ν)) :
    find (set key v entries) k = find entries k := by
  induction entries with
  | nil => exact (find_cons _ _ _).trans (if_neg h.symm)
  | cons first entries ih =>
    rw [set]
    split
    · exact (find_cons _ _ _).trans (if_neg h.symm)
    split
    · rw [find_cons, find_cons, ih]
    · next hLess hMore =>
      have hSame : first.1 = key := le_antisymm (not_lt.mp hLess) (not_lt.mp hMore)
      rw [find_cons, find_cons, if_neg h.symm, if_neg (hSame ▸ h.symm)]

end OrderedMap
