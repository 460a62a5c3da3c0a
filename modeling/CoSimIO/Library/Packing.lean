import Mathlib.Algebra.BigOperators.Group.List.Basic
import Mathlib.Algebra.GroupWithZero.Nat
import Mathlib.Data.List.Flatten
import Mathlib.Tactic.Common

/-! # Lists that lie one after the other in a buffer -/

namespace Packing

set_option autoImplicit false

variable {α : Type} {parts : List (List α)} {part buffer : List α} {i j k : Nat}

/-- The position of the first element of the part -/
def start (parts : List (List α)) (i : Nat) : Nat := ((parts.map List.length).take i).sum

def total (parts : List (List α)) : Nat := (parts.map List.length).sum

@[simp] theorem start_zero (parts : List (List α)) : start parts 0 = 0 := rfl

@[simp] theorem start_cons_succ (part : List α) (parts : List (List α)) (i : Nat) :
    start (part :: parts) (i + 1) = part.length + start parts i := by
  rw [start, List.map_cons, List.take_succ_cons, List.sum_cons, start]

@[simp] theorem total_nil : total ([] : List (List α)) = 0 := rfl

@[simp] theorem total_cons (part : List α) (parts : List (List α)) :
    total (part :: parts) = part.length + total parts := by
  rw [total, List.map_cons, List.sum_cons, total]

theorem length_flatten_eq_total (parts : List (List α)) : parts.flatten.length = total parts :=
  List.length_flatten

theorem start_add_length (h : parts[i]? = some part) :
    start parts i + part.length = start parts (i + 1) := by
  induction parts generalizing i with
  | nil => nomatch h
  | cons first parts ih =>
    cases i with
    | zero =>
      obtain rfl := Option.some.inj h
      simp
    | succ i =>
      have hNext := ih (i := i) h
      simp only [start_cons_succ]
      omega

theorem start_le_start (h : i ≤ j) : start parts i ≤ start parts j := by
  induction parts generalizing i j with
  | nil => simp [start]
  | cons first parts ih =>
    cases i with
    | zero => exact Nat.zero_le _
    | succ i =>
      cases j with
      | zero => omega
      | succ j =>
        have hNext := ih (i := i) (j := j) (by omega)
        simp only [start_cons_succ]
        omega

theorem start_length (parts : List (List α)) : start parts parts.length = total parts := by
  rw [start, total, List.take_of_length_le (Nat.le_of_eq (List.length_map _))]

theorem start_le_total (h : i ≤ parts.length) : start parts i ≤ total parts := by
  rw [← start_length]
  exact start_le_start h

theorem start_add_length_le_total (h : parts[i]? = some part) :
    start parts i + part.length ≤ total parts := by
  rw [start_add_length h]
  exact start_le_total (List.getElem?_eq_some_iff.mp h).1

/-- A part ends before the later ones begin. -/
theorem start_add_length_le_start (h : parts[i]? = some part) (hLater : i < j) :
    start parts i + part.length ≤ start parts j := by
  rw [start_add_length h]
  exact start_le_start hLater

theorem getElem?_flatten (h : parts[i]? = some part) (hk : k < part.length) :
    parts.flatten[start parts i + k]? = part[k]? := by
  induction parts generalizing i with
  | nil => nomatch h
  | cons first parts ih =>
    rw [List.flatten_cons]
    cases i with
    | zero =>
      obtain rfl := Option.some.inj h
      rw [start_zero, Nat.zero_add, List.getElem?_append_left hk]
    | succ i =>
      rw [start_cons_succ, Nat.add_assoc, List.getElem?_append_right (Nat.le_add_right _ _),
        Nat.add_sub_cancel_left]
      exact ih h

theorem take_drop_flatten (h : parts[i]? = some part) :
    (parts.flatten.drop (start parts i)).take part.length = part := by
  apply List.ext_getElem?
  intro k
  rcases Nat.lt_or_ge k part.length with hk | hk
  · rw [List.getElem?_take_of_lt hk, List.getElem?_drop, getElem?_flatten h hk]
  · rw [List.getElem?_take_eq_none hk, List.getElem?_eq_none hk]

/-- Every position of the buffer belongs to a part. -/
theorem exists_part (h : k < total parts) :
    ∃ i part l, parts[i]? = some part ∧ l < part.length ∧ k = start parts i + l := by
  induction parts generalizing k with
  | nil => nomatch h
  | cons first parts ih =>
    rcases Nat.lt_or_ge k first.length with hHere | hLater
    · exact ⟨0, first, k, rfl, hHere, (Nat.zero_add k).symm⟩
    · rw [total_cons] at h
      obtain ⟨i, part, l, hPart, hl, hk⟩ := ih (k := k - first.length) (by omega)
      refine ⟨i + 1, part, l, hPart, hl, ?_⟩
      rw [start_cons_succ]
      omega

/-- A buffer that has all parts in their places consists of them. -/
theorem eq_flatten (hLength : buffer.length = total parts)
    (hParts : ∀ i part, parts[i]? = some part → ∀ k < part.length,
      buffer[start parts i + k]? = part[k]?) : buffer = parts.flatten := by
  apply List.ext_getElem?
  intro k
  rcases Nat.lt_or_ge k (total parts) with hk | hk
  · obtain ⟨i, part, l, hPart, hl, rfl⟩ := exists_part hk
    rw [hParts i part hPart l hl, getElem?_flatten hPart hl]
  · rw [List.getElem?_eq_none (hLength ▸ hk),
      List.getElem?_eq_none ((length_flatten_eq_total parts).symm ▸ hk)]

end Packing
