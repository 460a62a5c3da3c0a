import Mathlib.Algebra.GroupWithZero.Nat
import Mathlib.Data.List.Forall2
import Mathlib.Data.List.Nodup
import Mathlib.Data.List.Perm.Basic
import Mathlib.Tactic.Common

/-! # Beginnings of sequences, indexed sequences, and sequences merged from two others -/

namespace Sequences

set_option autoImplicit false

section Take

variable {α β : Type} {xs : List α} {i : Nat} {x : α} {f : α → β}

theorem mem_map_take_succ (hx : xs[i]? = some x) (b : β) :
    b ∈ (xs.take (i + 1)).map f ↔ b = f x ∨ b ∈ (xs.take i).map f := by
  rw [List.take_add_one, hx]
  simp only [Option.toList_some, List.map_append, List.map_cons, List.map_nil, List.mem_append,
    List.mem_singleton]
  exact or_comm

theorem notMem_map_take (hNodup : (xs.map f).Nodup) (hx : xs[i]? = some x) :
    f x ∉ (xs.take i).map f := by
  have hSplit := (List.take_append_drop i xs).symm
  have hDrop : xs.drop i = x :: xs.drop (i + 1) := by
    obtain ⟨hLt, rfl⟩ := List.getElem?_eq_some_iff.mp hx
    exact List.drop_eq_getElem_cons hLt
  rw [hSplit, hDrop, List.map_append, List.map_cons] at hNodup
  exact fun h => (List.nodup_append'.mp hNodup).2.2 h List.mem_cons_self

end Take

section Lookup

variable {κ α : Type} [BEq κ] [LawfulBEq κ] {xs ys : List (κ × α)}

theorem lookup_perm (h : xs.Perm ys) (hNodup : (xs.map Prod.fst).Nodup) (key : κ) :
    xs.lookup key = ys.lookup key := by
  induction h with
  | nil => rfl
  | cons x h ih =>
    rw [List.lookup_cons, List.lookup_cons, ih (List.nodup_cons.mp hNodup).2]
  | swap x y xs =>
    have hNe : y.1 ≠ x.1 := fun hEqual =>
      (List.nodup_cons.mp hNodup).1 (hEqual ▸ List.mem_cons_self)
    rw [List.lookup_cons, List.lookup_cons, List.lookup_cons, List.lookup_cons]
    cases hx : key == x.1 with
    | false => rfl
    | true =>
      have hy : (key == y.1) = false := beq_false_of_ne fun hEqual =>
        hNe (hEqual.symm.trans (eq_of_beq hx))
      rw [hy]
  | trans h h' ih ih' =>
    exact (ih hNodup).trans (ih' ((h.map Prod.fst).nodup_iff.mp hNodup))

end Lookup

section Positions

variable {α : Type} [BEq α] [LawfulBEq α] {xs : List α} {i : Nat} {x : α}

theorem idxOf?_eq_some_iff_of_nodup (hNodup : xs.Nodup) :
    xs.idxOf? x = some i ↔ xs[i]? = some x := by
  rw [List.idxOf?_eq_some_iff, List.getElem?_eq_some_iff]
  constructor
  · rintro ⟨hLt, hx, -⟩
    exact ⟨hLt, hx⟩
  · rintro ⟨hLt, hx⟩
    refine ⟨hLt, hx, ?_⟩
    intro j hj hEq
    have hIndex := hNodup.getElem_inj_iff.mp (hEq.trans hx.symm)
    omega

end Positions

section Related

variable {α β : Type} {R : α → β → Prop} {as : List α} {bs : List β}

theorem exists_of_mem_right (h : List.Forall₂ R as bs) {b : β} (hb : b ∈ bs) :
    ∃ a ∈ as, R a b := by
  induction h with
  | nil => nomatch hb
  | cons hHead _ ih =>
    rcases List.mem_cons.mp hb with rfl | hLater
    · exact ⟨_, List.mem_cons_self, hHead⟩
    · obtain ⟨a, ha, hRelated⟩ := ih hLater
      exact ⟨a, List.mem_cons_of_mem _ ha, hRelated⟩

theorem exists_related (h : ∀ b ∈ bs, ∃ a ∈ as, R a b) :
    ∃ as', as' ⊆ as ∧ List.Forall₂ R as' bs := by
  induction bs with
  | nil => exact ⟨[], nofun, .nil⟩
  | cons b bs ih =>
    obtain ⟨a, ha, hRelated⟩ := h b List.mem_cons_self
    obtain ⟨as', hSubset, hRest⟩ := ih fun b' hb' => h b' (List.mem_cons_of_mem b hb')
    exact ⟨a :: as', List.cons_subset.mpr ⟨ha, hSubset⟩, .cons hRelated hRest⟩

end Related

section Index

variable {α κ : Type} {key : α → κ} {xs : List α} {index : κ → Option Nat}

/-- The index maps exactly the keys of the elements to their positions. -/
def Indexes (key : α → κ) (xs : List α) (index : κ → Option Nat) : Prop :=
  ∀ k i, index k = some i ↔ ∃ x, xs[i]? = some x ∧ key x = k

theorem indexes_nil : Indexes key [] fun _ => none := by
  rintro k i
  constructor
  · nofun
  · rintro ⟨x, hx, -⟩
    nomatch hx

theorem Indexes.isSome_iff (h : Indexes key xs index) (k : κ) :
    (index k).isSome = true ↔ k ∈ xs.map key := by
  rw [Option.isSome_iff_exists, List.mem_map]
  constructor
  · rintro ⟨i, hi⟩
    obtain ⟨x, hx, hk⟩ := (h k i).mp hi
    exact ⟨x, List.mem_of_getElem? hx, hk⟩
  · rintro ⟨x, hx, hk⟩
    obtain ⟨i, hi⟩ := List.getElem?_of_mem hx
    exact ⟨i, (h k i).mpr ⟨x, hi, hk⟩⟩

theorem Indexes.nodup (h : Indexes key xs index) : (xs.map key).Nodup := by
  rw [List.nodup_iff_getElem?_ne_getElem?]
  rintro i j hij hj hEq
  rw [List.length_map] at hj
  have hi : i < xs.length := by omega
  rw [List.getElem?_map, List.getElem?_map, List.getElem?_eq_getElem hi,
    List.getElem?_eq_getElem hj] at hEq
  have hFirst := (h (key xs[i]) i).mpr ⟨xs[i], List.getElem?_eq_getElem hi, rfl⟩
  have hSecond := (h (key xs[i]) j).mpr
    ⟨xs[j], List.getElem?_eq_getElem hj, (Option.some.inj hEq).symm⟩
  have : i = j := Option.some.inj (hFirst.symm.trans hSecond)
  omega

theorem Indexes.eq {other : κ → Option Nat} (h : Indexes key xs index)
    (hOther : Indexes key xs other) : index = other := by
  funext k
  apply Option.ext
  rintro i
  exact (h k i).trans (hOther k i).symm

theorem Indexes.congr {other : α → κ} (h : Indexes key xs index)
    (hKey : ∀ x ∈ xs, key x = other x) : Indexes other xs index := by
  rintro k i
  rw [h k i]
  constructor
  · rintro ⟨x, hx, hk⟩
    exact ⟨x, hx, (hKey x (List.mem_of_getElem? hx)).symm.trans hk⟩
  · rintro ⟨x, hx, hk⟩
    exact ⟨x, hx, (hKey x (List.mem_of_getElem? hx)).trans hk⟩

theorem Indexes.map {β : Type} {f : α → β} {key' : β → κ} (h : Indexes key xs index)
    (hKey : ∀ x ∈ xs, key' (f x) = key x) : Indexes key' (xs.map f) index := by
  intro k i
  rw [(h.congr fun x hx => (hKey x hx).symm) k i, List.getElem?_map]
  simp only [Option.map_eq_some_iff]
  constructor
  · rintro ⟨x, hx, hk⟩
    exact ⟨f x, ⟨x, hx, rfl⟩, hk⟩
  · rintro ⟨-, ⟨x, hx, rfl⟩, hk⟩
    exact ⟨x, hx, hk⟩

variable [DecidableEq κ]

def setIndex (index : κ → Option Nat) (k : κ) (i : Nat) : κ → Option Nat := fun k' =>
  if k' = k then some i else index k'

theorem Indexes.concat (h : Indexes key xs index) {x : α} (hNew : key x ∉ xs.map key) :
    Indexes key (xs ++ [x]) (setIndex index (key x) xs.length) := by
  rintro k i
  rw [setIndex]
  split
  · next hk =>
    subst hk
    constructor
    · rintro hi
      obtain rfl := Option.some.inj hi
      exact ⟨x, by simp, rfl⟩
    · rintro ⟨y, hy, hKey⟩
      rcases Nat.lt_or_ge i xs.length with hLt | hGe
      · rw [List.getElem?_append_left hLt] at hy
        exact absurd (hKey ▸ List.mem_map_of_mem (List.mem_of_getElem? hy)) hNew
      · have hBound := (List.getElem?_eq_some_iff.mp hy).1
        rw [List.length_append, List.length_singleton] at hBound
        exact congrArg some (by omega)
  · next hk =>
    rw [h k i]
    constructor
    · rintro ⟨y, hy, hKey⟩
      exact ⟨y, by rw [List.getElem?_append_left (List.getElem?_eq_some_iff.mp hy).1, hy], hKey⟩
    · rintro ⟨y, hy, hKey⟩
      rcases Nat.lt_or_ge i xs.length with hLt | hGe
      · exact ⟨y, by rwa [List.getElem?_append_left hLt] at hy, hKey⟩
      · rw [List.getElem?_append_right hGe] at hy
        obtain rfl := List.mem_singleton.mp (List.mem_of_getElem? hy)
        exact absurd hKey.symm hk

/-- Sets the position of every element in turn. -/
def buildIndex (key : α → κ) (index : κ → Option Nat) (i : Nat) : List α → κ → Option Nat
  | [] => index
  | x :: xs => buildIndex key (setIndex index (key x) i) (i + 1) xs

theorem indexes_buildIndex {before : List α} (h : Indexes key before index)
    (hNodup : ((before ++ xs).map key).Nodup) :
    Indexes key (before ++ xs) (buildIndex key index before.length xs) := by
  induction xs generalizing before index with
  | nil =>
    rw [List.append_nil]
    exact h
  | cons x xs ih =>
    have hSplit : before ++ x :: xs = before ++ [x] ++ xs := by simp
    rw [hSplit] at hNodup ⊢
    have hNew : key x ∉ before.map key := by
      rw [List.map_append, List.map_append] at hNodup
      have hDisjoint := (List.nodup_append'.mp (List.Nodup.of_append_left hNodup)).2.2
      exact fun hMem => hDisjoint hMem (by simp)
    have hStep := ih (h.concat hNew) hNodup
    rwa [List.length_append, List.length_singleton] at hStep

end Index

section Interleaving

variable {α : Type} {xs ys zs : List α}

/-- `zs` consists of `xs` and `ys`, each in its order. -/
inductive Interleaves : List α → List α → List α → Prop
  | nil : Interleaves [] [] []
  | left (x : α) {xs ys zs : List α} : Interleaves xs ys zs → Interleaves (x :: xs) ys (x :: zs)
  | right (y : α) {xs ys zs : List α} : Interleaves xs ys zs → Interleaves xs (y :: ys) (y :: zs)

theorem Interleaves.concat_left (h : Interleaves xs ys zs) (x : α) :
    Interleaves (xs ++ [x]) ys (zs ++ [x]) := by
  induction h with
  | nil => exact .left x .nil
  | left y _ ih => exact .left y ih
  | right y _ ih => exact .right y ih

theorem Interleaves.concat_right (h : Interleaves xs ys zs) (y : α) :
    Interleaves xs (ys ++ [y]) (zs ++ [y]) := by
  induction h with
  | nil => exact .right y .nil
  | left x _ ih => exact .left x ih
  | right x _ ih => exact .right x ih

theorem Interleaves.perm (h : Interleaves xs ys zs) : zs.Perm (xs ++ ys) := by
  induction h with
  | nil => exact .nil
  | left x _ ih => exact ih.cons x
  | right y _ ih => exact (ih.cons y).trans List.perm_middle.symm

theorem Interleaves.disjoint (h : Interleaves xs ys zs) (hNodup : zs.Nodup) :
    xs.Disjoint ys :=
  (List.nodup_append'.mp (h.perm.nodup_iff.mp hNodup)).2.2

end Interleaving

end Sequences
