import Mathlib.Data.List.TakeDrop
import Mathlib.Tactic.Common

/-! # Blocks of memory

A block holds a number of elements, a null pointer none. The C library gives larger blocks.
-/

namespace Block

set_option autoImplicit false

variable {α : Type} {block block' values : List α} {i j : Nat}

/-- `realloc` takes a number of bytes and may fail. What the block holds behind the old elements
is up to it. -/
structure Allocator (α : Type) (sizeOf : Nat) where
  realloc : List α → Nat → Option (List α)
  length_realloc : ∀ {block block' : List α} {bytes : Nat}, realloc block bytes = some block' →
    block'.length = bytes / sizeOf
  kept : ∀ {block block' : List α} {bytes i : Nat}, realloc block bytes = some block' →
    i < block.length → i < block'.length → block'[i]? = block[i]?

/-- The memory never runs out. -/
def endless (filler : α) (sizeOf : Nat) : Allocator α sizeOf where
  realloc block bytes := some (block.take (bytes / sizeOf) ++
    List.replicate (bytes / sizeOf - block.length) filler)
  length_realloc h := by
    rw [← Option.some.inj h, List.length_append, List.length_take, List.length_replicate]
    omega
  kept h hOld hNew := by
    rw [← Option.some.inj h] at hNew ⊢
    rw [List.length_append, List.length_take, List.length_replicate] at hNew
    rw [List.getElem?_append_left (by rw [List.length_take]; omega),
      List.getElem?_take_of_lt (by omega)]

/-- The block after the values have been written from the position on. -/
def overwrite (block : List α) (i : Nat) (values : List α) : List α :=
  block.take i ++ (values ++ block.drop (i + values.length))

@[simp] theorem overwrite_nil (block : List α) (i : Nat) : overwrite block i [] = block := by
  rw [overwrite, List.nil_append, List.length_nil, Nat.add_zero, List.take_append_drop]

theorem length_overwrite (h : i + values.length ≤ block.length) :
    (overwrite block i values).length = block.length := by
  rw [overwrite, List.length_append, List.length_append, List.length_take, List.length_drop]
  omega

theorem overwrite_set {v : α} (h : i < block.length) :
    overwrite (block.set i v) (i + 1) values = overwrite block i (v :: values) := by
  have hTake : (block.set i v).take (i + 1) = block.take i ++ [v] := by
    rw [List.take_add_one, List.take_set_of_le (Nat.le_refl i), List.getElem?_set_self h]
    rfl
  have hDrop : (block.set i v).drop (i + 1 + values.length) =
      block.drop (i + (v :: values).length) := by
    rw [List.drop_set_of_lt (by omega), List.length_cons, Nat.add_assoc, Nat.add_comm 1]
  rw [overwrite, overwrite, hTake, hDrop, List.append_assoc, List.singleton_append,
    List.cons_append]

theorem take_overwrite (block values : List α) :
    (overwrite block 0 values).take values.length = values := by
  rw [overwrite, List.take_zero, List.nil_append, List.take_left]

end Block
