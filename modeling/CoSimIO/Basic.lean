import Mathlib.Algebra.Group.Int.Defs
import Mathlib.Algebra.Group.Nat.Defs
import Mathlib.Order.Basic

/-! # Texts and the entries that become names

A `std::string` is a list of characters. Entries of the settings that end up in file
and folder names are restricted by `checkEntry`.
-/

namespace CoSimIO

set_option autoImplicit false

abbrev Text := List Char

namespace Utilities

def createConnectionName (name1 name2 : Text) : Text :=
  if name1 < name2 then name1 ++ '_' :: name2 else name2 ++ '_' :: name1

def maxAllowedSize : Nat := 1000

def disallowedChars : Text :=
  ['.', ',', ':', ';', '>', '<', '/', '\'', '|', '*', '!', '"', ' ']

def checkEntry (entry key : Text) : Except Text Unit :=
  if entry = [] then
    .error ("Using an empty entry for \"".toList ++ key ++ "\" is not allowed!\n".toList)
  else if entry.length > maxAllowedSize then
    .error ("Entry for \"".toList ++ key ++
      "\" is too long! Maximum allowed length: 1000 characters!\n".toList)
  else match disallowedChars.find? fun ch => entry.contains ch with
    | some ch => .error ("Entry for \"".toList ++ key ++
        "\" contains a character that is not allowed: \"".toList ++ ch :: "\"!\n".toList)
    | none => .ok ()

theorem checkEntry_eq_ok_iff (entry key : Text) : checkEntry entry key = .ok () ↔
    entry ≠ [] ∧ entry.length ≤ maxAllowedSize ∧ ∀ ch ∈ disallowedChars, ch ∉ entry := by
  unfold checkEntry
  by_cases hEmpty : entry = []
  · simp [hEmpty]
  rw [if_neg hEmpty]
  by_cases hLong : entry.length > maxAllowedSize
  · rw [if_pos hLong]
    constructor
    · nofun
    · rintro ⟨-, hShort, -⟩
      exact absurd hLong (Nat.not_lt.mpr hShort)
  rw [if_neg hLong]
  cases hFound : disallowedChars.find? fun ch => entry.contains ch with
  | none =>
    have hNone := List.find?_eq_none.mp hFound
    simp only [List.contains_eq_mem, decide_eq_true_eq] at hNone
    exact iff_of_true rfl ⟨hEmpty, Nat.le_of_not_gt hLong, hNone⟩
  | some ch =>
    have hMem := List.mem_of_find?_eq_some hFound
    have hContains : ch ∈ entry := by simpa using List.find?_some hFound
    constructor
    · nofun
    · rintro ⟨-, -, hAll⟩
      exact absurd hContains (hAll ch hMem)

end Utilities

end CoSimIO
