import Mathlib.Tactic.Common

/-! # Natural numbers as digits in a base up to sixteen -/

namespace NumberText

set_option autoImplicit false

def hexValue (c : Char) : Option Nat :=
  if '0' ≤ c ∧ c ≤ '9' then some (c.toNat - '0'.toNat)
  else if 'a' ≤ c ∧ c ≤ 'f' then some (c.toNat - 'a'.toNat + 10)
  else if 'A' ≤ c ∧ c ≤ 'F' then some (c.toNat - 'A'.toNat + 10)
  else none

def digitValue (base : Nat) (c : Char) : Option Nat :=
  (hexValue c).filter (· < base)

def scanFrom (base : Nat) : Nat → List Char → Nat × List Char
  | value, [] => (value, [])
  | value, c :: cs => match digitValue base c with
    | some digit => scanFrom base (value * base + digit) cs
    | none => (value, c :: cs)

/-- The number that the longest run of digits at the start stands for, and the rest. -/
def scan (base : Nat) : List Char → Option Nat × List Char
  | [] => (none, [])
  | c :: cs => match digitValue base c with
    | some digit => (some (scanFrom base digit cs).1, (scanFrom base digit cs).2)
    | none => (none, c :: cs)

/-- No digit stands at the start. -/
def Stops (base : Nat) (text : List Char) : Prop :=
  ∀ c ∈ text.head?, digitValue base c = none

theorem hexValue_digitChar {digit : Nat} (h : digit < 16) :
    hexValue digit.digitChar = some digit := by
  have hAll : ∀ digit < 16, hexValue digit.digitChar = some digit := by decide
  exact hAll digit h

variable {base : Nat}

theorem digitValue_digitChar {digit : Nat} (hBase : base ≤ 16) (h : digit < base) :
    digitValue base digit.digitChar = some digit := by
  rw [digitValue, hexValue_digitChar (Nat.lt_of_lt_of_le h hBase)]
  simpa using h

theorem scanFrom_of_stops {value : Nat} {text : List Char} (h : Stops base text) :
    scanFrom base value text = (value, text) := by
  cases text with
  | nil => rfl
  | cons c cs =>
    rw [scanFrom, h c rfl]

/-- The digits of a number read back, whatever the text after them. -/
theorem scanFrom_toDigits (hOne : 1 < base) (hBase : base ≤ 16) (n : Nat) (text : List Char) :
    scanFrom base 0 (Nat.toDigits base n ++ text) = scanFrom base n text := by
  induction n using Nat.strongRecOn generalizing text with
  | ind n ih =>
    rcases Nat.lt_or_ge n base with hLow | hHigh
    · rw [Nat.toDigits_of_lt_base hLow, List.singleton_append, scanFrom,
        digitValue_digitChar hBase hLow]
      simp only [Nat.zero_mul, Nat.zero_add]
    · have hDigit : n % base < base := Nat.mod_lt n (by omega)
      have hLess : n / base < n := Nat.div_lt_self (by omega) hOne
      rw [Nat.toDigits_of_base_le hOne hHigh, List.append_assoc, ih (n / base) hLess,
        List.singleton_append, scanFrom, digitValue_digitChar hBase hDigit]
      simp only [Nat.mul_comm (n / base) base, Nat.div_add_mod]

theorem toDigits_head (hOne : 1 < base) (n : Nat) :
    ∃ digit < base, ∃ text, Nat.toDigits base n = digit.digitChar :: text := by
  induction n using Nat.strongRecOn with
  | ind n ih =>
    rcases Nat.lt_or_ge n base with hLow | hHigh
    · exact ⟨n, hLow, [], Nat.toDigits_of_lt_base hLow⟩
    · obtain ⟨digit, hDigit, text, hText⟩ := ih (n / base) (Nat.div_lt_self (by omega) hOne)
      refine ⟨digit, hDigit, text ++ [(n % base).digitChar], ?_⟩
      rw [Nat.toDigits_of_base_le hOne hHigh, hText, List.cons_append]

theorem scan_toDigits (hOne : 1 < base) (hBase : base ≤ 16) (n : Nat) {text : List Char}
    (hStops : Stops base text) : scan base (Nat.toDigits base n ++ text) = (some n, text) := by
  obtain ⟨digit, hDigit, digits, hDigits⟩ := toDigits_head hOne n
  have hRun := scanFrom_toDigits hOne hBase n text
  rw [hDigits, List.cons_append, scanFrom, digitValue_digitChar hBase hDigit] at hRun
  simp only [Nat.zero_mul, Nat.zero_add] at hRun
  rw [hDigits, List.cons_append, scan, digitValue_digitChar hBase hDigit]
  simp only [hRun, scanFrom_of_stops hStops]

end NumberText
