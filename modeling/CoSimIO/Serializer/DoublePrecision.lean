import CoSimIO.Library.NumberFormat
import CoSimIO.Serializer.Stream

/-! # The digits of a `double` in the text modes

A finite double is a rational, and so is the decimal number that is written for it: trailing
zeros are not written, so that equal numbers are equal tokens.
-/

namespace CoSimIO.Serializer

open NumberFormat

set_option autoImplicit false

/-- Set by the constructors of `StreamSerializer` and `FileSerializer`; a stream has six. -/
def precision (trace : TraceType) : ℕ := if trace ≠ .noTrace then 14 else 6

def decimal (trace : TraceType) : Format where
  radix := 10
  precision := precision trace
  least := none
  radix_gt := by decide
  precision_pos := by
    cases trace
    all_goals decide

def binary64 : Format where
  radix := 2
  precision := 53
  least := some (-1074)
  radix_gt := by decide
  precision_pos := by decide

@[ext]
structure FiniteDouble where
  value : ℚ
  member : binary64.Member value
  finite : |value| < 2 ^ 1024

/-- `operator<<` -/
def writeToken (trace : TraceType) (x : FiniteDouble) : ℚ := (decimal trace).nearest x.value

/-- `operator>>`, which fails when the nearest double is not finite. -/
def readToken (token : ℚ) : Option FiniteDouble :=
  if hFinite : |binary64.nearest token| < 2 ^ 1024 then
    some ⟨binary64.nearest token, binary64.member_nearest token, hFinite⟩
  else none

theorem readToken_eq_some_iff (token : ℚ) (x : FiniteDouble) :
    readToken token = some x ↔ binary64.RoundsTo token x.value := by
  constructor
  · intro hRead
    rw [readToken] at hRead
    split at hRead
    · obtain rfl := Option.some.inj hRead
      exact binary64.roundsTo_nearest rfl (by decide) token
    · nomatch hRead
  · intro hRounds
    have hNearest := binary64.nearest_of_roundsTo hRounds
    have hFinite : |binary64.nearest token| < 2 ^ 1024 := by
      rw [hNearest]
      exact x.finite
    rw [readToken, dif_pos hFinite]
    exact congrArg some (FiniteDouble.ext hNearest)

/-- Above the least exponent a double has more digits than its token. -/
theorem unit_lt_unit {trace : TraceType} (hText : trace ≠ .noTrace) {x : ℚ} (hx : x ≠ 0)
    (hNormal : binary64.exponent (Int.log 2 |x|) = Int.log 2 |x| - 52) :
    binary64.unit x < (decimal trace).unit x := by
  have hDigits : (decimal trace).exponent (Int.log 10 |x|) = Int.log 10 |x| + 1 - 14 := by
    have hPrecision : (decimal trace).precision = 14 := if_pos hText
    rw [Format.exponent, show (decimal trace).least = none from rfl, hPrecision]
    norm_num
    omega
  have hBinary : binary64.unit x = (2 : ℚ) ^ Int.log 2 |x| / 2 ^ 52 := by
    rw [Format.unit, show binary64.radix = 2 from rfl, hNormal, zpow_sub₀ (by norm_num)]
    norm_num
  have hDecimal : (decimal trace).unit x = (10 : ℚ) ^ (Int.log 10 |x| + 1) / 10 ^ 14 := by
    rw [Format.unit, show (decimal trace).radix = 10 from rfl, hDigits, zpow_sub₀ (by norm_num)]
    norm_num
  have hLow : (2 : ℚ) ^ Int.log 2 |x| ≤ |x| := binary64.log_le hx
  have hHigh : |x| < (10 : ℚ) ^ (Int.log 10 |x| + 1) := (decimal trace).lt_log x
  rw [hBinary, hDecimal]
  calc (2 : ℚ) ^ Int.log 2 |x| / 2 ^ 52
      < (10 : ℚ) ^ (Int.log 10 |x| + 1) / 2 ^ 52 := by
        exact div_lt_div_of_pos_right (hLow.trans_lt hHigh) (by norm_num)
    _ ≤ (10 : ℚ) ^ (Int.log 10 |x| + 1) / 10 ^ 14 :=
        div_le_div_of_nonneg_left (zpow_nonneg (by norm_num) _) (by norm_num) (by norm_num)

theorem multiple_of_least {x : ℚ} (hLeast : binary64.exponent (Int.log 2 |x|) = -1074) {z : ℚ}
    (hMember : binary64.Member z) : ∃ k : ℤ, z = k * binary64.unit x := by
  obtain ⟨n, e, -, hAllows, hz⟩ := hMember
  have hBelow : binary64.exponent (Int.log binary64.radix |x|) ≤ e :=
    hLeast.le.trans (hAllows _ rfl)
  obtain ⟨k, -, hk⟩ := binary64.exists_mul_unit (n := n) hBelow
  exact ⟨k, hz.trans hk⟩

theorem roundsTo_writeToken {trace : TraceType} (hText : trace ≠ .noTrace) {number x : ℚ}
    (hNumber : (decimal trace).Member number) (hRounds : binary64.RoundsTo number x) :
    binary64.RoundsTo ((decimal trace).nearest x) x := by
  rcases eq_or_ne x 0 with rfl | hx
  · rw [(decimal trace).nearest_zero]
    exact binary64.roundsTo_self hRounds.1
  rcases le_total (-1074) (Int.log 2 |x| - 52) with hNormal | hSubnormal
  · exact hRounds.nearest_of_sparse hNumber hx (unit_lt_unit hText hx (max_eq_right hNormal))
  rcases lt_or_ge (binary64.unit x) ((decimal trace).unit x) with hSparse | hDense
  · exact hRounds.nearest_of_sparse hNumber hx hSparse
  · exact Format.RoundsTo.nearest_of_dense hRounds.1 hDense fun z hMember =>
      multiple_of_least (max_eq_left hSubnormal) hMember

/-- Fourteen digits are enough for those doubles to which some number of fourteen digits is
rounded, and for no others. -/
theorem text_lossless_iff (trace : TraceType) (hText : trace ≠ .noTrace) (x : FiniteDouble) :
    readToken (writeToken trace x) = some x ↔
      ∃ number, (decimal trace).Member number ∧ binary64.RoundsTo number x.value := by
  rw [readToken_eq_some_iff, writeToken]
  constructor
  · intro hRounds
    exact ⟨_, (decimal trace).member_nearest x.value, hRounds⟩
  · rintro ⟨number, hNumber, hRounds⟩
    exact roundsTo_writeToken hText hNumber hRounds

def half : FiniteDouble where
  value := 1 / 2
  member := ⟨1, -1, by decide, by simp [Format.allows, binary64], by norm_num [binary64]⟩
  finite := (by norm_num [abs_of_pos] : |(1 / 2 : ℚ)| < 1).trans_le (one_le_pow₀ (by norm_num))

theorem text_lossless_iff_half : readToken (writeToken .ascii half) = some half :=
  (text_lossless_iff .ascii (by decide) half).mpr
    ⟨1 / 2, ⟨5, -1, by decide, nofun, by norm_num [decimal]⟩, binary64.roundsTo_self half.member⟩

theorem finite_of_natAbs_lt {n : ℤ} (h : |n| < 2 ^ 53) : |(n : ℚ)| < 2 ^ 1024 := by
  have hCast : |(n : ℚ)| < 2 ^ 53 := by exact_mod_cast h
  exact hCast.trans_le (pow_le_pow_right₀ (by norm_num) (by norm_num))

/-- The doubles of the integers below 2 ^ 53 -/
def integerDouble (n : ℤ) (h : |n| < 2 ^ 53) : FiniteDouble where
  value := n
  member := ⟨n, 0, h, by simp [Format.allows, binary64], by simp⟩
  finite := finite_of_natAbs_lt h

def fourteenZeros : FiniteDouble := integerDouble (10 ^ 14) (by decide)

def fifteenDigits : FiniteDouble := integerDouble (10 ^ 14 + 1) (by decide)

/-- 100000000000001 is written as 1e+14. -/
theorem fifteen_digits_lost :
    fifteenDigits ≠ fourteenZeros ∧
      writeToken .ascii fifteenDigits = writeToken .ascii fourteenZeros ∧
      readToken (writeToken .ascii fifteenDigits) = some fourteenZeros := by
  have hNe : fifteenDigits ≠ fourteenZeros := by
    intro hEq
    exact absurd (congrArg FiniteDouble.value hEq) (by decide +kernel)
  have hToken : writeToken .ascii fifteenDigits = fourteenZeros.value := by decide +kernel
  refine ⟨hNe, by decide +kernel, ?_⟩
  rw [hToken, readToken_eq_some_iff]
  exact binary64.roundsTo_self fourteenZeros.member

end CoSimIO.Serializer
