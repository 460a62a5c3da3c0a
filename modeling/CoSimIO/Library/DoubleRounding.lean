import Mathlib.Algebra.Order.Round
import Mathlib.Data.Int.Log
import Mathlib.Data.Rat.Floor
import Mathlib.Tactic.Linarith
import Mathlib.Tactic.Positivity
import Mathlib.Tactic.FieldSimp
import Mathlib.Tactic.Ring

/-! # Rounding to a significand of 53 bits

A result of an arithmetic operation on doubles is the exact result rounded to the
nearest multiple of its unit in the last place, to the even one of two nearest.
Rationals stand for doubles, and exponents are not bounded. The ceiling of a rounded
quotient of two integers is exact as long as the dividend has at most 53 bits.
-/

namespace DoubleRounding

set_option autoImplicit false

def roundEven (x : ℚ) : ℤ := if Int.fract x = 1 / 2 then ⌊x⌋ + ⌊x⌋ % 2 else round x

def ulp (x : ℚ) : ℚ := 2 ^ (Int.log 2 |x| - 52)

def rounded (x : ℚ) : ℚ := roundEven (x / ulp x) * ulp x

theorem abs_sub_roundEven (x : ℚ) : |x - roundEven x| ≤ 1 / 2 := by
  unfold roundEven
  split
  · rename_i hTie
    have hFloor : x = ⌊x⌋ + 1 / 2 := by
      rw [← hTie]
      exact (Int.floor_add_fract x).symm
    rcases Int.emod_two_eq_zero_or_one ⌊x⌋ with hEven | hOdd
    · rw [hEven, abs_le]
      push_cast
      constructor <;> linarith
    · rw [hOdd, abs_le]
      push_cast
      constructor <;> linarith
  · exact abs_sub_round x

theorem roundEven_le {x : ℚ} {n : ℤ} (h : x ≤ n) : roundEven x ≤ n := by
  have hError := (abs_le.mp (abs_sub_roundEven x)).1
  have hLess : (roundEven x : ℚ) < ((n + 1 : ℤ) : ℚ) := by
    push_cast
    linarith
  exact Int.lt_add_one_iff.mp (by exact_mod_cast hLess)

theorem roundEven_intCast (n : ℤ) : roundEven n = n := by
  simp [roundEven]

theorem ulp_pos (x : ℚ) : 0 < ulp x := zpow_pos (by norm_num) _

theorem abs_sub_rounded (x : ℚ) : |x - rounded x| ≤ ulp x / 2 := by
  have hPos := ulp_pos x
  have hError := abs_sub_roundEven (x / ulp x)
  have hScale : x - rounded x = (x / ulp x - roundEven (x / ulp x)) * ulp x := by
    rw [rounded, sub_mul, div_mul_cancel₀ _ hPos.ne']
  rw [hScale, abs_mul, abs_of_pos hPos]
  linarith [mul_le_mul_of_nonneg_right hError hPos.le]

theorem ulp_mul_le {x : ℚ} (hx : 0 < x) : ulp x * 2 ^ 52 ≤ x := by
  have hLog : (2 : ℚ) ^ Int.log 2 x ≤ x := by exact_mod_cast Int.zpow_log_le_self (by norm_num) hx
  have hUlp : ulp x * 2 ^ 52 = 2 ^ Int.log 2 x := by
    rw [ulp, abs_of_pos hx, ← zpow_natCast, ← zpow_add₀ (by norm_num)]
    congr 1
    omega
  linarith

/-- The numbers up to 53 bits are multiples of the last place of every smaller number. -/
theorem exists_natCast_eq_mul_ulp {x : ℚ} (hx : 0 < x) {n : ℕ} (hxn : x ≤ n) (hn : n < 2 ^ 53) :
    ∃ k : ℤ, (n : ℚ) = k * ulp x := by
  have hLog : Int.log 2 x < 53 := by
    apply (Int.lt_zpow_iff_log_lt (by norm_num) hx).mp
    calc x ≤ n := hxn
      _ < (2 ^ 53 : ℕ) := by exact_mod_cast hn
      _ = _ := by norm_num
  obtain ⟨k, hk⟩ := Int.eq_ofNat_of_zero_le (a := 52 - Int.log 2 x) (by omega)
  refine ⟨n * 2 ^ k, ?_⟩
  have hUlp : ulp x = 2 ^ (-(k : ℤ)) := by
    rw [ulp, abs_of_pos hx]
    congr 1
    omega
  rw [hUlp, zpow_neg, zpow_natCast]
  push_cast
  field_simp

theorem rounded_le_natCast {x : ℚ} (hx : 0 < x) {n : ℕ} (hxn : x ≤ n) (hn : n < 2 ^ 53) :
    rounded x ≤ n := by
  obtain ⟨k, hk⟩ := exists_natCast_eq_mul_ulp hx hxn hn
  have hPos := ulp_pos x
  have hQuotient : x / ulp x ≤ k := by
    rw [div_le_iff₀ hPos, ← hk]
    exact hxn
  rw [rounded, hk]
  exact mul_le_mul_of_nonneg_right (by exact_mod_cast roundEven_le hQuotient) hPos.le

theorem rounded_natCast {n : ℕ} (hn : n < 2 ^ 53) : rounded n = n := by
  rcases Nat.eq_zero_or_pos n with rfl | hPos
  · simp [rounded, roundEven]
  · have hCast : (0 : ℚ) < n := by exact_mod_cast hPos
    obtain ⟨k, hk⟩ := exists_natCast_eq_mul_ulp hCast le_rfl hn
    have hQuotient : (n : ℚ) / ulp n = k := by
      rw [div_eq_iff (ulp_pos _).ne']
      exact hk
    rw [rounded, hQuotient, roundEven_intCast, ← hk]

theorem ceil_rounded_div {a b : ℕ} (hb : 0 < b) (ha : a < 2 ^ 53) :
    ⌈rounded ((a : ℚ) / b)⌉₊ = ⌈(a : ℚ) / b⌉₊ := by
  rcases Nat.eq_zero_or_pos a with rfl | haPos
  · simp [rounded, roundEven]
  have hbCast : (0 : ℚ) < b := by exact_mod_cast hb
  have hbOne : (1 : ℚ) ≤ b := by exact_mod_cast hb
  have hq : (0 : ℚ) < a / b := div_pos (by exact_mod_cast haPos) hbCast
  apply le_antisymm
  · rw [Nat.ceil_le]
    apply rounded_le_natCast hq (Nat.le_ceil _)
    apply lt_of_le_of_lt _ ha
    rw [Nat.ceil_le, div_le_iff₀ hbCast]
    nlinarith [(Nat.cast_nonneg a : (0 : ℚ) ≤ a)]
  · by_contra hLess
    -- a ceiling that is too small leaves a gap of at least `1 / b`, more than half of the last place
    have hBelow : ((⌈rounded ((a : ℚ) / b)⌉₊ : ℕ) : ℚ) < a / b := Nat.lt_ceil.mp (not_le.mp hLess)
    have hRounded := Nat.le_ceil (rounded ((a : ℚ) / b))
    generalize ⌈rounded ((a : ℚ) / b)⌉₊ = m at hBelow hRounded
    have hGap : ((m * b + 1 : ℕ) : ℚ) ≤ a := by
      rw [lt_div_iff₀ hbCast] at hBelow
      exact_mod_cast Nat.succ_le_of_lt (by exact_mod_cast hBelow)
    have hError := (abs_le.mp (abs_sub_rounded ((a : ℚ) / b))).2
    have hUlp := ulp_mul_le hq
    rw [le_div_iff₀ hbCast] at hUlp
    have hDistance : ((a : ℚ) / b - m) * b ≤ ulp ((a : ℚ) / b) / 2 * b :=
      mul_le_mul_of_nonneg_right (by linarith) hbCast.le
    rw [sub_mul, div_mul_cancel₀ _ hbCast.ne'] at hDistance
    push_cast at hGap
    have hLarge : (2 : ℚ) ^ 53 ≤ a := by linarith
    exact absurd ha (not_lt.mpr (by exact_mod_cast hLarge))

end DoubleRounding
