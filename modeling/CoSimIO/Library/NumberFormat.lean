import CoSimIO.Library.DoubleRounding

/-! # Rounding to the numbers of a format

A number of a format is a significand of so many digits times a power of the radix, maybe
not below a least exponent. Decimal numbers with so many significant digits and doubles are
both of this kind. Exponents have no upper bound.
-/

namespace NumberFormat

open DoubleRounding

set_option autoImplicit false

structure Format where
  radix : ℕ
  precision : ℕ
  least : Option ℤ
  radix_gt : 1 < radix
  precision_pos : 0 < precision

namespace Format

variable (f : Format)

def allows (e : ℤ) : Prop := ∀ l ∈ f.least, l ≤ e

def Member (y : ℚ) : Prop :=
  ∃ (n e : ℤ), |n| < (f.radix : ℤ) ^ f.precision ∧ f.allows e ∧ y = n * (f.radix : ℚ) ^ e

/-- The exponent for a number of the given magnitude. -/
def exponent (magnitude : ℤ) : ℤ :=
  match f.least with
  | none => magnitude - (f.precision - 1)
  | some l => max l (magnitude - (f.precision - 1))

def unit (x : ℚ) : ℚ := (f.radix : ℚ) ^ f.exponent (Int.log f.radix |x|)

def nearest (x : ℚ) : ℚ := roundEven (x / f.unit x) * f.unit x

theorem radix_pos : (0 : ℚ) < f.radix := by exact_mod_cast Nat.lt_of_succ_lt f.radix_gt

theorem radix_one_lt : (1 : ℚ) < f.radix := by exact_mod_cast f.radix_gt

theorem unit_pos (x : ℚ) : 0 < f.unit x := zpow_pos f.radix_pos _

theorem allows_exponent (magnitude : ℤ) : f.allows (f.exponent magnitude) := by
  rintro l hl
  rw [exponent, hl]
  exact le_max_left _ _

theorem le_exponent (magnitude : ℤ) : magnitude - (f.precision - 1) ≤ f.exponent magnitude := by
  rw [exponent]
  split
  · exact le_refl _
  · exact le_max_right _ _

/-- Where a smaller exponent is allowed the significand has all its digits. -/
theorem exponent_of_lt {magnitude e : ℤ} (hAllows : f.allows e) (h : e < f.exponent magnitude) :
    f.exponent magnitude = magnitude - (f.precision - 1) := by
  rw [exponent] at h ⊢
  split
  · rfl
  · next l hl =>
    rw [hl] at h
    have hLeast := hAllows l hl
    exact max_eq_right (by dsimp only at h; omega)

theorem log_le {x : ℚ} (hx : x ≠ 0) : (f.radix : ℚ) ^ Int.log f.radix |x| ≤ |x| :=
  Int.zpow_log_le_self f.radix_gt (abs_pos.mpr hx)

theorem lt_log (x : ℚ) : |x| < (f.radix : ℚ) ^ (Int.log f.radix |x| + 1) :=
  Int.lt_zpow_succ_log_self f.radix_gt |x|

theorem abs_div_unit_lt (x : ℚ) : |x / f.unit x| < (f.radix : ℚ) ^ f.precision := by
  have hUnit := f.unit_pos x
  have hExponent := f.le_exponent (Int.log f.radix |x|)
  rw [abs_div, abs_of_pos hUnit, div_lt_iff₀ hUnit, unit, ← zpow_natCast,
    ← zpow_add₀ f.radix_pos.ne']
  exact (f.lt_log x).trans_le (zpow_le_zpow_right₀ f.radix_one_lt.le (by omega))

end Format

theorem abs_roundEven_le {x : ℚ} {n : ℤ} (h : |x| ≤ n) : |roundEven x| ≤ n := by
  obtain ⟨hLow, hHigh⟩ := abs_le.mp h
  refine abs_le.mpr ⟨?_, roundEven_le hHigh⟩
  have hError := (abs_le.mp (abs_sub_roundEven x)).2
  have hLess : ((-n - 1 : ℤ) : ℚ) < roundEven x := by
    push_cast
    linarith
  have := Int.lt_iff_add_one_le.mp (by exact_mod_cast hLess)
  omega

/-- No integer is closer. -/
theorem roundEven_closest (x : ℚ) (n : ℤ) : |x - roundEven x| ≤ |x - n| := by
  rcases eq_or_ne n (roundEven x) with rfl | hNe
  · exact le_refl _
  · have hGap : (1 : ℚ) ≤ |(n : ℚ) - roundEven x| := by
      exact_mod_cast Int.one_le_abs (sub_ne_zero.mpr hNe)
    have hError := abs_sub_roundEven x
    have hTriangle := abs_sub_abs_le_abs_sub ((n : ℚ) - roundEven x) (x - roundEven x)
    have hDiff : (n : ℚ) - roundEven x - (x - roundEven x) = -(x - n) := by ring
    rw [hDiff, abs_neg] at hTriangle
    linarith

/-- Of two closest integers the even one is taken. -/
theorem roundEven_of_tie {x : ℚ} {n : ℤ} (hNe : n ≠ roundEven x)
    (hTie : |x - n| = |x - roundEven x|) : Even (roundEven x) ∧ ¬ Even n := by
  have hError := abs_sub_roundEven x
  have hMiddle : x = (n + roundEven x) / 2 := by
    rcases abs_eq_abs.mp hTie with hSame | hOther
    · have hEq : (n : ℚ) = roundEven x := by linarith
      exact absurd (by exact_mod_cast hEq) hNe
    · linarith
  have hHalf : |(n : ℚ) - roundEven x| ≤ 1 := by
    have hScale : (n : ℚ) - roundEven x = 2 * (x - roundEven x) := by linarith
    rw [hScale, abs_mul, abs_two]
    linarith
  have hGap : |n - roundEven x| ≤ 1 := by exact_mod_cast hHalf
  obtain ⟨hLow, hHigh⟩ := abs_le.mp hGap
  have hFract : Int.fract x = 1 / 2 := by
    rcases lt_or_gt_of_ne hNe with hBelow | hAbove
    · have hStep : (roundEven x : ℚ) = n + 1 := by
        exact_mod_cast (by omega : roundEven x = n + 1)
      rw [show x = n + 1 / 2 by linarith, Int.fract_intCast_add]
      exact Int.fract_eq_self.mpr (by norm_num)
    · have hStep : (n : ℚ) = roundEven x + 1 := by
        exact_mod_cast (by omega : n = roundEven x + 1)
      rw [show x = roundEven x + 1 / 2 by linarith, Int.fract_intCast_add]
      exact Int.fract_eq_self.mpr (by norm_num)
  have hEven : Even (roundEven x) := by
    rw [roundEven, if_pos hFract, Int.even_iff]
    omega
  refine ⟨hEven, ?_⟩
  rw [Int.even_iff] at hEven ⊢
  omega

namespace Format

variable (f : Format)

theorem abs_sub_mul_unit (x a : ℚ) : |x - a * f.unit x| = |x / f.unit x - a| * f.unit x := by
  have hUnit := f.unit_pos x
  rw [← abs_of_pos hUnit, ← abs_mul, sub_mul, abs_of_pos hUnit, div_mul_cancel₀ _ hUnit.ne']

/-- No multiple of the unit is closer. -/
theorem nearest_closest_multiple (x : ℚ) (n : ℤ) : |x - f.nearest x| ≤ |x - n * f.unit x| := by
  rw [nearest, abs_sub_mul_unit, abs_sub_mul_unit]
  exact mul_le_mul_of_nonneg_right (roundEven_closest _ _) (f.unit_pos x).le

theorem abs_sub_nearest (x : ℚ) : |x - f.nearest x| ≤ f.unit x / 2 := by
  rw [nearest, abs_sub_mul_unit]
  have hError := mul_le_mul_of_nonneg_right (abs_sub_roundEven (x / f.unit x)) (f.unit_pos x).le
  linarith

/-- A power of the radix is a number of the format too. -/
theorem member_of_abs_le {n e : ℤ} (hBound : |n| ≤ (f.radix : ℤ) ^ f.precision)
    (hAllows : f.allows e) : f.Member (n * (f.radix : ℚ) ^ e) := by
  rcases lt_or_eq_of_le hBound with hLt | hEq
  · exact ⟨n, e, hLt, hAllows, rfl⟩
  · have hOne : (1 : ℤ) < (f.radix : ℤ) ^ f.precision :=
      one_lt_pow₀ (by exact_mod_cast f.radix_gt) f.precision_pos.ne'
    have hLater : f.allows (e + f.precision) := by
      rintro l hl
      have := hAllows l hl
      omega
    have hPower : (f.radix : ℚ) ^ (e + f.precision) =
        ((f.radix : ℤ) ^ f.precision : ℤ) * (f.radix : ℚ) ^ e := by
      rw [add_comm, zpow_add₀ f.radix_pos.ne', zpow_natCast]
      push_cast
      rfl
    rcases abs_choice n with hSign | hSign
    · refine ⟨1, e + f.precision, by simpa using hOne, hLater, ?_⟩
      rw [hPower, ← hEq, hSign]
      push_cast
      ring
    · refine ⟨-1, e + f.precision, by simpa using hOne, hLater, ?_⟩
      rw [hPower, ← hEq, hSign]
      push_cast
      ring

theorem abs_roundEven_div_unit_le (x : ℚ) :
    |roundEven (x / f.unit x)| ≤ (f.radix : ℤ) ^ f.precision := by
  apply abs_roundEven_le
  have := (f.abs_div_unit_lt x).le
  exact_mod_cast this

theorem member_nearest (x : ℚ) : f.Member (f.nearest x) :=
  f.member_of_abs_le (f.abs_roundEven_div_unit_le x) (f.allows_exponent _)

/-- A number with a smaller exponent is below all that the unit counts. -/
theorem abs_lt_of_lt {x : ℚ} {n e : ℤ} (hSize : |n| < (f.radix : ℤ) ^ f.precision)
    (hAllows : f.allows e) (h : e < f.exponent (Int.log f.radix |x|)) :
    |n * (f.radix : ℚ) ^ e| < (f.radix : ℚ) ^ Int.log f.radix |x| := by
  have hPower : (0 : ℚ) < (f.radix : ℚ) ^ e := zpow_pos f.radix_pos e
  have hExponent := f.exponent_of_lt hAllows h
  have hCast : |(n : ℚ)| < (f.radix : ℚ) ^ (f.precision : ℤ) := by
    rw [zpow_natCast]
    exact_mod_cast hSize
  calc |n * (f.radix : ℚ) ^ e|
      = |(n : ℚ)| * (f.radix : ℚ) ^ e := by rw [abs_mul, abs_of_pos hPower]
    _ < (f.radix : ℚ) ^ (f.precision : ℤ) * (f.radix : ℚ) ^ e :=
      mul_lt_mul_of_pos_right hCast hPower
    _ = (f.radix : ℚ) ^ (f.precision + e) := (zpow_add₀ f.radix_pos.ne' _ _).symm
    _ ≤ (f.radix : ℚ) ^ Int.log f.radix |x| :=
      zpow_le_zpow_right₀ f.radix_one_lt.le (by omega)

theorem exists_mul_unit {x : ℚ} {n e : ℤ} (h : f.exponent (Int.log f.radix |x|) ≤ e) :
    ∃ k : ℤ, n ∣ k ∧ n * (f.radix : ℚ) ^ e = k * f.unit x := by
  obtain ⟨i, hi⟩ := Int.eq_ofNat_of_zero_le (sub_nonneg.mpr h)
  refine ⟨n * (f.radix : ℤ) ^ i, dvd_mul_right _ _, ?_⟩
  have hSplit : e = i + f.exponent (Int.log f.radix |x|) := by omega
  rw [hSplit, zpow_add₀ f.radix_pos.ne', zpow_natCast, unit]
  push_cast
  ring

/-- The power of the radix at or below the number, with its sign. -/
theorem exists_floor {x : ℚ} (hx : x ≠ 0)
    (h : f.exponent (Int.log f.radix |x|) ≤ Int.log f.radix |x|) :
    ∃ k : ℤ, |x - k * f.unit x| = |x| - (f.radix : ℚ) ^ Int.log f.radix |x| := by
  have hLog := f.log_le hx
  have hPower : (0 : ℚ) < (f.radix : ℚ) ^ Int.log f.radix |x| := zpow_pos f.radix_pos _
  obtain ⟨k, -, hk⟩ := f.exists_mul_unit (n := 1) h
  rw [Int.cast_one, one_mul] at hk
  rcases abs_cases x with ⟨hAbs, hSign⟩ | ⟨hAbs, hSign⟩
  · refine ⟨k, ?_⟩
    rw [← hk, abs_of_nonneg (by rw [hAbs] at hLog ⊢; linarith), hAbs]
  · refine ⟨-k, ?_⟩
    rw [Int.cast_neg, neg_mul, ← hk, abs_of_nonpos (by rw [hAbs] at hLog ⊢; linarith), hAbs]
    ring

/-- What is as close as the nearest number is counted by the unit. -/
theorem exponent_le_of_closest {x : ℚ} (hx : x ≠ 0) {n e : ℤ}
    (hSize : |n| < (f.radix : ℤ) ^ f.precision) (hAllows : f.allows e)
    (h : |x - n * (f.radix : ℚ) ^ e| ≤ |x - f.nearest x|) :
    f.exponent (Int.log f.radix |x|) ≤ e := by
  by_contra hLess
  have hFine := not_le.mp hLess
  have hExponent := f.exponent_of_lt hAllows hFine
  have hPrecision := f.precision_pos
  obtain ⟨k, hk⟩ := f.exists_floor hx (by omega)
  have hSmall := f.abs_lt_of_lt hSize hAllows hFine
  have hFloor := f.nearest_closest_multiple x k
  have hTriangle := abs_sub_abs_le_abs_sub x (n * (f.radix : ℚ) ^ e)
  linarith

theorem nearest_zero : f.nearest 0 = 0 := by
  simp [nearest, roundEven]

/-- No number of the format is closer. -/
theorem nearest_closest (x : ℚ) {y : ℚ} (hy : f.Member y) : |x - f.nearest x| ≤ |x - y| := by
  rcases eq_or_ne x 0 with rfl | hx
  · rw [nearest_zero, sub_self, abs_zero]
    exact abs_nonneg _
  obtain ⟨n, e, hSize, hAllows, rfl⟩ := hy
  by_contra hCloser
  have hCoarse := f.exponent_le_of_closest hx hSize hAllows (not_le.mp hCloser).le
  obtain ⟨k, -, hk⟩ := f.exists_mul_unit (n := n) hCoarse
  rw [hk] at hCloser
  exact hCloser (f.nearest_closest_multiple x k)

theorem member_mul_unit {x : ℚ} (hx : x ≠ 0) (hMember : f.Member x) :
    ∃ k : ℤ, x = k * f.unit x := by
  obtain ⟨n, e, hSize, hAllows, rfl⟩ := hMember
  rcases le_or_gt (f.exponent (Int.log f.radix |n * (f.radix : ℚ) ^ e|)) e with hCoarse | hFine
  · obtain ⟨k, -, hk⟩ := f.exists_mul_unit (n := n) hCoarse
    exact ⟨k, hk⟩
  · have hSmall := f.abs_lt_of_lt hSize hAllows hFine
    exact absurd (f.log_le hx) (not_le.mpr hSmall)

/-- One unit further is a number of the format too. -/
theorem member_add_unit {x : ℚ} (hx : x ≠ 0) (hMember : f.Member x) {i : ℤ} (hStep : |i| ≤ 1) :
    f.Member (x + i * f.unit x) := by
  obtain ⟨k, hk⟩ := f.member_mul_unit hx hMember
  have hSize : |k| < (f.radix : ℤ) ^ f.precision := by
    have hQuotient : x / f.unit x = k := by
      rw [div_eq_iff (f.unit_pos x).ne']
      exact hk
    have hLess := f.abs_div_unit_lt x
    rw [hQuotient] at hLess
    exact_mod_cast hLess
  have hSum : x + i * f.unit x = ((k + i : ℤ) : ℚ) * f.unit x := by
    push_cast
    rw [add_mul, ← hk]
  rw [hSum]
  apply f.member_of_abs_le _ (f.allows_exponent _)
  have hTriangle := abs_add_le k i
  omega

theorem nearest_of_mul_unit {x : ℚ} {k : ℤ} (h : x = k * f.unit x) : f.nearest x = x := by
  have hQuotient : x / f.unit x = k := by
    rw [div_eq_iff (f.unit_pos x).ne']
    exact h
  rw [nearest, hQuotient, roundEven_intCast, ← h]

/-- A number whose last digit is even, written with all digits the format has for it. -/
def EvenMember (y : ℚ) : Prop :=
  ∃ (n e : ℤ), |n| < (f.radix : ℤ) ^ f.precision ∧ f.allows e ∧ y = n * (f.radix : ℚ) ^ e ∧ Even n

/-- `x` is what the given number is rounded to: the closest one, of two the one with an even last
digit. -/
def RoundsTo (number x : ℚ) : Prop :=
  f.Member x ∧ ∀ z, f.Member z → z ≠ x →
    |number - x| < |number - z| ∨ (|number - x| = |number - z| ∧ f.EvenMember x)

theorem roundsTo_self {x : ℚ} (hMember : f.Member x) : f.RoundsTo x x := by
  refine ⟨hMember, ?_⟩
  rintro z - hNe
  rw [sub_self, abs_zero]
  exact .inl (abs_pos.mpr (sub_ne_zero.mpr (Ne.symm hNe)))

theorem evenMember_of_abs_le (hRadix : f.radix = 2) (hPrecision : 1 < f.precision) {n e : ℤ}
    (hBound : |n| ≤ (f.radix : ℤ) ^ f.precision) (hAllows : f.allows e) (hEven : Even n) :
    f.EvenMember (n * (f.radix : ℚ) ^ e) := by
  rcases lt_or_eq_of_le hBound with hLt | hEq
  · exact ⟨n, e, hLt, hAllows, rfl, hEven⟩
  · have hTwo : (2 : ℤ) < (f.radix : ℤ) ^ f.precision := by
      rw [hRadix]
      exact_mod_cast lt_self_pow₀ (by norm_num : 1 < 2) hPrecision
    have hLater : f.allows (e + (f.precision - 1)) := by
      rintro l hl
      have := hAllows l hl
      omega
    have hPower : (2 : ℚ) * (f.radix : ℚ) ^ (e + (f.precision - 1)) =
        ((f.radix : ℤ) ^ f.precision : ℤ) * (f.radix : ℚ) ^ e := by
      have hSplit : ((f.precision : ℕ) : ℤ) = 1 + (f.precision - 1) := by ring
      push_cast
      rw [← zpow_natCast (f.radix : ℚ) f.precision, hSplit, zpow_add₀ f.radix_pos.ne',
        zpow_add₀ f.radix_pos.ne', zpow_one, hRadix, add_sub_cancel_left]
      push_cast
      ring
    rcases abs_choice n with hSign | hSign
    · refine ⟨2, e + (f.precision - 1), by simpa using hTwo, hLater, ?_, even_two⟩
      rw [← hSign, hEq, ← hPower]
      push_cast
      ring
    · refine ⟨-2, e + (f.precision - 1), by simpa using hTwo, hLater, ?_, even_two.neg⟩
      have hNeg : n = -((f.radix : ℤ) ^ f.precision) := by omega
      rw [hNeg, Int.cast_neg, neg_mul, ← hPower]
      push_cast
      ring

/-- Two numbers that are equally close are neighbours that the unit counts. -/
theorem tie {x : ℚ} (hx : x ≠ 0) {n e : ℤ} (hSize : |n| < (f.radix : ℤ) ^ f.precision)
    (hAllows : f.allows e) (hNe : n * (f.radix : ℚ) ^ e ≠ f.nearest x)
    (hTie : |x - f.nearest x| = |x - n * (f.radix : ℚ) ^ e|) :
    Even (roundEven (x / f.unit x)) ∧ ¬ Even n := by
  obtain ⟨k, hDvd, hk⟩ := f.exists_mul_unit (n := n)
    (f.exponent_le_of_closest hx hSize hAllows hTie.ge)
  rw [hk, nearest, abs_sub_mul_unit, abs_sub_mul_unit] at hTie
  have hQuotient := mul_right_cancel₀ (f.unit_pos x).ne' hTie
  have hOther : k ≠ roundEven (x / f.unit x) := by
    rintro rfl
    exact hNe hk
  obtain ⟨hEven, hOdd⟩ := roundEven_of_tie hOther hQuotient.symm
  exact ⟨hEven, fun h => hOdd (h.trans_dvd hDvd)⟩

theorem roundsTo_nearest (hRadix : f.radix = 2) (hPrecision : 1 < f.precision) (x : ℚ) :
    f.RoundsTo x (f.nearest x) := by
  refine ⟨f.member_nearest x, ?_⟩
  rintro z hMember hNe
  rcases lt_or_eq_of_le (f.nearest_closest x hMember) with hLess | hTie
  · exact .inl hLess
  · refine .inr ⟨hTie, ?_⟩
    have hx : x ≠ 0 := by
      rintro rfl
      rw [nearest_zero, sub_self, abs_zero, zero_sub, abs_neg] at hTie
      exact hNe ((abs_eq_zero.mp hTie.symm).trans f.nearest_zero.symm)
    obtain ⟨n, e, hSize, hAllows, rfl⟩ := hMember
    obtain ⟨hEven, -⟩ := f.tie hx hSize hAllows hNe hTie
    exact f.evenMember_of_abs_le hRadix hPrecision (f.abs_roundEven_div_unit_le x)
      (f.allows_exponent _) hEven

theorem nearest_of_roundsTo {number x : ℚ} (h : f.RoundsTo number x) : f.nearest number = x := by
  by_contra hNe
  obtain ⟨hMember, hClosest⟩ := h
  have hLe := f.nearest_closest number hMember
  rcases hClosest _ (f.member_nearest number) hNe with
    hLess | ⟨hTie, n, e, hSize, hAllows, rfl, hEven⟩
  · exact absurd hLess (not_lt.mpr hLe)
  · have hNumber : number ≠ 0 := by
      rintro rfl
      rw [nearest_zero, sub_self, abs_zero, zero_sub, abs_neg, abs_eq_zero] at hTie
      exact hNe (f.nearest_zero.trans hTie.symm)
    exact (f.tie hNumber hSize hAllows (Ne.symm hNe) hTie.symm).2 hEven

end Format

section TwoFormats

theorem abs_le_abs_sub {a b c : ℚ} (hSide : (0 ≤ a ∧ 0 ≤ b) ∨ (a ≤ 0 ∧ b ≤ 0)) (hLe : |b| ≤ |a|)
    (h : |a| ≤ |a - c|) : |b| ≤ |b - c| := by
  rcases hSide with ⟨ha, hb⟩ | ⟨ha, hb⟩
  · rw [abs_of_nonneg ha] at hLe h
    rw [abs_of_nonneg hb] at hLe ⊢
    rcases le_abs.mp h with hLow | hHigh
    · exact le_abs.mpr (.inl (by linarith))
    · exact le_abs.mpr (.inr (by linarith))
  · rw [abs_of_nonpos ha] at hLe h
    rw [abs_of_nonpos hb] at hLe ⊢
    rcases le_abs.mp h with hLow | hHigh
    · exact le_abs.mpr (.inl (by linarith))
    · exact le_abs.mpr (.inr (by linarith))

theorem abs_lt_abs_sub {a b c : ℚ} (hSide : (0 ≤ a ∧ 0 ≤ b) ∨ (a ≤ 0 ∧ b ≤ 0)) (hLe : |b| ≤ |a|)
    (h : |a| < |a - c|) : |b| < |b - c| := by
  rcases hSide with ⟨ha, hb⟩ | ⟨ha, hb⟩
  · rw [abs_of_nonneg ha] at hLe h
    rw [abs_of_nonneg hb] at hLe ⊢
    rcases lt_abs.mp h with hLow | hHigh
    · exact lt_abs.mpr (.inl (by linarith))
    · exact lt_abs.mpr (.inr (by linarith))
  · rw [abs_of_nonpos ha] at hLe h
    rw [abs_of_nonpos hb] at hLe ⊢
    rcases lt_abs.mp h with hLow | hHigh
    · exact lt_abs.mpr (.inl (by linarith))
    · exact lt_abs.mpr (.inr (by linarith))

variable {f g : Format} {number x : ℚ}

/-- A number between is rounded to the same. -/
theorem Format.RoundsTo.between (h : f.RoundsTo number x) {closer : ℚ}
    (hSide : (x ≤ number ∧ x ≤ closer) ∨ (number ≤ x ∧ closer ≤ x))
    (hLe : |closer - x| ≤ |number - x|) : f.RoundsTo closer x := by
  have hSigns : (0 ≤ number - x ∧ 0 ≤ closer - x) ∨ (number - x ≤ 0 ∧ closer - x ≤ 0) := by
    simpa only [sub_nonneg, sub_nonpos] using hSide
  have hShift (a z : ℚ) : a - z = a - x - (z - x) := by ring
  refine ⟨h.1, ?_⟩
  rintro z hMember hNe
  rw [hShift closer z]
  rcases h.2 z hMember hNe with hLess | ⟨hTie, hEven⟩
  · rw [hShift number z] at hLess
    exact .inl (abs_lt_abs_sub hSigns hLe hLess)
  · rw [hShift number z] at hTie
    rcases lt_or_eq_of_le (abs_le_abs_sub hSigns hLe hTie.le) with hLess | hEq
    · exact .inl hLess
    · exact .inr ⟨hEq, hEven⟩

theorem Format.RoundsTo.error_le (h : f.RoundsTo number x) (hx : x ≠ 0) :
    |number - x| ≤ f.unit x / 2 := by
  have hClosest (z : ℚ) (hMember : f.Member z) : |number - x| ≤ |number - z| := by
    rcases eq_or_ne z x with rfl | hNe
    · exact le_refl _
    · rcases h.2 z hMember hNe with hLess | ⟨hTie, -⟩
      · exact hLess.le
      · exact hTie.le
  have hUnit := f.unit_pos x
  rcases le_total 0 (number - x) with hAbove | hBelow
  · have hNext := hClosest _ (f.member_add_unit hx h.1 (i := 1) (by decide))
    rw [abs_of_nonneg hAbove] at hNext ⊢
    push_cast at hNext
    rcases le_abs.mp hNext with hLow | hHigh
    · linarith
    · linarith
  · have hNext := hClosest _ (f.member_add_unit hx h.1 (i := -1) (by decide))
    rw [abs_of_nonpos hBelow] at hNext ⊢
    push_cast at hNext
    rcases le_abs.mp hNext with hLow | hHigh
    · linarith
    · linarith

/-- Where the unit is more than the cell of `x`, two numbers of the format are not both in it
unless on the same side. -/
theorem Format.unit_le_abs_sub (hx : x ≠ 0) (hMember : g.Member number) {k : ℤ}
    (hOpposite : (number < x ∧ x < k * g.unit x) ∨ (k * g.unit x < x ∧ x < number)) :
    g.unit x ≤ |number - k * g.unit x| := by
  have hUnit := g.unit_pos x
  obtain ⟨n, e, hSize, hAllows, rfl⟩ := hMember
  rcases le_or_gt (g.exponent (Int.log g.radix |x|)) e with hCoarse | hFine
  · obtain ⟨j, -, hj⟩ := g.exists_mul_unit (n := n) hCoarse
    rw [hj] at hOpposite ⊢
    have hNe : j ≠ k := by
      rintro rfl
      rcases hOpposite with ⟨hLow, hHigh⟩ | ⟨hLow, hHigh⟩
      · linarith
      · linarith
    have hGap : (1 : ℚ) ≤ |(j : ℚ) - k| := by exact_mod_cast Int.one_le_abs (sub_ne_zero.mpr hNe)
    rw [← sub_mul, abs_mul, abs_of_pos hUnit]
    exact le_mul_of_one_le_left hUnit.le hGap
  · -- the number is nearer to zero than the power of the radix at or below `x`
    have hExponent := g.exponent_of_lt hAllows hFine
    have hPrecision := g.precision_pos
    have hSmall := abs_lt.mp (g.abs_lt_of_lt hSize hAllows hFine)
    have hLog := g.log_le hx
    obtain ⟨c, -, hc⟩ := g.exists_mul_unit (x := x) (n := 1) (e := Int.log g.radix |x|) (by omega)
    rw [Int.cast_one, one_mul] at hc
    rw [hc] at hSmall hLog
    rcases abs_cases x with ⟨hAbs, hSign⟩ | ⟨hAbs, hSign⟩
    · have hAbove : x < k * g.unit x := by
        rcases hOpposite with ⟨-, hHigh⟩ | ⟨-, hHigh⟩
        · exact hHigh
        · linarith
      have hLess : c < k := by
        have := lt_of_mul_lt_mul_right (show (c : ℚ) * g.unit x < k * g.unit x by linarith) hUnit.le
        exact_mod_cast this
      have hStep : ((c + 1 : ℤ) : ℚ) * g.unit x ≤ k * g.unit x :=
        mul_le_mul_of_nonneg_right (by exact_mod_cast hLess) hUnit.le
      push_cast at hStep
      exact le_abs.mpr (.inr (by linarith))
    · have hBelow : k * g.unit x < x := by
        rcases hOpposite with ⟨hHigh, -⟩ | ⟨hHigh, -⟩
        · linarith
        · exact hHigh
      have hLess : k < -c := by
        have := lt_of_mul_lt_mul_right
          (show (k : ℚ) * g.unit x < ((-c : ℤ) : ℚ) * g.unit x by push_cast; linarith) hUnit.le
        exact_mod_cast this
      have hStep : ((k + 1 : ℤ) : ℚ) * g.unit x ≤ ((-c : ℤ) : ℚ) * g.unit x :=
        mul_le_mul_of_nonneg_right (by exact_mod_cast hLess) hUnit.le
      push_cast at hStep
      exact le_abs.mpr (.inl (by linarith))

theorem Format.RoundsTo.same_side (h : f.RoundsTo number x) (hNumber : g.Member number)
    (hx : x ≠ 0) (hUnit : f.unit x < g.unit x) (hCloser : |g.nearest x - x| ≤ |number - x|) :
    ¬ ((number < x ∧ x < g.nearest x) ∨ (g.nearest x < x ∧ x < number)) := by
  intro hOpposite
  have hGap : g.unit x ≤ |number - g.nearest x| := Format.unit_le_abs_sub hx hNumber hOpposite
  have hError := h.error_le hx
  have hTriangle := abs_sub_le number x (g.nearest x)
  rw [abs_sub_comm x] at hTriangle
  linarith

/-- Where the numbers of the second format are further apart than those of the first, the closest
one is rounded back if any is. -/
theorem Format.RoundsTo.nearest_of_sparse (h : f.RoundsTo number x) (hNumber : g.Member number)
    (hx : x ≠ 0) (hUnit : f.unit x < g.unit x) : f.RoundsTo (g.nearest x) x := by
  have hCloser := g.nearest_closest x hNumber
  rw [abs_sub_comm x, abs_sub_comm x] at hCloser
  have hSame := h.same_side hNumber hx hUnit hCloser
  rcases lt_trichotomy number x with hBelow | rfl | hAbove
  · exact h.between (.inr ⟨hBelow.le, not_lt.mp fun hOther => hSame (.inl ⟨hBelow, hOther⟩)⟩)
      hCloser
  · rw [sub_self, abs_zero] at hCloser
    rw [sub_eq_zero.mp (abs_nonpos_iff.mp hCloser)]
    exact h
  · exact h.between (.inl ⟨hAbove.le, not_lt.mp fun hOther => hSame (.inr ⟨hOther, hAbove⟩)⟩)
      hCloser

/-- Where the numbers of the first format are multiples of a unit that is not less. -/
theorem Format.RoundsTo.nearest_of_dense (hx : f.Member x) (hUnit : g.unit x ≤ f.unit x)
    (hMultiple : ∀ z, f.Member z → ∃ k : ℤ, z = k * f.unit x) : f.RoundsTo (g.nearest x) x := by
  refine ⟨hx, ?_⟩
  rintro z hMember hNe
  obtain ⟨i, hi⟩ := hMultiple x hx
  obtain ⟨j, hj⟩ := hMultiple z hMember
  have hGap : f.unit x ≤ |z - x| := by
    have hDiff : z - x = (j - i) * f.unit x := by
      rw [sub_mul, ← hj, ← hi]
    have hApart : j ≠ i := by
      rintro rfl
      exact hNe (hj.trans hi.symm)
    have hOne : (1 : ℚ) ≤ |(j : ℚ) - i| := by exact_mod_cast Int.one_le_abs (sub_ne_zero.mpr hApart)
    rw [hDiff, abs_mul, abs_of_pos (f.unit_pos x)]
    exact le_mul_of_one_le_left (f.unit_pos x).le hOne
  have hTriangle := abs_sub_le z (g.nearest x) x
  rw [abs_sub_comm z (g.nearest x)] at hTriangle
  rcases lt_or_eq_of_le hUnit with hLess | hEq
  · have hError := g.abs_sub_nearest x
    rw [abs_sub_comm x] at hError
    exact .inl (by linarith)
  · rw [g.nearest_of_mul_unit (hEq ▸ hi), sub_self, abs_zero]
    exact .inl (abs_pos.mpr (sub_ne_zero.mpr (Ne.symm hNe)))

end TwoFormats

end NumberFormat
