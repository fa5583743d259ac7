/-
  Destiny.Lib.ExactMath

  Tensor arithmetic without rounding errors.

  `ExactMath K` is what a program that works in logarithms uses of an ordered
  field `K`: powers and logarithms to the bases two and ten, the constant that
  converts between the bases, and rounding, each only as far as it is exact on
  powers of two.  `LogMath` is exact everywhere, and `OrderedMath` keeps the order
  besides.  `exactReal`, `logReal` and `orderedReal` are the arithmetic of the real
  numbers.
-/

import Destiny.Lib.Literals
import Mathlib.Algebra.Order.Round
import Mathlib.Analysis.Complex.ExponentialBounds
import Mathlib.Analysis.SpecialFunctions.Log.Base
import Mathlib.Data.Int.Log
import Mathlib.Tactic.FieldSimp

namespace Destiny.Lib

/-- Powers, logarithms and rounding that are exact on powers of two. -/
structure ExactMath (K : Type) [Field K] where
  exp2 : K → K
  log2 : K → K
  log10 : K → K
  /-- the logarithm of ten to the base two -/
  LOG2_10 : K
  round : K → K
  exp2_natCast (n : ℕ) : exp2 n = 2 ^ n
  log2_two_pow (n : ℕ) : log2 (2 ^ n) = n
  log10_two_pow (n : ℕ) : log10 (2 ^ n) * LOG2_10 = n
  round_intCast (n : ℤ) : round n = n

/-- The real numbers. -/
noncomputable def exactReal : ExactMath ℝ where
  exp2 x := 2 ^ x
  log2 := Real.logb 2
  log10 := Real.logb 10
  LOG2_10 := Real.logb 2 10
  round x := (round x : ℤ)
  exp2_natCast n := Real.rpow_natCast 2 n
  log2_two_pow n := by rw [Real.logb_pow, Real.logb_self_eq_one one_lt_two, mul_one]
  log10_two_pow n := by
    have htwo : Real.log 2 ≠ 0 := (Real.log_pos one_lt_two).ne'
    have hten : Real.log 10 ≠ 0 := (Real.log_pos (by norm_num)).ne'
    rw [Real.logb_pow, Real.logb, Real.logb]
    field_simp
  round_intCast n := by rw [round_intCast]

/-! ## Exact everywhere -/

/-- Powers, logarithms and roots that are exact on all positive numbers. -/
structure LogMath (K : Type) [Field K] [LinearOrder K] extends ExactMath K where
  exp10 : K → K
  sqrt : K → K
  exp2_log2 {x : K} (h : 0 < x) : exp2 (log2 x) = x
  log2_exp2 (x : K) : log2 (exp2 x) = x
  exp10_log10 {x : K} (h : 0 < x) : exp10 (log10 x) = x
  log10_exp10 (x : K) : log10 (exp10 x) = x
  exp10_intCast (n : ℤ) : exp10 n = 10 ^ n
  one_le_exp2 {x : K} (h : 0 ≤ x) : 1 ≤ exp2 x
  one_le_exp10 {x : K} (h : 0 ≤ x) : 1 ≤ exp10 x
  log2_nonneg {x : K} (h : 1 ≤ x) : 0 ≤ log2 x
  log10_nonneg {x : K} (h : 1 ≤ x) : 0 ≤ log10 x
  log2_lt_self {x : K} (h : 0 < x) : log2 x < x
  log10_lt_self {x : K} (h : 0 < x) : log10 x < x
  sqrt_eq_zero_iff {x : K} : sqrt x = 0 ↔ x ≤ 0

theorem logb_lt_self {b x : ℝ} (hb : 2 ≤ b) (hx : 0 < x) : Real.logb b x < x := by
  have hlogb : 0 < Real.log b := Real.log_pos (by linarith)
  have hlog2 : 1 / 2 < Real.log 2 := by
    have h := Real.log_two_gt_d9
    linarith
  have hmono : Real.log 2 ≤ Real.log b := Real.log_le_log two_pos hb
  rw [Real.logb, div_lt_iff₀ hlogb]
  -- `log x = 2 log (√x)` is less than half of `x`
  have hroot := Real.log_le_sub_one_of_pos (Real.sqrt_pos.mpr hx)
  have hhalf : Real.log (Real.sqrt x) = Real.log x / 2 := Real.log_sqrt hx.le
  have hsq : Real.sqrt x * Real.sqrt x = x := Real.mul_self_sqrt hx.le
  nlinarith [sq_nonneg (Real.sqrt x - 2)]

/-- The real numbers. -/
noncomputable def logReal : LogMath ℝ where
  toExactMath := exactReal
  exp10 x := 10 ^ x
  sqrt := Real.sqrt
  exp2_log2 h := Real.rpow_logb two_pos (by norm_num) h
  log2_exp2 x := Real.logb_rpow two_pos (by norm_num)
  exp10_log10 h := Real.rpow_logb (by norm_num) (by norm_num) h
  log10_exp10 x := Real.logb_rpow (by norm_num) (by norm_num)
  exp10_intCast n := Real.rpow_intCast 10 n
  one_le_exp2 h := Real.one_le_rpow (by norm_num) h
  one_le_exp10 h := Real.one_le_rpow (by norm_num) h
  log2_nonneg h := Real.logb_nonneg (by norm_num) h
  log10_nonneg h := Real.logb_nonneg (by norm_num) h
  log2_lt_self h := logb_lt_self le_rfl h
  log10_lt_self h := logb_lt_self (by norm_num) h
  sqrt_eq_zero_iff := Real.sqrt_eq_zero'

/-! ## In order -/

/-- Powers and logarithms that keep the order, and a rounding to the nearest
    integer, whichever it takes from the middle. -/
structure OrderedMath (K : Type) [Field K] [LinearOrder K] extends LogMath K where
  roundInt : K → ℤ
  round_eq_roundInt (x : K) : round x = roundInt x
  abs_roundInt_sub_le (x : K) : |(roundInt x : K) - x| ≤ 1 / 2
  roundInt_mono {x y : K} (h : x ≤ y) : roundInt x ≤ roundInt y
  exp10_mono {x y : K} (h : x ≤ y) : exp10 x ≤ exp10 y
  log10_lt_log10 {x y : K} (hx : 0 < x) (h : x < y) : log10 x < log10 y

namespace OrderedMath
variable {K : Type} [Field K] [LinearOrder K]

/-- Rounded to `n` digits after the point. -/
def roundDigits (M : OrderedMath K) (n : ℕ) (x : K) : K := (M.roundInt (x * 10 ^ n) : K) / 10 ^ n

variable (M : OrderedMath K)

theorem log10_le_log10 {x y : K} (hx : 0 < x) (h : x ≤ y) : M.log10 x ≤ M.log10 y := by
  rcases h.lt_or_eq with hlt | rfl
  · exact (M.log10_lt_log10 hx hlt).le
  · exact le_rfl

variable [IsStrictOrderedRing K]

theorem roundInt_intCast (n : ℤ) : M.roundInt n = n := by
  obtain ⟨hdown, hup⟩ := abs_le.mp (M.abs_roundInt_sub_le (n : K))
  have hlt : ((M.roundInt n - n : ℤ) : K) < 1 := by
    push_cast
    linarith
  have hgt : (-1 : K) < ((M.roundInt n - n : ℤ) : K) := by
    push_cast
    linarith
  have hlt' : M.roundInt n - n < 1 := by exact_mod_cast hlt
  have hgt' : -1 < M.roundInt n - n := by exact_mod_cast hgt
  omega

theorem roundDigits_mono (n : ℕ) {x y : K} (h : x ≤ y) : M.roundDigits n x ≤ M.roundDigits n y := by
  have hscale : x * 10 ^ n ≤ y * 10 ^ n := mul_le_mul_of_nonneg_right h (by positivity)
  have hround : (M.roundInt (x * 10 ^ n) : K) ≤ M.roundInt (y * 10 ^ n) := by
    exact_mod_cast M.roundInt_mono hscale
  exact div_le_div_of_nonneg_right hround (by positivity)

/-- A number with no more digits stays as it is. -/
theorem roundDigits_of_eq {n : ℕ} {x : K} {m : ℤ} (h : x * 10 ^ n = m) : M.roundDigits n x = x := by
  rw [roundDigits, h, roundInt_intCast, ← h, mul_div_cancel_right₀ _ (by positivity)]

end OrderedMath

/-- The real numbers. -/
noncomputable def orderedReal : OrderedMath ℝ where
  toLogMath := logReal
  roundInt := round
  round_eq_roundInt _ := rfl
  abs_roundInt_sub_le x := by
    rw [abs_sub_comm]
    exact abs_sub_round x
  roundInt_mono {x y} h := by
    rw [round_eq, round_eq]
    exact Int.floor_le_floor (by linarith)
  exp10_mono h := Real.rpow_le_rpow_of_exponent_le (by norm_num) h
  log10_lt_log10 hx h := Real.logb_lt_logb (by norm_num) hx h

end Destiny.Lib
