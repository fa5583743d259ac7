/-
  Destiny.Lib.BinaryLog

  Rounded binary logarithms of exact rationals, and powers of two.

  C code that splits a power of two into address bits writes
  `(int)(log2(x) + 0.1)`: the sum is truncated toward zero, so `log2` values
  that fall short of an integer by rounding still land on it.  `truncLog2` is
  that expression over exact arithmetic, computed without real numbers:
  `log2(x) + 1/10 = log2(2 * x^10) / 10`, whose floor is an integer quotient.
-/

import Destiny.Lib.Literals
import Mathlib.Data.Int.Log
import Mathlib.Data.Rat.Floor
import Mathlib.Tactic.Linarith
import Mathlib.Tactic.Positivity
import Mathlib.Tactic.Ring

namespace Destiny.Lib

/-! ## The rounded logarithm -/

/-- What converting `-inf` or `NaN` to a 32-bit `int` gives on x86. -/
def intMin : ℤ := -2147483648

/-- `(int)(log2(x) + 0.1)` for an exact rational `x`. -/
def truncLog2 (x : ℚ) : ℤ :=
  if 0 < x then
    let f := Int.log 2 (2 * x ^ 10) / 10
    -- the sum is no integer, so that below zero it is rounded up
    if f < 0 then f + 1 else f
  else intMin

theorem truncLog2_of_nonpos {x : ℚ} (hx : x ≤ 0) : truncLog2 x = intMin := by
  rw [truncLog2, if_neg (not_lt.mpr hx)]

/-- The rounded logarithm of an exact power of two is its exponent. -/
@[simp] theorem truncLog2_two_pow (k : ℕ) : truncLog2 (2 ^ k) = k := by
  have hpos : (0 : ℚ) < 2 ^ k := by positivity
  have harg : (2 : ℚ) * (2 ^ k) ^ 10 = ((2 : ℕ) : ℚ) ^ ((10 * k + 1 : ℕ) : ℤ) := by
    rw [zpow_natCast, ← pow_mul]
    push_cast
    ring
  have hlog : Int.log 2 ((2 : ℚ) * (2 ^ k) ^ 10) = ((10 * k + 1 : ℕ) : ℤ) := by
    rw [harg, Int.log_zpow (by norm_num)]
  simp only [truncLog2, if_pos hpos, hlog]
  rw [if_neg (by omega)]
  omega

@[simp] theorem truncLog2_natCast_two_pow (k : ℕ) : truncLog2 ((2 ^ k : ℕ) : ℚ) = k := by
  push_cast
  exact truncLog2_two_pow k

/-- Below one the rounded logarithm is never positive. -/
theorem truncLog2_nonpos {x : ℚ} (hx : x < 1) : truncLog2 x ≤ 0 := by
  by_cases hpos : 0 < x
  · have hlt : (2 : ℚ) * x ^ 10 < ((2 : ℕ) : ℚ) ^ (1 : ℤ) := by
      have hpow : x ^ 10 < 1 := pow_lt_one₀ hpos.le hx (by norm_num)
      norm_num
      linarith
    rw [Int.lt_zpow_iff_log_lt (by norm_num) (by positivity)] at hlt
    simp only [truncLog2, if_pos hpos]
    split <;> omega
  · rw [truncLog2_of_nonpos (not_lt.mp hpos), intMin]
    decide

/-! ## Powers of two -/

theorem isPowerOfTwo_two_pow (k : ℕ) : (2 ^ k).isPowerOfTwo := ⟨k, rfl⟩

theorem isPowerOfTwo_mul {m n : ℕ} (hm : m.isPowerOfTwo) (hn : n.isPowerOfTwo) :
    (m * n).isPowerOfTwo := by
  obtain ⟨i, rfl⟩ := hm
  obtain ⟨j, rfl⟩ := hn
  exact ⟨i + j, (pow_add 2 i j).symm⟩

theorem isPowerOfTwo_min {m n : ℕ} (hm : m.isPowerOfTwo) (hn : n.isPowerOfTwo) :
    (min m n).isPowerOfTwo := by
  rcases min_choice m n with h | h <;> rw [h] <;> assumption

/-- A quotient of powers of two is a power of two or zero. -/
theorem isPowerOfTwo_div {m n : ℕ} (hm : m.isPowerOfTwo) (hn : n.isPowerOfTwo)
    (hne : m / n ≠ 0) : (m / n).isPowerOfTwo ∧ n ∣ m := by
  obtain ⟨i, rfl⟩ := hm
  obtain ⟨j, rfl⟩ := hn
  have hle : j ≤ i := by
    by_contra hlt
    exact hne (Nat.div_eq_of_lt (Nat.pow_lt_pow_right (by norm_num) (by omega)))
  exact ⟨⟨i - j, Nat.pow_div hle (by norm_num)⟩, pow_dvd_pow 2 hle⟩

/-- Of two powers of two the smaller divides the larger. -/
theorem isPowerOfTwo_dvd {m n : ℕ} (hm : m.isPowerOfTwo) (hn : n.isPowerOfTwo)
    (hle : m ≤ n) : m ∣ n := by
  obtain ⟨i, rfl⟩ := hm
  obtain ⟨j, rfl⟩ := hn
  exact pow_dvd_pow 2 ((Nat.pow_le_pow_iff_right (by norm_num)).mp hle)

/-- A positive rounded logarithm of a ratio of powers of two is exact. -/
theorem two_pow_truncLog2_div {m n : ℕ} (hm : m.isPowerOfTwo) (hn : n.isPowerOfTwo)
    (hpos : 0 < truncLog2 ((m : ℚ) / n)) : 2 ^ (truncLog2 ((m : ℚ) / n)).toNat * n = m := by
  obtain ⟨i, rfl⟩ := hm
  obtain ⟨j, rfl⟩ := hn
  by_cases hle : j ≤ i
  · have hratio : ((2 ^ i : ℕ) : ℚ) / (2 ^ j : ℕ) = 2 ^ (i - j) := by
      push_cast
      rw [pow_sub₀ _ two_ne_zero hle, div_eq_mul_inv]
    rw [hratio, truncLog2_two_pow, Int.toNat_natCast, ← pow_add, Nat.sub_add_cancel hle]
  · have hlt : ((2 ^ i : ℕ) : ℚ) / (2 ^ j : ℕ) < 1 := by
      rw [div_lt_one (by positivity)]
      exact_mod_cast Nat.pow_lt_pow_right (by norm_num) (not_le.mp hle)
    exact absurd (truncLog2_nonpos hlt) (not_le.mpr hpos)

/-- The address bits of a power-of-two grid of which a power-of-two part is
    selected at once. -/
theorem truncLog2_grid {m n i j : ℕ} (hm : m.isPowerOfTwo) (hn : n.isPowerOfTwo)
    (hi : i.isPowerOfTwo) (hj : j.isPowerOfTwo) (him : i ≤ m) (hjn : j ≤ n) :
    ∃ k : ℕ, truncLog2 ((m * n / i / j : ℕ) : ℚ) = k ∧ 2 ^ k * (i * j) = m * n := by
  have hprod := isPowerOfTwo_mul hm hn
  have hsel := isPowerOfTwo_mul hi hj
  have hdvd : i * j ∣ m * n := mul_dvd_mul (isPowerOfTwo_dvd hi hm him) (isPowerOfTwo_dvd hj hn hjn)
  have hpos : 0 < m * n := Nat.pos_of_isPowerOfTwo hprod
  have hne : m * n / (i * j) ≠ 0 :=
    Nat.div_ne_zero_iff.mpr ⟨(Nat.pos_of_isPowerOfTwo hsel).ne', Nat.le_of_dvd hpos hdvd⟩
  obtain ⟨⟨k, hk⟩, -⟩ := isPowerOfTwo_div hprod hsel hne
  refine ⟨k, ?_, ?_⟩
  · rw [Nat.div_div_eq_div_mul, hk, truncLog2_natCast_two_pow]
  · rw [← hk, Nat.div_mul_cancel hdvd]

end Destiny.Lib
