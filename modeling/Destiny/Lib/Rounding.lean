/-
  Destiny.Lib.Rounding

  Rounding to the nearest, from the middle to the even one.

  `roundHalfEven` rounds to integers, and is the integer at a distance of less
  than a half, or of a half if it is even (`roundHalfEven_eq_iff`).  `roundTo`
  rounds to the multiples of a unit.  `leadingDigits` are the significant digits
  of a positive number, which stand for the number rounded to the place of the
  last of them (`leadingDigits_spec`).
-/

import Destiny.Lib.Literals
import Mathlib.Algebra.Order.Floor.Semiring
import Mathlib.Data.Int.Log
import Mathlib.Data.Rat.Floor
import Mathlib.Tactic.FieldSimp
import Mathlib.Tactic.Linarith
import Mathlib.Tactic.Positivity
import Mathlib.Tactic.Ring

namespace Destiny.Lib

/-! ## Integers -/

/-- To the nearest integer, from the middle to the even one. -/
def roundHalfEven (x : ℚ) : ℤ :=
  if Int.fract x < 1 / 2 then ⌊x⌋
  else if 1 / 2 < Int.fract x then ⌊x⌋ + 1
  else if ⌊x⌋ % 2 = 0 then ⌊x⌋ else ⌊x⌋ + 1

theorem abs_roundHalfEven_sub_le (x : ℚ) : |(roundHalfEven x : ℚ) - x| ≤ 1 / 2 := by
  have hx : (⌊x⌋ : ℚ) = x - Int.fract x := (Int.self_sub_fract x).symm
  have hnonneg := Int.fract_nonneg x
  have hlt := Int.fract_lt_one x
  unfold roundHalfEven
  rw [abs_le]
  split_ifs with hlow hhigh heven
  · constructor <;> linarith
  · push_cast
    constructor <;> linarith
  · constructor <;> linarith
  · push_cast
    constructor <;> linarith

/-- Half-way between two integers it is the even one. -/
theorem roundHalfEven_even {x : ℚ} (h : |(roundHalfEven x : ℚ) - x| = 1 / 2) :
    roundHalfEven x % 2 = 0 := by
  have hx : (⌊x⌋ : ℚ) = x - Int.fract x := (Int.self_sub_fract x).symm
  have hnonneg := Int.fract_nonneg x
  have hlt := Int.fract_lt_one x
  unfold roundHalfEven at h ⊢
  split_ifs at h ⊢ with hlow hhigh heven
  · rw [hx, abs_of_nonpos (by linarith)] at h
    linarith
  · push_cast at h
    rw [hx, abs_of_nonneg (by linarith)] at h
    linarith
  · exact heven
  · omega

theorem roundHalfEven_eq_iff {x : ℚ} {n : ℤ} :
    roundHalfEven x = n ↔ |(n : ℚ) - x| < 1 / 2 ∨ (|(n : ℚ) - x| = 1 / 2 ∧ n % 2 = 0) := by
  have hle := abs_roundHalfEven_sub_le x
  constructor
  · rintro rfl
    rcases hle.lt_or_eq with hlt | heq
    · exact .inl hlt
    · exact .inr ⟨heq, roundHalfEven_even heq⟩
  · intro h
    obtain ⟨hdown, hup⟩ := abs_le.mp hle
    have hle' : |(n : ℚ) - x| ≤ 1 / 2 := h.elim le_of_lt fun h => h.1.le
    obtain ⟨hdown', hup'⟩ := abs_le.mp hle'
    -- the two are next to each other at most, and then both half-way and even
    by_contra hne
    have hgap : (1 : ℚ) ≤ |(roundHalfEven x : ℚ) - n| := by
      have hint : (1 : ℤ) ≤ |roundHalfEven x - n| := Int.one_le_abs (sub_ne_zero.mpr hne)
      exact_mod_cast hint
    have hhalf : |(roundHalfEven x : ℚ) - x| = 1 / 2 ∧ |(n : ℚ) - x| = 1 / 2 := by
      rcases le_abs.mp hgap with hpos | hneg
      · rw [abs_of_nonneg (by linarith), abs_of_nonpos (by linarith)]
        constructor <;> linarith
      · rw [abs_of_nonpos (by linarith), abs_of_nonneg (by linarith)]
        constructor <;> linarith
    have heven := roundHalfEven_even hhalf.1
    have heven' : n % 2 = 0 := by
      rcases h with hlt | ⟨-, heven⟩
      · exact absurd hhalf.2 hlt.ne
      · exact heven
    have hone : |roundHalfEven x - n| ≤ 1 := by
      have hcast : |(roundHalfEven x : ℚ) - n| ≤ 1 := by
        rw [abs_le]
        constructor <;> linarith
      exact_mod_cast hcast
    have := abs_le.mp hone
    omega

@[simp] theorem roundHalfEven_intCast (n : ℤ) : roundHalfEven n = n :=
  roundHalfEven_eq_iff.mpr (.inl (by simp))

theorem roundHalfEven_neg (x : ℚ) : roundHalfEven (-x) = -roundHalfEven x := by
  have h := (roundHalfEven_eq_iff (x := x)).mp rfl
  refine roundHalfEven_eq_iff.mpr ?_
  have habs : |((-roundHalfEven x : ℤ) : ℚ) - -x| = |(roundHalfEven x : ℚ) - x| := by
    push_cast
    rw [← abs_neg]
    congr 1
    ring
  rw [habs]
  exact h.imp_right fun ⟨hhalf, heven⟩ => ⟨hhalf, by omega⟩

theorem le_roundHalfEven {x : ℚ} {n : ℤ} (h : (n : ℚ) ≤ x) : n ≤ roundHalfEven x := by
  have hfloor : n ≤ ⌊x⌋ := Int.le_floor.mpr h
  unfold roundHalfEven
  split_ifs <;> omega

theorem roundHalfEven_le {x : ℚ} {n : ℤ} (h : x ≤ n) : roundHalfEven x ≤ n := by
  have hneg := le_roundHalfEven (x := -x) (n := -n) (by push_cast; linarith)
  rw [roundHalfEven_neg] at hneg
  omega

/-- When rounding does not go down. -/
theorem self_le_roundHalfEven_iff (x : ℚ) :
    x ≤ roundHalfEven x ↔ Int.fract x = 0 ∨ 1 / 2 < Int.fract x ∨
      (Int.fract x = 1 / 2 ∧ ⌊x⌋ % 2 = 1) := by
  have hx : (⌊x⌋ : ℚ) = x - Int.fract x := (Int.self_sub_fract x).symm
  have hnonneg := Int.fract_nonneg x
  have hlt := Int.fract_lt_one x
  unfold roundHalfEven
  split_ifs with hlow hhigh heven
  · constructor
    · intro h
      exact .inl (by linarith)
    · rintro (h | h | ⟨h, -⟩) <;> linarith
  · push_cast
    exact iff_of_true (by linarith) (.inr (.inl hhigh))
  · refine iff_of_false (by linarith) ?_
    rintro (h | h | ⟨-, h⟩)
    · linarith
    · linarith
    · omega
  · push_cast
    exact iff_of_true (by linarith) (.inr (.inr ⟨by linarith, by omega⟩))

/-! ## Multiples of a unit -/

def roundTo (unit x : ℚ) : ℚ := roundHalfEven (x / unit) * unit

theorem abs_roundTo_sub_le {unit : ℚ} (hunit : 0 < unit) (x : ℚ) :
    |roundTo unit x - x| ≤ unit / 2 := by
  calc |roundTo unit x - x|
      = |(roundHalfEven (x / unit) : ℚ) - x / unit| * unit := by
        rw [← abs_of_pos hunit, ← abs_mul, sub_mul, abs_of_pos hunit,
          div_mul_cancel₀ _ hunit.ne', roundTo]
    _ ≤ 1 / 2 * unit := mul_le_mul_of_nonneg_right (abs_roundHalfEven_sub_le _) hunit.le
    _ = unit / 2 := by ring

/-- No multiple of the unit is nearer. -/
theorem abs_roundTo_sub_le_abs {unit : ℚ} (hunit : 0 < unit) (x : ℚ) (n : ℤ) :
    |roundTo unit x - x| ≤ |n * unit - x| := by
  by_cases hnear : |(n : ℚ) - x / unit| < 1 / 2
  · have hn : roundHalfEven (x / unit) = n := roundHalfEven_eq_iff.mpr (.inl hnear)
    rw [roundTo, hn]
  · refine (abs_roundTo_sub_le hunit x).trans ?_
    calc unit / 2 = 1 / 2 * unit := by ring
      _ ≤ |(n : ℚ) - x / unit| * unit := mul_le_mul_of_nonneg_right (not_lt.mp hnear) hunit.le
      _ = |n * unit - x| := by
        rw [← abs_of_pos hunit, ← abs_mul, sub_mul, abs_of_pos hunit, div_mul_cancel₀ _ hunit.ne']

theorem roundTo_neg (unit x : ℚ) : roundTo unit (-x) = -roundTo unit x := by
  rw [roundTo, neg_div, roundHalfEven_neg, roundTo]
  push_cast
  ring

/-- Rounding goes with a change of the unit. -/
theorem roundTo_mul {c : ℚ} (hc : c ≠ 0) (unit x : ℚ) :
    roundTo (unit * c) (x * c) = roundTo unit x * c := by
  rw [roundTo, roundTo, mul_div_mul_right x unit hc, mul_assoc]

/-- No multiple of the unit is passed. -/
theorem le_roundTo {unit x : ℚ} (hunit : 0 < unit) {n : ℤ} (h : n * unit ≤ x) :
    n * unit ≤ roundTo unit x := by
  have hn : n ≤ roundHalfEven (x / unit) := le_roundHalfEven ((le_div_iff₀ hunit).mpr h)
  exact mul_le_mul_of_nonneg_right (by exact_mod_cast hn) hunit.le

theorem roundTo_le {unit x : ℚ} (hunit : 0 < unit) {n : ℤ} (h : x ≤ n * unit) :
    roundTo unit x ≤ n * unit := by
  have hn : roundHalfEven (x / unit) ≤ n := roundHalfEven_le ((div_le_iff₀ hunit).mpr h)
  exact mul_le_mul_of_nonneg_right (by exact_mod_cast hn) hunit.le

/-! ## Significant digits -/

/-- The place of the digit that is `d` places behind the first one. -/
def digitPlace (d : ℕ) (x : ℚ) : ℚ := 10 ^ (Int.log 10 x - d)

theorem digitPlace_pos (d : ℕ) (x : ℚ) : 0 < digitPlace d x := zpow_pos (by norm_num) _

/-- A positive number counted in units of the place of a digit. -/
theorem digitPlace_bounds (d : ℕ) {x : ℚ} (hx : 0 < x) :
    10 ^ d ≤ x / digitPlace d x ∧ x / digitPlace d x < 10 ^ (d + 1) := by
  have hlow : (10 : ℚ) ^ Int.log 10 x ≤ x := by
    exact_mod_cast Int.zpow_log_le_self (b := 10) (by decide) hx
  have hhigh : x < (10 : ℚ) ^ (Int.log 10 x + 1) := by
    exact_mod_cast Int.lt_zpow_succ_log_self (b := 10) (by decide) x
  have hscale (k : ℕ) : (10 : ℚ) ^ k * digitPlace d x = 10 ^ (Int.log 10 x - d + k) := by
    rw [digitPlace, zpow_add₀ (by norm_num), zpow_natCast, mul_comm]
  constructor
  · rw [le_div_iff₀ (digitPlace_pos d x), hscale, sub_add_cancel]
    exact hlow
  · have hexp : Int.log 10 x - d + ((d + 1 : ℕ) : ℤ) = Int.log 10 x + 1 := by
      push_cast
      ring
    rw [div_lt_iff₀ (digitPlace_pos d x), hscale, hexp]
    exact hhigh

/-- Rounded to `d` digits behind the first, a number changes by half a unit of the
    last at most. -/
theorem abs_roundTo_digitPlace_sub_le (d : ℕ) {x : ℚ} (hx : 0 < x) :
    |roundTo (digitPlace d x) x - x| ≤ x / (2 * 10 ^ d) := by
  have hlow := (le_div_iff₀ (digitPlace_pos d x)).mp (digitPlace_bounds d hx).1
  refine (abs_roundTo_sub_le (digitPlace_pos d x) x).trans ?_
  rw [div_le_div_iff₀ (by norm_num) (by positivity)]
  linarith

/-- The first digit of a positive number and `d` more, and its decimal exponent. -/
def leadingDigits (d : ℕ) (x : ℚ) : ℕ × ℤ :=
  let e := Int.log 10 x
  let m := (roundHalfEven (x / digitPlace d x)).toNat
  if m = 10 ^ (d + 1) then (10 ^ d, e + 1) else (m, e)

theorem leadingDigits_spec (d : ℕ) {x : ℚ} (hx : 0 < x) :
    10 ^ d ≤ (leadingDigits d x).1 ∧ (leadingDigits d x).1 < 10 ^ (d + 1) ∧
      ((leadingDigits d x).1 : ℚ) * 10 ^ ((leadingDigits d x).2 - d) =
        roundTo (digitPlace d x) x := by
  obtain ⟨hlow, hhigh⟩ := digitPlace_bounds d hx
  have hge : ((10 ^ d : ℕ) : ℤ) ≤ roundHalfEven (x / digitPlace d x) :=
    le_roundHalfEven (by exact_mod_cast hlow)
  have hle : roundHalfEven (x / digitPlace d x) ≤ ((10 ^ (d + 1) : ℕ) : ℤ) :=
    roundHalfEven_le (by exact_mod_cast hhigh.le)
  obtain ⟨m, hm⟩ := Int.eq_ofNat_of_zero_le ((Int.natCast_nonneg _).trans hge)
  rw [hm] at hge hle
  unfold leadingDigits roundTo
  rw [hm]
  dsimp only [Int.toNat_natCast]
  split_ifs with hcarry
  · -- rounded up to the next power of ten
    refine ⟨le_rfl, Nat.pow_lt_pow_succ (by decide), ?_⟩
    rw [hcarry, digitPlace, show Int.log 10 x + 1 - d = Int.log 10 x - d + 1 by ring,
      zpow_add₀ (by norm_num), zpow_one]
    push_cast
    ring
  · exact ⟨by exact_mod_cast hge, lt_of_le_of_ne (by exact_mod_cast hle) hcarry, rfl⟩

end Destiny.Lib
