/-
  Destiny.Lib.Posynomial

  Posynomials: sums of monomials with coefficients that are not negative, in
  variables that are positive.

  In the logarithms of its variables a monomial is an exponential, so a
  posynomial is convex there: a point at which the exponents of every variable
  cancel (`Balanced`) is a minimum over all positive points, and a minimum of any
  neighbourhood is such a point (`isMinOn_iff_balanced`).
-/

import Mathlib.Analysis.Calculus.LocalExtr.Basic
import Mathlib.Analysis.SpecialFunctions.ExpDeriv
import Mathlib.Analysis.SpecialFunctions.Pow.Real
import Mathlib.Topology.Algebra.Module.ModuleTopology

namespace Destiny.Lib

open Filter Topology

structure Posynomial (ι κ : Type) where
  coeff : ι → ℝ
  exponent : ι → κ → ℤ
  coeff_nonneg : ∀ i, 0 ≤ coeff i

namespace Posynomial

variable {ι κ : Type} [Fintype ι] [Fintype κ] {p : Posynomial ι κ} {x y : κ → ℝ}

noncomputable def monomial (p : Posynomial ι κ) (i : ι) (x : κ → ℝ) : ℝ :=
  p.coeff i * ∏ j, x j ^ p.exponent i j

noncomputable def eval (p : Posynomial ι κ) (x : κ → ℝ) : ℝ := ∑ i, p.monomial i x

/-- The exponents of each variable cancel, each weighted by its monomial. -/
def Balanced (p : Posynomial ι κ) (x : κ → ℝ) : Prop :=
  ∀ j, ∑ i, p.monomial i x * p.exponent i j = 0

omit [Fintype ι] in
theorem monomial_nonneg (hx : ∀ j, 0 < x j) (i : ι) : 0 ≤ p.monomial i x :=
  mul_nonneg (p.coeff_nonneg i) (Finset.prod_nonneg fun j _ => zpow_nonneg (hx j).le _)

/-! ## In logarithms -/

/-- The point `x` with its logarithms moved by `u`. -/
noncomputable def shift (x u : κ → ℝ) : κ → ℝ := fun j => x j * Real.exp (u j)

omit [Fintype κ] in
theorem shift_log_sub (hx : ∀ j, 0 < x j) (hy : ∀ j, 0 < y j) :
    shift x (fun j => Real.log (y j) - Real.log (x j)) = y := by
  funext j
  rw [shift, Real.exp_sub, Real.exp_log (hy j), Real.exp_log (hx j),
    mul_div_cancel₀ _ (hx j).ne']

omit [Fintype ι] in
theorem monomial_shift (i : ι) (x u : κ → ℝ) :
    p.monomial i (shift x u) = p.monomial i x * Real.exp (∑ j, p.exponent i j * u j) := by
  have hfactor (j : κ) :
      shift x u j ^ p.exponent i j = x j ^ p.exponent i j * Real.exp (p.exponent i j * u j) := by
    rw [shift, mul_zpow, mul_comm (p.exponent i j : ℝ), Real.exp_mul,
      Real.rpow_intCast]
  simp only [monomial, hfactor, Finset.prod_mul_distrib, Real.exp_sum, mul_assoc]

/-- What the exponents add up to when the point is moved by `u`. -/
theorem sum_monomial_mul (p : Posynomial ι κ) (x u : κ → ℝ) :
    ∑ i, p.monomial i x * ∑ j, p.exponent i j * u j =
      ∑ j, u j * ∑ i, p.monomial i x * p.exponent i j := by
  simp only [Finset.mul_sum]
  rw [Finset.sum_comm]
  exact Finset.sum_congr rfl fun j _ => Finset.sum_congr rfl fun i _ => by ring

/-! ## Minima -/

/-- A balanced point is a minimum: every monomial is above its tangent. -/
theorem le_eval_of_balanced (hx : ∀ j, 0 < x j) (hbalanced : p.Balanced x)
    (hy : ∀ j, 0 < y j) : p.eval x ≤ p.eval y := by
  rw [← shift_log_sub hx hy]
  generalize (fun j => Real.log (y j) - Real.log (x j)) = u
  have hlinear : ∑ i, p.monomial i x * ∑ j, p.exponent i j * u j = 0 := by
    rw [sum_monomial_mul]
    exact Finset.sum_eq_zero fun j _ => by rw [hbalanced j, mul_zero]
  calc p.eval x
      = ∑ i, p.monomial i x * (∑ j, p.exponent i j * u j + 1) := by
        simp only [mul_add, mul_one, Finset.sum_add_distrib, hlinear, zero_add, eval]
    _ ≤ p.eval (shift x u) := by
        refine Finset.sum_le_sum fun i _ => ?_
        rw [monomial_shift]
        exact mul_le_mul_of_nonneg_left (Real.add_one_le_exp _) (monomial_nonneg hx i)

/-- The point with one variable scaled by `exp t`. -/
noncomputable def along [DecidableEq κ] (x : κ → ℝ) (j : κ) (t : ℝ) : κ → ℝ :=
  shift x (Pi.single j t)

omit [Fintype κ] in
theorem along_zero [DecidableEq κ] (x : κ → ℝ) (j : κ) : along x j 0 = x := by
  funext k
  rw [along, Pi.single_zero, shift, Pi.zero_apply, Real.exp_zero, mul_one]

theorem hasDerivAt_along [DecidableEq κ] (p : Posynomial ι κ) (x : κ → ℝ) (j : κ) :
    HasDerivAt (fun t => p.eval (along x j t)) (∑ i, p.monomial i x * p.exponent i j) 0 := by
  have heval : (fun t => p.eval (along x j t)) =
      fun t => ∑ i, p.monomial i x * Real.exp (p.exponent i j * t) := by
    funext t
    refine Finset.sum_congr rfl fun i _ => ?_
    rw [along, monomial_shift, Finset.sum_eq_single j]
    · rw [Pi.single_eq_same]
    · intro k _ hk
      rw [Pi.single_eq_of_ne hk, mul_zero]
    · intro hj
      exact absurd (Finset.mem_univ j) hj
  rw [heval]
  refine HasDerivAt.fun_sum fun i _ => ?_
  have hexp := (((hasDerivAt_id (0 : ℝ)).const_mul (p.exponent i j : ℝ)).exp).const_mul
    (p.monomial i x)
  simpa using hexp

omit [Fintype κ] in
theorem tendsto_along [DecidableEq κ] (x : κ → ℝ) (j : κ) :
    Tendsto (along x j) (𝓝 0) (𝓝 x) := by
  have hcont : Continuous (along x j) := by
    refine continuous_pi fun k => ?_
    by_cases hk : k = j
    · subst hk
      simp only [along, shift, Pi.single_eq_same]
      fun_prop
    · simp only [along, shift, Pi.single_eq_of_ne hk]
      fun_prop
  simpa only [along_zero] using hcont.tendsto 0

/-- A minimum among the points nearby is balanced: moving one variable has no
    effect to first order. -/
theorem balanced_of_isLocalMin (hmin : IsLocalMin p.eval x) : p.Balanced x := by
  classical
  intro j
  have halong : IsLocalMin (fun t => p.eval (along x j t)) 0 := by
    have hnear := (tendsto_along x j).eventually hmin
    filter_upwards [hnear] with t ht
    rwa [along_zero]
  exact halong.hasDerivAt_eq_zero (hasDerivAt_along p x j)

/-- Among positive points that include all points nearby, the least ones are the
    balanced ones. -/
theorem isMinOn_iff_balanced {s : Set (κ → ℝ)} (hs : s ∈ 𝓝 x) (hpos : ∀ y ∈ s, ∀ j, 0 < y j) :
    IsMinOn p.eval s x ↔ p.Balanced x := by
  constructor
  · intro hmin
    exact balanced_of_isLocalMin (hmin.isLocalMin hs)
  · intro hbalanced y hy
    exact le_eval_of_balanced (hpos x (mem_of_mem_nhds hs)) hbalanced (hpos y hy)

end Posynomial

end Destiny.Lib
