/-
  Destiny.Pareto.Frontier

  The Pareto masks of the analysis scripts; every objective is minimised.

  * `is_pareto_efficient` (pareto_analysis.py) drops a row when a row not yet
    dropped dominates it;
  * `pareto_frontier_2d` (destiny_utils.py) compares each point with all points;
  * `pareto_frontier_nd` (destiny_utils.py) drops, for each row not yet dropped,
    the rows that are lower than it.

  The first two are exact (`efficient_exact`).  The third keeps the rows that
  dominate no row, the far side of the point cloud: `frontier_nd_exact_iff`.
-/

import Destiny.Lib.Pareto
import Mathlib.Data.Fin.VecNotation
import Mathlib.Data.Fintype.Basic
import Mathlib.Data.List.FinRange
import Mathlib.Order.Basic

namespace Destiny.Pareto

open Lib

variable {K : Type} [LinearOrder K] {n d : ℕ}

/-! ## Domination -/

/-- "<= in all dims and < in at least one dim" -/
def Dominates (a b : Fin d → K) : Prop := (∀ k, a k ≤ b k) ∧ ∃ k, a k < b k

instance (a b : Fin d → K) : Decidable (Dominates a b) :=
  inferInstanceAs (Decidable ((∀ k, a k ≤ b k) ∧ ∃ k, a k < b k))

/-- The mask marks exactly the rows that no row dominates. -/
def Exact (mask : Fin n → Bool) (costs : Fin n → Fin d → K) : Prop :=
  ∀ i, mask i = true ↔ ∀ j, ¬ Dominates (costs j) (costs i)

theorem dominates_iff_lt {a b : Fin d → K} : Dominates a b ↔ a < b := Pi.lt_def.symm

/-- The comparison the scripts write out. -/
theorem all_le_and_any_lt {a b : Fin d → K} :
    (decide (∀ k, a k ≤ b k) && decide (∃ k, a k < b k)) = true ↔ a < b := by
  rw [← dominates_iff_lt, Dominates, Bool.and_eq_true, decide_eq_true_iff, decide_eq_true_iff]

theorem exact_iff {mask : Fin n → Bool} {costs : Fin n → Fin d → K} :
    Exact mask costs ↔ ∀ i, mask i = true ↔ Nondominated costs i := by
  simp only [Exact, Nondominated, dominates_iff_lt]

/-- A data set has a single exact mask. -/
theorem Exact.unique {mask mask' : Fin n → Bool} {costs : Fin n → Fin d → K}
    (h : Exact mask costs) (h' : Exact mask' costs) : mask = mask' := by
  funext i
  rw [Bool.eq_iff_iff, h i, h' i]

/-! ## The masks -/

/-- A round of the loop of `is_pareto_efficient`. -/
def efficientStep (costs : Fin n → Fin d → K) (is_efficient : Fin n → Bool) (i : Fin n) :
    Fin n → Bool :=
  if is_efficient i = false then is_efficient
  else
    let dominated : Fin n → Bool := fun j =>
      is_efficient j && (decide (∀ k, costs j k ≤ costs i k) && decide (∃ k, costs j k < costs i k))
    -- `dominated[self_pos] = False`
    let dominated := Function.update dominated i false
    if ∃ j, dominated j = true then Function.update is_efficient i false else is_efficient

def is_pareto_efficient (costs : Fin n → Fin d → K) : Fin n → Bool :=
  (List.finRange n).foldl (efficientStep costs) fun _ => true

/-- A round of the loop of `pareto_frontier_nd`. -/
def frontierStep (costs : Fin n → Fin d → K) (is_efficient : Fin n → Bool) (i : Fin n) :
    Fin n → Bool :=
  if is_efficient i = true then
    let dominated : Fin n → Bool := fun j =>
      decide (∀ k, costs j k ≤ costs i k) && decide (∃ k, costs j k < costs i k)
    -- `is_efficient[is_efficient] = ~dominated`
    let is_efficient : Fin n → Bool := fun j => if is_efficient j then !dominated j else false
    Function.update is_efficient i true
  else is_efficient

def pareto_frontier_nd (costs : Fin n → Fin d → K) : Fin n → Bool :=
  (List.finRange n).foldl (frontierStep costs) fun _ => true

/-- A round of the loop of `pareto_frontier_2d`. -/
def frontier2dStep (x y : Fin n → K) (dominated : Fin n → Bool) (i : Fin n) : Fin n → Bool :=
  if dominated i = true then dominated
  else
    Function.update dominated i
      (decide (∃ j, x j ≤ x i ∧ y j ≤ y i ∧ (x j < x i ∨ y j < y i)))

def pareto_frontier_2d (x y : Fin n → K) : Fin n → Bool :=
  let dominated := (List.finRange n).foldl (frontier2dStep x y) fun _ => false
  fun i => !dominated i

/-! ## Rows compared with the survivors -/

theorem efficientStep_iff (costs : Fin n → Fin d → K) (mask : Fin n → Bool) (i j : Fin n)
    (hmask : ∀ k, Nondominated costs k → mask k = true) :
    efficientStep costs mask i j = true ↔
      mask j = true ∧ (j = i → Nondominated costs j) := by
  by_cases hi : mask i = false
  · -- a row dropped before stays dropped
    rw [efficientStep, if_pos hi]
    refine ⟨fun hj => ⟨hj, ?_⟩, And.left⟩
    rintro rfl
    rw [hi] at hj
    cases hj
  · have hany : (∃ j, Function.update (fun j => mask j && (decide (∀ k, costs j k ≤ costs i k) &&
        decide (∃ k, costs j k < costs i k))) i false j = true) ↔ ¬ Nondominated costs i := by
      rw [← exists_candidate_lt hmask]
      refine exists_congr fun j => ?_
      by_cases hji : j = i
      · subst hji
        simp
      · rw [Function.update_of_ne hji, Bool.and_eq_true, all_le_and_any_lt]
    simp only [efficientStep, if_neg hi]
    by_cases hdom : Nondominated costs i
    · rw [if_neg fun h => hany.mp h hdom]
      exact ⟨fun hj => ⟨hj, fun hji => hji ▸ hdom⟩, And.left⟩
    · rw [if_pos (hany.mpr hdom)]
      by_cases hji : j = i
      · subst hji
        simp [hdom]
      · simp [hji]

theorem is_pareto_efficient_exact (costs : Fin n → Fin d → K) :
    Exact (is_pareto_efficient costs) costs := by
  refine exact_iff.mpr fun i => ?_
  have h := foldl_dropDominated (efficientStep_iff costs) (List.finRange n)
    (fun _ => true) (fun _ _ => rfl) i
  rw [is_pareto_efficient, h]
  exact ⟨fun hi => hi.2 (List.mem_finRange i), fun hi => ⟨rfl, fun _ => hi⟩⟩

/-! ## Points compared with all points -/

theorem point_lt_iff {x y : Fin n → K} {i j : Fin n} :
    (x j ≤ x i ∧ y j ≤ y i ∧ (x j < x i ∨ y j < y i)) ↔ (x j, y j) < (x i, y i) := by
  rw [Prod.mk_lt_mk]
  constructor
  · rintro ⟨hx, hy, hlt | hlt⟩
    · exact .inl ⟨hlt, hy⟩
    · exact .inr ⟨hx, hlt⟩
  · rintro (⟨hlt, hy⟩ | ⟨hx, hlt⟩)
    · exact ⟨hlt.le, hy, .inl hlt⟩
    · exact ⟨hx, hlt.le, .inr hlt⟩

theorem frontier2dStep_iff {x y : Fin n → K} (mask : Fin n → Bool) (i j : Fin n) :
    (!frontier2dStep x y (fun k => !mask k) i j) = true ↔
      mask j = true ∧ (j = i → Nondominated (fun k => (x k, y k)) j) := by
  have hany : (∃ j, x j ≤ x i ∧ y j ≤ y i ∧ (x j < x i ∨ y j < y i)) ↔
      ¬ Nondominated (fun k => (x k, y k)) i := by
    simp only [Nondominated, point_lt_iff, not_forall, not_not]
  by_cases hi : mask i = true
  · rw [frontier2dStep, if_neg (by simp [hi])]
    by_cases hji : j = i
    · subst hji
      simp [hi, hany]
    · simp [hji]
  · rw [frontier2dStep, if_pos (by simp [hi])]
    by_cases hji : j = i
    · subst hji
      simp [hi]
    · simp [hji]

theorem pareto_frontier_2d_iff (x y : Fin n → K) (i : Fin n) :
    pareto_frontier_2d x y i = true ↔ Nondominated (fun k => (x k, y k)) i := by
  have h := foldl_dropDominated (fun mask i j _ => frontier2dStep_iff (x := x) (y := y) mask i j)
    (List.finRange n) (fun _ => true) (fun _ _ => rfl) i
  -- the script keeps the complement of this mask
  have hom : (List.finRange n).foldl (fun m i j => !frontier2dStep x y (fun k => !m k) i j)
        (fun _ => !false) =
      fun k => !(List.finRange n).foldl (frontier2dStep x y) (fun _ => false) k :=
    List.foldl_hom (fun (m : Fin n → Bool) k => !m k) fun m i => by simp only [Bool.not_not]
  show (!(List.finRange n).foldl (frontier2dStep x y) (fun _ => false) i) = true ↔ _
  rw [← congrFun hom i]
  exact h.trans ⟨fun hi => hi.2 (List.mem_finRange i), fun hi => ⟨rfl, fun _ => hi⟩⟩

theorem pareto_frontier_2d_exact (costs : Fin n → Fin 2 → K) :
    Exact (pareto_frontier_2d (fun i => costs i 0) fun i => costs i 1) costs := by
  intro i
  rw [pareto_frontier_2d_iff]
  refine forall_congr' fun j => not_congr ?_
  rw [← point_lt_iff (x := fun k => costs k 0) (y := fun k => costs k 1)]
  simp [Dominates, Fin.forall_fin_two, Fin.exists_fin_two, and_assoc]

/-- The mask of `is_pareto_efficient` is exact in every dimension, and for two
    columns it is the mask of `pareto_frontier_2d`. -/
theorem efficient_exact {K : Type} [LinearOrder K] :
    (∀ {n d : ℕ} (costs : Fin n → Fin d → K), Exact (is_pareto_efficient costs) costs) ∧
    ∀ {n : ℕ} (costs : Fin n → Fin 2 → K),
      is_pareto_efficient costs = pareto_frontier_2d (fun i => costs i 0) fun i => costs i 1 :=
  ⟨fun costs => is_pareto_efficient_exact costs,
    fun costs => (is_pareto_efficient_exact costs).unique (pareto_frontier_2d_exact costs)⟩

/-! ## Rows that drop lower rows -/

theorem frontierStep_iff {costs : Fin n → Fin d → K} (mask : Fin n → Bool) (i j : Fin n) :
    frontierStep costs mask i j = true ↔
      mask j = true ∧ ¬ (mask i = true ∧ costs j < costs i) := by
  by_cases hi : mask i = true
  · by_cases hji : j = i
    · subst hji
      simp [frontierStep, hi]
    · have hval : frontierStep costs mask i j = if mask j then
          !(decide (∀ k, costs j k ≤ costs i k) && decide (∃ k, costs j k < costs i k))
          else false := by
        rw [frontierStep, if_pos hi, Function.update_of_ne hji]
      rw [hval]
      cases hj : mask j with
      | false => simp
      | true => simp only [if_true, hi, true_and, Bool.not_eq_true', ← Bool.not_eq_true,
          all_le_and_any_lt]
  · simp [frontierStep, hi]

/-- The rows kept are those that dominate no row. -/
theorem pareto_frontier_nd_iff (costs : Fin n → Fin d → K) (j : Fin n) :
    pareto_frontier_nd costs j = true ↔ ∀ i, ¬ Dominates (costs j) (costs i) := by
  simp only [dominates_iff_lt]
  rw [pareto_frontier_nd, foldl_dropBelow frontierStep_iff]
  exact ⟨fun h i => h i (List.mem_finRange i), fun h i _ => h i⟩

/-- The mask of `pareto_frontier_nd` is exact, and equal to that of
    `is_pareto_efficient`, only for rows of which none dominates another. -/
theorem frontier_nd_exact_iff {K : Type} [LinearOrder K] {n d : ℕ} (costs : Fin n → Fin d → K) :
    (Exact (pareto_frontier_nd costs) costs ∧
      pareto_frontier_nd costs = is_pareto_efficient costs) ↔
      ∀ i j, ¬ Dominates (costs i) (costs j) := by
  constructor
  · rintro ⟨hexact, -⟩ i j hdom
    -- a nondominated row at or below row `i` is kept, yet dominates row `j`
    obtain ⟨k, hk, hle⟩ := exists_nondominated_le costs i
    have hkept : pareto_frontier_nd costs k = true := (exact_iff.mp hexact k).mpr hk
    have hlt : costs k < costs j := hle.trans_lt (dominates_iff_lt.mp hdom)
    exact (pareto_frontier_nd_iff costs k).mp hkept j (dominates_iff_lt.mpr hlt)
  · intro hnone
    have hexact : Exact (pareto_frontier_nd costs) costs := fun i =>
      ⟨fun _ j => hnone j i, fun _ => (pareto_frontier_nd_iff costs i).mpr (hnone i)⟩
    exact ⟨hexact, hexact.unique (is_pareto_efficient_exact costs)⟩

/-- Of two rows the higher one is kept. -/
theorem frontier_nd_inverted :
    ¬ (Exact (pareto_frontier_nd ![![(0 : ℤ)], ![1]]) ![![0], ![1]] ∧
      pareto_frontier_nd ![![(0 : ℤ)], ![1]] = is_pareto_efficient ![![0], ![1]]) := by
  rintro ⟨-, hagree⟩
  have h0 := congrFun hagree 0
  revert h0
  decide

end Destiny.Pareto
