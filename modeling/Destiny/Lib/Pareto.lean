/-
  Destiny.Lib.Pareto

  Nondominated points of a finite family, and two ways of scanning for them.

  A point of a family `p : ι → α` in a preorder is dominated by the points
  strictly below it.  In a finite family every point has a nondominated one at
  or below it, so dominated points can be recognised by the survivors of a scan
  alone.  A scan walks over a list of indices and clears entries of a mask:

  * `foldl_dropDominated` — each index clears itself when it is dominated; what
    is left are the nondominated points;
  * `foldl_dropBelow` — each index that is still set clears the points below it;
    what is left are the points that dominate none of the list.
-/

import Mathlib.Data.List.Induction
import Mathlib.Data.Set.Finite.Range
import Mathlib.Order.Preorder.Finite

namespace Destiny.Lib

variable {ι α : Type*} [Preorder α] {p : ι → α}

/-! ## Nondominated points -/

/-- No point of the family is strictly below the point `i`. -/
def Nondominated (p : ι → α) (i : ι) : Prop := ∀ j, ¬ p j < p i

theorem exists_nondominated_le [Finite ι] (p : ι → α) (i : ι) :
    ∃ j, Nondominated p j ∧ p j ≤ p i := by
  obtain ⟨m, hle, hmin⟩ := (Set.finite_range p).exists_le_minimal (Set.mem_range_self i)
  obtain ⟨j, rfl⟩ := hmin.prop
  exact ⟨j, fun k hk => hmin.not_lt (Set.mem_range_self k) hk, hle⟩

/-- Among any candidates that include the nondominated points, a dominated
    point has a candidate below it. -/
theorem exists_candidate_lt [Finite ι] {mask : ι → Bool}
    (hmask : ∀ k, Nondominated p k → mask k = true) {i : ι} :
    (∃ k, mask k = true ∧ p k < p i) ↔ ¬ Nondominated p i := by
  constructor
  · rintro ⟨k, -, hlt⟩ hi
    exact hi k hlt
  · intro hi
    unfold Nondominated at hi
    push Not at hi
    obtain ⟨j, hj⟩ := hi
    obtain ⟨k, hk, hle⟩ := exists_nondominated_le p j
    exact ⟨k, hmask k hk, hle.trans_lt hj⟩

/-! ## Scans -/

/-- A scan in which each index clears itself when it is dominated, as long as
    the nondominated points are still set. -/
theorem foldl_dropDominated {step : (ι → Bool) → ι → ι → Bool}
    (hstep : ∀ mask i j, (∀ k, Nondominated p k → mask k = true) →
      (step mask i j = true ↔ mask j = true ∧ (j = i → Nondominated p j)))
    (is : List ι) (mask : ι → Bool) (hmask : ∀ k, Nondominated p k → mask k = true) (j : ι) :
    is.foldl step mask j = true ↔ mask j = true ∧ (j ∈ is → Nondominated p j) := by
  induction is generalizing mask with
  | nil => simp
  | cons i is ih =>
      have hnext : ∀ k, Nondominated p k → step mask i k = true := fun k hk =>
        (hstep mask i k hmask).mpr ⟨hmask k hk, fun _ => hk⟩
      rw [List.foldl_cons, ih _ hnext, hstep mask i j hmask, List.mem_cons, and_assoc,
        or_imp]

/-- A scan in which each index that is still set clears the points below it. -/
theorem foldl_dropBelow {step : (ι → Bool) → ι → ι → Bool}
    (hstep : ∀ mask i j,
      (step mask i j = true ↔ mask j = true ∧ ¬ (mask i = true ∧ p j < p i)))
    (is : List ι) (j : ι) :
    is.foldl step (fun _ => true) j = true ↔ ∀ i ∈ is, ¬ p j < p i := by
  induction is using List.reverseRecOn generalizing j with
  | nil => simp
  | append_singleton is i ih =>
      rw [List.foldl_append, List.foldl_cons, List.foldl_nil, hstep, ih, ih]
      constructor
      · rintro ⟨hj, hi⟩ k hk
        rcases List.mem_append.mp hk with hk | hk
        · exact hj k hk
        · obtain rfl := List.mem_singleton.mp hk
          intro hlt
          -- an index cleared earlier lies below a point whose whole lower set is cleared
          refine hi ⟨fun l hl hil => hj l hl (hlt.trans hil), hlt⟩
      · intro h
        exact ⟨fun k hk => h k (List.mem_append_left _ hk),
          fun ⟨_, hlt⟩ => h i (List.mem_append_right _ (List.mem_singleton_self i)) hlt⟩

end Destiny.Lib
