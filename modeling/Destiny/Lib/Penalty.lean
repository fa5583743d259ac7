/-
  Destiny.Lib.Penalty

  Penalty terms of a loss function.

  `Penalises t P` says that the term `t` is never negative and vanishes exactly
  where the condition `P` holds.  Scaling keeps the condition and adding up
  conjoins the conditions, so what a sum of terms rules out can be read off
  the terms.
-/

import Destiny.Lib.Literals
import Mathlib.Algebra.Order.Field.Basic
import Mathlib.Tactic.Positivity

namespace Destiny.Lib

variable {K : Type} [Field K] [LinearOrder K]

/-- `torch.relu` -/
def relu (x : K) : K := max x 0

/-- `clamp(min=lo)` -/
def clampMin (lo x : K) : K := max x lo

omit [Field K] in
theorem clampMin_of_le {lo x : K} (h : lo ≤ x) : clampMin lo x = x := max_eq_left h

/-- The term is a penalty for violating the condition. -/
def Penalises (t : K) (P : Prop) : Prop := 0 ≤ t ∧ (t = 0 ↔ P)

section
variable {s t : K} {P Q : Prop}

theorem Penalises.congr (h : Penalises t P) (hPQ : P ↔ Q) : Penalises t Q :=
  ⟨h.1, h.2.trans hPQ⟩

theorem Penalises.add [IsStrictOrderedRing K] (hs : Penalises s P) (ht : Penalises t Q) :
    Penalises (s + t) (P ∧ Q) := by
  refine ⟨add_nonneg hs.1 ht.1, ?_⟩
  rw [add_eq_zero_iff_of_nonneg hs.1 ht.1, hs.2, ht.2]

/-- A term whose condition holds does not count. -/
theorem Penalises.add_holds [IsStrictOrderedRing K] (hs : Penalises s P) (ht : Penalises t Q)
    (hQ : Q) : Penalises (s + t) P :=
  (hs.add ht).congr (and_iff_left hQ)

theorem Penalises.const_mul [IsStrictOrderedRing K] (h : Penalises t P) {c : K} (hc : 0 < c) :
    Penalises (c * t) P := by
  refine ⟨mul_nonneg hc.le h.1, ?_⟩
  rw [mul_eq_zero, or_iff_right hc.ne', h.2]

theorem Penalises.div_const [IsStrictOrderedRing K] (h : Penalises t P) {c : K} (hc : 0 < c) :
    Penalises (t / c) P := by
  refine ⟨div_nonneg h.1 hc.le, ?_⟩
  rw [div_eq_zero_iff, or_iff_left hc.ne', h.2]

/-- The excess of one value over another penalises exceeding it. -/
theorem penalises_relu_sub [IsStrictOrderedRing K] (x y : K) :
    Penalises (relu (x - y)) (x ≤ y) := by
  refine ⟨le_max_right _ _, ?_⟩
  rw [relu, max_eq_right_iff, sub_nonpos]

theorem penalises_sq [IsStrictOrderedRing K] (x : K) : Penalises (x ^ 2) (x = 0) :=
  ⟨sq_nonneg x, sq_eq_zero_iff⟩

end

end Destiny.Lib
