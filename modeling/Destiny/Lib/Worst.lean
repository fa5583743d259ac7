/-
  Destiny.Lib.Worst

  The worst of several values over a floor.

  A program that keeps a running `max` from a start value computes `worst`.  It
  is the maximum of the values where one of them reaches the floor
  (`isGreatest_worst_iff`), and `worst_replace_iff` says when a wrong value in
  place of one of them goes unnoticed.
-/

import Mathlib.Order.Bounds.Basic
import Mathlib.Order.Lattice
import Mathlib.Data.List.Basic

namespace Destiny.Lib

variable {α : Type*} [LinearOrder α] {floor : α}

/-- The running maximum from `floor`. -/
def worst (floor : α) (l : List α) : α := l.foldr max floor

@[simp] theorem worst_nil : worst floor [] = floor := rfl

@[simp] theorem worst_cons (x : α) (l : List α) :
    worst floor (x :: l) = max x (worst floor l) := rfl

theorem floor_le_worst (floor : α) (l : List α) : floor ≤ worst floor l := by
  induction l with
  | nil => exact le_rfl
  | cons x l ih => exact ih.trans (le_max_right _ _)

@[simp] theorem worst_append (l m : List α) :
    worst floor (l ++ m) = max (worst floor l) (worst floor m) := by
  induction l with
  | nil => exact (max_eq_right (floor_le_worst floor m)).symm
  | cons x l ih => rw [List.cons_append, worst_cons, worst_cons, ih, max_assoc]

theorem le_worst {x : α} {l : List α} (h : x ∈ l) : x ≤ worst floor l := by
  induction l with
  | nil => cases h
  | cons y l ih =>
      rcases List.mem_cons.mp h with rfl | h
      · exact le_max_left _ _
      · exact (ih h).trans (le_max_right _ _)

theorem worst_mem (floor : α) (l : List α) : worst floor l = floor ∨ worst floor l ∈ l := by
  induction l with
  | nil => exact .inl rfl
  | cons x l ih =>
      rw [worst_cons]
      rcases le_total x (worst floor l) with h | h
      · rw [max_eq_right h]
        exact ih.imp_right (List.mem_cons_of_mem x)
      · rw [max_eq_left h]
        exact .inr List.mem_cons_self

/-- The floor does not show where a value reaches it. -/
theorem isGreatest_worst_iff (l : List α) :
    IsGreatest {x | x ∈ l} (worst floor l) ↔ ∃ x ∈ l, floor ≤ x := by
  constructor
  · exact fun h => ⟨_, h.1, floor_le_worst floor l⟩
  · rintro ⟨x, hx, hfloor⟩
    refine ⟨?_, fun y hy => le_worst hy⟩
    rcases worst_mem floor l with h | h
    · have hxfloor : x = floor := le_antisymm ((le_worst hx).trans_eq h) hfloor
      change worst floor l ∈ l
      rw [h, ← hxfloor]
      exact hx
    · exact h

/-- The greatest of some values is their worst, where one reaches the floor. -/
theorem isGreatest_iff_eq_worst {l : List α} {y : α} (hy : floor ≤ y) :
    IsGreatest {x | x ∈ l} y ↔ y = worst floor l ∧ ∃ x ∈ l, floor ≤ x := by
  constructor
  · intro h
    have hreach : ∃ x ∈ l, floor ≤ x := ⟨y, h.1, hy⟩
    exact ⟨h.unique ((isGreatest_worst_iff l).mpr hreach), hreach⟩
  · rintro ⟨rfl, hreach⟩
    exact (isGreatest_worst_iff l).mpr hreach

/-- A value that replaces another is not noticed beside the others. -/
theorem worst_replace_iff (l : List α) (x y : α) :
    max (worst floor l) x = max (worst floor l) y ↔
      x = y ∨ (x ≤ worst floor l ∧ y ≤ worst floor l) := by
  constructor
  · intro h
    rcases le_total x (worst floor l) with hx | hx
    · rw [max_eq_left hx] at h
      exact .inr ⟨hx, (le_max_right _ _).trans_eq h.symm⟩
    · rw [max_eq_right hx] at h
      rcases le_total y (worst floor l) with hy | hy
      · rw [max_eq_left hy] at h
        exact .inr ⟨h.le, hy⟩
      · rw [max_eq_right hy] at h
        exact .inl h
  · rintro (rfl | ⟨hx, hy⟩)
    · rfl
    · rw [max_eq_left hx, max_eq_left hy]

end Destiny.Lib
