/-
  Destiny.Lib.Grid

  Points on a line and the choice of one.

  * `pinnedGrid lo hi step n`: `n` points from `lo` on, `step` apart, then `hi`.
    It climbs where the last point of the `n` is below `hi`.
  * `argmaxIndex xs`: where the largest of `xs` stands first.  Every position can
    be the one (`argmaxIndex_oneHot`).
-/

import Destiny.Lib.Literals
import Mathlib.Algebra.Order.Ring.Defs
import Mathlib.Data.List.Basic
import Mathlib.Data.List.MinMax
import Mathlib.Tactic.Linarith

namespace Destiny.Lib

/-! ## A grid with a fixed end -/

section
variable {K : Type} [CommRing K]

def pinnedGrid (lo hi step : K) (n : ℕ) : List K :=
  (List.range n).map (fun i : ℕ => lo + i * step) ++ [hi]

variable {lo hi step e : K} {n : ℕ}

theorem mem_pinnedGrid : e ∈ pinnedGrid lo hi step n ↔ e = hi ∨ ∃ i < n, e = lo + i * step := by
  simp only [pinnedGrid, List.mem_append, List.mem_map, List.mem_range, List.mem_singleton]
  constructor
  · rintro (⟨i, hi, rfl⟩ | rfl)
    · exact .inr ⟨i, hi, rfl⟩
    · exact .inl rfl
  · rintro (rfl | ⟨i, hi, rfl⟩)
    · exact .inr rfl
    · exact .inl ⟨i, hi, rfl⟩

theorem getLast?_pinnedGrid : (pinnedGrid lo hi step n).getLast? = some hi := by
  rw [pinnedGrid, List.getLast?_append]
  rfl

theorem head?_pinnedGrid (h : 0 < n) : (pinnedGrid lo hi step n).head? = some lo := by
  obtain ⟨m, rfl⟩ : ∃ m, n = m + 1 := ⟨n - 1, by omega⟩
  simp [pinnedGrid, List.range_succ_eq_map]

variable [LinearOrder K] [IsStrictOrderedRing K]

/-- A grid climbs if its last step does not pass the end. -/
theorem pairwise_pinnedGrid (hstep : 0 < step) (hlast : ∀ i < n, lo + i * step < hi) :
    (pinnedGrid lo hi step n).Pairwise (· < ·) := by
  rw [pinnedGrid, List.pairwise_append]
  refine ⟨?_, List.pairwise_singleton _ _, ?_⟩
  · rw [List.pairwise_map]
    refine List.pairwise_lt_range.imp fun {i j} hij => ?_
    have hcast : (i : K) < j := by exact_mod_cast hij
    have := mul_lt_mul_of_pos_right hcast hstep
    linarith
  · intro a ha b hb
    obtain ⟨i, hi, rfl⟩ := List.mem_map.mp ha
    rw [List.mem_singleton] at hb
    subst hb
    exact hlast i (List.mem_range.mp hi)

/-- All points of a grid that does not pass its end are between its ends. -/
theorem pinnedGrid_bounds (hstep : 0 ≤ step) (hlo : lo ≤ hi) (hlast : ∀ i < n, lo + i * step < hi)
    (he : e ∈ pinnedGrid lo hi step n) : lo ≤ e ∧ e ≤ hi := by
  rcases mem_pinnedGrid.mp he with rfl | ⟨i, hi, rfl⟩
  · exact ⟨hlo, le_rfl⟩
  · have hnonneg : 0 ≤ (i : K) * step := mul_nonneg (Nat.cast_nonneg i) hstep
    exact ⟨by linarith, (hlast i hi).le⟩

end

/-! ## The largest entry -/

section
variable {K : Type} [Zero K]

/-- `argmax`: the position of the largest entry, of the first one if there are
    several. -/
def argmaxIndex [LinearOrder K] (xs : List K) : Option ℕ :=
  (List.range xs.length).argmax fun i => xs.getD i 0

theorem argmaxIndex_isSome [LinearOrder K] {xs : List K} (h : 0 < xs.length) :
    ∃ i < xs.length, argmaxIndex xs = some i := by
  cases hmax : argmaxIndex xs with
  | none =>
      have hnil : List.range xs.length = [] := List.argmax_eq_none.mp hmax
      rw [List.range_eq_nil] at hnil
      omega
  | some i => exact ⟨i, List.mem_range.mp (List.argmax_mem hmax), rfl⟩

variable [One K]

/-- `n` entries, a single one of which is not zero. -/
def oneHot (n i : ℕ) : List K := (List.range n).map fun j => if j = i then 1 else 0

@[simp] theorem length_oneHot (n i : ℕ) : (oneHot n i : List K).length = n := by
  rw [oneHot, List.length_map, List.length_range]

theorem getD_oneHot {n i j : ℕ} (hj : j < n) :
    (oneHot n i : List K).getD j 0 = if j = i then 1 else 0 := by
  rw [List.getD_eq_getElem?_getD, oneHot, List.getElem?_map, List.getElem?_range hj]
  rfl

theorem argmaxIndex_oneHot [LinearOrder K] [ZeroLEOneClass K] [NeZero (1 : K)] {n i : ℕ}
    (hi : i < n) : argmaxIndex (oneHot n i : List K) = some i := by
  have hlen : 0 < (oneHot n i : List K).length := by
    rw [length_oneHot]
    omega
  obtain ⟨j, hj, hmax⟩ := argmaxIndex_isSome hlen
  rw [length_oneHot] at hj
  have hle := List.le_of_mem_argmax (List.mem_range.mpr (by simpa using hi)) hmax
  rw [getD_oneHot hi, getD_oneHot hj, if_pos rfl] at hle
  -- only the entry at `i` is as large as one
  by_cases hji : j = i
  · rw [hmax, hji]
  · rw [if_neg hji] at hle
    exact absurd hle (not_le.mpr zero_lt_one)

end

end Destiny.Lib
