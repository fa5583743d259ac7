/-
  Destiny.Circuit.Repeater

  `Wire::findPenalizedRepeater`: trading delay for energy in the repeaters of a
  wire.

  The search starts at the repeater with the least delay.  Two nested loops step
  through spacings and sizes and keep a best pair (`RepeaterBest.accept`), with
  the spacing and the size of the wire itself as loop variables: the inner loop
  leaves a size below one, and nothing sets it back.  So only the first spacing
  is examined, `findPenalizedRepeater_eq`; `repeater_search_iff` says when that
  is the whole grid.
-/

import Destiny.Lib.Literals
import Destiny.Lib.WhileLoop
import Mathlib.Algebra.Order.Floor.Semiring
import Mathlib.Algebra.Order.Field.Basic
import Mathlib.Data.Rat.Floor
import Mathlib.Tactic.Linarith

namespace Destiny

open Lib

variable {K : Type} [Field K] [LinearOrder K]

/-! ## The search -/

/-- The delay, energy and leakage of a unit length of wire, by spacing and size
    of its repeaters. -/
structure RepeatedWire (K : Type) where
  getRepeatedWireUnitDelay : K → K → K
  getRepeatedWireUnitDynamicEnergy : K → K → K
  getRepeatedWireUnitLeakage : K → K → K

/-- The repeater found so far. -/
structure RepeaterBest (K : Type) where
  currentDynamicEnergy : K
  currentLeakage : K
  targetRepeaterSpacing : K
  targetRepeaterSize : K
  deriving DecidableEq

/-- The repeater with the least delay. -/
def RepeaterBest.start (w : RepeatedWire K) (spacing size : K) : RepeaterBest K where
  currentDynamicEnergy := w.getRepeatedWireUnitDynamicEnergy spacing size
  currentLeakage := w.getRepeatedWireUnitLeakage spacing size
  targetRepeaterSpacing := spacing
  targetRepeaterSize := size

/-- A pair is accepted when it is fast enough and saves energy and leakage
    relative to the best so far. -/
def RepeaterBest.accept (w : RepeatedWire K) (targetDelay : K) (best : RepeaterBest K)
    (pair : K × K) : RepeaterBest K :=
  let thisDelay := w.getRepeatedWireUnitDelay pair.1 pair.2
  let thisDynamicEnergy := w.getRepeatedWireUnitDynamicEnergy pair.1 pair.2
  let thisLeakage := w.getRepeatedWireUnitLeakage pair.1 pair.2
  if thisDelay ≤ targetDelay ∧
      thisDynamicEnergy / best.currentDynamicEnergy + thisLeakage / best.currentLeakage < 2 then
    { currentDynamicEnergy := thisDynamicEnergy
      currentLeakage := thisLeakage
      targetRepeaterSpacing := pair.1
      targetRepeaterSize := pair.2 }
  else best

/-- The object while the loops run; `examined` records the pairs compared. -/
structure RepeaterSearch (K : Type) where
  repeaterSpacing : K
  repeaterSize : K
  best : RepeaterBest K
  examined : List (K × K)
  deriving DecidableEq

/-- 100um -/
def stepSpacing (K : Type) [Field K] : K := 1 / 10 ^ 4

/-- The minimum buffer size. -/
def endSize (K : Type) [Field K] : K := 1

/-- The body of the inner loop. -/
def examineSize (w : RepeatedWire K) (targetDelay : K) (s : RepeaterSearch K) :
    Option (RepeaterSearch K) :=
  some { s with
    best := s.best.accept w targetDelay (s.repeaterSpacing, s.repeaterSize)
    examined := s.examined ++ [(s.repeaterSpacing, s.repeaterSize)]
    repeaterSize := s.repeaterSize - 1 }

/-- `for (; repeaterSize >= endSize; repeaterSize -= stepSize)` -/
def sizeLoop (w : RepeatedWire K) (targetDelay : K) (fuel : ℕ) (s : RepeaterSearch K) :
    Option (RepeaterSearch K) :=
  whileLoop (fun s => endSize K ≤ s.repeaterSize) (examineSize w targetDelay) fuel s

/-- `for (; repeaterSpacing <= endSpacing; repeaterSpacing += stepSpacing)` -/
def spacingLoop (w : RepeatedWire K) (targetDelay endSpacing : K) (fuel : ℕ)
    (s : RepeaterSearch K) : Option (RepeaterSearch K) :=
  whileLoop (fun s => s.repeaterSpacing ≤ endSpacing)
    (fun s => (sizeLoop w targetDelay fuel s).map fun s =>
      { s with repeaterSpacing := s.repeaterSpacing + stepSpacing K })
    fuel s

/-- `Wire::findPenalizedRepeater` on a wire with the given repeaters. -/
def findPenalizedRepeater (w : RepeatedWire K) (penalty repeaterSpacing repeaterSize : K)
    (fuel : ℕ) : Option (RepeaterSearch K) :=
  let targetDelay := w.getRepeatedWireUnitDelay repeaterSpacing repeaterSize * (1 + penalty)
  let start : RepeaterSearch K :=
    { repeaterSpacing, repeaterSize
      best := .start w repeaterSpacing repeaterSize
      examined := [] }
  (spacingLoop w targetDelay (4 * repeaterSpacing) fuel start).map fun s =>
    { s with
      repeaterSpacing := s.best.targetRepeaterSpacing
      repeaterSize := s.best.targetRepeaterSize }

/-! ## The grid -/

section
variable [FloorSemiring K]

/-- From the optimal size down to one in steps of one. -/
def gridSizes (size : K) : List K := (List.range ⌊size⌋₊).map fun i : ℕ => size - i

/-- From the optimal spacing to four times it in steps of 100um. -/
def gridSpacings (spacing : K) : List K :=
  if 4 * spacing < spacing then []
  else
    (List.range (⌊(4 * spacing - spacing) / stepSpacing K⌋₊ + 1)).map fun i : ℕ =>
      spacing + i * stepSpacing K

/-- All pairs, spacing by spacing. -/
def repeaterGrid (spacing size : K) : List (K × K) :=
  (gridSpacings spacing).flatMap fun x => (gridSizes size).map fun y => (x, y)

/-- The search returns what the acceptance rule leaves over the whole grid, and
    has examined every pair. -/
def ExploresGrid (w : RepeatedWire K) (penalty spacing size : K) : Prop :=
  ∃ enough, ∀ fuel, enough ≤ fuel →
    ∃ s, findPenalizedRepeater w penalty spacing size fuel = some s ∧
    (let best := (repeaterGrid spacing size).foldl
      (RepeaterBest.accept w (w.getRepeatedWireUnitDelay spacing size * (1 + penalty)))
      (.start w spacing size)
    s.repeaterSpacing = best.targetRepeaterSpacing ∧ s.repeaterSize = best.targetRepeaterSize) ∧
    ∀ pair ∈ repeaterGrid spacing size, pair ∈ s.examined

/-! ## What is examined -/

variable [IsStrictOrderedRing K] {w : RepeatedWire K} {targetDelay spacing size : K}

/-- The search after some sizes of its current spacing. -/
def RepeaterSearch.afterSizes (w : RepeatedWire K) (targetDelay : K) (s : RepeaterSearch K)
    (count : ℕ) : RepeaterSearch K :=
  let row := (List.range count).map fun i : ℕ => (s.repeaterSpacing, s.repeaterSize - i)
  { s with
    repeaterSize := s.repeaterSize - count
    best := row.foldl (RepeaterBest.accept w targetDelay) s.best
    examined := s.examined ++ row }

omit [FloorSemiring K] [IsStrictOrderedRing K] in
theorem RepeaterSearch.afterSizes_succ (s : RepeaterSearch K) (i : ℕ) :
    examineSize w targetDelay (s.afterSizes w targetDelay i) =
      some (s.afterSizes w targetDelay (i + 1)) := by
  simp only [examineSize, RepeaterSearch.afterSizes, List.range_succ, List.map_append,
    List.foldl_append, List.append_assoc, Nat.cast_succ, sub_sub]
  rfl

/-- The inner loop goes down to one. -/
theorem sizeLoop_eq (s : RepeaterSearch K) {fuel : ℕ} (hfuel : ⌊s.repeaterSize⌋₊ ≤ fuel) :
    sizeLoop w targetDelay fuel s = some (s.afterSizes w targetDelay ⌊s.repeaterSize⌋₊) := by
  have hstart : s.afterSizes w targetDelay 0 = s := by
    simp [RepeaterSearch.afterSizes]
  have hloop : sizeLoop w targetDelay fuel (s.afterSizes w targetDelay 0) =
      some (s.afterSizes w targetDelay ⌊s.repeaterSize⌋₊) := by
    refine whileLoop_run (s.afterSizes w targetDelay) _ (fun i hi => decide_eq_true ?_)
      (fun i _ => s.afterSizes_succ i) (decide_eq_false (not_le.mpr ?_)) hfuel
    · have hle : ((i + 1 : ℕ) : K) ≤ s.repeaterSize :=
        (Nat.le_floor_iff' (Nat.succ_ne_zero i)).mp hi
      rw [Nat.cast_succ] at hle
      exact le_sub_iff_add_le'.mpr hle
    · exact sub_lt_iff_lt_add'.mpr (Nat.lt_floor_add_one s.repeaterSize)
  rwa [hstart] at hloop

omit [FloorSemiring K] [IsStrictOrderedRing K] in
/-- A size below one leaves the inner loop nothing to do. -/
theorem sizeLoop_of_lt (s : RepeaterSearch K) (h : s.repeaterSize < 1) (fuel : ℕ) :
    sizeLoop w targetDelay fuel s = some s := by
  unfold sizeLoop
  refine whileLoop_of_stop ?_ fuel
  exact decide_eq_false (not_le.mpr h)

/-- The search when the inner loop first ends: no size is left. -/
def firstRow (w : RepeatedWire K) (targetDelay : K) (s : RepeaterSearch K) : RepeaterSearch K :=
  s.afterSizes w targetDelay ⌊s.repeaterSize⌋₊

theorem firstRow_repeaterSize_lt (s : RepeaterSearch K) :
    (firstRow w targetDelay s).repeaterSize < 1 :=
  sub_lt_iff_lt_add'.mpr (Nat.lt_floor_add_one s.repeaterSize)

/-- The outer loop steps through the spacings, but after the first it compares
    nothing. -/
theorem spacingLoop_eq (s : RepeaterSearch K) {endSpacing : K}
    (hle : s.repeaterSpacing ≤ endSpacing) {fuel : ℕ} (hsize : ⌊s.repeaterSize⌋₊ ≤ fuel)
    (hspacing : ⌊(endSpacing - s.repeaterSpacing) / stepSpacing K⌋₊ + 1 ≤ fuel) :
    spacingLoop w targetDelay endSpacing fuel s = some { firstRow w targetDelay s with
      repeaterSpacing := s.repeaterSpacing +
        (⌊(endSpacing - s.repeaterSpacing) / stepSpacing K⌋₊ + 1 : ℕ) * stepSpacing K } := by
  have hstep : (0 : K) < stepSpacing K := by
    unfold stepSpacing
    positivity
  have hroom : 0 ≤ (endSpacing - s.repeaterSpacing) / stepSpacing K :=
    div_nonneg (sub_nonneg.mpr hle) hstep.le
  -- the states the loop goes through: behind the first only the spacing changes
  let states : ℕ → RepeaterSearch K := fun i =>
    if i = 0 then s
    else { firstRow w targetDelay s with
      repeaterSpacing := s.repeaterSpacing + (i : ℕ) * stepSpacing K }
  have hspacings (i : ℕ) : (states i).repeaterSpacing = s.repeaterSpacing + i * stepSpacing K := by
    by_cases hi : i = 0
    · simp [states, hi]
    · simp [states, hi]
  refine whileLoop_run states _ (fun i hi => decide_eq_true ?_) (fun i _ => ?_)
    (decide_eq_false (not_le.mpr ?_)) hspacing
  · have hcount : (i : K) ≤ (endSpacing - s.repeaterSpacing) / stepSpacing K :=
      (Nat.cast_le.mpr (Nat.le_of_lt_succ hi)).trans (Nat.floor_le hroom)
    rw [hspacings]
    linarith [(le_div_iff₀ hstep).mp hcount]
  · by_cases hi : i = 0
    · -- the first spacing
      subst hi
      show (sizeLoop w targetDelay fuel s).map _ = _
      rw [sizeLoop_eq s hsize]
      simp [states, firstRow, RepeaterSearch.afterSizes]
    · -- the inner loop finds the size where it left it
      have hlt : (states i).repeaterSize < 1 := by
        simp only [states, if_neg hi]
        exact firstRow_repeaterSize_lt s
      rw [sizeLoop_of_lt _ hlt]
      simp [states, hi, add_mul, add_assoc]
  · have hcount := (div_lt_iff₀ hstep).mp
      (Nat.lt_floor_add_one ((endSpacing - s.repeaterSpacing) / stepSpacing K))
    rw [hspacings, Nat.cast_succ]
    linarith

/-! ## The whole search -/

/-- The pairs of the optimal spacing. -/
def optimalRow (spacing size : K) : List (K × K) := (gridSizes size).map fun y => (spacing, y)

omit [IsStrictOrderedRing K] in
theorem firstRow_eq (x y : K) (best : RepeaterBest K) :
    firstRow w targetDelay ⟨x, y, best, []⟩ =
      ⟨x, y - ⌊y⌋₊, (optimalRow x y).foldl (RepeaterBest.accept w targetDelay) best,
        optimalRow x y⟩ := by
  simp only [firstRow, RepeaterSearch.afterSizes, optimalRow, gridSizes, List.map_map,
    List.nil_append]
  rfl

/-- What the search returns, given enough rounds: what is left of the pairs of the
    optimal spacing. -/
theorem findPenalizedRepeater_eq (w : RepeatedWire K) (penalty size : K)
    (hle : spacing ≤ 4 * spacing) :
    ∃ enough, ∀ fuel, enough ≤ fuel →
      ∃ s, findPenalizedRepeater w penalty spacing size fuel = some s ∧
      s.best = (optimalRow spacing size).foldl
        (RepeaterBest.accept w (w.getRepeatedWireUnitDelay spacing size * (1 + penalty)))
        (.start w spacing size) ∧
      s.repeaterSpacing = s.best.targetRepeaterSpacing ∧
      s.repeaterSize = s.best.targetRepeaterSize ∧ s.examined = optimalRow spacing size := by
  refine ⟨⌊size⌋₊ + (⌊(4 * spacing - spacing) / stepSpacing K⌋₊ + 1), fun fuel hfuel => ?_⟩
  have hloop : spacingLoop w (w.getRepeatedWireUnitDelay spacing size * (1 + penalty))
      (4 * spacing) fuel ⟨spacing, size, .start w spacing size, []⟩ = _ :=
    spacingLoop_eq ⟨spacing, size, .start w spacing size, []⟩ hle (by dsimp only; omega)
      (by dsimp only; omega)
  refine ⟨_, by rw [findPenalizedRepeater, hloop]; rfl, ?_⟩
  rw [firstRow_eq]
  exact ⟨rfl, rfl, rfl, rfl⟩

omit [FloorSemiring K] [IsStrictOrderedRing K] in
/-- A negative spacing leaves nothing to step through. -/
theorem findPenalizedRepeater_of_lt (w : RepeatedWire K) (penalty : K)
    (hlt : 4 * spacing < spacing) (fuel : ℕ) :
    findPenalizedRepeater w penalty spacing size fuel =
      some ⟨spacing, size, .start w spacing size, []⟩ := by
  have hloop : spacingLoop w (w.getRepeatedWireUnitDelay spacing size * (1 + penalty))
      (4 * spacing) fuel ⟨spacing, size, .start w spacing size, []⟩ =
        some ⟨spacing, size, .start w spacing size, []⟩ := by
    unfold spacingLoop
    refine whileLoop_of_stop ?_ fuel
    exact decide_eq_false (not_le.mpr hlt)
  rw [findPenalizedRepeater, hloop]
  rfl

/-- The grid has one spacing when the next one is past the end. -/
theorem repeaterGrid_of_single (hle : spacing ≤ 4 * spacing)
    (hsingle : 4 * spacing < spacing + stepSpacing K) :
    repeaterGrid spacing size = optimalRow spacing size := by
  have hstep : (0 : K) < stepSpacing K := by
    unfold stepSpacing
    positivity
  have hzero : ⌊(4 * spacing - spacing) / stepSpacing K⌋₊ = 0 := by
    rw [Nat.floor_eq_zero, div_lt_one hstep]
    linarith
  rw [repeaterGrid, gridSpacings, if_neg (not_lt.mpr hle), hzero]
  simp [optimalRow]

/-- Past the optimal spacing the grid has a pair that is not examined. -/
theorem next_spacing_mem (hsize : 1 ≤ size) (hnext : spacing + stepSpacing K ≤ 4 * spacing) :
    (spacing + stepSpacing K, size) ∈ repeaterGrid spacing size := by
  have hstep : (0 : K) < stepSpacing K := by
    unfold stepSpacing
    positivity
  have hle : spacing ≤ 4 * spacing := by linarith
  have hcount : 1 ≤ ⌊(4 * spacing - spacing) / stepSpacing K⌋₊ := by
    rw [Nat.one_le_floor_iff, one_le_div hstep]
    linarith
  refine List.mem_flatMap.mpr ⟨spacing + stepSpacing K, ?_, ?_⟩
  · rw [gridSpacings, if_neg (not_lt.mpr hle)]
    exact List.mem_map.mpr ⟨1, List.mem_range.mpr (by omega), by simp⟩
  · refine List.mem_map.mpr ⟨size, List.mem_map.mpr ⟨0, ?_, by simp⟩, rfl⟩
    exact List.mem_range.mpr ((Nat.one_le_floor_iff size).mpr hsize)

end

/-- With a second spacing to step to, the grid is not explored. -/
theorem not_exploresGrid {K : Type} [Field K] [LinearOrder K] [IsStrictOrderedRing K]
    [FloorSemiring K] (w : RepeatedWire K) (penalty : K) {spacing size : K} (hsize : 1 ≤ size)
    (hnext : spacing + stepSpacing K ≤ 4 * spacing) : ¬ ExploresGrid w penalty spacing size := by
  have hstep : (0 : K) < stepSpacing K := by
    unfold stepSpacing
    positivity
  have hle : spacing ≤ 4 * spacing := by linarith
  rintro ⟨n, hn⟩
  obtain ⟨m, hm⟩ := findPenalizedRepeater_eq w penalty size hle
  obtain ⟨s, hs, -, hall⟩ := hn (max n m) (le_max_left n m)
  obtain ⟨s', hs', -, -, -, hexamined⟩ := hm (max n m) (le_max_right n m)
  obtain rfl := Option.some.inj (hs.symm.trans hs')
  have hmem := hall _ (next_spacing_mem hsize hnext)
  rw [hexamined] at hmem
  -- the pairs examined all have the optimal spacing
  obtain ⟨y, -, hy⟩ := List.mem_map.mp hmem
  have hspacing := congrArg Prod.fst hy
  dsimp only at hspacing
  linarith

/-- The search explores its grid just when the optimal size is below the smallest
    buffer or the second spacing is past four times the optimal one. -/
theorem repeater_search_iff {K : Type} [Field K] [LinearOrder K] [IsStrictOrderedRing K]
    [FloorSemiring K] (w : RepeatedWire K) (penalty spacing size : K) :
    ExploresGrid w penalty spacing size ↔ size < 1 ∨ 4 * spacing < spacing + stepSpacing K := by
  constructor
  · intro hexplores
    by_contra hcon
    obtain ⟨hsize, hnext⟩ := not_or.mp hcon
    exact not_exploresGrid w penalty (not_lt.mp hsize) (not_lt.mp hnext) hexplores
  · intro hcond
    by_cases hle : spacing ≤ 4 * spacing
    · have hgrid : repeaterGrid spacing size = optimalRow spacing size := by
        rcases hcond with hsize | hsingle
        · have hnone : gridSizes size = [] := by
            rw [gridSizes, Nat.floor_eq_zero.mpr hsize]
            rfl
          simp [repeaterGrid, optimalRow, hnone]
        · exact repeaterGrid_of_single hle hsingle
      obtain ⟨m, hm⟩ := findPenalizedRepeater_eq w penalty size hle
      refine ⟨m, fun fuel hfuel => ?_⟩
      obtain ⟨s, hs, hbest, hx, hy, hexamined⟩ := hm fuel hfuel
      refine ⟨s, hs, ?_, ?_⟩
      · rw [hgrid, ← hbest]
        exact ⟨hx, hy⟩
      · rw [hgrid, hexamined]
        exact fun pair hpair => hpair
    · -- a negative spacing has no grid, and the loops do not run
      have hgrid : repeaterGrid spacing size = [] := by
        rw [repeaterGrid, gridSpacings, if_pos (not_le.mp hle), List.flatMap_nil]
      refine ⟨0, fun fuel _ => ⟨_, findPenalizedRepeater_of_lt w penalty (not_le.mp hle) fuel, ?_⟩⟩
      rw [hgrid]
      exact ⟨⟨rfl, rfl⟩, fun pair hpair => absurd hpair List.not_mem_nil⟩

/-- Repeaters 20um apart: a single spacing. -/
theorem repeater_search_iff_single_spacing :
    ExploresGrid ⟨fun x y => x + y, fun x y => x * y, fun _ y => y⟩ (1 / 20 : ℚ) (2 / 10 ^ 5) 8 :=
  (repeater_search_iff _ _ _ _).mpr (.inr (by unfold stepSpacing; norm_num))

/-- Repeaters 1mm apart: thirty-one spacings, of which one is examined. -/
theorem repeater_grid_skipped :
    ¬ ExploresGrid ⟨fun x y => x + y, fun x y => x * y, fun _ y => y⟩ (1 / 20 : ℚ) (1 / 10 ^ 3) 8 :=
  not_exploresGrid _ _ (by norm_num) (by unfold stepSpacing; norm_num)

end Destiny
