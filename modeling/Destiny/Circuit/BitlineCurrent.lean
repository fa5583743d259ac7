/-
  Destiny.Circuit.BitlineCurrent

  The largest bitline current of a resistive subarray, as
  `SubArray::Initialize` computes it to size the bitline mux.

  A bitline carries the RESET current of the selected cell and, for each other
  cell on it, what an unselected cell lets through: the leakage of its access
  device or, without one, half the RESET voltage over its resistance.  The
  branch of cells without access device assigns the current of the other layers
  where the branch of diodes adds it; `bitline_current_iff` says when the result
  is large enough all the same.
-/

import Destiny.MemCell
import Mathlib.Algebra.Order.Field.Basic
import Mathlib.Algebra.Order.Field.Rat
import Mathlib.Tactic.Linarith
import Mathlib.Tactic.Ring

namespace Destiny

open Lib

namespace MemCell

variable {K : Type} [Field K] [LinearOrder K]

/-! ## The current -/

def isResistive (c : MemCell K) : Bool :=
  c.memCellType = .MRAM || c.memCellType = .PCRAM || c.memCellType = .memristor ||
    c.memCellType = .FBRAM

/-- The RESET current of cells without a transistor, computed when it is not given. -/
def writeResetCurrent (c : MemCell K) : K :=
  if c.resetCurrent = 0 then
    (|c.resetVoltage| - c.voltageDropAccessDevice) / c.resistanceOnAtResetVoltage
  else c.resetCurrent

/-- `maxBitlineCurrent` of `SubArray::Initialize`. -/
def maxBitlineCurrent (c : MemCell K) (numRow num3DLevels : ℕ) : K :=
  if c.memCellType = .FBRAM then
    max c.resetCurrent c.setCurrent + c.leakageCurrentAccessDevice * (numRow - 1)
  else if c.memCellType = .MRAM ∨ c.memCellType = .PCRAM ∨ c.memCellType = .memristor then
    if c.accessType = .CMOS_access then
      max c.resetCurrent c.setCurrent + c.leakageCurrentAccessDevice * (numRow - 1)
    else
      let resetCurrent := c.writeResetCurrent
      if c.accessType = .none_access then
        let _maxBitlineCurrent := resetCurrent + resetCurrent * c.resistanceOnAtResetVoltage / 2 /
          c.resistanceOnAtHalfResetVoltage * (numRow - 1)
        -- assigned over the current of the selected layer
        resetCurrent * c.resistanceOnAtResetVoltage / 2 / c.resistanceOnAtHalfResetVoltage *
          numRow * (num3DLevels - 1)
      else
        let maxBitlineCurrent := resetCurrent + c.leakageCurrentAccessDevice * (numRow - 1)
        maxBitlineCurrent + c.leakageCurrentAccessDevice * numRow * (num3DLevels - 1)
  else 0

/-! ## What it stands for -/

/-- A cell of a crossbar: no access device keeps unselected cells apart. -/
def Crossbar (c : MemCell K) : Prop := c.memCellType ≠ .FBRAM ∧ c.accessType = .none_access

instance (c : MemCell K) : Decidable c.Crossbar := inferInstanceAs (Decidable (_ ∧ _))

/-- The RESET current of the selected cell. -/
def selectedCurrent (c : MemCell K) : K :=
  if c.memCellType = .FBRAM ∨ c.accessType = .CMOS_access then c.resetCurrent
  else c.writeResetCurrent

/-- The current of an unselected cell of a crossbar. -/
def halfSelectCurrent (c : MemCell K) : K :=
  c.writeResetCurrent * c.resistanceOnAtResetVoltage / 2 / c.resistanceOnAtHalfResetVoltage

/-- The current of an unselected cell. -/
def unselectedCurrent (c : MemCell K) : K :=
  if c.Crossbar then c.halfSelectCurrent else c.leakageCurrentAccessDevice

/-- What the bitline current of a subarray should satisfy. -/
structure BitlineSized (c : MemCell K) (numRow num3DLevels : ℕ) : Prop where
  /-- one cell is selected, the others of its layer are not -/
  covers : c.selectedCurrent + (numRow - 1) * c.unselectedCurrent ≤
    c.maxBitlineCurrent numRow num3DLevels
  rows : ∀ more, numRow ≤ more →
    c.maxBitlineCurrent numRow num3DLevels ≤ c.maxBitlineCurrent more num3DLevels
  levels : ∀ more, num3DLevels ≤ more →
    c.maxBitlineCurrent numRow num3DLevels ≤ c.maxBitlineCurrent numRow more

/-! ## The three formulas -/

section
variable {c : MemCell K} {n l : ℕ}

/-- Over a crossbar only the other layers count. -/
theorem maxBitlineCurrent_of_crossbar (hc : c.isResistive = true) (h : c.Crossbar) :
    c.maxBitlineCurrent n l = c.halfSelectCurrent * n * (l - 1) := by
  obtain ⟨htype, haccess⟩ := h
  have hother : c.memCellType = .MRAM ∨ c.memCellType = .PCRAM ∨ c.memCellType = .memristor := by
    simpa [isResistive, htype, or_assoc] using hc
  simp only [maxBitlineCurrent, if_neg htype, if_pos hother, haccess, halfSelectCurrent]
  rfl

/-- Cells with a transistor, and FBRAM cells whatever their access. -/
theorem maxBitlineCurrent_of_transistor (hc : c.isResistive = true)
    (h : c.memCellType = .FBRAM ∨ c.accessType = .CMOS_access) :
    c.maxBitlineCurrent n l =
      max c.resetCurrent c.setCurrent + c.leakageCurrentAccessDevice * (n - 1) := by
  by_cases htype : c.memCellType = .FBRAM
  · rw [maxBitlineCurrent, if_pos htype]
  · have hother : c.memCellType = .MRAM ∨ c.memCellType = .PCRAM ∨ c.memCellType = .memristor := by
      simpa [isResistive, htype, or_assoc] using hc
    rw [maxBitlineCurrent, if_neg htype, if_pos hother, if_pos (h.resolve_left htype)]

/-- Cells behind a diode or a bipolar transistor. -/
theorem maxBitlineCurrent_of_diode (hc : c.isResistive = true) (hcross : ¬ c.Crossbar)
    (h : ¬ (c.memCellType = .FBRAM ∨ c.accessType = .CMOS_access)) :
    c.maxBitlineCurrent n l = c.writeResetCurrent + c.leakageCurrentAccessDevice * (n - 1) +
      c.leakageCurrentAccessDevice * n * (l - 1) := by
  obtain ⟨htype, hcmos⟩ := not_or.mp h
  have hother : c.memCellType = .MRAM ∨ c.memCellType = .PCRAM ∨ c.memCellType = .memristor := by
    simpa [isResistive, htype, or_assoc] using hc
  have hnone : c.accessType ≠ .none_access := fun haccess => hcross ⟨htype, haccess⟩
  rw [maxBitlineCurrent, if_neg htype, if_pos hother, if_neg hcmos, if_neg hnone]

/-! ## When the current is large enough -/

variable [IsStrictOrderedRing K]

/-- Cells with an access device are covered, and more cells need more. -/
theorem bitlineSized_of_device (hc : c.isResistive = true) (hcross : ¬ c.Crossbar)
    (hleak : 0 ≤ c.leakageCurrentAccessDevice) (hl : 1 ≤ l) : c.BitlineSized n l := by
  have hunselected : c.unselectedCurrent = c.leakageCurrentAccessDevice := if_neg hcross
  have hcast {x y : ℕ} (h : x ≤ y) : (x : K) ≤ y := Nat.cast_le.mpr h
  have hlevels : (1 : K) ≤ l := by exact_mod_cast hl
  -- behind a diode the cells of the other layers leak into the line as well
  by_cases htransistor : c.memCellType = .FBRAM ∨ c.accessType = .CMOS_access
  · have hselected : c.selectedCurrent = c.resetCurrent := if_pos htransistor
    refine ⟨?_, fun more hmore => ?_, fun more _ => ?_⟩
    · rw [maxBitlineCurrent_of_transistor hc htransistor, hselected, hunselected,
        mul_comm (_ - 1)]
      gcongr
      exact le_max_left _ _
    · rw [maxBitlineCurrent_of_transistor hc htransistor,
        maxBitlineCurrent_of_transistor hc htransistor]
      gcongr
    · rw [maxBitlineCurrent_of_transistor hc htransistor,
        maxBitlineCurrent_of_transistor hc htransistor]
  · have hselected : c.selectedCurrent = c.writeResetCurrent := if_neg htransistor
    have hrest : 0 ≤ c.leakageCurrentAccessDevice * n * (l - 1) :=
      mul_nonneg (mul_nonneg hleak (Nat.cast_nonneg n)) (sub_nonneg.mpr hlevels)
    refine ⟨?_, fun more hmore => ?_, fun more hmore => ?_⟩
    · rw [maxBitlineCurrent_of_diode hc hcross htransistor, hselected, hunselected,
        mul_comm (_ - 1)]
      exact le_add_of_nonneg_right hrest
    · rw [maxBitlineCurrent_of_diode hc hcross htransistor,
        maxBitlineCurrent_of_diode hc hcross htransistor]
      have hrows := hcast hmore
      have hother : 0 ≤ (l : K) - 1 := sub_nonneg.mpr hlevels
      gcongr
    · rw [maxBitlineCurrent_of_diode hc hcross htransistor,
        maxBitlineCurrent_of_diode hc hcross htransistor]
      have hmore' := hcast hmore
      gcongr

/-- Over a crossbar the other layers alone have to cover the selected one. -/
theorem bitlineSized_of_crossbar (hc : c.isResistive = true) (hcross : c.Crossbar)
    (hn : 1 ≤ n) (hl : 1 ≤ l) :
    c.BitlineSized n l ↔ 0 ≤ c.halfSelectCurrent ∧
      c.writeResetCurrent ≤ c.halfSelectCurrent * (n * (l - 2) + 1) := by
  have hunselected : c.unselectedCurrent = c.halfSelectCurrent := if_pos hcross
  have hselected : c.selectedCurrent = c.writeResetCurrent := by
    refine if_neg ?_
    rintro (htype | haccess)
    · exact hcross.1 htype
    · rw [hcross.2] at haccess
      cases haccess
  have hcovers : c.selectedCurrent + (n - 1) * c.unselectedCurrent ≤ c.maxBitlineCurrent n l ↔
      c.writeResetCurrent ≤ c.halfSelectCurrent * (n * (l - 2) + 1) := by
    rw [hselected, hunselected, maxBitlineCurrent_of_crossbar hc hcross,
      ← le_sub_iff_add_le]
    refine iff_of_eq (congrArg _ ?_)
    ring
  have hcast {x y : ℕ} (h : x ≤ y) : (x : K) ≤ y := Nat.cast_le.mpr h
  have hlevels : (0 : K) ≤ l - 1 := sub_nonneg.mpr (by exact_mod_cast hl)
  constructor
  · intro h
    -- one more level adds the half-select current of every row
    have hlevel := h.levels (l + 1) (Nat.le_succ l)
    rw [maxBitlineCurrent_of_crossbar hc hcross, maxBitlineCurrent_of_crossbar hc hcross,
      Nat.cast_succ] at hlevel
    have hpos : (0 : K) < n := by exact_mod_cast hn
    have hprod : 0 ≤ c.halfSelectCurrent * n := by linarith
    exact ⟨nonneg_of_mul_nonneg_left hprod hpos, hcovers.mp h.covers⟩
  · rintro ⟨hhalf, hsel⟩
    refine ⟨hcovers.mpr hsel, fun more hmore => ?_, fun more hmore => ?_⟩
    · rw [maxBitlineCurrent_of_crossbar hc hcross, maxBitlineCurrent_of_crossbar hc hcross]
      have hrows := hcast hmore
      gcongr
    · rw [maxBitlineCurrent_of_crossbar hc hcross, maxBitlineCurrent_of_crossbar hc hcross]
      have hmore' := hcast hmore
      gcongr

end

end MemCell

/-- The bitline current is large enough, and grows with rows and levels, except
    for cells without access device whose other layers do not make up for the
    selected layer. -/
theorem bitline_current_iff {K : Type} [Field K] [LinearOrder K] [IsStrictOrderedRing K]
    (c : MemCell K) (numRow num3DLevels : ℕ) (hc : c.isResistive = true)
    (hleak : 0 ≤ c.leakageCurrentAccessDevice) (hrow : 1 ≤ numRow) (hlevel : 1 ≤ num3DLevels) :
    c.BitlineSized numRow num3DLevels ↔ (c.Crossbar → 0 ≤ c.halfSelectCurrent ∧
      c.writeResetCurrent ≤ c.halfSelectCurrent * (numRow * (num3DLevels - 2) + 1)) := by
  by_cases hcross : c.Crossbar
  · rw [MemCell.bitlineSized_of_crossbar hc hcross hrow hlevel]
    exact ⟨fun h _ => h, fun h => h hcross⟩
  · exact iff_of_true (MemCell.bitlineSized_of_device hc hcross hleak hlevel)
      fun h => absurd h hcross

/-- A crossbar memristor. -/
def crossbarCell : MemCell ℚ :=
  { MemCell.construct default with
    memCellType := .memristor
    accessType := .none_access
    resetCurrent := 1
    resistanceOnAtResetVoltage := 2
    resistanceOnAtHalfResetVoltage := 1 }

theorem bitline_current_iff_crossbar : crossbarCell.BitlineSized 8 3 :=
  (bitline_current_iff crossbarCell 8 3 rfl (by decide +kernel) (by decide) (by decide)).mpr
    fun _ => by decide +kernel

/-- With a single level the current comes out as zero. -/
theorem bitline_current_zero : ¬ crossbarCell.BitlineSized 8 1 := by
  intro h
  have hcovers := h.covers
  revert hcovers
  decide +kernel

end Destiny
