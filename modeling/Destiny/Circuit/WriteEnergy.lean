/-
  Destiny.Circuit.WriteEnergy

  `MemCell::CalculateWriteEnergy`: the energies of a SET and of a RESET where
  the cell file does not give them.

  The two halves of the function are the same formula, `switchEnergy`, on the
  SET and on the RESET quantities of the cell (`Switching`), except for one
  comparison: a voltage of zero stands for the supply voltage, and both halves
  ask for the RESET voltage.  `writeEnergy_symmetric_iff` says for which cells
  exchanging SET and RESET nevertheless makes no difference.
-/

import Destiny.MemCell
import Mathlib.Algebra.Order.Field.Basic
import Mathlib.Algebra.Order.Field.Rat

namespace Destiny

open Lib

/-! ## One half of a write -/

/-- What a cell knows of one kind of write. -/
structure Switching (K : Type) where
  mode : Bool
  voltage : K
  current : K
  pulse : K
  energy : K
  /-- the on-resistance at the voltage of this write -/
  resistanceOn : K
  deriving DecidableEq

namespace MemCell

variable {K : Type}

def resetSwitching (c : MemCell K) : Switching K where
  mode := c.resetMode
  voltage := c.resetVoltage
  current := c.resetCurrent
  pulse := c.resetPulse
  energy := c.resetEnergy
  resistanceOn := c.resistanceOnAtResetVoltage

def setSwitching (c : MemCell K) : Switching K where
  mode := c.setMode
  voltage := c.setVoltage
  current := c.setCurrent
  pulse := c.setPulse
  energy := c.setEnergy
  resistanceOn := c.resistanceOnAtSetVoltage

@[simp] theorem setSwitching_voltage (c : MemCell K) : c.setSwitching.voltage = c.setVoltage := rfl

/-- The cell with other RESET quantities. -/
def withReset (c : MemCell K) (w : Switching K) : MemCell K :=
  { c with
    resetMode := w.mode
    resetVoltage := w.voltage
    resetCurrent := w.current
    resetPulse := w.pulse
    resetEnergy := w.energy
    resistanceOnAtResetVoltage := w.resistanceOn }

/-- The cell with other SET quantities. -/
def withSet (c : MemCell K) (w : Switching K) : MemCell K :=
  { c with
    setMode := w.mode
    setVoltage := w.voltage
    setCurrent := w.current
    setPulse := w.pulse
    setEnergy := w.energy
    resistanceOnAtSetVoltage := w.resistanceOn }

/-- The SET and RESET quantities exchanged. -/
def swap (c : MemCell K) : MemCell K := (c.withReset c.setSwitching).withSet c.resetSwitching

@[simp] theorem setSwitching_swap (c : MemCell K) : c.swap.setSwitching = c.resetSwitching := rfl

@[simp] theorem resetSwitching_swap (c : MemCell K) : c.swap.resetSwitching = c.setSwitching := rfl

@[simp] theorem resetVoltage_swap (c : MemCell K) : c.swap.resetVoltage = c.setVoltage := rfl

@[simp] theorem swap_swap (c : MemCell K) : c.swap.swap = c := rfl

end MemCell

/-! ## The function -/

section
variable {K : Type} [Field K] [LinearOrder K]

/-- One half of `CalculateWriteEnergy`.  `reference` is the voltage compared with
    zero; a write whose energy is given keeps it. -/
def switchEnergy (vdd : K) (c : MemCell K) (w : Switching K) (reference : K) : K :=
  if w.energy = 0 then
    if w.mode = true then
      if c.memCellType = .memristor then
        if c.accessType = .none_access then
          |w.voltage| * (|w.voltage| - c.voltageDropAccessDevice) / w.resistanceOn * w.pulse
        else
          |w.voltage| * (|w.voltage| - c.voltageDropAccessDevice) / c.resistanceOn * w.pulse
      else if c.memCellType = .PCRAM then
        |w.voltage| * (|w.voltage| - c.voltageDropAccessDevice) / c.resistanceOn * w.pulse
      else if c.memCellType = .FBRAM then |w.voltage| * |w.current| * w.pulse
      else |w.voltage| * (|w.voltage| - c.voltageDropAccessDevice) / c.resistanceOn * w.pulse
    else if reference = 0 then vdd * |w.current| * w.pulse
    else |w.voltage| * |w.current| * w.pulse
  else w.energy

/-- `MemCell::CalculateWriteEnergy`; `vdd` is `tech->vdd`.  The SET half, too,
    tests `resetVoltage == 0`. -/
def MemCell.CalculateWriteEnergy (vdd : K) (c : MemCell K) : MemCell K :=
  { c with
    resetEnergy := switchEnergy vdd c c.resetSwitching c.resetVoltage
    setEnergy := switchEnergy vdd c c.setSwitching c.resetVoltage }

/-! ## What the compared voltage decides -/

/-- The energy is computed from a current that flows: the case in which the
    voltage matters only as a factor. -/
def Switching.FromCurrent (w : Switching K) : Prop :=
  w.energy = 0 ∧ w.mode = false ∧ w.current ≠ 0 ∧ w.pulse ≠ 0

variable {vdd : K} {c : MemCell K} {w : Switching K} {r r' : K}

/-- Two voltages that are both zero or both not are the same comparison. -/
theorem switchEnergy_congr (h : r = 0 ↔ r' = 0) :
    switchEnergy vdd c w r = switchEnergy vdd c w r' := by
  unfold switchEnergy
  simp only [h]

theorem switchEnergy_of_fromCurrent (h : w.FromCurrent) :
    switchEnergy vdd c w r = (if r = 0 then vdd else |w.voltage|) * (|w.current| * w.pulse) := by
  obtain ⟨henergy, hmode, -, -⟩ := h
  rw [switchEnergy, if_pos henergy, if_neg (by simp [hmode])]
  split <;> exact mul_assoc _ _ _

variable [IsStrictOrderedRing K]

/-- Without a current that flows the compared voltage makes no difference. -/
theorem switchEnergy_of_not_fromCurrent (h : ¬ w.FromCurrent) :
    switchEnergy vdd c w r = switchEnergy vdd c w r' := by
  by_cases henergy : w.energy = 0
  · cases hmode : w.mode with
    | true => simp only [switchEnergy, hmode, if_true]
    | false =>
        -- no current or no pulse: both products are zero
        have hzero : |w.current| * w.pulse = 0 := by
          by_contra hne
          obtain ⟨hcurrent, hpulse⟩ := mul_ne_zero_iff.mp hne
          exact h ⟨henergy, hmode, abs_ne_zero.mp hcurrent, hpulse⟩
        simp only [switchEnergy, hmode, mul_assoc, hzero, mul_zero, ite_self]
  · simp only [switchEnergy, if_neg henergy]

/-- A zero and a nonzero voltage give one energy just when the supply voltage is
    the voltage of the write. -/
theorem switchEnergy_eq_iff (h : w.FromCurrent) (hr : r = 0) (hr' : r' ≠ 0) :
    switchEnergy vdd c w r = switchEnergy vdd c w r' ↔ vdd = |w.voltage| := by
  rw [switchEnergy_of_fromCurrent h, switchEnergy_of_fromCurrent h, if_pos hr, if_neg hr']
  exact mul_left_inj' (mul_ne_zero (abs_ne_zero.mpr h.2.2.1) h.2.2.2)

/-- The compared voltages are interchangeable for one half. -/
theorem switchEnergy_interchange :
    switchEnergy vdd c w r = switchEnergy vdd c w r' ↔
      (w.FromCurrent → (r = 0 ↔ r' = 0) ∨ vdd = |w.voltage|) := by
  by_cases h : w.FromCurrent
  · by_cases hr : r = 0
    · by_cases hr' : r' = 0
      · simp [hr, hr']
      · rw [switchEnergy_eq_iff h hr hr']
        simp [h, hr, hr']
    · by_cases hr' : r' = 0
      · rw [eq_comm, switchEnergy_eq_iff h hr' hr]
        simp [h, hr, hr']
      · refine iff_of_true (switchEnergy_congr (by simp [hr, hr'])) fun _ => .inl ?_
        simp [hr, hr']
  · exact iff_of_true (switchEnergy_of_not_fromCurrent h) fun hw => absurd hw h

end

/-! ## Symmetry -/

section
variable {K : Type} [Field K] [LinearOrder K]

/-- What a symmetric treatment of SET and RESET means at one cell. -/
structure MemCell.WriteSymmetric (vdd : K) (c : MemCell K) : Prop where
  /-- exchanging, running and exchanging back is running -/
  swap : (c.swap.CalculateWriteEnergy vdd).swap = c.CalculateWriteEnergy vdd
  /-- other RESET quantities give the same SET energy -/
  setEnergy : ∀ w, ((c.withReset w).CalculateWriteEnergy vdd).setEnergy =
    (c.CalculateWriteEnergy vdd).setEnergy
  /-- other SET quantities give the same RESET energy -/
  resetEnergy : ∀ w, ((c.withSet w).CalculateWriteEnergy vdd).resetEnergy =
    (c.CalculateWriteEnergy vdd).resetEnergy

/-- The formula reads nothing of the cell that is exchanged. -/
theorem switchEnergy_swap (vdd : K) (c : MemCell K) (w : Switching K) (r : K) :
    switchEnergy vdd c.swap w r = switchEnergy vdd c w r := by
  unfold switchEnergy
  rfl

/-- The exchanged run compares the voltage of the other half. -/
theorem MemCell.swap_calculateWriteEnergy_swap (vdd : K) (c : MemCell K) :
    (c.swap.CalculateWriteEnergy vdd).swap =
      { c with
        resetEnergy := switchEnergy vdd c c.resetSwitching c.setVoltage
        setEnergy := switchEnergy vdd c c.setSwitching c.setVoltage } := by
  unfold CalculateWriteEnergy
  rw [switchEnergy_swap, switchEnergy_swap, setSwitching_swap, resetSwitching_swap,
    resetVoltage_swap]
  generalize switchEnergy vdd c c.resetSwitching c.setVoltage = resetEnergy
  generalize switchEnergy vdd c c.setSwitching c.setVoltage = setEnergy
  rfl

variable [IsStrictOrderedRing K] {vdd : K} {c : MemCell K}

/-- The exchange shows where one half compares the other half's voltage. -/
theorem MemCell.swap_iff : (c.swap.CalculateWriteEnergy vdd).swap = c.CalculateWriteEnergy vdd ↔
    (c.setSwitching.FromCurrent →
      (c.setVoltage = 0 ↔ c.resetVoltage = 0) ∨ vdd = |c.setVoltage|) ∧
    (c.resetSwitching.FromCurrent →
      (c.setVoltage = 0 ↔ c.resetVoltage = 0) ∨ vdd = |c.resetVoltage|) := by
  rw [swap_calculateWriteEnergy_swap, CalculateWriteEnergy, MemCell.mk.injEq]
  simp only [true_and, and_true]
  rw [switchEnergy_interchange, switchEnergy_interchange, and_comm]
  rfl

omit [IsStrictOrderedRing K] in
/-- The formula reads no RESET quantity of the cell. -/
theorem switchEnergy_withReset (w v : Switching K) (r : K) :
    switchEnergy vdd (c.withReset w) v r = switchEnergy vdd c v r := by
  unfold switchEnergy
  rfl

omit [IsStrictOrderedRing K] in
/-- The formula reads no SET quantity of the cell. -/
theorem switchEnergy_withSet (w v : Switching K) (r : K) :
    switchEnergy vdd (c.withSet w) v r = switchEnergy vdd c v r := by
  unfold switchEnergy
  rfl

/-- The SET energy depends on the RESET voltage unless the supply voltage is the
    SET voltage. -/
theorem MemCell.setEnergy_iff :
    (∀ w, ((c.withReset w).CalculateWriteEnergy vdd).setEnergy =
      (c.CalculateWriteEnergy vdd).setEnergy) ↔
      (c.setSwitching.FromCurrent → vdd = |c.setVoltage|) := by
  have hrun (w : Switching K) : ((c.withReset w).CalculateWriteEnergy vdd).setEnergy =
      switchEnergy vdd c c.setSwitching w.voltage := switchEnergy_withReset w _ _
  show (∀ w, _ = switchEnergy vdd c c.setSwitching c.resetVoltage) ↔ _
  simp only [hrun, switchEnergy_interchange]
  constructor
  · intro h hcurrent
    -- a RESET voltage on the other side of the comparison
    by_cases hzero : c.resetVoltage = 0
    · simpa [hzero] using h { c.resetSwitching with voltage := 1 } hcurrent
    · simpa [hzero] using h { c.resetSwitching with voltage := 0 } hcurrent
  · exact fun h w hcurrent => .inr (h hcurrent)

omit [IsStrictOrderedRing K] in
theorem MemCell.resetEnergy_withSet (w : Switching K) :
    ((c.withSet w).CalculateWriteEnergy vdd).resetEnergy =
      (c.CalculateWriteEnergy vdd).resetEnergy :=
  switchEnergy_withSet w _ _

/-- SET and RESET are treated alike just for cells whose SET energy is not
    computed from a current, or has the supply voltage, and whose RESET energy is
    not, or has the supply voltage, or has a voltage that is zero when the SET
    voltage is. -/
theorem writeEnergy_symmetric_iff {K : Type} [Field K] [LinearOrder K] [IsStrictOrderedRing K]
    (vdd : K) (c : MemCell K) :
    c.WriteSymmetric vdd ↔
      (c.setSwitching.FromCurrent → vdd = |c.setVoltage|) ∧
      (c.resetSwitching.FromCurrent →
        (c.setVoltage = 0 ↔ c.resetVoltage = 0) ∨ vdd = |c.resetVoltage|) := by
  constructor
  · intro h
    exact ⟨MemCell.setEnergy_iff.mp h.setEnergy, (MemCell.swap_iff.mp h.swap).2⟩
  · rintro ⟨hset, hreset⟩
    exact
      { swap := MemCell.swap_iff.mpr ⟨fun hcurrent => .inr (hset hcurrent), hreset⟩
        setEnergy := MemCell.setEnergy_iff.mpr hset
        resetEnergy := MemCell.resetEnergy_withSet }

/-- A current-mode cell with both write voltages given as zero. -/
def zeroVoltageCell : MemCell ℚ :=
  { MemCell.construct default with
    memCellType := .MRAM
    resetMode := false
    resetCurrent := 2
    resetPulse := 3
    setMode := false
    setCurrent := 5
    setPulse := 7 }

/-- The SET energy is computed with the supply voltage as its own, and both
    voltages are given. -/
theorem writeEnergy_symmetric_iff_supply_voltage :
    ({ zeroVoltageCell with setVoltage := 1, resetVoltage := 3 } : MemCell ℚ).WriteSymmetric 1 := by
  apply (writeEnergy_symmetric_iff 1 _).mpr
  refine ⟨fun _ => ?_, fun _ => .inl ?_⟩
  · exact abs_one.symm
  · exact iff_of_false one_ne_zero three_ne_zero

/-- The SET voltage given, the RESET voltage not: the SET energy is computed with
    the supply voltage. -/
theorem writeEnergy_asymmetric :
    ¬ ({ zeroVoltageCell with setVoltage := 2 } : MemCell ℚ).WriteSymmetric 1 := by
  intro h
  have hswap := congrArg MemCell.setEnergy h.swap
  revert hswap
  decide +kernel

end

end Destiny
