/-
  Destiny.Circuit.SubArrayPower

  The write side of `SubArray::CalculatePower` for resistive memories (MRAM,
  PCRAM, memristor and FBRAM): the cell energies of a SET and of a RESET, and
  the totals that add the row decoder, the mux decoders, the muxes and the sense
  amplifiers.

  Both cell energies are one formula on the quantities of the cell
  (`calculatePower_spec`), but the two totals differ: that of a RESET adds the
  total of a SET where that of a SET adds the cell energy.
  `power_symmetric_iff` says when exchanging SET and RESET still exchanges the
  results.
-/

import Destiny.Circuit.WriteEnergy
import Mathlib.Tactic.LinearCombination

namespace Destiny

/-! ## Inputs and results -/

/-- `SHAPER_EFFICIENCY_CONSERVATIVE` -/
def shaperEfficiencyConservative (K : Type) [Field K] : K := 2 / 10

/-- `SHAPER_EFFICIENCY_AGGRESSIVE` -/
def shaperEfficiencyAggressive (K : Type) [Field K] : K := 1

/-- What the function reads from `inputParameter` and `tech`. -/
structure WriteContext (K : Type) where
  designTarget : DesignTarget
  cacheAccessMode : CacheAccessMode
  associativity : Nat
  writeScheme : WriteScheme
  vdd : K

/-- The row decoder's energies. -/
structure DecoderEnergy (K : Type) where
  writeDynamicEnergy : K
  setDynamicEnergy : K
  resetDynamicEnergy : K

/-- The energies exchanged. -/
def DecoderEnergy.swap {K : Type} (d : DecoderEnergy K) : DecoderEnergy K :=
  { d with setDynamicEnergy := d.resetDynamicEnergy, resetDynamicEnergy := d.setDynamicEnergy }

/-- A resistive subarray: its geometry, its loads, and the energies its parts
    have computed for themselves. -/
structure ResistiveSubArray (K : Type) where
  numColumn : Nat
  muxSenseAmp : Nat
  muxOutputLev1 : Nat
  muxOutputLev2 : Nat
  capCellAccess : K
  capBitline : K
  capForPreviousPowerCalculation : K
  rowDecoder : DecoderEnergy K
  bitlineMuxDecoder : K
  senseAmpMuxLev1Decoder : K
  senseAmpMuxLev2Decoder : K
  bitlineMux : K
  senseAmp : K
  senseAmpMuxLev1 : K
  senseAmpMuxLev2 : K

/-- The energies of a subarray that belong to writes. -/
structure WriteEnergies (K : Type) where
  writeDynamicEnergy : K
  setDynamicEnergy : K
  resetDynamicEnergy : K
  cellSetEnergy : K
  cellResetEnergy : K
  deriving DecidableEq

namespace ResistiveSubArray

variable {K : Type}

/-- The subarray with the row decoder's SET and RESET energies exchanged. -/
def swap (a : ResistiveSubArray K) : ResistiveSubArray K :=
  { a with rowDecoder := a.rowDecoder.swap }

variable [Field K]

/-- The write energy of the parts other than the row decoder. -/
def peripheral (a : ResistiveSubArray K) : K :=
  a.bitlineMuxDecoder + a.senseAmpMuxLev1Decoder + a.senseAmpMuxLev2Decoder + a.bitlineMux +
    a.senseAmp + a.senseAmpMuxLev1 + a.senseAmpMuxLev2

/-- The energy of the cell and of its bitline, which a write in voltage mode
    charges to its own voltage. -/
def energyPerBit (a : ResistiveSubArray K) (vdd : K) (w : Switching K) : K :=
  if w.mode = true then
    w.energy + (a.capCellAccess + a.capBitline + a.capForPreviousPowerCalculation) *
      w.voltage * w.voltage
  else
    w.energy + (a.capCellAccess + a.capBitline + a.capForPreviousPowerCalculation) * vdd * vdd

/-- `* numColumn / muxSenseAmp / muxOutputLev1 / muxOutputLev2` -/
def perAccess (a : ResistiveSubArray K) (energyPerBit : K) : K :=
  energyPerBit * a.numColumn / a.muxSenseAmp / a.muxOutputLev1 / a.muxOutputLev2

variable [LinearOrder K]

/-! ## The function -/

/-- The branches of the cell types, on a cell whose energies are computed. -/
def writeBranch (a : ResistiveSubArray K) (p : WriteContext K) (c : MemCell K)
    (e : WriteEnergies K) : WriteEnergies K :=
  let resetEnergyPerBit := a.energyPerBit p.vdd c.resetSwitching
  let setEnergyPerBit := a.energyPerBit p.vdd c.setSwitching
  let cellResetEnergy := a.perAccess resetEnergyPerBit
  let cellSetEnergy := a.perAccess setEnergyPerBit
  if c.memCellType = .PCRAM then
    if p.writeScheme = .write_and_verify then e
    else
      let cellResetEnergy := cellResetEnergy / shaperEfficiencyConservative K
      let cellSetEnergy := cellSetEnergy / shaperEfficiencyConservative K
      { e with
        cellResetEnergy := cellResetEnergy
        cellSetEnergy := cellSetEnergy
        writeDynamicEnergy := max cellResetEnergy cellSetEnergy }
  else if c.memCellType = .FBRAM then
    let cellResetEnergy := cellResetEnergy / shaperEfficiencyAggressive K
    let cellSetEnergy := cellSetEnergy / shaperEfficiencyAggressive K
    { e with
      cellResetEnergy := cellResetEnergy
      cellSetEnergy := cellSetEnergy
      writeDynamicEnergy := max cellResetEnergy cellSetEnergy }
  else
    -- MRAM and memristor; crossbars that erase first write twice
    let writeDynamicEnergy :=
      if (c.accessType = .diode_access ∨ c.accessType = .none_access) ∧
          (p.writeScheme = .erase_before_reset ∨ p.writeScheme = .erase_before_set) then
        cellResetEnergy + cellSetEnergy
      else max cellResetEnergy cellSetEnergy
    { e with
      cellResetEnergy := cellResetEnergy / shaperEfficiencyAggressive K
      cellSetEnergy := cellSetEnergy / shaperEfficiencyAggressive K
      writeDynamicEnergy := writeDynamicEnergy / shaperEfficiencyAggressive K }

/-- The energies of all ways are divided by the ways, unless a cache reads its
    ways in sequence. -/
def divideWays (p : WriteContext K) (e : WriteEnergies K) : WriteEnergies K :=
  if p.designTarget = .cache ∧ p.cacheAccessMode ≠ .sequential_access_mode then
    { cellResetEnergy := e.cellResetEnergy / p.associativity
      cellSetEnergy := e.cellSetEnergy / p.associativity
      writeDynamicEnergy := e.writeDynamicEnergy / p.associativity
      resetDynamicEnergy := e.resetDynamicEnergy / p.associativity
      setDynamicEnergy := e.setDynamicEnergy / p.associativity }
  else e

/-- `SubArray::CalculatePower` on the energies `e` the subarray holds. -/
def CalculatePower (a : ResistiveSubArray K) (p : WriteContext K) (c : MemCell K)
    (e : WriteEnergies K) : WriteEnergies K :=
  let c := c.CalculateWriteEnergy p.vdd
  let e := divideWays p (a.writeBranch p c e)
  let writeDynamicEnergy :=
    e.writeDynamicEnergy + (a.rowDecoder.writeDynamicEnergy + a.peripheral)
  let setDynamicEnergy :=
    e.setDynamicEnergy + (e.cellSetEnergy + a.rowDecoder.setDynamicEnergy + a.peripheral)
  -- the total of a RESET starts from the total of a SET
  let resetDynamicEnergy :=
    e.resetDynamicEnergy + (setDynamicEnergy + a.rowDecoder.resetDynamicEnergy + a.peripheral)
  { writeDynamicEnergy :=
      if c.accessType = .diode_access ∨ c.accessType = .none_access then
        writeDynamicEnergy + (a.bitlineMux + a.senseAmp + a.senseAmpMuxLev1 + a.senseAmpMuxLev2)
      else writeDynamicEnergy
    setDynamicEnergy := setDynamicEnergy
    resetDynamicEnergy := resetDynamicEnergy
    cellSetEnergy := e.cellSetEnergy
    cellResetEnergy := e.cellResetEnergy }

/-! ## One formula for both cell energies -/

/-- PCRAM written with verification keeps the energies the subarray holds. -/
def KeepsCellEnergies (p : WriteContext K) (c : MemCell K) : Prop :=
  c.memCellType = .PCRAM ∧ p.writeScheme = .write_and_verify

instance (p : WriteContext K) (c : MemCell K) : Decidable (KeepsCellEnergies p c) :=
  inferInstanceAs (Decidable (_ ∧ _))

/-- What the shaper of the cell type delivers. -/
def shaperEfficiency (c : MemCell K) : K :=
  if c.memCellType = .PCRAM then shaperEfficiencyConservative K else shaperEfficiencyAggressive K

/-- The number of ways the energies are divided by. -/
def writeDivisor (p : WriteContext K) : K :=
  if p.designTarget = .cache ∧ p.cacheAccessMode ≠ .sequential_access_mode then p.associativity
  else 1

/-- The cell energy of a write; `held` is the one the subarray holds. -/
def cellWriteEnergy (a : ResistiveSubArray K) (p : WriteContext K) (c : MemCell K)
    (w : Switching K) (held : K) : K :=
  (if KeepsCellEnergies p c then held
  else a.perAccess (a.energyPerBit p.vdd w) / shaperEfficiency c) / writeDivisor p

variable {a : ResistiveSubArray K} {p : WriteContext K} {c : MemCell K} {e : WriteEnergies K}

/-- The branches write the two cell energies by one formula and leave the totals. -/
theorem writeBranch_spec :
    (a.writeBranch p c e).cellResetEnergy = (if KeepsCellEnergies p c then e.cellResetEnergy
      else a.perAccess (a.energyPerBit p.vdd c.resetSwitching) / shaperEfficiency c) ∧
    (a.writeBranch p c e).cellSetEnergy = (if KeepsCellEnergies p c then e.cellSetEnergy
      else a.perAccess (a.energyPerBit p.vdd c.setSwitching) / shaperEfficiency c) ∧
    (a.writeBranch p c e).setDynamicEnergy = e.setDynamicEnergy ∧
    (a.writeBranch p c e).resetDynamicEnergy = e.resetDynamicEnergy := by
  unfold writeBranch KeepsCellEnergies shaperEfficiency
  by_cases hpcram : c.memCellType = .PCRAM
  · by_cases hscheme : p.writeScheme = .write_and_verify
    · simp [hpcram, hscheme]
    · simp [hpcram, hscheme]
  · by_cases hfbram : c.memCellType = .FBRAM
    · simp [hfbram]
    · simp [hpcram, hfbram]

omit [LinearOrder K] in
/-- The division touches every energy. -/
theorem divideWays_spec :
    (divideWays p e).cellResetEnergy = e.cellResetEnergy / writeDivisor p ∧
    (divideWays p e).cellSetEnergy = e.cellSetEnergy / writeDivisor p ∧
    (divideWays p e).setDynamicEnergy = e.setDynamicEnergy / writeDivisor p ∧
    (divideWays p e).resetDynamicEnergy = e.resetDynamicEnergy / writeDivisor p := by
  unfold divideWays writeDivisor
  split <;> simp

/-- The results, for a cell whose energies are computed and a subarray that holds
    no totals yet. -/
theorem calculatePower_spec (hcell : c.CalculateWriteEnergy p.vdd = c)
    (hset : e.setDynamicEnergy = 0) (hreset : e.resetDynamicEnergy = 0) :
    let r := a.CalculatePower p c e
    r.cellResetEnergy = a.cellWriteEnergy p c c.resetSwitching e.cellResetEnergy ∧
    r.cellSetEnergy = a.cellWriteEnergy p c c.setSwitching e.cellSetEnergy ∧
    r.setDynamicEnergy = r.cellSetEnergy + a.rowDecoder.setDynamicEnergy + a.peripheral ∧
    r.resetDynamicEnergy = r.setDynamicEnergy + a.rowDecoder.resetDynamicEnergy + a.peripheral := by
  obtain ⟨hcellReset, hcellSet, htotalSet, htotalReset⟩ := writeBranch_spec (a := a) (p := p)
    (c := c) (e := e)
  obtain ⟨hdivReset, hdivSet, hdivTotalSet, hdivTotalReset⟩ := divideWays_spec (p := p)
    (e := a.writeBranch p c e)
  unfold CalculatePower cellWriteEnergy
  rw [hcell]
  dsimp only
  rw [hdivReset, hdivSet, hdivTotalSet, hdivTotalReset, hcellReset, hcellSet, htotalSet,
    htotalReset, hset, hreset, zero_div, zero_add, zero_add]
  exact ⟨rfl, rfl, rfl, rfl⟩

/-! ## Symmetry -/

/-- The energies of the cell are computed, and computing them for the exchanged
    cell changes nothing either. -/
structure EnergiesComputed (p : WriteContext K) (c : MemCell K) : Prop where
  cell : c.CalculateWriteEnergy p.vdd = c
  swapped : c.swap.CalculateWriteEnergy p.vdd = c.swap

/-- What a symmetric treatment of SET and RESET means: exchanging the quantities
    exchanges the results, and the RESET total holds the RESET cell energy. -/
structure PowerSymmetric (a : ResistiveSubArray K) (p : WriteContext K) (c : MemCell K)
    (e : WriteEnergies K) : Prop where
  setDynamicEnergy :
    (a.swap.CalculatePower p c.swap e).setDynamicEnergy =
      (a.CalculatePower p c e).resetDynamicEnergy
  resetDynamicEnergy :
    (a.swap.CalculatePower p c.swap e).resetDynamicEnergy =
      (a.CalculatePower p c e).setDynamicEnergy
  cellSetEnergy :
    (a.swap.CalculatePower p c.swap e).cellSetEnergy = (a.CalculatePower p c e).cellResetEnergy
  cellResetEnergy :
    (a.swap.CalculatePower p c.swap e).cellResetEnergy = (a.CalculatePower p c e).cellSetEnergy
  contains : (a.CalculatePower p c e).resetDynamicEnergy =
    (a.CalculatePower p c e).cellResetEnergy + a.rowDecoder.resetDynamicEnergy + a.peripheral

omit [LinearOrder K] in
/-- The cell energy is a formula on the exchanged quantities. -/
theorem cellWriteEnergy_swap (w : Switching K) (held : K) :
    a.swap.cellWriteEnergy p c.swap w held = a.cellWriteEnergy p c w held := rfl

/-- Energies that are given are computed. -/
theorem energiesComputed_of_ne_zero (hset : c.setEnergy ≠ 0) (hreset : c.resetEnergy ≠ 0) :
    EnergiesComputed p c := by
  have hkeep (r : K) : switchEnergy p.vdd c c.resetSwitching r = c.resetEnergy := if_neg hreset
  have hkeep' (r : K) : switchEnergy p.vdd c c.setSwitching r = c.setEnergy := if_neg hset
  have hrun : (c.swap.CalculateWriteEnergy p.vdd).swap = c := by
    rw [MemCell.swap_calculateWriteEnergy_swap, hkeep, hkeep']
  refine ⟨?_, ?_⟩
  · rw [MemCell.CalculateWriteEnergy, hkeep, hkeep']
  · rw [← MemCell.swap_swap (c.swap.CalculateWriteEnergy p.vdd), hrun]

/-- The results of the exchanged run, in the quantities of the given cell. -/
theorem calculatePower_swap_spec (hcell : c.swap.CalculateWriteEnergy p.vdd = c.swap)
    (hset : e.setDynamicEnergy = 0) (hreset : e.resetDynamicEnergy = 0) :
    let r := a.swap.CalculatePower p c.swap e
    r.cellResetEnergy = a.cellWriteEnergy p c c.setSwitching e.cellResetEnergy ∧
    r.cellSetEnergy = a.cellWriteEnergy p c c.resetSwitching e.cellSetEnergy ∧
    r.setDynamicEnergy = r.cellSetEnergy + a.rowDecoder.resetDynamicEnergy + a.peripheral ∧
    r.resetDynamicEnergy = r.setDynamicEnergy + a.rowDecoder.setDynamicEnergy + a.peripheral := by
  obtain ⟨hcellReset, hcellSet, htotalSet, htotalReset⟩ :=
    calculatePower_spec (a := a.swap) hcell hset hreset
  rw [MemCell.resetSwitching_swap, cellWriteEnergy_swap] at hcellReset
  rw [MemCell.setSwitching_swap, cellWriteEnergy_swap] at hcellSet
  exact ⟨hcellReset, hcellSet, htotalSet, htotalReset⟩

omit [LinearOrder K] in
/-- What the subarray holds matters only when nothing is computed. -/
theorem cellWriteEnergy_held_iff (w : Switching K) (x y : K) :
    a.cellWriteEnergy p c w x = a.cellWriteEnergy p c w y ↔
      (KeepsCellEnergies p c → x / writeDivisor p = y / writeDivisor p) := by
  unfold cellWriteEnergy
  by_cases hkeep : KeepsCellEnergies p c <;> simp [hkeep]

/-- SET and RESET are treated alike just when the RESET cell energy exceeds that
    of a SET by the rest of a SET, and that of a SET exceeds the one of a RESET by
    the rest of a RESET: with no energy negative, when nothing but the cells takes
    energy and both writes take the same. -/
theorem power_symmetric_iff {K : Type} [Field K] [LinearOrder K] (a : ResistiveSubArray K)
    (p : WriteContext K) (c : MemCell K) (e : WriteEnergies K) (hcomputed : EnergiesComputed p c)
    (hset : e.setDynamicEnergy = 0) (hreset : e.resetDynamicEnergy = 0) :
    PowerSymmetric a p c e ↔
      (KeepsCellEnergies p c →
        e.cellSetEnergy / writeDivisor p = e.cellResetEnergy / writeDivisor p) ∧
      a.cellWriteEnergy p c c.resetSwitching e.cellResetEnergy =
        a.cellWriteEnergy p c c.setSwitching e.cellSetEnergy +
          a.rowDecoder.setDynamicEnergy + a.peripheral ∧
      a.cellWriteEnergy p c c.setSwitching e.cellSetEnergy =
        a.cellWriteEnergy p c c.resetSwitching e.cellResetEnergy +
          a.rowDecoder.resetDynamicEnergy + a.peripheral := by
  obtain ⟨hR, hS, hset1, hreset1⟩ := calculatePower_spec (a := a) hcomputed.cell hset hreset
  obtain ⟨hS', hR', hset2, hreset2⟩ :=
    calculatePower_swap_spec (a := a) hcomputed.swapped hset hreset
  -- the RESET energy has the SET energy added to it, before the swap and behind it
  rw [hS] at hset1
  rw [hset1] at hreset1
  rw [hR'] at hset2
  rw [hset2] at hreset2
  constructor
  · intro h
    -- the demands, one from each field of the symmetry
    have hcell := h.cellSetEnergy
    rw [hR', hR] at hcell
    have htotal := h.contains
    rw [hreset1, hR] at htotal
    have hback := h.resetDynamicEnergy
    rw [hreset2, hset1, hcell] at hback
    exact ⟨(cellWriteEnergy_held_iff _ _ _).mp hcell, by linear_combination -htotal,
      by linear_combination -hback⟩
  · rintro ⟨hkeep, hRS, hSR⟩
    have hcellR := (cellWriteEnergy_held_iff (a := a) c.resetSwitching _ _).mpr hkeep
    have hcellS := ((cellWriteEnergy_held_iff (a := a) c.setSwitching _ _).mpr hkeep).symm
    exact
      { setDynamicEnergy := by
          rw [hset2, hreset1, hcellR]
          linear_combination hRS
        resetDynamicEnergy := by
          rw [hreset2, hset1, hcellR]
          linear_combination -hSR
        cellSetEnergy := by rw [hR', hR, hcellR]
        cellResetEnergy := by rw [hS', hS, hcellS]
        contains := by
          rw [hreset1, hR]
          linear_combination -hRS }

/-! ## A subarray of one column -/

/-- Nothing but the cell takes energy. -/
def bareSubArray : ResistiveSubArray ℚ where
  numColumn := 1
  muxSenseAmp := 1
  muxOutputLev1 := 1
  muxOutputLev2 := 1
  capCellAccess := 0
  capBitline := 0
  capForPreviousPowerCalculation := 0
  rowDecoder := ⟨0, 0, 0⟩
  bitlineMuxDecoder := 0
  senseAmpMuxLev1Decoder := 0
  senseAmpMuxLev2Decoder := 0
  bitlineMux := 0
  senseAmp := 0
  senseAmpMuxLev1 := 0
  senseAmpMuxLev2 := 0

def ramContext : WriteContext ℚ where
  designTarget := .RAM_chip
  cacheAccessMode := .normal_access_mode
  associativity := 1
  writeScheme := .normal_write
  vdd := 1

/-- An MRAM cell whose RESET takes twice the energy of a SET. -/
def givenEnergyCell : MemCell ℚ :=
  { MemCell.construct default with memCellType := .MRAM, setEnergy := 1, resetEnergy := 2 }

/-- With one energy for both writes nothing is left to differ. -/
theorem power_symmetric_iff_bare :
    PowerSymmetric bareSubArray ramContext { givenEnergyCell with resetEnergy := 1 }
      ⟨0, 0, 0, 0, 0⟩ :=
  (power_symmetric_iff bareSubArray ramContext _ ⟨0, 0, 0, 0, 0⟩
    (energiesComputed_of_ne_zero (by decide +kernel) (by decide +kernel)) rfl rfl).mpr
      ⟨fun _ => rfl, by decide +kernel, by decide +kernel⟩

/-- The RESET total is the SET cell energy. -/
theorem reset_total_wrong :
    ¬ PowerSymmetric bareSubArray ramContext givenEnergyCell ⟨0, 0, 0, 0, 0⟩ := by
  intro h
  have hcontains := h.contains
  revert hcontains
  decide +kernel

end ResistiveSubArray
end Destiny
