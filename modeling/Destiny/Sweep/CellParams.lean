/-
  Destiny.Sweep.CellParams

  The parameters of a synthetic cell and the checks on them: `valid_sram`,
  `valid_rram` and `valid_edram` of generate_cells.py.

  A parameter read from a cell file is a text, a sampled one a number.  The checks
  take them as floats; a key that is missing, a text that is no number and a
  division by zero all reject the cell.
-/

import Destiny.Lib.PyFloat
import Destiny.Sweep.Jobs

namespace Destiny.Sweep

open Lib

/-! ## Parameters -/

/-- The value of a parameter. -/
inductive CellValue
  | text (t : List Char)
  | int (n : ℤ)
  | float (x : ℚ)
  deriving DecidableEq

/-- `float(value)` -/
def CellValue.toFloat : CellValue → Option ℚ
  | .text t => pyFloat t
  | .int n => some (n : ℚ)
  | .float x => some x

/-- The keys that are checked. -/
inductive CheckedKey
  | SRAMCellNMOSWidth
  | SRAMCellPMOSWidth
  | AccessCMOSWidth
  | ResistanceOnAtSetVoltage
  | ResistanceOffAtSetVoltage
  | SetVoltage
  | SetPulse
  | DRAMCellCapacitance
  | RetentionTime
  deriving DecidableEq, Repr

def CheckedKey.name : CheckedKey → List Char
  | .SRAMCellNMOSWidth => "SRAMCellNMOSWidth (F)".toList
  | .SRAMCellPMOSWidth => "SRAMCellPMOSWidth (F)".toList
  | .AccessCMOSWidth => "AccessCMOSWidth (F)".toList
  | .ResistanceOnAtSetVoltage => "ResistanceOnAtSetVoltage (ohm)".toList
  | .ResistanceOffAtSetVoltage => "ResistanceOffAtSetVoltage (ohm)".toList
  | .SetVoltage => "SetVoltage (V)".toList
  | .SetPulse => "SetPulse (ns)".toList
  | .DRAMCellCapacitance => "DRAMCellCapacitance (F)".toList
  | .RetentionTime => "RetentionTime (us)".toList

def CheckedKey.all : List CheckedKey :=
  [.SRAMCellNMOSWidth, .SRAMCellPMOSWidth, .AccessCMOSWidth, .ResistanceOnAtSetVoltage,
   .ResistanceOffAtSetVoltage, .SetVoltage, .SetPulse, .DRAMCellCapacitance, .RetentionTime]

theorem CheckedKey.mem_all (key : CheckedKey) : key ∈ CheckedKey.all := by cases key <;> decide

/-- `float(p[key])` -/
def floatAt (p : PyDict CellValue) (key : CheckedKey) : Option ℚ :=
  (p.get? key.name).bind CellValue.toFloat

/-! ## Checks -/

def valid_sram (p : PyDict CellValue) : Bool :=
  match floatAt p .SRAMCellNMOSWidth, floatAt p .SRAMCellPMOSWidth, floatAt p .AccessCMOSWidth with
  | some wn, some wp, some wac =>
    if wac = 0 then false
    else if wn / wac < 2 then false
    else if wp / wac ≥ 1 then false
    else true
  | _, _, _ => false

def valid_rram (p : PyDict CellValue) : Bool :=
  match floatAt p .ResistanceOnAtSetVoltage, floatAt p .ResistanceOffAtSetVoltage,
    floatAt p .SetVoltage, floatAt p .SetPulse with
  | some ron, some roff, some vset, some pulse =>
    if ron = 0 then false
    else if roff / ron < 10 ∨ roff / ron > 1e4 then false
    else if pulse < 2 ∨ pulse > 50 then false
    else if vset < 1.5 ∨ vset > 5 then false
    else true
  | _, _, _, _ => false

def VDD_EDRAM : ℕ → Option ℚ
  | 65 => some 1.2
  | 45 => some 1.1
  | 32 => some 1.0
  | _ => none

def RETENTION_MAX : ℕ → Option ℚ
  | 65 => some 40
  | 45 => some 30
  | 32 => some 20
  | _ => none

def I_OFF_PER_METER : ℕ → Option ℚ
  | 22 => some 100e-9
  | 32 => some 50e-9
  | 45 => some 20e-9
  | 65 => some 5e-9
  | _ => none

/-- `float('inf')` is the top; a node that a table lacks gives none. -/
def max_retention_from_cell (c_cell access_width_f : ℚ) (process_node : ℕ) :
    Option (WithTop ℚ) :=
  (I_OFF_PER_METER process_node).bind fun i_off =>
    let w_access_m := access_width_f * process_node * 1e-9
    let i_leak := i_off * w_access_m
    if i_leak ≤ 0 then some ⊤
    else (VDD_EDRAM process_node).map fun vdd => ((c_cell * vdd / 2 / i_leak * 1e6 : ℚ) : WithTop ℚ)

def valid_edram (p : PyDict CellValue) (process_node : ℕ) : Bool :=
  match floatAt p .DRAMCellCapacitance, floatAt p .AccessCMOSWidth, floatAt p .RetentionTime with
  | some c, some wac, some tret =>
    let node_ceiling := (RETENTION_MAX process_node).getD 40
    if tret > node_ceiling then false
    else
      match max_retention_from_cell c wac process_node with
      | none => false
      | some t_max => if tret > t_max then false else true
  | _, _, _ => false

/-- The check `generate_synthetic_cells` makes. -/
def valid (mem_type : MemType) (process_node : ℕ) (p : PyDict CellValue) : Bool :=
  match mem_type with
  | .SRAM => valid_sram p
  | .RRAM => valid_rram p
  | .eDRAM => valid_edram p process_node

section
variable {p : PyDict CellValue} {process_node : ℕ}

theorem valid_sram_iff :
    valid_sram p = true ↔ ∃ wn wp wac, floatAt p .SRAMCellNMOSWidth = some wn ∧
      floatAt p .SRAMCellPMOSWidth = some wp ∧ floatAt p .AccessCMOSWidth = some wac ∧
      wac ≠ 0 ∧ 2 ≤ wn / wac ∧ wp / wac < 1 := by
  unfold valid_sram
  split
  · next wn wp wac hwn hwp hwac =>
    simp [hwn, hwp, hwac]
  · next hnone =>
    refine iff_of_false Bool.false_ne_true ?_
    rintro ⟨wn, wp, wac, hwn, hwp, hwac, -⟩
    exact hnone wn wp wac hwn hwp hwac

theorem valid_rram_iff :
    valid_rram p = true ↔ ∃ ron roff vset pulse, floatAt p .ResistanceOnAtSetVoltage = some ron ∧
      floatAt p .ResistanceOffAtSetVoltage = some roff ∧ floatAt p .SetVoltage = some vset ∧
      floatAt p .SetPulse = some pulse ∧ (ron ≠ 0 ∧ 10 ≤ roff / ron ∧ roff / ron ≤ 1e4) ∧
      (2 ≤ pulse ∧ pulse ≤ 50) ∧ 1.5 ≤ vset ∧ vset ≤ 5 := by
  unfold valid_rram
  split
  · next ron roff vset pulse hron hroff hvset hpulse =>
    simp [hron, hroff, hvset, hpulse, and_assoc]
  · next hnone =>
    refine iff_of_false Bool.false_ne_true ?_
    rintro ⟨ron, roff, vset, pulse, hron, hroff, hvset, hpulse, -⟩
    exact hnone ron roff vset pulse hron hroff hvset hpulse

theorem valid_edram_iff :
    valid_edram p process_node = true ↔ ∃ c wac tret, floatAt p .DRAMCellCapacitance = some c ∧
      floatAt p .AccessCMOSWidth = some wac ∧ floatAt p .RetentionTime = some tret ∧
      tret ≤ (RETENTION_MAX process_node).getD 40 ∧
      ∃ t_max, max_retention_from_cell c wac process_node = some t_max ∧ tret ≤ t_max := by
  unfold valid_edram
  split
  · next c wac tret hc hwac htret =>
    simp only [hc, hwac, htret, Option.some.injEq, exists_and_left, exists_eq_left']
    cases max_retention_from_cell c wac process_node with
    | none => simp
    | some t_max => simp
  · next hnone =>
    refine iff_of_false Bool.false_ne_true ?_
    rintro ⟨c, wac, tret, hc, hwac, htret, -⟩
    exact hnone c wac tret hc hwac htret

end

end Destiny.Sweep
