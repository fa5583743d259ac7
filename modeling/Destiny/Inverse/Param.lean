/-
  Destiny.Inverse.Param

  The parameters of a design as the inverse-design scripts name them, and the
  dictionaries they pass around.

  A parameter that the optimiser searches has an entry in `encoded_vals_dict`,
  in the encoding of its vocabulary; a parameter that the caller fixed has one
  in `fixed_context`, in physical units.
-/

import Mathlib.Algebra.Group.Defs

namespace Destiny.Inverse

/-- The numeric columns of the data table, and the keys of `encoded_vals_dict`
    and of the numbers in `fixed_context`. -/
inductive Param
  | capacity_kb
  | word_width_bits
  | associativity
  | data_stacked_die_count
  | data_mux_sense_amp
  | data_mux_output_lev1
  | data_mux_output_lev2
  | data_num_row_mat
  | data_num_col_mat
  | data_num_active_mat_per_row
  | data_num_active_mat_per_col
  | data_num_active_subarray_per_row
  | data_num_active_subarray_per_col
  | tag_num_row_mat
  | tag_num_col_mat
  | tag_mux_sense_amp
  | tag_mux_output_lev1
  | tag_mux_output_lev2
  | tag_num_active_mat_per_row
  | tag_num_active_mat_per_col
  | tag_num_row_subarray
  | tag_num_col_subarray
  | tag_num_active_subarray_per_row
  | tag_num_active_subarray_per_col
  | CellInput_CellAspectRatio
  /-- `CellInput_SRAMCellNMOSWidth (F)` -/
  | CellInput_SRAMCellNMOSWidth
  /-- `CellInput_SRAMCellPMOSWidth (F)` -/
  | CellInput_SRAMCellPMOSWidth
  /-- `CellInput_AccessCMOSWidth (F)` -/
  | CellInput_AccessCMOSWidth
  /-- `CellInput_ReadVoltage (V)` -/
  | CellInput_ReadVoltage
  | temperature_K
  /-- `CellInput_CellArea (F^2)` -/
  | CellInput_CellArea
  /-- `CellInput_MinSenseVoltage (mV)` -/
  | CellInput_MinSenseVoltage
  | CellInput_ResistanceOnAtSetVoltage
  | CellInput_ResistanceOffAtSetVoltage
  | CellInput_ResistanceOnAtResetVoltage
  | CellInput_ResistanceOffAtResetVoltage
  | CellInput_ResistanceOnAtReadVoltage
  | CellInput_ResistanceOffAtReadVoltage
  | CellInput_ResistanceOnAtHalfResetVoltage
  | CellInput_CapacitanceOn
  | CellInput_CapacitanceOff
  | CellInput_DRAMCellCapacitance
  | CellInput_ReadEnergy
  | CellInput_ResetEnergy
  | CellInput_SetEnergy
  /-- a numeric column the scripts do not name -/
  | other (name : String)
  deriving DecidableEq, Repr

/-- A dictionary of parameter values. -/
def Dict (K : Type) : Type := Param → Option K

/-- `dict.get(key, default)` -/
def Dict.get {K : Type} (dict : Dict K) (key : Param) (default : K) : K :=
  (dict key).getD default

section
variable {K : Type} {dict : Dict K} {key : Param}

theorem Dict.get_of_eq_some {v default : K} (h : dict key = some v) : dict.get key default = v := by
  rw [Dict.get, h, Option.getD_some]

theorem Dict.get_of_eq_none {default : K} (h : dict key = none) :
    dict.get key default = default := by
  rw [Dict.get, h, Option.getD_none]

end

end Destiny.Inverse
