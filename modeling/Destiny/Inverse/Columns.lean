/-
  Destiny.Inverse.Columns

  The feature columns of the surrogate model, and the column lists of
  train_model.py and destiny_utils.py.

  * `Column` are the columns `build_features` leaves: numeric and derived ones,
    one-hot columns and the products of a roadmap with the capacity;
  * `LOG_NUMERIC_COLS` and `LOG2_CFG_COLS` are learnt as logarithms;
  * `all_opt_cols` are the columns an optimiser may search, `InVocab` the
    encodings it picks from (`build_gumbel_vocabs`).
-/

import Destiny.Inverse.Param
import Destiny.Lib.ExactMath

namespace Destiny.Inverse

open Lib

/-! ## Columns -/

/-- `CATEGORICAL_COLS` -/
inductive Category
  | mem_cell_type | device_roadmap | process_node_nm
  | CellInput_AccessType | CellInput_ReadMode | CellInput_ResetMode | CellInput_SetMode
  | CellInput_ReadFloating
  | data_local_wire_type | data_local_wire_repeater_type | data_local_wire_low_swing
  | data_global_wire_type | data_global_wire_repeater_type | data_global_wire_low_swing
  | data_area_optimization_level
  | tag_local_wire_type | tag_local_wire_repeater_type | tag_local_wire_low_swing
  | tag_global_wire_type | tag_global_wire_repeater_type | tag_global_wire_low_swing
  | tag_area_optimization_level
  deriving DecidableEq, Repr

/-- The columns of the feature table. -/
inductive Column
  | numeric (p : Param)
  | derived_sqrt_capacity
  | derived_sqrt_area
  | derived_read_v_sq
  | derived_cap_per_die
  | derived_rows_per_die
  /-- `{cat}_{val}` -/
  | oneHot (cat : Category) (val : String)
  /-- `device_roadmap_{rm}_x_log10_cap` -/
  | roadmap_x_log10_cap (rm : String)
  deriving DecidableEq, Repr

/-- The technology of a model. -/
inductive Tech
  | SRAM
  | eDRAM
  | RRAM
  deriving DecidableEq, Repr

/-! ## Column lists -/

open Param

def LOG_NUMERIC_COLS : List Param :=
  [capacity_kb,
   CellInput_CellArea, CellInput_SRAMCellNMOSWidth, CellInput_SRAMCellPMOSWidth,
   CellInput_AccessCMOSWidth, CellInput_ResistanceOnAtSetVoltage,
   CellInput_ResistanceOffAtSetVoltage, CellInput_ResistanceOnAtResetVoltage,
   CellInput_ResistanceOffAtResetVoltage, CellInput_ResistanceOnAtReadVoltage,
   CellInput_ResistanceOffAtReadVoltage, CellInput_ResistanceOnAtHalfResetVoltage,
   CellInput_CapacitanceOn, CellInput_CapacitanceOff, CellInput_DRAMCellCapacitance,
   CellInput_ReadEnergy, CellInput_ResetEnergy, CellInput_SetEnergy]

def LOG2_CFG_COLS : List Param :=
  [word_width_bits, associativity, data_stacked_die_count,
   data_mux_sense_amp, data_mux_output_lev1, data_mux_output_lev2,
   data_num_active_mat_per_row, data_num_active_mat_per_col,
   tag_num_row_mat, tag_num_col_mat,
   tag_mux_sense_amp, tag_mux_output_lev1, tag_mux_output_lev2,
   tag_num_active_mat_per_row, tag_num_active_mat_per_col]

def BASE_ARCH_COLS : List Param :=
  [capacity_kb, word_width_bits, associativity, data_stacked_die_count]

/-- The keys of `DATA_PARAM_BOUNDS_LOG2`. -/
def DATA_PARAM_LOG2 : List Param :=
  [data_mux_sense_amp, data_mux_output_lev1, data_mux_output_lev2,
   data_num_active_mat_per_row, data_num_active_mat_per_col,
   tag_num_row_mat, tag_num_col_mat, tag_mux_sense_amp, tag_mux_output_lev1,
   tag_mux_output_lev2, tag_num_active_mat_per_row, tag_num_active_mat_per_col]

/-- The keys of `DATA_PARAM_BOUNDS_LINEAR`. -/
def DATA_PARAM_LINEAR : List Param :=
  [data_num_active_subarray_per_row, data_num_active_subarray_per_col,
   tag_num_active_subarray_per_row, tag_num_active_subarray_per_col, CellInput_CellAspectRatio]

/-- The keys of `SRAM_CELL_BOUNDS_LOG10`. -/
def SRAM_CELL_LOG10 : List Param :=
  [CellInput_SRAMCellNMOSWidth, CellInput_SRAMCellPMOSWidth, CellInput_AccessCMOSWidth]

/-- The keys of `SRAM_CELL_BOUNDS_LINEAR`. -/
def SRAM_CELL_LINEAR : List Param := [CellInput_ReadVoltage]

/-! ## What an optimiser searches -/

/-- `_all_opt_cols`: the columns of the tables above that are trained features. -/
def all_opt_cols (tech : Tech) (feature_cols : List Column) : List Param :=
  (BASE_ARCH_COLS ++ DATA_PARAM_LOG2 ++ DATA_PARAM_LINEAR ++
    (if tech = .SRAM then SRAM_CELL_LOG10 ++ SRAM_CELL_LINEAR else [])).filter
      fun p => .numeric p ∈ feature_cols

/-- The trained values of a category. -/
def categoryValues (feature_cols : List Column) (cat : Category) : List String :=
  feature_cols.filterMap fun
    | .oneHot cat' val => if cat' = cat then some val else none
    | _ => none

/-- `categorical_vocabs`: the categories with a choice, but those the context
    pins. -/
def hasVocab (feature_cols : List Column) (cat : Category) : Prop :=
  cat ∉ [Category.mem_cell_type, .device_roadmap, .process_node_nm] ∧
    1 < (categoryValues feature_cols cat).length

instance (feature_cols : List Column) (cat : Category) : Decidable (hasVocab feature_cols cat) :=
  inferInstanceAs (Decidable (_ ∧ _))

section
variable {K : Type} [Field K] [LinearOrder K]

/-- The values of `_linear_grid`. -/
def InGrid (M : ExactMath K) (lo hi step e : K) : Prop :=
  e = hi ∨ ∃ i : ℕ, ((i + 1 : ℕ) : K) < max 2 (M.round ((hi - lo) / step) + 1) ∧
    e = lo + i * step

/-- A value of `_log2_vocab`. -/
def InLog2 (M : ExactMath K) (phys_values : List ℕ) (e : K) : Prop :=
  ∃ v ∈ phys_values, e = M.log2 (v : K)

/-- `build_gumbel_vocabs`: the encodings of a column. -/
def InVocab (M : ExactMath K) (tech : Tech) (e : K) : Param → Prop
  | .capacity_kb =>
      ∃ v ∈ [2, 4, 8, 16, 32, 64, 128, 256, 512, 1024, 2048, 4096, 8192, 16384, 32768],
        e = M.log10 ((v : ℕ) : K)
  | .word_width_bits => InLog2 M [64, 128, 256, 512, 1024, 2048] e
  | .associativity => InLog2 M [1, 2, 4, 8, 16, 32, 64] e
  | .data_stacked_die_count => InLog2 M [1, 2, 4, 8, 16] e
  | .data_mux_sense_amp | .data_mux_output_lev1 | .data_mux_output_lev2
  | .tag_mux_sense_amp | .tag_mux_output_lev1 | .tag_mux_output_lev2 =>
      InLog2 M [1, 2, 4, 8, 16, 32, 64] e
  | .data_num_row_mat | .data_num_col_mat | .tag_num_row_mat | .tag_num_col_mat
  | .data_num_active_mat_per_row | .data_num_active_mat_per_col
  | .tag_num_active_mat_per_row | .tag_num_active_mat_per_col =>
      InLog2 M [1, 2, 4, 8, 16] e
  | .data_num_active_subarray_per_row | .data_num_active_subarray_per_col
  | .tag_num_active_subarray_per_row | .tag_num_active_subarray_per_col => e = 1 ∨ e = 2
  | .CellInput_SRAMCellNMOSWidth =>
      if tech = .SRAM then InGrid M (M.log10 2.2) (M.log10 2.5) 0.01 e else e = 0 ∨ e = 1
  | .CellInput_SRAMCellPMOSWidth =>
      if tech = .SRAM then InGrid M (M.log10 1.0) (M.log10 1.1) 0.01 e else e = 0 ∨ e = 1
  | .CellInput_AccessCMOSWidth =>
      if tech = .SRAM then InGrid M (M.log10 1.1) (M.log10 1.25) 0.01 e else e = 0 ∨ e = 1
  | .CellInput_ReadVoltage =>
      if tech = .SRAM then InGrid M 0.5 1.2 0.05 e else e = 0 ∨ e = 1
  | _ => e = 0 ∨ e = 1

/-- The columns `_snap_design_gumbel` decodes as powers of two: word width, ways
    and dies, muxes and mats. -/
def SNAP_LOG2_COLS : List Param :=
  [word_width_bits, associativity, data_stacked_die_count,
   data_mux_sense_amp, data_mux_output_lev1, data_mux_output_lev2,
   tag_mux_sense_amp, tag_mux_output_lev1, tag_mux_output_lev2,
   data_num_row_mat, data_num_col_mat, tag_num_row_mat, tag_num_col_mat,
   data_num_active_mat_per_row, data_num_active_mat_per_col,
   tag_num_active_mat_per_row, tag_num_active_mat_per_col]

/-- `_snap_design_gumbel`: the physical value of an encoding, before its
    rounding. -/
def decode (M : LogMath K) (p : Param) (e : K) : K :=
  if p = .capacity_kb then M.exp10 e
  else if p ∈ SNAP_LOG2_COLS then M.exp2 e
  else if p ∈ SRAM_CELL_LOG10 then M.exp10 e
  else e

end

end Destiny.Inverse
