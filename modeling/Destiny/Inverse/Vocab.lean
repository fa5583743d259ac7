/-
  Destiny.Inverse.Vocab

  The vocabularies of the searched columns and what the optimum is snapped to:
  `build_gumbel_vocabs` of destiny_utils.py and `_snap_design_gumbel` of
  inverse_design_gumbel_target.py.

  Both walk down a list of tests on the name of a column, among them which texts
  occur in it; the tables of bounds say for each column where its values are to
  lie.  `BoundsTables` are the tables that hold bounds of cell parameters, with any
  contents.
-/

import Mathlib.Data.List.Infix
import Destiny.Inverse.Columns
import Destiny.Lib.Grid

namespace Destiny.Inverse

open Lib Param

/-! ## Names of columns -/

/-- The column of the data table. -/
def Param.name : Param → String
  | capacity_kb => "capacity_kb"
  | word_width_bits => "word_width_bits"
  | associativity => "associativity"
  | data_stacked_die_count => "data_stacked_die_count"
  | data_mux_sense_amp => "data_mux_sense_amp"
  | data_mux_output_lev1 => "data_mux_output_lev1"
  | data_mux_output_lev2 => "data_mux_output_lev2"
  | data_num_row_mat => "data_num_row_mat"
  | data_num_col_mat => "data_num_col_mat"
  | data_num_active_mat_per_row => "data_num_active_mat_per_row"
  | data_num_active_mat_per_col => "data_num_active_mat_per_col"
  | data_num_active_subarray_per_row => "data_num_active_subarray_per_row"
  | data_num_active_subarray_per_col => "data_num_active_subarray_per_col"
  | tag_num_row_mat => "tag_num_row_mat"
  | tag_num_col_mat => "tag_num_col_mat"
  | tag_mux_sense_amp => "tag_mux_sense_amp"
  | tag_mux_output_lev1 => "tag_mux_output_lev1"
  | tag_mux_output_lev2 => "tag_mux_output_lev2"
  | tag_num_active_mat_per_row => "tag_num_active_mat_per_row"
  | tag_num_active_mat_per_col => "tag_num_active_mat_per_col"
  | tag_num_row_subarray => "tag_num_row_subarray"
  | tag_num_col_subarray => "tag_num_col_subarray"
  | tag_num_active_subarray_per_row => "tag_num_active_subarray_per_row"
  | tag_num_active_subarray_per_col => "tag_num_active_subarray_per_col"
  | CellInput_CellAspectRatio => "CellInput_CellAspectRatio"
  | CellInput_SRAMCellNMOSWidth => "CellInput_SRAMCellNMOSWidth (F)"
  | CellInput_SRAMCellPMOSWidth => "CellInput_SRAMCellPMOSWidth (F)"
  | CellInput_AccessCMOSWidth => "CellInput_AccessCMOSWidth (F)"
  | CellInput_ReadVoltage => "CellInput_ReadVoltage (V)"
  | temperature_K => "temperature_K"
  | CellInput_CellArea => "CellInput_CellArea (F^2)"
  | CellInput_MinSenseVoltage => "CellInput_MinSenseVoltage (mV)"
  | CellInput_ResistanceOnAtSetVoltage => "CellInput_ResistanceOnAtSetVoltage (ohm)"
  | CellInput_ResistanceOffAtSetVoltage => "CellInput_ResistanceOffAtSetVoltage (ohm)"
  | CellInput_ResistanceOnAtResetVoltage => "CellInput_ResistanceOnAtResetVoltage (ohm)"
  | CellInput_ResistanceOffAtResetVoltage => "CellInput_ResistanceOffAtResetVoltage (ohm)"
  | CellInput_ResistanceOnAtReadVoltage => "CellInput_ResistanceOnAtReadVoltage (ohm)"
  | CellInput_ResistanceOffAtReadVoltage => "CellInput_ResistanceOffAtReadVoltage (ohm)"
  | CellInput_ResistanceOnAtHalfResetVoltage => "CellInput_ResistanceOnAtHalfResetVoltage (ohm)"
  | CellInput_CapacitanceOn => "CellInput_CapacitanceOn (F)"
  | CellInput_CapacitanceOff => "CellInput_CapacitanceOff (F)"
  | CellInput_DRAMCellCapacitance => "CellInput_DRAMCellCapacitance (F)"
  | CellInput_ReadEnergy => "CellInput_ReadEnergy (pJ)"
  | CellInput_ResetEnergy => "CellInput_ResetEnergy (pJ)"
  | CellInput_SetEnergy => "CellInput_SetEnergy (pJ)"
  | other name => name

/-- `text in col` -/
def Param.Mentions (col : Param) (text : String) : Prop := text.toList <:+: col.name.toList

instance (col : Param) (text : String) : Decidable (col.Mentions text) :=
  inferInstanceAs (Decidable (_ <:+: _))

/-- The test for columns that count mats. -/
def Param.CountsMats (col : Param) : Prop :=
  col.Mentions "_mat_" ∨ col.Mentions "num_row_mat" ∨ col.Mentions "num_col_mat"

instance (col : Param) : Decidable col.CountsMats := inferInstanceAs (Decidable (_ ∨ _))

/-! ## Bounds -/

/-- `opt_cols` of an SRAM optimiser: the columns the caller fixed are taken out. -/
def opt_cols (feature_cols : List Column) (fixed_keys : List Param) : List Param :=
  (all_opt_cols .SRAM feature_cols).filter fun c => c ∉ fixed_keys

variable {K : Type} [Field K] [LinearOrder K]

/-- An entry of a table of bounds. -/
structure Interval (K : Type) [LT K] where
  lo : K
  hi : K
  lo_lt_hi : lo < hi

/-- The contents of the tables: of `DATA_PARAM_BOUNDS_LINEAR` only the entry that
    is no count.  The other two are read at their keys, `SRAM_CELL_LOG10` and
    `SRAM_CELL_LINEAR`. -/
structure BoundsTables (K : Type) [Zero K] [LT K] where
  cellAspectRatio : Interval K
  SRAM_CELL_BOUNDS_LOG10 : Param → Interval K
  SRAM_CELL_BOUNDS_LINEAR : Param → Interval K
  log10_pos (col : Param) : 0 < (SRAM_CELL_BOUNDS_LOG10 col).lo

/-- `BASE_ARCH_BOUNDS`, by the columns they are zipped with. -/
def BASE_ARCH_BOUNDS (M : ExactMath K) : Param → K × K
  | capacity_kb => (M.log10 2, M.log10 32768)
  | word_width_bits => (6, 11)
  | associativity => (0, 6)
  | _ => (0, 4)

/-- The exponents of `DATA_PARAM_BOUNDS_LOG2`. -/
def DATA_PARAM_BOUNDS_LOG2 : Param → ℕ × ℕ
  | data_num_active_mat_per_row => (0, 4)
  | data_num_active_mat_per_col => (0, 4)
  | _ => (0, 6)

def DATA_PARAM_BOUNDS_LINEAR (t : BoundsTables K) (col : Param) : K × K :=
  if col = CellInput_CellAspectRatio then (t.cellAspectRatio.lo, t.cellAspectRatio.hi) else (1, 2)

/-- The bounds of a column, as the table that has it for a key holds them. -/
def columnBounds (M : ExactMath K) (t : BoundsTables K) (col : Param) : K × K :=
  if col ∈ BASE_ARCH_COLS then BASE_ARCH_BOUNDS M col
  else if col ∈ DATA_PARAM_LOG2 then
    ((DATA_PARAM_BOUNDS_LOG2 col).1, (DATA_PARAM_BOUNDS_LOG2 col).2)
  else if col ∈ DATA_PARAM_LINEAR then DATA_PARAM_BOUNDS_LINEAR t col
  else if col ∈ SRAM_CELL_LOG10 then
    ((t.SRAM_CELL_BOUNDS_LOG10 col).lo, (t.SRAM_CELL_BOUNDS_LOG10 col).hi)
  else ((t.SRAM_CELL_BOUNDS_LINEAR col).lo, (t.SRAM_CELL_BOUNDS_LINEAR col).hi)

/-- A bound in the encoding of the vocabularies: only one table holds physical
    values of a column that is searched by its logarithm. -/
def encodeBound (M : ExactMath K) (col : Param) (x : K) : K :=
  if col ∈ SRAM_CELL_LOG10 then M.log10 x else x

/-- A bound in physical units: two tables hold logarithms. -/
def physicalBound (M : LogMath K) (col : Param) (x : K) : K :=
  if col ∈ BASE_ARCH_COLS ++ DATA_PARAM_LOG2 then decode M col x else x

/-! ## Vocabularies -/

def CAP_KB_PHYS : List ℕ :=
  [2, 4, 8, 16, 32, 64, 128, 256, 512, 1024, 2048, 4096, 8192, 16384, 32768]
def WW_PHYS : List ℕ := [64, 128, 256, 512, 1024, 2048]
def ASSOC_PHYS : List ℕ := [1, 2, 4, 8, 16, 32, 64]
def DIE_PHYS : List ℕ := [1, 2, 4, 8, 16]
def MUX_VALID : List ℕ := [1, 2, 4, 8, 16, 32, 64]
def MAT_VALID : List ℕ := [1, 2, 4, 8, 16]

def log10_vocab (M : ExactMath K) (phys_values : List ℕ) : List K :=
  phys_values.map fun v : ℕ => M.log10 v

def log2_vocab (M : ExactMath K) (phys_values : List ℕ) : List K :=
  phys_values.map fun v : ℕ => M.log2 v

/-- `_linear_grid`; the last of the `n` points is overwritten. -/
def linear_grid (M : OrderedMath K) (lo hi step : K) : List K :=
  let n := (max 2 (M.roundInt ((hi - lo) / step) + 1)).toNat
  let vals := (List.range n).map fun i : ℕ => lo + i * step
  vals.dropLast ++ [hi]

/-- The vocabulary of a column. -/
def gumbel_vocab (M : OrderedMath K) (t : BoundsTables K) (tech : Tech) (col : Param) : List K :=
  if col = capacity_kb then log10_vocab M.toExactMath CAP_KB_PHYS
  else if col = word_width_bits then log2_vocab M.toExactMath WW_PHYS
  else if col = associativity then log2_vocab M.toExactMath ASSOC_PHYS
  else if col = data_stacked_die_count then log2_vocab M.toExactMath DIE_PHYS
  else if col.Mentions "mux_" then log2_vocab M.toExactMath MUX_VALID
  else if col.CountsMats then log2_vocab M.toExactMath MAT_VALID
  else if col.Mentions "_subarray_" then [1, 2]
  else if tech = .SRAM ∧ col ∈ SRAM_CELL_LOG10 then
    linear_grid M (M.log10 (t.SRAM_CELL_BOUNDS_LOG10 col).lo)
      (M.log10 (t.SRAM_CELL_BOUNDS_LOG10 col).hi) 0.01
  else if tech = .SRAM ∧ col ∈ SRAM_CELL_LINEAR then
    linear_grid M (t.SRAM_CELL_BOUNDS_LINEAR col).lo (t.SRAM_CELL_BOUNDS_LINEAR col).hi 0.05
  else [0, 1]

def build_gumbel_vocabs (M : OrderedMath K) (t : BoundsTables K) (opt_cols : List Param)
    (tech : Tech) : List (Param × List K) :=
  opt_cols.map fun col => (col, gumbel_vocab M t tech col)

/-! ## Snapping -/

/-- `_SNAP_DECODERS`: the first test that holds says how a column is decoded. -/
def SNAP_DECODERS (M : OrderedMath K) : List ((Param → Bool) × (K → K)) :=
  [(fun c => c = capacity_kb, fun v => M.roundInt (M.exp10 v)),
   (fun c => c ∈ [word_width_bits, associativity, data_stacked_die_count],
     fun v => M.roundInt (M.exp2 v)),
   (fun c => c.Mentions "mux_", fun v => M.roundInt (M.exp2 v)),
   (fun c => c.CountsMats, fun v => M.roundInt (M.exp2 v)),
   (fun c => c.Mentions "_subarray_", fun v => M.roundInt v),
   (fun c => c ∈ SRAM_CELL_LOG10, fun v => M.roundDigits 4 (M.exp10 v)),
   (fun c => c ∈ SRAM_CELL_LINEAR, fun v => M.roundDigits 4 v)]

/-- Decoded by the first decoder whose test holds; without one it stays encoded. -/
def decodeFirst (decoders : List ((Param → Bool) × (K → K))) (col : Param) (enc_val : K) : K :=
  match decoders.find? fun d => d.1 col with
  | some (_, decoder) => decoder enc_val
  | none => enc_val

def snap (M : OrderedMath K) : Param → K → K := decodeFirst (SNAP_DECODERS M)

/-- The rounding of a snapped cell parameter moves no bound outwards. -/
def RoundedInside (M : OrderedMath K) (bounds : K × K) : Prop :=
  bounds.1 ≤ M.roundDigits 4 bounds.1 ∧ M.roundDigits 4 bounds.2 ≤ bounds.2

/-- The entry of the vocabulary with the largest logit, decoded.  It fails on a
    column without a vocabulary or without logits. -/
def snap_argmax (M : OrderedMath K) (vocabs : List (Param × List K)) :
    Param × List K → Option (Param × K)
  | (col, logit) => do
    let best_idx ← argmaxIndex logit
    let vocab ← vocabs.lookup col
    let enc_val ← vocab[best_idx]?
    return (col, snap M col enc_val)

/-- `_snap_design_gumbel` -/
def snap_design_gumbel (M : OrderedMath K) (vocabs logits_dict : List (Param × List K)) :
    Option (List (Param × K)) := logits_dict.mapM (snap_argmax M vocabs)

/-- What `optimize` passes on: for each searched column a logit per entry of its
    vocabulary. -/
structure FitsVocabs (vocabs logits_dict : List (Param × List K)) : Prop where
  cols : logits_dict.map Prod.fst = vocabs.map Prod.fst
  sizes : ∀ col logit vocab, (col, logit) ∈ logits_dict → (col, vocab) ∈ vocabs →
    logit.length = vocab.length

end Destiny.Inverse
