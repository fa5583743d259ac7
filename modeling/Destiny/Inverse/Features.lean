/-
  Destiny.Inverse.Features

  The feature vector of the two Gumbel optimisers
  (inverse_design_gumbel_target.py and inverse_design_gumbel_objective.py).

  * `base_x` holds what does not change from step to step;
  * `_build_feature_vector` overwrites the dynamic columns in five stages:
    searched numbers, searched categories, derived columns, SRAM cell columns
    and roadmap products.

  The scripts are near copies; where they differ, a definition takes the
  `Optimiser`.  A missing key ends the call (`none`).
-/

import Destiny.Inverse.Train
import Destiny.Inverse.Penalties

namespace Destiny.Inverse

open Lib

variable {K : Type} [Field K] [LinearOrder K]

/-- The two scripts. -/
inductive Optimiser
  | target
  | objective
  deriving DecidableEq, Repr

/-- What `build_fixed_context` returns: a one-hot node and roadmap, and the
    parameters fixed on the command line. -/
structure FixedContext (K : Type) where
  process_node_nm : String
  device_roadmap : String
  num : Dict K
  cat : Category → Option String

namespace FixedContext

variable (fixed : FixedContext K)

/-- `fixed_context.get(f"{cat}_{val}", 0.0)` -/
def oneHot : Category → String → K
  | .process_node_nm, val => indicator (val = fixed.process_node_nm)
  | .device_roadmap, val => indicator (val = fixed.device_roadmap)
  | _, _ => 0

/-- `float(fixed_context.get(c, 0.0))` for a feature column -/
def getColumn : Column → K
  | .numeric p => fixed.num.get p 0
  | .oneHot cat val => fixed.oneHot cat val
  | _ => 0

end FixedContext

/-! ## What a call searches -/

/-- What a call of `optimize` is made with. -/
structure Setup (K : Type) where
  tech : Tech
  feature_cols : List Column
  fixed_context : FixedContext K

namespace Setup

variable (s : Setup K)

def opt_cols : List Param :=
  (all_opt_cols s.tech s.feature_cols).filter fun p => (s.fixed_context.num p).isNone

/-- The categories in `opt_cats`. -/
def searched (cat : Category) : Prop :=
  hasVocab s.feature_cols cat ∧ s.fixed_context.cat cat = none

instance (cat : Category) : Decidable (s.searched cat) := inferInstanceAs (Decidable (_ ∧ _))

/-- The keys of `build_dyn_idx`, whether or not they are trained. -/
def dynamic : Column → Prop
  | .numeric p => p ∈ s.opt_cols ∨ p = .CellInput_CellArea ∨ p = .CellInput_MinSenseVoltage
  | .oneHot cat _ => s.searched cat
  | .roadmap_x_log10_cap rm => rm ∈ ["HP", "LOP", "LSTP"]
  | _ => True

instance (c : Column) : Decidable (s.dynamic c) := by
  cases c <;> unfold dynamic <;> infer_instance

end Setup

/-! ## The base vector -/

/-- A static column: the objective script applies the logarithms the columns
    are learnt with, the target script takes the value as it is. -/
def staticValue (M : LogMath K) (o : Optimiser) (fixed : FixedContext K) (c : Column) : K :=
  let raw_val := fixed.getColumn c
  match o, c with
  | .objective, .numeric p =>
      if p ∈ LOG_NUMERIC_COLS then M.log10 (max (10 ^ (-12 : ℤ)) raw_val)
      else if p ∈ LOG2_CFG_COLS then M.log2 (max 1 raw_val)
      else raw_val
  | _, _ => raw_val

def base_x (M : LogMath K) (o : Optimiser) (s : Setup K) (c : Column) : K :=
  if s.dynamic c then 0 else staticValue M o s.fixed_context c

/-! ## The stages -/

/-- Searched numbers are filled in as they are encoded. -/
def fillEncoded (s : Setup K) (encoded_vals_dict : Dict K) (x : Column → K) : Column → K
  | .numeric p =>
      match encoded_vals_dict p with
      | some enc_val => if s.dynamic (.numeric p) then enc_val else x (.numeric p)
      | none => x (.numeric p)
  | c => x c

/-- Searched categories are filled in from their weights. -/
def fillCategories (s : Setup K) (cat_encoded_dict : Category → Option (String → K))
    (x : Column → K) : Column → K
  | .oneHot cat val =>
      match cat_encoded_dict cat with
      | some y_st => if s.dynamic (.oneHot cat val) then y_st val else x (.oneHot cat val)
      | none => x (.oneHot cat val)
  | c => x c

def stk_phys (M : LogMath K) (encoded_vals_dict : Dict K) (fixed : FixedContext K) : K :=
  match encoded_vals_dict .data_stacked_die_count with
  | some e => M.exp2 e
  | none => fixed.num.get .data_stacked_die_count 1

/-- The word width the derived columns use: the target script raises two to a
    fixed word width. -/
def ww_phys (M : LogMath K) (o : Optimiser) (encoded_vals_dict : Dict K)
    (fixed : FixedContext K) : K :=
  match encoded_vals_dict .word_width_bits with
  | some e => M.exp2 e
  | none =>
      match o with
      | .target => M.exp2 (fixed.num.get .word_width_bits 6)
      | .objective => fixed.num.get .word_width_bits 64

/-- Derived columns, all of them dynamic. -/
def fillDerived (M : LogMath K) (o : Optimiser) (encoded_vals_dict : Dict K)
    (fixed : FixedContext K) (cap_enc : K) (x : Column → K) : Column → K
  | .derived_sqrt_capacity => M.sqrt (M.exp10 cap_enc)
  | .derived_cap_per_die => M.exp10 cap_enc / stk_phys M encoded_vals_dict fixed
  | .derived_rows_per_die =>
      M.exp10 cap_enc * 1024 /
        (ww_phys M o encoded_vals_dict fixed * stk_phys M encoded_vals_dict fixed)
  | c => x c

/-- `A_VTH_BY_NODE.get(node, 3.0)`, by the node's digits -/
def A_VTH_BY_NODE (node : String) : K :=
  if node = "65" then 5
  else if node = "45" then 4
  else if node = "32" then 3
  else if node = "22" then 2.5
  else 3

/-- The area of an SRAM cell from its transistor widths. -/
def cell_area (wn wp wac : K) : K := min (max (55 + 30 * max wn wac + 20 * (wp + 0.5)) 40) 200

/-- The sense voltage from the mismatch of the access transistors. -/
def v_sense (M : LogMath K) (node : String) (wac : K) : K :=
  min (max (6 * A_VTH_BY_NODE node / M.sqrt (2 * wac)) 5) 80

/-- What `_update_sram_cell_features` writes. -/
def cellFeatures (M : LogMath K) (node : String) (wn wp wac rv : K) (x : Column → K) : Column → K
  | .numeric .CellInput_CellArea => M.log10 (cell_area wn wp wac)
  | .derived_sqrt_area => M.sqrt (cell_area wn wp wac)
  | .derived_read_v_sq => rv ^ 2
  | .numeric .CellInput_MinSenseVoltage => v_sense M node wac
  | c => x c

/-- `_update_sram_cell_features`: fails unless all widths are searched. -/
def update_sram_cell_features (M : LogMath K) (encoded_vals_dict : Dict K)
    (fixed : FixedContext K) (x : Column → K) : Option (Column → K) := do
  let wn := M.exp10 (← encoded_vals_dict .CellInput_SRAMCellNMOSWidth)
  let wp := M.exp10 (← encoded_vals_dict .CellInput_SRAMCellPMOSWidth)
  let wac := M.exp10 (← encoded_vals_dict .CellInput_AccessCMOSWidth)
  let rv := encoded_vals_dict.get .CellInput_ReadVoltage (fixed.num.get .CellInput_ReadVoltage 1)
  return cellFeatures M fixed.process_node_nm wn wp wac rv x

/-- Some cell parameter of an SRAM design is searched. -/
def updatesCell (tech : Tech) (encoded_vals_dict : Dict K) : Prop :=
  tech = .SRAM ∧ ∃ p ∈ SRAM_CELL_LOG10 ++ SRAM_CELL_LINEAR, (encoded_vals_dict p).isSome = true

instance (tech : Tech) (encoded_vals_dict : Dict K) :
    Decidable (updatesCell tech encoded_vals_dict) := inferInstanceAs (Decidable (_ ∧ _))

/-- Products with the three roadmaps the scripts know. -/
def fillRoadmap (fixed : FixedContext K) (cap_enc : K) (x : Column → K) : Column → K
  | .roadmap_x_log10_cap rm =>
      if rm ∈ ["HP", "LOP", "LSTP"] then fixed.oneHot .device_roadmap rm * cap_enc
      else x (.roadmap_x_log10_cap rm)
  | c => x c

/-! ## The vector -/

def build_feature_vector (M : LogMath K) (o : Optimiser) (s : Setup K) (base : Column → K)
    (encoded_vals_dict : Dict K) (cap_enc : K)
    (cat_encoded_dict : Category → Option (String → K)) : Option (Column → K) := do
  let x := fillEncoded s encoded_vals_dict base
  let x := fillCategories s cat_encoded_dict x
  let x := fillDerived M o encoded_vals_dict s.fixed_context cap_enc x
  let x ←
    if updatesCell s.tech encoded_vals_dict then
      update_sram_cell_features M encoded_vals_dict s.fixed_context x
    else some x
  return fillRoadmap s.fixed_context cap_enc x

/-- `cap_enc`: the logarithm of a fixed capacity, or the searched one. -/
def cap_enc (M : LogMath K) (s : Setup K) (encoded_vals_dict : Dict K) : Option K :=
  match s.fixed_context.num .capacity_kb with
  | some capacity_kb => some (M.log10 capacity_kb)
  | none => encoded_vals_dict .capacity_kb

/-- The features a step of `optimize` hands to the model. -/
def features (M : LogMath K) (o : Optimiser) (s : Setup K) (encoded_vals_dict : Dict K)
    (cat_encoded_dict : Category → Option (String → K)) : Option (Column → K) := do
  let cap ← cap_enc M s encoded_vals_dict
  build_feature_vector M o s (base_x M o s) encoded_vals_dict cap cat_encoded_dict

/-- The word width `compute_physics_penalties` uses. -/
def penalty_ww_phys (M : LogMath K) (s : Setup K) (encoded_vals_dict : Dict K) (cap : K) : K :=
  M.exp2 (locals M.toExactMath encoded_vals_dict s.fixed_context.num cap).ww_enc

end Destiny.Inverse
