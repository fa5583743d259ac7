/-
  Destiny.Inverse.FalsePenalty

  Which accepted designs `compute_physics_penalties` penalises.

  The simulator's checks imply eleven of the fourteen terms.  The other three
  do not follow them:

  * the rows term counts the active columns of mats and subarrays, which cost
    the simulator no row;
  * the data term compares the active mats of a row with the rows of mats, where
    the tag term compares them with the columns;
  * the H-tree term counts the active subarrays of a tag mat, over which
    `BankWithHtree::Initialize` distributes no ways.
-/

import Destiny.Inverse.Accepted

namespace Destiny

open Lib Inverse

/-- An accepted design has no penalty exactly when those three terms let it
    pass. -/
theorem no_false_penalty_iff {K : Type} [Field K] [LinearOrder K] [IsStrictOrderedRing K]
    (M : ExactMath K) (g : Globals) (ip : InputParameter) (partitionGranularity : Nat)
    (data tag : DesignPoint) (d : Design) (encoded_vals_dict fixed_context : Dict K) (cap_enc : K)
    (hdesc : d.Describes ip data tag) (hrep : d.Representable)
    (henc : Encodes M d encoded_vals_dict fixed_context cap_enc)
    (hacc : Accepted g ip partitionGranularity data tag) :
    compute_physics_penalties M encoded_vals_dict fixed_context cap_enc = 0 ↔
      d.Unpenalised encoded_vals_dict :=
  penalties_feasible henc (hacc.feasible hdesc hrep)

/-! ## A tag mat of two subarrays -/

/-- A 64 KiB cache of 64-bit words with `2 ^ ways` ways. -/
def smallCache (ways : ℕ) : InputParameter :=
  { InputParameter.construct default with
    capacity := 2 ^ 16
    wordWidth := 64
    associativity := 2 ^ ways }

/-- One mat with so many subarrays in a row, all active. -/
def oneMat (numColumnSubarray : Int) : DesignPoint where
  numRowMat := 1
  numColumnMat := 1
  stackedDieCount := 1
  numActiveMatPerRow := 1
  numActiveMatPerColumn := 1
  numRowSubarray := 1
  numColumnSubarray := numColumnSubarray
  numActiveSubarrayPerRow := numColumnSubarray
  numActiveSubarrayPerColumn := 1
  muxSenseAmp := 1
  muxOutputLev1 := 1
  muxOutputLev2 := 1
  numRowPerSet := 1
  areaOptimizationLevel := .latency_first

/-- The exponents of one mat with `2 ^ s` active subarrays in a row. -/
def oneMatDesign (s : ℕ) : ArrayDesign := ⟨0, 0, 0, 0, s, 0⟩

/-- One data subarray and two tag subarrays. -/
def twoTagSubarrays (ways : ℕ) : Design where
  capacity_kb := 6
  word_width_bits := 6
  associativity := ways
  data := oneMatDesign 0
  tag := oneMatDesign 1

theorem twoTagSubarrays_describes (ways : ℕ) :
    (twoTagSubarrays ways).Describes (smallCache ways) (oneMat 1) (oneMat 2) where
  cache := rfl
  capacity := rfl
  wordWidth := rfl
  associativity := rfl
  data := ⟨rfl, rfl, rfl, rfl, rfl, rfl, ⟨0, rfl⟩, ⟨0, rfl⟩, ⟨0, rfl⟩, ⟨0, rfl⟩, ⟨0, rfl⟩,
    ⟨0, rfl⟩, ⟨0, rfl⟩⟩
  tag := ⟨rfl, rfl, rfl, rfl, rfl, rfl, ⟨0, rfl⟩, ⟨0, rfl⟩, ⟨1, rfl⟩, ⟨0, rfl⟩, ⟨0, rfl⟩,
    ⟨0, rfl⟩, ⟨0, rfl⟩⟩

theorem twoTagSubarrays_representable (ways : ℕ) : (twoTagSubarrays ways).Representable :=
  Design.representable_of_vocab (show 6 ≤ 15 by decide) (show 6 ≤ 6 by decide)

/-- The searched parameters of that design; the others are left to their
    defaults. -/
noncomputable def searched (ways : ℕ) : Dict ℝ
  | .word_width_bits => some 6
  | .associativity => some ways
  | .tag_num_active_subarray_per_row => some 2
  | _ => none

noncomputable def cap64KB : ℝ := exactReal.log10 (2 ^ 6)

theorem searched_encodes (ways : ℕ) :
    Encodes exactReal (twoTagSubarrays ways) (searched ways) (fun _ => none) cap64KB where
  capacity_kb := rfl
  word_width_bits := .inl (by simp [searched, twoTagSubarrays])
  associativity := .inl rfl
  data_mats := .active rfl rfl rfl rfl
  data_num_active_mat_per_row := .inr ⟨rfl, rfl⟩
  data_num_active_mat_per_col := .inr ⟨rfl, rfl⟩
  data_num_active_subarray_per_row := .inr ⟨rfl, rfl⟩
  data_num_active_subarray_per_col := .inr ⟨rfl, rfl⟩
  tag_num_row_mat := .inr ⟨rfl, rfl⟩
  tag_num_col_mat := .inr ⟨rfl, rfl⟩
  tag_num_active_mat_per_row := .inr ⟨rfl, rfl⟩
  tag_num_active_mat_per_col := .inr ⟨rfl, rfl⟩
  tag_num_active_subarray_per_row := .inl (by simp [searched, twoTagSubarrays, oneMatDesign])
  tag_num_active_subarray_per_col := .inr ⟨rfl, rfl⟩
  tag_num_row_subarray := rfl
  tag_num_col_subarray := rfl

/-- The simulator accepts it direct mapped. -/
theorem direct_mapped_accepted :
    Accepted { sramGlobals with associativity := 1 } (smallCache 0) 0 (oneMat 1) (oneMat 2) where
  data_nested := ⟨by decide, by decide, by decide, by decide⟩
  tag_nested := ⟨by decide, by decide, by decide, by decide⟩
  tag_partition := by decide +kernel
  tag_bank := by decide +kernel
  data_partition := by decide
  data_bank := by decide +kernel

/-- The direct-mapped design is accepted and penalised: its one way is fewer
    than its two tag subarrays. -/
theorem direct_mapped_penalised :
    (twoTagSubarrays 0).Describes (smallCache 0) (oneMat 1) (oneMat 2) ∧
      Encodes exactReal (twoTagSubarrays 0) (searched 0) (fun _ => none) cap64KB ∧
      Accepted { sramGlobals with associativity := 1 } (smallCache 0) 0 (oneMat 1) (oneMat 2) ∧
      compute_physics_penalties exactReal (searched 0) (fun _ => none) cap64KB ≠ 0 := by
  refine ⟨twoTagSubarrays_describes 0, searched_encodes 0, direct_mapped_accepted, ?_⟩
  have hfeasible := direct_mapped_accepted.feasible (twoTagSubarrays_describes 0)
    (twoTagSubarrays_representable 0)
  rw [ne_eq, penalties_feasible (searched_encodes 0) hfeasible]
  intro h
  exact absurd h.tag_htree_depth (by decide)

/-- With two ways the same geometry has no penalty. -/
theorem no_false_penalty_iff_two_ways :
    compute_physics_penalties exactReal (searched 1) (fun _ => none) cap64KB = 0 :=
  (no_false_penalty_iff exactReal sramGlobals (smallCache 1) 0 (oneMat 1) (oneMat 2)
    (twoTagSubarrays 1) (searched 1) (fun _ => none) cap64KB (twoTagSubarrays_describes 1)
    (twoTagSubarrays_representable 1) (searched_encodes 1)
    { data_nested := ⟨by decide, by decide, by decide, by decide⟩
      tag_nested := ⟨by decide, by decide, by decide, by decide⟩
      tag_partition := by decide +kernel
      tag_bank := by decide +kernel
      data_partition := by decide
      data_bank := by decide +kernel }).mpr
    { rows := by decide
      data_mats := fun h => absurd rfl h
      tag_htree_depth := by decide }

end Destiny
