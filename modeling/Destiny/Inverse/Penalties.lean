/-
  Destiny.Inverse.Penalties

  `compute_physics_penalties` of inverse_physics_validity.py: fourteen terms
  that keep the optimiser away from designs the simulator rejects.

  * `Locals` are the values the function resolves first, from the encoded
    parameters, the fixed context and its defaults; mats are in log2, active
    subarrays are plain counts;
  * each penalty is a definition of its own over `Locals`;
  * `compute_physics_penalties` adds them up.
-/

import Destiny.Inverse.Param
import Destiny.Lib.ExactMath
import Destiny.Lib.Penalty

namespace Destiny.Inverse

open Lib

variable {K : Type} [Field K] [LinearOrder K]

/-! ## The three kinds of penalty -/

/-- `2^num_log2` should be divisible by `2^den_log2`. -/
def calculate_divisibility_penalty (M : ExactMath K) (num_log2 den_log2 : K) : K :=
  let diff := num_log2 - den_log2
  let neg_penalty := relu (-diff)
  let frac := diff - M.round diff
  let int_penalty := frac ^ 2
  neg_penalty + int_penalty

/-- The rows of a subarray should be a whole power of two. -/
def calculate_rows_per_subarray_penalty (M : ExactMath K)
    (cap_log10 ww_log2 assoc_log2 mat_c_log2 sub_c_log2 : K) : K :=
  let log2_cap_bits := cap_log10 * M.LOG2_10 + 13
  let log2_rps := log2_cap_bits - assoc_log2 - ww_log2 - mat_c_log2 - sub_c_log2
  let neg_penalty := relu (-log2_rps)
  let frac := log2_rps - M.round log2_rps
  let int_penalty := frac ^ 2
  neg_penalty + int_penalty

/-- The active product should be at most the word width. -/
def calculate_partition_penalty (ww_phys mat_r_phys mat_c_phys sub_r_phys sub_c_phys : K) : K :=
  let partition_phys := mat_r_phys * mat_c_phys * sub_r_phys * sub_c_phys
  relu (partition_phys - ww_phys) / ww_phys

/-! ## The resolved values -/

structure Locals (K : Type) where
  ww_enc : K
  mat_r_enc : K
  mat_c_enc : K
  sub_r_phys : K
  sub_c_phys : K
  mat_total_r_enc : K
  mat_total_c_enc : K
  tag_mat_r_enc : K
  tag_mat_c_enc : K
  tag_mat_total_r_enc : K
  tag_mat_total_c_enc : K
  tag_sub_r_phys : K
  tag_sub_c_phys : K
  tag_sub_r_active_phys : K
  tag_sub_c_active_phys : K
  assoc_enc : K
  cap_enc : K

/-- What the function reads, with its defaults. -/
def locals (M : ExactMath K) (encoded_vals_dict fixed_context : Dict K) (cap_enc : K) :
    Locals K :=
  let mat_r_enc := encoded_vals_dict.get .data_num_active_mat_per_row 0
  let mat_c_enc := encoded_vals_dict.get .data_num_active_mat_per_col 0
  let tag_mat_r_enc := encoded_vals_dict.get .tag_num_active_mat_per_row 0
  let tag_mat_c_enc := encoded_vals_dict.get .tag_num_active_mat_per_col 0
  let tag_sub_r_phys := clampMin 1 (encoded_vals_dict.get .tag_num_row_subarray 1)
  let tag_sub_c_phys := clampMin 1 (encoded_vals_dict.get .tag_num_col_subarray 1)
  { ww_enc := encoded_vals_dict.get .word_width_bits
      (M.log2 (fixed_context.get .word_width_bits 64))
    mat_r_enc := mat_r_enc
    mat_c_enc := mat_c_enc
    sub_r_phys := clampMin 1 (encoded_vals_dict.get .data_num_active_subarray_per_row 1)
    sub_c_phys := clampMin 1 (encoded_vals_dict.get .data_num_active_subarray_per_col 1)
    -- rows of mats default to, and are compared with, the active mats of a row
    mat_total_r_enc := encoded_vals_dict.get .data_num_row_mat mat_r_enc
    mat_total_c_enc := encoded_vals_dict.get .data_num_col_mat mat_c_enc
    tag_mat_r_enc := tag_mat_r_enc
    tag_mat_c_enc := tag_mat_c_enc
    -- the tag array pairs the active mats of a row with the columns of mats
    tag_mat_total_r_enc := encoded_vals_dict.get .tag_num_col_mat tag_mat_r_enc
    tag_mat_total_c_enc := encoded_vals_dict.get .tag_num_row_mat tag_mat_c_enc
    tag_sub_r_phys := tag_sub_r_phys
    tag_sub_c_phys := tag_sub_c_phys
    tag_sub_r_active_phys :=
      clampMin 1 (encoded_vals_dict.get .tag_num_active_subarray_per_row tag_sub_r_phys)
    tag_sub_c_active_phys :=
      clampMin 1 (encoded_vals_dict.get .tag_num_active_subarray_per_col tag_sub_c_phys)
    assoc_enc := encoded_vals_dict.get .associativity
      (M.log2 (fixed_context.get .associativity 4))
    cap_enc := cap_enc }

namespace Locals

variable (M : ExactMath K) (x : Locals K)

/-- The width of a tag: `40 - log2(capacity_kb) + log2(assoc)`.  The penalties
    use it as a logarithm. -/
def tag_ww_enc : K := clampMin 1 (40 - x.cap_enc * M.LOG2_10 + x.assoc_enc)

def cap_bits_log2 : K := x.cap_enc * M.LOG2_10 + 13

/-! ## The penalties -/

def partition_penalty : K :=
  50 * calculate_partition_penalty (M.exp2 x.ww_enc) (M.exp2 x.mat_r_enc) (M.exp2 x.mat_c_enc)
    x.sub_r_phys x.sub_c_phys

def active_vs_total_penalty : K :=
  relu (x.mat_r_enc - x.mat_total_r_enc) + relu (x.mat_c_enc - x.mat_total_c_enc)

def tag_active_vs_total_penalty : K :=
  relu (x.tag_mat_r_enc - x.tag_mat_total_r_enc) + relu (x.tag_mat_c_enc - x.tag_mat_total_c_enc)

def tag_partition_penalty : K :=
  50 * calculate_partition_penalty (M.exp2 (x.tag_ww_enc M)) (M.exp2 x.tag_mat_r_enc)
    (M.exp2 x.tag_mat_c_enc) x.tag_sub_r_phys x.tag_sub_c_phys

def rows_penalty : K :=
  20 * calculate_rows_per_subarray_penalty M x.cap_enc x.ww_enc x.assoc_enc x.mat_c_enc
    (M.log2 x.sub_c_phys)

def data_cap_div_penalty : K :=
  50 * calculate_divisibility_penalty M (x.cap_bits_log2 M)
    (x.mat_total_r_enc + x.mat_total_c_enc)

def tag_cap_div_penalty : K :=
  50 * calculate_divisibility_penalty M (x.cap_bits_log2 M)
    (x.tag_mat_total_r_enc + x.tag_mat_total_c_enc)

def data_ww_div_penalty : K :=
  50 * calculate_divisibility_penalty M x.ww_enc
    (x.mat_r_enc + x.mat_c_enc + M.log2 x.sub_r_phys + M.log2 x.sub_c_phys)

def tag_ww_div_penalty : K :=
  50 * calculate_divisibility_penalty M (x.tag_ww_enc M)
    (x.tag_mat_r_enc + x.tag_mat_c_enc + M.log2 x.tag_sub_r_active_phys +
      M.log2 x.tag_sub_c_active_phys)

def tag_assoc_div_penalty : K :=
  100 * calculate_divisibility_penalty M x.assoc_enc (x.tag_mat_r_enc + x.tag_mat_c_enc)

def data_addr_penalty : K :=
  let data_initial_address_bits := x.cap_bits_log2 M - x.ww_enc
  let data_address_bits_consumed :=
    (x.mat_total_r_enc + x.mat_total_c_enc) - (x.mat_r_enc + x.mat_c_enc) +
      (M.log2 x.sub_r_phys + M.log2 x.sub_c_phys) - (M.log2 x.sub_r_phys + M.log2 x.sub_c_phys)
  let data_address_bits_remaining := data_initial_address_bits - data_address_bits_consumed
  50 * relu (1 - data_address_bits_remaining)

def tag_addr_penalty : K :=
  let tag_initial_address_bits := x.cap_bits_log2 M - x.ww_enc - x.assoc_enc
  let tag_address_bits_consumed :=
    (x.tag_mat_total_r_enc + x.tag_mat_total_c_enc) - (x.tag_mat_r_enc + x.tag_mat_c_enc) +
      (M.log2 x.tag_sub_r_phys + M.log2 x.tag_sub_c_phys) -
      (M.log2 x.tag_sub_r_active_phys + M.log2 x.tag_sub_c_active_phys)
  let tag_address_bits_remaining := tag_initial_address_bits - tag_address_bits_consumed
  100 * relu (1 - tag_address_bits_remaining)

def tag_sub_active_vs_total_penalty : K :=
  100 * relu (M.log2 x.tag_sub_r_phys - M.log2 x.tag_sub_r_active_phys) +
    100 * relu (M.log2 x.tag_sub_c_phys - M.log2 x.tag_sub_c_active_phys)

def tag_htree_depth_penalty : K :=
  100 * relu (x.tag_mat_r_enc + M.log2 x.tag_sub_r_active_phys - x.assoc_enc)

def total : K :=
  x.partition_penalty M + x.rows_penalty M + x.active_vs_total_penalty +
    x.tag_active_vs_total_penalty + x.tag_partition_penalty M + x.data_cap_div_penalty M +
    x.tag_cap_div_penalty M + x.data_ww_div_penalty M + x.tag_ww_div_penalty M +
    x.tag_assoc_div_penalty M + x.data_addr_penalty M + x.tag_addr_penalty M +
    x.tag_sub_active_vs_total_penalty M + x.tag_htree_depth_penalty M

end Locals

def compute_physics_penalties (M : ExactMath K) (encoded_vals_dict fixed_context : Dict K)
    (cap_enc : K) : K :=
  (locals M encoded_vals_dict fixed_context cap_enc).total M

end Destiny.Inverse
