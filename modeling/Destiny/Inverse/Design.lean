/-
  Destiny.Inverse.Design

  Designs over powers of two, and what the penalties say about them.

  * `Design` holds the exponents of a design; `Encodes` says which dictionaries
    describe it, `Feasible` what its geometry needs;
  * each term of `compute_physics_penalties` penalises one condition on the
    exponents (the lemmas of `Locals.Discrete`);
  * over feasible designs three conditions remain (`penalties_feasible`).
-/

import Destiny.Inverse.Penalties
import Mathlib.Tactic.Ring

namespace Destiny.Inverse

open Lib

/-! ## Designs -/

/-- The exponents of the counts of one array. -/
structure ArrayDesign where
  num_row_mat : ℕ
  num_col_mat : ℕ
  num_active_mat_per_row : ℕ
  num_active_mat_per_col : ℕ
  num_active_subarray_per_row : ℕ
  num_active_subarray_per_col : ℕ
  deriving DecidableEq, Repr

/-- The exponents of a cache design. -/
structure Design where
  capacity_kb : ℕ
  word_width_bits : ℕ
  associativity : ℕ
  data : ArrayDesign
  tag : ArrayDesign
  deriving DecidableEq, Repr

namespace ArrayDesign

/-- Log2 of the mats active together. -/
def active_mats (a : ArrayDesign) : ℕ := a.num_active_mat_per_row + a.num_active_mat_per_col

/-- Log2 of the subarrays active together. -/
def active_partitions (a : ArrayDesign) : ℕ :=
  a.active_mats + a.num_active_subarray_per_row + a.num_active_subarray_per_col

def total_mats (a : ArrayDesign) : ℕ := a.num_row_mat + a.num_col_mat

/-- No more mats are active in a row than there are columns, nor in a column
    than there are rows. -/
structure Nested (a : ArrayDesign) : Prop where
  per_row : a.num_active_mat_per_row ≤ a.num_col_mat
  per_col : a.num_active_mat_per_col ≤ a.num_row_mat

end ArrayDesign

namespace Design

/-- Log2 of the capacity in bits. -/
def cap_bits (d : Design) : ℕ := d.capacity_kb + 13

/-- The bits of a tag: 48 address bits less index and offset, valid and dirty. -/
def tag_width (d : Design) : ℤ := 40 - d.capacity_kb + d.associativity

/-- What the geometry of a design needs. -/
structure Feasible (d : Design) : Prop where
  data_nested : d.data.Nested
  tag_nested : d.tag.Nested
  /-- every active subarray of the data array holds a bit of the word -/
  data_partition : d.data.active_partitions ≤ d.word_width_bits
  /-- every active subarray of the tag array holds a bit of the tag -/
  tag_partition : ((2 ^ d.tag.active_partitions : ℕ) : ℤ) ≤ d.tag_width
  /-- every active tag mat holds a way -/
  tag_ways : d.tag.active_mats ≤ d.associativity
  /-- an address bit is left once inactive mats are gated -/
  data_address : d.word_width_bits + d.data.total_mats < d.cap_bits + d.data.active_mats
  tag_address : d.word_width_bits + d.associativity + d.tag.total_mats <
    d.cap_bits + d.tag.active_mats

end Design

/-! ## Dictionaries of a design -/

section
variable {K : Type} [Field K]

/-- The dictionary holds a value for the key, or the design has the default. -/
def Dict.Holds (dict : Dict K) (key : Param) (value : K) (isDefault : Prop) : Prop :=
  dict key = some value ∨ dict key = none ∧ isDefault

/-- The total data mats are searched both or, when only the active mats are,
    all mats are active. -/
inductive DataMats (dict : Dict K) (a : ArrayDesign) : Prop
  | encoded (hrow : dict .data_num_row_mat = some (a.num_row_mat : K))
      (hcol : dict .data_num_col_mat = some (a.num_col_mat : K))
  | active (hrow : dict .data_num_row_mat = none) (hcol : dict .data_num_col_mat = none)
      (hrows : a.num_row_mat = a.num_active_mat_per_col)
      (hcols : a.num_col_mat = a.num_active_mat_per_row)

/-- The dictionaries describe the design: mats, word width and associativity by
    their log2, the capacity by its log10, active subarrays by their count.
    Total subarrays are not searched. -/
structure Encodes (M : ExactMath K) (d : Design) (encoded_vals_dict fixed_context : Dict K)
    (cap_enc : K) : Prop where
  capacity_kb : cap_enc = M.log10 (2 ^ d.capacity_kb)
  word_width_bits : encoded_vals_dict.Holds .word_width_bits d.word_width_bits
    (fixed_context.get .word_width_bits 64 = 2 ^ d.word_width_bits)
  associativity : encoded_vals_dict.Holds .associativity d.associativity
    (fixed_context.get .associativity 4 = 2 ^ d.associativity)
  data_mats : DataMats encoded_vals_dict d.data
  data_num_active_mat_per_row : encoded_vals_dict.Holds .data_num_active_mat_per_row
    d.data.num_active_mat_per_row (d.data.num_active_mat_per_row = 0)
  data_num_active_mat_per_col : encoded_vals_dict.Holds .data_num_active_mat_per_col
    d.data.num_active_mat_per_col (d.data.num_active_mat_per_col = 0)
  data_num_active_subarray_per_row : encoded_vals_dict.Holds .data_num_active_subarray_per_row
    (2 ^ d.data.num_active_subarray_per_row) (d.data.num_active_subarray_per_row = 0)
  data_num_active_subarray_per_col : encoded_vals_dict.Holds .data_num_active_subarray_per_col
    (2 ^ d.data.num_active_subarray_per_col) (d.data.num_active_subarray_per_col = 0)
  tag_num_row_mat : encoded_vals_dict.Holds .tag_num_row_mat d.tag.num_row_mat
    (d.tag.num_row_mat = d.tag.num_active_mat_per_col)
  tag_num_col_mat : encoded_vals_dict.Holds .tag_num_col_mat d.tag.num_col_mat
    (d.tag.num_col_mat = d.tag.num_active_mat_per_row)
  tag_num_active_mat_per_row : encoded_vals_dict.Holds .tag_num_active_mat_per_row
    d.tag.num_active_mat_per_row (d.tag.num_active_mat_per_row = 0)
  tag_num_active_mat_per_col : encoded_vals_dict.Holds .tag_num_active_mat_per_col
    d.tag.num_active_mat_per_col (d.tag.num_active_mat_per_col = 0)
  tag_num_active_subarray_per_row : encoded_vals_dict.Holds .tag_num_active_subarray_per_row
    (2 ^ d.tag.num_active_subarray_per_row) (d.tag.num_active_subarray_per_row = 0)
  tag_num_active_subarray_per_col : encoded_vals_dict.Holds .tag_num_active_subarray_per_col
    (2 ^ d.tag.num_active_subarray_per_col) (d.tag.num_active_subarray_per_col = 0)
  tag_num_row_subarray : encoded_vals_dict .tag_num_row_subarray = none
  tag_num_col_subarray : encoded_vals_dict .tag_num_col_subarray = none

end

/-! ## Discrete values -/

section
variable {K : Type} [Field K] [LinearOrder K] [IsStrictOrderedRing K] {M : ExactMath K}

/-- Whole logarithms are divisible where their difference is not negative. -/
theorem penalises_divisibility {x y : K} {m n : ℕ} (hx : x = m) (hy : y = n) :
    Penalises (calculate_divisibility_penalty M x y) (n ≤ m) := by
  have hround : M.round (x - y) = x - y := by
    have h := M.round_intCast ((m : ℤ) - n)
    rw [hx, hy]
    push_cast at h
    exact h
  have hneg : Penalises (relu (-(x - y))) (n ≤ m) := by
    rw [neg_sub]
    exact (penalises_relu_sub y x).congr (by rw [hx, hy, Nat.cast_le])
  have hint : Penalises ((x - y - M.round (x - y)) ^ 2) True :=
    (penalises_sq _).congr (by rw [hround, sub_self]; exact iff_of_true rfl trivial)
  exact (hneg.add hint).congr (and_iff_left trivial)

/-- The rows are what the capacity leaves after ways, words and columns. -/
theorem penalises_rows_per_subarray {cap ww assoc mat_c sub_c : K} {c w a m s : ℕ}
    (hcap : cap * M.LOG2_10 + 13 = c) (hww : ww = w) (hassoc : assoc = a) (hmat : mat_c = m)
    (hsub : sub_c = s) :
    Penalises (calculate_rows_per_subarray_penalty M cap ww assoc mat_c sub_c)
      (a + w + m + s ≤ c) := by
  have hdiv : calculate_rows_per_subarray_penalty M cap ww assoc mat_c sub_c =
      calculate_divisibility_penalty M (cap * M.LOG2_10 + 13) (assoc + ww + mat_c + sub_c) := by
    have hrows : cap * M.LOG2_10 + 13 - assoc - ww - mat_c - sub_c =
        cap * M.LOG2_10 + 13 - (assoc + ww + mat_c + sub_c) := by ring
    simp only [calculate_rows_per_subarray_penalty, calculate_divisibility_penalty, hrows]
  rw [hdiv]
  refine penalises_divisibility hcap ?_
  rw [hww, hassoc, hmat, hsub]
  push_cast
  ring

/-- The partition of a word over powers of two, by exponents. -/
theorem penalises_partition {ww mat_r mat_c sub_r sub_c : K} {w m n s t : ℕ}
    (hww : ww = 2 ^ w) (hmr : mat_r = 2 ^ m) (hmc : mat_c = 2 ^ n) (hsr : sub_r = 2 ^ s)
    (hsc : sub_c = 2 ^ t) :
    Penalises (calculate_partition_penalty ww mat_r mat_c sub_r sub_c) (m + n + s + t ≤ w) := by
  have hpos : 0 < ww := by rw [hww]; positivity
  refine ((penalises_relu_sub (mat_r * mat_c * sub_r * sub_c) ww).div_const hpos).congr ?_
  rw [hmr, hmc, hsr, hsc, hww, ← pow_add, ← pow_add, ← pow_add,
    pow_le_pow_iff_right₀ one_lt_two]

namespace Locals

/-- The values the penalties see of a design; `total_r` and `total_c` are the
    total data mats as paired with the active mats of a row and of a column. -/
structure Discrete (M : ExactMath K) (x : Locals K) (d : Design) (total_r total_c : ℕ) :
    Prop where
  ww_enc : x.ww_enc = d.word_width_bits
  mat_r_enc : x.mat_r_enc = d.data.num_active_mat_per_row
  mat_c_enc : x.mat_c_enc = d.data.num_active_mat_per_col
  sub_r_phys : x.sub_r_phys = 2 ^ d.data.num_active_subarray_per_row
  sub_c_phys : x.sub_c_phys = 2 ^ d.data.num_active_subarray_per_col
  mat_total_r_enc : x.mat_total_r_enc = total_r
  mat_total_c_enc : x.mat_total_c_enc = total_c
  tag_mat_r_enc : x.tag_mat_r_enc = d.tag.num_active_mat_per_row
  tag_mat_c_enc : x.tag_mat_c_enc = d.tag.num_active_mat_per_col
  tag_mat_total_r_enc : x.tag_mat_total_r_enc = d.tag.num_col_mat
  tag_mat_total_c_enc : x.tag_mat_total_c_enc = d.tag.num_row_mat
  tag_sub_r_phys : x.tag_sub_r_phys = 1
  tag_sub_c_phys : x.tag_sub_c_phys = 1
  tag_sub_r_active_phys : x.tag_sub_r_active_phys = 2 ^ d.tag.num_active_subarray_per_row
  tag_sub_c_active_phys : x.tag_sub_c_active_phys = 2 ^ d.tag.num_active_subarray_per_col
  assoc_enc : x.assoc_enc = d.associativity
  cap_kb : x.cap_enc * M.LOG2_10 = d.capacity_kb

end Locals

/-- The tag width as the penalties use it, at least one. -/
def Design.tag_ww (d : Design) : ℕ := (max d.tag_width 1).toNat

namespace Locals.Discrete

variable {x : Locals K} {d : Design} {total_r total_c : ℕ}
  (h : x.Discrete M d total_r total_c)

include h

omit [LinearOrder K] [IsStrictOrderedRing K] in
theorem cap_bits_log2 : x.cap_bits_log2 M = d.cap_bits := by
  rw [Locals.cap_bits_log2, h.cap_kb, Design.cap_bits]
  push_cast
  ring

theorem tag_ww_enc : x.tag_ww_enc M = d.tag_ww := by
  have hcast : ((max d.tag_width 1 : ℤ) : K) = (d.tag_ww : K) := by
    have hpos : 0 ≤ max d.tag_width 1 := by omega
    rw [Design.tag_ww, ← Int.cast_natCast, Int.toNat_of_nonneg hpos]
  rw [Locals.tag_ww_enc, h.cap_kb, h.assoc_enc, clampMin, ← hcast, Design.tag_width]
  push_cast
  ring_nf

theorem partition_penalty :
    Penalises (x.partition_penalty M) (d.data.active_partitions ≤ d.word_width_bits) :=
  (penalises_partition (by rw [h.ww_enc, M.exp2_natCast]) (by rw [h.mat_r_enc, M.exp2_natCast])
    (by rw [h.mat_c_enc, M.exp2_natCast]) h.sub_r_phys h.sub_c_phys).const_mul (by norm_num)

theorem rows_penalty :
    Penalises (x.rows_penalty M) (d.associativity + d.word_width_bits +
      d.data.num_active_mat_per_col + d.data.num_active_subarray_per_col ≤ d.cap_bits) :=
  (penalises_rows_per_subarray h.cap_bits_log2 h.ww_enc h.assoc_enc h.mat_c_enc
    (by rw [h.sub_c_phys, M.log2_two_pow])).const_mul (by norm_num)

theorem active_vs_total_penalty :
    Penalises x.active_vs_total_penalty (d.data.num_active_mat_per_row ≤ total_r ∧
      d.data.num_active_mat_per_col ≤ total_c) := by
  refine ((penalises_relu_sub _ _).add (penalises_relu_sub _ _)).congr ?_
  rw [h.mat_r_enc, h.mat_total_r_enc, h.mat_c_enc, h.mat_total_c_enc, Nat.cast_le, Nat.cast_le]

theorem tag_active_vs_total_penalty :
    Penalises x.tag_active_vs_total_penalty (d.tag.num_active_mat_per_row ≤ d.tag.num_col_mat ∧
      d.tag.num_active_mat_per_col ≤ d.tag.num_row_mat) := by
  refine ((penalises_relu_sub _ _).add (penalises_relu_sub _ _)).congr ?_
  rw [h.tag_mat_r_enc, h.tag_mat_total_r_enc, h.tag_mat_c_enc, h.tag_mat_total_c_enc,
    Nat.cast_le, Nat.cast_le]

theorem tag_partition_penalty :
    Penalises (x.tag_partition_penalty M) (d.tag.active_mats ≤ d.tag_ww) :=
  -- total tag subarrays are never encoded, so each counts as one
  (penalises_partition (s := 0) (t := 0) (by rw [h.tag_ww_enc, M.exp2_natCast])
    (by rw [h.tag_mat_r_enc, M.exp2_natCast]) (by rw [h.tag_mat_c_enc, M.exp2_natCast])
    (by rw [h.tag_sub_r_phys, pow_zero]) (by rw [h.tag_sub_c_phys, pow_zero])).const_mul
      (by norm_num)

theorem data_cap_div_penalty :
    Penalises (x.data_cap_div_penalty M) (total_r + total_c ≤ d.cap_bits) :=
  (penalises_divisibility h.cap_bits_log2
    (by rw [h.mat_total_r_enc, h.mat_total_c_enc, Nat.cast_add])).const_mul (by norm_num)

theorem tag_cap_div_penalty :
    Penalises (x.tag_cap_div_penalty M) (d.tag.num_col_mat + d.tag.num_row_mat ≤ d.cap_bits) :=
  (penalises_divisibility h.cap_bits_log2
    (by rw [h.tag_mat_total_r_enc, h.tag_mat_total_c_enc, Nat.cast_add])).const_mul (by norm_num)

theorem data_ww_div_penalty :
    Penalises (x.data_ww_div_penalty M) (d.data.active_partitions ≤ d.word_width_bits) := by
  refine (penalises_divisibility h.ww_enc ?_).const_mul (by norm_num)
  rw [h.mat_r_enc, h.mat_c_enc, h.sub_r_phys, h.sub_c_phys, M.log2_two_pow, M.log2_two_pow,
    ArrayDesign.active_partitions, ArrayDesign.active_mats]
  push_cast
  ring

theorem tag_ww_div_penalty :
    Penalises (x.tag_ww_div_penalty M) (d.tag.active_partitions ≤ d.tag_ww) := by
  refine (penalises_divisibility h.tag_ww_enc ?_).const_mul (by norm_num)
  rw [h.tag_mat_r_enc, h.tag_mat_c_enc, h.tag_sub_r_active_phys, h.tag_sub_c_active_phys,
    M.log2_two_pow, M.log2_two_pow, ArrayDesign.active_partitions, ArrayDesign.active_mats]
  push_cast
  ring

theorem tag_assoc_div_penalty :
    Penalises (x.tag_assoc_div_penalty M) (d.tag.active_mats ≤ d.associativity) :=
  (penalises_divisibility h.assoc_enc
    (by rw [h.tag_mat_r_enc, h.tag_mat_c_enc, ArrayDesign.active_mats,
      Nat.cast_add])).const_mul (by norm_num)

theorem data_addr_penalty :
    Penalises (x.data_addr_penalty M) (d.word_width_bits + (total_r + total_c) + 1 ≤
      d.cap_bits + d.data.active_mats) := by
  refine ((penalises_relu_sub _ _).const_mul (by norm_num)).congr ?_
  rw [h.cap_bits_log2, h.ww_enc, h.mat_total_r_enc, h.mat_total_c_enc, h.mat_r_enc, h.mat_c_enc,
    ArrayDesign.active_mats, ← Nat.cast_le (α := K)]
  push_cast
  constructor <;> intro hle <;> linarith

theorem tag_addr_penalty :
    Penalises (x.tag_addr_penalty M) (d.word_width_bits + d.associativity +
      (d.tag.num_col_mat + d.tag.num_row_mat) + 1 ≤ d.cap_bits + d.tag.active_partitions) := by
  refine ((penalises_relu_sub _ _).const_mul (by norm_num)).congr ?_
  have hone : M.log2 1 = 0 := by simpa using M.log2_two_pow 0
  rw [h.cap_bits_log2, h.ww_enc, h.assoc_enc, h.tag_mat_total_r_enc, h.tag_mat_total_c_enc,
    h.tag_mat_r_enc, h.tag_mat_c_enc, h.tag_sub_r_phys, h.tag_sub_c_phys, h.tag_sub_r_active_phys,
    h.tag_sub_c_active_phys, hone, M.log2_two_pow, M.log2_two_pow, ArrayDesign.active_partitions,
    ArrayDesign.active_mats, ← Nat.cast_le (α := K)]
  push_cast
  constructor <;> intro hle <;> linarith

theorem tag_sub_active_vs_total_penalty :
    Penalises (x.tag_sub_active_vs_total_penalty M) True := by
  have hone : M.log2 1 = 0 := by simpa using M.log2_two_pow 0
  refine (((penalises_relu_sub _ _).const_mul (by norm_num)).add
    ((penalises_relu_sub _ _).const_mul (by norm_num))).congr (iff_true_intro ?_)
  rw [h.tag_sub_r_phys, h.tag_sub_c_phys, h.tag_sub_r_active_phys, h.tag_sub_c_active_phys, hone,
    M.log2_two_pow, M.log2_two_pow]
  exact ⟨Nat.cast_nonneg _, Nat.cast_nonneg _⟩

theorem tag_htree_depth_penalty :
    Penalises (x.tag_htree_depth_penalty M)
      (d.tag.num_active_mat_per_row + d.tag.num_active_subarray_per_row ≤ d.associativity) := by
  refine ((penalises_relu_sub _ _).const_mul (by norm_num)).congr ?_
  rw [h.tag_mat_r_enc, h.tag_sub_r_active_phys, M.log2_two_pow, h.assoc_enc, ← Nat.cast_add,
    Nat.cast_le]

end Locals.Discrete

/-! ## The sum -/

/-- What the penalties demand of a design beyond a feasible geometry. -/
structure Design.Unpenalised (d : Design) (encoded_vals_dict : Dict K) : Prop where
  /-- the capacity holds a word for every way in every active column -/
  rows : d.associativity + d.word_width_bits + d.data.num_active_mat_per_col +
    d.data.num_active_subarray_per_col ≤ d.cap_bits
  /-- searched data mats: no more mats are active in a row than there are rows,
      nor in a column than there are columns -/
  data_mats : encoded_vals_dict .data_num_row_mat ≠ none →
    d.data.num_active_mat_per_row ≤ d.data.num_row_mat ∧
      d.data.num_active_mat_per_col ≤ d.data.num_col_mat
  /-- the active mats and subarrays of a row of the tag array each hold a way -/
  tag_htree_depth : d.tag.num_active_mat_per_row + d.tag.num_active_subarray_per_row ≤
    d.associativity

section
variable {x : Locals K} {d : Design} {total_r total_c : ℕ}

/-- A tag that is wide enough for its partition is wide enough as an exponent. -/
theorem Design.Feasible.active_partitions_le_tag_ww (hd : d.Feasible) :
    d.tag.active_partitions ≤ d.tag_ww := by
  have hlt : d.tag.active_partitions < 2 ^ d.tag.active_partitions := Nat.lt_two_pow_self
  have hwidth := hd.tag_partition
  rw [Design.tag_ww]
  omega

/-- Over a feasible geometry all but three of the conditions hold. -/
theorem Locals.Discrete.total_penalises (h : x.Discrete M d total_r total_c) (hd : d.Feasible)
    (htotal : total_r + total_c = d.data.total_mats) :
    Penalises (x.total M) ((d.associativity + d.word_width_bits + d.data.num_active_mat_per_col +
      d.data.num_active_subarray_per_col ≤ d.cap_bits ∧
      (d.data.num_active_mat_per_row ≤ total_r ∧ d.data.num_active_mat_per_col ≤ total_c)) ∧
      d.tag.num_active_mat_per_row + d.tag.num_active_subarray_per_row ≤ d.associativity) := by
  have htagww := hd.active_partitions_le_tag_ww
  obtain ⟨⟨hrow, hcol⟩, ⟨htrow, htcol⟩, hword, -, hways, hdata, htag⟩ := hd
  have hpart : d.tag.active_mats ≤ d.tag.active_partitions := by
    rw [ArrayDesign.active_partitions]
    omega
  have hactive : d.data.active_mats ≤ d.data.active_partitions := by
    rw [ArrayDesign.active_partitions]
    omega
  rw [ArrayDesign.total_mats] at htag
  have hrows := (h.rows_penalty.add h.partition_penalty).congr (and_iff_left hword)
  rw [add_comm (x.rows_penalty M)] at hrows
  -- the terms in their order; those whose condition is implied drop out
  have hsum := hrows.add h.active_vs_total_penalty
  have hsum := hsum.add_holds h.tag_active_vs_total_penalty ⟨htrow, htcol⟩
  have hsum := hsum.add_holds h.tag_partition_penalty (hpart.trans htagww)
  have hsum := hsum.add_holds h.data_cap_div_penalty (by omega)
  have hsum := hsum.add_holds h.tag_cap_div_penalty (by omega)
  have hsum := hsum.add_holds h.data_ww_div_penalty hword
  have hsum := hsum.add_holds h.tag_ww_div_penalty htagww
  have hsum := hsum.add_holds h.tag_assoc_div_penalty hways
  have hsum := hsum.add_holds h.data_addr_penalty (by omega)
  have hsum := hsum.add_holds h.tag_addr_penalty (by omega)
  have hsum := hsum.add_holds h.tag_sub_active_vs_total_penalty trivial
  exact hsum.add h.tag_htree_depth_penalty

end

/-! ## Reading the dictionaries -/

section
variable {dict : Dict K} {key : Param} {v default : K} {P : Prop}

omit [Field K] [LinearOrder K] [IsStrictOrderedRing K] in
theorem Dict.Holds.get_eq (h : dict.Holds key v P) (hdefault : P → default = v) :
    dict.get key default = v := by
  rcases h with h | ⟨h, hP⟩
  · exact Dict.get_of_eq_some h
  · rw [Dict.get_of_eq_none h, hdefault hP]

end

section
variable {encoded_vals_dict fixed_context : Dict K} {cap_enc : K} {d : Design}

theorem clampMin_two_pow (n : ℕ) : clampMin 1 ((2 : K) ^ n) = 2 ^ n :=
  clampMin_of_le (one_le_pow₀ one_le_two)

/-- The function resolves what the dictionaries encode. -/
theorem Encodes.locals_discrete (h : Encodes M d encoded_vals_dict fixed_context cap_enc) :
    ∃ total_r total_c, total_r + total_c = d.data.total_mats ∧
      (encoded_vals_dict .data_num_row_mat ≠ none →
        total_r = d.data.num_row_mat ∧ total_c = d.data.num_col_mat) ∧
      (encoded_vals_dict .data_num_row_mat = none →
        total_r = d.data.num_active_mat_per_row ∧ total_c = d.data.num_active_mat_per_col) ∧
      (locals M encoded_vals_dict fixed_context cap_enc).Discrete M d total_r total_c := by
  -- a missing key stands for a dimension of one, and its default encodes that
  have hone {n : ℕ} (hn : n = 0) : (1 : K) = 2 ^ n := by rw [hn, pow_zero]
  have hzero {n : ℕ} (hn : n = 0) : (0 : K) = n := by rw [hn, Nat.cast_zero]
  have hlog {c : K} {n : ℕ} (hc : c = 2 ^ n) : M.log2 c = n := by rw [hc, M.log2_two_pow]
  have hcap : cap_enc * M.LOG2_10 = d.capacity_kb := by rw [h.capacity_kb, M.log10_two_pow]
  have hsub {key : Param} {n : ℕ} (hk : encoded_vals_dict.Holds key (2 ^ n) (n = 0)) :
      clampMin 1 (encoded_vals_dict.get key 1) = 2 ^ n := by
    rw [hk.get_eq hone, clampMin_two_pow]
  have htotal {key : Param} (hk : encoded_vals_dict key = none) :
      clampMin 1 (encoded_vals_dict.get key 1) = 1 := by
    rw [Dict.get_of_eq_none hk, clampMin_of_le le_rfl]
  have hmatr := h.data_num_active_mat_per_row.get_eq hzero
  have hmatc := h.data_num_active_mat_per_col.get_eq hzero
  have htmatr := h.tag_num_active_mat_per_row.get_eq hzero
  have htmatc := h.tag_num_active_mat_per_col.get_eq hzero
  -- all but the mats of the data array is encoded in one way
  have hdiscrete (total_r total_c : ℕ)
      (hr : encoded_vals_dict.get .data_num_row_mat
        (d.data.num_active_mat_per_row : K) = total_r)
      (hc : encoded_vals_dict.get .data_num_col_mat
        (d.data.num_active_mat_per_col : K) = total_c) :
      (locals M encoded_vals_dict fixed_context cap_enc).Discrete M d total_r total_c :=
    { ww_enc := h.word_width_bits.get_eq hlog
      mat_r_enc := hmatr
      mat_c_enc := hmatc
      sub_r_phys := hsub h.data_num_active_subarray_per_row
      sub_c_phys := hsub h.data_num_active_subarray_per_col
      mat_total_r_enc := by simp only [locals, hmatr, hr]
      mat_total_c_enc := by simp only [locals, hmatc, hc]
      tag_mat_r_enc := htmatr
      tag_mat_c_enc := htmatc
      tag_mat_total_r_enc := h.tag_num_col_mat.get_eq fun hcols => by rw [htmatr, hcols]
      tag_mat_total_c_enc := h.tag_num_row_mat.get_eq fun hrows => by rw [htmatc, hrows]
      tag_sub_r_phys := htotal h.tag_num_row_subarray
      tag_sub_c_phys := htotal h.tag_num_col_subarray
      tag_sub_r_active_phys := by
        simp only [locals, htotal h.tag_num_row_subarray,
          hsub h.tag_num_active_subarray_per_row]
      tag_sub_c_active_phys := by
        simp only [locals, htotal h.tag_num_col_subarray,
          hsub h.tag_num_active_subarray_per_col]
      assoc_enc := h.associativity.get_eq hlog
      cap_kb := hcap }
  -- the totals of the mats are searched, or they are the active ones
  cases h.data_mats with
  | encoded hrow hcol =>
      refine ⟨_, _, rfl, fun _ => ⟨rfl, rfl⟩, fun hnone => ?_,
        hdiscrete _ _ (Dict.get_of_eq_some hrow) (Dict.get_of_eq_some hcol)⟩
      rw [hrow] at hnone
      cases hnone
  | active hrow hcol hrows hcols =>
      refine ⟨d.data.num_active_mat_per_row, d.data.num_active_mat_per_col, ?_,
        fun hsome => absurd hrow hsome, fun _ => ⟨rfl, rfl⟩,
        hdiscrete _ _ (Dict.get_of_eq_none hrow) (Dict.get_of_eq_none hcol)⟩
      rw [ArrayDesign.total_mats, hrows, hcols]
      omega

/-- Over feasible geometries the penalties vanish exactly for the designs that
    meet the three further demands. -/
theorem penalties_feasible (h : Encodes M d encoded_vals_dict fixed_context cap_enc)
    (hd : d.Feasible) :
    compute_physics_penalties M encoded_vals_dict fixed_context cap_enc = 0 ↔
      d.Unpenalised encoded_vals_dict := by
  obtain ⟨total_r, total_c, htotal, hencoded, hactive, hdiscrete⟩ := h.locals_discrete
  rw [compute_physics_penalties, (hdiscrete.total_penalises hd htotal).2]
  constructor
  · rintro ⟨⟨hrows, hmats⟩, hdepth⟩
    refine ⟨hrows, fun hsome => ?_, hdepth⟩
    obtain ⟨hr, hc⟩ := hencoded hsome
    rwa [hr, hc] at hmats
  · rintro ⟨hrows, hmats, hdepth⟩
    refine ⟨⟨hrows, ?_⟩, hdepth⟩
    by_cases hnone : encoded_vals_dict .data_num_row_mat = none
    · obtain ⟨hr, hc⟩ := hactive hnone
      exact ⟨hr.ge, hc.ge⟩
    · obtain ⟨hr, hc⟩ := hencoded hnone
      rw [hr, hc]
      exact hmats hnone

end

end

end Destiny.Inverse
