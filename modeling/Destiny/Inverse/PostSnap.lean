/-
  Destiny.Inverse.PostSnap

  `check_post_snap_partition` of inverse_physics_validity.py: the warnings about
  a snapped design, in physical units.

  The three warnings are those the function prints, with the numbers it prints;
  it raises where `math.log2` or `%` does.
-/

import Destiny.Inverse.Param
import Destiny.Lib.ExactMath

namespace Destiny.Inverse

open Lib

/-- What the function prints. -/
inductive PartitionWarning
  | partition (word_width partition_product mat_r mat_c sub_r sub_c : ℤ)
  | tag_partition (derived_tag_width tag_partition_product : ℤ)
  | tag_associativity (assoc active_mats : ℤ)
  deriving DecidableEq, Repr

/-- `if condition: print(warning)` -/
def warnIf (condition : Prop) [Decidable condition] (warning : PartitionWarning) :
    List PartitionWarning :=
  if condition then [warning] else []

theorem mem_warnIf {condition : Prop} [Decidable condition] {x warning : PartitionWarning} :
    x ∈ warnIf condition warning ↔ condition ∧ x = warning := by
  unfold warnIf
  split
  · next h => simp [h]
  · next h => simp [h]

/-- What the function raises. -/
inductive PythonError
  | ValueError
  | ZeroDivisionError
  deriving DecidableEq, Repr

variable {K : Type} [Field K] [LinearOrder K] [IsStrictOrderedRing K] [FloorRing K]

/-- `int(x)`: a number cut off towards zero. -/
def int (x : K) : ℤ := if 0 ≤ x then ⌊x⌋ else ⌈x⌉

@[simp] theorem int_intCast (n : ℤ) : int (n : K) = n := by
  unfold int
  split
  · exact Int.floor_intCast n
  · exact Int.ceil_intCast n

theorem int_of_eq_natCast {x : K} {n : ℕ} (h : x = n) : int x = n := by
  rw [h, ← Int.cast_natCast, int_intCast]

/-- The width of a tag in bits, at least two. -/
def derived_tag_width (M : ExactMath K) (capacity_kb : K) (assoc : ℤ) : ℤ :=
  max 2 (int (M.round (40 - M.log2 capacity_kb + M.log2 assoc)))

def check_post_snap_partition (M : ExactMath K) (design fixed_context : Dict K) :
    Except PythonError (List PartitionWarning) := do
  let ww := int (design.get .word_width_bits (fixed_context.get .word_width_bits 64))
  let mat_r := int (design.get .data_num_active_mat_per_row 1)
  let mat_c := int (design.get .data_num_active_mat_per_col 1)
  let sub_r := int (design.get .data_num_active_subarray_per_row 1)
  let sub_c := int (design.get .data_num_active_subarray_per_col 1)
  let partition_product := mat_r * mat_c * sub_r * sub_c
  let data := warnIf (ww < partition_product)
    (.partition ww partition_product mat_r mat_c sub_r sub_c)
  let tag_mat_r := int (design.get .tag_num_active_mat_per_row 1)
  let tag_mat_c := int (design.get .tag_num_active_mat_per_col 1)
  let tag_sub_r := int (design.get .tag_num_active_subarray_per_row 1)
  let tag_sub_c := int (design.get .tag_num_active_subarray_per_col 1)
  let tag_partition := tag_mat_r * tag_mat_c * tag_sub_r * tag_sub_c
  let capacity_kb := design.get .capacity_kb (fixed_context.get .capacity_kb 64)
  let assoc := int (design.get .associativity (fixed_context.get .associativity 4))
  -- the domain of `math.log2`
  if capacity_kb ≤ 0 ∨ assoc ≤ 0 then throw .ValueError
  let tag_ww := derived_tag_width M capacity_kb assoc
  let tag := warnIf (tag_ww < tag_partition) (.tag_partition tag_ww tag_partition)
  let tag_active_mats := tag_mat_r * tag_mat_c
  -- no positive count is above `assoc`, so `%` is evaluated
  if tag_active_mats = 0 then throw .ZeroDivisionError
  let ways := warnIf (assoc < tag_active_mats ∨ assoc.fmod tag_active_mats ≠ 0)
    (.tag_associativity assoc tag_active_mats)
  return data ++ tag ++ ways

/-- Some warning is about the partition of the tag array. -/
def ReportsTagPartition (M : ExactMath K) (design fixed_context : Dict K) : Prop :=
  ∃ warnings, check_post_snap_partition M design fixed_context = .ok warnings ∧
    ∃ width product, .tag_partition width product ∈ warnings

/-- The tag width over powers of two. -/
theorem derived_tag_width_eq (M : ExactMath K) {c m w : ℕ} (hw : (40 : ℤ) - c + m = w)
    (hclamp : 2 ≤ w) : derived_tag_width M (2 ^ c) (2 ^ m) = w := by
  have hlog : (40 : K) - M.log2 (2 ^ c) + M.log2 ((2 ^ m : ℤ) : K) = (w : ℤ) := by
    push_cast
    rw [M.log2_two_pow, M.log2_two_pow]
    exact_mod_cast congrArg (Int.cast (R := K)) hw
  rw [derived_tag_width, hlog, M.round_intCast, int_intCast]
  omega

/-- A tag partition is reported when it is larger than the tag width. -/
theorem reportsTagPartition_iff (M : ExactMath K) {design fixed_context : Dict K}
    {c m w mat_r mat_c sub_r sub_c : ℕ}
    (hcapacity : design.get .capacity_kb (fixed_context.get .capacity_kb 64) = 2 ^ c)
    (hassoc : design.get .associativity (fixed_context.get .associativity 4) = 2 ^ m)
    (hmatr : design.get .tag_num_active_mat_per_row 1 = mat_r)
    (hmatc : design.get .tag_num_active_mat_per_col 1 = mat_c)
    (hsubr : design.get .tag_num_active_subarray_per_row 1 = sub_r)
    (hsubc : design.get .tag_num_active_subarray_per_col 1 = sub_c)
    (hmats : mat_r * mat_c ≠ 0) (hw : (40 : ℤ) - c + m = w) (hclamp : 2 ≤ w) :
    ReportsTagPartition M design fixed_context ↔ w < mat_r * mat_c * (sub_r * sub_c) := by
  have hways : int (design.get .associativity (fixed_context.get .associativity 4)) = 2 ^ m := by
    rw [hassoc, int_of_eq_natCast (n := 2 ^ m) (by push_cast; rfl)]
    push_cast
    rfl
  -- neither logarithm raises
  have hdomain : ¬ ((2 ^ c : K) ≤ 0 ∨ (2 ^ m : ℤ) ≤ 0) := by
    rw [not_or, not_le, not_le]
    exact ⟨by positivity, by positivity⟩
  have hzero : ¬ (mat_r : ℤ) * mat_c = 0 := by exact_mod_cast hmats
  have hproduct :
      (w : ℤ) < mat_r * mat_c * sub_r * sub_c ↔ w < mat_r * mat_c * (sub_r * sub_c) := by
    rw [← mul_assoc]
    exact_mod_cast Iff.rfl
  unfold ReportsTagPartition check_post_snap_partition
  simp only [hcapacity, hways, if_neg hdomain, int_of_eq_natCast hmatr, int_of_eq_natCast hmatc,
    int_of_eq_natCast hsubr, int_of_eq_natCast hsubc, if_neg hzero,
    derived_tag_width_eq M hw hclamp]
  constructor
  · rintro ⟨warnings, hwarnings, width, product, hmem⟩
    obtain rfl := Except.ok.inj hwarnings
    simp only [List.mem_append, mem_warnIf, reduceCtorEq, and_false, or_false, false_or] at hmem
    exact hproduct.mp hmem.1
  · intro hlt
    refine ⟨_, rfl, w, mat_r * mat_c * sub_r * sub_c, ?_⟩
    simp only [List.mem_append, mem_warnIf, reduceCtorEq, and_false, or_false, false_or]
    exact ⟨hproduct.mpr hlt, trivial⟩

end Destiny.Inverse
