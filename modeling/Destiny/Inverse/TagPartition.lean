/-
  Destiny.Inverse.TagPartition

  The tag partition in the penalties, in the check after snapping and in the
  simulator.

  The check and the simulator compare the active partition with the width of a
  tag in bits.  The penalty raises two to that width, and takes the total
  subarrays for the active ones: `tag_partition_penalised`.
  `tag_partition_agrees_iff` says for which partitions the three agree.
-/

import Destiny.Inverse.FalsePenalty
import Destiny.Inverse.PostSnap

namespace Destiny.Inverse

open Lib

/-- The partition of a tag array. -/
structure TagPartition where
  num_active_mat_per_row : ℕ+
  num_active_mat_per_col : ℕ+
  num_active_subarray_per_row : ℕ+
  num_active_subarray_per_col : ℕ+
  num_row_subarray : ℕ+
  num_col_subarray : ℕ+
  deriving DecidableEq

namespace TagPartition

def active_mats (p : TagPartition) : ℕ := p.num_active_mat_per_row * p.num_active_mat_per_col

def active_subarrays (p : TagPartition) : ℕ :=
  p.num_active_subarray_per_row * p.num_active_subarray_per_col

def total_subarrays (p : TagPartition) : ℕ := p.num_row_subarray * p.num_col_subarray

theorem active_mats_pos (p : TagPartition) : 0 < p.active_mats :=
  Nat.mul_pos p.num_active_mat_per_row.pos p.num_active_mat_per_col.pos

theorem active_subarrays_pos (p : TagPartition) : 0 < p.active_subarrays :=
  Nat.mul_pos p.num_active_subarray_per_row.pos p.num_active_subarray_per_col.pos

/-! ## The three representations -/

section
variable {K : Type} [Field K] [LinearOrder K]

/-- The dictionaries of the optimiser: mats and associativity by their log2, the
    capacity by its log10, subarrays by their count. -/
structure Encodes (M : LogMath K) (p : TagPartition) (c m : ℕ)
    (encoded_vals_dict fixed_context : Dict K) (cap_enc : K) : Prop where
  capacity_kb : cap_enc = M.log10 (2 ^ c)
  associativity : encoded_vals_dict.Holds .associativity m
    (fixed_context.get .associativity 4 = 2 ^ m)
  num_active_mat_per_row : encoded_vals_dict.Holds .tag_num_active_mat_per_row
    (M.log2 (p.num_active_mat_per_row : ℕ)) (p.num_active_mat_per_row = 1)
  num_active_mat_per_col : encoded_vals_dict.Holds .tag_num_active_mat_per_col
    (M.log2 (p.num_active_mat_per_col : ℕ)) (p.num_active_mat_per_col = 1)
  num_active_subarray_per_row : encoded_vals_dict.Holds .tag_num_active_subarray_per_row
    (p.num_active_subarray_per_row : ℕ) (p.num_active_subarray_per_row = p.num_row_subarray)
  num_active_subarray_per_col : encoded_vals_dict.Holds .tag_num_active_subarray_per_col
    (p.num_active_subarray_per_col : ℕ) (p.num_active_subarray_per_col = p.num_col_subarray)
  num_row_subarray : encoded_vals_dict.Holds .tag_num_row_subarray
    (p.num_row_subarray : ℕ) (p.num_row_subarray = 1)
  num_col_subarray : encoded_vals_dict.Holds .tag_num_col_subarray
    (p.num_col_subarray : ℕ) (p.num_col_subarray = 1)

/-- The snapped design: every value in its physical unit. -/
structure Snapped (p : TagPartition) (c m : ℕ) (design fixed_context : Dict K) : Prop where
  capacity_kb : design.get .capacity_kb (fixed_context.get .capacity_kb 64) = 2 ^ c
  associativity : design.get .associativity (fixed_context.get .associativity 4) = 2 ^ m
  num_active_mat_per_row : design.get .tag_num_active_mat_per_row 1 =
    (p.num_active_mat_per_row : ℕ)
  num_active_mat_per_col : design.get .tag_num_active_mat_per_col 1 =
    (p.num_active_mat_per_col : ℕ)
  num_active_subarray_per_row : design.get .tag_num_active_subarray_per_row 1 =
    (p.num_active_subarray_per_row : ℕ)
  num_active_subarray_per_col : design.get .tag_num_active_subarray_per_col 1 =
    (p.num_active_subarray_per_col : ℕ)

end

/-- The input and the loop variables of the simulator.  A word is at least a
    byte, and the number of sets is a positive `int`. -/
structure Simulated (p : TagPartition) (c m : ℕ) (ip : InputParameter) (tag : DesignPoint) :
    Prop where
  capacity : ip.capacity = 2 ^ (c + 10)
  associativity : ip.associativity = 2 ^ m
  wordWidth : ∃ w, ip.wordWidth = 2 ^ w ∧ 3 ≤ w ∧ w + m ≤ c + 13 ∧ c + 13 < w + m + 31
  numActiveMatPerRow : tag.numActiveMatPerRow = (p.num_active_mat_per_row : ℕ)
  numActiveMatPerColumn : tag.numActiveMatPerColumn = (p.num_active_mat_per_col : ℕ)
  numActiveSubarrayPerRow : tag.numActiveSubarrayPerRow = (p.num_active_subarray_per_row : ℕ)
  numActiveSubarrayPerColumn :
    tag.numActiveSubarrayPerColumn = (p.num_active_subarray_per_col : ℕ)

end TagPartition

/-! ## The simulator -/

/-- main.cpp passes over the tag design, whatever the body of the nest does. -/
def DiscardsTag (ip : InputParameter) (tag : DesignPoint) : Prop :=
  ∀ body : Search Unit, partitioned ip.tagBits tag body = pure ()

theorem nonempty_state : Nonempty State :=
  ⟨{ inputParameter := InputParameter.construct default
     tech := default
     localWire := default
     globalWire := default
     cell := 0
     cellFile := ""
     best := fun _ t => Result.new default t 0
     temp := default
     numSolution := 0
     explored := []
     totalSolutions := 0
     trace := [] }⟩

theorem discardsTag_iff {ip : InputParameter} {tag : DesignPoint} (h : tag.activeProduct ≠ 0) :
    DiscardsTag ip tag ↔ ip.tagBits.tdiv tag.activeProduct = 0 := by
  have hbody (body : Search Unit) (s : State) : partitioned ip.tagBits tag body s =
      (if ip.tagBits.tdiv tag.activeProduct = 0 then pure () else body) s := by
    have hstop : stopIf (tag.activeProduct == 0) .crashed = pure () := by
      rw [stopIf, beq_false_of_ne h]
      rfl
    rw [partitioned, hstop, pure_bind]
  constructor
  · intro hall
    by_contra hne
    obtain ⟨s⟩ := nonempty_state
    -- a body that stops the run is not passed over
    have hthrow := hbody (throw .exited) s
    rw [hall, if_neg hne] at hthrow
    cases hthrow
  · intro hzero body
    funext s
    rw [hbody, if_pos hzero]

theorem TagPartition.Simulated.discards_iff {p : TagPartition} {c m w : ℕ} {ip : InputParameter}
    {tag : DesignPoint} (h : p.Simulated c m ip tag) (hw : (40 : ℤ) - c + m = w) :
    DiscardsTag ip tag ↔ w < p.active_mats * p.active_subarrays := by
  obtain ⟨e, hword, hbyte, hsets, hint⟩ := h.wordWidth
  have hproduct : tag.activeProduct = (p.active_mats * p.active_subarrays : ℕ) := by
    rw [DesignPoint.activeProduct, h.numActiveMatPerRow, h.numActiveMatPerColumn,
      h.numActiveSubarrayPerRow, h.numActiveSubarrayPerColumn, TagPartition.active_mats,
      TagPartition.active_subarrays]
    push_cast
    ring
  have hpositive : 0 < p.active_mats * p.active_subarrays :=
    Nat.mul_pos p.active_mats_pos p.active_subarrays_pos
  rw [discardsTag_iff (by omega), InputParameter.tagBits_eq h.capacity hword h.associativity hbyte
    hsets hint, hw, hproduct, ← Int.ofNat_tdiv, Int.natCast_eq_zero, Nat.div_eq_zero_iff]
  omega

/-! ## The penalty -/

section
variable {K : Type} [Field K] [LinearOrder K] [IsStrictOrderedRing K] {M : LogMath K}
  {p : TagPartition} {c m w : ℕ} {encoded_vals_dict fixed_context : Dict K} {cap_enc : K}

/-- The penalty is against mats and total subarrays above two to the tag width. -/
theorem TagPartition.Encodes.tag_partition_penalised
    (h : p.Encodes M c m encoded_vals_dict fixed_context cap_enc)
    (hw : (40 : ℤ) - c + m = w) (hpos : 0 < w) :
    Penalises ((locals M.toExactMath encoded_vals_dict fixed_context cap_enc).tag_partition_penalty
      M.toExactMath) (p.active_mats * p.total_subarrays ≤ 2 ^ w) := by
  generalize hx : locals M.toExactMath encoded_vals_dict fixed_context cap_enc = x
  -- mats are encoded as logarithms, subarrays as they are
  have hmat {key : Param} {n : ℕ+} (hk : encoded_vals_dict.Holds key (M.log2 (n : ℕ)) (n = 1)) :
      M.exp2 (encoded_vals_dict.get key 0) = (n : ℕ) := by
    have hone : (0 : K) = M.log2 (1 : ℕ) := by simpa using (M.log2_two_pow 0).symm
    rw [hk.get_eq fun hn => by rw [hn]; exact hone]
    exact M.exp2_log2 (Nat.cast_pos.mpr n.pos)
  have hsub {key : Param} {n : ℕ+} (hk : encoded_vals_dict.Holds key (n : ℕ) (n = 1)) :
      clampMin 1 (encoded_vals_dict.get key 1) = (n : ℕ) := by
    rw [hk.get_eq fun hn => by rw [hn]; simp]
    exact clampMin_of_le (Nat.one_le_cast.mpr n.pos)
  -- the width is at least 1, so the clamp leaves it
  have hwidth : x.tag_ww_enc M.toExactMath = w := by
    have hcap : cap_enc * M.LOG2_10 = c := by rw [h.capacity_kb, M.log10_two_pow]
    have hassoc : x.assoc_enc = m := by
      rw [← hx]
      exact h.associativity.get_eq fun hfixed => by rw [hfixed, M.log2_two_pow]
    have hcapenc : x.cap_enc = cap_enc := by rw [← hx]; rfl
    have hone : (1 : K) ≤ w := Nat.one_le_cast.mpr hpos
    have hcast : (40 : K) - c + m = w := by exact_mod_cast congrArg (Int.cast (R := K)) hw
    rw [Locals.tag_ww_enc, hassoc, hcapenc, hcap, hcast, clampMin_of_le hone]
  have hmatr : M.exp2 x.tag_mat_r_enc = (p.num_active_mat_per_row : ℕ) := by
    rw [← hx]
    exact hmat h.num_active_mat_per_row
  have hmatc : M.exp2 x.tag_mat_c_enc = (p.num_active_mat_per_col : ℕ) := by
    rw [← hx]
    exact hmat h.num_active_mat_per_col
  have hsubr : x.tag_sub_r_phys = (p.num_row_subarray : ℕ) := by
    rw [← hx]
    exact hsub h.num_row_subarray
  have hsubc : x.tag_sub_c_phys = (p.num_col_subarray : ℕ) := by
    rw [← hx]
    exact hsub h.num_col_subarray
  have htwo : (0 : K) < 2 ^ w := by positivity
  rw [Locals.tag_partition_penalty, hwidth, M.exp2_natCast, hmatr, hmatc, hsubr, hsubc,
    calculate_partition_penalty]
  -- the penalty is over reals, the partitions are natural numbers
  refine (((penalises_relu_sub _ _).div_const htwo).const_mul (by norm_num)).congr ?_
  rw [TagPartition.active_mats, TagPartition.total_subarrays]
  constructor
  · intro hle
    have hcast : ((p.num_active_mat_per_row * p.num_active_mat_per_col *
        (p.num_row_subarray * p.num_col_subarray) : ℕ) : K) ≤ (2 ^ w : ℕ) := by
      push_cast
      rwa [← mul_assoc]
    exact_mod_cast hcast
  · intro hle
    have hcast : ((p.num_active_mat_per_row * p.num_active_mat_per_col *
        (p.num_row_subarray * p.num_col_subarray) : ℕ) : K) ≤ (2 ^ w : ℕ) := Nat.cast_le.mpr hle
    push_cast at hcast
    rwa [← mul_assoc] at hcast

/-! ## Agreement -/

/-- Penalty, check and simulator all object to the partitions wider than a tag,
    and the penalty is zero for the others. -/
structure TagPartitionAgrees [FloorRing K] (M : LogMath K) (w : ℕ) (p : TagPartition)
    (encoded_vals_dict fixed_context : Dict K) (cap_enc : K) (design : Dict K)
    (ip : InputParameter) (tag : DesignPoint) : Prop where
  penalised : 0 < (locals M.toExactMath encoded_vals_dict fixed_context
    cap_enc).tag_partition_penalty M.toExactMath ↔ w < p.active_mats * p.active_subarrays
  reported : ReportsTagPartition M.toExactMath design fixed_context ↔
    w < p.active_mats * p.active_subarrays
  discarded : DiscardsTag ip tag ↔ w < p.active_mats * p.active_subarrays
  zero : p.active_mats * p.active_subarrays ≤ w → (locals M.toExactMath encoded_vals_dict
    fixed_context cap_enc).tag_partition_penalty M.toExactMath = 0

end

/-- They agree on the partitions that fit the tag width just when they fit two
    to the tag width with all subarrays in place of the active ones. -/
theorem tag_partition_agrees_iff {K : Type} [Field K] [LinearOrder K] [IsStrictOrderedRing K]
    [FloorRing K] (M : LogMath K) (p : TagPartition) (c m w : ℕ)
    (hw : (40 : ℤ) - c + m = w) (hwidth : 2 ≤ w)
    (encoded_vals_dict fixed_context : Dict K) (cap_enc : K)
    (hencodes : p.Encodes M c m encoded_vals_dict fixed_context cap_enc)
    (design : Dict K) (hsnapped : p.Snapped c m design fixed_context)
    (ip : InputParameter) (tag : DesignPoint) (hsimulated : p.Simulated c m ip tag) :
    TagPartitionAgrees M w p encoded_vals_dict fixed_context cap_enc design ip tag ↔
      (p.active_mats * p.active_subarrays ≤ w ↔ p.active_mats * p.total_subarrays ≤ 2 ^ w) := by
  have hpenalised := hencodes.tag_partition_penalised hw (by omega)
  have hpositive : 0 < (locals M.toExactMath encoded_vals_dict fixed_context
      cap_enc).tag_partition_penalty M.toExactMath ↔
        ¬ p.active_mats * p.total_subarrays ≤ 2 ^ w := by
    rw [← hpenalised.2]
    exact ⟨fun hlt => hlt.ne', fun hne => lt_of_le_of_ne hpenalised.1 (Ne.symm hne)⟩
  constructor
  · intro h
    rw [← not_lt, ← h.penalised, hpositive, not_not]
  · intro hcond
    exact
      { penalised := by rw [hpositive, ← hcond, not_le]
        reported := reportsTagPartition_iff M.toExactMath hsnapped.capacity_kb
          hsnapped.associativity hsnapped.num_active_mat_per_row hsnapped.num_active_mat_per_col
          hsnapped.num_active_subarray_per_row hsnapped.num_active_subarray_per_col
          p.active_mats_pos.ne' hw hwidth
        discarded := hsimulated.discards_iff hw
        zero := fun hle => hpenalised.2.mpr (hcond.mp hle) }

/-! ## Square grids of tag mats -/

/-- So many mats in a row and in a column, all active, of one subarray each. -/
def matGrid (n : ℕ+) : TagPartition := ⟨n, n, 1, 1, 1, 1⟩

/-- The optimiser's dictionary for a grid of an eight-way cache. -/
noncomputable def encodedGrid (n : ℕ+) : Dict ℝ
  | .associativity => some 3
  | .tag_num_active_mat_per_row => some (logReal.log2 (n : ℕ))
  | .tag_num_active_mat_per_col => some (logReal.log2 (n : ℕ))
  | _ => none

/-- The snapped design; the capacity of 64 KiB is the default. -/
def snappedGrid (n : ℕ+) : Dict ℝ
  | .associativity => some 8
  | .tag_num_active_mat_per_row => some (n : ℕ)
  | .tag_num_active_mat_per_col => some (n : ℕ)
  | _ => none

theorem matGrid_encodes (n : ℕ+) :
    (matGrid n).Encodes logReal 6 3 (encodedGrid n) (fun _ => none) cap64KB where
  capacity_kb := rfl
  associativity := .inl (by simp [encodedGrid])
  num_active_mat_per_row := .inl rfl
  num_active_mat_per_col := .inl rfl
  num_active_subarray_per_row := .inr ⟨rfl, rfl⟩
  num_active_subarray_per_col := .inr ⟨rfl, rfl⟩
  num_row_subarray := .inr ⟨rfl, rfl⟩
  num_col_subarray := .inr ⟨rfl, rfl⟩

theorem matGrid_snapped (n : ℕ+) : (matGrid n).Snapped 6 3 (snappedGrid n) (fun _ => none) where
  capacity_kb := by
    show (64 : ℝ) = 2 ^ 6
    norm_num
  associativity := by
    show (8 : ℝ) = 2 ^ 3
    norm_num
  num_active_mat_per_row := rfl
  num_active_mat_per_col := rfl
  num_active_subarray_per_row := Nat.cast_one.symm
  num_active_subarray_per_col := Nat.cast_one.symm

theorem matGrid_simulated (n : ℕ+) : (matGrid n).Simulated 6 3 (smallCache 3)
    { oneMat 1 with numActiveMatPerRow := (n : ℕ), numActiveMatPerColumn := (n : ℕ) } where
  capacity := rfl
  associativity := rfl
  wordWidth := ⟨6, rfl, by decide, by decide, by decide⟩
  numActiveMatPerRow := rfl
  numActiveMatPerColumn := rfl
  numActiveSubarrayPerRow := rfl
  numActiveSubarrayPerColumn := rfl

/-- Sixteen mats fit a tag of 37 bits. -/
theorem tag_partition_agrees_iff_sixteen_mats :
    TagPartitionAgrees logReal 37 (matGrid 4) (encodedGrid 4) (fun _ => none) cap64KB
      (snappedGrid 4) (smallCache 3)
      { oneMat 1 with numActiveMatPerRow := (4 : ℕ+), numActiveMatPerColumn := (4 : ℕ+) } :=
  (tag_partition_agrees_iff logReal (matGrid 4) 6 3 37 (by decide) (by decide) _ _ _
    (matGrid_encodes 4) _ (matGrid_snapped 4) _ _ (matGrid_simulated 4)).mpr
      (iff_of_true (by decide) (by decide))

/-- Sixty-four mats do not, and have no penalty. -/
theorem tag_partition_unpenalised :
    (matGrid 8).Encodes logReal 6 3 (encodedGrid 8) (fun _ => none) cap64KB ∧
      (matGrid 8).Snapped 6 3 (snappedGrid 8) (fun _ => none) ∧
      (matGrid 8).Simulated 6 3 (smallCache 3)
        { oneMat 1 with numActiveMatPerRow := (8 : ℕ+), numActiveMatPerColumn := (8 : ℕ+) } ∧
      ¬ TagPartitionAgrees logReal 37 (matGrid 8) (encodedGrid 8) (fun _ => none) cap64KB
        (snappedGrid 8) (smallCache 3)
        { oneMat 1 with numActiveMatPerRow := (8 : ℕ+), numActiveMatPerColumn := (8 : ℕ+) } := by
  refine ⟨matGrid_encodes 8, matGrid_snapped 8, matGrid_simulated 8, fun h => ?_⟩
  have hzero := ((matGrid_encodes 8).tag_partition_penalised (w := 37) (by decide)
    (by decide)).2.mpr (by decide)
  exact (h.penalised.mpr (by decide)).ne' hzero

end Destiny.Inverse
