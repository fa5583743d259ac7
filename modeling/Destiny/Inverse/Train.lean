/-
  Destiny.Inverse.Train

  `build_features` of train_model.py on one row of the data table: the row the
  surrogate was trained on, column by column.

  A missing number counts as zero before the logarithms and in every column that
  is left; `apply_transforms` cuts off what is too small for a logarithm.
-/

import Destiny.Inverse.Columns

namespace Destiny.Inverse

open Lib

variable {K : Type} [Field K] [LinearOrder K]

/-- A row of the data table, in physical units. -/
structure DataRow (K : Type) where
  num : Dict K
  cat : Category → Option String

/-- `apply_transforms` on a value of a numeric column. -/
def transform (M : LogMath K) (p : Param) (v : K) : K :=
  if p ∈ LOG_NUMERIC_COLS then M.log10 (max v (10 ^ (-12 : ℤ)))
  else if p ∈ LOG2_CFG_COLS then M.log2 (max v 1)
  else v

/-- `get_dummies` -/
def indicator (P : Prop) [Decidable P] : K := if P then 1 else 0

namespace DataRow

variable (M : LogMath K) (row : DataRow K)

/-- The value of a numeric column. -/
def numeric (p : Param) : K := transform M p (row.num.get p 0)

/-- A derived column is missing where a value it needs is. -/
def derived (value : Option K) : K := value.getD 0

/-- The row `build_features` computes. -/
def build_features : Column → K
  | .numeric p => row.numeric M p
  | .derived_sqrt_capacity => derived ((row.num .capacity_kb).map M.sqrt)
  | .derived_sqrt_area => derived ((row.num .CellInput_CellArea).map M.sqrt)
  | .derived_read_v_sq => derived ((row.num .CellInput_ReadVoltage).map (· ^ 2))
  | .derived_cap_per_die => derived do
      let capacity_kb ← row.num .capacity_kb
      let data_stacked_die_count ← row.num .data_stacked_die_count
      return capacity_kb / data_stacked_die_count
  | .derived_rows_per_die => derived do
      let capacity_kb ← row.num .capacity_kb
      let word_width_bits ← row.num .word_width_bits
      let data_stacked_die_count ← row.num .data_stacked_die_count
      return capacity_kb * 1024 / (word_width_bits * data_stacked_die_count)
  | .oneHot cat val => indicator (row.cat cat = some val)
  | .roadmap_x_log10_cap rm =>
      indicator (row.cat .device_roadmap = some rm) * row.numeric M .capacity_kb

end DataRow

/-! ## Encodings -/

variable [IsStrictOrderedRing K] {M : LogMath K}

theorem InLog2.nonneg {vs : List ℕ} {e : K} (h : InLog2 M.toExactMath vs e)
    (hvs : ∀ v ∈ vs, 1 ≤ v) : 0 ≤ e := by
  obtain ⟨v, hv, rfl⟩ := h
  exact M.log2_nonneg (by exact_mod_cast hvs v hv)

theorem InGrid.nonneg {lo hi step e : K} (h : InGrid M.toExactMath lo hi step e) (hlo : 0 ≤ lo)
    (hhi : 0 ≤ hi) (hstep : 0 ≤ step) : 0 ≤ e := by
  rcases h with rfl | ⟨i, -, rfl⟩
  · exact hhi
  · positivity

theorem log2_cfg_nonneg {tech : Tech} {p : Param} {e : K} (hp : p ∈ LOG2_CFG_COLS)
    (he : InVocab M.toExactMath tech e p) : 0 ≤ e := by
  fin_cases hp <;> exact InLog2.nonneg he (by decide)

theorem sram_width_nonneg {p : Param} {e : K} (hp : p ∈ SRAM_CELL_LOG10)
    (he : InVocab M.toExactMath .SRAM e p) : 0 ≤ e := by
  fin_cases hp <;>
    exact InGrid.nonneg he (M.log10_nonneg (by norm_num)) (M.log10_nonneg (by norm_num))
      (by norm_num)

theorem capacity_nonneg {tech : Tech} {e : K}
    (he : InVocab M.toExactMath tech e .capacity_kb) : 0 ≤ e := by
  obtain ⟨v, hv, rfl⟩ := he
  refine M.log10_nonneg ?_
  have hone : ∀ v ∈ [2, 4, 8, 16, 32, 64, 128, 256, 512, 1024, 2048, 4096, 8192, 16384, 32768],
      1 ≤ v := by decide
  exact_mod_cast hone v hv

omit [IsStrictOrderedRing K] in
theorem transform_log10 {p : Param} {v : K} (hp : p ∈ LOG_NUMERIC_COLS)
    (hv : 10 ^ (-12 : ℤ) ≤ v) : transform M p v = M.log10 v := by
  rw [transform, if_pos hp, max_eq_left hv]

omit [IsStrictOrderedRing K] in
theorem transform_log2 {p : Param} {v : K} (hp : p ∈ LOG2_CFG_COLS) (hv : 1 ≤ v) :
    transform M p v = M.log2 v := by
  have hlog : ∀ p ∈ LOG2_CFG_COLS, p ∉ LOG_NUMERIC_COLS := by decide
  rw [transform, if_neg (hlog p hp), if_pos hp, max_eq_left hv]

omit [IsStrictOrderedRing K] in
theorem transform_linear {p : Param} {v : K} (hp : p ∉ LOG_NUMERIC_COLS)
    (hp' : p ∉ LOG2_CFG_COLS) : transform M p v = v := by
  rw [transform, if_neg hp, if_neg hp']

theorem ten_zpow_le_one : (10 : K) ^ (-12 : ℤ) ≤ 1 :=
  zpow_le_one_of_nonpos₀ (by norm_num) (by norm_num)

theorem transform_decode_exp10 {p : Param} {e : K} (hp : p ∈ LOG_NUMERIC_COLS)
    (hd : decode M p e = M.exp10 e) (he : 0 ≤ e) : transform M p (decode M p e) = e := by
  rw [hd, transform_log10 hp (ten_zpow_le_one.trans (M.one_le_exp10 he)), M.log10_exp10]

/-- A searched value is learnt as it is encoded. -/
theorem transform_decode {tech : Tech} {cols : List Column} {p : Param} {e : K}
    (hp : p ∈ all_opt_cols tech cols) (he : InVocab M.toExactMath tech e p) :
    transform M p (decode M p e) = e := by
  have hlog2 (hp : p ∈ LOG2_CFG_COLS) : transform M p (decode M p e) = e := by
    have hsnap : ∀ p ∈ LOG2_CFG_COLS, p ≠ .capacity_kb ∧ p ∈ SNAP_LOG2_COLS := by decide
    obtain ⟨hcap, hmem⟩ := hsnap p hp
    rw [decode, if_neg hcap, if_pos hmem,
      transform_log2 hp (M.one_le_exp2 (log2_cfg_nonneg hp he)), M.log2_exp2]
  have hlinear (hp : p ∈ DATA_PARAM_LINEAR ++ SRAM_CELL_LINEAR) :
      transform M p (decode M p e) = e := by
    have hnone : ∀ p ∈ DATA_PARAM_LINEAR ++ SRAM_CELL_LINEAR, p ≠ .capacity_kb ∧
        p ∉ SNAP_LOG2_COLS ∧ p ∉ SRAM_CELL_LOG10 ∧ p ∉ LOG_NUMERIC_COLS ∧ p ∉ LOG2_CFG_COLS := by
      decide
    obtain ⟨hcap, hsnap, hsram, hlog, hlog2⟩ := hnone p hp
    rw [decode, if_neg hcap, if_neg hsnap, if_neg hsram, transform_linear hlog hlog2]
  have hmem := (List.mem_filter.mp hp).1
  simp only [List.mem_append] at hmem
  -- the tables of searched columns in turn
  rcases hmem with ((hbase | hdata) | hlin) | hsram
  · rcases List.mem_cons.mp hbase with rfl | hrest
    · exact transform_decode_exp10 (by decide) rfl (capacity_nonneg he)
    · have hsub : ∀ p ∈ [Param.word_width_bits, .associativity, .data_stacked_die_count],
          p ∈ LOG2_CFG_COLS := by decide
      exact hlog2 (hsub p hrest)
  · have hsub : ∀ p ∈ DATA_PARAM_LOG2, p ∈ LOG2_CFG_COLS := by decide
    exact hlog2 (hsub p hdata)
  · exact hlinear (List.mem_append_left _ hlin)
  · by_cases htech : tech = .SRAM
    · rw [if_pos htech] at hsram
      rcases List.mem_append.mp hsram with hwidth | hvoltage
      · have hsub : ∀ p ∈ SRAM_CELL_LOG10, p ≠ .capacity_kb ∧ p ∉ SNAP_LOG2_COLS ∧
            p ∈ LOG_NUMERIC_COLS := by decide
        obtain ⟨hcap, hsnap, hlog⟩ := hsub p hwidth
        subst htech
        refine transform_decode_exp10 hlog ?_ (sram_width_nonneg hwidth he)
        rw [decode, if_neg hcap, if_neg hsnap, if_pos hwidth]
      · exact hlinear (List.mem_append_right _ hvoltage)
    · rw [if_neg htech] at hsram
      cases hsram

/-! ## Logarithms move values -/

/-- No value is its own logarithm: a fixed value is never learnt as it is. -/
theorem transform_log10_ne {p : Param} {v : K} (hp : p ∈ LOG_NUMERIC_COLS) (hv : 0 ≤ v) :
    v ≠ transform M p v := by
  have htiny : (0 : K) < 10 ^ (-12 : ℤ) := by positivity
  rw [transform, if_pos hp]
  intro heq
  have hlt := M.log10_lt_self (lt_max_of_lt_right htiny : 0 < max v (10 ^ (-12 : ℤ)))
  rcases le_total (10 ^ (-12 : ℤ)) v with hle | hle
  · rw [max_eq_left hle] at hlt heq
    exact hlt.ne heq.symm
  · have hlog : M.log10 (10 ^ (-12 : ℤ)) = -12 := by
      rw [← M.exp10_intCast, M.log10_exp10]
      norm_num
    rw [max_eq_right hle, hlog] at heq
    linarith

theorem transform_log2_ne {p : Param} {v : K} (hp : p ∈ LOG2_CFG_COLS) (hv : 1 ≤ v) :
    v ≠ transform M p v := by
  rw [transform_log2 hp hv]
  exact (M.log2_lt_self (by linarith)).ne'

omit [IsStrictOrderedRing K] in
/-- Only one has the logarithm zero. -/
theorem log10_eq_zero_iff {x : K} (hx : 0 < x) : M.log10 x = 0 ↔ x = 1 := by
  have hone : M.exp10 0 = 1 := by
    have h := M.exp10_intCast 0
    rwa [Int.cast_zero, zpow_zero] at h
  constructor
  · intro h
    rw [← M.exp10_log10 hx, h, hone]
  · rintro rfl
    rw [← hone, M.log10_exp10]

end Destiny.Inverse
