/-
  Destiny.Inverse.Parity

  When the optimisers query the surrogate with the features it was trained on.

  * `Split` says that a row of the data table, a fixed context and the searched
    encodings describe one design;
  * `Parity` compares the feature vector with the row `build_features` computes,
    and the word width of the derived columns with that of the penalties;
  * `FitsColumn` is the condition of one column: the target script learns no
    logarithm of a fixed value, a fixed category has no one-hot column, and cell
    columns are filled only while a cell parameter is searched.
-/

import Destiny.Inverse.Features

namespace Destiny.Inverse

open Lib

variable {K : Type} [Field K] [LinearOrder K]

/-! ## Designs -/

/-- `derive_sram_physical_params`: the cell area, before its rounding. -/
def derive_cell_area (w_pd w_pu w_pg : K) : K :=
  max 40 (min 200 (55 + 30 * max w_pd w_pg + 20 * (w_pu + 0.5)))

/-- `derive_sram_physical_params`: the sense voltage, before its rounding. -/
def derive_min_sense_voltage (M : LogMath K) (node : String) (w_pg : K) : K :=
  max 5 (min 80 (6 * A_VTH_BY_NODE node / M.sqrt (2 * w_pg)))

/-- An SRAM row has widths and a read voltage, and the area and sense voltage
    that follow from them. -/
structure SramCell (M : LogMath K) (row : DataRow K) (w_pd w_pu w_pg read_voltage : K)
    (node : String) : Prop where
  nmos : row.num .CellInput_SRAMCellNMOSWidth = some w_pd
  pmos : row.num .CellInput_SRAMCellPMOSWidth = some w_pu
  access : row.num .CellInput_AccessCMOSWidth = some w_pg
  read : row.num .CellInput_ReadVoltage = some read_voltage
  node_eq : row.cat .process_node_nm = some node
  area : row.num .CellInput_CellArea = some (derive_cell_area w_pd w_pu w_pg)
  sense : row.num .CellInput_MinSenseVoltage = some (derive_min_sense_voltage M node w_pg)

/-- The values of a row are physical: a capacity, a word width and a die count
    are there, counts are at least one and nothing learnt as a logarithm is
    negative. -/
structure Physical (M : LogMath K) (tech : Tech) (row : DataRow K) : Prop where
  capacity : ∃ v, row.num .capacity_kb = some v ∧ 10 ^ (-12 : ℤ) ≤ v
  word_width : row.num .word_width_bits ≠ none
  dies : row.num .data_stacked_die_count ≠ none
  log10 : ∀ p ∈ LOG_NUMERIC_COLS, ∀ v, row.num p = some v → 0 ≤ v
  log2 : ∀ p ∈ LOG2_CFG_COLS, ∀ v, row.num p = some v → 1 ≤ v
  cell : tech = .SRAM → ∃ w_pd w_pu w_pg read_voltage node,
    SramCell M row w_pd w_pu w_pg read_voltage node

/-- The cell values that follow from the widths of an SRAM design; the context
    need not give them. -/
def derivedCell (tech : Tech) : List Param :=
  if tech = .SRAM then [.CellInput_CellArea, .CellInput_MinSenseVoltage] else []

/-- The row, the fixed context and the searched encodings describe one design:
    each number is searched, in an encoding of its vocabulary, or fixed as it
    is; node and roadmap are one-hot in the context; every other category is
    searched, as a one-hot choice, or fixed by name. -/
structure Split (M : LogMath K) (s : Setup K) (row : DataRow K) (encoded_vals_dict : Dict K)
    (cat_encoded_dict : Category → Option (String → K)) : Prop where
  searched : ∀ p ∈ s.opt_cols, ∃ e, InVocab M.toExactMath s.tech e p ∧
    encoded_vals_dict p = some e ∧ row.num p = some (decode M p e)
  encoded_none : ∀ p, p ∉ s.opt_cols → encoded_vals_dict p = none
  fixed : ∀ p, p ∉ s.opt_cols → p ∉ derivedCell s.tech → row.num p = s.fixed_context.num p
  fixed_cell : ∀ p ∈ derivedCell s.tech,
    s.fixed_context.num p = none ∨ row.num p = s.fixed_context.num p
  node : row.cat .process_node_nm = some s.fixed_context.process_node_nm
  roadmap : row.cat .device_roadmap = some s.fixed_context.device_roadmap
  searched_cat : ∀ cat, s.searched cat → ∃ val, row.cat cat = some val ∧
    cat_encoded_dict cat = some fun v => indicator (v = val)
  fixed_cat : ∀ cat, ¬ s.searched cat → cat_encoded_dict cat = none ∧
    (cat ∉ [Category.mem_cell_type, .device_roadmap, .process_node_nm] →
      row.cat cat = s.fixed_context.cat cat)

/-! ## Parity -/

/-- The model is queried with the features it was trained on, and the derived
    columns and the penalties agree on the word width. -/
def Parity (M : LogMath K) (o : Optimiser) (s : Setup K) (row : DataRow K)
    (encoded_vals_dict : Dict K) (cat_encoded_dict : Category → Option (String → K)) : Prop :=
  ∃ cap x, cap_enc M s encoded_vals_dict = some cap ∧
    features M o s encoded_vals_dict cat_encoded_dict = some x ∧
    (∀ c ∈ s.feature_cols, x c = row.build_features M c) ∧
    ww_phys M o encoded_vals_dict s.fixed_context = penalty_ww_phys M s encoded_vals_dict cap

/-- Some cell parameter of an SRAM design is searched. -/
def Setup.searchesCell (s : Setup K) : Prop :=
  s.tech = .SRAM ∧ ∃ p ∈ SRAM_CELL_LOG10 ++ SRAM_CELL_LINEAR, p ∈ s.opt_cols

/-- What parity of a numeric column needs. -/
def FitsNumeric (o : Optimiser) (s : Setup K) (row : DataRow K) : Param → Prop
  | .CellInput_CellArea => s.searchesCell ∨ row.num .CellInput_CellArea = some 1
  | .CellInput_MinSenseVoltage =>
      s.searchesCell ∨ row.num.get .CellInput_MinSenseVoltage 0 = 0
  | p =>
      o = .objective ∨ p ∈ s.opt_cols ∨
        p ∉ LOG_NUMERIC_COLS ∧ (p ∈ LOG2_CFG_COLS → s.fixed_context.num p = none)

/-- What parity of one column needs. -/
def FitsColumn (o : Optimiser) (s : Setup K) (row : DataRow K) : Column → Prop
  | .numeric p => FitsNumeric o s row p
  | .derived_sqrt_area => s.searchesCell ∨ row.num.get .CellInput_CellArea 0 = 0
  | .derived_read_v_sq => s.searchesCell ∨ row.num.get .CellInput_ReadVoltage 0 = 0
  | .derived_rows_per_die => o = .objective ∨ .word_width_bits ∈ s.opt_cols
  | .oneHot cat val =>
      s.searched cat ∨ cat = .process_node_nm ∨ cat = .device_roadmap ∨ row.cat cat ≠ some val
  | .roadmap_x_log10_cap rm =>
      rm ∈ ["HP", "LOP", "LSTP"] ∨ rm ≠ s.fixed_context.device_roadmap ∨
        row.num .capacity_kb = some 1
  | _ => True

/-- What parity needs: all widths of a searched cell are searched, the target
    script searches the word width, and every trained column fits. -/
structure Fits (o : Optimiser) (s : Setup K) (row : DataRow K) : Prop where
  widths : s.searchesCell → ∀ p ∈ SRAM_CELL_LOG10, p ∈ s.opt_cols
  word_width : o = .target → .word_width_bits ∈ s.opt_cols
  columns : ∀ c ∈ s.feature_cols, FitsColumn o s row c

/-! ## One design, two descriptions -/

section
variable [IsStrictOrderedRing K] {M : LogMath K} {o : Optimiser} {s : Setup K} {row : DataRow K}
  {encoded_vals_dict : Dict K} {cat_encoded_dict : Category → Option (String → K)} {p : Param}

omit [Field K] [LinearOrder K] [IsStrictOrderedRing K] in
theorem Setup.fixed_of_mem_opt_cols (hp : p ∈ s.opt_cols) : s.fixed_context.num p = none := by
  have h := (List.mem_filter.mp hp).2
  exact Option.isNone_iff_eq_none.mp h

theorem notMem_derivedCell (tech : Tech)
    (hp : p ∉ [Param.CellInput_CellArea, .CellInput_MinSenseVoltage]) : p ∉ derivedCell tech := by
  rw [derivedCell]
  split
  · exact hp
  · exact List.not_mem_nil

namespace Split
variable (h : Split M s row encoded_vals_dict cat_encoded_dict)
include h

omit [IsStrictOrderedRing K] in
theorem isSome_iff (p : Param) : (encoded_vals_dict p).isSome = true ↔ p ∈ s.opt_cols := by
  constructor
  · intro hsome
    by_contra hp
    rw [h.encoded_none p hp] at hsome
    cases hsome
  · intro hp
    obtain ⟨e, -, he, -⟩ := h.searched p hp
    rw [he]
    rfl

omit [IsStrictOrderedRing K] in
theorem updatesCell_iff : updatesCell s.tech encoded_vals_dict ↔ s.searchesCell := by
  simp only [updatesCell, Setup.searchesCell, h.isSome_iff]

/-- A searched number is learnt as it is encoded. -/
theorem numeric_searched (hp : p ∈ s.opt_cols) :
    ∃ e, encoded_vals_dict p = some e ∧ row.num p = some (decode M p e) ∧ row.numeric M p = e := by
  obtain ⟨e, hvocab, he, hrow⟩ := h.searched p hp
  refine ⟨e, he, hrow, ?_⟩
  rw [DataRow.numeric, Dict.get_of_eq_some hrow]
  exact transform_decode (List.mem_filter.mp hp).1 hvocab

/-- The capacity the optimisers work with is that of the row. -/
theorem cap (hphys : Physical M s.tech row) :
    ∃ cap v, cap_enc M s encoded_vals_dict = some cap ∧ row.num .capacity_kb = some v ∧ 0 < v ∧
      M.exp10 cap = v ∧ row.numeric M .capacity_kb = cap ∧ M.log10 v = cap := by
  obtain ⟨v, hv, htiny⟩ := hphys.capacity
  have hpos : 0 < v := lt_of_lt_of_le (by positivity) htiny
  by_cases hp : Param.capacity_kb ∈ s.opt_cols
  · obtain ⟨e, he, hrow, hnum⟩ := h.numeric_searched hp
    have hdecode : M.exp10 e = v := Option.some.inj (hrow.symm.trans hv)
    refine ⟨e, v, ?_, hv, hpos, hdecode, hnum, ?_⟩
    · rw [cap_enc, Setup.fixed_of_mem_opt_cols hp]
      exact he
    · rw [← hdecode, M.log10_exp10]
  · have hfixed : s.fixed_context.num .capacity_kb = some v := by
      rw [← h.fixed _ hp (notMem_derivedCell _ (by decide)), hv]
    refine ⟨M.log10 v, v, ?_, hv, hpos, M.exp10_log10 hpos, ?_, rfl⟩
    · rw [cap_enc, hfixed]
    · rw [DataRow.numeric, Dict.get_of_eq_some hv]
      exact transform_log10 (by decide) htiny

/-- The penalties use the word width of the row; so do the derived columns,
    unless the target script is given a fixed one. -/
theorem word_width (hphys : Physical M s.tech row) (o : Optimiser) (cap : K) :
    ∃ w, row.num .word_width_bits = some w ∧ 0 < w ∧
      penalty_ww_phys M s encoded_vals_dict cap = w ∧
      (ww_phys M o encoded_vals_dict s.fixed_context = w ↔
        (o = .target → .word_width_bits ∈ s.opt_cols)) := by
  obtain ⟨w, hw⟩ := Option.ne_none_iff_exists'.mp hphys.word_width
  have hone : 1 ≤ w := hphys.log2 _ (by decide) w hw
  have hpos : 0 < w := lt_of_lt_of_le one_pos hone
  refine ⟨w, hw, hpos, ?_⟩
  by_cases hp : Param.word_width_bits ∈ s.opt_cols
  · obtain ⟨e, he, hrow, -⟩ := h.numeric_searched hp
    have hdecode : M.exp2 e = w := Option.some.inj (hrow.symm.trans hw)
    refine ⟨?_, iff_of_true ?_ fun _ => hp⟩
    · rw [penalty_ww_phys, locals, Dict.get_of_eq_some he, hdecode]
    · simp only [ww_phys, he]
      exact hdecode
  · have hnone := h.encoded_none _ hp
    have hrow := h.fixed _ hp (notMem_derivedCell _ (by decide))
    have hfixed : s.fixed_context.num .word_width_bits = some w := by rw [← hrow, hw]
    refine ⟨?_, ?_⟩
    · rw [penalty_ww_phys, locals, Dict.get_of_eq_none hnone, Dict.get_of_eq_some hfixed,
        M.exp2_log2 hpos]
    · simp only [ww_phys, hnone]
      cases o with
      | objective => exact iff_of_true (Dict.get_of_eq_some hfixed) nofun
      | target =>
          -- two to the word width is not the word width
          refine iff_of_false ?_ fun himp => hp (himp rfl)
          rw [Dict.get_of_eq_some hfixed]
          intro heq
          have hlog := M.log2_exp2 w
          rw [show M.exp2 w = w from heq] at hlog
          exact (M.log2_lt_self hpos).ne hlog

theorem dies (hphys : Physical M s.tech row) :
    ∃ v, row.num .data_stacked_die_count = some v ∧ 0 < v ∧
      stk_phys M encoded_vals_dict s.fixed_context = v := by
  obtain ⟨v, hv⟩ := Option.ne_none_iff_exists'.mp hphys.dies
  have hone : 1 ≤ v := hphys.log2 _ (by decide) v hv
  refine ⟨v, hv, lt_of_lt_of_le one_pos hone, ?_⟩
  by_cases hp : Param.data_stacked_die_count ∈ s.opt_cols
  · obtain ⟨e, he, hrow, -⟩ := h.numeric_searched hp
    rw [stk_phys, he]
    exact Option.some.inj (hrow.symm.trans hv)
  · have hnone := h.encoded_none _ hp
    have hrow := h.fixed _ hp (notMem_derivedCell _ (by decide))
    rw [stk_phys, hnone]
    exact Dict.get_of_eq_some (by rw [← hrow, hv])

end Split

/-! ## The columns -/

/-- The vector before the cell columns and the roadmap products. -/
def stages (M : LogMath K) (o : Optimiser) (s : Setup K) (encoded_vals_dict : Dict K) (cap : K)
    (cat_encoded_dict : Category → Option (String → K)) : Column → K :=
  fillDerived M o encoded_vals_dict s.fixed_context cap
    (fillCategories s cat_encoded_dict (fillEncoded s encoded_vals_dict (base_x M o s)))

namespace Split
variable (h : Split M s row encoded_vals_dict cat_encoded_dict)
include h

omit [IsStrictOrderedRing K] in
/-- A number that is not searched keeps its static value. -/
theorem stages_numeric_fixed (hp : p ∉ s.opt_cols) (cap : K) :
    stages M o s encoded_vals_dict cap cat_encoded_dict (.numeric p) =
      base_x M o s (.numeric p) := by
  simp only [stages, fillDerived, fillCategories, fillEncoded, h.encoded_none p hp]

theorem stages_numeric_searched (hp : p ∈ s.opt_cols) (cap : K) :
    stages M o s encoded_vals_dict cap cat_encoded_dict (.numeric p) = row.numeric M p := by
  obtain ⟨e, he, -, hnum⟩ := h.numeric_searched hp
  have hdyn : s.dynamic (.numeric p) := Or.inl hp
  simp only [stages, fillDerived, fillCategories, fillEncoded, he, if_pos hdyn, hnum]

omit [IsStrictOrderedRing K] in
/-- The objective script learns static values as they were trained; the target
    script takes them as they are. -/
theorem base_x_numeric (hp : p ∉ s.opt_cols) (harea : p ≠ .CellInput_CellArea)
    (hsense : p ≠ .CellInput_MinSenseVoltage) :
    base_x M o s (.numeric p) =
      match o with
      | .objective => row.numeric M p
      | .target => row.num.get p 0 := by
  have hstatic : ¬ s.dynamic (.numeric p) := by
    rintro (hopt | hdyn | hdyn)
    · exact hp hopt
    · exact harea hdyn
    · exact hsense hdyn
  have hget : s.fixed_context.num.get p 0 = row.num.get p 0 := by
    rw [Dict.get, Dict.get, h.fixed p hp (notMem_derivedCell _ (by simp [harea, hsense]))]
  rw [base_x, if_neg hstatic]
  cases o with
  | target => exact hget
  | objective =>
      simp only [staticValue, FixedContext.getColumn, hget, DataRow.numeric, transform,
        max_comm (10 ^ (-12 : ℤ) : K), max_comm (1 : K)]

/-- Parity of an ordinary numeric column. -/
theorem numeric_iff (hphys : Physical M s.tech row) (harea : p ≠ .CellInput_CellArea)
    (hsense : p ≠ .CellInput_MinSenseVoltage) (cap : K) :
    stages M o s encoded_vals_dict cap cat_encoded_dict (.numeric p) = row.numeric M p ↔
      o = .objective ∨ p ∈ s.opt_cols ∨
        p ∉ LOG_NUMERIC_COLS ∧ (p ∈ LOG2_CFG_COLS → s.fixed_context.num p = none) := by
  by_cases hp : p ∈ s.opt_cols
  · exact iff_of_true (h.stages_numeric_searched hp cap) (Or.inr (Or.inl hp))
  rw [h.stages_numeric_fixed hp, h.base_x_numeric hp harea hsense]
  cases o with
  | objective => exact iff_of_true rfl (Or.inl rfl)
  | target =>
      have hrow := h.fixed p hp (notMem_derivedCell _ (by simp [harea, hsense]))
      have hiff : row.num.get p 0 = row.numeric M p ↔
          p ∉ LOG_NUMERIC_COLS ∧ (p ∈ LOG2_CFG_COLS → s.fixed_context.num p = none) := by
        by_cases hlog : p ∈ LOG_NUMERIC_COLS
        · refine iff_of_false (transform_log10_ne hlog ?_) fun hfit => hfit.1 hlog
          cases hv : row.num p with
          | none => rw [Dict.get_of_eq_none hv]
          | some v =>
              rw [Dict.get_of_eq_some hv]
              exact hphys.log10 p hlog v hv
        by_cases hlog2 : p ∈ LOG2_CFG_COLS
        · cases hv : row.num p with
          | none =>
              -- a missing count is one before its logarithm, zero after it
              refine iff_of_true ?_ ⟨hlog, fun _ => by rw [← hrow, hv]⟩
              have hzero : M.log2 1 = 0 := by simpa using M.log2_two_pow 0
              rw [DataRow.numeric, Dict.get_of_eq_none hv, transform, if_neg hlog, if_pos hlog2,
                max_eq_right zero_le_one, hzero]
          | some v =>
              refine iff_of_false ?_ fun hfit => ?_
              · rw [DataRow.numeric, Dict.get_of_eq_some hv]
                exact transform_log2_ne hlog2 (hphys.log2 p hlog2 v hv)
              · rw [← hrow, hv] at hfit
                cases hfit.2 hlog2
        · refine iff_of_true ?_ ⟨hlog, fun hmem => absurd hmem hlog2⟩
          rw [DataRow.numeric, transform_linear hlog hlog2]
      refine hiff.trans ⟨fun hfit => Or.inr (Or.inr hfit), ?_⟩
      rintro (hobj | hopt | hfit)
      · cases hobj
      · exact absurd hopt hp
      · exact hfit

/-- Derived columns of capacity, word width and dies. -/
theorem derived_iff (hphys : Physical M s.tech row) {cap : K}
    (hcap : cap_enc M s encoded_vals_dict = some cap) :
    stages M o s encoded_vals_dict cap cat_encoded_dict .derived_sqrt_capacity =
        row.build_features M .derived_sqrt_capacity ∧
      stages M o s encoded_vals_dict cap cat_encoded_dict .derived_cap_per_die =
        row.build_features M .derived_cap_per_die ∧
      (stages M o s encoded_vals_dict cap cat_encoded_dict .derived_rows_per_die =
          row.build_features M .derived_rows_per_die ↔
        o = .objective ∨ .word_width_bits ∈ s.opt_cols) := by
  obtain ⟨cap', v, hcap', hv, hpos, hexp, -, -⟩ := h.cap hphys
  obtain rfl : cap' = cap := Option.some.inj (hcap'.symm.trans hcap)
  obtain ⟨w, hw, hwpos, -, hww⟩ := h.word_width hphys o cap'
  obtain ⟨t, ht, htpos, hstk⟩ := h.dies hphys
  simp only [stages, fillDerived, DataRow.build_features, DataRow.derived, hv, hw, ht, hexp, hstk,
    Option.map_some, Option.getD_some, Option.bind_eq_bind, Option.bind_some, Option.pure_def,
    true_and]
  have hiff : v * 1024 / (ww_phys M o encoded_vals_dict s.fixed_context * t) =
      v * 1024 / (w * t) ↔ ww_phys M o encoded_vals_dict s.fixed_context = w := by
    constructor
    · intro heq
      have hnum : v * 1024 ≠ 0 := by positivity
      rw [div_eq_mul_inv, div_eq_mul_inv, mul_right_inj' hnum, inv_inj] at heq
      exact mul_right_cancel₀ htpos.ne' heq
    · intro heq
      rw [heq]
  rw [hiff, hww]
  cases o with
  | objective => exact iff_of_true nofun (Or.inl rfl)
  | target => exact ⟨fun himp => Or.inr (himp rfl), fun hor _ => hor.resolve_left nofun⟩

omit [IsStrictOrderedRing K] in
/-- One-hot columns: node and roadmap come from the context, a searched category
    from its choice, a fixed one from nowhere. -/
theorem oneHot_iff (cap : K) (cat : Category) (val : String) :
    stages M o s encoded_vals_dict cap cat_encoded_dict (.oneHot cat val) =
        row.build_features M (.oneHot cat val) ↔
      s.searched cat ∨ cat = .process_node_nm ∨ cat = .device_roadmap ∨
        row.cat cat ≠ some val := by
  -- a searched category is filled in from the choice that was made
  by_cases hsearch : s.searched cat
  · obtain ⟨val', hrow, hcat⟩ := h.searched_cat cat hsearch
    have hdyn : s.dynamic (.oneHot cat val) := hsearch
    refine iff_of_true ?_ (Or.inl hsearch)
    simp only [stages, fillDerived, fillCategories, hcat, if_pos hdyn, DataRow.build_features,
      hrow, indicator, Option.some_inj, eq_comm]
  · have hstatic : ¬ s.dynamic (.oneHot cat val) := hsearch
    have hbase : stages M o s encoded_vals_dict cap cat_encoded_dict (.oneHot cat val) =
        s.fixed_context.oneHot cat val := by
      simp only [stages, fillDerived, fillCategories, (h.fixed_cat cat hsearch).1, fillEncoded,
        base_x, if_neg hstatic]
      cases o <;> rfl
    rw [hbase]
    -- of the fixed categories only the node and the roadmap are filled in
    by_cases hnode : cat = .process_node_nm
    · subst hnode
      refine iff_of_true ?_ (Or.inr (Or.inl rfl))
      simp only [FixedContext.oneHot, DataRow.build_features, h.node, indicator, Option.some_inj,
        eq_comm]
    by_cases hroad : cat = .device_roadmap
    · subst hroad
      refine iff_of_true ?_ (Or.inr (Or.inr (Or.inl rfl)))
      simp only [FixedContext.oneHot, DataRow.build_features, h.roadmap, indicator,
        Option.some_inj, eq_comm]
    have hzero : s.fixed_context.oneHot cat val = 0 := by
      rw [FixedContext.oneHot.eq_def]
      split
      · exact absurd rfl hnode
      · exact absurd rfl hroad
      · rfl
    rw [hzero, DataRow.build_features, indicator]
    by_cases hval : row.cat cat = some val
    · rw [if_pos hval]
      refine iff_of_false zero_ne_one ?_
      rintro (hs | hn | hr | hne)
      · exact hsearch hs
      · exact hnode hn
      · exact hroad hr
      · exact hne hval
    · rw [if_neg hval]
      exact iff_of_true rfl (Or.inr (Or.inr (Or.inr hval)))

/-- Products with the capacity: the roadmaps the scripts do not know stay zero. -/
theorem roadmap_iff (hphys : Physical M s.tech row) {cap : K}
    (hcap : cap_enc M s encoded_vals_dict = some cap) (rm : String) :
    fillRoadmap s.fixed_context cap (stages M o s encoded_vals_dict cap cat_encoded_dict)
        (.roadmap_x_log10_cap rm) = row.build_features M (.roadmap_x_log10_cap rm) ↔
      rm ∈ ["HP", "LOP", "LSTP"] ∨ rm ≠ s.fixed_context.device_roadmap ∨
        row.num .capacity_kb = some 1 := by
  obtain ⟨cap', v, hcap', hv, hpos, -, hnum, hlog⟩ := h.cap hphys
  obtain rfl : cap' = cap := Option.some.inj (hcap'.symm.trans hcap)
  have hrow : row.build_features M (.roadmap_x_log10_cap rm) =
      indicator (rm = s.fixed_context.device_roadmap) * cap' := by
    simp only [DataRow.build_features, hnum, h.roadmap, indicator, Option.some_inj, eq_comm]
  rw [hrow]
  -- the scripts fill in the roadmaps of their own list, and no other
  by_cases hrm : rm ∈ ["HP", "LOP", "LSTP"]
  · refine iff_of_true ?_ (Or.inl hrm)
    simp only [fillRoadmap, if_pos hrm, FixedContext.oneHot]
  · have hstatic : ¬ s.dynamic (.roadmap_x_log10_cap rm) := hrm
    have hzero : fillRoadmap s.fixed_context cap'
        (stages M o s encoded_vals_dict cap' cat_encoded_dict) (.roadmap_x_log10_cap rm) = 0 := by
      simp only [fillRoadmap, if_neg hrm, stages, fillDerived, fillCategories, fillEncoded, base_x,
        if_neg hstatic]
      cases o <;> rfl
    rw [hzero, indicator]
    by_cases heq : rm = s.fixed_context.device_roadmap
    · rw [if_pos heq, one_mul, ← hlog, eq_comm, log10_eq_zero_iff hpos, hv]
      constructor
      · rintro rfl
        exact Or.inr (Or.inr rfl)
      · rintro (hmem | hne | hone)
        · exact absurd hmem hrm
        · exact absurd heq hne
        · exact Option.some.inj hone
    · rw [if_neg heq, zero_mul]
      exact iff_of_true rfl (Or.inr (Or.inl heq))

end Split

end

end Destiny.Inverse
