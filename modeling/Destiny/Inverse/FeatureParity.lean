/-
  Destiny.Inverse.FeatureParity

  Feature parity of the whole vector: the cell columns, the five stages
  together, and the condition under which training and inference agree
  (`feature_parity_iff`).
-/

import Destiny.Inverse.Parity

namespace Destiny.Inverse

open Lib

section
variable {K : Type} [Field K] [LinearOrder K] [IsStrictOrderedRing K] {M : LogMath K}
  {o : Optimiser} {s : Setup K} {row : DataRow K} {encoded_vals_dict : Dict K}
  {cat_encoded_dict : Category → Option (String → K)} {p : Param}

/-! ## The cell columns -/

/-- The columns `_update_sram_cell_features` writes. -/
def cellColumns : List Column :=
  [.numeric .CellInput_CellArea, .derived_sqrt_area, .derived_read_v_sq,
    .numeric .CellInput_MinSenseVoltage]

omit [IsStrictOrderedRing K] in
theorem cellFeatures_of_notMem (M : LogMath K) (node : String) (wn wp wac rv : K)
    (x : Column → K) {c : Column} (hc : c ∉ cellColumns) :
    cellFeatures M node wn wp wac rv x c = x c := by
  rw [cellFeatures.eq_def]
  split
  · exact absurd (by decide) hc
  · exact absurd (by decide) hc
  · exact absurd (by decide) hc
  · exact absurd (by decide) hc
  · rfl

/-- The scripts cut the area off the other way round. -/
theorem cell_area_eq (wn wp wac : K) : cell_area wn wp wac = derive_cell_area wn wp wac := by
  rw [cell_area, derive_cell_area, max_comm 40 (min _ _), min_comm 200, max_min_distrib_right,
    max_eq_left (show (40 : K) ≤ 200 by norm_num)]

theorem v_sense_eq (M : LogMath K) (node : String) (wac : K) :
    v_sense M node wac = derive_min_sense_voltage M node wac := by
  rw [v_sense, derive_min_sense_voltage, max_comm 5 (min _ _), min_comm 80,
    max_min_distrib_right, max_eq_left (show (5 : K) ≤ 80 by norm_num)]

/-- Parity of a cell column that stays zero. -/
theorem Physical.cell_static_iff (hphys : Physical M s.tech row) (hcell : ¬ s.searchesCell)
    {c : Column} (hc : c ∈ cellColumns) :
    0 = row.build_features M c ↔ FitsColumn o s row c := by
  simp only [cellColumns, List.mem_cons, List.not_mem_nil, or_false] at hc
  have harea (v : K) (hv : row.num .CellInput_CellArea = some v) : 0 ≤ v :=
    hphys.log10 _ (by decide) v hv
  rcases hc with rfl | rfl | rfl | rfl
  · -- the area is learnt as a logarithm
    have htiny : (0 : K) < 10 ^ (-12 : ℤ) := by positivity
    have hone : (10 : K) ^ (-12 : ℤ) < 1 := by norm_num
    simp only [DataRow.build_features, FitsColumn, FitsNumeric, hcell, false_or, DataRow.numeric]
    rw [transform, if_pos (by decide), eq_comm, log10_eq_zero_iff (lt_max_of_lt_right htiny)]
    cases hv : row.num .CellInput_CellArea with
    | none =>
        rw [Dict.get_of_eq_none hv, max_eq_right htiny.le]
        exact iff_of_false hone.ne fun hsome => by cases hsome
    | some v =>
        rw [Dict.get_of_eq_some hv, Option.some_inj]
        constructor
        · intro hmax
          rcases max_choice v ((10 : K) ^ (-12 : ℤ)) with hleft | hright
          · rw [← hmax, hleft]
          · rw [hright] at hmax
            exact absurd hmax hone.ne
        · rintro rfl
          exact max_eq_left hone.le
  · -- its root is zero just when the area is
    simp only [DataRow.build_features, FitsColumn, hcell, false_or, DataRow.derived]
    cases hv : row.num .CellInput_CellArea with
    | none => rw [Dict.get_of_eq_none hv]; exact iff_of_true rfl rfl
    | some v =>
        rw [Dict.get_of_eq_some hv, Option.map_some, Option.getD_some, eq_comm,
          M.sqrt_eq_zero_iff]
        exact ⟨fun hle => le_antisymm hle (harea v hv), fun hzero => hzero.le⟩
  · simp only [DataRow.build_features, FitsColumn, hcell, false_or, DataRow.derived]
    cases hv : row.num .CellInput_ReadVoltage with
    | none => rw [Dict.get_of_eq_none hv]; exact iff_of_true rfl rfl
    | some v =>
        rw [Dict.get_of_eq_some hv, Option.map_some, Option.getD_some, eq_comm]
        exact sq_eq_zero_iff
  · simp only [DataRow.build_features, FitsColumn, FitsNumeric, hcell, false_or, DataRow.numeric]
    rw [transform_linear (by decide) (by decide), eq_comm]

namespace Split
variable (h : Split M s row encoded_vals_dict cat_encoded_dict)
include h

omit [IsStrictOrderedRing K] in
/-- Without an update the cell columns are zero. -/
theorem stages_cellColumns {c : Column} (hc : c ∈ cellColumns)
    (cap : K) : stages M o s encoded_vals_dict cap cat_encoded_dict c = 0 := by
  have hopt : ∀ p ∈ [Param.CellInput_CellArea, .CellInput_MinSenseVoltage], p ∉ s.opt_cols := by
    intro p hp hmem
    have hall := (List.mem_filter.mp (List.mem_filter.mp hmem).1).1
    have hnone : ∀ p ∈ [Param.CellInput_CellArea, .CellInput_MinSenseVoltage],
        p ∉ BASE_ARCH_COLS ++ DATA_PARAM_LOG2 ++ DATA_PARAM_LINEAR ∧
          p ∉ SRAM_CELL_LOG10 ++ SRAM_CELL_LINEAR := by decide
    obtain ⟨hbase, hcell⟩ := hnone p hp
    rcases List.mem_append.mp hall with hall | hall
    · exact hbase hall
    · split at hall
      · exact hcell hall
      · cases hall
  have hnum (p : Param) (hp : p ∈ [Param.CellInput_CellArea, .CellInput_MinSenseVoltage]) :
      stages M o s encoded_vals_dict cap cat_encoded_dict (.numeric p) = 0 := by
    rw [h.stages_numeric_fixed (hopt p hp), base_x, if_pos]
    rcases List.mem_cons.mp hp with rfl | hp
    · exact Or.inr (Or.inl rfl)
    · exact Or.inr (Or.inr (List.mem_singleton.mp hp))
  have hderived (c : Column) (hdyn : s.dynamic c) : base_x M o s c = 0 := by
    rw [base_x, if_pos hdyn]
  simp only [cellColumns, List.mem_cons, List.not_mem_nil, or_false] at hc
  rcases hc with rfl | rfl | rfl | rfl
  · exact hnum _ (by decide)
  · exact hderived .derived_sqrt_area trivial
  · exact hderived .derived_read_v_sq trivial
  · exact hnum _ (by decide)

/-- Parity of the cell columns while all widths are searched. -/
theorem cell_searched (hphys : Physical M s.tech row) (hcell : s.searchesCell)
    (hwidths : ∀ p ∈ SRAM_CELL_LOG10, p ∈ s.opt_cols) (x : Column → K) :
    ∃ y, update_sram_cell_features M encoded_vals_dict s.fixed_context x = some y ∧
      (∀ c ∈ cellColumns, y c = row.build_features M c) ∧ ∀ c, c ∉ cellColumns → y c = x c := by
  obtain ⟨w_pd, w_pu, w_pg, rv, node, hsram⟩ := hphys.cell hcell.1
  -- every width is decoded from its logarithm
  have hwidth (p : Param) (hp : p ∈ SRAM_CELL_LOG10) (v : K) (hv : row.num p = some v) :
      ∃ e, encoded_vals_dict p = some e ∧ M.exp10 e = v := by
    obtain ⟨e, he, hrow, -⟩ := h.numeric_searched (hwidths p hp)
    have hdecode : decode M p e = M.exp10 e := by
      have hsub : ∀ p ∈ SRAM_CELL_LOG10, p ≠ .capacity_kb ∧ p ∉ SNAP_LOG2_COLS := by decide
      obtain ⟨hcap, hsnap⟩ := hsub p hp
      rw [decode, if_neg hcap, if_neg hsnap, if_pos hp]
    refine ⟨e, he, ?_⟩
    rw [← hdecode]
    exact Option.some.inj (hrow.symm.trans hv)
  obtain ⟨a, ha, hwa⟩ := hwidth _ (by decide) _ hsram.nmos
  obtain ⟨b, hb, hwb⟩ := hwidth _ (by decide) _ hsram.pmos
  obtain ⟨c, hc, hwc⟩ := hwidth _ (by decide) _ hsram.access
  have hread : encoded_vals_dict.get .CellInput_ReadVoltage
      (s.fixed_context.num.get .CellInput_ReadVoltage 1) = rv := by
    -- the read voltage is searched or comes from the fixed context
    by_cases hp : Param.CellInput_ReadVoltage ∈ s.opt_cols
    · obtain ⟨e, he, hrow, -⟩ := h.numeric_searched hp
      rw [Dict.get_of_eq_some he]
      exact Option.some.inj (hrow.symm.trans hsram.read)
    · have hnone := h.encoded_none _ hp
      have hrow := h.fixed _ hp (notMem_derivedCell _ (by decide))
      rw [Dict.get_of_eq_none hnone]
      exact Dict.get_of_eq_some (by rw [← hrow, hsram.read])
  have hnode : node = s.fixed_context.process_node_nm :=
    Option.some.inj (hsram.node_eq.symm.trans h.node)
  refine ⟨cellFeatures M s.fixed_context.process_node_nm w_pd w_pu w_pg rv x, ?_, ?_,
    fun c hc => cellFeatures_of_notMem _ _ _ _ _ _ _ hc⟩
  · simp only [update_sram_cell_features, ha, hb, hc, hread, hwa, hwb, hwc, Option.bind_eq_bind,
      Option.bind_some, Option.pure_def]
  · intro c hc
    -- the area is at least 40, so its logarithm is that of the area itself
    have hbig : (40 : K) ≤ derive_cell_area w_pd w_pu w_pg := le_max_left _ _
    have htiny : (10 : K) ^ (-12 : ℤ) ≤ derive_cell_area w_pd w_pu w_pg :=
      (ten_zpow_le_one.trans (by norm_num)).trans hbig
    simp only [cellColumns, List.mem_cons, List.not_mem_nil, or_false] at hc
    rcases hc with rfl | rfl | rfl | rfl
    · simp only [cellFeatures, DataRow.build_features, DataRow.numeric,
        Dict.get_of_eq_some hsram.area, cell_area_eq]
      rw [transform_log10 (by decide) htiny]
    · simp only [cellFeatures, DataRow.build_features, DataRow.derived, hsram.area,
        Option.map_some, Option.getD_some, cell_area_eq]
    · simp only [cellFeatures, DataRow.build_features, DataRow.derived, hsram.read,
        Option.map_some, Option.getD_some]
    · simp only [cellFeatures, DataRow.build_features, DataRow.numeric,
        Dict.get_of_eq_some hsram.sense, v_sense_eq, hnode]
      rw [transform_linear (by decide) (by decide)]

/-- Parity of a column, once the vector is known outside and on the cell
    columns. -/
theorem column_iff (hphys : Physical M s.tech row) {cap : K}
    (hcap : cap_enc M s encoded_vals_dict = some cap) {c : Column} (hc : c ∉ cellColumns) :
    fillRoadmap s.fixed_context cap (stages M o s encoded_vals_dict cap cat_encoded_dict) c =
      row.build_features M c ↔ FitsColumn o s row c := by
  obtain ⟨hsqrt, hdie, hrows⟩ := h.derived_iff hphys (o := o) hcap
  cases c with
  | numeric p =>
      have harea : p ≠ .CellInput_CellArea := by rintro rfl; exact hc (by decide)
      have hsense : p ≠ .CellInput_MinSenseVoltage := by rintro rfl; exact hc (by decide)
      have hfits : FitsNumeric o s row p ↔
          o = .objective ∨ p ∈ s.opt_cols ∨
            p ∉ LOG_NUMERIC_COLS ∧ (p ∈ LOG2_CFG_COLS → s.fixed_context.num p = none) := by
        rw [FitsNumeric.eq_def]
        split
        · exact absurd rfl harea
        · exact absurd rfl hsense
        · rfl
      rw [FitsColumn, hfits]
      exact h.numeric_iff hphys harea hsense cap
  | derived_sqrt_capacity => exact iff_of_true hsqrt trivial
  | derived_sqrt_area => exact absurd (by decide) hc
  | derived_read_v_sq => exact absurd (by decide) hc
  | derived_cap_per_die => exact iff_of_true hdie trivial
  | derived_rows_per_die => exact hrows
  | oneHot cat val => exact h.oneHot_iff cap cat val
  | roadmap_x_log10_cap rm => exact h.roadmap_iff hphys hcap rm

end Split

/-! ## The whole vector -/

omit [LinearOrder K] [IsStrictOrderedRing K] in
theorem fillRoadmap_cellColumns (fixed : FixedContext K) (cap : K) (x : Column → K) {c : Column}
    (hc : c ∈ cellColumns) : fillRoadmap fixed cap x c = x c := by
  simp only [cellColumns, List.mem_cons, List.not_mem_nil, or_false] at hc
  rcases hc with rfl | rfl | rfl | rfl <;> rfl

omit [LinearOrder K] [IsStrictOrderedRing K] in
theorem fillRoadmap_congr (fixed : FixedContext K) (cap : K) {x y : Column → K} {c : Column}
    (hxy : y c = x c) : fillRoadmap fixed cap y c = fillRoadmap fixed cap x c := by
  cases c with
  | roadmap_x_log10_cap rm => simp only [fillRoadmap, hxy]
  | _ => exact hxy

omit [LinearOrder K] [IsStrictOrderedRing K] in
theorem fitsColumn_of_searchesCell (hcell : s.searchesCell) {c : Column} (hc : c ∈ cellColumns) :
    FitsColumn o s row c := by
  simp only [cellColumns, List.mem_cons, List.not_mem_nil, or_false] at hc
  rcases hc with rfl | rfl | rfl | rfl <;> exact Or.inl hcell

namespace Split
variable (h : Split M s row encoded_vals_dict cat_encoded_dict) (hphys : Physical M s.tech row)
include h hphys

/-- The vector of a design without an update of the cell columns. -/
theorem vector_static {cap : K} (hcap : cap_enc M s encoded_vals_dict = some cap)
    (hcell : ¬ s.searchesCell) :
    ∃ x, features M o s encoded_vals_dict cat_encoded_dict = some x ∧
      ∀ c, x c = row.build_features M c ↔ FitsColumn o s row c := by
  have hup : ¬ updatesCell s.tech encoded_vals_dict := fun hup =>
    hcell (h.updatesCell_iff.mp hup)
  refine ⟨fillRoadmap s.fixed_context cap (stages M o s encoded_vals_dict cap cat_encoded_dict),
    ?_, fun c => ?_⟩
  · simp only [features, hcap, Option.bind_eq_bind, Option.bind_some, build_feature_vector,
      if_neg hup, Option.pure_def]
    rfl
  · by_cases hc : c ∈ cellColumns
    · rw [fillRoadmap_cellColumns _ _ _ hc, h.stages_cellColumns hc]
      exact hphys.cell_static_iff hcell hc
    · exact h.column_iff hphys hcap hc

/-- The vector of a design whose widths are all searched. -/
theorem vector_searched {cap : K} (hcap : cap_enc M s encoded_vals_dict = some cap)
    (hcell : s.searchesCell) (hwidths : ∀ p ∈ SRAM_CELL_LOG10, p ∈ s.opt_cols) :
    ∃ x, features M o s encoded_vals_dict cat_encoded_dict = some x ∧
      ∀ c, x c = row.build_features M c ↔ FitsColumn o s row c := by
  have hup := h.updatesCell_iff.mpr hcell
  obtain ⟨y, hy, hin, hout⟩ := h.cell_searched hphys hcell hwidths
    (stages M o s encoded_vals_dict cap cat_encoded_dict)
  refine ⟨fillRoadmap s.fixed_context cap y, ?_, fun c => ?_⟩
  · rw [stages] at hy
    simp only [features, hcap, Option.bind_eq_bind, Option.bind_some, build_feature_vector,
      if_pos hup, hy, Option.pure_def]
  · by_cases hc : c ∈ cellColumns
    · rw [fillRoadmap_cellColumns _ _ _ hc, hin c hc]
      exact iff_of_true rfl (fitsColumn_of_searchesCell hcell hc)
    · rw [fillRoadmap_congr _ _ (hout c hc)]
      exact h.column_iff hphys hcap hc

omit hphys [IsStrictOrderedRing K] in
/-- With a width that is fixed the update of a searched cell fails. -/
theorem features_none (hcell : s.searchesCell) (hwidths : ¬ ∀ p ∈ SRAM_CELL_LOG10, p ∈ s.opt_cols) :
    features M o s encoded_vals_dict cat_encoded_dict = none := by
  have hup := h.updatesCell_iff.mpr hcell
  have hupdate (x : Column → K) :
      update_sram_cell_features M encoded_vals_dict s.fixed_context x = none := by
    by_contra hsome
    refine hwidths fun p hp => (h.isSome_iff p).mp ?_
    rw [update_sram_cell_features] at hsome
    cases hn : encoded_vals_dict .CellInput_SRAMCellNMOSWidth with
    | none => simp [hn] at hsome
    | some a =>
        cases hq : encoded_vals_dict .CellInput_SRAMCellPMOSWidth with
        | none => simp [hn, hq] at hsome
        | some b =>
            cases hw : encoded_vals_dict .CellInput_AccessCMOSWidth with
            | none => simp [hn, hq, hw] at hsome
            | some c =>
                simp only [SRAM_CELL_LOG10, List.mem_cons, List.not_mem_nil, or_false] at hp
                rcases hp with rfl | rfl | rfl
                · rw [hn]; rfl
                · rw [hq]; rfl
                · rw [hw]; rfl
  rw [features]
  cases cap_enc M s encoded_vals_dict with
  | none => rfl
  | some cap =>
      simp only [Option.bind_eq_bind, Option.bind_some, build_feature_vector, if_pos hup, hupdate,
        Option.bind_none]

end Split

/-- The optimisers query the model with the features it was trained on exactly
    when the split fits. -/
theorem feature_parity_iff {K : Type} [Field K] [LinearOrder K] [IsStrictOrderedRing K]
    (M : LogMath K) (o : Optimiser) (s : Setup K) (row : DataRow K) (encoded_vals_dict : Dict K)
    (cat_encoded_dict : Category → Option (String → K))
    (hsplit : Split M s row encoded_vals_dict cat_encoded_dict)
    (hphys : Physical M s.tech row) :
    Parity M o s row encoded_vals_dict cat_encoded_dict ↔ Fits o s row := by
  obtain ⟨cap, -, hcap, -⟩ := hsplit.cap hphys
  obtain ⟨w, -, -, hpenalty, hww⟩ := hsplit.word_width hphys o cap
  by_cases hfail : s.searchesCell ∧ ¬ ∀ p ∈ SRAM_CELL_LOG10, p ∈ s.opt_cols
  · -- the call raises a `KeyError`
    refine iff_of_false ?_ fun hfits => hfail.2 (hfits.widths hfail.1)
    rintro ⟨_, x, -, hx, -⟩
    rw [hsplit.features_none hfail.1 hfail.2] at hx
    cases hx
  have hwidths : s.searchesCell → ∀ p ∈ SRAM_CELL_LOG10, p ∈ s.opt_cols := by
    intro hcell
    by_contra hnot
    exact hfail ⟨hcell, hnot⟩
  obtain ⟨x, hx, hcolumns⟩ : ∃ x, features M o s encoded_vals_dict cat_encoded_dict = some x ∧
      ∀ c, x c = row.build_features M c ↔ FitsColumn o s row c := by
    by_cases hcell : s.searchesCell
    · exact hsplit.vector_searched hphys hcap hcell (hwidths hcell)
    · exact hsplit.vector_static hphys hcap hcell
  constructor
  · rintro ⟨cap', x', hcap', hx', heq, hwidth⟩
    obtain rfl := Option.some.inj (hcap.symm.trans hcap')
    obtain rfl := Option.some.inj (hx.symm.trans hx')
    rw [hpenalty] at hwidth
    exact ⟨hwidths, hww.mp hwidth, fun c hc => (hcolumns c).mp (heq c hc)⟩
  · rintro ⟨-, hword, hfits⟩
    refine ⟨cap, x, hcap, hx, fun c hc => (hcolumns c).mpr (hfits c hc), ?_⟩
    rw [hpenalty]
    exact hww.mpr hword

end

/-! ## A fixed word width -/

/-- A model of four columns, called with a word of 64 bits. -/
noncomputable def fixedWord : Setup ℝ where
  tech := .RRAM
  feature_cols := [.numeric .capacity_kb, .numeric .word_width_bits,
    .numeric .data_stacked_die_count, .derived_rows_per_die]
  fixed_context :=
    { process_node_nm := "45"
      device_roadmap := "LOP"
      num := fun
        | .word_width_bits => some 64
        | _ => none
      cat := fun _ => none }

/-- A 64 KB design on one die, in the encodings of the vocabulary. -/
noncomputable def fixedWordEncoded : Dict ℝ
  | .capacity_kb => some (logReal.log10 ((64 : ℕ) : ℝ))
  | .data_stacked_die_count => some (logReal.log2 ((1 : ℕ) : ℝ))
  | _ => none

/-- The design as a row of the data table. -/
noncomputable def fixedWordRow : DataRow ℝ where
  num := fun
    | .capacity_kb => some 64
    | .data_stacked_die_count => some 1
    | .word_width_bits => some 64
    | _ => none
  cat := fun
    | .process_node_nm => some "45"
    | .device_roadmap => some "LOP"
    | _ => none

theorem fixedWord_opt_cols :
    fixedWord.opt_cols = [.capacity_kb, .data_stacked_die_count] := by
  decide

theorem fixedWord_split :
    Split logReal fixedWord fixedWordRow fixedWordEncoded (fun _ => none) where
  searched := by
    rw [fixedWord_opt_cols]
    intro p hp
    simp only [List.mem_cons, List.not_mem_nil, or_false] at hp
    rcases hp with rfl | rfl
    · refine ⟨_, ⟨64, by decide, rfl⟩, rfl, ?_⟩
      show some (64 : ℝ) = some (logReal.exp10 (logReal.log10 ((64 : ℕ) : ℝ)))
      rw [logReal.exp10_log10 (by norm_num)]
      norm_num
    · refine ⟨_, ⟨1, by decide, rfl⟩, rfl, ?_⟩
      show some (1 : ℝ) = some (logReal.exp2 (logReal.log2 ((1 : ℕ) : ℝ)))
      rw [logReal.exp2_log2 (by norm_num)]
      norm_num
  encoded_none := by
    rw [fixedWord_opt_cols]
    intro p hp
    cases p with
    | capacity_kb => exact absurd (by decide) hp
    | data_stacked_die_count => exact absurd (by decide) hp
    | _ => rfl
  fixed := by
    rw [fixedWord_opt_cols]
    intro p hp _
    cases p with
    | capacity_kb => exact absurd (by decide) hp
    | data_stacked_die_count => exact absurd (by decide) hp
    | _ => rfl
  fixed_cell := nofun
  node := rfl
  roadmap := rfl
  searched_cat := fun cat h => absurd h.1.2 (by cases cat <;> decide)
  fixed_cat := fun cat _ =>
    ⟨rfl, fun hcat => by cases cat <;> first | rfl | exact absurd (by decide) hcat⟩

theorem fixedWord_physical : Physical logReal .RRAM fixedWordRow where
  capacity := ⟨64, rfl, by norm_num⟩
  word_width := nofun
  dies := nofun
  log10 := fun p _ v hv => by
    cases p <;> first | (cases hv; done) | (obtain rfl := Option.some.inj hv; norm_num)
  log2 := fun p _ v hv => by
    cases p <;> first | (cases hv; done) | (obtain rfl := Option.some.inj hv; norm_num)
  cell := nofun

/-- The target script takes the 64 bits for an exponent: its rows per die and
    the penalties are computed for different words. -/
theorem fixed_word_width_differs :
    Split logReal fixedWord fixedWordRow fixedWordEncoded (fun _ => none) ∧
      Physical logReal .RRAM fixedWordRow ∧
      ¬ Parity logReal .target fixedWord fixedWordRow fixedWordEncoded (fun _ => none) := by
  refine ⟨fixedWord_split, fixedWord_physical, ?_⟩
  rintro ⟨cap, -, -, -, -, hwidth⟩
  obtain ⟨w, -, -, hpenalty, hww⟩ :=
    fixedWord_split.word_width fixedWord_physical .target cap
  rw [hpenalty] at hwidth
  have hmem := hww.mp hwidth rfl
  rw [fixedWord_opt_cols] at hmem
  exact absurd hmem (by decide)

/-- The objective script agrees with the training on the same design. -/
theorem feature_parity_iff_objective :
    Parity logReal .objective fixedWord fixedWordRow fixedWordEncoded (fun _ => none) :=
  (feature_parity_iff logReal .objective fixedWord fixedWordRow fixedWordEncoded (fun _ => none)
    fixedWord_split fixedWord_physical).mpr
    { widths := fun hcell => nomatch hcell.1
      word_width := nofun
      columns := fun c hc => by
        simp only [fixedWord, List.mem_cons, List.not_mem_nil, or_false] at hc
        rcases hc with rfl | rfl | rfl | rfl <;> exact Or.inl rfl }

end Destiny.Inverse
