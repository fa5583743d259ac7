/-
  Destiny.Inverse.VocabBounds

  Whether the vocabularies stay within the declared bounds.

  Column by column `Within` says that every entry of the vocabulary lies within
  the bounds, as it is encoded and as it is snapped:

  * it holds of the columns with tables of powers, and of the counts;
  * a grid starts and ends at its bounds and climbs in between, so there only the
    rounding of the snapped bounds matters;
  * no test takes `CellInput_CellAspectRatio`, and its vocabulary are zero and one,
    whatever its bounds are.
-/

import Destiny.Inverse.Vocab

namespace Destiny.Inverse

open Lib Param

variable {K : Type} [Field K] [LinearOrder K]

/-! ## Tests on names -/

/-- Which of the tests on its name a column passes. -/
def nameTests (col : Param) : Bool × Bool × Bool :=
  (col.Mentions "mux_", col.CountsMats, col.Mentions "_subarray_")

/-- The columns of multiplexers. -/
def muxCols : List Param :=
  [data_mux_sense_amp, data_mux_output_lev1, data_mux_output_lev2, tag_mux_sense_amp,
   tag_mux_output_lev1, tag_mux_output_lev2]

theorem nameTests_log2_all : (DATA_PARAM_LOG2.all fun col =>
    nameTests col = (decide (col ∈ muxCols), decide (col ∉ muxCols), false)) = true := by
  decide +kernel

theorem nameTests_linear_all : ((DATA_PARAM_LINEAR ++ SRAM_CELL_LOG10 ++ SRAM_CELL_LINEAR).all
    fun col => nameTests col = (false, false, decide (col ∈ DATA_PARAM_LINEAR.dropLast))) =
      true := by
  decide +kernel

theorem nameTests_log2 {col : Param} (hcol : col ∈ DATA_PARAM_LOG2) :
    (col.Mentions "mux_" ↔ col ∈ muxCols) ∧ (col.CountsMats ↔ col ∉ muxCols) := by
  have h : nameTests col = (decide (col ∈ muxCols), decide (col ∉ muxCols), false) :=
    of_decide_eq_true (List.all_eq_true.mp nameTests_log2_all col hcol)
  obtain ⟨hmux, hrest⟩ := Prod.mk.inj h
  exact ⟨decide_eq_decide.mp hmux, decide_eq_decide.mp (Prod.mk.inj hrest).1⟩

theorem nameTests_linear {col : Param}
    (hcol : col ∈ DATA_PARAM_LINEAR ++ SRAM_CELL_LOG10 ++ SRAM_CELL_LINEAR) :
    ¬ col.Mentions "mux_" ∧ ¬ col.CountsMats ∧
      (col.Mentions "_subarray_" ↔ col ∈ DATA_PARAM_LINEAR.dropLast) := by
  have h : nameTests col = (false, false, decide (col ∈ DATA_PARAM_LINEAR.dropLast)) :=
    of_decide_eq_true (List.all_eq_true.mp nameTests_linear_all col hcol)
  obtain ⟨hmux, hrest⟩ := Prod.mk.inj h
  obtain ⟨hmats, hsub⟩ := Prod.mk.inj hrest
  exact ⟨of_decide_eq_false hmux, of_decide_eq_false hmats, decide_eq_decide.mp hsub⟩

/-- Only the columns of the first table are tested by their whole names. -/
theorem not_base {col : Param} (hcol : col ∈ DATA_PARAM_LOG2 ++ (DATA_PARAM_LINEAR ++
    SRAM_CELL_LOG10 ++ SRAM_CELL_LINEAR)) : col ≠ capacity_kb ∧ col ≠ word_width_bits ∧
      col ≠ associativity ∧ col ≠ data_stacked_die_count := by
  revert col
  decide

/-! ## Columns of the tables -/

section
variable (M : OrderedMath K) (t : BoundsTables K) (tech : Tech) {col : Param}

theorem gumbel_vocab_log2 (hcol : col ∈ DATA_PARAM_LOG2) : gumbel_vocab M t tech col =
    log2_vocab M.toExactMath (if col ∈ muxCols then MUX_VALID else MAT_VALID) := by
  obtain ⟨h1, h2, h3, h4⟩ := not_base (List.mem_append_left _ hcol)
  obtain ⟨hmux, hmats⟩ := nameTests_log2 hcol
  rw [gumbel_vocab, if_neg h1, if_neg h2, if_neg h3, if_neg h4]
  by_cases hm : col ∈ muxCols
  · rw [if_pos (hmux.mpr hm), if_pos hm]
  · rw [if_neg fun h => hm (hmux.mp h), if_pos (hmats.mpr hm), if_neg hm]

/-- What is left for the columns with linear or physical bounds. -/
theorem gumbel_vocab_linear
    (hcol : col ∈ DATA_PARAM_LINEAR ++ SRAM_CELL_LOG10 ++ SRAM_CELL_LINEAR) :
    gumbel_vocab M t tech col =
      if col ∈ DATA_PARAM_LINEAR.dropLast then [1, 2]
      else if tech = .SRAM ∧ col ∈ SRAM_CELL_LOG10 then
        linear_grid M (M.log10 (t.SRAM_CELL_BOUNDS_LOG10 col).lo)
          (M.log10 (t.SRAM_CELL_BOUNDS_LOG10 col).hi) 0.01
      else if tech = .SRAM ∧ col ∈ SRAM_CELL_LINEAR then
        linear_grid M (t.SRAM_CELL_BOUNDS_LINEAR col).lo (t.SRAM_CELL_BOUNDS_LINEAR col).hi 0.05
      else [0, 1] := by
  obtain ⟨h1, h2, h3, h4⟩ := not_base (List.mem_append_right _ hcol)
  obtain ⟨hmux, hmats, hsub⟩ := nameTests_linear hcol
  rw [gumbel_vocab, if_neg h1, if_neg h2, if_neg h3, if_neg h4, if_neg hmux, if_neg hmats]
  exact if_congr hsub rfl rfl

theorem gumbel_vocab_length_pos (col : Param) : 0 < (gumbel_vocab M t tech col).length := by
  have hgrid (lo hi step : K) : 0 < (linear_grid M lo hi step).length := by
    rw [linear_grid, List.length_append, List.length_singleton]
    omega
  have hite {c : Prop} [Decidable c] {a b : List K} (ha : 0 < a.length) (hb : 0 < b.length) :
      0 < (if c then a else b).length := by
    split
    · exact ha
    · exact hb
  have hlog10 (v : ℕ) (vs : List ℕ) : 0 < (log10_vocab M.toExactMath (v :: vs)).length :=
    Nat.zero_lt_succ _
  have hlog2 (v : ℕ) (vs : List ℕ) : 0 < (log2_vocab M.toExactMath (v :: vs)).length :=
    Nat.zero_lt_succ _
  rw [gumbel_vocab]
  refine hite (hlog10 _ _) (hite (hlog2 _ _) (hite (hlog2 _ _) (hite (hlog2 _ _) ?_)))
  refine hite (hlog2 _ _) (hite (hlog2 _ _) (hite (Nat.zero_lt_succ _) ?_))
  exact hite (hgrid _ _ _) (hite (hgrid _ _ _) (Nat.zero_lt_succ _))

/-- The decoders make the same tests in the same order. -/
theorem snap_eq (e : K) : snap M col e =
    if col = capacity_kb then (M.roundInt (M.exp10 e) : K)
    else if col ∈ [word_width_bits, associativity, data_stacked_die_count] then
      (M.roundInt (M.exp2 e) : K)
    else if col.Mentions "mux_" then (M.roundInt (M.exp2 e) : K)
    else if col.CountsMats then (M.roundInt (M.exp2 e) : K)
    else if col.Mentions "_subarray_" then (M.roundInt e : K)
    else if col ∈ SRAM_CELL_LOG10 then M.roundDigits 4 (M.exp10 e)
    else if col ∈ SRAM_CELL_LINEAR then M.roundDigits 4 e
    else e := by
  have hfirst (P : Param → Prop) [DecidablePred P] (f : K → K)
      (ds : List ((Param → Bool) × (K → K))) :
      decodeFirst ((fun c => decide (P c), f) :: ds) col e =
        if P col then f e else decodeFirst ds col e := by
    rw [decodeFirst, List.find?_cons]
    dsimp only
    by_cases h : P col
    · rw [if_pos h, decide_eq_true h]
    · rw [if_neg h, decide_eq_false h]
      rfl
  rw [snap, SNAP_DECODERS, hfirst, hfirst, hfirst, hfirst, hfirst, hfirst, hfirst]
  rfl

theorem snap_log2 (hcol : col ∈ DATA_PARAM_LOG2) (e : K) :
    snap M col e = M.roundInt (M.exp2 e) := by
  obtain ⟨h1, h2, h3, h4⟩ := not_base (List.mem_append_left _ hcol)
  obtain ⟨hmux, hmats⟩ := nameTests_log2 hcol
  rw [snap_eq, if_neg h1, if_neg (by simp [h2, h3, h4])]
  by_cases hm : col ∈ muxCols
  · rw [if_pos (hmux.mpr hm)]
  · rw [if_neg fun h => hm (hmux.mp h), if_pos (hmats.mpr hm)]

theorem snap_linear (hcol : col ∈ DATA_PARAM_LINEAR ++ SRAM_CELL_LOG10 ++ SRAM_CELL_LINEAR)
    (e : K) : snap M col e =
      if col ∈ DATA_PARAM_LINEAR.dropLast then (M.roundInt e : K)
      else if col ∈ SRAM_CELL_LOG10 then M.roundDigits 4 (M.exp10 e)
      else if col ∈ SRAM_CELL_LINEAR then M.roundDigits 4 e
      else e := by
  obtain ⟨h1, h2, h3, h4⟩ := not_base (List.mem_append_right _ hcol)
  obtain ⟨hmux, hmats, hsub⟩ := nameTests_linear hcol
  rw [snap_eq, if_neg h1, if_neg (by simp [h2, h3, h4]), if_neg hmux, if_neg hmats]
  exact if_congr hsub rfl rfl

/-- Of these columns the tables hold the physical bounds. -/
theorem physicalBound_linear
    (hcol : col ∈ DATA_PARAM_LINEAR ++ SRAM_CELL_LOG10 ++ SRAM_CELL_LINEAR) (x : K) :
    physicalBound M.toLogMath col x = x := by
  have hnone : ∀ col ∈ DATA_PARAM_LINEAR ++ SRAM_CELL_LOG10 ++ SRAM_CELL_LINEAR,
      col ∉ BASE_ARCH_COLS ++ DATA_PARAM_LOG2 := by decide
  rw [physicalBound, if_neg (hnone col hcol)]

theorem columnBounds_linear
    (hcol : col ∈ DATA_PARAM_LINEAR ++ SRAM_CELL_LOG10 ++ SRAM_CELL_LINEAR) :
    columnBounds M.toExactMath t col =
      if col ∈ DATA_PARAM_LINEAR then DATA_PARAM_BOUNDS_LINEAR t col
      else if col ∈ SRAM_CELL_LOG10 then
        ((t.SRAM_CELL_BOUNDS_LOG10 col).lo, (t.SRAM_CELL_BOUNDS_LOG10 col).hi)
      else ((t.SRAM_CELL_BOUNDS_LINEAR col).lo, (t.SRAM_CELL_BOUNDS_LINEAR col).hi) := by
  have hnone : ∀ col ∈ DATA_PARAM_LINEAR ++ SRAM_CELL_LOG10 ++ SRAM_CELL_LINEAR,
      col ∉ BASE_ARCH_COLS ∧ col ∉ DATA_PARAM_LOG2 := by decide
  rw [columnBounds, if_neg (hnone col hcol).1, if_neg (hnone col hcol).2]

end

/-! ## The grid -/

section
variable [IsStrictOrderedRing K] {M : OrderedMath K} {lo hi step : K}

omit [IsStrictOrderedRing K] in
theorem linear_grid_eq_pinnedGrid : linear_grid M lo hi step =
    pinnedGrid lo hi step ((max 2 (M.roundInt ((hi - lo) / step) + 1)).toNat - 1) := by
  obtain ⟨n, hn⟩ : ∃ n : ℕ, (max 2 (M.roundInt ((hi - lo) / step) + 1)).toNat = n + 1 :=
    ⟨(max 2 (M.roundInt ((hi - lo) / step) + 1)).toNat - 1, by omega⟩
  show (((List.range (max 2 (M.roundInt ((hi - lo) / step) + 1)).toNat).map
    fun i : ℕ => lo + i * step).dropLast ++ [hi]) = _
  rw [hn, List.range_succ, List.map_append, List.map_singleton, List.dropLast_concat]
  rfl

/-- The rounded number of steps is too large by a half at most, so the last point
    but one is in front of the end. -/
theorem linear_grid_eq (h : lo < hi) (hstep : 0 < step) : ∃ n, 0 < n ∧
    linear_grid M lo hi step = pinnedGrid lo hi step n ∧ ∀ i < n, lo + i * step < hi := by
  refine ⟨_, by omega, linear_grid_eq_pinnedGrid, fun i hin => ?_⟩
  have hquot : 0 < (hi - lo) / step := div_pos (sub_pos.mpr h) hstep
  have hlt : (i : K) < (hi - lo) / step := by
    rcases Nat.eq_zero_or_pos i with rfl | hpos
    · exact_mod_cast hquot
    · have hround : (i : ℤ) + 1 ≤ M.roundInt ((hi - lo) / step) := by omega
      have hround' : (i : K) + 1 ≤ M.roundInt ((hi - lo) / step) := by exact_mod_cast hround
      have hnear := (abs_le.mp (M.abs_roundInt_sub_le ((hi - lo) / step))).2
      linarith
  have := (lt_div_iff₀ hstep).mp hlt
  linarith

theorem linear_grid_climbs (h : lo < hi) (hstep : 0 < step) :
    (linear_grid M lo hi step).Pairwise (· < ·) ∧ (linear_grid M lo hi step).head? = some lo ∧
      (linear_grid M lo hi step).getLast? = some hi := by
  obtain ⟨n, hn, heq, hlast⟩ := linear_grid_eq (M := M) h hstep
  rw [heq]
  exact ⟨pairwise_pinnedGrid hstep hlast, head?_pinnedGrid hn, getLast?_pinnedGrid⟩

theorem linear_grid_bounds {e : K} (h : lo < hi) (hstep : 0 < step)
    (he : e ∈ linear_grid M lo hi step) : lo ≤ e ∧ e ≤ hi := by
  obtain ⟨n, -, heq, hlast⟩ := linear_grid_eq (M := M) h hstep
  rw [heq] at he
  exact pinnedGrid_bounds hstep.le h.le hlast he

theorem ends_mem_linear_grid (h : lo < hi) (hstep : 0 < step) :
    lo ∈ linear_grid M lo hi step ∧ hi ∈ linear_grid M lo hi step := by
  obtain ⟨-, hhead, hlast⟩ := linear_grid_climbs (M := M) h hstep
  exact ⟨List.mem_of_head? hhead, List.mem_of_getLast? hlast⟩

end

/-! ## Vocabularies within bounds -/

/-- Every entry of the vocabulary of a column is within its bounds, encoded and
    snapped. -/
def Within (M : OrderedMath K) (t : BoundsTables K) (col : Param) : Prop :=
  ∀ e ∈ gumbel_vocab M t .SRAM col,
    (encodeBound M.toExactMath col (columnBounds M.toExactMath t col).1 ≤ e ∧
      e ≤ encodeBound M.toExactMath col (columnBounds M.toExactMath t col).2) ∧
    physicalBound M.toLogMath col (columnBounds M.toExactMath t col).1 ≤ snap M col e ∧
      snap M col e ≤ physicalBound M.toLogMath col (columnBounds M.toExactMath t col).2

section
variable [IsStrictOrderedRing K] (M : OrderedMath K) (t : BoundsTables K) {col : Param}

/-- A vocabulary of powers of two between bounds that are exponents. -/
theorem within_of_log2 (vs : List ℕ) (a b : ℕ) (hcol : col ∈ BASE_ARCH_COLS ++ DATA_PARAM_LOG2)
    (hlog : col ∈ SNAP_LOG2_COLS)
    (hvocab : gumbel_vocab M t .SRAM col = log2_vocab M.toExactMath vs)
    (hvs : ∀ v ∈ vs, v = 2 ^ Nat.log2 v ∧ a ≤ Nat.log2 v ∧ Nat.log2 v ≤ b)
    (hbounds : columnBounds M.toExactMath t col = ((a : K), (b : K)))
    (hsnap : ∀ e, snap M col e = M.roundInt (M.exp2 e)) : Within M t col := by
  intro e he
  rw [hvocab] at he
  obtain ⟨v, hv, rfl⟩ := List.mem_map.mp he
  obtain ⟨hpow, hlow, hhigh⟩ := hvs v hv
  have henc : M.log2 (v : K) = (Nat.log2 v : ℕ) := by
    conv_lhs => rw [hpow]
    push_cast
    exact M.log2_two_pow _
  have hno : ∀ col ∈ SNAP_LOG2_COLS, col ∉ SRAM_CELL_LOG10 ∧ col ≠ capacity_kb := by decide
  obtain ⟨hlog10, hcap⟩ := hno col hlog
  have hphys (k : ℕ) : physicalBound M.toLogMath col (k : K) = 2 ^ k := by
    rw [physicalBound, if_pos hcol, decode, if_neg hcap, if_pos hlog, M.exp2_natCast]
  have hround : snap M col (M.log2 (v : K)) = 2 ^ Nat.log2 v := by
    rw [hsnap, henc, M.exp2_natCast]
    exact_mod_cast congrArg (Int.cast : ℤ → K) (M.roundInt_intCast (2 ^ Nat.log2 v))
  rw [hbounds, hround, hphys, hphys, encodeBound, encodeBound, if_neg hlog10, if_neg hlog10, henc]
  show ((a : K) ≤ (Nat.log2 v : ℕ) ∧ ((Nat.log2 v : ℕ) : K) ≤ b) ∧ _
  refine ⟨⟨by exact_mod_cast hlow, by exact_mod_cast hhigh⟩, ?_, ?_⟩
  · exact pow_le_pow_right₀ one_le_two hlow
  · exact pow_le_pow_right₀ one_le_two hhigh

theorem within_log2 (hcol : col ∈ DATA_PARAM_LOG2) : Within M t col := by
  have hbase : col ∉ BASE_ARCH_COLS ∧ col ∈ SNAP_LOG2_COLS := by
    revert col
    decide
  refine within_of_log2 M t _ _ _ (List.mem_append_right _ hcol) hbase.2
    (gumbel_vocab_log2 M t _ hcol) ?_ (by rw [columnBounds, if_neg hbase.1, if_pos hcol])
    (snap_log2 M hcol)
  have htable : ∀ col ∈ DATA_PARAM_LOG2, ∀ v ∈ if col ∈ muxCols then MUX_VALID else MAT_VALID,
      v = 2 ^ Nat.log2 v ∧ (DATA_PARAM_BOUNDS_LOG2 col).1 ≤ Nat.log2 v ∧
        Nat.log2 v ≤ (DATA_PARAM_BOUNDS_LOG2 col).2 := by decide
  exact htable col hcol

/-- The capacities are powers of two between the least and the greatest. -/
theorem within_capacity : Within M t capacity_kb := by
  intro e he
  have hvocab : gumbel_vocab M t .SRAM capacity_kb = log10_vocab M.toExactMath CAP_KB_PHYS := rfl
  rw [hvocab] at he
  obtain ⟨v, hv, rfl⟩ := List.mem_map.mp he
  have hcap : ∀ v ∈ CAP_KB_PHYS, 2 ≤ v ∧ v ≤ 32768 := by decide
  have hlow : (2 : K) ≤ v := by exact_mod_cast (hcap v hv).1
  have hhigh : (v : K) ≤ 32768 := by exact_mod_cast (hcap v hv).2
  have hpos : (0 : K) < v := two_pos.trans_le hlow
  have hround : snap M capacity_kb (M.log10 (v : K)) = v := by
    rw [snap_eq, if_pos rfl, M.exp10_log10 hpos]
    exact_mod_cast congrArg (Int.cast : ℤ → K) (M.roundInt_intCast v)
  have hphys {x : K} (hx : 0 < x) : physicalBound M.toLogMath capacity_kb (M.log10 x) = x :=
    M.exp10_log10 hx
  rw [hround]
  show (M.log10 2 ≤ _ ∧ _ ≤ M.log10 32768) ∧ physicalBound _ _ (M.log10 2) ≤ _ ∧
    _ ≤ physicalBound _ _ (M.log10 32768)
  rw [hphys two_pos, hphys (by norm_num)]
  exact ⟨⟨M.log10_le_log10 two_pos hlow, M.log10_le_log10 hpos hhigh⟩, hlow, hhigh⟩

theorem within_base (hcol : col ∈ BASE_ARCH_COLS) : Within M t col := by
  have hmem : col ∈ BASE_ARCH_COLS ++ DATA_PARAM_LOG2 := List.mem_append_left _ hcol
  have hsnap (c : Param) (hcap : c ≠ capacity_kb)
      (hc : c ∈ [word_width_bits, associativity, data_stacked_die_count]) (e : K) :
      snap M c e = M.roundInt (M.exp2 e) := by
    rw [snap_eq, if_neg hcap, if_pos hc]
  fin_cases hcol
  · exact within_capacity M t
  · refine within_of_log2 M t WW_PHYS 6 11 hmem (by decide) rfl (by decide) ?_
      (hsnap _ (by decide) (by decide))
    show ((6 : K), (11 : K)) = (((6 : ℕ) : K), ((11 : ℕ) : K))
    norm_num
  · refine within_of_log2 M t ASSOC_PHYS 0 6 hmem (by decide) rfl (by decide) ?_
      (hsnap _ (by decide) (by decide))
    show ((0 : K), (6 : K)) = (((0 : ℕ) : K), ((6 : ℕ) : K))
    norm_num
  · refine within_of_log2 M t DIE_PHYS 0 4 hmem (by decide) rfl (by decide) ?_
      (hsnap _ (by decide) (by decide))
    show ((0 : K), (4 : K)) = (((0 : ℕ) : K), ((4 : ℕ) : K))
    norm_num

theorem within_subarray (hcol : col ∈ DATA_PARAM_LINEAR.dropLast) : Within M t col := by
  have hkey : ∀ col ∈ DATA_PARAM_LINEAR.dropLast, col ∈ DATA_PARAM_LINEAR ∧
      col ≠ CellInput_CellAspectRatio ∧ col ∉ SRAM_CELL_LOG10 := by decide
  obtain ⟨hlin, hratio, hlog10⟩ := hkey col hcol
  have hmem : col ∈ DATA_PARAM_LINEAR ++ SRAM_CELL_LOG10 ++ SRAM_CELL_LINEAR := by simp [hlin]
  have hone : M.roundInt (1 : K) = 1 := by exact_mod_cast M.roundInt_intCast 1
  have htwo : M.roundInt (2 : K) = 2 := by exact_mod_cast M.roundInt_intCast 2
  intro e he
  rw [gumbel_vocab_linear M t _ hmem, if_pos hcol] at he
  rw [columnBounds_linear M t hmem, if_pos hlin, DATA_PARAM_BOUNDS_LINEAR, if_neg hratio,
    snap_linear M hmem, if_pos hcol, encodeBound, encodeBound, if_neg hlog10, if_neg hlog10,
    physicalBound_linear M hmem, physicalBound_linear M hmem]
  rcases List.mem_pair.mp he with rfl | rfl
  · rw [hone]
    norm_num
  · rw [htwo]
    norm_num

/-- Zero and one are the vocabulary of the aspect ratio. -/
theorem within_cellAspectRatio_iff : Within M t CellInput_CellAspectRatio ↔
    t.cellAspectRatio.lo ≤ 0 ∧ 1 ≤ t.cellAspectRatio.hi := by
  have hmem : CellInput_CellAspectRatio ∈
      DATA_PARAM_LINEAR ++ SRAM_CELL_LOG10 ++ SRAM_CELL_LINEAR := by decide
  have hvocab : gumbel_vocab M t .SRAM CellInput_CellAspectRatio = [0, 1] :=
    gumbel_vocab_linear M t _ hmem
  have hsnap (e : K) : snap M CellInput_CellAspectRatio e = e := snap_linear M hmem e
  have hlt := t.cellAspectRatio.lo_lt_hi
  rw [Within, hvocab]
  simp only [hsnap, List.mem_pair, physicalBound_linear M hmem]
  constructor
  · intro h
    exact ⟨(h 0 (.inl rfl)).2.1, (h 1 (.inr rfl)).2.2⟩
  · rintro ⟨hlo, hhi⟩ e (rfl | rfl)
    · exact ⟨⟨hlo, zero_le_one.trans hhi⟩, hlo, zero_le_one.trans hhi⟩
    · exact ⟨⟨hlo.trans zero_le_one, hhi⟩, hlo.trans zero_le_one, hhi⟩

/-- A grid is within its ends, and rounded where its rounded ends are. -/
theorem rounded_grid_iff {lo hi step a b : K} {f : K → K} (h : lo < hi) (hstep : 0 < step)
    (hmono : ∀ x y, x ≤ y → f x ≤ f y) :
    (∀ e ∈ linear_grid M lo hi step, (lo ≤ e ∧ e ≤ hi) ∧ a ≤ f e ∧ f e ≤ b) ↔
      a ≤ f lo ∧ f hi ≤ b := by
  constructor
  · intro hall
    obtain ⟨hlo, hhi⟩ := ends_mem_linear_grid (M := M) h hstep
    exact ⟨(hall lo hlo).2.1, (hall hi hhi).2.2⟩
  · rintro ⟨ha, hb⟩ e he
    have hends := linear_grid_bounds h hstep he
    exact ⟨hends, ha.trans (hmono _ _ hends.1), (hmono _ _ hends.2).trans hb⟩

theorem within_log10_iff (hcol : col ∈ SRAM_CELL_LOG10) : Within M t col ↔
    RoundedInside M ((t.SRAM_CELL_BOUNDS_LOG10 col).lo, (t.SRAM_CELL_BOUNDS_LOG10 col).hi) := by
  have hkey : ∀ col ∈ SRAM_CELL_LOG10, col ∉ DATA_PARAM_LINEAR ∧
      col ∉ DATA_PARAM_LINEAR.dropLast := by decide
  obtain ⟨hlin, hsub⟩ := hkey col hcol
  have hmem : col ∈ DATA_PARAM_LINEAR ++ SRAM_CELL_LOG10 ++ SRAM_CELL_LINEAR := by simp [hcol]
  have hpos := t.log10_pos col
  have hlt := (t.SRAM_CELL_BOUNDS_LOG10 col).lo_lt_hi
  have hgrid := rounded_grid_iff M (a := (t.SRAM_CELL_BOUNDS_LOG10 col).lo)
    (b := (t.SRAM_CELL_BOUNDS_LOG10 col).hi) (f := fun e => M.roundDigits 4 (M.exp10 e))
    (M.log10_lt_log10 hpos hlt) (by norm_num : (0 : K) < 0.01)
    fun x y h => M.roundDigits_mono 4 (M.exp10_mono h)
  simp only [M.exp10_log10 hpos, M.exp10_log10 (hpos.trans hlt)] at hgrid
  rw [Within, gumbel_vocab_linear M t _ hmem, if_neg hsub, if_pos ⟨rfl, hcol⟩,
    RoundedInside, ← hgrid]
  refine forall₂_congr fun e _ => ?_
  rw [columnBounds_linear M t hmem, if_neg hlin, if_pos hcol, snap_linear M hmem, if_neg hsub,
    if_pos hcol, encodeBound, encodeBound, if_pos hcol, if_pos hcol, physicalBound_linear M hmem,
    physicalBound_linear M hmem]

theorem within_readVoltage_iff (hcol : col ∈ SRAM_CELL_LINEAR) : Within M t col ↔
    RoundedInside M ((t.SRAM_CELL_BOUNDS_LINEAR col).lo, (t.SRAM_CELL_BOUNDS_LINEAR col).hi) := by
  have hkey : ∀ col ∈ SRAM_CELL_LINEAR, col ∉ DATA_PARAM_LINEAR ∧
      col ∉ DATA_PARAM_LINEAR.dropLast ∧ col ∉ SRAM_CELL_LOG10 := by decide
  obtain ⟨hlin, hsub, hlog10⟩ := hkey col hcol
  have hmem : col ∈ DATA_PARAM_LINEAR ++ SRAM_CELL_LOG10 ++ SRAM_CELL_LINEAR := by simp [hcol]
  have hgrid := rounded_grid_iff M (a := (t.SRAM_CELL_BOUNDS_LINEAR col).lo)
    (b := (t.SRAM_CELL_BOUNDS_LINEAR col).hi) (f := fun e => M.roundDigits 4 e)
    (t.SRAM_CELL_BOUNDS_LINEAR col).lo_lt_hi (by norm_num : (0 : K) < 0.05)
    fun x y h => M.roundDigits_mono 4 h
  rw [Within, gumbel_vocab_linear M t _ hmem, if_neg hsub, if_neg fun h => hlog10 h.2,
    if_pos ⟨rfl, hcol⟩, RoundedInside, ← hgrid]
  refine forall₂_congr fun e _ => ?_
  rw [columnBounds_linear M t hmem, if_neg hlin, if_neg hlog10, snap_linear M hmem, if_neg hsub,
    if_neg hlog10, if_pos hcol, encodeBound, encodeBound, if_neg hlog10, if_neg hlog10,
    physicalBound_linear M hmem, physicalBound_linear M hmem]

theorem within_iff {feature_cols : List Column} (hcol : col ∈ all_opt_cols .SRAM feature_cols) :
    Within M t col ↔
      (col = CellInput_CellAspectRatio →
        t.cellAspectRatio.lo ≤ 0 ∧ 1 ≤ t.cellAspectRatio.hi) ∧
      (col ∈ SRAM_CELL_LOG10 ++ SRAM_CELL_LINEAR →
        RoundedInside M (columnBounds M.toExactMath t col)) := by
  have hother : ∀ col ∈ BASE_ARCH_COLS ++ DATA_PARAM_LOG2 ++ DATA_PARAM_LINEAR.dropLast,
      col ≠ CellInput_CellAspectRatio ∧ col ∉ SRAM_CELL_LOG10 ++ SRAM_CELL_LINEAR := by decide
  have hmem := (List.mem_filter.mp hcol).1
  rw [if_pos rfl] at hmem
  -- the aspect ratio is the last of the linear columns and has no bounds of its own
  have hlists : BASE_ARCH_COLS ++ DATA_PARAM_LOG2 ++ DATA_PARAM_LINEAR ++
      (SRAM_CELL_LOG10 ++ SRAM_CELL_LINEAR) =
      (BASE_ARCH_COLS ++ DATA_PARAM_LOG2 ++ DATA_PARAM_LINEAR.dropLast) ++
        ([CellInput_CellAspectRatio] ++ (SRAM_CELL_LOG10 ++ SRAM_CELL_LINEAR)) := rfl
  rw [hlists] at hmem
  rcases List.mem_append.mp hmem with htest | hrest
  · -- the columns of these tables are within their bounds anyway
    obtain ⟨hratio, hcell⟩ := hother col htest
    refine iff_of_true ?_ ⟨fun h => absurd h hratio, fun h => absurd h hcell⟩
    rw [List.mem_append, List.mem_append] at htest
    rcases htest with (hbase | hlog2) | hsub
    · exact within_base M t hbase
    · exact within_log2 M t hlog2
    · exact within_subarray M t hsub
  rcases List.mem_cons.mp hrest with rfl | hsram
  · rw [within_cellAspectRatio_iff]
    exact ⟨fun h => ⟨fun _ => h, fun h' => absurd h' (by decide)⟩, fun h => h.1 rfl⟩
  · change col ∈ SRAM_CELL_LOG10 ++ SRAM_CELL_LINEAR at hsram
    have hratio : col ≠ CellInput_CellAspectRatio := by
      rintro rfl
      revert hsram
      decide
    have hkey : ∀ col ∈ SRAM_CELL_LOG10 ++ SRAM_CELL_LINEAR, col ∉ DATA_PARAM_LINEAR := by decide
    have hall : col ∈ DATA_PARAM_LINEAR ++ SRAM_CELL_LOG10 ++ SRAM_CELL_LINEAR := by
      rw [List.append_assoc]
      exact List.mem_append_right _ hsram
    -- what is left are the cell columns, whose bounds are rounded
    have hwithin : Within M t col ↔
        RoundedInside M (columnBounds M.toExactMath t col) := by
      rw [columnBounds_linear M t hall, if_neg (hkey col hsram)]
      by_cases hlog10 : col ∈ SRAM_CELL_LOG10
      · rw [if_pos hlog10]
        exact within_log10_iff M t hlog10
      · rw [if_neg hlog10]
        exact within_readVoltage_iff M t ((List.mem_append.mp hsram).resolve_left hlog10)
    rw [hwithin]
    exact ⟨fun h => ⟨fun h' => absurd h' hratio, fun _ => h⟩, fun h => h.2 hsram⟩

end

/-! ## Designs -/

/-- A list without failures. -/
theorem mapM_total {α β : Type} {f : α → Option β} {l : List α} (h : ∀ x ∈ l, ∃ y, f x = some y) :
    ∃ ys, l.mapM f = some ys ∧ (∀ y ∈ ys, ∃ x ∈ l, f x = some y) ∧
      ∀ x ∈ l, ∀ y, f x = some y → y ∈ ys := by
  induction l with
  | nil => exact ⟨[], rfl, by simp, by simp⟩
  | cons x l ih =>
      obtain ⟨y, hy⟩ := h x List.mem_cons_self
      obtain ⟨ys, hys, hfrom, hto⟩ := ih fun x hx => h x (List.mem_cons_of_mem _ hx)
      refine ⟨y :: ys, by simp [List.mapM_cons, hy, hys], ?_, ?_⟩
      · rintro z hz
        rcases List.mem_cons.mp hz with rfl | hz
        · exact ⟨x, List.mem_cons_self, hy⟩
        · obtain ⟨x', hx', hz'⟩ := hfrom z hz
          exact ⟨x', List.mem_cons_of_mem _ hx', hz'⟩
      · intro x' hx' z hz
        rcases List.mem_cons.mp hx' with rfl | hx'
        · rw [hy] at hz
          rw [← Option.some.inj hz]
          exact List.mem_cons_self
        · exact List.mem_cons_of_mem _ (hto x' hx' z hz)

section
variable (M : OrderedMath K) (t : BoundsTables K) {cols : List Param} {tech : Tech}

theorem lookup_build_gumbel_vocabs {col : Param} (hcol : col ∈ cols) :
    (build_gumbel_vocabs M t cols tech).lookup col = some (gumbel_vocab M t tech col) := by
  induction cols with
  | nil => cases hcol
  | cons c cs ih =>
      rw [build_gumbel_vocabs, List.map_cons, List.lookup_cons]
      by_cases hc : col = c
      · subst hc
        simp
      · rw [beq_false_of_ne hc]
        exact ih ((List.mem_cons.mp hcol).resolve_left hc)

/-- A column with logits for its vocabulary is snapped to an entry. -/
theorem snap_column {col : Param} {logit : List K} {i : ℕ} (hcol : col ∈ cols)
    (hmax : argmaxIndex logit = some i) (hi : i < (gumbel_vocab M t tech col).length) :
    snap_argmax M (build_gumbel_vocabs M t cols tech) (col, logit) =
      some (col, snap M col (gumbel_vocab M t tech col)[i]) := by
  rw [snap_argmax, hmax, lookup_build_gumbel_vocabs M t hcol]
  simp [List.getElem?_eq_getElem hi]

/-- The snapped design exists, and its values are entries of the vocabularies. -/
theorem snap_design_exists {logits_dict : List (Param × List K)}
    (hfits : FitsVocabs (build_gumbel_vocabs M t cols tech) logits_dict) :
    ∃ design, snap_design_gumbel M (build_gumbel_vocabs M t cols tech) logits_dict =
        some design ∧
      ∀ col v, (col, v) ∈ design →
        col ∈ cols ∧ ∃ e ∈ gumbel_vocab M t tech col, v = snap M col e := by
  -- every logit row is as long as its vocabulary, so its maximum names an entry
  have hstep : ∀ x ∈ logits_dict, x.1 ∈ cols ∧ ∃ e ∈ gumbel_vocab M t tech x.1,
      snap_argmax M (build_gumbel_vocabs M t cols tech) x = some (x.1, snap M x.1 e) := by
    rintro ⟨col, logit⟩ hmem
    have hcol : col ∈ (build_gumbel_vocabs M t cols tech).map Prod.fst := by
      rw [← hfits.cols]
      exact List.mem_map_of_mem hmem
    have hopt : col ∈ cols := by simpa [build_gumbel_vocabs] using hcol
    have hlen := hfits.sizes col logit (gumbel_vocab M t tech col) hmem
      (List.mem_map.mpr ⟨col, hopt, rfl⟩)
    have hpos : 0 < logit.length := by
      rw [hlen]
      exact gumbel_vocab_length_pos M t tech col
    obtain ⟨i, hi, hmax⟩ := argmaxIndex_isSome hpos
    rw [hlen] at hi
    exact ⟨hopt, _, List.getElem_mem hi, snap_column M t hopt hmax hi⟩
  obtain ⟨design, hdesign, hfrom, -⟩ := mapM_total fun x hx => by
    obtain ⟨-, e, -, he⟩ := hstep x hx
    exact ⟨_, he⟩
  refine ⟨design, hdesign, fun col v hv => ?_⟩
  obtain ⟨x, hx, hv'⟩ := hfrom _ hv
  obtain ⟨hopt, e, he, hsnap⟩ := hstep x hx
  rw [hsnap] at hv'
  obtain ⟨rfl, rfl⟩ := Prod.mk.inj (Option.some.inj hv')
  exact ⟨hopt, e, he, rfl⟩

variable [IsStrictOrderedRing K]

/-- Every entry can be the one a column is snapped to. -/
theorem exists_snapped {col : Param} {e : K} (hcol : col ∈ cols)
    (he : e ∈ gumbel_vocab M t tech col) :
    ∃ logits_dict, FitsVocabs (build_gumbel_vocabs M t cols tech) logits_dict ∧
      ∀ design, snap_design_gumbel M (build_gumbel_vocabs M t cols tech) logits_dict =
        some design → (col, snap M col e) ∈ design := by
  obtain ⟨i, hi, rfl⟩ := List.getElem_of_mem he
  -- one at the entry, and in the other columns at the first place
  let pick (c : Param) : ℕ := if c = col then i else 0
  let logits_dict : List (Param × List K) :=
    cols.map fun c => (c, oneHot (gumbel_vocab M t tech c).length (pick c))
  have hpick (c : Param) : pick c < (gumbel_vocab M t tech c).length := by
    show (if c = col then i else 0) < _
    split_ifs with hc
    · rw [hc]
      exact hi
    · exact gumbel_vocab_length_pos M t tech c
  have hstep : ∀ x ∈ logits_dict, ∃ y,
      snap_argmax M (build_gumbel_vocabs M t cols tech) x = some y := by
    intro x hx
    obtain ⟨c, hc, rfl⟩ := List.mem_map.mp hx
    exact ⟨_, snap_column M t hc (argmaxIndex_oneHot (hpick c)) (hpick c)⟩
  refine ⟨logits_dict, ⟨?_, ?_⟩, fun design hdesign => ?_⟩
  · show (cols.map _).map Prod.fst = (cols.map _).map Prod.fst
    rw [List.map_map, List.map_map]
    rfl
  · intro c logit vocab hlogit hvocab
    obtain ⟨c', -, hc'⟩ := List.mem_map.mp hlogit
    obtain ⟨c'', -, hc''⟩ := List.mem_map.mp hvocab
    obtain ⟨rfl, rfl⟩ := Prod.mk.inj hc'
    obtain ⟨rfl, rfl⟩ := Prod.mk.inj hc''
    exact length_oneHot _ _
  · obtain ⟨design', hdesign', -, hto⟩ := mapM_total hstep
    obtain rfl : design = design' := Option.some.inj (hdesign.symm.trans hdesign')
    have hself : pick col = i := if_pos rfl
    refine hto (col, oneHot (gumbel_vocab M t tech col).length (pick col))
      (List.mem_map.mpr ⟨col, hcol, rfl⟩) _ ?_
    rw [hself]
    exact snap_column M t hcol (argmaxIndex_oneHot hi) hi

/-- Grids climb from bound to bound, the vocabularies are within the bounds, and so
    is every snapped design. -/
structure VocabsRespectBounds (M : OrderedMath K) (t : BoundsTables K) (cols : List Param) :
    Prop where
  grid (lo hi step : K) (h : lo < hi) (hstep : 0 < step) :
    (linear_grid M lo hi step).Pairwise (· < ·) ∧ (linear_grid M lo hi step).head? = some lo ∧
      (linear_grid M lo hi step).getLast? = some hi
  encoded (col : Param) (vocab : List K)
    (hvocab : (col, vocab) ∈ build_gumbel_vocabs M t cols .SRAM) (e : K) (he : e ∈ vocab) :
    encodeBound M.toExactMath col (columnBounds M.toExactMath t col).1 ≤ e ∧
      e ≤ encodeBound M.toExactMath col (columnBounds M.toExactMath t col).2
  snapped (logits_dict : List (Param × List K))
    (hfits : FitsVocabs (build_gumbel_vocabs M t cols .SRAM) logits_dict) :
    ∃ design, snap_design_gumbel M (build_gumbel_vocabs M t cols .SRAM) logits_dict =
        some design ∧
      ∀ col v, (col, v) ∈ design →
        physicalBound M.toLogMath col (columnBounds M.toExactMath t col).1 ≤ v ∧
          v ≤ physicalBound M.toLogMath col (columnBounds M.toExactMath t col).2

theorem vocabsRespectBounds_iff_within :
    VocabsRespectBounds M t cols ↔ ∀ col ∈ cols, Within M t col := by
  constructor
  · intro h col hcol e he
    refine ⟨h.encoded col _ (List.mem_map.mpr ⟨col, hcol, rfl⟩) e he, ?_⟩
    obtain ⟨logits_dict, hfits, hentry⟩ := exists_snapped M t hcol he
    obtain ⟨design, hdesign, hbounds⟩ := h.snapped logits_dict hfits
    exact hbounds col _ (hentry design hdesign)
  · intro h
    refine ⟨fun lo hi step hlt hstep => linear_grid_climbs hlt hstep, ?_,
      fun logits_dict hfits => ?_⟩
    · intro col vocab hvocab e he
      obtain ⟨c, hc, heq⟩ := List.mem_map.mp hvocab
      obtain ⟨rfl, rfl⟩ := Prod.mk.inj heq
      exact (h c hc e he).1
    · obtain ⟨design, hdesign, hfrom⟩ := snap_design_exists M t hfits
      refine ⟨design, hdesign, fun col v hv => ?_⟩
      obtain ⟨hcol, e, he, rfl⟩ := hfrom col v hv
      exact (h col hcol e he).2

end

/-! ## The bounds of the repository -/

section
variable [IsStrictOrderedRing K]

/-- The tables of destiny_utils.py. -/
def declaredTables : BoundsTables K where
  cellAspectRatio := ⟨0.8, 2.5, by norm_num⟩
  SRAM_CELL_BOUNDS_LOG10
    | CellInput_SRAMCellNMOSWidth => ⟨2.2, 2.5, by norm_num⟩
    | CellInput_SRAMCellPMOSWidth => ⟨1.0, 1.1, by norm_num⟩
    | _ => ⟨1.1, 1.25, by norm_num⟩
  SRAM_CELL_BOUNDS_LINEAR _ := ⟨0.5, 1.2, by norm_num⟩
  log10_pos col := by split <;> norm_num

/-- None of the declared bounds has more than two digits after the point. -/
theorem roundedInside_declared (M : OrderedMath K) {col : Param}
    (hcol : col ∈ SRAM_CELL_LOG10 ++ SRAM_CELL_LINEAR) :
    RoundedInside M (columnBounds M.toExactMath declaredTables col) := by
  have hdigits (x y : K) (m n : ℤ) (hx : x * 10 ^ 4 = m) (hy : y * 10 ^ 4 = n) :
      RoundedInside M (x, y) :=
    ⟨(M.roundDigits_of_eq hx).ge, (M.roundDigits_of_eq hy).le⟩
  fin_cases hcol
  · exact hdigits 2.2 2.5 22000 25000 (by norm_num) (by norm_num)
  · exact hdigits 1.0 1.1 10000 11000 (by norm_num) (by norm_num)
  · exact hdigits 1.1 1.25 11000 12500 (by norm_num) (by norm_num)
  · exact hdigits 0.5 1.2 5000 12000 (by norm_num) (by norm_num)

/-- As the tables are, everything is within bounds until the aspect ratio is
    searched. -/
theorem declared_bounds_respected_iff (M : OrderedMath K) (feature_cols : List Column)
    (fixed_keys : List Param) :
    VocabsRespectBounds M declaredTables (opt_cols feature_cols fixed_keys) ↔
      CellInput_CellAspectRatio ∉ opt_cols feature_cols fixed_keys := by
  rw [vocabsRespectBounds_iff_within]
  constructor
  · intro h hmem
    have hlo := ((within_cellAspectRatio_iff M declaredTables).mp (h _ hmem)).1
    have hlow : (0.8 : K) ≤ 0 := hlo
    norm_num at hlow
  · intro hratio col hmem
    refine (within_iff M declaredTables (List.mem_filter.mp hmem).1).mpr
      ⟨fun hcol => absurd (hcol ▸ hmem) hratio, fun hcell => ?_⟩
    exact roundedInside_declared M hcell

end

/-! ## Bounds respected -/

/-- The vocabularies and the snapped designs are within the bounds if and only if
    those of the aspect ratio, where it is searched, include zero and one, and
    rounding moves no bound of a searched cell column outwards. -/
theorem vocabs_respect_bounds_iff [IsStrictOrderedRing K] (M : OrderedMath K) (t : BoundsTables K)
    (feature_cols : List Column) (fixed_keys : List Param) :
    VocabsRespectBounds M t (opt_cols feature_cols fixed_keys) ↔
      (CellInput_CellAspectRatio ∈ opt_cols feature_cols fixed_keys →
        t.cellAspectRatio.lo ≤ 0 ∧ 1 ≤ t.cellAspectRatio.hi) ∧
      ∀ col ∈ opt_cols feature_cols fixed_keys, col ∈ SRAM_CELL_LOG10 ++ SRAM_CELL_LINEAR →
        RoundedInside M (columnBounds M.toExactMath t col) := by
  rw [vocabsRespectBounds_iff_within]
  constructor
  · intro h
    have hcol (col : Param) (hmem : col ∈ opt_cols feature_cols fixed_keys) :=
      (within_iff M t (List.mem_filter.mp hmem).1).mp (h col hmem)
    exact ⟨fun hmem => (hcol _ hmem).1 rfl, fun col hmem => (hcol col hmem).2⟩
  · rintro ⟨hratio, hcell⟩ col hmem
    refine (within_iff M t (List.mem_filter.mp hmem).1).mpr ⟨?_, hcell col hmem⟩
    rintro rfl
    exact hratio hmem

/-- The read voltage alone stays between its declared bounds. -/
theorem vocabs_respect_bounds_iff_readVoltage : VocabsRespectBounds orderedReal declaredTables
    (opt_cols [.numeric CellInput_ReadVoltage] []) := by
  refine (vocabs_respect_bounds_iff orderedReal declaredTables _ _).mpr
    ⟨fun h => absurd h (by decide), fun col hmem hcell => ?_⟩
  exact roundedInside_declared orderedReal hcell

/-- Zero is no aspect ratio between 0.8 and 2.5. -/
theorem aspect_ratio_out_of_bounds : ¬ VocabsRespectBounds orderedReal declaredTables
    (opt_cols [.numeric CellInput_CellAspectRatio] []) := by
  rw [declared_bounds_respected_iff]
  decide

end Destiny.Inverse
