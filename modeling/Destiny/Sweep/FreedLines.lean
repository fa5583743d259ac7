/-
  Destiny.Sweep.FreedLines

  The configuration of a job, and what its three substitutions that are not anchored to
  the start of a line do to the lines the reader acts on.

  * `freeText` is the template behind these substitutions, `overriddenLines` what the
    others make of its lines (`config_free`).
  * They leave what any other option says (`filterMap_free`), and set the capacity and
    the cell file of the job (`capacity_free`, `cell_free`).
  * Of the words that are scanned they change that of the cell file (`scratch_free`).
  * The first line stays the first (`sameFirst_freeText`).
-/

import Destiny.Sweep.ActiveLines
import Destiny.Sweep.WordBuffer

namespace Destiny.Sweep

open Lib

/-! ## The configuration of a job -/

section
variable {P : Type} (scripts : Scripts P) (m : MemType) (p : JobPoint)

/-- The configuration of a job raises where `re.sub` does for the cell file, and else has
    these lines. -/
theorem config_free (cell_dir base_cfg_content temp_dir results_dir : List Char) (py : PythonHost)
    (hroadmap : Inserted p.roadmap) :
    (py.expand (cellSetting (p.cellPath cell_dir py)) = none →
        p.config scripts m cell_dir base_cfg_content temp_dir results_dir py = none) ∧
      ∀ cell, py.expand (cellSetting (p.cellPath cell_dir py)) = some cell →
        ∃ text, p.config scripts m cell_dir base_cfg_content temp_dir results_dir py = some text ∧
          text.splitOn '\n' = overriddenLines scripts m p (join cell_dir p.cell_file)
            ((freeText (integer p.cap_kb) cell base_cfg_content).splitOn '\n') := by
  obtain ⟨hraises, hlines⟩ := rewriteBase_free py
    (p.args scripts m cell_dir base_cfg_content temp_dir results_dir) hroadmap
  constructor
  · intro hnone
    have hbase := hraises hnone
    unfold JobPoint.config rewriteConfig
    rw [hbase]
    rfl
  · intro cell hcell
    obtain ⟨base, hbase, hbaseLines⟩ := hlines cell hcell
    obtain ⟨text, htext, hoverridden⟩ := rewriteConfig_of_base py _ hbase fun o ho =>
      ⟨plainName_override scripts m p _ ho, inserted_setting_override scripts m p _ ho⟩
    rw [hbaseLines] at hoverridden
    exact ⟨text, htext, hoverridden⟩

end

/-! ## Behind the free substitutions -/

theorem newline_not_mem_capacitySetting (z : ℤ) : '\n' ∉ capacitySetting (integer z) :=
  (Inserted.setting (inserted_of_all (by decide)) (inserted_integer z)).newline

theorem newline_not_mem_cellSetting {path : List Char} (hpath : '\n' ∉ path) :
    '\n' ∉ cellSetting path := by
  unfold cellSetting setting
  simp only [List.mem_cons, List.mem_append, not_or]
  exact ⟨by decide, ⟨by decide, by decide⟩, hpath⟩

theorem swapped_capacity {unit : List Char} (hunit : ∃ z, unit = '(' :: z ∧ '\n' ∉ z) (z : ℤ)
    (t : List Char) : LinePattern.Swapped (capacityPattern unit) (capacitySetting (integer z))
      (t.splitOn '\n')
      (((capacityPattern unit).sub (capacitySetting (integer z)) t).splitOn '\n') := by
  have hfree : (capacityPattern unit).Free := by
    obtain ⟨z, rfl, -⟩ := hunit
    exact free_capacity rfl
  exact hfree.swapped t

/-- The lines behind the substitutions of the capacity, as read. -/
theorem asRead_capacityText (z : ℤ) (t : List Char) :
    ∃ ls, CapacitySwapped "(MB)".toList (capacitySetting (integer z))
        (asRead (t.splitOn '\n')) ls ∧
      CapacitySwapped "(KB)".toList (capacitySetting (integer z)) ls
        (asRead ((capacityText (integer z) t).splitOn '\n')) := by
  have hswap {unit : List Char} (hunit : ∃ z, unit = '(' :: z ∧ '\n' ∉ z) (t : List Char) :
      CapacitySwapped unit (capacitySetting (integer z)) (asRead (t.splitOn '\n'))
        (asRead (((capacityPattern unit).sub (capacitySetting (integer z)) t).splitOn '\n')) :=
    .asRead_of_swapped hunit (newline_not_mem_capacitySetting z) (capacitySetting_cons _)
      (swapped_capacity hunit z t)
  exact ⟨_, hswap ⟨"MB)".toList, rfl, by decide⟩ t, hswap ⟨"KB)".toList, rfl, by decide⟩ _⟩

/-- Behind the substitution of the cell file. -/
theorem asRead_freeText {cap path : List Char} (hpath : '\n' ∉ path) (t : List Char) :
    asRead ((freeText cap (cellSetting path) t).splitOn '\n') =
      freeMap cellFilePattern (cellSetting path) (asRead ((capacityText cap t).splitOn '\n')) := by
  have hcell := newline_not_mem_cellSetting hpath
  unfold freeText
  rw [LinePattern.sub_splitOn hcell fun l _ => local_cellFile l]
  exact asRead_freeMap freePattern_cellFile (cellSetting_cons path) _

section
variable {β : Type} {o : ConfigOption} {b : List Char → β}

/-- The lines of a branch, looked at. -/
def onBranch (o : ConfigOption) (b : List Char → β) (l : List Char) : Option β :=
  if optionOf l = some o then some (b l) else none

theorem filterMap_onBranch (ls : List (List Char)) :
    ls.filterMap (onBranch o b) = (taken o ls).map b := by
  induction ls with
  | nil => rfl
  | cons l ls ih =>
      rw [List.filterMap_cons, ih]
      unfold taken onBranch
      by_cases hl : optionOf l = some o
      · rw [if_pos hl, List.filter_cons_of_pos (by simpa using hl), List.map_cons]
      · rw [if_neg hl, List.filter_cons_of_neg (by simpa using hl)]

theorem onBranch_congr {c : Char} (hc : ¬ ['-', c] <+: o.key)
    (hb : ∀ u a a' : List Char, skipSpace u ≠ [] →
      b (u ++ '-' :: c :: a) = b (u ++ '-' :: c :: a')) (u a a' : List Char) :
    onBranch o b (u ++ '-' :: c :: a) = onBranch o b (u ++ '-' :: c :: a') := by
  unfold onBranch
  by_cases hu : skipSpace u = []
  · rw [optionOf_blank_append hu, optionOf_blank_append hu, if_neg (ne_option_of_key hc a),
      if_neg (ne_option_of_key hc a')]
  · rw [optionOf_congr hu (a := c :: a) (b := c :: a'), hb u a a' hu]

theorem onBranch_lost {l : List Char} (h : Lost l) : onBranch o b l = none :=
  if_neg (h.optionOf_ne o)

theorem blind_onBranch (hC : ¬ ['-', 'C'] <+: o.key)
    (hb : ∀ u a a' : List Char, skipSpace u ≠ [] →
      b (u ++ '-' :: 'C' :: a) = b (u ++ '-' :: 'C' :: a')) : Blind (onBranch o b) where
  congr u a a' _ _ := onBranch_congr hC hb u a a'
  lost _ hl := onBranch_lost hl

end

section
variable {z : ℤ} {path : List Char} {ls ls' ms : List (List Char)}
  (hMB : CapacitySwapped "(MB)".toList (capacitySetting (integer z)) ls ls')
  (hKB : CapacitySwapped "(KB)".toList (capacitySetting (integer z)) ls' ms)
include hMB hKB

/-- What a blind look at the lines sees does not change. -/
theorem filterMap_free {β : Type} {W : List Char → Option β} (hW : Blind W)
    (hcell : ∀ u a b, W (u ++ '-' :: 'M' :: a) = W (u ++ '-' :: 'M' :: b)) :
    (freeMap cellFilePattern (cellSetting path) ms).filterMap W = ls.filterMap W := by
  rw [← hMB.filterMap_eq hW (capacitySetting_start _),
    ← hKB.filterMap_eq hW (capacitySetting_start _)]
  unfold freeMap
  rw [List.filterMap_map]
  refine List.filterMap_congr fun l _ => ?_
  rw [Function.comp_apply]
  obtain ⟨b, hb⟩ := cellSetting_cons path
  rcases freeSub_cases freePattern_cellFile (cellSetting path) l with h | ⟨u, a, rfl, -, h⟩
  · rw [h]
  · rw [h, hb]
    exact hcell u b a

theorem standings_free {V : Type} {param : List Char} {o : ConfigOption}
    {val : List Char → Option V} (hparam : PlainName param)
    (halpha : param.head?.any Char.isAlpha = true) (hval : Bounded val)
    (hC : ¬ ['-', 'C'] <+: o.key) (hM : ¬ ['-', 'M'] <+: o.key) :
    (freeMap cellFilePattern (cellSetting path) ms).filterMap (standing param o val) =
      ls.filterMap (standing param o val) :=
  filterMap_free hMB hKB (blind_standing hparam halpha hval hC) fun u a b =>
    standing_congr hparam hval (.inr rfl) hM u a b

/-- A branch without lines gets none. -/
theorem taken_free_nil {o : ConfigOption} (hC : ¬ ['-', 'C'] <+: o.key)
    (hM : ¬ ['-', 'M'] <+: o.key) (h : taken o ls = []) :
    taken o (freeMap cellFilePattern (cellSetting path) ms) = [] := by
  have hview : (freeMap cellFilePattern (cellSetting path) ms).filterMap (onBranch o fun _ => ()) =
      ls.filterMap (onBranch o fun _ => ()) :=
    filterMap_free hMB hKB
      (blind_onBranch hC fun _ _ _ _ => rfl) (onBranch_congr hM fun _ _ _ _ => rfl)
  rw [filterMap_onBranch, filterMap_onBranch, h, List.map_nil, List.map_eq_nil_iff] at hview
  exact hview

/-- The substitutions of the capacity leave the one cell file. -/
theorem cell_capacity {l : List Char} (hone : taken .memoryCellInputFile ls = [l])
    (hstart : "-MemoryCellInputFile:".toList <+: skipSpace l) :
    ∃ l', taken .memoryCellInputFile ms = [l'] ∧
      "-MemoryCellInputFile:".toList <+: skipSpace l' := by
  have hblind : Blind (onBranch .memoryCellInputFile fun l =>
      "-MemoryCellInputFile:".toList.isPrefixOf (skipSpace l)) := by
    refine blind_onBranch (by decide) fun u a b hu => ?_
    rw [Bool.eq_iff_iff, List.isPrefixOf_iff_prefix, List.isPrefixOf_iff_prefix,
      prefix_dash_iff (by decide) hu, prefix_dash_iff (by decide) hu]
  have hkept : (taken .memoryCellInputFile ms).map (fun l =>
      "-MemoryCellInputFile:".toList.isPrefixOf (skipSpace l)) = [true] := by
    rw [← filterMap_onBranch, hKB.filterMap_eq hblind (capacitySetting_start _),
      hMB.filterMap_eq hblind (capacitySetting_start _), filterMap_onBranch, hone]
    rw [List.map_cons, List.isPrefixOf_iff_prefix.mpr hstart, List.map_nil]
  obtain ⟨l', hl', hstart'⟩ := List.map_eq_singleton_iff.mp hkept
  exact ⟨l', hl', List.isPrefixOf_iff_prefix.mp hstart'⟩

/-- The one cell file is that of the job. -/
theorem cell_free {l : List Char} (hone : taken .memoryCellInputFile ls = [l])
    (hstart : "-MemoryCellInputFile:".toList <+: skipSpace l) :
    ∃ l', taken .memoryCellInputFile (freeMap cellFilePattern (cellSetting path) ms) = [l'] ∧
      skipSpace l' = cellSetting path := by
  obtain ⟨l₁, hl₁, hstart₁⟩ := cell_capacity hMB hKB hone hstart
  refine ⟨cellFilePattern.subLine (cellSetting path) true l₁, ?_, ?_⟩
  · rw [taken_freeMap_cellFile, hl₁]
    rfl
  · exact skipSpace_freeSub freePattern_cellFile (isSome_cellFileHead hstart₁)
      (skipSpace_setting _ _)

/-- Behind the free substitutions the line of the cell file leaves the path, and every other
    line what it left. -/
theorem scratch_free {V : Type} {o : ConfigOption} {d : List Char → V} {v : V} {l : List Char}
    (hone : taken .memoryCellInputFile ls = [l])
    (hstart : "-MemoryCellInputFile:".toList <+: skipSpace l) (hpath : IsWord path)
    {rs : List (List Char × List Char)} (hplain : ∀ r ∈ rs, PlainName r.1)
    (halpha : ∀ r ∈ rs, r.1.head?.any Char.isAlpha = true)
    (hrepl : ∀ r ∈ rs, optionOf r.2 ≠ some .memoryCellInputFile) (ho : scansWord o = true)
    (hcell : o ≠ .memoryCellInputFile) (hd : ∀ w, '-' ∈ w → d w = v) :
    (freeMap cellFilePattern (cellSetting path) ms).filterMap (behind (scratch o d) rs) =
      ls.filterMap (behind (scratchAt path o d) rs) := by
  have hblind : Blind (behind (scratchAt path o d) rs) :=
    blind_behind_scratchAt hplain halpha ho hd
  rw [← hMB.filterMap_eq hblind (capacitySetting_start _),
    ← hKB.filterMap_eq hblind (capacitySetting_start _)]
  obtain ⟨l₁, hl₁, hstart₁⟩ := cell_capacity hMB hKB hone hstart
  unfold freeMap
  rw [List.filterMap_map]
  refine List.filterMap_congr fun m hm => ?_
  rw [Function.comp_apply]
  refine behind_congr
    (fun r hr => names_freeSub freePattern_cellFile (cellSetting_cons path) (hplain r hr) m)
    (fun r hr => (if_neg (hrepl r hr)).symm) ?_
  unfold scratchAt
  by_cases hm' : optionOf m = some .memoryCellInputFile
  · -- the one cell file is replaced
    have hmem : m ∈ taken .memoryCellInputFile ms := mem_taken.mpr ⟨hm, hm'⟩
    rw [hl₁, List.mem_singleton] at hmem
    subst hmem
    have hskip := skipSpace_freeSub freePattern_cellFile (isSome_cellFileHead hstart₁)
      (skipSpace_setting "MemoryCellInputFile".toList path)
    have hoption := optionOf_of_skipSpace (hskip.trans (skipSpace_setting _ _).symm)
    rw [← cellSetting, optionOf_cellSetting] at hoption
    have hword : wordIn .memoryCellInputFile
        (cellFilePattern.subLine (cellSetting path) true m) = some path := by
      unfold wordIn
      rw [cellSetting, hskip, setting_eq_text label_cell,
        scan_word ConfigOption.memoryCellInputFile hpath]
    rw [if_pos hm']
    unfold scratch
    rw [hoption, Option.bind_some, if_neg (Ne.symm hcell), hword]
    rfl
  · rw [if_neg hm']
    rcases freeSub_cases freePattern_cellFile (cellSetting path) m with h | ⟨u, a, rfl, ha, h⟩
    · rw [h]
    · -- a match at the start of the line would be the cell file
      obtain ⟨b, hb⟩ := cellSetting_cons path
      rw [h, hb]
      refine scratch_congr_dash hd (fun hu => hm' ?_) (by decide) b a
      rw [optionOf_blank_append hu, optionOf_of_cellFileHead ha]

/-- The capacity is that of the job. -/
theorem capacity_free
    (hactive : ∀ o ∈ [ConfigOption.capacityB, .capacityKB, .capacityMB],
      ∀ l ∈ taken o ls, isCapacityLine l = true)
    (hsome : ∃ l ∈ ls, isCapacityLine l = true) :
    Fixed .capacityKB (capacitySetting (integer z))
        (freeMap cellFilePattern (cellSetting path) ms) ∧
      taken .capacityB (freeMap cellFilePattern (cellSetting path) ms) = [] ∧
      taken .capacityMB (freeMap cellFilePattern (cellSetting path) ms) = [] := by
  obtain ⟨hactive', hsome'⟩ := hMB.megabytes hactive hsome
  obtain ⟨hall, l, hl, hskip⟩ := hKB.kilobytes hactive' hsome'
  have hoption {l : List Char} (hl : skipSpace l = capacitySetting (integer z)) :
      optionOf l = some .capacityKB := by
    rw [optionOf_of_skipSpace (hl.trans (skipSpace_capacitySetting _).symm),
      optionOf_capacitySetting]
  have hfreed : ∀ o ∈ [ConfigOption.capacityB, .capacityKB, .capacityMB],
      ∀ l ∈ taken o (freeMap cellFilePattern (cellSetting path) ms),
        skipSpace l = capacitySetting (integer z) := by
    intro o ho l hl
    obtain ⟨hmem, hbranch⟩ := mem_taken.mp hl
    obtain ⟨l', hl', rfl⟩ := List.mem_map.mp hmem
    have hearlier (h : optionOf l' = some o) : skipSpace l' = capacitySetting (integer z) :=
      hall o ho l' (mem_taken.mpr ⟨hl', h⟩)
    rcases freeSub_trichotomy freePattern_cellFile (cellSetting_cons path) l' with
      h | ⟨-, h⟩ | ⟨w, a, -, hline, -, h⟩
    · rw [h] at hbranch ⊢
      exact hearlier hbranch
    · -- the line of the cell file has its own branch
      have hcell := optionOf_of_skipSpace (h.trans (skipSpace_setting _ _).symm)
      rw [← cellSetting, optionOf_cellSetting] at hcell
      obtain rfl := Option.some.inj (hbranch.symm.trans hcell)
      exact absurd ho (by decide)
    · rw [h] at hbranch
      rw [hearlier hbranch] at hline
      have hmem : 'M' ∈ capacitySetting (integer z) := by
        rw [hline]
        simp
      exact absurd hmem (not_mem_capacitySetting z)
  have hnone {o : ConfigOption} (ho : o ∈ [ConfigOption.capacityB, .capacityKB, .capacityMB])
      (hne : o ≠ .capacityKB) :
      taken o (freeMap cellFilePattern (cellSetting path) ms) = [] := by
    rw [List.eq_nil_iff_forall_not_mem]
    intro l hl
    exact hne (Option.some.inj
      ((mem_taken.mp hl).2.symm.trans (hoption (hfreed o ho l hl))))
  refine ⟨⟨?_, hfreed _ (by decide)⟩, hnone (by decide) (by decide), hnone (by decide) (by decide)⟩
  -- the cell file substitution keeps the line of the capacity
  refine List.ne_nil_of_mem (a := l) (mem_taken.mpr ⟨List.mem_map.mpr ⟨l, hl, ?_⟩, hoption hskip⟩)
  refine freeSub_of_not_mem freePattern_cellFile (cellSetting_cons path) ?_
  rw [hskip]
  exact not_mem_capacitySetting z

end

/-! ## The first line -/

theorem sameFirst_of_swapped {unit repl : List Char} {ls ms : List (List Char)}
    (hunit : ∃ z, unit = '(' :: z ∧ '\n' ∉ z) (hrepl : '\n' ∉ repl)
    (hstart : ∃ b, repl = '-' :: 'C' :: b) (hne : ls ≠ [])
    (h : LinePattern.Swapped (capacityPattern unit) repl ls ms) : SameFirst ls ms := by
  cases h with
  | nil => exact absurd rfl hne
  | @keep l ls ms _ _ _ => exact ⟨l, ls, l, ms, rfl, rfl, .refl l⟩
  | @swap u body rest r ls ms hu hfirst hmatch hend hrest =>
      obtain ⟨a, ds, -, hlines, -⟩ := splitOn_match hunit hu hmatch hend
      have hclean : '\n' ∉ u ++ repl := by
        rw [List.mem_append, not_or]
        exact ⟨hu, hrepl⟩
      obtain ⟨b, rfl⟩ := hstart
      rw [hlines, List.splitOn_eq_singleton hclean]
      exact ⟨_, _, _, _, rfl, rfl, sameStart_dash (.inl rfl) u a b⟩

theorem sameFirst_freeText (z : ℤ) {path : List Char} (hpath : '\n' ∉ path) (t : List Char) :
    SameFirst (t.splitOn '\n') ((freeText (integer z) (cellSetting path) t).splitOn '\n') := by
  have hswap {unit : List Char} (hunit : ∃ z, unit = '(' :: z ∧ '\n' ∉ z) (t : List Char) :
      SameFirst (t.splitOn '\n')
        (((capacityPattern unit).sub (capacitySetting (integer z)) t).splitOn '\n') :=
    sameFirst_of_swapped hunit (newline_not_mem_capacitySetting z) (capacitySetting_cons _)
      (List.splitOn_ne_nil '\n' t) (swapped_capacity hunit z t)
  have hcell := newline_not_mem_cellSetting hpath
  have hlast (t : List Char) :
      SameFirst (t.splitOn '\n') ((cellFilePattern.sub (cellSetting path) t).splitOn '\n') := by
    rw [LinePattern.sub_splitOn hcell fun l _ => local_cellFile l]
    exact sameFirst_freeMap freePattern_cellFile (cellSetting_cons path)
      (List.splitOn_ne_nil '\n' t)
  have hcapacities := (hswap ⟨"MB)".toList, rfl, by decide⟩ t).trans
    (hswap ⟨"KB)".toList, rfl, by decide⟩ _)
  exact hcapacities.trans (hlast _)

end Destiny.Sweep
