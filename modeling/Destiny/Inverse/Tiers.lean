/-
  Destiny.Inverse.Tiers

  `validate_and_capture` of inverse_design_utils.py: DESTINY runs on a layout, and
  where nothing comes of it once more with the mats, the banks or both left free.

  A process that does not end in time is killed, and what has been collected of its
  console is a prefix of what it prints.  A summary that is cut off would give some
  of the metrics; but only the last line says that DESTINY has finished, so a run
  gives all its metrics or none (`attempt_eq`).
-/

import Mathlib.Tactic.IntervalCases
import Destiny.Csv.RoundTrip
import Destiny.Inverse.Validate

namespace Destiny

open Lib

/-! ## The call -/

/-- A process when its output is looked at. -/
structure Collected where
  /-- none as long as the process is not known to have ended -/
  returncode : Option ℤ
  output_lines : List (List Char)

/-- `_attempt` from the process on; none when `float` raises. -/
def attempt (process : Collected) (csv : Option Ppa) : Option (Option Ppa) :=
  let stdout_text := reportText process.output_lines
  let has_1e50 := decide ("1e+50".toList <:+: stdout_text)
  let has_nosol := decide ("numSolutions = 0".toList <:+: stdout_text)
  let bad_retcode := decide (process.returncode ≠ some 0 ∧ process.returncode ≠ none)
  let success_signal := decide ("Finished!".toList <:+: stdout_text) ||
    decide ("csv generated successfully".toList <:+: stdout_text) || csv.isSome
  if bad_retcode || has_1e50 || has_nosol || !success_signal then some none
  else parse_destiny_output stdout_text csv

/-- The metrics, with the keys that say which parts were left free. -/
structure Captured where
  ppa : Ppa
  used_fallback_mat : Bool
  used_fallback_bank : Bool

section
variable (destiny : List (List Char) → Collected) (layout : Layout) (a : ConfigArgs)
  (csv : Option Ppa)

/-- `int(lc.get(key, count))` -/
def Layout.intOr (key : LayoutKey) (count : ℤ) : Option ℤ :=
  ((layout key).map RowValue.int?).getD (some count)

/-- `_preflight_debug`; none when it raises.  Its quotients are exact here, and what it
    prints is left out. -/
def preflight_debug (free_mat : Bool) : Option Unit := do
  let mat_r ← layout.intOr (.data .num_active_mat_per_row) 1
  let mat_c ← layout.intOr (.data .num_active_mat_per_col) 1
  let _sub_r ← layout.intOr (.data .num_active_subarray_per_row) 1
  let sub_c ← layout.intOr (.data .num_active_subarray_per_col) 1
  let _tot_r ← layout.intOr (.data .num_row_mat) mat_r
  let _tot_c ← layout.intOr (.data .num_col_mat) mat_c
  let _tag_mat_r ← layout.intOr (.tag .num_active_mat_per_row) 1
  let _tag_mat_c ← layout.intOr (.tag .num_active_mat_per_col) 1
  let _tag_mat_col_active ← layout.intOr (.tag .num_active_subarray_per_row) 1
  let rps_denom := a.assoc * a.ww * mat_c * sub_c
  -- `int(rps)` of an infinite `rps`
  if free_mat = false ∧ rps_denom = 0 then none else some ()

/-- The configuration file of a tier; none when the script raises before DESTINY starts. -/
def prepareTier (free_mat free_bank : Bool) : Lines :=
  (preflight_debug layout a free_mat).bind fun _ =>
    generate_destiny_configs layout a free_mat free_bank

/-- `_attempt`; `destiny` is what comes of a run on a configuration file. -/
def attemptTier (free_mat free_bank : Bool) : Option (Option Ppa) :=
  (prepareTier layout a free_mat free_bank).bind fun cfg => attempt (destiny cfg) csv

def validate_and_capture : Option (Option Captured) := do
  match ← attemptTier destiny layout a csv false false with
  | some result => some (some ⟨result, false, false⟩)
  | none =>
    match ← attemptTier destiny layout a csv true false with
    | some result => some (some ⟨result, true, false⟩)
    | none =>
      match ← attemptTier destiny layout a csv false true with
      | some result => some (some ⟨result, false, true⟩)
      | none =>
        let result ← attemptTier destiny layout a csv true true
        some (result.map fun result => ⟨result, true, true⟩)

/-- Which parts the tiers leave free: mats, banks. -/
def tiers : List (Bool × Bool) := [(false, false), (true, false), (false, true), (true, true)]

variable {destiny layout a csv}

/-- The first tier that gives metrics decides. -/
theorem validate_and_capture_of_tiers {f : Bool × Bool → Option Ppa}
    (h : ∀ t, attemptTier destiny layout a csv t.1 t.2 = some (f t)) :
    validate_and_capture destiny layout a csv =
      some (tiers.findSome? fun t => (f t).map fun ppa => ⟨ppa, t.1, t.2⟩) := by
  have hlocked := h (false, false)
  have hmat := h (true, false)
  have hbank := h (false, true)
  have hboth := h (true, true)
  simp only [validate_and_capture, hlocked, hmat, hbank, hboth, tiers, List.findSome?_cons,
    List.findSome?_nil, Option.bind_eq_bind, Option.bind_some]
  cases f (false, false) with
  | some ppa => rfl
  | none =>
    cases f (true, false) with
    | some ppa => rfl
    | none =>
      cases f (false, true) with
      | some ppa => rfl
      | none => cases f (true, true) <;> rfl

/-- A script that raises at the first tier returns nothing. -/
theorem validate_and_capture_raised (h : prepareTier layout a false false = none) :
    validate_and_capture destiny layout a csv = none := by
  simp only [validate_and_capture, attemptTier, h, Option.bind_none, Option.bind_eq_bind]

end

/-! ## Parts left free -/

theorem isSome_allLines (chunks : List Lines) :
    (allLines chunks).isSome = chunks.all Option.isSome := by
  induction chunks with
  | nil => rfl
  | cons c chunks ih =>
    rw [List.all_cons, ← ih]
    cases c with
    | none => rfl
    | some lines => cases hrest : allLines chunks <;> simp [allLines, hrest]

section
variable {layout : Layout} {a : ConfigArgs}

/-- Nothing is read of a part that is left free. -/
theorem Layout.forceActive_free (label : List Char) (colKey rowKey : LayoutKey) :
    layout.forceActive true label colKey rowKey = some [] := by
  unfold Layout.forceActive
  split
  · contradiction
  · rfl

theorem Layout.forceTotal_free (label : List Char) (rowTotal colTotal colKey rowKey : LayoutKey) :
    layout.forceTotal true label rowTotal colTotal colKey rowKey = some [] := by
  unfold Layout.forceTotal
  split
  · contradiction
  · exact forceActive_free label colKey rowKey

theorem isSome_generate_free (free_mat free_bank : Bool)
    (h : (generate_destiny_configs layout a false false).isSome = true) :
    (generate_destiny_configs layout a free_mat free_bank).isSome = true := by
  simp only [generate_destiny_configs, isSome_allLines, Layout.dataArrayLines, Layout.tagLines,
    List.all_cons, List.all_append, List.all_nil, Bool.and_eq_true] at h ⊢
  have hactive := layout.forceActive_free
  have htotal := layout.forceTotal_free
  cases free_mat <;> cases free_bank <;> simp_all

theorem preflight_debug_free (free_mat : Bool) (h : preflight_debug layout a false = some ()) :
    preflight_debug layout a free_mat = some () := by
  cases free_mat with
  | false => exact h
  | true =>
    simp only [preflight_debug, Option.bind_eq_bind, Option.bind_eq_some_iff] at h ⊢
    obtain ⟨mat_r, hmat_r, mat_c, hmat_c, sub_r, hsub_r, sub_c, hsub_c, tot_r, htot_r, tot_c,
      htot_c, tag_mat_r, htag_mat_r, tag_mat_c, htag_mat_c, active, hactive, -⟩ := h
    exact ⟨mat_r, hmat_r, mat_c, hmat_c, sub_r, hsub_r, sub_c, hsub_c, tot_r, htot_r, tot_c,
      htot_c, tag_mat_r, htag_mat_r, tag_mat_c, htag_mat_c, active, hactive,
      if_neg fun hforced => absurd hforced.1 (by decide)⟩

/-- Where the first tier gets to DESTINY, the others do. -/
theorem prepareTier_free {lines : List (List Char)}
    (h : prepareTier layout a false false = some lines) (free_mat free_bank : Bool) :
    ∃ cfg, prepareTier layout a free_mat free_bank = some cfg := by
  obtain ⟨_, hdebug, hgenerate⟩ := Option.bind_eq_some_iff.mp h
  have hcfg := isSome_generate_free free_mat free_bank (Option.isSome_of_eq_some hgenerate)
  obtain ⟨cfg, hcfg⟩ := Option.isSome_iff_exists.mp hcfg
  exact ⟨cfg, by rw [prepareTier, preflight_debug_free free_mat hdebug, Option.bind_some, hcfg]⟩

end

/-! ## What a run prints -/

/-- The words `_attempt` looks for. -/
def outcomeWords : List (List Char) :=
  ["1e+50".toList, "numSolutions = 0".toList, "Finished!".toList,
   "csv generated successfully".toList]

/-- Lines that say nothing of how a run ends. -/
def Quiet (lines : List (List Char)) : Prop :=
  ∀ line ∈ lines, ∀ word ∈ outcomeWords, ¬ word <:+: line

theorem Quiet.append {l m : List (List Char)} (hl : Quiet l) (hm : Quiet m) : Quiet (l ++ m) :=
  not_infix_append hl hm

theorem quiet_of_lacksWord {lines : List (List Piece)}
    (h : (lines.all fun line => outcomeWords.all fun w => lacksWord w line) = true) :
    Quiet (lines.map renderLine) :=
  not_infix_of_lacksWords h

/-- The words do not run over the end of a line. -/
theorem not_infix_of_lines {lines : List (List Char)} {word : List Char}
    (hword : word ∈ outcomeWords) (h : ∀ line ∈ lines, ¬ word <:+: line) :
    ¬ word <:+: reportText lines := by
  have hplain : ∀ word ∈ outcomeWords, word ≠ [] ∧ '\n' ∉ word := by decide +kernel
  exact not_infix_reportText (hplain word hword).1 (hplain word hword).2 h

theorem not_infix_of_quiet {lines : List (List Char)} (h : Quiet lines) {word : List Char}
    (hword : word ∈ outcomeWords) : ¬ word <:+: reportText lines :=
  not_infix_of_lines hword fun line hline => h line hline word hword

/-- The summary of a cache is quiet. -/
theorem quiet_cacheSummary (g : CsvGlobals) (data tag : ReportedBank) (mode : CacheAccessMode) :
    Quiet ((cacheSummary g data tag mode).map renderLine) := by
  have hhead : Quiet ((summaryHead mode).map renderLine) :=
    quiet_of_lacksWord (by cases mode <;> rfl)
  have hareas (c : CacheMetrics) : Quiet ((summaryAreas data tag c).map renderLine) :=
    quiet_of_lacksWord rfl
  have htiming (c : CacheMetrics) : Quiet ((summaryTiming c).map renderLine) :=
    quiet_of_lacksWord rfl
  have henergy (c : CacheMetrics) : Quiet ((summaryEnergy c).map renderLine) :=
    quiet_of_lacksWord rfl
  have hleakage (c : CacheMetrics) : Quiet ((summaryLeakage data tag c).map renderLine) :=
    quiet_of_lacksWord rfl
  have hlines {lines : List (List Piece)}
      (h : (lines.all fun line => outcomeWords.all fun w => lacksWord w line) = true) :
      Quiet ((g.refreshLines lines).map renderLine) := by
    refine quiet_of_lacksWord ?_
    unfold CsvGlobals.refreshLines
    split
    · exact h
    · rfl
  have hrefresh : Quiet ((summaryRefresh g data tag).map renderLine) := hlines rfl
  have hrefreshEnergy : Quiet ((summaryRefreshEnergy g data tag).map renderLine) := hlines rfl
  have hrefreshPower : Quiet ((summaryRefreshPower g data).map renderLine) := by
    refine hlines ?_
    -- the unit depends on the power
    unfold consoleWatt
    split_ifs <;> rfl
  unfold cacheSummary
  simp only [List.map_append]
  exact hhead.append ((hareas _).append ((htiming _).append (hrefresh.append
    ((henergy _).append (hrefreshEnergy.append ((hleakage _).append hrefreshPower))))))

/-- `numSolutions = … / numDesigns = …` -/
def numSolutionsLine (numSolution numDesigns : ℕ) : List Char :=
  "numSolutions = ".toList ++ (integer numSolution ++
    (" / numDesigns = ".toList ++ integer numDesigns))

theorem not_mem_numSolutionsLine {c : Char} (hnumeral : isNumeral c = false)
    (htext : ("numSolutions = ".toList ++ " / numDesigns = ".toList).contains c = false) (s n : ℕ) :
    c ∉ numSolutionsLine s n := by
  have hinteger (z : ℤ) : c ∉ integer z := by
    intro hmem
    rw [isNumeral_of_mem_integer hmem] at hnumeral
    cases hnumeral
  have hwords : c ∉ "numSolutions = ".toList ++ " / numDesigns = ".toList := by
    intro hmem
    rw [List.contains_iff_mem.mpr hmem] at htext
    cases htext
  rw [List.mem_append, not_or] at hwords
  unfold numSolutionsLine
  simp only [List.mem_append, not_or]
  exact ⟨hwords.1, hinteger s, hwords.2, hinteger n⟩

/-- No number but zero starts with a zero. -/
theorem toDigits_ne_zero_cons {n : ℕ} (hn : 0 < n) (ds : List Char) :
    Nat.toDigits 10 n ≠ '0' :: ds := by
  induction n using Nat.strong_induction_on generalizing ds with
  | _ n ih =>
    intro h
    by_cases hlt : n < 10
    · rw [Nat.toDigits_of_lt_base hlt] at h
      obtain ⟨hdigit, -⟩ := List.cons.inj h
      revert hdigit
      clear ih h
      interval_cases n <;> decide
    · rw [Nat.toDigits_of_base_le (by decide) (by omega)] at h
      obtain ⟨c, cs, hcs⟩ :=
        List.exists_cons_of_ne_nil (Nat.toDigits_ne_nil (n := n / 10) (b := 10))
      rw [hcs, List.cons_append] at h
      obtain ⟨rfl, -⟩ := List.cons.inj h
      exact ih (n / 10) (by omega) (by omega) cs hcs

/-- A positive count is not taken for zero. -/
theorem quiet_numSolutionsLine {s : ℕ} (hs : 0 < s) (n : ℕ) : Quiet [numSolutionsLine s n] := by
  have hlacks {word : List Char} {c : Char} (hc : c ∈ word) (hnumeral : isNumeral c = false)
      (htext : ("numSolutions = ".toList ++ " / numDesigns = ".toList).contains c = false) :
      ¬ word <:+: numSolutionsLine s n :=
    fun hword => not_mem_numSolutionsLine hnumeral htext s n (hword.subset hc)
  intro line hline word hword
  obtain rfl := List.mem_singleton.mp hline
  simp only [outcomeWords, List.mem_cons, List.not_mem_nil, or_false] at hword
  rcases hword with rfl | rfl | rfl | rfl
  · exact hlacks (c := '+') (by decide +kernel) (by decide) (by decide +kernel)
  · -- the only capital S of the line is that of its first word
    rintro ⟨u, v, huv⟩
    have hS : 'S' ∉ "olutions = ".toList ++ (integer s ++
        (" / numDesigns = ".toList ++ integer n)) := by
      have hinteger (z : ℤ) : 'S' ∉ integer z := fun hmem => by
        have hnumeral := isNumeral_of_mem_integer hmem
        revert hnumeral
        decide
      simp only [List.mem_append, not_or]
      exact ⟨by decide +kernel, hinteger s, by decide +kernel, hinteger n⟩
    have hshape : (u ++ "num".toList) ++ 'S' :: ("olutions = ".toList ++ ('0' :: v)) =
        "num".toList ++ 'S' :: ("olutions = ".toList ++ (integer s ++
          (" / numDesigns = ".toList ++ integer n))) := by
      have hline : u ++ ("num".toList ++ 'S' :: "olutions = 0".toList) ++ v =
          numSolutionsLine s n := huv
      calc (u ++ "num".toList) ++ 'S' :: ("olutions = ".toList ++ ('0' :: v))
          = u ++ ("num".toList ++ 'S' :: "olutions = 0".toList) ++ v := by simp
        _ = numSolutionsLine s n := hline
        _ = _ := rfl
    have hnum : 'S' ∉ "num".toList := by decide +kernel
    obtain ⟨-, -, hrest⟩ := (List.append_cons_inj_of_notMem hnum hS).mp hshape.symm
    have hcount := List.append_cancel_left hrest
    rw [integer, if_neg (by omega), Int.natAbs_natCast] at hcount
    obtain ⟨d, ds, hds⟩ := List.exists_cons_of_ne_nil (Nat.toDigits_ne_nil (n := s) (b := 10))
    rw [hds, List.cons_append] at hcount
    obtain ⟨rfl, -⟩ := List.cons.inj hcount
    exact toDigits_ne_zero_cons hs ds hds
  · exact hlacks (c := '!') (by decide +kernel) (by decide) (by decide +kernel)
  · exact hlacks (c := 'v') (by decide +kernel) (by decide) (by decide +kernel)

theorem labelFree_numSolutionsLine (k : PpaMetric) (s n : ℕ) :
    k.LabelFree [numSolutionsLine s n] := by
  have hcapital : ∀ label ∈ k.pattern.labels, label.any (fun c => !isNumeral c &&
      !(("numSolutions = ".toList ++ " / numDesigns = ".toList).contains c)) = true := by
    cases k <;> decide +kernel
  intro line hline label hlabel hword
  obtain rfl := List.mem_singleton.mp hline
  obtain ⟨c, hc, hother⟩ := List.any_eq_true.mp (hcapital label hlabel)
  obtain ⟨hnumeral, htext⟩ := Bool.and_eq_true_iff.mp hother
  exact not_mem_numSolutionsLine (by simpa using hnumeral) (by simpa using htext) s n
    (hword.subset hc)

/-! ## Runs -/

section
variable (g : CsvGlobals)

/-- A design found, with what is printed about it. -/
structure Solution where
  numSolution : ℕ
  numDesigns : ℕ
  data : ReportedResult
  tag : ReportedResult
  mode : CacheAccessMode
  details : List (List Char)
  found : 0 < numSolution
  isData : data.bank.memoryType = .data
  isTag : tag.bank.memoryType = .tag
  nonneg : ∀ k : PpaMetric, 0 ≤ k.ofCache g data.bank tag.bank mode
  quiet : Quiet details
  labelFree : g.cell.memCellType ≠ .eDRAM → ∀ k : PpaMetric, k.isRefresh = true →
    k.LabelFree details

/-- What an exploration of a cache for one target comes to. -/
inductive Outcome where
  | noTags
  | noSolutions (numDesigns : ℕ)
  | solved (s : Solution g)

/-- A run, with what it prints in front of the outcome. -/
structure CacheRun where
  before : List (List Char)
  outcome : Outcome g
  quiet : Quiet before
  labelFree : ∀ k : PpaMetric, k.LabelFree before

variable {g}

/-- The lines of `main` and `nvsim` on the outcome. -/
def Outcome.lines : Outcome g → List (List Char)
  | .noTags =>
    ["No valid solutions for tags.".toList, [], "Finished!".toList, "No valid solutions.".toList,
     [], "Finished!".toList]
  | .noSolutions numDesigns =>
    [numSolutionsLine 0 numDesigns, "No valid solutions.".toList, [], "Finished!".toList]
  | .solved s =>
    numSolutionsLine s.numSolution s.numDesigns ::
      (s.data.printAsCache g s.tag s.mode s.details ++ [[], "Finished!".toList])

def CacheRun.lines (r : CacheRun g) : List (List Char) := r.before ++ r.outcome.lines

/-- The process as it is looked at: it has printed the run, or was cut off before.
    `endl` flushes, so that lines come whole. -/
def CacheRun.Observed (r : CacheRun g) (p : Collected) : Prop := p.output_lines <+: r.lines

/-- The metrics a run leads to. -/
def Outcome.metrics : Outcome g → Option Ppa
  | .solved s => some (readBack g s.data.bank s.tag.bank s.mode)
  | _ => none

/-- A process gives the metrics of its run, if nothing is missing and it did not fail. -/
def CacheRun.captured (r : CacheRun g) (p : Collected) : Option Ppa :=
  if (p.returncode = some 0 ∨ p.returncode = none) ∧ p.output_lines = r.lines then
    r.outcome.metrics
  else none

/-! ## One run -/

theorem attempt_failed {p : Collected} (csv : Option Ppa)
    (h : ¬ (p.returncode = some 0 ∨ p.returncode = none)) : attempt p csv = some none := by
  have hbad : decide (p.returncode ≠ some 0 ∧ p.returncode ≠ none) = true :=
    decide_eq_true (not_or.mp h)
  simp only [attempt, hbad, Bool.true_or, if_true]

/-- Without labels nothing comes of a run, however it ends. -/
theorem attempt_labelFree {p : Collected} (h : ∀ k : PpaMetric, k.LabelFree p.output_lines) :
    attempt p none = some none := by
  simp only [attempt]
  split
  · rfl
  · exact parse_labelFree h

/-- Nor does it without the line that it has finished. -/
theorem attempt_unfinished {p : Collected} (h : Quiet p.output_lines) :
    attempt p none = some none := by
  have hfinished : decide ("Finished!".toList <:+: reportText p.output_lines) = false :=
    decide_eq_false (not_infix_of_quiet h (by decide +kernel))
  have hcsv : decide ("csv generated successfully".toList <:+: reportText p.output_lines) = false :=
    decide_eq_false (not_infix_of_quiet h (by decide +kernel))
  simp only [attempt, hfinished, hcsv, Option.isSome_none, Bool.or_false, Bool.not_false,
    Bool.or_true, if_true]

/-- A process that has printed its last line is parsed. -/
theorem attempt_finished {p : Collected} {front : List (List Char)}
    (hret : p.returncode = some 0 ∨ p.returncode = none)
    (hlines : p.output_lines = front ++ ["Finished!".toList]) (hquiet : Quiet front) :
    attempt p none = parse_destiny_output (reportText p.output_lines) none := by
  have hgood : decide (p.returncode ≠ some 0 ∧ p.returncode ≠ none) = false :=
    decide_eq_false (fun h => not_or.mpr h hret)
  have hlast : ∀ word ∈ ["1e+50".toList, "numSolutions = 0".toList],
      ¬ word <:+: "Finished!".toList := by decide +kernel
  -- the sentinels are not in the lines in front, nor in the last one
  have hquiet' {word : List Char} (hword : word ∈ outcomeWords)
      (hsentinel : word ∈ ["1e+50".toList, "numSolutions = 0".toList]) :
      ¬ word <:+: reportText p.output_lines := by
    refine not_infix_of_lines hword ?_
    rw [hlines]
    intro line hline
    rcases List.mem_append.mp hline with hfront | hend
    · exact hquiet line hfront word hword
    · obtain rfl := List.mem_singleton.mp hend
      exact hlast word hsentinel
  have hfinished : "Finished!".toList <:+: reportText p.output_lines := by
    have hmem : "Finished!".toList ∈ p.output_lines := by
      rw [hlines]
      exact List.mem_append_right front List.mem_cons_self
    exact infix_reportText hmem
  have h1e50 : ¬ "1e+50".toList <:+: reportText p.output_lines :=
    hquiet' (by decide +kernel) (by decide +kernel)
  have hnosol : ¬ "numSolutions = 0".toList <:+: reportText p.output_lines :=
    hquiet' (by decide +kernel) (by decide +kernel)
  simp only [attempt, hgood, decide_eq_false h1e50, decide_eq_false hnosol,
    decide_eq_true hfinished, Bool.or_self, Bool.true_or, Bool.not_true, Bool.false_eq_true,
    if_false]

/-- A run gives all its metrics or none. -/
theorem attempt_eq {r : CacheRun g} {p : Collected} (h : r.Observed p) :
    attempt p none = some (r.captured p) := by
  unfold CacheRun.captured
  -- a failed run is not parsed at all
  by_cases hret : p.returncode = some 0 ∨ p.returncode = none
  swap
  · rw [attempt_failed none hret, if_neg fun hboth => hret hboth.1]
  -- without a design no line has a label, so every metric stays unset
  have hnolabel (hlines : ∀ k : PpaMetric, k.LabelFree r.outcome.lines)
      (hmetrics : r.outcome.metrics = none) :
      attempt p none = some (if (p.returncode = some 0 ∨ p.returncode = none) ∧
        p.output_lines = r.lines then r.outcome.metrics else none) := by
    have hfree (k : PpaMetric) : k.LabelFree p.output_lines := fun line hline =>
      ((r.labelFree k).append (hlines k)) line (h.subset hline)
    rw [attempt_labelFree hfree, hmetrics, ite_self]
  cases houtcome : r.outcome with
  | noTags =>
    rw [← houtcome]
    refine hnolabel (fun k => ?_) (by rw [houtcome]; rfl)
    rw [houtcome]
    show k.LabelFree ["No valid solutions for tags.".toList, [], "Finished!".toList,
      "No valid solutions.".toList, [], "Finished!".toList]
    cases k <;> decide +kernel
  | noSolutions numDesigns =>
    rw [← houtcome]
    refine hnolabel (fun k => ?_) (by rw [houtcome]; rfl)
    rw [houtcome]
    have hend : k.LabelFree ["No valid solutions.".toList, [], "Finished!".toList] := by
      cases k <;> decide +kernel
    exact (labelFree_numSolutionsLine k 0 numDesigns).append hend
  | solved s =>
    have hsummary := printAsCache_eq (g := g) s.mode s.details s.isData s.isTag
    have hlines : r.lines = (r.before ++ ([numSolutionsLine s.numSolution s.numDesigns] ++
        ((cacheSummary g s.data.bank s.tag.bank s.mode).map renderLine ++ (s.details ++ [[]])))) ++
          ["Finished!".toList] := by
      rw [CacheRun.lines, houtcome, Outcome.lines, hsummary]
      simp
    have hblank : Quiet [[]] := by
      show ∀ line ∈ [[]], ∀ word ∈ outcomeWords, ¬ word <:+: line
      decide +kernel
    -- the words that decide the outcome stand in the last line only
    have hquiet := r.quiet.append ((quiet_numSolutionsLine s.found s.numDesigns).append
      ((quiet_cacheSummary g s.data.bank s.tag.bank s.mode).append (s.quiet.append hblank)))
    by_cases hfull : p.output_lines = r.lines
    · -- the whole run
      rw [if_pos ⟨hret, hfull⟩, attempt_finished hret (hfull.trans hlines) hquiet, hfull, hlines]
      have hbefore (k : PpaMetric) := (r.labelFree k).append
        (labelFree_numSolutionsLine k s.numSolution s.numDesigns)
      have hafter (hcell : g.cell.memCellType ≠ .eDRAM) (k : PpaMetric)
          (hk : k.isRefresh = true) : k.LabelFree (s.details ++ [[], "Finished!".toList]) := by
        have hend : k.LabelFree [[], "Finished!".toList] := by
          cases k <;> decide +kernel
        exact (s.labelFree hcell k hk).append hend
      have hparse := parse_summary none hbefore hafter s.nonneg
      simp only [List.append_assoc, List.cons_append, List.nil_append] at hparse ⊢
      exact hparse
    · -- its last line is missing
      rw [if_neg fun hboth => hfull hboth.2]
      have hcut : p.output_lines <+: r.before ++
          ([numSolutionsLine s.numSolution s.numDesigns] ++
            ((cacheSummary g s.data.bank s.tag.bank s.mode).map renderLine ++
              (s.details ++ [[]]))) := by
        have hprefix : p.output_lines <+: r.lines := h
        rw [hlines] at hprefix hfull
        rcases List.prefix_concat_iff.mp hprefix with heq | hfront
        · exact absurd heq hfull
        · exact hfront
      exact attempt_unfinished fun line hline => hquiet line (hcut.subset hline)

/-- The call returns the metrics of the first tier whose run was not cut off, did not
    fail and found a design, with what that tier left free.  It raises only before the
    first run. -/
theorem validate_and_capture_eq {destiny : List (List Char) → Collected} {layout : Layout}
    {a : ConfigArgs} {runs : Bool × Bool → CacheRun g}
    (hruns : ∀ t cfg, prepareTier layout a t.1 t.2 = some cfg →
      (runs t).Observed (destiny cfg)) :
    validate_and_capture destiny layout a none =
      (prepareTier layout a false false).map fun _ =>
        tiers.findSome? fun t =>
          ((prepareTier layout a t.1 t.2).bind fun cfg =>
            (runs t).captured (destiny cfg)).map fun ppa => ⟨ppa, t.1, t.2⟩ := by
  cases hfirst : prepareTier layout a false false with
  | none => exact validate_and_capture_raised hfirst
  | some lines =>
    refine validate_and_capture_of_tiers fun t => ?_
    obtain ⟨cfg, hcfg⟩ := prepareTier_free hfirst t.1 t.2
    rw [attemptTier, hcfg, Option.bind_some, Option.bind_some]
    exact attempt_eq (hruns t cfg hcfg)

end

/-- A run that finds a cache. -/
def sramRun : CacheRun sramCache where
  before := ["Using cell file: sram.cell".toList]
  outcome := .solved
    { numSolution := 3
      numDesigns := 40
      data := cacheArray .data
      tag := cacheArray .tag
      mode := .normal_access_mode
      details := []
      found := by decide
      isData := rfl
      isTag := rfl
      nonneg := by
        intro k
        cases k <;> decide +kernel
      quiet := List.forall_mem_nil _
      labelFree := fun _ _ _ => List.forall_mem_nil _ }
  quiet := by
    show ∀ line ∈ ["Using cell file: sram.cell".toList], ∀ word ∈ outcomeWords, ¬ word <:+: line
    decide +kernel
  labelFree := by
    intro k
    cases k <;> decide +kernel

/-- A mat of two by two active subarrays. -/
def matLayout : Layout
  | .data .num_active_subarray_per_col => some (.int 2)
  | .data .num_active_subarray_per_row => some (.int 2)
  | _ => none

/-- With the mat forced DESTINY is killed in the middle of its summary. -/
def slowDestiny (cfg : List (List Char)) : Collected :=
  ⟨none, sramRun.lines.take (if cfg.length = 10 then 100 else 12)⟩

/-- The metrics are those of the second tier, all of them. -/
theorem validate_and_capture_slow :
    validate_and_capture slowDestiny matLayout sramCacheArgs none =
      some (some ⟨readBack sramCache (cacheArray .data).bank (cacheArray .tag).bank
        .normal_access_mode, true, false⟩) := by
  have hruns (t : Bool × Bool) (cfg : List (List Char))
      (_ : prepareTier matLayout sramCacheArgs t.1 t.2 = some cfg) :
      sramRun.Observed (slowDestiny cfg) := List.take_prefix _ _
  obtain ⟨forced, hforced⟩ : ∃ cfg, prepareTier matLayout sramCacheArgs false false = some cfg :=
    ⟨_, rfl⟩
  obtain ⟨freeMat, hfreeMat⟩ := prepareTier_free hforced true false
  have hcut : sramRun.captured (slowDestiny
      ((prepareTier matLayout sramCacheArgs false false).getD [])) = none := by
    refine if_neg fun hwhole => ?_
    have hlength := congrArg List.length hwhole.2
    revert hlength
    decide +kernel
  have hwhole : sramRun.captured (slowDestiny
      ((prepareTier matLayout sramCacheArgs true false).getD [])) =
        some (readBack sramCache (cacheArray .data).bank (cacheArray .tag).bank
          .normal_access_mode) :=
    if_pos ⟨Or.inr rfl, List.take_of_length_le (by decide +kernel)⟩
  rw [hforced, Option.getD_some] at hcut
  rw [hfreeMat, Option.getD_some] at hwhole
  rw [validate_and_capture_eq hruns, hforced, Option.map_some, tiers, List.findSome?_cons, hforced,
    Option.bind_some, hcut, Option.map_none, List.findSome?_cons, hfreeMat, Option.bind_some,
    hwhole, Option.map_some]

end Destiny
