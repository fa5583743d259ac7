/-
  Destiny.Sweep.TemplateLines

  The substitutions of `run_single_simulation` on a template, line by line.

  On a plainly written template (`Template`) no match runs past its line, so that
  `re.sub` and `re.search` work on the lines (`sub_param`, `splitOn_free`): `rewriteBase`
  gives `baseLines` and the loop over the overrides folds `setLines`.  Of the three free
  substitutions, `freeLines`, the section at the end says which branch holds what.  On any
  template the other substitutions work on the lines that these leave (`rewriteBase_free`).
-/

import Destiny.Sweep.ConfigLines
import Destiny.Sweep.Stems
import Mathlib.Data.List.Infix

namespace Destiny.Sweep

open Lib

/-! ## Substitutions on lines -/

section
variable {c : Char} {s t u : List Char}

theorem stripPrefix_append_newline (hs : '\n' ∉ s) (t r : List Char) :
    stripPrefix s (t ++ '\n' :: r) = (stripPrefix s t).map (· ++ '\n' :: r) := by
  cases h : stripPrefix s t with
  | some u =>
      rw [stripPrefix_eq_some.mp h, List.append_assoc, stripPrefix_append]
      rfl
  | none =>
      rw [Option.map_none, ← Option.not_isSome_iff_eq_none, isSome_stripPrefix,
        prefix_append_iff hs, ← isSome_stripPrefix, h]
      exact Bool.false_ne_true

theorem dropWhile_append_newline {f : Char → Bool} (hf : f '\n' = false) (t r : List Char) :
    (t ++ '\n' :: r).dropWhile f = t.dropWhile f ++ '\n' :: r := by
  rw [List.dropWhile_append]
  split
  · next h =>
    rw [List.isEmpty_iff.mp h, List.nil_append, List.dropWhile_cons_of_neg (by simp [hf])]
  · rfl

theorem local_param {param : List Char} (h : PlainName param) (l : List Char) :
    (paramPattern param).Local l := by
  intro v _ r
  have hcolon : '\n' ∉ param ++ ":".toList := by
    rw [List.mem_append, not_or]
    exact ⟨h.newline, by decide⟩
  show paramHead param _ = (paramHead param v).map _
  unfold paramHead
  rw [dropWhile_append_newline (by decide), stripPrefix_append_newline hcolon]

theorem local_cellFile (l : List Char) : cellFilePattern.Local l :=
  fun v _ r => stripPrefix_append_newline (by decide) v r

/-- The line ends with `-Capacity`, white space aside: the white space of the pattern
    could run into the next line. -/
def endsOpen (l : List Char) : Bool :=
  l.tails.any fun v => (stripPrefix "-Capacity".toList v).any fun w => w.all isPySpace

theorem local_capacity {unit l : List Char} (hunit : '\n' ∉ unit) (h : endsOpen l = false) :
    (capacityPattern unit).Local l := by
  intro v hv r
  have hcolon : '\n' ∉ unit ++ ":".toList := by
    rw [List.mem_append, not_or]
    exact ⟨hunit, by decide⟩
  show capacityHead unit _ = (capacityHead unit v).map _
  unfold capacityHead
  rw [stripPrefix_append_newline (by decide)]
  cases hw : stripPrefix "-Capacity".toList v with
  | none => rfl
  | some w =>
      have hopen : w.all isPySpace = false := by
        have hall := List.any_eq_false.mp h v ((List.mem_tails v l).mpr hv)
        rw [hw] at hall
        simpa using hall
      -- something else than white space is left on the line
      have hne : w.dropWhile isPySpace ≠ [] := by
        intro hnil
        rw [List.dropWhile_eq_nil_iff] at hnil
        rw [List.all_eq_true.mpr hnil] at hopen
        cases hopen
      rw [Option.map_some, Option.bind_some, Option.bind_some, List.dropWhile_append,
        if_neg (by simpa [List.isEmpty_iff] using hne), stripPrefix_append_newline hcolon]

/-- A line whose last character is no white space and no `y`. -/
theorem endsOpen_eq_false {l : List Char} {c : Char} (hlast : l.getLast? = some c)
    (hspace : isPySpace c = false) (hy : c ≠ 'y') : endsOpen l = false := by
  by_contra hopen
  obtain ⟨v, hv, hw⟩ := List.any_eq_true.mp (Bool.not_eq_false _ ▸ hopen)
  obtain ⟨w, hstrip, hall⟩ := (Option.any_eq_true _ _).mp hw
  obtain ⟨u, rfl⟩ := (List.mem_tails v l).mp hv
  rw [stripPrefix_eq_some.mp hstrip, List.getLast?_append, List.getLast?_append] at hlast
  cases hwlast : w.getLast? with
  | none =>
      rw [hwlast] at hlast
      exact hy (Option.some.inj hlast).symm
  | some d =>
      rw [hwlast] at hlast
      obtain rfl : d = c := Option.some.inj hlast
      have hd := List.all_eq_true.mp hall d (List.mem_of_getLast? hwlast)
      rw [hd] at hspace
      cases hspace

end

section
variable {param repl t : List Char} {ls : List (List Char)}

theorem sub_param (h : PlainName param) (hrepl : '\n' ∉ repl) (t : List Char) :
    ((paramPattern param).sub repl t).splitOn '\n' = setParam param repl (t.splitOn '\n') := by
  rw [LinePattern.sub_splitOn hrepl fun l _ => local_param h l]
  exact List.map_congr_left fun l _ => LinePattern.subLine_anchored rfl l

theorem search_param (h : PlainName param) (t : List Char) :
    (paramPattern param).search t = (t.splitOn '\n').any (names param) := by
  rw [LinePattern.search_splitOn fun l _ => local_param h l]
  congr 1
  funext l
  exact LinePattern.searchLine_anchored rfl l

theorem splitOn_appendLines (hls : ∀ l ∈ ls, '\n' ∉ l) (t : List Char) :
    (appendLines t ls).splitOn '\n' = t.splitOn '\n' ++ ls ++ [[]] := by
  unfold appendLines
  induction ls generalizing t with
  | nil => simp [List.splitOn_append_cons_self]
  | cons l ls ih =>
      obtain ⟨hl, hrest⟩ := List.forall_mem_cons.mp hls
      have hassoc : t ++ (l :: ls).flatMap (fun l => '\n' :: l) =
          (t ++ '\n' :: l) ++ ls.flatMap fun l => '\n' :: l := by simp
      rw [hassoc, ih hrest, List.splitOn_append_cons_self, List.splitOn_eq_singleton hl]
      simp

end

/-! ## Templates -/

/-- The parameters a job may set, and the branches of the reader they stand for. -/
def sweepParams : List (List Char × ConfigOption) :=
  [("OptimizationTarget".toList, .optimizationTarget), ("EnablePruning".toList, .enablePruning),
   ("DeviceRoadmap".toList, .deviceRoadmap), ("Temperature (K)".toList, .temperature),
   ("StackedDieCount".toList, .stackedDieCount), ("ProcessNode".toList, .processNode),
   ("WordWidth (bit)".toList, .wordWidth), ("InternalSensing".toList, .internalSensing),
   ("Associativity (for cache only)".toList, .associativity)]

/-- Both sides write the same name for it. -/
theorem sweepParams_label : ∀ e ∈ sweepParams, '-' :: (e.1 ++ ": ".toList) = e.2.label := by
  simp only [sweepParams, List.forall_mem_cons]
  exact ⟨label_of_ofList (by decide), label_of_ofList (by decide), label_of_ofList (by decide),
    label_of_ofList (by decide), label_of_ofList (by decide), label_of_ofList (by decide),
    label_of_ofList (by decide), label_of_ofList (by decide), label_of_ofList (by decide),
    fun _ he => absurd he List.not_mem_nil⟩

theorem sweepParams_spec {e : List Char × ConfigOption} (he : e ∈ sweepParams) :
    PlainName e.1 ∧ paramOption e.1 = some e.2 ∧ '-' :: (e.1 ++ ": ".toList) = e.2.label := by
  have hplain : ∀ e ∈ sweepParams, plainName e.1 = true := by
    simp only [sweepParams, List.forall_mem_cons]
    decide
  have hlabel := sweepParams_label e he
  exact ⟨.of_plainName (hplain e he), paramOption_of_label hlabel, hlabel⟩

/-- A line the capacity substitutions turn into the capacity of the job. -/
def isCapacityLine (l : List Char) : Bool :=
  "-Capacity (KB):".toList.isPrefixOf (skipSpace l) ||
    "-Capacity (MB):".toList.isPrefixOf (skipSpace l)

/-- A template written as the ones of the sweep are: the reader takes no line for an
    option of the job that the patterns of `run_single_simulation` miss, there is a
    capacity, one cell file and a roadmap to replace, and the first line is neither
    blank, indented nor one that is erased. -/
structure Template (t : List Char) : Prop where
  start : t.head?.any (fun c => !isspace c) = true
  kept : ∀ l ∈ (t.splitOn '\n').head?, names "OptimizationTarget".toList l = false ∧
    names "EnablePruning".toList l = false
  closed : ∀ l ∈ t.splitOn '\n', endsOpen l = false
  capacities : ∀ o ∈ [ConfigOption.capacityB, .capacityKB, .capacityMB],
    ∀ l ∈ taken o (t.splitOn '\n'), isCapacityLine l = true
  capacity : (t.splitOn '\n').any isCapacityLine = true
  cells : ∀ l ∈ taken .memoryCellInputFile (t.splitOn '\n'),
    "-MemoryCellInputFile:".toList <+: skipSpace l
  cell : (taken .memoryCellInputFile (t.splitOn '\n')).length = 1
  strays : ∀ e ∈ sweepParams, ∀ l ∈ taken e.2 (t.splitOn '\n'), names e.1 l = true
  roadmap : (t.splitOn '\n').any (names "DeviceRoadmap".toList) = true
  planar : taken .forceBank3D (t.splitOn '\n') = [] ∧ taken .forceBank3DA (t.splitOn '\n') = []

/-! ## The lines of the rewritten template -/

/-- Text put into a configuration: no newline, and no backslash for `re.sub` to see. -/
structure Inserted (v : List Char) : Prop where
  newline : '\n' ∉ v
  backslash : '\\' ∉ v

theorem Inserted.setting {param value : List Char} (hparam : Inserted param)
    (hvalue : Inserted value) : Inserted (setting param value) := by
  constructor <;>
    simp only [Sweep.setting, List.mem_cons, List.mem_append, not_or] <;>
    refine ⟨by decide, ⟨?_, by decide⟩, ?_⟩
  · exact hparam.newline
  · exact hvalue.newline
  · exact hparam.backslash
  · exact hvalue.backslash

theorem inserted_integer (z : ℤ) : Inserted (integer z) :=
  ⟨fun h => absurd (isNumeral_of_mem_integer h) (by decide),
    fun h => absurd (isNumeral_of_mem_integer h) (by decide)⟩

theorem inserted_nil : Inserted [] := ⟨List.not_mem_nil, List.not_mem_nil⟩

theorem inserted_of_all {v : List Char} (h : (v.all fun c => c != '\n' && c != '\\') = true) :
    Inserted v := by
  have hmem : ∀ c ∈ v, c ≠ '\n' ∧ c ≠ '\\' := by
    intro c hc
    simpa using List.all_eq_true.mp h c hc
  exact ⟨fun hc => (hmem _ hc).1 rfl, fun hc => (hmem _ hc).2 rfl⟩

theorem PythonHost.re_sub_eq (py : PythonHost) (p : LinePattern) {repl : List Char}
    (h : Inserted repl) (t : List Char) : py.re_sub p repl t = some (p.sub repl t) := by
  rw [PythonHost.re_sub, py.expand_plain repl h.backslash]
  rfl

section
variable (cap path roadmap : List Char)

def capacitySetting : List Char := setting "Capacity (KB)".toList cap

def cellSetting : List Char := setting "MemoryCellInputFile".toList path

/-- The lines with the capacity and the cell file of the job. -/
def freeLines (ls : List (List Char)) : List (List Char) :=
  freeMap cellFilePattern (cellSetting path)
    (freeMap (capacityPattern "(KB)".toList) (capacitySetting cap)
      (freeMap (capacityPattern "(MB)".toList) (capacitySetting cap) ls))

/-- The lines of `rewriteBase`. -/
def baseLines (ls : List (List Char)) : List (List Char) :=
  setParam "DeviceRoadmap".toList (setting "DeviceRoadmap".toList roadmap)
    (setParam "EnablePruning".toList []
        (setParam "OptimizationTarget".toList [] (freeLines cap path ls)) ++
      [setting "OptimizationTarget".toList "Full".toList,
        setting "EnablePruning".toList "Yes".toList] ++ [[]])

end

theorem splitOn_freeSub {p : LinePattern} {repl t : List Char} (hrepl : Inserted repl)
    (hlocal : ∀ l ∈ t.splitOn '\n', p.Local l) :
    (p.sub repl t).splitOn '\n' = freeMap p repl (t.splitOn '\n') :=
  LinePattern.sub_splitOn hrepl.newline hlocal

theorem getLast?_integer (z : ℤ) : ∃ c, (integer z).getLast? = some c ∧ c.isDigit = true := by
  have hdigits : ∃ c, (Nat.toDigits 10 z.natAbs).getLast? = some c ∧ c.isDigit = true := by
    have hlast := List.getLast?_eq_some_getLast (Nat.toDigits_ne_nil (n := z.natAbs) (b := 10))
    exact ⟨_, hlast, Nat.isDigit_of_mem_toDigits (by decide) (by decide)
      (List.mem_of_getLast? hlast)⟩
  obtain ⟨c, hlast, hc⟩ := hdigits
  refine ⟨c, ?_, hc⟩
  unfold integer
  split
  · rw [List.getLast?_cons, hlast]
    rfl
  · exact hlast

/-- A line that ends with the capacity of the job is closed. -/
theorem endsOpen_capacity (z : ℤ) (u : List Char) :
    endsOpen (u ++ capacitySetting (integer z)) = false := by
  obtain ⟨c, hlast, hc⟩ := getLast?_integer z
  have hnot : isPySpace c = false ∧ c ≠ 'y' := by
    constructor
    · obtain ⟨hlow, hhigh⟩ := Bool.and_eq_true_iff.mp hc
      have hlow' : 48 ≤ c.toNat := UInt32.le_iff_toNat_le.mp (of_decide_eq_true hlow)
      have hhigh' : c.toNat ≤ 57 := UInt32.le_iff_toNat_le.mp (of_decide_eq_true hhigh)
      simp only [isPySpace, List.contains_eq_mem, List.mem_cons, List.not_mem_nil, or_false,
        Bool.or_eq_false_iff, Bool.and_eq_false_iff, decide_eq_false_iff_not]
      omega
    · rintro rfl
      cases hc
  refine endsOpen_eq_false (c := c) ?_ hnot.1 hnot.2
  rw [capacitySetting, setting, ← List.cons_append, ← List.append_assoc, List.getLast?_append,
    hlast]
  rfl

/-- The three free substitutions of a template work line by line. -/
theorem splitOn_free {t path : List Char} (hclosed : ∀ l ∈ t.splitOn '\n', endsOpen l = false)
    (hpath : Inserted path) (z : ℤ) :
    (cellFilePattern.sub (cellSetting path)
      ((capacityPattern "(KB)".toList).sub (capacitySetting (integer z))
        ((capacityPattern "(MB)".toList).sub (capacitySetting (integer z)) t))).splitOn '\n' =
      freeLines (integer z) path (t.splitOn '\n') := by
  have hcapacity : Inserted (capacitySetting (integer z)) :=
    .setting (inserted_of_all (by decide)) (inserted_integer z)
  have hcell : Inserted (cellSetting path) := .setting (inserted_of_all (by decide)) hpath
  have hfirst : ((capacityPattern "(MB)".toList).sub (capacitySetting (integer z)) t).splitOn '\n' =
      _ := splitOn_freeSub hcapacity fun l hl => local_capacity (by decide) (hclosed l hl)
  have hclosed' : ∀ l ∈ ((capacityPattern "(MB)".toList).sub (capacitySetting (integer z))
      t).splitOn '\n', endsOpen l = false := by
    rw [hfirst]
    intro l hl
    obtain ⟨l', hl', rfl⟩ := List.mem_map.mp hl
    rcases freeSub_cases (freePattern_capacity _) (capacitySetting (integer z)) l' with
      h | ⟨u, a, -, -, h⟩
    · rw [h]
      exact hclosed l' hl'
    · rw [h]
      exact endsOpen_capacity z u
  rw [splitOn_freeSub hcell fun l _ => local_cellFile l,
    splitOn_freeSub hcapacity fun l hl => local_capacity (by decide) (hclosed' l hl), hfirst]
  rfl

theorem plainName_target : PlainName "OptimizationTarget".toList := .of_plainName (by decide)

theorem plainName_pruning : PlainName "EnablePruning".toList := .of_plainName (by decide)

theorem plainName_roadmap : PlainName "DeviceRoadmap".toList := .of_plainName (by decide)

/-- The lines with the target and the pruning flag erased, and set at the end. -/
def forcedLines (ls : List (List Char)) : List (List Char) :=
  setParam "EnablePruning".toList [] (setParam "OptimizationTarget".toList [] ls) ++
      [setting "OptimizationTarget".toList "Full".toList,
        setting "EnablePruning".toList "Yes".toList] ++ [[]]

/-- The substitutions of the capacity. -/
def capacityText (cap t : List Char) : List Char :=
  (capacityPattern "(KB)".toList).sub (capacitySetting cap)
    ((capacityPattern "(MB)".toList).sub (capacitySetting cap) t)

/-- The three free substitutions, with the text that stands for the cell file. -/
def freeText (cap cell t : List Char) : List Char := cellFilePattern.sub cell (capacityText cap t)

/-- `rewriteBase` raises where `re.sub` does for the cell file, and else gives these
    lines. -/
theorem rewriteBase_free (py : PythonHost) (a : SimulationArgs) (hroadmap : Inserted a.roadmap) :
    (py.expand (cellSetting (py.abspath a.cell_path)) = none → rewriteBase py a = none) ∧
      ∀ cell, py.expand (cellSetting (py.abspath a.cell_path)) = some cell →
        ∃ text, rewriteBase py a = some text ∧ text.splitOn '\n' =
          setParam "DeviceRoadmap".toList (setting "DeviceRoadmap".toList a.roadmap)
            (forcedLines ((freeText (integer a.cap_kb) cell a.base_cfg_content).splitOn '\n')) := by
  have hcapacity : Inserted (setting "Capacity (KB)".toList (integer a.cap_kb)) :=
    .setting (inserted_of_all (by decide)) (inserted_integer _)
  have hroad : Inserted (setting "DeviceRoadmap".toList a.roadmap) :=
    .setting (inserted_of_all (by decide)) hroadmap
  have hforced : ∀ l ∈ [setting "OptimizationTarget".toList "Full".toList,
      setting "EnablePruning".toList "Yes".toList], '\n' ∉ l := by
    have hfull : Inserted (setting "OptimizationTarget".toList "Full".toList) :=
      .setting (inserted_of_all (by decide)) (inserted_of_all (by decide))
    have hyes : Inserted (setting "EnablePruning".toList "Yes".toList) :=
      .setting (inserted_of_all (by decide)) (inserted_of_all (by decide))
    simpa using ⟨hfull.newline, hyes.newline⟩
  -- only the replacement of the cell file can raise
  constructor
  · intro hnone
    unfold cellSetting at hnone
    simp only [rewriteBase, py.re_sub_eq _ hcapacity, Option.bind_eq_bind, Option.bind_some]
    rw [PythonHost.re_sub, hnone]
    rfl
  · intro cell hcell
    unfold cellSetting at hcell
    refine ⟨_, by
      simp only [rewriteBase, py.re_sub_eq _ hcapacity, py.re_sub_eq _ inserted_nil,
        py.re_sub_eq _ hroad, Option.bind_eq_bind, Option.bind_some]
      rw [PythonHost.re_sub, hcell]
      rfl, ?_⟩
    rw [sub_param plainName_roadmap hroad.newline, splitOn_appendLines hforced,
      sub_param plainName_pruning inserted_nil.newline, sub_param plainName_target
      inserted_nil.newline]
    rfl

/-- `rewriteBase` does not raise, and gives the lines above. -/
theorem rewriteBase_lines (py : PythonHost) (a : SimulationArgs)
    (hclosed : ∀ l ∈ a.base_cfg_content.splitOn '\n', endsOpen l = false)
    (hpath : Inserted (py.abspath a.cell_path)) (hroadmap : Inserted a.roadmap) :
    ∃ text, rewriteBase py a = some text ∧ text.splitOn '\n' =
      baseLines (integer a.cap_kb) (py.abspath a.cell_path) a.roadmap
        (a.base_cfg_content.splitOn '\n') := by
  have hcell : Inserted (cellSetting (py.abspath a.cell_path)) :=
    .setting (inserted_of_all (by decide)) hpath
  obtain ⟨text, htext, hlines⟩ :=
    (rewriteBase_free py a hroadmap).2 _ (py.expand_plain _ hcell.backslash)
  refine ⟨text, htext, ?_⟩
  rw [hlines, freeText, capacityText, splitOn_free hclosed hpath a.cap_kb]
  rfl

/-- The loop over the overrides, line by line. -/
theorem foldlM_setOverride (py : PythonHost) {os : List (List Char × OverrideValue)}
    (hos : ∀ o ∈ os, PlainName o.1 ∧ Inserted (setting o.1 o.2.str)) (text : List Char) :
    ∃ text', os.foldlM (setOverride py) text = some text' ∧
      text'.splitOn '\n' =
        (os.map fun o => (o.1, o.2.str)).foldl setLines (text.splitOn '\n') := by
  induction os generalizing text with
  | nil => exact ⟨text, rfl, rfl⟩
  | cons o os ih =>
      obtain ⟨⟨hplain, hinserted⟩, hrest⟩ := List.forall_mem_cons.mp hos
      have hstep : ∃ t, setOverride py text o = some t ∧
          t.splitOn '\n' = setLines (text.splitOn '\n') (o.1, o.2.str) := by
        unfold setOverride setLines
        rw [search_param hplain]
        split
        · exact ⟨_, py.re_sub_eq _ hinserted _, sub_param hplain hinserted.newline _⟩
        · refine ⟨_, rfl, ?_⟩
          have hset : ∀ l ∈ [setting o.1 o.2.str], '\n' ∉ l := by
            simpa using hinserted.newline
          have happend := splitOn_appendLines hset text
          simpa [appendLines] using happend
      obtain ⟨t, ht, hlines⟩ := hstep
      obtain ⟨text', htext', hlines'⟩ := ih hrest t
      refine ⟨text', ?_, ?_⟩
      · rw [List.foldlM_cons, ht]
        exact htext'
      · rw [hlines', hlines]
        rfl

/-! ## The free substitutions on a template -/

theorem isSome_capacityHead {unit t : List Char} (hunit : unit.head? = some '(')
    (h : "-Capacity ".toList ++ (unit ++ ":".toList) <+: t) :
    ((capacityPattern unit).head t).isSome = true := by
  obtain ⟨r, rfl⟩ := h
  obtain ⟨u, rfl⟩ := List.head?_eq_some_iff.mp hunit
  have hsplit : "-Capacity ".toList ++ ('(' :: u ++ ":".toList) ++ r =
      "-Capacity".toList ++ (' ' :: ('(' :: u ++ ":".toList ++ r)) := rfl
  show (capacityHead ('(' :: u)
    ("-Capacity ".toList ++ ('(' :: u ++ ":".toList) ++ r)).isSome = true
  rw [hsplit, capacityHead, stripPrefix_append, Option.bind_some]
  have hspace : (' ' :: ('(' :: u ++ ":".toList ++ r)).dropWhile isPySpace =
      '(' :: u ++ ":".toList ++ r := rfl
  rw [hspace, stripPrefix_append]
  rfl

theorem isSome_cellFileHead {t : List Char} (h : "-MemoryCellInputFile:".toList <+: t) :
    (cellFilePattern.head t).isSome = true := isSome_stripPrefix.mpr h

/-- The line starts as an active capacity in KB does. -/
def IsKB (l : List Char) : Prop :=
  "-Capacity ".toList ++ ("(KB)".toList ++ ":".toList) <+: skipSpace l

def IsMB (l : List Char) : Prop :=
  "-Capacity ".toList ++ ("(MB)".toList ++ ":".toList) <+: skipSpace l

theorem isCapacityLine_iff {l : List Char} : isCapacityLine l = true ↔ IsKB l ∨ IsMB l := by
  unfold isCapacityLine
  rw [Bool.or_eq_true, List.isPrefixOf_iff_prefix, List.isPrefixOf_iff_prefix]
  rfl

section
variable (cap path : List Char) {ls : List (List Char)} {l : List Char}

theorem skipSpace_capacitySetting : skipSpace (capacitySetting cap) = capacitySetting cap :=
  skipSpace_setting _ _

theorem capacitySetting_cons : ∃ b, capacitySetting cap = '-' :: 'C' :: b := ⟨_, rfl⟩

theorem capacitySetting_start :
    ∃ b, capacitySetting cap = '-' :: 'C' :: b ∧ "apacity".toList <+: b :=
  ⟨"apacity".toList ++ (" (KB): ".toList ++ cap), rfl, List.prefix_append _ _⟩

theorem cellSetting_cons : ∃ b, cellSetting path = '-' :: 'M' :: b := ⟨_, rfl⟩

theorem kb_prefix_capacitySetting :
    "-Capacity ".toList ++ ("(KB)".toList ++ ":".toList) <+: capacitySetting cap :=
  ⟨' ' :: cap, rfl⟩

theorem label_capacity :
    '-' :: ("Capacity (KB)".toList ++ ": ".toList) = ConfigOption.capacityKB.label :=
  label_of_ofList (by decide)

theorem label_cell :
    '-' :: ("MemoryCellInputFile".toList ++ ": ".toList) =
      ConfigOption.memoryCellInputFile.label := label_of_ofList (by decide)

theorem optionOf_capacitySetting : optionOf (capacitySetting cap) = some .capacityKB := by
  rw [capacitySetting, optionOf_setting, paramOption_of_label label_capacity]

theorem optionOf_cellSetting : optionOf (cellSetting path) = some .memoryCellInputFile := by
  rw [cellSetting, optionOf_setting, paramOption_of_label label_cell]

/-- A match of the cell file is a line of it. -/
theorem optionOf_of_cellFileHead {a : List Char}
    (ha : (cellFilePattern.head ('-' :: 'M' :: a)).isSome = true) :
    optionOf ('-' :: 'M' :: a) = some .memoryCellInputFile := by
  obtain ⟨r, hr⟩ := Option.isSome_iff_exists.mp ha
  have hline : '-' :: 'M' :: a = '-' :: ("MemoryCellInputFile".toList ++ ':' :: r) :=
    stripPrefix_eq_some.mp hr
  rw [hline, optionOf_colon, paramOption_of_label label_cell]

theorem taken_freeMap_cellFile (ls : List (List Char)) :
    taken .memoryCellInputFile (freeMap cellFilePattern (cellSetting path) ls) =
      freeMap cellFilePattern (cellSetting path) (taken .memoryCellInputFile ls) :=
  taken_freeMap freePattern_cellFile (cellSetting_cons path) fun _ ha =>
    iff_of_true (optionOf_of_cellFileHead ha) (optionOf_cellSetting path)

/-- Behind the first substitution every active capacity is one in KB. -/
theorem isKB_freeSub (h : isCapacityLine l = true) :
    IsKB ((capacityPattern "(MB)".toList).subLine (capacitySetting cap) true l) := by
  rcases isCapacityLine_iff.mp h with hl | hl
  · exact prefix_freeSub (freePattern_capacity _) (capacitySetting_cons cap) (by decide) hl
      fun _ => kb_prefix_capacitySetting cap
  · unfold IsKB
    rw [skipSpace_freeSub (freePattern_capacity _) (isSome_capacityHead rfl hl)
      (skipSpace_capacitySetting cap)]
    exact kb_prefix_capacitySetting cap

/-- Behind the second it is the capacity of the job. -/
theorem capacity_freeSub (h : IsKB l) :
    skipSpace ((capacityPattern "(KB)".toList).subLine (capacitySetting cap) true l) =
      capacitySetting cap :=
  skipSpace_freeSub (freePattern_capacity _) (isSome_capacityHead rfl h)
    (skipSpace_capacitySetting cap)

/-- A free capacity substitution brings no line into a branch but its own. -/
theorem capacity_cases {unit : List Char} {o : ConfigOption}
    (ho : optionOf ((capacityPattern unit).subLine (capacitySetting cap) true l) = some o) :
    optionOf l = some o ∨
      skipSpace ((capacityPattern unit).subLine (capacitySetting cap) true l) =
        capacitySetting cap := by
  rcases freeSub_trichotomy (freePattern_capacity unit) (capacitySetting_cons cap) l with
    h | ⟨-, h⟩ | ⟨w, a, -, -, -, h⟩
  · rw [h] at ho
    exact .inl ho
  · exact .inr h
  · rw [h] at ho
    exact .inl ho

theorem capacities_free {o : ConfigOption}
    (hcapacities : ∀ l ∈ taken o ls, isCapacityLine l = true) :
    ∀ l ∈ taken o (freeMap (capacityPattern "(KB)".toList) (capacitySetting cap)
      (freeMap (capacityPattern "(MB)".toList) (capacitySetting cap) ls)),
      skipSpace l = capacitySetting cap := by
  intro l hl
  obtain ⟨hmem, ho⟩ := mem_taken.mp hl
  obtain ⟨l', hl', rfl⟩ := List.mem_map.mp hmem
  obtain ⟨l'', hl'', rfl⟩ := List.mem_map.mp hl'
  rcases capacity_cases cap ho with ho' | h
  · refine capacity_freeSub cap ?_
    rcases capacity_cases cap ho' with ho'' | h'
    · exact isKB_freeSub cap (hcapacities l'' (mem_taken.mpr ⟨hl'', ho''⟩))
    · unfold IsKB
      rw [h']
      exact kb_prefix_capacitySetting cap
  · exact h

/-- The capacity of the job has no letter the cell file starts with. -/
theorem not_mem_capacitySetting (z : ℤ) : 'M' ∉ capacitySetting (integer z) := by
  simp only [capacitySetting, setting, List.mem_cons, List.mem_append, not_or]
  exact ⟨by decide, ⟨by decide, by decide⟩,
    fun h => absurd (isNumeral_of_mem_integer h) (by decide)⟩

theorem capacities_freeLines (z : ℤ) {o : ConfigOption} (ho : o ≠ .memoryCellInputFile)
    (hcapacities : ∀ l ∈ taken o ls, isCapacityLine l = true) :
    ∀ l ∈ taken o (freeLines (integer z) path ls), skipSpace l = capacitySetting (integer z) := by
  intro l hl
  obtain ⟨hmem, hoption⟩ := mem_taken.mp hl
  obtain ⟨l', hl', rfl⟩ := List.mem_map.mp hmem
  have hearlier (h : optionOf l' = some o) : skipSpace l' = capacitySetting (integer z) :=
    capacities_free (integer z) hcapacities l' (mem_taken.mpr ⟨hl', h⟩)
  rcases freeSub_trichotomy freePattern_cellFile (cellSetting_cons path) l' with
    h | ⟨-, h⟩ | ⟨w, a, -, hline, -, h⟩
  · rw [h] at hoption ⊢
    exact hearlier hoption
  · -- the line of the cell file has its own branch
    have hcell := optionOf_of_skipSpace (h.trans (skipSpace_setting _ _).symm)
    rw [← cellSetting, optionOf_cellSetting] at hcell
    exact absurd (Option.some.inj (hoption.symm.trans hcell)) ho
  · rw [h] at hoption
    rw [hearlier hoption] at hline
    have hmem : 'M' ∈ capacitySetting (integer z) := by
      rw [hline]
      simp
    exact absurd hmem (not_mem_capacitySetting z)

/-- The capacity of the job is there. -/
theorem capacity_mem_freeLines (z : ℤ) (h : ls.any isCapacityLine = true) :
    ∃ l ∈ freeLines (integer z) path ls, skipSpace l = capacitySetting (integer z) := by
  obtain ⟨l, hl, hcapacity⟩ := List.any_eq_true.mp h
  have hkb := capacity_freeSub (integer z) (isKB_freeSub (integer z) hcapacity)
  refine ⟨_, List.mem_map.mpr ⟨_, List.mem_map.mpr ⟨_, List.mem_map.mpr ⟨l, hl, rfl⟩, rfl⟩, rfl⟩,
    ?_⟩
  rw [freeSub_of_not_mem freePattern_cellFile (cellSetting_cons path), hkb]
  rw [hkb]
  exact not_mem_capacitySetting z

theorem fixed_capacity (z : ℤ)
    (hcapacities : ∀ o ∈ [ConfigOption.capacityB, .capacityKB, .capacityMB],
      ∀ l ∈ taken o ls, isCapacityLine l = true)
    (h : ls.any isCapacityLine = true) :
    Fixed .capacityKB (capacitySetting (integer z)) (freeLines (integer z) path ls) ∧
      taken .capacityB (freeLines (integer z) path ls) = [] ∧
      taken .capacityMB (freeLines (integer z) path ls) = [] := by
  have hoption {l : List Char} (hl : skipSpace l = capacitySetting (integer z)) :
      optionOf l = some .capacityKB := by
    rw [optionOf_of_skipSpace (hl.trans (skipSpace_capacitySetting _).symm),
      optionOf_capacitySetting]
  have hnone {o : ConfigOption} (hmem : o ∈ [ConfigOption.capacityB, .capacityKB, .capacityMB])
      (hne : o ≠ .capacityKB) : taken o (freeLines (integer z) path ls) = [] := by
    rw [List.eq_nil_iff_forall_not_mem]
    intro l hl
    have hkb := hoption (capacities_freeLines path z (by rintro rfl; simp at hmem)
      (hcapacities o hmem) l hl)
    exact hne (Option.some.inj ((mem_taken.mp hl).2.symm.trans hkb))
  refine ⟨⟨?_, capacities_freeLines path z (by decide) (hcapacities _ (by decide))⟩,
    hnone (by decide) (by decide), hnone (by decide) (by decide)⟩
  obtain ⟨l, hl, hskip⟩ := capacity_mem_freeLines path z h
  exact List.ne_nil_of_mem (mem_taken.mpr ⟨hl, hoption hskip⟩)

/-- The one cell file is that of the job. -/
theorem cell_freeLines
    (hcells : ∀ l ∈ taken .memoryCellInputFile ls, "-MemoryCellInputFile:".toList <+: skipSpace l)
    (hone : (taken .memoryCellInputFile ls).length = 1) :
    ∃ l, taken .memoryCellInputFile (freeLines cap path ls) = [l] ∧
      skipSpace l = cellSetting path := by
  have hcapacity (unit : List Char) (ms : List (List Char)) :
      taken .memoryCellInputFile (freeMap (capacityPattern unit) (capacitySetting cap) ms) =
        freeMap (capacityPattern unit) (capacitySetting cap) (taken .memoryCellInputFile ms) :=
    taken_freeMap_of_key (freePattern_capacity unit) (capacitySetting_cons cap) (by decide)
  obtain ⟨l, hl⟩ := List.length_eq_one_iff.mp hone
  have hstart := hcells l (hl ▸ List.mem_cons_self)
  -- the capacity substitutions leave the start of the line
  have hkeep (unit : List Char) {l : List Char}
      (h : "-MemoryCellInputFile:".toList <+: skipSpace l) :
      "-MemoryCellInputFile:".toList <+:
        skipSpace ((capacityPattern unit).subLine (capacitySetting cap) true l) := by
    refine prefix_freeSub (freePattern_capacity unit) (capacitySetting_cons cap) (by decide) h ?_
    intro hhead
    obtain ⟨u, hu⟩ := (freePattern_capacity unit).start _ hhead
    obtain ⟨r, hr⟩ := h
    rw [hu] at hr
    exact absurd (List.cons.inj (List.cons.inj hr).2).1 (by decide)
  refine ⟨cellFilePattern.subLine (cellSetting path) true
    ((capacityPattern "(KB)".toList).subLine (capacitySetting cap) true
      ((capacityPattern "(MB)".toList).subLine (capacitySetting cap) true l)), ?_, ?_⟩
  · rw [freeLines, taken_freeMap_cellFile, hcapacity, hcapacity, hl]
    rfl
  · exact skipSpace_freeSub freePattern_cellFile
      (isSome_cellFileHead (hkeep _ (hkeep _ hstart))) (skipSpace_setting _ _)

theorem NoStray.freeLines {e : List Char × ConfigOption} (he : e ∈ sweepParams)
    (h : NoStray e.1 ls) : NoStray e.1 (freeLines cap path ls) := by
  obtain ⟨hplain, hoption, -⟩ := sweepParams_spec he
  have hall : ∀ e ∈ sweepParams, e.2 ≠ .capacityKB ∧ e.2 ≠ .memoryCellInputFile := by decide
  have hother := hall e he
  have hcapacity : ∀ o, paramOption e.1 = some o → optionOf (capacitySetting cap) ≠ some o := by
    intro o ho
    rw [optionOf_capacitySetting]
    rintro heq
    exact hother.1 (Option.some.inj (hoption.symm.trans (ho.trans heq.symm)))
  have hcell : ∀ o, paramOption e.1 = some o → optionOf (cellSetting path) ≠ some o := by
    intro o ho
    rw [optionOf_cellSetting]
    rintro heq
    exact hother.2 (Option.some.inj (hoption.symm.trans (ho.trans heq.symm)))
  exact ((h.freeMap (freePattern_capacity _) (capacitySetting_cons cap) hplain hcapacity).freeMap
    (freePattern_capacity _) (capacitySetting_cons cap) hplain hcapacity).freeMap
    freePattern_cellFile (cellSetting_cons path) hplain hcell

theorem taken_freeLines_of_key {o : ConfigOption} (hC : ¬ "-C".toList <+: o.key)
    (hM : ¬ "-M".toList <+: o.key) (h : taken o ls = []) :
    taken o (freeLines cap path ls) = [] := by
  rw [freeLines, taken_freeMap_of_key freePattern_cellFile (cellSetting_cons path) hM,
    taken_freeMap_of_key (freePattern_capacity _) (capacitySetting_cons cap) hC,
    taken_freeMap_of_key (freePattern_capacity _) (capacitySetting_cons cap) hC, h]
  rfl

/-- A line keeps the parameter it names. -/
theorem any_names_freeLines {param : List Char} (hparam : PlainName param) :
    (freeLines cap path ls).any (names param) = ls.any (names param) := by
  have hmap {p : LinePattern} {c : Char} {repl : List Char} (hp : FreePattern p c)
      (hrepl : ∃ b, repl = '-' :: c :: b) (ms : List (List Char)) :
      (freeMap p repl ms).any (names param) = ms.any (names param) := by
    unfold freeMap
    rw [List.any_map]
    congr 1
    funext l
    exact names_freeSub hp hrepl hparam l
  rw [freeLines, hmap freePattern_cellFile (cellSetting_cons path),
    hmap (freePattern_capacity _) (capacitySetting_cons cap),
    hmap (freePattern_capacity _) (capacitySetting_cons cap)]

end

end Destiny.Sweep
