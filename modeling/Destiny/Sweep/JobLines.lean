/-
  Destiny.Sweep.JobLines

  The lines of the configuration `run_single_simulation` makes of a template for a job
  (`rewriteConfig_lines`), and what the branches of the reader hold there.

  * `rewriteBase` leaves the target, the pruning flag and the roadmap of the job alone
    in their branches (`fixed_target`, `fixed_pruning`, `fixed_roadmap`).
  * The loop over the overrides does the same for each parameter of the job
    (`fixed_pointLines`); of the other branches it leaves the lines as they are.
-/

import Destiny.Sweep.TemplateLines
import Destiny.Sweep.Stems

namespace Destiny.Sweep

open Lib

/-! ## The lines of the base -/

theorem paramOption_target : paramOption "OptimizationTarget".toList = some .optimizationTarget :=
  paramOption_of_label (label_of_ofList (by decide))

theorem paramOption_pruning : paramOption "EnablePruning".toList = some .enablePruning :=
  paramOption_of_label (label_of_ofList (by decide))

theorem paramOption_roadmap : paramOption "DeviceRoadmap".toList = some .deviceRoadmap :=
  paramOption_of_label (label_of_ofList (by decide))

/-- The setting of another parameter. -/
theorem optionOf_setting_ne {param : List Char} {o o' : ConfigOption}
    (hparam : paramOption param = some o') (h : o' ≠ o) (value : List Char) :
    optionOf (setting param value) ≠ some o := by
  rw [optionOf_setting, hparam]
  exact fun heq => h (Option.some.inj heq)

theorem paramOption_ne {param : List Char} {o o' : ConfigOption}
    (hparam : paramOption param = some o') (h : o' ≠ o) : paramOption param ≠ some o := by
  rw [hparam]
  exact fun heq => h (Option.some.inj heq)

/-- The branch of a name decides between names. -/
theorem ne_of_paramOption {param param' : List Char} {o : ConfigOption}
    (h : paramOption param ≠ some o) (h' : paramOption param' = some o) : param ≠ param' := by
  rintro rfl
  exact h h'

section
variable (cap path roadmap : List Char) {ls : List (List Char)}

theorem baseLines_eq : baseLines cap path roadmap ls =
    setParam "DeviceRoadmap".toList (setting "DeviceRoadmap".toList roadmap)
      (forcedLines (freeLines cap path ls)) := rfl

/-- The branches the forced settings do not belong to. -/
theorem taken_forcedLines {o : ConfigOption} (htarget : .optimizationTarget ≠ o)
    (hpruning : .enablePruning ≠ o) : taken o (forcedLines ls) = taken o ls := by
  unfold forcedLines
  rw [taken_append, taken_append, taken_blank, ← List.singleton_append, taken_append,
    taken_singleton_of_ne (optionOf_setting_ne paramOption_target htarget _),
    taken_singleton_of_ne (optionOf_setting_ne paramOption_pruning hpruning _),
    taken_setParam plainName_pruning (paramOption_ne paramOption_pruning hpruning) (optionOf_nil o),
    taken_setParam plainName_target (paramOption_ne paramOption_target htarget) (optionOf_nil o),
    List.append_nil, List.append_nil, List.append_nil]

theorem taken_forcedLines_target (h : NoStray "OptimizationTarget".toList ls) :
    taken .optimizationTarget (forcedLines ls) =
      [setting "OptimizationTarget".toList "Full".toList] := by
  have herased : taken .optimizationTarget (setParam "EnablePruning".toList []
      (setParam "OptimizationTarget".toList [] ls)) = [] := by
    rw [taken_setParam plainName_pruning (paramOption_ne paramOption_pruning (by decide))
      (optionOf_nil _)]
    exact taken_erase h paramOption_target
  unfold forcedLines
  rw [taken_append, taken_append, taken_blank, ← List.singleton_append, taken_append, herased,
    taken_singleton (by rw [optionOf_setting, paramOption_target]),
    taken_singleton_of_ne (optionOf_setting_ne paramOption_pruning (by decide) _),
    List.append_nil, List.append_nil, List.nil_append]

theorem taken_forcedLines_pruning (h : NoStray "EnablePruning".toList ls) :
    taken .enablePruning (forcedLines ls) = [setting "EnablePruning".toList "Yes".toList] := by
  have herased : taken .enablePruning (setParam "EnablePruning".toList []
      (setParam "OptimizationTarget".toList [] ls)) = [] := by
    have h' : NoStray "EnablePruning".toList (setParam "OptimizationTarget".toList [] ls) := by
      refine h.congr fun o ho => ?_
      obtain rfl := Option.some.inj (paramOption_pruning.symm.trans ho)
      exact taken_setParam plainName_target (paramOption_ne paramOption_target (by decide))
        (optionOf_nil _) ls
    exact taken_erase h' paramOption_pruning
  unfold forcedLines
  rw [taken_append, taken_append, taken_blank, ← List.singleton_append, taken_append, herased,
    taken_singleton_of_ne (optionOf_setting_ne paramOption_target (by decide) _),
    taken_singleton (by rw [optionOf_setting, paramOption_pruning]),
    List.append_nil, List.nil_append, List.nil_append]

/-- A branch with one line, which the sweep has written. -/
theorem fixed_of_singleton {o : ConfigOption} {param value : List Char}
    (h : taken o ls = [setting param value]) : Fixed o (setting param value) ls := by
  constructor
  · rw [h]
    exact List.cons_ne_nil _ _
  · intro l hl
    rw [h] at hl
    rw [List.mem_singleton.mp hl, skipSpace_setting]

/-- A line that names the roadmap is not erased. -/
theorem any_names_forcedLines (h : ls.any (names "DeviceRoadmap".toList) = true) :
    ∃ l ∈ forcedLines ls, names "DeviceRoadmap".toList l = true := by
  obtain ⟨l, hl, hnames⟩ := List.any_eq_true.mp h
  have hkeep {param : List Char} (hparam : PlainName param)
      (hdiff : param ≠ "DeviceRoadmap".toList) : ¬ names param l = true :=
    fun h => hdiff (names_unique hparam plainName_roadmap h hnames)
  refine ⟨l, ?_, hnames⟩
  unfold forcedLines
  rw [List.mem_append, List.mem_append]
  refine .inl (.inl (List.mem_map.mpr ⟨l, List.mem_map.mpr ⟨l, hl, ?_⟩, ?_⟩))
  · exact if_neg (hkeep plainName_target (by decide))
  · exact if_neg (hkeep plainName_pruning (by decide))

/-- The branches that `rewriteBase` does not set itself. -/
theorem taken_baseLines {o : ConfigOption} (htarget : .optimizationTarget ≠ o)
    (hpruning : .enablePruning ≠ o) (hroadmap : .deviceRoadmap ≠ o) :
    taken o (baseLines cap path roadmap ls) = taken o (freeLines cap path ls) := by
  rw [baseLines_eq, taken_setParam plainName_roadmap (paramOption_ne paramOption_roadmap hroadmap)
    (optionOf_setting_ne paramOption_roadmap hroadmap _), taken_forcedLines htarget hpruning]

theorem fixed_target (h : NoStray "OptimizationTarget".toList (freeLines cap path ls)) :
    Fixed .optimizationTarget (setting "OptimizationTarget".toList "Full".toList)
      (baseLines cap path roadmap ls) := by
  refine fixed_of_singleton ?_
  rw [baseLines_eq, taken_setParam plainName_roadmap
    (paramOption_ne paramOption_roadmap (by decide))
    (optionOf_setting_ne paramOption_roadmap (by decide) _)]
  exact taken_forcedLines_target h

theorem fixed_pruning (h : NoStray "EnablePruning".toList (freeLines cap path ls)) :
    Fixed .enablePruning (setting "EnablePruning".toList "Yes".toList)
      (baseLines cap path roadmap ls) := by
  refine fixed_of_singleton ?_
  rw [baseLines_eq, taken_setParam plainName_roadmap
    (paramOption_ne paramOption_roadmap (by decide))
    (optionOf_setting_ne paramOption_roadmap (by decide) _)]
  exact taken_forcedLines_pruning h

theorem fixed_roadmap (h : NoStray "DeviceRoadmap".toList (freeLines cap path ls))
    (hany : ls.any (names "DeviceRoadmap".toList) = true) :
    Fixed .deviceRoadmap (setting "DeviceRoadmap".toList roadmap)
      (baseLines cap path roadmap ls) := by
  rw [← any_names_freeLines cap path plainName_roadmap] at hany
  have h' : NoStray "DeviceRoadmap".toList (forcedLines (freeLines cap path ls)) := by
    refine h.congr fun o ho => ?_
    obtain rfl := Option.some.inj (paramOption_roadmap.symm.trans ho)
    exact taken_forcedLines (by decide) (by decide)
  exact fixed_setParam h' paramOption_roadmap (any_names_forcedLines hany)

end

/-! ## The lines of a job -/

/-- What the loop over the overrides sets. -/
def settingsOf (os : List (List Char × OverrideValue)) : List (List Char × List Char) :=
  os.map fun o => (o.1, o.2.str)

def layoutLines : Option Layout → List (List Char)
  | none => []
  | some layout => layoutSettings layout ++ [[]]

theorem inserted_counts (a b c d : ℤ) :
    Inserted (integer a ++ "x".toList ++ integer b ++ ", ".toList ++ integer c ++ "x".toList ++
      integer d) := by
  constructor <;> simp only [List.mem_append, not_or]
  · exact ⟨⟨⟨⟨⟨⟨(inserted_integer a).newline, by decide⟩, (inserted_integer b).newline⟩,
      by decide⟩, (inserted_integer c).newline⟩, by decide⟩, (inserted_integer d).newline⟩
  · exact ⟨⟨⟨⟨⟨⟨(inserted_integer a).backslash, by decide⟩, (inserted_integer b).backslash⟩,
      by decide⟩, (inserted_integer c).backslash⟩, by decide⟩, (inserted_integer d).backslash⟩

theorem newline_not_mem_layoutSettings (layout : Layout) :
    ∀ l ∈ layoutSettings layout, '\n' ∉ l := by
  have hint {param : List Char} (hparam : Inserted param) (z : ℤ) :
      '\n' ∉ setting param (integer z) := (Inserted.setting hparam (inserted_integer z)).newline
  have hcounts {param : List Char} (hparam : Inserted param) (a b c d : ℤ) :=
    (Inserted.setting hparam (inserted_counts a b c d)).newline
  unfold layoutSettings
  intro l hl
  simp only [List.mem_cons, List.not_mem_nil, or_false] at hl
  rcases hl with rfl | rfl | rfl | rfl
  · exact hint (inserted_of_all (by decide)) _
  · exact hint (inserted_of_all (by decide)) _
  · exact hcounts (inserted_of_all (by decide)) _ _ _ _
  · exact hcounts (inserted_of_all (by decide)) _ _ _ _

/-- Once `rewriteBase` has not raised, nothing raises. -/
theorem rewriteConfig_of_base (py : PythonHost) (a : SimulationArgs) {base : List Char}
    (hbase : rewriteBase py a = some base)
    (hos : ∀ o ∈ a.cfg_overrides, PlainName o.1 ∧ Inserted (setting o.1 o.2.str)) :
    ∃ text, rewriteConfig py a = some text ∧ text.splitOn '\n' =
      (settingsOf a.cfg_overrides).foldl setLines (base.splitOn '\n') ++
        layoutLines a.layout_cfg := by
  obtain ⟨text, htext, hlines⟩ := foldlM_setOverride py hos base
  unfold rewriteConfig
  rw [hbase, Option.bind_eq_bind, Option.bind_some, htext]
  cases a.layout_cfg with
  | none =>
      refine ⟨text, rfl, ?_⟩
      rw [hlines]
      simp [layoutLines, settingsOf]
  | some layout =>
      refine ⟨_, rfl, ?_⟩
      rw [splitOn_appendLines (newline_not_mem_layoutSettings layout), hlines, List.append_assoc]
      rfl

/-- `rewriteConfig` does not raise, and gives these lines. -/
theorem rewriteConfig_lines (py : PythonHost) (a : SimulationArgs)
    (hclosed : ∀ l ∈ a.base_cfg_content.splitOn '\n', endsOpen l = false)
    (hpath : Inserted (py.abspath a.cell_path)) (hroadmap : Inserted a.roadmap)
    (hos : ∀ o ∈ a.cfg_overrides, PlainName o.1 ∧ Inserted (setting o.1 o.2.str)) :
    ∃ text, rewriteConfig py a = some text ∧ text.splitOn '\n' =
      (settingsOf a.cfg_overrides).foldl setLines
          (baseLines (integer a.cap_kb) (py.abspath a.cell_path) a.roadmap
            (a.base_cfg_content.splitOn '\n')) ++ layoutLines a.layout_cfg := by
  obtain ⟨base, hbase, hbaseLines⟩ := rewriteBase_lines py a hclosed hpath hroadmap
  rw [← hbaseLines]
  exact rewriteConfig_of_base py a hbase hos

/-! ## The overrides of a job -/

/-- The parameters a job may override. -/
def overrideParams : List (List Char × ConfigOption) :=
  [("Temperature (K)".toList, .temperature), ("StackedDieCount".toList, .stackedDieCount),
   ("ProcessNode".toList, .processNode), ("WordWidth (bit)".toList, .wordWidth),
   ("InternalSensing".toList, .internalSensing),
   ("Associativity (for cache only)".toList, .associativity)]

theorem mem_sweepParams_of_override {e : List Char × ConfigOption} (he : e ∈ overrideParams) :
    e ∈ sweepParams := .tail _ (.tail _ (.tail _ he))

/-- The reader has no branch for the retention time. -/
theorem paramOption_retention : paramOption "RetentionTime (us)".toList = none := by
  obtain ⟨l, hl, hkeys⟩ : ∃ l, "RetentionTime (us)".toList = l ∧
      ∀ o : ConfigOption, ∃ k, o.key = k ∧ k.isPrefixOf ('-' :: l) = false :=
    ⟨_, String.toList_ofList, fun o => by cases o <;> exact ⟨_, String.toList_ofList, by decide⟩⟩
  unfold paramOption branchOf
  rw [List.find?_eq_none]
  intro o _
  obtain ⟨k, hk, hstart⟩ := hkeys o
  rw [hl, hk, hstart]
  exact Bool.false_ne_true

/-- The names a job sets, in order, with their branches. -/
def overrideKeys : List (List (List Char × Option ConfigOption)) :=
  let base := [("Temperature (K)".toList, some .temperature),
    ("StackedDieCount".toList, some .stackedDieCount), ("ProcessNode".toList, some .processNode),
    ("WordWidth (bit)".toList, some .wordWidth)]
  let associativity := ("Associativity (for cache only)".toList, some .associativity)
  [base ++ [associativity], base ++ [associativity, ("RetentionTime (us)".toList, none)],
   base ++ [("InternalSensing".toList, some .internalSensing), associativity]]

/-- Each name is the retention time or one of the parameters. -/
theorem overrideKeys_mem {ks : List (List Char × Option ConfigOption)} (hks : ks ∈ overrideKeys) :
    ∀ k ∈ ks, k = ("RetentionTime (us)".toList, none) ∨
      ∃ e ∈ overrideParams, k = (e.1, some e.2) := by
  simp only [overrideKeys, List.mem_cons, List.not_mem_nil, or_false] at hks
  rcases hks with rfl | rfl | rfl <;>
    simp [overrideParams]

/-- No two names of a job have one branch. -/
theorem overrideKeys_pairwise {ks : List (List Char × Option ConfigOption)}
    (hks : ks ∈ overrideKeys) : ks.Pairwise fun k k' => k.2 = none ∨ k.2 ≠ k'.2 := by
  simp only [overrideKeys, List.mem_cons, List.not_mem_nil, or_false] at hks
  rcases hks with rfl | rfl | rfl <;> simp

theorem overrideKeys_spec {ks : List (List Char × Option ConfigOption)} (hks : ks ∈ overrideKeys)
    {k : List Char × Option ConfigOption} (hk : k ∈ ks) : paramOption k.1 = k.2 := by
  rcases overrideKeys_mem hks k hk with rfl | ⟨e, he, rfl⟩
  · exact paramOption_retention
  · exact (sweepParams_spec (mem_sweepParams_of_override he)).2.1

section
variable {P : Type} (scripts : Scripts P) (m : MemType) (p : JobPoint) (cell_path : List Char)

theorem keys_overrides :
    ∃ ks ∈ overrideKeys, (p.overrides scripts m cell_path).map Prod.fst = ks.map Prod.fst := by
  unfold JobPoint.overrides
  split
  · by_cases hm : m = .eDRAM
    · rw [if_pos hm]
      exact ⟨_, .tail _ List.mem_cons_self, rfl⟩
    · rw [if_neg hm]
      exact ⟨_, List.mem_cons_self, rfl⟩
  · exact ⟨_, .tail _ (.tail _ List.mem_cons_self), rfl⟩

theorem inserted_override {o : List Char × OverrideValue}
    (ho : o ∈ p.overrides scripts m cell_path) : Inserted o.2.str := by
  have hint (z : ℤ) : Inserted (OverrideValue.int z).str := inserted_integer z
  have hall : ∀ v ∈ (p.overrides scripts m cell_path).map Prod.snd, Inserted v.str := by
    unfold JobPoint.overrides JobPoint.cfg_base
    split
    · by_cases hm : m = .eDRAM
      · rw [if_pos hm]
        simp [hint]
      · rw [if_neg hm]
        simp [hint]
    · next on _ =>
      have hflag :
          Inserted (OverrideValue.text (if on then "true".toList else "false".toList)).str := by
        cases on <;> exact inserted_of_all (by decide)
      simp only [List.map_cons, List.map_nil, List.cons_append, List.nil_append,
        List.forall_mem_cons]
      exact ⟨hint _, hint _, hint _, hint _, hflag, hint _, by simp⟩
  exact hall o.2 (List.mem_map_of_mem ho)

theorem plainName_retention : PlainName "RetentionTime (us)".toList := .of_plainName (by decide)

theorem name_override {o : List Char × OverrideValue}
    (ho : o ∈ p.overrides scripts m cell_path) :
    o.1 = "RetentionTime (us)".toList ∨ ∃ e ∈ overrideParams, o.1 = e.1 := by
  obtain ⟨ks, hks, hnames⟩ := keys_overrides scripts m p cell_path
  have hmem : o.1 ∈ ks.map Prod.fst := hnames ▸ List.mem_map_of_mem ho
  obtain ⟨k, hk, hname⟩ := List.mem_map.mp hmem
  rcases overrideKeys_mem hks k hk with rfl | ⟨e, he, rfl⟩
  · exact .inl hname.symm
  · exact .inr ⟨e, he, hname.symm⟩

theorem plainName_override {o : List Char × OverrideValue}
    (ho : o ∈ p.overrides scripts m cell_path) : PlainName o.1 := by
  rcases name_override scripts m p cell_path ho with h | ⟨e, he, h⟩
  · rw [h]
    exact plainName_retention
  · rw [h]
    exact (sweepParams_spec (mem_sweepParams_of_override he)).1

theorem inserted_setting_override {o : List Char × OverrideValue}
    (ho : o ∈ p.overrides scripts m cell_path) : Inserted (setting o.1 o.2.str) := by
  refine .setting ?_ (inserted_override scripts m p cell_path ho)
  have hall : ∀ e ∈ overrideParams, (e.1.all fun c => c != '\n' && c != '\\') = true := by
    simp only [overrideParams, List.forall_mem_cons]
    decide
  rcases name_override scripts m p cell_path ho with h | ⟨e, he, h⟩
  · rw [h]
    exact inserted_of_all (by decide)
  · rw [h]
    exact inserted_of_all (hall e he)

theorem pairwise_settings :
    (settingsOf (p.overrides scripts m cell_path)).Pairwise fun s s' =>
      ∀ o, paramOption s.1 = some o → paramOption s'.1 ≠ some o := by
  obtain ⟨ks, hks, hnames⟩ := keys_overrides scripts m p cell_path
  have h : (ks.map Prod.fst).Pairwise fun k k' =>
      ∀ o, paramOption k = some o → paramOption k' ≠ some o := by
    rw [List.pairwise_map]
    refine (overrideKeys_pairwise hks).imp_of_mem fun {k k'} hk hk' hpair o ho ho' => ?_
    rw [overrideKeys_spec hks hk] at ho
    rw [overrideKeys_spec hks hk'] at ho'
    rcases hpair with hnone | hne
    · rw [hnone] at ho
      cases ho
    · exact hne (ho.trans ho'.symm)
  unfold settingsOf
  rw [← hnames, List.pairwise_map] at h
  rwa [List.pairwise_map]

/-- No two overrides are of one name. -/
theorem nodup_settings : (settingsOf (p.overrides scripts m cell_path)).Pairwise
    fun s s' => s.1 ≠ s'.1 := by
  have hkeys : ∀ ks ∈ overrideKeys, (ks.map Prod.fst).Nodup := by
    unfold overrideKeys
    decide +kernel
  obtain ⟨ks, hks, hnames⟩ := keys_overrides scripts m p cell_path
  have h := hkeys ks hks
  rw [← hnames] at h
  unfold settingsOf
  rw [List.pairwise_map]
  exact List.pairwise_map.mp h

/-! ## The branches of the rewritten lines -/

/-- The lines of the configuration of a job. -/
def pointLines (path : List Char) (ls : List (List Char)) : List (List Char) :=
  (settingsOf (p.overrides scripts m cell_path)).foldl setLines
    (baseLines (integer p.cap_kb) path p.roadmap ls) ++ layoutLines p.layout_cfg

/-- The lines of a configuration behind the free substitutions. -/
def overriddenLines (ls : List (List Char)) : List (List Char) :=
  (settingsOf (p.overrides scripts m cell_path)).foldl setLines
    (setParam "DeviceRoadmap".toList (setting "DeviceRoadmap".toList p.roadmap)
      (forcedLines ls)) ++ layoutLines p.layout_cfg

theorem pointLines_eq (path : List Char) (ls : List (List Char)) :
    pointLines scripts m p cell_path path ls =
      overriddenLines scripts m p cell_path (freeLines (integer p.cap_kb) path ls) := rfl

/-- The branches a forced layout adds to. -/
def layoutOptions : List ConfigOption :=
  [.forceMuxSenseAmp, .forceMuxOutputLev2, .forceBank, .forceMat]

theorem taken_layoutLines {o : ConfigOption} (ho : o ∉ layoutOptions) (layout : Option Layout) :
    taken o (layoutLines layout) = [] := by
  cases layout with
  | none => rfl
  | some layout =>
      have hnone {param : List Char} {b : ConfigOption}
          (hlabel : '-' :: (param ++ ": ".toList) = b.label) (hmem : b ∈ layoutOptions)
          (value : List Char) : optionOf (setting param value) ≠ some o := by
        refine optionOf_setting_ne (paramOption_of_label hlabel) ?_ value
        rintro rfl
        exact ho hmem
      have hall : ∀ l ∈ layoutLines (some layout), optionOf l ≠ some o := by
        simp only [layoutLines, layoutSettings, List.cons_append, List.nil_append,
          List.forall_mem_cons]
        exact ⟨hnone (b := .forceMuxSenseAmp) (label_of_ofList (by decide)) (by decide) _,
          hnone (b := .forceMuxOutputLev2) (label_of_ofList (by decide)) (by decide) _,
          hnone (b := .forceBank) (label_of_ofList (by decide)) (by decide) _,
          hnone (b := .forceMat) (label_of_ofList (by decide)) (by decide) _, optionOf_nil o,
          by simp⟩
      rw [List.eq_nil_iff_forall_not_mem]
      exact fun l hl => hall l (mem_taken.mp hl).1 (mem_taken.mp hl).2

theorem name_settings {s : List Char × List Char}
    (hs : s ∈ settingsOf (p.overrides scripts m cell_path)) :
    s.1 = "RetentionTime (us)".toList ∨ ∃ e ∈ overrideParams, s.1 = e.1 := by
  obtain ⟨o, ho, rfl⟩ := List.mem_map.mp hs
  exact name_override scripts m p cell_path ho

/-- No override is of a branch outside the list. -/
theorem paramOption_override_ne {o : ConfigOption} (ho : o ∉ overrideParams.map Prod.snd) :
    ∀ s ∈ settingsOf (p.overrides scripts m cell_path), paramOption s.1 ≠ some o := by
  intro s hs
  rcases name_settings scripts m p cell_path hs with h | ⟨e, he, h⟩
  · rw [h, paramOption_retention]
    exact fun h => by cases h
  · rw [h, (sweepParams_spec (mem_sweepParams_of_override he)).2.1]
    intro h
    exact ho (List.mem_map.mpr ⟨e, he, Option.some.inj h⟩)

/-- No override has the name of a parameter of such a branch. -/
theorem name_override_ne {param : List Char} {o : ConfigOption}
    (hparam : paramOption param = some o) (ho : o ∉ overrideParams.map Prod.snd)
    {s : List Char × List Char}
    (hs : s ∈ settingsOf (p.overrides scripts m cell_path)) : s.1 ≠ param :=
  ne_of_paramOption (paramOption_override_ne scripts m p cell_path ho s hs) hparam

theorem plainName_settings : ∀ s ∈ settingsOf (p.overrides scripts m cell_path), PlainName s.1 := by
  intro s hs
  obtain ⟨o, ho, rfl⟩ := List.mem_map.mp hs
  exact plainName_override scripts m p cell_path ho

/-- The branches no override belongs to. -/
theorem taken_pointLines {o : ConfigOption} (ho : o ∉ overrideParams.map Prod.snd)
    (ho' : o ∉ layoutOptions) (path : List Char) (ls : List (List Char)) :
    taken o (pointLines scripts m p cell_path path ls) =
      taken o (baseLines (integer p.cap_kb) path p.roadmap ls) := by
  unfold pointLines
  rw [taken_append, taken_layoutLines ho', List.append_nil]
  exact taken_foldl_setLines (plainName_settings scripts m p cell_path)
    (paramOption_override_ne scripts m p cell_path ho) _

/-- The branches the sweep does not write lines for, the capacity and the cell file aside. -/
theorem taken_overriddenLines (ls : List (List Char)) {o : ConfigOption}
    (ho : o ∉ sweepParams.map Prod.snd) (ho' : o ∉ layoutOptions) :
    taken o (overriddenLines scripts m p cell_path ls) = taken o ls := by
  have hparams : ∀ o' ∈ sweepParams.map Prod.snd, o' ≠ o := by
    rintro o' hmem rfl
    exact ho hmem
  have hoverride : o ∉ overrideParams.map Prod.snd := by
    intro hmem
    obtain ⟨e, he, heq⟩ := List.mem_map.mp hmem
    exact ho (List.mem_map.mpr ⟨e, mem_sweepParams_of_override he, heq⟩)
  have hroadmap : ConfigOption.deviceRoadmap ≠ o := hparams _ (by decide)
  unfold overriddenLines
  rw [taken_append, taken_layoutLines ho', List.append_nil,
    taken_foldl_setLines (plainName_settings scripts m p cell_path)
      (paramOption_override_ne scripts m p cell_path hoverride),
    taken_setParam plainName_roadmap (paramOption_ne paramOption_roadmap hroadmap)
      (optionOf_setting_ne paramOption_roadmap hroadmap _),
    taken_forcedLines (hparams _ (by decide)) (hparams _ (by decide))]

theorem taken_pointLines_free {o : ConfigOption} (ho : o ∉ sweepParams.map Prod.snd)
    (ho' : o ∉ layoutOptions) (path : List Char) (ls : List (List Char)) :
    taken o (pointLines scripts m p cell_path path ls) =
      taken o (freeLines (integer p.cap_kb) path ls) :=
  taken_overriddenLines scripts m p cell_path _ ho ho'

/-- Each override is the only text of its branch. -/
theorem fixed_pointLines {path : List Char} {ls : List (List Char)}
    (hns : ∀ e ∈ sweepParams, NoStray e.1 ls) {e : List Char × ConfigOption}
    (he : e ∈ overrideParams) {v : OverrideValue}
    (hv : (e.1, v) ∈ p.overrides scripts m cell_path) :
    Fixed e.2 (setting e.1 v.str) (pointLines scripts m p cell_path path ls) := by
  have hbase : ∀ s ∈ settingsOf (p.overrides scripts m cell_path),
      NoStray s.1 (baseLines (integer p.cap_kb) path p.roadmap ls) := by
    intro s hs
    obtain ⟨o, ho, rfl⟩ := List.mem_map.mp hs
    rcases name_override scripts m p cell_path ho with h | ⟨e', he', h⟩
    · -- the reader has no branch for it
      intro b hb
      rw [h, paramOption_retention] at hb
      cases hb
    · have hsweep := mem_sweepParams_of_override he'
      show NoStray o.1 _
      rw [h]
      refine ((hns e' hsweep).freeLines (integer p.cap_kb) path hsweep).congr fun b hb => ?_
      have hbranch : e'.2 = b := Option.some.inj ((sweepParams_spec hsweep).2.1.symm.trans hb)
      have hothers : ∀ e ∈ overrideParams, .optimizationTarget ≠ e.2 ∧ .enablePruning ≠ e.2 ∧
          .deviceRoadmap ≠ e.2 := by decide
      rw [← hbranch]
      exact taken_baseLines _ _ _ (hothers e' he').1 (hothers e' he').2.1 (hothers e' he').2.2
  have hown := (sweepParams_spec (mem_sweepParams_of_override he)).2.1
  have hlayout : ∀ e ∈ overrideParams, e.2 ∉ layoutOptions := by decide
  refine (fixed_foldl_setLines (plainName_settings scripts m p cell_path)
    (pairwise_settings scripts m p cell_path) hbase (e.1, v.str)
    (List.mem_map.mpr ⟨_, hv, rfl⟩) e.2 hown).congr ?_
  unfold pointLines
  rw [taken_append, taken_layoutLines (hlayout e he), List.append_nil]

end

end Destiny.Sweep
