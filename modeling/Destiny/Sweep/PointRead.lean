/-
  Destiny.Sweep.PointRead

  What the reader ends with on the lines of a job's configuration, one parameter of the
  design point after the other.

  * Each overridden parameter is looked at on its own lines (`taken_overridden_own`): it
    ends as the job has it exactly when the lines in front are settled
    (`getLast?_overridden`).
  * `number_iff` says so of the numbers of a design point.
  * The roadmap and the sensing mode are words: they arrive from every state exactly when
    the last line of them says those of the job (`roadmap_iff`, `sensing_iff`).
  * `given_iff` puts the parameters together.
-/

import Destiny.Sweep.FreedLines

namespace Destiny.Sweep

open Lib

/-! ## The branches of an overridden configuration -/

section
variable {P : Type} (scripts : Scripts P) (m : MemType) (p : JobPoint) (cell_path : List Char)
  (ls : List (List Char))

theorem asRead_overriddenLines (hne : ls ≠ []) :
    asRead (overriddenLines scripts m p cell_path ls) =
      overriddenLines scripts m p cell_path (asRead ls) := by
  have hforced : setParam "DeviceRoadmap".toList (setting "DeviceRoadmap".toList p.roadmap)
      (forcedLines ls) ≠ [] := by
    refine setParam_ne_nil ?_
    unfold forcedLines
    rw [List.append_assoc]
    exact List.append_ne_nil_of_left_ne_nil (setParam_ne_nil (setParam_ne_nil hne)) _
  obtain ⟨hfold, heq⟩ := asRead_foldl_setLines (plainName_settings scripts m p cell_path) hforced
  unfold overriddenLines
  rw [asRead_append hfold, heq, asRead_setParam plainName_roadmap rfl, asRead_forcedLines hne]

section
variable {V : Type} {param : List Char} {o : ConfigOption} {val : List Char → Option V}

/-- The forced settings and the roadmap are other parameters. -/
theorem standings_forcedLines (hparam : PlainName param) (ho : paramOption param = some o)
    (htarget : .optimizationTarget ≠ o) (hpruning : .enablePruning ≠ o) :
    (forcedLines ls).filterMap (standing param o val) = ls.filterMap (standing param o val) := by
  have htarget' := ne_of_paramOption (paramOption_ne paramOption_target htarget) ho
  have hpruning' := ne_of_paramOption (paramOption_ne paramOption_pruning hpruning) ho
  have hnil : standing param o val [] = none := standing_nil hparam
  unfold forcedLines
  rw [List.append_assoc, List.filterMap_append,
    filterMap_setParam_other hparam plainName_pruning hpruning'
      (paramOption_ne paramOption_pruning hpruning) hnil,
    filterMap_setParam_other hparam plainName_target htarget'
      (paramOption_ne paramOption_target htarget) hnil, List.cons_append,
    List.filterMap_cons_none (standing_setting_other hparam plainName_target htarget'
      (paramOption_ne paramOption_target htarget) _), List.cons_append,
    List.filterMap_cons_none (standing_setting_other hparam plainName_pruning hpruning'
      (paramOption_ne paramOption_pruning hpruning) _), List.nil_append,
    List.filterMap_cons_none hnil, List.filterMap_nil, List.append_nil]

/-- The lines that the override of a parameter meets, and what is left of its branch. -/
theorem taken_overridden_own {e : List Char × ConfigOption} (he : e ∈ overrideParams)
    {v : OverrideValue} (hv : (e.1, v) ∈ p.overrides scripts m cell_path) :
    ∃ ms, taken e.2 (overriddenLines scripts m p cell_path ls) =
        taken e.2 (setLines ms (e.1, v.str)) ∧
      ∀ {V : Type} (val : List Char → Option V),
        ms.filterMap (standing e.1 e.2 val) = ls.filterMap (standing e.1 e.2 val) := by
  have hplain := plainName_settings scripts m p cell_path
  have hdiff := pairwise_settings scripts m p cell_path
  have hown := (sweepParams_spec (mem_sweepParams_of_override he)).2.1
  have hname := (sweepParams_spec (mem_sweepParams_of_override he)).1
  have hmem : (e.1, v.str) ∈ settingsOf (p.overrides scripts m cell_path) :=
    List.mem_map.mpr ⟨_, hv, rfl⟩
  have hlayout : ∀ e ∈ overrideParams, e.2 ∉ layoutOptions := by decide
  have hothers : ∀ e ∈ overrideParams, .optimizationTarget ≠ e.2 ∧ .enablePruning ≠ e.2 ∧
      .deviceRoadmap ≠ e.2 := by decide
  obtain ⟨htarget, hpruning, hroadmap⟩ := hothers e he
  obtain ⟨before, after, hsplit⟩ := List.append_of_mem hmem
  rw [hsplit] at hplain hdiff
  obtain ⟨-, hlater, hacross⟩ := List.pairwise_append.mp hdiff
  obtain ⟨hafter, -⟩ := List.pairwise_cons.mp hlater
  have hbefore : ∀ s ∈ before, paramOption s.1 ≠ some e.2 := by
    intro s hs h
    exact hacross s hs _ List.mem_cons_self e.2 h hown
  have hroadname := ne_of_paramOption (paramOption_ne paramOption_roadmap hroadmap) hown
  refine ⟨before.foldl setLines (setParam "DeviceRoadmap".toList
    (setting "DeviceRoadmap".toList p.roadmap) (forcedLines ls)), ?_, fun val => ?_⟩
  · unfold overriddenLines
    rw [taken_append, taken_layoutLines (hlayout e he), List.append_nil, hsplit, List.foldl_append,
      List.foldl_cons]
    exact taken_foldl_setLines
      (fun s hs => hplain s (List.mem_append_right _ (List.mem_cons_of_mem _ hs)))
      (fun s hs => hafter s hs e.2 hown) _
  · rw [filterMap_foldl_setLines hname hown
        (fun s hs => hplain s (List.mem_append_left _ hs)) hbefore,
      filterMap_setParam_other hname plainName_roadmap hroadname
        (paramOption_ne paramOption_roadmap hroadmap)
        (standing_setting_other hname plainName_roadmap hroadname
          (paramOption_ne paramOption_roadmap hroadmap) _),
      standings_forcedLines ls hname hown htarget hpruning]

/-- The last value of an overridden branch: that of the job, exactly when it is settled, or
    that of the last line of the template. -/
theorem getLast?_overridden {e : List Char × ConfigOption} (he : e ∈ overrideParams)
    {v : OverrideValue} (hv : (e.1, v) ∈ p.overrides scripts m cell_path) {V : Type}
    (val : List Char → Option V) {x : V} (hx : val (setting e.1 v.str) = some x) : ∃ y,
      ((taken e.2 (overriddenLines scripts m p cell_path ls)).filterMap val).getLast? = some y ∧
        (y = x ∨ (ls.filterMap (standing e.1 e.2 val)).getLast? = some (.read y)) ∧
        (y = x ↔ Settled e.1 e.2 val x ls) := by
  have hown := (sweepParams_spec (mem_sweepParams_of_override he)).2.1
  obtain ⟨ms, htaken, hstandings⟩ := taken_overridden_own scripts m p cell_path ls he hv
  obtain ⟨y, hy, hlast, hiff⟩ := getLast?_setLines val ms hown hx
  refine ⟨y, by rw [htaken, hy], ?_⟩
  unfold Settled at hiff ⊢
  rw [hstandings] at hlast hiff
  exact ⟨hlast, hiff⟩

end

end

/-! ## The design point that is read -/

theorem sscanfInt_intIn (o : ConfigOption) (l : List Char) (x : ℤ) :
    sscanfInt o.label (skipSpace l) x = (intIn o l).getD x := by
  unfold sscanfInt intIn
  cases (scanLiteral o.label (skipSpace l)).bind scanInt <;> rfl

/-- The sensing mode the reader takes from a line. -/
def sensingIn (l : List Char) : Option Bool := (wordIn .internalSensing l).map isTrue

/-- The numbers of a design point that a job overrides. -/
def JobPoint.numbers (p : JobPoint) : List ((List Char × ConfigOption) × ℤ) :=
  [(("Temperature (K)".toList, .temperature), p.temperature),
   (("StackedDieCount".toList, .stackedDieCount), p.stacked),
   (("ProcessNode".toList, .processNode), (extract_process_node p.cell_file).getD 0),
   (("WordWidth (bit)".toList, .wordWidth), p.ww_bits),
   (("Associativity (for cache only)".toList, .associativity), p.assoc)]

theorem numbers_mem_overrideParams {p : JobPoint} {n : (List Char × ConfigOption) × ℤ}
    (hn : n ∈ p.numbers) : n.1 ∈ overrideParams := by
  simp only [JobPoint.numbers, List.mem_cons, List.not_mem_nil, or_false] at hn
  rcases hn with rfl | rfl | rfl | rfl | rfl
  · exact List.mem_cons_self
  · exact .tail _ List.mem_cons_self
  · exact .tail _ (.tail _ List.mem_cons_self)
  · exact .tail _ (.tail _ (.tail _ List.mem_cons_self))
  · exact .tail _ (.tail _ (.tail _ (.tail _ (.tail _ List.mem_cons_self))))

section
variable {P : Type} (scripts : Scripts P) (m : MemType) (p : JobPoint) (cell_path : List Char)

theorem numbers_spec {n : (List Char × ConfigOption) × ℤ} (hn : n ∈ p.numbers) :
    n.1 ∈ overrideParams ∧ (n.1.1, .int n.2) ∈ p.overrides scripts m cell_path := by
  refine ⟨numbers_mem_overrideParams hn, mem_overrides scripts m p cell_path ?_⟩
  simp only [JobPoint.numbers, List.mem_cons, List.not_mem_nil, or_false] at hn
  rcases hn with rfl | rfl | rfl | rfl | rfl
  · exact List.mem_cons_self
  · exact .tail _ List.mem_cons_self
  · exact .tail _ (.tail _ List.mem_cons_self)
  · exact .tail _ (.tail _ (.tail _ List.mem_cons_self))
  · exact .tail _ (.tail _ (.tail _ (.tail _ List.mem_cons_self)))

variable (ls : List (List Char)) (s : ConfigReader)

/-- The lines of the configuration read, behind the free substitutions. -/
def JobPoint.readLines (ls : List (List Char)) (s : ConfigReader) : ConfigReader :=
  (overriddenLines scripts m p cell_path ls).foldl readSkipped s

/-- A number ends as that of the job exactly when it is settled. -/
theorem number_iff {n : (List Char × ConfigOption) × ℤ} (hn : n ∈ p.numbers) {V : Type}
    {f : ConfigReader → V} {g : ℤ → V} {writers : List ConfigOption} (hfield : WrittenBy f writers)
    (hothers : ∀ o ∈ writers, o ≠ n.1.2 →
      taken o (overriddenLines scripts m p cell_path ls) = [])
    (hread : ∀ l s, f (n.1.2.read (skipSpace l) s) = ((intIn n.1.2 l).map g).getD (f s)) :
    ∃ y, f (p.readLines scripts m cell_path ls s) = g y ∧
      (y = n.2 ↔ Settled n.1.1 n.1.2 (intIn n.1.2) n.2 ls) := by
  obtain ⟨he, hv⟩ := numbers_spec scripts m p cell_path hn
  have hlabel := (sweepParams_spec (mem_sweepParams_of_override he)).2.2
  have hvalue : intIn n.1.2 (setting n.1.1 (OverrideValue.int n.2).str) = some n.2 := by
    unfold intIn
    rw [skipSpace_setting, setting_eq_text hlabel]
    exact scan_int n.1.2 n.2
  obtain ⟨y, hy, -, hiff⟩ := getLast?_overridden scripts m p cell_path ls he hv (intIn n.1.2) hvalue
  refine ⟨y, ?_, hiff⟩
  unfold JobPoint.readLines
  rw [foldl_of_last hfield hothers (fun l _ s => hread l s), hy]
  rfl

theorem temperature_iff :
    (p.readLines scripts m cell_path ls s).temperature = p.temperature ↔
      Settled "Temperature (K)".toList .temperature (intIn .temperature) p.temperature ls := by
  obtain ⟨y, hy, hiff⟩ := number_iff scripts m p cell_path ls s
    (n := (("Temperature (K)".toList, .temperature), p.temperature)) List.mem_cons_self
    (f := ConfigReader.temperature) (g := id) (fun o ho l s => (read_frame o l s).temperature ho)
    (fun o ho hne => absurd (List.mem_singleton.mp ho) hne) fun l s => by
      rw [Option.map_id]
      exact sscanfInt_intIn .temperature l s.temperature
  rw [hy, ← hiff]
  rfl

theorem processNode_iff :
    (p.readLines scripts m cell_path ls s).processNode =
        ((extract_process_node p.cell_file).getD 0 : ℕ) ↔
      Settled "ProcessNode".toList .processNode (intIn .processNode)
        ((extract_process_node p.cell_file).getD 0 : ℕ) ls := by
  obtain ⟨y, hy, hiff⟩ := number_iff scripts m p cell_path ls s
    (n := (("ProcessNode".toList, .processNode), ((extract_process_node p.cell_file).getD 0 : ℕ)))
    (.tail _ (.tail _ List.mem_cons_self)) (f := ConfigReader.processNode) (g := id)
    (fun o ho l s => (read_frame o l s).processNode ho)
    (fun o ho hne => absurd (List.mem_singleton.mp ho) hne) fun l s => by
      rw [Option.map_id]
      exact sscanfInt_intIn .processNode l s.processNode
  rw [hy, ← hiff]
  rfl

theorem wordWidth_iff (hpos : 0 < p.ww_bits) :
    ((p.readLines scripts m cell_path ls s).ip.wordWidth : ℤ) = p.ww_bits ↔
      Settled "WordWidth (bit)".toList .wordWidth (intIn .wordWidth) p.ww_bits ls := by
  obtain ⟨y, hy, hiff⟩ := number_iff scripts m p cell_path ls s
    (n := (("WordWidth (bit)".toList, .wordWidth), p.ww_bits))
    (.tail _ (.tail _ (.tail _ List.mem_cons_self)))
    (f := fun s => s.ip.wordWidth) (g := Int.toNat)
    (fun o ho l s => (read_frame o l s).wordWidth ho)
    (fun o ho hne => absurd (List.mem_singleton.mp ho) hne) fun l s => by
      show (sscanfInt ConfigOption.wordWidth.label (skipSpace l) (s.ip.wordWidth : ℤ)).toNat = _
      rw [sscanfInt_intIn]
      cases intIn .wordWidth l <;> simp
  rw [hy, ← hiff]
  omega

theorem associativity_iff (hpos : 0 < p.assoc) :
    ((p.readLines scripts m cell_path ls s).ip.associativity : ℤ) = p.assoc ↔
      Settled "Associativity (for cache only)".toList .associativity (intIn .associativity)
        p.assoc ls := by
  obtain ⟨y, hy, hiff⟩ := number_iff scripts m p cell_path ls s
    (n := (("Associativity (for cache only)".toList, .associativity), p.assoc))
    (.tail _ (.tail _ (.tail _ (.tail _ List.mem_cons_self))))
    (f := fun s => s.ip.associativity) (g := Int.toNat)
    (fun o ho l s => (read_frame o l s).associativity ho)
    (fun o ho hne => absurd (List.mem_singleton.mp ho) hne) fun l s => by
      show (sscanfInt ConfigOption.associativity.label (skipSpace l)
        (s.ip.associativity : ℤ)).toNat = _
      rw [sscanfInt_intIn]
      cases intIn .associativity l <;> simp
  rw [hy, ← hiff]
  omega

/-- The dice are pinned once their branch has been taken. -/
theorem stackLayer_pinned {ls : List (List Char)} (h3D : taken .forceBank3D ls = [])
    (h3DA : taken .forceBank3DA ls = []) (hsome : taken .stackedDieCount ls ≠ [])
    (s : ConfigReader) : (ls.foldl readSkipped s).ip.stackLayer =
      .pin (ls.foldl readSkipped s).ip.stackLayer.min := by
  induction ls using List.reverseRecOn with
  | nil => exact absurd rfl hsome
  | append_singleton ls l ih =>
      rw [taken_append, List.append_eq_nil_iff] at h3D h3DA
      rw [List.foldl_append, List.foldl_cons, List.foldl_nil]
      by_cases hl : optionOf l = some .stackedDieCount
      · rw [readSkipped_of_some hl]
        rfl
      · have hearlier : taken .stackedDieCount ls ≠ [] := by
          rwa [taken_append, taken_singleton_of_ne hl, List.append_nil] at hsome
        have hfield : WrittenBy (fun s => s.ip.stackLayer)
            [.stackedDieCount, .forceBank3D, .forceBank3DA] :=
          fun o ho l s => (read_frame o l s).stackLayer ho
        have hkept := readSkipped_of_not_written hfield (l := l) (fun o ho hl' => ?_)
          (ls.foldl readSkipped s)
        · have hkept : (readSkipped (ls.foldl readSkipped s) l).ip.stackLayer =
              (ls.foldl readSkipped s).ip.stackLayer := hkept
          rw [hkept]
          exact ih h3D.1 h3DA.1 hearlier
        · simp only [List.mem_cons, List.not_mem_nil, or_false] at ho
          rcases ho with rfl | rfl | rfl
          · exact hl hl'
          · have h := h3D.2
            rw [taken_singleton hl'] at h
            cases h
          · have h := h3DA.2
            rw [taken_singleton hl'] at h
            cases h

theorem dies_iff (h3D : taken .forceBank3D ls = []) (h3DA : taken .forceBank3DA ls = []) :
    (p.readLines scripts m cell_path ls s).ip.stackLayer = .pin p.stacked ↔
      Settled "StackedDieCount".toList .stackedDieCount (intIn .stackedDieCount) p.stacked ls := by
  have hnumber : (("StackedDieCount".toList, ConfigOption.stackedDieCount), p.stacked) ∈
      p.numbers :=
    .tail _ List.mem_cons_self
  have hnone {o : ConfigOption} (ho : o ∉ sweepParams.map Prod.snd) (ho' : o ∉ layoutOptions)
      (h : taken o ls = []) : taken o (overriddenLines scripts m p cell_path ls) = [] := by
    rw [taken_overriddenLines scripts m p cell_path ls ho ho', h]
  have h3D' := hnone (by decide) (by decide) h3D
  have h3DA' := hnone (by decide) (by decide) h3DA
  have hfield : WrittenBy (fun s => s.ip.stackLayer.min)
      [.stackedDieCount, .forceBank3D, .forceBank3DA] :=
    fun o ho l s => congrArg Range.min ((read_frame o l s).stackLayer ho)
  obtain ⟨y, hy, hiff⟩ := number_iff scripts m p cell_path ls s hnumber (g := id) hfield
    (fun o ho hne => by
      simp only [List.mem_cons, List.not_mem_nil, or_false] at ho
      rcases ho with rfl | rfl | rfl
      · exact absurd rfl hne
      · exact h3D'
      · exact h3DA') fun l s => by
      rw [Option.map_id]
      exact sscanfInt_intIn .stackedDieCount l s.ip.stackLayer.min
  -- the override is put in for a line or appended, so the branch is taken
  have hsome : taken .stackedDieCount (overriddenLines scripts m p cell_path ls) ≠ [] := by
    obtain ⟨he, hv⟩ := numbers_spec scripts m p cell_path hnumber
    obtain ⟨ms, htaken, -⟩ := taken_overridden_own scripts m p cell_path ls he hv
    rw [htaken]
    have hown := (sweepParams_spec (mem_sweepParams_of_override he)).2.1
    have hoption : optionOf (setting "StackedDieCount".toList (OverrideValue.int p.stacked).str) =
        some .stackedDieCount := by rw [optionOf_setting, hown]
    unfold setLines
    split
    · next hany =>
      obtain ⟨l, hl, hnames⟩ := List.any_eq_true.mp hany
      refine List.ne_nil_of_mem (mem_taken.mpr ⟨List.mem_map.mpr ⟨l, hl, if_pos hnames⟩, ?_⟩)
      exact hoption
    · refine List.ne_nil_of_mem (mem_taken.mpr ⟨List.mem_append_right _ List.mem_cons_self, ?_⟩)
      exact hoption
  have hpinned := stackLayer_pinned h3D' h3DA' hsome s
  unfold JobPoint.readLines at hy ⊢
  rw [← hiff, hpinned, hy]
  constructor
  · intro h
    exact congrArg Range.min h
  · intro h
    rw [h]
    rfl

/-- A sensing mode without a line gets one. -/
theorem sensing_appended {on : Bool} (hoption : p.option = .sensing on)
    (hunnamed : ls.any (names "InternalSensing".toList) = false) :
    (p.readLines scripts m cell_path ls s).ip.internalSensing = on := by
  have he : ("InternalSensing".toList, ConfigOption.internalSensing) ∈ overrideParams :=
    .tail _ (.tail _ (.tail _ (.tail _ List.mem_cons_self)))
  have hlabel := (sweepParams_spec (mem_sweepParams_of_override he)).2.2
  have hv : ("InternalSensing".toList,
      OverrideValue.text (if on then "true".toList else "false".toList)) ∈
        p.overrides scripts m cell_path := by
    unfold JobPoint.overrides
    rw [hoption]
    exact List.mem_append_right _ (.tail _ List.mem_cons_self)
  have hword : IsWord (if on then "true".toList else "false".toList) := by
    cases on <;> exact isWord_of_all rfl (by decide)
  have hvalue : sensingIn (setting "InternalSensing".toList
      (OverrideValue.text (if on then "true".toList else "false".toList)).str) = some on := by
    unfold sensingIn wordIn
    rw [skipSpace_setting, setting_eq_text hlabel]
    have hscan := scan_word ConfigOption.internalSensing hword
    show Option.map isTrue (Option.map Prod.fst ((scanLiteral ConfigOption.internalSensing.label
      (ConfigLine.text (ConfigOption.internalSensing,
        if on then "true".toList else "false".toList))).bind scanWord)) = some on
    rw [hscan]
    cases on <;> decide
  obtain ⟨y, hy, -, hiff⟩ := getLast?_overridden scripts m p cell_path ls he hv
    (fun l => some (sensingIn l)) (congrArg some hvalue)
  -- no line is replaced, so the override is appended behind all of them
  obtain rfl : y = some on := hiff.mpr fun hreplaced => by
    rw [replaced_mem_standings, hunnamed] at hreplaced
    cases hreplaced
  rw [List.filterMap_eq_map'] at hy
  refine foldl_of_getLast (fun s => s.ip.internalSensing) sensingIn id
    (fun o ho l s => (read_frame o l s).internalSensing ho) (fun l x hx s => ?_) hy s
  obtain ⟨w, hw, rfl⟩ := Option.map_eq_some_iff.mp hx
  show isTrue (sscanfWord ConfigOption.internalSensing.label (skipSpace l) s.tmp) = isTrue w
  rw [sscanfWord_eq hw]

/-- The roadmap arrives exactly when the last line of it says that of the job. -/
theorem roadmap_iff :
    (∀ s, roadmapToStr (p.readLines scripts m cell_path ls s).deviceRoadmap = p.roadmap) ↔
      ∃ r, lastSaid (behind (scratch .deviceRoadmap DeviceRoadmap.ofWord)
        (p.rewrites scripts m cell_path)) ls = some r ∧ roadmapToStr r = p.roadmap := by
  obtain ⟨tail, heq, htail⟩ := scratch_overriddenLines scripts m p cell_path
    (o := .deviceRoadmap) DeviceRoadmap.ofWord (by decide) (by decide) (by decide) ls
  have hothers : ∀ x ∈ tail, ∃ v, x = .other v := by
    intro x hx
    rcases htail x hx with h | ⟨s, hs, hown, -⟩
    · exact h
    · exact absurd hown (paramOption_override_ne scripts m p cell_path (by decide) s hs)
  -- no two roadmaps are written alike
  obtain ⟨r, hr, hofWord⟩ : ∃ r : DeviceRoadmap, roadmapToStr r ≠ p.roadmap ∧
      DeviceRoadmap.ofWord (roadmapToStr r) = r := by
    by_cases h : roadmapToStr .HP = p.roadmap
    · exact ⟨.LOP, by rw [← h]; decide, by decide⟩
    · exact ⟨.HP, h, by decide⟩
  have hiff := foldl_own_iff (f := ConfigReader.deviceRoadmap) (d := DeviceRoadmap.ofWord)
    (fun o ho l s => (read_frame o l s).deviceRoadmap ho) rfl (fun _ _ => rfl)
    (overriddenLines scripts m p cell_path ls) (fun r => roadmapToStr r = p.roadmap)
    { (default : ConfigReader) with deviceRoadmap := r, tmp := roadmapToStr r }
    (by rwa [hofWord]) hr
  unfold lastSaid at hiff ⊢
  rw [heq, lastOwn_append_other hothers] at hiff
  exact hiff

/-- The sensing mode of a job that varies it arrives exactly when no line names it or the last
    line of it says that of the job. -/
theorem sensing_iff {on : Bool} (hoption : p.option = .sensing on) :
    (∀ s, (p.readLines scripts m cell_path ls s).ip.internalSensing = on) ↔
      (ls.any (names "InternalSensing".toList) = true →
        lastSaid (behind (scratch .internalSensing isTrue) (p.rewrites scripts m cell_path)) ls =
          some on) := by
  cases hany : ls.any (names "InternalSensing".toList) with
  | false =>
      exact iff_of_true (fun s => sensing_appended scripts m p cell_path ls s hoption hany)
        fun h => by cases h
  | true =>
      obtain ⟨tail, heq, htail⟩ := scratch_overriddenLines scripts m p cell_path
        (o := .internalSensing) isTrue (by decide) (by decide) (by decide) ls
      -- a line names the parameter, so no override of it was appended
      have hothers : ∀ x ∈ tail, ∃ v, x = .other v := by
        intro x hx
        rcases htail x hx with h | ⟨s, hs, hown, hnone⟩
        · exact h
        · exfalso
          rcases name_settings scripts m p cell_path hs with h | ⟨e, he, h⟩
          · rw [h, paramOption_retention] at hown
            cases hown
          · rw [h, (sweepParams_spec (mem_sweepParams_of_override he)).2.1] at hown
            have hall : ∀ e ∈ overrideParams, e.2 = .internalSensing →
                e.1 = "InternalSensing".toList := by decide
            rw [h, hall e he (Option.some.inj hown), hany] at hnone
            cases hnone
      -- a start on which the buffer and the mode say the other thing
      have hiff := foldl_own_iff (f := fun s => s.ip.internalSensing) (d := isTrue)
        (fun o ho l s => (read_frame o l s).internalSensing ho) rfl (fun _ _ => rfl)
        (overriddenLines scripts m p cell_path ls) (fun b => b = on)
        { (default : ConfigReader) with
          ip.internalSensing := !on, tmp := if on then [] else "true".toList }
        (by cases on <;> decide) (by cases on <;> decide)
      unfold lastSaid at hiff ⊢
      rw [heq, lastOwn_append_other hothers, exists_eq_right] at hiff
      exact ⟨fun h _ => hiff.mp h, fun h => hiff.mpr (h rfl)⟩

theorem capacity_read (hpos : 0 ≤ p.cap_kb)
    (h : Fixed .capacityKB (capacitySetting (integer p.cap_kb)) ls ∧
      taken .capacityB ls = [] ∧ taken .capacityMB ls = []) :
    ((p.readLines scripts m cell_path ls s).ip.capacity : ℤ) = p.cap_kb * 1024 := by
  obtain ⟨hfixed, hB, hMB⟩ := h
  have hsame {o : ConfigOption} (ho : o ∉ sweepParams.map Prod.snd) (ho' : o ∉ layoutOptions) :=
    taken_overriddenLines scripts m p cell_path ls ho ho'
  have hread := foldl_of_fixed (f := fun s => s.ip.capacity) (v := p.cap_kb.toNat * 1024)
    (fun o ho l s => (read_frame o l s).capacity ho)
    (hfixed.congr (hsame (by decide) (by decide))) (fun o ho hne => ?_) (fun s => ?_) s
  · have hread : (p.readLines scripts m cell_path ls s).ip.capacity = p.cap_kb.toNat * 1024 := hread
    rw [hread, Nat.cast_mul, Int.toNat_of_nonneg hpos]
    rfl
  · simp only [List.mem_cons, List.not_mem_nil, or_false] at ho
    rcases ho with rfl | rfl | rfl
    · rw [hsame (by decide) (by decide), hB]
    · exact absurd rfl hne
    · rw [hsame (by decide) (by decide), hMB]
  · show sscanfNat ConfigOption.capacityKB.label (capacitySetting (integer p.cap_kb))
      s.ip.capacity * 1024 = p.cap_kb.toNat * 1024
    rw [capacitySetting, sscanfNat_setting label_capacity]

theorem cell_read {path l : List Char} (hpath : IsWord path)
    (hone : taken .memoryCellInputFile ls = [l]) (hl : skipSpace l = cellSetting path) :
    (p.readLines scripts m cell_path ls s).ip.fileMemCell =
      s.ip.fileMemCell ++ [String.ofList path] := by
  refine foldl_fileMemCell (l := l) ?_ hl (fun s => ?_) s
  · rw [taken_overriddenLines scripts m p cell_path ls (by decide) (by decide), hone]
  · show s.ip.fileMemCell ++ [String.ofList (sscanfWord ConfigOption.memoryCellInputFile.label
      (cellSetting path) s.tmp)] = _
    rw [cellSetting, sscanfWord_setting label_cell hpath]

end

/-! ## The design point of the freed lines -/

/-- Started from the first state, the reader ends in the second with the design point of
    the job. -/
structure JobPoint.Given (p : JobPoint) (path : List Char) (s s' : ConfigReader) : Prop where
  capacity : (s'.ip.capacity : ℤ) = p.cap_kb * 1024
  wordWidth : (s'.ip.wordWidth : ℤ) = p.ww_bits
  associativity : (s'.ip.associativity : ℤ) = p.assoc
  temperature : s'.temperature = p.temperature
  processNode : ∀ n, extract_process_node p.cell_file = some n → s'.processNode = n
  dies : s'.ip.stackLayer = .pin p.stacked
  roadmap : roadmapToStr s'.deviceRoadmap = p.roadmap
  cell : s'.ip.fileMemCell = s.ip.fileMemCell ++ [String.ofList path]
  option : p.option.Read s'

section
variable {P : Type} (scripts : Scripts P) (m : MemType) (p : JobPoint) (cell_path : List Char)
  {ls : List (List Char)} (s : ConfigReader)

theorem layout_read {li : ℕ} {layout : Layout} (hoption : p.option = .layout li layout) :
    layout.Pins (p.readLines scripts m cell_path ls s).ip.data := by
  have hlayout : p.layout_cfg = some layout := by
    unfold JobPoint.layout_cfg
    rw [hoption]
  unfold JobPoint.readLines overriddenLines
  rw [hlayout, List.foldl_append]
  exact pins_layoutLines layout _

/-- The sizes of a job are positive. -/
structure JobPoint.Positive (p : JobPoint) : Prop where
  cap_kb : 0 ≤ p.cap_kb
  ww_bits : 0 < p.ww_bits
  assoc : 0 < p.assoc

/-- What the free substitutions leave a job to read. -/
structure JobPoint.Freed (p : JobPoint) (path : List Char) (ls : List (List Char)) : Prop where
  capacity : Fixed .capacityKB (capacitySetting (integer p.cap_kb)) ls ∧
    taken .capacityB ls = [] ∧ taken .capacityMB ls = []
  cell : ∃ l, taken .memoryCellInputFile ls = [l] ∧ skipSpace l = cellSetting path
  planar : taken .forceBank3D ls = [] ∧ taken .forceBank3DA ls = []

/-- The design point arrives exactly when the roadmap and the sensing mode do and every number
    is settled. -/
theorem given_iff {path : List Char} (hpos : p.Positive) (hpath : IsWord path)
    {node : ℕ} (hnode : extract_process_node p.cell_file = some node) (hfreed : p.Freed path ls) :
    p.Given path s (p.readLines scripts m cell_path ls s) ↔
      roadmapToStr (p.readLines scripts m cell_path ls s).deviceRoadmap = p.roadmap ∧
        (∀ n ∈ p.numbers, Settled n.1.1 n.1.2 (intIn n.1.2) n.2 ls) ∧
        ∀ on, p.option = .sensing on →
          (p.readLines scripts m cell_path ls s).ip.internalSensing = on := by
  have htemperature := temperature_iff scripts m p cell_path ls s
  have hprocess := processNode_iff scripts m p cell_path ls s
  have hwidth := wordWidth_iff scripts m p cell_path ls s hpos.ww_bits
  have hassoc := associativity_iff scripts m p cell_path ls s hpos.assoc
  have hdies := dies_iff scripts m p cell_path ls s hfreed.planar.1 hfreed.planar.2
  rw [hnode, Option.getD_some] at hprocess
  have hnumbers : (∀ n ∈ p.numbers, Settled n.1.1 n.1.2 (intIn n.1.2) n.2 ls) ↔
      (p.readLines scripts m cell_path ls s).temperature = p.temperature ∧
        (p.readLines scripts m cell_path ls s).ip.stackLayer = .pin p.stacked ∧
        (p.readLines scripts m cell_path ls s).processNode = node ∧
        ((p.readLines scripts m cell_path ls s).ip.wordWidth : ℤ) = p.ww_bits ∧
        ((p.readLines scripts m cell_path ls s).ip.associativity : ℤ) = p.assoc := by
    unfold JobPoint.numbers
    rw [htemperature, hprocess, hwidth, hassoc, hdies, hnode, Option.getD_some,
      List.forall_mem_cons, List.forall_mem_cons, List.forall_mem_cons, List.forall_mem_cons,
      List.forall_mem_singleton]
  rw [hnumbers]
  -- the capacity, the cell file and a layout arrive in any case
  constructor
  · intro h
    refine ⟨h.roadmap, ⟨h.temperature, h.dies, h.processNode node hnode, h.wordWidth,
      h.associativity⟩, fun on hon => ?_⟩
    have hread := h.option
    rwa [hon] at hread
  · rintro ⟨hroadmap, ⟨htemperature, hdies, hprocess, hwidth, hassoc⟩, hsensing⟩
    obtain ⟨l, hl, hskip⟩ := hfreed.cell
    refine ⟨capacity_read scripts m p cell_path ls s hpos.cap_kb hfreed.capacity, hwidth, hassoc,
      htemperature, fun n hn => ?_, hdies, hroadmap,
      cell_read scripts m p cell_path ls s hpath hl hskip, ?_⟩
    · obtain rfl := Option.some.inj (hnode.symm.trans hn)
      exact hprocess
    · cases hoption : p.option with
      | layout li layout => exact layout_read scripts m p cell_path s hoption
      | sensing on => exact hsensing on hoption

end

end Destiny.Sweep
