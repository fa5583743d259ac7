/-
  Destiny.Sweep.ConfigFidelity

  Whether the design point of a job is the one DESTINY is given: the configuration
  `run_single_simulation` makes of a template, read by `ReadInputParameterFromFile`.

  * The reader ends on the text exactly when the first line of the template is neither
    empty nor one of those that are erased (`rewritten_ends_iff`).
  * The one value the reader does not know is the roadmap `EDRAM`; every other
    parameter arrives, for every job of the sweep (`sweep_point_arrives`).
-/

import Destiny.Sweep.ConfigRead
import Destiny.Sweep.FirstLine

namespace Destiny.Sweep

open Lib

/-! ## Reading a job -/

section
variable {P : Type} (scripts : Scripts P) (m : MemType) (p : JobPoint)
  (cell_dir base_cfg_content temp_dir results_dir : List Char) (py : PythonHost)

/-- The configuration of a job. -/
def JobPoint.config : Option (List Char) :=
  rewriteConfig py (p.args scripts m cell_dir base_cfg_content temp_dir results_dir)

/-- `os.path.abspath` of the cell file -/
def JobPoint.cellPath : List Char := py.abspath (join cell_dir p.cell_file)

theorem config_lines (hclosed : ∀ l ∈ base_cfg_content.splitOn '\n', endsOpen l = false)
    (hpath : Inserted (p.cellPath cell_dir py)) (hroadmap : Inserted p.roadmap) :
    ∃ text, p.config scripts m cell_dir base_cfg_content temp_dir results_dir py = some text ∧
      text.splitOn '\n' = pointLines scripts m p (join cell_dir p.cell_file)
        (p.cellPath cell_dir py) (base_cfg_content.splitOn '\n') := by
  refine rewriteConfig_lines py _ hclosed hpath hroadmap fun o ho => ?_
  exact ⟨plainName_override scripts m p _ ho, inserted_setting_override scripts m p _ ho⟩

/-- The reader ends on the configuration of a job, whatever buffer and state it starts
    from. -/
def JobPoint.Ends : Prop :=
  ∃ text, p.config scripts m cell_dir base_cfg_content temp_dir results_dir py = some text ∧
    ∀ buffer s, ∃ rounds s',
      ConfigReader.ReadInputParameterFromFile rounds text buffer s = some s'

/-- The reader ends on the configuration of a job exactly when the first line of the
    template is neither empty nor one of those that are erased. -/
theorem rewritten_ends_iff
    (hclosed : ∀ l ∈ base_cfg_content.splitOn '\n', endsOpen l = false)
    (hpath : Inserted (p.cellPath cell_dir py)) (hroadmap : Inserted p.roadmap) :
    p.Ends scripts m cell_dir base_cfg_content temp_dir results_dir py ↔
      ∃ l ∈ (base_cfg_content.splitOn '\n').head?, l ≠ [] ∧
        names "OptimizationTarget".toList l = false ∧ names "EnablePruning".toList l = false := by
  obtain ⟨text, htext, hlines⟩ := config_lines scripts m p cell_dir base_cfg_content temp_dir
    results_dir py hclosed hpath hroadmap
  -- the reader ends on texts that do not start with a newline
  have hends : p.Ends scripts m cell_dir base_cfg_content temp_dir results_dir py ↔
      text.head? ≠ some '\n' := by
    constructor
    · rintro ⟨text', htext', hread⟩
      obtain rfl := Option.some.inj (htext.symm.trans htext')
      obtain ⟨rounds, s', hrun⟩ := hread [] default
      exact lineLoop_ends_iff.mp ⟨rounds, s', hrun⟩
    · exact fun hhead => ⟨text, htext, fun buffer s => lineLoop_ends_iff.mpr hhead⟩
  have hne : base_cfg_content.splitOn '\n' ≠ [] := List.splitOn_ne_nil '\n' _
  have hsame := sameFirst_freeLines (integer p.cap_kb) (p.cellPath cell_dir py) hne
  have hclean : ∀ l ∈ (base_cfg_content.splitOn '\n').head?, l.head? ≠ some '\n' :=
    fun l hl hnewline => LinePattern.newline_not_mem_line (List.mem_of_mem_head? hl)
      (List.mem_of_mem_head? hnewline)
  rw [pointLines_eq] at hlines
  rw [hends, head?_overridden scripts m p _ hsame.ne_nil (hsame.head?_ne hclean) hlines]
  exact hsame.keepsFirst_iff

/-! ## The design point the reader ends with -/

/-- The bounds are pinned to the layout. -/
structure Layout.Pins (layout : Layout) (b : ArrayBounds) : Prop where
  muxSenseAmp : b.muxSenseAmp = .pin layout.mux_sa
  muxOutputLev2 : b.muxOutputLev2 = .pin layout.mux_ol2
  mats : b.numRowMat = .pin layout.amc ∧ b.numColumnMat = .pin layout.amr
  activeMats : b.numActiveMatPerColumn = .pin layout.amc ∧
    b.numActiveMatPerRow = .pin layout.amr
  subarrays : b.numRowSubarray = .pin layout.asc ∧ b.numColumnSubarray = .pin layout.asr
  activeSubarrays : b.numActiveSubarrayPerColumn = .pin layout.asc ∧
    b.numActiveSubarrayPerRow = .pin layout.asr

/-- What a job varies last is what the reader ends with. -/
def JobOption.Read (s : ConfigReader) : JobOption → Prop
  | .layout _ layout_cfg => layout_cfg.Pins s.ip.data
  | .sensing on => s.ip.internalSensing = on

/-- Started from the first state, the reader ends in the second with the design point of
    the job, its roadmap aside. -/
structure JobPoint.Simulated (path : List Char) (s s' : ConfigReader) : Prop where
  capacity : (s'.ip.capacity : ℤ) = p.cap_kb * 1024
  wordWidth : (s'.ip.wordWidth : ℤ) = p.ww_bits
  associativity : (s'.ip.associativity : ℤ) = p.assoc
  temperature : s'.temperature = p.temperature
  processNode : ∀ n, extract_process_node p.cell_file = some n → s'.processNode = n
  dies : s'.ip.stackLayer = .pin p.stacked
  cell : s'.ip.fileMemCell = s.ip.fileMemCell ++ [String.ofList path]
  full : s'.ip.optimizationTarget = .full_exploration
  pruning : s'.ip.isPruningEnabled = true
  option : p.option.Read s'

/-- The numbers of a design point that are sizes. -/
structure JobPoint.Sized : Prop where
  cap_kb : 0 ≤ p.cap_kb
  ww_bits : 0 ≤ p.ww_bits
  assoc : 0 ≤ p.assoc

theorem mem_overrides (cell_path : List Char) {o : List Char × OverrideValue}
    (ho : o ∈ p.cfg_base ++ [("WordWidth (bit)".toList, .int p.ww_bits),
      ("Associativity (for cache only)".toList, .int p.assoc)]) :
    o ∈ p.overrides scripts m cell_path := by
  unfold JobPoint.overrides
  split
  · exact List.mem_append_left _ ho
  · rcases List.mem_append.mp ho with h | h
    · exact List.mem_append_left _ h
    · refine List.mem_append_right _ ?_
      simp only [List.mem_cons, List.not_mem_nil, or_false] at h ⊢
      tauto

theorem strays_of_template (ht : Template base_cfg_content) :
    ∀ e ∈ sweepParams, NoStray e.1 (base_cfg_content.splitOn '\n') := by
  intro e he o ho
  obtain rfl := Option.some.inj ((sweepParams_spec he).2.1.symm.trans ho)
  exact ht.strays e he

/-- The field of an override. -/
theorem read_override (ht : Template base_cfg_content) {V : Type} {f : ConfigReader → V}
    {writers : List ConfigOption} (hfield : WrittenBy f writers)
    {e : List Char × ConfigOption} (he : e ∈ overrideParams) {v : OverrideValue}
    {cell_path path : List Char} (hv : (e.1, v) ∈ p.overrides scripts m cell_path)
    (hothers : ∀ o ∈ writers, o ≠ e.2 →
      taken o (pointLines scripts m p cell_path path (base_cfg_content.splitOn '\n')) = [])
    {x : V} (hread : '-' :: (e.1 ++ ": ".toList) = e.2.label →
      ∀ s, f (e.2.read (setting e.1 v.str) s) = x) (s : ConfigReader) :
    f ((pointLines scripts m p cell_path path
      (base_cfg_content.splitOn '\n')).foldl readSkipped s) = x := by
  have hlabel := (sweepParams_spec (mem_sweepParams_of_override he)).2.2
  exact foldl_of_fixed hfield (fixed_pointLines scripts m p cell_path
    (strays_of_template base_cfg_content ht) he hv) hothers (hread hlabel) s

/-- The lines of a layout, read, pin the bounds to it. -/
theorem pins_layoutLines (layout : Layout) (s : ConfigReader) :
    layout.Pins ((layoutLines (some layout)).foldl readSkipped s).ip.data := by
  have hreads : (layoutSettings layout).map Destiny.parseLine =
      [OptionLine.forceMuxSenseAmp layout.mux_sa, .forceMuxOutputLev2 layout.mux_ol2,
        .forceBank layout.amc layout.amr layout.amc layout.amr,
        .forceMat layout.asc layout.asr layout.asc layout.asr].map some := by
    have hcounts (a b : ℤ) : integer a ++ "x".toList ++ integer b ++ ", ".toList ++ integer a ++
        "x".toList ++ integer b = counts a b a b := by
      simp only [counts, List.append_assoc]
    unfold layoutSettings
    rw [hcounts, hcounts, setting_eq_text (o := .forceMuxSenseAmp) (label_of_ofList (by decide)),
      setting_eq_text (o := .forceMuxOutputLev2) (label_of_ofList (by decide)),
      setting_eq_text (o := .forceBank) (label_of_ofList (by decide)),
      setting_eq_text (o := .forceMat) (label_of_ofList (by decide))]
    have hsense : Reads (.forceMuxSenseAmp, integer layout.mux_sa) _ :=
      reads_int (fun _ => rfl) layout.mux_sa
    have hlevel : Reads (.forceMuxOutputLev2, integer layout.mux_ol2) _ :=
      reads_int (fun _ => rfl) layout.mux_ol2
    have hbank : Reads (.forceBank, counts layout.amc layout.amr layout.amc layout.amr) _ :=
      reads_counts (fun _ => rfl) _ _ _ _
    have hmat : Reads (.forceMat, counts layout.asc layout.asr layout.asc layout.asr) _ :=
      reads_counts (fun _ => rfl) _ _ _ _
    rw [List.map_cons, List.map_cons, List.map_cons, List.map_cons, hsense, hlevel, hbank, hmat]
    rfl
  -- no white space stands in front of these lines
  have hskip : (layoutSettings layout).foldl readSkipped s =
      (layoutSettings layout).foldl (fun s l => ConfigReader.readLine l s) s := by
    unfold layoutSettings
    simp only [List.foldl_cons, List.foldl_nil, readSkipped, skipSpace_setting]
  have hdata := congrArg (fun ip : InputParameter => ip.data) (foldl_readLine_ip hreads s)
  rw [InputParameter.read_data] at hdata
  have hlines : layoutLines (some layout) = layoutSettings layout ++ [[]] := rfl
  rw [hlines, List.foldl_append, List.foldl_cons, List.foldl_nil,
    readSkipped_of_none (optionOf_blank rfl), hskip, hdata]
  exact ⟨rfl, rfl, ⟨rfl, rfl⟩, ⟨rfl, rfl⟩, ⟨rfl, rfl⟩, rfl, rfl⟩

/-- The lines of the configuration of a job, read. -/
def JobPoint.readFrom (cell_path path : List Char) (s : ConfigReader) : ConfigReader :=
  (pointLines scripts m p cell_path path (base_cfg_content.splitOn '\n')).foldl readSkipped s

section
variable {base_cfg_content} (ht : Template base_cfg_content) (cell_path path : List Char)
  (s : ConfigReader)
include ht

theorem arrives_capacity : (p.readFrom scripts m base_cfg_content cell_path path s).ip.capacity =
    p.cap_kb.toNat * 1024 := by
  obtain ⟨hfixed, hB, hMB⟩ := fixed_capacity path p.cap_kb ht.capacities ht.capacity
  have hsame {o : ConfigOption} (ho : o ∉ sweepParams.map Prod.snd) (ho' : o ∉ layoutOptions) :=
    taken_pointLines_free scripts m p cell_path ho ho' path (base_cfg_content.splitOn '\n')
  refine foldl_of_fixed (f := fun s => s.ip.capacity)
    (fun o ho l s => (read_frame o l s).capacity ho)
    (hfixed.congr (hsame (by decide) (by decide))) (fun o ho hne => ?_) (fun s => ?_) s
  · simp only [List.mem_cons, List.not_mem_nil, or_false] at ho
    rcases ho with rfl | rfl | rfl
    · rw [hsame (by decide) (by decide), hB]
    · exact absurd rfl hne
    · rw [hsame (by decide) (by decide), hMB]
  · show sscanfNat ConfigOption.capacityKB.label (capacitySetting (integer p.cap_kb))
      s.ip.capacity * 1024 = p.cap_kb.toNat * 1024
    rw [capacitySetting, sscanfNat_setting label_capacity]

theorem arrives_cell (hpath : IsWord path) :
    (p.readFrom scripts m base_cfg_content cell_path path s).ip.fileMemCell =
      s.ip.fileMemCell ++ [String.ofList path] := by
  obtain ⟨l, hl, htext⟩ := cell_freeLines (integer p.cap_kb) path ht.cells ht.cell
  refine foldl_fileMemCell ?_ htext (fun s => ?_) s
  · rw [taken_pointLines_free scripts m p cell_path (by decide) (by decide), hl]
  · show s.ip.fileMemCell ++ [String.ofList (sscanfWord ConfigOption.memoryCellInputFile.label
      (cellSetting path) s.tmp)] = _
    rw [cellSetting, sscanfWord_setting label_cell hpath]

/-- The settings of `rewriteBase`. -/
theorem arrives_base (hroadmap : IsWord p.roadmap) :
    (p.readFrom scripts m base_cfg_content cell_path path s).ip.optimizationTarget =
        .full_exploration ∧
      (p.readFrom scripts m base_cfg_content cell_path path s).ip.isPruningEnabled = true ∧
      (p.readFrom scripts m base_cfg_content cell_path path s).deviceRoadmap =
        DeviceRoadmap.ofWord p.roadmap := by
  have hns := strays_of_template base_cfg_content ht
  have hfree {param : List Char} {o : ConfigOption} (he : (param, o) ∈ sweepParams) :
      NoStray param (freeLines (integer p.cap_kb) path (base_cfg_content.splitOn '\n')) :=
    NoStray.freeLines (integer p.cap_kb) path he (hns _ he)
  have hsame {o : ConfigOption} (ho : o ∉ overrideParams.map Prod.snd) (ho' : o ∉ layoutOptions) :=
    taken_pointLines scripts m p cell_path ho ho' path (base_cfg_content.splitOn '\n')
  have hlabel {e : List Char × ConfigOption} (he : e ∈ sweepParams) := (sweepParams_spec he).2.2
  have htarget : ("OptimizationTarget".toList, ConfigOption.optimizationTarget) ∈ sweepParams :=
    List.mem_cons_self
  have hpruning : ("EnablePruning".toList, ConfigOption.enablePruning) ∈ sweepParams :=
    .tail _ List.mem_cons_self
  have hroad : ("DeviceRoadmap".toList, ConfigOption.deviceRoadmap) ∈ sweepParams :=
    .tail _ (.tail _ List.mem_cons_self)
  -- each of the three is the only text of its branch
  refine ⟨?_, ?_, ?_⟩
  · refine foldl_of_fixed (f := fun s => s.ip.optimizationTarget)
      (fun o ho l s => (read_frame o l s).optimizationTarget ho)
      ((fixed_target (integer p.cap_kb) path p.roadmap (hfree htarget)).congr
        (hsame (by decide) (by decide)))
      (fun o ho hne => absurd (List.mem_singleton.mp ho) hne) (fun s => ?_) s
    show OptimizationTarget.ofWord (sscanfWord ConfigOption.optimizationTarget.label
      (setting "OptimizationTarget".toList "Full".toList) s.tmp) = .full_exploration
    rw [sscanfWord_setting (hlabel htarget) (isWord_of_all rfl (by decide))]
    rfl
  · refine foldl_of_fixed (f := fun s => s.ip.isPruningEnabled)
      (fun o ho l s => (read_frame o l s).isPruningEnabled ho)
      ((fixed_pruning (integer p.cap_kb) path p.roadmap (hfree hpruning)).congr
        (hsame (by decide) (by decide)))
      (fun o ho hne => absurd (List.mem_singleton.mp ho) hne) (fun s => ?_) s
    show isYes (sscanfWord ConfigOption.enablePruning.label
      (setting "EnablePruning".toList "Yes".toList) s.tmp) = true
    rw [sscanfWord_setting (hlabel hpruning) (isWord_of_all rfl (by decide))]
    rfl
  · refine foldl_of_fixed (f := ConfigReader.deviceRoadmap)
      (fun o ho l s => (read_frame o l s).deviceRoadmap ho)
      ((fixed_roadmap (integer p.cap_kb) path p.roadmap (hfree hroad) ht.roadmap).congr
        (hsame (by decide) (by decide)))
      (fun o ho hne => absurd (List.mem_singleton.mp ho) hne) (fun s => ?_) s
    show DeviceRoadmap.ofWord (sscanfWord ConfigOption.deviceRoadmap.label _ s.tmp) = _
    rw [sscanfWord_setting (hlabel hroad) hroadmap]

/-- The numbers a job overrides. -/
theorem arrives_numbers :
    (p.readFrom scripts m base_cfg_content cell_path path s).temperature = p.temperature ∧
      (p.readFrom scripts m base_cfg_content cell_path path s).processNode =
        ((extract_process_node p.cell_file).getD 0 : ℕ) ∧
      (p.readFrom scripts m base_cfg_content cell_path path s).ip.stackLayer = .pin p.stacked ∧
      (p.readFrom scripts m base_cfg_content cell_path path s).ip.wordWidth = p.ww_bits.toNat ∧
      (p.readFrom scripts m base_cfg_content cell_path path s).ip.associativity =
        p.assoc.toNat := by
  have hmem {o : List Char × OverrideValue} := mem_overrides scripts m p cell_path (o := o)
  refine ⟨?_, ?_, ?_, ?_, ?_⟩
  · refine read_override scripts m p base_cfg_content ht (f := ConfigReader.temperature)
      (fun o ho l s => (read_frame o l s).temperature ho)
      (e := ("Temperature (K)".toList, .temperature)) List.mem_cons_self
      (v := .int p.temperature) (hmem List.mem_cons_self)
      (fun o ho hne => absurd (List.mem_singleton.mp ho) hne) (fun hlabel s => ?_) s
    exact sscanfInt_setting hlabel _ _
  · refine read_override scripts m p base_cfg_content ht (f := ConfigReader.processNode)
      (fun o ho l s => (read_frame o l s).processNode ho)
      (e := ("ProcessNode".toList, .processNode)) (.tail _ (.tail _ List.mem_cons_self))
      (v := .int ((extract_process_node p.cell_file).getD 0))
      (hmem (.tail _ (.tail _ List.mem_cons_self)))
      (fun o ho hne => absurd (List.mem_singleton.mp ho) hne) (fun hlabel s => ?_) s
    exact sscanfInt_setting hlabel _ _
  · -- the dice are also set by the layouts forced on three dimensions, which the template has not
    have hplanar {o : ConfigOption} (hC : ¬ "-C".toList <+: o.key) (hM : ¬ "-M".toList <+: o.key)
        (ho : o ∉ sweepParams.map Prod.snd) (ho' : o ∉ layoutOptions)
        (hnone : taken o (base_cfg_content.splitOn '\n') = []) :
        taken o (pointLines scripts m p cell_path path (base_cfg_content.splitOn '\n')) = [] := by
      rw [taken_pointLines_free scripts m p cell_path ho ho']
      exact taken_freeLines_of_key _ path hC hM hnone
    refine read_override scripts m p base_cfg_content ht (f := fun s => s.ip.stackLayer)
      (fun o ho l s => (read_frame o l s).stackLayer ho)
      (e := ("StackedDieCount".toList, .stackedDieCount)) (.tail _ List.mem_cons_self)
      (v := .int p.stacked) (hmem (.tail _ List.mem_cons_self)) (fun o ho hne => ?_)
      (fun hlabel s => ?_) s
    · simp only [List.mem_cons, List.not_mem_nil, or_false] at ho
      rcases ho with rfl | rfl | rfl
      · exact absurd rfl hne
      · exact hplanar (by decide) (by decide) (by decide) (by decide) ht.planar.1
      · exact hplanar (by decide) (by decide) (by decide) (by decide) ht.planar.2
    · show Range.pin (sscanfInt ConfigOption.stackedDieCount.label
        (setting "StackedDieCount".toList (integer p.stacked)) s.ip.stackLayer.min) = .pin p.stacked
      rw [sscanfInt_setting hlabel]
  · refine read_override scripts m p base_cfg_content ht (f := fun s => s.ip.wordWidth)
      (fun o ho l s => (read_frame o l s).wordWidth ho)
      (e := ("WordWidth (bit)".toList, .wordWidth))
      (.tail _ (.tail _ (.tail _ List.mem_cons_self))) (v := .int p.ww_bits)
      (hmem (.tail _ (.tail _ (.tail _ List.mem_cons_self))))
      (fun o ho hne => absurd (List.mem_singleton.mp ho) hne) (fun hlabel s => ?_) s
    exact sscanfNat_setting hlabel _ _
  · refine read_override scripts m p base_cfg_content ht (f := fun s => s.ip.associativity)
      (fun o ho l s => (read_frame o l s).associativity ho)
      (e := ("Associativity (for cache only)".toList, .associativity))
      (.tail _ (.tail _ (.tail _ (.tail _ (.tail _ List.mem_cons_self)))))
      (v := .int p.assoc) (hmem (.tail _ (.tail _ (.tail _ (.tail _ List.mem_cons_self)))))
      (fun o ho hne => absurd (List.mem_singleton.mp ho) hne) (fun hlabel s => ?_) s
    exact sscanfNat_setting hlabel _ _

/-- The sensing mode of a job that varies it. -/
theorem arrives_sensing {on : Bool} (hoption : p.option = .sensing on) :
    (p.readFrom scripts m base_cfg_content cell_path path s).ip.internalSensing = on := by
  have hv : ("InternalSensing".toList,
      OverrideValue.text (if on then "true".toList else "false".toList)) ∈
        p.overrides scripts m cell_path := by
    unfold JobPoint.overrides
    rw [hoption]
    exact List.mem_append_right _ (.tail _ List.mem_cons_self)
  refine read_override scripts m p base_cfg_content ht (f := fun s => s.ip.internalSensing)
    (fun o ho l s => (read_frame o l s).internalSensing ho)
    (e := ("InternalSensing".toList, .internalSensing))
    (.tail _ (.tail _ (.tail _ (.tail _ List.mem_cons_self)))) hv
    (fun o ho hne => absurd (List.mem_singleton.mp ho) hne) (fun hlabel s => ?_) s
  have hword : IsWord (if on then "true".toList else "false".toList) := by
    cases on <;> exact isWord_of_all rfl (by decide)
  show isTrue (sscanfWord ConfigOption.internalSensing.label
    (setting "InternalSensing".toList (if on then "true".toList else "false".toList)) s.tmp) = on
  rw [sscanfWord_setting hlabel hword]
  cases on <;> decide

omit ht in
/-- The layout of a job that has one: its lines are the last. -/
theorem arrives_layout {li : ℕ} {layout : Layout} (hoption : p.option = .layout li layout) :
    layout.Pins (p.readFrom scripts m base_cfg_content cell_path path s).ip.data := by
  have hlines : pointLines scripts m p cell_path path (base_cfg_content.splitOn '\n') =
      (settingsOf (p.overrides scripts m cell_path)).foldl setLines
          (baseLines (integer p.cap_kb) path p.roadmap (base_cfg_content.splitOn '\n')) ++
        layoutLines (some layout) := by
    unfold pointLines JobPoint.layout_cfg
    rw [hoption]
  unfold JobPoint.readFrom
  rw [hlines, List.foldl_append]
  exact pins_layoutLines layout _

/-- The design point of a job arrives, its roadmap as far as the reader knows it. -/
theorem simulated_of_template (hsized : p.Sized) (hpath : IsWord path)
    (hroadmap : IsWord p.roadmap) :
    p.Simulated path s (p.readFrom scripts m base_cfg_content cell_path path s) ∧
      (p.readFrom scripts m base_cfg_content cell_path path s).deviceRoadmap =
        DeviceRoadmap.ofWord p.roadmap := by
  obtain ⟨hfull, hpruning, hread⟩ := arrives_base scripts m p ht cell_path path s hroadmap
  obtain ⟨htemperature, hnode, hdies, hwidth, hassoc⟩ :=
    arrives_numbers scripts m p ht cell_path path s
  have hcapacity := arrives_capacity scripts m p ht cell_path path s
  refine ⟨⟨?_, ?_, ?_, htemperature, fun n hn => ?_, hdies,
    arrives_cell scripts m p ht cell_path path s hpath, hfull, hpruning, ?_⟩, hread⟩
  · rw [hcapacity, Nat.cast_mul, Int.toNat_of_nonneg hsized.cap_kb]
    rfl
  · rw [hwidth, Int.toNat_of_nonneg hsized.ww_bits]
  · rw [hassoc, Int.toNat_of_nonneg hsized.assoc]
  · rw [hnode, hn]
    rfl
  · cases hoption : p.option with
    | layout li layout => exact arrives_layout scripts m p cell_path path s hoption
    | sensing on => exact arrives_sensing scripts m p ht cell_path path s hoption

end

/-! ## The jobs of the sweep -/

/-- The reader ends on the configuration of a job with the lines of it read. -/
theorem read_config {base_cfg_content : List Char} (ht : Template base_cfg_content)
    (hpath : Inserted (p.cellPath cell_dir py)) (hroadmap : Inserted p.roadmap) :
    ∃ text, p.config scripts m cell_dir base_cfg_content temp_dir results_dir py = some text ∧
      ∀ buffer s, ∃ rounds, ConfigReader.ReadInputParameterFromFile rounds text buffer s =
        some (p.readFrom scripts m base_cfg_content (join cell_dir p.cell_file)
          (p.cellPath cell_dir py) s) := by
  obtain ⟨text, htext, hlines⟩ := config_lines scripts m p cell_dir base_cfg_content temp_dir
    results_dir py ht.closed hpath hroadmap
  have hne : base_cfg_content.splitOn '\n' ≠ [] := List.splitOn_ne_nil '\n' _
  have hspace : (!isspace '\n') = false := by decide
  -- the first line stays, and starts with no white space
  have hsolid : Solid fun c => !isspace c := fun c hc => by simp [hc]
  have hfirst : text.head?.any (fun c => !isspace c) = true := by
    obtain ⟨l, ls, hsplit⟩ := List.exists_cons_of_ne_nil hne
    have hkept := ht.kept l (by rw [hsplit]; rfl)
    rw [← starts_splitOn hspace text, hlines, starts_pointLines hsolid scripts m p _ _ hne,
      starts_splitOn hspace, ht.start]
    simp only [hsplit, List.head_cons, hkept.1, hkept.2]
    rfl
  obtain ⟨c, t, rfl⟩ : ∃ c t, text = c :: t := by
    cases text with
    | nil => cases hfirst
    | cons c t => exact ⟨c, t, rfl⟩
  have hc : isspace c = false := by simpa using hfirst
  refine ⟨_, htext, fun buffer s => ?_⟩
  have hnewline : (c :: t).head? ≠ some '\n' := by
    intro h
    rw [Option.some.inj h] at hc
    cases hc
  obtain ⟨rounds, hrun⟩ := lineLoop_ends ConfigReader.readLine hnewline buffer s
  refine ⟨rounds, hrun.trans ?_⟩
  rw [fetchedLines_eq_tidy (.inr ⟨c, t, rfl, hc⟩), foldl_tidy, hlines]
  rfl

end

/-- The loop variables of a job are from the lists of the sweep. -/
structure JobPoint.From (l : SweepLists) (mem_type : MemType) (p : JobPoint) : Prop where
  cap_kb : p.cap_kb ∈ l.CAPACITY_SWEEP_KB
  ww_bits : p.ww_bits ∈ l.capacity_bucket_word_widths p.cap_kb
  assoc : p.assoc ∈ l.ASSOCIATIVITIES
  roadmap : p.roadmap ∈ l.roadmaps mem_type

theorem from_of_mem_jobPoints {P : Type} {scripts : Scripts P} {l : SweepLists}
    {mem_type : MemType} {cell_dir : List Char} {cells : List (List Char)} {p : JobPoint}
    (h : p ∈ jobPoints scripts l mem_type cell_dir cells) : p.From l mem_type := by
  simp only [jobPoints, List.mem_flatMap] at h
  obtain ⟨cell_file, -, cap_kb, hcap, stacked, -, temperature, -, hp⟩ := h
  have hlayout (hp : p ∈ layoutPoints scripts l mem_type cell_file cap_kb stacked temperature) :
      p.From l mem_type := by
    simp only [layoutPoints, List.mem_flatMap, List.mem_map] at hp
    obtain ⟨assoc, hassoc, ww_bits, hww, layout, -, roadmap, hroadmap, rfl⟩ := hp
    exact ⟨hcap, hww, hassoc, hroadmap⟩
  cases mem_type with
  | SRAM => exact hlayout hp
  | eDRAM => exact hlayout hp
  | RRAM =>
      simp only [innerPoints, sensingPoints, List.mem_flatMap] at hp
      obtain ⟨ww_bits, hww, hp⟩ := hp
      split at hp
      · cases hp
      · split at hp
        · cases hp
        · simp only [List.mem_flatMap, List.mem_map] at hp
          obtain ⟨sensing, -, assoc, hassoc, roadmap, hroadmap, rfl⟩ := hp
          exact ⟨hcap, hww, hassoc, hroadmap⟩

/-- The sizes of the sweep are positive, and its roadmaps plain words, which the reader
    knows but for that of eDRAM. -/
theorem explorationLists_spec {p : JobPoint} {mem_type : MemType}
    (h : p.From explorationLists mem_type) :
    p.Sized ∧ IsWord p.roadmap ∧ Inserted p.roadmap ∧
      (roadmapToStr (DeviceRoadmap.ofWord p.roadmap) = p.roadmap ↔ mem_type ≠ .eDRAM) := by
  have hcap : ∀ z ∈ explorationLists.CAPACITY_SWEEP_KB, 0 ≤ z := by decide
  have hww : ∀ z ∈ capacity_bucket_word_widths p.cap_kb, 0 ≤ z := by
    unfold capacity_bucket_word_widths
    split
    · decide
    · split <;> decide
  have hassoc : ∀ z ∈ explorationLists.ASSOCIATIVITIES, 0 ≤ z := by decide
  have hroadmaps : ∀ r ∈ explorationLists.roadmaps mem_type, (r.isEmpty = false ∧
      (r.all fun c => !isspace c) = true ∧ (r.all fun c => c != '\n' && c != '\\') = true) ∧
      (roadmapToStr (DeviceRoadmap.ofWord r) = r ↔ mem_type ≠ .eDRAM) := by
    cases mem_type <;> decide +kernel
  obtain ⟨⟨hne, hsolid, hplain⟩, hknown⟩ := hroadmaps p.roadmap h.roadmap
  exact ⟨⟨hcap _ h.cap_kb, hww _ h.ww_bits, hassoc _ h.assoc⟩, isWord_of_all hne hsolid,
    inserted_of_all hplain, hknown⟩

/-- For every job of the sweep and every plainly written template, DESTINY reads the design
    point of the job from the configuration it is given; the roadmap too, but for eDRAM,
    whose `EDRAM` it reads as another one. -/
theorem sweep_point_arrives (parse_cell_params : List Char → CellParams)
    (get_random_layouts : List Char → List Layout) (mem_type : MemType)
    (cells : List (List Char)) (cell_dir base_cfg_content temp_dir results_dir : List Char)
    (py : PythonHost) (ht : Template base_cfg_content) (p : JobPoint)
    (hp : p ∈ jobPoints (explorationScripts parse_cell_params get_random_layouts)
      explorationLists mem_type cell_dir cells)
    (hword : IsWord (p.cellPath cell_dir py)) (hpath : '\\' ∉ p.cellPath cell_dir py) :
    ∃ text, p.config (explorationScripts parse_cell_params get_random_layouts) mem_type cell_dir
        base_cfg_content temp_dir results_dir py = some text ∧
      ∀ buffer s, ∃ rounds s',
        ConfigReader.ReadInputParameterFromFile rounds text buffer s = some s' ∧
          p.Simulated (p.cellPath cell_dir py) s s' ∧
          (roadmapToStr s'.deviceRoadmap = p.roadmap ↔ mem_type ≠ .eDRAM) := by
  obtain ⟨hsized, hroadmap, hinserted, hknown⟩ := explorationLists_spec (from_of_mem_jobPoints hp)
  obtain ⟨text, htext, hread⟩ := read_config
    (explorationScripts parse_cell_params get_random_layouts) mem_type p cell_dir temp_dir
    results_dir py ht ⟨hword.newline_not_mem, hpath⟩ hinserted
  refine ⟨text, htext, fun buffer s => ?_⟩
  obtain ⟨rounds, hrun⟩ := hread buffer s
  obtain ⟨hsimulated, hdevice⟩ := simulated_of_template
    (explorationScripts parse_cell_params get_random_layouts) mem_type p ht
    (join cell_dir p.cell_file) (p.cellPath cell_dir py) s hsized hword hroadmap
  exact ⟨rounds, _, hrun, hsimulated, by rw [hdevice]; exact hknown⟩

/-! ## Templates of option lines -/

theorem splitOn_unlines {ls : List (List Char)} (h : ∀ l ∈ ls, '\n' ∉ l) :
    (unlines ls).splitOn '\n' = ls ++ [[]] := by
  induction ls with
  | nil => rfl
  | cons l ls ih =>
      obtain ⟨hl, hrest⟩ := List.forall_mem_cons.mp h
      have hsplit : unlines (l :: ls) = l ++ '\n' :: unlines ls := by simp [unlines]
      rw [hsplit, List.splitOn_append_cons_self_of_not_mem hl, ih hrest, List.cons_append]

section
variable {ls : List ConfigLine}

/-- The option lines of a branch. -/
theorem mem_taken_options {o : ConfigOption} {l : List Char}
    (h : l ∈ taken o (ls.map ConfigLine.text ++ [[]])) :
    ∃ v, (o, v) ∈ ls ∧ l = ConfigLine.text (o, v) := by
  obtain ⟨hmem, ho⟩ := mem_taken.mp h
  rcases List.mem_append.mp hmem with hl | hl
  · obtain ⟨⟨o', v⟩, hv, rfl⟩ := List.mem_map.mp hl
    rw [optionOf_text] at ho
    obtain rfl : o' = o := Option.some.inj ho
    exact ⟨v, hv, rfl⟩
  · rw [List.mem_singleton.mp hl] at ho
    exact absurd ho (optionOf_nil o)

theorem taken_options (o : ConfigOption) : taken o (ls.map ConfigLine.text ++ [[]]) =
    (ls.filter fun l => l.1 = o).map ConfigLine.text := by
  rw [taken_append, taken_blank, List.append_nil, taken, List.filter_map]
  congr 1
  refine List.filter_congr fun l _ => ?_
  rw [Function.comp_apply, optionOf_text, decide_eq_decide, Option.some_inj]

theorem isCapacityLine_text {l : ConfigLine}
    (h : l.1 ∈ [ConfigOption.capacityKB, .capacityMB]) : isCapacityLine l.text = true := by
  obtain ⟨o, v⟩ := l
  have hKB : "-Capacity (KB):".toList ++ " ".toList = ConfigOption.capacityKB.label :=
    append_of_ofList (by decide)
  have hMB : "-Capacity (MB):".toList ++ " ".toList = ConfigOption.capacityMB.label :=
    append_of_ofList (by decide)
  simp only [List.mem_cons, List.not_mem_nil, or_false] at h
  unfold isCapacityLine
  rw [skipSpace_text, Bool.or_eq_true, List.isPrefixOf_iff_prefix, List.isPrefixOf_iff_prefix]
  rcases h with rfl | rfl
  · exact .inl ⟨" ".toList ++ v, by rw [ConfigLine.text, ← List.append_assoc, hKB]⟩
  · exact .inr ⟨" ".toList ++ v, by rw [ConfigLine.text, ← List.append_assoc, hMB]⟩

theorem splitOn_options (hvalues : ∀ l ∈ ls, '\n' ∉ l.2) :
    (unlines (ls.map ConfigLine.text)).splitOn '\n' = ls.map ConfigLine.text ++ [[]] := by
  refine splitOn_unlines fun l hl => ?_
  obtain ⟨l', hl', rfl⟩ := List.mem_map.mp hl
  rw [ConfigLine.text, List.mem_append, not_or]
  exact ⟨l'.1.label_shape.2.2.2, hvalues l' hl'⟩

/-- A file of the reader's own option lines is a template, when it sets a capacity and a
    roadmap and one cell file, and starts with none of the erased options. -/
theorem template_of_options
    (hvalues : ∀ l ∈ ls, '\n' ∉ l.2 ∧ ∃ c, l.2.getLast? = some c ∧ isPySpace c = false ∧ c ≠ 'y')
    (hfirst : ∃ l ∈ ls.head?, l.1 ≠ .optimizationTarget ∧ l.1 ≠ .enablePruning)
    (hnone : ∀ l ∈ ls, l.1 ∉ [ConfigOption.capacityB, .forceBank3D, .forceBank3DA])
    (hcapacity : ∃ l ∈ ls, l.1 ∈ [ConfigOption.capacityKB, .capacityMB])
    (hcell : (ls.filter fun l => l.1 = .memoryCellInputFile).length = 1)
    (hroadmap : ∃ l ∈ ls, l.1 = .deviceRoadmap) :
    Template (unlines (ls.map ConfigLine.text)) := by
  have hsplit := splitOn_options fun l hl => (hvalues l hl).1
  have htext {param value : List Char} {o : ConfigOption} (he : (param, o) ∈ sweepParams) :
      ConfigLine.text (o, value) = setting param value :=
    (setting_eq_text (sweepParams_spec he).2.2 value).symm
  have hempty {o : ConfigOption} (ho : o ∈ [ConfigOption.capacityB, .forceBank3D, .forceBank3DA]) :
      ∀ l, l ∉ taken o (ls.map ConfigLine.text ++ [[]]) := by
    intro l hl
    obtain ⟨v, hv, -⟩ := mem_taken_options hl
    exact hnone _ hv ho
  obtain ⟨l₁, hhead, htarget, hpruning⟩ := hfirst
  obtain ⟨rest, rfl⟩ := List.head?_eq_some_iff.mp hhead
  -- the demands on a template in turn; the last line is empty
  constructor
  case start =>
    obtain ⟨t, ht⟩ := head_text l₁
    have hlines : unlines ((l₁ :: rest).map ConfigLine.text) =
        '-' :: (t ++ '\n' :: unlines (rest.map ConfigLine.text)) := by
      simp [unlines, ht]
    rw [hlines]
    rfl
  all_goals rw [hsplit]
  case kept =>
    intro l hl
    obtain rfl : l₁.text = l := Option.some.inj hl
    have hnot {param : List Char} {o : ConfigOption} (hparam : PlainName param)
        (hoption : paramOption param = some o) (hne : l₁.1 ≠ o) : names param l₁.text = false := by
      rw [← Bool.not_eq_true]
      intro h
      have hsame := optionOf_of_names hparam h (optionOf_text l₁)
      exact hne (Option.some.inj (hsame.symm.trans hoption))
    exact ⟨hnot plainName_target paramOption_target htarget,
      hnot plainName_pruning paramOption_pruning hpruning⟩
  case closed =>
    intro l hl
    rcases List.mem_append.mp hl with hl | hl
    · obtain ⟨l', hl', rfl⟩ := List.mem_map.mp hl
      obtain ⟨-, c, hlast, hspace, hy⟩ := hvalues l' hl'
      refine endsOpen_eq_false (c := c) ?_ hspace hy
      rw [ConfigLine.text, List.getLast?_append, hlast]
      rfl
    · rw [List.mem_singleton.mp hl]
      decide
  case capacities =>
    intro o ho l hl
    obtain ⟨v, hv, rfl⟩ := mem_taken_options hl
    rcases List.mem_cons.mp ho with rfl | ho
    · exact absurd List.mem_cons_self (hnone _ hv)
    · exact isCapacityLine_text ho
  case capacity =>
    obtain ⟨⟨o, v⟩, hl, ho⟩ := hcapacity
    exact List.any_eq_true.mpr
      ⟨_, List.mem_append_left _ (List.mem_map_of_mem hl), isCapacityLine_text ho⟩
  case cells =>
    intro l hl
    obtain ⟨v, -, rfl⟩ := mem_taken_options hl
    have hcellLabel : "-MemoryCellInputFile:".toList ++ " ".toList =
        ConfigOption.memoryCellInputFile.label := append_of_ofList (by decide)
    rw [skipSpace_text]
    exact ⟨" ".toList ++ v, by rw [ConfigLine.text, ← List.append_assoc, hcellLabel]⟩
  case cell => rw [taken_options, List.length_map, hcell]
  case strays =>
    intro e he l hl
    obtain ⟨v, -, rfl⟩ := mem_taken_options hl
    rw [htext he]
    exact names_setting (sweepParams_spec he).1 v
  case roadmap =>
    obtain ⟨⟨o, v⟩, hl, rfl⟩ := hroadmap
    refine List.any_eq_true.mpr ⟨_, List.mem_append_left _ (List.mem_map_of_mem hl), ?_⟩
    have he : ("DeviceRoadmap".toList, ConfigOption.deviceRoadmap) ∈ sweepParams :=
      .tail _ (.tail _ List.mem_cons_self)
    rw [htext he]
    exact names_setting plainName_roadmap v
  case planar =>
    exact ⟨List.eq_nil_iff_forall_not_mem.mpr (hempty (by decide)),
      List.eq_nil_iff_forall_not_mem.mpr (hempty (by decide))⟩

end

/-! ## A template and a job -/

/-- The options of `config/sample_2D_eDRAM.cfg`. -/
def eDRAMOptions : List ConfigLine :=
  [(.designTarget, "cache".toList), (.cacheAccessMode, "Normal".toList),
   (.associativity, "8".toList), (.processNode, "45".toList), (.capacityKB, "128".toList),
   (.wordWidth, "128".toList), (.deviceRoadmap, "EDRAM".toList), (.routing, "Non-H-tree".toList),
   (.internalSensing, "true".toList), (.memoryCellInputFile, "sample_2D_eDRAM.cell".toList),
   (.temperature, "370".toList), (.optimizationTarget, "WriteEDP".toList),
   (.enablePruning, "Yes".toList), (.stackedDieCount, "1".toList)]

def eDRAMTemplate : List Char := unlines (eDRAMOptions.map ConfigLine.text)

theorem template_eDRAM : Template eDRAMTemplate := by
  refine template_of_options ?_ ⟨_, rfl, by decide, by decide⟩ (by decide)
    ⟨(.capacityKB, "128".toList), by simp [eDRAMOptions], by decide⟩ (by decide)
    ⟨(.deviceRoadmap, "EDRAM".toList), by simp [eDRAMOptions], rfl⟩
  have hvalue {v : List Char} {c : Char} (hv : (v.all fun c => c != '\n') = true)
      (hlast : v.getLast? = some c) (hc : (!isPySpace c && c != 'y') = true) :
      '\n' ∉ v ∧ ∃ c, v.getLast? = some c ∧ isPySpace c = false ∧ c ≠ 'y' := by
    rw [Bool.and_eq_true, Bool.not_eq_true', bne_iff_ne] at hc
    exact ⟨fun hmem => by simpa using List.all_eq_true.mp hv _ hmem, c, hlast, hc⟩
  simp only [eDRAMOptions, List.forall_mem_cons]
  exact ⟨hvalue rfl rfl rfl, hvalue rfl rfl rfl, hvalue rfl rfl rfl, hvalue rfl rfl rfl,
    hvalue rfl rfl rfl, hvalue rfl rfl rfl, hvalue rfl rfl rfl, hvalue rfl rfl rfl,
    hvalue rfl rfl rfl, hvalue rfl rfl rfl, hvalue rfl rfl rfl, hvalue rfl rfl rfl,
    hvalue rfl rfl rfl, hvalue rfl rfl rfl, fun _ h => absurd h List.not_mem_nil⟩

/-- A host whose working directory is `/work`, and on which a backslash in a replacement
    raises. -/
def workHost : PythonHost where
  abspath := join "/work".toList
  expand repl := if '\\' ∈ repl then none else some repl
  expand_plain _ h := if_neg h

/-- The first eDRAM job of the sweep. -/
def eDRAMJob : JobPoint where
  cell_file := SyntheticCell.filename ⟨0, 45⟩
  cap_kb := 2
  stacked := 1
  temperature := 350
  assoc := 4
  ww_bits := 64
  option := .layout 0 ⟨1, 1, 1, 1, 1, 1⟩
  roadmap := "EDRAM".toList

theorem eDRAMJob_mem : eDRAMJob ∈ jobPoints crossbarScripts explorationLists .eDRAM
    "synthetic_cells/eDRAM".toList [SyntheticCell.filename ⟨0, 45⟩] := by
  refine List.mem_flatMap.mpr ⟨_, List.mem_cons_self, List.mem_flatMap.mpr ⟨2, by decide,
    List.mem_flatMap.mpr ⟨1, by decide, List.mem_flatMap.mpr ⟨350, by decide, ?_⟩⟩⟩⟩
  exact List.mem_flatMap.mpr ⟨4, by decide, List.mem_flatMap.mpr ⟨64, by decide,
    List.mem_flatMap.mpr ⟨(⟨1, 1, 1, 1, 1, 1⟩, 0), List.mem_cons_self, List.mem_cons_self⟩⟩⟩

theorem word_eDRAMJob :
    IsWord (eDRAMJob.cellPath "synthetic_cells/eDRAM".toList workHost) ∧
      '\\' ∉ eDRAMJob.cellPath "synthetic_cells/eDRAM".toList workHost :=
  ⟨isWord_of_all (by decide +kernel) (by decide +kernel), by decide +kernel⟩

/-- DESTINY is given everything but the roadmap of the job. -/
theorem sweep_point_arrives_eDRAM :
    ∃ text, eDRAMJob.config crossbarScripts .eDRAM "synthetic_cells/eDRAM".toList eDRAMTemplate
        [] [] workHost = some text ∧
      ∀ buffer s, ∃ rounds s',
        ConfigReader.ReadInputParameterFromFile rounds text buffer s = some s' ∧
          s'.temperature = 350 ∧ roadmapToStr s'.deviceRoadmap ≠ "EDRAM".toList := by
  obtain ⟨text, htext, hread⟩ := sweep_point_arrives (fun _ => crossbarCell)
    (fun _ => [⟨1, 1, 1, 1, 1, 1⟩, ⟨2, 1, 1, 1, 1, 1⟩]) .eDRAM
    [SyntheticCell.filename ⟨0, 45⟩] "synthetic_cells/eDRAM".toList eDRAMTemplate [] [] workHost
    template_eDRAM eDRAMJob eDRAMJob_mem word_eDRAMJob.1 word_eDRAMJob.2
  refine ⟨text, htext, fun buffer s => ?_⟩
  obtain ⟨rounds, s', hrun, hsimulated, hroadmap⟩ := hread buffer s
  exact ⟨rounds, s', hrun, hsimulated.temperature, fun h => hroadmap.mp h rfl⟩

/-- A template that starts with its target leaves the reader at a blank first line. -/
theorem rewritten_ends_iff_target_first :
    ¬ eDRAMJob.Ends crossbarScripts .eDRAM "synthetic_cells/eDRAM".toList
      (unlines ["-OptimizationTarget: Full".toList, "-DesignTarget: cache".toList]) [] []
      workHost := by
  rw [rewritten_ends_iff crossbarScripts .eDRAM eDRAMJob "synthetic_cells/eDRAM".toList
    (unlines ["-OptimizationTarget: Full".toList, "-DesignTarget: cache".toList]) [] [] workHost
    (by decide +kernel) ⟨word_eDRAMJob.1.newline_not_mem, word_eDRAMJob.2⟩
    (inserted_of_all (by decide))]
  rintro ⟨l, hl, -, htarget, -⟩
  obtain rfl : "-OptimizationTarget: Full".toList = l := Option.some.inj hl
  revert htarget
  decide +kernel

end Destiny.Sweep
