/-
  Destiny.Sweep.PointFidelity

  When the design point of a job is the one DESTINY is given, over every template with one
  capacity, one cell file and nothing forced, and every line of it read or not.

  * `JobPoint.Conveyed` is the condition: the memory type is one whose roadmap the reader
    knows, the cell file is one word, and the lines of the template leave the parameters
    to the job.
  * A job arrives exactly when it is conveyed (`sweep_point_faithful_iff`).
  * On the options of `config/sample_2D_eDRAM.cfg` no eDRAM job arrives
    (`sweep_point_lost_eDRAM`).
-/

import Destiny.Sweep.PointRead

namespace Destiny.Sweep

open Lib

/-! ## Templates -/

/-- The lines of a configuration that the reader acts on. -/
def activeLines (t : List Char) : List (List Char) := asRead (t.splitOn '\n')

/-- A template of the sweep: one active capacity, in KB or MB, one active cell file, and
    nothing forced. -/
structure ConfigTemplate (t : List Char) : Prop where
  capacity : ∃ l, (activeLines t).filter (fun l => optionOf l ∈
      [some ConfigOption.capacityB, some .capacityKB, some .capacityMB]) = [l] ∧
    isCapacityLine l = true
  cell : ∃ l, taken .memoryCellInputFile (activeLines t) = [l] ∧
    "-MemoryCellInputFile:".toList <+: skipSpace l
  unforced : ∀ l ∈ activeLines t, ¬ "-Force".toList <+: skipSpace l

section
variable {t : List Char} (ht : ConfigTemplate t)
include ht

theorem ConfigTemplate.capacities : (∀ o ∈ [ConfigOption.capacityB, .capacityKB, .capacityMB],
      ∀ l ∈ taken o (activeLines t), isCapacityLine l = true) ∧
    ∃ l ∈ activeLines t, isCapacityLine l = true := by
  obtain ⟨l, hone, hl⟩ := ht.capacity
  have hmem : l ∈ activeLines t := (List.mem_filter.mp (hone ▸ List.mem_cons_self)).1
  refine ⟨fun o ho l' hl' => ?_, l, hmem, hl⟩
  obtain ⟨hmem', hoption⟩ := mem_taken.mp hl'
  have hbranch : l' ∈ (activeLines t).filter (fun l => optionOf l ∈
      [some ConfigOption.capacityB, some .capacityKB, some .capacityMB]) := by
    rw [List.mem_filter, hoption, decide_eq_true_eq]
    exact ⟨hmem', List.mem_map.mpr ⟨o, ho, rfl⟩⟩
  rw [hone, List.mem_singleton] at hbranch
  rwa [hbranch]

/-- No layout is forced on three dimensions. -/
theorem ConfigTemplate.planar : taken .forceBank3D (activeLines t) = [] ∧
    taken .forceBank3DA (activeLines t) = [] := by
  have hnone {o : ConfigOption} (ho : "-Force".toList <+: o.key) :
      taken o (activeLines t) = [] := by
    rw [List.eq_nil_iff_forall_not_mem]
    intro l hl
    obtain ⟨hmem, hoption⟩ := mem_taken.mp hl
    exact ht.unforced l hmem (ho.trans (key_prefix_of_optionOf hoption))
  exact ⟨hnone (by decide), hnone (by decide)⟩

end

/-! ## The host -/

/-- What Python documents of `os.path.abspath` and of the replacements of `re.sub`: the path is
    absolute, what stands in front of the first backslash is put in as it is, and an escape
    is longer than what it stands for, the match itself aside. -/
structure PythonHost.Documented (py : PythonHost) : Prop where
  absolute : ∀ p, ∃ q, py.abspath p = '/' :: q
  keeps : ∀ u v, '\\' ∉ u → py.expand (u ++ v) = (py.expand v).map (u ++ ·)
  shortens : ∀ v w, py.expand v = some w → w = v ∨ w.length < v.length

/-- The slash of the path and what stands in front of it are put in as they are. -/
theorem PythonHost.Documented.expand_cellSetting {py : PythonHost} (hpy : py.Documented)
    (q : List Char) : py.expand (cellSetting ('/' :: q)) =
      (py.expand q).map fun w => cellSetting ('/' :: w) := by
  have hslash (v : List Char) : cellSetting ('/' :: v) =
      '-' :: ("MemoryCellInputFile".toList ++ ": ".toList) ++ "/".toList ++ v := by
    simp only [cellSetting, setting, List.append_assoc, List.cons_append]
    rfl
  rw [hslash q, hpy.keeps _ _ (by decide)]
  exact congrArg (py.expand q).map (funext fun w => (hslash w).symm)

/-! ## Lines that settle a job -/

section
variable {P : Type} (scripts : Scripts P) (m : MemType) (p : JobPoint)
  (cell_path path : List Char) (ls : List (List Char))

/-- What the last line of an option says once the lines are replaced: its own word, or where
    the reader finds none, the last word scanned in front of it. -/
def JobPoint.said {V : Type} (o : ConfigOption) (d : List Char → V) : Option V :=
  lastSaid (behind (scratchAt path o d) (p.rewrites scripts m cell_path)) ls

/-- The lines leave the parameters of the job to it. -/
structure JobPoint.SettledBy : Prop where
  roadmap : ∃ r, p.said scripts m cell_path path ls .deviceRoadmap DeviceRoadmap.ofWord = some r ∧
    roadmapToStr r = p.roadmap
  numbers : ∀ n ∈ p.numbers, Settled n.1.1 n.1.2 (intIn n.1.2) n.2 ls
  sensing : ∀ on, p.option = .sensing on → ls.any (names "InternalSensing".toList) = true →
    p.said scripts m cell_path path ls .internalSensing isTrue = some on

end

/-! ## Fidelity -/

section
variable {P : Type} (scripts : Scripts P) (m : MemType) (p : JobPoint)
  (cell_dir base_cfg_content temp_dir results_dir : List Char) (py : PythonHost)

/-- The configuration of a job is written, and whatever state and buffer the reader starts
    from, it ends on it with the design point of the job.  The constructor sets neither the
    roadmap nor the scratch buffer. -/
def JobPoint.Faithful : Prop :=
  ∃ text, p.config scripts m cell_dir base_cfg_content temp_dir results_dir py = some text ∧
    ∀ buffer s, ∃ rounds s',
      ConfigReader.ReadInputParameterFromFile rounds text buffer s = some s' ∧
        p.Given (p.cellPath cell_dir py) s s'

/-- When the design point of a job is conveyed: its roadmap is one that the reader knows, its
    cell file is one word that `re.sub` puts in as it is, the first line of the template
    stays, and the lines of it leave the parameters to the job. -/
structure JobPoint.Conveyed : Prop where
  known : m ≠ .eDRAM
  word : IsWord (p.cellPath cell_dir py)
  verbatim : py.expand (cellSetting (p.cellPath cell_dir py)) =
    some (cellSetting (p.cellPath cell_dir py))
  first : KeepsFirst (base_cfg_content.splitOn '\n')
  settled : p.SettledBy scripts m (join cell_dir p.cell_file) (p.cellPath cell_dir py)
    (activeLines base_cfg_content)

end

/-! ## From the template to the freed lines -/

/-- The names of the sweep start with a letter, and the free substitutions put in no key of
    theirs. -/
theorem sweepParams_free {e : List Char × ConfigOption} (he : e ∈ sweepParams) :
    e.1.head?.any Char.isAlpha = true ∧ ¬ ['-', 'C'] <+: e.2.key ∧ ¬ ['-', 'M'] <+: e.2.key := by
  have hall : ∀ e ∈ sweepParams, e.1.head?.any Char.isAlpha = true ∧
      ¬ ['-', 'C'] <+: e.2.key ∧ ¬ ['-', 'M'] <+: e.2.key := by
    simp only [sweepParams, List.forall_mem_cons]
    decide +kernel
  exact hall e he

theorem sensing_mem_sweepParams :
    ("InternalSensing".toList, ConfigOption.internalSensing) ∈ sweepParams :=
  mem_sweepParams_of_override (.tail _ (.tail _ (.tail _ (.tail _ List.mem_cons_self))))

/-- The lines say the same of every parameter of the sweep. -/
def SameStandings (ls ms : List (List Char)) : Prop :=
  ∀ e ∈ sweepParams, ∀ {V : Type} (val : List Char → Option V), Bounded val →
    ls.filterMap (standing e.1 e.2 val) = ms.filterMap (standing e.1 e.2 val)

section
variable {ls ms : List (List Char)} (h : SameStandings ls ms) {e : List Char × ConfigOption}
  (he : e ∈ sweepParams)
include h he

theorem SameStandings.settled_iff {V : Type} {val : List Char → Option V} (hval : Bounded val)
    (v : V) : Settled e.1 e.2 val v ls ↔ Settled e.1 e.2 val v ms := by
  unfold Settled
  rw [h e he val hval]

theorem SameStandings.any_names : ls.any (names e.1) = ms.any (names e.1) := by
  have hmem {ls : List (List Char)} : .replaced ∈ ls.filterMap (standing e.1 e.2 (intIn e.2)) ↔
      ls.any (names e.1) = true := replaced_mem_standings
  rw [Bool.eq_iff_iff, ← hmem, ← hmem, h e he _ (bounded_intIn e.2)]

end

theorem activeLines_freeText (z : ℤ) {path : List Char} (hpath : '\n' ∉ path) (t : List Char) :
    activeLines (freeText (integer z) (cellSetting path) t) =
      freeMap cellFilePattern (cellSetting path)
        (asRead ((capacityText (integer z) t).splitOn '\n')) := asRead_freeText hpath t

/-- What the reader sees of the parameters is that of the template. -/
theorem sameStandings_freeText (z : ℤ) {path : List Char} (hpath : '\n' ∉ path) (t : List Char) :
    SameStandings (activeLines (freeText (integer z) (cellSetting path) t)) (activeLines t) := by
  intro e he V val hval
  obtain ⟨ls, hMB, hKB⟩ := asRead_capacityText z t
  obtain ⟨halpha, hC, hM⟩ := sweepParams_free he
  rw [activeLines_freeText z hpath]
  exact standings_free hMB hKB (sweepParams_spec he).1 halpha hval hC hM

theorem ConfigTemplate.freed {t path : List Char} (ht : ConfigTemplate t) (p : JobPoint)
    (hpath : '\n' ∉ path) :
    p.Freed path (activeLines (freeText (integer p.cap_kb) (cellSetting path) t)) := by
  obtain ⟨ls, hMB, hKB⟩ := asRead_capacityText p.cap_kb t
  obtain ⟨hcapacities, hsome⟩ := ht.capacities
  obtain ⟨l, hl, hstart⟩ := ht.cell
  constructor <;> rw [activeLines_freeText p.cap_kb hpath]
  case capacity => exact capacity_free hMB hKB hcapacities hsome
  case cell => exact cell_free hMB hKB hl hstart
  case planar =>
    exact ⟨taken_free_nil hMB hKB (by decide) (by decide) ht.planar.1,
      taken_free_nil hMB hKB (by decide) (by decide) ht.planar.2⟩

/-! ## The words -/

/-- A roadmap that the reader takes is one it knows. -/
theorem roadmapToStr_ofWord (w : List Char) :
    roadmapToStr (DeviceRoadmap.ofWord (roadmapToStr (DeviceRoadmap.ofWord w))) =
      roadmapToStr (DeviceRoadmap.ofWord w) := by
  unfold DeviceRoadmap.ofWord
  split
  · rfl
  · split <;> rfl

section
variable {P : Type} (scripts : Scripts P) (m : MemType) (p : JobPoint) (cell_path : List Char)

/-- The replacements start with letters and are no cell files. -/
theorem rewrites_spec {r : List Char × List Char} (hr : r ∈ p.rewrites scripts m cell_path) :
    PlainName r.1 ∧ r.1.head?.any Char.isAlpha = true ∧
      optionOf r.2 ≠ some .memoryCellInputFile := by
  have hfree {e : List Char × ConfigOption} (he : e ∈ sweepParams) := (sweepParams_free he).1
  unfold JobPoint.rewrites at hr
  rcases List.mem_cons.mp hr with rfl | hr
  · exact ⟨plainName_target, hfree List.mem_cons_self, optionOf_nil _⟩
  rcases List.mem_cons.mp hr with rfl | hr
  · exact ⟨plainName_pruning, hfree (.tail _ List.mem_cons_self), optionOf_nil _⟩
  rcases List.mem_cons.mp hr with rfl | hr
  · exact ⟨plainName_roadmap, hfree (.tail _ (.tail _ List.mem_cons_self)),
      optionOf_setting_ne paramOption_roadmap (by decide) _⟩
  · obtain ⟨s, hs, rfl⟩ := List.mem_map.mp hr
    have hoption : optionOf (setting s.1 s.2) ≠ some .memoryCellInputFile := by
      rw [optionOf_setting]
      exact paramOption_override_ne scripts m p cell_path (by decide) s hs
    refine ⟨plainName_settings scripts m p cell_path s hs, ?_, hoption⟩
    show s.1.head?.any Char.isAlpha = true
    rcases name_settings scripts m p cell_path hs with h | ⟨e, he, h⟩
    · rw [h]
      decide +kernel
    · rw [h]
      exact hfree (mem_sweepParams_of_override he)

/-- What the last line of an option says on the freed lines is what it says on those of the
    template. -/
theorem said_freeText {t path : List Char} (ht : ConfigTemplate t) (hpath : IsWord path) (z : ℤ)
    {V : Type} {o : ConfigOption} {d : List Char → V} {v : V} (ho : scansWord o = true)
    (hcell : o ≠ .memoryCellInputFile) (hd : ∀ w, '-' ∈ w → d w = v) :
    lastSaid (behind (scratch o d) (p.rewrites scripts m cell_path))
        (activeLines (freeText (integer z) (cellSetting path) t)) =
      p.said scripts m cell_path path (activeLines t) o d := by
  obtain ⟨ls, hMB, hKB⟩ := asRead_capacityText z t
  obtain ⟨l, hl, hstart⟩ := ht.cell
  have hrewrites {r : List Char × List Char} (hr : r ∈ p.rewrites scripts m cell_path) :=
    rewrites_spec scripts m p cell_path hr
  unfold JobPoint.said lastSaid
  rw [activeLines_freeText z hpath.newline_not_mem,
    scratch_free hMB hKB hl hstart hpath (fun r hr => (hrewrites hr).1)
    (fun r hr => (hrewrites hr).2.1) (fun r hr => (hrewrites hr).2.2) ho hcell hd]
  rfl

/-- What a last line says is what the option takes from a word. -/
theorem exists_word_of_lastSaid {V : Type} {o : ConfigOption} {d : List Char → V} {v : V}
    {rs : List (List Char × List Char)} {ls : List (List Char)}
    (h : lastSaid (behind (scratch o d) rs) ls = some v) : ∃ w, v = d w := by
  obtain ⟨x, hx, hv⟩ := exists_value_of_lastOwn h
  obtain ⟨l, -, hl⟩ := List.mem_filterMap.mp (List.mem_reverse.mp hx)
  unfold behind at hl
  split at hl <;> exact exists_word_of_scratch hl hv

end

/-! ## Jobs and lines -/

section
variable {P : Type} (scripts : Scripts P) (m : MemType) {p : JobPoint} (cell_path : List Char)
  {t path : List Char} (ht : ConfigTemplate t) (hpath : IsWord path)
include ht hpath

/-- From every state the design point is given exactly when the lines of the template settle
    the job. -/
theorem given_iff_settledBy (hpos : p.Positive) {node : ℕ}
    (hnode : extract_process_node p.cell_file = some node) :
    (∀ s, p.Given path s (p.readLines scripts m cell_path
        (activeLines (freeText (integer p.cap_kb) (cellSetting path) t)) s)) ↔
      p.SettledBy scripts m cell_path path (activeLines t) := by
  have hclean := hpath.newline_not_mem
  have hsame := sameStandings_freeText p.cap_kb hclean t
  have hiff (s : ConfigReader) :=
    given_iff scripts m p cell_path s hpos hpath hnode (ht.freed p hclean)
  have hroadmap := roadmap_iff scripts m p cell_path
    (activeLines (freeText (integer p.cap_kb) (cellSetting path) t))
  rw [said_freeText scripts m p cell_path ht hpath p.cap_kb rfl (by decide) ofWord_of_dash]
    at hroadmap
  have hnumbers : (∀ n ∈ p.numbers, Settled n.1.1 n.1.2 (intIn n.1.2) n.2
        (activeLines (freeText (integer p.cap_kb) (cellSetting path) t))) ↔
      ∀ n ∈ p.numbers, Settled n.1.1 n.1.2 (intIn n.1.2) n.2 (activeLines t) :=
    forall₂_congr fun n hn => hsame.settled_iff
      (mem_sweepParams_of_override (numbers_mem_overrideParams hn)) (bounded_intIn n.1.2) n.2
  have hsensing {on : Bool} (hon : p.option = .sensing on) := sensing_iff scripts m p cell_path
    (activeLines (freeText (integer p.cap_kb) (cellSetting path) t)) hon
  rw [said_freeText scripts m p cell_path ht hpath p.cap_kb rfl (by decide) isTrue_of_dash,
    hsame.any_names sensing_mem_sweepParams] at hsensing
  constructor
  · intro h
    have hgiven (s : ConfigReader) := (hiff s).mp (h s)
    exact ⟨hroadmap.mp fun s => (hgiven s).1, hnumbers.mp (hgiven default).2.1,
      fun on hon => (hsensing hon).mp fun s => (hgiven s).2.2 on hon⟩
  · rintro ⟨hr, hn, hs⟩ s
    exact (hiff s).mpr ⟨hroadmap.mpr hr s, hnumbers.mpr hn,
      fun on hon => (hsensing hon).mpr (hs on hon) s⟩

/-- The roadmap of a job whose lines settle it is one that the reader knows. -/
theorem known_of_settledBy (h : p.SettledBy scripts m cell_path path (activeLines t)) :
    roadmapToStr (DeviceRoadmap.ofWord p.roadmap) = p.roadmap := by
  obtain ⟨r, hr, hroadmap⟩ := h.roadmap
  rw [← said_freeText scripts m p cell_path ht hpath p.cap_kb rfl (by decide) ofWord_of_dash] at hr
  obtain ⟨w, rfl⟩ := exists_word_of_lastSaid hr
  rw [← hroadmap]
  exact roadmapToStr_ofWord w

end

/-! ## The cell file -/

section
variable {P : Type} (scripts : Scripts P) (m : MemType) (p : JobPoint) (cell_path : List Char)

/-- The first line of what is put in for the cell file stays on its line. -/
theorem mem_overriddenLines_cell {cap t l w : List Char} {c : Char} (hc : c ≠ '\n')
    (hone : taken .memoryCellInputFile (asRead ((capacityText cap t).splitOn '\n')) = [l])
    (hstart : "-MemoryCellInputFile:".toList <+: skipSpace l) :
    ∃ w₀, w₀ <+: w ∧ ∃ l' ∈ asRead (overriddenLines scripts m p cell_path
        ((freeText cap (cellSetting (c :: w)) t).splitOn '\n')),
      skipSpace l' = cellSetting (c :: w₀) := by
  obtain ⟨hmem, hoption⟩ := mem_taken.mp (hone ▸ List.mem_cons_self : l ∈ taken _ _)
  obtain ⟨w₀, rest, hsplit, hprefix⟩ := splitOn_head hc w
  -- the newlines stand behind the start of the name, so the line keeps it
  have hclean : '\n' ∉ l.takeWhile isspace ++
      '-' :: ("MemoryCellInputFile".toList ++ ": ".toList) := by
    rw [List.mem_append, not_or]
    exact ⟨fun h => newline_not_mem_asRead hmem ((List.takeWhile_sublist _).subset h), by decide⟩
  have hline : (cellFilePattern.subLine (cellSetting (c :: w)) true l).splitOn '\n' =
      (l.takeWhile isspace ++ cellSetting (c :: w₀)) :: rest := by
    have hassoc (v : List Char) : l.takeWhile isspace ++ cellSetting v =
        l.takeWhile isspace ++ '-' :: ("MemoryCellInputFile".toList ++ ": ".toList) ++ v := by
      simp only [cellSetting, setting, List.append_assoc, List.cons_append]
    rw [freeSub_of_head freePattern_cellFile (isSome_cellFileHead hstart), hassoc,
      splitOn_append_of_not_mem hclean, hsplit, List.modifyHead_cons, ← hassoc]
  have hskip : skipSpace (l.takeWhile isspace ++ cellSetting (c :: w₀)) =
      cellSetting (c :: w₀) := by
    unfold skipSpace
    rw [List.dropWhile_append_of_pos fun d hd => List.mem_takeWhile_imp hd]
    exact skipSpace_setting _ _
  have hoption' : optionOf (l.takeWhile isspace ++ cellSetting (c :: w₀)) =
      some .memoryCellInputFile := by
    have h := optionOf_of_skipSpace (hskip.trans (skipSpace_setting _ _).symm)
    rw [h, ← cellSetting, optionOf_cellSetting]
  refine ⟨w₀, hprefix, _, ?_, hskip⟩
  have hread : l.takeWhile isspace ++ cellSetting (c :: w₀) ∈
      asRead ((freeText cap (cellSetting (c :: w)) t).splitOn '\n') := by
    unfold freeText
    rw [LinePattern.sub_splitOn_flatMap fun l _ => local_cellFile l]
    refine mem_asRead_flatMap (fun l => List.splitOn_ne_nil '\n' _) hmem ?_ (by rw [hline]; rfl) ?_
    · rintro rfl
      exact optionOf_nil _ hoption
    · intro hindent
      cases l with
      | nil => rfl
      | cons d l =>
          have hd : isspace d = false := by simpa using hindent
          rw [List.takeWhile_cons_of_neg (by simp [hd])]
          rfl
  rw [asRead_overriddenLines scripts m p cell_path _ (List.splitOn_ne_nil '\n' _)]
  have htaken := mem_taken.mpr ⟨hread, hoption'⟩
  rw [← taken_overriddenLines scripts m p cell_path _ (by decide) (by decide)] at htaken
  exact (mem_taken.mp htaken).1

end

section
variable {P : Type} {scripts : Scripts P} {m : MemType} {p : JobPoint}
  {cell_dir base_cfg_content temp_dir results_dir : List Char} {py : PythonHost}

/-- A job that arrives has a word for its cell file. -/
theorem JobPoint.Faithful.word (hpy : py.Documented)
    (h : p.Faithful scripts m cell_dir base_cfg_content temp_dir results_dir py) :
    IsWord (p.cellPath cell_dir py) := by
  obtain ⟨text, -, hread⟩ := h
  obtain ⟨rounds, s', hrun, hgiven⟩ := hread []
    { (default : ConfigReader) with ip.fileMemCell := [], tmp := [] }
  have hnames : UnspacedNames s' := unspacedNames_of_read
    ⟨fun _ h => absurd h List.not_mem_nil, fun _ h => absurd h List.not_mem_nil⟩ hrun
  have hmem : String.ofList (p.cellPath cell_dir py) ∈ s'.ip.fileMemCell := by
    rw [hgiven.cell]
    exact List.mem_append_right _ List.mem_cons_self
  have hsolid := hnames.names _ hmem
  rw [String.toList_ofList] at hsolid
  obtain ⟨q, hq⟩ := hpy.absolute (join cell_dir p.cell_file)
  exact ⟨by rw [JobPoint.cellPath, hq]; exact List.cons_ne_nil _ _, hsolid⟩

/-- The name that is read is no longer than the text put in. -/
theorem JobPoint.Faithful.length_cellPath_le (ht : ConfigTemplate base_cfg_content)
    (hroadmap : Inserted p.roadmap) {w : List Char}
    (hcell : py.expand (cellSetting (p.cellPath cell_dir py)) = some (cellSetting ('/' :: w)))
    (h : p.Faithful scripts m cell_dir base_cfg_content temp_dir results_dir py) :
    (p.cellPath cell_dir py).length ≤ w.length + 1 := by
  obtain ⟨text, htext, hread⟩ := h
  obtain ⟨text', htext', hsplit⟩ := (config_free scripts m p cell_dir base_cfg_content temp_dir
    results_dir py hroadmap).2 _ hcell
  obtain rfl := Option.some.inj (htext.symm.trans htext')
  -- started without cell files, the reader ends with one
  obtain ⟨rounds, s', hrun, hgiven⟩ := hread []
    { (default : ConfigReader) with ip.fileMemCell := [] }
  have hhead : text.head? ≠ some '\n' := lineLoop_ends_iff.mp ⟨rounds, s', hrun⟩
  obtain ⟨rounds', hrun'⟩ := read_asRead hhead []
    { (default : ConfigReader) with ip.fileMemCell := [] }
  have hs' := lineLoop_unique hrun hrun'
  -- it stands on the line of the template's
  obtain ⟨ls, hMB, hKB⟩ := asRead_capacityText p.cap_kb base_cfg_content
  obtain ⟨l, hl, hstart⟩ := ht.cell
  obtain ⟨l', hl', hstart'⟩ := cell_capacity hMB hKB hl hstart
  obtain ⟨w₀, hprefix, l₀, hmem, hskip⟩ := mem_overriddenLines_cell scripts m p
    (join cell_dir p.cell_file) (w := w) (show '/' ≠ '\n' by decide) hl' hstart'
  rw [← hsplit] at hmem
  have hname := mem_fileMemCell hmem hskip rfl
    { (default : ConfigReader) with ip.fileMemCell := [] }
  rw [← hs', hgiven.cell] at hname
  have hsame := congrArg String.toList (List.mem_singleton.mp hname)
  rw [String.toList_ofList, String.toList_ofList] at hsame
  calc (p.cellPath cell_dir py).length
      = (('/' :: w₀).takeWhile fun c => !isspace c).length := by rw [hsame]
    _ ≤ ('/' :: w₀).length := (List.takeWhile_sublist _).length_le
    _ ≤ w.length + 1 := Nat.succ_le_succ hprefix.length_le

/-- The text put in for its cell file is the path. -/
theorem JobPoint.Faithful.verbatim (hpy : py.Documented) (ht : ConfigTemplate base_cfg_content)
    (hroadmap : Inserted p.roadmap)
    (h : p.Faithful scripts m cell_dir base_cfg_content temp_dir results_dir py) :
    py.expand (cellSetting (p.cellPath cell_dir py)) =
      some (cellSetting (p.cellPath cell_dir py)) := by
  obtain ⟨q, hq⟩ := hpy.absolute (join cell_dir p.cell_file)
  have hpath : p.cellPath cell_dir py = '/' :: q := hq
  have hexpand := hpy.expand_cellSetting q
  cases hw : py.expand q with
  | none =>
      -- `re.sub` raises
      obtain ⟨text, htext, -⟩ := h
      rw [hw, ← hpath] at hexpand
      rw [(config_free scripts m p cell_dir base_cfg_content temp_dir results_dir py
        hroadmap).1 hexpand] at htext
      cases htext
  | some w =>
      rw [hw, ← hpath] at hexpand
      rcases hpy.shortens q w hw with rfl | hshort
      · rw [hexpand, hpath]
        rfl
      · have hle := h.length_cellPath_le ht hroadmap hexpand
        rw [hpath, List.length_cons] at hle
        omega

end

/-! ## The jobs of the sweep -/

/-- The sizes of the sweep are positive. -/
theorem positive_of_from {p : JobPoint} {mem_type : MemType}
    (h : p.From explorationLists mem_type) : p.Positive := by
  have hcap : ∀ z ∈ explorationLists.CAPACITY_SWEEP_KB, 0 ≤ z := by decide
  have hww : ∀ z ∈ capacity_bucket_word_widths p.cap_kb, 0 < z := by
    unfold capacity_bucket_word_widths
    split
    · decide
    · split <;> decide
  have hassoc : ∀ z ∈ explorationLists.ASSOCIATIVITIES, 0 < z := by decide
  exact ⟨hcap _ h.cap_kb, hww _ h.ww_bits, hassoc _ h.assoc⟩

theorem cell_file_mem {P : Type} {scripts : Scripts P} {l : SweepLists} {mem_type : MemType}
    {cell_dir : List Char} {cells : List (List Char)} {p : JobPoint}
    (h : p ∈ jobPoints scripts l mem_type cell_dir cells) : p.cell_file ∈ cells := by
  simp only [jobPoints, List.mem_flatMap] at h
  obtain ⟨cell_file, hcell, cap_kb, -, stacked, -, temperature, -, hp⟩ := h
  suffices hfile : p.cell_file = cell_file by rwa [hfile]
  have hlayout (hp : p ∈ layoutPoints scripts l mem_type cell_file cap_kb stacked temperature) :
      p.cell_file = cell_file := by
    simp only [layoutPoints, List.mem_flatMap, List.mem_map] at hp
    obtain ⟨-, -, -, -, -, -, -, -, rfl⟩ := hp
    rfl
  cases mem_type with
  | SRAM => exact hlayout hp
  | eDRAM => exact hlayout hp
  | RRAM =>
      simp only [innerPoints, sensingPoints, List.mem_flatMap] at hp
      obtain ⟨ww_bits, -, hp⟩ := hp
      split at hp
      · cases hp
      · split at hp
        · cases hp
        · simp only [List.mem_flatMap, List.mem_map] at hp
          obtain ⟨-, -, -, -, -, -, rfl⟩ := hp
          rfl

/-- The cell files of a sweep that is built name their process nodes. -/
theorem processNode_of_built {P : Type} {scripts : Scripts P} {l : SweepLists}
    {mem_type : MemType} {cells : List (List Char)}
    {cell_dir base_cfg_content temp_dir results_dir : List Char}
    {built : List SimulationArgs × Rejected}
    (hbuilt : build_simulation_args scripts l mem_type cells cell_dir base_cfg_content temp_dir
      results_dir = some built) {cell_file : List Char} (h : cell_file ∈ cells) :
    ∃ n, extract_process_node cell_file = some n := by
  unfold build_simulation_args at hbuilt
  split at hbuilt
  · next hall => exact Option.isSome_iff_exists.mp (List.all_eq_true.mp hall _ h)
  · cases hbuilt

section
variable {P : Type} {scripts : Scripts P} {m : MemType} {p : JobPoint}
  {cell_dir base_cfg_content temp_dir results_dir : List Char} {py : PythonHost}

/-- With the path of its cell file put in, a job arrives exactly when the first line of the
    template stays and the lines as read give its design point. -/
theorem faithful_iff_given (hroadmap : Inserted p.roadmap)
    (hpath : '\n' ∉ p.cellPath cell_dir py)
    (hverbatim : py.expand (cellSetting (p.cellPath cell_dir py)) =
      some (cellSetting (p.cellPath cell_dir py))) :
    p.Faithful scripts m cell_dir base_cfg_content temp_dir results_dir py ↔
      KeepsFirst (base_cfg_content.splitOn '\n') ∧ ∀ s, p.Given (p.cellPath cell_dir py) s
        (p.readLines scripts m (join cell_dir p.cell_file) (activeLines
          (freeText (integer p.cap_kb) (cellSetting (p.cellPath cell_dir py))
            base_cfg_content)) s) := by
  obtain ⟨text, htext, hsplit⟩ := (config_free scripts m p cell_dir base_cfg_content temp_dir
    results_dir py hroadmap).2 _ hverbatim
  have hne := List.splitOn_ne_nil '\n'
    (freeText (integer p.cap_kb) (cellSetting (p.cellPath cell_dir py)) base_cfg_content)
  have hhead : text.head? ≠ some '\n' ↔ KeepsFirst (base_cfg_content.splitOn '\n') := by
    rw [head?_overridden scripts m p (join cell_dir p.cell_file) hne
      (fun l hl h => LinePattern.newline_not_mem_line (List.mem_of_mem_head? hl)
        (List.mem_of_mem_head? h)) hsplit]
    exact (sameFirst_freeText p.cap_kb hpath base_cfg_content).keepsFirst_iff
  -- the reader ends with the active lines read
  have hread (hhead : text.head? ≠ some '\n') (buffer : List Char) (s : ConfigReader) :
      ∃ rounds, ConfigReader.ReadInputParameterFromFile rounds text buffer s =
        some (p.readLines scripts m (join cell_dir p.cell_file) (activeLines
          (freeText (integer p.cap_kb) (cellSetting (p.cellPath cell_dir py))
            base_cfg_content)) s) := by
    obtain ⟨rounds, hrun⟩ := read_asRead hhead buffer s
    refine ⟨rounds, ?_⟩
    rw [hrun, hsplit, asRead_overriddenLines scripts m p _ _ hne]
    rfl
  constructor
  · rintro ⟨text', htext', hfaithful⟩
    obtain rfl := Option.some.inj (htext.symm.trans htext')
    have hstays : text.head? ≠ some '\n' := by
      obtain ⟨rounds, s', hrun, -⟩ := hfaithful [] default
      exact lineLoop_ends_iff.mp ⟨rounds, s', hrun⟩
    refine ⟨hhead.mp hstays, fun s => ?_⟩
    obtain ⟨rounds, s', hrun, hgiven⟩ := hfaithful [] s
    obtain ⟨rounds', hrun'⟩ := hread hstays [] s
    rwa [lineLoop_unique hrun hrun'] at hgiven
  · rintro ⟨hfirst, hgiven⟩
    refine ⟨text, htext, fun buffer s => ?_⟩
    obtain ⟨rounds, hrun⟩ := hread (hhead.mpr hfirst) buffer s
    exact ⟨rounds, _, hrun, hgiven s⟩

end

/-- A job of the sweep arrives exactly when it is conveyed. -/
theorem sweep_point_faithful_iff (parse_cell_params : List Char → CellParams)
    (get_random_layouts : List Char → List Layout) (mem_type : MemType)
    (cells : List (List Char)) (cell_dir base_cfg_content temp_dir results_dir : List Char)
    (py : PythonHost) (hpy : py.Documented) (ht : ConfigTemplate base_cfg_content)
    {built : List SimulationArgs × Rejected}
    (hbuilt : build_simulation_args (explorationScripts parse_cell_params get_random_layouts)
      explorationLists mem_type cells cell_dir base_cfg_content temp_dir results_dir = some built)
    (p : JobPoint)
    (hp : p ∈ jobPoints (explorationScripts parse_cell_params get_random_layouts)
      explorationLists mem_type cell_dir cells) :
    p.Faithful (explorationScripts parse_cell_params get_random_layouts) mem_type cell_dir
        base_cfg_content temp_dir results_dir py ↔
      p.Conveyed (explorationScripts parse_cell_params get_random_layouts) mem_type cell_dir
        base_cfg_content py := by
  have hfrom := from_of_mem_jobPoints hp
  obtain ⟨-, -, hinserted, hknown⟩ := explorationLists_spec hfrom
  obtain ⟨node, hnode⟩ := processNode_of_built hbuilt (cell_file_mem hp)
  have hpos := positive_of_from hfrom
  constructor
  · intro h
    have hword := h.word hpy
    have hverbatim := h.verbatim hpy ht hinserted
    rw [faithful_iff_given hinserted hword.newline_not_mem hverbatim,
      given_iff_settledBy _ _ _ ht hword hpos hnode] at h
    obtain ⟨hfirst, hsettled⟩ := h
    exact ⟨hknown.mp (known_of_settledBy _ _ _ ht hword hsettled), hword, hverbatim, hfirst,
      hsettled⟩
  · intro h
    rw [faithful_iff_given hinserted h.word.newline_not_mem h.verbatim,
      given_iff_settledBy _ _ _ ht h.word hpos hnode]
    exact ⟨h.first, h.settled⟩

/-! ## A template and two jobs -/

/-- The lines of a file of options. -/
theorem activeLines_options {ls : List ConfigLine} (hvalues : ∀ l ∈ ls, '\n' ∉ l.2) :
    activeLines (unlines (ls.map ConfigLine.text)) = ls.map ConfigLine.text ++ [[]] := by
  unfold activeLines
  rw [splitOn_options hvalues]
  cases ls with
  | nil => rfl
  | cons l ls =>
      obtain ⟨t, ht⟩ := head_text l
      rw [List.map_cons, List.cons_append, asRead_cons, ht]
      rfl

section
variable {V : Type} (val : List Char → Option V) {e : List Char × ConfigOption}
  (he : e ∈ sweepParams)
include he

/-- An option line is replaced by the job's when it is of the parameter. -/
theorem standing_text (l : ConfigLine) :
    standing e.1 e.2 val l.text = if l.1 = e.2 then some .replaced else none := by
  obtain ⟨hparam, hoption, hlabel⟩ := sweepParams_spec he
  split
  · next h =>
    have htext : l.text = setting e.1 l.2 := by
      rw [setting_eq_text hlabel, ← h]
    rw [htext]
    exact standing_of_names (names_setting hparam l.2)
  · next h =>
    unfold standing
    rw [optionOf_text, if_neg fun hnames => ?_, if_neg fun hsame => h (Option.some.inj hsame)]
    have hsame := optionOf_of_names hparam hnames (optionOf_text l)
    exact h (Option.some.inj (hsame.symm.trans hoption))

theorem standings_options (ls : List ConfigLine) :
    (ls.map ConfigLine.text ++ [[]]).filterMap (standing e.1 e.2 val) =
      (ls.filter fun l => l.1 = e.2).map fun _ => .replaced := by
  rw [List.filterMap_append, List.filterMap_cons_none (standing_nil (sweepParams_spec he).1),
    List.filterMap_nil, List.append_nil]
  induction ls with
  | nil => rfl
  | cons l ls ih =>
      rw [List.map_cons, List.filterMap_cons, standing_text val he, ih]
      by_cases h : l.1 = e.2 <;> simp [h]

/-- In a file of options every parameter is settled. -/
theorem settled_options (v : V) (ls : List ConfigLine) :
    Settled e.1 e.2 val v (ls.map ConfigLine.text ++ [[]]) := by
  unfold Settled
  rw [standings_options val he]
  intro _ x hx
  obtain ⟨l, -, hl⟩ := List.mem_map.mp (List.mem_of_getLast? hx)
  cases hl

end

/-- A file of options with one capacity, in KB or MB, one cell file and nothing forced. -/
theorem configTemplate_of_options {ls : List ConfigLine} (hvalues : ∀ l ∈ ls, '\n' ∉ l.2)
    (capacity cell : ConfigLine) (hunit : capacity.1 ∈ [ConfigOption.capacityKB, .capacityMB])
    (hcapacity : (ls.filter fun l =>
      l.1 ∈ [ConfigOption.capacityB, .capacityKB, .capacityMB]) = [capacity])
    (hcell : (ls.filter fun l => l.1 = .memoryCellInputFile) = [cell])
    (hforce : ∀ l ∈ ls, ¬ "-Force".toList <+: l.text) :
    ConfigTemplate (unlines (ls.map ConfigLine.text)) := by
  constructor <;> rw [activeLines_options hvalues]
  case capacity =>
    refine ⟨capacity.text, ?_, isCapacityLine_text hunit⟩
    have hblank : optionOf [] = none := optionOf_blank rfl
    have hone : (ls.map ConfigLine.text).filter (fun l => optionOf l ∈
        [some ConfigOption.capacityB, some .capacityKB, some .capacityMB]) = [capacity.text] := by
      have htext : [capacity.text] = [capacity].map ConfigLine.text := rfl
      rw [htext, ← hcapacity, List.filter_map]
      refine congrArg (List.map ConfigLine.text) (List.filter_congr fun l _ => ?_)
      rw [Function.comp_apply, optionOf_text]
      simp
    rw [List.filter_append, hone, List.filter_cons_of_neg (by simp [hblank]), List.filter_nil,
      List.append_nil]
  case cell =>
    obtain ⟨o, v⟩ := cell
    have ho : o = .memoryCellInputFile := by
      have hmem := List.mem_filter.mp (hcell ▸ List.mem_cons_self : (o, v) ∈ ls.filter _)
      simpa using hmem.2
    subst ho
    refine ⟨_, by rw [taken_options, hcell, List.map_singleton], ?_⟩
    have hlabel : "-MemoryCellInputFile:".toList ++ " ".toList =
        ConfigOption.memoryCellInputFile.label := append_of_ofList (by decide)
    rw [skipSpace_text]
    exact ⟨" ".toList ++ v, by rw [ConfigLine.text, ← List.append_assoc, hlabel]⟩
  case unforced =>
    intro l hl
    rcases List.mem_append.mp hl with hl | hl
    · obtain ⟨l', hl', rfl⟩ := List.mem_map.mp hl
      rw [skipSpace_text]
      exact hforce l' hl'
    · rw [List.mem_singleton.mp hl]
      decide

theorem values_eDRAM : ∀ l ∈ eDRAMOptions, '\n' ∉ l.2 := by
  simp only [eDRAMOptions, List.forall_mem_cons]
  decide

theorem configTemplate_eDRAM : ConfigTemplate eDRAMTemplate :=
  configTemplate_of_options values_eDRAM (.capacityKB, "128".toList)
    (.memoryCellInputFile, "sample_2D_eDRAM.cell".toList) (by decide) (by decide) (by decide)
    (by decide)

theorem documented_workHost : workHost.Documented where
  absolute p := by
    show ∃ q, join "/work".toList p = '/' :: q
    unfold join
    split
    · next h =>
      obtain ⟨q, hq⟩ := List.head?_eq_some_iff.mp h
      exact ⟨q, hq⟩
    · split
      · exact ⟨"work".toList ++ p, rfl⟩
      · exact ⟨"work".toList ++ '/' :: p, rfl⟩
  keeps u v hu := by
    show (if '\\' ∈ u ++ v then none else some (u ++ v)) =
      (if '\\' ∈ v then none else some v).map (u ++ ·)
    by_cases hv : '\\' ∈ v
    · rw [if_pos hv, if_pos (List.mem_append_right u hv)]
      rfl
    · rw [if_neg hv, if_neg (by rw [List.mem_append, not_or]; exact ⟨hu, hv⟩)]
      rfl
  shortens v w h := by
    have hexpand : (if '\\' ∈ v then none else some v) = some w := h
    split at hexpand
    · cases hexpand
    · exact .inl (Option.some.inj hexpand).symm

/-- The claim fails. -/
theorem sweep_point_lost_eDRAM :
    workHost.Documented ∧ ConfigTemplate eDRAMTemplate ∧
      (∃ built, build_simulation_args crossbarScripts explorationLists .eDRAM
        [SyntheticCell.filename ⟨0, 45⟩] "synthetic_cells/eDRAM".toList eDRAMTemplate [] [] =
          some built ∧ eDRAMJob.args crossbarScripts .eDRAM "synthetic_cells/eDRAM".toList
            eDRAMTemplate [] [] ∈ built.1) ∧
      ¬ eDRAMJob.Faithful crossbarScripts .eDRAM "synthetic_cells/eDRAM".toList eDRAMTemplate
        [] [] workHost := by
  refine ⟨documented_workHost, configTemplate_eDRAM,
    ⟨_, if_pos (by decide +kernel), List.mem_map_of_mem eDRAMJob_mem⟩, ?_⟩
  rintro ⟨text, htext, hfaithful⟩
  obtain ⟨text', htext', hread⟩ := read_config crossbarScripts .eDRAM eDRAMJob
    "synthetic_cells/eDRAM".toList [] [] workHost template_eDRAM
    ⟨word_eDRAMJob.1.newline_not_mem, word_eDRAMJob.2⟩ (inserted_of_all (by decide))
  obtain rfl := Option.some.inj (htext.symm.trans htext')
  obtain ⟨rounds, s', hrun, hgiven⟩ := hfaithful [] default
  obtain ⟨rounds', hrun'⟩ := hread [] default
  obtain ⟨-, hroadmap⟩ := simulated_of_template crossbarScripts .eDRAM eDRAMJob template_eDRAM
    (join "synthetic_cells/eDRAM".toList eDRAMJob.cell_file)
    (eDRAMJob.cellPath "synthetic_cells/eDRAM".toList workHost) default
    ⟨by decide, by decide, by decide⟩ word_eDRAMJob.1
    (isWord_of_all (by decide) (by decide))
  rw [← lineLoop_unique hrun hrun'] at hroadmap
  have hlost := hgiven.roadmap
  rw [hroadmap] at hlost
  exact absurd hlost (by decide)

/-- The first SRAM job of the sweep. -/
def sramJob : JobPoint where
  cell_file := SyntheticCell.filename ⟨0, 45⟩
  cap_kb := 2
  stacked := 1
  temperature := 300
  assoc := 4
  ww_bits := 64
  option := .layout 0 ⟨1, 1, 1, 1, 1, 1⟩
  roadmap := "HP".toList

theorem sramJob_mem : sramJob ∈ jobPoints crossbarScripts explorationLists .SRAM
    "synthetic_cells/SRAM".toList [SyntheticCell.filename ⟨0, 45⟩] := by
  refine List.mem_flatMap.mpr ⟨_, List.mem_cons_self, List.mem_flatMap.mpr ⟨2, by decide,
    List.mem_flatMap.mpr ⟨1, by decide, List.mem_flatMap.mpr ⟨300, by decide, ?_⟩⟩⟩⟩
  exact List.mem_flatMap.mpr ⟨4, by decide, List.mem_flatMap.mpr ⟨64, by decide,
    List.mem_flatMap.mpr ⟨(⟨1, 1, 1, 1, 1, 1⟩, 0), List.mem_cons_self, List.mem_cons_self⟩⟩⟩

theorem conveyed_sramJob : sramJob.Conveyed crossbarScripts .SRAM "synthetic_cells/SRAM".toList
    eDRAMTemplate workHost where
  known := by decide
  word := isWord_of_all (by decide +kernel) (by decide +kernel)
  verbatim := workHost.expand_plain _ (by decide +kernel)
  first := ⟨_, rfl, by decide +kernel, by decide +kernel, by decide +kernel⟩
  settled := by
    rw [eDRAMTemplate, activeLines_options values_eDRAM]
    refine ⟨⟨.HP, by decide +kernel, rfl⟩, fun n hn => ?_, fun on h => by cases h⟩
    exact settled_options _ (mem_sweepParams_of_override (numbers_mem_overrideParams hn)) n.2
      eDRAMOptions

/-- On the same template the first SRAM job arrives. -/
theorem sweep_point_faithful_iff_sram :
    sramJob.Faithful crossbarScripts .SRAM "synthetic_cells/SRAM".toList eDRAMTemplate [] []
      workHost :=
  (sweep_point_faithful_iff (fun _ => crossbarCell)
    (fun _ => [⟨1, 1, 1, 1, 1, 1⟩, ⟨2, 1, 1, 1, 1, 1⟩]) .SRAM [SyntheticCell.filename ⟨0, 45⟩]
    "synthetic_cells/SRAM".toList eDRAMTemplate [] [] workHost documented_workHost
    configTemplate_eDRAM (if_pos (by decide +kernel)) sramJob sramJob_mem).2 conveyed_sramJob

end Destiny.Sweep
