/-
  Destiny.Sweep.Stems

  Distinct jobs write distinct files.

  * a generated cell name yields its index and node (`SyntheticCell.variant_inj`,
    `extract_process_node_filename`);
  * a suffix yields its numbers from the right, a stem the rest from the left
    (`stem_inj`);
  * the loop nest repeats no job (`nodup_jobPoints`), so
    `jobs_share_no_file` holds for every run, and a file the resume test finds
    is of the job with the same parameters.
-/

import Destiny.Sweep.Jobs

namespace Destiny.Sweep

open Lib

/-! ## Cell names -/

theorem ne_of_mem {s : List Char} {x c : Char} (hall : s.all (· != c) = true) (hx : x ∈ s) :
    x ≠ c :=
  bne_iff_ne.mp (List.all_eq_true.mp hall x hx)

namespace SyntheticCell

/-- The process node and the index, from the right and from the left. -/
theorem variant_inj {c d : SyntheticCell} (h : c.variant = d.variant) : c = d := by
  unfold variant at h
  obtain ⟨hfront, hnode⟩ := append_integer_inj (by decide) h
  have hi := integer_injective (List.append_cancel_left hfront)
  obtain ⟨i, node⟩ := c
  obtain ⟨j, node'⟩ := d
  rw [mk.injEq]
  exact ⟨Int.ofNat.inj hi, Int.ofNat.inj hnode⟩

theorem filename_inj {c d : SyntheticCell} (h : c.filename = d.filename) : c = d :=
  variant_inj (List.append_cancel_right h)

theorem not_dot_of_mem_variant {c : SyntheticCell} {x : Char} (h : x ∈ c.variant) : x ≠ '.' := by
  have hinteger {z : ℤ} (hx : x ∈ integer z) : x ≠ '.' := by
    rintro rfl
    exact absurd (isNumeral_of_mem_integer hx) (by decide)
  unfold variant at h
  rcases List.mem_append.mp h with h | hx
  · rcases List.mem_append.mp h with h | hx
    · rcases List.mem_append.mp h with hx | hx
      · exact ne_of_mem (by decide) hx
      · exact hinteger hx
    · exact ne_of_mem (by decide) hx
  · exact hinteger hx

/-- The part before the first dot is the name without its extension. -/
theorem variantName_filename (c : SyntheticCell) : variantName c.filename = c.variant := by
  have hall : ∀ x ∈ c.variant, decide (x ≠ '.') = true := fun x hx =>
    decide_eq_true (not_dot_of_mem_variant hx)
  unfold variantName filename
  rw [List.takeWhile_append_of_pos hall]
  exact List.append_nil _

/-- The node in the name is found again. -/
theorem extract_process_node_filename (c : SyntheticCell) :
    extract_process_node c.filename = some c.process_node := by
  have hdigits : integer c.process_node = Nat.toDigits 10 c.process_node := by
    rw [integer, if_neg (by omega), Int.natAbs_natCast]
  have hstem : (c.filename.take (c.filename.length - 5)).reverse =
      (Nat.toDigits 10 c.process_node).reverse ++
        ("synthetic_variant_".toList ++ integer c.i ++ "_n".toList).reverse := by
    have hextension : ".cell".toList.length = 5 := by decide
    have hlength : c.filename.length - 5 = c.variant.length := by
      unfold filename
      rw [List.length_append, hextension, Nat.add_sub_cancel]
    rw [hlength]
    unfold filename variant
    rw [List.take_left, hdigits, List.reverse_append]
  -- read from the end, the digits of the node stop at the n in front of them
  have hall : ∀ x ∈ (Nat.toDigits 10 c.process_node).reverse, x.isDigit = true := fun x hx =>
    Nat.isDigit_of_mem_toDigits (by decide) (by decide) (List.mem_reverse.mp hx)
  have hrest : ("synthetic_variant_".toList ++ integer c.i ++ "_n".toList).reverse =
      'n' :: '_' :: ("synthetic_variant_".toList ++ integer c.i).reverse := by
    rw [List.reverse_append]
    rfl
  have hsuffix : ".cell".toList <:+ c.filename := List.suffix_append _ _
  unfold extract_process_node
  rw [if_pos hsuffix]
  simp only [hstem, List.takeWhile_append_of_pos hall, List.dropWhile_append_of_pos hall]
  have htake : (("synthetic_variant_".toList ++ integer c.i ++ "_n".toList).reverse).takeWhile
      Char.isDigit = [] := by rw [hrest]; rfl
  have hdrop : (("synthetic_variant_".toList ++ integer c.i ++ "_n".toList).reverse).dropWhile
      Char.isDigit = ("synthetic_variant_".toList ++ integer c.i ++ "_n".toList).reverse := by
    rw [hrest]
    rfl
  rw [htake, hdrop, List.append_nil, List.reverse_reverse, List.reverse_reverse,
    Nat.ofDigitChars_ten_toDigits, if_pos ⟨Nat.toDigits_ne_nil, List.suffix_append _ _⟩]

end SyntheticCell

/-! ## Stems -/

section
variable {x y : List Char}

/-- The suffix of a job with a layout, from the right. -/
theorem layout_suffix_inj {ww a s t ww' a' s' t' : ℤ} {li li' : ℕ}
    (h : x ++ ("_ww".toList ++ integer ww ++ "_a".toList ++ integer a ++ "_s".toList ++ integer s ++
        "_t".toList ++ integer t ++ "_l".toList ++ integer li) =
      y ++ ("_ww".toList ++ integer ww' ++ "_a".toList ++ integer a' ++ "_s".toList ++ integer s' ++
        "_t".toList ++ integer t' ++ "_l".toList ++ integer li')) :
    x = y ∧ ww = ww' ∧ a = a' ∧ s = s' ∧ t = t' ∧ li = li' := by
  simp only [← List.append_assoc] at h
  obtain ⟨h, hli⟩ := append_integer_inj (by decide) h
  obtain ⟨h, ht⟩ := append_integer_inj (by decide) h
  obtain ⟨h, hs⟩ := append_integer_inj (by decide) h
  obtain ⟨h, ha⟩ := append_integer_inj (by decide) h
  obtain ⟨h, hww⟩ := append_integer_inj (by decide) h
  exact ⟨h, hww, ha, hs, ht, Int.ofNat.inj hli⟩

/-- The suffix of a job with a sensing mode, from the right. -/
theorem sensing_suffix_inj {ww a s t ww' a' s' t' : ℤ} {on on' : Bool}
    (h : x ++ ("_ww".toList ++ integer ww ++ "_sens".toList ++ [if on then 'T' else 'F'] ++
        "_a".toList ++ integer a ++ "_s".toList ++ integer s ++ "_t".toList ++ integer t) =
      y ++ ("_ww".toList ++ integer ww' ++ "_sens".toList ++ [if on' then 'T' else 'F'] ++
        "_a".toList ++ integer a' ++ "_s".toList ++ integer s' ++ "_t".toList ++ integer t')) :
    x = y ∧ ww = ww' ∧ on = on' ∧ a = a' ∧ s = s' ∧ t = t' := by
  simp only [← List.append_assoc] at h
  obtain ⟨h, ht⟩ := append_integer_inj (by decide) h
  obtain ⟨h, hs⟩ := append_integer_inj (by decide) h
  obtain ⟨h, ha⟩ := append_integer_inj (by decide) h
  obtain ⟨h, hmode⟩ := List.append_inj' h rfl
  obtain ⟨h, hww⟩ := append_integer_inj (by decide) (List.append_cancel_right h)
  have hon : on = on' := by
    cases on <;> cases on' <;> first | rfl | exact absurd hmode (by decide)
  exact ⟨h, hww, hon, ha, hs, ht⟩

/-- The stem before its suffix, from the left; the roadmap is what remains. -/
theorem stem_prefix_inj {c d : SyntheticCell} {cap cap' : ℤ} {rm rm' : List Char}
    (h : c.variant ++ "_cap_".toList ++ integer cap ++ "_rm_".toList ++ rm =
      d.variant ++ "_cap_".toList ++ integer cap' ++ "_rm_".toList ++ rm') :
    c = d ∧ cap = cap' ∧ rm = rm' := by
  unfold SyntheticCell.variant at h
  simp only [List.append_assoc] at h
  obtain ⟨hi, h⟩ := integer_append_inj (by decide) (List.append_cancel_left h)
  obtain ⟨hnode, h⟩ := integer_append_inj (by decide) h
  obtain ⟨hcap, hrm⟩ := integer_append_inj (by decide) h
  refine ⟨?_, hcap, hrm⟩
  obtain ⟨i, node⟩ := c
  obtain ⟨j, node'⟩ := d
  rw [SyntheticCell.mk.injEq]
  exact ⟨Int.ofNat.inj hi, Int.ofNat.inj hnode⟩

end

/-! ## The loop nest -/

/-- The lists of a sweep have no repetition. -/
structure SweepLists.Distinct {P : Type} (scripts : Scripts P) (l : SweepLists) : Prop where
  capacities : l.CAPACITY_SWEEP_KB.Nodup
  stack_counts : l.STACK_COUNTS.Nodup
  associativities : l.ASSOCIATIVITIES.Nodup
  temperatures : ∀ m s ts, l.TEMPERATURE_MAP m s = some ts → ts.Nodup
  roadmaps : ∀ m rs, l.ROADMAPS m = some rs → rs.Nodup
  word_widths : ∀ cap, (l.capacity_bucket_word_widths cap).Nodup
  sensing_options : ∀ c, (scripts.rram_internal_sensing_options c).Nodup

section
variable {P : Type} {scripts : Scripts P} {l : SweepLists} {mem_type : MemType}
  {cell_dir cell_file : List Char} {cap_kb stacked temperature : ℤ}

theorem SweepLists.Distinct.nodup_temperatures (h : l.Distinct scripts) (m : MemType) (s : ℤ) :
    (l.temperatures m s).Nodup := by
  unfold SweepLists.temperatures
  cases ht : l.TEMPERATURE_MAP m s with
  | none => exact List.nodup_singleton _
  | some ts => exact h.temperatures m s ts ht

theorem SweepLists.Distinct.nodup_roadmaps (h : l.Distinct scripts) (m : MemType) :
    (l.roadmaps m).Nodup := by
  unfold SweepLists.roadmaps
  cases hr : l.ROADMAPS m with
  | none => exact List.nodup_singleton _
  | some rs => exact h.roadmaps m rs hr

/-- A job has the loop variables of the loops it comes from. -/
structure JobPoint.At (p : JobPoint) (cell_file : List Char) (cap_kb stacked temperature : ℤ) :
    Prop where
  cell_file : p.cell_file = cell_file
  cap_kb : p.cap_kb = cap_kb
  stacked : p.stacked = stacked
  temperature : p.temperature = temperature

/-- A layout is the one its seed and index give, and only RRAM varies the sensing
    mode. -/
def JobPoint.OptionOf (scripts : Scripts P) (mem_type : MemType) (p : JobPoint) : Prop :=
  match p.option with
  | .layout li layout => mem_type ≠ .RRAM ∧ (scripts.get_random_layouts
      (layoutSeed p.cell_file p.cap_kb p.ww_bits p.assoc))[li]? = some layout
  | .sensing _ => mem_type = .RRAM

theorem mem_layoutPoints {p : JobPoint} (hmem : mem_type ≠ .RRAM)
    (h : p ∈ layoutPoints scripts l mem_type cell_file cap_kb stacked temperature) :
    p.At cell_file cap_kb stacked temperature ∧ p.OptionOf scripts mem_type := by
  simp only [layoutPoints, List.mem_flatMap, List.mem_map] at h
  obtain ⟨assoc, -, ww_bits, -, layout, hlayout, roadmap, -, rfl⟩ := h
  exact ⟨⟨rfl, rfl, rfl, rfl⟩, hmem, List.mk_mem_zipIdx_iff_getElem?.mp hlayout⟩

theorem mem_sensingPoints {p : JobPoint}
    (h : p ∈ sensingPoints scripts l .RRAM cell_dir cell_file cap_kb stacked temperature) :
    p.At cell_file cap_kb stacked temperature ∧ p.OptionOf scripts .RRAM := by
  simp only [sensingPoints, List.mem_flatMap] at h
  obtain ⟨ww_bits, -, h⟩ := h
  split at h
  · cases h
  · split at h
    · cases h
    · simp only [List.mem_flatMap, List.mem_map] at h
      obtain ⟨sensing, -, assoc, -, roadmap, -, rfl⟩ := h
      exact ⟨⟨rfl, rfl, rfl, rfl⟩, rfl⟩

theorem mem_innerPoints {p : JobPoint}
    (h : p ∈ innerPoints scripts l mem_type cell_dir cell_file cap_kb stacked temperature) :
    p.At cell_file cap_kb stacked temperature ∧ p.OptionOf scripts mem_type := by
  cases mem_type with
  | SRAM => exact mem_layoutPoints (by decide) h
  | RRAM => exact mem_sensingPoints h
  | eDRAM => exact mem_layoutPoints (by decide) h

theorem mem_jobPoints {cells : List (List Char)} {p : JobPoint}
    (h : p ∈ jobPoints scripts l mem_type cell_dir cells) :
    p.cell_file ∈ cells ∧ p.OptionOf scripts mem_type := by
  simp only [jobPoints, List.mem_flatMap] at h
  obtain ⟨cell_file, hcell, cap_kb, -, stacked, -, temperature, -, hp⟩ := h
  obtain ⟨hat, hoption⟩ := mem_innerPoints hp
  exact ⟨by rw [hat.cell_file]; exact hcell, hoption⟩

/-- The innermost loop. -/
theorem nodup_roadmap_loop (hl : l.Distinct scripts) (f : List Char → JobPoint)
    (hf : ∀ roadmap, (f roadmap).roadmap = roadmap) : ((l.roadmaps mem_type).map f).Nodup := by
  refine (hl.nodup_roadmaps mem_type).map_on fun r _ r' _ heq => ?_
  rw [← hf r, heq, hf]

theorem nodup_layoutPoints (hl : l.Distinct scripts) :
    (layoutPoints scripts l mem_type cell_file cap_kb stacked temperature).Nodup := by
  unfold layoutPoints
  refine nodup_flatMap_of_key id JobPoint.assoc (by simpa using hl.associativities)
    (fun assoc _ => ?_) fun assoc _ p hp => ?_
  · refine nodup_flatMap_of_key id JobPoint.ww_bits (by simpa using hl.word_widths cap_kb)
      (fun ww_bits _ => ?_) fun ww_bits _ p hp => ?_
    · -- the layouts are numbered
      refine nodup_flatMap_of_key (fun layout => JobOption.layout layout.2 layout.1)
        JobPoint.option ?_ (fun layout _ => nodup_roadmap_loop hl _ fun _ => rfl)
        fun layout _ p hp => ?_
      · refine List.Nodup.map_on ?_ ?_
        · intro x _ y _ heq
          injection heq with hindex hlayout
          exact Prod.ext hlayout hindex
        · refine List.Nodup.of_map Prod.snd ?_
          rw [List.zipIdx_map_snd]
          exact List.nodup_range'
      · obtain ⟨roadmap, -, rfl⟩ := List.mem_map.mp hp
        rfl
    · simp only [List.mem_flatMap, List.mem_map] at hp
      obtain ⟨layout, -, roadmap, -, rfl⟩ := hp
      rfl
  · simp only [List.mem_flatMap, List.mem_map] at hp
    obtain ⟨ww_bits, -, layout, -, roadmap, -, rfl⟩ := hp
    rfl

theorem nodup_sensingPoints (hl : l.Distinct scripts) :
    (sensingPoints scripts l .RRAM cell_dir cell_file cap_kb stacked temperature).Nodup := by
  unfold sensingPoints
  refine nodup_flatMap_of_key id JobPoint.ww_bits (by simpa using hl.word_widths cap_kb)
    (fun ww_bits _ => ?_) fun ww_bits _ p hp => ?_
  · split
    · exact List.nodup_nil
    · split
      · exact List.nodup_nil
      · refine nodup_flatMap_of_key JobOption.sensing JobPoint.option ?_ (fun sensing _ => ?_)
          fun sensing _ p hp => ?_
        · exact (hl.sensing_options _).map fun _ _ heq => JobOption.sensing.inj heq
        · refine nodup_flatMap_of_key id JobPoint.assoc (by simpa using hl.associativities)
            (fun assoc _ => nodup_roadmap_loop hl _ fun _ => rfl) fun assoc _ p hp => ?_
          obtain ⟨roadmap, -, rfl⟩ := List.mem_map.mp hp
          rfl
        · simp only [List.mem_flatMap, List.mem_map] at hp
          obtain ⟨assoc, -, roadmap, -, rfl⟩ := hp
          rfl
  · split at hp
    · cases hp
    · split at hp
      · cases hp
      · simp only [List.mem_flatMap, List.mem_map] at hp
        obtain ⟨sensing, -, assoc, -, roadmap, -, rfl⟩ := hp
        rfl

theorem nodup_innerPoints (hl : l.Distinct scripts) :
    (innerPoints scripts l mem_type cell_dir cell_file cap_kb stacked temperature).Nodup := by
  cases mem_type with
  | SRAM => exact nodup_layoutPoints hl
  | RRAM => exact nodup_sensingPoints hl
  | eDRAM => exact nodup_layoutPoints hl

/-- The loop nest repeats no job. -/
theorem nodup_jobPoints {cells : List (List Char)} (hl : l.Distinct scripts)
    (hcells : cells.Nodup) :
    (jobPoints scripts l mem_type cell_dir cells).Nodup := by
  unfold jobPoints
  refine nodup_flatMap_of_key id JobPoint.cell_file (by simpa using hcells)
    (fun cell_file _ => ?_) fun cell_file _ p hp => ?_
  · refine nodup_flatMap_of_key id JobPoint.cap_kb (by simpa using hl.capacities)
      (fun cap_kb _ => ?_) fun cap_kb _ p hp => ?_
    · refine nodup_flatMap_of_key id JobPoint.stacked (by simpa using hl.stack_counts)
        (fun stacked _ => ?_) fun stacked _ p hp => ?_
      · exact nodup_flatMap_of_key id JobPoint.temperature
          (by simpa using hl.nodup_temperatures mem_type stacked)
          (fun temperature _ => nodup_innerPoints hl)
          fun temperature _ p hp => (mem_innerPoints hp).1.temperature
      · obtain ⟨temperature, -, hp⟩ := List.mem_flatMap.mp hp
        exact (mem_innerPoints hp).1.stacked
    · simp only [List.mem_flatMap] at hp
      obtain ⟨stacked, -, temperature, -, hp⟩ := hp
      exact (mem_innerPoints hp).1.cap_kb
  · simp only [List.mem_flatMap] at hp
    obtain ⟨cap_kb, -, stacked, -, temperature, -, hp⟩ := hp
    exact (mem_innerPoints hp).1.cell_file

/-! ## Equal stems -/

/-- The stem of the tuple of a job. -/
def JobPoint.stem (p : JobPoint) : List Char :=
  variantName p.cell_file ++ "_cap_".toList ++ integer p.cap_kb ++ "_rm_".toList ++ p.roadmap ++
    p.suffix

/-- A stem tells the job, in this run or in another one with the same scripts. -/
theorem stem_inj {p q : JobPoint} {c d : SyntheticCell} (hp : p.cell_file = c.filename)
    (hq : q.cell_file = d.filename) (hpo : p.OptionOf scripts mem_type)
    (hqo : q.OptionOf scripts mem_type) (h : p.stem = q.stem) : p = q := by
  unfold JobPoint.stem at h
  rw [hp, hq, SyntheticCell.variantName_filename, SyntheticCell.variantName_filename] at h
  obtain ⟨file, cap_kb, stacked, temperature, assoc, ww_bits, option, roadmap⟩ := p
  obtain ⟨file', cap_kb', stacked', temperature', assoc', ww_bits', option', roadmap'⟩ := q
  dsimp only at hp hq h
  cases option with
  | layout li layout =>
      cases option' with
      | layout li' layout' =>
          obtain ⟨hfront, rfl, rfl, rfl, rfl, rfl⟩ := layout_suffix_inj h
          obtain ⟨rfl, rfl, rfl⟩ := stem_prefix_inj hfront
          obtain rfl := hp.trans hq.symm
          -- the same index of the same sample
          have hlayout := hpo.2.symm.trans hqo.2
          rw [Option.some.inj hlayout]
      | sensing on => exact absurd hqo hpo.1
  | sensing on =>
      cases option' with
      | layout li layout => exact absurd hpo hqo.1
      | sensing on' =>
          obtain ⟨hfront, rfl, rfl, rfl, rfl, rfl⟩ := sensing_suffix_inj h
          obtain ⟨rfl, rfl, rfl⟩ := stem_prefix_inj hfront
          obtain rfl := hp.trans hq.symm
          rfl

/-! ## Paths -/

/-- A job of some run with these scripts. -/
def IsJob (scripts : Scripts P) (base_cfg_content : MemType → List Char) (a : SimulationArgs) :
    Prop :=
  ∃ (m : MemType) (p : JobPoint) (c : SyntheticCell), p.cell_file = c.filename ∧
    p.OptionOf scripts m ∧
    a = p.args scripts m ("synthetic_cells/".toList ++ m.name) (base_cfg_content m)
      (setup_temp_dir m) (setup_results_dir m)

theorem MemType.name_injective {m n : MemType} (h : m.name = n.name) : m = n := by
  cases m <;> cases n <;> first | rfl | exact absurd h (by decide)

theorem MemType.not_slash_of_mem_name {m : MemType} {x : Char} (h : x ∈ m.name) : x ≠ '/' :=
  ne_of_mem (by cases m <;> decide) h

/-- A path tells the memory type it passes through. -/
theorem path_inj {dir file file' : List Char} {m n : MemType}
    (h : dir ++ (m.name ++ '/' :: file) = dir ++ (n.name ++ '/' :: file')) :
    m = n ∧ file = file' := by
  have hslash (r : List Char) : ∀ c ∈ ('/' :: r).head?, ¬ c ≠ '/' := by
    intro c hc hne
    exact hne (Option.some.inj hc).symm
  obtain ⟨hname, hfile⟩ := run_append_inj (fun _ => MemType.not_slash_of_mem_name)
    (fun _ => MemType.not_slash_of_mem_name) (hslash file) (hslash file')
    (List.append_cancel_left h)
  exact ⟨MemType.name_injective hname, (List.cons.inj hfile).2⟩

/-- A file in the directory of a memory type. -/
theorem join_name {dir file : List Char} (m : MemType) (hfile : file.head? ≠ some '/') :
    join (dir ++ m.name) file = dir ++ (m.name ++ '/' :: file) := by
  have hlast : (dir ++ m.name).getLast? ≠ some '/' := by
    rw [List.getLast?_append]
    cases m <;> simp [MemType.name]
  have hne : dir ++ m.name ≠ [] := by
    cases m <;> simp [MemType.name]
  rw [join, if_neg hfile, if_neg (not_or.mpr ⟨hne, hlast⟩), List.append_assoc]

namespace IsJob
variable {base_cfg_content : MemType → List Char} {a : SimulationArgs}

/-- A file of a job does not start with a slash. -/
theorem head_stem (h : IsJob scripts base_cfg_content a) (extension : List Char) :
    (a.stem ++ extension).head? ≠ some '/' := by
  obtain ⟨m, p, c, hfile, -, rfl⟩ := h
  have hhead : c.variant.head? = some 's' := rfl
  have hstem : (p.args scripts m ("synthetic_cells/".toList ++ m.name) (base_cfg_content m)
      (setup_temp_dir m) (setup_results_dir m)).stem = p.stem := rfl
  rw [hstem]
  unfold JobPoint.stem
  rw [hfile, SyntheticCell.variantName_filename]
  simp [List.head?_append, hhead]

theorem temp_dir_eq (h : IsJob scripts base_cfg_content a) :
    a.temp_dir = setup_temp_dir a.mem_type := by
  obtain ⟨m, p, c, -, -, rfl⟩ := h
  rfl

theorem results_dir_eq (h : IsJob scripts base_cfg_content a) :
    a.results_dir = setup_results_dir a.mem_type := by
  obtain ⟨m, p, c, -, -, rfl⟩ := h
  rfl

theorem cfg_filepath_eq (h : IsJob scripts base_cfg_content a) :
    a.cfg_filepath = "/dev/shm/vjuricek_destiny_tmp/".toList ++
      (a.mem_type.name ++ '/' :: (a.stem ++ ".cfg".toList)) := by
  unfold SimulationArgs.cfg_filepath
  rw [h.temp_dir_eq]
  exact join_name a.mem_type (h.head_stem _)

theorem final_csv_eq (h : IsJob scripts base_cfg_content a) :
    a.final_csv = "exploration_results/".toList ++
      (a.mem_type.name ++ '/' :: (a.stem ++ ".csv".toList)) := by
  unfold SimulationArgs.final_csv
  rw [h.results_dir_eq]
  exact join_name a.mem_type (h.head_stem _)

theorem failed_marker_eq (h : IsJob scripts base_cfg_content a) :
    a.failed_marker = "failed_exploration/".toList ++
      (a.mem_type.name ++ '/' :: ("markers/".toList ++ (a.stem ++ ".done".toList))) := by
  have hdir (m : MemType) : join (join "failed_exploration".toList m.name) "markers".toList =
      "failed_exploration/".toList ++ (m.name ++ "/markers".toList) := by
    cases m <;> decide
  have hjoin (m : MemType) {file : List Char} (hfile : file.head? ≠ some '/') :
      join ("failed_exploration/".toList ++ (m.name ++ "/markers".toList)) file =
        "failed_exploration/".toList ++ (m.name ++ "/markers".toList) ++ '/' :: file := by
    rw [join, if_neg hfile, if_neg (by cases m <;> decide)]
  unfold SimulationArgs.failed_marker
  rw [hdir, hjoin _ (h.head_stem _), List.append_assoc, List.append_assoc]
  rfl

/-- The memory type and the stem tell the job. -/
theorem same_parameters {base_cfg_content' : MemType → List Char} {b : SimulationArgs}
    (ha : IsJob scripts base_cfg_content a) (hb : IsJob scripts base_cfg_content' b)
    (hmem : a.mem_type = b.mem_type) (hstem : a.stem = b.stem) :
    { b with base_cfg_content := a.base_cfg_content } = a := by
  obtain ⟨m, p, c, hp, hpo, rfl⟩ := ha
  obtain ⟨n, q, d, hq, hqo, rfl⟩ := hb
  obtain rfl : m = n := hmem
  obtain rfl : p = q := stem_inj hp hq hpo hqo hstem
  rfl

/-- So does any of the three files. -/
theorem same_parameters_of_file {base_cfg_content' : MemType → List Char} {b : SimulationArgs}
    (ha : IsJob scripts base_cfg_content a) (hb : IsJob scripts base_cfg_content' b)
    (h : a.cfg_filepath = b.cfg_filepath ∨ a.final_csv = b.final_csv ∨
      a.failed_marker = b.failed_marker) :
    { b with base_cfg_content := a.base_cfg_content } = a := by
  rcases h with h | h | h
  · rw [ha.cfg_filepath_eq, hb.cfg_filepath_eq] at h
    obtain ⟨hmem, hfile⟩ := path_inj h
    exact ha.same_parameters hb hmem (List.append_cancel_right hfile)
  · rw [ha.final_csv_eq, hb.final_csv_eq] at h
    obtain ⟨hmem, hfile⟩ := path_inj h
    exact ha.same_parameters hb hmem (List.append_cancel_right hfile)
  · rw [ha.failed_marker_eq, hb.failed_marker_eq] at h
    obtain ⟨hmem, hfile⟩ := path_inj h
    exact ha.same_parameters hb hmem (List.append_cancel_right (List.append_cancel_left hfile))

/-- The base config is the memory type's. -/
theorem eq_of_file {b : SimulationArgs} (ha : IsJob scripts base_cfg_content a)
    (hb : IsJob scripts base_cfg_content b)
    (h : a.cfg_filepath = b.cfg_filepath ∨ a.final_csv = b.final_csv ∨
      a.failed_marker = b.failed_marker) : a = b := by
  have hsame := ha.same_parameters_of_file hb h
  have hbase : b.base_cfg_content = a.base_cfg_content := by
    have hmem := congrArg SimulationArgs.mem_type hsame
    obtain ⟨m, p, c, -, -, rfl⟩ := ha
    obtain ⟨n, q, d, -, -, rfl⟩ := hb
    exact congrArg base_cfg_content hmem
  rw [← hsame, ← hbase]

end IsJob

/-! ## Runs -/

section
variable {cells : MemType → List SyntheticCell} {base_cfg_content : MemType → List Char}

variable (scripts l mem_type cell_dir) in
/-- A build over generated cells succeeds. -/
theorem build_eq_some (cs : List SyntheticCell) (base temp results : List Char) :
    ∃ rejected, build_simulation_args scripts l mem_type (cs.map SyntheticCell.filename) cell_dir
        base temp results =
      some ((jobPoints scripts l mem_type cell_dir (cs.map SyntheticCell.filename)).map
        (JobPoint.args scripts mem_type cell_dir base temp results), rejected) := by
  have hnodes : ((cs.map SyntheticCell.filename).all fun cell_file =>
      (extract_process_node cell_file).isSome) = true := by
    rw [List.all_eq_true]
    intro cell_file hmem
    obtain ⟨c, -, rfl⟩ := List.mem_map.mp hmem
    rw [c.extract_process_node_filename]
    rfl
  exact ⟨_, by rw [build_simulation_args, if_pos hnodes]⟩

/-- Its stems are pairwise distinct. -/
theorem nodup_stems (hl : l.Distinct scripts) {cs : List SyntheticCell} (hcs : cs.Nodup)
    (base temp results : List Char) :
    (((jobPoints scripts l mem_type cell_dir (cs.map SyntheticCell.filename)).map
      (JobPoint.args scripts mem_type cell_dir base temp results)).map
        SimulationArgs.stem).Nodup := by
  rw [List.map_map]
  refine (nodup_jobPoints hl (hcs.map fun _ _ => SyntheticCell.filename_inj)).map_on ?_
  intro p hp q hq h
  obtain ⟨hpcell, hpo⟩ := mem_jobPoints hp
  obtain ⟨hqcell, hqo⟩ := mem_jobPoints hq
  obtain ⟨c, -, hc⟩ := List.mem_map.mp hpcell
  obtain ⟨d, -, hd⟩ := List.mem_map.mp hqcell
  exact stem_inj hc.symm hd.symm hpo hqo h

/-- The jobs of a memory type in a run. -/
def jobsOf (scripts : Scripts P) (l : SweepLists) (cells : MemType → List SyntheticCell)
    (base_cfg_content : MemType → List Char) (m : MemType) : List SimulationArgs :=
  (jobPoints scripts l m ("synthetic_cells/".toList ++ m.name)
    ((cells m).map SyntheticCell.filename)).map
      (JobPoint.args scripts m ("synthetic_cells/".toList ++ m.name) (base_cfg_content m)
        (setup_temp_dir m) (setup_results_dir m))

theorem isJob_of_mem_jobsOf {m : MemType} {a : SimulationArgs}
    (h : a ∈ jobsOf scripts l cells base_cfg_content m) : IsJob scripts base_cfg_content a := by
  obtain ⟨p, hp, rfl⟩ := List.mem_map.mp h
  obtain ⟨hcell, hoption⟩ := mem_jobPoints hp
  obtain ⟨c, -, hc⟩ := List.mem_map.mp hcell
  exact ⟨m, p, c, hc.symm, hoption, rfl⟩

theorem runArgs_eq (mem_techs : List MemType) :
    runArgs scripts l (fun m => (cells m).map SyntheticCell.filename) base_cfg_content mem_techs =
      some (mem_techs.flatMap (jobsOf scripts l cells base_cfg_content)) := by
  have hcollect : collect_simulations scripts l (fun m => (cells m).map SyntheticCell.filename)
      base_cfg_content = fun m => pure (jobsOf scripts l cells base_cfg_content m) := by
    funext m
    obtain ⟨rejected, hbuild⟩ := build_eq_some scripts l m ("synthetic_cells/".toList ++ m.name)
      (cells m) (base_cfg_content m) (setup_temp_dir m) (setup_results_dir m)
    rw [collect_simulations, hbuild]
    rfl
  rw [runArgs, hcollect, List.mapM_pure]
  rfl

variable (base_cfg_content) in
theorem nodup_run (hl : l.Distinct scripts) (hcells : ∀ m, (cells m).Nodup)
    {mem_techs : List MemType} (hmems : mem_techs.Nodup) :
    (mem_techs.flatMap (jobsOf scripts l cells base_cfg_content)).Nodup := by
  refine nodup_flatMap_of_key id SimulationArgs.mem_type (by simpa using hmems)
    (fun m _ => List.Nodup.of_map _ (nodup_stems hl (hcells m) _ _ _)) fun m _ a ha => ?_
  obtain ⟨p, -, rfl⟩ := List.mem_map.mp ha
  rfl

end

end

/-- No two jobs of a run share a file: the stems of every build are distinct, and
    so are the temporary configs, the results and the markers of a run over any
    memory types.  A file of another run, over any lists and cells, is of a job
    with the same parameters. -/
theorem jobs_share_no_file {P : Type} (scripts : Scripts P) (l : SweepLists)
    (hl : l.Distinct scripts) (cells : MemType → List SyntheticCell)
    (hcells : ∀ m, (cells m).Nodup) (base_cfg_content : MemType → List Char) :
    (∀ m cell_dir base temp_dir results_dir, ∃ args rejected,
      build_simulation_args scripts l m ((cells m).map SyntheticCell.filename) cell_dir base
        temp_dir results_dir = some (args, rejected) ∧ (args.map SimulationArgs.stem).Nodup) ∧
    ∀ mem_techs : List MemType, mem_techs.Nodup → ∃ args,
      runArgs scripts l (fun m => (cells m).map SyntheticCell.filename) base_cfg_content
        mem_techs = some args ∧
      (args.map SimulationArgs.cfg_filepath).Nodup ∧ (args.map SimulationArgs.final_csv).Nodup ∧
      (args.map SimulationArgs.failed_marker).Nodup ∧
      ∀ (l' : SweepLists) (cells' : MemType → List SyntheticCell) base_cfg_content' mem_techs'
        args',
        runArgs scripts l' (fun m => (cells' m).map SyntheticCell.filename) base_cfg_content'
          mem_techs' = some args' →
        ∀ a ∈ args, ∀ b ∈ args', a.final_csv = b.final_csv ∨ a.failed_marker = b.failed_marker →
          { b with base_cfg_content := a.base_cfg_content } = a := by
  refine ⟨fun m cell_dir base temp_dir results_dir => ?_, fun mem_techs hmems => ?_⟩
  · obtain ⟨rejected, hbuild⟩ := build_eq_some scripts l m cell_dir (cells m) base temp_dir
      results_dir
    exact ⟨_, rejected, hbuild, nodup_stems hl (hcells m) base temp_dir results_dir⟩
  · have hjob {a : SimulationArgs}
        (ha : a ∈ mem_techs.flatMap (jobsOf scripts l cells base_cfg_content)) :
        IsJob scripts base_cfg_content a := by
      obtain ⟨m, -, hm⟩ := List.mem_flatMap.mp ha
      exact isJob_of_mem_jobsOf hm
    have hnodup := nodup_run base_cfg_content hl hcells hmems
    refine ⟨_, runArgs_eq mem_techs, ?_, ?_, ?_, ?_⟩
    · exact hnodup.map_on fun a ha b hb h => (hjob ha).eq_of_file (hjob hb) (.inl h)
    · exact hnodup.map_on fun a ha b hb h => (hjob ha).eq_of_file (hjob hb) (.inr (.inl h))
    · exact hnodup.map_on fun a ha b hb h => (hjob ha).eq_of_file (hjob hb) (.inr (.inr h))
    · intro l' cells' base_cfg_content' mem_techs' args' hargs' a ha b hb h
      rw [runArgs_eq] at hargs'
      obtain rfl := Option.some.inj hargs'
      obtain ⟨m, -, hm⟩ := List.mem_flatMap.mp hb
      exact (hjob ha).same_parameters_of_file (isJob_of_mem_jobsOf hm) (.inr h)

/-! ## The sweep of the scripts -/

theorem explorationLists_distinct (parse : List Char → CellParams)
    (layouts : List Char → List Layout) :
    explorationLists.Distinct (explorationScripts parse layouts) where
  capacities := by decide
  stack_counts := by decide
  associativities := by decide
  temperatures := by
    intro m s ts h
    change TEMPERATURE_MAP m s = some ts at h
    unfold TEMPERATURE_MAP at h
    split at h <;> cases h <;> exact List.nodup_singleton _
  roadmaps := by
    intro m rs h
    cases m <;> cases h <;> decide
  word_widths := by
    intro cap
    show (capacity_bucket_word_widths cap).Nodup
    unfold capacity_bucket_word_widths
    split
    · decide
    · split <;> decide
  sensing_options := by
    intro cell
    show (rram_internal_sensing_options cell).Nodup
    unfold rram_internal_sensing_options
    cases cell.ratio with
    | none => decide
    | some ratio =>
        dsimp only
        split
        · decide
        · split <;> decide

/-- A crossbar cell with a resistance ratio of 500. -/
def crossbarCell : CellParams where
  hasAccess := false
  ResistanceOnAtHalfResetVoltage := 12000
  ResistanceOffAtReadVoltage := 5000000
  ResistanceOnAtSetVoltage := 10000
  ratio := some 500
  RetentionTime := 20
  half_reset_pos := by decide

/-- The scripts' functions, with two layouts for each design point. -/
def crossbarScripts : Scripts CellParams :=
  explorationScripts (fun _ => crossbarCell) fun _ => [⟨1, 1, 1, 1, 1, 1⟩, ⟨2, 1, 1, 1, 1, 1⟩]

/-- Two variants of every memory type. -/
theorem jobs_share_no_file_two_variants :
    (∃ args rejected, build_simulation_args crossbarScripts explorationLists .RRAM
        ([⟨0, 32⟩, ⟨1, 32⟩].map SyntheticCell.filename) [] [] [] [] = some (args, rejected) ∧
      (args.map SimulationArgs.stem).Nodup) ∧
    ∃ args, runArgs crossbarScripts explorationLists
        (fun _ => [⟨0, 32⟩, ⟨1, 32⟩].map SyntheticCell.filename) (fun _ => [])
        [.SRAM, .RRAM, .eDRAM] = some args ∧
      (args.map SimulationArgs.cfg_filepath).Nodup ∧ (args.map SimulationArgs.final_csv).Nodup := by
  have h := jobs_share_no_file crossbarScripts explorationLists (explorationLists_distinct _ _)
    (fun _ => [⟨0, 32⟩, ⟨1, 32⟩]) (fun _ => by decide) (fun _ => [])
  obtain ⟨args, hargs, hcfg, hcsv, -⟩ := h.2 [.SRAM, .RRAM, .eDRAM] (by decide)
  exact ⟨h.1 .RRAM [] [] [] [], args, hargs, hcfg, hcsv⟩

end Destiny.Sweep
