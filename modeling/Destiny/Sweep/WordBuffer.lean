/-
  Destiny.Sweep.WordBuffer

  The words of a configuration.  Every branch of the reader that scans a word scans it into
  the one buffer `tmp`, so a line whose scan fails takes the word of an earlier line.

  * `scratch` is a line as one of the options sees it, and `foldl_scratch` the reader as a
    run of scans.
  * `behind` looks at a line through the replacements of `run_single_simulation`
    (`filterMap_foldl_behind`).
  * `scratch_overriddenLines` says what an option sees of the lines of a job.
  * `scratchAt` is the look at a line of the template, whose cell file is replaced by that
    of the job; the free substitutions do not change it (`blind_behind_scratchAt`).
-/

import Destiny.Lib.Scratch
import Destiny.Sweep.JobLines
import Destiny.Sweep.Standing

namespace Destiny.Sweep

open Lib

/-! ## The buffer of words -/

/-- The branches that scan a word, all into one buffer. -/
def scansWord : ConfigOption → Bool
  | .designTarget | .optimizationTarget | .outputFilePrefix | .deviceRoadmap | .writeScheme
  | .cacheAccessMode | .localWireType | .localWireRepeaterType | .localWireUseLowSwing
  | .globalWireType | .globalWireRepeaterType | .globalWireUseLowSwing | .tagLocalWireType
  | .tagLocalWireRepeaterType | .tagLocalWireUseLowSwing | .tagGlobalWireType
  | .tagGlobalWireRepeaterType | .tagGlobalWireUseLowSwing | .routing | .internalSensing
  | .memoryCellInputFile | .useCactiAssumption | .enablePruning | .bufferDesignOptimization
  | .tagBufferDesignOptimization | .printAllOptimals | .allowDifferentTagTech => true
  | _ => false

theorem read_tmp_eq (o : ConfigOption) (l : List Char) (s : ConfigReader) :
    (o.read l s).tmp = if scansWord o then sscanfWord o.label l s.tmp else s.tmp := by
  cases o <;> rfl

section
variable {V : Type} (o : ConfigOption) (d : List Char → V)

/-- A line, as an option sees it. -/
def scratch (l : List Char) : Option (Scratch V) :=
  (optionOf l).bind fun o' =>
    if o' = o then some (.own ((wordIn o l).map d))
    else if scansWord o' then (wordIn o' l).map fun w => .other (d w)
    else none

/-- What the last line of an option says of it, as a look sees the lines. -/
def lastSaid {V : Type} (W : List Char → Option (Scratch V)) (ls : List (List Char)) :
    Option V :=
  lastOwn (ls.filterMap W).reverse

/-- The reader is a run of scans. -/
theorem foldl_scratch {f : ConfigReader → V} (hfield : WrittenBy f [o]) (ho : scansWord o = true)
    (hread : ∀ l s, f (o.read l s) = d (sscanfWord o.label l s.tmp)) (ls : List (List Char))
    (s : ConfigReader) : (d (ls.foldl readSkipped s).tmp, f (ls.foldl readSkipped s)) =
      (ls.filterMap (scratch o d)).foldl Scratch.step (d s.tmp, f s) := by
  have hword (o : ConfigOption) (l : List Char) (s : ConfigReader) :
      sscanfWord o.label (skipSpace l) s.tmp = (wordIn o l).getD s.tmp := by
    unfold sscanfWord wordIn
    cases (scanLiteral o.label (skipSpace l)).bind scanWord <;> rfl
  induction ls using List.reverseRecOn with
  | nil => rfl
  | append_singleton ls l ih =>
      rw [List.foldl_append, List.foldl_cons, List.foldl_nil, List.filterMap_append,
        List.foldl_append, ← ih]
      generalize ls.foldl readSkipped s = s₁
      unfold scratch
      cases hl : optionOf l with
      | none =>
          rw [readSkipped_of_none hl]
          simp [hl]
      | some o' =>
          rw [readSkipped_of_some hl, read_tmp_eq]
          -- its own branch stores the word, another one only leaves it in the buffer
          by_cases hown : o' = o
          · subst hown
            rw [hread, if_pos ho, hword]
            cases hw : wordIn o' l <;> simp [hl, hw, Scratch.step]
          · rw [hfield o' (by simpa using hown)]
            cases hscans : scansWord o' with
            | false => simp [hl, hown, hscans]
            | true =>
                rw [if_pos rfl, hword]
                cases hw : wordIn o' l <;> simp [hl, hown, hscans, hw, Scratch.step]

end

section
variable {V : Type} {o : ConfigOption} {d : List Char → V} {f : ConfigReader → V}

/-- From every state a field ends with a value of the kind exactly when the last line of its
    option says one. -/
theorem foldl_own_iff (hfield : WrittenBy f [o]) (ho : scansWord o = true)
    (hread : ∀ l s, f (o.read l s) = d (sscanfWord o.label l s.tmp)) (ls : List (List Char))
    (Q : V → Prop) (s₀ : ConfigReader) (htmp : ¬ Q (d s₀.tmp)) (hown : ¬ Q (f s₀)) :
    (∀ s, Q (f (ls.foldl readSkipped s))) ↔
      ∃ v, lastSaid (scratch o d) ls = some v ∧ Q v := by
  have hfold (s : ConfigReader) : f (ls.foldl readSkipped s) =
      ((ls.filterMap (scratch o d)).foldl Scratch.step (d s.tmp, f s)).2 :=
    congrArg Prod.snd (foldl_scratch o d hfield ho hread ls s)
  have hstep (s : ConfigReader) := foldl_step_own (ls.filterMap (scratch o d)) (d s.tmp) (f s)
  constructor
  · intro hall
    have h₀ := hall s₀
    rw [hfold] at h₀
    cases hlast : lastSaid (scratch o d) ls with
    | none =>
        rcases (hstep s₀).2 hlast with h | h
        · exact absurd (h ▸ h₀) htmp
        · exact absurd (h ▸ h₀) hown
    | some v =>
        rw [(hstep s₀).1 v hlast] at h₀
        exact ⟨v, rfl, h₀⟩
  · rintro ⟨v, hlast, hv⟩ s
    rwa [hfold, (hstep s).1 v hlast]

theorem exists_word_of_scratch {l : List Char} {x : Scratch V} (hx : scratch o d l = some x)
    {v : V} (hv : x.value = some v) : ∃ w, v = d w := by
  unfold scratch at hx
  obtain ⟨o', -, hx⟩ := Option.bind_eq_some_iff.mp hx
  split at hx
  · obtain rfl := Option.some.inj hx
    obtain ⟨w, -, hw⟩ := Option.map_eq_some_iff.mp hv
    exact ⟨w, hw.symm⟩
  · split at hx
    · obtain ⟨w, -, rfl⟩ := Option.map_eq_some_iff.mp hx
      exact ⟨w, (Option.some.inj hv).symm⟩
    · cases hx

end

/-! ## Looks behind replacements -/

section
variable {β : Type} (W : List Char → Option β)

/-- A look at a line behind the replacement of the parameters. -/
def behind (rs : List (List Char × List Char)) (l : List Char) : Option β :=
  match rs.find? fun r => names r.1 l with
  | some r => W r.2
  | none => W l

theorem behind_cons (r : List Char × List Char) (rs : List (List Char × List Char))
    (l : List Char) : behind W (r :: rs) l = if names r.1 l then W r.2 else behind W rs l := by
  unfold behind
  rw [List.find?_cons]
  cases names r.1 l <;> rfl

theorem behind_of_not_names {rs : List (List Char × List Char)} {l : List Char}
    (h : ∀ r ∈ rs, names r.1 l = false) : behind W rs l = W l := by
  induction rs with
  | nil => rfl
  | cons r rs ih =>
      obtain ⟨hr, hrs⟩ := List.forall_mem_cons.mp h
      rw [behind_cons, hr, if_neg Bool.false_ne_true, ih hrs]

omit W in
theorem behind_congr {W W' : List Char → Option β}
    {rs : List (List Char × List Char)} {l l' : List Char}
    (hnames : ∀ r ∈ rs, names r.1 l = names r.1 l') (hrepl : ∀ r ∈ rs, W r.2 = W' r.2)
    (h : W l = W' l') : behind W rs l = behind W' rs l' := by
  induction rs with
  | nil => exact h
  | cons r rs ih =>
      obtain ⟨hr, hrs⟩ := List.forall_mem_cons.mp hnames
      obtain ⟨hr', hrs'⟩ := List.forall_mem_cons.mp hrepl
      rw [behind_cons, behind_cons, hr, hr', ih hrs hrs']

/-- The replacement of a parameter that the later ones leave. -/
theorem filterMap_setParam {param repl : List Char} {rs : List (List Char × List Char)}
    (hrepl : ∀ r ∈ rs, names r.1 repl = false) (ls : List (List Char)) :
    (setParam param repl ls).filterMap (behind W rs) =
      ls.filterMap (behind W ((param, repl) :: rs)) := by
  unfold setParam
  rw [List.filterMap_map]
  refine List.filterMap_congr fun l _ => ?_
  rw [Function.comp_apply, behind_cons]
  split
  · exact behind_of_not_names W hrepl
  · rfl

theorem any_names_setParam {param param' repl : List Char} (hparam : PlainName param)
    (hparam' : PlainName param') (hne : param ≠ param') {ls : List (List Char)}
    (h : ls.any (names param') = true) : (setParam param repl ls).any (names param') = true := by
  obtain ⟨l, hl, hnames⟩ := List.any_eq_true.mp h
  refine List.any_eq_true.mpr ⟨l, List.mem_map.mpr ⟨l, hl, if_neg fun hown => ?_⟩, hnames⟩
  exact hne (names_unique hparam hparam' hown hnames)

/-- What an override puts in for a line. -/
def settingLine (s : List Char × List Char) : List Char × List Char := (s.1, setting s.1 s.2)

/-- The loop over the overrides: the lines replaced, and the lines appended for parameters
    that no line names. -/
theorem filterMap_foldl_behind {ss : List (List Char × List Char)}
    (hplain : ∀ s ∈ ss, PlainName s.1) (hdiff : ss.Pairwise fun s s' => s.1 ≠ s'.1)
    (hnil : W [] = none) (ls : List (List Char)) :
    ∃ tail, (ss.foldl setLines ls).filterMap W =
        ls.filterMap (behind W (ss.map settingLine)) ++ tail ∧
      ∀ x ∈ tail, ∃ s ∈ ss, ls.any (names s.1) = false ∧ W (setting s.1 s.2) = some x := by
  induction ss generalizing ls with
  | nil => exact ⟨[], by rw [List.append_nil]; rfl, fun x hx => by cases hx⟩
  | cons s ss ih =>
      obtain ⟨hs, hrest⟩ := List.forall_mem_cons.mp hplain
      obtain ⟨hne, hdiff⟩ := List.pairwise_cons.mp hdiff
      obtain ⟨tail, heq, htail⟩ := ih hrest hdiff (setLines ls s)
      have hother : ∀ r ∈ ss.map settingLine, names r.1 (setting s.1 s.2) = false := by
        intro r hr
        obtain ⟨s', hs', rfl⟩ := List.mem_map.mp hr
        rw [← Bool.not_eq_true]
        exact fun h => hne s' hs' (names_unique hs (hrest s' hs') (names_setting hs s.2) h)
      -- a parameter without lines has none in front of the loop
      have hkept {s' : List Char × List Char} (hs' : s' ∈ ss)
          (h : (setLines ls s).any (names s'.1) = false) : ls.any (names s'.1) = false := by
        rw [← Bool.not_eq_true] at h ⊢
        refine fun hany => h ?_
        obtain ⟨l, hl, hnames⟩ := List.any_eq_true.mp hany
        refine List.any_eq_true.mpr ⟨l, ?_, hnames⟩
        unfold setLines
        split
        · refine List.mem_map.mpr ⟨l, hl, if_neg fun hown => ?_⟩
          exact hne s' hs' (names_unique hs (hrest s' hs') hown hnames)
        · exact List.mem_append_left _ hl
      rw [List.foldl_cons, heq]
      have hlater : ∀ x ∈ tail, ∃ s' ∈ s :: ss, ls.any (names s'.1) = false ∧
          W (setting s'.1 s'.2) = some x := by
        intro x hx
        obtain ⟨s', hs', hnone, hx⟩ := htail x hx
        exact ⟨s', List.mem_cons_of_mem _ hs', hkept hs' hnone, hx⟩
      unfold setLines
      split
      · exact ⟨tail, by rw [filterMap_setParam W hother]; rfl, hlater⟩
      · next hany =>
        rw [Bool.not_eq_true] at hany
        have hsame : ls.filterMap (behind W (ss.map settingLine)) =
            ls.filterMap (behind W ((s :: ss).map settingLine)) := by
          refine List.filterMap_congr fun l hl => ?_
          have hnot : names s.1 l = false := by
            rw [← Bool.not_eq_true] at hany ⊢
            exact fun h => hany (List.any_eq_true.mpr ⟨l, hl, h⟩)
          rw [List.map_cons, behind_cons, settingLine, hnot, if_neg Bool.false_ne_true]
        have hblank : behind W (ss.map settingLine) [] = none := by
          rw [behind_of_not_names W fun r hr => ?_, hnil]
          obtain ⟨s', hs', rfl⟩ := List.mem_map.mp hr
          exact not_names_nil (hrest s' hs')
        refine ⟨(W (setting s.1 s.2)).toList ++ tail, ?_, fun x hx => ?_⟩
        · rw [List.filterMap_append, hsame, List.append_assoc]
          congr 2
          rw [List.filterMap_cons, behind_of_not_names W hother, List.filterMap_cons_none hblank,
            List.filterMap_nil]
          cases W (setting s.1 s.2) <;> rfl
        · rcases List.mem_append.mp hx with hx | hx
          · exact ⟨s, List.mem_cons_self, hany, Option.mem_toList.mp hx⟩
          · exact hlater x hx

end

/-! ## The lines of a job, as an option sees them -/

section
variable {V : Type} {o : ConfigOption} {d : List Char → V} {v₀ : V}

theorem scratch_of_none {l : List Char} (h : optionOf l = none) : scratch o d l = none := by
  unfold scratch
  rw [h]
  rfl

theorem scratch_of_quiet {l : List Char} {o' : ConfigOption} (h : optionOf l = some o')
    (hne : o' ≠ o) (hscans : scansWord o' = false) : scratch o d l = none := by
  unfold scratch
  rw [h, Option.bind_some, if_neg hne, hscans]
  rfl

/-- A line of another branch is no line of the option. -/
theorem scratch_of_ne {l : List Char} (h : optionOf l ≠ some o) {x : Scratch V}
    (hx : scratch o d l = some x) : ∃ v, x = .other v := by
  unfold scratch at hx
  obtain ⟨o', ho', hx⟩ := Option.bind_eq_some_iff.mp hx
  have hne : o' ≠ o := by
    rintro rfl
    exact h ho'
  rw [if_neg hne] at hx
  split at hx
  · obtain ⟨w, -, hw⟩ := Option.map_eq_some_iff.mp hx
    exact ⟨d w, hw.symm⟩
  · cases hx

/-- Behind something other than white space, what follows a dash does not matter. -/
theorem scratch_congr_dash (hd : ∀ w, '-' ∈ w → d w = v₀) {u : List Char} (hu : skipSpace u ≠ [])
    {c : Char} (hc : c.isDigit = false) (a b : List Char) :
    scratch o d (u ++ '-' :: c :: a) = scratch o d (u ++ '-' :: c :: b) := by
  unfold scratch
  rw [optionOf_congr hu (a := c :: a) (b := c :: b)]
  refine congrArg _ (funext fun o' => ?_)
  have hword (o' : ConfigOption) : (wordIn o' (u ++ '-' :: c :: a)).map d =
      (wordIn o' (u ++ '-' :: c :: b)).map d := bounded_wordIn o' hd u c a b hu hc
  have hother : (wordIn o' (u ++ '-' :: c :: a)).map (fun w => Scratch.other (d w)) =
      (wordIn o' (u ++ '-' :: c :: b)).map fun w => Scratch.other (d w) := by
    have h := congrArg (Option.map Scratch.other) (hword o')
    rwa [Option.map_map, Option.map_map] at h
  rw [hword o, hother]

/-- No branch that scans a word is of a capacity. -/
theorem scansWord_of_capacity {o' : ConfigOption} {a : List Char}
    (ha : "apacity".toList <+: a) (h : optionOf ('-' :: 'C' :: a) = some o') :
    scansWord o' = false := by
  have hkeys : ∃ k, o'.key = k ∧ (scansWord o' = false ∨
      k.isPrefixOf ("-Capacity".toList) = false ∧ ("-Capacity".toList).isPrefixOf k = false) := by
    have hcapacity : "-Capacity".toList = ['-', 'C', 'a', 'p', 'a', 'c', 'i', 't', 'y'] :=
      String.toList_ofList
    rw [hcapacity]
    cases o' <;>
      first
      | exact ⟨_, rfl, .inl rfl⟩
      | exact ⟨_, String.toList_ofList, .inr (by decide)⟩
  obtain ⟨k, rfl, hquiet | ⟨hkey, hcapacity⟩⟩ := hkeys
  · exact hquiet
  · exfalso
    obtain ⟨r, rfl⟩ := ha
    have hstart : "-Capacity".toList <+: skipSpace ('-' :: 'C' :: ("apacity".toList ++ r)) := by
      rw [skipSpace_dash]
      exact ⟨r, rfl⟩
    rcases List.prefix_or_prefix_of_prefix (key_prefix_of_optionOf h) hstart with h' | h'
    · rw [List.isPrefixOf_iff_prefix.mpr h'] at hkey
      cases hkey
    · rw [List.isPrefixOf_iff_prefix.mpr h'] at hcapacity
      cases hcapacity

/-- A line that starts with a capacity scans no word. -/
theorem scratch_capacity (ho : scansWord o = true) {u a : List Char} (hu : skipSpace u = [])
    (ha : "apacity".toList <+: a) : scratch o d (u ++ '-' :: 'C' :: a) = none := by
  have hoption := optionOf_blank_append hu ('-' :: 'C' :: a)
  cases h : optionOf ('-' :: 'C' :: a) with
  | none => exact scratch_of_none (hoption.trans h)
  | some o' =>
      have hquiet := scansWord_of_capacity ha h
      refine scratch_of_quiet (hoption.trans h) ?_ hquiet
      rintro rfl
      rw [ho] at hquiet
      cases hquiet

/-- The line of the cell file leaves the path. -/
def scratchAt (path : List Char) (o : ConfigOption) (d : List Char → V) (l : List Char) :
    Option (Scratch V) :=
  if optionOf l = some .memoryCellInputFile then some (.other (d path)) else scratch o d l

/-- The free substitutions do not change it. -/
theorem blind_behind_scratchAt {path : List Char} {rs : List (List Char × List Char)}
    (hplain : ∀ r ∈ rs, PlainName r.1) (halpha : ∀ r ∈ rs, r.1.head?.any Char.isAlpha = true)
    (ho : scansWord o = true) (hd : ∀ w, '-' ∈ w → d w = v₀) :
    Blind (behind (scratchAt path o d) rs) where
  congr u a b ha hb := by
    refine behind_congr (fun r hr => names_congr (hplain r hr) (.inl rfl) (.inl rfl))
      (fun _ _ => rfl) ?_
    unfold scratchAt
    by_cases hu : skipSpace u = []
    · rw [optionOf_blank_append hu, optionOf_blank_append hu,
        if_neg (ne_option_of_key (o := .memoryCellInputFile) (by decide) a),
        if_neg (ne_option_of_key (o := .memoryCellInputFile) (by decide) b),
        scratch_capacity ho hu ha, scratch_capacity ho hu hb]
    · rw [optionOf_congr hu (a := 'C' :: a) (b := 'C' :: b),
        scratch_congr_dash hd hu (by decide) a b]
  lost l hl := by
    rw [behind_of_not_names _ fun r hr => hl.not_names (halpha r hr)]
    unfold scratchAt
    rw [if_neg (hl.optionOf_ne _)]
    cases h : optionOf l with
    | none => exact scratch_of_none h
    | some o' => exact absurd h (hl.optionOf_ne o')

end

/-! ## The overridden lines -/

theorem scratch_layoutLines {V : Type} {o : ConfigOption} (d : List Char → V)
    (ho : o ∉ layoutOptions) (layout : Option Layout) :
    (layoutLines layout).filterMap (scratch o d) = [] := by
  rw [List.filterMap_eq_nil_iff]
  intro l hl
  cases hoption : optionOf l with
  | none => exact scratch_of_none hoption
  | some o' =>
      have hmem : o' ∈ layoutOptions := by
        by_contra hnot
        have htaken := mem_taken.mpr ⟨hl, hoption⟩
        rw [taken_layoutLines hnot] at htaken
        cases htaken
      have hquiet : ∀ o ∈ layoutOptions, scansWord o = false := by decide
      refine scratch_of_quiet hoption ?_ (hquiet o' hmem)
      rintro rfl
      exact ho hmem

section
variable {P : Type} (scripts : Scripts P) (m : MemType) (p : JobPoint) (cell_path : List Char)

/-- What the anchored substitutions put in for the lines of a parameter. -/
def JobPoint.rewrites : List (List Char × List Char) :=
  ("OptimizationTarget".toList, []) :: ("EnablePruning".toList, []) ::
    settingLine ("DeviceRoadmap".toList, p.roadmap) ::
      (settingsOf (p.overrides scripts m cell_path)).map settingLine

/-- A line of none of the overrides is not replaced by them. -/
theorem not_names_settings {param : List Char} (hparam : PlainName param)
    (hdiff : ∀ s ∈ settingsOf (p.overrides scripts m cell_path), s.1 ≠ param)
    (value : List Char) : ∀ r ∈ (settingsOf (p.overrides scripts m cell_path)).map settingLine,
      names r.1 (setting param value) = false := by
  intro r hr
  obtain ⟨s, hs, rfl⟩ := List.mem_map.mp hr
  rw [← Bool.not_eq_true]
  exact fun h => hdiff s hs (names_unique (plainName_settings scripts m p cell_path s hs) hparam h
    (names_setting hparam value))

section
variable {V : Type} {o : ConfigOption} (d : List Char → V)

/-- The lines in front of the loop over the overrides, as they leave it. -/
theorem scratch_roadmapLines (ls : List (List Char)) :
    (setParam "DeviceRoadmap".toList (setting "DeviceRoadmap".toList p.roadmap)
        (forcedLines ls)).filterMap (behind (scratch o d)
          ((settingsOf (p.overrides scripts m cell_path)).map settingLine)) =
      ls.filterMap (behind (scratch o d) (p.rewrites scripts m cell_path)) ++
        ([setting "OptimizationTarget".toList "Full".toList,
          setting "EnablePruning".toList "Yes".toList].filterMap (scratch o d)) := by
  have hplain := plainName_settings scripts m p cell_path
  have hblank : ∀ r ∈ settingLine ("DeviceRoadmap".toList, p.roadmap) ::
      (settingsOf (p.overrides scripts m cell_path)).map settingLine, names r.1 [] = false := by
    refine List.forall_mem_cons.mpr ⟨not_names_nil plainName_roadmap, fun r hr => ?_⟩
    obtain ⟨s, hs, rfl⟩ := List.mem_map.mp hr
    exact not_names_nil (hplain s hs)
  have hblank' : ∀ r ∈ ("EnablePruning".toList, []) ::
      settingLine ("DeviceRoadmap".toList, p.roadmap) ::
        (settingsOf (p.overrides scripts m cell_path)).map settingLine, names r.1 [] = false :=
    List.forall_mem_cons.mpr ⟨not_names_nil plainName_pruning, hblank⟩
  -- the forced settings are none of the later parameters
  have hforced {param : List Char} (hparam : PlainName param) {o' : ConfigOption}
      (ho : paramOption param = some o') (hroadmap : .deviceRoadmap ≠ o')
      (hoverride : o' ∉ overrideParams.map Prod.snd) (value : List Char) : behind (scratch o d)
        (settingLine ("DeviceRoadmap".toList, p.roadmap) ::
          (settingsOf (p.overrides scripts m cell_path)).map settingLine)
        (setting param value) = scratch o d (setting param value) := by
    have hother : names "DeviceRoadmap".toList (setting param value) = false := by
      rw [← Bool.not_eq_true]
      exact fun h => ne_of_paramOption (paramOption_ne paramOption_roadmap hroadmap) ho
        (names_unique plainName_roadmap hparam h (names_setting hparam value))
    exact behind_of_not_names _ (List.forall_mem_cons.mpr ⟨hother, not_names_settings scripts m p
      cell_path hparam (fun s hs => name_override_ne scripts m p cell_path ho hoverride hs) value⟩)
  rw [filterMap_setParam (scratch o d) (not_names_settings scripts m p cell_path plainName_roadmap
    (fun s hs => name_override_ne scripts m p cell_path paramOption_roadmap (by decide) hs) _)]
  unfold forcedLines
  rw [List.append_assoc, List.filterMap_append]
  refine congrArg₂ (· ++ ·) ?_ ?_
  · exact (filterMap_setParam (scratch o d) hblank _).trans
      (filterMap_setParam (scratch o d) hblank' ls)
  · have hnil : behind (scratch o d) (settingLine ("DeviceRoadmap".toList, p.roadmap) ::
        (settingsOf (p.overrides scripts m cell_path)).map settingLine) [] = none := by
      rw [behind_of_not_names _ hblank, scratch_of_none (optionOf_blank rfl)]
    have htarget := hforced plainName_target paramOption_target (by decide) (by decide)
      "Full".toList
    have hpruning := hforced plainName_pruning paramOption_pruning (by decide) (by decide)
      "Yes".toList
    simp only [settingLine] at htarget hpruning hnil
    simp only [List.cons_append, List.nil_append, List.filterMap_cons, List.filterMap_nil,
      htarget, hpruning, hnil]

/-- The lines behind the anchored substitutions: those of the template as they are replaced,
    and behind them none of the option, but for an override of it that no line names. -/
theorem scratch_overriddenLines (ho : o ∉ layoutOptions) (hne : o ≠ .optimizationTarget)
    (hne' : o ≠ .enablePruning) (ls : List (List Char)) :
    ∃ tail, (overriddenLines scripts m p cell_path ls).filterMap (scratch o d) =
        ls.filterMap (behind (scratch o d) (p.rewrites scripts m cell_path)) ++ tail ∧
      ∀ x ∈ tail, (∃ v, x = .other v) ∨
        ∃ s ∈ settingsOf (p.overrides scripts m cell_path), paramOption s.1 = some o ∧
          ls.any (names s.1) = false := by
  have hplain := plainName_settings scripts m p cell_path
  obtain ⟨tail, heq, htail⟩ := filterMap_foldl_behind (scratch o d) hplain
    (nodup_settings scripts m p cell_path) (scratch_of_none (optionOf_blank rfl))
    (setParam "DeviceRoadmap".toList (setting "DeviceRoadmap".toList p.roadmap) (forcedLines ls))
  refine ⟨_, by
    unfold overriddenLines
    rw [List.filterMap_append, scratch_layoutLines d ho, List.append_nil, heq,
      scratch_roadmapLines, List.append_assoc], ?_⟩
  intro x hx
  rcases List.mem_append.mp hx with hx | hx
  · -- the forced settings
    obtain ⟨l, hl, hx⟩ := List.mem_filterMap.mp hx
    simp only [List.mem_cons, List.not_mem_nil, or_false] at hl
    rcases hl with rfl | rfl
    · exact .inl (scratch_of_ne (optionOf_setting_ne paramOption_target (Ne.symm hne) _) hx)
    · exact .inl (scratch_of_ne (optionOf_setting_ne paramOption_pruning (Ne.symm hne') _) hx)
  · -- the settings appended
    obtain ⟨s, hs, hany, hx⟩ := htail x hx
    by_cases hown : paramOption s.1 = some o
    · refine .inr ⟨s, hs, hown, ?_⟩
      have htarget := name_override_ne scripts m p cell_path paramOption_target (by decide) hs
      have hpruning := name_override_ne scripts m p cell_path paramOption_pruning (by decide) hs
      have hroadmap := name_override_ne scripts m p cell_path paramOption_roadmap (by decide) hs
      rw [← Bool.not_eq_true] at hany ⊢
      refine fun h => hany (any_names_setParam plainName_roadmap (hplain s hs) hroadmap.symm ?_)
      unfold forcedLines
      rw [List.append_assoc, List.any_append, Bool.or_eq_true]
      exact .inl (any_names_setParam plainName_pruning (hplain s hs) hpruning.symm
        (any_names_setParam plainName_target (hplain s hs) htarget.symm h))
    · exact .inl (scratch_of_ne (by rwa [optionOf_setting]) hx)

end

end

end Destiny.Sweep
