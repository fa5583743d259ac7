/-
  Destiny.Sweep.ConfigRead

  What the reader of configuration files makes of lines, branch by branch.

  * The reader skips the white space in front of a line, and blank lines altogether
    (`foldl_tidy`).
  * `Frame` says what a branch leaves as it was, and `WrittenBy` which branches write a
    field.
  * When one of these holds a single text and the others have no lines, the field ends
    as that text is read, whatever else the file says (`foldl_of_fixed`).
  * The names of the cell files are words (`unspacedNames_of_read`), and only grow.
-/

import Destiny.Sweep.ConfigLines

namespace Destiny.Sweep

open Lib

/-! ## The loop on lines -/

/-- A round of the reader on a line, white space in front of it aside. -/
def readSkipped (s : ConfigReader) (l : List Char) : ConfigReader :=
  ConfigReader.readLine (skipSpace l) s

section
variable {l : List Char} {o : ConfigOption}

theorem readSkipped_of_some (h : optionOf l = some o) (s : ConfigReader) :
    readSkipped s l = o.read (skipSpace l) s := by
  unfold optionOf at h
  unfold readSkipped ConfigReader.readLine
  rw [h]

theorem readSkipped_of_none (h : optionOf l = none) (s : ConfigReader) : readSkipped s l = s := by
  unfold optionOf at h
  unfold readSkipped ConfigReader.readLine
  rw [h]

end

theorem skipSpace_of_not_notBlank {l : List Char} (h : notBlank l = false) : skipSpace l = [] := by
  unfold skipSpace
  rw [List.dropWhile_eq_nil_iff]
  intro c hc
  simpa using List.any_eq_false.mp h c hc

/-- The loop does not see blank lines. -/
theorem foldl_tidy (ls : List (List Char)) (s : ConfigReader) :
    (tidy ls).foldl (fun s l => ConfigReader.readLine l s) s = ls.foldl readSkipped s := by
  induction ls generalizing s with
  | nil => rfl
  | cons l ls ih =>
      rw [List.foldl_cons, ← ih]
      unfold tidy
      cases hblank : notBlank l with
      | true =>
          rw [List.filter_cons_of_pos hblank]
          rfl
      | false =>
          rw [List.filter_cons_of_neg (by simp [hblank]),
            readSkipped_of_none (optionOf_blank (skipSpace_of_not_notBlank hblank))]

/-! ## Footprints -/

/-- What a branch leaves as it was. -/
structure Frame (o : ConfigOption) (s s' : ConfigReader) : Prop where
  capacity : o ∉ [ConfigOption.capacityB, .capacityKB, .capacityMB] →
    s'.ip.capacity = s.ip.capacity
  wordWidth : o ∉ [ConfigOption.wordWidth] → s'.ip.wordWidth = s.ip.wordWidth
  associativity : o ∉ [ConfigOption.associativity] → s'.ip.associativity = s.ip.associativity
  temperature : o ∉ [ConfigOption.temperature] → s'.temperature = s.temperature
  processNode : o ∉ [ConfigOption.processNode] → s'.processNode = s.processNode
  stackLayer : o ∉ [ConfigOption.stackedDieCount, .forceBank3D, .forceBank3DA] →
    s'.ip.stackLayer = s.ip.stackLayer
  deviceRoadmap : o ∉ [ConfigOption.deviceRoadmap] → s'.deviceRoadmap = s.deviceRoadmap
  internalSensing : o ∉ [ConfigOption.internalSensing] →
    s'.ip.internalSensing = s.ip.internalSensing
  optimizationTarget : o ∉ [ConfigOption.optimizationTarget] →
    s'.ip.optimizationTarget = s.ip.optimizationTarget
  isPruningEnabled : o ∉ [ConfigOption.enablePruning] →
    s'.ip.isPruningEnabled = s.ip.isPruningEnabled
  fileMemCell : o ∉ [ConfigOption.memoryCellInputFile] → s'.ip.fileMemCell = s.ip.fileMemCell

theorem read_frame (o : ConfigOption) (l : List Char) (s : ConfigReader) :
    Frame o s (o.read l s) := by
  cases o <;> simp only [ConfigOption.read] <;> constructor <;> intro h <;>
    first | rfl | exact absurd (by decide) h

/-- Only these branches write the field. -/
def WrittenBy {V : Type} (f : ConfigReader → V) (writers : List ConfigOption) : Prop :=
  ∀ o, o ∉ writers → ∀ l s, f (o.read l s) = f s

section
variable {V : Type} {f : ConfigReader → V} {writers : List ConfigOption} {o : ConfigOption}
  {ls : List (List Char)}

/-- A line of another branch. -/
theorem readSkipped_of_not_written (h : WrittenBy f writers) {l : List Char}
    (hl : ∀ o ∈ writers, optionOf l ≠ some o) (s : ConfigReader) :
    f (readSkipped s l) = f s := by
  cases ho : optionOf l with
  | none => rw [readSkipped_of_none ho]
  | some o =>
      rw [readSkipped_of_some ho]
      exact h o (fun hmem => hl o hmem ho) _ s

/-- A field ends as the one text of its branch is read. -/
theorem foldl_of_fixed (hfield : WrittenBy f writers) {text : List Char} (h : Fixed o text ls)
    (hothers : ∀ o' ∈ writers, o' ≠ o → taken o' ls = []) {v : V}
    (hread : ∀ s, f (o.read text s) = v) (s : ConfigReader) :
    f (ls.foldl readSkipped s) = v := by
  -- the last line of the branch decides
  induction ls using List.reverseRecOn with
  | nil => exact absurd rfl h.some
  | append_singleton ls l ih =>
      rw [List.foldl_append, List.foldl_cons, List.foldl_nil]
      by_cases hl : optionOf l = some o
      · have htext := h.all l (mem_taken.mpr ⟨List.mem_append_right _ List.mem_cons_self, hl⟩)
        rw [readSkipped_of_some hl, htext, hread]
      · rw [readSkipped_of_not_written hfield fun o' ho' hl' => ?_]
        · refine ih (h.congr ?_) fun o' ho' hne => ?_
          · rw [taken_append, taken_singleton_of_ne hl, List.append_nil]
          · have hnone := hothers o' ho' hne
            rw [taken_append, List.append_eq_nil_iff] at hnone
            exact hnone.1
        · have hne : o' ≠ o := by
            rintro rfl
            exact hl hl'
          have hnone := hothers o' ho' hne
          rw [taken_append, taken_singleton hl', List.append_eq_nil_iff] at hnone
          cases hnone.2

/-- A field none of whose branches has lines. -/
theorem foldl_of_untaken (hfield : WrittenBy f writers)
    (hnone : ∀ o ∈ writers, taken o ls = []) (s : ConfigReader) :
    f (ls.foldl readSkipped s) = f s := by
  induction ls generalizing s with
  | nil => rfl
  | cons l ls ih =>
      have hsplit : ∀ o ∈ writers, taken o [l] = [] ∧ taken o ls = [] := by
        intro o ho
        have h := hnone o ho
        rwa [← List.singleton_append, taken_append, List.append_eq_nil_iff] at h
      rw [List.foldl_cons, ih fun o ho => (hsplit o ho).2,
        readSkipped_of_not_written hfield fun o ho hl => ?_]
      have h := (hsplit o ho).1
      rw [taken_singleton hl] at h
      cases h

end

/-- The cell files are listed in the order of their lines. -/
theorem foldl_fileMemCell {l text : List Char} {ls : List (List Char)}
    (h : taken .memoryCellInputFile ls = [l]) (htext : skipSpace l = text) {name : List Char}
    (hread : ∀ s, (ConfigOption.memoryCellInputFile.read text s).ip.fileMemCell =
      s.ip.fileMemCell ++ [String.ofList name]) (s : ConfigReader) :
    (ls.foldl readSkipped s).ip.fileMemCell = s.ip.fileMemCell ++ [String.ofList name] := by
  have hfield : WrittenBy (fun s => s.ip.fileMemCell) [.memoryCellInputFile] :=
    fun o ho l s => (read_frame o l s).fileMemCell ho
  obtain ⟨before, after, rfl, hbefore, hafter⟩ :
      ∃ before after, ls = before ++ l :: after ∧ taken .memoryCellInputFile before = [] ∧
        taken .memoryCellInputFile after = [] := by
    obtain ⟨before, after, rfl, hbefore, -, hafter⟩ := List.filter_eq_cons_iff.mp h
    refine ⟨before, after, rfl, ?_, hafter⟩
    exact List.filter_eq_nil_iff.mpr hbefore
  have hl : optionOf l = some .memoryCellInputFile :=
    (mem_taken.mp (h ▸ List.mem_cons_self : l ∈ taken _ (before ++ l :: after))).2
  have hkept (ms : List (List Char)) (hms : taken .memoryCellInputFile ms = [])
      (s : ConfigReader) : (ms.foldl readSkipped s).ip.fileMemCell = s.ip.fileMemCell :=
    foldl_of_untaken hfield (fun o ho => by rwa [List.mem_singleton.mp ho]) s
  rw [List.foldl_append, List.foldl_cons, hkept after hafter, readSkipped_of_some hl, htext, hread,
    hkept before hbefore]

/-! ## Values -/

section
variable {param : List Char} {o : ConfigOption}

theorem sscanfInt_setting (h : '-' :: (param ++ ": ".toList) = o.label) (n x : ℤ) :
    sscanfInt o.label (setting param (integer n)) x = n := by
  rw [setting_eq_text h]
  exact sscanfInt_eq (scan_int o n) x

theorem sscanfNat_setting (h : '-' :: (param ++ ": ".toList) = o.label) (n : ℤ) (x : ℕ) :
    sscanfNat o.label (setting param (integer n)) x = n.toNat := by
  rw [sscanfNat, sscanfInt_setting h]

theorem sscanfWord_setting (h : '-' :: (param ++ ": ".toList) = o.label) {w : List Char}
    (hw : IsWord w) (tmp : List Char) : sscanfWord o.label (setting param w) tmp = w := by
  rw [setting_eq_text h]
  exact sscanfWord_eq (scan_word o hw) tmp

end

/-! ## Names of cell files -/

/-- Without white space. -/
def Unspaced (w : List Char) : Prop := ∀ c ∈ w, isspace c = false

theorem unspaced_sscanfWord (label line : List Char) {tmp : List Char} (h : Unspaced tmp) :
    Unspaced (sscanfWord label line tmp) := by
  unfold sscanfWord
  split
  · next w _ hscan =>
    obtain ⟨t, -, ht⟩ := Option.bind_eq_some_iff.mp hscan
    simp only [scanWord] at ht
    split at ht
    · cases ht
    · obtain rfl := (Prod.mk.inj (Option.some.inj ht)).1
      intro c hc
      simpa using List.mem_takeWhile_imp hc
  · exact h

/-- What a branch leaves in the buffer. -/
theorem read_tmp (o : ConfigOption) (l : List Char) (s : ConfigReader) :
    (o.read l s).tmp = s.tmp ∨ (o.read l s).tmp = sscanfWord o.label l s.tmp := by
  cases o <;> first | exact .inl rfl | exact .inr rfl

/-- The names and the buffer hold no white space. -/
structure UnspacedNames (s : ConfigReader) : Prop where
  tmp : Unspaced s.tmp
  names : ∀ f ∈ s.ip.fileMemCell, Unspaced f.toList

theorem UnspacedNames.readLine {s : ConfigReader} (h : UnspacedNames s) (l : List Char) :
    UnspacedNames (ConfigReader.readLine l s) := by
  unfold ConfigReader.readLine
  cases branchOf ConfigOption.all ConfigOption.key l with
  | none => exact h
  | some o =>
      have hword := unspaced_sscanfWord o.label l h.tmp
      constructor
      · show Unspaced (o.read l s).tmp
        rcases read_tmp o l s with htmp | htmp
        · rw [htmp]
          exact h.tmp
        · rwa [htmp]
      · show ∀ f ∈ (o.read l s).ip.fileMemCell, _
        by_cases ho : o = .memoryCellInputFile
        · subst ho
          intro f hf
          rcases List.mem_append.mp hf with hf | hf
          · exact h.names f hf
          · rw [List.mem_singleton.mp hf, String.toList_ofList]
            exact hword
        · rw [(read_frame o l s).fileMemCell (by simpa using ho)]
          exact h.names

/-- Every name a file gives the cell files is a word. -/
theorem unspacedNames_of_read {rounds : ℕ} {text buffer : List Char} {s s' : ConfigReader}
    (hs : UnspacedNames s)
    (h : ConfigReader.ReadInputParameterFromFile rounds text buffer s = some s') :
    UnspacedNames s' :=
  lineLoop_invariant (fun l _ hs => hs.readLine l) hs h

/-- The names only grow. -/
theorem prefix_readSkipped (l : List Char) (s : ConfigReader) :
    s.ip.fileMemCell <+: (readSkipped s l).ip.fileMemCell := by
  cases ho : optionOf l with
  | none => rw [readSkipped_of_none ho]
  | some o =>
      rw [readSkipped_of_some ho]
      by_cases hcell : o = .memoryCellInputFile
      · subst hcell
        exact List.prefix_append _ _
      · rw [(read_frame o _ s).fileMemCell (by simpa using hcell)]

theorem prefix_foldl_readSkipped (ls : List (List Char)) (s : ConfigReader) :
    s.ip.fileMemCell <+: (ls.foldl readSkipped s).ip.fileMemCell := by
  induction ls generalizing s with
  | nil => exact List.prefix_rfl
  | cons l ls ih => exact (prefix_readSkipped l s).trans (ih _)

end Destiny.Sweep
