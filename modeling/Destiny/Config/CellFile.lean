/-
  Destiny.Config.CellFile

  What a cell file means, against `MemCell::ReadCellFromFile`.

  A `CellFile` is a file of well-formed lines with distinct options, the cell and
  access type first.  The file means the set of its lines only under a narrow
  condition (`meansItsLines_iff`): the height and width are computed when the aspect
  ratio is read, two options set each of the resistances, and the branch of
  `-SetVoltage` looks at the scratch buffer and never stores `vdd`.
-/

import Destiny.Config.CellLine
import Mathlib.Analysis.Real.Sqrt

namespace Destiny

open Lib

/-! ## Files -/

/-- A cell file of well-formed lines with distinct options. -/
structure CellFile where
  head : List CellLine
  others : List CellLine
  head_ne : head ≠ []
  head_options : ∀ l ∈ head, l.option.isHeader = true
  others_options : ∀ l ∈ others, l.option.isHeader = false
  distinct : ((head ++ others).map CellLine.option).Nodup

def CellFile.text (f : CellFile) : List Char :=
  ((f.head ++ f.others).map CellLine.text).flatMap fun l => l ++ ['\n']

/-- The file has a line of this option with this value, after the first lines. -/
def CellFile.HasLine (f : CellFile) (o : CellOption) (x : CellValue) : Prop :=
  ∃ l ∈ f.others, l.option = o ∧ l.value = x

/-- The file with its other lines in another order. -/
def CellFile.reorder (f : CellFile) (others : List CellLine) (h : others.Perm f.others) :
    CellFile where
  head := f.head
  others := others
  head_ne := f.head_ne
  head_options := f.head_options
  others_options := fun l hl => f.others_options l (h.subset hl)
  distinct := (((h.append_left f.head).map CellLine.option).nodup_iff).mpr f.distinct

section Slots
variable {K : Type} [Field K]
variable {sqrt : K → K} {vdd : K} {c : MemCell K} {v : CellSlots} {s : CellReader K}

/-! ## Many lines -/

/-- The values of the options when more lines are read. -/
def CellSlots.addAll (v : CellSlots) (ls : List CellLine) : CellSlots := ls.foldl CellSlots.add v

theorem CellSlots.addAll_of_notMem {v : CellSlots} {ls : List CellLine} {o : CellOption}
    (h : o ∉ ls.map CellLine.option) : v.addAll ls o = v o := by
  induction ls generalizing v with
  | nil => rfl
  | cons l ls ih =>
      obtain ⟨hne, hrest⟩ := List.ne_and_not_mem_of_not_mem_cons h
      rw [addAll, List.foldl_cons, ← addAll, ih hrest, add_of_ne hne]

/-- With distinct options, the value of an option is that of its line. -/
theorem CellSlots.addAll_eq_some {v : CellSlots} {ls : List CellLine}
    (hnodup : (ls.map CellLine.option).Nodup) {o : CellOption} {x : CellValue} :
    v.addAll ls o = some x ↔
      (∃ l ∈ ls, l.option = o ∧ l.value = x) ∨ (o ∉ ls.map CellLine.option ∧ v o = some x) := by
  induction ls generalizing v with
  | nil => simp [addAll]
  | cons l ls ih =>
      obtain ⟨hl, hnodup⟩ := List.nodup_cons.mp hnodup
      rw [addAll, List.foldl_cons, ← addAll]
      by_cases ho : l.option = o
      · subst ho
        rw [addAll_of_notMem hl, add, if_pos rfl]
        have hother : ∀ l' ∈ ls, l'.option ≠ l.option := fun l' hl' hcon =>
          hl (hcon ▸ List.mem_map_of_mem hl')
        simp only [Option.some.injEq, List.mem_cons, exists_eq_or_imp, true_and, List.map_cons,
          true_or, not_true_eq_false, false_and, or_false]
        constructor
        · exact .inl
        · rintro (h | ⟨l', hl', heq, -⟩)
          · exact h
          · exact absurd heq (hother l' hl')
      · rw [ih hnodup, add_of_ne (Ne.symm ho)]
        simp [ho, Ne.symm ho]

/-- The order of lines with distinct options does not matter. -/
theorem CellSlots.addAll_perm {v : CellSlots} {ls ls' : List CellLine} (h : ls.Perm ls')
    (hnodup : (ls.map CellLine.option).Nodup) : v.addAll ls = v.addAll ls' := by
  refine h.foldl_eq' (fun x hx y hy z => ?_) v
  by_cases hxy : x.option = y.option
  · rw [List.inj_on_of_nodup_map hnodup hx hy hxy]
  · funext o
    unfold add
    by_cases ho : o = x.option
    · simp [ho, hxy]
    · simp [ho]

/-- The reader on a list of lines. -/
def readAll (sqrt : K → K) (vdd : K) (ls : List CellLine) (s : CellReader K) : CellReader K :=
  ls.foldl (fun s l => l.option.read sqrt vdd l.text s) s

theorem readAll_cons (l : CellLine) (ls : List CellLine) :
    readAll sqrt vdd (l :: ls) s = readAll sqrt vdd ls (l.option.read sqrt vdd l.text s) := rfl

/-- Lines that get in no other's way leave the cell that their values describe. -/
theorem CellReader.Holds.readAll {ls : List CellLine} (hs : s.Holds sqrt vdd c v)
    (hc : c.setVoltage = 0) (hls : ∀ l ∈ ls, l.option.isHeader = false)
    (hnodup : (ls.map CellLine.option).Nodup) (hfree : ∀ l ∈ ls, v l.option = none)
    (hcompat : (v.addAll ls).Compatible) :
    (readAll sqrt vdd ls s).Holds sqrt vdd c (v.addAll ls) := by
  induction ls generalizing v s with
  | nil => exact hs
  | cons l ls ih =>
      obtain ⟨hl, hrest⟩ := List.nodup_cons.mp hnodup
      -- the options of the lines to come are still without a value
      have hfree' : ∀ l' ∈ ls, v.add l l'.option = none := by
        intro l' hl'
        have hne : l'.option ≠ l.option := fun hcon => hl (hcon ▸ List.mem_map_of_mem hl')
        rw [CellSlots.add_of_ne hne]
        exact hfree l' (List.mem_cons_of_mem _ hl')
      have hkept : ∀ o x, v.add l o = some x → (v.add l).addAll ls o = some x := by
        intro o x ho
        rw [CellSlots.addAll_of_notMem, ho]
        intro hmem
        obtain ⟨l', hl', rfl⟩ := List.mem_map.mp hmem
        rw [hfree' l' hl'] at ho
        cases ho
      exact ih (hs.read hc l (hls l List.mem_cons_self) (hfree l List.mem_cons_self)
        (hcompat.anti hkept)) (fun l' hl' => hls l' (List.mem_cons_of_mem _ hl')) hrest hfree'
        hcompat

/-- What each of the lines leaves alone, all of them do. -/
theorem readAll_frame {α : Type} (p : MemCell K → α) {ls : List CellLine}
    (h : ∀ l ∈ ls, ∀ s, p (l.option.read sqrt vdd l.text s).cell = p s.cell)
    (s : CellReader K) : p (readAll sqrt vdd ls s).cell = p s.cell := by
  induction ls generalizing s with
  | nil => rfl
  | cons l ls ih =>
      rw [readAll_cons, ih (fun l' hl' => h l' (List.mem_cons_of_mem _ hl')),
        h l List.mem_cons_self]

/-! ## The first lines -/

/-- What the first lines leave behind: no voltage, no area, and a word other than
    `vdd` in the buffer. -/
structure CellReader.HeadRead (s : CellReader K) : Prop where
  area : s.cell.area = 0
  setVoltage : s.cell.setVoltage = 0
  resetVoltage : s.cell.resetVoltage = 0
  tmp : s.tmp ≠ vddWord

theorem CellOption.read_header {o : CellOption} (ho : o.isHeader = true) (line : List Char) :
    (o.read sqrt vdd line s).cell.area = s.cell.area ∧
      (o.read sqrt vdd line s).cell.setVoltage = s.cell.setVoltage ∧
      (o.read sqrt vdd line s).cell.resetVoltage = s.cell.resetVoltage ∧
      (o.read sqrt vdd line s).tmp = sscanfWord o.label line s.tmp := by
  cases o
  case memCellType | accessType => exact ⟨rfl, rfl, rfl, rfl⟩
  all_goals cases ho

theorem CellLine.read_header_tmp (l : CellLine) (hl : l.option.isHeader = true)
    (s : CellReader K) : (l.option.read sqrt vdd l.text s).tmp ≠ vddWord := by
  have hk : l.option.kind = .word := by
    cases ho : l.option
    case memCellType | accessType => rfl
    all_goals rw [ho] at hl; cases hl
  obtain ⟨w, -, hne, hscan⟩ := l.scan_word hk
  have htmp : (l.option.read sqrt vdd l.text s).tmp = sscanfWord l.option.label l.text s.tmp :=
    (CellOption.read_header hl l.text).2.2.2
  rw [htmp, hscan]
  exact hne

theorem headRead (f : CellFile) (mem : MemCell K) (tmp : List Char) :
    (readAll sqrt vdd f.head ⟨MemCell.construct mem, tmp⟩).HeadRead where
  area := readAll_frame MemCell.area
    (fun l hl s => (CellOption.read_header (f.head_options l hl) l.text).1) _
  setVoltage := readAll_frame MemCell.setVoltage
    (fun l hl s => (CellOption.read_header (f.head_options l hl) l.text).2.1) _
  resetVoltage := readAll_frame MemCell.resetVoltage
    (fun l hl s => (CellOption.read_header (f.head_options l hl) l.text).2.2.1) _
  tmp := by
    -- the last of them has left its word
    obtain ⟨ls, l, hsplit⟩ := List.eq_nil_or_concat f.head |>.resolve_left f.head_ne
    have hl : l ∈ f.head := by simp [hsplit]
    rw [hsplit, readAll, List.concat_eq_append, List.foldl_append]
    exact l.read_header_tmp (f.head_options l hl) _

/-! ## A whole file -/

theorem CellOption.key_eq_cons (o : CellOption) : ∃ t, o.key = '-' :: t := by
  cases o <;> exact ⟨_, rfl⟩

theorem CellLine.text_eq_cons (l : CellLine) : ∃ t, l.text = '-' :: t := by
  obtain ⟨t, ht⟩ := l.option.key_eq_cons
  obtain ⟨r, hr⟩ := l.key_prefix
  rw [ht] at hr
  exact ⟨t ++ r, hr.symm⟩

/-- The reader arrives at this cell, with the buffers as they are found. -/
def CellFile.ReadsTo (f : CellFile) (sqrt : K → K) (vdd : K) (mem : MemCell K)
    (line tmp : List Char) (c : MemCell K) : Prop :=
  ∃ n, MemCell.ReadCellFromFile sqrt vdd n f.text line tmp (MemCell.construct mem) = some c

/-- The cell after all lines. -/
def CellFile.read (f : CellFile) (sqrt : K → K) (vdd : K) (mem : MemCell K) (tmp : List Char) :
    MemCell K :=
  (readAll sqrt vdd f.others
    (readAll sqrt vdd f.head ⟨MemCell.construct mem, tmp⟩)).cell

theorem CellFile.readsTo_iff (f : CellFile) {mem c : MemCell K} {line tmp : List Char} :
    f.ReadsTo sqrt vdd mem line tmp c ↔ c = f.read sqrt vdd mem tmp := by
  have hstart : ∀ l ∈ (f.head ++ f.others).map CellLine.text,
      '\n' ∉ l ∧ ∃ c t, l = c :: t ∧ isspace c = false := by
    intro l hl
    obtain ⟨l, -, rfl⟩ := List.mem_map.mp hl
    obtain ⟨t, ht⟩ := l.text_eq_cons
    exact ⟨l.no_newline, '-', t, ht, by decide⟩
  have hfile : f.text.head? ≠ some '\n' := by
    obtain ⟨l, ls, hl⟩ := List.exists_cons_of_ne_nil f.head_ne
    obtain ⟨t, ht⟩ := l.text_eq_cons
    simp [CellFile.text, hl, ht]
  obtain ⟨n, hn⟩ := lineLoop_ends (MemCell.readLine sqrt vdd) hfile line
    ⟨MemCell.construct mem, tmp⟩
  -- the fetched lines are the lines of the file, and each takes its option's branch
  have hrun : (fetchedLines f.text).foldl (fun s l => MemCell.readLine sqrt vdd l s)
      ⟨MemCell.construct mem, tmp⟩ =
        readAll sqrt vdd f.others (readAll sqrt vdd f.head ⟨MemCell.construct mem, tmp⟩) := by
    rw [CellFile.text, fetchedLines_unlines hstart, List.foldl_map, readAll, readAll,
      ← List.foldl_append]
    congr 1
    funext s l
    exact l.readLine_eq sqrt vdd s
  rw [hrun] at hn
  constructor
  · rintro ⟨m, hm⟩
    obtain ⟨s, hs, rfl⟩ := Option.map_eq_some_iff.mp hm
    rw [lineLoop_unique hs hn]
    rfl
  · rintro rfl
    exact ⟨n, by rw [MemCell.ReadCellFromFile, hn]; rfl⟩

/-! ## Lines that get in each other's way -/

theorem CellFile.nodup_others (f : CellFile) : (f.others.map CellLine.option).Nodup := by
  have h := f.distinct
  rw [List.map_append] at h
  exact (List.nodup_append.mp h).2.1

theorem CellFile.eq_of_option_eq (f : CellFile) {l l' : CellLine} (hl : l ∈ f.others)
    (hl' : l' ∈ f.others) (h : l.option = l'.option) : l = l' :=
  List.inj_on_of_nodup_map f.nodup_others hl hl' h

/-- Two lines moved to the front; the options of the rest are others. -/
theorem CellFile.exists_front (f : CellFile) {l l' : CellLine} (hl : l ∈ f.others)
    (hl' : l' ∈ f.others) (hne : l.option ≠ l'.option) :
    ∃ rest, (l :: l' :: rest).Perm f.others ∧
      ∀ r ∈ rest, r.option ≠ l.option ∧ r.option ≠ l'.option := by
  obtain ⟨rest₁, h₁⟩ : ∃ rest, f.others.Perm (l :: rest) := by
    obtain ⟨s, t, h⟩ := List.append_of_mem hl
    exact ⟨s ++ t, h ▸ List.perm_middle⟩
  have hmem : l' ∈ rest₁ := by
    rcases List.mem_cons.mp (h₁.subset hl') with rfl | h
    · exact absurd rfl hne
    · exact h
  obtain ⟨rest, h₂⟩ : ∃ rest, rest₁.Perm (l' :: rest) := by
    obtain ⟨s, t, h⟩ := List.append_of_mem hmem
    exact ⟨s ++ t, h ▸ List.perm_middle⟩
  have hperm : (l :: l' :: rest).Perm f.others := (h₁.trans (h₂.cons l)).symm
  have hnodup := ((hperm.map CellLine.option).nodup_iff).mpr f.nodup_others
  simp only [List.map_cons, List.nodup_cons, List.mem_cons, List.mem_map, not_or, not_exists,
    not_and] at hnodup
  exact ⟨rest, hperm, fun r hr => ⟨hnodup.1.2 r hr, hnodup.2.1 r hr⟩⟩

theorem CellLine.read_area (l : CellLine) (h : l.option = .cellArea) {q : ℚ}
    (hq : l.value = .num q) (s : CellReader K) :
    (l.option.read sqrt vdd l.text s).cell.area = q := by
  obtain ⟨p, hp, -, hscan⟩ := l.scan_positive (K := K) (by rw [h]; rfl)
  obtain rfl : p = q := CellValue.num.inj (hp.symm.trans hq)
  rw [h] at hscan ⊢
  exact hscan _

theorem CellLine.read_aspectRatio (l : CellLine) (h : l.option = .cellAspectRatio) {q : ℚ}
    (hq : l.value = .num q) (s : CellReader K) :
    (l.option.read sqrt vdd l.text s).cell.heightInFeatureSize = sqrt (s.cell.area * q) := by
  obtain ⟨p, hp, -, hscan⟩ := l.scan_positive (K := K) (by rw [h]; rfl)
  obtain rfl : p = q := CellValue.num.inj (hp.symm.trans hq)
  rw [h] at hscan ⊢
  exact congrArg (fun r => sqrt (s.cell.area * r)) (hscan _)

/-- The options that set the resistances, with and without `AtReadVoltage`. -/
theorem CellLine.read_resistanceOn (l : CellLine)
    (h : l.option = .resistanceOn ∨ l.option = .resistanceOnAtReadVoltage) {q : ℚ}
    (hq : l.value = .num q) (s : CellReader K) :
    (l.option.read sqrt vdd l.text s).cell.resistanceOn = q := by
  obtain ⟨p, hp, hscan⟩ := l.scan_number (K := K) (by rcases h with h | h <;> rw [h] <;> rfl)
  obtain rfl : p = q := CellValue.num.inj (hp.symm.trans hq)
  rcases h with h | h <;> rw [h] at hscan ⊢ <;> exact hscan _

theorem CellLine.read_resistanceOff (l : CellLine)
    (h : l.option = .resistanceOff ∨ l.option = .resistanceOffAtReadVoltage) {q : ℚ}
    (hq : l.value = .num q) (s : CellReader K) :
    (l.option.read sqrt vdd l.text s).cell.resistanceOff = q := by
  obtain ⟨p, hp, hscan⟩ := l.scan_number (K := K) (by rcases h with h | h <;> rw [h] <;> rfl)
  obtain rfl : p = q := CellValue.num.inj (hp.symm.trans hq)
  rcases h with h | h <;> rw [h] at hscan ⊢ <;> exact hscan _

/-- The voltage is stored only when it is a number and the buffer does not hold `vdd`. -/
theorem CellLine.read_setVoltage (l : CellLine) (h : l.option = .setVoltage)
    (s : CellReader K) :
    (l.value = .vdd ∧
        (l.option.read sqrt vdd l.text s).cell.setVoltage = s.cell.setVoltage) ∨
      ∃ q, l.value = .num q ∧ (l.option.read sqrt vdd l.text s).cell.setVoltage =
        if s.tmp = vddWord then s.cell.setVoltage else (q : K) := by
  have hlit : scanLiteral CellOption.resetVoltage.label l.text = none := by
    obtain ⟨r, hr⟩ := l.key_prefix
    rw [h] at hr
    rw [← hr]
    exact scanLiteral_eq_none_of_diverges rfl r
  have hword : sscanfWord CellOption.resetVoltage.label l.text s.tmp = s.tmp := by
    simp [sscanfWord, hlit]
  have hset : (l.option.read sqrt vdd l.text s).cell.setVoltage =
      if s.tmp = vddWord then s.cell.setVoltage
      else sscanfDouble l.option.label l.text s.cell.setVoltage := by
    rw [h]
    exact congrArg (fun w => if w = vddWord then s.cell.setVoltage
      else sscanfDouble CellOption.setVoltage.label l.text s.cell.setVoltage) hword
  rcases l.scan_voltage (K := K) (by rw [h]; rfl) with ⟨hv, -, hscan⟩ | ⟨q, hv, -, hscan⟩
  · exact .inl ⟨hv, by rw [hset, hscan, ite_self]⟩
  · exact .inr ⟨q, hv, by rw [hset, hscan]⟩

theorem CellLine.read_resetVoltage (l : CellLine) (h : l.option = .resetVoltage)
    (hv : l.value = .vdd) (s : CellReader K) :
    (l.option.read sqrt vdd l.text s).tmp = vddWord := by
  rcases l.scan_voltage (K := K) (by rw [h]; rfl) with ⟨-, hword, -⟩ | ⟨q, hq, -, -⟩
  · rw [h] at hword ⊢
    exact hword _
  · rw [hv] at hq
    cases hq

/-! ### What each option leaves alone -/

/-- The fields that more than one line has to do with, and the options that set them. -/
theorem CellOption.read_frame (o : CellOption) (line : List Char) (s : CellReader K) :
    (o ≠ .cellAspectRatio → (o.read sqrt vdd line s).cell.heightInFeatureSize =
        s.cell.heightInFeatureSize) ∧
      (o ≠ .resistanceOn → o ≠ .resistanceOnAtReadVoltage →
        (o.read sqrt vdd line s).cell.resistanceOn = s.cell.resistanceOn) ∧
      (o ≠ .resistanceOff → o ≠ .resistanceOffAtReadVoltage →
        (o.read sqrt vdd line s).cell.resistanceOff = s.cell.resistanceOff) ∧
      (o ≠ .setVoltage → (o.read sqrt vdd line s).cell.setVoltage = s.cell.setVoltage) := by
  cases o
  case cellAspectRatio =>
    exact ⟨fun h => absurd rfl h, fun _ _ => rfl, fun _ _ => rfl, fun _ => rfl⟩
  case resistanceOn =>
    exact ⟨fun _ => rfl, fun h => absurd rfl h, fun _ _ => rfl, fun _ => rfl⟩
  case resistanceOnAtReadVoltage =>
    exact ⟨fun _ => rfl, fun _ h => absurd rfl h, fun _ _ => rfl, fun _ => rfl⟩
  case resistanceOff =>
    exact ⟨fun _ => rfl, fun _ _ => rfl, fun h => absurd rfl h, fun _ => rfl⟩
  case resistanceOffAtReadVoltage =>
    exact ⟨fun _ => rfl, fun _ _ => rfl, fun _ h => absurd rfl h, fun _ => rfl⟩
  case setVoltage =>
    exact ⟨fun _ => rfl, fun _ _ => rfl, fun _ _ => rfl, fun h => absurd rfl h⟩
  all_goals exact ⟨fun _ => rfl, fun _ _ => rfl, fun _ _ => rfl, fun _ => rfl⟩

theorem CellOption.read_frame_height {o : CellOption} (h : o ≠ .cellAspectRatio)
    (line : List Char) (s : CellReader K) :
    (o.read sqrt vdd line s).cell.heightInFeatureSize = s.cell.heightInFeatureSize :=
  (o.read_frame line s).1 h

theorem CellOption.read_frame_setVoltage {o : CellOption} (h : o ≠ .setVoltage)
    (line : List Char) (s : CellReader K) :
    (o.read sqrt vdd line s).cell.setVoltage = s.cell.setVoltage :=
  (o.read_frame line s).2.2.2 h

/-! ## When the file means the set of its lines -/

/-- What the lines say of the cell: the voltages are those of their lines, or the
    initial ones, and the height and width fit the final area and aspect ratio. -/
structure CellFile.Describes (f : CellFile) (vdd : K) (mem c : MemCell K) : Prop where
  setVoltage_num : ∀ q, f.HasLine .setVoltage (.num q) → c.setVoltage = q
  setVoltage_vdd : f.HasLine .setVoltage .vdd → c.setVoltage = vdd
  setVoltage_none : (∀ x, ¬ f.HasLine .setVoltage x) →
    c.setVoltage = (MemCell.construct mem).setVoltage
  resetVoltage_num : ∀ q, f.HasLine .resetVoltage (.num q) → c.resetVoltage = q
  resetVoltage_vdd : f.HasLine .resetVoltage .vdd → c.resetVoltage = vdd
  resetVoltage_none : (∀ x, ¬ f.HasLine .resetVoltage x) →
    c.resetVoltage = (MemCell.construct mem).resetVoltage
  area_ratio : ∀ a r, f.HasLine .cellArea a → f.HasLine .cellAspectRatio r →
    c.heightInFeatureSize ^ 2 = c.area * c.aspectRatio ∧
      c.widthInFeatureSize ^ 2 = c.area / c.aspectRatio

/-- The reader ends with a cell that the lines describe, and with the same cell for
    every order of the lines after the first ones. -/
def CellFile.MeansItsLines (f : CellFile) (sqrt : K → K) (vdd : K) (mem : MemCell K)
    (line tmp : List Char) : Prop :=
  ∃ c, f.ReadsTo sqrt vdd mem line tmp c ∧ f.Describes vdd mem c ∧
    ∀ g : CellFile, g.head = f.head → g.others.Perm f.others → g.ReadsTo sqrt vdd mem line tmp c

/-- No two lines set or need the same field, and the set voltage is not `vdd`. -/
structure CellFile.Consistent (f : CellFile) (vdd : K) : Prop where
  area_ratio : ∀ a r, f.HasLine .cellArea a → ¬ f.HasLine .cellAspectRatio r
  on : ∀ p q, f.HasLine .resistanceOn (.num p) →
    f.HasLine .resistanceOnAtReadVoltage (.num q) → p = q
  off : ∀ p q, f.HasLine .resistanceOff (.num p) →
    f.HasLine .resistanceOffAtReadVoltage (.num q) → p = q
  set_reset : ∀ q, f.HasLine .setVoltage (.num q) → f.HasLine .resetVoltage .vdd → q = 0
  set_vdd : f.HasLine .setVoltage .vdd → vdd = 0

/-- The values of the lines after the first ones. -/
def CellFile.slots (f : CellFile) : CellSlots := CellSlots.addAll (fun _ => none) f.others

theorem CellFile.slots_eq_some (f : CellFile) {o : CellOption} {x : CellValue} :
    f.slots o = some x ↔ f.HasLine o x := by
  rw [slots, CellSlots.addAll_eq_some f.nodup_others]
  simp [HasLine]

theorem CellFile.slots_eq_none (f : CellFile) {o : CellOption} (h : ∀ x, ¬ f.HasLine o x) :
    f.slots o = none := by
  cases ho : f.slots o with
  | none => rfl
  | some x => exact absurd (f.slots_eq_some.mp ho) (h x)

theorem CellFile.Consistent.compatible {f : CellFile} (h : f.Consistent vdd) :
    f.slots.Compatible where
  area_ratio p q hp hq := h.area_ratio p q (f.slots_eq_some.mp hp) (f.slots_eq_some.mp hq)
  on p q hp hq := h.on p q (f.slots_eq_some.mp hp) (f.slots_eq_some.mp hq)
  off p q hp hq := h.off p q (f.slots_eq_some.mp hp) (f.slots_eq_some.mp hq)
  set_reset q hq hr := h.set_reset q (f.slots_eq_some.mp hq) (f.slots_eq_some.mp hr)

/-- A file whose lines are compatible is read as the cell they describe. -/
theorem CellFile.read_eq (f : CellFile) (h : f.slots.Compatible) (mem : MemCell K)
    (tmp : List Char) :
    f.read sqrt vdd mem tmp =
      f.slots.cell sqrt vdd (readAll sqrt vdd f.head ⟨MemCell.construct mem, tmp⟩).cell := by
  have hhead : (readAll sqrt vdd f.head ⟨MemCell.construct mem, tmp⟩).HeadRead :=
    headRead f mem tmp
  have hstart : (readAll sqrt vdd f.head ⟨MemCell.construct mem, tmp⟩).Holds sqrt vdd
      (readAll sqrt vdd f.head ⟨MemCell.construct mem, tmp⟩).cell (fun _ => none) := by
    constructor
    · exact (CellSlots.cell_none _ _ _).symm
    · exact fun hcon => absurd hcon hhead.tmp
  exact (hstart.readAll hhead.setVoltage f.others_options f.nodup_others (fun _ _ => rfl) h).cell

theorem CellFile.Consistent.meansItsLines {f : CellFile} (h : f.Consistent vdd)
    (mem : MemCell K) (line tmp : List Char) : f.MeansItsLines sqrt vdd mem line tmp := by
  have hread : f.read sqrt vdd mem tmp = f.slots.cell sqrt vdd
      (readAll sqrt vdd f.head ⟨MemCell.construct mem, tmp⟩).cell :=
    f.read_eq h.compatible mem tmp
  have hhead : (readAll sqrt vdd f.head ⟨MemCell.construct mem, tmp⟩).HeadRead :=
    headRead f mem tmp
  refine ⟨_, f.readsTo_iff.mpr rfl, ?_, ?_⟩
  · rw [hread]
    constructor
    case setVoltage_num =>
      intro q hq
      simp [CellSlots.cell, CellSlots.num, f.slots_eq_some.mpr hq]
    case setVoltage_vdd =>
      intro hv
      refine (CellSlots.num_of_vdd (K := K) (f.slots_eq_some.mpr hv) _).trans ?_
      exact hhead.setVoltage.trans (h.set_vdd hv).symm
    case setVoltage_none =>
      intro hnone
      refine (CellSlots.num_of_none (K := K) (f.slots_eq_none hnone) _).trans ?_
      exact hhead.setVoltage
    case resetVoltage_num =>
      intro q hq
      simp [CellSlots.cell, f.slots_eq_some.mpr hq]
    case resetVoltage_vdd =>
      intro hv
      simp [CellSlots.cell, f.slots_eq_some.mpr hv]
    case resetVoltage_none =>
      intro hnone
      simp only [CellSlots.cell, f.slots_eq_none hnone]
      exact hhead.resetVoltage
    case area_ratio =>
      intro a r ha hr
      exact absurd hr (h.area_ratio a r ha)
  · -- another order gives the options the same values
    intro g hg hperm
    have hslots : g.slots = f.slots := CellSlots.addAll_perm hperm g.nodup_others
    rw [g.readsTo_iff, hread, g.read_eq (by rw [hslots]; exact h.compatible), hg, hslots]

/-- Two lines at the front, in either order, give the cell of the file. -/
theorem CellFile.MeansItsLines.front {f : CellFile} {mem : MemCell K} {line tmp : List Char}
    (h : f.MeansItsLines sqrt vdd mem line tmp) {ls : List CellLine} (hls : ls.Perm f.others) :
    (readAll sqrt vdd ls (readAll sqrt vdd f.head ⟨MemCell.construct mem, tmp⟩)).cell =
      f.read sqrt vdd mem tmp := by
  obtain ⟨c, hc, -, horder⟩ := h
  have hg := horder (f.reorder ls hls) rfl hls
  rw [CellFile.readsTo_iff] at hc hg
  exact hg.symm.trans hc

/-- `vdd` is never stored, so it has to be the initial voltage. -/
theorem CellFile.MeansItsLines.set_vdd {f : CellFile} {mem : MemCell K} {line tmp : List Char}
    (h : f.MeansItsLines sqrt vdd mem line tmp) (hv : f.HasLine .setVoltage .vdd) : vdd = 0 := by
  obtain ⟨c, hc, hdescribes, -⟩ := h
  obtain ⟨l, hl, hopt, hval⟩ := hv
  rw [← hdescribes.setVoltage_vdd ⟨l, hl, hopt, hval⟩, f.readsTo_iff.mp hc]
  refine Eq.trans (readAll_frame MemCell.setVoltage (fun r hr s => ?_) _)
    (headRead f mem tmp).setVoltage
  by_cases hr' : r.option = .setVoltage
  · -- it is the line itself
    obtain rfl := f.eq_of_option_eq hr hl (hr'.trans hopt.symm)
    rcases r.read_setVoltage hr' s with ⟨-, hset⟩ | ⟨q, hq, -⟩
    · exact hset
    · rw [hval] at hq
      cases hq
  · exact CellOption.read_frame_setVoltage hr' _ _

end Slots

section Exact
variable {K : Type} [Field K] [LinearOrder K] [IsStrictOrderedRing K]
variable {sqrt : K → K} {vdd : K} {f : CellFile} {mem : MemCell K} {line tmp : List Char}

/-- `-SetVoltage` right behind `-ResetVoltage: vdd` stores nothing. -/
theorem CellFile.MeansItsLines.set_reset (h : f.MeansItsLines sqrt vdd mem line tmp) (q : ℚ)
    (hset : f.HasLine .setVoltage (.num q)) (hreset : f.HasLine .resetVoltage .vdd) : q = 0 := by
  obtain ⟨l, hl, hlo, hlv⟩ := hset
  obtain ⟨r, hr, hro, hrv⟩ := hreset
  obtain ⟨rest, hperm, hrest⟩ := f.exists_front hr hl (by rw [hlo, hro]; decide)
  have hframe : ∀ s, (readAll sqrt vdd rest s).cell.setVoltage = s.cell.setVoltage :=
    readAll_frame MemCell.setVoltage fun x hx s =>
      CellOption.read_frame_setVoltage (fun hcon => (hrest x hx).2 (hcon.trans hlo.symm)) _ _
  have hhead : (readAll sqrt vdd f.head ⟨MemCell.construct mem, tmp⟩).HeadRead :=
    headRead f mem tmp
  -- behind the reset voltage
  have hafter := congrArg MemCell.setVoltage (h.front hperm)
  -- in front of it
  have hbefore := congrArg MemCell.setVoltage (h.front ((List.Perm.swap r l rest).trans hperm))
  rw [readAll_cons, readAll_cons, hframe] at hafter hbefore
  have hkeep : ∀ s : CellReader K,
      (r.option.read sqrt vdd r.text s).cell.setVoltage = s.cell.setVoltage :=
    CellOption.read_frame_setVoltage (by rw [hro]; decide) r.text
  have hstore : ∀ s : CellReader K, (l.option.read sqrt vdd l.text s).cell.setVoltage =
      if s.tmp = vddWord then s.cell.setVoltage else (q : K) := by
    intro s
    rcases l.read_setVoltage hlo s with ⟨hv, -⟩ | ⟨p, hp, hfirst⟩
    · rw [hlv] at hv
      cases hv
    · obtain rfl : p = q := CellValue.num.inj (hp.symm.trans hlv)
      exact hfirst
  rw [hstore, if_pos (r.read_resetVoltage hro hrv _), hkeep, hhead.setVoltage] at hafter
  rw [hkeep, hstore, if_neg hhead.tmp] at hbefore
  have hzero : (q : K) = 0 := hbefore.trans hafter.symm
  exact Rat.cast_eq_zero.mp hzero

/-- The aspect ratio read first uses the initial area. -/
theorem CellFile.MeansItsLines.area_ratio (hsqrt : ∀ x, 0 ≤ x → sqrt x ^ 2 = x)
    (h : f.MeansItsLines sqrt vdd mem line tmp) (a r : CellValue) (ha : f.HasLine .cellArea a) :
    ¬ f.HasLine .cellAspectRatio r := by
  rintro ⟨l', hl', hlo', -⟩
  obtain ⟨l, hl, hlo, -⟩ := ha
  obtain ⟨p, hp, hp0, -⟩ := l.scan_positive (K := K) (by rw [hlo]; rfl)
  obtain ⟨q, hq, hq0, -⟩ := l'.scan_positive (K := K) (by rw [hlo']; rfl)
  obtain ⟨rest, hperm, hrest⟩ := f.exists_front hl hl' (by rw [hlo, hlo']; decide)
  have hframe : ∀ s, (readAll sqrt vdd rest s).cell.heightInFeatureSize =
      s.cell.heightInFeatureSize :=
    readAll_frame MemCell.heightInFeatureSize fun x hx s =>
      CellOption.read_frame_height (fun hcon => (hrest x hx).2 (hcon.trans hlo'.symm)) _ _
  have hhead : (readAll sqrt vdd f.head ⟨MemCell.construct mem, tmp⟩).HeadRead :=
    headRead f mem tmp
  have hafter := congrArg MemCell.heightInFeatureSize (h.front hperm)
  have hbefore := congrArg MemCell.heightInFeatureSize
    (h.front ((List.Perm.swap l l' rest).trans hperm))
  rw [readAll_cons, readAll_cons, hframe] at hafter hbefore
  rw [l'.read_aspectRatio hlo' hq, l.read_area hlo hp] at hafter
  rw [CellOption.read_frame_height (by rw [hlo]; decide), l'.read_aspectRatio hlo' hq,
    hhead.area, zero_mul] at hbefore
  -- the two heights would be equal
  have heq : sqrt ((p : K) * q) = sqrt 0 := by rw [hafter, hbefore]
  have hpos : (0 : K) < p * q := mul_pos (Rat.cast_pos.mpr hp0) (Rat.cast_pos.mpr hq0)
  have hsq : (p : K) * q = 0 := by
    rw [← hsqrt _ hpos.le, heq, hsqrt 0 le_rfl]
  exact hpos.ne' hsq

/-- Two options that set one field have to give it the same number. -/
theorem CellFile.MeansItsLines.agree (h : f.MeansItsLines sqrt vdd mem line tmp)
    (field : MemCell K → K) {o o' : CellOption} (hne : o ≠ o')
    (hstore : ∀ (l : CellLine) (q : ℚ), l.option = o ∨ l.option = o' → l.value = .num q →
      ∀ s, field (l.option.read sqrt vdd l.text s).cell = q)
    (hframe : ∀ x, x ≠ o → x ≠ o' → ∀ line s, field (CellOption.read sqrt vdd x line s).cell =
      field s.cell)
    {p q : ℚ} (hp : f.HasLine o (.num p)) (hq : f.HasLine o' (.num q)) : p = q := by
  obtain ⟨l, hl, hlo, hlv⟩ := hp
  obtain ⟨r, hr, hro, hrv⟩ := hq
  obtain ⟨rest, hperm, hrest⟩ := f.exists_front hl hr (by rw [hlo, hro]; exact hne)
  have hkept : ∀ s, field (readAll sqrt vdd rest s).cell = field s.cell :=
    readAll_frame field fun x hx s =>
      hframe _ (fun hcon => (hrest x hx).1 (hcon.trans hlo.symm))
        (fun hcon => (hrest x hx).2 (hcon.trans hro.symm)) _ s
  -- the second of the two lines decides
  have hafter := congrArg field (h.front hperm)
  have hbefore := congrArg field (h.front ((List.Perm.swap l r rest).trans hperm))
  rw [readAll_cons, readAll_cons, hkept] at hafter hbefore
  rw [hstore r q (.inr hro) hrv] at hafter
  rw [hstore l p (.inl hlo) hlv] at hbefore
  exact Rat.cast_injective (α := K) (hbefore.trans hafter.symm)

/-- A cell file means the set of its lines exactly when no two of them set or need
    the same field and its set voltage is not `vdd`, or `vdd` is the initial one. -/
theorem meansItsLines_iff (hsqrt : ∀ x : K, 0 ≤ x → sqrt x ^ 2 = x) :
    f.MeansItsLines sqrt vdd mem line tmp ↔ f.Consistent vdd := by
  constructor
  · intro h
    exact
      { area_ratio := h.area_ratio hsqrt
        on := fun p q => h.agree MemCell.resistanceOn (by decide)
          (fun l q ho hq s => l.read_resistanceOn ho hq s)
          (fun x hx hx' line s => (x.read_frame line s).2.1 hx hx')
        off := fun p q => h.agree MemCell.resistanceOff (by decide)
          (fun l q ho hq s => l.read_resistanceOff ho hq s)
          (fun x hx hx' line s => (x.read_frame line s).2.2.1 hx hx')
        set_reset := h.set_reset
        set_vdd := h.set_vdd }
  · intro h
    exact h.meansItsLines mem line tmp

end Exact

/-! ### Two files -/

def cellTypeLine : CellLine where
  option := .memCellType
  text := "-MemCellType: eDRAM".toList
  value := .word "eDRAM".toList
  key_prefix := by decide
  value_eq := rfl
  no_newline := by decide

def accessTypeLine : CellLine where
  option := .accessType
  text := "-AccessType: CMOS".toList
  value := .word "CMOS".toList
  key_prefix := by decide
  value_eq := rfl
  no_newline := by decide

def resetVoltageLine : CellLine where
  option := .resetVoltage
  text := "-ResetVoltage (V): vdd".toList
  value := .vdd
  key_prefix := by decide
  value_eq := rfl
  no_newline := by decide

def setVoltageLine : CellLine where
  option := .setVoltage
  text := "-SetVoltage (V): vdd".toList
  value := .vdd
  key_prefix := by decide
  value_eq := rfl
  no_newline := by decide

/-- The voltages of the eDRAM cells: both are `vdd`. -/
def voltagesFile : CellFile where
  head := [cellTypeLine, accessTypeLine]
  others := [resetVoltageLine, setVoltageLine]
  head_ne := by decide
  head_options := by decide
  others_options := by decide
  distinct := by decide

/-- The reset voltage alone. -/
def resetOnlyFile : CellFile where
  head := [cellTypeLine, accessTypeLine]
  others := [resetVoltageLine]
  head_ne := by decide
  head_options := by decide
  others_options := by decide
  distinct := by decide

theorem meansItsLines_iff_reset_only :
    resetOnlyFile.MeansItsLines Real.sqrt 1 default [] [] := by
  refine (meansItsLines_iff (fun x hx => Real.sq_sqrt hx)).mpr ?_
  have hnone : ∀ o x, o ≠ .resetVoltage → ¬ resetOnlyFile.HasLine o x := by
    rintro o x ho ⟨l, hl, hlo, -⟩
    obtain rfl : l = resetVoltageLine := List.mem_singleton.mp hl
    exact ho hlo.symm
  exact
    { area_ratio := fun a _ ha => absurd ha (hnone _ a (by decide))
      on := fun p _ hp => absurd hp (hnone _ _ (by decide))
      off := fun p _ hp => absurd hp (hnone _ _ (by decide))
      set_reset := fun q hq => absurd hq (hnone _ _ (by decide))
      set_vdd := fun hv => absurd hv (hnone _ _ (by decide)) }

/-- The set voltage of an eDRAM cell stays 0, whatever the supply voltage. -/
theorem set_voltage_not_stored :
    ¬ voltagesFile.MeansItsLines Real.sqrt 1 default [] [] := by
  intro h
  have hline : voltagesFile.HasLine .setVoltage .vdd :=
    ⟨setVoltageLine, List.mem_cons_of_mem _ List.mem_cons_self, rfl, rfl⟩
  exact one_ne_zero (h.set_vdd hline)

end Destiny
