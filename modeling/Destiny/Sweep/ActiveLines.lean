/-
  Destiny.Sweep.ActiveLines

  The lines of a configuration that `ReadInputParameterFromFile` acts on.

  * The reader drops the white space in front of every line but the first: `asRead` are
    the lines it meets (`read_asRead`).
  * The substitutions of `run_single_simulation` can be followed on them: `asRead`
    commutes with each (`CapacitySwapped.asRead_of_swapped`, `asRead_freeMap`,
    `asRead_setParam`, `asRead_foldl_setLines`).
-/

import Destiny.Sweep.ConfigFidelity
import Destiny.Sweep.Standing

namespace Destiny.Sweep

open Lib

/-! ## The lines as read -/

/-- The lines as the reader meets them: it does not skip the white space in front of the
    first, so that an indented first line is none of its options. -/
def asRead : List (List Char) → List (List Char)
  | [] => []
  | l :: ls => (if l.head?.any isspace then [] else l) :: ls

theorem asRead_cons (l : List Char) (ls : List (List Char)) :
    asRead (l :: ls) = (if l.head?.any isspace then [] else l) :: ls := rfl

section
variable {unit repl : List Char} {ls ms : List (List Char)}

theorem CapacitySwapped.asRead_of_swapped (hunit : ∃ z, unit = '(' :: z ∧ '\n' ∉ z)
    (hrepl : '\n' ∉ repl) (hstart : ∃ b, repl = '-' :: 'C' :: b)
    (h : LinePattern.Swapped (capacityPattern unit) repl ls ms) :
    CapacitySwapped unit repl (asRead ls) (asRead ms) := by
  cases h with
  | nil => exact .nil
  | @keep l ls ms hl hnone hrest =>
      have htail := CapacitySwapped.of_swapped hunit hrepl hrest
      rw [asRead_cons, asRead_cons]
      split
      · exact .keep List.not_mem_nil rfl htail
      · exact .keep hl (hnone _ (List.dropWhile_suffix _)) htail
  | @swap u body rest r ls ms hu hfirst hmatch hend hrest =>
      have htail := CapacitySwapped.of_swapped hunit hrepl hrest
      obtain ⟨a, ds, ha, hlines, hds⟩ := splitOn_match hunit hu hmatch hend
      have hclean : '\n' ∉ u ++ repl := by
        rw [List.mem_append, not_or]
        exact ⟨hu, hrepl⟩
      obtain ⟨b, rfl⟩ := hstart
      rw [hlines, List.splitOn_eq_singleton hclean, List.cons_append, List.cons_append,
        List.nil_append, asRead_cons, asRead_cons, head?_append_dash u ('C' :: a) ('C' :: b)]
      split
      · exact .keep List.not_mem_nil rfl (htail.append_lost hds)
      · exact .swap hu ha (hfirst _ (List.dropWhile_suffix _)) (htail.append_lost hds)

end

theorem asRead_append {ls : List (List Char)} (hne : ls ≠ []) (ms : List (List Char)) :
    asRead (ls ++ ms) = asRead ls ++ ms := by
  obtain ⟨l, ls, rfl⟩ := List.exists_cons_of_ne_nil hne
  rfl

/-- An indented line names no parameter. -/
theorem names_of_indented {param l : List Char} (hparam : PlainName param)
    (h : l.head?.any isspace = true) : names param l = false := by
  rw [← Bool.not_eq_true]
  intro hnames
  have hsolid : Solid fun c => !isspace c := fun c hc => by simp [hc]
  have hhead := head_of_names hsolid hparam hnames
  cases l with
  | nil => cases h
  | cons c l =>
      have hc : isspace c = true := by simpa using h
      have hc' : (!isspace c) = true := by simpa using hhead
      rw [hc] at hc'
      cases hc'

theorem any_names_asRead {param : List Char} (hparam : PlainName param) (ls : List (List Char)) :
    (asRead ls).any (names param) = ls.any (names param) := by
  cases ls with
  | nil => rfl
  | cons l ls =>
      rw [asRead_cons, List.any_cons, List.any_cons]
      split
      · next h => rw [not_names_nil hparam, names_of_indented hparam h]
      · rfl

theorem asRead_setParam {param repl : List Char} (hparam : PlainName param)
    (hrepl : repl.head?.any isspace = false) (ls : List (List Char)) :
    asRead (setParam param repl ls) = setParam param repl (asRead ls) := by
  cases ls with
  | nil => rfl
  | cons l ls =>
      show asRead ((if names param l then repl else l) :: setParam param repl ls) =
        (if names param (if l.head?.any isspace then [] else l) then repl
          else if l.head?.any isspace then [] else l) :: setParam param repl ls
      rw [asRead_cons]
      cases hindent : l.head?.any isspace with
      | true =>
          have hnames := names_of_indented hparam hindent
          simp [hnames, hindent, not_names_nil hparam]
      | false =>
          cases hnames : names param l with
          | true => simp [hnames, hrepl]
          | false => simp [hnames, hindent]

theorem setLines_ne_nil {s : List Char × List Char} {ls : List (List Char)} (hne : ls ≠ []) :
    setLines ls s ≠ [] := by
  unfold setLines
  split
  · exact setParam_ne_nil hne
  · exact List.append_ne_nil_of_left_ne_nil hne _

theorem asRead_setLines {s : List Char × List Char} (hparam : PlainName s.1)
    {ls : List (List Char)} (hne : ls ≠ []) :
    asRead (setLines ls s) = setLines (asRead ls) s := by
  unfold setLines
  rw [any_names_asRead hparam]
  split
  · exact asRead_setParam hparam rfl ls
  · exact asRead_append hne _

theorem asRead_foldl_setLines {ss : List (List Char × List Char)}
    (hplain : ∀ s ∈ ss, PlainName s.1) {ls : List (List Char)} (hne : ls ≠ []) :
    ss.foldl setLines ls ≠ [] ∧
      asRead (ss.foldl setLines ls) = ss.foldl setLines (asRead ls) := by
  induction ss generalizing ls with
  | nil => exact ⟨hne, rfl⟩
  | cons s ss ih =>
      obtain ⟨hs, hrest⟩ := List.forall_mem_cons.mp hplain
      obtain ⟨hne', heq⟩ := ih hrest (setLines_ne_nil hne (s := s))
      exact ⟨hne', by rw [List.foldl_cons, List.foldl_cons, heq, asRead_setLines hs hne]⟩

theorem asRead_forcedLines {ls : List (List Char)} (hne : ls ≠ []) :
    asRead (forcedLines ls) = forcedLines (asRead ls) := by
  unfold forcedLines
  rw [List.append_assoc, List.append_assoc,
    asRead_append (setParam_ne_nil (setParam_ne_nil hne)), asRead_setParam plainName_pruning rfl,
    asRead_setParam plainName_target rfl]

/-- A free substitution leaves the start of a line. -/
theorem indented_freeSub {p : LinePattern} {c : Char} {repl : List Char} (hp : FreePattern p c)
    (hrepl : ∃ b, repl = '-' :: c :: b) (l : List Char) :
    (p.subLine repl true l).head?.any isspace = l.head?.any isspace := by
  obtain ⟨b, rfl⟩ := hrepl
  rcases freeSub_cases hp ('-' :: c :: b) l with h | ⟨u, a, rfl, -, h⟩
  · rw [h]
  · rw [h, head?_append_dash u (c :: b) (c :: a)]

theorem asRead_freeMap {p : LinePattern} {c : Char} {repl : List Char} (hp : FreePattern p c)
    (hrepl : ∃ b, repl = '-' :: c :: b) (ls : List (List Char)) :
    asRead (freeMap p repl ls) = freeMap p repl (asRead ls) := by
  cases ls with
  | nil => rfl
  | cons l ls =>
      show asRead (p.subLine repl true l :: freeMap p repl ls) =
        p.subLine repl true (if l.head?.any isspace then [] else l) :: freeMap p repl ls
      rw [asRead_cons, indented_freeSub hp hrepl]
      split <;> rfl

/-- The reader on a text that does not start with a newline. -/
theorem read_asRead {text : List Char} (htext : text.head? ≠ some '\n') (buffer : List Char)
    (s : ConfigReader) : ∃ rounds, ConfigReader.ReadInputParameterFromFile rounds text buffer s =
      some ((asRead (text.splitOn '\n')).foldl readSkipped s) := by
  obtain ⟨rounds, hrun⟩ := lineLoop_ends ConfigReader.readLine htext buffer s
  refine ⟨rounds, hrun.trans (congrArg some ?_)⟩
  obtain ⟨l, ls, hsplit⟩ := List.exists_cons_of_ne_nil (List.splitOn_ne_nil '\n' text)
  unfold fetchedLines
  rw [hsplit, asRead_cons, List.foldl_cons]
  cases l with
  | nil =>
      have hnil : readSkipped s [] = s := readSkipped_of_none (optionOf_blank rfl) s
      exact (foldl_tidy ls s).trans (congrArg (ls.foldl readSkipped) hnil.symm)
  | cons c l =>
      show (tidy ls).foldl (fun s l => ConfigReader.readLine l s)
        (ConfigReader.readLine (c :: l) s) = _
      rw [foldl_tidy]
      congr 1
      cases hc : isspace c with
      | true =>
          -- no option starts with white space
          have hnone : branchOf ConfigOption.all ConfigOption.key (c :: l) = none := by
            unfold branchOf
            rw [List.find?_eq_none]
            intro o _ hhead
            obtain ⟨-, -, d, k, hkey, -⟩ := key_shape o
            rw [List.isPrefixOf_iff_prefix, hkey, List.cons_prefix_cons] at hhead
            rw [← hhead.1] at hc
            cases hc
          have hindent : (c :: l).head?.any isspace = true := by simpa using hc
          rw [if_pos hindent, readSkipped_of_none (optionOf_blank rfl)]
          unfold ConfigReader.readLine
          rw [hnone]
      | false =>
          have hindent : ¬ (c :: l).head?.any isspace = true := by simp [hc]
          rw [if_neg hindent]
          unfold readSkipped
          rw [skipSpace_cons_of_not hc]

/-- The first line that a substitution makes of a line that is read is read. -/
theorem mem_asRead_flatMap {ls : List (List Char)} {f : List Char → List (List Char)}
    (hf : ∀ l, f l ≠ []) {l m : List Char} (hl : l ∈ asRead ls) (hne : l ≠ [])
    (hm : m ∈ (f l).head?) (hindent : l.head?.any isspace = false → m.head?.any isspace = false) :
    m ∈ asRead (ls.flatMap f) := by
  have hmem : m ∈ f l := List.mem_of_mem_head? hm
  cases ls with
  | nil => cases hl
  | cons l' ls =>
      rw [List.flatMap_cons]
      rw [asRead_cons, List.mem_cons] at hl
      rcases hl with hl | hl
      · -- the line is the first
        split at hl
        · exact absurd hl hne
        · next hfirst =>
          subst hl
          obtain ⟨ms, hms⟩ := List.head?_eq_some_iff.mp hm
          rw [hms, List.cons_append, asRead_cons, hindent (by simpa using hfirst)]
          exact List.mem_cons_self
      · have hrest : m ∈ ls.flatMap f := List.mem_flatMap.mpr ⟨l, hl, hmem⟩
        obtain ⟨m', ms, hms⟩ := List.exists_cons_of_ne_nil (hf l')
        rw [hms, List.cons_append, asRead_cons]
        exact List.mem_cons_of_mem _ (List.mem_append_right _ hrest)

theorem newline_not_mem_asRead {t l : List Char} (hl : l ∈ asRead (t.splitOn '\n')) :
    '\n' ∉ l := by
  cases hsplit : t.splitOn '\n' with
  | nil => exact absurd hsplit (List.splitOn_ne_nil '\n' t)
  | cons l' ls =>
      rw [hsplit, asRead_cons, List.mem_cons] at hl
      rcases hl with rfl | hl
      · split
        · exact List.not_mem_nil
        · exact LinePattern.newline_not_mem_line (hsplit ▸ List.mem_cons_self)
      · exact LinePattern.newline_not_mem_line (hsplit ▸ List.mem_cons_of_mem _ hl)

/-- The word on a line of the cell file is one of the names. -/
theorem mem_fileMemCell {l w : List Char} {ls : List (List Char)} (hl : l ∈ ls)
    (htext : skipSpace l = cellSetting w) (hw : w.head?.any (fun c => !isspace c) = true)
    (s : ConfigReader) :
    String.ofList (w.takeWhile fun c => !isspace c) ∈ (ls.foldl readSkipped s).ip.fileMemCell := by
  obtain ⟨before, after, rfl⟩ := List.append_of_mem hl
  rw [List.foldl_append, List.foldl_cons]
  refine (prefix_foldl_readSkipped after _).subset ?_
  generalize List.foldl readSkipped s before = s₁
  have hoption : optionOf l = some .memoryCellInputFile := by
    have h := optionOf_of_skipSpace (htext.trans (skipSpace_setting _ _).symm)
    rw [h, ← cellSetting, optionOf_cellSetting]
  obtain ⟨c, t, rfl⟩ : ∃ c t, w = c :: t := by
    cases w with
    | nil => cases hw
    | cons c t => exact ⟨c, t, rfl⟩
  have hc : isspace c = false := by simpa using hw
  have hword : sscanfWord ConfigOption.memoryCellInputFile.label (cellSetting (c :: t)) s₁.tmp =
      (c :: t).takeWhile fun c => !isspace c := by
    have hskip : skipSpace (c :: t) = c :: t := skipSpace_cons_of_not hc t
    unfold sscanfWord
    rw [cellSetting, setting_eq_text label_cell, ConfigLine.text,
      ConfigOption.scanLiteral_label, hskip, Option.bind_some]
    unfold scanWord
    rw [hskip, if_neg (by simp [hc])]
  rw [readSkipped_of_some hoption, htext]
  show String.ofList _ ∈ s₁.ip.fileMemCell ++ [String.ofList (sscanfWord
    ConfigOption.memoryCellInputFile.label (cellSetting (c :: t)) s₁.tmp)]
  rw [hword]
  exact List.mem_append_right _ List.mem_cons_self

end Destiny.Sweep
