/-
  Destiny.Sweep.CellText

  Cell files as generate_cells.py writes and reads them: `write_cell_file` and
  `parse_cell_file`.

  Every parameter is a line `-key: value`, the type of the cell first; a key that
  starts with `//` makes a comment.  The parameters read from a written file are
  those that are no comments, with the texts that were printed for their values
  (`parse_write`).
-/

import Destiny.Sweep.CellParams

namespace Destiny.Sweep

open Lib

/-! ## Dictionaries of cells -/

/-- A text that fills its place in a line. -/
structure LineText (t : List Char) : Prop where
  stripped : Stripped t
  line : ∀ c ∈ t, isNewline c = false

/-- A text that is read back as a key. -/
structure KeyText (t : List Char) : Prop extends LineText t where
  no_colon : ':' ∉ t

/-- A dictionary of parameters, as `parse_cell_file` gives it and assignments to
    known keys leave it. -/
structure SyntheticParams extends PyDict CellValue where
  key_text : ∀ kv ∈ items, KeyText kv.1
  value_text : ∀ kv ∈ items, ∀ t, kv.2 = .text t → LineText t

/-- `new_params[key] = value` -/
def SyntheticParams.assign (p : SyntheticParams) {key : List Char} (hkey : KeyText key)
    (value : CellValue) (hvalue : ∀ t, value = .text t → LineText t) : SyntheticParams where
  toPyDict := p.set key value
  key_text kv hkv := by
    rcases PyDict.mem_items_set hkv with rfl | hkv
    · exact hkey
    · exact p.key_text kv hkv
  value_text kv hkv := by
    rcases PyDict.mem_items_set hkv with rfl | hkv
    · exact hvalue
    · exact p.value_text kv hkv

/-! ## The reader -/

/-- `line[1:].split(':', 1)`; none when it is one part. -/
def splitColon (t : List Char) : Option (List Char × List Char) :=
  match t.dropWhile fun c => c ≠ ':' with
  | [] => none
  | _ :: val_part => some (t.takeWhile fun c => c ≠ ':', val_part)

/-- The body of the loop of `parse_cell_file`; none where it raises. -/
def parseLine (params : PyDict CellValue) (line : List Char) : Option (PyDict CellValue) :=
  let line := strip line
  if line = [] ∨ "//".toList <+: line then some params
  else
    match line with
    | '-' :: rest =>
      (splitColon rest).map fun (key_part, val_part) =>
        params.set (strip key_part) (.text (strip val_part))
    | _ => some params

def parse_cell_file (file : List Char) : Option (PyDict CellValue) :=
  (textLines file).foldlM parseLine .empty

/-! ## The writer -/

def type_key : List Char := "MemCellType".toList

def isComment (key : List Char) : Bool := "//".toList.isPrefixOf key

/-- `{value}`; `str` of a float is a parameter. -/
def CellValue.str (repr : ℚ → Decimal) : CellValue → List Char
  | .text t => t
  | .int n => integer n
  | .float x => (repr x).text

/-- The value of a parameter as it is written. -/
def CellValue.format : CellValue → List Char
  | .text t => t
  | .int n => integer n
  | .float x => if x < 1e-6 then (scientificFormat 2 x).text else (fixedFormat 4 x).text

/-- `{key}: {value}`, with the end of the line. -/
def assignment (key value : List Char) : List Char := key ++ ": ".toList ++ value ++ ['\n']

/-- The type of the cell comes first. -/
def typeItems (params : PyDict CellValue) : List (List Char × CellValue) :=
  match params.get? type_key with
  | some value => [(type_key, value)]
  | none => []

/-- `comment_keys`, with their values. -/
def commentItems (params : PyDict CellValue) : List (List Char × CellValue) :=
  params.items.filter fun kv => isComment kv.1

def otherItems (params : PyDict CellValue) : List (List Char × CellValue) :=
  params.items.filter fun kv => !(kv.1 == type_key || isComment kv.1)

def write_cell_file (repr : ℚ → Decimal) (params : PyDict CellValue) : List Char :=
  "// SYNTHETIC CELL GENERATED FOR DESIGN SPACE EXPLORATION".toList ++ ['\n', '\n'] ++
    ((typeItems params).flatMap fun kv => assignment ('-' :: kv.1) (kv.2.str repr)) ++
    ((commentItems params).flatMap fun kv => assignment kv.1 (kv.2.str repr)) ++
    ((otherItems params).flatMap fun kv => assignment ('-' :: kv.1) kv.2.format)

/-- The parameters that are read back, with their texts. -/
def writtenItems (repr : ℚ → Decimal) (params : PyDict CellValue) :
    List (List Char × CellValue) :=
  (typeItems params).map (fun kv => (kv.1, .text (kv.2.str repr))) ++
    (otherItems params).map fun kv => (kv.1, .text kv.2.format)

/-! ## One line read -/

theorem span_key {key : List Char} (h : ':' ∉ key) (rest : List Char) :
    splitColon (key ++ ':' :: rest) = some (key, rest) := by
  have hne : ∀ c ∈ key, decide (c ≠ ':') = true := fun c hc => by
    simpa using fun heq : c = ':' => h (heq ▸ hc)
  obtain ⟨htake, hdrop⟩ := span_append (y := ':' :: rest) hne fun c hc => by
    obtain rfl : ':' = c := Option.some.inj hc
    decide
  unfold splitColon
  rw [hdrop, htake]

theorem parseLine_entry (params : PyDict CellValue) {key value : List Char} (hkey : KeyText key)
    (hvalue : LineText value) :
    parseLine params ('-' :: key ++ ": ".toList ++ value) =
      some (params.set key (.text value)) := by
  have hline : '-' :: key ++ ": ".toList ++ value = '-' :: key ++ ':' :: ' ' :: value := by
    rw [String.toList_ofList, List.append_assoc]
    rfl
  have hstrip : strip ('-' :: key ++ ':' :: ' ' :: value) =
      '-' :: (key ++ ':' :: rstrip (' ' :: value)) := by
    rw [List.cons_append, strip, lstrip_cons (by decide), ← List.cons_append,
      rstrip_append_cons (by decide), List.cons_append]
  have hread : ¬ ('-' :: (key ++ ':' :: rstrip (' ' :: value)) = [] ∨
      "//".toList <+: '-' :: (key ++ ':' :: rstrip (' ' :: value))) := by
    rw [String.toList_ofList, List.cons_prefix_cons]
    rintro (h | ⟨h, -⟩)
    · cases h
    · exact absurd h (by decide)
  unfold parseLine
  rw [hline, hstrip]
  dsimp only
  rw [if_neg hread]
  show (splitColon (key ++ ':' :: rstrip (' ' :: value))).map _ = _
  rw [span_key hkey.no_colon, Option.map_some, hkey.stripped.strip_eq,
    hvalue.stripped.strip_space_cons]

theorem parseLine_comment (params : PyDict CellValue) (t : List Char) :
    parseLine params ('/' :: '/' :: t) = some params := by
  have hstrip : strip ('/' :: '/' :: t) = '/' :: '/' :: rstrip t := by
    rw [strip, lstrip_cons (by decide)]
    exact rstrip_append_cons (by decide) ['/'] t
  have hprefix : "//".toList <+: '/' :: '/' :: rstrip t := by
    rw [String.toList_ofList]
    exact ⟨rstrip t, rfl⟩
  unfold parseLine
  rw [hstrip]
  exact if_pos (.inr hprefix)

/-! ## A written file read -/

theorem lineText_text (d : Decimal) : LineText d.text := by
  refine ⟨d.stripped_text, fun c hc => ?_⟩
  have hspace := isPySpace_of_isNumberChar (d.isNumberChar_of_mem_text hc)
  by_contra hnewline
  simp only [isNewline, Bool.not_eq_false, Bool.or_eq_true, decide_eq_true_eq] at hnewline
  rcases hnewline with rfl | rfl <;> exact absurd hspace (by decide)

theorem lineText_integer (n : ℤ) : LineText (integer n) :=
  Decimal.text_ofInt n ▸ lineText_text (.ofInt n)

section
variable {p : SyntheticParams} {kv : List Char × CellValue}

theorem SyntheticParams.lineText_str (repr : ℚ → Decimal) (h : kv ∈ p.items) :
    LineText (kv.2.str repr) := by
  cases hv : kv.2 with
  | text t => exact p.value_text kv h t hv
  | int n => exact lineText_integer n
  | float x => exact lineText_text (repr x)

theorem SyntheticParams.lineText_format (h : kv ∈ p.items) : LineText kv.2.format := by
  cases hv : kv.2 with
  | text t => exact p.value_text kv h t hv
  | int n => exact lineText_integer n
  | float x =>
      unfold CellValue.format
      dsimp only
      split_ifs
      · exact lineText_text _
      · exact lineText_text _

end

/-- The line of an assignment, without its end, holds no end of a line. -/
theorem isNewline_of_assignment {key value : List Char} (hkey : ∀ c ∈ key, isNewline c = false)
    (hvalue : LineText value) : ∀ c ∈ key ++ ": ".toList ++ value, isNewline c = false := by
  intro c hc
  rcases List.mem_append.mp hc with hc | hc
  · rcases List.mem_append.mp hc with hc | hc
    · exact hkey c hc
    · rw [String.toList_ofList] at hc
      rcases List.mem_cons.mp hc with rfl | hc
      · decide
      · obtain rfl := List.mem_singleton.mp hc
        decide
  · exact hvalue.line c hc

theorem foldlM_assignment {key value : List Char} (hkey : ∀ c ∈ key, isNewline c = false)
    (hvalue : LineText value) (rest : List Char) (params : PyDict CellValue) :
    (textLines (assignment key value ++ rest)).foldlM parseLine params =
      (parseLine params (key ++ ": ".toList ++ value)).bind fun params =>
        (textLines rest).foldlM parseLine params := by
  have hsplit : assignment key value ++ rest =
      (key ++ ": ".toList ++ value) ++ '\n' :: rest := by
    rw [assignment, List.append_assoc _ ['\n'], List.singleton_append]
  rw [hsplit, textLines_line (isNewline_of_assignment hkey hvalue), List.foldlM_cons]
  rfl

/-- The lines of parameters are added in their order. -/
theorem foldlM_entries (items : List (List Char × CellValue))
    (f : List Char × CellValue → List Char) (rest : List Char) (params : PyDict CellValue)
    (hkey : ∀ kv ∈ items, KeyText kv.1) (hvalue : ∀ kv ∈ items, LineText (f kv))
    (hnodup : (params.keys ++ items.map Prod.fst).Nodup) :
    ∃ params', params'.items = params.items ++ items.map (fun kv => (kv.1, .text (f kv))) ∧
      (textLines ((items.flatMap fun kv => assignment ('-' :: kv.1) (f kv)) ++ rest)).foldlM
          parseLine params =
        (textLines rest).foldlM parseLine params' := by
  induction items generalizing params with
  | nil => exact ⟨params, by simp, rfl⟩
  | cons kv items ih =>
      have hk := hkey kv List.mem_cons_self
      have hv := hvalue kv List.mem_cons_self
      have hfresh : kv.1 ∉ params.keys := fun hmem =>
        List.disjoint_of_nodup_append hnodup hmem List.mem_cons_self
      have hitems := PyDict.items_set_of_not_mem hfresh (.text (f kv))
      have hnodup' : ((params.set kv.1 (.text (f kv))).keys ++ items.map Prod.fst).Nodup := by
        rw [PyDict.keys, hitems, List.map_append]
        simpa [PyDict.keys] using hnodup
      obtain ⟨params', hparams', hrun⟩ := ih _ (fun kv h => hkey kv (List.mem_cons_of_mem _ h))
        (fun kv h => hvalue kv (List.mem_cons_of_mem _ h)) hnodup'
      refine ⟨params', ?_, ?_⟩
      · rw [hparams', hitems, List.append_assoc]
        rfl
      · have hminus : ∀ c ∈ '-' :: kv.1, isNewline c = false :=
          List.forall_mem_cons.mpr ⟨by decide, hk.line⟩
        rw [List.flatMap_cons, List.append_assoc, foldlM_assignment hminus hv,
          parseLine_entry _ hk hv, Option.bind_some, hrun]

/-- The lines of comments are skipped. -/
theorem foldlM_comments {items : List (List Char × CellValue)}
    {f : List Char × CellValue → List Char} (hkey : ∀ kv ∈ items, KeyText kv.1)
    (hcomment : ∀ kv ∈ items, isComment kv.1 = true) (hvalue : ∀ kv ∈ items, LineText (f kv))
    (rest : List Char) (params : PyDict CellValue) :
    (textLines ((items.flatMap fun kv => assignment kv.1 (f kv)) ++ rest)).foldlM parseLine
        params = (textLines rest).foldlM parseLine params := by
  induction items with
  | nil => rfl
  | cons kv items ih =>
      have hslashes := hcomment kv List.mem_cons_self
      unfold isComment at hslashes
      rw [String.toList_ofList, List.isPrefixOf_iff_prefix] at hslashes
      obtain ⟨t, ht⟩ := hslashes
      rw [List.flatMap_cons, List.append_assoc, foldlM_assignment (hkey kv List.mem_cons_self).line
        (hvalue kv List.mem_cons_self), ← ht]
      refine Eq.trans ?_ (ih (fun kv h => hkey kv (List.mem_cons_of_mem _ h))
        (fun kv h => hcomment kv (List.mem_cons_of_mem _ h))
        (fun kv h => hvalue kv (List.mem_cons_of_mem _ h)))
      exact congrArg (Option.bind · _) (parseLine_comment params (t ++ ": ".toList ++ f kv))

theorem foldlM_header (rest : List Char) :
    (textLines ("// SYNTHETIC CELL GENERATED FOR DESIGN SPACE EXPLORATION".toList ++ ['\n', '\n'] ++
        rest)).foldlM parseLine .empty =
      (textLines rest).foldlM parseLine .empty := by
  rw [String.toList_ofList]
  -- a comment and a blank line
  have hsplit (title : List Char) : title ++ ['\n', '\n'] ++ rest =
      title ++ '\n' :: ([] ++ '\n' :: rest) := by simp
  rw [hsplit, textLines_line (isNewline_of_all (by decide +kernel)),
    textLines_line (List.forall_mem_nil _), List.foldlM_cons, parseLine_comment]
  rfl

theorem mem_items_of_mem_typeItems {params : PyDict CellValue} {kv : List Char × CellValue}
    (h : kv ∈ typeItems params) : kv ∈ params.items ∧ kv.1 = type_key := by
  unfold typeItems at h
  split at h
  · next value hvalue =>
    obtain rfl := List.mem_singleton.mp h
    exact ⟨PyDict.get?_eq_some_iff.mp hvalue, rfl⟩
  · cases h

theorem nodup_writtenKeys (params : PyDict CellValue) :
    ((typeItems params).map Prod.fst ++ (otherItems params).map Prod.fst).Nodup := by
  refine List.nodup_append.mpr ⟨?_, ?_, ?_⟩
  · unfold typeItems
    split
    · exact List.nodup_singleton _
    · exact List.nodup_nil
  · exact params.nodup.sublist (List.filter_sublist.map _)
  · intro k hk k' hk' heq
    obtain ⟨kv, hkv, rfl⟩ := List.mem_map.mp hk
    obtain ⟨kv', hkv', rfl⟩ := List.mem_map.mp hk'
    have hother := (List.mem_filter.mp hkv').2
    rw [← heq, (mem_items_of_mem_typeItems hkv).2] at hother
    simp at hother

/-- What is read from a written file. -/
theorem parse_write (repr : ℚ → Decimal) (p : SyntheticParams) :
    ∃ q, parse_cell_file (write_cell_file repr p.toPyDict) = some q ∧
      q.items = writtenItems repr p.toPyDict := by
  have htype (kv) (h : kv ∈ typeItems p.toPyDict) : kv ∈ p.items :=
    (mem_items_of_mem_typeItems h).1
  have hcomment (kv) (h : kv ∈ commentItems p.toPyDict) : kv ∈ p.items :=
    (List.mem_filter.mp h).1
  have hother (kv) (h : kv ∈ otherItems p.toPyDict) : kv ∈ p.items := (List.mem_filter.mp h).1
  have hnodup := nodup_writtenKeys p.toPyDict
  obtain ⟨q₁, hq₁, hrun₁⟩ := foldlM_entries (typeItems p.toPyDict) (fun kv => kv.2.str repr)
    (((commentItems p.toPyDict).flatMap fun kv => assignment kv.1 (kv.2.str repr)) ++
      (((otherItems p.toPyDict).flatMap fun kv => assignment ('-' :: kv.1) kv.2.format) ++ []))
    .empty (fun kv h => p.key_text kv (htype kv h)) (fun kv h => p.lineText_str repr (htype kv h))
    (List.Nodup.of_append_left hnodup)
  have hkeys : q₁.keys = (typeItems p.toPyDict).map Prod.fst := by
    rw [PyDict.keys, hq₁, List.map_append, List.map_map]
    rfl
  obtain ⟨q₂, hq₂, hrun₂⟩ := foldlM_entries (otherItems p.toPyDict) (fun kv => kv.2.format) [] q₁
    (fun kv h => p.key_text kv (hother kv h)) (fun kv h => p.lineText_format (hother kv h))
    (by rwa [hkeys])
  refine ⟨q₂, ?_, ?_⟩
  · rw [List.append_nil] at hrun₁ hrun₂
    unfold parse_cell_file write_cell_file
    rw [List.append_assoc, List.append_assoc, foldlM_header, hrun₁,
      foldlM_comments (fun kv h => p.key_text kv (hcomment kv h))
        (fun kv h => (List.mem_filter.mp h).2) (fun kv h => p.lineText_str repr (hcomment kv h)),
      hrun₂]
    rfl
  · rw [hq₂, hq₁]
    rfl

end Destiny.Sweep
