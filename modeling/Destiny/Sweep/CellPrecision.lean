/-
  Destiny.Sweep.CellPrecision

  How much of a cell is left when the file written for it is read back.

  destiny_utils.py has a reader of its own, `parse_cell_params`, which agrees with
  `parse_cell_file` on every file that the latter reads.  Keys, texts and integers
  come back as they were.  A float loses digits: three are kept below one
  millionth, and from there on four decimals, whatever the size of the number.
-/

import Destiny.Sweep.CellRoundTrip

namespace Destiny.Sweep

open Lib

/-! ## The second reader -/

/-- The body of the loop of `parse_cell_params`. -/
def parseParamsLine (params : PyDict CellValue) (line : List Char) : PyDict CellValue :=
  let line := strip line
  if line = [] ∨ "//".toList <+: line then params
  else
    match line with
    | '-' :: rest =>
      match splitColon rest with
      | some (key_part, val_part) => params.set (strip key_part) (.text (strip val_part))
      -- a line without a colon is skipped
      | none => params
    | _ => params

def parse_cell_params (file : List Char) : PyDict CellValue :=
  (textLines file).foldl parseParamsLine .empty

section
variable {params q : PyDict CellValue} {line : List Char}

theorem parseParamsLine_of_skip (h : strip line = [] ∨ "//".toList <+: strip line) :
    parseParamsLine params line = params := by
  unfold parseParamsLine
  dsimp only
  rw [if_pos h]

theorem parseParamsLine_of_dash {rest key_part val_part : List Char}
    (hskip : ¬ (strip line = [] ∨ "//".toList <+: strip line)) (hline : strip line = '-' :: rest)
    (hsplit : splitColon rest = some (key_part, val_part)) :
    parseParamsLine params line = params.set (strip key_part) (.text (strip val_part)) := by
  unfold parseParamsLine
  dsimp only
  rw [if_neg hskip]
  simp only [hline, hsplit]

theorem parseParamsLine_of_no_dash (hline : ∀ rest, strip line ≠ '-' :: rest) :
    parseParamsLine params line = params := by
  unfold parseParamsLine
  dsimp only
  split_ifs
  · rfl
  · split
    · next rest hdash => exact absurd hdash (hline rest)
    · rfl

/-- The readers agree on a line that the first one reads. -/
theorem parseParamsLine_eq (h : parseLine params line = some q) :
    parseParamsLine params line = q := by
  unfold parseLine at h
  dsimp only at h
  split_ifs at h with hskip
  · rw [parseParamsLine_of_skip hskip]
    exact Option.some.inj h
  · split at h
    · next rest hline =>
      obtain ⟨⟨key_part, val_part⟩, hsplit, rfl⟩ := Option.map_eq_some_iff.mp h
      exact parseParamsLine_of_dash hskip hline hsplit
    · next hline =>
      obtain rfl := Option.some.inj h
      exact parseParamsLine_of_no_dash fun rest hdash => hline rest hdash

end

theorem parse_cell_params_eq {file : List Char} {q : PyDict CellValue}
    (h : parse_cell_file file = some q) : parse_cell_params file = q := by
  have hfold : ∀ (lines : List (List Char)) (params : PyDict CellValue),
      lines.foldlM parseLine params = some q → lines.foldl parseParamsLine params = q := by
    intro lines
    induction lines with
    | nil => exact fun params hparams => Option.some.inj hparams
    | cons line lines ih =>
        intro params hlines
        rw [List.foldlM_cons] at hlines
        obtain ⟨params', hline, hrest⟩ := Option.bind_eq_some_iff.mp hlines
        rw [List.foldl_cons, parseParamsLine_eq hline]
        exact ih params' hrest
  exact hfold (textLines file) .empty h

/-! ## Values read back -/

/-- A value is read as the text `t`: unchanged, or a float to one percent. -/
def CellValue.ReadAs (t : List Char) : CellValue → Prop
  | .text s => t = s
  | .int n => t = integer n
  | .float x => ∃ y, pyFloat t = some y ∧ |y - x| ≤ x / 100

/-- The parameters read back are those that are no comments, the type of the cell first. -/
structure RoundTrip (p q : PyDict CellValue) : Prop where
  keys : q.keys = (if type_key ∈ p.keys then [type_key] else []) ++
    p.keys.filter fun k => !(k == type_key || isComment k)
  values : ∀ k v, (k, v) ∈ p.items → isComment k = false →
    ∃ t, q.get? k = some (.text t) ∧ v.ReadAs t

/-- The numbers that four decimals show to one percent, and those that are written
    with three digits. -/
def Shown (x : ℚ) : Prop := x < 1e-6 ∨ ∃ n : ℤ, |n * (1 / 10 ^ 4) - x| ≤ x / 100

theorem abs_printed_sub_le_iff {x : ℚ} (hx : 0 < x) : |printed x - x| ≤ x / 100 ↔ Shown x := by
  unfold printed Shown
  by_cases hsmall : x < 1e-6
  · rw [if_pos hsmall, abs_of_pos hx]
    have hnear := abs_roundTo_digitPlace_sub_le 2 hx
    refine iff_of_true (hnear.trans ?_) (.inl hsmall)
    rw [div_le_div_iff_of_pos_left hx (by norm_num) (by norm_num)]
    norm_num
  · rw [if_neg hsmall]
    constructor
    · exact fun hnear => .inr ⟨roundHalfEven (x / (1 / 10 ^ 4)), hnear⟩
    · rintro (h | ⟨n, hn⟩)
      · exact absurd h hsmall
      · exact (abs_roundTo_sub_le_abs (by norm_num) x n).trans hn

/-- From half a percent of one on, four decimals are enough. -/
theorem shown_of_le {x : ℚ} (h : 5e-3 ≤ x) : Shown x := by
  refine .inr ⟨roundHalfEven (x / (1 / 10 ^ 4)), ?_⟩
  have hnear := abs_roundTo_sub_le (show (0 : ℚ) < 1 / 10 ^ 4 by norm_num) x
  unfold roundTo at hnear
  refine hnear.trans ?_
  norm_num at h ⊢
  linarith

theorem readAs_format_iff {v : CellValue} (hpos : ∀ x, v = .float x → 0 < x) :
    v.ReadAs v.format ↔ ∀ x, v = .float x → Shown x := by
  cases hv : v with
  | text t => exact iff_of_true rfl fun x hx => by cases hx
  | int n => exact iff_of_true rfl fun x hx => by cases hx
  | float x =>
      have hread : pyFloat (CellValue.float x).format = some (printed x) :=
        pyFloat_format (.float x)
      show (∃ y, pyFloat (CellValue.float x).format = some y ∧ |y - x| ≤ x / 100) ↔ _
      rw [hread]
      constructor
      · rintro ⟨y, hy, hnear⟩ x' hx'
        obtain rfl := Option.some.inj hy
        obtain rfl := CellValue.float.inj hx'
        exact (abs_printed_sub_le_iff (hpos x hv)).mp hnear
      · exact fun hshown =>
          ⟨printed x, rfl, (abs_printed_sub_le_iff (hpos x hv)).mpr (hshown x rfl)⟩

/-! ## The round trip -/

section
variable {repr : ℚ → Decimal} {p : SyntheticParams} {q : PyDict CellValue}
  (hq : q.items = writtenItems repr p.toPyDict)
include hq

theorem keys_read : q.keys = (if type_key ∈ p.keys then [type_key] else []) ++
    p.keys.filter fun k => !(k == type_key || isComment k) := by
  have htype : (typeItems p.toPyDict).map Prod.fst =
      if type_key ∈ p.keys then [type_key] else [] := by
    unfold typeItems
    split
    · next value hvalue =>
      have hmem := List.mem_map_of_mem (f := Prod.fst) (PyDict.get?_eq_some_iff.mp hvalue)
      rw [if_pos (show type_key ∈ p.keys from hmem)]
      rfl
    · next hnone =>
      have hfresh : type_key ∉ p.keys := by
        intro hmem
        obtain ⟨⟨k, v⟩, hkv, rfl⟩ := List.mem_map.mp hmem
        rw [PyDict.get?_eq_some_iff.mpr hkv] at hnone
        cases hnone
      rw [if_neg hfresh]
      rfl
  have hothers : (otherItems p.toPyDict).map Prod.fst =
      p.keys.filter fun k => !(k == type_key || isComment k) := by
    unfold otherItems PyDict.keys
    rw [List.filter_map]
    rfl
  rw [PyDict.keys, hq, writtenItems, List.map_append, List.map_map, List.map_map]
  exact congrArg₂ (· ++ ·) htype hothers

/-- The type of the cell is read as `str` shows it ... -/
theorem get?_type_read {v : CellValue} (hv : (type_key, v) ∈ p.items) :
    q.get? type_key = some (.text (v.str repr)) := by
  rw [PyDict.get?_eq_some_iff, hq, writtenItems, List.mem_append]
  refine .inl (List.mem_map.mpr ⟨(type_key, v), ?_, rfl⟩)
  unfold typeItems
  rw [PyDict.get?_eq_some_iff.mpr hv]
  exact List.mem_singleton.mpr rfl

/-- ... and any other parameter as it is formatted. -/
theorem get?_other_read {k : List Char} {v : CellValue} (hv : (k, v) ∈ p.items)
    (hk : k ≠ type_key) (hcomment : isComment k = false) :
    q.get? k = some (.text v.format) := by
  rw [PyDict.get?_eq_some_iff, hq, writtenItems, List.mem_append]
  refine .inr (List.mem_map.mpr ⟨(k, v), List.mem_filter.mpr ⟨hv, ?_⟩, rfl⟩)
  rw [hcomment, Bool.or_false, Bool.not_eq_true', beq_eq_false_iff_ne]
  exact hk

theorem roundTrip_iff (hrepr : ∀ x, 0 < x → |(repr x).value - x| ≤ x / 2 ^ 53)
    (hpos : ∀ k x, (k, .float x) ∈ p.items → 0 < x) :
    RoundTrip p.toPyDict q ↔ ∀ k x, (k, .float x) ∈ p.items → k ≠ type_key →
      isComment k = false → Shown x := by
  constructor
  · intro h k x hx hk hcomment
    obtain ⟨t, ht, hread⟩ := h.values k _ hx hcomment
    rw [get?_other_read hq hx hk hcomment] at ht
    obtain rfl := CellValue.text.inj (Option.some.inj ht)
    exact (readAs_format_iff fun y hy => hpos k y (hy ▸ hx)).mp hread x rfl
  · intro hshown
    refine ⟨keys_read hq, fun k v hv hcomment => ?_⟩
    by_cases hk : k = type_key
    · subst hk
      refine ⟨_, get?_type_read hq hv, ?_⟩
      cases v with
      | text t => rfl
      | int n => rfl
      | float x =>
          have hx := hpos type_key x hv
          refine ⟨(repr x).value, Decimal.pyFloat_text _, (hrepr x hx).trans ?_⟩
          exact div_le_div_of_nonneg_left hx.le (by norm_num) (by norm_num)
    · exact ⟨_, get?_other_read hq hv hk hcomment,
        (readAs_format_iff fun y hy => hpos k y (hy ▸ hv)).mpr fun x hx =>
          hshown k x (hx ▸ hv) hk hcomment⟩

end

/-- Both readers get a written cell back, its floats to one percent exactly when four
    decimals show those that are not below one millionth.  `repr` shows a float to
    half a unit of its last binary place. -/
theorem cell_file_round_trip_iff {repr : ℚ → Decimal}
    (hrepr : ∀ x, 0 < x → |(repr x).value - x| ≤ x / 2 ^ 53) (p : SyntheticParams)
    (hpos : ∀ k x, (k, .float x) ∈ p.items → 0 < x) :
    (∃ q, parse_cell_file (write_cell_file repr p.toPyDict) = some q ∧
        parse_cell_params (write_cell_file repr p.toPyDict) = q ∧ RoundTrip p.toPyDict q) ↔
      ∀ (k : List Char) (x : ℚ), (k, .float x) ∈ p.items → k ≠ type_key → isComment k = false →
        x < 1e-6 ∨ ∃ n : ℤ, |n * (1 / 10 ^ 4) - x| ≤ x / 100 := by
  obtain ⟨q, hq, hitems⟩ := parse_write repr p
  have hiff := roundTrip_iff hitems hrepr hpos
  unfold Shown at hiff
  rw [← hiff]
  constructor
  · rintro ⟨q', hq', -, h⟩
    obtain rfl := Option.some.inj (hq.symm.trans hq')
    exact h
  · exact fun h => ⟨q, hq, parse_cell_params_eq hq, h⟩

/-- Seventeen digits are within half a unit of the last binary place. -/
theorem abs_scientificFormat_sub_le {x : ℚ} (hx : 0 < x) :
    |(scientificFormat 16 x).value - x| ≤ x / 2 ^ 53 := by
  rw [value_scientificFormat, abs_of_pos hx]
  refine (abs_roundTo_digitPlace_sub_le 16 hx).trans ?_
  exact div_le_div_of_nonneg_left hx.le (by norm_num) (by norm_num)

/-- A memristor whose node stands before its type, with a comment. -/
def flaggedItems : List (List Char × CellValue) :=
  [("ProcessNode".toList, .int 45), (type_key, .text "memristor".toList),
    (CheckedKey.SetVoltage.name, .float 2.5),
    ("//FLAG_HighBoostRatio".toList, .text "Vset=2.50V > 2xVDD=2.00V at 45nm".toList)]

def flaggedCell : SyntheticParams where
  items := flaggedItems
  nodup := by decide +kernel
  key_text kv hkv := by
    have hkeys : (flaggedItems.all fun kv => fitsKey kv.1) = true := by decide +kernel
    exact keyText_of_fitsKey (List.all_eq_true.mp hkeys kv hkv)
  value_text kv hkv t ht := by
    have hvalues : (flaggedItems.all fun kv => fitsText (kv.2.str (fixedFormat 4))) = true := by
      decide +kernel
    have hfits := List.all_eq_true.mp hvalues kv hkv
    rw [ht] at hfits
    exact lineText_of_fitsText hfits

theorem cell_file_round_trip_iff_flagged :
    ∃ q, parse_cell_file (write_cell_file (scientificFormat 16) flaggedCell.toPyDict) = some q ∧
      parse_cell_params (write_cell_file (scientificFormat 16) flaggedCell.toPyDict) = q ∧
      RoundTrip flaggedCell.toPyDict q ∧
      q.keys = [type_key, "ProcessNode".toList, CheckedKey.SetVoltage.name] := by
  have hfloat : ∀ k x, (k, .float x) ∈ flaggedCell.items → x = 2.5 := by
    intro k x hx
    have hall : (flaggedItems.all fun kv =>
        match kv.2 with
        | .float x => x = 2.5
        | _ => true) = true := by decide +kernel
    simpa using List.all_eq_true.mp hall _ hx
  obtain ⟨q, hq, hparams, htrip⟩ :=
    (cell_file_round_trip_iff (fun _ => abs_scientificFormat_sub_le) flaggedCell (by
      intro k x hx
      rw [hfloat k x hx]
      norm_num)).mpr (by
      intro k x hx _ _
      rw [hfloat k x hx]
      exact shown_of_le (by norm_num))
  exact ⟨q, hq, hparams, htrip, htrip.keys.trans (by decide +kernel)⟩

/-- A dictionary with one sampled value. -/
def oneSample (key : CheckedKey) (x : ℚ) : SyntheticParams := SyntheticParams.none.sample key x

theorem items_oneSample (key : CheckedKey) (x : ℚ) :
    (oneSample key x).items = [(key.name, .float x)] := by
  have hfresh : key.name ∉ (PyDict.empty : PyDict CellValue).keys := List.not_mem_nil
  exact PyDict.items_set_of_not_mem hfresh (CellValue.float x)

theorem eq_of_mem_oneSample {key : CheckedKey} {k : List Char} {x y : ℚ}
    (h : (k, .float y) ∈ (oneSample key x).items) : y = x := by
  rw [items_oneSample] at h
  exact CellValue.float.inj (Prod.mk.inj (List.mem_singleton.mp h)).2

/-- Two millionths are written as zero. -/
theorem two_millionths_lost :
    ¬ ∀ (repr : ℚ → Decimal), (∀ x, 0 < x → |(repr x).value - x| ≤ x / 2 ^ 53) →
      ∀ p : SyntheticParams, (∀ k x, (k, .float x) ∈ p.items → 0 < x) →
        ∃ q, parse_cell_file (write_cell_file repr p.toPyDict) = some q ∧
          parse_cell_params (write_cell_file repr p.toPyDict) = q ∧ RoundTrip p.toPyDict q := by
  intro hall
  have hpos : ∀ k x, (k, .float x) ∈ (oneSample .RetentionTime 2e-6).items → 0 < x := by
    intro k x hx
    rw [eq_of_mem_oneSample hx]
    norm_num
  obtain ⟨q, hq, -, h⟩ := hall (scientificFormat 16) (fun _ => abs_scientificFormat_sub_le)
    (oneSample .RetentionTime 2e-6) hpos
  obtain ⟨q', hq', hitems⟩ := parse_write (scientificFormat 16) (oneSample .RetentionTime 2e-6)
  obtain rfl := Option.some.inj (hq.symm.trans hq')
  have hwritten := CheckedKey.written .RetentionTime
  simp only [Bool.not_eq_true', Bool.or_eq_false_iff, beq_eq_false_iff_ne] at hwritten
  have hmem : (CheckedKey.RetentionTime.name, CellValue.float 2e-6) ∈
      (oneSample .RetentionTime 2e-6).items := by
    rw [items_oneSample]
    exact List.mem_singleton.mpr rfl
  have hshown := (roundTrip_iff hitems (fun _ => abs_scientificFormat_sub_le) hpos).mp h
    _ _ hmem hwritten.1 hwritten.2
  rcases hshown with hsmall | ⟨n, hn⟩
  · norm_num at hsmall
  · -- no ten-thousandth is near
    obtain ⟨hlow, hhigh⟩ := abs_le.mp hn
    rcases le_or_gt n 0 with hzero | hone
    · have hcast : (n : ℚ) ≤ 0 := by exact_mod_cast hzero
      norm_num at hlow
      linarith
    · have hcast : (1 : ℚ) ≤ n := by exact_mod_cast hone
      norm_num at hhigh
      linarith

end Destiny.Sweep
