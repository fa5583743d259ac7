/-
  Destiny.Lib.FieldSearch

  `re.search` for a field of a report: `(?:label|label)\s*=\s*([\d.]+)\s*(unit|unit)`.

  No part of such a pattern can start with what the part before it may run over,
  so the longest run is the only one to try.  The search takes the first place
  with a match: lines that contain no label are passed over (`search_line`), and a
  line with a field gives its number and unit (`search_field`).
-/

import Destiny.Lib.PyFloat
import Destiny.Lib.TextSub

namespace Destiny.Lib

/-- `[\d.]` in ASCII. -/
def isDigitOrPoint (c : Char) : Bool := c.isDigit || c == '.'

structure FieldPattern where
  labels : List (List Char)
  /-- the units, each with the second group it leaves -/
  units : List (List Char × List Char)

namespace FieldPattern

variable (p : FieldPattern)

/-- The number and the second group, behind a label. -/
def afterLabel (t : List Char) : Option (List Char × List Char) :=
  (stripPrefix ['='] (lstrip t)).bind fun r =>
    let number := (lstrip r).takeWhile isDigitOrPoint
    let rest := lstrip ((lstrip r).dropWhile isDigitOrPoint)
    if number = [] then none
    else (p.units.find? fun u => u.1.isPrefixOf rest).map fun u => (number, u.2)

/-- A match at the start of a text; the labels are tried in order. -/
def matchAt (t : List Char) : Option (List Char × List Char) :=
  p.labels.findSome? fun label => (stripPrefix label t).bind p.afterLabel

/-- The groups of `re.search(pattern, t)`. -/
def search : List Char → Option (List Char × List Char)
  | [] => p.matchAt []
  | c :: t => (p.matchAt (c :: t)).or (search t)

variable {p}

/-! ## Places without a match -/

theorem matchAt_eq_none {t : List Char} (h : ∀ label ∈ p.labels, ¬ label <+: t) :
    p.matchAt t = none := by
  rw [matchAt, List.findSome?_eq_none_iff]
  intro label hlabel
  rw [Option.bind_eq_none_iff]
  intro r hr
  exact absurd (isSome_stripPrefix.mp (by rw [hr]; rfl)) (h label hlabel)

/-- Places that have no match are passed over. -/
theorem search_append {x y : List Char}
    (h : ∀ u v, x = u ++ v → v ≠ [] → p.matchAt (v ++ y) = none) :
    p.search (x ++ y) = p.search y := by
  induction x with
  | nil => rfl
  | cons c x ih =>
    have hhere := h [] (c :: x) rfl (List.cons_ne_nil c x)
    rw [List.cons_append] at hhere
    rw [List.cons_append, search, hhere, Option.none_or]
    exact ih fun u v hx hv => h (c :: u) v (by rw [hx, List.cons_append]) hv

/-- The labels are words of a line. -/
structure OneLine (p : FieldPattern) : Prop where
  ne_nil : ∀ label ∈ p.labels, label ≠ []
  newline : ∀ label ∈ p.labels, '\n' ∉ label

/-- A text without line breaks that is a prefix of several lines is one of the
    first. -/
theorem prefix_of_prefix_newline {label x y : List Char} (hlabel : '\n' ∉ label)
    (h : label <+: x ++ '\n' :: y) : label <+: x := by
  obtain ⟨z, hz⟩ := h
  rcases List.append_eq_append_iff.mp hz with ⟨r, hx, -⟩ | ⟨r, rfl, hr⟩
  · exact ⟨r, hx.symm⟩
  · cases r with
    | nil => rw [List.append_nil]
    | cons c r =>
      rw [List.cons_append] at hr
      obtain ⟨rfl, -⟩ := List.cons.inj hr
      exact absurd (List.mem_append_right x List.mem_cons_self) hlabel

/-- No label starts at the end of a line. -/
theorem search_newline (hp : p.OneLine) (y : List Char) : p.search ('\n' :: y) = p.search y := by
  have hhere : p.matchAt ('\n' :: y) = none := by
    refine matchAt_eq_none fun label hlabel hprefix => hp.ne_nil label hlabel ?_
    exact List.prefix_nil.mp (prefix_of_prefix_newline (hp.newline label hlabel) hprefix)
  rw [search, hhere, Option.none_or]

/-- A line without a label is passed over. -/
theorem search_line (hp : p.OneLine) {line : List Char}
    (hline : ∀ label ∈ p.labels, ¬ label <:+: line) (y : List Char) :
    p.search (line ++ '\n' :: y) = p.search y := by
  rw [search_append, search_newline hp]
  rintro u v rfl hv
  refine matchAt_eq_none fun label hlabel hprefix => hline label hlabel ?_
  exact (prefix_of_prefix_newline (hp.newline label hlabel) hprefix).isInfix.trans
    (List.suffix_append u v).isInfix

/-- Nor is there a match in a last line without a label. -/
theorem search_eq_none (hp : p.OneLine) {line : List Char}
    (hline : ∀ label ∈ p.labels, ¬ label <:+: line) : p.search line = none := by
  rw [← List.append_nil line, search_append]
  · rw [search]
    exact matchAt_eq_none fun label hlabel hprefix =>
      hp.ne_nil label hlabel (List.prefix_nil.mp hprefix)
  · rintro u v rfl hv
    refine matchAt_eq_none fun label hlabel hprefix => hline label hlabel ?_
    rw [List.append_nil] at hprefix
    exact hprefix.isInfix.trans (List.suffix_append u v).isInfix

/-! ## A field -/

theorem isPySpace_of_isDigitOrPoint {c : Char} (h : isDigitOrPoint c = true) :
    isPySpace c = false := by
  refine isPySpace_of_isNumberChar ?_
  unfold isDigitOrPoint at h
  unfold isNumberChar
  rcases Bool.or_eq_true_iff.mp h with hdigit | hpoint
  · simp [hdigit]
  · simp [hpoint]

/-- White space in front of something else. -/
theorem lstrip_append {x y : List Char} (hx : ∀ c ∈ x, isPySpace c = true)
    (hy : ∀ c ∈ y.head?, isPySpace c = false) : lstrip (x ++ y) = y := by
  rw [lstrip, List.dropWhile_append_of_pos hx]
  cases y with
  | nil => rfl
  | cons c y => exact lstrip_cons (hy c rfl) y

/-- The number of a field, with its unit. -/
theorem afterLabel_field {x y number rest : List Char} {u : List Char × List Char}
    (hx : ∀ c ∈ x, isPySpace c = true) (hy : ∀ c ∈ y, isPySpace c = true) (hnumber : number ≠ [])
    (hdigits : ∀ c ∈ number, isDigitOrPoint c = true)
    (hrest : ∀ c ∈ rest.head?, isDigitOrPoint c = false ∧ isPySpace c = false)
    (hunit : (p.units.find? fun u => u.1.isPrefixOf rest) = some u) :
    p.afterLabel (x ++ '=' :: (y ++ (number ++ rest))) = some (number, u.2) := by
  have hequals : lstrip (x ++ '=' :: (y ++ (number ++ rest))) =
      '=' :: (y ++ (number ++ rest)) := lstrip_append hx fun c hc => by
    obtain rfl := Option.some.inj hc
    decide
  have hfront : lstrip (y ++ (number ++ rest)) = number ++ rest := by
    refine lstrip_append hy fun c hc => ?_
    obtain ⟨d, ds, rfl⟩ := List.exists_cons_of_ne_nil hnumber
    obtain rfl := Option.some.inj hc
    exact isPySpace_of_isDigitOrPoint (hdigits _ List.mem_cons_self)
  obtain ⟨htake, hdrop⟩ := span_append hdigits fun c hc => (hrest c hc).1
  have hback : lstrip rest = rest :=
    lstrip_append (List.forall_mem_nil _) fun c hc => (hrest c hc).2
  have hstrip : stripPrefix ['='] ('=' :: (y ++ (number ++ rest))) = some (y ++ (number ++ rest)) :=
    stripPrefix_append ['='] _
  rw [afterLabel, hequals, hstrip, Option.bind_some]
  simp only [hfront, htake, hdrop, hback, if_neg hnumber, hunit, Option.map_some]

/-- A text with a field behind what contains no label. -/
theorem search_field {before label after : List Char} {found : List Char × List Char}
    {ls ls' : List (List Char)} (hlabels : p.labels = ls ++ label :: ls')
    (hbefore : ∀ u v, before = u ++ v → v ≠ [] → ∀ l ∈ p.labels, ¬ l <+: v ++ (label ++ after))
    (hfirst : ∀ l ∈ ls, ¬ l <+: label ++ after) (hfound : p.afterLabel after = some found) :
    p.search (before ++ (label ++ after)) = some found := by
  have hhere : p.matchAt (label ++ after) = some found := by
    have hnone : (ls.findSome? fun l => (stripPrefix l (label ++ after)).bind p.afterLabel) =
        none := by
      rw [List.findSome?_eq_none_iff]
      intro l hl
      rw [Option.bind_eq_none_iff]
      intro r hr
      exact absurd (isSome_stripPrefix.mp (by rw [hr]; rfl)) (hfirst l hl)
    rw [matchAt, hlabels, List.findSome?_append, hnone, Option.none_or, List.findSome?_cons,
      stripPrefix_append, Option.bind_some, hfound]
  rw [search_append fun u v huv hv => matchAt_eq_none (hbefore u v huv hv)]
  cases hlist : label ++ after with
  | nil => rw [search, ← hlist, hhere]
  | cons c t => rw [search, ← hlist, hhere, Option.some_or]

end FieldPattern

/-! ## Reports -/

/-- What numbers in fixed notation are printed with. -/
def isFixedChar (c : Char) : Bool := isDigitOrPoint c || c == '-'

theorem Decimal.isFixedChar_of_mem_text {d : Decimal} (hexponent : d.exponent = none) {c : Char}
    (hc : c ∈ d.text) : isFixedChar c = true := by
  simp only [Decimal.text, hexponent, Option.map_none, Option.getD_none, List.append_nil,
    List.mem_append] at hc
  rcases hc with (hsign | hwhole) | hfraction
  · split at hsign
    · obtain rfl := List.mem_singleton.mp hsign
      rfl
    · cases hsign
  · simp [isFixedChar, isDigitOrPoint, d.isDigit_whole c hwhole]
  · split at hfraction
    · cases hfraction
    · rcases List.mem_cons.mp hfraction with rfl | hdigit
      · rfl
      · simp [isFixedChar, isDigitOrPoint, d.isDigit_fraction c hdigit]

/-- A part of a printed line. -/
inductive Piece
  | text (t : List Char)
  | number (places : ℕ) (x : ℚ)

def Piece.render : Piece → List Char
  | .text t => t
  | .number places x => (fixedFormat places x).text

def renderLine (line : List Piece) : List Char := line.flatMap Piece.render

def Piece.lacks (c : Char) : Piece → Bool
  | .text t => !t.contains c
  | .number _ _ => !isFixedChar c

/-- Some character of the word is nowhere in the line. -/
def lacksWord (word : List Char) (line : List Piece) : Bool :=
  word.any fun c => line.all (Piece.lacks c)

theorem not_mem_renderLine {c : Char} {line : List Piece} (h : line.all (Piece.lacks c) = true) :
    c ∉ renderLine line := by
  intro hmem
  obtain ⟨piece, hpiece, hc⟩ := List.mem_flatMap.mp hmem
  have hlacks := List.all_eq_true.mp h piece hpiece
  cases piece with
  | text t =>
    have hin : t.contains c = true := List.contains_iff_mem.mpr hc
    rw [Piece.lacks, hin] at hlacks
    cases hlacks
  | number places x =>
    have hin : isFixedChar c = true := Decimal.isFixedChar_of_mem_text rfl hc
    rw [Piece.lacks, hin] at hlacks
    cases hlacks

theorem not_infix_of_lacksWord {word : List Char} {line : List Piece}
    (h : lacksWord word line = true) : ¬ word <:+: renderLine line := by
  obtain ⟨c, hc, hline⟩ := List.any_eq_true.mp h
  exact fun hword => not_mem_renderLine hline (hword.subset hc)

/-- Lines without certain words stay so behind one another. -/
theorem not_infix_append {words l m : List (List Char)}
    (hl : ∀ line ∈ l, ∀ word ∈ words, ¬ word <:+: line)
    (hm : ∀ line ∈ m, ∀ word ∈ words, ¬ word <:+: line) :
    ∀ line ∈ l ++ m, ∀ word ∈ words, ¬ word <:+: line := by
  intro line hline
  rcases List.mem_append.mp hline with h | h
  · exact hl line h
  · exact hm line h

theorem not_infix_of_lacksWords {words : List (List Char)} {lines : List (List Piece)}
    (h : (lines.all fun line => words.all fun w => lacksWord w line) = true) :
    ∀ line ∈ lines.map renderLine, ∀ word ∈ words, ¬ word <:+: line := by
  intro line hline word hword
  obtain ⟨pieces, hpieces, rfl⟩ := List.mem_map.mp hline
  exact not_infix_of_lacksWord
    (List.all_eq_true.mp (List.all_eq_true.mp h pieces hpieces) word hword)

/-- The lines of a report as they are collected, without white space at their ends. -/
def reportText (lines : List (List Char)) : List Char := ['\n'].intercalate (lines.map strip)

theorem reportText_cons (line : List Char) (lines : List (List Char)) :
    ∃ tail, reportText (line :: lines) = strip line ++ tail := by
  cases lines with
  | nil => exact ⟨[], by simp [reportText, List.intercalate]⟩
  | cons next lines =>
    exact ⟨'\n' :: reportText (next :: lines), by simp [reportText, List.intercalate]⟩

theorem reportText_cons_of_ne_nil (line : List Char) {lines : List (List Char)} (h : lines ≠ []) :
    reportText (line :: lines) = strip line ++ '\n' :: reportText lines := by
  obtain ⟨next, lines, rfl⟩ := List.exists_cons_of_ne_nil h
  simp [reportText, List.intercalate]

theorem infix_strip (t : List Char) : strip t <:+: t :=
  (List.rdropWhile_prefix _ _).isInfix.trans (List.dropWhile_suffix _).isInfix

/-- A word of two lines is a word of one of them. -/
theorem infix_or_infix_of_newline {word x y : List Char} (hne : word ≠ []) (hword : '\n' ∉ word)
    (h : word <:+: x ++ '\n' :: y) : word <:+: x ∨ word <:+: y := by
  obtain ⟨u, v, huv⟩ := h
  rw [List.append_assoc] at huv
  rcases List.append_eq_append_iff.mp huv with ⟨r, rfl, hr⟩ | ⟨r, rfl, hr⟩
  · -- it starts in the first line
    left
    have hfirst := FieldPattern.prefix_of_prefix_newline hword ⟨v, hr⟩
    exact hfirst.isInfix.trans (List.suffix_append u r).isInfix
  · cases r with
    | nil =>
      obtain ⟨c, word, rfl⟩ := List.exists_cons_of_ne_nil hne
      rw [List.nil_append, List.cons_append] at hr
      obtain ⟨rfl, -⟩ := List.cons.inj hr
      exact absurd List.mem_cons_self hword
    | cons c r =>
      rw [List.cons_append] at hr
      obtain ⟨-, rfl⟩ := List.cons.inj hr
      exact .inr ⟨r, v, List.append_assoc r word v⟩

/-- The words of a report are those of its lines. -/
theorem not_infix_reportText {word : List Char} (hne : word ≠ []) (hword : '\n' ∉ word)
    {lines : List (List Char)} (h : ∀ line ∈ lines, ¬ word <:+: line) :
    ¬ word <:+: reportText lines := by
  induction lines with
  | nil => exact fun hnil => hne (List.infix_nil.mp hnil)
  | cons line lines ih =>
    obtain ⟨hline, hlines⟩ := List.forall_mem_cons.mp h
    intro hreport
    by_cases hlast : lines = []
    · subst hlast
      have htext : reportText [line] = strip line := by simp [reportText, List.intercalate]
      rw [htext] at hreport
      exact hline (hreport.trans (infix_strip line))
    · rw [reportText_cons_of_ne_nil line hlast] at hreport
      rcases infix_or_infix_of_newline hne hword hreport with hfirst | hrest
      · exact hline (hfirst.trans (infix_strip line))
      · exact ih hlines hrest

theorem infix_reportText {line : List Char} {lines : List (List Char)} (h : line ∈ lines) :
    strip line <:+: reportText lines := by
  induction lines with
  | nil => cases h
  | cons first lines ih =>
    rcases List.mem_cons.mp h with rfl | hrest
    · obtain ⟨tail, htext⟩ := reportText_cons line lines
      rw [htext]
      exact (List.prefix_append (strip line) tail).isInfix
    · rw [reportText_cons_of_ne_nil first (List.ne_nil_of_mem hrest)]
      exact (ih hrest).trans ⟨strip first ++ ['\n'], [], by simp⟩

/-- A text with no white space at its ends, behind a blank. -/
theorem strip_space {t : List Char} (h : Stripped t) : strip (' ' :: t) = t := h.strip_eq

theorem stripped_of_ends {t : List Char} (hhead : ∀ c ∈ t.head?, isPySpace c = false)
    (hlast : ∀ c ∈ t.getLast?, isPySpace c = false) : Stripped t := by
  constructor
  · cases t with
    | nil => rfl
    | cons c t => exact lstrip_cons (hhead c rfl) t
  · induction t using List.reverseRecOn with
    | nil => rfl
    | append_singleton t c _ => exact rstrip_append_cons (hlast c (by simp)) t []

theorem Decimal.text_ne_nil (d : Decimal) : d.text ≠ [] := by
  intro h
  simp only [Decimal.text, List.append_eq_nil_iff] at h
  exact d.whole_ne_nil h.1.1.2

/-- A number that is not negative and has no exponent. -/
theorem Decimal.isDigitOrPoint_of_mem_text (d : Decimal)
    (hplain : d.negative = false ∧ d.exponent = none) {c : Char} (hc : c ∈ d.text) :
    isDigitOrPoint c = true := by
  simp only [Decimal.text, hplain.1, hplain.2, Bool.false_eq_true, if_false, List.nil_append,
    Option.map_none, Option.getD_none, List.append_nil, List.mem_append] at hc
  rcases hc with hwhole | hfraction
  · simp [isDigitOrPoint, d.isDigit_whole c hwhole]
  · split at hfraction
    · cases hfraction
    · rcases List.mem_cons.mp hfraction with rfl | hdigit
      · rfl
      · simp [isDigitOrPoint, d.isDigit_fraction c hdigit]

namespace FieldPattern

variable {p : FieldPattern}

/-- Lines without a label are passed over. -/
theorem search_report_append (hp : p.OneLine) {lines rest : List (List Char)}
    (hlines : ∀ line ∈ lines, ∀ label ∈ p.labels, ¬ label <:+: line) (hrest : rest ≠ []) :
    p.search (reportText (lines ++ rest)) = p.search (reportText rest) := by
  induction lines with
  | nil => rfl
  | cons line lines ih =>
    have hne : lines ++ rest ≠ [] := List.append_ne_nil_of_right_ne_nil lines hrest
    rw [List.cons_append, reportText_cons_of_ne_nil line hne, search_line hp]
    · exact ih fun l hl => hlines l (List.mem_cons_of_mem line hl)
    · intro label hlabel hword
      exact hlines line List.mem_cons_self label hlabel (hword.trans (infix_strip line))

/-- A report without a label has no field. -/
theorem search_report_eq_none (hp : p.OneLine) {lines : List (List Char)}
    (hlines : ∀ line ∈ lines, ∀ label ∈ p.labels, ¬ label <:+: line) :
    p.search (reportText lines) = none := by
  have hempty : p.search (reportText [[]]) = none :=
    search_eq_none hp fun label hlabel hword => hp.ne_nil label hlabel (List.infix_nil.mp hword)
  induction lines using List.reverseRecOn with
  | nil => exact hempty
  | append_singleton lines line _ =>
    rw [search_report_append hp (fun l hl => hlines l (List.mem_append_left _ hl))
      (List.cons_ne_nil line [])]
    have hlast : reportText [line] = strip line := by simp [reportText, List.intercalate]
    rw [hlast]
    exact search_eq_none hp fun label hlabel hword =>
      hlines line (by simp) label hlabel (hword.trans (infix_strip line))

theorem not_prefix_of_head {l label : List Char}
    (h : l.head?.any (fun c => label.head?.any (· != c)) = true) (r : List Char) :
    ¬ l <+: label ++ r := by
  rintro ⟨r', hr⟩
  cases l with
  | nil => cases h
  | cons c l =>
    cases label with
    | nil => cases h
    | cons d label =>
      rw [List.cons_append, List.cons_append] at hr
      obtain ⟨rfl, -⟩ := List.cons.inj hr
      simp at h

/-- The first line of a report gives its field: a blank, a mark no label starts
    with, the label, the sign, a number and a unit. -/
theorem search_report_field {before label x y unit : List Char} {d : Decimal}
    {rest : List (List Char)} {u : List Char × List Char} {ls ls' : List (List Char)}
    (hlabels : p.labels = ls ++ label :: ls')
    (hmark : before.head?.any (fun c => !isPySpace c) = true)
    (hbefore : ∀ c ∈ before, ∀ l ∈ p.labels, l.head?.any (· != c) = true)
    (hfirst : ∀ l ∈ ls, l.head?.any (fun c => label.head?.any (· != c)) = true)
    (hx : ∀ c ∈ x, isPySpace c = true) (hy : ∀ c ∈ y, isPySpace c = true)
    (hplain : d.negative = false ∧ d.exponent = none)
    (hhead : unit.head?.any (fun c => !isDigitOrPoint c && !isPySpace c) = true)
    (hlast : unit.getLast?.any (fun c => !isPySpace c) = true)
    (hunit : ∀ tail, (p.units.find? fun u => u.1.isPrefixOf (unit ++ tail)) = some u) :
    p.search (reportText
        ((' ' :: (before ++ (label ++ (x ++ '=' :: (y ++ (d.text ++ unit)))))) :: rest)) =
      some (d.text, u.2) := by
  obtain ⟨tail, htext⟩ := reportText_cons
    (' ' :: (before ++ (label ++ (x ++ '=' :: (y ++ (d.text ++ unit)))))) rest
  -- the blank in front is the only one that is stripped
  have hstrip : strip (' ' :: (before ++ (label ++ (x ++ '=' :: (y ++ (d.text ++ unit)))))) =
      before ++ (label ++ (x ++ '=' :: (y ++ (d.text ++ unit)))) := by
    refine strip_space (stripped_of_ends ?_ ?_)
    · intro c hc
      cases before with
      | nil => cases hmark
      | cons b before =>
        obtain rfl := Option.some.inj hc
        simpa using hmark
    · intro c hc
      have hne : unit ≠ [] := by
        rintro rfl
        cases hhead
      simp only [List.getLast?_append, List.getLast?_cons, List.getLast?_eq_some_getLast hne,
        Option.some_or, Option.getD_some] at hc
      rw [List.getLast?_eq_some_getLast hne] at hlast
      obtain rfl := Option.some.inj hc
      simpa using hlast
  have hshape : reportText
      ((' ' :: (before ++ (label ++ (x ++ '=' :: (y ++ (d.text ++ unit)))))) :: rest) =
        before ++ (label ++ (x ++ '=' :: (y ++ (d.text ++ (unit ++ tail))))) := by
    rw [htext, hstrip]
    simp
  rw [hshape]
  refine search_field hlabels ?_ (fun l hl => not_prefix_of_head (hfirst l hl) _)
    (afterLabel_field hx hy d.text_ne_nil (fun c hc => d.isDigitOrPoint_of_mem_text hplain hc) ?_
      (hunit tail))
  · -- no label starts inside the mark
    rintro u v rfl hv l hl ⟨r, hr⟩
    obtain ⟨c, v, rfl⟩ := List.exists_cons_of_ne_nil hv
    have hc := hbefore c (by simp) l hl
    cases l with
    | nil => cases hc
    | cons d l =>
      rw [List.cons_append, List.cons_append] at hr
      obtain ⟨rfl, -⟩ := List.cons.inj hr
      simp at hc
  · intro c hc
    cases unit with
    | nil => cases hhead
    | cons d unit =>
      obtain rfl := Option.some.inj hc
      simpa using hhead

end FieldPattern

end Destiny.Lib
