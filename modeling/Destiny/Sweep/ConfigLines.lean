/-
  Destiny.Sweep.ConfigLines

  What the substitutions of `run_single_simulation` do to the lines of a template,
  as the reader of configuration files sees them.

  `optionOf` is the branch the reader takes for a line, white space in front of it
  aside, and `taken` the lines of a branch.  Substituting a parameter leaves the lines
  of every other branch as they are (`taken_setParam`).  A free pattern keeps the
  branch of a line unless the line starts with its text (`freeSub_cases`).
-/

import Destiny.Csv.RoundTrip
import Destiny.Sweep.ConfigRewrite

namespace Destiny.Sweep

open Lib

/-! ## Prefixes -/

section
variable {c : Char} {k w a b : List Char}

/-- A text without a separator does not reach over one. -/
theorem prefix_of_prefix_append (hk : c ∉ k) (h : k <+: w ++ c :: a) : k <+: w := by
  rcases List.prefix_or_prefix_of_prefix h (List.prefix_append w (c :: a)) with h' | ⟨k', rfl⟩
  · exact h'
  · -- what is left of `k` would start with the separator
    rw [List.prefix_append_right_inj] at h
    cases k' with
    | nil => simp
    | cons d k' =>
        obtain ⟨rfl, -⟩ := List.cons_prefix_cons.mp h
        exact absurd (List.mem_append_right w List.mem_cons_self) hk

theorem prefix_append_iff (hk : c ∉ k) : k <+: w ++ c :: a ↔ k <+: w :=
  ⟨prefix_of_prefix_append hk, fun h => h.trans (List.prefix_append _ _)⟩

/-- A text with a separator at its start only. -/
theorem prefix_append_iff_of_tail (hk : c ∉ k.tail) (hw : w ≠ []) :
    k <+: w ++ c :: a ↔ k <+: w := by
  obtain ⟨d, w, rfl⟩ := List.exists_cons_of_ne_nil hw
  cases k with
  | nil => simp
  | cons e k =>
      rw [List.cons_append, List.cons_prefix_cons, List.cons_prefix_cons,
        prefix_append_iff (by simpa using hk)]

end

/-! ## Branches -/

/-- The branch the reader takes for a line it has skipped white space for. -/
def optionOf (l : List Char) : Option ConfigOption :=
  branchOf ConfigOption.all ConfigOption.key (skipSpace l)

/-- The lines of a branch. -/
def taken (o : ConfigOption) (ls : List (List Char)) : List (List Char) :=
  ls.filter fun l => optionOf l = some o

/-- The branch of the lines `-{param}: ...`. -/
def paramOption (param : List Char) : Option ConfigOption :=
  branchOf ConfigOption.all ConfigOption.key ('-' :: param)

theorem mem_taken {o : ConfigOption} {ls : List (List Char)} {l : List Char} :
    l ∈ taken o ls ↔ l ∈ ls ∧ optionOf l = some o := by
  simp [taken]

/-- A key is a dash, then a character that is neither slash nor dash, and has no other
    dash, no colon and no newline. -/
theorem key_shape (o : ConfigOption) :
    '-' ∉ o.key.tail ∧ ':' ∉ o.key ∧ ∃ c k, o.key = '-' :: c :: k ∧ isMark c = false := by
  obtain ⟨c, k, hkey, hc, hclean⟩ : ∃ c k, o.key = '-' :: c :: k ∧ isMark c = false ∧
      ((c :: k).all fun d => d != '-' && d != ':') = true := by
    cases o <;> exact ⟨_, _, String.toList_ofList, by decide, by decide⟩
  have hmem : ∀ d ∈ c :: k, d ≠ '-' ∧ d ≠ ':' := by
    intro d hd
    simpa using List.all_eq_true.mp hclean d hd
  rw [hkey, List.tail_cons]
  refine ⟨fun hd => (hmem _ hd).1 rfl, fun hd => ?_, c, k, rfl, hc⟩
  rcases List.mem_cons.mp hd with heq | hd
  · cases heq
  · exact (hmem _ hd).2 rfl

theorem branchOf_congr {l l' : List Char}
    (h : ∀ o : ConfigOption, o.key <+: l ↔ o.key <+: l') :
    branchOf ConfigOption.all ConfigOption.key l =
      branchOf ConfigOption.all ConfigOption.key l' := by
  unfold branchOf
  congr 1
  funext o
  rw [Bool.eq_iff_iff, List.isPrefixOf_iff_prefix, List.isPrefixOf_iff_prefix]
  exact h o

theorem key_prefix_of_optionOf {l : List Char} {o : ConfigOption} (h : optionOf l = some o) :
    o.key <+: skipSpace l :=
  List.isPrefixOf_iff_prefix.mp
    (List.find?_some (p := fun o : ConfigOption => o.key.isPrefixOf (skipSpace l)) h)

/-- A blank line is no branch's. -/
theorem optionOf_blank {l : List Char} (h : skipSpace l = []) : optionOf l = none := by
  cases ho : optionOf l with
  | none => rfl
  | some o =>
      obtain ⟨-, -, c, k, hkey, -⟩ := (key_shape o)
      have hhead := key_prefix_of_optionOf ho
      rw [h, hkey, List.prefix_nil] at hhead
      cases hhead

theorem optionOf_nil (o : ConfigOption) : optionOf [] ≠ some o := by
  rw [optionOf_blank rfl]
  exact fun h => by cases h

theorem skipSpace_dash (t : List Char) : skipSpace ('-' :: t) = '-' :: t :=
  skipSpace_cons_of_not (by decide) t

/-- The branch of a line that starts with a dash is decided before its first colon. -/
theorem optionOf_colon (param r : List Char) :
    optionOf ('-' :: (param ++ ':' :: r)) = paramOption param := by
  unfold optionOf paramOption
  rw [skipSpace_dash]
  exact branchOf_congr fun o => prefix_append_iff (w := '-' :: param) (key_shape o).2.1

theorem optionOf_of_skipSpace {l l' : List Char} (h : skipSpace l = skipSpace l') :
    optionOf l = optionOf l' := congrArg (branchOf ConfigOption.all ConfigOption.key) h

theorem optionOf_setting (param value : List Char) :
    optionOf (setting param value) = paramOption param := by
  unfold setting
  rw [List.append_assoc]
  exact optionOf_colon param _

/-! ## Lines the sweep writes -/

theorem head_text (l : ConfigLine) : ∃ t, l.text = '-' :: t := by
  obtain ⟨-, -, hhead, -⟩ := l.1.label_shape
  obtain ⟨t, ht⟩ := List.head?_eq_some_iff.mp hhead
  exact ⟨t ++ l.2, by rw [ConfigLine.text, ht, List.cons_append]⟩

theorem skipSpace_text (l : ConfigLine) : skipSpace l.text = l.text := by
  obtain ⟨t, ht⟩ := head_text l
  rw [ht, skipSpace_dash]

/-- The branch of a line that starts with the format of an option. -/
theorem optionOf_text (l : ConfigLine) : optionOf l.text = some l.1 := by
  have hkey : l.1.key <+: l.text := ⟨l.1.unit ++ l.2, by
    rw [ConfigLine.text, ConfigOption.label, List.append_assoc]⟩
  have hlabel : scanLiteral l.1.label l.text ≠ none := by
    rw [ConfigLine.text, l.1.scanLiteral_label]
    exact Option.some_ne_none _
  unfold optionOf
  rw [skipSpace_text, branchOf_eq_some ConfigOption.pairwise_diverges l.1.mem_all hkey hlabel]

section
variable {p u k v : List Char}

/-- The characters of literals, for the formats that follow. -/
theorem append_of_ofList (h : p ++ u = k ++ v) :
    (String.ofList p).toList ++ (String.ofList u).toList =
      (String.ofList k).toList ++ (String.ofList v).toList := by
  rw [String.toList_ofList, String.toList_ofList, String.toList_ofList, String.toList_ofList, h]

theorem label_of_ofList (h : '-' :: (p ++ u) = k ++ v) :
    '-' :: ((String.ofList p).toList ++ (String.ofList u).toList) =
      (String.ofList k).toList ++ (String.ofList v).toList := by
  rw [String.toList_ofList, String.toList_ofList, String.toList_ofList, String.toList_ofList, h]

end

section
variable {param : List Char} {o : ConfigOption} (h : '-' :: (param ++ ": ".toList) = o.label)
include h

theorem setting_eq_text (value : List Char) : setting param value = ConfigLine.text (o, value) := by
  unfold setting ConfigLine.text
  rw [← h, List.cons_append]

theorem paramOption_of_label : paramOption param = some o := by
  rw [← optionOf_setting param [], setting_eq_text h, optionOf_text]

end

/-! ## Parameters -/

/-- The name of a parameter: it has a first character that is no slash, dash or white
    space and starts neither of the free patterns, and it has no dash, colon or
    newline. -/
def plainName (param : List Char) : Bool :=
  match param with
  | [] => false
  | c :: _ => !isMark c && !isspace c && c != 'C' && c != 'M' && !param.contains '-' &&
      !param.contains ':' && !param.contains '\n'

structure PlainName (param : List Char) : Prop where
  start : ∃ c t, param = c :: t ∧ isMark c = false ∧ isspace c = false ∧ c ≠ 'C' ∧ c ≠ 'M'
  dash : '-' ∉ param
  colon : ':' ∉ param
  newline : '\n' ∉ param

theorem PlainName.of_plainName {param : List Char} (h : plainName param = true) :
    PlainName param := by
  cases param with
  | nil => cases h
  | cons c t =>
      simp only [plainName, Bool.and_eq_true, Bool.not_eq_true', bne_iff_ne,
        List.contains_eq_mem, decide_eq_false_iff_not] at h
      obtain ⟨⟨⟨⟨⟨⟨hmark, hspace⟩, hC⟩, hM⟩, hdash⟩, hcolon⟩, hnewline⟩ := h
      exact ⟨⟨c, t, rfl, hmark, hspace, hC, hM⟩, hdash, hcolon, hnewline⟩

/-- The pattern of the parameter matches the line. -/
def names (param l : List Char) : Bool := (paramHead param l).isSome

theorem names_iff {param l : List Char} :
    names param l = true ↔ param ++ ":".toList <+: l.dropWhile isMark := isSome_stripPrefix

theorem names_setting {param : List Char} (hparam : PlainName param) (value : List Char) :
    names param (setting param value) = true := by
  obtain ⟨c, t, hstart, hmark, -⟩ := hparam.start
  rw [names_iff]
  refine ⟨' ' :: value, ?_⟩
  have hdash : isMark '-' = true := by decide
  rw [setting, List.dropWhile_cons_of_pos hdash, hstart, List.cons_append, List.cons_append,
    List.cons_append, List.cons_append, List.dropWhile_cons_of_neg (by simp [hmark])]
  simp

theorem not_names_nil {param : List Char} (hparam : PlainName param) : names param [] = false := by
  obtain ⟨c, t, rfl, -⟩ := hparam.start
  rw [← Bool.not_eq_true, names_iff]
  exact fun h => by cases List.prefix_nil.mp h

section
variable {param : List Char} {l : List Char}

/-- A line that names a parameter has its branch or none. -/
theorem optionOf_of_names (hparam : PlainName param) (h : names param l = true)
    {o : ConfigOption} (ho : optionOf l = some o) : paramOption param = some o := by
  obtain ⟨r, hr⟩ := names_iff.mp h
  obtain ⟨c, t, hstart, hmark, hspace, -, -⟩ := hparam.start
  obtain ⟨-, -, d, k, hkey, hd⟩ := (key_shape o)
  have hhead := key_prefix_of_optionOf ho
  have hsplit := List.takeWhile_append_dropWhile (p := isMark) (l := l)
  rw [← hr] at hsplit
  cases hmarks : l.takeWhile isMark with
  | nil =>
      -- the line starts with the name, and a key with a dash
      rw [hmarks, List.nil_append] at hsplit
      rw [← hsplit, hstart] at hhead
      simp only [List.cons_append] at hhead
      rw [skipSpace_cons_of_not hspace, hkey, List.cons_prefix_cons] at hhead
      rw [← hhead.1] at hmark
      cases hmark
  | cons m ms =>
      have hm : isMark m = true := by
        have hmem : m ∈ l.takeWhile isMark := hmarks ▸ List.mem_cons_self
        exact List.mem_takeWhile_imp hmem
      have hmspace : isspace m = false := by
        unfold isMark at hm
        rcases Bool.or_eq_true_iff.mp hm with h | h <;>
          (obtain rfl := of_decide_eq_true h; decide)
      rw [hmarks] at hsplit
      rw [← hsplit, List.cons_append, skipSpace_cons_of_not hmspace, hkey, List.cons_prefix_cons]
        at hhead
      obtain ⟨rfl, hhead⟩ := hhead
      cases ms with
      | nil =>
          have hline : l = '-' :: (param ++ ':' :: r) := by
            rw [← hsplit]
            simp
          rw [← ho, hline, optionOf_colon]
      | cons m' ms =>
          -- the second character of the key is no mark
          rw [List.cons_append, List.cons_prefix_cons] at hhead
          have hm' : isMark m' = true := by
            have hmem : m' ∈ l.takeWhile isMark := by
              rw [hmarks]
              exact List.mem_cons_of_mem _ List.mem_cons_self
            exact List.mem_takeWhile_imp hmem
          rw [hhead.1, hm'] at hd
          cases hd

/-- A line names one parameter at most. -/
theorem names_unique {param' : List Char} (hparam : PlainName param) (hparam' : PlainName param')
    (h : names param l = true) (h' : names param' l = true) : param = param' := by
  obtain ⟨r, hr⟩ := names_iff.mp h
  obtain ⟨r', hr'⟩ := names_iff.mp h'
  rw [← hr'] at hr
  have hsplit {x y a b : List Char} (hx : ':' ∉ x) (hy : ':' ∉ y)
      (heq : x ++ ':' :: a = y ++ ':' :: b) : x = y := by
    have hcolon := congrArg (List.takeWhile fun c => c ≠ ':') heq
    have htake {x : List Char} (hx : ':' ∉ x) (a : List Char) :
        (x ++ ':' :: a).takeWhile (fun c => decide (c ≠ ':')) = x := by
      have hall : ∀ c ∈ x, decide (c ≠ ':') = true := by
        intro c hc
        rw [decide_eq_true_eq]
        rintro rfl
        exact hx hc
      rw [List.takeWhile_append_of_pos hall]
      simp
    rwa [htake hx, htake hy] at hcolon
  refine hsplit hparam.colon hparam'.colon (a := r) (b := r') ?_
  simpa using hr

theorem filter_map_eq {α : Type} {W : α → Bool} {f : α → α} {ls : List α}
    (h : ∀ l ∈ ls, f l = l ∨ W l = false ∧ W (f l) = false) :
    (ls.map f).filter W = ls.filter W := by
  induction ls with
  | nil => rfl
  | cons l ls ih =>
      obtain ⟨hl, hrest⟩ := List.forall_mem_cons.mp h
      rw [List.map_cons, List.filter_cons, List.filter_cons, ih hrest]
      rcases hl with hl | ⟨hl, hfl⟩
      · rw [hl]
      · rw [hl, hfl, if_neg Bool.false_ne_true, if_neg Bool.false_ne_true]

/-- Substituting a parameter. -/
def setParam (param repl : List Char) (ls : List (List Char)) : List (List Char) :=
  ls.map fun l => if names param l then repl else l

/-- The lines of the other branches stay. -/
theorem taken_setParam (hparam : PlainName param) {repl : List Char} {o : ConfigOption}
    (ho : paramOption param ≠ some o) (hrepl : optionOf repl ≠ some o) (ls : List (List Char)) :
    taken o (setParam param repl ls) = taken o ls := by
  refine filter_map_eq fun l _ => ?_
  by_cases hnames : names param l = true
  · refine .inr ⟨?_, ?_⟩
    · rw [decide_eq_false_iff_not]
      exact fun hl => ho (optionOf_of_names hparam hnames hl)
    · rwa [if_pos hnames, decide_eq_false_iff_not]
  · exact .inl (if_neg hnames)

theorem taken_append (o : ConfigOption) (ls ms : List (List Char)) :
    taken o (ls ++ ms) = taken o ls ++ taken o ms := List.filter_append ..

end

/-! ## Free patterns -/

/-- A pattern that may match anywhere, and whose matches start with a dash and the
    letter. -/
structure FreePattern (p : LinePattern) (c : Char) : Prop where
  free : p.anchored = false
  letter : c = 'C' ∨ c = 'M'
  start : ∀ t, (p.head t).isSome = true → ∃ u, t = '-' :: c :: u

theorem freePattern_capacity (unit : List Char) : FreePattern (capacityPattern unit) 'C' where
  free := rfl
  letter := .inl rfl
  start t h := by
    obtain ⟨r, hr⟩ := Option.isSome_iff_exists.mp h
    obtain ⟨u, hu, -⟩ := Option.bind_eq_some_iff.mp hr
    exact ⟨"apacity".toList ++ u, stripPrefix_eq_some.mp hu⟩

theorem freePattern_cellFile : FreePattern cellFilePattern 'M' where
  free := rfl
  letter := .inr rfl
  start t h := by
    obtain ⟨u, hu⟩ := Option.isSome_iff_exists.mp h
    exact ⟨"emoryCellInputFile:".toList ++ u, stripPrefix_eq_some.mp hu⟩

section
variable {p : LinePattern} {c : Char} (hp : FreePattern p c) {repl : List Char}
include hp

/-- What a free pattern makes of a line: the line, or its start and the replacement. -/
theorem freeSub_cases (repl l : List Char) :
    p.subLine repl true l = l ∨ ∃ u a, l = u ++ '-' :: c :: a ∧
      (p.head ('-' :: c :: a)).isSome = true ∧ p.subLine repl true l = u ++ repl := by
  rcases LinePattern.subLine_cases (p := p) true l with ⟨h, -⟩ | ⟨u, v, rfl, hv, h, -⟩
  · exact .inl h
  · obtain ⟨a, rfl⟩ := hp.start v hv
    exact .inr ⟨u, a, rfl, hv, h⟩

/-- A line that starts with a match, white space aside, becomes the replacement. -/
theorem freeSub_of_head {l : List Char} (h : (p.head (skipSpace l)).isSome = true) :
    p.subLine repl true l = l.takeWhile isspace ++ repl := by
  have hblank : ∀ w, w <:+ l.takeWhile isspace → w ≠ [] → p.head (w ++ skipSpace l) = none := by
    intro w hw hne
    obtain ⟨d, w, rfl⟩ := List.exists_cons_of_ne_nil hne
    have hd : isspace d = true :=
      List.mem_takeWhile_imp (hw.subset List.mem_cons_self)
    -- no match starts with white space
    by_contra hsome
    obtain ⟨u, hu⟩ := hp.start _ (Option.isSome_iff_ne_none.mpr hsome)
    rw [List.cons_append] at hu
    rw [(List.cons.inj hu).1] at hd
    exact absurd hd (by decide)
  have hsub : p.subLine repl true (l.takeWhile isspace ++ skipSpace l) = _ :=
    p.subLine_of_head hp.free true hblank h
  have hline : l.takeWhile isspace ++ skipSpace l = l := List.takeWhile_append_dropWhile
  rwa [hline] at hsub

theorem skipSpace_freeSub {l : List Char} (h : (p.head (skipSpace l)).isSome = true)
    (hrepl : skipSpace repl = repl) : skipSpace (p.subLine repl true l) = repl := by
  rw [freeSub_of_head hp h]
  unfold skipSpace at hrepl ⊢
  rw [List.dropWhile_append_of_pos fun d hd => List.mem_takeWhile_imp hd, hrepl]

end

section
variable {param u a b : List Char} {c d : Char}

theorem not_names_of_start (hparam : PlainName param) (hc : c = 'C' ∨ c = 'M') :
    ¬ param ++ ":".toList <+: c :: a := by
  obtain ⟨e, t, rfl, -, -, hC, hM⟩ := hparam.start
  rw [List.cons_append, List.cons_prefix_cons]
  rintro ⟨rfl, -⟩
  rcases hc with rfl | rfl
  · exact hC rfl
  · exact hM rfl

/-- What follows a dash and one of the letters has no say in whether a line names a
    parameter. -/
theorem names_congr (hparam : PlainName param) (hc : c = 'C' ∨ c = 'M')
    (hd : d = 'C' ∨ d = 'M') :
    names param (u ++ '-' :: c :: a) = names param (u ++ '-' :: d :: b) := by
  have hletter : ∀ {e : Char} (t : List Char), e = 'C' ∨ e = 'M' →
      ('-' :: e :: t).dropWhile isMark = e :: t := by
    rintro e t (rfl | rfl) <;> rfl
  have hcolon : '-' ∉ param ++ ":".toList := by
    rw [List.mem_append, not_or]
    exact ⟨hparam.dash, by decide⟩
  rw [Bool.eq_iff_iff, names_iff, names_iff, List.dropWhile_append, List.dropWhile_append]
  by_cases hu : (u.dropWhile isMark).isEmpty = true
  · -- nothing but marks in front
    rw [if_pos hu, if_pos hu, hletter a hc, hletter b hd]
    exact ⟨fun h => absurd h (not_names_of_start hparam hc),
      fun h => absurd h (not_names_of_start hparam hd)⟩
  · rw [if_neg hu, if_neg hu, prefix_append_iff hcolon, prefix_append_iff hcolon]

/-- Behind something other than white space, what follows a dash has no say in the branch
    of a line. -/
theorem optionOf_congr (hu : skipSpace u ≠ []) :
    optionOf (u ++ '-' :: a) = optionOf (u ++ '-' :: b) := by
  unfold optionOf
  rw [skipSpace_append hu, skipSpace_append hu]
  exact branchOf_congr fun o => by
    rw [prefix_append_iff_of_tail (key_shape o).1 hu, prefix_append_iff_of_tail (key_shape o).1 hu]

end

theorem skipSpace_append_of_blank {u : List Char} (hu : skipSpace u = []) (v : List Char) :
    skipSpace (u ++ v) = skipSpace v := by
  unfold skipSpace at hu ⊢
  rw [List.dropWhile_append, hu]
  rfl

/-! ## Where a branch stands -/

/-- All lines of the branch of the parameter are named by it. -/
def NoStray (param : List Char) (ls : List (List Char)) : Prop :=
  ∀ o, paramOption param = some o → ∀ l ∈ taken o ls, names param l = true

/-- The branch has lines, and all of them are the text. -/
structure Fixed (o : ConfigOption) (text : List Char) (ls : List (List Char)) : Prop where
  some : taken o ls ≠ []
  all : ∀ l ∈ taken o ls, skipSpace l = text

theorem Fixed.congr {o : ConfigOption} {text : List Char} {ls ms : List (List Char)}
    (h : Fixed o text ls) (heq : taken o ms = taken o ls) : Fixed o text ms := by
  constructor
  · rw [heq]
    exact h.some
  · rw [heq]
    exact h.all

theorem NoStray.congr {param : List Char} {ls ms : List (List Char)} (h : NoStray param ls)
    (heq : ∀ o, paramOption param = some o → taken o ms = taken o ls) : NoStray param ms := by
  intro o ho l hl
  rw [heq o ho] at hl
  exact h o ho l hl

section
variable {param value : List Char} {o : ConfigOption} {ls : List (List Char)}

theorem skipSpace_setting (param value : List Char) :
    skipSpace (setting param value) = setting param value := skipSpace_dash _

/-- Without strays, the lines of the branch are what the parameter is replaced by. -/
theorem taken_setParam_own (hns : NoStray param ls) (ho : paramOption param = some o)
    {repl : List Char} : ∀ l ∈ taken o (setParam param repl ls), l = repl := by
  intro l hl
  obtain ⟨hmem, hoption⟩ := mem_taken.mp hl
  obtain ⟨l', hl', rfl⟩ := List.mem_map.mp hmem
  by_cases hnames : names param l' = true
  · rw [if_pos hnames]
  · rw [if_neg hnames] at hoption
    exact absurd (hns o ho l' (mem_taken.mpr ⟨hl', hoption⟩)) hnames

theorem fixed_setParam (hns : NoStray param ls) (ho : paramOption param = some o)
    (hsome : ∃ l ∈ ls, names param l = true) :
    Fixed o (setting param value) (setParam param (setting param value) ls) := by
  constructor
  · obtain ⟨l, hl, hnames⟩ := hsome
    refine List.ne_nil_of_mem (a := setting param value) (mem_taken.mpr ⟨?_, ?_⟩)
    · exact List.mem_map.mpr ⟨l, hl, if_pos hnames⟩
    · rw [optionOf_setting, ho]
  · intro l hl
    rw [taken_setParam_own hns ho l hl, skipSpace_setting]

/-- Erasing a parameter without strays leaves its branch without lines. -/
theorem taken_erase (hns : NoStray param ls) (ho : paramOption param = some o) :
    taken o (setParam param [] ls) = [] := by
  rw [List.eq_nil_iff_forall_not_mem]
  intro l hl
  obtain rfl := taken_setParam_own hns ho l hl
  have hblank := optionOf_blank (l := []) rfl
  rw [(mem_taken.mp hl).2] at hblank
  cases hblank

/-- A line of another branch appended. -/
theorem taken_singleton_of_ne {l : List Char} (h : optionOf l ≠ some o) : taken o [l] = [] := by
  simp [taken, h]

theorem taken_singleton {l : List Char} (h : optionOf l = some o) : taken o [l] = [l] := by
  simp [taken, h]

theorem taken_blank (o : ConfigOption) : taken o [[]] = [] :=
  taken_singleton_of_ne (optionOf_nil o)

/-- An override, line by line. -/
def setLines (ls : List (List Char)) (s : List Char × List Char) : List (List Char) :=
  if ls.any (names s.1) then setParam s.1 (setting s.1 s.2) ls
  else ls ++ [setting s.1 s.2, []]

theorem fixed_setLines (hns : NoStray param ls) (ho : paramOption param = some o) :
    Fixed o (setting param value) (setLines ls (param, value)) := by
  unfold setLines
  split
  · next hany =>
    exact fixed_setParam hns ho (List.any_eq_true.mp hany)
  · next hany =>
    -- no line names the parameter, so the branch has none
    have hnone : taken o ls = [] := by
      rw [List.eq_nil_iff_forall_not_mem]
      intro l hl
      exact hany (List.any_eq_true.mpr ⟨l, (mem_taken.mp hl).1, hns o ho l hl⟩)
    have hown : taken o (ls ++ [setting param value, []]) = [setting param value] := by
      rw [taken_append, hnone, List.nil_append, ← List.singleton_append, taken_append,
        taken_singleton (by rw [optionOf_setting, ho]), taken_blank, List.append_nil]
    constructor
    · rw [hown]
      exact List.cons_ne_nil _ _
    · rw [hown]
      intro l hl
      rw [List.mem_singleton.mp hl, skipSpace_setting]

theorem taken_setLines (hparam : PlainName param) (ho : paramOption param ≠ some o)
    (ls : List (List Char)) : taken o (setLines ls (param, value)) = taken o ls := by
  have hsetting : optionOf (setting param value) ≠ some o := by rwa [optionOf_setting]
  unfold setLines
  split
  · exact taken_setParam hparam ho hsetting ls
  · rw [taken_append, ← List.singleton_append, taken_append, taken_singleton_of_ne hsetting,
      taken_blank, List.append_nil, List.append_nil]

theorem taken_foldl_setLines {ss : List (List Char × List Char)}
    (hplain : ∀ s ∈ ss, PlainName s.1) (ho : ∀ s ∈ ss, paramOption s.1 ≠ some o)
    (ls : List (List Char)) : taken o (ss.foldl setLines ls) = taken o ls := by
  induction ss generalizing ls with
  | nil => rfl
  | cons s ss ih =>
      rw [List.foldl_cons, ih (fun s hs => hplain s (List.mem_cons_of_mem _ hs))
        (fun s hs => ho s (List.mem_cons_of_mem _ hs))]
      exact taken_setLines (hplain s List.mem_cons_self) (ho s List.mem_cons_self) ls

/-- Overrides of different branches without strays fix each of their branches. -/
theorem fixed_foldl_setLines {ss : List (List Char × List Char)}
    (hplain : ∀ s ∈ ss, PlainName s.1)
    (hdiff : ss.Pairwise fun s s' => ∀ o, paramOption s.1 = some o → paramOption s'.1 ≠ some o)
    (hns : ∀ s ∈ ss, NoStray s.1 ls) :
    ∀ s ∈ ss, ∀ o, paramOption s.1 = some o → Fixed o (setting s.1 s.2) (ss.foldl setLines ls) := by
  induction ss generalizing ls with
  | nil => exact fun s hs => absurd hs List.not_mem_nil
  | cons s ss ih =>
      obtain ⟨hhead, htail⟩ := List.pairwise_cons.mp hdiff
      obtain ⟨hs, hss⟩ := List.forall_mem_cons.mp hplain
      obtain ⟨hns', hnss⟩ := List.forall_mem_cons.mp hns
      intro s' hs' o ho
      rw [List.foldl_cons]
      rcases List.mem_cons.mp hs' with rfl | hmem
      · exact (fixed_setLines hns' ho).congr
          (taken_foldl_setLines hss (fun s hs => hhead s hs o ho) _)
      · refine ih hss htail (fun t ht => ?_) s' hmem o ho
        refine (hnss t ht).congr fun o' ho' => ?_
        exact taken_setLines hs (fun h => hhead t ht o' h ho') ls

end

/-! ## Branches under a free pattern -/

section
variable {p : LinePattern} {c : Char} {repl param : List Char} {o : ConfigOption}
  {ls : List (List Char)}

/-- A replacement that starts as the matches do. -/
def freeMap (p : LinePattern) (repl : List Char) (ls : List (List Char)) : List (List Char) :=
  ls.map (p.subLine repl true)

variable (hp : FreePattern p c) (hrepl : ∃ b, repl = '-' :: c :: b)
include hp hrepl

/-- A line stays, becomes the replacement, or keeps its branch and what stands in front of
    the match. -/
theorem freeSub_trichotomy (l : List Char) :
    p.subLine repl true l = l ∨
      (p.head (skipSpace l)).isSome = true ∧ skipSpace (p.subLine repl true l) = repl ∨
      ∃ w a, w ≠ [] ∧ skipSpace l = w ++ '-' :: c :: a ∧
        skipSpace (p.subLine repl true l) = w ++ repl ∧
        optionOf (p.subLine repl true l) = optionOf l := by
  obtain ⟨b, rfl⟩ := hrepl
  rcases freeSub_cases hp ('-' :: c :: b) l with h | ⟨u, a, rfl, ha, h⟩
  · exact .inl h
  · rw [h]
    by_cases hu : skipSpace u = []
    · refine .inr (.inl ?_)
      rw [skipSpace_append_of_blank hu, skipSpace_append_of_blank hu, skipSpace_dash,
        skipSpace_dash]
      exact ⟨ha, rfl⟩
    · exact .inr (.inr ⟨skipSpace u, a, hu, skipSpace_append hu _, skipSpace_append hu _,
        optionOf_congr hu⟩)

/-- A line without the letter stays. -/
theorem freeSub_of_not_mem {l : List Char} (h : c ∉ skipSpace l) : p.subLine repl true l = l := by
  rcases freeSub_trichotomy hp hrepl l with hsame | ⟨hhead, -⟩ | ⟨w, a, -, hl, -, -⟩
  · exact hsame
  · obtain ⟨u, hu⟩ := hp.start _ hhead
    rw [hu] at h
    simp at h
  · rw [hl] at h
    simp at h

/-- A text that starts a line, and has a dash at its start only, is kept. -/
theorem prefix_freeSub {k l : List Char} (hk : '-' ∉ k.tail) (hl : k <+: skipSpace l)
    (hrepl' : (p.head (skipSpace l)).isSome = true → k <+: repl) :
    k <+: skipSpace (p.subLine repl true l) := by
  rcases freeSub_trichotomy hp hrepl l with hsame | ⟨hhead, hsub⟩ | ⟨w, a, hw, hline, hsub, -⟩
  · rwa [hsame]
  · rw [hsub]
    exact hrepl' hhead
  · rw [hline, prefix_append_iff_of_tail hk hw] at hl
    rw [hsub]
    exact hl.trans (List.prefix_append _ _)

theorem names_freeSub (hparam : PlainName param) (l : List Char) :
    names param (p.subLine repl true l) = names param l := by
  obtain ⟨b, rfl⟩ := hrepl
  rcases freeSub_cases hp ('-' :: c :: b) l with h | ⟨u, a, rfl, -, h⟩
  · rw [h]
  · rw [h]
    exact names_congr hparam hp.letter hp.letter

/-- A branch other than the one of the replacement does not change, when the matches do
    not belong to it. -/
theorem optionOf_freeSub (hown : ∀ a, (p.head ('-' :: c :: a)).isSome = true →
      (optionOf ('-' :: c :: a) = some o ↔ optionOf repl = some o)) (l : List Char) :
    optionOf (p.subLine repl true l) = some o ↔ optionOf l = some o := by
  rcases freeSub_cases hp repl l with h | ⟨u, a, rfl, ha, h⟩
  · rw [h]
  · rw [h]
    by_cases hu : skipSpace u = []
    · have hskip (v : List Char) : optionOf (u ++ v) = optionOf v := by
        unfold optionOf
        rw [skipSpace_append_of_blank hu]
      rw [hskip, hskip]
      exact (hown a ha).symm
    · obtain ⟨b, rfl⟩ := hrepl
      rw [optionOf_congr hu]

theorem taken_freeMap (hown : ∀ a, (p.head ('-' :: c :: a)).isSome = true →
      (optionOf ('-' :: c :: a) = some o ↔ optionOf repl = some o)) :
    taken o (freeMap p repl ls) = freeMap p repl (taken o ls) := by
  unfold taken freeMap
  rw [List.filter_map]
  congr 1
  refine List.filter_congr fun l _ => ?_
  rw [Function.comp_apply, decide_eq_decide]
  exact optionOf_freeSub hp hrepl hown l

omit hp hrepl in
/-- The first two characters of a line decide between branches. -/
theorem ne_option_of_key (ho : ¬ ['-', c] <+: o.key) (a : List Char) :
    optionOf ('-' :: c :: a) ≠ some o := by
  intro h
  have hkey := key_prefix_of_optionOf h
  rw [skipSpace_dash] at hkey
  obtain ⟨-, -, d, k, hshape, -⟩ := key_shape o
  rw [hshape, List.cons_prefix_cons, List.cons_prefix_cons] at hkey
  rw [hshape, hkey.2.1] at ho
  exact ho (List.prefix_append ['-', c] k)

theorem taken_freeMap_of_key (ho : ¬ ['-', c] <+: o.key) :
    taken o (freeMap p repl ls) = freeMap p repl (taken o ls) := by
  refine taken_freeMap hp hrepl fun a _ => ?_
  obtain ⟨b, rfl⟩ := hrepl
  exact ⟨fun h => absurd h (ne_option_of_key ho a), fun h => absurd h (ne_option_of_key ho b)⟩

/-- Strays do not come about. -/
theorem NoStray.freeMap (hparam : PlainName param)
    (hoption : ∀ o, paramOption param = some o → optionOf repl ≠ some o)
    (h : NoStray param ls) : NoStray param (freeMap p repl ls) := by
  intro o ho l hl
  obtain ⟨hmem, hl⟩ := mem_taken.mp hl
  obtain ⟨l', hl', rfl⟩ := List.mem_map.mp hmem
  rw [names_freeSub hp hrepl hparam]
  refine h o ho l' (mem_taken.mpr ⟨hl', ?_⟩)
  obtain ⟨b, rfl⟩ := hrepl
  rcases freeSub_cases hp ('-' :: c :: b) l' with h | ⟨u, a, rfl, -, h⟩
  · rwa [h] at hl
  · rw [h] at hl
    by_cases hu : skipSpace u = []
    · unfold optionOf at hl
      rw [skipSpace_append_of_blank hu] at hl
      exact absurd hl (hoption o ho)
    · rwa [optionOf_congr hu]

end

end Destiny.Sweep
