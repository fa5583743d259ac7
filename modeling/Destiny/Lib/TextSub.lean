/-
  Destiny.Lib.TextSub

  `re.sub` and `re.search` with a pattern that ends in `.*`, on texts of many
  lines.

  * A `LinePattern` says what stands before the `.*`: whether it is tied to the
    start of a line (`^` with `re.MULTILINE`), and what it leaves of a text it
    matches.  The `.*` then runs to the end of the line.
  * `sub` and `search` look for matches from left to right.
  * On a text in whose lines no match runs past the end of its line (`Local`) both
    work line by line (`sub_splitOn`, `search_splitOn`), and what `subLine` makes of a
    line is the line itself or what stands before the first match, followed by the
    replacement (`subLine_cases`).
  * The matches of a `Free` pattern may start anywhere but at a newline and run over
    several lines; these become what stands before the match and the replacement
    (`Free.swapped`).
-/

import Destiny.Lib.LineLoop
import Mathlib.Data.List.Basic

namespace Destiny.Lib

/-! ## Patterns -/

/-- What is left of a text behind a literal it starts with. -/
def stripPrefix (s t : List Char) : Option (List Char) :=
  if s.isPrefixOf t then some (t.drop s.length) else none

theorem stripPrefix_eq_some {s t r : List Char} : stripPrefix s t = some r ↔ t = s ++ r := by
  unfold stripPrefix
  constructor
  · intro h
    split at h
    · next hhead =>
      obtain ⟨u, rfl⟩ := List.isPrefixOf_iff_prefix.mp hhead
      rw [List.drop_left] at h
      rw [Option.some.inj h]
    · cases h
  · rintro rfl
    rw [if_pos (List.isPrefixOf_iff_prefix.mpr (List.prefix_append s r)), List.drop_left]

theorem stripPrefix_append (s r : List Char) : stripPrefix s (s ++ r) = some r :=
  stripPrefix_eq_some.mpr rfl

theorem isSome_stripPrefix {s t : List Char} : (stripPrefix s t).isSome = true ↔ s <+: t := by
  rw [Option.isSome_iff_exists]
  constructor
  · rintro ⟨r, h⟩
    exact ⟨r, (stripPrefix_eq_some.mp h).symm⟩
  · rintro ⟨r, rfl⟩
    exact ⟨r, stripPrefix_append s r⟩

/-- The part of a pattern before its `.*`. -/
structure LinePattern where
  /-- `^` with `re.MULTILINE` -/
  anchored : Bool
  /-- what a match at the start of a text leaves of it -/
  head : List Char → Option (List Char)
  head_nil : head [] = none
  head_suffix : ∀ t r, head t = some r → r <:+ t

namespace LinePattern
variable (p : LinePattern) (repl : List Char)

/-- What a match of the whole pattern at the start of a text leaves of it; `bol` when
    the text starts a line. -/
def matchAt (bol : Bool) (t : List Char) : Option (List Char) :=
  if p.anchored && !bol then none else (p.head t).map fun r => r.dropWhile fun c => c ≠ '\n'

/-- `re.sub` on a text of which the first characters belong to a match already replaced. -/
def subFrom : Bool → Nat → List Char → List Char
  | _, _, [] => []
  | _, n + 1, c :: t => subFrom (c == '\n') n t
  | bol, 0, c :: t =>
    match p.matchAt bol (c :: t) with
    | some rest => repl ++ subFrom (c == '\n') (t.length - rest.length) t
    | none => c :: subFrom (c == '\n') 0 t

/-- `re.sub(pattern, repl, t)` -/
def sub (t : List Char) : List Char := p.subFrom repl true 0 t

def searchFrom : Bool → List Char → Bool
  | _, [] => false
  | bol, c :: t => (p.matchAt bol (c :: t)).isSome || searchFrom (c == '\n') t

/-- `re.search(pattern, t) is not None` -/
def search (t : List Char) : Bool := p.searchFrom true t

/-! ## One line -/

/-- `re.sub` on a line: the first match takes the rest of it. -/
def subLine : Bool → List Char → List Char
  | _, [] => []
  | bol, c :: t => if (p.matchAt bol (c :: t)).isSome then repl else c :: subLine false t

def searchLine : Bool → List Char → Bool
  | _, [] => false
  | bol, c :: t => (p.matchAt bol (c :: t)).isSome || searchLine false t

/-- Wherever in the line the pattern matches, it does so within the line. -/
def Local (l : List Char) : Prop :=
  ∀ v, v <:+ l → ∀ r, p.head (v ++ '\n' :: r) = (p.head v).map (· ++ '\n' :: r)

variable {p repl}

theorem Local.suffix {l v : List Char} (h : p.Local l) (hv : v <:+ l) : p.Local v :=
  fun w hw => h w (hw.trans hv)

/-- A line either has no match, or ends with its first one. -/
theorem subLine_cases (bol : Bool) (l : List Char) :
    p.subLine repl bol l = l ∧ p.searchLine bol l = false ∨
      ∃ u v, l = u ++ v ∧ (p.head v).isSome = true ∧ p.subLine repl bol l = u ++ repl ∧
        p.searchLine bol l = true := by
  induction l generalizing bol with
  | nil => exact .inl ⟨rfl, rfl⟩
  | cons c l ih =>
      unfold subLine searchLine
      by_cases hmatch : (p.matchAt bol (c :: l)).isSome = true
      · refine .inr ⟨[], c :: l, rfl, ?_, by simp [hmatch], by simp [hmatch]⟩
        unfold matchAt at hmatch
        split at hmatch
        · cases hmatch
        · rwa [Option.isSome_map] at hmatch
      · rcases ih false with ⟨hsame, hnone⟩ | ⟨u, v, rfl, hv, hsub, hfound⟩
        · exact .inl ⟨by simp [hmatch, hsame], by simp [hmatch, hnone]⟩
        · exact .inr ⟨c :: u, v, rfl, hv, by simp [hmatch, hsub], by simp [hmatch, hfound]⟩

/-- A pattern tied to the start of a line replaces the line or nothing. -/
theorem subLine_anchored (hp : p.anchored = true) (l : List Char) :
    p.subLine repl true l = if (p.head l).isSome then repl else l := by
  have hlater : ∀ l, p.subLine repl false l = l := by
    intro l
    induction l with
    | nil => rfl
    | cons c l ih => simp [subLine, matchAt, hp, ih]
  cases l with
  | nil => simp [subLine, p.head_nil]
  | cons c l => simp [subLine, matchAt, hlater]

theorem searchLine_anchored (hp : p.anchored = true) (l : List Char) :
    p.searchLine true l = (p.head l).isSome := by
  have hlater : ∀ l, p.searchLine false l = false := by
    intro l
    induction l with
    | nil => rfl
    | cons c l ih => simp [searchLine, matchAt, hp, ih]
  cases l with
  | nil => simp [searchLine, p.head_nil]
  | cons c l => simp [searchLine, matchAt, hlater]

/-- A free pattern that matches behind white space only, and nowhere in it. -/
theorem subLine_of_head (hp : p.anchored = false) {ws v : List Char} (bol : Bool)
    (hws : ∀ w, w <:+ ws → w ≠ [] → p.head (w ++ v) = none) (hv : (p.head v).isSome = true) :
    p.subLine repl bol (ws ++ v) = ws ++ repl := by
  induction ws generalizing bol with
  | nil =>
      obtain ⟨c, t, rfl⟩ : ∃ c t, v = c :: t := by
        refine List.exists_cons_of_ne_nil ?_
        rintro rfl
        rw [p.head_nil] at hv
        cases hv
      simp [subLine, matchAt, hp, hv]
  | cons c ws ih =>
      have hnone := hws (c :: ws) List.suffix_rfl (List.cons_ne_nil _ _)
      have htail := ih false fun w hw hne => hws w (hw.trans (List.suffix_cons c ws)) hne
      rw [List.cons_append] at hnone ⊢
      simp [subLine, matchAt, hp, hnone, htail]

theorem newline_not_mem_subLine (hrepl : '\n' ∉ repl) {l : List Char} (hl : '\n' ∉ l) :
    '\n' ∉ p.subLine repl true l := by
  have hcases : p.subLine repl true l = l ∧ _ ∨ _ := subLine_cases true l
  rcases hcases with ⟨h, -⟩ | ⟨u, v, rfl, -, h, -⟩
  · rwa [h]
  · rw [h, List.mem_append, not_or]
    exact ⟨fun hu => hl (List.mem_append_left v hu), hrepl⟩

/-! ## Line by line -/

theorem newline_not_mem_line {t l : List Char} (hl : l ∈ t.splitOn '\n') : '\n' ∉ l := by
  induction t generalizing l with
  | nil =>
      obtain rfl : l = [] := by simpa using hl
      exact List.not_mem_nil
  | cons c t ih =>
      by_cases hc : c = '\n'
      · subst hc
        rw [splitOn_newline, List.mem_cons] at hl
        rcases hl with rfl | hl
        · exact List.not_mem_nil
        · exact ih hl
      · rw [splitOn_cons_of_ne hc] at hl
        obtain ⟨l', ls, hsplit⟩ := List.exists_cons_of_ne_nil (List.splitOn_ne_nil '\n' t)
        rw [hsplit, List.modifyHead_cons, List.mem_cons] at hl
        rcases hl with rfl | hl
        · rw [List.mem_cons, not_or]
          exact ⟨Ne.symm hc, ih (hsplit ▸ List.mem_cons_self)⟩
        · exact ih (hsplit ▸ List.mem_cons_of_mem _ hl)

theorem dropWhile_newline {l : List Char} (hl : '\n' ∉ l) (r : List Char) :
    (l ++ '\n' :: r).dropWhile (fun c => c ≠ '\n') = '\n' :: r ∧
      l.dropWhile (fun c => c ≠ '\n') = [] := by
  have hall : ∀ c ∈ l, decide (c ≠ '\n') = true := by
    intro c hc
    rw [decide_eq_true_eq]
    rintro rfl
    exact hl hc
  constructor
  · rw [List.dropWhile_append_of_pos hall]
    simp
  · exact List.dropWhile_eq_nil_iff.mpr hall

/-- The characters of a match are passed over. -/
theorem subFrom_skip {u : List Char} (hu : '\n' ∉ u) (t : List Char) :
    p.subFrom repl false u.length (u ++ t) = p.subFrom repl false 0 t := by
  induction u with
  | nil => rfl
  | cons c u ih =>
      rw [List.mem_cons, not_or] at hu
      have hc : (c == '\n') = false := beq_eq_false_iff_ne.mpr (Ne.symm hu.1)
      rw [List.length_cons, List.cons_append, subFrom, hc]
      exact ih hu.2

/-- At a newline no match starts. -/
theorem subFrom_newline {l : List Char} (hlocal : p.Local l) (bol : Bool) (t : List Char) :
    p.subFrom repl bol 0 ('\n' :: t) = '\n' :: p.subFrom repl true 0 t := by
  have hnone : p.head ('\n' :: t) = none := by
    have h := hlocal [] (List.nil_suffix) t
    rwa [p.head_nil] at h
  simp [subFrom, matchAt, hnone]

/-- A line at the end of a text or in front of a newline. -/
theorem subFrom_line {l : List Char} (hl : '\n' ∉ l) (hlocal : p.Local l) (bol : Bool) :
    p.subFrom repl bol 0 l = p.subLine repl bol l ∧ ∀ t,
      p.subFrom repl bol 0 (l ++ '\n' :: t) =
        p.subLine repl bol l ++ '\n' :: p.subFrom repl true 0 t := by
  induction l generalizing bol with
  | nil => exact ⟨rfl, fun t => subFrom_newline hlocal bol t⟩
  | cons c l ih =>
      have hl' := hl
      rw [List.mem_cons, not_or] at hl
      have hc : (c == '\n') = false := beq_eq_false_iff_ne.mpr (Ne.symm hl.1)
      have htail := ih hl.2 (hlocal.suffix (List.suffix_cons c l)) false
      have hmatch (t : List Char) : p.matchAt bol (c :: l ++ '\n' :: t) =
          (p.matchAt bol (c :: l)).map fun _ => '\n' :: t := by
        unfold matchAt
        split
        · rfl
        · rw [hlocal _ List.suffix_rfl t]
          cases hhead : p.head (c :: l) with
          | none => rfl
          | some r =>
              have hr : '\n' ∉ r := fun hmem => hl' ((p.head_suffix _ _ hhead).subset hmem)
              rw [Option.map_some, Option.map_some, (dropWhile_newline hr t).1]
              rfl
      cases hmatchAt : p.matchAt bol (c :: l) with
      | none =>
          constructor
          · simp only [subFrom, subLine, hmatchAt, hc, htail.1, Option.isSome_none,
              Bool.false_eq_true, if_false]
          · intro t
            have hnone := hmatch t
            rw [hmatchAt, List.cons_append] at hnone
            simp only [List.cons_append, subFrom, hnone, subLine, hmatchAt, hc, htail.2 t,
              Option.map_none, Option.isSome_none, Bool.false_eq_true, if_false]
      | some rest =>
          -- the match takes the rest of the line
          have hrest : rest = [] := by
            unfold matchAt at hmatchAt
            split at hmatchAt
            · cases hmatchAt
            · obtain ⟨r, hr, rfl⟩ := Option.map_eq_some_iff.mp hmatchAt
              have hnewline : '\n' ∉ r := fun hmem => hl' ((p.head_suffix _ _ hr).subset hmem)
              exact (dropWhile_newline hnewline []).2
          subst hrest
          constructor
          · have hskip : p.subFrom repl false l.length (l ++ []) = _ := subFrom_skip hl.2 []
            rw [List.append_nil] at hskip
            simp only [subFrom, subLine, hmatchAt, hc, List.length_nil, Nat.sub_zero, hskip,
              Option.isSome_some, if_true, List.append_nil]
          · intro t
            have hsome := hmatch t
            rw [hmatchAt, List.cons_append, Option.map_some] at hsome
            have hlength : (l ++ '\n' :: t).length - ('\n' :: t).length = l.length := by
              rw [List.length_append]
              omega
            have hskip : p.subFrom repl false l.length (l ++ '\n' :: t) = _ :=
              subFrom_skip hl.2 ('\n' :: t)
            rw [subFrom_newline hlocal] at hskip
            rw [List.cons_append, subFrom]
            simp only [hsome, subLine, hmatchAt, hc, hlength, hskip, Option.isSome_some, if_true]

theorem searchFrom_line {l : List Char} (hl : '\n' ∉ l) (hlocal : p.Local l) (bol : Bool) :
    p.searchFrom bol l = p.searchLine bol l ∧ ∀ t,
      p.searchFrom bol (l ++ '\n' :: t) = (p.searchLine bol l || p.searchFrom true t) := by
  induction l generalizing bol with
  | nil =>
      refine ⟨rfl, fun t => ?_⟩
      have hnone : p.head ('\n' :: t) = none := by
        have h := hlocal [] List.nil_suffix t
        rwa [p.head_nil] at h
      simp [searchFrom, searchLine, matchAt, hnone]
  | cons c l ih =>
      rw [List.mem_cons, not_or] at hl
      have hc : (c == '\n') = false := beq_eq_false_iff_ne.mpr (Ne.symm hl.1)
      have htail := ih hl.2 (hlocal.suffix (List.suffix_cons c l)) false
      constructor
      · rw [searchFrom, searchLine, hc, htail.1]
      · intro t
        have hmatch : (p.matchAt bol (c :: (l ++ '\n' :: t))).isSome =
            (p.matchAt bol (c :: l)).isSome := by
          have hhead := hlocal (c :: l) List.suffix_rfl t
          rw [List.cons_append] at hhead
          unfold matchAt
          split
          · rfl
          · rw [hhead, Option.isSome_map, Option.isSome_map, Option.isSome_map]
        rw [List.cons_append, searchFrom, searchLine, hc, htail.2 t, hmatch, Bool.or_assoc]

/-- What holds of every text of lines holds of a text. -/
theorem lines_induction {P : List Char → List (List Char) → Prop}
    (hlast : ∀ l, '\n' ∉ l → P l [l])
    (hcons : ∀ l t ls, '\n' ∉ l → ls ≠ [] → P t ls → P (l ++ '\n' :: t) (l :: ls))
    (t : List Char) : P t (t.splitOn '\n') := by
  have hjoin : ∀ ls : List (List Char), ls ≠ [] → (∀ l ∈ ls, '\n' ∉ l) →
      P (['\n'].intercalate ls) ls := by
    intro ls hne hls
    induction ls with
    | nil => exact absurd rfl hne
    | cons l ls ih =>
        obtain ⟨hl, hrest⟩ := List.forall_mem_cons.mp hls
        cases ls with
        | nil => simpa [List.intercalate] using hlast l hl
        | cons l' ls =>
            have hstep := hcons l _ _ hl (List.cons_ne_nil _ _) (ih (List.cons_ne_nil _ _) hrest)
            simpa [List.intercalate] using hstep
  have h := hjoin (t.splitOn '\n') (List.splitOn_ne_nil '\n' t) fun _ => newline_not_mem_line
  rwa [List.intercalate_splitOn] at h

/-- A text of which every line is local is replaced line by line; the replacement may have
    lines of its own. -/
theorem sub_splitOn_flatMap {t : List Char} (hlocal : ∀ l ∈ t.splitOn '\n', p.Local l) :
    (p.sub repl t).splitOn '\n' =
      (t.splitOn '\n').flatMap fun l => (p.subLine repl true l).splitOn '\n' := by
  revert hlocal
  refine lines_induction
    (P := fun t ls => (∀ l ∈ ls, p.Local l) → (p.sub repl t).splitOn '\n' =
      ls.flatMap fun l => (p.subLine repl true l).splitOn '\n')
    (fun l hl hlocal => ?_) (fun l t ls hl _ ih hlocal => ?_) t
  · rw [sub, (subFrom_line hl (hlocal l (by simp)) true).1]
    simp
  · obtain ⟨hloc, hrest⟩ := List.forall_mem_cons.mp hlocal
    rw [sub, (subFrom_line hl hloc true).2, List.flatMap_cons, ← ih hrest,
      List.splitOn_append_cons_self]
    rfl

/-- A replacement without a newline leaves one line for each. -/
theorem sub_splitOn (hrepl : '\n' ∉ repl) {t : List Char}
    (hlocal : ∀ l ∈ t.splitOn '\n', p.Local l) :
    (p.sub repl t).splitOn '\n' = (t.splitOn '\n').map (p.subLine repl true) := by
  rw [sub_splitOn_flatMap hlocal, List.map_eq_flatMap]
  refine List.flatMap_congr fun l hl => ?_
  exact List.splitOn_eq_singleton (newline_not_mem_subLine hrepl (newline_not_mem_line hl))

/-- Such a text is searched line by line. -/
theorem search_splitOn {t : List Char} (hlocal : ∀ l ∈ t.splitOn '\n', p.Local l) :
    p.search t = (t.splitOn '\n').any (p.searchLine true) := by
  revert hlocal
  refine lines_induction
    (P := fun t ls => (∀ l ∈ ls, p.Local l) → p.search t = ls.any (p.searchLine true))
    (fun l hl hlocal => ?_) (fun l t ls hl _ ih hlocal => ?_) t
  · rw [search, (searchFrom_line hl (hlocal l (by simp)) true).1]
    simp
  · obtain ⟨hloc, hrest⟩ := List.forall_mem_cons.mp hlocal
    rw [search, (searchFrom_line hl hloc true).2, List.any_cons, ← ih hrest]
    rfl

/-! ## Free patterns -/

/-- A pattern that may match anywhere but at a newline, and whose matches go on when the
    text does. -/
structure Free (p : LinePattern) : Prop where
  anchored : p.anchored = false
  shorter : ∀ t r, p.head t = some r → r.length < t.length
  grows : ∀ t u, (p.head t).isSome = true → (p.head (t ++ u)).isSome = true
  newline : ∀ t, p.head ('\n' :: t) = none

/-- The lines before and after a substitution: a line without a match stays, and the lines
    of a match become its start and the replacement. -/
inductive Swapped (p : LinePattern) (repl : List Char) :
    List (List Char) → List (List Char) → Prop
  | nil : Swapped p repl [] []
  | keep {l : List Char} {ls ms : List (List Char)} (hl : '\n' ∉ l)
      (hnone : ∀ x, x <:+ l → p.head x = none) (hrest : Swapped p repl ls ms) :
      Swapped p repl (l :: ls) (l :: ms)
  | swap {u body rest r : List Char} {ls ms : List (List Char)} (hu : '\n' ∉ u)
      (hfirst : ∀ x, x <:+ u → p.head x = none) (hmatch : p.head (body ++ rest) = some r)
      (hend : r.dropWhile (fun c => c ≠ '\n') = rest) (hrest : Swapped p repl ls ms) :
      Swapped p repl ((u ++ body).splitOn '\n' ++ ls) ((u ++ repl).splitOn '\n' ++ ms)

section
variable (hp : p.anchored = false)
include hp

theorem subFrom_bol (bol bol' : Bool) (n : ℕ) (t : List Char) :
    p.subFrom repl bol n t = p.subFrom repl bol' n t := by
  cases t with
  | nil => cases n <;> rfl
  | cons c t =>
      cases n with
      | zero => simp [subFrom, matchAt, hp]
      | succ n => rfl

theorem subFrom_skip_free (u t : List Char) (bol : Bool) :
    p.subFrom repl bol u.length (u ++ t) = p.sub repl t := by
  induction u generalizing bol with
  | nil => exact subFrom_bol hp bol true 0 t
  | cons c u ih => exact ih (c == '\n')

theorem sub_cons_of_none {c : Char} {t : List Char} (h : p.head (c :: t) = none) :
    p.sub repl (c :: t) = c :: p.sub repl t := by
  have htail : p.subFrom repl (c == '\n') 0 t = p.sub repl t := subFrom_bol hp _ true 0 t
  unfold sub
  rw [subFrom, matchAt, hp, h]
  simpa [sub] using htail

/-- Behind a match the substitution goes on at the end of the line. -/
theorem sub_of_head {v r : List Char} (h : p.head v = some r) (hshort : r.length < v.length) :
    p.sub repl v = repl ++ p.sub repl (r.dropWhile fun c => c ≠ '\n') := by
  obtain ⟨c, t, rfl⟩ : ∃ c t, v = c :: t := by
    refine List.exists_cons_of_ne_nil ?_
    rintro rfl
    rw [p.head_nil] at h
    cases h
  have hsuffix : (r.dropWhile fun c => c ≠ '\n') <:+ t := by
    have hr : r <:+ t := by
      rcases List.suffix_cons_iff.mp (p.head_suffix _ _ h) with rfl | hr
      · exact absurd hshort (lt_irrefl _)
      · exact hr
    exact (List.dropWhile_suffix _).trans hr
  obtain ⟨u, hu⟩ := hsuffix
  have hlength : t.length - (r.dropWhile fun c => c ≠ '\n').length = u.length := by
    rw [← hu, List.length_append, Nat.add_sub_cancel]
  have hskip : p.subFrom repl (c == '\n') u.length (u ++ r.dropWhile fun c => c ≠ '\n') = _ :=
    subFrom_skip_free hp u _ _
  rw [hu] at hskip
  unfold sub at hskip ⊢
  rw [subFrom, matchAt, hp, h]
  simp only [Bool.false_and, Bool.false_eq_true, if_false, Option.map_some, hlength, hskip]

end

section
variable (hp : p.Free)
include hp

theorem Free.head_eq_none {t u : List Char} (h : p.head (t ++ u) = none) : p.head t = none := by
  cases ht : p.head t with
  | none => rfl
  | some r =>
      have hsome := hp.grows t u (by rw [ht]; rfl)
      rw [h] at hsome
      cases hsome

/-- Behind the start of a line that holds no match. -/
theorem Free.swapped_append {t : List Char} :
    ∀ {u : List Char}, '\n' ∉ u → (∀ x, x <:+ u → x ≠ [] → p.head (x ++ t) = none) →
      Swapped p repl ((u ++ t).splitOn '\n') ((u ++ p.sub repl t).splitOn '\n') := by
  induction hlength : t.length using Nat.strong_induction_on generalizing t with
  | _ n ih =>
    intro u hu hfirst
    have hnone : ∀ x, x <:+ u → p.head x = none := by
      intro x hx
      by_cases hne : x = []
      · rw [hne, p.head_nil]
      · exact hp.head_eq_none (hfirst x hx hne)
    cases t with
    | nil =>
        have hempty : p.sub repl [] = [] := rfl
        rw [hempty, List.append_nil, List.splitOn_eq_singleton hu]
        exact .keep hu hnone .nil
    | cons c t =>
        cases hhead : p.head (c :: t) with
        | some r =>
            -- the match takes the rest of the line it ends in
            have hsuffix : (r.dropWhile fun c => c ≠ '\n') <:+ c :: t :=
              (List.dropWhile_suffix _).trans (p.head_suffix _ _ hhead)
            obtain ⟨body, hbody⟩ := hsuffix
            have hshort := hp.shorter _ _ hhead
            rw [sub_of_head hp.anchored hhead hshort]
            have hmatch : p.head (body ++ r.dropWhile fun c => c ≠ '\n') = some r := by
              rw [hbody, hhead]
            have hrest := List.head?_dropWhile_not (fun d => decide (d ≠ '\n')) r
            cases hend : r.dropWhile fun c => c ≠ '\n' with
            | nil =>
                rw [hend, List.append_nil] at hbody
                have hempty : p.sub repl [] = [] := rfl
                rw [hempty, List.append_nil, ← hbody]
                have h : Swapped p repl (_ ++ []) (_ ++ []) := .swap hu hnone hmatch rfl .nil
                rwa [List.append_nil, List.append_nil] at h
            | cons d t' =>
                rw [hend] at hrest hbody
                obtain rfl : d = '\n' := by simpa using hrest
                have hlt : t'.length < n := by
                  rw [← hlength, ← hbody, List.length_append, List.length_cons]
                  omega
                have htail := ih t'.length hlt rfl (u := []) List.not_mem_nil
                  fun x hx hne => absurd (List.suffix_nil.mp hx) hne
                rw [sub_cons_of_none hp.anchored (hp.newline t'), ← hbody, ← List.append_assoc,
                  List.splitOn_append_cons_self, ← List.append_assoc,
                  List.splitOn_append_cons_self]
                exact .swap hu hnone hmatch rfl htail
        | none =>
            rw [sub_cons_of_none hp.anchored hhead]
            by_cases hc : c = '\n'
            · subst hc
              rw [List.splitOn_append_cons_self_of_not_mem hu,
                List.splitOn_append_cons_self_of_not_mem hu]
              refine .keep hu hnone ?_
              have htail := ih t.length (by rw [← hlength]; exact Nat.lt_succ_self _) rfl
                (u := []) List.not_mem_nil fun x hx hne => absurd (List.suffix_nil.mp hx) hne
              exact htail
            · -- the character joins the line
              have hmem : '\n' ∉ u ++ [c] := by
                rw [List.mem_append, List.mem_singleton, not_or]
                exact ⟨hu, Ne.symm hc⟩
              have htail := ih t.length (by rw [← hlength]; exact Nat.lt_succ_self _) rfl hmem
                fun x hx hne => ?_
              · rwa [List.append_assoc, List.append_assoc] at htail
              · rcases List.suffix_concat_iff.mp hx with rfl | ⟨y, rfl, hy⟩
                · exact absurd rfl hne
                · rw [List.append_assoc]
                  show p.head (y ++ c :: t) = none
                  by_cases hy' : y = []
                  · rw [hy']
                    exact hhead
                  · exact hfirst y hy hy'

/-- `re.sub` of a free pattern, line by line. -/
theorem Free.swapped (t : List Char) :
    Swapped p repl (t.splitOn '\n') ((p.sub repl t).splitOn '\n') :=
  hp.swapped_append (u := []) List.not_mem_nil
    fun _ hx hne => absurd (List.suffix_nil.mp hx) hne

end

end LinePattern

end Destiny.Lib
