/-
  Destiny.Sweep.Standing

  What the reader takes from the lines of a parameter once `run_single_simulation` has
  replaced the lines that its pattern matches.

  * A line that counts for a parameter has a `standing`: it is replaced, or the reader
    takes a value from it.
  * An override replaces the lines that name its parameter, or appends one.  Its value is
    the last that the reader takes exactly when the lines are `Settled`
    (`getLast?_setLines`), and the reader ends with the last (`foldl_of_last`,
    `foldl_of_getLast`).
  * The free substitutions leave what stands in front of a dash, which is all that a
    standing looks at (`standing_congr`, `blind_standing`).
-/

import Destiny.Sweep.CapacityLines
import Destiny.Sweep.ConfigRead

namespace Destiny.Sweep

open Lib

/-! ## What a line says about a parameter -/

/-- The number the reader takes from a line of a branch. -/
def intIn (o : ConfigOption) (l : List Char) : Option ℤ :=
  ((scanLiteral o.label (skipSpace l)).bind scanInt).map Prod.fst

/-- The word it takes. -/
def wordIn (o : ConfigOption) (l : List Char) : Option (List Char) :=
  ((scanLiteral o.label (skipSpace l)).bind scanWord).map Prod.fst

/-- A line that counts for a parameter is replaced, or the reader takes a value from it. -/
inductive Standing (V : Type) where
  | replaced
  | read (v : V)
  deriving DecidableEq

/-- The value it leaves, when the replacement has the first. -/
def Standing.value {V : Type} (v : V) : Standing V → V
  | .replaced => v
  | .read x => x

section
variable {V : Type} (param : List Char) (o : ConfigOption) (val : List Char → Option V)

def standing (l : List Char) : Option (Standing V) :=
  if names param l then some .replaced
  else if optionOf l = some o then (val l).map .read
  else none

/-- Once a line is replaced, the last that counts is replaced or has the same value. -/
def Settled (v : V) (ls : List (List Char)) : Prop :=
  .replaced ∈ ls.filterMap (standing param o val) →
    ∀ x, (ls.filterMap (standing param o val)).getLast? = some (.read x) → x = v

end

theorem label_tail (o : ConfigOption) : ∃ k, o.label = '-' :: k ∧ '-' ∉ k := by
  have hlabel : ∃ l, o.label = l ∧ l.head? = some '-' ∧ '-' ∉ l.tail := by
    cases o <;> exact ⟨_, toList_append_ofList, by decide⟩
  obtain ⟨l, rfl, hhead, htail⟩ := hlabel
  obtain ⟨k, hk⟩ := List.head?_eq_some_iff.mp hhead
  rw [hk] at htail
  exact ⟨k, hk, htail⟩

/-- Behind something other than white space, a format fails in front of a dash or leaves
    it in the text. -/
theorem scanLabel_dash (o : ConfigOption) {u : List Char} (hu : skipSpace u ≠ []) :
    (∀ a, scanLiteral o.label (skipSpace (u ++ '-' :: a)) = none) ∨
      ∃ y, ∀ a, scanLiteral o.label (skipSpace (u ++ '-' :: a)) = some (y ++ '-' :: a) := by
  obtain ⟨k, hk, hdash⟩ := label_tail o
  obtain ⟨c, x, hx⟩ := List.exists_cons_of_ne_nil hu
  have hstep (a : List Char) : scanLiteral o.label (skipSpace (u ++ '-' :: a)) =
      if c = '-' then scanLiteral k (x ++ '-' :: a) else none := by
    rw [skipSpace_append hu, hx, hk, List.cons_append, scanLiteral_char (by decide)]
  by_cases hc : c = '-'
  · simpa only [hstep, if_pos hc] using scanLiteral_dash hdash x
  · exact .inl fun a => by rw [hstep, if_neg hc]

/-- A value that the reader takes from a line is settled in front of a dash. -/
def Bounded {V : Type} (val : List Char → Option V) : Prop :=
  ∀ (u : List Char) (c : Char) (a b : List Char), skipSpace u ≠ [] → c.isDigit = false →
    val (u ++ '-' :: c :: a) = val (u ++ '-' :: c :: b)

theorem bounded_intIn (o : ConfigOption) : Bounded (intIn o) := by
  intro u c a b hu hc
  unfold intIn
  rcases scanLabel_dash o hu with h | ⟨y, h⟩
  · rw [h, h]
  · rw [h, h]
    exact scanInt_dash hc y a b

theorem bounded_wordIn (o : ConfigOption) {V : Type} {d : List Char → V} {v : V}
    (hd : ∀ w, '-' ∈ w → d w = v) : Bounded fun l => (wordIn o l).map d := by
  intro u c a b hu _
  simp only [wordIn, Option.map_map]
  rcases scanLabel_dash o hu with h | ⟨y, h⟩
  · rw [h, h]
  · rw [h, h]
    exact scanWord_dash hd y (c :: a) (c :: b)

theorem ofWord_of_dash (w : List Char) (h : '-' ∈ w) : DeviceRoadmap.ofWord w = .LOP := by
  unfold DeviceRoadmap.ofWord
  rw [if_neg, if_neg]
  · rintro rfl
    exact absurd h (by decide)
  · rintro rfl
    exact absurd h (by decide)

theorem isTrue_of_dash (w : List Char) (h : '-' ∈ w) : isTrue w = false := by
  unfold isTrue
  rw [decide_eq_false_iff_not]
  rintro rfl
  exact absurd h (by decide)

/-! ## Parameters of the sweep and the free substitutions -/

section
variable {V : Type} {param : List Char} {o : ConfigOption} {val : List Char → Option V}

theorem optionOf_blank_append {u : List Char} (hu : skipSpace u = []) (v : List Char) :
    optionOf (u ++ v) = optionOf v := by
  unfold optionOf
  rw [skipSpace_append_of_blank hu]

/-- What follows a dash and one of the letters has no say in what a line says. -/
theorem standing_congr (hparam : PlainName param) (hval : Bounded val) {c : Char}
    (hc : c = 'C' ∨ c = 'M') (ho : ¬ ['-', c] <+: o.key) (u a b : List Char) :
    standing param o val (u ++ '-' :: c :: a) = standing param o val (u ++ '-' :: c :: b) := by
  unfold standing
  rw [names_congr hparam hc hc (b := b)]
  congr 1
  by_cases hu : skipSpace u = []
  · rw [optionOf_blank_append hu, optionOf_blank_append hu, if_neg (ne_option_of_key ho a),
      if_neg (ne_option_of_key ho b)]
  · have hdigit : c.isDigit = false := by rcases hc with rfl | rfl <;> rfl
    rw [optionOf_congr hu (a := c :: a) (b := c :: b), hval u c a b hu hdigit]

/-- White space is no letter and no mark. -/
theorem not_isAlpha_of_isPySpace {c : Char} (h : isPySpace c = true) :
    c.isAlpha = false ∧ isMark c = false := by
  simp only [isPySpace, List.contains_eq_mem, List.mem_cons, List.not_mem_nil, or_false,
    Bool.or_eq_true, Bool.and_eq_true, decide_eq_true_eq] at h
  constructor
  · rw [← Bool.not_eq_true]
    intro halpha
    have hcode := toNat_of_isAlpha halpha
    omega
  · rw [← Bool.not_eq_true]
    intro hmark
    unfold isMark at hmark
    rcases Bool.or_eq_true_iff.mp hmark with hc | hc
    · obtain rfl := of_decide_eq_true hc
      revert h
      decide
    · obtain rfl := of_decide_eq_true hc
      revert h
      decide

theorem Lost.not_names {l : List Char} (h : Lost l)
    (halpha : param.head?.any Char.isAlpha = true) : names param l = false := by
  obtain ⟨c, t, rfl, hc⟩ : ∃ c t, param = c :: t ∧ c.isAlpha = true := by
    cases param with
    | nil => cases halpha
    | cons c t => exact ⟨c, t, rfl, by simpa using halpha⟩
  obtain ⟨ws, hws, hl⟩ := h
  rw [← Bool.not_eq_true, names_iff]
  intro hhead
  cases ws with
  | nil =>
      rcases hl with rfl | ⟨z, rfl⟩
      · cases (List.prefix_nil.mp hhead)
      · rw [List.nil_append, List.dropWhile_cons_of_neg (by decide), List.cons_append,
          List.cons_prefix_cons] at hhead
        rw [hhead.1] at hc
        cases hc
  | cons d ws =>
      obtain ⟨hletter, hmark⟩ := not_isAlpha_of_isPySpace (hws d List.mem_cons_self)
      have hfirst : ∃ t, l = d :: t := by
        rcases hl with rfl | ⟨z, rfl⟩
        · exact ⟨ws, rfl⟩
        · exact ⟨ws ++ '(' :: z, rfl⟩
      obtain ⟨t', rfl⟩ := hfirst
      rw [List.dropWhile_cons_of_neg (by rw [hmark]; exact Bool.false_ne_true), List.cons_append,
        List.cons_prefix_cons] at hhead
      rw [hhead.1, hletter] at hc
      cases hc

theorem blind_standing (hparam : PlainName param)
    (halpha : param.head?.any Char.isAlpha = true) (hval : Bounded val)
    (ho : ¬ ['-', 'C'] <+: o.key) : Blind (standing param o val) where
  congr u a b _ _ := standing_congr hparam hval (.inl rfl) ho u a b
  lost l hl := by
    unfold standing
    rw [hl.not_names halpha, if_neg Bool.false_ne_true, if_neg (hl.optionOf_ne o)]

end

/-! ## The value a field ends with -/

section
variable {V V' : Type} {f : ConfigReader → V'} {writers : List ConfigOption} {o : ConfigOption}
  {ls : List (List Char)} {val : List Char → Option V} {g : V → V'}

/-- A field ends with the last value that the reader takes from a line of its branch. -/
theorem foldl_of_last (hfield : WrittenBy f writers)
    (hothers : ∀ o' ∈ writers, o' ≠ o → taken o' ls = [])
    (hread : ∀ l ∈ taken o ls, ∀ s, f (o.read (skipSpace l) s) = ((val l).map g).getD (f s))
    (s : ConfigReader) : f (ls.foldl readSkipped s) =
      ((((taken o ls).filterMap val).getLast?).map g).getD (f s) := by
  -- on the lines from the last
  induction ls using List.reverseRecOn with
  | nil => rfl
  | append_singleton ls l ih =>
      have hearlier : ∀ o' ∈ writers, o' ≠ o → taken o' ls = [] := by
        intro o' ho' hne
        have hnone := hothers o' ho' hne
        rw [taken_append, List.append_eq_nil_iff] at hnone
        exact hnone.1
      have hread' : ∀ l ∈ taken o ls, ∀ s, f (o.read (skipSpace l) s) =
          ((val l).map g).getD (f s) := by
        intro l hl
        refine hread l ?_
        rw [taken_append]
        exact List.mem_append_left _ hl
      rw [List.foldl_append, List.foldl_cons, List.foldl_nil, taken_append]
      by_cases hl : optionOf l = some o
      · have hmem : l ∈ taken o (ls ++ [l]) :=
          mem_taken.mpr ⟨List.mem_append_right _ List.mem_cons_self, hl⟩
        rw [readSkipped_of_some hl, hread l hmem, taken_singleton hl, ih hearlier hread',
          List.filterMap_append]
        cases hval : val l with
        | none => simp [hval]
        | some x => simp [hval]
      · rw [taken_singleton_of_ne hl, List.append_nil, ← ih hearlier hread']
        refine readSkipped_of_not_written hfield (fun o' ho' hl' => ?_) _
        have hne : o' ≠ o := by
          rintro rfl
          exact hl hl'
        have hnone := hothers o' ho' hne
        rw [taken_append, taken_singleton hl', List.append_eq_nil_iff] at hnone
        cases hnone.2

end

/-- A field whose one branch ends with a line that has a value. -/
theorem foldl_of_getLast {V V' : Type} (f : ConfigReader → V') (val : List Char → Option V)
    (g : V → V') {o : ConfigOption} {ls : List (List Char)} (hfield : WrittenBy f [o])
    (hread : ∀ l x, val l = some x → ∀ s, f (o.read (skipSpace l) s) = g x) {x : V}
    (hlast : ((taken o ls).map val).getLast? = some (some x)) (s : ConfigReader) :
    f (ls.foldl readSkipped s) = g x := by
  induction ls using List.reverseRecOn with
  | nil => cases hlast
  | append_singleton ls l ih =>
      rw [List.foldl_append, List.foldl_cons, List.foldl_nil]
      rw [taken_append] at hlast
      by_cases hl : optionOf l = some o
      · rw [taken_singleton hl, List.map_append, List.map_singleton, List.getLast?_concat] at hlast
        rw [readSkipped_of_some hl]
        exact hread l x (Option.some.inj hlast) _
      · rw [taken_singleton_of_ne hl, List.append_nil] at hlast
        rw [readSkipped_of_not_written hfield fun o' ho' => ?_, ih hlast]
        rwa [List.mem_singleton.mp ho']

section
variable {V : Type} {param : List Char} {o : ConfigOption} {val : List Char → Option V}
  {ls : List (List Char)}

theorem standing_of_names {l : List Char} (h : names param l = true) :
    standing param o val l = some .replaced := if_pos h

theorem replaced_mem_standings :
    .replaced ∈ ls.filterMap (standing param o val) ↔ ls.any (names param) = true := by
  rw [List.mem_filterMap, List.any_eq_true]
  constructor
  · rintro ⟨l, hl, h⟩
    refine ⟨l, hl, ?_⟩
    unfold standing at h
    split at h
    · assumption
    · split at h
      · obtain ⟨x, -, hx⟩ := Option.map_eq_some_iff.mp h
        cases hx
      · cases h
  · rintro ⟨l, hl, h⟩
    exact ⟨l, hl, standing_of_names h⟩

section
variable (ho : paramOption param = some o) {value : List Char} {v : V}
  (hvalue : val (setting param value) = some v)
include ho hvalue

variable (val ls) in
/-- The values behind the replacement of a parameter. -/
theorem filterMap_setParam_own :
    (taken o (setParam param (setting param value) ls)).filterMap val =
      (ls.filterMap (standing param o val)).map (Standing.value v) := by
  induction ls with
  | nil => rfl
  | cons l ls ih =>
      have hcons : setParam param (setting param value) (l :: ls) =
          [if names param l then setting param value else l] ++
            setParam param (setting param value) ls := rfl
      rw [hcons, taken_append, List.filterMap_append, ih, List.filterMap_cons]
      by_cases hnames : names param l = true
      · rw [if_pos hnames, standing_of_names hnames, taken_singleton (by rw [optionOf_setting, ho])]
        simp [hvalue, Standing.value]
      · rw [if_neg hnames]
        unfold standing
        rw [if_neg hnames]
        by_cases hl : optionOf l = some o
        · rw [if_pos hl, taken_singleton hl]
          cases hval : val l with
          | none => simp [hval]
          | some x => simp [hval, Standing.value]
        · rw [if_neg hl, taken_singleton_of_ne hl]
          rfl

variable (val ls) in
/-- What an override leaves last: its value, exactly when it is settled, or that of the last
    line. -/
theorem getLast?_setLines : ∃ x,
    ((taken o (setLines ls (param, value))).filterMap val).getLast? = some x ∧
      (x = v ∨ (ls.filterMap (standing param o val)).getLast? = some (.read x)) ∧
      (x = v ↔ Settled param o val v ls) := by
  unfold setLines Settled
  rw [replaced_mem_standings]
  split
  · next hany =>
    rw [filterMap_setParam_own val ls ho hvalue, List.getLast?_map]
    have hmem : .replaced ∈ ls.filterMap (standing param o val) := replaced_mem_standings.mpr hany
    cases hlast : (ls.filterMap (standing param o val)).getLast? with
    | none =>
        rw [List.getLast?_eq_none_iff.mp hlast] at hmem
        cases hmem
    | some x =>
        cases x with
        | replaced => exact ⟨v, rfl, .inl rfl, fun _ _ y hy => (by cases hy), fun _ => rfl⟩
        | read x =>
            refine ⟨x, rfl, .inr rfl, fun h _ y hy => ?_, fun h => h hany x rfl⟩
            obtain rfl : x = y := by simpa using hy
            exact h
  · next hany =>
    refine ⟨v, ?_, .inl rfl, iff_of_true rfl fun h => absurd h hany⟩
    rw [taken_append, ← List.singleton_append, taken_append,
      taken_singleton (by rw [optionOf_setting, ho]), taken_blank, List.append_nil,
      List.filterMap_append]
    simp [hvalue]

end

/-! ## Other parameters -/

section
variable (hparam : PlainName param) {param' : List Char} (hparam' : PlainName param')
  (hne : param' ≠ param) (ho' : paramOption param' ≠ some o)
include hparam hparam' hne ho'

theorem standing_of_other {l : List Char} (h : names param' l = true) :
    standing param o val l = none := by
  unfold standing
  rw [if_neg fun hl => hne (names_unique hparam' hparam h hl),
    if_neg fun hl => ho' (optionOf_of_names hparam' h hl)]

theorem standing_setting_other (value : List Char) :
    standing param o val (setting param' value) = none :=
  standing_of_other hparam hparam' hne ho' (names_setting hparam' value)

omit hparam hparam' hne ho' in
theorem standing_nil (hparam : PlainName param) : standing param o val [] = none := by
  obtain ⟨c, t, rfl, -⟩ := hparam.start
  unfold standing
  rw [if_neg, if_neg (optionOf_nil o)]
  rw [names_iff]
  exact fun h => by cases List.prefix_nil.mp h

theorem filterMap_setParam_other {repl : List Char} (hrepl : standing param o val repl = none)
    (ls : List (List Char)) :
    (setParam param' repl ls).filterMap (standing param o val) =
      ls.filterMap (standing param o val) := by
  unfold setParam
  rw [List.filterMap_map]
  refine List.filterMap_congr fun l _ => ?_
  rw [Function.comp_apply]
  split
  · next h => rw [hrepl, standing_of_other hparam hparam' hne ho' h]
  · rfl

theorem filterMap_setLines_other (value : List Char) (ls : List (List Char)) :
    (setLines ls (param', value)).filterMap (standing param o val) =
      ls.filterMap (standing param o val) := by
  have hsetting : standing param o val (setting param' value) = none :=
    standing_setting_other hparam hparam' hne ho' value
  unfold setLines
  split
  · exact filterMap_setParam_other hparam hparam' hne ho' hsetting ls
  · rw [List.filterMap_append, List.filterMap_cons_none hsetting,
      List.filterMap_cons_none (standing_nil hparam), List.filterMap_nil, List.append_nil]

end

theorem filterMap_foldl_setLines (hparam : PlainName param) (ho : paramOption param = some o)
    {ss : List (List Char × List Char)} (hplain : ∀ s ∈ ss, PlainName s.1)
    (hother : ∀ s ∈ ss, paramOption s.1 ≠ some o) (ls : List (List Char)) :
    (ss.foldl setLines ls).filterMap (standing param o val) =
      ls.filterMap (standing param o val) := by
  induction ss generalizing ls with
  | nil => rfl
  | cons s ss ih =>
      obtain ⟨hs, hrest⟩ := List.forall_mem_cons.mp hplain
      obtain ⟨ho', hothers⟩ := List.forall_mem_cons.mp hother
      have hne : s.1 ≠ param := by
        intro h
        rw [h] at ho'
        exact ho' ho
      rw [List.foldl_cons, ih hrest hothers]
      exact filterMap_setLines_other hparam hs hne ho' s.2 ls

end

end Destiny.Sweep
