/-
  Destiny.Sweep.FirstLine

  The first line of a configuration, which decides whether the reader ends.

  * The free substitutions leave a line that starts alike and names the same parameters
    (`sameFirst_freeLines`).
  * Behind them the line is kept, set or erased (`starts_overriddenLines`), so that the
    text starts with a newline exactly when the line was empty or is erased
    (`head?_overridden`).
-/

import Destiny.Sweep.JobLines

namespace Destiny.Sweep

open Lib

/-! ## Lines that start alike -/

theorem head?_append_dash (u a b : List Char) :
    (u ++ '-' :: a).head? = (u ++ '-' :: b).head? := by
  cases u <;> rfl

/-- Lines that start with the same character and name the same parameters. -/
structure SameStart (l l' : List Char) : Prop where
  head : l'.head? = l.head?
  names : ∀ param, PlainName param → Sweep.names param l' = Sweep.names param l

theorem SameStart.refl (l : List Char) : SameStart l l := ⟨rfl, fun _ _ => rfl⟩

theorem SameStart.trans {l l' l'' : List Char} (h : SameStart l l') (h' : SameStart l' l'') :
    SameStart l l'' :=
  ⟨h'.head.trans h.head, fun param hparam => (h'.names param hparam).trans (h.names param hparam)⟩

theorem sameStart_dash {c : Char} (hc : c = 'C' ∨ c = 'M') (u a b : List Char) :
    SameStart (u ++ '-' :: c :: a) (u ++ '-' :: c :: b) :=
  ⟨head?_append_dash u (c :: b) (c :: a), fun _ hparam => names_congr hparam hc hc⟩

theorem sameStart_freeSub {p : LinePattern} {c : Char} (hp : FreePattern p c)
    {repl : List Char} (hrepl : ∃ b, repl = '-' :: c :: b) (l : List Char) :
    SameStart l (p.subLine repl true l) := by
  obtain ⟨b, rfl⟩ := hrepl
  rcases freeSub_cases hp ('-' :: c :: b) l with h | ⟨u, a, rfl, -, h⟩
  · rw [h]
    exact .refl l
  · rw [h]
    exact sameStart_dash hp.letter u a b

/-- The first lines of two texts. -/
def SameFirst (ls ms : List (List Char)) : Prop :=
  ∃ l ls' m ms', ls = l :: ls' ∧ ms = m :: ms' ∧ SameStart l m

theorem SameFirst.trans {ls ms ns : List (List Char)} (h : SameFirst ls ms)
    (h' : SameFirst ms ns) : SameFirst ls ns := by
  obtain ⟨l, ls', m, ms', rfl, rfl, hlm⟩ := h
  obtain ⟨m', ms', n, ns', hm, rfl, hmn⟩ := h'
  obtain ⟨rfl, rfl⟩ := List.cons.inj hm
  exact ⟨l, ls', n, ns', rfl, rfl, hlm.trans hmn⟩

theorem SameFirst.ne_nil {ls ms : List (List Char)} (h : SameFirst ls ms) : ms ≠ [] := by
  obtain ⟨l, ls, m, ms, rfl, rfl, -⟩ := h
  exact List.cons_ne_nil m ms

/-- A free substitution keeps what matters of the first line. -/
theorem sameFirst_freeMap {p : LinePattern} {c : Char} (hp : FreePattern p c)
    {repl : List Char} (hrepl : ∃ b, repl = '-' :: c :: b) {ls : List (List Char)}
    (hne : ls ≠ []) : SameFirst ls (freeMap p repl ls) := by
  obtain ⟨l, ls, rfl⟩ := List.exists_cons_of_ne_nil hne
  exact ⟨l, ls, _, _, rfl, rfl, sameStart_freeSub hp hrepl l⟩

theorem sameFirst_freeLines (cap path : List Char) {ls : List (List Char)} (hne : ls ≠ []) :
    SameFirst ls (freeLines cap path ls) := by
  have hMB := sameFirst_freeMap (freePattern_capacity "(MB)".toList) (capacitySetting_cons cap) hne
  have hKB := sameFirst_freeMap (freePattern_capacity "(KB)".toList) (capacitySetting_cons cap)
    hMB.ne_nil
  have hcell := sameFirst_freeMap freePattern_cellFile (cellSetting_cons path) hKB.ne_nil
  exact (hMB.trans hKB).trans hcell

theorem SameFirst.head?_ne {ls ms : List (List Char)} (h : SameFirst ls ms) {c : Char}
    (hc : ∀ l ∈ ls.head?, l.head? ≠ some c) : ∀ m ∈ ms.head?, m.head? ≠ some c := by
  obtain ⟨l, ls, m, ms, rfl, rfl, hsame⟩ := h
  intro m' hm'
  obtain rfl : m = m' := Option.some.inj hm'
  rw [hsame.head]
  exact hc l rfl

/-- The first line of a template is neither blank nor one that is erased. -/
def KeepsFirst (ls : List (List Char)) : Prop :=
  ∃ l ∈ ls.head?, l ≠ [] ∧ names "OptimizationTarget".toList l = false ∧
    names "EnablePruning".toList l = false

theorem SameFirst.keepsFirst_iff {ls ms : List (List Char)} (h : SameFirst ls ms) :
    KeepsFirst ms ↔ KeepsFirst ls := by
  obtain ⟨l, ls, m, ms, rfl, rfl, hsame⟩ := h
  have hne : m ≠ [] ↔ l ≠ [] := by
    refine not_congr ?_
    rw [← List.head?_eq_none_iff, ← List.head?_eq_none_iff, hsame.head]
  simp only [KeepsFirst, List.head?_cons, Option.mem_some_iff, exists_eq_left', hne,
    hsame.names _ plainName_target, hsame.names _ plainName_pruning]

/-! ## How a configuration starts -/

/-- The first character of the first line is of the kind. -/
def starts (f : Char → Bool) (ls : List (List Char)) : Bool :=
  ls.head?.any fun l => l.head?.any f

/-- Every character that is no white space is of the kind. -/
def Solid (f : Char → Bool) : Prop := ∀ c, isspace c = false → f c = true

section
variable {f : Char → Bool} {ls : List (List Char)}

theorem starts_append (hne : ls ≠ []) (ms : List (List Char)) :
    starts f (ls ++ ms) = starts f ls := by
  obtain ⟨l, ls, rfl⟩ := List.exists_cons_of_ne_nil hne
  rfl

theorem length_setLines (ls : List (List Char)) (s : List Char × List Char) :
    ls.length ≤ (setLines ls s).length := by
  unfold setLines setParam
  split
  · rw [List.length_map]
  · rw [List.length_append]
    omega

theorem length_foldl_setLines (ss : List (List Char × List Char)) (ls : List (List Char)) :
    ls.length ≤ (ss.foldl setLines ls).length := by
  induction ss generalizing ls with
  | nil => exact le_rfl
  | cons s ss ih => exact (length_setLines ls s).trans (ih _)

/-- The forced settings and the blank line behind them. -/
theorem two_lt_length_overriddenLines {P : Type} (scripts : Scripts P) (m : MemType)
    (p : JobPoint) (cell_path : List Char) (ls : List (List Char)) :
    2 < (overriddenLines scripts m p cell_path ls).length := by
  have hbase : 2 < (setParam "DeviceRoadmap".toList (setting "DeviceRoadmap".toList p.roadmap)
      (forcedLines ls)).length := by
    rw [setParam, List.length_map, forcedLines, List.length_append, List.length_append,
      List.length_cons, List.length_cons, List.length_nil, List.length_cons]
    omega
  have hfold := hbase.trans_le
    (length_foldl_setLines (settingsOf (p.overrides scripts m cell_path)) _)
  unfold overriddenLines
  rw [List.length_append]
  exact hfold.trans_le (Nat.le_add_right _ _)

theorem setParam_ne_nil {param repl : List Char} {ls : List (List Char)} (hne : ls ≠ []) :
    setParam param repl ls ≠ [] := by
  obtain ⟨l, ls, rfl⟩ := List.exists_cons_of_ne_nil hne
  exact List.cons_ne_nil _ _

/-- Erasing a parameter empties the first line when the line names it. -/
theorem starts_erase {param : List Char} (hne : ls ≠ []) :
    starts f (setParam param [] ls) = (starts f ls && !(names param (ls.head hne))) := by
  obtain ⟨l, ls, rfl⟩ := List.exists_cons_of_ne_nil hne
  show (if names param l then [] else l).head?.any f = (l.head?.any f && !names param l)
  cases names param l <;> simp

variable (hf : Solid f)
include hf

theorem starts_setting (param value : List Char) (ms : List (List Char)) :
    starts f (setting param value :: ms) = true := hf '-' (by decide)

/-- A line that names a parameter starts with no white space. -/
theorem head_of_names {param l : List Char} (hparam : PlainName param) (h : names param l = true) :
    l.head?.any f = true := by
  obtain ⟨r, hr⟩ := names_iff.mp h
  obtain ⟨c, t, hstart, -, hspace, -, -⟩ := hparam.start
  cases l with
  | nil =>
      rw [hstart] at hr
      cases hr
  | cons d l =>
      cases hd : isMark d with
      | true =>
          refine hf d ?_
          unfold isMark at hd
          rcases Bool.or_eq_true_iff.mp hd with h | h <;>
            (obtain rfl := of_decide_eq_true h; decide)
      | false =>
          rw [List.dropWhile_cons_of_neg (by simp [hd]), hstart] at hr
          obtain rfl : c = d := (List.cons.inj hr).1
          exact hf c hspace

theorem starts_setParam {param : List Char} (hparam : PlainName param) (value : List Char) :
    starts f (setParam param (setting param value) ls) = starts f ls := by
  cases ls with
  | nil => rfl
  | cons l ls =>
      show starts f ((if names param l then setting param value else l) :: _) = _
      split
      · next h =>
        rw [starts_setting hf]
        exact (head_of_names hf hparam h).symm
      · rfl

theorem starts_foldl_setLines {ss : List (List Char × List Char)}
    (hplain : ∀ s ∈ ss, PlainName s.1) (hne : 0 < ls.length) :
    starts f (ss.foldl setLines ls) = starts f ls := by
  induction ss generalizing ls with
  | nil => rfl
  | cons s ss ih =>
      obtain ⟨hs, hss⟩ := List.forall_mem_cons.mp hplain
      rw [List.foldl_cons, ih hss (hne.trans_le (length_setLines ls s))]
      unfold setLines
      split
      · exact starts_setParam hf hs s.2
      · exact starts_append (List.ne_nil_of_length_pos hne) _

/-- What the first line becomes. -/
theorem starts_overriddenLines {P : Type} (scripts : Scripts P) (m : MemType) (p : JobPoint)
    (cell_path : List Char) (hne : ls ≠ []) :
    starts f (overriddenLines scripts m p cell_path ls) =
      (starts f ls && !names "OptimizationTarget".toList (ls.head hne) &&
        !names "EnablePruning".toList (ls.head hne)) := by
  have herased (param : List Char) {ms : List (List Char)} (hms : ms ≠ []) :
      setParam param [] ms ≠ [] := setParam_ne_nil hms
  have hbase : setParam "DeviceRoadmap".toList (setting "DeviceRoadmap".toList p.roadmap)
      (forcedLines ls) ≠ [] := by
    refine setParam_ne_nil ?_
    unfold forcedLines
    rw [List.append_assoc]
    exact List.append_ne_nil_of_left_ne_nil (herased _ (herased _ hne)) _
  have hplain := plainName_settings scripts m p cell_path
  have hpos := List.length_pos_iff.mpr hbase
  unfold overriddenLines
  rw [starts_append (List.ne_nil_of_length_pos (hpos.trans_le (length_foldl_setLines _ _))),
    starts_foldl_setLines hf hplain hpos, starts_setParam hf plainName_roadmap]
  unfold forcedLines
  rw [List.append_assoc, starts_append (herased _ (herased _ hne)),
    starts_erase (herased _ hne), starts_erase hne]
  obtain ⟨l, ls, rfl⟩ := List.exists_cons_of_ne_nil hne
  rw [List.head_cons]
  show (_ && !names _ (if names _ l then [] else l)) = _
  cases names "OptimizationTarget".toList l with
  | true => simp
  | false => rw [if_neg Bool.false_ne_true]

/-- What the first line of a template becomes. -/
theorem starts_pointLines {P : Type} (scripts : Scripts P) (m : MemType) (p : JobPoint)
    (cell_path path : List Char) (hne : ls ≠ []) :
    starts f (pointLines scripts m p cell_path path ls) =
      (starts f ls && !names "OptimizationTarget".toList (ls.head hne) &&
        !names "EnablePruning".toList (ls.head hne)) := by
  obtain ⟨l, ls, l', ls', rfl, hfree, hsame⟩ :=
    sameFirst_freeLines (integer p.cap_kb) path hne
  have hstarts : starts f (l' :: ls') = starts f (l :: ls) := by
    show l'.head?.any f = l.head?.any f
    rw [hsame.head]
  rw [pointLines_eq, hfree,
    starts_overriddenLines hf scripts m p cell_path (List.cons_ne_nil l' ls'), hstarts,
    List.head_cons, List.head_cons, hsame.names _ plainName_target,
    hsame.names _ plainName_pruning]

end

/-- The first character of a text, from its lines. -/
theorem starts_splitOn {f : Char → Bool} (hf : f '\n' = false) (t : List Char) :
    starts f (t.splitOn '\n') = t.head?.any f := by
  cases t with
  | nil => rfl
  | cons c t =>
      by_cases hc : c = '\n'
      · subst hc
        rw [splitOn_newline]
        show false = f '\n'
        exact hf.symm
      · rw [splitOn_cons_of_ne hc]
        obtain ⟨l, ls, hsplit⟩ := List.exists_cons_of_ne_nil (List.splitOn_ne_nil '\n' t)
        rw [hsplit]
        rfl

/-- The reader ends on the configuration exactly when the template keeps its first line. -/
theorem head?_overridden {P : Type} (scripts : Scripts P) (m : MemType) (p : JobPoint)
    (cell_path : List Char) {text : List Char} {ls : List (List Char)} (hne : ls ≠ [])
    (hclean : ∀ l ∈ ls.head?, l.head? ≠ some '\n')
    (htext : text.splitOn '\n' = overriddenLines scripts m p cell_path ls) :
    text.head? ≠ some '\n' ↔ KeepsFirst ls := by
  have hsolid : Solid fun c => c ≠ '\n' := by
    intro c hc
    rw [decide_eq_true_eq]
    rintro rfl
    cases hc
  have htextne : text ≠ [] := by
    rintro rfl
    have hlength := two_lt_length_overriddenLines scripts m p cell_path ls
    rw [← htext, List.splitOn_nil, List.length_singleton] at hlength
    omega
  have hhead : text.head? ≠ some '\n' ↔ starts (fun c => c ≠ '\n') (text.splitOn '\n') = true := by
    rw [starts_splitOn (by decide)]
    obtain ⟨c, t, rfl⟩ := List.exists_cons_of_ne_nil htextne
    simp
  obtain ⟨l, ls, rfl⟩ := List.exists_cons_of_ne_nil hne
  have hfirst : starts (fun c => c ≠ '\n') (l :: ls) = true ↔ l ≠ [] := by
    have hl := hclean l rfl
    cases l with
    | nil => simp [starts]
    | cons c l => simpa [starts] using hl
  rw [hhead, htext, starts_overriddenLines hsolid scripts m p cell_path hne]
  simp only [KeepsFirst, List.head_cons, List.head?_cons, Option.mem_some_iff, exists_eq_left',
    Bool.and_eq_true, Bool.not_eq_true', and_assoc, hfirst]

end Destiny.Sweep
