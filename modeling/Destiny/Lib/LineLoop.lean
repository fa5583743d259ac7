/-
  Destiny.Lib.LineLoop

  The loop `while (fscanf(fp, "%[^\n]\n", line) != EOF)` over a file, the list of
  its characters.

  `lineLoop` runs it for a number of rounds: the scanset takes the characters up
  to the next newline and the newline of the format the white space after them.
  A scanset that matches nothing leaves the file and the buffer as they were, so
  the loop never ends on a file whose first character is a newline
  (`lineLoop_newline`); on any other it runs its body on `fetchedLines`
  (`lineLoop_ends`), which are the lines with something other than white space,
  once each and in order (`tidy_fetchedLines`).
-/

import Destiny.Lib.Scan
import Mathlib.Data.List.TakeWhile

namespace Destiny.Lib

variable {S : Type*} {body : List Char → S → S}

/-! ## The loop -/

/-- What `fscanf(fp, "%[^\n]\n", line)` does: it reports the end of the file,
    matches no character, or stores a line and leaves the rest of the file. -/
inductive Fetch where
  | eof
  | mismatch
  | line (l rest : List Char)
  deriving DecidableEq

def fetchLine : List Char → Fetch
  | [] => .eof
  | c :: t =>
    if c = '\n' then .mismatch
    else
      .line ((c :: t).takeWhile fun d => d ≠ '\n')
        (skipSpace ((c :: t).dropWhile fun d => d ≠ '\n'))

/-- The loop, with the rounds it may take, the file and the buffer; none when the
    rounds are used up. -/
def lineLoop (body : List Char → S → S) : Nat → List Char → List Char → S → Option S
  | 0, _, _, _ => none
  | n + 1, file, line, s =>
    match fetchLine file with
    | .eof => some s
    | .mismatch => lineLoop body n file line (body line s)
    | .line l rest => lineLoop body n rest l (body l s)

/-- The body together with a log of the lines it has run on. -/
def logged (body : List Char → S → S) (l : List Char) (s : S × List (List Char)) :
    S × List (List Char) :=
  (body l s.1, s.2 ++ [l])

/-! ## The lines of a file -/

def notBlank (l : List Char) : Bool := l.any fun c => !isspace c

/-- The lines with something other than white space, from there on. -/
def tidy (ls : List (List Char)) : List (List Char) := (ls.filter notBlank).map skipSpace

/-- The lines the loop runs its body on, when it ends: the first as it is, then the
    others without the white space they start with. -/
def fetchedLines (file : List Char) : List (List Char) :=
  match file.splitOn '\n' with
  | [] => []
  | [] :: ls => tidy ls
  | l :: ls => l :: tidy ls

theorem skipSpace_cons_of_space {c : Char} (hc : isspace c = true) (t : List Char) :
    skipSpace (c :: t) = skipSpace t := by
  simp [skipSpace, hc]

theorem skipSpace_cons_of_not {c : Char} (hc : isspace c = false) (t : List Char) :
    skipSpace (c :: t) = c :: t := by
  simp [skipSpace, hc]

/-- Nothing is left, or a character that is no white space comes first. -/
theorem skipSpace_cases (t : List Char) :
    skipSpace t = [] ∨ ∃ c u, skipSpace t = c :: u ∧ isspace c = false := by
  induction t with
  | nil => exact .inl rfl
  | cons c t ih =>
      cases hc : isspace c with
      | true =>
          rw [skipSpace_cons_of_space hc]
          exact ih
      | false => exact .inr ⟨c, t, skipSpace_cons_of_not hc t, hc⟩

theorem length_skipSpace_le (t : List Char) : (skipSpace t).length ≤ t.length :=
  (List.dropWhile_sublist _).length_le

theorem splitOn_newline (t : List Char) :
    ('\n' :: t).splitOn '\n' = [] :: t.splitOn '\n' := by
  simp [List.splitOn_cons_eq_if_modifyHead]

theorem splitOn_cons_of_ne {c : Char} (hc : c ≠ '\n') (t : List Char) :
    (c :: t).splitOn '\n' = (t.splitOn '\n').modifyHead (c :: ·) := by
  simp [List.splitOn_cons_eq_if_modifyHead, hc]

theorem splitOn_append_of_not_mem {q : List Char} (hq : '\n' ∉ q) (t : List Char) :
    (q ++ t).splitOn '\n' = (t.splitOn '\n').modifyHead (q ++ ·) := by
  induction q with
  | nil =>
      rw [List.nil_append]
      cases t.splitOn '\n' <;> rfl
  | cons c q ih =>
      rw [List.mem_cons, not_or] at hq
      rw [List.cons_append, splitOn_cons_of_ne (Ne.symm hq.1), ih hq.2]
      cases t.splitOn '\n' with
      | nil => rfl
      | cons l ls => rfl

/-- The first line of a text that starts within the line. -/
theorem splitOn_head {c : Char} (hc : c ≠ '\n') (t : List Char) :
    ∃ l ls, (c :: t).splitOn '\n' = (c :: l) :: ls ∧ l <+: t := by
  have hprefix (t : List Char) : ∃ l ls, t.splitOn '\n' = l :: ls ∧ l <+: t := by
    induction t with
    | nil => exact ⟨[], [], rfl, List.prefix_rfl⟩
    | cons d t ih =>
        by_cases hd : d = '\n'
        · subst hd
          exact ⟨[], _, splitOn_newline t, List.nil_prefix⟩
        · obtain ⟨l, ls, hsplit, hl⟩ := ih
          refine ⟨d :: l, ls, ?_, List.cons_prefix_cons.mpr ⟨rfl, hl⟩⟩
          rw [splitOn_cons_of_ne hd, hsplit, List.modifyHead_cons]
  obtain ⟨l, ls, hsplit, hl⟩ := hprefix t
  exact ⟨l, ls, by rw [splitOn_cons_of_ne hc, hsplit, List.modifyHead_cons], hl⟩

/-- White space in front of a text, newlines included, adds no line to the tidy ones. -/
theorem tidy_splitOn_skipSpace (t : List Char) :
    tidy ((skipSpace t).splitOn '\n') = tidy (t.splitOn '\n') := by
  induction t with
  | nil => rfl
  | cons c t ih =>
      cases hc : isspace c with
      | false => rw [skipSpace_cons_of_not hc]
      | true =>
          rw [skipSpace_cons_of_space hc, ih]
          by_cases hn : c = '\n'
          · subst hn
            rw [splitOn_newline]
            rfl
          · -- the white space goes to the front of the first line
            rw [splitOn_cons_of_ne hn]
            cases t.splitOn '\n' with
            | nil => rfl
            | cons l ls =>
                have hblank : notBlank (c :: l) = notBlank l := by simp [notBlank, hc]
                unfold tidy
                rw [List.modifyHead_cons, List.filter_cons, List.filter_cons, hblank]
                split
                · simp [skipSpace_cons_of_space hc]
                · rfl

/-- When the first character is no white space, the first line is tidy already. -/
theorem fetchedLines_eq_tidy {t : List Char}
    (ht : t = [] ∨ ∃ c u, t = c :: u ∧ isspace c = false) :
    fetchedLines t = tidy (t.splitOn '\n') := by
  rcases ht with rfl | ⟨c, u, rfl, hc⟩
  · rfl
  · have hn : c ≠ '\n' := by
      rintro rfl
      exact absurd hc (by decide)
    unfold fetchedLines
    rw [splitOn_cons_of_ne hn]
    cases hsplit : u.splitOn '\n' with
    | nil => rfl
    | cons l ls =>
        have hblank : notBlank (c :: l) = true := by simp [notBlank, hc]
        simp [tidy, hblank, skipSpace_cons_of_not hc]

/-- A line without newline, alone or followed by one, is fetched first. -/
theorem fetchedLines_append {c : Char} {l r : List Char} (hl : '\n' ∉ c :: l)
    (hr : r = [] ∨ ∃ u, r = '\n' :: u) :
    fetchedLines (c :: l ++ r) = (c :: l) :: fetchedLines (skipSpace r) := by
  rw [fetchedLines_eq_tidy (skipSpace_cases r), tidy_splitOn_skipSpace]
  unfold fetchedLines
  rcases hr with rfl | ⟨u, rfl⟩
  · rw [List.append_nil, List.splitOn_eq_singleton hl]
    rfl
  · rw [List.splitOn_append_cons_self_of_not_mem hl, splitOn_newline]
    rfl

/-- A round on a file that is not used up and does not start with a newline. -/
theorem fetchLine_eq_line {file : List Char} (hne : file ≠ [])
    (hfile : file.head? ≠ some '\n') :
    ∃ l rest, fetchLine file = .line l rest ∧ fetchedLines file = l :: fetchedLines rest ∧
      rest.length < file.length ∧ rest.head? ≠ some '\n' := by
  obtain ⟨c, t, rfl⟩ := List.exists_cons_of_ne_nil hne
  have hc : c ≠ '\n' := by simpa using hfile
  have htake : (c :: t).takeWhile (fun d => d ≠ '\n') = c :: t.takeWhile fun d => d ≠ '\n' :=
    List.takeWhile_cons_of_pos (by simpa using hc)
  have hdrop : (c :: t).dropWhile (fun d => d ≠ '\n') = t.dropWhile fun d => d ≠ '\n' :=
    List.dropWhile_cons_of_pos (by simpa using hc)
  have hclean : '\n' ∉ c :: t.takeWhile fun d => d ≠ '\n' := by
    rw [← htake]
    intro hmem
    simpa using List.mem_takeWhile_imp hmem
  -- what is left starts at a newline
  have hrest : (t.dropWhile fun d => d ≠ '\n') = [] ∨
      ∃ u, (t.dropWhile fun d => d ≠ '\n') = '\n' :: u := by
    have hhead := List.head?_dropWhile_not (fun d => decide (d ≠ '\n')) t
    cases h : t.dropWhile fun d => d ≠ '\n' with
    | nil => exact .inl rfl
    | cons d u =>
        rw [h] at hhead
        obtain rfl : d = '\n' := by simpa using hhead
        exact .inr ⟨u, rfl⟩
  refine ⟨_, _, if_neg hc, ?_, ?_, ?_⟩
  · rw [htake, hdrop, ← fetchedLines_append hclean hrest, List.cons_append,
      List.takeWhile_append_dropWhile]
  · rw [hdrop]
    exact Nat.lt_succ_of_le ((length_skipSpace_le _).trans (List.dropWhile_sublist _).length_le)
  · intro hcon
    rcases skipSpace_cases ((c :: t).dropWhile fun d => d ≠ '\n') with h | ⟨d, u, h, hd⟩
    · rw [h] at hcon
      cases hcon
    · rw [h] at hcon
      obtain rfl : d = '\n' := by simpa using hcon
      exact absurd hd (by decide)

/-- A text of lines that each hold a newline at their end only, and no white space
    at their start, is fetched line by line. -/
theorem fetchedLines_unlines {ls : List (List Char)}
    (hls : ∀ l ∈ ls, '\n' ∉ l ∧ ∃ c t, l = c :: t ∧ isspace c = false) :
    fetchedLines (ls.flatMap fun l => l ++ ['\n']) = ls := by
  induction ls with
  | nil => rfl
  | cons l ls ih =>
      obtain ⟨⟨hnl, c, t, rfl, -⟩, hrest⟩ := List.forall_mem_cons.mp hls
      have hskip : skipSpace ('\n' :: ls.flatMap fun l => l ++ ['\n']) =
          ls.flatMap fun l => l ++ ['\n'] := by
        rw [skipSpace_cons_of_space (by decide)]
        cases ls with
        | nil => rfl
        | cons l' ls =>
            obtain ⟨-, d, u, rfl, hd⟩ := hrest l' List.mem_cons_self
            exact skipSpace_cons_of_not hd _
      have hsplit : ((c :: t) :: ls).flatMap (fun l => l ++ ['\n']) =
          c :: t ++ ('\n' :: ls.flatMap fun l => l ++ ['\n']) := by simp
      rw [hsplit, fetchedLines_append hnl (.inr ⟨_, rfl⟩), hskip, ih hrest]

/-! ## When the loop ends -/

/-- On a file that starts with a newline the loop makes no progress. -/
theorem lineLoop_newline (n : Nat) (t line : List Char) (s : S) :
    lineLoop body n ('\n' :: t) line s = none := by
  induction n generalizing s with
  | zero => rfl
  | succ n ih =>
      show lineLoop body n ('\n' :: t) line (body line s) = none
      exact ih _

/-- On any other file the loop ends and has run its body on the fetched lines. -/
theorem lineLoop_ends (body : List Char → S → S) {file : List Char}
    (hfile : file.head? ≠ some '\n') (line : List Char) (s : S) :
    ∃ n, lineLoop body n file line s =
      some ((fetchedLines file).foldl (fun s l => body l s) s) := by
  -- the file shrinks in every round
  induction hlen : file.length using Nat.strong_induction_on generalizing file line s with
  | _ k ih =>
    by_cases hne : file = []
    · subst hne
      exact ⟨1, rfl⟩
    · obtain ⟨l, rest, hfetch, hlines, hlt, hhead⟩ := fetchLine_eq_line hne hfile
      obtain ⟨n, hn⟩ := ih _ (hlen ▸ hlt) hhead l (body l s) rfl
      refine ⟨n + 1, ?_⟩
      rw [hlines, List.foldl_cons, ← hn]
      simp only [lineLoop, hfetch]

/-- What the body keeps, the loop keeps. -/
theorem lineLoop_invariant {P : S → Prop} (hbody : ∀ l s, P s → P (body l s)) {n : Nat}
    {file line : List Char} {s s' : S} (hs : P s) (h : lineLoop body n file line s = some s') :
    P s' := by
  induction n generalizing file line s with
  | zero => cases h
  | succ n ih =>
      unfold lineLoop at h
      split at h
      · exact Option.some.inj h ▸ hs
      · exact ih (hbody _ _ hs) h
      · exact ih (hbody _ _ hs) h

/-- More rounds than needed change nothing. -/
theorem lineLoop_add {n : Nat} {file line : List Char} {s s' : S}
    (h : lineLoop body n file line s = some s') (k : Nat) :
    lineLoop body (n + k) file line s = some s' := by
  induction n generalizing file line s with
  | zero => cases h
  | succ n ih =>
      rw [Nat.add_right_comm]
      unfold lineLoop at h ⊢
      split at h
      · exact h
      · exact ih h
      · exact ih h

theorem lineLoop_unique {n m : Nat} {file line : List Char} {s a b : S}
    (ha : lineLoop body n file line s = some a) (hb : lineLoop body m file line s = some b) :
    a = b := by
  have h := lineLoop_add hb n
  rw [Nat.add_comm, lineLoop_add ha m] at h
  exact Option.some.inj h

/-- The loop ends on a file exactly when it does not start with a newline. -/
theorem lineLoop_ends_iff {file line : List Char} {s : S} :
    (∃ n s', lineLoop body n file line s = some s') ↔ file.head? ≠ some '\n' := by
  constructor
  · rintro ⟨n, s', h⟩ hhead
    obtain ⟨t, rfl⟩ := List.head?_eq_some_iff.mp hhead
    rw [lineLoop_newline] at h
    cases h
  · intro hfile
    obtain ⟨n, hn⟩ := lineLoop_ends body hfile line s
    exact ⟨n, _, hn⟩

/-! ## Which lines are processed -/

theorem foldl_logged (ls : List (List Char)) (s : S) (log : List (List Char)) :
    ls.foldl (fun s l => logged body l s) (s, log) =
      (ls.foldl (fun s l => body l s) s, log ++ ls) := by
  induction ls generalizing s log with
  | nil => simp
  | cons l ls ih =>
      rw [List.foldl_cons, List.foldl_cons]
      show ls.foldl (fun s l => logged body l s) (body l s, log ++ [l]) = _
      rw [ih, List.append_assoc]
      rfl

theorem skipSpace_skipSpace (t : List Char) : skipSpace (skipSpace t) = skipSpace t := by
  rcases skipSpace_cases t with h | ⟨c, u, h, hc⟩
  · rw [h]
    rfl
  · rw [h, skipSpace_cons_of_not hc]

theorem notBlank_skipSpace (t : List Char) : notBlank (skipSpace t) = notBlank t := by
  induction t with
  | nil => rfl
  | cons c t ih =>
      cases hc : isspace c with
      | true => rw [skipSpace_cons_of_space hc, ih]; simp [notBlank, hc]
      | false => rw [skipSpace_cons_of_not hc]

theorem tidy_tidy (ls : List (List Char)) : tidy (tidy ls) = tidy ls := by
  unfold tidy
  rw [List.filter_map, List.map_map, List.filter_filter]
  simp only [Function.comp_def, notBlank_skipSpace, Bool.and_self, skipSpace_skipSpace]

/-- The fetched lines are the lines of the file that hold something other than
    white space, once each and in order. -/
theorem tidy_fetchedLines (file : List Char) :
    tidy (fetchedLines file) = tidy (file.splitOn '\n') := by
  unfold fetchedLines
  cases file.splitOn '\n' with
  | nil => rfl
  | cons l ls =>
      cases l with
      | nil => exact tidy_tidy ls
      | cons c l =>
          have hcons : ∀ l : List Char, ∀ ls, tidy (l :: ls) = tidy [l] ++ tidy ls := by
            intro l ls
            unfold tidy
            rw [← List.map_append, ← List.filter_append, List.singleton_append]
          show tidy ((c :: l) :: tidy ls) = tidy ((c :: l) :: ls)
          rw [hcons, hcons _ ls, tidy_tidy]

end Destiny.Lib
