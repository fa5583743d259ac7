/-
  Destiny.Lib.Format

  What `sscanf` reads back from a text that was printed with the same format.

  A format piece ends with white space or not.  One that does, and has no two
  white spaces in a row, matches itself and skips the white space that follows
  (`scanLiteral_append_space`); one without white space matches itself
  (`scanLiteral_append`).  A printed integer followed by no digit is read back
  (`scanInt_integer`), a word as well (`scanWord_word`).
-/

import Destiny.Lib.LineLoop
import Destiny.Lib.Numerals
import Destiny.Lib.Ostream

namespace Destiny.Lib

/-! ## Literal text -/

/-- No two white spaces in a row. -/
def singleSpaced (fs : List Char) : Bool :=
  match fs with
  | f :: g :: fs => !(isspace f && isspace g) && singleSpaced (g :: fs)
  | _ => true

theorem scanLiteral_append_space {fs : List Char} (hsingle : singleSpaced fs = true)
    (hlast : fs.getLast? = some ' ') (r : List Char) :
    scanLiteral fs (fs ++ r) = some (skipSpace r) := by
  induction fs with
  | nil => cases hlast
  | cons f fs ih =>
      cases fs with
      | nil =>
          obtain rfl : f = ' ' := by simpa using hlast
          rfl
      | cons g fs =>
          rw [singleSpaced, Bool.and_eq_true] at hsingle
          have hrest := ih hsingle.2 (by simpa using hlast)
          cases hf : isspace f with
          | false => simpa [scanLiteral, hf] using hrest
          | true =>
              -- the white space ends in front of `g`
              have hg : isspace g = false := by simpa [hf] using hsingle.1
              rw [List.cons_append, scanLiteral, if_pos hf, List.cons_append]
              have hskip : skipSpace (f :: g :: (fs ++ r)) = g :: (fs ++ r) := by
                simp [skipSpace, hf, hg]
              rw [hskip]
              exact hrest

/-! ## Integers -/

theorem isspace_of_isDigit {c : Char} (h : c.isDigit = true) : isspace c = false := by
  obtain ⟨hlow, hhigh⟩ := Bool.and_eq_true_iff.mp h
  have hlow' : 48 ≤ c.toNat := UInt32.le_iff_toNat_le.mp (of_decide_eq_true hlow)
  have hhigh' : c.toNat ≤ 57 := UInt32.le_iff_toNat_le.mp (of_decide_eq_true hhigh)
  simp only [isspace, Bool.or_eq_false_iff, Bool.and_eq_false_iff, beq_eq_false_iff_ne,
    decide_eq_false_iff_not]
  omega

/-- Skipping white space in front of something else does nothing. -/
theorem skipSpace_of_head {t : List Char} (h : ∀ c ∈ t.head?, isspace c = false) :
    skipSpace t = t := by
  cases t with
  | nil => rfl
  | cons c t => simp [skipSpace, h c rfl]

theorem span_digits {ds rest : List Char} (hds : ∀ c ∈ ds, c.isDigit = true)
    (h : ∀ c ∈ rest.head?, c.isDigit = false) :
    (ds ++ rest).takeWhile Char.isDigit = ds ∧ (ds ++ rest).dropWhile Char.isDigit = rest := by
  rw [List.takeWhile_append_of_pos hds, List.dropWhile_append_of_pos hds]
  cases rest with
  | nil => simp
  | cons c rest => simp [h c rfl]

/-- Digits are scanned as the number they denote. -/
theorem scanInt_digits {ds rest : List Char} (hne : ds ≠ []) (hds : ∀ c ∈ ds, c.isDigit = true)
    (h : ∀ c ∈ rest.head?, c.isDigit = false) :
    scanInt (ds ++ rest) = some ((decimalValue ds : ℤ), rest) ∧
      scanInt ('-' :: (ds ++ rest)) = some (-(decimalValue ds : ℤ), rest) := by
  obtain ⟨htake, hdrop⟩ := span_digits hds h
  obtain ⟨c, ds, rfl⟩ := List.exists_cons_of_ne_nil hne
  have hc := hds c List.mem_cons_self
  have hskip : skipSpace (c :: ds ++ rest) = c :: ds ++ rest :=
    skipSpace_of_head fun d hd => by
      obtain rfl : c = d := Option.some.inj hd
      exact isspace_of_isDigit hc
  -- a digit is no sign
  have hsign : scanSign (c :: ds ++ rest) = (false, c :: ds ++ rest) := by
    rw [List.cons_append]
    unfold scanSign
    split
    · next heq =>
      obtain ⟨rfl, -⟩ := List.cons.inj heq
      exact absurd hc (by decide)
    · next heq =>
      obtain ⟨rfl, -⟩ := List.cons.inj heq
      exact absurd hc (by decide)
    · rfl
  have hminus : skipSpace ('-' :: (c :: ds ++ rest)) = '-' :: (c :: ds ++ rest) :=
    skipSpace_of_head fun d hd => by
      obtain rfl : '-' = d := Option.some.inj hd
      decide
  constructor
  · unfold scanInt
    rw [hskip, hsign]
    simp only [htake, hdrop, reduceCtorEq, if_false]
  · unfold scanInt
    rw [hminus]
    simp only [scanSign, htake, hdrop, reduceCtorEq, if_false, if_true]

/-- A printed integer is read back when no digit follows. -/
theorem scanInt_integer (n : ℤ) {rest : List Char} (h : ∀ c ∈ rest.head?, c.isDigit = false) :
    scanInt (integer n ++ rest) = some (n, rest) := by
  have hdigits : ∀ c ∈ Nat.toDigits 10 n.natAbs, c.isDigit = true := fun _ hc =>
    Nat.isDigit_of_mem_toDigits (by decide) (by decide) hc
  obtain ⟨hpos, hneg⟩ := scanInt_digits Nat.toDigits_ne_nil hdigits h
  rw [decimalValue_toDigits] at hpos hneg
  unfold integer
  split
  · next hn =>
    rw [List.cons_append, hneg]
    congr 2
    omega
  · next hn =>
    rw [hpos]
    congr 2
    omega

/-- The codes of the letters. -/
theorem toNat_of_isAlpha {c : Char} (h : c.isAlpha = true) :
    65 ≤ c.toNat ∧ c.toNat ≤ 90 ∨ 97 ≤ c.toNat ∧ c.toNat ≤ 122 := by
  rcases Bool.or_eq_true_iff.mp h with hupper | hlower
  · obtain ⟨hlow, hhigh⟩ := of_decide_eq_true hupper
    exact .inl ⟨UInt32.le_iff_toNat_le.mp hlow, UInt32.le_iff_toNat_le.mp hhigh⟩
  · obtain ⟨hlow, hhigh⟩ := Bool.and_eq_true_iff.mp hlower
    exact .inr ⟨UInt32.le_iff_toNat_le.mp (of_decide_eq_true hlow),
      UInt32.le_iff_toNat_le.mp (of_decide_eq_true hhigh)⟩

/-- A letter starts no number. -/
theorem scanInt_of_isAlpha {c : Char} (h : c.isAlpha = true) (t : List Char) :
    scanInt (c :: t) = none := by
  have hcode := toNat_of_isAlpha h
  have hspace : isspace c = false := by
    simp only [isspace, Bool.or_eq_false_iff, Bool.and_eq_false_iff, beq_eq_false_iff_ne,
      decide_eq_false_iff_not]
    omega
  have hdigit : c.isDigit = false := by
    refine Bool.eq_false_iff.mpr fun hd => ?_
    have hhigh : c.toNat ≤ 57 :=
      UInt32.le_iff_toNat_le.mp (of_decide_eq_true (Bool.and_eq_true_iff.mp hd).2)
    omega
  have hsign : scanSign (c :: t) = (false, c :: t) := by
    unfold scanSign
    split
    · next heq =>
      obtain ⟨rfl, -⟩ := List.cons.inj heq
      exact absurd h (by decide)
    · next heq =>
      obtain ⟨rfl, -⟩ := List.cons.inj heq
      exact absurd h (by decide)
    · rfl
  unfold scanInt
  rw [skipSpace_of_head fun d hd => by
    obtain rfl : c = d := Option.some.inj hd
    exact hspace, hsign]
  simp [hdigit]

/-- The first character of a printed integer is no white space. -/
theorem skipSpace_integer (n : ℤ) (rest : List Char) :
    skipSpace (integer n ++ rest) = integer n ++ rest := by
  refine skipSpace_of_head fun c hc => ?_
  have hne : integer n ≠ [] := by
    unfold integer
    split
    · exact List.cons_ne_nil _ _
    · exact Nat.toDigits_ne_nil
  obtain ⟨d, ds, hd⟩ := List.exists_cons_of_ne_nil hne
  rw [hd] at hc
  obtain rfl : d = c := Option.some.inj hc
  have hnumeral := isNumeral_of_mem_integer (z := n) (c := d) (by rw [hd]; exact List.mem_cons_self)
  rcases Bool.or_eq_true_iff.mp hnumeral with hdigit | hminus
  · exact isspace_of_isDigit hdigit
  · rw [of_decide_eq_true hminus]
    decide

/-- A piece of a format in front of a printed integer. -/
def beforeInteger (lit : List Char) : Bool :=
  (singleSpaced lit && lit.getLast? == some ' ') || lit.all fun f => !isspace f

theorem scanLiteral_integer {lit : List Char} (hlit : beforeInteger lit = true) (n : ℤ)
    (rest : List Char) :
    scanLiteral lit (lit ++ (integer n ++ rest)) = some (integer n ++ rest) := by
  rcases Bool.or_eq_true_iff.mp hlit with h | h
  · obtain ⟨hsingle, hlast⟩ := Bool.and_eq_true_iff.mp h
    rw [scanLiteral_append_space hsingle (by simpa using hlast), skipSpace_integer]
  · exact scanLiteral_append (by simpa using h)

/-- The integers of a format are read back one after the other. -/
theorem scanInts_integer {lit : List Char} (hlit : beforeInteger lit = true)
    (lits : List (List Char)) (n : ℤ) {rest : List Char}
    (h : ∀ c ∈ rest.head?, c.isDigit = false) :
    scanInts (lit :: lits) (lit ++ (integer n ++ rest)) = n :: scanInts lits rest := by
  rw [scanInts, scanLiteral_integer hlit, Option.bind_some, scanInt_integer n h]

/-! ## Words -/

/-- A word is read back. -/
theorem scanWord_word {w : List Char} (hne : w ≠ []) (hw : ∀ c ∈ w, isspace c = false) :
    scanWord w = some (w, []) := by
  have hskip : skipSpace w = w := skipSpace_of_head fun c hc => hw c (List.mem_of_mem_head? hc)
  have hall : ∀ c ∈ w, (!isspace c) = true := fun c hc => by rw [hw c hc]; rfl
  unfold scanWord
  rw [hskip, List.takeWhile_eq_self_iff.mpr hall, List.dropWhile_eq_nil_iff.mpr hall]
  simp [hne]

/-! ## Scanning up to a dash -/

theorem skipSpace_append_dash (x a : List Char) :
    skipSpace (x ++ '-' :: a) = skipSpace x ++ '-' :: a := by
  unfold skipSpace
  rw [List.dropWhile_append]
  split
  · next h =>
    rw [List.isEmpty_iff.mp h]
    rfl
  · rfl

theorem scanLiteral_space {f : Char} (hf : isspace f = true) (fs t : List Char) :
    scanLiteral (f :: fs) t = scanLiteral fs (skipSpace t) := by
  simp [scanLiteral, hf]

theorem scanLiteral_char {f : Char} (hf : isspace f = false) (fs : List Char) (c : Char)
    (t : List Char) :
    scanLiteral (f :: fs) (c :: t) = if c = f then scanLiteral fs t else none := by
  simp [scanLiteral, hf]

/-- A format without a dash fails in front of one, or leaves it in the text. -/
theorem scanLiteral_dash {fs : List Char} (hfs : '-' ∉ fs) (x : List Char) :
    (∀ a, scanLiteral fs (x ++ '-' :: a) = none) ∨
      ∃ y, ∀ a, scanLiteral fs (x ++ '-' :: a) = some (y ++ '-' :: a) := by
  induction fs generalizing x with
  | nil => exact .inr ⟨x, fun a => rfl⟩
  | cons f fs ih =>
      rw [List.mem_cons, not_or] at hfs
      cases hf : isspace f with
      | true =>
          have ih := ih hfs.2 (skipSpace x)
          simpa only [scanLiteral_space hf, skipSpace_append_dash] using ih
      | false =>
          cases x with
          | nil =>
              refine .inl fun a => ?_
              rw [List.nil_append, scanLiteral_char hf, if_neg hfs.1]
          | cons c x =>
              have ih := ih hfs.2 x
              by_cases hc : c = f
              · simpa only [List.cons_append, scanLiteral_char hf, if_pos hc] using ih
              · refine .inl fun a => ?_
                rw [List.cons_append, scanLiteral_char hf, if_neg hc]

theorem takeWhile_isDigit_dash (z a : List Char) :
    (z ++ '-' :: a).takeWhile Char.isDigit = z.takeWhile Char.isDigit := by
  induction z with
  | nil => rfl
  | cons d z ih => rw [List.cons_append, List.takeWhile_cons, List.takeWhile_cons, ih]

/-- The sign and the digits in front of a dash that no digit follows. -/
theorem scanSign_dash {c : Char} (hc : c.isDigit = false) (z a b : List Char) :
    (scanSign (z ++ '-' :: c :: a)).1 = (scanSign (z ++ '-' :: c :: b)).1 ∧
      (scanSign (z ++ '-' :: c :: a)).2.takeWhile Char.isDigit =
        (scanSign (z ++ '-' :: c :: b)).2.takeWhile Char.isDigit := by
  cases z with
  | nil => simp [scanSign, hc]
  | cons d z =>
      have hsign (t : List Char) : scanSign (d :: z ++ t) =
          if d = '-' then (true, z ++ t) else if d = '+' then (false, z ++ t)
          else (false, d :: z ++ t) := by
        rw [List.cons_append]
        unfold scanSign
        split <;> simp_all
      rw [hsign, hsign]
      split_ifs <;> exact ⟨rfl, by rw [takeWhile_isDigit_dash, takeWhile_isDigit_dash]⟩

/-- A number ends at a dash that no digit follows. -/
theorem scanInt_dash {c : Char} (hc : c.isDigit = false) (y a b : List Char) :
    (scanInt (y ++ '-' :: c :: a)).map Prod.fst = (scanInt (y ++ '-' :: c :: b)).map Prod.fst := by
  have hvalue (t : List Char) : (scanInt t).map Prod.fst =
      if (scanSign (skipSpace t)).2.takeWhile Char.isDigit = [] then none
      else some (if (scanSign (skipSpace t)).1 then
        -(decimalValue ((scanSign (skipSpace t)).2.takeWhile Char.isDigit) : ℤ)
        else decimalValue ((scanSign (skipSpace t)).2.takeWhile Char.isDigit)) := by
    unfold scanInt
    obtain ⟨negative, u⟩ := scanSign (skipSpace t)
    dsimp only
    split <;> rfl
  obtain ⟨hneg, hdigits⟩ := scanSign_dash hc (skipSpace y) a b
  rw [hvalue, hvalue, skipSpace_append_dash, skipSpace_append_dash, hneg, hdigits]

/-- A word ends in front of a dash, or has it. -/
theorem scanWord_dash {V : Type} {d : List Char → V} {v : V} (hd : ∀ w, '-' ∈ w → d w = v)
    (y a b : List Char) :
    (scanWord (y ++ '-' :: a)).map (fun w => d w.1) =
      (scanWord (y ++ '-' :: b)).map fun w => d w.1 := by
  have hword (t : List Char) : (scanWord (y ++ '-' :: t)).map (fun w => d w.1) =
      some (if ((skipSpace y).takeWhile fun c => !isspace c) = skipSpace y then v
        else d ((skipSpace y).takeWhile fun c => !isspace c)) := by
    have hne : ((skipSpace y ++ '-' :: t).takeWhile fun c => !isspace c) ≠ [] := by
      rcases skipSpace_cases y with h | ⟨c, u, h, hc⟩
      · rw [h]
        exact List.cons_ne_nil _ _
      · rw [h, List.cons_append, List.takeWhile_cons_of_pos (by rw [hc]; rfl)]
        exact List.cons_ne_nil _ _
    unfold scanWord
    rw [skipSpace_append_dash]
    simp only [if_neg hne, Option.map_some, Option.some_inj]
    rw [List.takeWhile_append]
    by_cases hall : ((skipSpace y).takeWhile fun c => !isspace c) = skipSpace y
    · rw [if_pos (by rw [hall]), if_pos hall]
      exact hd _ (List.mem_append_right _ List.mem_cons_self)
    · have hlength : ((skipSpace y).takeWhile fun c => !isspace c).length ≠
          (skipSpace y).length := by
        intro h
        exact hall ((List.takeWhile_prefix _).eq_of_length h)
      rw [if_neg hlength, if_neg hall]
  rw [hword, hword]

end Destiny.Lib
