/-
  Destiny.Lib.Scan

  The conversions of `fscanf` and `sscanf` on texts, lists of characters, in the
  C locale.

  * `scanLiteral` matches the ordinary characters of a format: white space there
    matches any run of white space, every other character itself.
  * `scanWord`, `scanInt` and `scanDouble` are `%s`, `%d` and `%lf`; a conversion
    that fails gives none.  `scanInts` reads a format such as `A: %dx%d` and
    gives the integers converted before the first failure, which are the ones
    that were stored.
  * `branchOf` is the branch a chain of `strncmp` tests on the start of a line
    takes.

  A double is the rational its decimal text denotes; rounding, infinities, NaN,
  hexadecimal notation and integers beyond the range of their type are left out.
-/

import Mathlib.Data.Rat.Init
import Mathlib.Data.Rat.Defs
import Mathlib.Algebra.Field.Rat

namespace Destiny.Lib

/-! ## White space and literal text -/

/-- `isspace` in the C locale: a blank, or one of the control characters from the
    tab (9) to the carriage return (13). -/
def isspace (c : Char) : Bool := c.toNat == 32 || (9 ≤ c.toNat && c.toNat ≤ 13)

def skipSpace (t : List Char) : List Char := t.dropWhile isspace

/-- The text after the ordinary characters of a format. -/
def scanLiteral : List Char → List Char → Option (List Char)
  | [], t => some t
  | f :: fs, t =>
    if isspace f then scanLiteral fs (skipSpace t)
    else
      match t with
      | [] => none
      | c :: cs => if c = f then scanLiteral fs cs else none

/-- The format and a text part ways inside the text: no continuation of the text
    matches the format. -/
def diverges : List Char → List Char → Bool
  | [], _ => false
  | f :: fs, t =>
    if isspace f then diverges fs (skipSpace t)
    else
      match t with
      | [] => false
      | c :: cs => if c = f then diverges fs cs else true

theorem diverges_nil_right (fs : List Char) : diverges fs [] = false := by
  induction fs with
  | nil => rfl
  | cons f fs ih =>
      unfold diverges
      split
      · exact ih
      · rfl

/-- Skipping white space in a text with something else in it stops there. -/
theorem skipSpace_append {t : List Char} (h : skipSpace t ≠ []) (r : List Char) :
    skipSpace (t ++ r) = skipSpace t ++ r := by
  unfold skipSpace at h ⊢
  rw [List.dropWhile_append]
  simp [h]

theorem scanLiteral_eq_none_of_diverges {fs t : List Char} (h : diverges fs t = true)
    (r : List Char) : scanLiteral fs (t ++ r) = none := by
  induction fs generalizing t with
  | nil => exact absurd h (by simp [diverges])
  | cons f fs ih =>
      unfold diverges at h
      unfold scanLiteral
      split at h
      · -- white space in the format: the text is not used up by it, else nothing diverges
        rename_i hf
        have hne : skipSpace t ≠ [] := by
          intro h0
          rw [h0, diverges_nil_right] at h
          cases h
        rw [if_pos hf, skipSpace_append hne]
        exact ih h
      · rename_i hf
        rw [if_neg hf]
        cases t with
        | nil => cases h
        | cons c cs =>
            by_cases hc : c = f
            · simp only [hc, if_true] at h
              rw [List.cons_append]
              simp only [hc, if_true]
              exact ih h
            · simp [hc]

/-- The literal text itself matches, whatever follows it. -/
theorem scanLiteral_append {fs : List Char} {r : List Char}
    (hfs : ∀ f ∈ fs, isspace f = false) : scanLiteral fs (fs ++ r) = some r := by
  induction fs with
  | nil => rfl
  | cons f fs ih =>
      obtain ⟨hf, hrest⟩ := List.forall_mem_cons.mp hfs
      simp [scanLiteral, hf, ih hrest]

/-! ## Conversions -/

/-- `%s`. -/
def scanWord (t : List Char) : Option (List Char × List Char) :=
  let w := (skipSpace t).takeWhile fun c => !isspace c
  if w = [] then none else some (w, (skipSpace t).dropWhile fun c => !isspace c)

def digitValue (c : Char) : Nat := c.toNat - '0'.toNat

/-- The number a string of decimal digits denotes. -/
def decimalValue (ds : List Char) : Nat := ds.foldl (fun n c => 10 * n + digitValue c) 0

/-- An optional sign. -/
def scanSign : List Char → Bool × List Char
  | '-' :: t => (true, t)
  | '+' :: t => (false, t)
  | t => (false, t)

/-- `%d` and `%ld`. -/
def scanInt (t : List Char) : Option (Int × List Char) :=
  let (negative, u) := scanSign (skipSpace t)
  let ds := u.takeWhile Char.isDigit
  if ds = [] then none
  else
    let n : Int := decimalValue ds
    some (if negative then -n else n, u.dropWhile Char.isDigit)

/-- The exponent of a decimal constant, 0 when there is none; an `e` that no
    digit follows is a matching failure. -/
def scanExponent : List Char → Option Int
  | [] => some 0
  | c :: t =>
    if c = 'e' || c = 'E' then
      let (negative, u) := scanSign t
      let ds := u.takeWhile Char.isDigit
      if ds = [] then none
      else
        let n : Int := decimalValue ds
        some (if negative then -n else n)
    else some 0

/-- `%lf`, as the last conversion of a format. -/
def scanDouble (t : List Char) : Option ℚ :=
  let (negative, u) := scanSign (skipSpace t)
  let whole := u.takeWhile Char.isDigit
  let rest := u.dropWhile Char.isDigit
  let fraction :=
    match rest with
    | '.' :: r => r.takeWhile Char.isDigit
    | _ => []
  let rest :=
    match rest with
    | '.' :: r => r.dropWhile Char.isDigit
    | r => r
  if whole = [] ∧ fraction = [] then none
  else
    (scanExponent rest).map fun e =>
      let magnitude : ℚ :=
        decimalValue (whole ++ fraction) * (10 : ℚ) ^ (e - (fraction.length : Int))
      if negative then -magnitude else magnitude

/-- A format that starts with literal text and has one `%d` after each piece of
    it: the integers converted before the first failure. -/
def scanInts : List (List Char) → List Char → List Int
  | [], _ => []
  | lit :: lits, t =>
    match (scanLiteral lit t).bind scanInt with
    | none => []
    | some (n, u) => n :: scanInts lits u

example : scanDouble " 13e-15".toList = some (13 / 10 ^ 15) := by decide +kernel

example : scanInts ["-F: ".toList, "x".toList, ", ".toList] "-F: 64x32 ,".toList = [64, 32] := by
  decide +kernel

/-! ## Chains of prefix tests -/

section Branches
variable {O : Type} {key label : O → List Char}

/-- The branch that a line takes through a chain of tests
    `!strncmp(key, line, strlen(key))`. -/
def branchOf (options : List O) (key : O → List Char) (line : List Char) : Option O :=
  options.find? fun o => (key o).isPrefixOf line

/-- When the format of every branch diverges from the keys tested before it, a line
    that matches a branch's key and format takes that branch. -/
theorem branchOf_eq_some {options : List O}
    (hkeys : options.Pairwise fun o' o => diverges (label o) (key o') = true)
    {o : O} (ho : o ∈ options) {line : List Char} (hkey : key o <+: line)
    (hlabel : scanLiteral (label o) line ≠ none) : branchOf options key line = some o := by
  induction options with
  | nil => exact absurd ho List.not_mem_nil
  | cons o' options ih =>
      obtain ⟨hhead, htail⟩ := List.pairwise_cons.mp hkeys
      unfold branchOf
      rcases List.mem_cons.mp ho with rfl | hmem
      · simp [List.isPrefixOf_iff_prefix.mpr hkey]
      · -- an earlier key that starts the line would contradict the format
        have hfalse : (key o').isPrefixOf line = false := by
          by_contra hcon
          obtain ⟨r, rfl⟩ := List.isPrefixOf_iff_prefix.mp (Bool.not_eq_false _ ▸ hcon)
          exact hlabel (scanLiteral_eq_none_of_diverges (hhead o hmem) r)
        rw [List.find?_cons, hfalse]
        exact ih htail hmem

end Branches

end Destiny.Lib
