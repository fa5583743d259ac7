/-
  Destiny.Lib.PyFloat

  Numbers as Python reads and prints them.

  `pyFloat` is `float` of a text; `fixedFormat` and `scientificFormat` are the
  formats `.4f` and `.2e`.  A printed number is read back as the number it shows
  (`Decimal.pyFloat_text`), which is the number rounded to the last place printed
  (`value_fixedFormat`, `value_scientificFormat`).

  A float is a rational number; infinities, NaN and digits beyond ASCII are left
  out.
-/

import Destiny.Lib.Numerals
import Destiny.Lib.Ostream
import Destiny.Lib.Python

namespace Destiny.Lib

/-! ## Numbers read -/

/-- Digits, with underscores between them. -/
def underscoredDigits (t : List Char) : Option (List Char) :=
  if (t.splitOn '_').all fun ds => !ds.isEmpty && ds.all Char.isDigit then
    some (t.filter fun c => c ≠ '_')
  else none

/-- Digits in front of or behind the point. -/
def optionalDigits (t : List Char) : Option (List Char) :=
  if t = [] then some [] else underscoredDigits t

def pyExponent (t : List Char) : Option ℤ :=
  let (negative, u) := scanSign t
  (underscoredDigits u).map fun ds => if negative then -(decimalValue ds : ℤ) else decimalValue ds

def isExponentMark (c : Char) : Bool := c = 'e' || c = 'E'

/-- `float(t)` -/
def pyFloat (t : List Char) : Option ℚ :=
  let (negative, u) := scanSign (strip t)
  let mantissa := u.takeWhile fun c => !isExponentMark c
  let exponent :=
    match u.dropWhile fun c => !isExponentMark c with
    | [] => some 0
    | _ :: e => pyExponent e
  let whole := optionalDigits (mantissa.takeWhile fun c => c ≠ '.')
  let fraction :=
    match mantissa.dropWhile fun c => c ≠ '.' with
    | [] => some []
    | _ :: f => optionalDigits f
  match whole, fraction, exponent with
  | some ws, some fs, some e =>
    if ws = [] ∧ fs = [] then none
    else
      let magnitude : ℚ := decimalValue (ws ++ fs) * 10 ^ (e - fs.length)
      some (if negative then -magnitude else magnitude)
  | _, _, _ => none

example : pyFloat " 1_000.5e-3\n".toList = some (10005 / 10 ^ 4) := by decide +kernel

/-! ### A printed number is read back -/

theorem span_append {p : Char → Bool} {x y : List Char} (hx : ∀ c ∈ x, p c = true)
    (hy : ∀ c ∈ y.head?, p c = false) :
    (x ++ y).takeWhile p = x ∧ (x ++ y).dropWhile p = y := by
  rw [List.takeWhile_append_of_pos hx, List.dropWhile_append_of_pos hx]
  cases y with
  | nil => simp
  | cons c y => simp [hy c rfl]

theorem isPySpace_of_isNumberChar {c : Char} (h : isNumberChar c = true) :
    isPySpace c = false := by
  have hcode : 43 ≤ c.toNat ∧ c.toNat ≤ 101 := by
    simp only [isNumberChar, Bool.or_eq_true, beq_iff_eq] at h
    rcases h with (((hdigit | rfl) | rfl) | rfl) | rfl
    · obtain ⟨hlow, hhigh⟩ := Bool.and_eq_true_iff.mp hdigit
      have hlow' : 48 ≤ c.toNat := UInt32.le_iff_toNat_le.mp (of_decide_eq_true hlow)
      have hhigh' : c.toNat ≤ 57 := UInt32.le_iff_toNat_le.mp (of_decide_eq_true hhigh)
      omega
    all_goals decide
  simp only [isPySpace, List.contains_eq_mem, List.mem_cons, List.not_mem_nil, or_false,
    Bool.or_eq_false_iff, Bool.and_eq_false_iff, decide_eq_false_iff_not]
  omega

theorem Decimal.stripped_text (d : Decimal) : Stripped d.text :=
  stripped_of_forall fun _ hc => isPySpace_of_isNumberChar (d.isNumberChar_of_mem_text hc)

theorem isDigit_ne {c d : Char} (hc : c.isDigit = true) (hd : d.isDigit = false) : c ≠ d := by
  rintro rfl
  rw [hc] at hd
  cases hd

theorem scanSign_of_isDigit {c : Char} (hc : c.isDigit = true) (t : List Char) :
    scanSign (c :: t) = (false, c :: t) := by
  unfold scanSign
  split
  · next heq => exact absurd (List.cons.inj heq).1 (isDigit_ne hc (by decide))
  · next heq => exact absurd (List.cons.inj heq).1 (isDigit_ne hc (by decide))
  · rfl

theorem underscoredDigits_of_isDigit {ds : List Char} (hne : ds ≠ [])
    (hds : ∀ c ∈ ds, c.isDigit = true) : underscoredDigits ds = some ds := by
  have hbar (c : Char) (hc : c ∈ ds) : c ≠ '_' := isDigit_ne (hds c hc) (by decide)
  have hsplit : ds.splitOn '_' = [ds] := List.splitOn_eq_singleton fun h => hbar _ h rfl
  unfold underscoredDigits
  rw [hsplit, if_pos (by simpa [hne] using hds)]
  exact congrArg some (List.filter_eq_self.mpr fun c hc => by simpa using hbar c hc)

theorem optionalDigits_of_isDigit {ds : List Char} (hds : ∀ c ∈ ds, c.isDigit = true) :
    optionalDigits ds = some ds := by
  unfold optionalDigits
  split_ifs with hne
  · rw [hne]
  · exact underscoredDigits_of_isDigit hne hds

theorem pyExponent_exponentText {e : ℤ} {t : List Char} (h : exponentText e = 'e' :: t) :
    pyExponent t = some e := by
  obtain ⟨-, rfl⟩ := List.cons.inj h
  set ds := (if e.natAbs < 10 then ['0'] else []) ++ Nat.toDigits 10 e.natAbs with hds
  have hne : ds ≠ [] := List.append_ne_nil_of_right_ne_nil _ Nat.toDigits_ne_nil
  have hdigit : ∀ c ∈ ds, c.isDigit = true := by
    intro c hc
    rcases List.mem_append.mp hc with hc | hc
    · split at hc
      · obtain rfl := List.mem_singleton.mp hc
        decide
      · cases hc
    · exact Nat.isDigit_of_mem_toDigits (by decide) (by decide) hc
  -- the zero in front of a short exponent does not change its value
  have hvalue : decimalValue ds = e.natAbs := by
    rw [hds]
    split
    · exact (decimalValue_replicate_zero 1 _).trans (decimalValue_toDigits _)
    · exact decimalValue_toDigits _
  unfold pyExponent
  split_ifs with hneg
  · show (underscoredDigits ds).map _ = _
    rw [underscoredDigits_of_isDigit hne hdigit, Option.map_some, hvalue]
    congr 1
    show -(e.natAbs : ℤ) = e
    omega
  · show (underscoredDigits ds).map _ = _
    rw [underscoredDigits_of_isDigit hne hdigit, Option.map_some, hvalue]
    congr 1
    show (e.natAbs : ℤ) = e
    omega

namespace Decimal

/-- The point and the digits behind it. -/
def point (d : Decimal) : List Char := if d.fraction = [] then [] else '.' :: d.fraction

def exponentPart (d : Decimal) : List Char := (d.exponent.map exponentText).getD []

theorem scanSign_text (d : Decimal) :
    scanSign d.text = (d.negative, d.whole ++ d.point ++ d.exponentPart) := by
  obtain ⟨c, ws, hwhole⟩ := List.exists_cons_of_ne_nil d.whole_ne_nil
  have hc : c.isDigit = true := d.isDigit_whole c (by rw [hwhole]; exact List.mem_cons_self)
  show scanSign ((if d.negative then ['-'] else []) ++ d.whole ++ d.point ++ d.exponentPart) = _
  cases d.negative with
  | true => rfl
  | false =>
      rw [if_neg Bool.false_ne_true, List.nil_append, hwhole]
      exact scanSign_of_isDigit hc _

/-- The mantissa ends where the exponent starts. -/
theorem span_mantissa (d : Decimal) :
    ((d.whole ++ d.point ++ d.exponentPart).takeWhile fun c => !isExponentMark c) =
        d.whole ++ d.point ∧
      ((d.whole ++ d.point ++ d.exponentPart).dropWhile fun c => !isExponentMark c) =
        d.exponentPart := by
  have hdigit (c : Char) (hc : c.isDigit = true) : (!isExponentMark c) = true := by
    have he : c ≠ 'e' := isDigit_ne hc (by decide)
    have hE : c ≠ 'E' := isDigit_ne hc (by decide)
    simp [isExponentMark, he, hE]
  refine span_append (fun c hc => ?_) fun c hc => ?_
  · rcases List.mem_append.mp hc with hc | hc
    · exact hdigit c (d.isDigit_whole c hc)
    · unfold point at hc
      split at hc
      · cases hc
      · rcases List.mem_cons.mp hc with rfl | hc
        · decide
        · exact hdigit c (d.isDigit_fraction c hc)
  · cases he : d.exponent with
    | none =>
        rw [exponentPart, he] at hc
        cases hc
    | some e =>
        rw [exponentPart, he] at hc
        obtain rfl : 'e' = c := Option.some.inj hc
        decide

/-- The whole part ends at the point. -/
theorem span_whole (d : Decimal) :
    ((d.whole ++ d.point).takeWhile fun c => c ≠ '.') = d.whole ∧
      ((d.whole ++ d.point).dropWhile fun c => c ≠ '.') = d.point := by
  refine span_append (fun c hc => ?_) fun c hc => ?_
  · simpa using isDigit_ne (d := '.') (d.isDigit_whole c hc) (by decide)
  · unfold point at hc
    split at hc
    · cases hc
    · obtain rfl : '.' = c := Option.some.inj hc
      decide

theorem pyFloat_text (d : Decimal) : pyFloat d.text = some d.value := by
  have hexponent : (match d.exponentPart with
      | [] => some 0
      | _ :: e => pyExponent e) = some (d.exponent.getD 0) := by
    unfold exponentPart
    cases d.exponent with
    | none => rfl
    | some e => exact pyExponent_exponentText (e := e) rfl
  have hfraction : (match d.point with
      | [] => some []
      | _ :: f => optionalDigits f) = some d.fraction := by
    unfold point
    split_ifs with hnil
    · rw [hnil]
    · exact optionalDigits_of_isDigit d.isDigit_fraction
  have hwhole : ¬ (d.whole = [] ∧ d.fraction = []) := fun h => d.whole_ne_nil h.1
  unfold pyFloat
  rw [d.stripped_text.strip_eq, d.scanSign_text]
  dsimp only
  rw [d.span_mantissa.1, d.span_mantissa.2, d.span_whole.1, d.span_whole.2, hexponent, hfraction,
    optionalDigits_of_isDigit d.isDigit_whole]
  dsimp only
  rw [if_neg hwhole]
  rfl

/-- Digits with the point behind the first `k` of them. -/
def pointAt (negative : Bool) (digits : List Char) (k : ℕ) (exponent : Option ℤ)
    (hk : digits.take k ≠ []) (hdigits : ∀ c ∈ digits, c.isDigit = true) : Decimal where
  negative := negative
  whole := digits.take k
  fraction := digits.drop k
  exponent := exponent
  whole_ne_nil := hk
  isDigit_whole := isDigit_take hdigits k
  isDigit_fraction c hc := hdigits c (List.mem_of_mem_drop hc)

theorem magnitude_pointAt {negative : Bool} {digits : List Char} {k : ℕ} {exponent : Option ℤ}
    {hk : digits.take k ≠ []} {hdigits : ∀ c ∈ digits, c.isDigit = true} :
    (pointAt negative digits k exponent hk hdigits).magnitude =
      decimalValue digits * 10 ^ (exponent.getD 0 - (digits.length - k : ℕ)) := by
  show (decimalValue (digits.take k ++ digits.drop k) : ℚ) *
    10 ^ (exponent.getD 0 - ((digits.drop k).length : ℤ)) = _
  rw [List.take_append_drop, List.length_drop]

/-- The sign goes with the rounding. -/
theorem value_of_magnitude {d : Decimal} {unit x : ℚ} (hsign : d.negative = decide (x < 0))
    (h : d.magnitude = roundTo unit |x|) : d.value = roundTo unit x := by
  unfold value
  rw [hsign, h]
  by_cases hx : x < 0
  · rw [if_pos (by simpa using hx), abs_of_neg hx, roundTo_neg, neg_neg]
  · rw [if_neg (by simpa using hx), abs_of_nonneg (not_lt.mp hx)]

end Decimal

/-! ## Numbers printed -/

/-- `n` with zeros in front, `k` digits at least. -/
def zeroFilled (k n : ℕ) : List Char :=
  List.replicate (k - (Nat.toDigits 10 n).length) '0' ++ Nat.toDigits 10 n

theorem le_length_zeroFilled (k n : ℕ) : k ≤ (zeroFilled k n).length := by
  rw [zeroFilled, List.length_append, List.length_replicate]
  omega

theorem take_zeroFilled_ne_nil (k n : ℕ) :
    (zeroFilled (k + 1) n).take ((zeroFilled (k + 1) n).length - k) ≠ [] := by
  have hlen := le_length_zeroFilled (k + 1) n
  refine List.ne_nil_of_length_pos ?_
  rw [List.length_take]
  omega

/-- The format `.{d}f`. -/
def fixedFormat (d : ℕ) (x : ℚ) : Decimal :=
  let n := (roundHalfEven (|x| / (1 / 10 ^ d))).toNat
  .pointAt (x < 0) (zeroFilled (d + 1) n) ((zeroFilled (d + 1) n).length - d) none
    (take_zeroFilled_ne_nil d n) fun _ hc => isDigit_of_mem_padded hc

/-- The format `.{d}e`. -/
def scientificFormat (d : ℕ) (x : ℚ) : Decimal :=
  if x = 0 then
    .pointAt false (List.replicate (d + 1) '0') 1 (some 0)
      (take_succ_ne_nil (List.cons_ne_nil _ _) 0) fun c hc => by
        rw [List.eq_of_mem_replicate hc]
        decide
  else
    .pointAt (x < 0) (Nat.toDigits 10 (leadingDigits d |x|).1) 1 (some (leadingDigits d |x|).2)
      (take_succ_ne_nil Nat.toDigits_ne_nil 0)
      fun _ hc => Nat.isDigit_of_mem_toDigits (by decide) (by decide) hc

theorem value_fixedFormat (d : ℕ) (x : ℚ) : (fixedFormat d x).value = roundTo (1 / 10 ^ d) x := by
  refine Decimal.value_of_magnitude rfl ?_
  have hlen := le_length_zeroFilled (d + 1) (roundHalfEven (|x| / (1 / 10 ^ d))).toNat
  have hround : 0 ≤ roundHalfEven (|x| / (1 / 10 ^ d)) :=
    le_roundHalfEven (by push_cast; positivity)
  have hcast : (((roundHalfEven (|x| / (1 / 10 ^ d))).toNat : ℕ) : ℚ) =
      roundHalfEven (|x| / (1 / 10 ^ d)) := by
    exact_mod_cast Int.toNat_of_nonneg hround
  unfold fixedFormat
  rw [Decimal.magnitude_pointAt, Nat.sub_sub_self (by omega), roundTo, ← hcast, zeroFilled,
    decimalValue_replicate_zero, decimalValue_toDigits, Option.getD_none, zero_sub, zpow_neg,
    zpow_natCast, one_div]

theorem value_scientificFormat (d : ℕ) (x : ℚ) :
    (scientificFormat d x).value = roundTo (digitPlace d |x|) x := by
  unfold scientificFormat
  split_ifs with hzero
  · refine Decimal.value_of_magnitude (by simp [Decimal.pointAt, hzero]) ?_
    have hdigits : decimalValue (List.replicate (d + 1) '0') = 0 := by
      simpa [decimalValue] using decimalValue_replicate_zero (d + 1) []
    rw [Decimal.magnitude_pointAt, hdigits, hzero, abs_zero, roundTo, zero_div]
    norm_num [show roundHalfEven 0 = 0 from roundHalfEven_intCast 0]
  · obtain ⟨hlow, hhigh, hvalue⟩ := leadingDigits_spec d (abs_pos.mpr hzero)
    refine Decimal.value_of_magnitude rfl ?_
    rw [Decimal.magnitude_pointAt, decimalValue_toDigits, length_toDigits hlow hhigh, ← hvalue]
    rfl

example : (fixedFormat 4 (1 / 16)).text = "0.0625".toList := by decide +kernel

example : (scientificFormat 2 (12345 / 10 ^ 20)).text = "1.23e-16".toList := by decide +kernel

/-! ### Integers -/

theorem isDigit_nil : ∀ c ∈ ([] : List Char), c.isDigit = true := List.forall_mem_nil _

def Decimal.ofInt (n : ℤ) : Decimal where
  negative := n < 0
  whole := Nat.toDigits 10 n.natAbs
  fraction := []
  exponent := none
  whole_ne_nil := Nat.toDigits_ne_nil
  isDigit_whole _ hc := Nat.isDigit_of_mem_toDigits (by decide) (by decide) hc
  isDigit_fraction := isDigit_nil

theorem Decimal.text_ofInt (n : ℤ) : (Decimal.ofInt n).text = integer n := by
  by_cases hn : n < 0 <;> simp [Decimal.text, Decimal.ofInt, integer, hn]

theorem Decimal.value_ofInt (n : ℤ) : (Decimal.ofInt n).value = n := by
  have hmagnitude : (Decimal.ofInt n).magnitude = n.natAbs := by
    show (decimalValue (Nat.toDigits 10 n.natAbs ++ []) : ℚ) * 10 ^ (0 - ((0 : ℕ) : ℤ)) = _
    rw [List.append_nil, decimalValue_toDigits]
    norm_num
  have habs : ((n.natAbs : ℕ) : ℚ) = |(n : ℚ)| := by rw [Nat.cast_natAbs, Int.cast_abs]
  rw [Decimal.value, hmagnitude, habs]
  show (if decide (n < 0) = true then -|(n : ℚ)| else |(n : ℚ)|) = n
  by_cases hn : n < 0
  · rw [if_pos (by simpa using hn), abs_of_neg (by exact_mod_cast hn), neg_neg]
  · rw [if_neg (by simpa using hn), abs_of_nonneg (by exact_mod_cast not_lt.mp hn)]

theorem pyFloat_integer (n : ℤ) : pyFloat (integer n) = some (n : ℚ) := by
  rw [← Decimal.text_ofInt, Decimal.pyFloat_text, Decimal.value_ofInt]

end Destiny.Lib
