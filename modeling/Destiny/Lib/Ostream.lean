/-
  Destiny.Lib.Ostream

  Numbers as an output stream prints them.

  A `Decimal` is the shape of a printed number: a sign, digits, digits after a
  point, an exponent.  `ostreamDouble` is what `<<` prints for a double at the
  default precision: six significant digits without the zeros at the end, in
  fixed notation for exponents from -4 to 5 and in scientific notation otherwise.
  The number it shows is within one part in 200000 of the double
  (`ostreamDouble_near`).
-/

import Destiny.Lib.Rounding
import Destiny.Lib.Scan
import Mathlib.Data.List.DropRight

namespace Destiny.Lib

/-! ## Digits -/

theorem decimalValue_eq (ds : List Char) : decimalValue ds = Nat.ofDigitChars 10 ds 0 := by
  rw [decimalValue, Nat.ofDigitChars_eq_foldl]
  rfl

theorem decimalValue_toDigits (n : ℕ) : decimalValue (Nat.toDigits 10 n) = n := by
  rw [decimalValue_eq, Nat.ofDigitChars_ten_toDigits]

theorem decimalValue_replicate_zero (k : ℕ) (ds : List Char) :
    decimalValue (List.replicate k '0' ++ ds) = decimalValue ds := by
  rw [decimalValue_eq, decimalValue_eq, Nat.ofDigitChars_append,
    Nat.ofDigitChars_replicate_zero, mul_zero]

theorem decimalValue_concat_zero (ds : List Char) :
    decimalValue (ds ++ ['0']) = 10 * decimalValue ds := by
  rw [decimalValue, List.foldl_append]
  rfl

def trimZeros (ds : List Char) : List Char := ds.rdropWhile fun c => c = '0'

/-- Zeros at the end of the digits after the point do not count. -/
theorem decimalValue_trimZeros (ws fs : List Char) :
    (decimalValue (ws ++ trimZeros fs) : ℚ) * 10 ^ (-((trimZeros fs).length : ℤ)) =
      decimalValue (ws ++ fs) * 10 ^ (-(fs.length : ℤ)) := by
  unfold trimZeros
  induction fs using List.reverseRecOn with
  | nil => rfl
  | append_singleton fs c ih =>
      by_cases hc : c = '0'
      · subst hc
        rw [List.rdropWhile_concat_pos _ _ _ (by simp), ih, ← List.append_assoc,
          decimalValue_concat_zero, List.length_append, List.length_singleton]
        push_cast
        rw [neg_add, zpow_add₀ (by norm_num), zpow_neg_one]
        ring
      · rw [List.rdropWhile_concat_neg _ _ _ (by simpa using hc)]

/-! ## Printed numbers -/

/-- The shape of a printed number. -/
structure Decimal where
  negative : Bool
  whole : List Char
  fraction : List Char
  exponent : Option ℤ
  whole_ne_nil : whole ≠ []
  isDigit_whole : ∀ c ∈ whole, c.isDigit = true
  isDigit_fraction : ∀ c ∈ fraction, c.isDigit = true

/-- At least two digits. -/
def exponentText (e : ℤ) : List Char :=
  'e' :: (if e < 0 then '-' else '+') ::
    ((if e.natAbs < 10 then ['0'] else []) ++ Nat.toDigits 10 e.natAbs)

def Decimal.text (d : Decimal) : List Char :=
  (if d.negative then ['-'] else []) ++ d.whole ++
    (if d.fraction = [] then [] else '.' :: d.fraction) ++ (d.exponent.map exponentText).getD []

def Decimal.magnitude (d : Decimal) : ℚ :=
  decimalValue (d.whole ++ d.fraction) * 10 ^ (d.exponent.getD 0 - d.fraction.length)

def Decimal.value (d : Decimal) : ℚ := if d.negative then -d.magnitude else d.magnitude

/-- The characters of printed numbers. -/
def isNumberChar (c : Char) : Bool := c.isDigit || c == '-' || c == '+' || c == '.' || c == 'e'

theorem isNumberChar_of_isDigit {c : Char} (h : c.isDigit = true) : isNumberChar c = true := by
  simp [isNumberChar, h]

theorem isNumberChar_of_mem_exponentText {e : ℤ} {c : Char} (h : c ∈ exponentText e) :
    isNumberChar c = true := by
  unfold exponentText at h
  rcases List.mem_cons.mp h with rfl | h
  · decide
  rcases List.mem_cons.mp h with rfl | h
  · split <;> decide
  rcases List.mem_append.mp h with h | h
  · split at h
    · obtain rfl := List.mem_singleton.mp h
      decide
    · cases h
  · exact isNumberChar_of_isDigit (Nat.isDigit_of_mem_toDigits (by decide) (by decide) h)

theorem Decimal.isNumberChar_of_mem_text (d : Decimal) {c : Char} (h : c ∈ d.text) :
    isNumberChar c = true := by
  unfold Decimal.text at h
  rcases List.mem_append.mp h with h | h
  · rcases List.mem_append.mp h with h | h
    · rcases List.mem_append.mp h with h | h
      · split at h
        · obtain rfl := List.mem_singleton.mp h
          decide
        · cases h
      · exact isNumberChar_of_isDigit (d.isDigit_whole c h)
    · split at h
      · cases h
      · rcases List.mem_cons.mp h with rfl | h
        · decide
        · exact isNumberChar_of_isDigit (d.isDigit_fraction c h)
  · cases he : d.exponent with
    | none =>
        rw [he] at h
        cases h
    | some e =>
        rw [he] at h
        exact isNumberChar_of_mem_exponentText h

theorem isDigit_take {digits : List Char} (hdigits : ∀ c ∈ digits, c.isDigit = true) (k : ℕ) :
    ∀ c ∈ digits.take k, c.isDigit = true :=
  fun c hc => hdigits c (List.mem_of_mem_take hc)

/-- Digits with the point after the first `point` of them. -/
def Decimal.ofDigits (negative : Bool) (digits : List Char) (point : ℕ) (exponent : Option ℤ)
    (hpoint : digits.take point ≠ []) (hdigits : ∀ c ∈ digits, c.isDigit = true) : Decimal where
  negative := negative
  whole := digits.take point
  fraction := trimZeros (digits.drop point)
  exponent := exponent
  whole_ne_nil := hpoint
  isDigit_whole := isDigit_take hdigits point
  isDigit_fraction c hc :=
    hdigits c (List.mem_of_mem_drop ((List.rdropWhile_prefix _ _).subset hc))

theorem Decimal.magnitude_ofDigits {negative : Bool} {digits : List Char} {point : ℕ}
    {exponent : Option ℤ} {hpoint : digits.take point ≠ []}
    {hdigits : ∀ c ∈ digits, c.isDigit = true} :
    (Decimal.ofDigits negative digits point exponent hpoint hdigits).magnitude =
      decimalValue digits * 10 ^ (exponent.getD 0 - (digits.length - point : ℕ)) := by
  have htrim := decimalValue_trimZeros (digits.take point) (digits.drop point)
  rw [List.take_append_drop, List.length_drop] at htrim
  show (decimalValue (digits.take point ++ trimZeros (digits.drop point)) : ℚ) *
    10 ^ (exponent.getD 0 - ((trimZeros (digits.drop point)).length : ℤ)) = _
  rw [sub_eq_add_neg, zpow_add₀ (by norm_num), mul_left_comm, htrim, sub_eq_add_neg,
    zpow_add₀ (by norm_num)]
  ring

/-! ## Six significant digits -/

/-- The six significant digits of a positive number and its decimal exponent. -/
def sixDigits (x : ℚ) : ℕ × ℤ :=
  let e := Int.log 10 x
  let m := (roundHalfEven (x / 10 ^ (e - 5))).toNat
  if m = 10 ^ 6 then (10 ^ 5, e + 1) else (m, e)

theorem sixDigits_spec {x : ℚ} (hx : 0 < x) :
    10 ^ 5 ≤ (sixDigits x).1 ∧ (sixDigits x).1 < 10 ^ 6 ∧
      |((sixDigits x).1 : ℚ) * 10 ^ ((sixDigits x).2 - 5) - x| ≤ x / 200000 := by
  have hsix : sixDigits x = leadingDigits 5 x := rfl
  obtain ⟨hlow, hhigh, hvalue⟩ := leadingDigits_spec 5 hx
  have hnear := abs_roundTo_digitPlace_sub_le 5 hx
  rw [hsix]
  refine ⟨hlow, hhigh, ?_⟩
  have hplace : (leadingDigits 5 x).2 - 5 = (leadingDigits 5 x).2 - ((5 : ℕ) : ℤ) := rfl
  rw [hplace, hvalue]
  calc |roundTo (digitPlace 5 x) x - x| ≤ x / (2 * 10 ^ 5) := hnear
    _ = x / 200000 := by norm_num

/-! ## Doubles -/

theorem isDigit_of_mem_padded {k n : ℕ} {c : Char}
    (h : c ∈ List.replicate k '0' ++ Nat.toDigits 10 n) : c.isDigit = true := by
  rcases List.mem_append.mp h with h | h
  · rw [List.eq_of_mem_replicate h]
    decide
  · exact Nat.isDigit_of_mem_toDigits (by decide) (by decide) h

theorem take_succ_ne_nil {α : Type} {l : List α} (h : l ≠ []) (k : ℕ) : l.take (k + 1) ≠ [] := by
  simp [h]

/-- Fixed notation of `m * 10 ^ (e - 5)`. -/
def fixedNotation (negative : Bool) (m : ℕ) (e : ℤ) : Decimal :=
  .ofDigits negative (List.replicate (-e).toNat '0' ++ Nat.toDigits 10 m) (e.toNat + 1) none
    (take_succ_ne_nil (List.append_ne_nil_of_right_ne_nil _ Nat.toDigits_ne_nil) _)
    fun _ hc => isDigit_of_mem_padded hc

/-- Scientific notation of `m * 10 ^ (e - 5)`. -/
def scientificNotation (negative : Bool) (m : ℕ) (e : ℤ) : Decimal :=
  .ofDigits negative (Nat.toDigits 10 m) 1 (some e) (take_succ_ne_nil Nat.toDigits_ne_nil 0)
    fun _ hc => Nat.isDigit_of_mem_toDigits (by decide) (by decide) hc

/-- `<<` of a double at the default precision. -/
def ostreamDouble (x : ℚ) : Decimal :=
  if x = 0 then ⟨false, ['0'], [], none, by simp, by simp, by simp⟩
  else
    let (m, e) := sixDigits |x|
    if -4 ≤ e ∧ e < 6 then fixedNotation (x < 0) m e else scientificNotation (x < 0) m e

theorem length_toDigits {d m : ℕ} (hlow : 10 ^ d ≤ m) (hhigh : m < 10 ^ (d + 1)) :
    (Nat.toDigits 10 m).length = d + 1 := by
  have hle := (Nat.length_toDigits_le_iff (n := m) (k := d + 1) (b := 10) (by decide)
    (Nat.succ_pos d)).mpr hhigh
  rcases Nat.eq_zero_or_pos d with rfl | hd
  · have hpos := List.length_pos_of_ne_nil (Nat.toDigits_ne_nil (n := m) (b := 10))
    omega
  · have hlt : ¬ (Nat.toDigits 10 m).length ≤ d := fun h =>
      absurd ((Nat.length_toDigits_le_iff (by decide) hd).mp h) (by omega)
    omega

theorem magnitude_fixedNotation {negative : Bool} {m : ℕ} {e : ℤ} (hlow : 10 ^ 5 ≤ m)
    (hhigh : m < 10 ^ 6) (he : e < 6) :
    (fixedNotation negative m e).magnitude = m * 10 ^ (e - 5) := by
  have hlen := length_toDigits (d := 5) hlow hhigh
  rw [fixedNotation, Decimal.magnitude_ofDigits, decimalValue_replicate_zero,
    decimalValue_toDigits, List.length_append, List.length_replicate, hlen]
  congr 2
  show (0 : ℤ) - (((-e).toNat + 6 - (e.toNat + 1) : ℕ) : ℤ) = e - 5
  omega

theorem magnitude_scientificNotation {negative : Bool} {m : ℕ} {e : ℤ} (hlow : 10 ^ 5 ≤ m)
    (hhigh : m < 10 ^ 6) : (scientificNotation negative m e).magnitude = m * 10 ^ (e - 5) := by
  rw [scientificNotation, Decimal.magnitude_ofDigits, decimalValue_toDigits,
    length_toDigits (d := 5) hlow hhigh]
  rfl

/-- A sign added to a magnitude that is close. -/
theorem Decimal.near_of_magnitude {d : Decimal} {x ε : ℚ} (hsign : d.negative = decide (x < 0))
    (h : |d.magnitude - abs x| ≤ ε) : |d.value - x| ≤ ε := by
  unfold Decimal.value
  rw [hsign]
  by_cases hx : x < 0
  · rw [if_pos (by simpa using hx)]
    rw [abs_of_neg hx] at h
    rwa [show -d.magnitude - x = -(d.magnitude - -x) by ring, abs_neg]
  · rw [if_neg (by simpa using hx)]
    rwa [abs_of_nonneg (not_lt.mp hx)] at h

/-- The printed number agrees with the double to six significant digits. -/
theorem ostreamDouble_near (x : ℚ) : |(ostreamDouble x).value - x| ≤ |x| / 200000 := by
  unfold ostreamDouble
  split_ifs with hzero
  · subst hzero
    norm_num [Decimal.value, Decimal.magnitude, decimalValue, digitValue]
  · obtain ⟨hlow, hhigh, hnear⟩ := sixDigits_spec (abs_pos.mpr hzero)
    dsimp only
    split_ifs with hfixed
    · refine Decimal.near_of_magnitude rfl ?_
      rwa [magnitude_fixedNotation hlow hhigh hfixed.2]
    · refine Decimal.near_of_magnitude rfl ?_
      rwa [magnitude_scientificNotation hlow hhigh]

example : (ostreamDouble (1234567 / 1000)).text = "1234.57".toList := by decide +kernel

example : (ostreamDouble (-1 / 30000)).text = "-3.33333e-05".toList := by decide +kernel

end Destiny.Lib
