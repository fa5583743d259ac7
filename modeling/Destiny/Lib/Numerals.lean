/-
  Destiny.Lib.Numerals

  Numbers in text.

  A printed number is a run of numeral characters, so it can be read off a text
  when the characters next to it are none: from the left by
  `integer_append_inj`, from the right by `append_integer_inj`.  A text of
  numbers between fixed separators therefore has one reading.
-/

import Mathlib.Data.Int.Notation
import Mathlib.Data.List.Nodup

namespace Destiny.Lib

/-! ## Runs -/

section
variable {α : Type} {p : α → Prop} {x y s t : List α}

/-- The longest run of characters a text starts with. -/
theorem run_append_inj (hx : ∀ c ∈ x, p c) (hy : ∀ c ∈ y, p c) (hs : ∀ c ∈ s.head?, ¬ p c)
    (ht : ∀ c ∈ t.head?, ¬ p c) (h : x ++ s = y ++ t) : x = y ∧ s = t := by
  induction x generalizing y with
  | nil =>
      cases y with
      | nil => exact ⟨rfl, h⟩
      | cons b y =>
          -- the run on the right would start the rest on the left
          rw [List.nil_append, List.cons_append] at h
          exact absurd (hy b List.mem_cons_self) (hs b (by rw [h]; rfl))
  | cons a x ih =>
      cases y with
      | nil =>
          rw [List.nil_append, List.cons_append] at h
          exact absurd (hx a List.mem_cons_self) (ht a (by rw [← h]; rfl))
      | cons b y =>
          rw [List.cons_append, List.cons_append] at h
          obtain ⟨rfl, htail⟩ := List.cons.inj h
          obtain ⟨rfl, rfl⟩ := ih (fun c hc => hx c (List.mem_cons_of_mem _ hc))
            (fun c hc => hy c (List.mem_cons_of_mem _ hc)) htail
          exact ⟨rfl, rfl⟩

/-- The longest run of characters a text ends with. -/
theorem append_run_inj (hx : ∀ c ∈ x, p c) (hy : ∀ c ∈ y, p c) (hs : ∀ c ∈ s.getLast?, ¬ p c)
    (ht : ∀ c ∈ t.getLast?, ¬ p c) (h : s ++ x = t ++ y) : s = t ∧ x = y := by
  have hrev : x.reverse ++ s.reverse = y.reverse ++ t.reverse := by
    rw [← List.reverse_append, ← List.reverse_append, h]
  obtain ⟨hxy, hst⟩ := run_append_inj (fun c hc => hx c (List.mem_reverse.mp hc))
    (fun c hc => hy c (List.mem_reverse.mp hc)) (by rwa [List.head?_reverse])
    (by rwa [List.head?_reverse]) hrev
  exact ⟨List.reverse_injective hst, List.reverse_injective hxy⟩

end

/-! ## Numbers -/

/-- `str(z)` of an integer. -/
def integer (z : ℤ) : List Char :=
  if z < 0 then '-' :: Nat.toDigits 10 z.natAbs else Nat.toDigits 10 z.natAbs

def isNumeral (c : Char) : Bool := c.isDigit || c = '-'

theorem isNumeral_of_mem_integer {z : ℤ} {c : Char} (h : c ∈ integer z) : isNumeral c = true := by
  have hdigit {n : ℕ} (hc : c ∈ Nat.toDigits 10 n) : isNumeral c = true := by
    rw [isNumeral, Nat.isDigit_of_mem_toDigits (by decide) (by decide) hc, Bool.true_or]
  unfold integer at h
  split at h
  · rcases List.mem_cons.mp h with rfl | hc
    · decide
    · exact hdigit hc
  · exact hdigit h

theorem toDigits_inj {m n : ℕ} (h : Nat.toDigits 10 m = Nat.toDigits 10 n) : m = n := by
  have hread := congrArg (fun ds => Nat.ofDigitChars 10 ds 0) h
  simpa only [Nat.ofDigitChars_ten_toDigits] using hread

/-- No digit is a minus sign. -/
theorem toDigits_ne_minus {n : ℕ} {ds : List Char} : Nat.toDigits 10 n ≠ '-' :: ds := by
  intro h
  have hdigit : ('-' : Char).isDigit = true :=
    Nat.isDigit_of_mem_toDigits (b := 10) (n := n) (by decide) (by decide)
      (by rw [h]; exact List.mem_cons_self)
  exact absurd hdigit (by decide)

theorem integer_injective {a b : ℤ} (h : integer a = integer b) : a = b := by
  unfold integer at h
  split at h
  · next ha =>
    split at h
    · next hb =>
      have habs := toDigits_inj (List.cons.inj h).2
      omega
    · exact absurd h.symm toDigits_ne_minus
  · next ha =>
    split at h
    · exact absurd h toDigits_ne_minus
    · next hb =>
      have habs := toDigits_inj h
      omega

/-! ## Separators -/

/-- A separator that no number can continue to the left. -/
def closesNumber (sep : List Char) : Bool := sep.head?.any fun c => !isNumeral c

/-- A separator that no number can continue to the right. -/
def opensNumber (sep : List Char) : Bool := sep.getLast?.any fun c => !isNumeral c

section
variable {sep s t : List Char} {a b : ℤ}

theorem integer_append_inj (hsep : closesNumber sep = true)
    (h : integer a ++ (sep ++ s) = integer b ++ (sep ++ t)) : a = b ∧ s = t := by
  have hhead (r : List Char) : ∀ c ∈ (sep ++ r).head?, ¬ isNumeral c = true := by
    intro c hc
    cases sep with
    | nil => cases hsep
    | cons d sep =>
        obtain rfl : d = c := Option.some.inj hc
        simpa [closesNumber] using hsep
  obtain ⟨hab, hst⟩ := run_append_inj (fun _ => isNumeral_of_mem_integer)
    (fun _ => isNumeral_of_mem_integer) (hhead s) (hhead t) h
  exact ⟨integer_injective hab, List.append_cancel_left hst⟩

theorem append_integer_inj (hsep : opensNumber sep = true)
    (h : s ++ sep ++ integer a = t ++ sep ++ integer b) : s = t ∧ a = b := by
  have hlast (r : List Char) : ∀ c ∈ (r ++ sep).getLast?, ¬ isNumeral c = true := by
    intro c hc
    cases hd : sep.getLast? with
    | none => simp [opensNumber, hd] at hsep
    | some d =>
        rw [List.getLast?_append, hd] at hc
        obtain rfl : d = c := Option.some.inj hc
        simpa [opensNumber, hd] using hsep
  obtain ⟨hst, hab⟩ := append_run_inj (fun _ => isNumeral_of_mem_integer)
    (fun _ => isNumeral_of_mem_integer) (hlast s) (hlast t) h
  exact ⟨List.append_cancel_right hst, integer_injective hab⟩

end

/-! ## Nested loops -/

/-- The passes of a loop yield different values when a key tells the passes
    apart. -/
theorem nodup_flatMap_of_key {α β γ : Type} {l : List α} {f : α → List β} (g : α → γ)
    (key : β → γ) (hl : (l.map g).Nodup) (hf : ∀ x ∈ l, (f x).Nodup)
    (hkey : ∀ x ∈ l, ∀ y ∈ f x, key y = g x) : (l.flatMap f).Nodup := by
  rw [List.nodup_flatMap]
  refine ⟨hf, ?_⟩
  rw [List.Nodup, List.pairwise_map] at hl
  refine hl.imp_of_mem fun {x x'} hx hx' hne y hy hy' => hne ?_
  rw [← hkey x hx y hy, hkey x' hx' y hy']

end Destiny.Lib
