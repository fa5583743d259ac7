/-
  Destiny.Lib.TracedArray

  Arrays without bounds checks, and loops that count down.

  A `TracedArray` takes every index and records those it is written at;
  `InBounds len` says that an array of `len` elements would have done.  `countDown`
  is the loop `for (int i = n - 1; i >= 0; i--)`, with its rule.
-/

import Mathlib.Data.Int.Notation
import Mathlib.Data.Nat.Notation

namespace Destiny.Lib

/-! ## Arrays -/

/-- The elements of an array by index, and the indices written so far, the last
    one first. -/
structure TracedArray (α : Type) where
  get : ℤ → α
  written : List ℤ

namespace TracedArray
variable {α : Type}

def set (a : TracedArray α) (i : ℤ) (x : α) : TracedArray α where
  get j := if j = i then x else a.get j
  written := i :: a.written

/-- The same elements, with nothing recorded. -/
def restart (a : TracedArray α) : TracedArray α := { a with written := [] }

/-- Every write was to one of `len` elements. -/
def InBounds (len : ℕ) (a : TracedArray α) : Prop := ∀ i ∈ a.written, 0 ≤ i ∧ i < len

instance (len : ℕ) (a : TracedArray α) : Decidable (a.InBounds len) :=
  inferInstanceAs (Decidable (∀ i ∈ a.written, _))

variable {a : TracedArray α} {len : ℕ} {i : ℤ} {x : α}

@[simp] theorem get_set_self : (a.set i x).get i = x := if_pos rfl

@[simp] theorem inBounds_restart : a.restart.InBounds len := List.forall_mem_nil _

@[simp] theorem inBounds_set : (a.set i x).InBounds len ↔ (0 ≤ i ∧ i < len) ∧ a.InBounds len :=
  List.forall_mem_cons

end TracedArray

/-! ## Counting down -/

variable {S : Type}

/-- `body (n - 1)`, and so on to `body 0`. -/
def countDown (body : ℕ → S → S) : ℕ → S → S
  | 0, s => s
  | n + 1, s => countDown body n (body n s)

/-- What each round keeps holds behind the loop. -/
theorem countDown_invariant {body : ℕ → S → S} {P : S → Prop} {n : ℕ} {s : S} (hs : P s)
    (hbody : ∀ i < n, ∀ s, P s → P (body i s)) : P (countDown body n s) := by
  induction n generalizing s with
  | zero => exact hs
  | succ n ih =>
      have hfirst : P (body n s) := hbody n (by omega) s hs
      exact ih hfirst fun i hi => hbody i (by omega)

end Destiny.Lib
