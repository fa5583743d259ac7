/-
  Destiny.Lib.Ends

  Postconditions of computations that may fail.

  `Ends ok failed x` says what `x : Except ε α` can end with: a result that
  satisfies `ok` or an error that satisfies `failed`.  Errors that must never
  occur are excluded by `failed` being false of them.
-/

import Mathlib.Data.Nat.Notation

namespace Destiny.Lib

universe u v

variable {ε : Type u} {α β : Type v}

/-- `x` ends with a result in `ok` or with an error in `failed`. -/
def Ends (ok : α → Prop) (failed : ε → Prop) : Except ε α → Prop
  | .ok a => ok a
  | .error e => failed e

variable {ok ok' : α → Prop} {failed failed' : ε → Prop}

@[simp] theorem Ends_ok {a : α} : Ends ok failed (.ok a : Except ε α) ↔ ok a := Iff.rfl

@[simp] theorem Ends_error {e : ε} : Ends ok failed (.error e : Except ε α) ↔ failed e := Iff.rfl

theorem Ends.of_eq_ok {x : Except ε α} {a : α} (h : Ends ok failed x) (hx : x = .ok a) :
    ok a := by
  rw [hx] at h
  exact h

theorem Ends.of_eq_error {x : Except ε α} {e : ε} (h : Ends ok failed x) (hx : x = .error e) :
    failed e := by
  rw [hx] at h
  exact h

theorem Ends.mono {x : Except ε α} (h : Ends ok failed x) (hok : ∀ a, ok a → ok' a)
    (hfailed : ∀ e, failed e → failed' e) : Ends ok' failed' x := by
  cases x with
  | ok a => exact hok a h
  | error e => exact hfailed e h

/-- Sequencing: what the first computation ends with is what the second starts from. -/
theorem Ends.bind {x : Except ε α} {f : α → Except ε β} {after : β → Prop}
    (h : Ends ok failed x) (hf : ∀ a, ok a → Ends after failed (f a)) :
    Ends after failed (x >>= f) := by
  cases x with
  | ok a => exact hf a h
  | error e => exact h

/-- A loop: what every step keeps, the loop keeps. -/
theorem Ends.foldlM {γ : Type*} {invariant : β → Prop} {f : β → γ → Except ε β} {l : List γ}
    (h : ∀ b, invariant b → ∀ x ∈ l, Ends invariant failed (f b x)) {b : β} (hb : invariant b) :
    Ends invariant failed (l.foldlM f b) := by
  induction l generalizing b with
  | nil => exact hb
  | cons x l ih =>
      rw [List.foldlM_cons]
      refine (h b hb x List.mem_cons_self).bind fun c hc => ?_
      exact ih (fun d hd y hy => h d hd y (List.mem_cons_of_mem _ hy)) hc

end Destiny.Lib
