/-
  Destiny.Lib.WhileLoop

  `while (cond) body` with fuel, on a state of its own.

  `whileLoop cond body fuel s` is none when the condition still holds once the
  fuel is used up, or when the body is.  `whileLoop_run` runs a loop along a
  sequence of states; a nested loop is a body that is itself a loop.
-/

import Mathlib.Data.Nat.Notation

namespace Destiny.Lib

variable {S : Type*} {cond : S → Bool} {body : S → Option S}

def whileLoop (cond : S → Bool) (body : S → Option S) : ℕ → S → Option S
  | 0, s => if cond s then none else some s
  | fuel + 1, s => if cond s then (body s).bind (whileLoop cond body fuel) else some s

/-- A loop whose condition fails leaves the state as it is. -/
theorem whileLoop_of_stop {s : S} (h : cond s = false) (fuel : ℕ) :
    whileLoop cond body fuel s = some s := by
  cases fuel <;> simp [whileLoop, h]

/-- A loop that goes through a sequence of states ends in the first at which its
    condition fails. -/
theorem whileLoop_run (states : ℕ → S) (n : ℕ) (hcond : ∀ i < n, cond (states i) = true)
    (hbody : ∀ i < n, body (states i) = some (states (i + 1))) (hstop : cond (states n) = false)
    {fuel : ℕ} (hfuel : n ≤ fuel) : whileLoop cond body fuel (states 0) = some (states n) := by
  induction n generalizing states fuel with
  | zero => exact whileLoop_of_stop hstop fuel
  | succ n ih =>
      obtain ⟨rest, rfl⟩ : ∃ rest, fuel = rest + 1 := ⟨fuel - 1, by omega⟩
      rw [whileLoop, if_pos (hcond 0 (by omega)), hbody 0 (by omega), Option.bind_some]
      -- the remaining rounds run along the sequence from its second state
      exact ih (fun i => states (i + 1)) (fun i hi => hcond (i + 1) (by omega))
        (fun i hi => hbody (i + 1) (by omega)) hstop (by omega)

end Destiny.Lib
