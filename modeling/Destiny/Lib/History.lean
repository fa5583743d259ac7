/-
  Destiny.Lib.History

  Facts about a list read as a history, oldest entry first.

  * `Everywhere P h`: every entry of `h` satisfies `P` together with the
    entries before it, so a safety property of a run is one of each prefix;
  * `lastSome f h`: what `f` says about the latest entry it says anything about.
-/

import Mathlib.Data.List.Induction

namespace Destiny.Lib

universe u v

variable {E : Type u} {α : Type v}

/-! ## Safety of every prefix -/

/-- Every entry satisfies `P` with the entries before it. -/
def Everywhere (P : List E → E → Prop) (history : List E) : Prop :=
  ∀ before e after, history = before ++ e :: after → P before e

theorem everywhere_nil (P : List E → E → Prop) : Everywhere P [] := by
  intro before e after h
  exact absurd h.symm (by simp)

/-- A history grows by one safe entry. -/
theorem everywhere_append_singleton {P : List E → E → Prop} {history : List E} {e : E} :
    Everywhere P (history ++ [e]) ↔ Everywhere P history ∧ P history e := by
  constructor
  · intro h
    refine ⟨fun before x after hx => h before x (after ++ [e]) ?_, h history e [] rfl⟩
    rw [hx, List.append_assoc, List.cons_append]
  · rintro ⟨hall, he⟩ before x after hx
    rcases List.eq_nil_or_concat after with rfl | ⟨after, y, rfl⟩
    · obtain ⟨rfl, hxe⟩ := List.append_inj' hx rfl
      obtain rfl : e = x := by simpa using hxe
      exact he
    · have hsplit : history ++ [e] = (before ++ x :: after) ++ [y] := by
        rw [hx, List.concat_eq_append, List.append_assoc, List.cons_append]
      obtain ⟨rfl, -⟩ := List.append_inj' hsplit rfl
      exact hall before x after rfl

/-- A history grows by entries that are safe after anything. -/
theorem Everywhere.append {P : List E → E → Prop} {history es : List E} (h : Everywhere P history)
    (hes : ∀ e ∈ es, ∀ before, P before e) : Everywhere P (history ++ es) := by
  induction es using List.reverseRecOn with
  | nil =>
      rw [List.append_nil]
      exact h
  | append_singleton es e ih =>
      rw [← List.append_assoc, everywhere_append_singleton]
      exact ⟨ih fun x hx => hes x (List.mem_append_left _ hx), hes e (by simp) _⟩

theorem Everywhere.of_append {P : List E → E → Prop} {first second : List E}
    (h : Everywhere P (first ++ second)) : Everywhere P first := by
  intro before e after he
  refine h before e (after ++ second) ?_
  rw [he, List.append_assoc, List.cons_append]

/-- An entry of a safe history is safe where it stands. -/
theorem Everywhere.of_mem {P : List E → E → Prop} {history : List E} (h : Everywhere P history)
    {e : E} (he : e ∈ history) : ∃ before after, history = before ++ e :: after ∧ P before e := by
  obtain ⟨before, after, hsplit⟩ := List.append_of_mem he
  exact ⟨before, after, hsplit, h before e after hsplit⟩

/-- The entries before a safe entry are safe. -/
theorem Everywhere.before {P : List E → E → Prop} {history before after : List E} {e : E}
    (h : Everywhere P history) (hsplit : history = before ++ e :: after) : Everywhere P before := by
  rw [hsplit] at h
  exact h.of_append

/-- The check of a history, with the entries already checked. -/
def everywhereFrom (P : List E → E → Prop) [∀ before e, Decidable (P before e)]
    (before : List E) : List E → Bool
  | [] => true
  | e :: rest => decide (P before e) && everywhereFrom P (before ++ [e]) rest

theorem everywhereFrom_iff {P : List E → E → Prop} [∀ before e, Decidable (P before e)]
    {first rest : List E} (hfirst : Everywhere P first) :
    everywhereFrom P first rest = true ↔ Everywhere P (first ++ rest) := by
  induction rest generalizing first with
  | nil => simpa [everywhereFrom] using hfirst
  | cons e rest ih =>
      have hsplit : first ++ e :: rest = (first ++ [e]) ++ rest := by simp
      rw [everywhereFrom, Bool.and_eq_true, decide_eq_true_eq, hsplit]
      constructor
      · rintro ⟨he, hrest⟩
        exact (ih (everywhere_append_singleton.mpr ⟨hfirst, he⟩)).mp hrest
      · intro h
        have he := everywhere_append_singleton.mp h.of_append
        exact ⟨he.2, (ih h.of_append).mpr h⟩

instance (P : List E → E → Prop) [∀ before e, Decidable (P before e)] (history : List E) :
    Decidable (Everywhere P history) :=
  decidable_of_iff (everywhereFrom P [] history = true) (everywhereFrom_iff (everywhere_nil P))

/-! ## The latest word on something -/

/-- What `f` says about the latest entry it says anything about. -/
def lastSome (f : E → Option α) (history : List E) : Option α :=
  history.foldl (fun last e => (f e).or last) none

@[simp] theorem lastSome_nil (f : E → Option α) : lastSome f [] = none := rfl

theorem lastSome_append_singleton (f : E → Option α) (history : List E) (e : E) :
    lastSome f (history ++ [e]) = (f e).or (lastSome f history) := by
  rw [lastSome, List.foldl_append, List.foldl_cons, List.foldl_nil, ← lastSome]

theorem lastSome_append_of_some {f : E → Option α} {e : E} {a : α} (h : f e = some a)
    (history : List E) : lastSome f (history ++ [e]) = some a := by
  rw [lastSome_append_singleton, h, Option.some_or]

theorem lastSome_append_of_none {f : E → Option α} {e : E} (h : f e = none)
    (history : List E) : lastSome f (history ++ [e]) = lastSome f history := by
  rw [lastSome_append_singleton, h, Option.none_or]

/-- The latest word was said of some entry. -/
theorem exists_of_lastSome {f : E → Option α} {history : List E} {a : α}
    (h : lastSome f history = some a) : ∃ e ∈ history, f e = some a := by
  induction history using List.reverseRecOn with
  | nil => cases h
  | append_singleton history e ih =>
      rw [lastSome_append_singleton] at h
      cases he : f e with
      | some b =>
          rw [he, Option.some_or] at h
          exact ⟨e, by simp, he.trans h⟩
      | none =>
          rw [he, Option.none_or] at h
          obtain ⟨x, hx, hfx⟩ := ih h
          exact ⟨x, List.mem_append_left _ hx, hfx⟩

/-- A fold that only ever overwrites with what `f` says ends with the latest word. -/
theorem foldl_eq_lastSome {σ : Type*} {f : E → Option α} {step : σ → E → σ} {read : σ → α}
    (hstep : ∀ s e, read (step s e) = (f e).getD (read s)) (history : List E) (s : σ) :
    read (history.foldl step s) = (lastSome f history).getD (read s) := by
  induction history using List.reverseRecOn with
  | nil => rfl
  | append_singleton history e ih =>
      rw [List.foldl_append, List.foldl_cons, List.foldl_nil, hstep, ih,
        lastSome_append_singleton]
      cases f e <;> rfl

theorem lastSome_map {β : Type*} (f : E → Option α) (g : α → β) (history : List E) :
    lastSome (fun e => (f e).map g) history = (lastSome f history).map g := by
  induction history using List.reverseRecOn with
  | nil => rfl
  | append_singleton history e ih =>
      rw [lastSome_append_singleton, lastSome_append_singleton, ih]
      cases f e <;> rfl

/-- Overwriting a second time with the same history changes nothing. -/
theorem read_foldl_again {σ : Type*} {f : E → Option α} {step : σ → E → σ} {read : σ → α}
    (hstep : ∀ s e, read (step s e) = (f e).getD (read s)) {history : List E} {s t : σ}
    (h : read t = read (history.foldl step s)) :
    read (history.foldl step t) = read (history.foldl step s) := by
  rw [foldl_eq_lastSome hstep, h, foldl_eq_lastSome hstep]
  cases lastSome f history <;> rfl

end Destiny.Lib
