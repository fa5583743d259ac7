/-
  Destiny.Lib.Interleaving

  Runs of a system whose parties take turns in any order.

  A step function says what the next action of a party does to the state, or
  that it cannot be taken; a run follows a schedule, the list of the parties in
  the order in which they act (`exec`).  `exec_induct` is the invariant rule,
  `Along` a condition on every step of a run, and `exists_of_not_along` the
  first step that breaks it.  `tally` adds up what the steps of a run weigh;
  `exec_balance` compares two tallies with what a measure gains over the run.
-/

import Mathlib.Algebra.BigOperators.Group.Finset.Basic
import Mathlib.Data.Fintype.Basic

namespace Destiny.Lib

variable {S A : Type*} {step : S → A → Option S}

/-- The state a schedule leads to, when every step of it can be taken. -/
def exec (step : S → A → Option S) : List A → S → Option S
  | [], s => some s
  | a :: as, s => (step s a).bind (exec step as)

/-- Every step of the schedule is taken in a state that meets the condition. -/
def Along (step : S → A → Option S) (P : S → A → Prop) : List A → S → Prop
  | [], _ => True
  | a :: as, s => P s a ∧ ∀ t, step s a = some t → Along step P as t

instance Along.decidable {P : S → A → Prop} [∀ s a, Decidable (P s a)] :
    ∀ as s, Decidable (Along step P as s)
  | [], _ => .isTrue trivial
  | a :: as, s =>
      match h : step s a with
      | none => decidable_of_iff (P s a) ⟨fun hs => ⟨hs, fun _ ht => by simp [h] at ht⟩, And.left⟩
      | some t =>
          have := Along.decidable (P := P) as t
          decidable_of_iff (P s a ∧ Along step P as t)
            (and_congr_right fun _ => ⟨fun ht u hu => by rwa [← Option.some.inj (h.symm.trans hu)],
              fun hall => hall t h⟩)

theorem exec_cons {a : A} {as : List A} {s u : S} :
    exec step (a :: as) s = some u ↔ ∃ t, step s a = some t ∧ exec step as t = some u :=
  Option.bind_eq_some_iff

/-- What every step keeps, a run keeps. -/
theorem exec_induct {I : S → Prop} (hstep : ∀ s a t, I s → step s a = some t → I t)
    {as : List A} {s u : S} (hs : I s) (hrun : exec step as s = some u) : I u := by
  induction as generalizing s with
  | nil =>
      obtain rfl := Option.some.inj hrun
      exact hs
  | cons a as ih =>
      obtain ⟨t, ht, hrest⟩ := exec_cons.mp hrun
      exact ih (hstep s a t hs ht) hrest

/-- What every step that meets the condition keeps, such a run keeps. -/
theorem exec_induct_along {I : S → Prop} {P : S → A → Prop}
    (hstep : ∀ s a t, I s → P s a → step s a = some t → I t) {as : List A} {s u : S} (hs : I s)
    (halong : Along step P as s) (hrun : exec step as s = some u) : I u := by
  induction as generalizing s with
  | nil =>
      obtain rfl := Option.some.inj hrun
      exact hs
  | cons a as ih =>
      obtain ⟨t, ht, hrest⟩ := exec_cons.mp hrun
      exact ih (hstep s a t hs halong.1 ht) (halong.2 t ht) hrest

/-- A run with a step that breaks the condition, split there; an invariant of
    all runs holds before that step. -/
theorem exists_of_not_along {I : S → Prop} {P : S → A → Prop}
    (hstep : ∀ s a t, I s → step s a = some t → I t) {as : List A} {s u : S} (hs : I s)
    (hrun : exec step as s = some u) (hbreaks : ¬ Along step P as s) :
    ∃ t a v rest, I t ∧ ¬ P t a ∧ step t a = some v ∧ exec step rest v = some u := by
  induction as generalizing s with
  | nil => exact absurd trivial hbreaks
  | cons a as ih =>
      obtain ⟨t, ht, hrest⟩ := exec_cons.mp hrun
      by_cases hP : P s a
      · apply ih (hstep s a t hs ht) hrest
        intro halong
        refine hbreaks ⟨hP, fun v hv => ?_⟩
        rw [ht] at hv
        rwa [← Option.some.inj hv]
      · exact ⟨s, a, t, as, hs, hP, ht, hrest⟩

/-! ## Tallies -/

/-- What the steps of a run weigh, taken together. -/
def tally (step : S → A → Option S) (weight : S → A → Nat) : List A → S → Nat
  | [], _ => 0
  | a :: as, s => weight s a + ((step s a).map (tally step weight as)).getD 0

theorem tally_cons {weight : S → A → Nat} {a : A} {as : List A} {s t : S}
    (h : step s a = some t) :
    tally step weight (a :: as) s = weight s a + tally step weight as t := by
  simp only [tally, h, Option.map_some, Option.getD_some]

/-- When every step changes a measure by what it gains less what it loses, so does a
    run. -/
theorem exec_balance {I : S → Prop} {f : S → Nat} {gain loss : S → A → Nat}
    (hinv : ∀ s a t, I s → step s a = some t → I t)
    (hlaw : ∀ s a t, I s → step s a = some t → f t + loss s a = f s + gain s a)
    {as : List A} {s u : S} (hs : I s) (hrun : exec step as s = some u) :
    f u + tally step loss as s = f s + tally step gain as s := by
  induction as generalizing s with
  | nil =>
      obtain rfl := Option.some.inj hrun
      rfl
  | cons a as ih =>
      obtain ⟨t, ht, hrest⟩ := exec_cons.mp hrun
      have hstep := hlaw s a t hs ht
      have hrun' := ih (hinv s a t hs ht) hrest
      rw [tally_cons ht, tally_cons ht]
      omega

/-- Steps that weigh nothing add up to nothing. -/
theorem tally_zero (as : List A) (s : S) : tally step (fun _ _ => 0) as s = 0 := by
  induction as generalizing s with
  | nil => rfl
  | cons a as ih =>
      cases ht : step s a with
      | none => simp only [tally, ht, Option.map_none, Option.getD_none]
      | some t => rw [tally_cons ht, ih]

/-! ## Sums over the parties -/

/-- A sum over all parties when the local state of one changes. -/
theorem sum_update {W L M : Type*} [Fintype W] [DecidableEq W] [AddCommMonoid M] (f : L → M)
    (locals : W → L) (w : W) (l : L) :
    f (locals w) + ∑ v, f (Function.update locals w l v) = f l + ∑ v, f (locals v) := by
  have hsplit : ∀ g : W → L, ∑ v, f (g v) = f (g w) + ∑ v ∈ Finset.univ.erase w, f (g v) :=
    fun g => (Finset.add_sum_erase Finset.univ (fun v => f (g v)) (Finset.mem_univ w)).symm
  have hothers : ∑ v ∈ Finset.univ.erase w, f (Function.update locals w l v) =
      ∑ v ∈ Finset.univ.erase w, f (locals v) := by
    apply Finset.sum_congr rfl
    intro v hv
    rw [Function.update_of_ne (Finset.ne_of_mem_erase hv)]
  rw [hsplit, hsplit locals, hothers, Function.update_self, add_left_comm]

end Destiny.Lib
