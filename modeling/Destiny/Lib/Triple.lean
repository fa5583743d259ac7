/-
  Destiny.Lib.Triple

  Preconditions and postconditions of programs with a state that may stop
  early, as `EStateM` computations: stopping keeps the state reached so far.

  * `Triple P c Q R`: from a state in `P`, `c` returns a value and state in `Q`
    or stops in a state in `R`;
  * `Returns f c`: whenever `c` returns, it leads from a state `s` to `f s`.
-/

import Mathlib.Data.Nat.Notation

namespace Destiny.Lib

universe u v

variable {ε σ α β : Type u} {γ : Type v}

/-- From `P`, the program returns in `Q` or stops in `R`. -/
def Triple (P : σ → Prop) (c : EStateM ε σ α) (Q : α → σ → Prop) (R : σ → Prop) : Prop :=
  ∀ s, P s → match c s with
    | .ok a t => Q a t
    | .error _ t => R t

/-- Whenever the program returns, it has changed the state by `f`. -/
def Returns (f : σ → σ) (c : EStateM ε σ α) : Prop :=
  ∀ s a t, c s = .ok a t → t = f s

/-- A sequence returns when both parts do. -/
theorem bind_eq_ok {c : EStateM ε σ α} {k : α → EStateM ε σ β} {s u : σ} {b : β} :
    (c >>= k) s = .ok b u ↔ ∃ a t, c s = .ok a t ∧ k a t = .ok b u := by
  show EStateM.bind c k s = _ ↔ _
  unfold EStateM.bind
  cases hc : c s with
  | ok a t =>
      constructor
      · exact fun h => ⟨a, t, rfl, h⟩
      · rintro ⟨a', t', h, hk⟩
        cases h
        exact hk
  | error e t =>
      constructor
      · intro h
        cases h
      · rintro ⟨a', t', h, -⟩
        cases h

/-! ## Rules of `Triple` -/

section
variable {P P' : σ → Prop} {Q Q' : α → σ → Prop} {R R' : σ → Prop}

theorem Triple.conseq {c : EStateM ε σ α} (h : Triple P c Q R) (hP : ∀ s, P' s → P s)
    (hQ : ∀ a s, Q a s → Q' a s) (hR : ∀ s, R s → R' s) : Triple P' c Q' R' := by
  intro s hs
  have hrun := h s (hP s hs)
  cases hc : c s with
  | ok a t =>
      rw [hc] at hrun
      exact hQ a t hrun
  | error e t =>
      rw [hc] at hrun
      exact hR t hrun

theorem Triple.and {c : EStateM ε σ α} (h : Triple P c Q R) (h' : Triple P' c Q' R') :
    Triple (fun s => P s ∧ P' s) c (fun a s => Q a s ∧ Q' a s) (fun s => R s ∧ R' s) := by
  intro s hs
  have hrun := h s hs.1
  have hrun' := h' s hs.2
  cases hc : c s with
  | ok a t =>
      rw [hc] at hrun hrun'
      exact ⟨hrun, hrun'⟩
  | error e t =>
      rw [hc] at hrun hrun'
      exact ⟨hrun, hrun'⟩

theorem Triple.pure {a : α} (h : ∀ s, P s → Q a s) :
    Triple P (Pure.pure a : EStateM ε σ α) Q R := h

theorem Triple.throw {e : ε} (h : ∀ s, P s → R s) :
    Triple P (throw e : EStateM ε σ α) Q R := h

/-- Changing the state first: the rest starts from what that establishes. -/
theorem Triple.modify_bind {f : σ → σ} {k : PUnit → EStateM ε σ β} {after : β → σ → Prop}
    (mid : σ → Prop) (h : ∀ s, P s → mid (f s)) (hk : Triple mid (k ⟨⟩) after R) :
    Triple P (modify f >>= k) after R := fun s hs => hk (f s) (h s hs)

theorem Triple.modify {f : σ → σ} {Q : PUnit → σ → Prop} (h : ∀ s, P s → Q ⟨⟩ (f s)) :
    Triple P (modify f : EStateM ε σ PUnit) Q R := h

theorem Triple.bind {c : EStateM ε σ α} {f : α → EStateM ε σ β} {after : β → σ → Prop}
    (h : Triple P c Q R) (hf : ∀ a, Triple (Q a) (f a) after R) :
    Triple P (c >>= f) after R := by
  intro s hs
  have hrun := h s hs
  show match EStateM.bind c f s with
    | .ok b t => after b t
    | .error _ t => R t
  unfold EStateM.bind
  cases hc : c s with
  | ok a t =>
      rw [hc] at hrun
      exact hf a t hrun
  | error e t =>
      rw [hc] at hrun
      exact hrun

/-- Reading the state: the rest may use that it still is the one read. -/
theorem Triple.get_bind {f : σ → EStateM ε σ β} {after : β → σ → Prop}
    (hf : ∀ s, P s → Triple (fun t => t = s) (f s) after R) :
    Triple P (get >>= f) after R := fun s hs => hf s hs s rfl

/-- The value and state a program returns are those of a run from `P`. -/
theorem Triple.returned {c : EStateM ε σ α} :
    Triple P c (fun a t => ∃ s, P s ∧ c s = .ok a t) (fun _ => True) := by
  intro s hs
  cases hc : c s with
  | ok a t => exact ⟨s, hs, hc⟩
  | error e t => trivial

/-- A loop over a list, with an invariant on the part already processed. -/
theorem Triple.forM {xs : List γ} {body : γ → EStateM ε σ PUnit} (I : List γ → σ → Prop)
    (hbody : ∀ pre x post, xs = pre ++ x :: post →
      Triple (I pre) (body x) (fun _ => I (pre ++ [x])) R) :
    Triple (I []) (xs.forM body) (fun _ => I xs) R := by
  -- The invariant travels with the processed prefix; the induction is on the rest.
  suffices h : ∀ post pre, xs = pre ++ post →
      Triple (I pre) (post.forM body) (fun _ => I xs) R from h xs [] rfl
  intro post
  induction post with
  | nil =>
      intro pre hxs
      rw [List.append_nil] at hxs
      subst hxs
      exact Triple.pure fun s hs => hs
  | cons x post ih =>
      intro pre hxs
      have hrest : xs = (pre ++ [x]) ++ post := by
        rw [hxs, List.append_assoc, List.singleton_append]
      exact (hbody pre x post hxs).bind fun _ => ih (pre ++ [x]) hrest

end

/-! ## Rules of `Returns` -/

section
variable {f g : σ → σ}

theorem Returns.apply {c : EStateM ε σ α} (h : Returns f c) {s t : σ} {a : α}
    (hrun : c s = .ok a t) : t = f s := h s a t hrun

theorem Returns.pure {a : α} : Returns id (Pure.pure a : EStateM ε σ α) := by
  intro s b t hrun
  cases hrun
  rfl

/-- A program that never returns has done anything. -/
theorem Returns.throw {e : ε} : Returns f (throw e : EStateM ε σ α) := by
  intro s b t hrun
  cases hrun

theorem Returns.modify : Returns f (modify f : EStateM ε σ PUnit) := by
  intro s b t hrun
  cases hrun
  rfl

theorem Returns.bind {c : EStateM ε σ α} {k : α → EStateM ε σ β} (h : Returns f c)
    (hk : ∀ a, Returns g (k a)) : Returns (fun s => g (f s)) (c >>= k) := by
  intro s b u hrun
  obtain ⟨a, t, hc, hrest⟩ := bind_eq_ok.mp hrun
  show u = g (f s)
  rw [← h s a t hc]
  exact hk a t b u hrest

/-- A check that returns has changed nothing. -/
theorem Returns.check_bind {c : EStateM ε σ α} {k : α → EStateM ε σ β} (h : Returns id c)
    (hk : ∀ a, Returns f (k a)) : Returns f (c >>= k) := h.bind hk

/-- Reading the state first. -/
theorem Returns.get_bind {f : σ → σ → σ} {k : σ → EStateM ε σ β}
    (hk : ∀ s, Returns (f s) (k s)) : Returns (fun s => f s s) (get >>= k) :=
  fun s b t hrun => hk s s b t hrun

theorem Returns.cond {p : Prop} [Decidable p] {c d : EStateM ε σ α} (hc : Returns f c)
    (hd : Returns g d) : Returns (fun s => if p then f s else g s) (if p then c else d) := by
  by_cases hp : p
  · simp only [if_pos hp]
    exact hc
  · simp only [if_neg hp]
    exact hd

/-- What the change of the state establishes, the program does. -/
theorem Returns.triple {c : EStateM ε σ α} (h : Returns f c) {P Q : σ → Prop}
    (hQ : ∀ s, P s → Q (f s)) : Triple P c (fun _ => Q) (fun _ => True) := by
  intro s hs
  cases hc : c s with
  | ok a t =>
      show Q t
      rw [h.apply hc]
      exact hQ s hs
  | error e t => trivial

/-- A loop that returns has folded its body. -/
theorem Returns.forM {f : σ → γ → σ} {body : γ → EStateM ε σ PUnit} (xs : List γ)
    (hbody : ∀ x, Returns (fun s => f s x) (body x)) :
    Returns (fun s => xs.foldl f s) (xs.forM body) := by
  induction xs with
  | nil => exact Returns.pure
  | cons x xs ih => exact (hbody x).bind fun _ => ih

end

end Destiny.Lib
