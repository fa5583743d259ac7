/-
  Destiny.Lib.Enumeration

  Nested counting loops that may not end.

  An `Enumeration` lists what a loop visits within some fuel and says whether
  the loop is over by then.  `bind` nests loops: a nested loop that does not end
  keeps the enclosing ones from going on.  `forEach` runs a body on everything
  visited and then stops the program if the loop is not over.
-/

import Destiny.Lib.Triple
import Mathlib.Data.List.Nodup
import Mathlib.Tactic.Linarith

namespace Destiny.Lib

universe u v w

structure Enumeration (α : Type u) where
  visited : List α
  finished : Bool
  deriving DecidableEq, Repr

namespace Enumeration

variable {α β : Type u}

/-- A loop over a given list. -/
def ofList (xs : List α) : Enumeration α := ⟨xs, true⟩

def bindList (f : α → Enumeration β) (finished : Bool) : List α → Enumeration β
  | [] => ⟨[], finished⟩
  | x :: xs =>
      if (f x).finished then
        ⟨(f x).visited ++ (bindList f finished xs).visited, (bindList f finished xs).finished⟩
      else f x

instance : Monad Enumeration where
  pure a := ⟨[a], true⟩
  bind e f := bindList f e.finished e.visited

@[simp] theorem pure_visited (a : α) : (pure a : Enumeration α).visited = [a] := rfl

@[simp] theorem pure_finished (a : α) : (pure a : Enumeration α).finished = true := rfl

@[simp] theorem ofList_visited (xs : List α) : (ofList xs).visited = xs := rfl

@[simp] theorem ofList_finished (xs : List α) : (ofList xs).finished = true := rfl

/-- Whatever a nest visits is visited by the inner loop of some outer step. -/
theorem exists_of_mem_bind {e : Enumeration α} {f : α → Enumeration β} {y : β}
    (h : y ∈ (e >>= f).visited) : ∃ x ∈ e.visited, y ∈ (f x).visited := by
  change y ∈ (bindList f e.finished e.visited).visited at h
  generalize e.visited = xs at h ⊢
  induction xs with
  | nil => cases h
  | cons x xs ih =>
      rw [bindList] at h
      split at h
      · rcases List.mem_append.mp h with h | h
        · exact ⟨x, List.mem_cons_self, h⟩
        · obtain ⟨x', hx', hy⟩ := ih h
          exact ⟨x', List.mem_cons_of_mem _ hx', hy⟩
      · exact ⟨x, List.mem_cons_self, h⟩

/-- What every inner loop visits only is all the nest visits. -/
theorem forall_mem_bind {e : Enumeration α} {f : α → Enumeration β} {P : β → Prop}
    (h : ∀ x ∈ e.visited, ∀ y ∈ (f x).visited, P y) : ∀ y ∈ (e >>= f).visited, P y := by
  intro y hy
  obtain ⟨x, hx, hy⟩ := exists_of_mem_bind hy
  exact h x hx y hy

/-! ## What a nest enumerates -/

/-- A nest is over when its loops are, for all that is visited. -/
theorem bind_finished_iff {e : Enumeration α} {f : α → Enumeration β} :
    (e >>= f).finished = true ↔ e.finished = true ∧ ∀ x ∈ e.visited, (f x).finished = true := by
  change (bindList f e.finished e.visited).finished = true ↔ _
  generalize e.visited = xs
  induction xs with
  | nil => simp [bindList]
  | cons x xs ih =>
      rw [bindList, List.forall_mem_cons]
      split
      · next hx => simpa [hx] using ih
      · next hx => simp [hx]

theorem bind_visited {e : Enumeration α} {f : α → Enumeration β}
    (h : ∀ x ∈ e.visited, (f x).finished = true) :
    (e >>= f).visited = e.visited.flatMap fun x => (f x).visited := by
  change (bindList f e.finished e.visited).visited = _
  generalize e.visited = xs at h ⊢
  induction xs with
  | nil => rfl
  | cons x xs ih =>
      obtain ⟨hx, hxs⟩ := List.forall_mem_cons.mp h
      rw [bindList, if_pos hx, List.flatMap_cons, ih hxs]

/-- A loop is over and has visited just the values with `P`, each once. -/
structure Enumerates (e : Enumeration α) (P : α → Prop) : Prop where
  finished : e.finished = true
  nodup : e.visited.Nodup
  mem_iff : ∀ a, a ∈ e.visited ↔ P a

theorem Enumerates.congr {e : Enumeration α} {P Q : α → Prop} (h : e.Enumerates P)
    (hPQ : ∀ a, P a ↔ Q a) : e.Enumerates Q :=
  ⟨h.finished, h.nodup, fun a => (h.mem_iff a).trans (hPQ a)⟩

theorem enumerates_pure (a : α) : (pure a : Enumeration α).Enumerates fun x => x = a :=
  ⟨rfl, List.nodup_singleton a, fun _ => List.mem_singleton⟩

theorem enumerates_ofList {xs : List α} (h : xs.Nodup) : (ofList xs).Enumerates fun x => x ∈ xs :=
  ⟨rfl, h, fun _ => Iff.rfl⟩

/-- A loop around others: `F` is known of the loops outside, `key` reads its variable off
    what is visited, and what `P` says of the variable `P'` says of the whole. -/
theorem Enumerates.nest {e : Enumeration α} {f : α → Enumeration β} {P : α → Prop}
    {F P' R : β → Prop} (he : e.Enumerates P) (key : β → α)
    (hP : ∀ y, F y → (P (key y) ↔ P' y))
    (hf : ∀ x, P x → (f x).Enumerates fun y => (key y = x ∧ F y) ∧ R y) :
    (e >>= f).Enumerates fun y => F y ∧ (P' y ∧ R y) := by
  have hinner (x : α) (hx : x ∈ e.visited) := hf x ((he.mem_iff x).mp hx)
  have hvisited := bind_visited fun x hx => (hinner x hx).finished
  refine ⟨bind_finished_iff.mpr ⟨he.finished, fun x hx => (hinner x hx).finished⟩, ?_, ?_⟩
  · rw [hvisited, List.nodup_flatMap]
    refine ⟨fun x hx => (hinner x hx).nodup, he.nodup.imp_of_mem ?_⟩
    -- two values of the variable are told apart by the key
    intro x x' hx hx' hne y hy hy'
    refine hne ?_
    rw [← (((hinner x hx).mem_iff y).mp hy).1.1, ← (((hinner x' hx').mem_iff y).mp hy').1.1]
  · intro y
    rw [hvisited, List.mem_flatMap]
    constructor
    · rintro ⟨x, hx, hy⟩
      obtain ⟨⟨rfl, hF⟩, hR⟩ := ((hinner x hx).mem_iff y).mp hy
      exact ⟨hF, (hP y hF).mp ((he.mem_iff _).mp hx), hR⟩
    · rintro ⟨hF, hP', hR⟩
      have hx := (he.mem_iff _).mpr ((hP y hF).mpr hP')
      exact ⟨key y, hx, ((hinner _ hx).mem_iff y).mpr ⟨⟨rfl, hF⟩, hR⟩⟩

/-! ## The doubling loop -/

/-- `for (x = lo; x <= hi; x *= 2)`, as far as the fuel lasts. -/
def doublings : (fuel : Nat) → (lo hi : Int) → Enumeration Int
  | 0, lo, hi => ⟨[], hi < lo⟩
  | fuel + 1, lo, hi =>
      if lo ≤ hi then
        ⟨lo :: (doublings fuel (lo * 2) hi).visited, (doublings fuel (lo * 2) hi).finished⟩
      else ⟨[], true⟩

theorem le_of_mem_doublings {fuel : Nat} {lo hi x : Int}
    (h : x ∈ (doublings fuel lo hi).visited) : x ≤ hi := by
  induction fuel generalizing lo with
  | zero => cases h
  | succ fuel ih =>
      rw [doublings] at h
      split at h
      · next hle =>
        rcases List.mem_cons.mp h with rfl | h
        · exact hle
        · exact ih h
      · cases h

/-- A positive doubling loop visits values from its start upwards. -/
theorem ge_of_mem_doublings {fuel : Nat} {lo hi x : Int} (hlo : 0 < lo)
    (h : x ∈ (doublings fuel lo hi).visited) : lo ≤ x := by
  induction fuel generalizing lo with
  | zero => cases h
  | succ fuel ih =>
      rw [doublings] at h
      split at h
      · rcases List.mem_cons.mp h with rfl | h
        · exact le_rfl
        · have hge := ih (show 0 < lo * 2 by omega) h
          omega
      · cases h

/-- The values `lo`, `lo * 2`, `lo * 4`, … up to `hi`. -/
def Doubled (lo hi x : Int) : Prop := (∃ k : ℕ, x = lo * 2 ^ k) ∧ x ≤ hi

theorem doubled_iff {lo hi x : Int} (hlo : 0 < lo) :
    Doubled lo hi x ↔ (x = lo ∧ lo ≤ hi) ∨ Doubled (lo * 2) hi x := by
  constructor
  · rintro ⟨⟨k, rfl⟩, hle⟩
    cases k with
    | zero => exact .inl ⟨by rw [pow_zero, mul_one], by rwa [pow_zero, mul_one] at hle⟩
    | succ k => exact .inr ⟨⟨k, by rw [pow_succ', mul_assoc]⟩, hle⟩
  · rintro (⟨rfl, hle⟩ | ⟨⟨k, rfl⟩, hle⟩)
    · exact ⟨⟨0, by rw [pow_zero, mul_one]⟩, hle⟩
    · exact ⟨⟨k + 1, by rw [pow_succ', mul_assoc]⟩, hle⟩

theorem Doubled.pos {lo hi x : Int} (hlo : 0 < lo) (h : Doubled lo hi x) : 0 < x := by
  obtain ⟨⟨k, rfl⟩, -⟩ := h
  positivity

/-- No value lies between the start and the end. -/
theorem not_doubled_of_lt {lo hi x : Int} (hlo : 0 < lo) (h : hi < lo) : ¬ Doubled lo hi x := by
  rintro ⟨⟨k, rfl⟩, hle⟩
  have hpow : (1 : Int) ≤ 2 ^ k := one_le_pow₀ (by decide)
  have hge := mul_le_mul_of_nonneg_left hpow hlo.le
  omega

/-- From a positive start the loop is over after as many rounds as there are numbers. -/
theorem doublings_enumerates {fuel : Nat} {lo hi : Int} (hlo : 0 < lo)
    (hfuel : (hi + 1 - lo).toNat ≤ fuel) :
    (doublings fuel lo hi).Enumerates (Doubled lo hi) := by
  induction fuel generalizing lo with
  | zero =>
      have hlt : hi < lo := by omega
      exact ⟨decide_eq_true hlt, List.nodup_nil,
        fun x => iff_of_false List.not_mem_nil (not_doubled_of_lt hlo hlt)⟩
  | succ fuel ih =>
      rw [doublings]
      split
      · next hle =>
        have hrest := ih (show 0 < lo * 2 by omega) (by omega)
        refine ⟨hrest.finished, List.nodup_cons.mpr ⟨fun hmem => ?_, hrest.nodup⟩, fun x => ?_⟩
        · have hge := ge_of_mem_doublings (show 0 < lo * 2 by omega) hmem
          omega
        · rw [List.mem_cons, hrest.mem_iff, doubled_iff hlo, and_iff_left hle]
      · next hgt =>
        exact ⟨rfl, List.nodup_nil,
          fun x => iff_of_false List.not_mem_nil (not_doubled_of_lt hlo (not_le.mp hgt))⟩

/-- A start that does not grow is never left behind. -/
theorem doublings_unfinished (fuel : Nat) {lo hi : Int} (hlo : lo ≤ 0) (hle : lo ≤ hi) :
    (doublings fuel lo hi).finished = false := by
  induction fuel generalizing lo with
  | zero => exact decide_eq_false (not_lt.mpr hle)
  | succ fuel ih =>
      rw [doublings, if_pos hle]
      exact ih (show lo * 2 ≤ 0 by omega) (by omega)

/-- A nest under a doubling loop that is over: the start is positive, and the loops
    under it are over for the start. -/
theorem of_doublings_bind_finished {γ : Type} {fuel : Nat} {lo hi : Int} {f : Int → Enumeration γ}
    (hle : lo ≤ hi) (h : (doublings fuel lo hi >>= f).finished = true) :
    0 < lo ∧ (f lo).finished = true := by
  obtain ⟨hfinished, hinner⟩ := bind_finished_iff.mp h
  have hlo : 0 < lo := by
    by_contra hneg
    rw [doublings_unfinished fuel (not_lt.mp hneg) hle] at hfinished
    cases hfinished
  refine ⟨hlo, hinner lo ?_⟩
  cases fuel with
  | zero => exact absurd (of_decide_eq_true hfinished) (not_lt.mpr hle)
  | succ fuel =>
      rw [doublings, if_pos hle]
      exact List.mem_cons_self

end Enumeration

/-! ## Running a body -/

section
variable {ε σ : Type u} {γ : Type v}

/-- Run the body on everything visited; a loop that is not over stops the program. -/
def Enumeration.forEach (e : Enumeration γ) (stop : ε) (body : γ → EStateM ε σ PUnit) :
    EStateM ε σ PUnit := do
  e.visited.forM body
  if e.finished then pure ⟨⟩ else throw stop

theorem Triple.forEach {e : Enumeration γ} {stop : ε} {body : γ → EStateM ε σ PUnit}
    {R : σ → Prop} (I : List γ → σ → Prop)
    (hbody : ∀ pre x post, e.visited = pre ++ x :: post →
      Triple (I pre) (body x) (fun _ => I (pre ++ [x])) R)
    (hstop : e.finished = false → ∀ s, I e.visited s → R s) :
    Triple (I []) (e.forEach stop body)
      (fun _ s => I e.visited s ∧ e.finished = true) R := by
  refine (Triple.forM I hbody).bind fun _ => ?_
  by_cases hfin : e.finished = true
  · rw [if_pos hfin]
    exact Triple.pure fun s hs => ⟨hs, hfin⟩
  · rw [if_neg hfin]
    exact Triple.throw (hstop (by simpa using hfin))

theorem returns_over {finished : Bool} {stop : ε} :
    Returns id (if finished then pure ⟨⟩ else throw stop : EStateM ε σ PUnit) := by
  cases finished with
  | true => exact Returns.pure
  | false => exact Returns.throw

/-- A loop that returns is over and has folded its body over what it visits. -/
theorem Returns.forEach {e : Enumeration γ} {stop : ε} {f : σ → γ → σ}
    {body : γ → EStateM ε σ PUnit} (hbody : ∀ x, Returns (fun s => f s x) (body x)) :
    Returns (fun s => e.visited.foldl f s) (e.forEach stop body) :=
  (Returns.forM e.visited hbody).bind fun _ => returns_over

end

end Destiny.Lib
