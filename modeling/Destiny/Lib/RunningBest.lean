/-
  Destiny.Lib.RunningBest

  A running best-so-far record.

  A search keeps one candidate and replaces it by each visited candidate that
  is admissible and has a strictly smaller key.  `keepBest` is one such step;
  folding it over the visited list leaves the first admissible candidate of
  least key, or the initial one when nothing admissible beats it.
  `FirstLeast` is the first least element of a list with its index, one element
  at a time.
-/

import Mathlib.Data.List.Induction
import Mathlib.Order.Bounds.Basic

namespace Destiny.Lib

variable {α K : Type*} [LinearOrder K]

/-- One step: `x` replaces `best` when it is admissible and strictly better. -/
def keepBest (ok : α → Bool) (key : α → K) (best x : α) : α :=
  if ok x = true ∧ key x < key best then x else best

section
variable {ok : α → Bool} {key : α → K}

theorem keepBest_of_better {best x : α} (hok : ok x = true) (hlt : key x < key best) :
    keepBest ok key best x = x := if_pos ⟨hok, hlt⟩

theorem keepBest_of_not_better {best x : α} (h : ¬ (ok x = true ∧ key x < key best)) :
    keepBest ok key best x = best := if_neg h

/-- A step never makes the kept key larger. -/
theorem keepBest_le (best x : α) : key (keepBest ok key best x) ≤ key best := by
  unfold keepBest
  split
  · next h => exact h.2.le
  · exact le_rfl

/-- After a step the kept key is at most that of an admissible candidate. -/
theorem keepBest_le_of_ok (best : α) {x : α} (hok : ok x = true) :
    key (keepBest ok key best x) ≤ key x := by
  unfold keepBest
  split
  · exact le_rfl
  · next h => exact not_lt.mp fun hlt => h ⟨hok, hlt⟩

/-! ## Whole visits -/

/-- Over a whole visit the kept key only goes down. -/
theorem foldl_keepBest_le_init (xs : List α) (init : α) :
    key (xs.foldl (keepBest ok key) init) ≤ key init := by
  induction xs generalizing init with
  | nil => exact le_rfl
  | cons x xs ih => exact (ih _).trans (keepBest_le init x)

/-- The kept key is at most that of every admissible candidate visited. -/
theorem foldl_keepBest_le_of_mem {xs : List α} (init : α) {x : α} (hx : x ∈ xs)
    (hok : ok x = true) : key (xs.foldl (keepBest ok key) init) ≤ key x := by
  induction xs generalizing init with
  | nil => cases hx
  | cons y ys ih =>
      rcases List.mem_cons.mp hx with rfl | hx
      · exact (foldl_keepBest_le_init ys _).trans (keepBest_le_of_ok init hok)
      · exact ih _ hx

/-- `x` is the first admissible candidate of `xs` with the least key, and beats
    the bound `top`. -/
structure FirstBest (ok : α → Bool) (key : α → K) (top : K) (xs : List α) (x : α) : Prop where
  admissible : ok x = true
  lt_top : key x < top
  split : ∃ pre post, xs = pre ++ x :: post ∧ ∀ y ∈ pre, ok y = true → key x < key y
  le : ∀ y ∈ xs, ok y = true → key x ≤ key y

theorem FirstBest.mem {top : K} {xs : List α} {x : α} (h : FirstBest ok key top xs x) :
    x ∈ xs := by
  obtain ⟨pre, post, rfl, -⟩ := h.split
  simp

/-- The record left by a visit is the initial one or the first best candidate. -/
theorem foldl_keepBest_cases (xs : List α) (init : α) :
    xs.foldl (keepBest ok key) init = init ∨
      FirstBest ok key (key init) xs (xs.foldl (keepBest ok key) init) := by
  induction xs using List.reverseRecOn with
  | nil => exact Or.inl rfl
  | append_singleton xs x ih =>
      rw [List.foldl_append, List.foldl_cons, List.foldl_nil]
      have hle : ∀ y ∈ xs, ok y = true → key (xs.foldl (keepBest ok key) init) ≤ key y :=
        fun y hy hok => foldl_keepBest_le_of_mem init hy hok
      by_cases hbetter : ok x = true ∧ key x < key (xs.foldl (keepBest ok key) init)
      · -- The last candidate beats everything before it.
        rw [keepBest_of_better hbetter.1 hbetter.2]
        refine Or.inr ⟨hbetter.1, hbetter.2.trans_le (foldl_keepBest_le_init xs init),
          ⟨xs, [], rfl, fun y hy hok => hbetter.2.trans_le (hle y hy hok)⟩, ?_⟩
        intro y hy hok
        rcases List.mem_append.mp hy with hy | hy
        · exact hbetter.2.le.trans (hle y hy hok)
        · rw [List.mem_singleton.mp hy]
      · rw [keepBest_of_not_better hbetter]
        rcases ih with hinit | hbest
        · exact Or.inl hinit
        · obtain ⟨pre, post, hxs, hpre⟩ := hbest.split
          refine Or.inr ⟨hbest.admissible, hbest.lt_top, ⟨pre, post ++ [x], ?_, hpre⟩, ?_⟩
          · conv_lhs => rw [hxs]
            simp
          · intro y hy hok
            rcases List.mem_append.mp hy with hy | hy
            · exact hbest.le y hy hok
            · rw [List.mem_singleton.mp hy] at hok ⊢
              exact not_lt.mp fun hlt => hbetter ⟨hok, hlt⟩

/-- Among numbers, an admissible start is left for the least admissible one. -/
theorem foldl_keepBest_isLeast {ok : K → Bool} (xs : List K) {init : K} (hinit : ok init = true) :
    IsLeast {x | (x = init ∨ x ∈ xs) ∧ ok x = true} (xs.foldl (keepBest ok id) init) := by
  constructor
  · rcases @foldl_keepBest_cases _ _ _ ok id xs init with hsame | hbest
    · rw [hsame]
      exact ⟨Or.inl rfl, hinit⟩
    · exact ⟨Or.inr hbest.mem, hbest.admissible⟩
  · rintro x ⟨rfl | hx, hok⟩
    · exact @foldl_keepBest_le_init _ _ _ ok id xs x
    · exact @foldl_keepBest_le_of_mem _ _ _ ok id xs init x hx hok

/-- One admissible candidate below the initial key is enough to leave it. -/
theorem foldl_keepBest_of_exists {xs : List α} {init x : α} (hx : x ∈ xs)
    (hok : ok x = true) (hlt : key x < key init) :
    FirstBest ok key (key init) xs (xs.foldl (keepBest ok key) init) := by
  rcases @foldl_keepBest_cases _ _ _ ok key xs init with hinit | hbest
  · have hle := @foldl_keepBest_le_of_mem _ _ _ ok key _ init _ hx hok
    rw [hinit] at hle
    exact absurd hlt (not_lt.mpr hle)
  · exact hbest

end

/-! ## The first least element -/

/-- `x`, at index `i`, is the first element of `xs` with the least key. -/
structure FirstLeast (key : α → K) (xs : List α) (x : α) (i : Nat) : Prop where
  split : ∃ pre post, xs = pre ++ x :: post ∧ pre.length = i ∧ ∀ y ∈ pre, key x < key y
  le : ∀ y ∈ xs, key x ≤ key y

section
variable {key : α → K} {xs : List α} {x : α} {i : Nat}

theorem firstLeast_singleton (key : α → K) (x : α) : FirstLeast key [x] x 0 :=
  ⟨⟨[], [], rfl, rfl, fun y hy => (by cases hy)⟩, fun y hy => by rw [List.mem_singleton.mp hy]⟩

/-- A last element that is strictly smaller takes over. -/
theorem FirstLeast.append_of_lt (h : FirstLeast key xs x i) {y : α} (hlt : key y < key x) :
    FirstLeast key (xs ++ [y]) y xs.length := by
  have hall : ∀ z ∈ xs, key y < key z := fun z hz => hlt.trans_le (h.le z hz)
  refine ⟨⟨xs, [], rfl, rfl, hall⟩, fun z hz => ?_⟩
  rcases List.mem_append.mp hz with hz | hz
  · exact (hall z hz).le
  · rw [List.mem_singleton.mp hz]

/-- Any other last element leaves the first least one. -/
theorem FirstLeast.append_of_le (h : FirstLeast key xs x i) {y : α} (hle : key x ≤ key y) :
    FirstLeast key (xs ++ [y]) x i := by
  obtain ⟨pre, post, hxs, hlength, hpre⟩ := h.split
  refine ⟨⟨pre, post ++ [y], ?_, hlength, hpre⟩, fun z hz => ?_⟩
  · rw [hxs, List.append_assoc, List.cons_append]
  · rcases List.mem_append.mp hz with hz | hz
    · exact h.le z hz
    · rw [List.mem_singleton.mp hz]
      exact hle

end

end Destiny.Lib
