/-
  Destiny.Lib.Scratch

  A value scanned through a buffer that others scan into as well.

  A scan that fails leaves the buffer with what an earlier scan left, and the value is
  then taken from there.  `Scratch.step` is one scan; what a run of them ends with is
  decided by the last scan of the value (`lastOwn`, `foldl_step_own`).
-/

import Mathlib.Data.List.Induction

namespace Destiny.Lib

/-- A scan into the buffer: of another value, or of the value itself, which may fail. -/
inductive Scratch (V : Type*) where
  | other (v : V)
  | own (v : Option V)
  deriving DecidableEq

variable {V : Type*}

/-- What the scan stores in the buffer. -/
def Scratch.value : Scratch V → Option V
  | .other v => some v
  | .own v => v

/-- The buffer and the value, behind a scan. -/
def Scratch.step (x : V × V) : Scratch V → V × V
  | .other v => (v, x.2)
  | .own (some v) => (v, v)
  | .own none => (x.1, x.1)

/-- The last scan of the value, the last scans first: what it stored, or what was last
    stored in front of it. -/
def lastOwn : List (Scratch V) → Option V
  | [] => none
  | .other _ :: xs => lastOwn xs
  | .own (some v) :: _ => some v
  | .own none :: xs => (xs.filterMap Scratch.value).head?

theorem foldl_step_buffer (xs : List (Scratch V)) (t x : V) :
    (xs.foldl Scratch.step (t, x)).1 = ((xs.reverse.filterMap Scratch.value).head?).getD t := by
  induction xs using List.reverseRecOn with
  | nil => rfl
  | append_singleton xs a ih =>
      rw [List.foldl_append, List.foldl_cons, List.foldl_nil, List.reverse_append]
      cases a with
      | other v => rfl
      | own v =>
          cases v with
          | none => exact ih
          | some v => rfl

/-- The value ends with its last scan, or as the buffer or the value was. -/
theorem foldl_step_own (xs : List (Scratch V)) (t x : V) :
    (∀ v, lastOwn xs.reverse = some v → (xs.foldl Scratch.step (t, x)).2 = v) ∧
      (lastOwn xs.reverse = none → (xs.foldl Scratch.step (t, x)).2 = t ∨
        (xs.foldl Scratch.step (t, x)).2 = x) := by
  induction xs using List.reverseRecOn with
  | nil => exact ⟨fun v h => (by cases h), fun _ => .inr rfl⟩
  | append_singleton xs a ih =>
      rw [List.foldl_append, List.foldl_cons, List.foldl_nil, List.reverse_append]
      cases a with
      | other v => exact ih
      | own v =>
          cases v with
          | some w => exact ⟨fun v h => Option.some.inj h, fun h => (by cases h)⟩
          | none =>
              -- the scan fails: the value is what the buffer holds
              have hbuffer := foldl_step_buffer xs t x
              show (∀ v, (xs.reverse.filterMap Scratch.value).head? = some v →
                (xs.foldl Scratch.step (t, x)).1 = v) ∧
                ((xs.reverse.filterMap Scratch.value).head? = none →
                  (xs.foldl Scratch.step (t, x)).1 = t ∨ (xs.foldl Scratch.step (t, x)).1 = x)
              rw [hbuffer]
              exact ⟨fun v h => (by rw [h]; rfl), fun h => .inl (by rw [h]; rfl)⟩

/-- Scans of other values behind it do not change the last scan. -/
theorem lastOwn_append_other {xs ys : List (Scratch V)} (h : ∀ y ∈ ys, ∃ v, y = .other v) :
    lastOwn (xs ++ ys).reverse = lastOwn xs.reverse := by
  induction ys using List.reverseRecOn with
  | nil => rw [List.append_nil]
  | append_singleton ys y ih =>
      obtain ⟨v, rfl⟩ := h y (List.mem_append_right _ List.mem_cons_self)
      rw [← List.append_assoc, List.reverse_append]
      exact ih fun z hz => h z (List.mem_append_left _ hz)

/-- What the last scan says was stored by some scan. -/
theorem exists_value_of_lastOwn {xs : List (Scratch V)} {v : V} (h : lastOwn xs = some v) :
    ∃ x ∈ xs, x.value = some v := by
  induction xs with
  | nil => cases h
  | cons x xs ih =>
      have hlater (h : lastOwn xs = some v) : ∃ y ∈ x :: xs, y.value = some v := by
        obtain ⟨y, hy, hv⟩ := ih h
        exact ⟨y, List.mem_cons_of_mem _ hy, hv⟩
      cases x with
      | other w => exact hlater h
      | own w =>
          cases w with
          | some w => exact ⟨_, List.mem_cons_self, h⟩
          | none =>
              obtain ⟨y, hy, hv⟩ := List.mem_filterMap.mp (List.mem_of_head? h)
              exact ⟨y, List.mem_cons_of_mem _ hy, hv⟩

end Destiny.Lib
