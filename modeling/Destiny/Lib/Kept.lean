/-
  Destiny.Lib.Kept

  What a filter keeps of a list, next to the list itself.

  The kept elements stand at their old places exactly when those that fail the
  test come last (`filter_prefix_iff`).  A table over the whole list, read from
  the front, then serves the kept elements as well (`table_kept_iff`).
-/

import Mathlib.Data.List.Basic

namespace Destiny.Lib

section
variable {α β : Type} {p : α → Bool} {l : List α}

/-- The elements that pass come first. -/
def KeptFirst (p : α → Bool) (l : List α) : Prop :=
  ∃ kept dropped, l = kept ++ dropped ∧ (∀ a ∈ kept, p a = true) ∧ ∀ a ∈ dropped, p a = false

theorem filter_prefix_iff : l.filter p <+: l ↔ KeptFirst p l := by
  constructor
  · rintro ⟨rest, hrest⟩
    -- the rest adds nothing to what the filter keeps
    have hnil : rest.filter p = [] := by
      have hfilter := congrArg (List.filter p) hrest
      rw [List.filter_append, List.filter_filter] at hfilter
      simpa using hfilter
    refine ⟨l.filter p, rest, hrest.symm, fun a ha => (List.mem_filter.mp ha).2, fun a ha => ?_⟩
    simpa using List.filter_eq_nil_iff.mp hnil a ha
  · rintro ⟨kept, dropped, rfl, hkept, hdropped⟩
    have hnil : dropped.filter p = [] :=
      List.filter_eq_nil_iff.mpr fun a ha => by simp [hdropped a ha]
    rw [List.filter_append, List.filter_eq_self.mpr hkept, hnil, List.append_nil]
    exact List.prefix_append _ _

/-- Every kept element stands at its old place. -/
theorem filter_prefix_iff_getElem? :
    l.filter p <+: l ↔
      ∀ (i : ℕ) (a b : α), (l.filter p)[i]? = some a → l[i]? = some b → a = b := by
  rw [List.prefix_iff_getElem?]
  constructor
  · intro h i a b ha hb
    obtain ⟨hi, rfl⟩ := List.getElem?_eq_some_iff.mp ha
    rw [h i hi] at hb
    exact Option.some.inj hb
  · intro h i hi
    have hlen := List.length_filter_le p l
    rw [List.getElem?_eq_getElem (by omega)]
    rw [h i _ _ (List.getElem?_eq_getElem hi) (List.getElem?_eq_getElem (by omega))]

/-- A table over the list, read at the places of the kept elements. -/
theorem table_kept_iff (value weight : α → β) :
    (∀ (i : ℕ) (a : α), (l.filter p)[i]? = some a → (l.map value)[i]? = some (weight a)) ↔
      ∀ (i : ℕ) (a b : α), (l.filter p)[i]? = some a → l[i]? = some b → value b = weight a := by
  constructor
  · intro h i a b ha hb
    have hval := h i a ha
    rw [List.getElem?_map, hb, Option.map_some] at hval
    exact Option.some.inj hval
  · intro h i a ha
    obtain ⟨hi, -⟩ := List.getElem?_eq_some_iff.mp ha
    have hlen := List.length_filter_le p l
    have hi : i < l.length := by omega
    have hb : l[i]? = some l[i] := List.getElem?_eq_getElem hi
    rw [List.getElem?_map, hb, Option.map_some, h i a _ ha hb]

end

end Destiny.Lib
