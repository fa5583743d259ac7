/-
  Destiny.Sweep.CapacityLines

  The substitutions of the capacity in `run_single_simulation`, on any template.

  The white space of `-Capacity\s*\(KB\):.*` may run over newlines, so that a match may
  take several lines.  What stands in front of it stays, and the further lines of the
  match are `Lost`: white space, or white space and a bracket.  `CapacitySwapped` relates
  the lines before and after; what a look at single lines sees does not change when it is
  `Blind` to both (`CapacitySwapped.filterMap_eq`), and every capacity becomes that of the
  job (`CapacitySwapped.megabytes`, `CapacitySwapped.kilobytes`).
-/

import Destiny.Sweep.TemplateLines

namespace Destiny.Sweep

open Lib

/-! ## Matches over several lines -/

theorem capacityHead_eq_some {unit t r : List Char} (h : capacityHead unit t = some r) :
    ∃ ws, (∀ c ∈ ws, isPySpace c = true) ∧
      t = "-Capacity".toList ++ (ws ++ (unit ++ ":".toList ++ r)) := by
  obtain ⟨u, hu, hr⟩ := Option.bind_eq_some_iff.mp h
  refine ⟨u.takeWhile isPySpace, fun c hc => List.mem_takeWhile_imp hc, ?_⟩
  rw [← stripPrefix_eq_some.mp hr, List.takeWhile_append_dropWhile, ← stripPrefix_eq_some.mp hu]

theorem free_capacity {unit : List Char} (hunit : unit.head? = some '(') :
    (capacityPattern unit).Free where
  anchored := rfl
  shorter t r h := by
    obtain ⟨u, hu, hr⟩ := Option.bind_eq_some_iff.mp h
    have hle := ((suffix_of_stripPrefix hr).trans (List.dropWhile_suffix _)).length_le
    rw [stripPrefix_eq_some.mp hu, List.length_append]
    have hpos : 0 < "-Capacity".toList.length := by decide
    omega
  grows t u h := by
    obtain ⟨r, hr⟩ := Option.isSome_iff_exists.mp h
    obtain ⟨ws, hws, rfl⟩ := capacityHead_eq_some hr
    obtain ⟨z, rfl⟩ := List.head?_eq_some_iff.mp hunit
    have hdrop : (ws ++ ('(' :: z ++ ":".toList ++ r) ++ u).dropWhile isPySpace =
        '(' :: z ++ ":".toList ++ (r ++ u) := by
      rw [List.append_assoc, List.dropWhile_append_of_pos hws]
      simp [show isPySpace '(' = false by decide]
    show (capacityHead ('(' :: z)
      ("-Capacity".toList ++ (ws ++ ('(' :: z ++ ":".toList ++ r)) ++ u)).isSome = true
    rw [capacityHead, List.append_assoc, stripPrefix_append, Option.bind_some, hdrop,
      stripPrefix_append]
    rfl
  newline t := rfl

/-- White space, alone or in front of a bracket: a line that a match may run over. -/
def Lost (l : List Char) : Prop :=
  ∃ ws, (∀ c ∈ ws, isPySpace c = true) ∧ (l = ws ∨ ∃ z, l = ws ++ '(' :: z)

theorem lost_of_mem_splitOn {ws z : List Char} (hws : ∀ c ∈ ws, isPySpace c = true)
    (hz : '\n' ∉ z) : ∀ l ∈ (ws ++ '(' :: z).splitOn '\n', Lost l := by
  induction ws with
  | nil =>
      have hmem : '\n' ∉ '(' :: z := by
        rw [List.mem_cons, not_or]
        exact ⟨by decide, hz⟩
      rw [List.nil_append, List.splitOn_eq_singleton hmem]
      intro l hl
      rw [List.mem_singleton.mp hl]
      exact ⟨[], fun _ h => absurd h List.not_mem_nil, .inr ⟨z, rfl⟩⟩
  | cons c ws ih =>
      obtain ⟨hc, hrest⟩ := List.forall_mem_cons.mp hws
      have ih := ih hrest
      by_cases hn : c = '\n'
      · subst hn
        rw [List.cons_append, splitOn_newline]
        exact List.forall_mem_cons.mpr
          ⟨⟨[], fun _ h => absurd h List.not_mem_nil, .inl rfl⟩, ih⟩
      · rw [List.cons_append, splitOn_cons_of_ne hn]
        obtain ⟨l, ls, hsplit⟩ := List.exists_cons_of_ne_nil
          (List.splitOn_ne_nil '\n' (ws ++ '(' :: z))
        rw [hsplit] at ih ⊢
        obtain ⟨⟨ws', hws', hl⟩, hls⟩ := List.forall_mem_cons.mp ih
        refine List.forall_mem_cons.mpr ⟨⟨c :: ws', List.forall_mem_cons.mpr ⟨hc, hws'⟩, ?_⟩, hls⟩
        rcases hl with rfl | ⟨z', rfl⟩
        · exact .inl rfl
        · exact .inr ⟨z', rfl⟩

/-- The lines of a match. -/
theorem splitOn_match {unit u body rest r : List Char} (hunit : ∃ z, unit = '(' :: z ∧ '\n' ∉ z)
    (hu : '\n' ∉ u) (hmatch : capacityHead unit (body ++ rest) = some r)
    (hend : r.dropWhile (fun c => c ≠ '\n') = rest) :
    ∃ a ls, "apacity".toList <+: a ∧
      (u ++ body).splitOn '\n' = (u ++ '-' :: 'C' :: a) :: ls ∧ ∀ l ∈ ls, Lost l := by
  obtain ⟨z, rfl, hz⟩ := hunit
  obtain ⟨ws, hws, hline⟩ := capacityHead_eq_some hmatch
  have hr := List.takeWhile_append_dropWhile (p := fun c => decide (c ≠ '\n')) (l := r)
  rw [hend] at hr
  have hclean : '\n' ∉ z ++ ":".toList ++ r.takeWhile fun c => decide (c ≠ '\n') := by
    rw [List.mem_append, List.mem_append, not_or, not_or]
    refine ⟨⟨hz, by decide⟩, fun hmem => ?_⟩
    simpa using List.mem_takeWhile_imp hmem
  -- a match is the key, white space that may hold newlines, the unit, and the rest of a line
  have hbody : body = "-Capacity".toList ++
      (ws ++ '(' :: (z ++ ":".toList ++ r.takeWhile fun c => decide (c ≠ '\n'))) := by
    refine List.append_cancel_right (?_ : body ++ rest = _ ++ rest)
    rw [hline]
    conv_lhs => rw [← hr]
    simp only [List.append_assoc, List.cons_append]
  have hfront : '\n' ∉ u ++ "-Capacity".toList := by
    rw [List.mem_append, not_or]
    exact ⟨hu, by decide⟩
  have hlost := lost_of_mem_splitOn hws hclean
  rw [hbody, ← List.append_assoc, splitOn_append_of_not_mem hfront]
  obtain ⟨l, ls, hsplit⟩ := List.exists_cons_of_ne_nil (List.splitOn_ne_nil '\n'
    (ws ++ '(' :: (z ++ ":".toList ++ r.takeWhile fun c => decide (c ≠ '\n'))))
  rw [hsplit] at hlost ⊢
  refine ⟨"apacity".toList ++ l, ls, List.prefix_append _ l, ?_,
    (List.forall_mem_cons.mp hlost).2⟩
  rw [List.modifyHead_cons, List.append_assoc]
  rfl

/-- What a capacity substitution makes of the lines: one that does not start with a match
    stays, one with a match keeps what stands in front of it, and the further lines of a
    match are lost. -/
inductive CapacitySwapped (unit repl : List Char) :
    List (List Char) → List (List Char) → Prop
  | nil : CapacitySwapped unit repl [] []
  | keep {l : List Char} {ls ms : List (List Char)} (hl : '\n' ∉ l)
      (hnone : capacityHead unit (skipSpace l) = none) (hrest : CapacitySwapped unit repl ls ms) :
      CapacitySwapped unit repl (l :: ls) (l :: ms)
  | swap {u a : List Char} {ls ms : List (List Char)} (hu : '\n' ∉ u)
      (ha : "apacity".toList <+: a)
      (hnone : capacityHead unit (skipSpace u) = none) (hrest : CapacitySwapped unit repl ls ms) :
      CapacitySwapped unit repl ((u ++ '-' :: 'C' :: a) :: ls) ((u ++ repl) :: ms)
  | lost {l : List Char} {ls ms : List (List Char)} (hl : Lost l)
      (hrest : CapacitySwapped unit repl ls ms) : CapacitySwapped unit repl (l :: ls) ms

theorem CapacitySwapped.append_lost {unit repl : List Char} {ls ms ds : List (List Char)}
    (h : CapacitySwapped unit repl ls ms) (hds : ∀ l ∈ ds, Lost l) :
    CapacitySwapped unit repl (ds ++ ls) ms := by
  induction ds with
  | nil => exact h
  | cons l ds ih =>
      obtain ⟨hl, hrest⟩ := List.forall_mem_cons.mp hds
      exact .lost hl (ih hrest)

theorem CapacitySwapped.of_swapped {unit repl : List Char} {ls ms : List (List Char)}
    (hunit : ∃ z, unit = '(' :: z ∧ '\n' ∉ z) (hrepl : '\n' ∉ repl)
    (h : LinePattern.Swapped (capacityPattern unit) repl ls ms) :
    CapacitySwapped unit repl ls ms := by
  induction h with
  | nil => exact .nil
  | keep hl hnone _ ih => exact .keep hl (hnone _ (List.dropWhile_suffix _)) ih
  | @swap u body rest r ls ms hu hfirst hmatch hend _ ih =>
      obtain ⟨a, ds, ha, hlines, hds⟩ := splitOn_match hunit hu hmatch hend
      have hclean : '\n' ∉ u ++ repl := by
        rw [List.mem_append, not_or]
        exact ⟨hu, hrepl⟩
      rw [hlines, List.splitOn_eq_singleton hclean]
      exact .swap hu ha (hfirst _ (List.dropWhile_suffix _)) (ih.append_lost hds)

/-! ## Looks at single lines -/

section
variable {unit repl : List Char} {ls ms : List (List Char)}

/-- What a reader of single lines may look at so that the substitutions do not change it: the
    line up to a capacity, and nothing on the lines of a match but its first. -/
structure Blind {β : Type} (W : List Char → Option β) : Prop where
  congr : ∀ u a b, "apacity".toList <+: a → "apacity".toList <+: b →
    W (u ++ '-' :: 'C' :: a) = W (u ++ '-' :: 'C' :: b)
  lost : ∀ l, Lost l → W l = none

theorem CapacitySwapped.filterMap_eq {β : Type} {W : List Char → Option β} (hW : Blind W)
    (hstart : ∃ b, repl = '-' :: 'C' :: b ∧ "apacity".toList <+: b)
    (h : CapacitySwapped unit repl ls ms) : ms.filterMap W = ls.filterMap W := by
  obtain ⟨b, rfl, hb⟩ := hstart
  induction h with
  | nil => rfl
  | keep _ _ _ ih => rw [List.filterMap_cons, List.filterMap_cons, ih]
  | @swap u a ls ms _ ha _ _ ih =>
      rw [List.filterMap_cons, List.filterMap_cons, ih, hW.congr u b a hb ha]
  | lost hl _ ih => rw [List.filterMap_cons, hW.lost _ hl, ih]

theorem CapacitySwapped.of_mem {m : List Char} (h : CapacitySwapped unit repl ls ms)
    (hm : m ∈ ms) : m ∈ ls ∧ capacityHead unit (skipSpace m) = none ∨
      ∃ u a, u ++ '-' :: 'C' :: a ∈ ls ∧ capacityHead unit (skipSpace u) = none ∧
        m = u ++ repl := by
  have hlater {l : List Char} {ls : List (List Char)}
      (h : m ∈ ls ∧ capacityHead unit (skipSpace m) = none ∨
        ∃ u a, u ++ '-' :: 'C' :: a ∈ ls ∧ capacityHead unit (skipSpace u) = none ∧
          m = u ++ repl) : m ∈ l :: ls ∧ capacityHead unit (skipSpace m) = none ∨
        ∃ u a, u ++ '-' :: 'C' :: a ∈ l :: ls ∧ capacityHead unit (skipSpace u) = none ∧
          m = u ++ repl := by
    rcases h with ⟨hmem, hnone⟩ | ⟨u, a, hmem, hnone, rfl⟩
    · exact .inl ⟨List.mem_cons_of_mem _ hmem, hnone⟩
    · exact .inr ⟨u, a, List.mem_cons_of_mem _ hmem, hnone, rfl⟩
  induction h with
  | nil => cases hm
  | keep _ hnone _ ih =>
      rcases List.mem_cons.mp hm with rfl | hm
      · exact .inl ⟨List.mem_cons_self, hnone⟩
      · exact hlater (ih hm)
  | @swap u a ls ms _ _ hnone _ ih =>
      rcases List.mem_cons.mp hm with rfl | hm
      · exact .inr ⟨u, a, List.mem_cons_self, hnone, rfl⟩
      · exact hlater (ih hm)
  | lost _ _ ih => exact hlater (ih hm)

theorem CapacitySwapped.mem {l : List Char} (h : CapacitySwapped unit repl ls ms)
    (hl : l ∈ ls) : l ∈ ms ∧ capacityHead unit (skipSpace l) = none ∨ Lost l ∨
      ∃ u a, l = u ++ '-' :: 'C' :: a ∧ capacityHead unit (skipSpace u) = none ∧
        u ++ repl ∈ ms := by
  have hlater {m : List Char} {ms : List (List Char)}
      (h : l ∈ ms ∧ capacityHead unit (skipSpace l) = none ∨ Lost l ∨
        ∃ u a, l = u ++ '-' :: 'C' :: a ∧ capacityHead unit (skipSpace u) = none ∧
          u ++ repl ∈ ms) : l ∈ m :: ms ∧ capacityHead unit (skipSpace l) = none ∨ Lost l ∨
        ∃ u a, l = u ++ '-' :: 'C' :: a ∧ capacityHead unit (skipSpace u) = none ∧
          u ++ repl ∈ m :: ms := by
    rcases h with ⟨hmem, hnone⟩ | hlost | ⟨u, a, rfl, hnone, hmem⟩
    · exact .inl ⟨List.mem_cons_of_mem _ hmem, hnone⟩
    · exact .inr (.inl hlost)
    · exact .inr (.inr ⟨u, a, rfl, hnone, List.mem_cons_of_mem _ hmem⟩)
  induction h with
  | nil => cases hl
  | keep _ hnone _ ih =>
      rcases List.mem_cons.mp hl with rfl | hl
      · exact .inl ⟨List.mem_cons_self, hnone⟩
      · exact hlater (ih hl)
  | @swap u a ls ms _ _ hnone _ ih =>
      rcases List.mem_cons.mp hl with rfl | hl
      · exact .inr (.inr ⟨u, a, rfl, hnone, List.mem_cons_self⟩)
      · exact hlater (ih hl)
  | lost hlost _ ih =>
      rcases List.mem_cons.mp hl with rfl | hl
      · exact .inr (.inl hlost)
      · exact ih hl

end

/-! ## The capacity of the job -/

/-- A lost line does not start with a dash. -/
theorem Lost.skipSpace_ne {l t : List Char} (h : Lost l) : skipSpace l ≠ '-' :: t := by
  obtain ⟨ws, hws, hl⟩ := h
  intro hskip
  have hmem : '-' ∈ ws ∨ ∃ z, skipSpace l = '(' :: z := by
    rcases hl with rfl | ⟨z, rfl⟩
    · refine .inl ?_
      have hsuffix : skipSpace l <:+ l := List.dropWhile_suffix _
      exact hsuffix.subset (hskip ▸ List.mem_cons_self)
    · by_cases hblank : skipSpace ws = []
      · refine .inr ⟨z, ?_⟩
        rw [skipSpace_append_of_blank hblank, skipSpace_cons_of_not (by decide)]
      · rw [skipSpace_append hblank] at hskip
        obtain ⟨c, w, hw⟩ := List.exists_cons_of_ne_nil hblank
        rw [hw, List.cons_append] at hskip
        obtain rfl := (List.cons.inj hskip).1
        have hsuffix : skipSpace ws <:+ ws := List.dropWhile_suffix _
        exact .inl (hsuffix.subset (hw ▸ List.mem_cons_self))
  rcases hmem with hmem | ⟨z, hz⟩
  · have h := hws _ hmem
    cases h
  · rw [hz] at hskip
    cases (List.cons.inj hskip).1

theorem Lost.optionOf_ne {l : List Char} (h : Lost l) (o : ConfigOption) :
    optionOf l ≠ some o := by
  intro ho
  obtain ⟨-, -, c, k, hkey, -⟩ := key_shape o
  obtain ⟨r, hr⟩ := key_prefix_of_optionOf ho
  rw [hkey] at hr
  exact h.skipSpace_ne hr.symm

section
variable {cap : List Char} {ls ms : List (List Char)}

/-- Behind something other than white space, a dash ends what is compared. -/
theorem prefix_dash_iff {k u : List Char} (hk : '-' ∉ k.tail) (hu : skipSpace u ≠ [])
    (a : List Char) : k <+: skipSpace (u ++ '-' :: a) ↔ k <+: skipSpace u := by
  rw [skipSpace_append hu, prefix_append_iff_of_tail hk hu]

theorem capacityHead_of_isKB {l : List Char} (h : IsKB l) :
    capacityHead "(KB)".toList (skipSpace l) ≠ none :=
  Option.isSome_iff_ne_none.mp (isSome_capacityHead rfl h)

theorem capacityHead_of_isMB {l : List Char} (h : IsMB l) :
    capacityHead "(MB)".toList (skipSpace l) ≠ none :=
  Option.isSome_iff_ne_none.mp (isSome_capacityHead rfl h)

theorem IsKB.dash_iff {u : List Char} (hu : skipSpace u ≠ []) (a : List Char) :
    IsKB (u ++ '-' :: a) ↔ IsKB u := prefix_dash_iff (by decide) hu a

theorem IsMB.dash_iff {u : List Char} (hu : skipSpace u ≠ []) (a : List Char) :
    IsMB (u ++ '-' :: a) ↔ IsMB u := prefix_dash_iff (by decide) hu a

theorem skipSpace_capacity {u : List Char} (hu : skipSpace u = []) :
    skipSpace (u ++ capacitySetting cap) = capacitySetting cap := by
  rw [skipSpace_append_of_blank hu, skipSpace_capacitySetting]

theorem isKB_of_skipSpace {l : List Char} (h : skipSpace l = capacitySetting cap) : IsKB l := by
  unfold IsKB
  rw [h]
  exact kb_prefix_capacitySetting cap

theorem Lost.not_isKB {l : List Char} (h : Lost l) : ¬ IsKB l := fun ⟨_, hr⟩ =>
  h.skipSpace_ne hr.symm

theorem Lost.not_isMB {l : List Char} (h : Lost l) : ¬ IsMB l := fun ⟨_, hr⟩ =>
  h.skipSpace_ne hr.symm

/-- Behind the first substitution the active capacities are in KB. -/
theorem CapacitySwapped.megabytes
    (h : CapacitySwapped "(MB)".toList (capacitySetting cap) ls ms)
    (hactive : ∀ o ∈ [ConfigOption.capacityB, .capacityKB, .capacityMB],
      ∀ l ∈ taken o ls, isCapacityLine l = true)
    (hsome : ∃ l ∈ ls, isCapacityLine l = true) :
    (∀ o ∈ [ConfigOption.capacityB, .capacityKB, .capacityMB], ∀ l ∈ taken o ms, IsKB l) ∧
      ∃ l ∈ ms, IsKB l := by
  constructor
  · intro o ho l hl
    obtain ⟨hms, hoption⟩ := mem_taken.mp hl
    rcases h.of_mem hms with ⟨hmem, hnone⟩ | ⟨u, a, hmem, hnone, rfl⟩
    · rcases isCapacityLine_iff.mp (hactive o ho l (mem_taken.mpr ⟨hmem, hoption⟩)) with hl | hl
      · exact hl
      · exact absurd hnone (capacityHead_of_isMB hl)
    · by_cases hu : skipSpace u = []
      · exact isKB_of_skipSpace (skipSpace_capacity hu)
      · rw [capacitySetting, setting, optionOf_congr hu (b := 'C' :: a)] at hoption
        rw [capacitySetting, setting, IsKB.dash_iff hu]
        rcases isCapacityLine_iff.mp (hactive o ho _ (mem_taken.mpr ⟨hmem, hoption⟩)) with hl | hl
        · rwa [IsKB.dash_iff hu] at hl
        · rw [IsMB.dash_iff hu] at hl
          exact absurd hnone (capacityHead_of_isMB hl)
  · obtain ⟨l, hmem, hl⟩ := hsome
    rcases h.mem hmem with ⟨hmem, hnone⟩ | hlost | ⟨u, a, rfl, hnone, hmem⟩
    · rcases isCapacityLine_iff.mp hl with hl | hl
      · exact ⟨l, hmem, hl⟩
      · exact absurd hnone (capacityHead_of_isMB hl)
    · rcases isCapacityLine_iff.mp hl with hl | hl
      · exact absurd hl hlost.not_isKB
      · exact absurd hl hlost.not_isMB
    · refine ⟨_, hmem, ?_⟩
      by_cases hu : skipSpace u = []
      · exact isKB_of_skipSpace (skipSpace_capacity hu)
      · rw [capacitySetting, setting, IsKB.dash_iff hu]
        rcases isCapacityLine_iff.mp hl with hl | hl
        · rwa [IsKB.dash_iff hu] at hl
        · rw [IsMB.dash_iff hu] at hl
          exact absurd hnone (capacityHead_of_isMB hl)

/-- Behind the second they are that of the job. -/
theorem CapacitySwapped.kilobytes
    (h : CapacitySwapped "(KB)".toList (capacitySetting cap) ls ms)
    (hactive : ∀ o ∈ [ConfigOption.capacityB, .capacityKB, .capacityMB],
      ∀ l ∈ taken o ls, IsKB l)
    (hsome : ∃ l ∈ ls, IsKB l) :
    (∀ o ∈ [ConfigOption.capacityB, .capacityKB, .capacityMB],
      ∀ l ∈ taken o ms, skipSpace l = capacitySetting cap) ∧
      ∃ l ∈ ms, skipSpace l = capacitySetting cap := by
  constructor
  · intro o ho l hl
    obtain ⟨hms, hoption⟩ := mem_taken.mp hl
    rcases h.of_mem hms with ⟨hmem, hnone⟩ | ⟨u, a, hmem, hnone, rfl⟩
    · exact absurd hnone (capacityHead_of_isKB (hactive o ho l (mem_taken.mpr ⟨hmem, hoption⟩)))
    · by_cases hu : skipSpace u = []
      · exact skipSpace_capacity hu
      · rw [capacitySetting, setting, optionOf_congr hu (b := 'C' :: a)] at hoption
        have hl := hactive o ho _ (mem_taken.mpr ⟨hmem, hoption⟩)
        rw [IsKB.dash_iff hu] at hl
        exact absurd hnone (capacityHead_of_isKB hl)
  · obtain ⟨l, hmem, hl⟩ := hsome
    rcases h.mem hmem with ⟨-, hnone⟩ | hlost | ⟨u, a, rfl, hnone, hmem⟩
    · exact absurd hnone (capacityHead_of_isKB hl)
    · exact absurd hl hlost.not_isKB
    · by_cases hu : skipSpace u = []
      · exact ⟨_, hmem, skipSpace_capacity hu⟩
      · rw [IsKB.dash_iff hu] at hl
        exact absurd hnone (capacityHead_of_isKB hl)

end

end Destiny.Sweep
