/-
  Destiny.Search.Merge

  The merge of the records of several cells.

  `main` goes through the cells after the first and, for each target, compares
  their records with those of the first cell.  Merging at a target reads and
  changes only the records of that target (`Records.merge_apply`).  Without
  design constraints a record is replaced exactly when the other one is strictly
  better, so the merged record is that of the first best cell, and the tag
  record follows it or is merged the same way (`merged_best`).
-/

import Destiny.Search.CellSpace
import Destiny.Search.Provenance

namespace Destiny

open Lib

/-! ## One cell -/

/-- One target of the merge: the record `other` of a cell against the first
    cell's. -/
def Result.mergeFrom (r : Result) (cell : Nat) (other : Result) : Result :=
  if r.accepts other.stored then { r with stored := other.stored, cellTech := cell } else r

/-- The record `other` of a cell in the place of the first cell's. -/
def Result.takeFrom (r : Result) (cell : Nat) (other : Result) : Result :=
  { r with stored := other.stored, cellTech := cell }

section
variable (a : Bool) (cell : Nat) (other first : Records) {t u : Target}

theorem Records.mergeTarget_data_self :
    mergeTarget a cell other first t .data t = (first .data t).mergeFrom cell (other .data t) := by
  have hdata : ∀ (best : Records) (r : Result), best.set .tag t r .data t = best .data t :=
    fun best r => Records.set_of_ne best r (by simp)
  rw [mergeTarget, Result.mergeFrom]
  cases haccepts : (first .data t).accepts (other .data t).stored with
  | true => cases a <;> simp [hdata, Result.compareAndUpdate_of_accepts haccepts]
  | false => cases a <;> simp [hdata, Result.compareAndUpdate_of_not_accepts haccepts]

/-- Tags are merged by themselves, or taken from the cell of a new data record. -/
theorem Records.mergeTarget_tag_self :
    mergeTarget a cell other first t .tag t =
      if a = true then (first .tag t).mergeFrom cell (other .tag t)
      else if (first .data t).accepts (other .data t).stored = true then
        (first .tag t).takeFrom cell (other .tag t)
      else first .tag t := by
  have htag : ∀ (best : Records) (r : Result), best.set .data t r .tag t = best .tag t :=
    fun best r => Records.set_of_ne best r (by simp)
  rw [mergeTarget]
  cases a with
  | true =>
      rw [if_pos rfl, if_pos rfl, Result.mergeFrom, Records.set_self]
      cases haccepts : (first .tag t).accepts (other .tag t).stored with
      | true => simp [Result.compareAndUpdate_of_accepts haccepts]
      | false => simp [Result.compareAndUpdate_of_not_accepts haccepts]
  | false =>
      cases haccepts : (first .data t).accepts (other .data t).stored with
      | true => simp [Result.takeFrom]
      | false => simp [htag]

theorem Records.mergeTarget_of_ne (m : MemoryType) (h : u ≠ t) :
    mergeTarget a cell other first t m u = first m u := by
  have hother : ∀ (best : Records) (n : MemoryType) (r : Result), best.set n t r m u = best m u :=
    fun best n r => Records.set_of_ne best r fun hu => h hu.2
  rw [mergeTarget]
  cases (first .data t).accepts (other .data t).stored <;> cases a <;> simp [hother]

/-- Merging at a target reads only the records of that target. -/
theorem Records.mergeTarget_congr {best : Records} (h : ∀ m, best m t = first m t)
    (m : MemoryType) :
    mergeTarget a cell other best t m t = mergeTarget a cell other first t m t := by
  have hset : ∀ (n : MemoryType) (r : Result) (x y : Records), (∀ m, x m t = y m t) →
      ∀ m, x.set n t r m t = y.set n t r m t := by
    intro n r x y hxy m
    rw [Records.set, Records.set, hxy m]
  rw [mergeTarget, mergeTarget, h .data, h .tag]
  dsimp only
  split
  · exact hset _ _ _ _ (hset _ _ _ _ h) m
  · split
    · exact hset _ _ _ _ (hset _ _ _ _ h) m
    · exact hset _ _ _ _ h m

end

/-- Merging a cell merges the records of each target once. -/
theorem Records.merge_apply (a : Bool) (first : Records) (o : CellOutcome) (cell : Nat)
    (m : MemoryType) (t : Target) :
    Records.merge a first (o, cell) m t = mergeTarget a cell o.best first t m t := by
  -- Over any targets without repetition: merged when listed, else unchanged.
  have hfold : ∀ (ts : List Target) (best : Records), ts.Nodup →
      ts.foldl (Records.mergeTarget a cell o.best) best m t =
        if t ∈ ts then mergeTarget a cell o.best best t m t else best m t := by
    intro ts
    induction ts with
    | nil =>
        intro best _
        rfl
    | cons u us ih =>
        intro best hnodup
        obtain ⟨hnot, hus⟩ := List.nodup_cons.mp hnodup
        rw [List.foldl_cons, ih _ hus]
        by_cases htu : t = u
        · subst htu
          rw [if_neg hnot, if_pos List.mem_cons_self]
        · have hsame : ∀ n, mergeTarget a cell o.best best u n t = best n t :=
            fun n => mergeTarget_of_ne _ _ _ _ n htu
          rw [hsame, mergeTarget_congr _ _ _ _ hsame]
          simp [htu]
  rw [merge, hfold _ _ Target.nodup_all, if_pos (Target.mem_all t)]

/-- Merging a cell merges the data record of each target once. -/
theorem Records.merge_data (a : Bool) (first : Records) (o : CellOutcome) (cell : Nat)
    (t : Target) :
    Records.merge a first (o, cell) .data t =
      (first .data t).mergeFrom cell (o.best .data t) := by
  rw [merge_apply, mergeTarget_data_self]

/-! ## Runs without design constraints -/

def Event.appliesLimits : Event → Bool
  | .limitsApplied _ _ => true
  | _ => false

/-- No limits were applied. -/
def State.Unlimited (s : State) : Prop := ∀ e ∈ s.trace, e.appliesLimits = false

section
variable {s : State}

theorem State.Unlimited.emitAll (h : s.Unlimited) {es : List Event}
    (hes : ∀ e ∈ es, e.appliesLimits = false) : (s.emitAll es).Unlimited := by
  intro e he
  rcases List.mem_append.mp he with he | he
  · exact h e he
  · exact hes e he

theorem State.Unlimited.emit (h : s.Unlimited) {e : Event} (he : e.appliesLimits = false) :
    (s.emit e).Unlimited :=
  h.emitAll fun x hx => by rwa [List.mem_singleton.mp hx]

theorem State.Unlimited.record (h : s.Unlimited) (v : Visit) : (s.record v).Unlimited := by
  intro e he
  rw [State.record_trace] at he
  rcases List.mem_append.mp he with he | he
  · exact h e he
  · obtain ⟨t, -, rfl⟩ := List.mem_map.mp he
    rfl

theorem State.Unlimited.TRY_AND_UPDATE (h : s.Unlimited) (w : World) (stage : Stage)
    (m : MemoryType) (t : Target) : (s.TRY_AND_UPDATE w stage m t).Unlimited :=
  (h.emit (e := .evaluated _) rfl).emit (e := .compared _ _ _) rfl

end

def Phase.limited : Phase → Bool
  | .constrained _ => true
  | _ => false

/-- Up to the exploration under constraints no limits are applied. -/
theorem unlimited_invariant (w : World) (file : List OptionLine) (loaded : InputParameter) :
    NvsimInvariant w file loaded fun phase s => phase.limited = false → s.Unlimited where
  setInput _ h := h
  setWires _ _ h := h
  startTag _ _ h _ := (h rfl).emit rfl
  skipTag _ h _ := h rfl
  startData _ h _ := (h rfl).emit rfl
  setLayers _ _ h := h
  visit _ _ _ _ _ _ h hphase := (h hphase).emit rfl
  record _ _ _ _ _ h hphase := (h hphase).record _
  output _ _ _ _ _ _ h hphase := (h hphase).emitAll fun e he => by
    obtain ⟨tag, -, rfl⟩ := State.mem_tempRows he
    rfl
  startRefine _ h _ := h rfl
  tryLocal _ _ _ h hphase := (h hphase).TRY_AND_UPDATE _ _ _ _
  tryGlobal _ _ _ h hphase := (h hphase).TRY_AND_UPDATE _ _ _ _
  restore _ h _ := h rfl
  exploreNone _ h _ := h rfl
  exploreSome _ h _ := h rfl
  prune _ _ _ h hphase := (h hphase).emitAll fun e he => by
    obtain ⟨t, tag, -, rfl⟩ := State.mem_prunedRows he
    rfl
  limit _ _ hphase := by cases hphase

theorem unlimited_runInvariant {w : World} {file : List OptionLine}
    (hunconstrained : ¬ (w.loaded file).constrains) :
    RunInvariant w file (fun phase s => phase.limited = false → s.Unlimited) State.Unlimited where
  toNvsimInvariant := unlimited_invariant w file (w.loaded file)
  load e he := by
    rw [State.load_initial_trace] at he
    cases he
  enter _ _ h _ := h.emit (e := .cellFile _ _) rfl
  fail _ h := h rfl
  leave _ h := by
    rcases h with ⟨-, h⟩ | ⟨hconstrains, -⟩
    · exact h rfl
    · exact absurd hconstrains hunconstrained

/-- Records that were never limited have no limits. -/
theorem State.Unlimited.limitsIn {s : State} (h : s.Unlimited) (cell : Nat) (m : MemoryType) :
    limitsIn cell m s.trace = .unset := by
  rw [Destiny.limitsIn]
  split
  · cases hlast : lastSome (setsLimits cell) s.trace with
    | none => rfl
    | some limits =>
        obtain ⟨e, he, hset⟩ := exists_of_lastSome hlast
        cases e with
        | cellFile c name =>
            rw [setsLimits] at hset
            split at hset
            · rw [← Option.some.inj hset]
              rfl
            · cases hset
        | limitsApplied c applied => cases h _ he
        | _ => cases hset
  · rfl

/-! ## The best of all cells -/

/-- What the record of a target of a cell is compared by. -/
def CellOutcome.objective (m : MemoryType) (t : Target) (o : CellOutcome) : ℚ :=
  (o.best m t).stored.bank.metrics.objective t

/-- A record holds the bank and the wires of the cell `o`, at index `cell`, and
    says so. -/
def Result.IsOf (r : Result) (o : CellOutcome) (cell : Nat) (m : MemoryType) (t : Target) : Prop :=
  r.stored = (o.best m t).stored ∧ r.cellTech = cell

/-- For a target, the data record is that of the first best cell; the tag record
    is of that cell, or the best of all tag records when tags may be of another
    technology. -/
structure Records.BestOf (best : Records) (outcomes : List CellOutcome)
    (allowDifferentTagTech : Bool) (t : Target) : Prop where
  data : ∃ o cell, FirstLeast (CellOutcome.objective .data t) outcomes o cell ∧
    (best .data t).IsOf o cell .data t ∧
      (allowDifferentTagTech = false → (best .tag t).IsOf o cell .tag t)
  tag : allowDifferentTagTech = true →
    ∃ o cell, FirstLeast (CellOutcome.objective .tag t) outcomes o cell ∧
      (best .tag t).IsOf o cell .tag t

/-- A record merged from cells without limits: that of the first best cell. -/
structure Result.Best (r : Result) (outcomes : List CellOutcome) (m : MemoryType) (t : Target)
    (o : CellOutcome) (cell : Nat) : Prop where
  optimizationTarget : r.optimizationTarget = t
  limits : r.limits = .unset
  key_le : o.objective m t ≤ Metrics.worstCase.objective t
  firstLeast : FirstLeast (CellOutcome.objective m t) outcomes o cell
  isOf : r.IsOf o cell m t

section
variable {outcomes : List CellOutcome} {m : MemoryType} {t : Target} {o other : CellOutcome}
variable {r : Result} {cell : Nat} {held : Option Visit}

theorem CellOutcome.objective_le (h : (o.best m t).Tracks cell t .unset held) :
    o.objective m t ≤ Metrics.worstCase.objective t := by
  have hle := h.key_le
  rw [Result.key, h.optimizationTarget] at hle
  exact hle

/-- Without limits a record is replaced exactly by a strictly better one. -/
theorem Result.Best.accepts_iff (h : r.Best outcomes m t o cell) {c : Nat}
    (hother : (other.best m t).Tracks c t .unset held) :
    r.accepts (other.best m t).stored = true ↔ other.objective m t < o.objective m t := by
  rw [Result.accepts, Bool.and_eq_true, decide_eq_true_eq, Result.key, Result.key,
    h.optimizationTarget, h.limits, h.isOf.1]
  constructor
  · exact fun haccepts => haccepts.2
  · intro hlt
    refine ⟨?_, hlt⟩
    cases held with
    | some v =>
        obtain ⟨hstored, hwithin, -⟩ := hother.holds v rfl
        rw [hstored]
        exact hwithin
    | none =>
        -- The worst case is better than nothing.
        have hbetter := hlt.trans_le h.key_le
        rw [CellOutcome.objective, hother.empty rfl] at hbetter
        exact absurd hbetter (lt_irrefl _)

/-- The record of a strictly better cell, in the place of the merged one. -/
theorem Result.Best.take (h : r.Best outcomes m t o cell)
    (hlt : other.objective m t < o.objective m t) :
    (r.takeFrom outcomes.length (other.best m t)).Best (outcomes ++ [other]) m t other
      outcomes.length :=
  ⟨h.optimizationTarget, h.limits, (hlt.trans_le h.key_le).le, h.firstLeast.append_of_lt hlt,
    rfl, rfl⟩

theorem Result.Best.keep (h : r.Best outcomes m t o cell)
    (hle : o.objective m t ≤ other.objective m t) : r.Best (outcomes ++ [other]) m t o cell :=
  ⟨h.optimizationTarget, h.limits, h.key_le, h.firstLeast.append_of_le hle, h.isOf⟩

/-- One more cell, at a target merged by itself. -/
theorem Result.Best.mergeFrom (h : r.Best outcomes m t o cell) {c : Nat}
    (hother : (other.best m t).Tracks c t .unset held) :
    ∃ x i, (r.mergeFrom outcomes.length (other.best m t)).Best (outcomes ++ [other]) m t x i := by
  rw [Result.mergeFrom]
  by_cases hlt : other.objective m t < o.objective m t
  · rw [if_pos ((h.accepts_iff hother).mpr hlt)]
    exact ⟨other, _, h.take hlt⟩
  · rw [if_neg fun haccepts => hlt ((h.accepts_iff hother).mp haccepts)]
    exact ⟨o, cell, h.keep (not_lt.mp hlt)⟩

end

/-- The records of a target after merging `outcomes`. -/
structure Records.Merged (best : Records) (outcomes : List CellOutcome) (a : Bool) (t : Target) :
    Prop where
  data : ∃ o cell, (best .data t).Best outcomes .data t o cell ∧
    (a = false → (best .tag t).IsOf o cell .tag t)
  tag : a = true → ∃ o cell, (best .tag t).Best outcomes .tag t o cell

/-- A cell explored without limits. -/
def CellOutcome.Unlimited (o : CellOutcome) (cell : Nat) : Prop :=
  ∀ m t, ∃ held, (o.best m t).Tracks cell t .unset held

section
variable {best : Records} {outcomes : List CellOutcome} {a : Bool} {t : Target} {o : CellOutcome}

/-- The records of the first cell. -/
theorem CellOutcome.Unlimited.merged (h : o.Unlimited 0) : o.best.Merged [o] a t := by
  have hbest : ∀ m, (o.best m t).Best [o] m t o 0 := by
    intro m
    obtain ⟨held, hm⟩ := h m t
    exact ⟨hm.optimizationTarget, hm.limits, CellOutcome.objective_le hm,
      firstLeast_singleton _ o, rfl, hm.cellTech⟩
  exact ⟨⟨o, 0, hbest .data, fun _ => (hbest .tag).isOf⟩, fun _ => ⟨o, 0, hbest .tag⟩⟩

/-- One more cell. -/
theorem Records.Merged.merge (h : best.Merged outcomes a t) (ho : o.Unlimited outcomes.length) :
    (Records.merge a best (o, outcomes.length)).Merged (outcomes ++ [o]) a t := by
  obtain ⟨x, i, hdata, htag⟩ := h.data
  obtain ⟨held, hother⟩ := ho .data t
  refine ⟨?_, fun ha => ?_⟩
  · rw [Records.merge_apply, Records.merge_apply, Records.mergeTarget_data_self,
      Records.mergeTarget_tag_self, Result.mergeFrom]
    by_cases hlt : o.objective .data t < x.objective .data t
    · -- The data record and, unless merged by itself, the tag record are replaced.
      have haccepts := (hdata.accepts_iff hother).mpr hlt
      rw [if_pos haccepts, if_pos haccepts]
      refine ⟨o, outcomes.length, hdata.take hlt, fun ha => ?_⟩
      rw [if_neg (by simp [ha])]
      exact ⟨rfl, rfl⟩
    · have hrejects : ¬ (best .data t).accepts (o.best .data t).stored = true :=
        fun haccepts => hlt ((hdata.accepts_iff hother).mp haccepts)
      rw [if_neg hrejects, if_neg hrejects]
      refine ⟨x, i, hdata.keep (not_lt.mp hlt), fun ha => ?_⟩
      rw [if_neg (by simp [ha])]
      exact htag ha
  · obtain ⟨y, j, hbest⟩ := h.tag ha
    obtain ⟨held', hother'⟩ := ho .tag t
    rw [Records.merge_apply, Records.mergeTarget_tag_self, if_pos ha]
    exact hbest.mergeFrom hother'

/-- All cells. -/
theorem merged_cells {first : CellOutcome} {rest : List CellOutcome}
    (h : ∀ (cell : Nat) (x : CellOutcome), (first :: rest)[cell]? = some x → x.Unlimited cell)
    (a : Bool) (t : Target) :
    ((rest.zipIdx 1).foldl (Records.merge a) first.best).Merged (first :: rest) a t := by
  induction rest using List.reverseRecOn with
  | nil => exact (h 0 first rfl).merged
  | append_singleton rest o ih =>
      have hrest : ∀ (cell : Nat) (x : CellOutcome),
          (first :: rest)[cell]? = some x → x.Unlimited cell := by
        intro cell x hx
        apply h cell x
        rw [← List.cons_append]
        exact List.getElem?_append_left (List.getElem?_eq_some_iff.mp hx).1 ▸ hx
      have hlast : o.Unlimited (first :: rest).length := by
        apply h
        rw [← List.cons_append]
        exact List.getElem?_concat_length
      rw [List.zipIdx_append, List.foldl_append, List.zipIdx_singleton, List.foldl_cons,
        List.foldl_nil, Nat.add_comm 1]
      exact (ih hrest).merge hlast

theorem Records.Merged.bestOf (h : best.Merged outcomes a t) : best.BestOf outcomes a t := by
  obtain ⟨x, i, hdata, htag⟩ := h.data
  refine ⟨⟨x, i, hdata.firstLeast, hdata.isOf, htag⟩, fun ha => ?_⟩
  obtain ⟨y, j, hbest⟩ := h.tag ha
  exact ⟨y, j, hbest.firstLeast, hbest.isOf⟩

end

/-- Without design constraints, every run over any cells ends with the records
    of the first best cell for each target. -/
theorem merged_best {w : World} {file : List OptionLine} {u : State}
    (hrun : main w file (State.initial w) = .ok ⟨⟩ u)
    (htarget : (w.loaded file).optimizationTarget ≠ .full_exploration)
    (hconstraint : (w.loaded file).isConstraintApplied = false)
    (hcells : (w.loaded file).fileMemCell ≠ []) :
    u.explored.length = (w.loaded file).fileMemCell.length ∧
      ∀ t, u.best.BestOf u.explored u.inputParameter.allowDifferentTagTech t := by
  have hunconstrained : ¬ (w.loaded file).constrains := fun h => by simp [h.2] at hconstraint
  have hend := (unlimited_runInvariant hunconstrained).main_spec (State.initial w) rfl
  rw [hrun] at hend
  obtain ⟨s, ⟨hspace, hlength, hunlimited⟩, rfl⟩ := hend
  have houtcomes := run_outcomes w file
  rw [World.run, hrun] at houtcomes
  have hexplored : ∀ (cell : Nat) (x : CellOutcome), s.explored[cell]? = some x →
      x.Unlimited cell := by
    intro cell x hx m t
    -- What was printed at the end is about no cell.
    obtain ⟨es, hes, htrace⟩ := s.finish_trace
    have hother : ∀ e ∈ es, e.cell? ≠ some cell := by
      intro e he
      obtain ⟨_, _, rfl, -⟩ := hes e he
      intro hcell
      cases hcell
    have htracked := (houtcomes cell x (by rwa [State.finish_explored])).best m t
    rw [htrace, limitsIn_append_other hother, hunlimited.limitsIn] at htracked
    exact ⟨_, htracked⟩
  have hfull : s.inputParameter.optimizationTarget ≠ .full_exploration := by
    rw [hspace.settings.optimizationTarget]
    exact htarget
  rw [State.finish_explored, State.finish_inputParameter, State.finish_best hfull,
    State.mergedRecords]
  refine ⟨hlength, fun t => ?_⟩
  cases hsplit : s.explored with
  | nil =>
      rw [hsplit] at hlength
      exact absurd (List.length_eq_zero_iff.mp hlength.symm) hcells
  | cons first rest =>
      rw [hsplit] at hexplored
      exact (merged_cells hexplored _ t).bestOf

/-- A world where the designs of the second cell are better. -/
def World.betterSecond : World :=
  .zeroed fun cell _ _ memoryType _ _ _ =>
    .uniform false (if cell = "second.cell" then 1 else 2) memoryType

theorem merged_best_two_cells : ∃ u : State,
    main World.betterSecond twoCells (State.initial World.betterSecond) = .ok ⟨⟩ u ∧
      u.explored.length = 2 ∧
      ∀ t, u.best.BestOf u.explored u.inputParameter.allowDifferentTagTech t := by
  have hreturns : World.betterSecond.returns twoCells = true := by decide +kernel
  obtain ⟨u, hrun⟩ := World.exists_of_returns hreturns
  exact ⟨u, hrun, merged_best hrun (by decide +kernel) (by decide +kernel) (by decide +kernel)⟩

end Destiny
