/-
  Destiny.Search.Printed

  Whether a printed result is a real one.

  `main` prints the records of the first cell after merging those of the other
  cells into them.  The merge compares a later cell's solution with the limits
  `APPLY_LIMIT` left in the first cell's record, which were derived from the
  first cell's own exploration.  So a run with solutions prints the worst case
  exactly when the first cell found none and no other cell's solution happens
  to be within the first cell's limits (`printed_real_iff`).
-/

import Destiny.Search.Merge
import Destiny.Search.Validity

namespace Destiny

open Lib

/-! ## What a merged record holds -/

/-- A record merged from the first `cells` cells holds a solution of one of
    them, or none of them has a solution the first cell's limits let through. -/
structure Result.MergedFrom (r : Result) (trace : List Event) (t : Target) (cells : Nat) :
    Prop where
  limits : r.limits = limitsIn 0 .data trace
  optimizationTarget : r.optimizationTarget = t
  holds : (∃ v, r.cellTech < cells ∧ installed r.cellTech .data t trace = some v ∧
      r.stored = v.trial ∧ v.trial.bank.metrics.objective t < Metrics.worstCase.objective t ∧
      (r.cellTech = 0 ∨ v.trial.bank.metrics.within (limitsIn 0 .data trace) = true)) ∨
    r.stored.bank.metrics = .worstCase ∧ ∀ c < cells, ∀ v, installed c .data t trace = some v →
      c ≠ 0 ∧ v.trial.bank.metrics.within (limitsIn 0 .data trace) = false

section
variable {loaded : InputParameter} {trace : List Event} {t : Target}

/-- No merged record is worse than the worst case. -/
theorem Result.MergedFrom.key_le {r : Result} {cells : Nat} (h : r.MergedFrom trace t cells) :
    r.key r.stored ≤ Metrics.worstCase.objective t := by
  rw [Result.key, h.optimizationTarget]
  rcases h.holds with ⟨v, -, -, hstored, hlt, -⟩ | ⟨hworst, -⟩
  · rw [hstored]
    exact hlt.le
  · rw [hworst]

/-- The first cell's own record. -/
theorem Result.Tracks.mergedFrom {r : Result}
    (h : r.Tracks 0 t (limitsIn 0 .data trace) (installed 0 .data t trace)) :
    r.MergedFrom trace t 1 := by
  refine ⟨h.limits, h.optimizationTarget, ?_⟩
  cases hheld : installed 0 .data t trace with
  | some v =>
      rw [hheld] at h
      obtain ⟨hstored, -, hlt⟩ := h.holds v rfl
      exact Or.inl ⟨v, by rw [h.cellTech]; exact one_pos, by rw [h.cellTech]; exact hheld, hstored,
        hlt, Or.inl h.cellTech⟩
  | none =>
      refine Or.inr ⟨h.empty hheld, fun c hc v hv => ?_⟩
      rw [Nat.lt_one_iff.mp hc, hheld] at hv
      cases hv

/-- One more cell. -/
theorem Result.MergedFrom.mergeFrom {r other : Result} {cells : Nat} (hcells : cells ≠ 0)
    (h : r.MergedFrom trace t cells)
    (hother : other.Tracks cells t (limitsIn cells .data trace) (installed cells .data t trace)) :
    (r.mergeFrom cells other).MergedFrom trace t (cells + 1) := by
  rw [Result.mergeFrom]
  split
  · next haccepts =>
    -- Only a record that holds something is better than the worst case.
    rw [Result.accepts, Bool.and_eq_true, decide_eq_true_eq, h.limits] at haccepts
    obtain ⟨hwithin, hlt⟩ := haccepts
    have hbetter := hlt.trans_le h.key_le
    rw [Result.key, h.optimizationTarget] at hbetter
    refine ⟨h.limits, h.optimizationTarget, Or.inl ?_⟩
    cases hheld : installed cells .data t trace with
    | none =>
        rw [hother.empty hheld] at hbetter
        exact absurd hbetter (lt_irrefl _)
    | some v =>
        obtain ⟨hstored, -, hworst⟩ := hother.holds v hheld
        exact ⟨v, Nat.lt_succ_self cells, rfl, hstored, hworst, Or.inr (hstored ▸ hwithin)⟩
  · next hrejects =>
    refine ⟨h.limits, h.optimizationTarget, ?_⟩
    rcases h.holds with ⟨v, hlt, hrest⟩ | ⟨hworst, hnone⟩
    · exact Or.inl ⟨v, hlt.trans (Nat.lt_succ_self cells), hrest⟩
    · refine Or.inr ⟨hworst, fun c hc v hv => ?_⟩
      rcases Nat.lt_succ_iff_lt_or_eq.mp hc with hc | rfl
      · exact hnone c hc v hv
      · refine ⟨hcells, ?_⟩
        obtain ⟨hstored, -, hlt⟩ := hother.holds v hv
        by_contra hwithin
        apply hrejects
        rw [Result.accepts, Result.key, Result.key, h.limits, h.optimizationTarget, hworst, hstored]
        simp [hlt, Bool.eq_true_of_not_eq_false hwithin]

/-- All cells. -/
theorem mergedFrom_foldl {first : CellOutcome} {rest : List CellOutcome} (a : Bool)
    (h : Outcomes.Tracked loaded (first :: rest) trace) :
    ((rest.zipIdx 1).foldl (Records.merge a) first.best .data t).MergedFrom trace t
      (first :: rest).length := by
  induction rest using List.reverseRecOn with
  | nil => exact ((h 0 first rfl).best .data t).mergedFrom
  | append_singleton rest o ih =>
      have hrest : Outcomes.Tracked loaded (first :: rest) trace := by
        intro cell x hx
        apply h cell x
        rw [← List.cons_append]
        exact List.getElem?_append_left (List.getElem?_eq_some_iff.mp hx).1 ▸ hx
      have hlast : o.Tracked loaded (first :: rest).length trace := by
        apply h
        rw [← List.cons_append]
        exact List.getElem?_concat_length
      rw [List.zipIdx_append, List.foldl_append, List.zipIdx_singleton, List.foldl_cons,
        List.foldl_nil, Records.merge_data, Nat.add_comm 1]
      rw [← List.cons_append, List.length_append]
      exact (ih hrest).mergeFrom (by simp) (hlast.best .data t)

end

/-! ## Real results -/

/-- A design evaluated as valid for the record's cell, within the limits of its
    exploration under constraints, and not the worst case. -/
structure Result.Real (r : Result) (loaded : InputParameter) (before : List Event) : Prop where
  validated : ValidatedIn before r.cellTech .data r.stored
  limited : loaded.constrains → ∃ limits, .limitsApplied r.cellTech limits ∈ before ∧
    r.stored.bank.metrics.within limits = true
  notWorstCase : r.stored.bank.metrics ≠ .worstCase

/-- A printed record is a real result. -/
def Event.PrintsReal (loaded : InputParameter) (before : List Event) : Event → Prop
  | .printed _ data _ => data.Real loaded before
  | _ => True

/-- When a record is printed, the first cell holds a solution for its target, or
    another cell holds one within the first cell's limits. -/
def Event.HasSolution (cells : Nat) (before : List Event) : Event → Prop
  | .printed t _ _ => ∃ c < cells, ∃ v ∈ installed c .data t before,
      c = 0 ∨ v.trial.bank.metrics.within (limitsIn 0 .data before) = true
  | _ => True

/-- When a record is printed, no cell holds an invalid refinement trial for its
    target. -/
def Event.HoldsValid (cells : Nat) (before : List Event) : Event → Prop
  | .printed t _ _ => ∀ c < cells, ∀ v ∈ installed c .data t before,
      v.stage.refines = true → v.trial.bank.invalid = false
  | _ => True

instance (cells : Nat) (before : List Event) : (e : Event) → Decidable (e.HoldsValid cells before)
  | .printed _ _ _ => inferInstanceAs (Decidable (∀ c < cells, _))
  | .compared _ _ _ | .evaluated _ | .csvRow _ _ _ _ | .cellFile _ _ | .loopStart _ _
  | .limitsApplied _ _ => inferInstanceAs (Decidable True)

section
variable {file : List OptionLine} {loaded : InputParameter} {before : List Event}

/-- A printed record is real exactly when some cell has a solution for it. -/
theorem LawfulPrint.real_iff (hlawful : Everywhere (Event.Lawful file loaded) before)
    {t : Target} {data : Result} {tag : Option Result} (h : LawfulPrint loaded before t data)
    (hvalid : (Event.printed t data tag).HoldsValid loaded.fileMemCell.length before) :
    (Event.printed t data tag).PrintsReal loaded before ↔
      (Event.printed t data tag).HasSolution loaded.fileMemCell.length before := by
  obtain ⟨first, rest, a, hlength, houtcomes, hdata⟩ := h
  have hmerged := mergedFrom_foldl (t := t) a houtcomes
  rw [← hdata, hlength] at hmerged
  -- the record that is printed holds a design of some cell, or is still the initial one
  rcases hmerged.holds with ⟨v, hlt, hheld, hstored, hbetter, hfirst⟩ | ⟨hworst, hnone⟩
  · have hsolution : (Event.printed t data tag).HasSolution loaded.fileMemCell.length before :=
      ⟨data.cellTech, hlt, v, hheld, hfirst⟩
    refine ⟨fun _ => hsolution, fun _ => ?_⟩
    obtain ⟨hevaluated, hcell, hm, hunrefined⟩ := evaluated_of_installed hlawful hheld
    have hinvalid : data.stored.bank.invalid = false := by
      rw [hstored]
      cases hstage : v.stage.refines with
      | false => exact hunrefined hstage
      | true => exact hvalid data.cellTech hlt v hheld hstage
    have houtcome := houtcomes data.cellTech _
      (List.getElem?_eq_getElem (hlength ▸ hlt : data.cellTech < (first :: rest).length))
    refine ⟨⟨hinvalid, v, hevaluated, hcell, hm, hstored.symm⟩, fun hconstrains => ?_, ?_⟩
    · refine ⟨_, houtcome.limited hconstrains t (by rw [hheld]; rfl), ?_⟩
      rw [hstored]
      exact ((houtcome.best .data t).holds v hheld).2.1
    · intro hworst
      rw [← hstored, hworst] at hbetter
      exact lt_irrefl _ hbetter
  · constructor
    · intro hreal
      exact absurd hworst hreal.notWorstCase
    · rintro ⟨c, hc, v, hheld, hsolution⟩
      obtain ⟨hne, hwithin⟩ := hnone c hc v hheld
      rcases hsolution with rfl | hsolution
      · exact absurd rfl hne
      · rw [hwithin] at hsolution
        cases hsolution

end

/-- Unless a cell holds an invalid refinement trial, the results a run prints
    are real exactly when each has a solution: the first cell's own, or one of
    another cell within the first cell's limits. -/
theorem printed_real_iff (w : World) (file : List OptionLine)
    (hvalid : Everywhere (Event.HoldsValid (w.loaded file).fileMemCell.length) (w.run file).trace) :
    Everywhere (Event.PrintsReal (w.loaded file)) (w.run file).trace ↔
      Everywhere (Event.HasSolution (w.loaded file).fileMemCell.length) (w.run file).trace := by
  have hlawful := run_lawful w file
  have hstep : ∀ before e after, (w.run file).trace = before ++ e :: after →
      (e.PrintsReal (w.loaded file) before ↔
        e.HasSolution (w.loaded file).fileMemCell.length before) := by
    intro before e after hsplit
    have hevent := hlawful before e after hsplit
    have hholds := hvalid before e after hsplit
    cases e with
    | printed t data tag => exact LawfulPrint.real_iff (hlawful.before hsplit) hevent hholds
    | _ => exact Iff.rfl
  constructor
  · intro h before e after hsplit
    exact (hstep before e after hsplit).mp (h before e after hsplit)
  · intro h before e after hsplit
    exact (hstep before e after hsplit).mpr (h before e after hsplit)

/-- A memory with two cells and a constraint on the read latency. -/
def constrainedCells : List OptionLine :=
  openLocalWire ++ [.applyReadLatencyConstraint 0, .memoryCellInputFile "second.cell"]

instance (cells : Nat) (before : List Event) : (e : Event) → Decidable (e.HasSolution cells before)
  | .printed _ _ _ => inferInstanceAs (Decidable (∃ c < cells, _))
  | .compared _ _ _ | .evaluated _ | .csvRow _ _ _ _ | .cellFile _ _ | .loopStart _ _
  | .limitsApplied _ _ => inferInstanceAs (Decidable True)

/-- Both cells are as good. -/
theorem printed_real_iff_constrained_cells :
    (World.allValid.run constrainedCells).trace.any (fun e => match e with
        | .printed _ _ _ => true
        | _ => false) = true ∧
      Everywhere (Event.PrintsReal (World.allValid.loaded constrainedCells))
        (World.allValid.run constrainedCells).trace :=
  ⟨by decide +kernel,
    (printed_real_iff World.allValid constrainedCells (by decide +kernel)).mpr (by decide +kernel)⟩

/-- A world where only the first cell is faster over conservative local wires. -/
def World.unluckyFirst : World :=
  .zeroed fun cell _ _ memoryType _ localWire _ =>
    if cell = "edram.cell" ∧ localWire.wireType = .local_conservative then
      .uniform false 1 memoryType
    else .uniform false 2 memoryType

/-- The first cell finds nothing within its limits, and the second cell's solution
    is not within the first cell's limits either: the worst case is printed. -/
theorem worst_case_printed :
    ¬ Everywhere (Event.PrintsReal (World.unluckyFirst.loaded constrainedCells))
      (World.unluckyFirst.run constrainedCells).trace := by
  intro h
  have hworst : (World.unluckyFirst.run constrainedCells).trace.any
      (fun e => match e with
        | .printed _ data _ => data.stored.bank.metrics = .worstCase
        | _ => false) = true := by decide +kernel
  obtain ⟨e, he, hprints⟩ := List.any_eq_true.mp hworst
  obtain ⟨before, after, -, hreal⟩ := h.of_mem he
  cases e with
  | printed t data tag => exact hreal.notWorstCase (by simpa using hprints)
  | _ => cases hprints

end Destiny
