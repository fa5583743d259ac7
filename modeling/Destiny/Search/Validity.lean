/-
  Destiny.Search.Validity

  Whether the designs a run installs and writes are valid.

  Both nests test `invalid` before they count a design.  `TRY_AND_UPDATE` does
  not: a refinement trial is compared, and in a full exploration written, as it
  is, and an eDRAM design whose refresh is too slow has finite metrics.  The
  rows taken from a record are written whether or not anything was installed in
  it.  `Event.AvoidsInvalid` leaves these steps out; in a run that does, every
  design installed or written was evaluated and is valid (`run_validated`).
-/

import Destiny.Search.Provenance

namespace Destiny

open Lib

/-- A design that was evaluated for an array of a cell and found valid. -/
structure ValidatedIn (before : List Event) (cell : Nat) (m : MemoryType) (x : Trial) : Prop where
  valid : x.bank.invalid = false
  evaluated : ∃ v, .evaluated v ∈ before ∧ v.cell = cell ∧ v.memoryType = m ∧ v.trial = x

/-- The event installs and writes validated designs only. -/
def Event.Validated (before : List Event) : Event → Prop
  | .compared v _ old =>
      old.accepts v.trial = true → ValidatedIn before v.cell v.memoryType v.trial
  | .csvRow cell _ data tag =>
      ValidatedIn before cell .data data ∧ ∀ x ∈ tag, ValidatedIn before cell .tag x.2
  | _ => True

/-- The step is none of those that let an invalid design through: a trial a
    record accepts although it is invalid, an invalid last trial of a wire that
    is then written, or a row of a record nothing was installed in. -/
def Event.AvoidsInvalid (before : List Event) : Event → Prop
  | .compared v _ old =>
      v.stage.refines = true → v.trial.bank.invalid = true → old.accepts v.trial = false
  | .evaluated v =>
      v.inputParameter.writesEveryDesign = true → v.memoryType = .data → v.stage.isLastTrial →
        v.trial.bank.invalid = false
  | .csvRow cell source _ tag =>
      (∀ t ∈ source, (installed cell .data t before).isSome = true) ∧
        ∀ x ∈ tag, (installed cell .tag x.1 before).isSome = true
  | _ => True

instance (before : List Event) : (e : Event) → Decidable (e.AvoidsInvalid before)
  | .compared _ _ _ => inferInstanceAs (Decidable (_ → _ → _))
  | .evaluated _ => inferInstanceAs (Decidable (_ → _ → _ → _))
  | .csvRow _ _ _ _ => inferInstanceAs (Decidable (_ ∧ _))
  | .cellFile _ _ | .loopStart _ _ | .limitsApplied _ _ | .printed _ _ _ =>
      inferInstanceAs (Decidable True)

section
variable {file : List OptionLine} {loaded : InputParameter} {before : List Event}

theorem ValidatedIn.append {cell : Nat} {m : MemoryType} {x : Trial} {more : List Event}
    (h : ValidatedIn before cell m x) : ValidatedIn (before ++ more) cell m x := by
  obtain ⟨v, hv, hrest⟩ := h.evaluated
  exact ⟨h.valid, v, List.mem_append_left _ hv, hrest⟩

/-- What a comparison that avoids invalid trials accepts is validated. -/
theorem LawfulComparison.validated {v : Visit} {t : Target} {old : Result}
    (h : LawfulComparison file loaded before v t old)
    (havoids : (Event.compared v t old).AvoidsInvalid before)
    (haccepts : old.accepts v.trial = true) :
    ValidatedIn before v.cell v.memoryType v.trial := by
  have hvalid : v.trial.bank.invalid = false := by
    cases hstage : v.stage.refines with
    | false => exact h.valid hstage
    | true =>
        by_contra hinvalid
        have hrejects := havoids hstage (by simpa using hinvalid)
        rw [haccepts] at hrejects
        cases hrejects
  exact ⟨hvalid, v, h.evaluated, rfl, rfl, rfl⟩

/-- What a record holds is validated. -/
theorem validatedIn_of_installed (hlawful : Everywhere (Event.Lawful file loaded) before)
    (havoids : Everywhere Event.AvoidsInvalid before) {cell : Nat} {m : MemoryType} {t : Target}
    {v : Visit} (h : installed cell m t before = some v) : ValidatedIn before cell m v.trial := by
  obtain ⟨old, hmem, haccepts, rfl, rfl⟩ := exists_compared_of_installed h
  obtain ⟨first, later, hsplit, hcomparison⟩ := hlawful.of_mem hmem
  have hstep := havoids first _ later hsplit
  rw [hsplit]
  exact (hcomparison.validated hstep haccepts).append

/-- A design shown by a record that holds something is validated. -/
theorem validatedIn_of_isSome (hlawful : Everywhere (Event.Lawful file loaded) before)
    (havoids : Everywhere Event.AvoidsInvalid before) {cell : Nat} {m : MemoryType} {t : Target}
    {x : Trial} (hx : ∀ v, installed cell m t before = some v → x = v.trial)
    (hsome : (installed cell m t before).isSome = true) : ValidatedIn before cell m x := by
  obtain ⟨v, hv⟩ := Option.isSome_iff_exists.mp hsome
  rw [hx v hv]
  exact validatedIn_of_installed hlawful havoids hv

/-- A row that avoids empty records shows validated designs. -/
theorem LawfulRow.validated (hlawful : Everywhere (Event.Lawful file loaded) before)
    (havoids : Everywhere Event.AvoidsInvalid before) {cell : Nat} {source : Option Target}
    {data : Trial} {tag : Option (Target × Trial)} (h : LawfulRow before cell source data tag)
    (hrow : (Event.csvRow cell source data tag).AvoidsInvalid before) :
    (Event.csvRow cell source data tag).Validated before := by
  constructor
  · cases source with
    | some t => exact validatedIn_of_isSome hlawful havoids (h.record t rfl) (hrow.1 t rfl)
    | none =>
        obtain ⟨v, hv, hcell, hm, rfl, hvalid⟩ := h.temp rfl
        refine ⟨?_, v, hv, hcell, hm, rfl⟩
        rcases hvalid with hvalid | ⟨hwrites, hlast⟩
        · exact hvalid
        · -- The row shows the last trial of a wire, which was avoided when evaluated.
          obtain ⟨first, later, -, hstep⟩ := havoids.of_mem hv
          exact hstep hwrites hm hlast
  · rintro ⟨t, x⟩ hx
    exact validatedIn_of_isSome hlawful havoids (h.tag t x hx) (hrow.2 (t, x) hx)

end

/-- In a run that avoids the steps that let an invalid design through, every
    design a record takes over and every design written was evaluated for that
    array of that cell, and is valid. -/
theorem run_validated (w : World) (file : List OptionLine)
    (havoids : Everywhere Event.AvoidsInvalid (w.run file).trace) :
    Everywhere Event.Validated (w.run file).trace := by
  have hlawful := run_lawful w file
  intro before e after hsplit
  have hstep := havoids before e after hsplit
  have hevent := hlawful before e after hsplit
  have havoidsBefore := havoids.before hsplit
  have hlawfulBefore := hlawful.before hsplit
  cases e with
  | compared v t old =>
      intro haccepts
      exact LawfulComparison.validated hevent hstep haccepts
  | csvRow cell source data tag =>
      exact LawfulRow.validated hlawfulBefore havoidsBefore hevent hstep
  | _ => trivial

/-- A cache whose designs are all written. -/
def fullExploration : List OptionLine :=
  forceOneDesign ++ forceOneWire ++
    [.optimizationTarget .full_exploration, .memoryCellInputFile "sram.cell"]

theorem run_validated_full_exploration :
    Everywhere Event.Validated (World.allValid.run fullExploration).trace :=
  run_validated World.allValid fullExploration (by decide +kernel)

/-! ## Runs that do not avoid them -/

/-- The event installs or writes an invalid design. -/
def Event.showsInvalid : Event → Bool
  | .compared v _ old => old.accepts v.trial && v.trial.bank.invalid
  | .csvRow _ _ data _ => data.bank.invalid
  | _ => false

/-- The event evaluates a valid design. -/
def Event.evaluatesValid : Event → Bool
  | .evaluated v => !v.trial.bank.invalid
  | _ => false

def Event.isRow : Event → Bool
  | .csvRow _ _ _ _ => true
  | _ => false

section
variable {trace : List Event}

theorem not_validated_of_showsInvalid (hsome : trace.any Event.showsInvalid = true) :
    ¬ Everywhere Event.Validated trace := by
  intro h
  obtain ⟨e, he, hshows⟩ := List.any_eq_true.mp hsome
  obtain ⟨before, after, -, hvalidated⟩ := h.of_mem he
  cases e with
  | compared v t old =>
      obtain ⟨haccepts, hinvalid⟩ := Bool.and_eq_true_iff.mp hshows
      rw [(hvalidated haccepts).valid] at hinvalid
      cases hinvalid
  | csvRow cell source data tag =>
      have hinvalid : data.bank.invalid = true := hshows
      rw [hvalidated.1.valid] at hinvalid
      cases hinvalid
  | _ => cases hshows

/-- Rows cannot show validated designs when there are none. -/
theorem not_validated_of_isRow (hrow : trace.any Event.isRow = true)
    (hnone : trace.any Event.evaluatesValid = false) : ¬ Everywhere Event.Validated trace := by
  intro h
  obtain ⟨e, he, hisRow⟩ := List.any_eq_true.mp hrow
  obtain ⟨before, after, hsplit, hvalidated⟩ := h.of_mem he
  cases e with
  | csvRow cell source data tag =>
      obtain ⟨hvalid, v, hv, -, -, rfl⟩ := hvalidated.1
      have hmem : Event.evaluated v ∈ trace := by
        rw [hsplit]
        exact List.mem_append_left _ hv
      have hevaluates : trace.any Event.evaluatesValid = true :=
        List.any_eq_true.mpr ⟨_, hmem, by simp [Event.evaluatesValid, hvalid]⟩
      rw [hnone] at hevaluates
      cases hevaluates
  | _ => cases hisRow

end

/-- An eDRAM cell whose refresh takes too long over conservative local wires,
    which are faster otherwise. -/
def World.refreshBound : World :=
  { World.zeroed fun _ _ _ memoryType _ localWire _ =>
      if localWire.wireType = .local_conservative then .uniform true 1 memoryType
      else .uniform false 2 memoryType with
    memCellType := fun _ => some .eDRAM }

/-- A memory with the local wire type left open. -/
def openLocalWire : List OptionLine :=
  forceOneDesign ++ [.designTarget .RAM_chip, .localWireRepeaterType .repeated_none,
    .localWireUseLowSwing false, .globalWireType .global_aggressive,
    .globalWireRepeaterType .repeated_none, .globalWireUseLowSwing false,
    .memoryCellInputFile "edram.cell"]

/-- A world without valid designs. -/
def World.allInvalid : World := .zeroed fun _ _ _ memoryType _ _ _ => .uniform true 1 memoryType

/-- A pruned exploration of a memory. -/
def prunedExploration : List OptionLine :=
  forceOneDesign ++ forceOneWire ++ [.designTarget .RAM_chip,
    .optimizationTarget .full_exploration, .enablePruning true, .memoryCellInputFile "sram.cell"]

/-- A refinement installs an invalid design, and a pruned exploration writes
    records when there is no valid design at all. -/
theorem invalid_designs_installed_and_written :
    ¬ Everywhere Event.Validated (World.refreshBound.run openLocalWire).trace ∧
      ¬ Everywhere Event.Validated (World.allInvalid.run prunedExploration).trace :=
  ⟨not_validated_of_showsInvalid (by decide +kernel),
    not_validated_of_isRow (by decide +kernel) (by decide +kernel)⟩

end Destiny
