/-
  Destiny.Search.Main

  `main`: the loop over the cell files, the merge of their records and the
  printed results, with the invariant rule for whole runs.

  A `RunInvariant` adds to an `NvsimInvariant` what holds between two cells;
  `RunInvariant.exploreCells` is the induction over the cell files.
-/

import Destiny.Search.Invariant

namespace Destiny

open Lib

/-! ## The program -/

/-- The globals before `main` reads anything. -/
def State.initial (w : World) : State where
  inputParameter := w.inputMemory
  tech := { w.techMemory with layerCount := 0 }
  localWire := w.wireMemory
  globalWire := w.wireMemory
  cell := 0
  cellFile := ""
  best := w.newRecords 0
  temp := w.recordMemory
  numSolution := 0
  explored := []
  totalSolutions := 0
  trace := []

/-- The `InputParameter` object `main` starts with. -/
def World.loaded (w : World) (file : List OptionLine) : InputParameter :=
  (InputParameter.construct w.inputMemory).restore file

/-- The `InputParameter` and `Technology` objects of `main`;
    `Technology::Initialize` ends with `SetLayerCount(inputParameter, 2)`. -/
def State.load (w : World) (file : List OptionLine) (s : State) : State :=
  { s with
    inputParameter := w.loaded file
    tech := s.tech.SetLayerCount w.tsvTable (w.loaded file) 2 }

@[simp] theorem State.load_initial_trace (w : World) (file : List OptionLine) :
    ((State.initial w).load w file).trace = [] := rfl

@[simp] theorem State.load_initial_explored (w : World) (file : List OptionLine) :
    ((State.initial w).load w file).explored = [] := rfl

/-- A new cell with its newly allocated records. -/
def State.enterCell (w : World) (cell : Nat) (name : String) (s : State) : State :=
  { s.emit (.cellFile cell name) with
    cell := cell
    cellFile := name
    best := w.newRecords cell
    numSolution := 0 }

/-- `failures++` or `totalSolutions += solutions`. -/
def State.leaveCell (failed : Bool) (s : State) : State :=
  let solutions := if failed then 0 else s.numSolution
  { s with
    explored := s.explored ++ [{ best := s.best, solutions := solutions }]
    totalSolutions := s.totalSolutions + solutions }

/-- An outcome is an earlier one or that of the cell just left. -/
theorem State.leaveCell_explored_cases {s : State} {failed : Bool} {cell : Nat} {o : CellOutcome}
    (h : (s.leaveCell failed).explored[cell]? = some o) :
    s.explored[cell]? = some o ∨ cell = s.explored.length ∧
      o = { best := s.best, solutions := if failed then 0 else s.numSolution } := by
  rw [show (s.leaveCell failed).explored = s.explored ++ [_] from rfl] at h
  by_cases hlt : cell < s.explored.length
  · rw [List.getElem?_append_left hlt] at h
    exact Or.inl h
  · rw [List.getElem?_append_right (not_lt.mp hlt)] at h
    obtain ⟨hlen, ho⟩ := List.getElem?_eq_some_iff.mp h
    rw [List.length_singleton, Nat.lt_one_iff] at hlen
    simp only [hlen, List.getElem_cons_zero] at ho
    exact Or.inr ⟨by omega, ho.symm⟩

/-- The body of the loop over the cell files. -/
def exploreCell (w : World) (file : List OptionLine) (cell : Nat) : Search Unit := do
  let s ← get
  let name := s.inputParameter.fileMemCell.getD cell ""
  stopIf (w.memCellType name).isNone .exited
  modify (State.enterCell w cell name)
  let failed ← nvsim w file
  modify (State.leaveCell failed)

def exploreCells (w : World) (file : List OptionLine) : Search Unit := do
  modify (State.load w file)
  let s ← get
  (List.range s.inputParameter.fileMemCell.length).forM (exploreCell w file)

/-- "Pick the best of the best" for one target: the records `other` of a cell
    against those of the first cell. -/
def Records.mergeTarget (allowDifferentTagTech : Bool) (cell : Nat) (other first : Records)
    (t : Target) : Records :=
  let updated := (first .data t).accepts (other .data t).stored
  let data := (first .data t).compareAndUpdate (other .data t).stored
  let merged := first.set .data t { data with cellTech := if updated then cell else data.cellTech }
  if allowDifferentTagTech then
    let tag := (first .tag t).compareAndUpdate (other .tag t).stored
    let tagUpdated := (first .tag t).accepts (other .tag t).stored
    merged.set .tag t { tag with cellTech := if tagUpdated then cell else tag.cellTech }
  else if updated then
    merged.set .tag t { first .tag t with stored := (other .tag t).stored, cellTech := cell }
  else merged

/-- All targets of one more cell. -/
def Records.merge (allowDifferentTagTech : Bool) (first : Records) (other : CellOutcome × Nat) :
    Records :=
  Target.all.foldl (Records.mergeTarget allowDifferentTagTech other.2 other.1.best) first

/-- `bestDataResults[0]` and `bestTagResults[0]` after the merge. -/
def State.mergedRecords (s : State) : Records :=
  match s.explored with
  | [] => s.best
  | first :: rest =>
      (rest.zipIdx 1).foldl (Records.merge s.inputParameter.allowDifferentTagTech) first.best

/-- `print`, or `printAsCache` of a data and a tag bank. -/
def State.printRecord (s : State) (t : Target) : Option Event :=
  if s.inputParameter.designTarget = .cache then
    if (s.best .data t).stored.bank.memoryType = .data ∧
        (s.best .tag t).stored.bank.memoryType = .tag then
      some (.printed t (s.best .data t) (some (s.best .tag t)))
    else none
  else some (.printed t (s.best .data t) none)

/-- The merge and the printed results; a full exploration does neither. -/
def State.finish (s : State) : State :=
  match s.inputParameter.optimizationTarget with
  | .full_exploration => s
  | .optimized t =>
      let merged : State := { s with best := s.mergedRecords }
      if 0 < s.totalSolutions then
        let targets := if s.inputParameter.printAllOptimals then Target.all else [t]
        merged.emitAll (targets.filterMap merged.printRecord)
      else merged

def main (w : World) (file : List OptionLine) : Search Unit := do
  exploreCells w file
  modify State.finish

/-- The state a run of `main` ends or stops in. -/
def World.run (w : World) (file : List OptionLine) : State :=
  match main w file (State.initial w) with
  | .ok _ s => s
  | .error _ s => s

/-- Whether a run comes to the end of `main`. -/
def World.returns (w : World) (file : List OptionLine) : Bool :=
  match main w file (State.initial w) with
  | .ok _ _ => true
  | .error _ _ => false

theorem World.exists_of_returns {w : World} {file : List OptionLine} (h : w.returns file = true) :
    ∃ u, main w file (State.initial w) = .ok ⟨⟩ u := by
  unfold World.returns at h
  cases hrun : main w file (State.initial w) with
  | ok _ u => exact ⟨u, rfl⟩
  | error halt u =>
      rw [hrun] at h
      cases h

theorem State.eq_printed_of_printRecord {s : State} {t : Target} {e : Event}
    (h : s.printRecord t = some e) : ∃ tag, e = .printed t (s.best .data t) tag := by
  rw [printRecord] at h
  split at h
  · split at h
    · exact ⟨_, (Option.some.inj h).symm⟩
    · cases h
  · exact ⟨_, (Option.some.inj h).symm⟩

/-- The end of a run prints merged records, if solutions were found, and does
    nothing else to the trace. -/
theorem State.finish_trace (s : State) :
    ∃ es : List Event,
      (∀ e ∈ es, ∃ t tag, e = .printed t (s.mergedRecords .data t) tag ∧ 0 < s.totalSolutions ∧
        s.inputParameter.optimizationTarget ≠ .full_exploration) ∧
      s.finish.trace = s.trace ++ es := by
  cases htarget : s.inputParameter.optimizationTarget with
  | full_exploration =>
      refine ⟨[], fun e he => (by cases he), ?_⟩
      rw [finish, htarget, List.append_nil]
  | optimized target =>
      by_cases hpos : 0 < s.totalSolutions
      · let merged : State := { s with best := s.mergedRecords }
        refine ⟨(if s.inputParameter.printAllOptimals then Target.all else [target]).filterMap
          merged.printRecord, fun e he => ?_, ?_⟩
        · obtain ⟨t, -, ht⟩ := List.mem_filterMap.mp he
          obtain ⟨tag, rfl⟩ := eq_printed_of_printRecord ht
          exact ⟨t, tag, rfl, hpos, nofun⟩
        · rw [finish, htarget]
          dsimp only
          rw [if_pos hpos]
          rfl
      · refine ⟨[], fun e he => (by cases he), ?_⟩
        rw [finish, htarget, List.append_nil]
        dsimp only
        rw [if_neg hpos]

@[simp] theorem State.finish_explored (s : State) : s.finish.explored = s.explored := by
  rw [finish]
  split
  · rfl
  · dsimp only
    split <;> rfl

@[simp] theorem State.finish_inputParameter (s : State) :
    s.finish.inputParameter = s.inputParameter := by
  rw [finish]
  split
  · rfl
  · dsimp only
    split <;> rfl

theorem State.finish_best {s : State}
    (h : s.inputParameter.optimizationTarget ≠ .full_exploration) :
    s.finish.best = s.mergedRecords := by
  rw [finish]
  split
  · next hfull => exact absurd hfull h
  · dsimp only
    split <;> rfl

/-! ## What a run of `nvsim` leaves alone -/

/-- Only `main` changes the cell and the outcomes; the trace grows. -/
structure State.Frame (before s : State) : Prop where
  cell : s.cell = before.cell
  cellFile : s.cellFile = before.cellFile
  explored : s.explored = before.explored
  totalSolutions : s.totalSolutions = before.totalSolutions
  trace : before.trace <+: s.trace

theorem State.Frame.emitAll {before s : State} (h : before.Frame s) (es : List Event) :
    before.Frame (s.emitAll es) :=
  ⟨h.cell, h.cellFile, h.explored, h.totalSolutions, h.trace.trans (List.prefix_append _ _)⟩

theorem State.Frame.record {before s : State} (h : before.Frame s) (v : Visit) :
    before.Frame (s.record v) := by
  rw [State.record, UPDATE_BEST_eq]
  exact ⟨h.cell, h.cellFile, h.explored, h.totalSolutions, h.trace.trans (List.prefix_append _ _)⟩

theorem State.Frame.TRY_AND_UPDATE {before s : State} (h : before.Frame s) (w : World)
    (stage : Stage) (m : MemoryType) (t : Target) : before.Frame (s.TRY_AND_UPDATE w stage m t) :=
  ⟨h.cell, h.cellFile, h.explored, h.totalSolutions,
    (h.trace.trans (List.prefix_append _ _)).trans (List.prefix_append _ _)⟩

/-- The frame is an invariant of `nvsim`. -/
theorem frame_invariant (w : World) (file : List OptionLine) (loaded : InputParameter)
    (before : State) : NvsimInvariant w file loaded fun _ => before.Frame where
  setInput _ h := { h with }
  setWires _ _ h := { h with }
  startTag _ _ h := h.emitAll [_]
  skipTag _ h := h
  startData _ h := h.emitAll [_]
  setLayers _ _ h := { h with }
  visit _ _ _ _ _ _ h := h.emitAll [_]
  record _ _ _ _ _ h := h.record _
  output _ _ _ _ _ _ h := h.emitAll _
  startRefine _ h := h
  tryLocal _ _ _ h := h.TRY_AND_UPDATE _ _ _ _
  tryGlobal _ _ _ h := h.TRY_AND_UPDATE _ _ _ _
  restore _ h := { h with }
  exploreNone _ h := h
  exploreSome _ h := h
  prune _ _ _ h := h.emitAll _
  limit _ h :=
    ⟨h.cell, h.cellFile, h.explored, h.totalSolutions, h.trace.trans (List.prefix_append _ _)⟩

/-! ## Whole runs -/

/-- An invariant of the loop over the cells: `I` inside a cell, `B` between two. -/
structure RunInvariant (w : World) (file : List OptionLine) (I : Phase → State → Prop)
    (B : State → Prop) : Prop extends NvsimInvariant w file (w.loaded file) I where
  load : B ((State.initial w).load w file)
  enter : ∀ {s}, Space file (w.loaded file) .entered s.inputParameter →
    s.explored.length < (w.loaded file).fileMemCell.length → B s →
      I .entered (s.enterCell w s.explored.length
        (s.inputParameter.fileMemCell.getD s.explored.length ""))
  fail : ∀ {s}, s.cell = s.explored.length → I (.loop .tag) s → B (s.leaveCell true)
  leave : ∀ {s}, s.cell = s.explored.length → NvsimInvariant.Ended I (w.loaded file) s →
    B (s.leaveCell false)

namespace RunInvariant

variable {w : World} {file : List OptionLine} {I : Phase → State → Prop} {B : State → Prop}

/-- Between two cells, `cell` of them explored. -/
structure Between (w : World) (file : List OptionLine) (B : State → Prop) (cell : Nat)
    (s : State) : Prop where
  space : Space file (w.loaded file) .entered s.inputParameter
  length : s.explored.length = cell
  holds : B s

/-- A run stops between two cells or inside one. -/
def Stopped (I : Phase → State → Prop) (B : State → Prop) (s : State) : Prop :=
  B s ∨ NvsimInvariant.Stops I s

/-- One more cell. -/
theorem exploreCell_spec (hI : RunInvariant w file I B) {cell : Nat}
    (hcell : cell < (w.loaded file).fileMemCell.length) :
    Triple (Between w file B cell) (exploreCell w file cell)
      (fun _ => Between w file B (cell + 1)) (Stopped I B) := by
  refine Triple.get_bind fun s hs => ?_
  dsimp only
  refine (NvsimInvariant.stopIf_spec ?_).bind fun _ => ?_
  · rintro _ rfl
    exact Or.inl hs.holds
  · let entered := s.enterCell w cell (s.inputParameter.fileMemCell.getD cell "")
    have henter : I .entered entered := by
      have h := hI.enter hs.space (hs.length ▸ hcell) hs.holds
      rwa [hs.length] at h
    refine Triple.modify_bind (fun t => t = entered) ?_ ?_
    · rintro _ ⟨rfl, -⟩
      rfl
    · -- the frame says that the cell number is the one just entered
      have hframe := NvsimInvariant.nvsim_spec (frame_invariant w file (w.loaded file) entered)
      have hrun := NvsimInvariant.nvsim_spec hI.toNvsimInvariant
      have hstart : entered.Frame entered := ⟨rfl, rfl, rfl, rfl, List.prefix_rfl⟩
      refine ((hrun.and hframe).conseq ?_ (fun _ _ ht => ht) fun t ht => Or.inr ht.1).bind
        fun failed => Triple.modify fun t ht => ?_
      · rintro _ rfl
        exact ⟨⟨hs.space, henter⟩, hs.space, hstart⟩
      · obtain ⟨⟨hspace, ht⟩, -, hframe⟩ := ht
        have hframe : entered.Frame t := by
          cases failed with
          | true => exact hframe
          | false => rcases hframe with ⟨-, h⟩ | ⟨-, -, h⟩ <;> exact h
        have hcell : t.cell = t.explored.length := by
          rw [hframe.cell, hframe.explored]
          exact hs.length.symm
        refine ⟨hspace, ?_, ?_⟩
        · show (t.explored ++ [_]).length = cell + 1
          rw [List.length_append, hframe.explored]
          exact congrArg (· + 1) hs.length
        · cases failed with
          | true => exact hI.fail hcell ht
          | false => exact hI.leave hcell ht

theorem eq_length_of_range_eq {n cell : Nat} {pre post : List Nat}
    (h : List.range n = pre ++ cell :: post) : cell = pre.length := by
  have hget := congrArg (fun l => l[pre.length]?) h
  rw [List.getElem?_append_right le_rfl, Nat.sub_self, List.getElem?_cons_zero] at hget
  obtain ⟨hlt, hcell⟩ := List.getElem?_eq_some_iff.mp hget
  rw [List.getElem_range] at hcell
  exact hcell.symm

/-- A run keeps its invariant over all cells. -/
theorem exploreCells_spec (hI : RunInvariant w file I B) :
    Triple (fun s => s = State.initial w) (exploreCells w file)
      (fun _ => Between w file B (w.loaded file).fileMemCell.length) (Stopped I B) := by
  refine Triple.modify_bind (fun s => s = (State.initial w).load w file) ?_ ?_
  · rintro _ rfl
    rfl
  · refine Triple.get_bind fun s hs => ?_
    subst hs
    refine (Triple.forM (fun pre => Between w file B pre.length)
      fun pre cell post hcells => ?_).conseq ?_ (fun _ t ht => ?_) fun _ ht => ht
    · have hlt : cell ∈ List.range (w.loaded file).fileMemCell.length := hcells ▸ by simp
      rw [eq_length_of_range_eq hcells, List.mem_range] at hlt
      rw [eq_length_of_range_eq hcells, List.length_append]
      exact exploreCell_spec hI hlt
    · rintro _ rfl
      exact ⟨Space.load w, rfl, hI.load⟩
    · rwa [List.length_range] at ht

/-- A run that returns ends with the merge and the printed results. -/
theorem main_spec (hI : RunInvariant w file I B) :
    Triple (fun s => s = State.initial w) (main w file)
      (fun _ t => ∃ s, Between w file B (w.loaded file).fileMemCell.length s ∧ t = s.finish)
      (Stopped I B) :=
  (exploreCells_spec hI).bind fun _ => Triple.modify fun s hs => ⟨s, hs, rfl⟩

/-- Where a run can be: stopped on the way, or at its end. -/
theorem run_cases (hI : RunInvariant w file I B) :
    Stopped I B (w.run file) ∨
      ∃ s, Between w file B (w.loaded file).fileMemCell.length s ∧ w.run file = s.finish := by
  have hend := main_spec hI (State.initial w) rfl
  rw [World.run]
  cases hmain : main w file (State.initial w) with
  | ok u t =>
      rw [hmain] at hend
      exact Or.inr hend
  | error e t =>
      rw [hmain] at hend
      exact Or.inl hend

end RunInvariant

/-! ## Small configurations -/

/-- A world of SRAM cells whose memory holds zeros. -/
def World.zeroed (evaluate : String → Technology → InputParameter → MemoryType → Geometry →
    Wire → Wire → Evaluation) : World where
  fuel := 4
  inputMemory := default
  techMemory := default
  recordMemory := default
  wireMemory := default
  memCellType := fun _ => some .SRAM
  tsvTable := fun _ _ _ => default
  evaluate := evaluate

/-- One byte in one subarray, for the data and for the tags. -/
def forceOneDesign : List OptionLine :=
  [.capacityB 1, .wordWidth 8, .forceBank 1 1 1 1, .forceMat 1 1 1 1, .forceMuxSenseAmp 1,
   .forceMuxOutputLev1 1, .forceMuxOutputLev2 1, .bufferDesignOptimization .latency_first,
   .forceTagBank 1 1 1 1, .forceTagMat 1 1 1 1, .forceTagMuxSenseAmp 1, .forceTagMuxOutputLev1 1,
   .forceTagMuxOutputLev2 1, .tagBufferDesignOptimization .latency_first, .stackedDieCount 1]

/-- Every wire attribute pinned. -/
def forceOneWire : List OptionLine :=
  [.localWireType .local_aggressive, .localWireRepeaterType .repeated_none,
   .localWireUseLowSwing false, .globalWireType .global_aggressive,
   .globalWireRepeaterType .repeated_none, .globalWireUseLowSwing false,
   .tagLocalWireType .local_aggressive, .tagLocalWireRepeaterType .repeated_none,
   .tagLocalWireUseLowSwing false, .tagGlobalWireType .global_aggressive,
   .tagGlobalWireRepeaterType .repeated_none, .tagGlobalWireUseLowSwing false]

/-- Every metric the same. -/
def Metrics.uniform (x : ℚ) : Metrics where
  readLatency := x
  writeLatency := x
  readDynamicEnergy := x
  writeDynamicEnergy := x
  leakage := x
  height := x
  width := x
  area := x

/-- An evaluation of the one design, with the subarray that passes the capacity
    checks: eight bits of data or the bits of one tag. -/
def Evaluation.uniform (invalid : Bool) (x : ℚ) (memoryType : MemoryType) : Evaluation where
  invalid := invalid
  metrics := .uniform x
  subarrayNumRow := 1
  subarrayNumColumn := if memoryType = .tag then 50 else 8

/-- A world where the one design is valid whatever its wires and its cell. -/
def World.allValid : World := .zeroed fun _ _ _ memoryType _ _ _ => .uniform false 1 memoryType

end Destiny
