/-
  Destiny.Search.State

  The state of a run of `main`: the globals (`inputParameter`, `tech`,
  `localWire`, `globalWire`, the current cell), the best-so-far records, and a
  trace of what happened.

  `World` holds what the search treats as given: the evaluation of a design
  (`Initialize`, `CalculateArea`, `CalculateRC`, `CalculateLatencyAndPower`), the
  TSV tables of `Technology`, the cell files, and the contents of memory no
  constructor initialises.

  The transitions of this module are the single steps `nvsim` and `main` are
  made of; `Search.Nvsim` strings them together.
-/

import Destiny.Search.Space

namespace Destiny

open Lib

/-! ## Technology -/

/-- Resistance, capacitance and area of a TSV. -/
structure TsvValue where
  res : ℚ
  cap : ℚ
  area : ℚ
  deriving DecidableEq, Inhabited

/-- The fields of `Technology` that change during a run: `resTSV`, `capTSV` and
    `areaTSV` at `Fine` and at `Coarse`, and the layer count they belong to. -/
structure Technology where
  layerCount : Int
  fine : TsvValue
  coarse : TsvValue
  deriving DecidableEq, Inhabited

/-- `Technology::WireTypeToTSVType`. -/
def WireTypeToTSVType : WireType → TSV_type
  | .local_aggressive | .semi_aggressive | .global_aggressive => .Fine
  | .local_conservative | .semi_conservative | .global_conservative | .dram_wordline => .Coarse

/-- The tables `tsv_parasitic_res`, `tsv_parasitic_cap` and `tsv_occupation_area`
    for a layer count, by TSV type and projection. -/
abbrev TsvTable := Int → TSV_type → Nat → TsvValue

/-- The TSV values of a layer count under the wire types and projections in force. -/
def TsvTable.values (table : TsvTable) (ip : InputParameter) (layers : Int) : Technology where
  layerCount := layers
  fine := table layers (WireTypeToTSVType ip.data.localWireType.max) ip.localTsvProjection
  coarse := table layers (WireTypeToTSVType ip.data.globalWireType.max) ip.globalTsvProjection

/-- `Technology::SetLayerCount`, with its early return. -/
def Technology.SetLayerCount (table : TsvTable) (ip : InputParameter) (layers : Int)
    (tech : Technology) : Technology :=
  if layers = tech.layerCount then tech else table.values ip layers

/-! ## The world -/

structure World where
  /-- bound on the passes of a loop -/
  fuel : Nat
  /-- what the memory of the `InputParameter` object holds -/
  inputMemory : InputParameter
  /-- what the memory of the `Technology` object holds -/
  techMemory : Technology
  /-- what the memory of the bank and wires of a new record holds -/
  recordMemory : Trial
  /-- what the memory of the global wires holds -/
  wireMemory : Wire
  /-- the type of the cell in a cell file, when there is such a file -/
  memCellType : String → Option MemCellType
  tsvTable : TsvTable
  /-- the evaluation of a design with a cell, local wire and global wire -/
  evaluate : String → Technology → InputParameter → MemoryType → Geometry → Wire → Wire →
    Evaluation

/-- `trialBank` after the calculations, with the wires it was evaluated with. -/
def World.trial (w : World) (cell : String) (tech : Technology) (ip : InputParameter)
    (memoryType : MemoryType) (geometry : Geometry) (localWire globalWire : Wire) : Trial where
  bank := { w.evaluate cell tech ip memoryType geometry localWire globalWire with
    geometry := geometry
    memoryType := memoryType }
  localWire := localWire
  globalWire := globalWire

/-! ## Traces -/

/-- The loop an evaluation belongs to. -/
inductive Stage
  | basic
  | refineLocal (t : Target)
  | refineGlobal (t : Target)
  | constrained
  deriving DecidableEq, Repr

/-- The loops that rebuild the design of a record (`TRY_AND_UPDATE`). -/
def Stage.refines : Stage → Bool
  | .refineLocal _ | .refineGlobal _ => true
  | .basic | .constrained => false

/-- One evaluation with everything it depended on. -/
structure Visit where
  /-- index of the explored cell -/
  cell : Nat
  cellFile : String
  stage : Stage
  memoryType : MemoryType
  tech : Technology
  inputParameter : InputParameter
  trial : Trial

inductive Event
  /-- "Using cell file" -/
  | cellFile (cell : Nat) (file : String)
  /-- `BIGFOR_TAG` or the first `BIGFOR` starts -/
  | loopStart (memoryType : MemoryType) (bounds : SearchBounds)
  | evaluated (v : Visit)
  /-- `compareAndUpdate` of a best record with the design just evaluated -/
  | compared (v : Visit) (t : Target) (old : Result)
  /-- `APPLY_LIMIT` on the data records of a cell -/
  | limitsApplied (cell : Nat) (limits : Limits)
  /-- a row of the CSV file: `tempResult` or the record `source` of a cell, for
      caches with a best tag -/
  | csvRow (cell : Nat) (source : Option Target) (data : Trial) (tag : Option (Target × Trial))
  /-- `print` or `printAsCache` of a merged record -/
  | printed (t : Target) (data : Result) (tag : Option Result)

/-- Why a run stops early. -/
inductive Halt
  /-- `exit(-1)` -/
  | exited
  /-- division by zero -/
  | crashed
  /-- a loop is not over within the fuel -/
  | outOfFuel
  deriving DecidableEq, Repr

/-! ## The state -/

/-- The best records of one cell, `bestDataResults` and `bestTagResults`. -/
abbrev Records := MemoryType → Target → Result

def Records.set (best : Records) (memoryType : MemoryType) (t : Target) (r : Result) : Records :=
  fun m u => if m = memoryType ∧ u = t then r else best m u

/-- What `main` keeps of an explored cell. -/
structure CellOutcome where
  best : Records
  /-- the solutions counted, none when `nvsim` failed -/
  solutions : Nat

structure State where
  inputParameter : InputParameter
  tech : Technology
  localWire : Wire
  globalWire : Wire
  /-- index of the cell being explored -/
  cell : Nat
  cellFile : String
  best : Records
  /-- `tempResult` -/
  temp : Trial
  numSolution : Nat
  /-- the outcomes of the cells explored so far -/
  explored : List CellOutcome
  totalSolutions : Nat
  trace : List Event

abbrev Search := EStateM Halt State

/-- The records of a newly allocated `Result` array, with the targets and the
    cell `nvsim` assigns first. -/
def World.newRecords (w : World) (cell : Nat) : Records :=
  fun _ t => Result.new w.recordMemory t cell

/-! ## Transitions -/

namespace State

def emit (s : State) (e : Event) : State := { s with trace := s.trace ++ [e] }

def emitAll (s : State) (es : List Event) : State := { s with trace := s.trace ++ es }

/-- The evaluation of a design in a state. -/
def visit (w : World) (s : State) (stage : Stage) (memoryType : MemoryType)
    (geometry : Geometry) : Visit where
  cell := s.cell
  cellFile := s.cellFile
  stage := stage
  memoryType := memoryType
  tech := s.tech
  inputParameter := s.inputParameter
  trial := w.trial s.cellFile s.tech s.inputParameter memoryType geometry s.localWire s.globalWire

/-- `compareAndUpdate` of a best record with an evaluated design. -/
def compare (s : State) (v : Visit) (t : Target) : State :=
  { s.emit (.compared v t (s.best v.memoryType t)) with
    best := s.best.set v.memoryType t ((s.best v.memoryType t).compareAndUpdate v.trial) }

/-- `UPDATE_BEST_DATA` and `UPDATE_BEST_TAG`. -/
def UPDATE_BEST (s : State) (v : Visit) : State :=
  Target.all.foldl (fun s t => s.compare v t) { s with temp := v.trial }

/-- `TRY_AND_UPDATE`: the design of a record with the wires in force. -/
def TRY_AND_UPDATE (w : World) (stage : Stage) (memoryType : MemoryType) (t : Target)
    (s : State) : State :=
  let v := s.visit w stage memoryType (s.best memoryType t).stored.bank.geometry
  { s.emit (.evaluated v) with temp := v.trial }.compare v t

/-- `printAsCacheToCsvFile` writes a row for a data and a tag bank only. -/
def printAsCacheToCsvFile (s : State) (source : Option Target) (data : Trial) (t : Target) :
    Option Event :=
  let tag := (s.best .tag t).stored
  if data.bank.memoryType = .data ∧ tag.bank.memoryType = .tag then
    some (.csvRow s.cell source data (some (t, tag)))
  else none

/-- `printToCsvFile` and the end of the line. -/
def printToCsvFile (s : State) (source : Option Target) (data : Trial) : Event :=
  .csvRow s.cell source data none

/-- The rows of `OUTPUT_TO_FILE`: `tempResult`, for a cache with each best tag. -/
def tempRows (s : State) : List Event :=
  if s.inputParameter.designTarget = .cache then
    Target.all.filterMap (s.printAsCacheToCsvFile none s.temp)
  else [s.printToCsvFile none s.temp]

def OUTPUT_TO_FILE (s : State) : State := s.emitAll s.tempRows

/-- The rows of a pruned exploration: every best record. -/
def prunedRows (s : State) : List Event :=
  if s.inputParameter.designTarget = .cache then
    Target.all.filterMap fun t => s.printAsCacheToCsvFile (some t) (s.best .data t).stored t
  else Target.all.map fun t => s.printToCsvFile (some t) (s.best .data t).stored

/-- The limits the constraints allow, from the best record of each metric. -/
def allowedData (s : State) : Limits :=
  let ip := s.inputParameter
  let metrics := fun t => (s.best .data t).stored.bank.metrics
  { limitReadLatency :=
      (metrics .read_latency_optimized).readLatency * (ip.readLatencyConstraint + 1)
    limitWriteLatency :=
      (metrics .write_latency_optimized).writeLatency * (ip.writeLatencyConstraint + 1)
    limitReadDynamicEnergy :=
      (metrics .read_energy_optimized).readDynamicEnergy * (ip.readDynamicEnergyConstraint + 1)
    limitWriteDynamicEnergy :=
      (metrics .write_energy_optimized).writeDynamicEnergy * (ip.writeDynamicEnergyConstraint + 1)
    limitReadEdp := (metrics .read_edp_optimized).readEdp * (ip.readEdpConstraint + 1)
    limitWriteEdp := (metrics .write_edp_optimized).writeEdp * (ip.writeEdpConstraint + 1)
    limitArea := (metrics .area_optimized).area * (ip.areaConstraint + 1)
    limitLeakage := (metrics .leakage_optimized).leakage * (ip.leakageConstraint + 1) }

/-- `APPLY_LIMIT` on every data record. -/
def APPLY_LIMIT (s : State) (allowed : Limits) : State :=
  { s.emit (.limitsApplied s.cell allowed) with
    best := fun m t =>
      if m = .data then { (s.best m t).reset with limits := allowed } else s.best m t }

end State

/-! ## Small lemmas -/

@[simp] theorem Records.set_self (best : Records) (m : MemoryType) (t : Target) (r : Result) :
    best.set m t r m t = r := if_pos ⟨rfl, rfl⟩

theorem Records.set_of_ne (best : Records) {m m' : MemoryType} {t t' : Target} (r : Result)
    (h : ¬ (m' = m ∧ t' = t)) : best.set m t r m' t' = best m' t' := if_neg h

section
variable (s : State) (e : Event)

@[simp] theorem State.emit_trace : (s.emit e).trace = s.trace ++ [e] := rfl
@[simp] theorem State.emit_best : (s.emit e).best = s.best := rfl
@[simp] theorem State.emit_cell : (s.emit e).cell = s.cell := rfl
@[simp] theorem State.emit_inputParameter : (s.emit e).inputParameter = s.inputParameter := rfl
@[simp] theorem State.emit_tech : (s.emit e).tech = s.tech := rfl
@[simp] theorem State.emit_localWire : (s.emit e).localWire = s.localWire := rfl
@[simp] theorem State.emit_globalWire : (s.emit e).globalWire = s.globalWire := rfl
@[simp] theorem State.emit_numSolution : (s.emit e).numSolution = s.numSolution := rfl
@[simp] theorem State.emit_temp : (s.emit e).temp = s.temp := rfl

end

@[simp] theorem State.compare_best_self (s : State) (v : Visit) (t : Target) :
    (s.compare v t).best v.memoryType t = (s.best v.memoryType t).compareAndUpdate v.trial :=
  Records.set_self _ _ _ _

theorem State.compare_best_of_ne (s : State) (v : Visit) {m : MemoryType} {t u : Target}
    (h : ¬ (m = v.memoryType ∧ u = t)) : (s.compare v t).best m u = s.best m u :=
  Records.set_of_ne _ _ h

/-- Comparisons with several targets in turn. -/
theorem State.foldl_compare (s : State) (v : Visit) {ts : List Target} (hts : ts.Nodup) :
    ts.foldl (fun s t => s.compare v t) s =
      { s with
        best := fun m t =>
          if m = v.memoryType ∧ t ∈ ts then (s.best m t).compareAndUpdate v.trial else s.best m t
        trace := s.trace ++ ts.map fun t => .compared v t (s.best v.memoryType t) } := by
  induction ts generalizing s with
  | nil => simp
  | cons t ts ih =>
      obtain ⟨hnot, hts⟩ := List.nodup_cons.mp hts
      rw [List.foldl_cons, ih _ hts]
      -- The records of the later targets are still those of `s`.
      have hother : ∀ u ∈ ts, (s.compare v t).best v.memoryType u = s.best v.memoryType u :=
        fun u hu => s.compare_best_of_ne v fun h => hnot (h.2 ▸ hu)
      have htrace : (s.compare v t).trace ++
            ts.map (fun u => Event.compared v u ((s.compare v t).best v.memoryType u)) =
          s.trace ++ (t :: ts).map fun u => .compared v u (s.best v.memoryType u) := by
        rw [List.map_congr_left fun u hu => by rw [hother u hu]]
        simp [State.compare]
      have hbest : (fun m u =>
            if m = v.memoryType ∧ u ∈ ts then
              ((s.compare v t).best m u).compareAndUpdate v.trial
            else (s.compare v t).best m u) =
          fun m u =>
            if m = v.memoryType ∧ u ∈ t :: ts then (s.best m u).compareAndUpdate v.trial
            else s.best m u := by
        funext m u
        by_cases h : m = v.memoryType ∧ u = t
        · obtain ⟨rfl, rfl⟩ := h
          simp [hnot]
        · rw [s.compare_best_of_ne v h]
          have hmem : (m = v.memoryType ∧ u ∈ ts) ↔ (m = v.memoryType ∧ u ∈ t :: ts) := by
            rw [List.mem_cons, and_or_left, or_iff_right h]
          simp only [hmem]
      rw [htrace, hbest]
      rfl

/-- `UPDATE_BEST` compares every record of the design's array once. -/
theorem State.UPDATE_BEST_eq (s : State) (v : Visit) :
    s.UPDATE_BEST v =
      { s with
        temp := v.trial
        best := fun m t =>
          if m = v.memoryType then (s.best m t).compareAndUpdate v.trial else s.best m t
        trace := s.trace ++ Target.all.map fun t => .compared v t (s.best v.memoryType t) } := by
  rw [UPDATE_BEST, foldl_compare _ _ Target.nodup_all]
  simp

/-- A row shows the record of the tag it names. -/
def State.ShowsTag (s : State) (tag : Option (Target × Trial)) : Prop :=
  ∀ t x, tag = some (t, x) → x = (s.best .tag t).stored

theorem State.showsTag_none (s : State) : s.ShowsTag none := by
  intro t x h
  cases h

theorem State.eq_csvRow_of_printAsCache {s : State} {source : Option Target} {data : Trial}
    {t : Target} {e : Event} (h : s.printAsCacheToCsvFile source data t = some e) :
    ∃ tag, s.ShowsTag tag ∧ e = .csvRow s.cell source data tag := by
  rw [printAsCacheToCsvFile] at h
  split at h
  · refine ⟨_, ?_, (Option.some.inj h).symm⟩
    rintro u x ⟨⟩
    rfl
  · cases h

/-- A row of `OUTPUT_TO_FILE`. -/
theorem State.mem_tempRows {s : State} {e : Event} (h : e ∈ s.tempRows) :
    ∃ tag, s.ShowsTag tag ∧ e = .csvRow s.cell none s.temp tag := by
  rw [tempRows] at h
  split at h
  · obtain ⟨t, -, ht⟩ := List.mem_filterMap.mp h
    exact eq_csvRow_of_printAsCache ht
  · exact ⟨none, s.showsTag_none, List.mem_singleton.mp h⟩

/-- A row of a pruned exploration. -/
theorem State.mem_prunedRows {s : State} {e : Event} (h : e ∈ s.prunedRows) :
    ∃ t tag, s.ShowsTag tag ∧ e = .csvRow s.cell (some t) (s.best .data t).stored tag := by
  rw [prunedRows] at h
  split at h
  · obtain ⟨t, -, ht⟩ := List.mem_filterMap.mp h
    exact ⟨t, eq_csvRow_of_printAsCache ht⟩
  · obtain ⟨t, -, ht⟩ := List.mem_map.mp h
    exact ⟨t, none, s.showsTag_none, ht.symm⟩

@[simp] theorem World.trial_geometry (w : World) (c : String) (tech : Technology)
    (ip : InputParameter) (m : MemoryType) (g : Geometry) (l gl : Wire) :
    (w.trial c tech ip m g l gl).bank.geometry = g := rfl

end Destiny
