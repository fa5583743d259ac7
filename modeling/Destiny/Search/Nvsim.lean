/-
  Destiny.Search.Nvsim

  `nvsim` and `main` as programs over `State`: the tag exploration, the restored
  search space, the data exploration, the pruned output, the constrained
  exploration, and the loop over the cell files with the merge at its end.

  Messages on the console other than the printed results, the counter
  `numDesigns`, and the pruning limits (assigned but never compared with
  anything) are left out.
-/

import Destiny.Bank.Basic
import Destiny.Search.State

namespace Destiny

open Lib

/-! ## Steps that may stop the run -/

/-- Stop the run when a check fails. -/
def stopIf (failed : Bool) (halt : Halt) : Search Unit :=
  if failed then throw halt else pure ()

/-- `localWire->Initialize`. -/
def setLocalWire (x : Wire) : Search Unit := do
  modify fun s => { s with localWire := x }
  stopIf x.unsupported .exited

/-- `globalWire->Initialize`. -/
def setGlobalWire (x : Wire) : Search Unit := do
  modify fun s => { s with globalWire := x }
  stopIf x.unsupported .exited

def INITIAL_BASIC_WIRE (ip : InputParameter) : Search Unit := do
  setLocalWire ip.data.basicLocalWire
  setGlobalWire ip.data.basicGlobalWire

/-- `LOAD_GLOBAL_WIRE` of a best record. -/
def LOAD_GLOBAL_WIRE (memoryType : MemoryType) (t : Target) : Search Unit := do
  let s ← get
  setGlobalWire (s.best memoryType t).stored.globalWire

/-- `LOAD_LOCAL_WIRE` of a best record. -/
def LOAD_LOCAL_WIRE (memoryType : MemoryType) (t : Target) : Search Unit := do
  let s ← get
  setLocalWire (s.best memoryType t).stored.localWire

/-- The designs and cells "still under development". -/
def State.underDevelopment (w : World) (s : State) : Bool :=
  s.inputParameter.designTarget == .CAM_chip || w.memCellType s.cellFile == some .DRAM ||
    w.memCellType s.cellFile == some .MLCNAND

/-- "H-tree does not support external sensing scheme" -/
def InputParameter.externalHtree (ip : InputParameter) : Bool :=
  ip.routingMode == .h_tree && !ip.internalSensing

/-- "Associativity setting is ignored for non-cache designs" -/
def InputParameter.ignoreAssociativity (ip : InputParameter) : InputParameter :=
  if ip.designTarget ≠ .cache ∧ 1 < ip.associativity then { ip with associativity := 1 } else ip

def applyConstraint (w : World) : Search Unit := do
  let s ← get
  stopIf (s.underDevelopment w) .exited
  modify fun s => { s with inputParameter := s.inputParameter.ignoreAssociativity }
  stopIf s.inputParameter.externalHtree .exited

/-! ## One design -/

/-- The sizes `CALCULATE` takes besides the loop variables. -/
structure ArrayShape where
  /-- in bits -/
  capacity : Int
  /-- in bits -/
  blockSize : Int
  associativity : Int
  partitionGranularity : Nat

def DesignPoint.geometry (p : DesignPoint) (a : ArrayShape) : Geometry :=
  { p with
    capacity := a.capacity
    blockSize := a.blockSize
    associativity := a.associativity
    partitionGranularity := a.partitionGranularity }

@[simp] theorem DesignPoint.geometry_toDesignPoint (p : DesignPoint) (a : ArrayShape) :
    (p.geometry a).toDesignPoint = p := rfl

/-- `CALCULATE`, and for a bank that passes `keep` the capacity check, the count
    and the comparisons with the best records. -/
def tryDesign (w : World) (stage : Stage) (memoryType : MemoryType)
    (keep : EvaluatedBank → Bool) (output : Search Unit) (geometry : Geometry) : Search Unit := do
  let s ← get
  let v := s.visit w stage memoryType geometry
  modify fun s => s.emit (.evaluated v)
  if keep v.trial.bank then do
    stopIf v.trial.bank.violatesCapacity .exited
    modify fun s => { s with numSolution := s.numSolution + 1 }.UPDATE_BEST v
    output
  else pure ()

/-- The body of every nest: designs too aggressively partitioned for a block of
    `blockSize` bits are passed over. -/
def partitioned (blockSize : Int) (p : DesignPoint) (body : Search Unit) : Search Unit := do
  stopIf (p.activeProduct == 0) .crashed
  if blockSize.tdiv p.activeProduct = 0 then pure () else body

/-! ## Refinement -/

/-- The body of a refinement: every wire to try is set in turn, the other wire
    is loaded from each record, and the record's design is tried with both. -/
def refineWire (w : World) (memoryType : MemoryType) (set : Wire → Search Unit)
    (load : MemoryType → Target → Search Unit) (stage : Target → Stage) (wires : List Wire)
    (output : Search Unit) : Search Unit :=
  wires.forM fun x => do
    set x
    Target.all.forM fun t => do
      load memoryType t
      modify (State.TRY_AND_UPDATE w (stage t) memoryType t)
    output

/-- "refine local wire type" -/
def refineLocalWire (w : World) (ip : InputParameter) (memoryType : MemoryType)
    (output : Search Unit) : Search Unit :=
  refineWire w memoryType setLocalWire LOAD_GLOBAL_WIRE .refineLocal
    (ip.array memoryType).localWires output

/-- "refine global wire type" -/
def refineGlobalWire (w : World) (ip : InputParameter) (memoryType : MemoryType)
    (output : Search Unit) : Search Unit :=
  refineWire w memoryType setGlobalWire LOAD_LOCAL_WIRE .refineGlobal
    (ip.array memoryType).globalWires output

/-- Both refinements, when the nest found a solution. -/
def refine (w : World) (ip : InputParameter) (memoryType : MemoryType) (output : Search Unit) :
    Search Unit := do
  let s ← get
  if 0 < s.numSolution then do
    refineLocalWire w ip memoryType output
    refineGlobalWire w ip memoryType output
  else pure ()

/-! ## The tag exploration -/

/-- Address bits a tag holds, with its dirty and valid bits. -/
def InputParameter.tagBits (ip : InputParameter) : Int :=
  let numDataSet := ip.capacity * 8 / ip.wordWidth / ip.associativity
  -- `numDataSet` is an `int`.
  let numIndexBit := truncLog2 ((numDataSet : Int).bmod (2 ^ 32))
  let numOffsetBit := truncLog2 ((ip.wordWidth / 8 : Nat) : ℚ)
  TOTAL_ADDRESS_BIT - numIndexBit - numOffsetBit + 2

/-- The sizes of a tag array; the block is padded to the active product. -/
def InputParameter.tagShape (ip : InputParameter) (partitionGranularity : Nat)
    (p : DesignPoint) : ArrayShape :=
  let blockSize := padBlockSize ip.tagBits p.activeProduct
  { capacity := (ip.capacity * 8 / ip.wordWidth : Nat) * blockSize
    blockSize := blockSize
    associativity := ip.associativity
    partitionGranularity := partitionGranularity }

/-- The body of `BIGFOR_TAG`. -/
def tagDesign (w : World) (ip : InputParameter) (partitionGranularity : Nat) (p : DesignPoint) :
    Search Unit := do
  modify fun s =>
    { s with tech := s.tech.SetLayerCount w.tsvTable s.inputParameter p.stackedDieCount }
  partitioned ip.tagBits p <|
    tryDesign w .basic .tag (fun b => !b.invalid) (pure ())
      (p.geometry (ip.tagShape partitionGranularity p))

/-- The tag exploration over the reduced search space `ip`. -/
def exploreTag (w : World) (ip : InputParameter) (partitionGranularity : Nat) : Search Unit := do
  stopIf (ip.wordWidth == 0 || ip.associativity == 0) .crashed
  INITIAL_BASIC_WIRE ip
  modify fun s => s.emit (.loopStart .tag ip.toSearchBounds)
  (ip.bigFor w.fuel .tag).forEach .outOfFuel (tagDesign w ip partitionGranularity)
  refine w ip .tag (pure ())

/-! ## The data exploration -/

/-- The bounds the access mode overwrites: a set is not distributed into
    several rows in normal mode. -/
def InputParameter.adjustAccessMode (ip : InputParameter) : InputParameter :=
  if ip.designTarget = .cache ∧ ip.cacheAccessMode = .normal_access_mode then
    { ip with numRowPerSet := .pin 1 }
  else ip

/-- The sizes of a data array by the access mode. -/
def InputParameter.accessShape (ip : InputParameter) (partitionGranularity : Nat) : ArrayShape :=
  let shape : ArrayShape :=
    { capacity := ip.capacity * 8
      blockSize := ip.wordWidth
      associativity := ip.associativity
      partitionGranularity := partitionGranularity }
  if ip.designTarget = .cache then
    match ip.cacheAccessMode with
    | .sequential_access_mode => { shape with associativity := 1 }
    | .fast_access_mode =>
        { shape with blockSize := shape.blockSize * shape.associativity, associativity := 1 }
    | .normal_access_mode => shape
  else shape

/-- The sizes of a data array; NAND flash and DRAM chips are read by pages. -/
def InputParameter.dataShape (ip : InputParameter) (cellType : Option MemCellType)
    (partitionGranularity : Nat) : ArrayShape :=
  if ip.designTarget = .RAM_chip ∧ (cellType = some .SLCNAND ∨ cellType = some .DRAM) then
    { ip.accessShape partitionGranularity with blockSize := ip.pageSize, associativity := 1 }
  else ip.accessShape partitionGranularity

/-- A full exploration without pruning writes every design it finds. -/
def InputParameter.writesEveryDesign (ip : InputParameter) : Bool :=
  ip.optimizationTarget == .full_exploration && !ip.isPruningEnabled

/-- `OUTPUT_TO_FILE` in a full exploration without pruning. -/
def outputDesign (ip : InputParameter) : Search Unit :=
  if ip.writesEveryDesign then modify State.OUTPUT_TO_FILE else pure ()

/-- The body of the first `BIGFOR`. -/
def dataDesign (w : World) (ip : InputParameter) (shape : ArrayShape) (p : DesignPoint) :
    Search Unit :=
  partitioned shape.blockSize p <|
    tryDesign w .basic .data (fun b => !b.invalid) (outputDesign ip) (p.geometry shape)

/-- The first `BIGFOR` with the wires it starts from. -/
def dataLoop (w : World) (ip : InputParameter) (shape : ArrayShape) : Search Unit := do
  INITIAL_BASIC_WIRE ip
  modify fun s => s.emit (.loopStart .data ip.toSearchBounds)
  (ip.bigFor w.fuel .data).forEach .outOfFuel (dataDesign w ip shape)

/-- The unconstrained data exploration. -/
def exploreData (w : World) (ip : InputParameter) (shape : ArrayShape) : Search Unit := do
  dataLoop w ip shape
  refine w ip .data (outputDesign ip)

/-- The rows of a full exploration with pruning. -/
def outputPruned (ip : InputParameter) : Search Unit :=
  if ip.optimizationTarget == .full_exploration && ip.isPruningEnabled then
    modify fun s => s.emitAll s.prunedRows
  else pure ()

/-! ## The constrained exploration -/

/-- The body of the second `BIGFOR`. -/
def constrainedDesign (w : World) (shape : ArrayShape) (allowed : Limits) (p : DesignPoint) :
    Search Unit :=
  partitioned shape.blockSize p <|
    tryDesign w .constrained .data (fun b => !b.invalid && b.metrics.within allowed) (pure ())
      (p.geometry shape)

/-- The exploration under the limits `allowed`. -/
def exploreConstrained (w : World) (ip : InputParameter) (shape : ArrayShape)
    (allowed : Limits) : Search Unit := do
  modify fun s => { s.APPLY_LIMIT allowed with numSolution := 0 }
  INITIAL_BASIC_WIRE ip
  (ip.bigFor w.fuel .data).forEach .outOfFuel (constrainedDesign w shape allowed)

/-- "If design constraint is applied" -/
def InputParameter.constrains (ip : InputParameter) : Prop :=
  ip.optimizationTarget ≠ .full_exploration ∧ ip.isConstraintApplied = true

instance (ip : InputParameter) : Decidable ip.constrains :=
  inferInstanceAs (Decidable (_ ∧ _))

def applyDesignConstraints (w : World) (ip : InputParameter) (shape : ArrayShape) :
    Search Unit := do
  let s ← get
  if ip.constrains then
    exploreConstrained w ip shape s.allowedData
  else pure ()

/-! ## nvsim -/

/-- Everything after the tag phase. -/
def searchData (w : World) (partitionGranularity : Nat) : Search Unit := do
  modify fun s => { s with inputParameter := s.inputParameter.adjustAccessMode }
  let s ← get
  let ip := s.inputParameter
  let shape := ip.dataShape (w.memCellType s.cellFile) partitionGranularity
  exploreData w ip shape
  outputPruned ip
  applyDesignConstraints w ip shape

/-- `RESTORE_SEARCH_SIZE` and the re-read "just for restoring the search space". -/
def InputParameter.restore (file : List OptionLine) (ip : InputParameter) : InputParameter :=
  (RESTORE_SEARCH_SIZE ip).ReadInputParameterFromFile file

/-- "search tag first" -/
def searchTag (w : World) (file : List OptionLine) (partitionGranularity : Nat) :
    Search Bool := do
  modify fun s => { s with inputParameter := REDUCE_SEARCH_SIZE s.inputParameter }
  let s ← get
  exploreTag w s.inputParameter partitionGranularity
  let s ← get
  if s.numSolution = 0 then pure false
  else do
    modify fun s => { s with numSolution := 0, inputParameter := s.inputParameter.restore file }
    applyConstraint w
    pure true

/-- `nvsim`; the value says whether it failed ("No valid solutions for tags"). -/
def nvsim (w : World) (file : List OptionLine) : Search Bool := do
  applyConstraint w
  let s ← get
  let partitionGranularity := s.inputParameter.partitionGranularity
  if s.inputParameter.designTarget = .cache then do
    let found ← searchTag w file partitionGranularity
    if found then do
      searchData w partitionGranularity
      pure false
    else pure true
  else do
    searchData w partitionGranularity
    pure false

end Destiny
