/-
  Destiny.Search.Record

  What the search compares and keeps: the metrics of an evaluated bank, the
  wires it was evaluated with, and the best-so-far record of one optimisation
  target (`Result`).

  `Result.accepts` is the test of `Result::compareAndUpdate`: the new metrics
  are within the limits of the record and strictly better in its objective.
  `compareAndUpdate_stored` connects it to the running best of `Lib.RunningBest`.
-/

import Destiny.Lib.RunningBest
import Destiny.InputParameter
import Mathlib.Algebra.Order.Field.Rat

namespace Destiny

open Lib

/-! ## Designs -/

/-- The loop variables of `BIGFOR`. -/
structure DesignPoint where
  numRowMat : Int
  numColumnMat : Int
  stackedDieCount : Int
  numActiveMatPerRow : Int
  numActiveMatPerColumn : Int
  numRowSubarray : Int
  numColumnSubarray : Int
  numActiveSubarrayPerRow : Int
  numActiveSubarrayPerColumn : Int
  muxSenseAmp : Int
  muxOutputLev1 : Int
  muxOutputLev2 : Int
  numRowPerSet : Int
  areaOptimizationLevel : BufferDesignTarget
  deriving DecidableEq, Repr, Inhabited

/-- The product every block size is divided by. -/
def DesignPoint.activeProduct (p : DesignPoint) : Int :=
  p.numActiveMatPerRow * p.numActiveMatPerColumn * p.numActiveSubarrayPerRow *
    p.numActiveSubarrayPerColumn

/-- The arguments of `Bank::Initialize` a bank stores. -/
structure Geometry extends DesignPoint where
  capacity : Int
  blockSize : Int
  associativity : Int
  partitionGranularity : Nat
  deriving DecidableEq, Repr, Inhabited

/-- The arguments of `Wire::Initialize`; process node and temperature never
    change in a run. -/
structure Wire where
  wireType : WireType
  wireRepeaterType : WireRepeaterType
  isLowSwing : Bool
  deriving DecidableEq, Repr, Inhabited

/-- `Wire::Initialize` exits: low swing is not supported for repeated wires. -/
def Wire.unsupported (w : Wire) : Bool :=
  w.wireRepeaterType != .repeated_none && w.isLowSwing

/-! ## Metrics -/

/-- The metrics of a bank that the search compares or resets. -/
structure Metrics where
  readLatency : ℚ
  writeLatency : ℚ
  readDynamicEnergy : ℚ
  writeDynamicEnergy : ℚ
  leakage : ℚ
  height : ℚ
  width : ℚ
  area : ℚ
  deriving DecidableEq, Inhabited

/-- "initialize the worst case" -/
def Metrics.worstCase : Metrics where
  readLatency := invalid_value
  writeLatency := invalid_value
  readDynamicEnergy := invalid_value
  writeDynamicEnergy := invalid_value
  leakage := invalid_value
  height := invalid_value
  width := invalid_value
  area := invalid_value

def Metrics.readEdp (m : Metrics) : ℚ := m.readLatency * m.readDynamicEnergy

def Metrics.writeEdp (m : Metrics) : ℚ := m.writeLatency * m.writeDynamicEnergy

/-- What a target compares. -/
def Metrics.objective (m : Metrics) : Target → ℚ
  | .read_latency_optimized => m.readLatency
  | .write_latency_optimized => m.writeLatency
  | .read_energy_optimized => m.readDynamicEnergy
  | .write_energy_optimized => m.writeDynamicEnergy
  | .read_edp_optimized => m.readEdp
  | .write_edp_optimized => m.writeEdp
  | .leakage_optimized => m.leakage
  | .area_optimized => m.area

/-- The limits of a record, one for each target's metric. -/
structure Limits where
  limitReadLatency : ℚ
  limitWriteLatency : ℚ
  limitReadDynamicEnergy : ℚ
  limitWriteDynamicEnergy : ℚ
  limitReadEdp : ℚ
  limitWriteEdp : ℚ
  limitArea : ℚ
  limitLeakage : ℚ
  deriving DecidableEq

/-- "No constraints" -/
def Limits.unset : Limits where
  limitReadLatency := invalid_value
  limitWriteLatency := invalid_value
  limitReadDynamicEnergy := invalid_value
  limitWriteDynamicEnergy := invalid_value
  limitReadEdp := invalid_value
  limitWriteEdp := invalid_value
  limitArea := invalid_value
  limitLeakage := invalid_value

/-- The condition on the limits in `Result::compareAndUpdate`. -/
def Metrics.within (m : Metrics) (l : Limits) : Bool :=
  decide (m.readLatency ≤ l.limitReadLatency) && decide (m.writeLatency ≤ l.limitWriteLatency) &&
    decide (m.readDynamicEnergy ≤ l.limitReadDynamicEnergy) &&
    decide (m.writeDynamicEnergy ≤ l.limitWriteDynamicEnergy) &&
    decide (m.readEdp ≤ l.limitReadEdp) && decide (m.writeEdp ≤ l.limitWriteEdp) &&
    decide (m.area ≤ l.limitArea) && decide (m.leakage ≤ l.limitLeakage)

/-! ## Trials and records -/

/-- What evaluating a design gives: the final `invalid` flag, the metrics, and
    the subarray size the capacity checks read. -/
structure Evaluation where
  invalid : Bool
  metrics : Metrics
  subarrayNumRow : Int
  subarrayNumColumn : Int
  deriving DecidableEq, Inhabited

/-- An evaluated bank with the arguments it stores. -/
structure EvaluatedBank extends Evaluation where
  geometry : Geometry
  memoryType : MemoryType
  deriving DecidableEq, Inhabited

/-- A bank with the wires it was evaluated with. -/
structure Trial where
  bank : EvaluatedBank
  localWire : Wire
  globalWire : Wire
  deriving DecidableEq, Inhabited

/-- The capacity checks `VERIFY_DATA_CAPACITY` and `VERIFY_TAG_CAPACITY` fail. -/
def EvaluatedBank.violatesCapacity (b : EvaluatedBank) : Bool :=
  b.subarrayNumColumn * b.subarrayNumRow * b.geometry.numColumnMat * b.geometry.numRowMat *
    b.geometry.numColumnSubarray * b.geometry.numRowSubarray * b.geometry.stackedDieCount !=
      b.geometry.capacity

/-- A best-so-far record.  `cellTech` is the index of the explored cell. -/
structure Result where
  optimizationTarget : Target
  stored : Trial
  limits : Limits
  cellTech : Nat
  deriving DecidableEq

/-- `Result::Result`.  The geometry and the wires of a new record are what the
    memory held; its metrics are the worst case, and `Bank::Bank` clears `invalid`. -/
def Result.new (memory : Trial) (t : Target) (cell : Nat) : Result where
  optimizationTarget := t
  stored := { memory with bank := { memory.bank with metrics := .worstCase, invalid := false } }
  limits := .unset
  cellTech := cell

/-- `Result::reset`: only the metrics. -/
def Result.reset (r : Result) : Result :=
  { r with stored := { r.stored with bank := { r.stored.bank with metrics := .worstCase } } }

/-- The value the record's target compares. -/
def Result.key (r : Result) (x : Trial) : ℚ := x.bank.metrics.objective r.optimizationTarget

/-- `toUpdate` of `Result::compareAndUpdate`. -/
def Result.accepts (r : Result) (new : Trial) : Bool :=
  new.bank.metrics.within r.limits && decide (r.key new < r.key r.stored)

def Result.compareAndUpdate (r : Result) (new : Trial) : Result :=
  if r.accepts new then { r with stored := new } else r

/-! ## How records change -/

@[simp] theorem Result.compareAndUpdate_limits (r : Result) (x : Trial) :
    (r.compareAndUpdate x).limits = r.limits := by
  rw [compareAndUpdate]
  split <;> rfl

@[simp] theorem Result.compareAndUpdate_optimizationTarget (r : Result) (x : Trial) :
    (r.compareAndUpdate x).optimizationTarget = r.optimizationTarget := by
  rw [compareAndUpdate]
  split <;> rfl

@[simp] theorem Result.compareAndUpdate_cellTech (r : Result) (x : Trial) :
    (r.compareAndUpdate x).cellTech = r.cellTech := by
  rw [compareAndUpdate]
  split <;> rfl

theorem Result.compareAndUpdate_of_accepts {r : Result} {x : Trial} (h : r.accepts x = true) :
    r.compareAndUpdate x = { r with stored := x } := if_pos h

theorem Result.compareAndUpdate_of_not_accepts {r : Result} {x : Trial}
    (h : r.accepts x = false) : r.compareAndUpdate x = r := if_neg (by simp [h])

/-- A comparison is one step of the running best within the limits. -/
theorem Result.compareAndUpdate_stored (r : Result) (x : Trial) :
    (r.compareAndUpdate x).stored =
      keepBest (fun y : Trial => y.bank.metrics.within r.limits) r.key r.stored x := by
  rw [compareAndUpdate, keepBest, accepts]
  by_cases h : x.bank.metrics.within r.limits = true ∧ r.key x < r.key r.stored
  · rw [if_pos (by simpa using h), if_pos h]
  · rw [if_neg (by simpa using h), if_neg h]

/-- Comparisons in turn are the running best within the limits. -/
theorem Result.foldl_compareAndUpdate (xs : List Trial) (r : Result) :
    xs.foldl Result.compareAndUpdate r =
      { r with
        stored := xs.foldl (keepBest (fun y : Trial => y.bank.metrics.within r.limits) r.key)
          r.stored } := by
  induction xs generalizing r with
  | nil => rfl
  | cons x xs ih =>
      have hkey : (r.compareAndUpdate x).key = r.key := by
        funext y
        rw [Result.key, Result.key, compareAndUpdate_optimizationTarget]
      have hcompare : r.compareAndUpdate x =
          { r with stored := (r.compareAndUpdate x).stored } := by
        rw [compareAndUpdate]
        split <;> rfl
      rw [List.foldl_cons, List.foldl_cons, ih, hkey, compareAndUpdate_limits,
        compareAndUpdate_stored]
      rw [hcompare]

end Destiny
