/-
  Destiny.InputParameter

  The `InputParameter` object: its search bounds and the settings that steer
  `main` and `nvsim`, the macros that overwrite the bounds, and the effect of
  each option line of a configuration file.

  * `ArrayBounds` holds the `min`/`max` pairs that exist twice, once for the
    data array and once (with `Tag` in the name) for the tag array;
    `SearchBounds` adds the two pairs both arrays share.
  * `RESTORE_SEARCH_SIZE` and `REDUCE_SEARCH_SIZE` are the macros of macros.h.
  * `OptionLine` has one constructor for each option that sets a modelled
    field, with the values `sscanf` reads from a well-formed line;
    `applyLine` is the body of the reading loop for that line.

  Settings that no modelled function reads (process node, temperature, device
  roadmap, driver sizes, output prefix and so on) are left out; their option
  lines, comments and unknown lines are `OptionLine.other`.
-/

import Destiny.Typedef
import Mathlib.Algebra.Field.Rat

namespace Destiny

/-- `invalid_value` of global.h. -/
def invalid_value : ℚ := 10 ^ 41

/-! ## The object -/

/-- The bounds of one array (data or tag). -/
structure ArrayBounds where
  numRowMat : Range Int
  numColumnMat : Range Int
  numActiveMatPerRow : Range Int
  numActiveMatPerColumn : Range Int
  numRowSubarray : Range Int
  numColumnSubarray : Range Int
  numActiveSubarrayPerRow : Range Int
  numActiveSubarrayPerColumn : Range Int
  muxSenseAmp : Range Int
  muxOutputLev1 : Range Int
  muxOutputLev2 : Range Int
  areaOptimizationLevel : Range BufferDesignTarget
  localWireType : Range WireType
  globalWireType : Range WireType
  localWireRepeaterType : Range WireRepeaterType
  globalWireRepeaterType : Range WireRepeaterType
  isLocalWireLowSwing : Range Bool
  isGlobalWireLowSwing : Range Bool
  deriving DecidableEq, Repr, Inhabited

/-- Every search bound of `InputParameter`. -/
structure SearchBounds where
  data : ArrayBounds
  tag : ArrayBounds
  numRowPerSet : Range Int
  stackLayer : Range Int
  deriving DecidableEq, Repr, Inhabited

structure InputParameter extends SearchBounds where
  designTarget : DesignTarget
  optimizationTarget : OptimizationTarget
  /-- in bytes -/
  capacity : Nat
  wordWidth : Nat
  associativity : Nat
  cacheAccessMode : CacheAccessMode
  /-- in bits -/
  pageSize : Nat
  /-- in bits -/
  flashBlockSize : Nat
  routingMode : RoutingMode
  internalSensing : Bool
  readLatencyConstraint : ℚ
  writeLatencyConstraint : ℚ
  readDynamicEnergyConstraint : ℚ
  writeDynamicEnergyConstraint : ℚ
  leakageConstraint : ℚ
  areaConstraint : ℚ
  readEdpConstraint : ℚ
  writeEdpConstraint : ℚ
  isConstraintApplied : Bool
  isPruningEnabled : Bool
  partitionGranularity : Nat
  localTsvProjection : Nat
  globalTsvProjection : Nat
  monolithicStackCount : Nat
  fileMemCell : List String
  printAllOptimals : Bool
  allowDifferentTagTech : Bool
  deriving DecidableEq, Inhabited

/-! ## The search-size macros -/

/-- The data bounds `RESTORE_SEARCH_SIZE` sets. -/
def restoredData : ArrayBounds where
  numRowMat := ⟨1, 512⟩
  numColumnMat := ⟨1, 512⟩
  numActiveMatPerRow := ⟨1, 512⟩
  numActiveMatPerColumn := ⟨1, 512⟩
  numRowSubarray := ⟨1, 2⟩
  numColumnSubarray := ⟨1, 2⟩
  numActiveSubarrayPerRow := ⟨1, 2⟩
  numActiveSubarrayPerColumn := ⟨1, 2⟩
  muxSenseAmp := ⟨1, 256⟩
  muxOutputLev1 := ⟨1, 256⟩
  muxOutputLev2 := ⟨1, 256⟩
  areaOptimizationLevel := ⟨.latency_first, .area_first⟩
  localWireType := ⟨.local_aggressive, .semi_conservative⟩
  globalWireType := ⟨.semi_aggressive, .global_conservative⟩
  localWireRepeaterType := ⟨.repeated_none, .repeated_50⟩
  globalWireRepeaterType := ⟨.repeated_none, .repeated_50⟩
  isLocalWireLowSwing := ⟨false, true⟩
  isGlobalWireLowSwing := ⟨false, true⟩

/-- The tag bounds `RESTORE_SEARCH_SIZE` sets. -/
def restoredTag : ArrayBounds where
  numRowMat := ⟨1, 64⟩
  numColumnMat := ⟨1, 64⟩
  numActiveMatPerRow := ⟨1, 64⟩
  numActiveMatPerColumn := ⟨1, 64⟩
  numRowSubarray := ⟨1, 2⟩
  numColumnSubarray := ⟨1, 2⟩
  numActiveSubarrayPerRow := ⟨1, 2⟩
  numActiveSubarrayPerColumn := ⟨1, 2⟩
  muxSenseAmp := ⟨1, 64⟩
  muxOutputLev1 := ⟨1, 64⟩
  muxOutputLev2 := ⟨1, 64⟩
  areaOptimizationLevel := ⟨.latency_first, .area_first⟩
  localWireType := ⟨.local_aggressive, .semi_conservative⟩
  globalWireType := ⟨.semi_aggressive, .global_conservative⟩
  localWireRepeaterType := ⟨.repeated_none, .repeated_50⟩
  globalWireRepeaterType := ⟨.repeated_none, .repeated_50⟩
  isLocalWireLowSwing := ⟨false, true⟩
  isGlobalWireLowSwing := ⟨false, true⟩

/-- The data bounds `REDUCE_SEARCH_SIZE` sets. -/
def reducedData : ArrayBounds where
  numRowMat := ⟨1, 64⟩
  numColumnMat := ⟨1, 64⟩
  numActiveMatPerRow := ⟨1, 64⟩
  numActiveMatPerColumn := ⟨1, 64⟩
  numRowSubarray := ⟨1, 2⟩
  numColumnSubarray := ⟨1, 2⟩
  numActiveSubarrayPerRow := ⟨1, 2⟩
  numActiveSubarrayPerColumn := ⟨1, 2⟩
  muxSenseAmp := ⟨1, 64⟩
  muxOutputLev1 := ⟨1, 64⟩
  muxOutputLev2 := ⟨1, 64⟩
  areaOptimizationLevel := ⟨.latency_first, .area_first⟩
  localWireType := ⟨.local_aggressive, .local_conservative⟩
  globalWireType := ⟨.global_aggressive, .global_conservative⟩
  localWireRepeaterType := ⟨.repeated_none, .repeated_opt⟩
  globalWireRepeaterType := ⟨.repeated_none, .repeated_opt⟩
  isLocalWireLowSwing := ⟨false, true⟩
  isGlobalWireLowSwing := ⟨false, true⟩

/-- The die counts are in no restored list: `RESTORE_SEARCH_SIZE` keeps them. -/
def RESTORE_SEARCH_SIZE (ip : InputParameter) : InputParameter :=
  { ip with
    data := restoredData
    tag := restoredTag
    numRowPerSet := ⟨1, ip.associativity⟩ }

def REDUCE_SEARCH_SIZE (ip : InputParameter) : InputParameter :=
  { ip with
    data := reducedData
    numRowPerSet := ⟨1, 1⟩ }

/-! ## The constructor -/

/-- `InputParameter::InputParameter`.  The fields the constructor leaves
    uninitialised (capacity, word width, the tag wire bounds) keep what the
    memory `mem` held. -/
def InputParameter.construct (mem : InputParameter) : InputParameter :=
  { mem with
    data := { restoredData with
      localWireType := ⟨.local_aggressive, .local_conservative⟩
      globalWireType := ⟨.global_aggressive, .global_conservative⟩ }
    tag := { mem.tag with
      numRowMat := ⟨1, 512⟩
      numColumnMat := ⟨1, 512⟩
      numActiveMatPerRow := ⟨1, 512⟩
      numActiveMatPerColumn := ⟨1, 512⟩
      numRowSubarray := ⟨1, 2⟩
      numColumnSubarray := ⟨1, 2⟩
      numActiveSubarrayPerRow := ⟨1, 2⟩
      numActiveSubarrayPerColumn := ⟨1, 2⟩
      muxSenseAmp := ⟨1, 256⟩
      muxOutputLev1 := ⟨1, 256⟩
      muxOutputLev2 := ⟨1, 256⟩
      areaOptimizationLevel := ⟨.latency_first, .area_first⟩ }
    numRowPerSet := ⟨1, 256⟩
    stackLayer := ⟨1, 16⟩
    designTarget := .cache
    optimizationTarget := .optimized .read_latency_optimized
    associativity := 1
    cacheAccessMode := .normal_access_mode
    pageSize := 0
    flashBlockSize := 0
    routingMode := .h_tree
    internalSensing := true
    readLatencyConstraint := invalid_value
    writeLatencyConstraint := invalid_value
    readDynamicEnergyConstraint := invalid_value
    writeDynamicEnergyConstraint := invalid_value
    leakageConstraint := invalid_value
    areaConstraint := invalid_value
    readEdpConstraint := invalid_value
    writeEdpConstraint := invalid_value
    isConstraintApplied := false
    isPruningEnabled := false
    partitionGranularity := 0
    localTsvProjection := 1
    globalTsvProjection := 1
    monolithicStackCount := 1
    fileMemCell := []
    printAllOptimals := false
    allowDifferentTagTech := false }

/-! ## Option lines -/

/-- A well-formed line of a configuration file: the option and its values. -/
inductive OptionLine
  | designTarget (t : DesignTarget)
  | optimizationTarget (t : OptimizationTarget)
  | capacityB (cap : Nat)
  | capacityKB (cap : Nat)
  | capacityMB (cap : Nat)
  | wordWidth (bits : Nat)
  | associativity (ways : Nat)
  | cacheAccessMode (m : CacheAccessMode)
  | localWireType (t : WireType)
  | localWireRepeaterType (t : WireRepeaterType)
  | localWireUseLowSwing (yes : Bool)
  | globalWireType (t : WireType)
  | globalWireRepeaterType (t : WireRepeaterType)
  | globalWireUseLowSwing (yes : Bool)
  | tagLocalWireType (t : WireType)
  | tagLocalWireRepeaterType (t : WireRepeaterType)
  | tagLocalWireUseLowSwing (yes : Bool)
  | tagGlobalWireType (t : WireType)
  | tagGlobalWireRepeaterType (t : WireRepeaterType)
  | tagGlobalWireUseLowSwing (yes : Bool)
  | routing (m : RoutingMode)
  | internalSensing (yes : Bool)
  | memoryCellInputFile (name : String)
  | forceBank3DA (a b c : Int)
  | forceBank3D (a b c d e : Int)
  | forceBankA (a b : Int)
  | forceBank (a b c d : Int)
  | forceMatA (a b : Int)
  | forceMat (a b c d : Int)
  | forceMuxSenseAmp (n : Int)
  | forceMuxOutputLev1 (n : Int)
  | forceMuxOutputLev2 (n : Int)
  | forceTagBank (a b c d : Int)
  | forceTagMat (a b c d : Int)
  | forceTagMuxSenseAmp (n : Int)
  | forceTagMuxOutputLev1 (n : Int)
  | forceTagMuxOutputLev2 (n : Int)
  | useCactiAssumption (yes : Bool)
  | enablePruning (yes : Bool)
  | bufferDesignOptimization (level : BufferDesignTarget)
  | tagBufferDesignOptimization (level : BufferDesignTarget)
  | flashPageSize (bytes : Nat)
  | flashBlockSize (kilobytes : Nat)
  | applyReadLatencyConstraint (x : ℚ)
  | applyWriteLatencyConstraint (x : ℚ)
  | applyReadDynamicEnergyConstraint (x : ℚ)
  | applyWriteDynamicEnergyConstraint (x : ℚ)
  | applyLeakageConstraint (x : ℚ)
  | applyAreaConstraint (x : ℚ)
  | applyReadEdpConstraint (x : ℚ)
  | applyWriteEdpConstraint (x : ℚ)
  | partitionGranularity (n : Nat)
  | localTSVProjection (n : Nat)
  | globalTSVProjection (n : Nat)
  | stackedDieCount (n : Int)
  | monolithicStackCount (n : Nat)
  | printAllOptimals (yes : Bool)
  | allowDifferentTagTech (yes : Bool)
  | other
  deriving DecidableEq

/-- The data-array bounds after one option line. -/
def ArrayBounds.applyDataLine (b : ArrayBounds) : OptionLine → ArrayBounds
  | .localWireType t => { b with localWireType := .pin t }
  | .localWireRepeaterType t => { b with localWireRepeaterType := .pin t }
  | .localWireUseLowSwing yes => { b with isLocalWireLowSwing := .pin yes }
  | .globalWireType t => { b with globalWireType := .pin t }
  | .globalWireRepeaterType t => { b with globalWireRepeaterType := .pin t }
  | .globalWireUseLowSwing yes => { b with isGlobalWireLowSwing := .pin yes }
  | .forceBank3DA r c _ => { b with numRowMat := .pin r, numColumnMat := .pin c }
  | .forceBank3D r c _ activeColumn activeRow =>
      { b with
        numRowMat := .pin r
        numColumnMat := .pin c
        numActiveMatPerColumn := .pin activeColumn
        numActiveMatPerRow := .pin activeRow }
  | .forceBankA r c => { b with numRowMat := .pin r, numColumnMat := .pin c }
  | .forceBank r c activeColumn activeRow =>
      { b with
        numRowMat := .pin r
        numColumnMat := .pin c
        numActiveMatPerColumn := .pin activeColumn
        numActiveMatPerRow := .pin activeRow }
  | .forceMatA r c => { b with numRowSubarray := .pin r, numColumnSubarray := .pin c }
  | .forceMat r c activeColumn activeRow =>
      { b with
        numRowSubarray := .pin r
        numColumnSubarray := .pin c
        numActiveSubarrayPerColumn := .pin activeColumn
        numActiveSubarrayPerRow := .pin activeRow }
  | .forceMuxSenseAmp n => { b with muxSenseAmp := .pin n }
  | .forceMuxOutputLev1 n => { b with muxOutputLev1 := .pin n }
  | .forceMuxOutputLev2 n => { b with muxOutputLev2 := .pin n }
  | .useCactiAssumption true =>
      { b with
        -- reads the bound an earlier line may have forced
        numActiveMatPerRow := .pin b.numColumnMat.max
        numActiveMatPerColumn := .pin 1
        numRowSubarray := .pin 2
        numColumnSubarray := .pin 2
        numActiveSubarrayPerRow := .pin 2
        numActiveSubarrayPerColumn := .pin 2 }
  | .bufferDesignOptimization level => { b with areaOptimizationLevel := .pin level }
  | _ => b

/-- The tag-array bounds after one option line. -/
def ArrayBounds.applyTagLine (b : ArrayBounds) : OptionLine → ArrayBounds
  | .tagLocalWireType t => { b with localWireType := .pin t }
  | .tagLocalWireRepeaterType t => { b with localWireRepeaterType := .pin t }
  | .tagLocalWireUseLowSwing yes => { b with isLocalWireLowSwing := .pin yes }
  | .tagGlobalWireType t => { b with globalWireType := .pin t }
  | .tagGlobalWireRepeaterType t => { b with globalWireRepeaterType := .pin t }
  | .tagGlobalWireUseLowSwing yes => { b with isGlobalWireLowSwing := .pin yes }
  | .forceTagBank r c activeColumn activeRow =>
      { b with
        numRowMat := .pin r
        numColumnMat := .pin c
        numActiveMatPerColumn := .pin activeColumn
        numActiveMatPerRow := .pin activeRow }
  | .forceTagMat r c activeColumn activeRow =>
      { b with
        numRowSubarray := .pin r
        numColumnSubarray := .pin c
        numActiveSubarrayPerColumn := .pin activeColumn
        numActiveSubarrayPerRow := .pin activeRow }
  | .forceTagMuxSenseAmp n => { b with muxSenseAmp := .pin n }
  | .forceTagMuxOutputLev1 n => { b with muxOutputLev1 := .pin n }
  | .forceTagMuxOutputLev2 n => { b with muxOutputLev2 := .pin n }
  | .tagBufferDesignOptimization level => { b with areaOptimizationLevel := .pin level }
  | _ => b

/-- The rows-per-set bounds after one option line. -/
def applyRowPerSetLine (r : Range Int) : OptionLine → Range Int
  | .designTarget .cache => r
  | .designTarget _ => .pin 1
  | _ => r

/-- The die counts after one option line. -/
def applyStackLayerLine (r : Range Int) : OptionLine → Range Int
  | .forceBank3DA _ _ n => .pin n
  | .forceBank3D _ _ n _ _ => .pin n
  | .stackedDieCount n => .pin n
  | _ => r

/-- Every search bound after one option line. -/
def SearchBounds.applyLine (b : SearchBounds) (line : OptionLine) : SearchBounds where
  data := b.data.applyDataLine line
  tag := b.tag.applyTagLine line
  numRowPerSet := applyRowPerSetLine b.numRowPerSet line
  stackLayer := applyStackLayerLine b.stackLayer line

/-- The other settings after one option line. -/
def InputParameter.applySetting (ip : InputParameter) : OptionLine → InputParameter
  | .designTarget t => { ip with designTarget := t }
  | .optimizationTarget t => { ip with optimizationTarget := t }
  | .capacityB cap => { ip with capacity := cap }
  | .capacityKB cap => { ip with capacity := cap * 1024 }
  | .capacityMB cap => { ip with capacity := cap * 1024 * 1024 }
  | .wordWidth bits => { ip with wordWidth := bits }
  | .associativity ways => { ip with associativity := ways }
  | .cacheAccessMode m => { ip with cacheAccessMode := m }
  | .routing m => { ip with routingMode := m }
  | .internalSensing yes => { ip with internalSensing := yes }
  | .memoryCellInputFile name => { ip with fileMemCell := ip.fileMemCell ++ [name] }
  | .enablePruning yes => { ip with isPruningEnabled := yes }
  | .flashPageSize bytes => { ip with pageSize := bytes * 8 }
  | .flashBlockSize kilobytes => { ip with flashBlockSize := kilobytes * (8 * 1024) }
  | .applyReadLatencyConstraint x =>
      { ip with readLatencyConstraint := x, isConstraintApplied := true }
  | .applyWriteLatencyConstraint x =>
      { ip with writeLatencyConstraint := x, isConstraintApplied := true }
  | .applyReadDynamicEnergyConstraint x =>
      { ip with readDynamicEnergyConstraint := x, isConstraintApplied := true }
  | .applyWriteDynamicEnergyConstraint x =>
      { ip with writeDynamicEnergyConstraint := x, isConstraintApplied := true }
  | .applyLeakageConstraint x =>
      { ip with leakageConstraint := x, isConstraintApplied := true }
  | .applyAreaConstraint x => { ip with areaConstraint := x, isConstraintApplied := true }
  | .applyReadEdpConstraint x =>
      { ip with readEdpConstraint := x, isConstraintApplied := true }
  | .applyWriteEdpConstraint x =>
      { ip with writeEdpConstraint := x, isConstraintApplied := true }
  | .partitionGranularity n => { ip with partitionGranularity := n }
  | .localTSVProjection n => { ip with localTsvProjection := n }
  | .globalTSVProjection n => { ip with globalTsvProjection := n }
  | .monolithicStackCount n => { ip with monolithicStackCount := n }
  | .printAllOptimals yes => { ip with printAllOptimals := yes }
  | .allowDifferentTagTech yes => { ip with allowDifferentTagTech := yes }
  | _ => ip

/-- The body of the reading loop on one line. -/
def InputParameter.applyLine (ip : InputParameter) (line : OptionLine) : InputParameter :=
  { ip.applySetting line with toSearchBounds := ip.toSearchBounds.applyLine line }

/-- `InputParameter::ReadInputParameterFromFile` on a file of well-formed lines. -/
def InputParameter.ReadInputParameterFromFile (ip : InputParameter) (file : List OptionLine) :
    InputParameter :=
  file.foldl InputParameter.applyLine ip

/-! ## What a line does to the bounds and to the settings -/

@[simp] theorem InputParameter.applyLine_toSearchBounds (ip : InputParameter)
    (line : OptionLine) :
    (ip.applyLine line).toSearchBounds = ip.toSearchBounds.applyLine line := rfl

/-- The bounds after a whole file depend on the bounds before it only. -/
theorem InputParameter.read_toSearchBounds (ip : InputParameter) (file : List OptionLine) :
    (ip.ReadInputParameterFromFile file).toSearchBounds =
      file.foldl SearchBounds.applyLine ip.toSearchBounds := by
  unfold InputParameter.ReadInputParameterFromFile
  induction file generalizing ip with
  | nil => rfl
  | cons line rest ih => rw [List.foldl_cons, List.foldl_cons, ih, applyLine_toSearchBounds]

@[simp] theorem RESTORE_SEARCH_SIZE_data (ip : InputParameter) :
    (RESTORE_SEARCH_SIZE ip).data = restoredData := rfl
@[simp] theorem RESTORE_SEARCH_SIZE_tag (ip : InputParameter) :
    (RESTORE_SEARCH_SIZE ip).tag = restoredTag := rfl
@[simp] theorem RESTORE_SEARCH_SIZE_stackLayer (ip : InputParameter) :
    (RESTORE_SEARCH_SIZE ip).stackLayer = ip.stackLayer := rfl
@[simp] theorem REDUCE_SEARCH_SIZE_data (ip : InputParameter) :
    (REDUCE_SEARCH_SIZE ip).data = reducedData := rfl
@[simp] theorem REDUCE_SEARCH_SIZE_tag (ip : InputParameter) :
    (REDUCE_SEARCH_SIZE ip).tag = ip.tag := rfl
@[simp] theorem REDUCE_SEARCH_SIZE_stackLayer (ip : InputParameter) :
    (REDUCE_SEARCH_SIZE ip).stackLayer = ip.stackLayer := rfl

end Destiny
