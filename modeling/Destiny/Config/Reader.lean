/-
  Destiny.Config.Reader

  The loop that reads a configuration file, from the text of its lines
  (`InputParameter::ReadInputParameterFromFile`).

  * `ConfigOption` lists the branches of the loop body in the order in which they
    are tested; `key` is the text a branch compares the start of the line with
    and `label` the ordinary characters of its format, the key again and a unit.
  * `ConfigOption.read` is the body of a branch.  Words are scanned into the
    buffer `tmp`, which is declared outside the loop.  Two branches do not end
    with `continue`; their keys start no later key.
  * `ConfigOption.parse` is the option line a well-formed line stands for;
    `readLine_ip` says that the reader does with it what `applyLine` does.

  The sizes that are natural numbers here take the value 0 for a negative one.
  The warnings about a die count given twice are left out.
-/

import Destiny.InputParameter
import Destiny.MemCell

namespace Destiny

open Lib

/-! ## Options -/

/-- The branches of the loop body, in order. -/
inductive ConfigOption
  | designTarget | optimizationTarget | outputFilePrefix | processNode | capacityB | capacityKB
  | capacityMB | wordWidth | associativity | temperature | maxDriverCurrent | deviceRoadmap
  | writeScheme | cacheAccessMode | localWireType | localWireRepeaterType
  | localWireUseLowSwing | globalWireType | globalWireRepeaterType | globalWireUseLowSwing
  | tagLocalWireType | tagLocalWireRepeaterType | tagLocalWireUseLowSwing | tagGlobalWireType
  | tagGlobalWireRepeaterType | tagGlobalWireUseLowSwing | routing | internalSensing
  | memoryCellInputFile | maxNmosSize | forceBank3DA | forceBank3D | forceBankA | forceBank
  | forceMatA | forceMat | forceMuxSenseAmp | forceMuxOutputLev1 | forceMuxOutputLev2
  | forceTagBank | forceTagMat | forceTagMuxSenseAmp | forceTagMuxOutputLev1
  | forceTagMuxOutputLev2 | useCactiAssumption | enablePruning | bufferDesignOptimization
  | tagBufferDesignOptimization | flashPageSize | flashBlockSize | applyReadLatencyConstraint
  | applyWriteLatencyConstraint | applyReadDynamicEnergyConstraint
  | applyWriteDynamicEnergyConstraint | applyLeakageConstraint | applyAreaConstraint
  | applyReadEdpConstraint | applyWriteEdpConstraint | partitionGranularity
  | localTSVProjection | globalTSVProjection | tsvRedundancy | stackedDieCount
  | monolithicStackCount | printAllOptimals | allowDifferentTagTech | printLevel
  deriving DecidableEq

def ConfigOption.all : List ConfigOption :=
  [.designTarget, .optimizationTarget, .outputFilePrefix, .processNode, .capacityB,
   .capacityKB, .capacityMB, .wordWidth, .associativity, .temperature, .maxDriverCurrent,
   .deviceRoadmap, .writeScheme, .cacheAccessMode, .localWireType, .localWireRepeaterType,
   .localWireUseLowSwing, .globalWireType, .globalWireRepeaterType, .globalWireUseLowSwing,
   .tagLocalWireType, .tagLocalWireRepeaterType, .tagLocalWireUseLowSwing, .tagGlobalWireType,
   .tagGlobalWireRepeaterType, .tagGlobalWireUseLowSwing, .routing, .internalSensing,
   .memoryCellInputFile, .maxNmosSize, .forceBank3DA, .forceBank3D, .forceBankA, .forceBank,
   .forceMatA, .forceMat, .forceMuxSenseAmp, .forceMuxOutputLev1, .forceMuxOutputLev2,
   .forceTagBank, .forceTagMat, .forceTagMuxSenseAmp, .forceTagMuxOutputLev1,
   .forceTagMuxOutputLev2, .useCactiAssumption, .enablePruning, .bufferDesignOptimization,
   .tagBufferDesignOptimization, .flashPageSize, .flashBlockSize, .applyReadLatencyConstraint,
   .applyWriteLatencyConstraint, .applyReadDynamicEnergyConstraint,
   .applyWriteDynamicEnergyConstraint, .applyLeakageConstraint, .applyAreaConstraint,
   .applyReadEdpConstraint, .applyWriteEdpConstraint, .partitionGranularity,
   .localTSVProjection, .globalTSVProjection, .tsvRedundancy, .stackedDieCount,
   .monolithicStackCount, .printAllOptimals, .allowDifferentTagTech, .printLevel]

@[simp] theorem ConfigOption.mem_all (o : ConfigOption) : o ∈ ConfigOption.all := by
  cases o <;> decide

/-- The text `strncmp` compares the start of the line with. -/
def ConfigOption.key : ConfigOption → List Char
  | .designTarget => "-DesignTarget".toList
  | .optimizationTarget => "-OptimizationTarget".toList
  | .outputFilePrefix => "-OutputFilePrefix".toList
  | .processNode => "-ProcessNode".toList
  | .capacityB => "-Capacity (B)".toList
  | .capacityKB => "-Capacity (KB)".toList
  | .capacityMB => "-Capacity (MB)".toList
  | .wordWidth => "-WordWidth".toList
  | .associativity => "-Associativity".toList
  | .temperature => "-Temperature".toList
  | .maxDriverCurrent => "-MaxDriverCurrent".toList
  | .deviceRoadmap => "-DeviceRoadmap".toList
  | .writeScheme => "-WriteScheme".toList
  | .cacheAccessMode => "-CacheAccessMode".toList
  | .localWireType => "-LocalWireType".toList
  | .localWireRepeaterType => "-LocalWireRepeaterType".toList
  | .localWireUseLowSwing => "-LocalWireUseLowSwing".toList
  | .globalWireType => "-GlobalWireType".toList
  | .globalWireRepeaterType => "-GlobalWireRepeaterType".toList
  | .globalWireUseLowSwing => "-GlobalWireUseLowSwing".toList
  | .tagLocalWireType => "-TagLocalWireType".toList
  | .tagLocalWireRepeaterType => "-TagLocalWireRepeaterType".toList
  | .tagLocalWireUseLowSwing => "-TagLocalWireUseLowSwing".toList
  | .tagGlobalWireType => "-TagGlobalWireType".toList
  | .tagGlobalWireRepeaterType => "-TagGlobalWireRepeaterType".toList
  | .tagGlobalWireUseLowSwing => "-TagGlobalWireUseLowSwing".toList
  | .routing => "-Routing".toList
  | .internalSensing => "-InternalSensing".toList
  | .memoryCellInputFile => "-MemoryCellInputFile".toList
  | .maxNmosSize => "-MaxNmosSize".toList
  | .forceBank3DA => "-ForceBank3DA".toList
  | .forceBank3D => "-ForceBank3D".toList
  | .forceBankA => "-ForceBankA".toList
  | .forceBank => "-ForceBank".toList
  | .forceMatA => "-ForceMatA".toList
  | .forceMat => "-ForceMat".toList
  | .forceMuxSenseAmp => "-ForceMuxSenseAmp".toList
  | .forceMuxOutputLev1 => "-ForceMuxOutputLev1".toList
  | .forceMuxOutputLev2 => "-ForceMuxOutputLev2".toList
  | .forceTagBank => "-ForceTagBank".toList
  | .forceTagMat => "-ForceTagMat".toList
  | .forceTagMuxSenseAmp => "-ForceTagMuxSenseAmp".toList
  | .forceTagMuxOutputLev1 => "-ForceTagMuxOutputLev1".toList
  | .forceTagMuxOutputLev2 => "-ForceTagMuxOutputLev2".toList
  | .useCactiAssumption => "-UseCactiAssumption".toList
  | .enablePruning => "-EnablePruning".toList
  | .bufferDesignOptimization => "-BufferDesignOptimization".toList
  | .tagBufferDesignOptimization => "-TagBufferDesignOptimization".toList
  | .flashPageSize => "-FlashPageSize".toList
  | .flashBlockSize => "-FlashBlockSize".toList
  | .applyReadLatencyConstraint => "-ApplyReadLatencyConstraint".toList
  | .applyWriteLatencyConstraint => "-ApplyWriteLatencyConstraint".toList
  | .applyReadDynamicEnergyConstraint => "-ApplyReadDynamicEnergyConstraint".toList
  | .applyWriteDynamicEnergyConstraint => "-ApplyWriteDynamicEnergyConstraint".toList
  | .applyLeakageConstraint => "-ApplyLeakageConstraint".toList
  | .applyAreaConstraint => "-ApplyAreaConstraint".toList
  | .applyReadEdpConstraint => "-ApplyReadEdpConstraint".toList
  | .applyWriteEdpConstraint => "-ApplyWriteEdpConstraint".toList
  | .partitionGranularity => "-PartitionGranularity".toList
  | .localTSVProjection => "-LocalTSVProjection".toList
  | .globalTSVProjection => "-GlobalTSVProjection".toList
  | .tsvRedundancy => "-TSVRedundancy".toList
  | .stackedDieCount => "-StackedDieCount".toList
  | .monolithicStackCount => "-MonolithicStackCount".toList
  | .printAllOptimals => "-PrintAllOptimals".toList
  | .allowDifferentTagTech => "-AllowDifferentTagTech".toList
  | .printLevel => "-PrintLevel".toList

/-- What stands between the key and the first conversion in the option's format. -/
def ConfigOption.unit : ConfigOption → List Char
  | .wordWidth => " (bit): ".toList
  | .associativity => " (for cache only): ".toList
  | .temperature => " (K): ".toList
  | .maxDriverCurrent => " (uA): ".toList
  | .maxNmosSize => " (F): ".toList
  | .forceBank3DA => " (Total AxBxC): ".toList
  | .forceBank3D => " (Total AxBxC, Active DxE): ".toList
  | .forceBankA | .forceMatA => " (Total AxB): ".toList
  | .forceBank | .forceMat | .forceTagBank | .forceTagMat => " (Total AxB, Active CxD): ".toList
  | .flashPageSize => " (Byte): ".toList
  | .flashBlockSize => " (KB): ".toList
  | _ => ": ".toList

/-- The ordinary characters of the option's format, up to the first conversion. -/
def ConfigOption.label (o : ConfigOption) : List Char := o.key ++ o.unit

/-- Every format diverges from the keys tested before its own. -/
theorem ConfigOption.pairwise_diverges :
    ConfigOption.all.Pairwise fun o' o => diverges o.label o'.key = true := by
  decide +kernel

/-! ## Words -/

def DesignTarget.ofWord (tmp : List Char) : DesignTarget :=
  if tmp = "cache".toList then .cache
  else if tmp = "RAM".toList then .RAM_chip
  else .CAM_chip

def OptimizationTarget.ofWord (tmp : List Char) : OptimizationTarget :=
  if tmp = "ReadLatency".toList then .optimized .read_latency_optimized
  else if tmp = "WriteLatency".toList then .optimized .write_latency_optimized
  else if tmp = "ReadDynamicEnergy".toList then .optimized .read_energy_optimized
  else if tmp = "WriteDynamicEnergy".toList then .optimized .write_energy_optimized
  else if tmp = "ReadEDP".toList then .optimized .read_edp_optimized
  else if tmp = "WriteEDP".toList then .optimized .write_edp_optimized
  else if tmp = "LeakagePower".toList then .optimized .leakage_optimized
  else if tmp = "Area".toList then .optimized .area_optimized
  else .full_exploration

def DeviceRoadmap.ofWord (tmp : List Char) : DeviceRoadmap :=
  if tmp = "HP".toList then .HP
  else if tmp = "LSTP".toList then .LSTP
  else .LOP

def WriteScheme.ofWord (tmp : List Char) : WriteScheme :=
  if tmp = "SetBeforeReset".toList then .set_before_reset
  else if tmp = "ResetBeforeSet".toList then .reset_before_set
  else if tmp = "EraseBeforeSet".toList then .erase_before_set
  else if tmp = "EraseBeforeReset".toList then .erase_before_reset
  else if tmp = "WriteAndVerify".toList then .write_and_verify
  else .normal_write

def CacheAccessMode.ofWord (tmp : List Char) : CacheAccessMode :=
  if tmp = "Sequential".toList then .sequential_access_mode
  else if tmp = "Fast".toList then .fast_access_mode
  else .normal_access_mode

/-- The wire branches, data and tag, local and global. -/
def WireType.ofWord (tmp : List Char) : WireType :=
  if tmp = "LocalAggressive".toList then .local_aggressive
  else if tmp = "LocalConservative".toList then .local_conservative
  else if tmp = "SemiAggressive".toList then .semi_aggressive
  else if tmp = "SemiConservative".toList then .semi_conservative
  else if tmp = "GlobalAggressive".toList then .global_aggressive
  else if tmp = "GlobalConservative".toList then .global_conservative
  else .dram_wordline

/-- The repeater branches, data and tag, local and global. -/
def WireRepeaterType.ofWord (tmp : List Char) : WireRepeaterType :=
  if tmp = "RepeatedOpt".toList then .repeated_opt
  else if tmp = "Repeated5%Penalty".toList then .repeated_5
  else if tmp = "Repeated10%Penalty".toList then .repeated_10
  else if tmp = "Repeated20%Penalty".toList then .repeated_20
  else if tmp = "Repeated30%Penalty".toList then .repeated_30
  else if tmp = "Repeated40%Penalty".toList then .repeated_40
  else if tmp = "Repeated50%Penalty".toList then .repeated_50
  else .repeated_none

def BufferDesignTarget.ofWord (tmp : List Char) : BufferDesignTarget :=
  if tmp = "latency".toList then .latency_first
  else if tmp = "area".toList then .area_first
  else .latency_area_trade_off

def RoutingMode.ofWord (tmp : List Char) : RoutingMode :=
  if tmp = "H-tree".toList then .h_tree else .non_h_tree

def isYes (tmp : List Char) : Bool := tmp = "Yes".toList

def isTrue (tmp : List Char) : Bool := tmp = "true".toList

/-! ## The loop body -/

/-- What the loop works on: the parameters, the settings no modelled search
    function reads, and the scratch buffer. -/
structure ConfigReader where
  ip : InputParameter
  outputFilePrefix : List Char
  processNode : Int
  temperature : Int
  maxDriverCurrent : ℚ
  deviceRoadmap : DeviceRoadmap
  writeScheme : WriteScheme
  maxNmosSize : ℚ
  useCactiAssumption : Bool
  tsvRedundancy : ℚ
  printLevel : Int
  tmp : List Char
  deriving DecidableEq, Inhabited

/-- `sscanf` has stored `vs` into the `min` fields; the `max` field is copied from the
    `min` field afterwards. -/
def forced (vs : List Int) (i : Nat) (r : Range Int) : Range Int := .pin (vs[i]?.getD r.min)

/-- A number scanned into a size. -/
def sscanfNat (label line : List Char) (n : Nat) : Nat := (sscanfInt label line n).toNat

/-- The branch of an option on a line. -/
def ConfigOption.read (o : ConfigOption) (line : List Char) (s : ConfigReader) : ConfigReader :=
  let word := sscanfWord o.label line s.tmp
  let int := sscanfInt o.label line
  let nat := sscanfNat o.label line
  let double := sscanfDouble (K := ℚ) o.label line
  let d := s.ip.data
  let t := s.ip.tag
  let x := "x".toList
  let comma := ", ".toList
  match o with
  | .designTarget =>
      { s with
        ip.designTarget := DesignTarget.ofWord word
        ip.numRowPerSet :=
          if DesignTarget.ofWord word = .cache then s.ip.numRowPerSet else .pin 1
        tmp := word }
  | .optimizationTarget =>
      { s with ip.optimizationTarget := OptimizationTarget.ofWord word, tmp := word }
  | .outputFilePrefix => { s with outputFilePrefix := word, tmp := word }
  | .processNode => { s with processNode := int s.processNode }
  -- scanned into a variable of its own, left uninitialised by a scan that fails; the
  -- old capacity stands for what it then holds
  | .capacityB => { s with ip.capacity := nat s.ip.capacity }
  | .capacityKB => { s with ip.capacity := nat s.ip.capacity * 1024 }
  | .capacityMB => { s with ip.capacity := nat s.ip.capacity * 1024 * 1024 }
  | .wordWidth => { s with ip.wordWidth := nat s.ip.wordWidth }
  | .associativity => { s with ip.associativity := nat s.ip.associativity }
  | .temperature => { s with temperature := int s.temperature }
  | .maxDriverCurrent => { s with maxDriverCurrent := double s.maxDriverCurrent }
  | .deviceRoadmap => { s with deviceRoadmap := DeviceRoadmap.ofWord word, tmp := word }
  | .writeScheme => { s with writeScheme := WriteScheme.ofWord word, tmp := word }
  | .cacheAccessMode => { s with ip.cacheAccessMode := CacheAccessMode.ofWord word, tmp := word }
  | .localWireType => { s with ip.data.localWireType := .pin (WireType.ofWord word), tmp := word }
  | .localWireRepeaterType =>
      { s with ip.data.localWireRepeaterType := .pin (WireRepeaterType.ofWord word), tmp := word }
  | .localWireUseLowSwing =>
      { s with ip.data.isLocalWireLowSwing := .pin (isYes word), tmp := word }
  | .globalWireType => { s with ip.data.globalWireType := .pin (WireType.ofWord word), tmp := word }
  | .globalWireRepeaterType =>
      { s with ip.data.globalWireRepeaterType := .pin (WireRepeaterType.ofWord word), tmp := word }
  | .globalWireUseLowSwing =>
      { s with ip.data.isGlobalWireLowSwing := .pin (isYes word), tmp := word }
  | .tagLocalWireType => { s with ip.tag.localWireType := .pin (WireType.ofWord word), tmp := word }
  | .tagLocalWireRepeaterType =>
      { s with ip.tag.localWireRepeaterType := .pin (WireRepeaterType.ofWord word), tmp := word }
  | .tagLocalWireUseLowSwing =>
      { s with ip.tag.isLocalWireLowSwing := .pin (isYes word), tmp := word }
  | .tagGlobalWireType =>
      { s with ip.tag.globalWireType := .pin (WireType.ofWord word), tmp := word }
  | .tagGlobalWireRepeaterType =>
      { s with ip.tag.globalWireRepeaterType := .pin (WireRepeaterType.ofWord word), tmp := word }
  | .tagGlobalWireUseLowSwing =>
      { s with ip.tag.isGlobalWireLowSwing := .pin (isYes word), tmp := word }
  | .routing => { s with ip.routingMode := RoutingMode.ofWord word, tmp := word }
  | .internalSensing => { s with ip.internalSensing := isTrue word, tmp := word }
  | .memoryCellInputFile =>
      { s with ip.fileMemCell := s.ip.fileMemCell ++ [String.ofList word], tmp := word }
  | .maxNmosSize => { s with maxNmosSize := double s.maxNmosSize }
  | .forceBank3DA =>
      let vs := scanInts [o.label, x, x] line
      { s with
        ip.data.numRowMat := forced vs 0 d.numRowMat
        ip.data.numColumnMat := forced vs 1 d.numColumnMat
        ip.stackLayer := forced vs 2 s.ip.stackLayer }
  | .forceBank3D =>
      let vs := scanInts [o.label, x, x, comma, x] line
      { s with
        ip.data.numRowMat := forced vs 0 d.numRowMat
        ip.data.numColumnMat := forced vs 1 d.numColumnMat
        ip.stackLayer := forced vs 2 s.ip.stackLayer
        ip.data.numActiveMatPerColumn := forced vs 3 d.numActiveMatPerColumn
        ip.data.numActiveMatPerRow := forced vs 4 d.numActiveMatPerRow }
  | .forceBankA =>
      let vs := scanInts [o.label, x] line
      { s with
        ip.data.numRowMat := forced vs 0 d.numRowMat
        ip.data.numColumnMat := forced vs 1 d.numColumnMat }
  | .forceBank =>
      let vs := scanInts [o.label, x, comma, x] line
      { s with
        ip.data.numRowMat := forced vs 0 d.numRowMat
        ip.data.numColumnMat := forced vs 1 d.numColumnMat
        ip.data.numActiveMatPerColumn := forced vs 2 d.numActiveMatPerColumn
        ip.data.numActiveMatPerRow := forced vs 3 d.numActiveMatPerRow }
  | .forceMatA =>
      let vs := scanInts [o.label, x] line
      { s with
        ip.data.numRowSubarray := forced vs 0 d.numRowSubarray
        ip.data.numColumnSubarray := forced vs 1 d.numColumnSubarray }
  | .forceMat =>
      let vs := scanInts [o.label, x, comma, x] line
      { s with
        ip.data.numRowSubarray := forced vs 0 d.numRowSubarray
        ip.data.numColumnSubarray := forced vs 1 d.numColumnSubarray
        ip.data.numActiveSubarrayPerColumn := forced vs 2 d.numActiveSubarrayPerColumn
        ip.data.numActiveSubarrayPerRow := forced vs 3 d.numActiveSubarrayPerRow }
  | .forceMuxSenseAmp => { s with ip.data.muxSenseAmp := .pin (int d.muxSenseAmp.min) }
  | .forceMuxOutputLev1 => { s with ip.data.muxOutputLev1 := .pin (int d.muxOutputLev1.min) }
  | .forceMuxOutputLev2 => { s with ip.data.muxOutputLev2 := .pin (int d.muxOutputLev2.min) }
  | .forceTagBank =>
      let vs := scanInts [o.label, x, comma, x] line
      { s with
        ip.tag.numRowMat := forced vs 0 t.numRowMat
        ip.tag.numColumnMat := forced vs 1 t.numColumnMat
        ip.tag.numActiveMatPerColumn := forced vs 2 t.numActiveMatPerColumn
        ip.tag.numActiveMatPerRow := forced vs 3 t.numActiveMatPerRow }
  | .forceTagMat =>
      let vs := scanInts [o.label, x, comma, x] line
      { s with
        ip.tag.numRowSubarray := forced vs 0 t.numRowSubarray
        ip.tag.numColumnSubarray := forced vs 1 t.numColumnSubarray
        ip.tag.numActiveSubarrayPerColumn := forced vs 2 t.numActiveSubarrayPerColumn
        ip.tag.numActiveSubarrayPerRow := forced vs 3 t.numActiveSubarrayPerRow }
  | .forceTagMuxSenseAmp => { s with ip.tag.muxSenseAmp := .pin (int t.muxSenseAmp.min) }
  | .forceTagMuxOutputLev1 => { s with ip.tag.muxOutputLev1 := .pin (int t.muxOutputLev1.min) }
  | .forceTagMuxOutputLev2 => { s with ip.tag.muxOutputLev2 := .pin (int t.muxOutputLev2.min) }
  | .useCactiAssumption =>
      { s with
        ip.data := d.applyDataLine (.useCactiAssumption (isYes word))
        useCactiAssumption := isYes word
        tmp := word }
  | .enablePruning => { s with ip.isPruningEnabled := isYes word, tmp := word }
  | .bufferDesignOptimization =>
      { s with ip.data.areaOptimizationLevel := .pin (BufferDesignTarget.ofWord word), tmp := word }
  | .tagBufferDesignOptimization =>
      { s with ip.tag.areaOptimizationLevel := .pin (BufferDesignTarget.ofWord word), tmp := word }
  | .flashPageSize => { s with ip.pageSize := nat s.ip.pageSize * 8 }
  | .flashBlockSize => { s with ip.flashBlockSize := nat s.ip.flashBlockSize * (8 * 1024) }
  | .applyReadLatencyConstraint =>
      { s with
        ip.readLatencyConstraint := double s.ip.readLatencyConstraint
        ip.isConstraintApplied := true }
  | .applyWriteLatencyConstraint =>
      { s with
        ip.writeLatencyConstraint := double s.ip.writeLatencyConstraint
        ip.isConstraintApplied := true }
  | .applyReadDynamicEnergyConstraint =>
      { s with
        ip.readDynamicEnergyConstraint := double s.ip.readDynamicEnergyConstraint
        ip.isConstraintApplied := true }
  | .applyWriteDynamicEnergyConstraint =>
      { s with
        ip.writeDynamicEnergyConstraint := double s.ip.writeDynamicEnergyConstraint
        ip.isConstraintApplied := true }
  | .applyLeakageConstraint =>
      { s with
        ip.leakageConstraint := double s.ip.leakageConstraint
        ip.isConstraintApplied := true }
  | .applyAreaConstraint =>
      { s with ip.areaConstraint := double s.ip.areaConstraint, ip.isConstraintApplied := true }
  | .applyReadEdpConstraint =>
      { s with
        ip.readEdpConstraint := double s.ip.readEdpConstraint
        ip.isConstraintApplied := true }
  | .applyWriteEdpConstraint =>
      { s with
        ip.writeEdpConstraint := double s.ip.writeEdpConstraint
        ip.isConstraintApplied := true }
  | .partitionGranularity => { s with ip.partitionGranularity := nat s.ip.partitionGranularity }
  | .localTSVProjection => { s with ip.localTsvProjection := nat s.ip.localTsvProjection }
  | .globalTSVProjection => { s with ip.globalTsvProjection := nat s.ip.globalTsvProjection }
  | .tsvRedundancy => { s with tsvRedundancy := double s.tsvRedundancy }
  | .stackedDieCount => { s with ip.stackLayer := .pin (int s.ip.stackLayer.min) }
  | .monolithicStackCount => { s with ip.monolithicStackCount := nat s.ip.monolithicStackCount }
  | .printAllOptimals => { s with ip.printAllOptimals := isTrue word, tmp := word }
  | .allowDifferentTagTech => { s with ip.allowDifferentTagTech := isTrue word, tmp := word }
  | .printLevel => { s with printLevel := int s.printLevel }

/-- The body of the loop of `InputParameter::ReadInputParameterFromFile` on one line. -/
def ConfigReader.readLine (line : List Char) (s : ConfigReader) : ConfigReader :=
  match branchOf ConfigOption.all ConfigOption.key line with
  | some o => o.read line s
  | none => s

/-- `InputParameter::ReadInputParameterFromFile` on the text of the file, with the
    rounds its loop may take and the buffer `line` as it is found. -/
def ConfigReader.ReadInputParameterFromFile (rounds : Nat) (file line : List Char)
    (s : ConfigReader) : Option ConfigReader :=
  lineLoop ConfigReader.readLine rounds file line s

/-! ## Well-formed lines -/

/-- The option line that a line stands for, none when a conversion fails. -/
def ConfigOption.parse (o : ConfigOption) (line : List Char) : Option OptionLine :=
  let word := ((scanLiteral o.label line).bind scanWord).map Prod.fst
  let int := ((scanLiteral o.label line).bind scanInt).map Prod.fst
  let nat := int.map Int.toNat
  let double := (scanLiteral o.label line).bind scanDouble
  let x := "x".toList
  let comma := ", ".toList
  match o with
  | .designTarget => word.map fun w => .designTarget (DesignTarget.ofWord w)
  | .optimizationTarget => word.map fun w => .optimizationTarget (OptimizationTarget.ofWord w)
  | .capacityB => nat.map .capacityB
  | .capacityKB => nat.map .capacityKB
  | .capacityMB => nat.map .capacityMB
  | .wordWidth => nat.map .wordWidth
  | .associativity => nat.map .associativity
  | .cacheAccessMode => word.map fun w => .cacheAccessMode (CacheAccessMode.ofWord w)
  | .localWireType => word.map fun w => .localWireType (WireType.ofWord w)
  | .localWireRepeaterType => word.map fun w => .localWireRepeaterType (WireRepeaterType.ofWord w)
  | .localWireUseLowSwing => word.map fun w => .localWireUseLowSwing (isYes w)
  | .globalWireType => word.map fun w => .globalWireType (WireType.ofWord w)
  | .globalWireRepeaterType => word.map fun w => .globalWireRepeaterType (WireRepeaterType.ofWord w)
  | .globalWireUseLowSwing => word.map fun w => .globalWireUseLowSwing (isYes w)
  | .tagLocalWireType => word.map fun w => .tagLocalWireType (WireType.ofWord w)
  | .tagLocalWireRepeaterType =>
      word.map fun w => .tagLocalWireRepeaterType (WireRepeaterType.ofWord w)
  | .tagLocalWireUseLowSwing => word.map fun w => .tagLocalWireUseLowSwing (isYes w)
  | .tagGlobalWireType => word.map fun w => .tagGlobalWireType (WireType.ofWord w)
  | .tagGlobalWireRepeaterType =>
      word.map fun w => .tagGlobalWireRepeaterType (WireRepeaterType.ofWord w)
  | .tagGlobalWireUseLowSwing => word.map fun w => .tagGlobalWireUseLowSwing (isYes w)
  | .routing => word.map fun w => .routing (RoutingMode.ofWord w)
  | .internalSensing => word.map fun w => .internalSensing (isTrue w)
  | .memoryCellInputFile => word.map fun w => .memoryCellInputFile (String.ofList w)
  | .forceBank3DA =>
      match scanInts [o.label, x, x] line with
      | [a, b, c] => some (.forceBank3DA a b c)
      | _ => none
  | .forceBank3D =>
      match scanInts [o.label, x, x, comma, x] line with
      | [a, b, c, d, e] => some (.forceBank3D a b c d e)
      | _ => none
  | .forceBankA =>
      match scanInts [o.label, x] line with
      | [a, b] => some (.forceBankA a b)
      | _ => none
  | .forceBank =>
      match scanInts [o.label, x, comma, x] line with
      | [a, b, c, d] => some (.forceBank a b c d)
      | _ => none
  | .forceMatA =>
      match scanInts [o.label, x] line with
      | [a, b] => some (.forceMatA a b)
      | _ => none
  | .forceMat =>
      match scanInts [o.label, x, comma, x] line with
      | [a, b, c, d] => some (.forceMat a b c d)
      | _ => none
  | .forceMuxSenseAmp => int.map .forceMuxSenseAmp
  | .forceMuxOutputLev1 => int.map .forceMuxOutputLev1
  | .forceMuxOutputLev2 => int.map .forceMuxOutputLev2
  | .forceTagBank =>
      match scanInts [o.label, x, comma, x] line with
      | [a, b, c, d] => some (.forceTagBank a b c d)
      | _ => none
  | .forceTagMat =>
      match scanInts [o.label, x, comma, x] line with
      | [a, b, c, d] => some (.forceTagMat a b c d)
      | _ => none
  | .forceTagMuxSenseAmp => int.map .forceTagMuxSenseAmp
  | .forceTagMuxOutputLev1 => int.map .forceTagMuxOutputLev1
  | .forceTagMuxOutputLev2 => int.map .forceTagMuxOutputLev2
  | .useCactiAssumption => word.map fun w => .useCactiAssumption (isYes w)
  | .enablePruning => word.map fun w => .enablePruning (isYes w)
  | .bufferDesignOptimization =>
      word.map fun w => .bufferDesignOptimization (BufferDesignTarget.ofWord w)
  | .tagBufferDesignOptimization =>
      word.map fun w => .tagBufferDesignOptimization (BufferDesignTarget.ofWord w)
  | .flashPageSize => nat.map .flashPageSize
  | .flashBlockSize => nat.map .flashBlockSize
  | .applyReadLatencyConstraint => double.map .applyReadLatencyConstraint
  | .applyWriteLatencyConstraint => double.map .applyWriteLatencyConstraint
  | .applyReadDynamicEnergyConstraint => double.map .applyReadDynamicEnergyConstraint
  | .applyWriteDynamicEnergyConstraint => double.map .applyWriteDynamicEnergyConstraint
  | .applyLeakageConstraint => double.map .applyLeakageConstraint
  | .applyAreaConstraint => double.map .applyAreaConstraint
  | .applyReadEdpConstraint => double.map .applyReadEdpConstraint
  | .applyWriteEdpConstraint => double.map .applyWriteEdpConstraint
  | .partitionGranularity => nat.map .partitionGranularity
  | .localTSVProjection => nat.map .localTSVProjection
  | .globalTSVProjection => nat.map .globalTSVProjection
  | .stackedDieCount => int.map .stackedDieCount
  | .monolithicStackCount => nat.map .monolithicStackCount
  | .printAllOptimals => word.map fun w => .printAllOptimals (isTrue w)
  | .allowDifferentTagTech => word.map fun w => .allowDifferentTagTech (isTrue w)
  | .outputFilePrefix | .processNode | .temperature | .maxDriverCurrent | .deviceRoadmap
  | .writeScheme | .maxNmosSize | .tsvRedundancy | .printLevel => some .other

theorem sscanfNat_eq {label line : List Char} {n : Nat}
    (h : (((scanLiteral label line).bind scanInt).map Prod.fst).map Int.toNat = some n) (x : Nat) :
    sscanfNat label line x = n := by
  obtain ⟨m, hm, rfl⟩ := Option.map_eq_some_iff.mp h
  rw [sscanfNat, sscanfInt_eq hm]

/-- On a well-formed line a branch does what the option line does. -/
theorem ConfigOption.read_ip {o : ConfigOption} {line : List Char} {l : OptionLine}
    (h : o.parse line = some l) (s : ConfigReader) :
    (o.read line s).ip = s.ip.applyLine l := by
  -- the branches by what they scan: words, lists, numbers, limits, and those that keep nothing
  cases o
  case designTarget =>
    obtain ⟨w, hw, rfl⟩ := Option.map_eq_some_iff.mp h
    simp only [ConfigOption.read, sscanfWord_eq hw]
    cases DesignTarget.ofWord w <;> rfl
  case useCactiAssumption =>
    obtain ⟨w, hw, rfl⟩ := Option.map_eq_some_iff.mp h
    simp only [ConfigOption.read, sscanfWord_eq hw]
    rfl
  case forceBank3DA | forceBank3D | forceBankA | forceBank | forceMatA | forceMat | forceTagBank
      | forceTagMat =>
    simp only [ConfigOption.parse] at h
    split at h
    · rename_i hvs
      obtain rfl := Option.some.inj h
      simp only [ConfigOption.read, hvs]
      rfl
    · cases h
  case forceMuxSenseAmp | forceMuxOutputLev1 | forceMuxOutputLev2 | forceTagMuxSenseAmp
      | forceTagMuxOutputLev1 | forceTagMuxOutputLev2 | stackedDieCount =>
    obtain ⟨n, hn, rfl⟩ := Option.map_eq_some_iff.mp h
    simp only [ConfigOption.read, sscanfInt_eq hn]
    rfl
  case capacityB | capacityKB | capacityMB | wordWidth | associativity | flashPageSize
      | flashBlockSize | partitionGranularity | localTSVProjection | globalTSVProjection
      | monolithicStackCount =>
    obtain ⟨n, hn, rfl⟩ := Option.map_eq_some_iff.mp h
    simp only [ConfigOption.read, sscanfNat_eq hn]
    rfl
  case applyReadLatencyConstraint | applyWriteLatencyConstraint
      | applyReadDynamicEnergyConstraint | applyWriteDynamicEnergyConstraint
      | applyLeakageConstraint | applyAreaConstraint | applyReadEdpConstraint
      | applyWriteEdpConstraint =>
    obtain ⟨q, hq, rfl⟩ := Option.map_eq_some_iff.mp h
    simp only [ConfigOption.read, sscanfDouble_eq hq]
    rfl
  case outputFilePrefix | processNode | temperature | maxDriverCurrent | deviceRoadmap
      | writeScheme | maxNmosSize | tsvRedundancy | printLevel =>
    obtain rfl := Option.some.inj h
    rfl
  all_goals
    obtain ⟨w, hw, rfl⟩ := Option.map_eq_some_iff.mp h
    simp only [ConfigOption.read, sscanfWord_eq hw]
    rfl

/-- The option line a line stands for; a line no branch takes stands for none. -/
def parseLine (line : List Char) : Option OptionLine :=
  match branchOf ConfigOption.all ConfigOption.key line with
  | some o => o.parse line
  | none => some .other

theorem readLine_ip {line : List Char} {l : OptionLine} (h : parseLine line = some l)
    (s : ConfigReader) : (ConfigReader.readLine line s).ip = s.ip.applyLine l := by
  unfold ConfigReader.readLine
  unfold parseLine at h
  cases ho : branchOf ConfigOption.all ConfigOption.key line with
  | some o =>
      rw [ho] at h
      exact ConfigOption.read_ip h s
  | none =>
      rw [ho] at h
      obtain rfl := Option.some.inj h
      rfl

/-- A file of well-formed lines is read as the list of option lines it stands for. -/
theorem foldl_readLine_ip {lines : List (List Char)} {file : List OptionLine}
    (h : lines.map parseLine = file.map some) (s : ConfigReader) :
    (lines.foldl (fun s line => ConfigReader.readLine line s) s).ip =
      s.ip.ReadInputParameterFromFile file := by
  induction lines generalizing file s with
  | nil =>
      obtain rfl : file = [] := List.map_eq_nil_iff.mp h.symm
      rfl
  | cons line lines ih =>
      cases file with
      | nil => cases h
      | cons l file =>
          obtain ⟨hl, hrest⟩ := List.cons.inj h
          rw [List.foldl_cons, ih hrest, readLine_ip hl]
          rfl

end Destiny
