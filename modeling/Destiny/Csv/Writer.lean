/-
  Destiny.Csv.Writer

  The CSV file of an exploration, as Result.cpp writes it: `printCsvHeader`,
  `printToCsvFile` and `printAsCacheToCsvFile`.

  A line is the text of its fields, each closed by a comma (`cells`); its end,
  `endl`, is left out.  The writers read the record itself and, as globals, the
  parameters, the cell and the feature size of the technology.  Numbers are
  printed at the default precision; `TO_WATT` scales a power and adds a unit.

  The record holds the fields the writers print; the search compares fewer.
-/

import Destiny.Config.Reader
import Destiny.Lib.Numerals
import Destiny.Lib.Ostream
import Destiny.Search.Record

namespace Destiny

open Lib

/-! ## Records -/

/-- Height, width and area of a block. -/
structure Extent where
  height : ℚ
  width : ℚ
  area : ℚ
  deriving DecidableEq, Inhabited

/-- A bank with every field the writers read. -/
structure ReportedBank extends EvaluatedBank where
  refreshLatency : ℚ
  refreshDynamicEnergy : ℚ
  mat : Extent
  matReadLatency : ℚ
  subarray : Extent
  subarrayLeakage : ℚ
  subarrayColumnDecoderLatency : ℚ
  deriving DecidableEq, Inhabited

/-- A `Result` as the writers read it. -/
structure ReportedResult where
  optimizationTarget : OptimizationTarget
  bank : ReportedBank
  localWire : Wire
  globalWire : Wire
  deriving DecidableEq, Inhabited

/-- The globals the writers read. -/
structure CsvGlobals where
  inputParameter : ConfigReader
  cell : MemCell ℚ
  /-- of `tech` -/
  featureSize : ℚ
  /-- `applyConstraint` ends the program otherwise. -/
  modelled : cell.memCellType ≠ .DRAM

/-! ## Fields -/

/-- Fields, each closed by a comma. -/
def cells (fields : List (List Char)) : List Char := fields.flatMap fun f => f ++ [',']

/-- `<<` of a double. -/
def shown (x : ℚ) : List Char := (ostreamDouble x).text

/-- `TO_WATT` of macros.h. -/
def TO_WATT (x : ℚ) : List Char :=
  shown (if x < 1 / 10 ^ 9 then x * 10 ^ 12 else if x < 1 / 10 ^ 6 then x * 10 ^ 9
    else if x < 1 / 10 ^ 3 then x * 10 ^ 6 else if x < 1 then x * 10 ^ 3 else x) ++
  (if x < 1 / 10 ^ 9 then "pW" else if x < 1 / 10 ^ 6 then "nW"
    else if x < 1 / 10 ^ 3 then "uW" else if x < 1 then "mW" else "W").toList

def roadmapToStr : DeviceRoadmap → List Char
  | .HP => "HP".toList
  | .LSTP => "LSTP".toList
  | .LOP => "LOP".toList
  | .EDRAM => "EDRAM".toList

def cellTypeToStr : MemCellType → List Char
  | .SRAM => "SRAM".toList
  | .eDRAM => "eDRAM".toList
  | .memristor => "RRAM".toList
  | .MRAM => "MRAM".toList
  | .PCRAM => "PCRAM".toList
  | .FBRAM => "FBRAM".toList
  | .SLCNAND => "SLCNAND".toList
  | .DRAM | .MLCNAND => "Other".toList

def printOptimizationTarget : OptimizationTarget → List Char
  | .optimized .read_latency_optimized => "Read Latency".toList
  | .optimized .write_latency_optimized => "Write Latency".toList
  | .optimized .read_energy_optimized => "Read Energy".toList
  | .optimized .write_energy_optimized => "Write Energy".toList
  | .optimized .read_edp_optimized => "Read Energy-Delay-Product".toList
  | .optimized .write_edp_optimized => "Write Energy-Delay-Product".toList
  | .optimized .area_optimized => "Area".toList
  | .optimized .leakage_optimized => "Leakage".toList
  | .full_exploration => []

def WireType.csvText : WireType → List Char
  | .local_aggressive => "Local Aggressive".toList
  | .local_conservative => "Local Conservative".toList
  | .semi_aggressive => "Semi-Global Aggressive".toList
  | .semi_conservative => "Semi-Global Conservative".toList
  | .global_aggressive => "Global Aggressive".toList
  | .global_conservative => "Global Conservative".toList
  | .dram_wordline => "DRAM Wire".toList

def WireRepeaterType.csvText : WireRepeaterType → List Char
  | .repeated_none => "No Repeaters".toList
  | .repeated_opt => "Fully-Optimized Repeaters".toList
  | .repeated_5 => "Repeaters with 5% Overhead".toList
  | .repeated_10 => "Repeaters with 10% Overhead".toList
  | .repeated_20 => "Repeaters with 20% Overhead".toList
  | .repeated_30 => "Repeaters with 30% Overhead".toList
  | .repeated_40 => "Repeaters with 40% Overhead".toList
  | .repeated_50 => "Repeaters with 50% Overhead".toList

def yesOrNo (b : Bool) : List Char := if b then "Yes".toList else "No".toList

def BufferDesignTarget.csvText : BufferDesignTarget → List Char
  | .latency_first => "Latency-Optimized".toList
  | .area_first => "Area-Optimized".toList
  | .latency_area_trade_off => "Balanced".toList

def CacheAccessMode.csvText : CacheAccessMode → List Char
  | .normal_access_mode => "Normal".toList
  | .fast_access_mode => "Fast".toList
  | .sequential_access_mode => "Sequential".toList

/-! ## The header -/

def sweptParamNames : List (List Char) :=
  ["opt_target".toList, "capacity_kb".toList, "word_width_bits".toList,
   "associativity".toList, "temperature_K".toList, "process_node_nm".toList,
   "device_roadmap".toList, "internal_sensing".toList, "mem_cell_type".toList]

def cacheNames : List (List Char) :=
  ["cache_access_mode".toList, "cache_area_mm2".toList, "cache_hit_latency_ns".toList,
   "cache_miss_latency_ns".toList, "cache_write_latency_ns".toList,
   "cache_refresh_latency_ns".toList, "cache_hit_energy_nJ".toList,
   "cache_miss_energy_nJ".toList, "cache_write_energy_nJ".toList,
   "cache_refresh_energy_nJ".toList, "cache_leakage_mW".toList,
   "cache_refresh_power_W".toList]

def arrayNames : List (List Char) :=
  ["num_row_mat".toList, "num_col_mat".toList, "stacked_die_count".toList,
   "total_banks".toList, "total_mats".toList, "num_active_mat_per_col".toList,
   "num_active_mat_per_row".toList, "num_row_subarray".toList, "num_col_subarray".toList,
   "num_active_subarray_per_col".toList, "num_active_subarray_per_row".toList,
   "subarray_num_row".toList, "subarray_num_col".toList, "mux_sense_amp".toList,
   "mux_output_lev1".toList, "mux_output_lev2".toList, "num_row_per_set".toList,
   "local_wire_type".toList, "local_wire_repeater_type".toList,
   "local_wire_low_swing".toList, "global_wire_type".toList,
   "global_wire_repeater_type".toList, "global_wire_low_swing".toList,
   "area_optimization_level".toList, "bank_height_um".toList, "bank_width_um".toList,
   "bank_area_mm2".toList, "mat_height_um".toList, "mat_width_um".toList,
   "mat_area_mm2".toList, "subarray_height_um".toList, "subarray_width_um".toList,
   "subarray_area_mm2".toList, "area_efficiency_pct".toList, "read_latency_ns".toList,
   "write_latency_ns".toList, "refresh_latency_ns".toList, "read_energy_pJ".toList,
   "write_energy_pJ".toList, "refresh_energy_pJ".toList, "leakage_mW".toList,
   "refresh_power_W".toList]

def writeArrayColumnHeaders (namePrefix : List Char) : List Char :=
  cells (arrayNames.map fun n => namePrefix ++ n)

/-- The header line. -/
def printCsvHeader (designTarget : DesignTarget) : List Char :=
  cells sweptParamNames ++
    if designTarget = .cache then
      cells cacheNames ++ (writeArrayColumnHeaders "data_".toList ++
        (writeArrayColumnHeaders "tag_".toList ++
          "combined_subarray_leakage_W,combined_subarray_area_mm2".toList))
    else writeArrayColumnHeaders [] ++ "_sentinel_".toList

/-! ## The rows -/

section
variable (g : CsvGlobals)

/-- A field the writers print for eDRAM only. -/
def CsvGlobals.ifRefreshed (field : List Char) : List Char :=
  if g.cell.memCellType = .eDRAM then field else "0".toList

def CsvGlobals.sweptParams (optTarget : List Char) : List (List Char) :=
  let ip := g.inputParameter.ip
  [optTarget, integer ((ip.capacity / 1024 : ℕ) : ℤ), integer (ip.wordWidth : ℤ),
   integer (ip.associativity : ℤ), integer g.inputParameter.temperature,
   integer g.inputParameter.processNode, roadmapToStr g.inputParameter.deviceRoadmap,
   (if ip.internalSensing then "true" else "false").toList, cellTypeToStr g.cell.memCellType]

/-- The fields of `printToCsvFile` that say how the array is organised. -/
def ReportedResult.layoutFields (r : ReportedResult) : List (List Char) :=
  let b := r.bank
  let d := b.geometry
  [integer d.numRowMat, integer d.numColumnMat, integer d.stackedDieCount,
   integer (d.numRowMat * d.numColumnMat * d.stackedDieCount),
   integer (d.numRowSubarray * d.numColumnSubarray), integer d.numActiveMatPerColumn,
   integer d.numActiveMatPerRow, integer d.numRowSubarray, integer d.numColumnSubarray,
   integer d.numActiveSubarrayPerColumn, integer d.numActiveSubarrayPerRow,
   integer b.subarrayNumRow, integer b.subarrayNumColumn, integer d.muxSenseAmp,
   integer d.muxOutputLev1, integer d.muxOutputLev2,
   (if g.inputParameter.ip.designTarget = .cache then integer d.numRowPerSet
     else "N/A".toList),
   r.localWire.wireType.csvText, r.localWire.wireRepeaterType.csvText,
   yesOrNo r.localWire.isLowSwing, r.globalWire.wireType.csvText,
   r.globalWire.wireRepeaterType.csvText, yesOrNo r.globalWire.isLowSwing,
   d.areaOptimizationLevel.csvText]

/-- Its metric fields, up to the last. -/
def ReportedResult.metricFields (r : ReportedResult) : List (List Char) :=
  let b := r.bank
  let m := b.metrics
  [shown (m.height * 10 ^ 6), shown (m.width * 10 ^ 6), shown (m.area * 10 ^ 6),
   shown (b.mat.height * 10 ^ 6), shown (b.mat.width * 10 ^ 6), shown (b.mat.area * 10 ^ 6),
   shown (b.subarray.height * 10 ^ 6), shown (b.subarray.width * 10 ^ 6),
   shown (b.subarray.area * 10 ^ 6),
   shown (g.cell.area * g.featureSize * g.featureSize * b.geometry.capacity / m.area * 100),
   shown (m.readLatency * 10 ^ 9), shown (m.writeLatency * 10 ^ 9),
   g.ifRefreshed (shown (b.refreshLatency * 10 ^ 9)), shown (m.readDynamicEnergy * 10 ^ 12),
   shown (m.writeDynamicEnergy * 10 ^ 12),
   g.ifRefreshed (shown (b.refreshDynamicEnergy * 10 ^ 12)), shown (m.leakage * 10 ^ 3)]

/-- The last field of `printToCsvFile`. -/
def ReportedResult.refreshPowerField (r : ReportedResult) : List Char :=
  g.ifRefreshed (TO_WATT (r.bank.refreshDynamicEnergy / g.cell.retentionTime))

def ReportedResult.printToCsvFile (r : ReportedResult) (writePrefix : Bool) : List Char :=
  (if writePrefix then cells (g.sweptParams (printOptimizationTarget r.optimizationTarget))
    else []) ++
  (cells (r.layoutFields g) ++ (cells (r.metricFields g) ++ cells [r.refreshPowerField g]))

/-! ## Caches -/

/-- The variables of `printAsCacheToCsvFile`. -/
structure CacheMetrics where
  cacheHitLatency : ℚ
  cacheMissLatency : ℚ
  cacheWriteLatency : ℚ
  cacheHitDynamicEnergy : ℚ
  cacheMissDynamicEnergy : ℚ
  cacheWriteDynamicEnergy : ℚ
  cacheLeakage : ℚ
  cacheArea : ℚ
  deriving DecidableEq

/-- What data and tag array amount to in an access mode. -/
def cacheMetrics (data tag : ReportedBank) (mode : CacheAccessMode) : CacheMetrics where
  cacheHitLatency :=
    match mode with
    | .normal_access_mode =>
        max tag.metrics.readLatency data.matReadLatency + data.subarrayColumnDecoderLatency +
          (data.metrics.readLatency - data.matReadLatency)
    | .fast_access_mode => max tag.metrics.readLatency data.metrics.readLatency
    | .sequential_access_mode => tag.metrics.readLatency + data.metrics.readLatency
  cacheMissLatency := tag.metrics.readLatency
  cacheWriteLatency := max tag.metrics.writeLatency data.metrics.writeLatency
  cacheHitDynamicEnergy := tag.metrics.readDynamicEnergy + data.metrics.readDynamicEnergy
  cacheMissDynamicEnergy :=
    match mode with
    | .normal_access_mode | .fast_access_mode =>
        tag.metrics.readDynamicEnergy + data.metrics.readDynamicEnergy
    | .sequential_access_mode => tag.metrics.readDynamicEnergy
  cacheWriteDynamicEnergy := tag.metrics.writeDynamicEnergy + data.metrics.writeDynamicEnergy
  cacheLeakage := tag.metrics.leakage + data.metrics.leakage
  cacheArea := tag.metrics.area + data.metrics.area

/-- The cache fields, up to the last. -/
def cacheFields (data tag : ReportedBank) (mode : CacheAccessMode) : List (List Char) :=
  let c := cacheMetrics data tag mode
  [mode.csvText, shown (c.cacheArea * 10 ^ 6), shown (c.cacheHitLatency * 10 ^ 9),
   shown (c.cacheMissLatency * 10 ^ 9), shown (c.cacheWriteLatency * 10 ^ 9),
   g.ifRefreshed (shown (max tag.refreshLatency data.refreshLatency * 10 ^ 9)),
   shown (c.cacheHitDynamicEnergy * 10 ^ 9), shown (c.cacheMissDynamicEnergy * 10 ^ 9),
   shown (c.cacheWriteDynamicEnergy * 10 ^ 9),
   g.ifRefreshed (shown ((tag.refreshDynamicEnergy + data.refreshDynamicEnergy) * 10 ^ 9)),
   shown (c.cacheLeakage * 10 ^ 3)]

/-- The row of a cache; none when the banks are not a data and a tag array. -/
def ReportedResult.printAsCacheToCsvFile (r tagResult : ReportedResult)
    (cacheAccessMode : CacheAccessMode) : Option (List Char) :=
  if r.bank.memoryType ≠ .data ∨ tagResult.bank.memoryType ≠ .tag then none
  else some
    (cells (g.sweptParams (printOptimizationTarget r.optimizationTarget)) ++
      (cells (cacheFields g r.bank tagResult.bank cacheAccessMode) ++
        (cells [r.refreshPowerField g] ++
          (r.printToCsvFile g false ++ (tagResult.printToCsvFile g false ++
            (shown (r.bank.subarrayLeakage + tagResult.bank.subarrayLeakage) ++ ',' ::
              shown ((r.bank.subarray.area + tagResult.bank.subarray.area) * 10 ^ 6)))))))

end

end Destiny
