/-
  Destiny.Csv.Summary

  What `Result::printAsCache` prints on the console.

  `main` sets the console to three decimals in fixed notation, so that the
  numbers are printed otherwise than in the CSV file; the quantities are those of
  `cacheMetrics`.  A line is the list of what is put into the stream for it.
-/

import Destiny.Csv.Writer
import Destiny.Lib.FieldSearch

namespace Destiny

open Lib

/-- A string constant. -/
def constant (s : String) : Piece := .text s.toList

/-- `cout << x` after `cout << fixed << setprecision(3)`. -/
def console (x : ℚ) : Piece := .number 3 x

/-- `cout << TO_WATT(x)` -/
def consoleWatt (x : ℚ) : List Piece :=
  [console (if x < 1 / 10 ^ 9 then x * 10 ^ 12 else if x < 1 / 10 ^ 6 then x * 10 ^ 9
      else if x < 1 / 10 ^ 3 then x * 10 ^ 6 else if x < 1 then x * 10 ^ 3 else x),
    constant (if x < 1 / 10 ^ 9 then "pW" else if x < 1 / 10 ^ 6 then "nW"
      else if x < 1 / 10 ^ 3 then "uW" else if x < 1 then "mW" else "W")]

/-- `label = number unit` -/
def quantity (label : String) (x : ℚ) (unit : String) : List Piece :=
  [constant label, console x, constant unit]

section
variable (g : CsvGlobals)

/-- Lines that are printed for eDRAM only. -/
def CsvGlobals.refreshLines (lines : List (List Piece)) : List (List Piece) :=
  if g.cell.memCellType = .eDRAM then lines else []

/-- The extent of an array, in the summary of the areas. -/
def areaLine (label : String) (b : ReportedBank) : List Piece :=
  [constant label, console (b.metrics.height * 10 ^ 6), constant "um x ",
    console (b.metrics.width * 10 ^ 6), constant "um = ", console (b.metrics.area * 10 ^ 6),
    constant "mm^2"]

/-- The lines up to the areas. -/
def summaryHead (mode : CacheAccessMode) : List (List Piece) :=
  [[], [constant "======================="], [constant "CACHE DESIGN -- SUMMARY"],
   [constant "======================="], [constant "Access Mode: ", .text mode.csvText],
   [constant "Area:"]]

def summaryAreas (data tag : ReportedBank) (c : CacheMetrics) : List (List Piece) :=
  [quantity " - Total Area = " (c.cacheArea * 10 ^ 6) "mm^2",
   areaLine " |--- Data Array Area = " data, areaLine " |--- Tag Array Area  = " tag,
   [constant "Timing:"]]

def summaryTiming (c : CacheMetrics) : List (List Piece) :=
  [quantity " - Cache Hit Latency   = " (c.cacheHitLatency * 10 ^ 9) "ns",
   quantity " - Cache Miss Latency  = " (c.cacheMissLatency * 10 ^ 9) "ns",
   quantity " - Cache Write Latency = " (c.cacheWriteLatency * 10 ^ 9) "ns"]

def summaryRefresh (data tag : ReportedBank) : List (List Piece) :=
  let refreshLatency := max tag.refreshLatency data.refreshLatency
  g.refreshLines
    [quantity " - Cache Refresh Latency = " (refreshLatency * 10 ^ 6) "us per bank",
     quantity " - Cache Availability = "
      ((g.cell.retentionTime - refreshLatency) / g.cell.retentionTime * 100) "%"]

def summaryEnergy (c : CacheMetrics) : List (List Piece) :=
  [[constant "Power:"],
   quantity " - Cache Hit Dynamic Energy   = " (c.cacheHitDynamicEnergy * 10 ^ 9) "nJ per access",
   quantity " - Cache Miss Dynamic Energy  = " (c.cacheMissDynamicEnergy * 10 ^ 9) "nJ per access",
   quantity " - Cache Write Dynamic Energy = " (c.cacheWriteDynamicEnergy * 10 ^ 9)
    "nJ per access"]

def summaryRefreshEnergy (data tag : ReportedBank) : List (List Piece) :=
  g.refreshLines
    [quantity " - Cache Refresh Dynamic Energy = "
      ((tag.refreshDynamicEnergy + data.refreshDynamicEnergy) * 10 ^ 9) "nJ per bank"]

def summaryLeakage (data tag : ReportedBank) (c : CacheMetrics) : List (List Piece) :=
  [quantity " - Cache Total Leakage Power  = " (c.cacheLeakage * 10 ^ 3) "mW",
   quantity " |--- Cache Data Array Leakage Power = " (data.metrics.leakage * 10 ^ 3) "mW",
   quantity " |--- Cache Tag Array Leakage Power  = " (tag.metrics.leakage * 10 ^ 3) "mW"]

def summaryRefreshPower (data : ReportedBank) : List (List Piece) :=
  g.refreshLines
    [constant " - Cache Refresh Power = " ::
      (consoleWatt (data.refreshDynamicEnergy / g.cell.retentionTime) ++ [constant " per bank"])]

/-- The lines of `printAsCache`, without those of the single arrays. -/
def cacheSummary (data tag : ReportedBank) (mode : CacheAccessMode) : List (List Piece) :=
  let c := cacheMetrics data tag mode
  summaryHead mode ++ (summaryAreas data tag c ++ (summaryTiming c ++ (summaryRefresh g data tag ++
    (summaryEnergy c ++ (summaryRefreshEnergy g data tag ++ (summaryLeakage data tag c ++
      summaryRefreshPower g data))))))

/-- The lines of `printAsCache`; `details` are those of the single arrays
    (`print(4)`), of which there are none at print level zero. -/
def ReportedResult.printAsCache (r tagResult : ReportedResult) (cacheAccessMode : CacheAccessMode)
    (details : List (List Char)) : List (List Char) :=
  if r.bank.memoryType ≠ .data ∨ tagResult.bank.memoryType ≠ .tag then
    ["This is not a valid cache configuration.".toList]
  else (cacheSummary g r.bank tagResult.bank cacheAccessMode).map renderLine ++ details

end

end Destiny
