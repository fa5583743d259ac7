/-
  Destiny.Inverse.Validate

  How the optimiser reads what DESTINY prints: `run_destiny_process` and
  `parse_destiny_output` of inverse_design_utils.py.

  The console output is collected line by line, and each metric is the first match
  of its regular expression.  The summary of a cache comes before the details of
  its arrays, whose lines would match as well; so what is read back is what
  `printAsCache` printed, the quantity of the column of the same name in the CSV
  file to the decimals of the console (`parse_printAsCache`).
-/

import Destiny.Csv.Columns
import Destiny.Csv.Summary

namespace Destiny

open Lib

/-! ## Metrics -/

/-- The keys of `metrics_regex`. -/
inductive PpaMetric
  | cache_area_mm2 | cache_hit_latency_ns | cache_write_latency_ns | cache_refresh_latency_ns
  | cache_hit_energy_nJ | cache_write_energy_nJ | cache_refresh_energy_nJ | cache_leakage_mW
  deriving DecidableEq, Repr

namespace PpaMetric

def all : List PpaMetric :=
  [.cache_area_mm2, .cache_hit_latency_ns, .cache_write_latency_ns, .cache_refresh_latency_ns,
   .cache_hit_energy_nJ, .cache_write_energy_nJ, .cache_refresh_energy_nJ, .cache_leakage_mW]

/-- `(mm\^2|um\^2)` -/
def areaUnits : List (List Char × List Char) :=
  [("mm^2".toList, "mm^2".toList), ("um^2".toList, "um^2".toList)]

/-- `(ps|ns|us)` -/
def latencyUnits : List (List Char × List Char) :=
  [("ps".toList, "ps".toList), ("ns".toList, "ns".toList), ("us".toList, "us".toList)]

/-- `(p|n|u)?J`; where the group takes no part the second group counts as empty. -/
def energyUnits : List (List Char × List Char) :=
  [("pJ".toList, "p".toList), ("nJ".toList, "n".toList), ("uJ".toList, "u".toList),
   ("J".toList, [])]

/-- `(p|n|u|m)?W` -/
def powerUnits : List (List Char × List Char) :=
  [("pW".toList, "p".toList), ("nW".toList, "n".toList), ("uW".toList, "u".toList),
   ("mW".toList, "m".toList), ("W".toList, [])]

/-- The regular expressions of `metrics_regex`. -/
def pattern : PpaMetric → FieldPattern
  | .cache_area_mm2 => ⟨["Total Area".toList, "Cache Area".toList], areaUnits⟩
  | .cache_hit_latency_ns => ⟨["Read Latency".toList, "Cache Hit Latency".toList], latencyUnits⟩
  | .cache_write_latency_ns =>
    ⟨["Write Latency".toList, "Cache Write Latency".toList], latencyUnits⟩
  | .cache_refresh_latency_ns =>
    ⟨["Refresh Latency".toList, "Cache Refresh Latency".toList], latencyUnits⟩
  | .cache_hit_energy_nJ =>
    ⟨["Read Dynamic Energy".toList, "Cache Hit Dynamic Energy".toList], energyUnits⟩
  | .cache_write_energy_nJ =>
    ⟨["Write Dynamic Energy".toList, "Cache Write Dynamic Energy".toList], energyUnits⟩
  | .cache_refresh_energy_nJ =>
    ⟨["Refresh Dynamic Energy".toList, "Cache Refresh Dynamic Energy".toList], energyUnits⟩
  | .cache_leakage_mW =>
    ⟨["Leakage Power".toList, "Cache Total Leakage Power".toList], powerUnits⟩

/-- Their scale functions, on the number and the second group. -/
def scale (v : ℚ) (u : List Char) : PpaMetric → ℚ
  | .cache_area_mm2 => if u = "um^2".toList then v / 10 ^ 6 else v
  | .cache_hit_latency_ns | .cache_write_latency_ns | .cache_refresh_latency_ns =>
    if u = "ps".toList then v / 1000 else if u = "us".toList then v * 1000 else v
  | .cache_hit_energy_nJ | .cache_write_energy_nJ | .cache_refresh_energy_nJ =>
    if u = "p".toList then v / 1000 else if u = "u".toList then v * 1000 else v
  | .cache_leakage_mW =>
    if u = "u".toList then v / 1000
    else if u = "n".toList then v / 10 ^ 6
    else if u = "p".toList then v / 10 ^ 9
    else if u = [] then v * 1000
    else v

/-- The refresh metrics, which only eDRAM has. -/
def isRefresh : PpaMetric → Bool
  | .cache_refresh_latency_ns | .cache_refresh_energy_nJ => true
  | _ => false

end PpaMetric

/-- A dictionary by metric. -/
abbrev Ppa := PpaMetric → Option ℚ

def Ppa.isEmpty (m : Ppa) : Bool := PpaMetric.all.all fun k => (m k).isNone

/-- The entry of a metric, if its expression has a match; outside it, none when
    `float` raises. -/
def readMetric (stdout_text : List Char) (k : PpaMetric) : Option (Option ℚ) :=
  match k.pattern.search stdout_text with
  | none => some none
  | some found => (pyFloat found.1).map fun v => some (k.scale v found.2)

/-- `parse_destiny_output`; `csv` is what pandas reads from the CSV file, if that
    exists. -/
def parse_destiny_output (stdout_text : List Char) (csv : Option Ppa) : Option (Option Ppa) :=
  if PpaMetric.all.any fun k => (readMetric stdout_text k).isNone then none
  else
    let found : Ppa := fun k => (readMetric stdout_text k).getD none
    let destiny_ppa_metrics := if found.isEmpty then csv.getD (fun _ => none) else found
    some (if destiny_ppa_metrics.isEmpty then none else some destiny_ppa_metrics)

/-! ## Lines without a field -/

namespace PpaMetric

theorem oneLine (k : PpaMetric) : k.pattern.OneLine := by
  have h : ∀ l ∈ k.pattern.labels, l ≠ [] ∧ '\n' ∉ l := by
    cases k <;> decide
  exact ⟨fun l hl => (h l hl).1, fun l hl => (h l hl).2⟩

/-- No label of the metric is in one of the lines. -/
def LabelFree (k : PpaMetric) (lines : List (List Char)) : Prop :=
  ∀ line ∈ lines, ∀ label ∈ k.pattern.labels, ¬ label <:+: line

instance (k : PpaMetric) (lines : List (List Char)) : Decidable (k.LabelFree lines) :=
  inferInstanceAs (Decidable (∀ line ∈ lines, ∀ label ∈ k.pattern.labels, ¬ label <:+: line))

theorem LabelFree.append {k : PpaMetric} {l m : List (List Char)} (hl : k.LabelFree l)
    (hm : k.LabelFree m) : k.LabelFree (l ++ m) :=
  not_infix_append hl hm

theorem labelFree_of_lacksWord {k : PpaMetric} {lines : List (List Piece)}
    (h : (lines.all fun line => k.pattern.labels.all fun l => lacksWord l line) = true) :
    k.LabelFree (lines.map renderLine) :=
  not_infix_of_lacksWords h

variable (k : PpaMetric)

theorem labelFree_head (mode : CacheAccessMode) : k.LabelFree ((summaryHead mode).map renderLine) :=
  labelFree_of_lacksWord (by cases mode <;> cases k <;> rfl)

theorem labelFree_areas (data tag : ReportedBank) (c : CacheMetrics) (hk : k ≠ .cache_area_mm2) :
    k.LabelFree ((summaryAreas data tag c).map renderLine) :=
  labelFree_of_lacksWord (by cases k <;> first | exact absurd rfl hk | rfl)

theorem labelFree_timing (c : CacheMetrics) (hhit : k ≠ .cache_hit_latency_ns)
    (hwrite : k ≠ .cache_write_latency_ns) :
    k.LabelFree ((summaryTiming c).map renderLine) :=
  labelFree_of_lacksWord (by
    cases k <;> first | exact absurd rfl hhit | exact absurd rfl hwrite | rfl)

theorem labelFree_refresh (g : CsvGlobals) (data tag : ReportedBank)
    (hk : k ≠ .cache_refresh_latency_ns) :
    k.LabelFree ((summaryRefresh g data tag).map renderLine) := by
  refine labelFree_of_lacksWord ?_
  simp only [summaryRefresh, CsvGlobals.refreshLines]
  split
  · cases k <;> first | exact absurd rfl hk | rfl
  · rfl

theorem labelFree_energy (c : CacheMetrics) (hhit : k ≠ .cache_hit_energy_nJ)
    (hwrite : k ≠ .cache_write_energy_nJ) :
    k.LabelFree ((summaryEnergy c).map renderLine) :=
  labelFree_of_lacksWord (by
    cases k <;> first | exact absurd rfl hhit | exact absurd rfl hwrite | rfl)

theorem labelFree_refreshEnergy (g : CsvGlobals) (data tag : ReportedBank)
    (hk : k ≠ .cache_refresh_energy_nJ) :
    k.LabelFree ((summaryRefreshEnergy g data tag).map renderLine) := by
  refine labelFree_of_lacksWord ?_
  simp only [summaryRefreshEnergy, CsvGlobals.refreshLines]
  split
  · cases k <;> first | exact absurd rfl hk | rfl
  · rfl

/-- A cell that is not refreshed has no line on refreshing. -/
theorem labelFree_leakage (hk : k.isRefresh = true) (data tag : ReportedBank) (c : CacheMetrics) :
    k.LabelFree ((summaryLeakage data tag c).map renderLine) :=
  labelFree_of_lacksWord (by cases k <;> first | exact absurd hk (by decide) | rfl)

/-! ## The line of a metric -/

/-- The line of the summary with the field of a metric. -/
def consoleLine (x : ℚ) : PpaMetric → List Piece
  | .cache_area_mm2 => quantity " - Total Area = " x "mm^2"
  | .cache_hit_latency_ns => quantity " - Cache Hit Latency   = " x "ns"
  | .cache_write_latency_ns => quantity " - Cache Write Latency = " x "ns"
  | .cache_refresh_latency_ns => quantity " - Cache Refresh Latency = " x "us per bank"
  | .cache_hit_energy_nJ => quantity " - Cache Hit Dynamic Energy   = " x "nJ per access"
  | .cache_write_energy_nJ => quantity " - Cache Write Dynamic Energy = " x "nJ per access"
  | .cache_refresh_energy_nJ => quantity " - Cache Refresh Dynamic Energy = " x "nJ per bank"
  | .cache_leakage_mW => quantity " - Cache Total Leakage Power  = " x "mW"

/-- How the pattern of a metric takes its line apart. -/
structure ConsoleField where
  label : List Char
  pad : List Char
  unit : List Char
  group : List Char

def field : PpaMetric → ConsoleField
  | .cache_area_mm2 => ⟨"Total Area".toList, " ".toList, "mm^2".toList, "mm^2".toList⟩
  | .cache_hit_latency_ns =>
    ⟨"Cache Hit Latency".toList, "   ".toList, "ns".toList, "ns".toList⟩
  | .cache_write_latency_ns =>
    ⟨"Cache Write Latency".toList, " ".toList, "ns".toList, "ns".toList⟩
  | .cache_refresh_latency_ns =>
    ⟨"Cache Refresh Latency".toList, " ".toList, "us per bank".toList, "us".toList⟩
  | .cache_hit_energy_nJ =>
    ⟨"Cache Hit Dynamic Energy".toList, "   ".toList, "nJ per access".toList, "n".toList⟩
  | .cache_write_energy_nJ =>
    ⟨"Cache Write Dynamic Energy".toList, " ".toList, "nJ per access".toList, "n".toList⟩
  | .cache_refresh_energy_nJ =>
    ⟨"Cache Refresh Dynamic Energy".toList, " ".toList, "nJ per bank".toList, "n".toList⟩
  | .cache_leakage_mW =>
    ⟨"Cache Total Leakage Power".toList, "  ".toList, "mW".toList, "m".toList⟩

theorem renderLine_quantity (label : String) (x : ℚ) (unit : String) :
    renderLine (quantity label x unit) =
      label.toList ++ ((fixedFormat 3 x).text ++ unit.toList) := by
  simp [renderLine, quantity, constant, console, Piece.render]

theorem renderLine_consoleLine (x : ℚ) :
    renderLine (k.consoleLine x) =
      ' ' :: ("- ".toList ++ (k.field.label ++ (k.field.pad ++ '=' ::
        (" ".toList ++ ((fixedFormat 3 x).text ++ k.field.unit))))) := by
  cases k <;> (rw [consoleLine, renderLine_quantity]; rfl)

/-- The labels tried before that of the line start with another letter. -/
theorem labels_eq : ∃ ls ls', k.pattern.labels = ls ++ k.field.label :: ls' ∧
    ∀ l ∈ ls, l.head?.any (fun c => k.field.label.head?.any (· != c)) = true := by
  cases k
  case cache_area_mm2 => exact ⟨[], ["Cache Area".toList], rfl, List.forall_mem_nil _⟩
  case cache_hit_latency_ns => exact ⟨["Read Latency".toList], [], rfl, by decide⟩
  case cache_write_latency_ns => exact ⟨["Write Latency".toList], [], rfl, by decide⟩
  case cache_refresh_latency_ns => exact ⟨["Refresh Latency".toList], [], rfl, by decide⟩
  case cache_hit_energy_nJ => exact ⟨["Read Dynamic Energy".toList], [], rfl, by decide⟩
  case cache_write_energy_nJ => exact ⟨["Write Dynamic Energy".toList], [], rfl, by decide⟩
  case cache_refresh_energy_nJ => exact ⟨["Refresh Dynamic Energy".toList], [], rfl, by decide⟩
  case cache_leakage_mW => exact ⟨["Leakage Power".toList], [], rfl, by decide⟩

theorem field_unit : ∃ u, u.2 = k.field.group ∧
    ∀ rest, (k.pattern.units.find? fun u => u.1.isPrefixOf (k.field.unit ++ rest)) = some u := by
  cases k <;> exact ⟨_, rfl, fun _ => rfl⟩

/-- A line of the summary gives its field. -/
theorem search_consoleLine {x : ℚ} (hx : 0 ≤ x) (rest : List (List Char)) :
    k.pattern.search (reportText (renderLine (k.consoleLine x) :: rest)) =
      some ((fixedFormat 3 x).text, k.field.group) := by
  obtain ⟨ls, ls', hlabels, hfirst⟩ := k.labels_eq
  obtain ⟨u, hgroup, hunit⟩ := k.field_unit
  have hmark : ("- ".toList.all fun c => k.pattern.labels.all fun l => l.head?.any (· != c)) =
      true := by cases k <;> decide
  have hbefore : ∀ c ∈ "- ".toList, ∀ l ∈ k.pattern.labels, l.head?.any (· != c) = true :=
    fun c hc l hl => List.all_eq_true.mp (List.all_eq_true.mp hmark c hc) l hl
  have hpad : ∀ c ∈ k.field.pad, isPySpace c = true :=
    List.all_eq_true.mp (by cases k <;> decide)
  have hblank : ∀ c ∈ " ".toList, isPySpace c = true := List.all_eq_true.mp (by decide)
  have hhead : k.field.unit.head?.any (fun c => !isDigitOrPoint c && !isPySpace c) = true := by
    cases k <;> decide
  have hlast : k.field.unit.getLast?.any (fun c => !isPySpace c) = true := by cases k <;> decide
  have hplain : (fixedFormat 3 x).negative = false ∧ (fixedFormat 3 x).exponent = none :=
    ⟨decide_eq_false (not_lt.mpr hx), rfl⟩
  rw [renderLine_consoleLine, ← hgroup]
  exact FieldPattern.search_report_field hlabels (by decide) hbefore hfirst hpad hblank hplain
    hhead hlast hunit

end PpaMetric

/-! ## What is read back -/

namespace PpaMetric

/-- Its column in the CSV file. -/
def column : PpaMetric → List Char
  | .cache_area_mm2 => "cache_area_mm2".toList
  | .cache_hit_latency_ns => "cache_hit_latency_ns".toList
  | .cache_write_latency_ns => "cache_write_latency_ns".toList
  | .cache_refresh_latency_ns => "cache_refresh_latency_ns".toList
  | .cache_hit_energy_nJ => "cache_hit_energy_nJ".toList
  | .cache_write_energy_nJ => "cache_write_energy_nJ".toList
  | .cache_refresh_energy_nJ => "cache_refresh_energy_nJ".toList
  | .cache_leakage_mW => "cache_leakage_mW".toList

section
variable (g : CsvGlobals) (data tag : ReportedBank) (mode : CacheAccessMode)

/-- The metric of a cache, in the unit of its key. -/
def ofCache : PpaMetric → ℚ
  | .cache_area_mm2 => (cacheMetrics data tag mode).cacheArea * 10 ^ 6
  | .cache_hit_latency_ns => (cacheMetrics data tag mode).cacheHitLatency * 10 ^ 9
  | .cache_write_latency_ns => (cacheMetrics data tag mode).cacheWriteLatency * 10 ^ 9
  | .cache_refresh_latency_ns => g.refreshed (max tag.refreshLatency data.refreshLatency) * 10 ^ 9
  | .cache_hit_energy_nJ => (cacheMetrics data tag mode).cacheHitDynamicEnergy * 10 ^ 9
  | .cache_write_energy_nJ => (cacheMetrics data tag mode).cacheWriteDynamicEnergy * 10 ^ 9
  | .cache_refresh_energy_nJ =>
    g.refreshed (tag.refreshDynamicEnergy + data.refreshDynamicEnergy) * 10 ^ 9
  | .cache_leakage_mW => (cacheMetrics data tag mode).cacheLeakage * 10 ^ 3

/-- The column of the metric holds it. -/
theorem mem_cacheSchema (k : PpaMetric) :
    (k.column, Quantity.metric (k.ofCache g data tag mode)) ∈ cacheSchema g data tag mode := by
  cases k
  case cache_area_mm2 => exact List.mem_of_getElem? (i := 1) rfl
  case cache_hit_latency_ns => exact List.mem_of_getElem? (i := 2) rfl
  case cache_write_latency_ns => exact List.mem_of_getElem? (i := 4) rfl
  case cache_refresh_latency_ns => exact List.mem_of_getElem? (i := 5) rfl
  case cache_hit_energy_nJ => exact List.mem_of_getElem? (i := 6) rfl
  case cache_write_energy_nJ => exact List.mem_of_getElem? (i := 8) rfl
  case cache_refresh_energy_nJ => exact List.mem_of_getElem? (i := 9) rfl
  case cache_leakage_mW => exact List.mem_of_getElem? (i := 10) rfl

/-- What its line of the summary shows; refresh latencies are in µs there. -/
def shownOnConsole : PpaMetric → ℚ
  | .cache_refresh_latency_ns => g.refreshed (max tag.refreshLatency data.refreshLatency) * 10 ^ 6
  | k => k.ofCache g data tag mode

/-- The unit of its last decimal on the console. -/
def grain : PpaMetric → ℚ
  | .cache_refresh_latency_ns => 1
  | _ => 1 / 10 ^ 3

theorem shownOnConsole_nonneg {k : PpaMetric} (h : 0 ≤ k.ofCache g data tag mode) :
    0 ≤ k.shownOnConsole g data tag mode := by
  cases k
  case cache_refresh_latency_ns =>
    have hlatency : 0 ≤ g.refreshed (max tag.refreshLatency data.refreshLatency) := by
      unfold ofCache at h
      exact nonneg_of_mul_nonneg_left h (by norm_num)
    exact mul_nonneg hlatency (by norm_num)
  all_goals exact h

/-- The other metrics are printed in the unit of their keys. -/
theorem scale_group {k : PpaMetric} (hk : k ≠ .cache_refresh_latency_ns) (v : ℚ) :
    k.scale v k.field.group = v := by
  cases k
  case cache_refresh_latency_ns => exact absurd rfl hk
  case cache_area_mm2 => rw [scale, if_neg (by decide)]
  case cache_leakage_mW =>
    rw [scale, if_neg (by decide), if_neg (by decide), if_neg (by decide), if_neg (by decide)]
  all_goals rw [scale, if_neg (by decide), if_neg (by decide)]

/-- Scaled back, the number of the line is the metric to the decimals printed. -/
theorem scale_shownOnConsole (k : PpaMetric) :
    k.scale (roundTo (1 / 10 ^ 3) (k.shownOnConsole g data tag mode)) k.field.group =
      roundTo k.grain (k.ofCache g data tag mode) := by
  cases k
  case cache_refresh_latency_ns =>
    -- µs with three decimals are whole ns
    have hscale (v : ℚ) : cache_refresh_latency_ns.scale v cache_refresh_latency_ns.field.group =
        v * 1000 := by
      rw [scale, if_neg (by decide)]
      exact if_pos rfl
    rw [hscale]
    show roundTo (1 / 10 ^ 3) (g.refreshed (max tag.refreshLatency data.refreshLatency) * 10 ^ 6) *
      1000 = roundTo 1 (g.refreshed (max tag.refreshLatency data.refreshLatency) * 10 ^ 9)
    rw [← roundTo_mul (by norm_num : (1000 : ℚ) ≠ 0)]
    congr 1
    · norm_num
    · ring
  all_goals exact scale_group (by decide) _

/-! ### The first line with a label -/

/-- Among the lines, that of a metric comes before any other with a label of it. -/
def Leads (k : PpaMetric) (x : ℚ) (lines : List (List Piece)) : Prop :=
  ∃ front back, lines = front ++ k.consoleLine x :: back ∧ k.LabelFree (front.map renderLine)

theorem Leads.head (k : PpaMetric) (x : ℚ) (lines : List (List Piece)) :
    k.Leads x (k.consoleLine x :: lines) :=
  ⟨[], lines, rfl, List.forall_mem_nil _⟩

theorem Leads.append {k : PpaMetric} {x : ℚ} {lines : List (List Piece)} (h : k.Leads x lines)
    (after : List (List Piece)) : k.Leads x (lines ++ after) := by
  obtain ⟨front, back, rfl, hfront⟩ := h
  exact ⟨front, back ++ after, by simp, hfront⟩

theorem Leads.behind {k : PpaMetric} {x : ℚ} {before lines : List (List Piece)}
    (hbefore : k.LabelFree (before.map renderLine)) (h : k.Leads x lines) :
    k.Leads x (before ++ lines) := by
  obtain ⟨front, back, rfl, hfront⟩ := h
  refine ⟨before ++ front, back, by simp, ?_⟩
  rw [List.map_append]
  exact hbefore.append hfront

theorem leads_writeLatency :
    cache_write_latency_ns.Leads (cache_write_latency_ns.shownOnConsole g data tag mode)
      (summaryTiming (cacheMetrics data tag mode)) := by
  have hbefore : LabelFree .cache_write_latency_ns
      (((summaryTiming (cacheMetrics data tag mode)).take 2).map renderLine) :=
    labelFree_of_lacksWord rfl
  exact .behind hbefore (.head _ _ [])

theorem leads_refresh (hcell : g.cell.memCellType = .eDRAM) :
    cache_refresh_latency_ns.Leads (cache_refresh_latency_ns.shownOnConsole g data tag mode)
      (summaryRefresh g data tag) := by
  simp only [summaryRefresh, CsvGlobals.refreshLines, shownOnConsole, CsvGlobals.refreshed,
    if_pos hcell]
  exact .head _ _ _

theorem leads_hitEnergy :
    cache_hit_energy_nJ.Leads (cache_hit_energy_nJ.shownOnConsole g data tag mode)
      (summaryEnergy (cacheMetrics data tag mode)) := by
  have hbefore : LabelFree .cache_hit_energy_nJ
      (((summaryEnergy (cacheMetrics data tag mode)).take 1).map renderLine) :=
    labelFree_of_lacksWord rfl
  exact .behind hbefore (.head _ _ _)

theorem leads_writeEnergy :
    cache_write_energy_nJ.Leads (cache_write_energy_nJ.shownOnConsole g data tag mode)
      (summaryEnergy (cacheMetrics data tag mode)) := by
  have hbefore : LabelFree .cache_write_energy_nJ
      (((summaryEnergy (cacheMetrics data tag mode)).take 3).map renderLine) :=
    labelFree_of_lacksWord rfl
  exact .behind hbefore (.head _ _ [])

theorem leads_refreshEnergy (hcell : g.cell.memCellType = .eDRAM) :
    cache_refresh_energy_nJ.Leads (cache_refresh_energy_nJ.shownOnConsole g data tag mode)
      (summaryRefreshEnergy g data tag) := by
  simp only [summaryRefreshEnergy, CsvGlobals.refreshLines, shownOnConsole, ofCache,
    CsvGlobals.refreshed, if_pos hcell]
  exact .head _ _ _

/-- In the summary of a cache each metric leads. -/
theorem leads_cacheSummary (k : PpaMetric)
    (hk : k.isRefresh = true → g.cell.memCellType = .eDRAM) :
    k.Leads (k.shownOnConsole g data tag mode) (cacheSummary g data tag mode) := by
  have hhead := k.labelFree_head mode
  have hareas := k.labelFree_areas data tag (cacheMetrics data tag mode)
  have htiming := k.labelFree_timing (cacheMetrics data tag mode)
  have hrefresh := k.labelFree_refresh g data tag
  have henergy := k.labelFree_energy (cacheMetrics data tag mode)
  have hrefreshEnergy := k.labelFree_refreshEnergy g data tag
  -- the sections in front of that of the metric are passed one by one
  refine .behind hhead ?_
  cases k
  case cache_area_mm2 => exact (Leads.head _ _ _).append _
  all_goals refine .behind (hareas (by decide)) ?_
  case cache_hit_latency_ns => exact (Leads.head _ _ _).append _
  case cache_write_latency_ns => exact (leads_writeLatency g data tag mode).append _
  all_goals refine .behind (htiming (by decide) (by decide)) ?_
  case cache_refresh_latency_ns => exact (leads_refresh g data tag mode (hk rfl)).append _
  all_goals refine .behind (hrefresh (by decide)) ?_
  case cache_hit_energy_nJ => exact (leads_hitEnergy g data tag mode).append _
  case cache_write_energy_nJ => exact (leads_writeEnergy g data tag mode).append _
  all_goals refine .behind (henergy (by decide) (by decide)) ?_
  case cache_refresh_energy_nJ => exact (leads_refreshEnergy g data tag mode (hk rfl)).append _
  case cache_leakage_mW =>
    exact .behind (hrefreshEnergy (by decide)) ((Leads.head _ _ _).append _)

/-- Without refreshing there is no label of a refresh metric. -/
theorem labelFree_cacheSummary {k : PpaMetric} (hk : k.isRefresh = true)
    (hcell : g.cell.memCellType ≠ .eDRAM) :
    k.LabelFree ((cacheSummary g data tag mode).map renderLine) := by
  have hne (k' : PpaMetric) (hk' : k'.isRefresh = false) : k ≠ k' := by
    rintro rfl
    rw [hk] at hk'
    cases hk'
  have hrefresh : summaryRefresh g data tag = [] := if_neg hcell
  have hrefreshEnergy : summaryRefreshEnergy g data tag = [] := if_neg hcell
  have hrefreshPower : summaryRefreshPower g data = [] := if_neg hcell
  simp only [cacheSummary, hrefresh, hrefreshEnergy, hrefreshPower, List.nil_append,
    List.append_nil, List.map_append]
  exact (k.labelFree_head mode).append ((k.labelFree_areas data tag _ (hne _ rfl)).append
    ((k.labelFree_timing _ (hne _ rfl) (hne _ rfl)).append
      ((k.labelFree_energy _ (hne _ rfl) (hne _ rfl)).append (k.labelFree_leakage hk data tag _))))

variable {g data tag mode} {before after : List (List Char)}

/-- A metric that is printed is read back. -/
theorem readMetric_printed {k : PpaMetric} (hk : k.isRefresh = true → g.cell.memCellType = .eDRAM)
    (hbefore : k.LabelFree before) (hnonneg : 0 ≤ k.ofCache g data tag mode) :
    readMetric (reportText (before ++ ((cacheSummary g data tag mode).map renderLine ++ after))) k =
      some (some (roundTo k.grain (k.ofCache g data tag mode))) := by
  obtain ⟨front, back, hsummary, hfront⟩ := leads_cacheSummary g data tag mode k hk
  have hlines : before ++ ((cacheSummary g data tag mode).map renderLine ++ after) =
      (before ++ front.map renderLine) ++
        (renderLine (k.consoleLine (k.shownOnConsole g data tag mode)) ::
          (back.map renderLine ++ after)) := by
    rw [hsummary]
    simp
  have hfound := k.search_consoleLine (shownOnConsole_nonneg g data tag mode hnonneg)
    (back.map renderLine ++ after)
  rw [readMetric, hlines, FieldPattern.search_report_append k.oneLine (hbefore.append hfront)
    (List.cons_ne_nil _ _), hfound]
  show (pyFloat _).map _ = _
  rw [Decimal.pyFloat_text, value_fixedFormat, Option.map_some, scale_shownOnConsole]

/-- A metric that is not printed is left out. -/
theorem readMetric_unprinted {k : PpaMetric} (hk : k.isRefresh = true)
    (hcell : g.cell.memCellType ≠ .eDRAM) (hbefore : k.LabelFree before)
    (hafter : k.LabelFree after) :
    readMetric (reportText (before ++ ((cacheSummary g data tag mode).map renderLine ++ after))) k =
      some none := by
  have hfree := hbefore.append ((labelFree_cacheSummary g data tag mode hk hcell).append hafter)
  rw [readMetric, FieldPattern.search_report_eq_none k.oneLine hfree]

end

end PpaMetric

/-- What is read back of a cache: each metric to the last decimal of the console,
    refresh metrics for eDRAM only. -/
def readBack (g : CsvGlobals) (data tag : ReportedBank) (mode : CacheAccessMode) : Ppa := fun k =>
  if k.isRefresh = true ∧ g.cell.memCellType ≠ .eDRAM then none
  else some (roundTo k.grain (k.ofCache g data tag mode))

section
variable {g : CsvGlobals} {data tag : ReportedBank} {mode : CacheAccessMode}
  {before after : List (List Char)}

theorem readMetric_summary (hbefore : ∀ k : PpaMetric, k.LabelFree before)
    (hafter : g.cell.memCellType ≠ .eDRAM → ∀ k : PpaMetric, k.isRefresh = true →
      k.LabelFree after)
    (hnonneg : ∀ k : PpaMetric, 0 ≤ k.ofCache g data tag mode) (k : PpaMetric) :
    readMetric (reportText (before ++ ((cacheSummary g data tag mode).map renderLine ++ after))) k =
      some (readBack g data tag mode k) := by
  by_cases hk : k.isRefresh = true ∧ g.cell.memCellType ≠ .eDRAM
  · rw [PpaMetric.readMetric_unprinted hk.1 hk.2 (hbefore k) (hafter hk.2 k hk.1), readBack,
      if_pos hk]
  · rw [PpaMetric.readMetric_printed (fun h => not_not.mp fun hcell => hk ⟨h, hcell⟩) (hbefore k)
      (hnonneg k), readBack, if_neg hk]

/-- Where every metric is read, found or not, the result is what was found. -/
theorem parse_of_read {text : List Char} {found : Ppa} (csv : Option Ppa)
    (hread : ∀ k, readMetric text k = some (found k)) :
    parse_destiny_output text csv =
      some (if found.isEmpty then
          if (csv.getD fun _ => none).isEmpty then none else some (csv.getD fun _ => none)
        else some found) := by
  have hraised : ¬ (PpaMetric.all.any fun k => (readMetric text k).isNone) = true := by
    simp [hread]
  rw [parse_destiny_output, if_neg hraised]
  simp only [hread, Option.getD_some]
  by_cases hempty : found.isEmpty = true
  · simp only [hempty, if_true]
  · simp only [hempty, if_false, Bool.false_eq_true]

theorem parse_summary (csv : Option Ppa) (hbefore : ∀ k : PpaMetric, k.LabelFree before)
    (hafter : g.cell.memCellType ≠ .eDRAM → ∀ k : PpaMetric, k.isRefresh = true →
      k.LabelFree after)
    (hnonneg : ∀ k : PpaMetric, 0 ≤ k.ofCache g data tag mode) :
    parse_destiny_output
        (reportText (before ++ ((cacheSummary g data tag mode).map renderLine ++ after))) csv =
      some (some (readBack g data tag mode)) := by
  have harea : (readBack g data tag mode).isEmpty = false := by
    rw [Ppa.isEmpty, List.all_eq_false]
    exact ⟨.cache_area_mm2, List.mem_cons_self, by simp [readBack, PpaMetric.isRefresh]⟩
  rw [parse_of_read csv (readMetric_summary hbefore hafter hnonneg), harea,
    if_neg Bool.false_ne_true]

/-- A report without labels gives nothing. -/
theorem parse_labelFree {lines : List (List Char)} (h : ∀ k : PpaMetric, k.LabelFree lines) :
    parse_destiny_output (reportText lines) none = some none := by
  have hread (k : PpaMetric) : readMetric (reportText lines) k = some none := by
    rw [readMetric, FieldPattern.search_report_eq_none k.oneLine (h k)]
  rw [parse_of_read none hread]
  rfl

end

theorem printAsCache_eq {g : CsvGlobals} {r tagResult : ReportedResult} (mode : CacheAccessMode)
    (details : List (List Char)) (hdata : r.bank.memoryType = .data)
    (htag : tagResult.bank.memoryType = .tag) :
    r.printAsCache g tagResult mode details =
      (cacheSummary g r.bank tagResult.bank mode).map renderLine ++ details :=
  if_neg (by simp [hdata, htag])

/-- The summary of a cache comes back from the console: each metric is the quantity of
    its column of the CSV file, rounded to the last decimal of the console.  Refresh
    metrics are printed for eDRAM only. -/
theorem parse_printAsCache (g : CsvGlobals) (r tagResult : ReportedResult) (mode : CacheAccessMode)
    (before details after : List (List Char)) (csv : Option Ppa) (hdata : r.bank.memoryType = .data)
    (htag : tagResult.bank.memoryType = .tag) (hbefore : ∀ k : PpaMetric, k.LabelFree before)
    (hafter : g.cell.memCellType ≠ .eDRAM → ∀ k : PpaMetric, k.isRefresh = true →
      k.LabelFree (details ++ after))
    (hnonneg : ∀ k : PpaMetric, 0 ≤ k.ofCache g r.bank tagResult.bank mode) :
    ∃ metrics : Ppa,
      parse_destiny_output
          (reportText (before ++ (r.printAsCache g tagResult mode details ++ after))) csv =
        some (some metrics) ∧
      ∀ k : PpaMetric, ∃ x,
        (k.column, Quantity.metric x) ∈ cacheSchema g r.bank tagResult.bank mode ∧
        metrics k = if k.isRefresh = true ∧ g.cell.memCellType ≠ .eDRAM then none
          else some (roundTo k.grain x) := by
  refine ⟨readBack g r.bank tagResult.bank mode, ?_,
    fun k => ⟨_, k.mem_cacheSchema g r.bank tagResult.bank mode, rfl⟩⟩
  rw [printAsCache_eq mode details hdata htag, List.append_assoc]
  exact parse_summary csv hbefore hafter hnonneg

/-- A cache with an eDRAM cell. -/
def eDRAMCache : CsvGlobals where
  inputParameter := default
  cell := { (default : MemCell ℚ) with memCellType := .eDRAM, retentionTime := 40 / 10 ^ 6 }
  featureSize := 32 / 10 ^ 9
  modelled := by decide

/-- An array with figures of its own. -/
def cacheArray (memoryType : MemoryType) : ReportedResult :=
  { (default : ReportedResult) with
    bank := { (default : ReportedBank) with
      memoryType := memoryType
      refreshLatency := 15625 / 10 ^ 10
      refreshDynamicEnergy := 42 / 10 ^ 10
      metrics := { (default : Metrics) with
        readLatency := 21 / 10 ^ 10
        writeLatency := 18 / 10 ^ 10
        readDynamicEnergy := 12345 / 10 ^ 14
        writeDynamicEnergy := 6 / 10 ^ 11
        leakage := 35 / 10 ^ 4
        area := 123456789 / 10 ^ 16 } } }

/-- What is printed of an array behind the summary: lines that the patterns match too. -/
def arrayDetails : List (List Char) :=
  ["CACHE DATA ARRAY DETAILS".toList, "Timing:".toList, "-  Read Latency = 2.100ns".toList,
   "- Write Latency = 1.800ns".toList, "- Refresh Latency = 1.562us".toList]

/-- Its refresh latency of 1562.5 ns is printed as 1.562us. -/
theorem parse_printAsCache_eDRAM :
    ∃ metrics : Ppa,
      parse_destiny_output
          (reportText (["Using cell file: edram.cell".toList] ++
            ((cacheArray .data).printAsCache eDRAMCache (cacheArray .tag) .normal_access_mode
                arrayDetails ++
              [[], "Finished!".toList]))) none =
        some (some metrics) ∧
      ∀ k : PpaMetric, ∃ x,
        (k.column, Quantity.metric x) ∈ cacheSchema eDRAMCache (cacheArray .data).bank
          (cacheArray .tag).bank .normal_access_mode ∧
        metrics k = if k.isRefresh = true ∧ eDRAMCache.cell.memCellType ≠ .eDRAM then none
          else some (roundTo k.grain x) :=
  parse_printAsCache eDRAMCache (cacheArray .data) (cacheArray .tag) .normal_access_mode _
    arrayDetails _ none rfl rfl (by intro k; cases k <;> decide) (fun hcell => absurd rfl hcell)
    (by intro k; cases k <;> decide +kernel)

end Destiny
