/-
  Destiny.Csv.Columns

  Whether the rows of the CSV file match its header.

  A `Quantity` is what a column is to hold and `Quantity.ShownBy` when a field
  shows it: a metric is shown by a printed number, and nothing but the number,
  that agrees with it to the precision of the stream.  `PrintedRow.schema` names
  the columns of a row together with their quantities; `RowMatches` splits the
  header and the row at the commas and compares both with it.

  `TO_WATT` adds a unit to the number, so the refresh power of an eDRAM array is
  no number (`row_matches_iff`).
-/

import Destiny.Csv.Writer

namespace Destiny

open Lib

/-! ## Quantities -/

/-- What a column is to hold. -/
inductive Quantity where
  | word (w : List Char)
  | count (n : ℤ)
  | metric (x : ℚ)

def Quantity.ShownBy : Quantity → List Char → Prop
  | .word w, field => field = w
  | .count n, field => field = integer n
  | .metric x, field => ∃ d : Decimal, d.text = field ∧ |d.value - x| ≤ |x| / 200000

/-- A metric in metres, in µm. -/
def micrometres (x : ℚ) : Quantity := .metric (x * 10 ^ 6)

/-- A metric in square metres, in mm². -/
def squareMillimetres (x : ℚ) : Quantity := .metric (x * 10 ^ 6)

/-- A metric in seconds, in ns. -/
def nanoseconds (x : ℚ) : Quantity := .metric (x * 10 ^ 9)

/-- A metric in joules, in pJ. -/
def picojoules (x : ℚ) : Quantity := .metric (x * 10 ^ 12)

/-- A metric in joules, in nJ. -/
def nanojoules (x : ℚ) : Quantity := .metric (x * 10 ^ 9)

/-- A metric in watts, in mW. -/
def milliwatts (x : ℚ) : Quantity := .metric (x * 10 ^ 3)

def watts (x : ℚ) : Quantity := .metric x

/-! ## Schemas -/

section
variable (g : CsvGlobals)

/-- A refresh metric: zero for a cell that is not refreshed, any but eDRAM. -/
def CsvGlobals.refreshed (x : ℚ) : ℚ := if g.cell.memCellType = .eDRAM then x else 0

def CsvGlobals.sweptSchema (optTarget : List Char) : List (List Char × Quantity) :=
  let ip := g.inputParameter.ip
  [("opt_target".toList, .word optTarget),
   ("capacity_kb".toList, .count ((ip.capacity / 1024 : ℕ) : ℤ)),
   ("word_width_bits".toList, .count ip.wordWidth),
   ("associativity".toList, .count ip.associativity),
   ("temperature_K".toList, .count g.inputParameter.temperature),
   ("process_node_nm".toList, .count g.inputParameter.processNode),
   ("device_roadmap".toList, .word (roadmapToStr g.inputParameter.deviceRoadmap)),
   ("internal_sensing".toList, .word (if ip.internalSensing then "true" else "false").toList),
   ("mem_cell_type".toList, .word (cellTypeToStr g.cell.memCellType))]

def ReportedResult.layoutSchema (r : ReportedResult) : List (List Char × Quantity) :=
  let b := r.bank
  let d := b.geometry
  [("num_row_mat".toList, .count d.numRowMat), ("num_col_mat".toList, .count d.numColumnMat),
   ("stacked_die_count".toList, .count d.stackedDieCount),
   ("total_banks".toList, .count (d.numRowMat * d.numColumnMat * d.stackedDieCount)),
   ("total_mats".toList, .count (d.numRowSubarray * d.numColumnSubarray)),
   ("num_active_mat_per_col".toList, .count d.numActiveMatPerColumn),
   ("num_active_mat_per_row".toList, .count d.numActiveMatPerRow),
   ("num_row_subarray".toList, .count d.numRowSubarray),
   ("num_col_subarray".toList, .count d.numColumnSubarray),
   ("num_active_subarray_per_col".toList, .count d.numActiveSubarrayPerColumn),
   ("num_active_subarray_per_row".toList, .count d.numActiveSubarrayPerRow),
   ("subarray_num_row".toList, .count b.subarrayNumRow),
   ("subarray_num_col".toList, .count b.subarrayNumColumn),
   ("mux_sense_amp".toList, .count d.muxSenseAmp),
   ("mux_output_lev1".toList, .count d.muxOutputLev1),
   ("mux_output_lev2".toList, .count d.muxOutputLev2),
   ("num_row_per_set".toList,
     if g.inputParameter.ip.designTarget = .cache then .count d.numRowPerSet
     else .word "N/A".toList),
   ("local_wire_type".toList, .word r.localWire.wireType.csvText),
   ("local_wire_repeater_type".toList, .word r.localWire.wireRepeaterType.csvText),
   ("local_wire_low_swing".toList, .word (yesOrNo r.localWire.isLowSwing)),
   ("global_wire_type".toList, .word r.globalWire.wireType.csvText),
   ("global_wire_repeater_type".toList, .word r.globalWire.wireRepeaterType.csvText),
   ("global_wire_low_swing".toList, .word (yesOrNo r.globalWire.isLowSwing)),
   ("area_optimization_level".toList, .word d.areaOptimizationLevel.csvText)]

def ReportedResult.metricSchema (r : ReportedResult) : List (List Char × Quantity) :=
  let b := r.bank
  let m := b.metrics
  [("bank_height_um".toList, micrometres m.height), ("bank_width_um".toList, micrometres m.width),
   ("bank_area_mm2".toList, squareMillimetres m.area),
   ("mat_height_um".toList, micrometres b.mat.height),
   ("mat_width_um".toList, micrometres b.mat.width),
   ("mat_area_mm2".toList, squareMillimetres b.mat.area),
   ("subarray_height_um".toList, micrometres b.subarray.height),
   ("subarray_width_um".toList, micrometres b.subarray.width),
   ("subarray_area_mm2".toList, squareMillimetres b.subarray.area),
   ("area_efficiency_pct".toList,
     .metric (g.cell.area * g.featureSize * g.featureSize * b.geometry.capacity / m.area * 100)),
   ("read_latency_ns".toList, nanoseconds m.readLatency),
   ("write_latency_ns".toList, nanoseconds m.writeLatency),
   ("refresh_latency_ns".toList, nanoseconds (g.refreshed b.refreshLatency)),
   ("read_energy_pJ".toList, picojoules m.readDynamicEnergy),
   ("write_energy_pJ".toList, picojoules m.writeDynamicEnergy),
   ("refresh_energy_pJ".toList, picojoules (g.refreshed b.refreshDynamicEnergy)),
   ("leakage_mW".toList, milliwatts m.leakage)]

def ReportedResult.refreshPower (r : ReportedResult) : Quantity :=
  watts (g.refreshed (r.bank.refreshDynamicEnergy / g.cell.retentionTime))

/-- The columns of an array, under a prefix. -/
def ReportedResult.arraySchema (r : ReportedResult) (namePrefix : List Char) :
    List (List Char × Quantity) :=
  (r.layoutSchema g ++ (r.metricSchema g ++ [("refresh_power_W".toList, r.refreshPower g)])).map
    fun c => (namePrefix ++ c.1, c.2)

def cacheSchema (data tag : ReportedBank) (mode : CacheAccessMode) :
    List (List Char × Quantity) :=
  let c := cacheMetrics data tag mode
  [("cache_access_mode".toList, .word mode.csvText),
   ("cache_area_mm2".toList, squareMillimetres c.cacheArea),
   ("cache_hit_latency_ns".toList, nanoseconds c.cacheHitLatency),
   ("cache_miss_latency_ns".toList, nanoseconds c.cacheMissLatency),
   ("cache_write_latency_ns".toList, nanoseconds c.cacheWriteLatency),
   ("cache_refresh_latency_ns".toList,
     nanoseconds (g.refreshed (max tag.refreshLatency data.refreshLatency))),
   ("cache_hit_energy_nJ".toList, nanojoules c.cacheHitDynamicEnergy),
   ("cache_miss_energy_nJ".toList, nanojoules c.cacheMissDynamicEnergy),
   ("cache_write_energy_nJ".toList, nanojoules c.cacheWriteDynamicEnergy),
   ("cache_refresh_energy_nJ".toList,
     nanojoules (g.refreshed (tag.refreshDynamicEnergy + data.refreshDynamicEnergy))),
   ("cache_leakage_mW".toList, milliwatts c.cacheLeakage)]

/-- A row the writers print for the design target. -/
inductive PrintedRow where
  | array (r : ReportedResult) (htarget : g.inputParameter.ip.designTarget ≠ .cache)
  | cache (data tag : ReportedResult) (mode : CacheAccessMode)
      (htarget : g.inputParameter.ip.designTarget = .cache)
      (hdata : data.bank.memoryType = .data) (htag : tag.bank.memoryType = .tag)

variable {g}

/-- The text of the row. -/
def PrintedRow.line : PrintedRow g → Option (List Char)
  | .array r _ => some (r.printToCsvFile g true)
  | .cache data tag mode _ _ _ => data.printAsCacheToCsvFile g tag mode

/-- The columns of the row and what they are to hold. -/
def PrintedRow.schema : PrintedRow g → List (List Char × Quantity)
  | .array r _ =>
      g.sweptSchema (printOptimizationTarget r.optimizationTarget) ++
        (r.arraySchema g [] ++ [("_sentinel_".toList, .word [])])
  | .cache data tag mode _ _ _ =>
      g.sweptSchema (printOptimizationTarget data.optimizationTarget) ++
        (cacheSchema g data.bank tag.bank mode ++
          (("cache_refresh_power_W".toList, data.refreshPower g) ::
            (data.arraySchema g "data_".toList ++ (tag.arraySchema g "tag_".toList ++
              [("combined_subarray_leakage_W".toList,
                  watts (data.bank.subarrayLeakage + tag.bank.subarrayLeakage)),
               ("combined_subarray_area_mm2".toList,
                  squareMillimetres (data.bank.subarray.area + tag.bank.subarray.area))]))))

end

/-- Header and row have the columns of the schema, each row field showing the
    quantity of its column. -/
def RowMatches (schema : List (List Char × Quantity)) (header row : List Char) : Prop :=
  header.splitOn ',' = schema.map Prod.fst ∧
    List.Forall₂ Quantity.ShownBy (schema.map Prod.snd) (row.splitOn ',')

/-! ## Commas -/

theorem splitOn_cells {fields : List (List Char)} (h : ∀ f ∈ fields, ',' ∉ f)
    (rest : List Char) : (cells fields ++ rest).splitOn ',' = fields ++ rest.splitOn ',' := by
  induction fields with
  | nil => rfl
  | cons f fields ih =>
      obtain ⟨hf, hfields⟩ := List.forall_mem_cons.mp h
      have hcons : cells (f :: fields) ++ rest = f ++ ',' :: (cells fields ++ rest) := by
        simp [cells]
      rw [hcons, List.splitOn_append_cons_self_of_not_mem hf, ih hfields, List.cons_append]

theorem not_mem_integer (n : ℤ) : ',' ∉ integer n :=
  fun h => absurd (isNumeral_of_mem_integer h) (by decide)

theorem not_mem_text (d : Decimal) {c : Char} (hc : isNumberChar c = false) : c ∉ d.text :=
  fun h => absurd (d.isNumberChar_of_mem_text h) (by rw [hc]; decide)

theorem not_mem_shown (x : ℚ) : ',' ∉ shown x := not_mem_text _ (by decide)

theorem not_mem_TO_WATT (x : ℚ) : ',' ∉ TO_WATT x := by
  unfold TO_WATT
  rw [List.mem_append, not_or]
  refine ⟨not_mem_text _ (by decide), ?_⟩
  split_ifs <;> decide

/-- The unit stands at the end of a printed power. -/
theorem mem_TO_WATT (x : ℚ) : 'W' ∈ TO_WATT x := by
  unfold TO_WATT
  refine List.mem_append_right _ ?_
  split_ifs <;> decide

/-- A quantity whose word, if it is one, holds no comma. -/
def Quantity.Plain : Quantity → Prop
  | .word w => ',' ∉ w
  | _ => True

theorem Quantity.ShownBy.not_mem {q : Quantity} {field : List Char} (h : q.ShownBy field)
    (hq : q.Plain) : ',' ∉ field := by
  cases q with
  | word w =>
      obtain rfl : field = w := h
      exact hq
  | count n =>
      obtain rfl : field = integer n := h
      exact not_mem_integer n
  | metric x =>
      obtain ⟨d, rfl, -⟩ := h
      exact not_mem_text d (by decide)

theorem not_mem_of_forall₂ {qs : List Quantity} {fields : List (List Char)}
    (h : List.Forall₂ Quantity.ShownBy qs fields) (hqs : ∀ q ∈ qs, q.Plain) :
    ∀ f ∈ fields, ',' ∉ f := by
  induction h with
  | nil => exact fun _ hf => absurd hf List.not_mem_nil
  | cons hshown _ ih =>
      obtain ⟨hq, hrest⟩ := List.forall_mem_cons.mp hqs
      exact List.forall_mem_cons.mpr ⟨hshown.not_mem hq, ih hrest⟩

/-! ## Fields -/

theorem shownBy_word (w : List Char) : (Quantity.word w).ShownBy w := rfl

theorem shownBy_count (n : ℤ) : (Quantity.count n).ShownBy (integer n) := rfl

theorem shownBy_metric (x : ℚ) : (Quantity.metric x).ShownBy (shown x) :=
  ⟨ostreamDouble x, rfl, ostreamDouble_near x⟩

theorem shownBy_zero : (Quantity.metric 0).ShownBy "0".toList := shownBy_metric 0

section
variable (g : CsvGlobals)

/-- A refresh metric is shown, be the cell refreshed or not. -/
theorem shownBy_ifRefreshed (x k : ℚ) :
    (Quantity.metric (g.refreshed x * k)).ShownBy (g.ifRefreshed (shown (x * k))) := by
  unfold CsvGlobals.refreshed CsvGlobals.ifRefreshed
  split
  · exact shownBy_metric _
  · rw [zero_mul]
    exact shownBy_zero

theorem sweptParams_shown (optTarget : List Char) :
    List.Forall₂ Quantity.ShownBy ((g.sweptSchema optTarget).map Prod.snd)
      (g.sweptParams optTarget) := by
  simp only [CsvGlobals.sweptSchema, CsvGlobals.sweptParams, List.map_cons, List.map_nil,
    List.forall₂_cons, shownBy_word, shownBy_count, true_and, List.Forall₂.nil]

theorem ReportedResult.layoutFields_shown (r : ReportedResult) :
    List.Forall₂ Quantity.ShownBy ((r.layoutSchema g).map Prod.snd) (r.layoutFields g) := by
  have hset : (if g.inputParameter.ip.designTarget = .cache
        then Quantity.count r.bank.geometry.numRowPerSet else .word "N/A".toList).ShownBy
      (if g.inputParameter.ip.designTarget = .cache then integer r.bank.geometry.numRowPerSet
        else "N/A".toList) := by
    split
    · exact shownBy_count _
    · exact shownBy_word _
  simp only [ReportedResult.layoutSchema, ReportedResult.layoutFields, List.map_cons,
    List.map_nil, List.forall₂_cons, shownBy_word, shownBy_count, hset, true_and,
    List.Forall₂.nil]

theorem ReportedResult.metricFields_shown (r : ReportedResult) :
    List.Forall₂ Quantity.ShownBy ((r.metricSchema g).map Prod.snd) (r.metricFields g) := by
  simp only [ReportedResult.metricSchema, ReportedResult.metricFields, micrometres,
    squareMillimetres, nanoseconds, picojoules, milliwatts, List.map_cons, List.map_nil,
    List.forall₂_cons, shownBy_metric, shownBy_ifRefreshed, true_and, List.Forall₂.nil]

theorem cacheFields_shown (data tag : ReportedBank) (mode : CacheAccessMode) :
    List.Forall₂ Quantity.ShownBy ((cacheSchema g data tag mode).map Prod.snd)
      (cacheFields g data tag mode) := by
  simp only [cacheSchema, cacheFields, squareMillimetres, nanoseconds, nanojoules, milliwatts,
    List.map_cons, List.map_nil, List.forall₂_cons, shownBy_word, shownBy_metric,
    shownBy_ifRefreshed, true_and, List.Forall₂.nil]

/-- The refresh power is shown exactly when there is none: printed for an eDRAM
    array, it ends with a unit. -/
theorem ReportedResult.refreshPower_shown_iff (r : ReportedResult) :
    (r.refreshPower g).ShownBy (r.refreshPowerField g) ↔ g.cell.memCellType ≠ .eDRAM := by
  unfold ReportedResult.refreshPower ReportedResult.refreshPowerField CsvGlobals.refreshed
    CsvGlobals.ifRefreshed
  by_cases h : g.cell.memCellType = .eDRAM
  · rw [if_pos h, if_pos h]
    refine iff_of_false ?_ (not_not.mpr h)
    rintro ⟨d, hd, -⟩
    exact not_mem_text d (c := 'W') (by decide) (hd ▸ mem_TO_WATT _)
  · rw [if_neg h, if_neg h]
    exact iff_of_true shownBy_zero h

theorem ReportedResult.not_mem_refreshPowerField (r : ReportedResult) :
    ',' ∉ r.refreshPowerField g := by
  unfold ReportedResult.refreshPowerField CsvGlobals.ifRefreshed
  split
  · exact not_mem_TO_WATT _
  · decide

/-! ## Words -/

theorem not_mem_printOptimizationTarget (t : OptimizationTarget) :
    ',' ∉ printOptimizationTarget t := by
  cases t with
  | optimized t => cases t <;> decide
  | full_exploration => exact List.not_mem_nil

theorem plain_sweptSchema (t : OptimizationTarget) :
    ∀ q ∈ (g.sweptSchema (printOptimizationTarget t)).map Prod.snd, q.Plain := by
  have hroadmap (m : DeviceRoadmap) : ',' ∉ roadmapToStr m := by cases m <;> decide
  have hsensing (b : Bool) : ',' ∉ (if b = true then "true" else "false").toList := by
    cases b <;> decide
  have hcell (m : MemCellType) : ',' ∉ cellTypeToStr m := by cases m <;> decide
  simp only [CsvGlobals.sweptSchema, List.map_cons, List.map_nil, List.forall_mem_cons]
  exact ⟨not_mem_printOptimizationTarget t, trivial, trivial, trivial, trivial, trivial,
    hroadmap _, hsensing _, hcell _, fun _ h => absurd h List.not_mem_nil⟩

theorem ReportedResult.plain_layoutSchema (r : ReportedResult) :
    ∀ q ∈ (r.layoutSchema g).map Prod.snd, q.Plain := by
  have hset : (if g.inputParameter.ip.designTarget = .cache
      then Quantity.count r.bank.geometry.numRowPerSet else .word "N/A".toList).Plain := by
    split
    · trivial
    · show ',' ∉ "N/A".toList
      decide
  have hwire (t : WireType) : ',' ∉ t.csvText := by cases t <;> decide
  have hrepeater (t : WireRepeaterType) : ',' ∉ t.csvText := by cases t <;> decide
  have hswing (b : Bool) : ',' ∉ yesOrNo b := by cases b <;> decide
  have hbuffer (t : BufferDesignTarget) : ',' ∉ t.csvText := by cases t <;> decide
  simp only [ReportedResult.layoutSchema, List.map_cons, List.map_nil, List.forall_mem_cons]
  exact ⟨trivial, trivial, trivial, trivial, trivial, trivial, trivial, trivial, trivial,
    trivial, trivial, trivial, trivial, trivial, trivial, trivial, hset, hwire _, hrepeater _,
    hswing _, hwire _, hrepeater _, hswing _, hbuffer _, fun _ h => absurd h List.not_mem_nil⟩

theorem plain_cacheSchema (data tag : ReportedBank) (mode : CacheAccessMode) :
    ∀ q ∈ (cacheSchema g data tag mode).map Prod.snd, q.Plain := by
  have hmode : ',' ∉ mode.csvText := by cases mode <;> decide
  simp only [cacheSchema, List.map_cons, List.map_nil, List.forall_mem_cons]
  exact ⟨hmode, trivial, trivial, trivial, trivial, trivial, trivial, trivial, trivial, trivial,
    trivial, fun _ h => absurd h List.not_mem_nil⟩

theorem ReportedResult.plain_metricSchema (r : ReportedResult) :
    ∀ q ∈ (r.metricSchema g).map Prod.snd, q.Plain := by
  simp only [ReportedResult.metricSchema, List.map_cons, List.map_nil, List.forall_mem_cons]
  exact ⟨trivial, trivial, trivial, trivial, trivial, trivial, trivial, trivial, trivial,
    trivial, trivial, trivial, trivial, trivial, trivial, trivial, trivial,
    fun _ h => absurd h List.not_mem_nil⟩

/-! ## Lines -/

/-- The fields `printToCsvFile` prints for an array. -/
def ReportedResult.arrayFields (r : ReportedResult) : List (List Char) :=
  r.layoutFields g ++ (r.metricFields g ++ [r.refreshPowerField g])

theorem ReportedResult.printToCsvFile_false (r : ReportedResult) :
    r.printToCsvFile g false = cells (r.arrayFields g) := by
  simp [ReportedResult.printToCsvFile, ReportedResult.arrayFields, cells]

theorem ReportedResult.printToCsvFile_true (r : ReportedResult) :
    r.printToCsvFile g true =
      cells (g.sweptParams (printOptimizationTarget r.optimizationTarget)) ++
        cells (r.arrayFields g) := by
  simp [ReportedResult.printToCsvFile, ReportedResult.arrayFields, cells]

theorem not_mem_sweptParams (t : OptimizationTarget) :
    ∀ f ∈ g.sweptParams (printOptimizationTarget t), ',' ∉ f :=
  not_mem_of_forall₂ (sweptParams_shown g _) (plain_sweptSchema g t)

theorem ReportedResult.not_mem_arrayFields (r : ReportedResult) :
    ∀ f ∈ r.arrayFields g, ',' ∉ f := by
  have hlayout := not_mem_of_forall₂ (r.layoutFields_shown g) (r.plain_layoutSchema g)
  have hmetric := not_mem_of_forall₂ (r.metricFields_shown g) (r.plain_metricSchema g)
  intro f hf
  unfold ReportedResult.arrayFields at hf
  rcases List.mem_append.mp hf with h | h
  · exact hlayout f h
  rcases List.mem_append.mp h with h | h
  · exact hmetric f h
  · obtain rfl := List.mem_singleton.mp h
    exact r.not_mem_refreshPowerField g

theorem not_mem_cacheFields (data tag : ReportedBank) (mode : CacheAccessMode) :
    ∀ f ∈ cacheFields g data tag mode, ',' ∉ f :=
  not_mem_of_forall₂ (cacheFields_shown g data tag mode) (plain_cacheSchema g data tag mode)

variable {g}

/-- The fields of a row. -/
def PrintedRow.fields : PrintedRow g → List (List Char)
  | .array r _ =>
      g.sweptParams (printOptimizationTarget r.optimizationTarget) ++ (r.arrayFields g ++ [[]])
  | .cache data tag mode _ _ _ =>
      g.sweptParams (printOptimizationTarget data.optimizationTarget) ++
        (cacheFields g data.bank tag.bank mode ++
          (data.refreshPowerField g ::
            (data.arrayFields g ++ (tag.arrayFields g ++
              [shown (data.bank.subarrayLeakage + tag.bank.subarrayLeakage),
               shown ((data.bank.subarray.area + tag.bank.subarray.area) * 10 ^ 6)]))))

theorem PrintedRow.splitOn_line (row : PrintedRow g) :
    row.line.map (fun l => l.splitOn ',') = some row.fields := by
  cases row with
  | array r htarget =>
      show some ((r.printToCsvFile g true).splitOn ',') = _
      rw [r.printToCsvFile_true g, splitOn_cells (not_mem_sweptParams g _),
        ← List.append_nil (cells (r.arrayFields g)), splitOn_cells (r.not_mem_arrayFields g)]
      rfl
  | cache data tag mode htarget hdata htag =>
      have hpower : ∀ f ∈ [data.refreshPowerField g], ',' ∉ f := by
        simpa using data.not_mem_refreshPowerField g
      show (data.printAsCacheToCsvFile g tag mode).map _ = _
      unfold ReportedResult.printAsCacheToCsvFile
      rw [if_neg (by simp [hdata, htag]), Option.map_some, data.printToCsvFile_false g,
        tag.printToCsvFile_false g, splitOn_cells (not_mem_sweptParams g _),
        splitOn_cells (not_mem_cacheFields g _ _ _), splitOn_cells hpower,
        splitOn_cells (data.not_mem_arrayFields g), splitOn_cells (tag.not_mem_arrayFields g),
        List.splitOn_append_cons_self_of_not_mem (not_mem_shown _),
        List.splitOn_eq_singleton (not_mem_shown _)]
      rfl

/-! ## The header -/

theorem splitOn_writeArrayColumnHeaders {namePrefix : List Char} (h : ',' ∉ namePrefix)
    (rest : List Char) :
    (writeArrayColumnHeaders namePrefix ++ rest).splitOn ',' =
      arrayNames.map (fun n => namePrefix ++ n) ++ rest.splitOn ',' := by
  have hnames : ∀ n ∈ arrayNames, ',' ∉ n := by decide
  refine splitOn_cells ?_ rest
  intro f hf
  obtain ⟨n, hn, rfl⟩ := List.mem_map.mp hf
  rw [List.mem_append, not_or]
  exact ⟨h, hnames n hn⟩

theorem ReportedResult.arraySchema_names (r : ReportedResult) (namePrefix : List Char) :
    (r.arraySchema g namePrefix).map Prod.fst = arrayNames.map fun n => namePrefix ++ n := by
  unfold ReportedResult.arraySchema
  rw [List.map_map]
  rfl

theorem PrintedRow.splitOn_header (row : PrintedRow g) :
    (printCsvHeader g.inputParameter.ip.designTarget).splitOn ',' =
      row.schema.map Prod.fst := by
  have hswept : ∀ n ∈ sweptParamNames, ',' ∉ n := by decide
  have hcache : ∀ n ∈ cacheNames, ',' ∉ n := by decide
  unfold printCsvHeader
  rw [splitOn_cells hswept]
  cases row with
  | array r htarget =>
      rw [if_neg htarget, splitOn_writeArrayColumnHeaders List.not_mem_nil]
      simp only [PrintedRow.schema, List.map_append, r.arraySchema_names]
      rfl
  | cache data tag mode htarget hdata htag =>
      rw [if_pos htarget, splitOn_cells hcache, splitOn_writeArrayColumnHeaders (by decide),
        splitOn_writeArrayColumnHeaders (by decide)]
      simp only [PrintedRow.schema, List.map_append, List.map_cons, data.arraySchema_names,
        tag.arraySchema_names]
      rfl

/-! ## Rows and header -/

theorem ReportedResult.arrayFields_shown (r : ReportedResult) (namePrefix : List Char)
    (h : g.cell.memCellType ≠ .eDRAM) :
    List.Forall₂ Quantity.ShownBy ((r.arraySchema g namePrefix).map Prod.snd)
      (r.arrayFields g) := by
  unfold ReportedResult.arraySchema
  rw [List.map_map]
  show List.Forall₂ _ ((r.layoutSchema g ++ (r.metricSchema g ++ [_])).map Prod.snd) _
  rw [List.map_append, List.map_append]
  exact List.rel_append (r.layoutFields_shown g) (List.rel_append (r.metricFields_shown g)
    (.cons ((r.refreshPower_shown_iff g).mpr h) .nil))

/-- The fields at the same place are related. -/
theorem rel_of_forall₂ {α β : Type} {R : α → β → Prop} {p s : List α} {q t : List β} {a : α}
    {b : β} (h : List.Forall₂ R (p ++ a :: s) (q ++ b :: t)) (hlen : p.length = q.length) :
    R a b := by
  have hdrop := List.forall₂_drop_append _ _ _ h
  rw [← hlen, List.drop_left] at hdrop
  exact (List.forall₂_cons.mp hdrop).1

/-- The refresh power of an array, among the columns of the row. -/
theorem PrintedRow.refreshPower_shown {row : PrintedRow g}
    (h : List.Forall₂ Quantity.ShownBy (row.schema.map Prod.snd) row.fields) :
    ∃ r : ReportedResult, (r.refreshPower g).ShownBy (r.refreshPowerField g) := by
  cases row with
  | array r htarget =>
      refine ⟨r, rel_of_forall₂
        (p := (g.sweptSchema (printOptimizationTarget r.optimizationTarget) ++
          (r.layoutSchema g ++ r.metricSchema g)).map Prod.snd)
        (q := g.sweptParams (printOptimizationTarget r.optimizationTarget) ++
          (r.layoutFields g ++ r.metricFields g)) (s := [.word []]) (t := [[]]) ?_ rfl⟩
      simpa [PrintedRow.schema, PrintedRow.fields, ReportedResult.arraySchema,
        ReportedResult.arrayFields] using h
  | cache data tag mode htarget hdata htag =>
      refine ⟨data, rel_of_forall₂
        (p := (g.sweptSchema (printOptimizationTarget data.optimizationTarget) ++
          cacheSchema g data.bank tag.bank mode).map Prod.snd)
        (q := g.sweptParams (printOptimizationTarget data.optimizationTarget) ++
          cacheFields g data.bank tag.bank mode)
        (s := (data.arraySchema g "data_".toList ++ (tag.arraySchema g "tag_".toList ++ [
            ("combined_subarray_leakage_W".toList,
              watts (data.bank.subarrayLeakage + tag.bank.subarrayLeakage)),
            ("combined_subarray_area_mm2".toList,
              squareMillimetres (data.bank.subarray.area + tag.bank.subarray.area))])).map
          Prod.snd)
        (t := data.arrayFields g ++ (tag.arrayFields g ++ [
          shown (data.bank.subarrayLeakage + tag.bank.subarrayLeakage),
          shown ((data.bank.subarray.area + tag.bank.subarray.area) * 10 ^ 6)])) ?_ rfl⟩
      simpa [PrintedRow.schema, PrintedRow.fields] using h

/-- Without eDRAM every field shows the quantity of its column. -/
theorem PrintedRow.fields_shown (row : PrintedRow g) (h : g.cell.memCellType ≠ .eDRAM) :
    List.Forall₂ Quantity.ShownBy (row.schema.map Prod.snd) row.fields := by
  cases row with
  | array r htarget =>
      simp only [PrintedRow.schema, PrintedRow.fields, List.map_append]
      exact List.rel_append (sweptParams_shown g _) (List.rel_append (r.arrayFields_shown [] h)
        (.cons (shownBy_word _) .nil))
  | cache data tag mode htarget hdata htag =>
      simp only [PrintedRow.schema, PrintedRow.fields, List.map_append, List.map_cons]
      exact List.rel_append (sweptParams_shown g _) (List.rel_append (cacheFields_shown g _ _ _)
        (.cons ((data.refreshPower_shown_iff g).mpr h)
          (List.rel_append (data.arrayFields_shown _ h)
            (List.rel_append (tag.arrayFields_shown _ h)
              (.cons (shownBy_metric _) (.cons (shownBy_metric _) .nil))))))

/-- The line of the row is there and matches the header. -/
def PrintedRow.Matches (row : PrintedRow g) : Prop :=
  ∃ line, row.line = some line ∧
    RowMatches row.schema (printCsvHeader g.inputParameter.ip.designTarget) line

theorem PrintedRow.Matches.memCellType_ne {row : PrintedRow g} (h : row.Matches) :
    g.cell.memCellType ≠ .eDRAM := by
  obtain ⟨line, hline, -, hrow⟩ := h
  have hfields := row.splitOn_line
  rw [hline, Option.map_some, Option.some_inj] at hfields
  rw [hfields] at hrow
  obtain ⟨r, hr⟩ := PrintedRow.refreshPower_shown hrow
  exact (r.refreshPower_shown_iff g).mp hr

/-- A row matches its header exactly when the cell is not eDRAM. -/
theorem row_matches_iff (row : PrintedRow g) :
    row.Matches ↔ g.cell.memCellType ≠ .eDRAM := by
  constructor
  · exact PrintedRow.Matches.memCellType_ne
  · intro h
    obtain ⟨line, hline, hfields⟩ := Option.map_eq_some_iff.mp row.splitOn_line
    refine ⟨line, hline, row.splitOn_header, ?_⟩
    rw [hfields]
    exact row.fields_shown h

end

/-- An eDRAM chip of 64 KB whose cells hold their charge for 40 µs. -/
def edramChip : CsvGlobals where
  inputParameter :=
    { (default : ConfigReader) with
      ip := { (default : InputParameter) with
        designTarget := .RAM_chip, capacity := 65536, wordWidth := 64, associativity := 1 }
      processNode := 32
      temperature := 350 }
  cell :=
    { (default : MemCell ℚ) with
      memCellType := .eDRAM, area := 30, retentionTime := 40 / 10 ^ 6 }
  featureSize := 32 / 10 ^ 9
  modelled := by decide

/-- A design of the chip whose refresh takes 2 nJ. -/
def edramDesign : ReportedResult :=
  { (default : ReportedResult) with
    bank := { (default : ReportedBank) with refreshDynamicEnergy := 2 / 10 ^ 9 } }

/-- The refresh power is written as `50uW`. -/
theorem refresh_power_with_unit :
    edramDesign.refreshPowerField edramChip = "50uW".toList ∧
      ¬ (PrintedRow.array (g := edramChip) edramDesign (by decide)).Matches :=
  ⟨by decide +kernel, fun h => h.memCellType_ne rfl⟩

end Destiny
