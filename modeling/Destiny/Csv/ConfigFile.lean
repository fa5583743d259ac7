/-
  Destiny.Csv.ConfigFile

  The configuration file the scripts write for the row of a cache.

  pandas gives each layout column the value the row was printed from
  (`CacheRow.value_fields`), so `layout_from_row` picks up what the design has in the
  columns of `BENCHING_LAYOUT_COLS`, and `generate_destiny_configs` writes one line for
  each option (`CacheRow.generate_destiny_configs_eq`).
-/

import Destiny.Csv.Columns
import Destiny.Csv.Layout

namespace Destiny

open Lib

/-! ## What a column holds -/

/-- The value of a layout column, the way pandas reads it. -/
def ReportedResult.column (r : ReportedResult) : ArrayColumn → RowValue
  | .num_row_mat => .int r.bank.geometry.numRowMat
  | .num_col_mat => .int r.bank.geometry.numColumnMat
  | .num_active_mat_per_row => .int r.bank.geometry.numActiveMatPerRow
  | .num_active_mat_per_col => .int r.bank.geometry.numActiveMatPerColumn
  | .num_row_subarray => .int r.bank.geometry.numRowSubarray
  | .num_col_subarray => .int r.bank.geometry.numColumnSubarray
  | .num_active_subarray_per_row => .int r.bank.geometry.numActiveSubarrayPerRow
  | .num_active_subarray_per_col => .int r.bank.geometry.numActiveSubarrayPerColumn
  | .mux_sense_amp => .int r.bank.geometry.muxSenseAmp
  | .mux_output_lev1 => .int r.bank.geometry.muxOutputLev1
  | .mux_output_lev2 => .int r.bank.geometry.muxOutputLev2
  | .area_optimization_level => .text r.bank.geometry.areaOptimizationLevel.csvText
  | .local_wire_type => .text r.localWire.wireType.csvText
  | .local_wire_repeater_type => .text r.localWire.wireRepeaterType.csvText
  | .local_wire_low_swing => .text (yesOrNo r.localWire.isLowSwing)
  | .global_wire_type => .text r.globalWire.wireType.csvText
  | .global_wire_repeater_type => .text r.globalWire.wireRepeaterType.csvText
  | .global_wire_low_swing => .text (yesOrNo r.globalWire.isLowSwing)

/-- The place of a layout column among the fields of an array. -/
def ArrayColumn.index : ArrayColumn → ℕ
  | .num_row_mat => 0
  | .num_col_mat => 1
  | .num_active_mat_per_col => 5
  | .num_active_mat_per_row => 6
  | .num_row_subarray => 7
  | .num_col_subarray => 8
  | .num_active_subarray_per_col => 9
  | .num_active_subarray_per_row => 10
  | .mux_sense_amp => 13
  | .mux_output_lev1 => 14
  | .mux_output_lev2 => 15
  | .local_wire_type => 17
  | .local_wire_repeater_type => 18
  | .local_wire_low_swing => 19
  | .global_wire_type => 20
  | .global_wire_repeater_type => 21
  | .global_wire_low_swing => 22
  | .area_optimization_level => 23

def ArrayColumn.all : List ArrayColumn :=
  [.num_row_mat, .num_col_mat, .num_active_mat_per_row, .num_active_mat_per_col,
   .num_row_subarray, .num_col_subarray, .num_active_subarray_per_row,
   .num_active_subarray_per_col, .mux_sense_amp, .mux_output_lev1, .mux_output_lev2,
   .area_optimization_level, .local_wire_type, .local_wire_repeater_type,
   .local_wire_low_swing, .global_wire_type, .global_wire_repeater_type,
   .global_wire_low_swing]

@[simp] theorem ArrayColumn.mem_all (c : ArrayColumn) : c ∈ ArrayColumn.all := by
  cases c <;> decide

section
variable (g : CsvGlobals) (reader : CsvReader)

/-- The texts of the layout are read back as they are. -/
theorem ReportedResult.value_layoutFields (r : ReportedResult) (c : ArrayColumn) :
    (r.layoutFields g)[c.index]?.map reader.value = some (r.column c) := by
  have hwire (t : WireType) : reader.value t.csvText = .text t.csvText :=
    reader.value_prose (by cases t <;> decide)
  have hrepeater (t : WireRepeaterType) : reader.value t.csvText = .text t.csvText :=
    reader.value_prose (by cases t <;> decide)
  have hswing (b : Bool) : reader.value (yesOrNo b) = .text (yesOrNo b) :=
    reader.value_prose (by cases b <;> decide)
  have hbuffer (t : BufferDesignTarget) : reader.value t.csvText = .text t.csvText :=
    reader.value_prose (by cases t <;> decide)
  cases c
  case local_wire_type | global_wire_type => exact congrArg some (hwire _)
  case local_wire_repeater_type | global_wire_repeater_type => exact congrArg some (hrepeater _)
  case local_wire_low_swing | global_wire_low_swing => exact congrArg some (hswing _)
  case area_optimization_level => exact congrArg some (hbuffer _)
  all_goals exact congrArg some (reader.value_integer _)

/-! ## Rows of a cache -/

/-- The rows a cache run writes, with a data array whose mats are all active. -/
structure CacheRow where
  data : ReportedResult
  tag : ReportedResult
  mode : CacheAccessMode
  isCache : g.inputParameter.ip.designTarget = .cache
  isData : data.bank.memoryType = .data
  isTag : tag.bank.memoryType = .tag
  activeMatPerRow : data.bank.geometry.numActiveMatPerRow = data.bank.geometry.numColumnMat
  activeMatPerColumn : data.bank.geometry.numActiveMatPerColumn = data.bank.geometry.numRowMat

variable {g}

def CacheRow.printed (w : CacheRow g) : PrintedRow g :=
  .cache w.data w.tag w.mode w.isCache w.isData w.isTag

/-- The names in the header of a cache. -/
def cacheHeaderNames : List (List Char) :=
  sweptParamNames ++ (cacheNames ++ (arrayNames.map (fun n => "data_".toList ++ n) ++
    (arrayNames.map (fun n => "tag_".toList ++ n) ++
      ["combined_subarray_leakage_W".toList, "combined_subarray_area_mm2".toList])))

theorem CacheRow.schema_names (w : CacheRow g) :
    w.printed.schema.map Prod.fst = cacheHeaderNames := by
  simp only [CacheRow.printed, PrintedRow.schema, List.map_append, List.map_cons,
    ReportedResult.arraySchema_names]
  rfl

/-- The value of a layout column in the row. -/
def CacheRow.value (w : CacheRow g) : LayoutKey → RowValue
  | .data c => w.data.column c
  | .tag c => w.tag.column c

/-- The place of a layout column among the fields of the row. -/
def LayoutKey.index : LayoutKey → ℕ
  | .data c => 21 + c.index
  | .tag c => 63 + c.index

theorem LayoutKey.idxOf_name (k : LayoutKey) : cacheHeaderNames.idxOf k.name = k.index := by
  have hall : ∀ c ∈ ArrayColumn.all,
      cacheHeaderNames.idxOf (LayoutKey.data c).name = (LayoutKey.data c).index ∧
        cacheHeaderNames.idxOf (LayoutKey.tag c).name = (LayoutKey.tag c).index := by
    decide +kernel
  cases k with
  | data c => exact (hall c c.mem_all).1
  | tag c => exact (hall c c.mem_all).2

theorem CacheRow.value_fields (w : CacheRow g) (k : LayoutKey) :
    w.printed.fields[k.index]?.map reader.value = some (w.value k) := by
  have hfield : w.printed.fields[k.index]? =
      match k with
      | .data c => (w.data.layoutFields g)[c.index]?
      | .tag c => (w.tag.layoutFields g)[c.index]? := by
    rcases k with c | c <;> cases c <;> rfl
  rw [hfield]
  cases k with
  | data c => exact w.data.value_layoutFields g reader c
  | tag c => exact w.tag.value_layoutFields g reader c

/-- Names are looked up by their place. -/
theorem lookup_zip {α β : Type} [BEq α] [LawfulBEq α] {names : List α} {values : List β}
    (h : names.length = values.length) (k : α) :
    (names.zip values).lookup k = values[names.idxOf k]? := by
  induction names generalizing values with
  | nil =>
      obtain rfl : values = [] := List.length_eq_zero_iff.mp h.symm
      rfl
  | cons n names ih =>
      cases values with
      | nil => cases h
      | cons v values =>
          rw [List.zip_cons_cons, List.lookup_cons, List.idxOf_cons, ih (Nat.succ.inj h)]
          by_cases hk : n = k
          · subst hk
            simp
          · have hk' : (k == n) = false := beq_eq_false_iff_ne.mpr (Ne.symm hk)
            have hn : (n == k) = false := beq_eq_false_iff_ne.mpr hk
            simp [hk', hn]

def CacheRow.layout (w : CacheRow g) : Layout := fun k =>
  if k ∈ BENCHING_LAYOUT_COLS then some (w.value k) else none

/-- `layout_from_row` picks up the layout columns. -/
theorem CacheRow.layout_from_row_eq (w : CacheRow g) {line : List Char}
    (h : w.printed.line = some line) :
    layout_from_row (reader.row (printCsvHeader g.inputParameter.ip.designTarget) line) [] =
      w.layout := by
  have hfields := w.printed.splitOn_line
  rw [h, Option.map_some, Option.some_inj] at hfields
  funext k
  unfold layout_from_row CsvReader.row
  rw [w.printed.splitOn_header, w.schema_names, hfields, List.nil_append, lookup_zip,
    LayoutKey.idxOf_name, List.getElem?_map, w.value_fields reader]
  · have hnan : w.value k ≠ .nan := by
      rcases k with c | c <;> cases c <;> nofun
    rw [Option.filter_some_pos (by simpa using hnan)]
    rfl
  · rw [List.length_map]
    rfl

/-! ## The lines of the configuration file -/

theorem toList_append_ofList {t u : List Char} :
    (String.ofList t).toList ++ (String.ofList u).toList = t ++ u := by
  rw [String.toList_ofList, String.toList_ofList]

theorem toList_eq_append {s t u : List Char} (h : s = t ++ u) :
    (String.ofList s).toList = (String.ofList t).toList ++ (String.ofList u).toList := by
  rw [toList_append_ofList, String.toList_ofList, h]

/-- An option and what follows its format. -/
abbrev ConfigLine := ConfigOption × List Char

def ConfigLine.text (l : ConfigLine) : List Char := l.1.label ++ l.2

/-- `{A}x{B}, {C}x{D}` -/
def counts (a b c d : ℤ) : List Char :=
  integer a ++ ("x".toList ++ (integer b ++ (", ".toList ++
    (integer c ++ ("x".toList ++ integer d)))))

def ConfigArgs.configLines (a : ConfigArgs) : List ConfigLine :=
  [(.optimizationTarget, a.opt_target.text), (.enablePruning, "Yes".toList),
   (.capacityKB, integer a.cap_kb), (.wordWidth, integer a.ww),
   (.associativity, integer a.assoc), (.stackedDieCount, integer a.stack),
   (.temperature, integer a.temp), (.deviceRoadmap, a.roadmap.text),
   (.memoryCellInputFile, a.cell_file.text), (.processNode, integer a.node)]

section
variable (w : CacheRow g)

def CacheRow.dataArrayLines : List ConfigLine :=
  let d := w.data.bank.geometry
  [(.forceMuxSenseAmp, integer d.muxSenseAmp), (.forceMuxOutputLev1, integer d.muxOutputLev1),
   (.forceMuxOutputLev2, integer d.muxOutputLev2),
   (.forceBank, counts d.numActiveMatPerColumn d.numActiveMatPerRow d.numActiveMatPerColumn
     d.numActiveMatPerRow),
   (.forceMat, counts d.numActiveSubarrayPerColumn d.numActiveSubarrayPerRow
     d.numActiveSubarrayPerColumn d.numActiveSubarrayPerRow)]

def CacheRow.tagLines : List ConfigLine :=
  let t := w.tag.bank.geometry
  [(.tagBufferDesignOptimization, bufferLevel (.text t.areaOptimizationLevel.csvText)),
   (.tagLocalWireType, map_wire_type (.text w.tag.localWire.wireType.csvText)),
   (.tagLocalWireRepeaterType, map_repeater (.text w.tag.localWire.wireRepeaterType.csvText)),
   (.tagLocalWireUseLowSwing, yesOrNo w.tag.localWire.isLowSwing),
   (.tagGlobalWireType, map_wire_type (.text w.tag.globalWire.wireType.csvText)),
   (.tagGlobalWireRepeaterType, map_repeater (.text w.tag.globalWire.wireRepeaterType.csvText)),
   (.tagGlobalWireUseLowSwing, yesOrNo w.tag.globalWire.isLowSwing),
   (.forceTagMuxOutputLev1, integer t.muxOutputLev1),
   (.forceTagMuxOutputLev2, integer t.muxOutputLev2),
   (.forceTagMuxSenseAmp, integer t.muxSenseAmp),
   (.forceTagBank, counts (max t.numRowMat t.numActiveMatPerColumn)
     (max t.numColumnMat t.numActiveMatPerRow) t.numActiveMatPerColumn t.numActiveMatPerRow),
   (.forceTagMat, counts (max t.numRowSubarray t.numActiveSubarrayPerColumn)
     (max t.numColumnSubarray t.numActiveSubarrayPerRow) t.numActiveSubarrayPerColumn
     t.numActiveSubarrayPerRow)]

def CacheRow.dataWireLines : List ConfigLine :=
  [(.localWireType, map_wire_type (.text w.data.localWire.wireType.csvText)),
   (.localWireRepeaterType, map_repeater (.text w.data.localWire.wireRepeaterType.csvText)),
   (.localWireUseLowSwing, yesOrNo w.data.localWire.isLowSwing),
   (.globalWireType, map_wire_type (.text w.data.globalWire.wireType.csvText)),
   (.globalWireRepeaterType, map_repeater (.text w.data.globalWire.wireRepeaterType.csvText)),
   (.globalWireUseLowSwing, yesOrNo w.data.globalWire.isLowSwing),
   (.bufferDesignOptimization,
     bufferLevel (.text w.data.bank.geometry.areaOptimizationLevel.csvText))]

/-- The lines of the configuration file. -/
def CacheRow.configLines (a : ConfigArgs) : List ConfigLine :=
  a.configLines ++ (w.dataArrayLines ++ (w.tagLines ++ w.dataWireLines))

/-- Each of them as a chunk of its own. -/
def chunks (ls : List ConfigLine) : List (List (List Char)) := ls.map fun l => [l.text]

theorem flatten_chunks (ls : List ConfigLine) : (chunks ls).flatten = ls.map ConfigLine.text := by
  unfold chunks
  induction ls with
  | nil => rfl
  | cons l ls ih => rw [List.map_cons, List.flatten_cons, ih]; rfl

/-- A line of the script shows an option when it starts with the format of the option. -/
theorem text_cons {label t : List Char} {o : ConfigOption} {ls : List (List Char)}
    {ms : List ConfigLine} (hlabel : label = o.label) (h : ls = ms.map ConfigLine.text) :
    (label ++ t) :: ls = ((o, t) :: ms).map ConfigLine.text := by
  rw [hlabel, h]
  rfl

theorem chunks_cons {x : Lines} {xs : List Lines} {l : ConfigLine} {ls : List ConfigLine}
    (hx : x = some [l.text]) (h : xs = (chunks ls).map some) :
    x :: xs = (chunks (l :: ls)).map some := by
  rw [hx, h]
  rfl

section
variable {layout : Layout} {label : List Char} {o : ConfigOption} (hlabel : label = o.label)
include hlabel

theorem intLine_eq {k : LayoutKey} {n : ℤ} (hk : layout k = some (.int n)) :
    layout.intLine k label = some [ConfigLine.text (o, integer n)] := by
  unfold Layout.intLine
  rw [hk, hlabel]
  rfl

theorem textLine_eq {k : LayoutKey} {v : RowValue} {f : RowValue → List Char} {t : List Char}
    (hk : layout k = some v) (hf : f v = t) :
    layout.textLine k label f = some [ConfigLine.text (o, t)] := by
  unfold Layout.textLine
  rw [hk, hlabel, ← hf]
  rfl

theorem forceActive_eq {colKey rowKey : LayoutKey} {a b : ℤ} (hcol : layout colKey = some (.int a))
    (hrow : layout rowKey = some (.int b)) :
    layout.forceActive false label colKey rowKey =
      some [ConfigLine.text (o, counts a b a b)] := by
  unfold Layout.forceActive
  rw [hcol, hrow, hlabel]
  rfl

theorem forceTotal_eq {rowTotal colTotal colKey rowKey : LayoutKey} {a b c d : ℤ}
    (ha : layout rowTotal = some (.int a)) (hb : layout colTotal = some (.int b))
    (hc : layout colKey = some (.int c)) (hd : layout rowKey = some (.int d)) :
    layout.forceTotal false label rowTotal colTotal colKey rowKey =
      some [ConfigLine.text (o, counts (max a c) (max b d) c d)] := by
  unfold Layout.forceTotal
  rw [ha, hb, hc, hd, hlabel]
  rfl

/-- Without total counts the active ones stand for them. -/
theorem forceTotal_eq_active {rowTotal colTotal colKey rowKey : LayoutKey} {a b : ℤ}
    (htotal : layout rowTotal = none) (hcol : layout colKey = some (.int a))
    (hrow : layout rowKey = some (.int b)) :
    layout.forceTotal false label rowTotal colTotal colKey rowKey =
      some [ConfigLine.text (o, counts a b a b)] := by
  unfold Layout.forceTotal
  rw [htotal]
  exact forceActive_eq hlabel hcol hrow

end

-- The texts are compared as lists of characters: `String.toList` is slow to evaluate.
theorem ConfigArgs.lines_eq (a : ConfigArgs) : a.lines = a.configLines.map ConfigLine.text := by
  unfold ConfigArgs.lines ConfigArgs.configLines
  iterate 10
    refine text_cons ?_ ?_
    · exact toList_eq_append rfl
  rfl

theorem CacheRow.dataArrayLines_eq :
    w.layout.dataArrayLines false false = (chunks w.dataArrayLines).map some := by
  unfold Layout.dataArrayLines CacheRow.dataArrayLines
  iterate 3
    refine chunks_cons (intLine_eq ?_ rfl) ?_
    · exact toList_eq_append rfl
  refine chunks_cons (forceActive_eq ?_ rfl rfl) ?_
  · exact toList_eq_append rfl
  refine chunks_cons (forceTotal_eq_active ?_ rfl rfl rfl) ?_
  · exact toList_eq_append rfl
  rfl

theorem CacheRow.tagLines_eq :
    w.layout.tagLines false false = (chunks w.tagLines).map some := by
  unfold Layout.tagLines CacheRow.tagLines
  iterate 7
    refine chunks_cons (textLine_eq ?_ rfl rfl) ?_
    · exact toList_eq_append rfl
  iterate 3
    refine chunks_cons (intLine_eq ?_ rfl) ?_
    · exact toList_eq_append rfl
  iterate 2
    refine chunks_cons (forceTotal_eq ?_ rfl rfl rfl rfl) ?_
    · exact toList_eq_append rfl
  rfl

theorem CacheRow.dataWireLines_eq :
    w.layout.dataWireLines = (chunks w.dataWireLines).map some := by
  unfold Layout.dataWireLines CacheRow.dataWireLines
  iterate 7
    refine chunks_cons (textLine_eq ?_ rfl rfl) ?_
    · exact toList_eq_append rfl
  rfl

/-- The lines the script writes for the row. -/
theorem CacheRow.generate_destiny_configs_eq (a : ConfigArgs) :
    generate_destiny_configs w.layout a false false =
      some ((w.configLines a).map ConfigLine.text) := by
  unfold generate_destiny_configs CacheRow.configLines
  rw [a.lines_eq, w.dataArrayLines_eq, w.tagLines_eq, w.dataWireLines_eq, ← List.map_append,
    ← List.map_append, ← List.map_cons, allLines_map_some]
  simp only [List.flatten_cons, List.flatten_append, flatten_chunks, List.map_append]

end

end

end Destiny
