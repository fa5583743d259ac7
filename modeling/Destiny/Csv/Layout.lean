/-
  Destiny.Csv.Layout

  From a row of the CSV file to a configuration file: `layout_from_row`,
  `map_repeater`, `map_wire_type` and `generate_destiny_configs` of
  inverse_design_utils.py.

  The CSV file is read with pandas: a `CsvReader` turns the text of a field into
  a value.  Of the two files `generate_destiny_configs` writes, the cell file
  does not depend on the layout and is left out; an empty layout adds no line,
  as no layout does.
-/

import Destiny.Csv.Writer
import Destiny.Lib.LineLoop

namespace Destiny

open Lib

/-! ## Rows -/

/-- A value of a row. -/
inductive RowValue where
  | int (n : ℤ)
  | text (w : List Char)
  | nan
  deriving DecidableEq

/-- Words pandas takes for a missing value, a truth value or a number. -/
def specialWords : List (List Char) :=
  ["N/A".toList, "NA".toList, "NULL".toList, "NaN".toList, "None".toList, "n/a".toList,
   "nan".toList, "null".toList, "True".toList, "TRUE".toList, "true".toList, "False".toList,
   "FALSE".toList, "false".toList, "inf".toList, "Inf".toList, "INF".toList,
   "infinity".toList, "Infinity".toList, "INFINITY".toList]

/-- A field that starts with a letter and is no special word. -/
def isProse (field : List Char) : Bool :=
  field.head?.any Char.isAlpha && !specialWords.contains field

/-- `pandas.read_csv`, field by field. -/
structure CsvReader where
  value : List Char → RowValue
  value_integer (n : ℤ) : value (integer n) = .int n
  value_prose {field : List Char} (h : isProse field = true) : value field = .text field

/-- A row by column name. -/
abbrev Row := List (List Char × RowValue)

def CsvReader.row (reader : CsvReader) (header line : List Char) : Row :=
  (header.splitOn ',').zip ((line.splitOn ',').map reader.value)

/-! ## Layouts -/

/-- The columns of an array that a layout has. -/
inductive ArrayColumn
  | num_row_mat | num_col_mat | num_active_mat_per_row | num_active_mat_per_col
  | num_row_subarray | num_col_subarray | num_active_subarray_per_row
  | num_active_subarray_per_col | mux_sense_amp | mux_output_lev1 | mux_output_lev2
  | area_optimization_level | local_wire_type | local_wire_repeater_type
  | local_wire_low_swing | global_wire_type | global_wire_repeater_type
  | global_wire_low_swing
  deriving DecidableEq

def ArrayColumn.name : ArrayColumn → List Char
  | .num_row_mat => "num_row_mat".toList
  | .num_col_mat => "num_col_mat".toList
  | .num_active_mat_per_row => "num_active_mat_per_row".toList
  | .num_active_mat_per_col => "num_active_mat_per_col".toList
  | .num_row_subarray => "num_row_subarray".toList
  | .num_col_subarray => "num_col_subarray".toList
  | .num_active_subarray_per_row => "num_active_subarray_per_row".toList
  | .num_active_subarray_per_col => "num_active_subarray_per_col".toList
  | .mux_sense_amp => "mux_sense_amp".toList
  | .mux_output_lev1 => "mux_output_lev1".toList
  | .mux_output_lev2 => "mux_output_lev2".toList
  | .area_optimization_level => "area_optimization_level".toList
  | .local_wire_type => "local_wire_type".toList
  | .local_wire_repeater_type => "local_wire_repeater_type".toList
  | .local_wire_low_swing => "local_wire_low_swing".toList
  | .global_wire_type => "global_wire_type".toList
  | .global_wire_repeater_type => "global_wire_repeater_type".toList
  | .global_wire_low_swing => "global_wire_low_swing".toList

inductive LayoutKey
  | data (c : ArrayColumn)
  | tag (c : ArrayColumn)
  deriving DecidableEq

def LayoutKey.name : LayoutKey → List Char
  | .data c => "data_".toList ++ c.name
  | .tag c => "tag_".toList ++ c.name

def BENCHING_LAYOUT_COLS : List LayoutKey :=
  [.data .mux_sense_amp, .data .mux_output_lev1, .data .mux_output_lev2,
   .data .num_active_mat_per_row, .data .num_active_mat_per_col,
   .data .num_active_subarray_per_row, .data .num_active_subarray_per_col,
   .tag .num_row_mat, .tag .num_col_mat, .tag .mux_sense_amp, .tag .mux_output_lev1,
   .tag .mux_output_lev2, .tag .num_active_mat_per_row, .tag .num_active_mat_per_col,
   .tag .num_active_subarray_per_row, .tag .num_active_subarray_per_col,
   .tag .num_row_subarray, .tag .num_col_subarray, .tag .area_optimization_level,
   .tag .local_wire_type, .tag .local_wire_repeater_type, .tag .local_wire_low_swing,
   .tag .global_wire_type, .tag .global_wire_repeater_type, .tag .global_wire_low_swing,
   .data .local_wire_type, .data .local_wire_repeater_type, .data .local_wire_low_swing,
   .data .global_wire_type, .data .global_wire_repeater_type, .data .global_wire_low_swing,
   .data .area_optimization_level]

/-- A layout as `layout_config.get` reads it. -/
abbrev Layout := LayoutKey → Option RowValue

def layout_from_row (row : Row) (namePrefix : List Char) : Layout := fun k =>
  if k ∈ BENCHING_LAYOUT_COLS then
    (row.lookup (namePrefix ++ k.name)).filter fun v => v ≠ .nan
  else none

/-! ## Texts -/

/-- `int(v)`; a text here is none of an integer. -/
def RowValue.int? : RowValue → Option ℤ
  | .int n => some n
  | .text _ | .nan => none

/-- `str(v)` -/
def RowValue.str : RowValue → List Char
  | .int n => integer n
  | .text w => w
  | .nan => "nan".toList

def map_repeater (val : RowValue) : List Char :=
  let v := val.str
  if "Fully-Optimized".toList <:+: v ∨ "Opt".toList <:+: v then "RepeatedOpt".toList
  else if "No".toList <:+: v then "RepeatedNone".toList
  else v.filter fun c => c ≠ ' '

/-- `s.replace(old, new)`; `skip` characters of an occurrence are left. -/
def replaceFrom (old new : List Char) : ℕ → List Char → List Char
  | _, [] => []
  | skip + 1, _ :: s => replaceFrom old new skip s
  | 0, c :: s =>
    if old.isPrefixOf (c :: s) then new ++ replaceFrom old new (old.length - 1) s
    else c :: replaceFrom old new 0 s

def map_wire_type (val : RowValue) : List Char :=
  replaceFrom "Semi-Global".toList "Semi".toList 0 (val.str.filter fun c => c ≠ ' ')

/-- What `-BufferDesignOptimization` gets. -/
def bufferLevel (v : RowValue) : List Char :=
  let val := v.str.map Char.toLower
  if "latency".toList <:+: val then "latency".toList
  else if "area".toList <:+: val then "area".toList
  else v.str

/-! ## Lines -/

/-- A text in a line of its own: not blank, without newline. -/
structure LineText where
  text : List Char
  not_newline : '\n' ∉ text
  not_blank : notBlank text = true

/-- The arguments of `generate_destiny_configs` that the configuration shows. -/
structure ConfigArgs where
  opt_target : LineText
  cap_kb : ℤ
  ww : ℤ
  assoc : ℤ
  stack : ℤ
  temp : ℤ
  roadmap : LineText
  /-- `os.path.abspath(cell_file)` -/
  cell_file : LineText
  node : ℤ

def ConfigArgs.lines (a : ConfigArgs) : List (List Char) :=
  ["-OptimizationTarget: ".toList ++ a.opt_target.text, "-EnablePruning: ".toList ++ "Yes".toList,
   "-Capacity (KB): ".toList ++ integer a.cap_kb, "-WordWidth (bit): ".toList ++ integer a.ww,
   "-Associativity (for cache only): ".toList ++ integer a.assoc,
   "-StackedDieCount: ".toList ++ integer a.stack, "-Temperature (K): ".toList ++ integer a.temp,
   "-DeviceRoadmap: ".toList ++ a.roadmap.text,
   "-MemoryCellInputFile: ".toList ++ a.cell_file.text, "-ProcessNode: ".toList ++ integer a.node]

/-- Lines, none when the script raises. -/
abbrev Lines := Option (List (List Char))

section
variable (layout : Layout)

def Layout.intLine (key : LayoutKey) (label : List Char) : Lines :=
  match layout key with
  | none => some []
  | some v => v.int?.map fun n => [label ++ integer n]

def Layout.textLine (key : LayoutKey) (label : List Char) (f : RowValue → List Char) : Lines :=
  match layout key with
  | none => some []
  | some v => some [label ++ f v]

/-- `{A}x{B}, {C}x{D}` -/
def totalAndActive (label : List Char) (a b c d : ℤ) : List Char :=
  label ++ (integer a ++ ("x".toList ++ (integer b ++ (", ".toList ++
    (integer c ++ ("x".toList ++ integer d))))))

/-- The branches that take the active counts for the total ones. -/
def Layout.forceActive (free : Bool) (label : List Char) (colKey rowKey : LayoutKey) : Lines :=
  match layout colKey, layout rowKey, free with
  | some c, some r, false => do
      let a ← c.int?
      let b ← r.int?
      some [totalAndActive label a b a b]
  | _, _, _ => some []

/-- The branches with total counts of their own. -/
def Layout.forceTotal (free : Bool) (label : List Char)
    (rowTotal colTotal colKey rowKey : LayoutKey) : Lines :=
  match layout rowTotal, layout colTotal, free with
  | some r, some c, false => do
      let a ← r.int?
      let b ← c.int?
      let c ← ((layout colKey).map RowValue.int?).getD (some a)
      let d ← ((layout rowKey).map RowValue.int?).getD (some b)
      some [totalAndActive label (max a c) (max b d) c d]
  | _, _, _ => layout.forceActive free label colKey rowKey

/-- The options of the data array, its wires and buffers aside. -/
def Layout.dataArrayLines (free_mat free_bank : Bool) : List Lines :=
  [layout.intLine (.data .mux_sense_amp) "-ForceMuxSenseAmp: ".toList,
   layout.intLine (.data .mux_output_lev1) "-ForceMuxOutputLev1: ".toList,
   layout.intLine (.data .mux_output_lev2) "-ForceMuxOutputLev2: ".toList,
   layout.forceActive free_bank "-ForceBank (Total AxB, Active CxD): ".toList
     (.data .num_active_mat_per_col) (.data .num_active_mat_per_row),
   layout.forceTotal free_mat "-ForceMat (Total AxB, Active CxD): ".toList
     (.data .num_row_subarray) (.data .num_col_subarray)
     (.data .num_active_subarray_per_col) (.data .num_active_subarray_per_row)]

/-- The options of the tag array. -/
def Layout.tagLines (free_mat free_bank : Bool) : List Lines :=
  [layout.textLine (.tag .area_optimization_level) "-TagBufferDesignOptimization: ".toList
     bufferLevel,
   layout.textLine (.tag .local_wire_type) "-TagLocalWireType: ".toList map_wire_type,
   layout.textLine (.tag .local_wire_repeater_type) "-TagLocalWireRepeaterType: ".toList
     map_repeater,
   layout.textLine (.tag .local_wire_low_swing) "-TagLocalWireUseLowSwing: ".toList RowValue.str,
   layout.textLine (.tag .global_wire_type) "-TagGlobalWireType: ".toList map_wire_type,
   layout.textLine (.tag .global_wire_repeater_type) "-TagGlobalWireRepeaterType: ".toList
     map_repeater,
   layout.textLine (.tag .global_wire_low_swing) "-TagGlobalWireUseLowSwing: ".toList
     RowValue.str,
   layout.intLine (.tag .mux_output_lev1) "-ForceTagMuxOutputLev1: ".toList,
   layout.intLine (.tag .mux_output_lev2) "-ForceTagMuxOutputLev2: ".toList,
   layout.intLine (.tag .mux_sense_amp) "-ForceTagMuxSenseAmp: ".toList,
   layout.forceTotal free_bank "-ForceTagBank (Total AxB, Active CxD): ".toList
     (.tag .num_row_mat) (.tag .num_col_mat)
     (.tag .num_active_mat_per_col) (.tag .num_active_mat_per_row),
   layout.forceTotal free_mat "-ForceTagMat (Total AxB, Active CxD): ".toList
     (.tag .num_row_subarray) (.tag .num_col_subarray)
     (.tag .num_active_subarray_per_col) (.tag .num_active_subarray_per_row)]

/-- The wire and buffer options of the data array. -/
def Layout.dataWireLines : List Lines :=
  [layout.textLine (.data .local_wire_type) "-LocalWireType: ".toList map_wire_type,
   layout.textLine (.data .local_wire_repeater_type) "-LocalWireRepeaterType: ".toList
     map_repeater,
   layout.textLine (.data .local_wire_low_swing) "-LocalWireUseLowSwing: ".toList RowValue.str,
   layout.textLine (.data .global_wire_type) "-GlobalWireType: ".toList map_wire_type,
   layout.textLine (.data .global_wire_repeater_type) "-GlobalWireRepeaterType: ".toList
     map_repeater,
   layout.textLine (.data .global_wire_low_swing) "-GlobalWireUseLowSwing: ".toList RowValue.str,
   layout.textLine (.data .area_optimization_level) "-BufferDesignOptimization: ".toList
     bufferLevel]

/-- One after the other; the script raises when one of them does. -/
def allLines : List Lines → Lines
  | [] => some []
  | l :: ls => do
      let x ← l
      let xs ← allLines ls
      some (x ++ xs)

/-- The lines of the configuration file `generate_destiny_configs` writes. -/
def generate_destiny_configs (a : ConfigArgs) (free_mat free_bank : Bool) : Lines :=
  allLines (some a.lines :: (layout.dataArrayLines free_mat free_bank ++
    (layout.tagLines free_mat free_bank ++ layout.dataWireLines)))

end

theorem allLines_map_some (chunks : List (List (List Char))) :
    allLines (chunks.map some) = some chunks.flatten := by
  induction chunks with
  | nil => rfl
  | cons c chunks ih => simp [allLines, ih]

end Destiny
