/-
  Destiny.Sweep.Jobs

  The jobs of a sweep and the files they write: `build_simulation_args` and the
  stem of `run_single_simulation`.

  `jobPoints` is the loop nest of `build_simulation_args`, one `JobPoint` of loop
  variables for each argument tuple.  The stem concatenates the loop variables;
  `stem_inj` of Destiny.Sweep.Stems reads them off again, the layout or the sensing
  option, the temperature and so on from the right, the cell and the capacity
  from the left, which leaves the roadmap.
-/

import Destiny.Lib.Numerals
import Mathlib.Algebra.Order.Field.Rat

namespace Destiny.Sweep

open Lib

/-! ## Cell files -/

/-- The memory types of the sweep. -/
inductive MemType
  | SRAM
  | RRAM
  | eDRAM
  deriving DecidableEq, Repr

def MemType.name : MemType → List Char
  | .SRAM => "SRAM".toList
  | .RRAM => "RRAM".toList
  | .eDRAM => "eDRAM".toList

/-- A cell of `generate_synthetic_cells`. -/
structure SyntheticCell where
  i : ℕ
  process_node : ℕ
  deriving DecidableEq, Repr

/-- `synthetic_variant_{i}_n{process_node}` -/
def SyntheticCell.variant (c : SyntheticCell) : List Char :=
  "synthetic_variant_".toList ++ integer c.i ++ "_n".toList ++ integer c.process_node

def SyntheticCell.filename (c : SyntheticCell) : List Char := c.variant ++ ".cell".toList

/-- `cell_file.split('.')[0]` -/
def variantName (cell_file : List Char) : List Char := cell_file.takeWhile (· ≠ '.')

/-- `re.search(r'_n(\d+)\.cell$', cell_filename)` -/
def extract_process_node (cell_filename : List Char) : Option ℕ :=
  if ".cell".toList <:+ cell_filename then
    let digitsFirst := (cell_filename.take (cell_filename.length - 5)).reverse
    let digits := (digitsFirst.takeWhile Char.isDigit).reverse
    if digits ≠ [] ∧ "_n".toList <:+ (digitsFirst.dropWhile Char.isDigit).reverse then
      some (Nat.ofDigitChars 10 digits 0)
    else none
  else none

/-- `os.path.join(dir, name)` -/
def join (dir name : List Char) : List Char :=
  if name.head? = some '/' then name
  else if dir = [] ∨ dir.getLast? = some '/' then dir ++ name
  else dir ++ '/' :: name

/-! ## Sweeps -/

/-- (mux_sa, mux_ol2, act_mat_col, act_mat_row, act_sub_col, act_sub_row) -/
structure Layout where
  mux_sa : ℤ
  mux_ol2 : ℤ
  amc : ℤ
  amr : ℤ
  asc : ℤ
  asr : ℤ
  deriving DecidableEq, Repr

/-- What the scripts compute from a cell file and from a seed; `P` are the
    parameters of a cell. -/
structure Scripts (P : Type) where
  parse_cell_params : List Char → P
  /-- `int(float(cell_params.get("RetentionTime (us)", 20.0)))` -/
  retention_time : P → ℤ
  rram_internal_sensing_options : P → List Bool
  filter1_crossbar_ok : P → ℤ → ℤ → Bool
  filter2_high_ron_ok : P → ℤ → Bool
  get_random_layouts : List Char → List Layout

/-- The lists a sweep runs through. -/
structure SweepLists where
  CAPACITY_SWEEP_KB : List ℤ
  STACK_COUNTS : List ℤ
  ASSOCIATIVITIES : List ℤ
  TEMPERATURE_MAP : MemType → ℤ → Option (List ℤ)
  ROADMAPS : MemType → Option (List (List Char))
  capacity_bucket_word_widths : ℤ → List ℤ

/-- `TEMPERATURE_MAP[mem_type].get(stacked, [350])` -/
def SweepLists.temperatures (l : SweepLists) (mem_type : MemType) (stacked : ℤ) : List ℤ :=
  (l.TEMPERATURE_MAP mem_type stacked).getD [350]

/-- `ROADMAPS.get(mem_type, ["HP"])` -/
def SweepLists.roadmaps (l : SweepLists) (mem_type : MemType) : List (List Char) :=
  (l.ROADMAPS mem_type).getD ["HP".toList]

/-! ## The sweep of the scripts -/

def capacity_bucket_word_widths (cap_kb : ℤ) : List ℤ :=
  if cap_kb < 1024 then [64, 128]
  else if cap_kb ≤ 16 * 1024 then [128, 256, 512]
  else [512, 1024]

def TEMPERATURE_MAP : MemType → ℤ → Option (List ℤ)
  | .SRAM, 1 => some [300]
  | .RRAM, 1 => some [313]
  | .RRAM, 2 => some [333]
  | .RRAM, 4 => some [358]
  | .eDRAM, 1 => some [350]
  | _, 2 => some [363]
  | _, 4 => some [380]
  | _, _ => none

def ROADMAPS : MemType → Option (List (List Char))
  | .SRAM => some ["HP".toList, "LOP".toList, "LSTP".toList]
  | .RRAM => some ["HP".toList]
  | .eDRAM => some ["EDRAM".toList]

/-- The lists of run_exploration.py. -/
def explorationLists : SweepLists where
  CAPACITY_SWEEP_KB := (List.range 15).map fun i : ℕ => 2 ^ (i + 1)
  STACK_COUNTS := [1]
  ASSOCIATIVITIES := [4]
  TEMPERATURE_MAP := TEMPERATURE_MAP
  ROADMAPS := ROADMAPS
  capacity_bucket_word_widths := capacity_bucket_word_widths

/-- The numbers of a cell file the loops read, with their defaults. -/
structure CellParams where
  /-- `AccessType` is not `none` -/
  hasAccess : Bool
  ResistanceOnAtHalfResetVoltage : ℚ
  ResistanceOffAtReadVoltage : ℚ
  ResistanceOnAtSetVoltage : ℚ
  /-- off by on resistance at the set voltage, where both are given -/
  ratio : Option ℚ
  RetentionTime : ℚ
  half_reset_pos : 0 < ResistanceOnAtHalfResetVoltage

def rram_internal_sensing_options (cell : CellParams) : List Bool :=
  match cell.ratio with
  | none => [true]
  | some ratio => if ratio < 100 then [true] else if 1000 < ratio then [false] else [true, false]

def filter1_crossbar_ok (cell : CellParams) (cap_kb ww_bits : ℤ) : Bool :=
  if cell.hasAccess then true
  else
    let max_rows := cell.ResistanceOffAtReadVoltage / (2 * cell.ResistanceOnAtHalfResetVoltage)
    let ceiling_kb := max_rows * ww_bits / 10 / (8 * 1024)
    cap_kb < ceiling_kb

def filter2_high_ron_ok (cell : CellParams) (cap_kb : ℤ) : Bool :=
  ¬ (10 ^ 6 < cell.ResistanceOnAtSetVoltage ∧ 8 * 1024 < cap_kb)

/-- The functions of run_exploration.py, with the cell files and the random
    layouts it finds. -/
def explorationScripts (parse_cell_params : List Char → CellParams)
    (get_random_layouts : List Char → List Layout) : Scripts CellParams where
  parse_cell_params := parse_cell_params
  retention_time cell := cell.RetentionTime.num.tdiv cell.RetentionTime.den
  rram_internal_sensing_options := rram_internal_sensing_options
  filter1_crossbar_ok := filter1_crossbar_ok
  filter2_high_ron_ok := filter2_high_ron_ok
  get_random_layouts := get_random_layouts

/-! ## Jobs -/

/-- What a job varies last: a sampled layout by its index, or the sensing mode. -/
inductive JobOption
  | layout (li : ℕ) (layout_cfg : Layout)
  | sensing (on : Bool)
  deriving DecidableEq, Repr

/-- The loop variables of a job. -/
structure JobPoint where
  cell_file : List Char
  cap_kb : ℤ
  stacked : ℤ
  temperature : ℤ
  assoc : ℤ
  ww_bits : ℤ
  option : JobOption
  roadmap : List Char
  deriving DecidableEq, Repr

section
variable {P : Type} (scripts : Scripts P) (l : SweepLists) (mem_type : MemType)
  (cell_dir : List Char)

/-- The seed of the layouts of a design point. -/
def layoutSeed (cell_file : List Char) (cap_kb ww_bits assoc : ℤ) : List Char :=
  variantName cell_file ++ "_".toList ++ integer cap_kb ++ "_".toList ++ integer ww_bits ++
    "_".toList ++ integer assoc

/-- The loops over associativities, word widths, layouts and roadmaps. -/
def layoutPoints (cell_file : List Char) (cap_kb stacked temperature : ℤ) : List JobPoint :=
  l.ASSOCIATIVITIES.flatMap fun assoc =>
    (l.capacity_bucket_word_widths cap_kb).flatMap fun ww_bits =>
      (scripts.get_random_layouts (layoutSeed cell_file cap_kb ww_bits assoc)).zipIdx.flatMap
        fun layout => (l.roadmaps mem_type).map fun roadmap =>
          { cell_file, cap_kb, stacked, temperature, assoc, ww_bits, roadmap
            option := .layout layout.2 layout.1 }

/-- The loops over word widths, sensing modes, associativities and roadmaps, with
    the two filters. -/
def sensingPoints (cell_file : List Char) (cap_kb stacked temperature : ℤ) : List JobPoint :=
  let cell_params := scripts.parse_cell_params (join cell_dir cell_file)
  (l.capacity_bucket_word_widths cap_kb).flatMap fun ww_bits =>
    if !scripts.filter1_crossbar_ok cell_params cap_kb ww_bits then []
    else if !scripts.filter2_high_ron_ok cell_params cap_kb then []
    else (scripts.rram_internal_sensing_options cell_params).flatMap fun sensing =>
      l.ASSOCIATIVITIES.flatMap fun assoc => (l.roadmaps mem_type).map fun roadmap =>
        { cell_file, cap_kb, stacked, temperature, assoc, ww_bits, roadmap
          option := .sensing sensing }

/-- The loops a memory type has below the temperature. -/
def innerPoints (cell_file : List Char) (cap_kb stacked temperature : ℤ) : List JobPoint :=
  match mem_type with
  | .SRAM | .eDRAM => layoutPoints scripts l mem_type cell_file cap_kb stacked temperature
  | .RRAM => sensingPoints scripts l mem_type cell_dir cell_file cap_kb stacked temperature

/-- The loop nest of `build_simulation_args`. -/
def jobPoints (cells : List (List Char)) : List JobPoint :=
  cells.flatMap fun cell_file =>
    l.CAPACITY_SWEEP_KB.flatMap fun cap_kb =>
      l.STACK_COUNTS.flatMap fun stacked =>
        (l.temperatures mem_type stacked).flatMap fun temperature =>
          innerPoints scripts l mem_type cell_dir cell_file cap_kb stacked temperature

/-- The word widths a filter of the RRAM loops turns down, counted by the sensing
    modes they would have had. -/
def rejections (turnedDown : P → ℤ → ℤ → Bool) (cells : List (List Char)) : ℕ :=
  if mem_type = .RRAM then
    (cells.flatMap fun cell_file =>
      let cell_params := scripts.parse_cell_params (join cell_dir cell_file)
      l.CAPACITY_SWEEP_KB.flatMap fun cap_kb =>
        l.STACK_COUNTS.flatMap fun stacked =>
          (l.temperatures mem_type stacked).flatMap fun _ =>
            (l.capacity_bucket_word_widths cap_kb).map fun ww_bits =>
              if turnedDown cell_params cap_kb ww_bits then
                (scripts.rram_internal_sensing_options cell_params).length
              else 0).sum
  else 0

end

/-! ## Argument tuples -/

inductive OverrideValue
  | int (z : ℤ)
  | text (s : List Char)
  deriving DecidableEq, Repr

/-- The tuple `run_single_simulation` takes. -/
structure SimulationArgs where
  cap_kb : ℤ
  cell_path : List Char
  variant_name : List Char
  roadmap : List Char
  base_cfg_content : List Char
  temp_dir : List Char
  results_dir : List Char
  cfg_overrides : List (List Char × OverrideValue)
  cfg_suffix : List Char
  mem_type : MemType
  layout_cfg : Option Layout
  deriving DecidableEq, Repr

structure Rejected where
  L5_F1_crossbar : ℕ
  L5_F2_high_ron : ℕ
  deriving DecidableEq, Repr

namespace JobPoint
variable (p : JobPoint)

/-- The suffix of the stem. -/
def suffix : List Char :=
  match p.option with
  | .layout li _ =>
      "_ww".toList ++ integer p.ww_bits ++ "_a".toList ++ integer p.assoc ++
        "_s".toList ++ integer p.stacked ++ "_t".toList ++ integer p.temperature ++
        "_l".toList ++ integer li
  | .sensing on =>
      "_ww".toList ++ integer p.ww_bits ++ "_sens".toList ++ [if on then 'T' else 'F'] ++
        "_a".toList ++ integer p.assoc ++ "_s".toList ++ integer p.stacked ++
        "_t".toList ++ integer p.temperature

/-- The entries `cfg_base` of every job. -/
def cfg_base : List (List Char × OverrideValue) :=
  [("Temperature (K)".toList, .int p.temperature),
    ("StackedDieCount".toList, .int p.stacked),
    ("ProcessNode".toList, .int ((extract_process_node p.cell_file).getD 0))]

def overrides {P : Type} (scripts : Scripts P) (mem_type : MemType) (cell_path : List Char) :
    List (List Char × OverrideValue) :=
  match p.option with
  | .layout _ _ =>
      p.cfg_base ++
        [("WordWidth (bit)".toList, .int p.ww_bits),
          ("Associativity (for cache only)".toList, .int p.assoc)] ++
        if mem_type = .eDRAM then
          [("RetentionTime (us)".toList,
            .int (scripts.retention_time (scripts.parse_cell_params cell_path)))]
        else []
  | .sensing on =>
      p.cfg_base ++
        [("WordWidth (bit)".toList, .int p.ww_bits),
          ("InternalSensing".toList, .text (if on then "true".toList else "false".toList)),
          ("Associativity (for cache only)".toList, .int p.assoc)]

def layout_cfg : Option Layout :=
  match p.option with
  | .layout _ layout => some layout
  | .sensing _ => none

end JobPoint

section
variable {P : Type} (scripts : Scripts P) (l : SweepLists) (mem_type : MemType)
  (cells : List (List Char)) (cell_dir base_cfg_content temp_dir results_dir : List Char)

/-- The tuple of a job. -/
def JobPoint.args (p : JobPoint) : SimulationArgs where
  cap_kb := p.cap_kb
  cell_path := join cell_dir p.cell_file
  variant_name := variantName p.cell_file
  roadmap := p.roadmap
  base_cfg_content := base_cfg_content
  temp_dir := temp_dir
  results_dir := results_dir
  cfg_overrides := p.overrides scripts mem_type (join cell_dir p.cell_file)
  cfg_suffix := p.suffix
  mem_type := mem_type
  layout_cfg := p.layout_cfg

/-- `build_simulation_args`, `none` where a cell name without a process node
    makes `int` raise. -/
def build_simulation_args : Option (List SimulationArgs × Rejected) :=
  if cells.all fun cell_file => (extract_process_node cell_file).isSome then
    some
      ((jobPoints scripts l mem_type cell_dir cells).map
        (JobPoint.args scripts mem_type cell_dir base_cfg_content temp_dir results_dir),
      { L5_F1_crossbar := rejections scripts l mem_type cell_dir
          (fun cell_params cap_kb ww_bits =>
            !scripts.filter1_crossbar_ok cell_params cap_kb ww_bits) cells
        L5_F2_high_ron := rejections scripts l mem_type cell_dir
          (fun cell_params cap_kb ww_bits =>
            scripts.filter1_crossbar_ok cell_params cap_kb ww_bits &&
              !scripts.filter2_high_ron_ok cell_params cap_kb) cells })
  else none

end

/-! ## Files of a job -/

namespace SimulationArgs
variable (a : SimulationArgs)

def stem : List Char :=
  a.variant_name ++ "_cap_".toList ++ integer a.cap_kb ++ "_rm_".toList ++ a.roadmap ++
    a.cfg_suffix

/-- The temporary config. -/
def cfg_filepath : List Char := join a.temp_dir (a.stem ++ ".cfg".toList)

/-- The result the resume test looks for. -/
def final_csv : List Char := join a.results_dir (a.stem ++ ".csv".toList)

/-- The marker the resume test looks for. -/
def failed_marker : List Char :=
  join (join (join "failed_exploration".toList a.mem_type.name) "markers".toList)
    (a.stem ++ ".done".toList)

end SimulationArgs

/-! ## Runs -/

/-- The directories of `setup_dirs`. -/
def setup_temp_dir (mem_type : MemType) : List Char :=
  "/dev/shm/vjuricek_destiny_tmp/".toList ++ mem_type.name

def setup_results_dir (mem_type : MemType) : List Char :=
  "exploration_results/".toList ++ mem_type.name

/-- `collect_simulations`, with the cell files and the config template it finds. -/
def collect_simulations {P : Type} (scripts : Scripts P) (l : SweepLists)
    (cells : MemType → List (List Char)) (base_cfg_content : MemType → List Char)
    (mem_type : MemType) : Option (List SimulationArgs) :=
  (build_simulation_args scripts l mem_type (cells mem_type)
    ("synthetic_cells/".toList ++ mem_type.name) (base_cfg_content mem_type)
    (setup_temp_dir mem_type) (setup_results_dir mem_type)).map Prod.fst

/-- The jobs of a run, one memory type after the other. -/
def runArgs {P : Type} (scripts : Scripts P) (l : SweepLists)
    (cells : MemType → List (List Char)) (base_cfg_content : MemType → List Char)
    (mem_techs : List MemType) : Option (List SimulationArgs) :=
  (mem_techs.mapM (collect_simulations scripts l cells base_cfg_content)).map List.flatten

end Destiny.Sweep
