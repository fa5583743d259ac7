/-
  Destiny.MemCell

  The `MemCell` object and the loop that reads a cell file
  (`MemCell::ReadCellFromFile`), from the text of its lines.

  * `CellOption` lists the branches of the loop body in the order in which they
    are tested; `key` is the text a branch compares the start of the line with
    and `label` the ordinary characters of its format, the key again and a unit.
  * `CellOption.read` is the body of a branch.  It works on the cell and on the
    scratch buffer `tmp`, which is declared outside the loop: a word that is not
    scanned leaves there what an earlier line has put.

  The numbers are elements of a field `K` with a function `sqrt`; the warnings
  for options that do not fit the cell are left out.
-/

import Destiny.Lib.LineLoop
import Destiny.Lib.Literals
import Destiny.Typedef

namespace Destiny

open Lib

/-! ## The object -/

structure MemCell (K : Type) where
  memCellType : MemCellType
  processNode : Int
  area : K
  aspectRatio : K
  widthInFeatureSize : K
  heightInFeatureSize : K
  resistanceOn : K
  resistanceOff : K
  capacitanceOn : K
  capacitanceOff : K
  readMode : Bool
  readVoltage : K
  readCurrent : K
  minSenseVoltage : K
  wordlineBoostRatio : K
  readPower : K
  resetMode : Bool
  resetVoltage : K
  resetCurrent : K
  resetPulse : K
  resetEnergy : K
  setMode : Bool
  setVoltage : K
  setCurrent : K
  setPulse : K
  setEnergy : K
  accessType : CellAccessType
  stitching : Int
  gateOxThicknessFactor : K
  widthSOIDevice : K
  widthAccessCMOS : K
  voltageDropAccessDevice : K
  leakageCurrentAccessDevice : K
  capDRAMCell : K
  widthSRAMCellNMOS : K
  widthSRAMCellPMOS : K
  readFloating : Bool
  resistanceOnAtSetVoltage : K
  resistanceOffAtSetVoltage : K
  resistanceOnAtResetVoltage : K
  resistanceOffAtResetVoltage : K
  resistanceOnAtReadVoltage : K
  resistanceOffAtReadVoltage : K
  resistanceOnAtHalfReadVoltage : K
  resistanceOffAtHalfReadVoltage : K
  resistanceOnAtHalfResetVoltage : K
  flashEraseVoltage : K
  flashPassVoltage : K
  flashProgramVoltage : K
  flashEraseTime : K
  flashProgramTime : K
  gateCouplingRatio : K
  retentionTime : K
  temperature : K
  deriving DecidableEq, Inhabited

section
variable {K : Type} [Field K]

/-- `MemCell::MemCell`.  The fields the constructor leaves uninitialised keep what
    the memory `mem` held. -/
def MemCell.construct (mem : MemCell K) : MemCell K :=
  { mem with
    memCellType := .PCRAM
    area := 0
    aspectRatio := 0
    resistanceOn := 0
    resistanceOff := 0
    readMode := true
    readVoltage := 0
    readCurrent := 0
    readPower := 0
    wordlineBoostRatio := 1
    resetMode := true
    resetVoltage := 0
    resetCurrent := 0
    minSenseVoltage := 8 / 10 ^ 2
    resetPulse := 0
    resetEnergy := 0
    setMode := true
    setVoltage := 0
    setCurrent := 0
    setPulse := 0
    accessType := .CMOS_access
    processNode := 0
    setEnergy := 0
    stitching := 0
    gateOxThicknessFactor := 2
    widthSOIDevice := 0
    widthAccessCMOS := 0
    voltageDropAccessDevice := 0
    leakageCurrentAccessDevice := 0
    capDRAMCell := 0
    widthSRAMCellNMOS := 208 / 10 ^ 2
    widthSRAMCellPMOS := 123 / 10 ^ 2
    readFloating := false
    resistanceOnAtSetVoltage := 0
    resistanceOffAtSetVoltage := 0
    resistanceOnAtResetVoltage := 0
    resistanceOffAtResetVoltage := 0
    resistanceOnAtReadVoltage := 0
    resistanceOffAtReadVoltage := 0
    resistanceOnAtHalfReadVoltage := 0
    resistanceOffAtHalfReadVoltage := 0
    retentionTime := 10 ^ 41 }

/-! ## Options -/

/-- The branches of the loop body, in order. -/
inductive CellOption
  | memCellType | processNode | cellArea | cellAspectRatio
  | resistanceOnAtSetVoltage | resistanceOffAtSetVoltage
  | resistanceOnAtResetVoltage | resistanceOffAtResetVoltage
  | resistanceOnAtReadVoltage | resistanceOffAtReadVoltage
  | resistanceOnAtHalfReadVoltage | resistanceOffAtHalfReadVoltage
  | resistanceOnAtHalfResetVoltage
  | resistanceOn | resistanceOff | capacitanceOn | capacitanceOff
  | gateOxThicknessFactor | soiDeviceWidth
  | readMode | readVoltage | readCurrent | readPower | wordlineBoostRatio | minSenseVoltage
  | resetMode | resetVoltage | resetCurrent | resetPulse | resetEnergy
  | setMode | setVoltage | setCurrent | setPulse | setEnergy
  | stitching | accessType | accessCMOSWidth
  | voltageDropAccessDevice | leakageCurrentAccessDevice
  | dramCellCapacitance | sramCellNMOSWidth | sramCellPMOSWidth
  | readFloating
  | flashEraseVoltage | flashProgramVoltage | flashPassVoltage
  | flashEraseTime | flashProgramTime | gateCouplingRatio | retentionTime | temperature
  deriving DecidableEq

def CellOption.all : List CellOption :=
  [.memCellType, .processNode, .cellArea, .cellAspectRatio,
   .resistanceOnAtSetVoltage, .resistanceOffAtSetVoltage,
   .resistanceOnAtResetVoltage, .resistanceOffAtResetVoltage,
   .resistanceOnAtReadVoltage, .resistanceOffAtReadVoltage,
   .resistanceOnAtHalfReadVoltage, .resistanceOffAtHalfReadVoltage,
   .resistanceOnAtHalfResetVoltage,
   .resistanceOn, .resistanceOff, .capacitanceOn, .capacitanceOff,
   .gateOxThicknessFactor, .soiDeviceWidth,
   .readMode, .readVoltage, .readCurrent, .readPower, .wordlineBoostRatio, .minSenseVoltage,
   .resetMode, .resetVoltage, .resetCurrent, .resetPulse, .resetEnergy,
   .setMode, .setVoltage, .setCurrent, .setPulse, .setEnergy,
   .stitching, .accessType, .accessCMOSWidth,
   .voltageDropAccessDevice, .leakageCurrentAccessDevice,
   .dramCellCapacitance, .sramCellNMOSWidth, .sramCellPMOSWidth,
   .readFloating,
   .flashEraseVoltage, .flashProgramVoltage, .flashPassVoltage,
   .flashEraseTime, .flashProgramTime, .gateCouplingRatio, .retentionTime, .temperature]

@[simp] theorem CellOption.mem_all (o : CellOption) : o ∈ CellOption.all := by
  cases o <;> decide

/-- The text `strncmp` compares the start of the line with. -/
def CellOption.key : CellOption → List Char
  | .memCellType => "-MemCellType".toList
  | .processNode => "-ProcessNode".toList
  | .cellArea => "-CellArea".toList
  | .cellAspectRatio => "-CellAspectRatio".toList
  | .resistanceOnAtSetVoltage => "-ResistanceOnAtSetVoltage".toList
  | .resistanceOffAtSetVoltage => "-ResistanceOffAtSetVoltage".toList
  | .resistanceOnAtResetVoltage => "-ResistanceOnAtResetVoltage".toList
  | .resistanceOffAtResetVoltage => "-ResistanceOffAtResetVoltage".toList
  | .resistanceOnAtReadVoltage => "-ResistanceOnAtReadVoltage".toList
  | .resistanceOffAtReadVoltage => "-ResistanceOffAtReadVoltage".toList
  | .resistanceOnAtHalfReadVoltage => "-ResistanceOnAtHalfReadVoltage".toList
  | .resistanceOffAtHalfReadVoltage => "-ResistanceOffAtHalfReadVoltage".toList
  | .resistanceOnAtHalfResetVoltage => "-ResistanceOnAtHalfResetVoltage".toList
  | .resistanceOn => "-ResistanceOn".toList
  | .resistanceOff => "-ResistanceOff".toList
  | .capacitanceOn => "-CapacitanceOn".toList
  | .capacitanceOff => "-CapacitanceOff".toList
  | .gateOxThicknessFactor => "-GateOxThicknessFactor".toList
  | .soiDeviceWidth => "-SOIDeviceWidth (F)".toList
  | .readMode => "-ReadMode".toList
  | .readVoltage => "-ReadVoltage".toList
  | .readCurrent => "-ReadCurrent".toList
  | .readPower => "-ReadPower".toList
  | .wordlineBoostRatio => "-WordlineBoostRatio".toList
  | .minSenseVoltage => "-MinSenseVoltage".toList
  | .resetMode => "-ResetMode".toList
  | .resetVoltage => "-ResetVoltage".toList
  | .resetCurrent => "-ResetCurrent".toList
  | .resetPulse => "-ResetPulse".toList
  | .resetEnergy => "-ResetEnergy".toList
  | .setMode => "-SetMode".toList
  | .setVoltage => "-SetVoltage".toList
  | .setCurrent => "-SetCurrent".toList
  | .setPulse => "-SetPulse".toList
  | .setEnergy => "-SetEnergy".toList
  | .stitching => "-Stitching".toList
  | .accessType => "-AccessType".toList
  | .accessCMOSWidth => "-AccessCMOSWidth".toList
  | .voltageDropAccessDevice => "-VoltageDropAccessDevice".toList
  | .leakageCurrentAccessDevice => "-LeakageCurrentAccessDevice".toList
  | .dramCellCapacitance => "-DRAMCellCapacitance".toList
  | .sramCellNMOSWidth => "-SRAMCellNMOSWidth".toList
  | .sramCellPMOSWidth => "-SRAMCellPMOSWidth".toList
  | .readFloating => "-ReadFloating".toList
  | .flashEraseVoltage => "-FlashEraseVoltage (V)".toList
  | .flashProgramVoltage => "-FlashProgramVoltage (V)".toList
  | .flashPassVoltage => "-FlashPassVoltage (V)".toList
  | .flashEraseTime => "-FlashEraseTime".toList
  | .flashProgramTime => "-FlashProgramTime".toList
  | .gateCouplingRatio => "-GateCouplingRatio".toList
  | .retentionTime => "-RetentionTime".toList
  | .temperature => "-Temperature".toList

/-- What stands between the key and the conversion in the option's format. -/
def CellOption.unit : CellOption → List Char
  | .cellArea => " (F^2): ".toList
  | .resistanceOnAtSetVoltage | .resistanceOffAtSetVoltage | .resistanceOnAtResetVoltage
  | .resistanceOffAtResetVoltage | .resistanceOnAtReadVoltage
  | .resistanceOffAtReadVoltage | .resistanceOnAtHalfReadVoltage
  | .resistanceOffAtHalfReadVoltage | .resistanceOnAtHalfResetVoltage | .resistanceOn
  | .resistanceOff => " (ohm): ".toList
  | .capacitanceOn | .capacitanceOff | .accessCMOSWidth | .dramCellCapacitance
  | .sramCellNMOSWidth | .sramCellPMOSWidth => " (F): ".toList
  | .readVoltage | .resetVoltage | .setVoltage | .voltageDropAccessDevice => " (V): ".toList
  | .readCurrent | .resetCurrent | .setCurrent | .leakageCurrentAccessDevice => " (uA): ".toList
  | .readPower => " (uW): ".toList
  | .minSenseVoltage => " (mV): ".toList
  | .resetPulse | .setPulse => " (ns): ".toList
  | .resetEnergy | .setEnergy => " (pJ): ".toList
  | .flashEraseTime => " (ms): ".toList
  | .flashProgramTime | .retentionTime => " (us): ".toList
  | .temperature => " (K): ".toList
  | _ => ": ".toList

/-- The ordinary characters of the option's format. -/
def CellOption.label (o : CellOption) : List Char := o.key ++ o.unit

/-- Every format diverges from the keys tested before its own. -/
theorem CellOption.pairwise_diverges :
    CellOption.all.Pairwise fun o' o => diverges o.label o'.key = true := by
  decide +kernel

/-! ## The loop body -/

/-- What the loop works on: the cell and the scratch buffer. -/
structure CellReader (K : Type) where
  cell : MemCell K
  tmp : List Char
  deriving DecidableEq, Inhabited

/-- The buffer after `sscanf(line, label "%s", tmp)`. -/
def sscanfWord (label line tmp : List Char) : List Char :=
  match (scanLiteral label line).bind scanWord with
  | some (w, _) => w
  | none => tmp

/-- The variable after `sscanf(line, label "%d", &x)`. -/
def sscanfInt (label line : List Char) (x : Int) : Int :=
  match (scanLiteral label line).bind scanInt with
  | some (n, _) => n
  | none => x

/-- The variable after `sscanf(line, label "%lf", &x)`. -/
def sscanfDouble (label line : List Char) (x : K) : K :=
  match (scanLiteral label line).bind scanDouble with
  | some q => q
  | none => x

theorem sscanfWord_eq {label line w : List Char}
    (h : ((scanLiteral label line).bind scanWord).map Prod.fst = some w) (tmp : List Char) :
    sscanfWord label line tmp = w := by
  obtain ⟨⟨v, t⟩, hv, rfl⟩ := Option.map_eq_some_iff.mp h
  simp [sscanfWord, hv]

theorem sscanfInt_eq {label line : List Char} {n : Int}
    (h : ((scanLiteral label line).bind scanInt).map Prod.fst = some n) (x : Int) :
    sscanfInt label line x = n := by
  obtain ⟨⟨m, t⟩, hm, rfl⟩ := Option.map_eq_some_iff.mp h
  simp [sscanfInt, hm]

theorem sscanfDouble_eq {label line : List Char} {q : ℚ}
    (h : (scanLiteral label line).bind scanDouble = some q) (x : K) :
    sscanfDouble label line x = q := by
  simp [sscanfDouble, h]

/-- The branch of `-MemCellType`. -/
def MemCellType.ofWord (tmp : List Char) : MemCellType :=
  if tmp = "SRAM".toList then .SRAM
  else if tmp = "DRAM".toList then .DRAM
  else if tmp = "eDRAM".toList then .eDRAM
  else if tmp = "MRAM".toList then .MRAM
  else if tmp = "PCRAM".toList then .PCRAM
  else if tmp = "FBRAM".toList then .FBRAM
  else if tmp = "memristor".toList then .memristor
  else if tmp = "SLCNAND".toList then .SLCNAND
  else .MLCNAND

/-- The branch of `-AccessType`. -/
def CellAccessType.ofWord (tmp : List Char) : CellAccessType :=
  if tmp = "CMOS".toList then .CMOS_access
  else if tmp = "BJT".toList then .BJT_access
  else if tmp = "diode".toList then .diode_access
  else .none_access

def MemCell.isFlash (c : MemCell K) : Bool :=
  c.memCellType = .SLCNAND || c.memCellType = .MLCNAND

def MemCell.isDRAM (c : MemCell K) : Bool := c.memCellType = .DRAM || c.memCellType = .eDRAM

/-- The branch of an option on a line; `vdd` is `tech->vdd`. -/
def CellOption.read (sqrt : K → K) (vdd : K) (o : CellOption) (line : List Char)
    (s : CellReader K) : CellReader K :=
  let c := s.cell
  let word := sscanfWord o.label line s.tmp
  let double := sscanfDouble o.label line
  match o with
  | .memCellType => ⟨{ c with memCellType := MemCellType.ofWord word }, word⟩
  | .processNode => { s with cell.processNode := sscanfInt o.label line c.processNode }
  | .cellArea => { s with cell.area := double c.area }
  | .cellAspectRatio =>
      let r := double c.aspectRatio
      { s with
        cell.aspectRatio := r
        cell.heightInFeatureSize := sqrt (c.area * r)
        cell.widthInFeatureSize := sqrt (c.area / r) }
  | .resistanceOnAtSetVoltage =>
      { s with cell.resistanceOnAtSetVoltage := double c.resistanceOnAtSetVoltage }
  | .resistanceOffAtSetVoltage =>
      { s with cell.resistanceOffAtSetVoltage := double c.resistanceOffAtSetVoltage }
  | .resistanceOnAtResetVoltage =>
      { s with cell.resistanceOnAtResetVoltage := double c.resistanceOnAtResetVoltage }
  | .resistanceOffAtResetVoltage =>
      { s with cell.resistanceOffAtResetVoltage := double c.resistanceOffAtResetVoltage }
  | .resistanceOnAtReadVoltage =>
      let r := double c.resistanceOnAtReadVoltage
      { s with cell.resistanceOnAtReadVoltage := r, cell.resistanceOn := r }
  | .resistanceOffAtReadVoltage =>
      let r := double c.resistanceOffAtReadVoltage
      { s with cell.resistanceOffAtReadVoltage := r, cell.resistanceOff := r }
  | .resistanceOnAtHalfReadVoltage =>
      { s with cell.resistanceOnAtHalfReadVoltage := double c.resistanceOnAtHalfReadVoltage }
  | .resistanceOffAtHalfReadVoltage =>
      { s with cell.resistanceOffAtHalfReadVoltage := double c.resistanceOffAtHalfReadVoltage }
  | .resistanceOnAtHalfResetVoltage =>
      { s with cell.resistanceOnAtHalfResetVoltage := double c.resistanceOnAtHalfResetVoltage }
  | .resistanceOn => { s with cell.resistanceOn := double c.resistanceOn }
  | .resistanceOff => { s with cell.resistanceOff := double c.resistanceOff }
  | .capacitanceOn => { s with cell.capacitanceOn := double c.capacitanceOn }
  | .capacitanceOff => { s with cell.capacitanceOff := double c.capacitanceOff }
  | .gateOxThicknessFactor =>
      { s with cell.gateOxThicknessFactor := double c.gateOxThicknessFactor }
  | .soiDeviceWidth => { s with cell.widthSOIDevice := double c.widthSOIDevice }
  | .readMode => ⟨{ c with readMode := word = "voltage".toList }, word⟩
  | .readVoltage => { s with cell.readVoltage := double c.readVoltage }
  | .readCurrent => { s with cell.readCurrent := double c.readCurrent / 10 ^ 6 }
  | .readPower => { s with cell.readPower := double c.readPower / 10 ^ 6 }
  | .wordlineBoostRatio => { s with cell.wordlineBoostRatio := double c.wordlineBoostRatio }
  | .minSenseVoltage => { s with cell.minSenseVoltage := double c.minSenseVoltage / 10 ^ 3 }
  | .resetMode => ⟨{ c with resetMode := word = "voltage".toList }, word⟩
  | .resetVoltage =>
      ⟨{ c with resetVoltage := if word = "vdd".toList then vdd else double c.resetVoltage },
        word⟩
  | .resetCurrent => { s with cell.resetCurrent := double c.resetCurrent / 10 ^ 6 }
  | .resetPulse => { s with cell.resetPulse := double c.resetPulse / 10 ^ 9 }
  | .resetEnergy => { s with cell.resetEnergy := double c.resetEnergy / 10 ^ 12 }
  | .setMode => ⟨{ c with setMode := word = "voltage".toList }, word⟩
  | .setVoltage =>
      -- the word is scanned with the format of `-ResetVoltage`, and `vdd` sets its field
      let word := sscanfWord CellOption.resetVoltage.label line s.tmp
      ⟨{ c with
          resetVoltage := if word = "vdd".toList then vdd else c.resetVoltage
          setVoltage := if word = "vdd".toList then c.setVoltage else double c.setVoltage },
        word⟩
  | .setCurrent => { s with cell.setCurrent := double c.setCurrent / 10 ^ 6 }
  | .setPulse => { s with cell.setPulse := double c.setPulse / 10 ^ 9 }
  | .setEnergy => { s with cell.setEnergy := double c.setEnergy / 10 ^ 12 }
  | .stitching => { s with cell.stitching := sscanfInt o.label line c.stitching }
  | .accessType => ⟨{ c with accessType := CellAccessType.ofWord word }, word⟩
  | .accessCMOSWidth =>
      { s with
        cell.widthAccessCMOS :=
          if c.accessType = .CMOS_access then double c.widthAccessCMOS else c.widthAccessCMOS }
  | .voltageDropAccessDevice =>
      { s with cell.voltageDropAccessDevice := double c.voltageDropAccessDevice }
  | .leakageCurrentAccessDevice =>
      { s with
        cell.leakageCurrentAccessDevice := double c.leakageCurrentAccessDevice / 10 ^ 6 }
  | .dramCellCapacitance =>
      { s with cell.capDRAMCell := if c.isDRAM then double c.capDRAMCell else c.capDRAMCell }
  | .sramCellNMOSWidth =>
      { s with
        cell.widthSRAMCellNMOS :=
          if c.memCellType = .SRAM then double c.widthSRAMCellNMOS else c.widthSRAMCellNMOS }
  | .sramCellPMOSWidth =>
      { s with
        cell.widthSRAMCellPMOS :=
          if c.memCellType = .SRAM then double c.widthSRAMCellPMOS else c.widthSRAMCellPMOS }
  | .readFloating => ⟨{ c with readFloating := word = "true".toList }, word⟩
  | .flashEraseVoltage =>
      { s with
        cell.flashEraseVoltage :=
          if c.isFlash then double c.flashEraseVoltage else c.flashEraseVoltage }
  | .flashProgramVoltage =>
      { s with
        cell.flashProgramVoltage :=
          if c.isFlash then double c.flashProgramVoltage else c.flashProgramVoltage }
  | .flashPassVoltage =>
      { s with
        cell.flashPassVoltage :=
          if c.isFlash then double c.flashPassVoltage else c.flashPassVoltage }
  | .flashEraseTime =>
      { s with
        cell.flashEraseTime :=
          if c.isFlash then double c.flashEraseTime / 10 ^ 3 else c.flashEraseTime }
  | .flashProgramTime =>
      { s with
        cell.flashProgramTime :=
          if c.isFlash then double c.flashProgramTime / 10 ^ 6 else c.flashProgramTime }
  | .gateCouplingRatio =>
      { s with
        cell.gateCouplingRatio :=
          if c.isFlash then double c.gateCouplingRatio else c.gateCouplingRatio }
  | .retentionTime =>
      { s with
        cell.retentionTime :=
          if c.memCellType = .eDRAM then double c.retentionTime / 10 ^ 6 else c.retentionTime }
  | .temperature =>
      { s with
        cell.temperature :=
          if c.memCellType = .eDRAM then double c.temperature else c.temperature }

/-- The body of the loop of `MemCell::ReadCellFromFile` on one line. -/
def MemCell.readLine (sqrt : K → K) (vdd : K) (line : List Char) (s : CellReader K) :
    CellReader K :=
  match branchOf CellOption.all CellOption.key line with
  | some o => o.read sqrt vdd line s
  | none => s

/-- `MemCell::ReadCellFromFile` on the text of the file, with the rounds its loop may
    take and the buffers `line` and `tmp` as they are found. -/
def MemCell.ReadCellFromFile (sqrt : K → K) (vdd : K) (rounds : Nat) (file line tmp : List Char)
    (c : MemCell K) : Option (MemCell K) :=
  (lineLoop (MemCell.readLine sqrt vdd) rounds file line ⟨c, tmp⟩).map CellReader.cell

end

end Destiny
