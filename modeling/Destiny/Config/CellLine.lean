/-
  Destiny.Config.CellLine

  The lines of a cell file and what one of them does to the cell.

  A `CellLine` is a line together with the value its own option reads from it, and
  `CellSlots` a value for some of the options.  `CellSlots.cell` is the cell that a
  set of values describes, whatever the order of the lines.  The branch of a line
  that gets in no other line's way adds its value to the set
  (`CellReader.Holds.read`).
-/

import Destiny.MemCell
import Mathlib.Data.Rat.Cast.Order

namespace Destiny

open Lib

/-! ## Lines -/

/-- The value of an option line. -/
inductive CellValue where
  | word (w : List Char)
  | int (n : Int)
  | vdd
  | num (q : ℚ)
  deriving DecidableEq

/-- What an option expects after its label. -/
inductive ValueKind where
  | word
  | int
  /-- `vdd` or a number -/
  | voltage
  /-- a number above zero -/
  | positive
  | number
  deriving DecidableEq

def CellOption.kind : CellOption → ValueKind
  | .memCellType | .accessType | .readMode | .resetMode | .setMode | .readFloating => .word
  | .processNode | .stitching => .int
  | .resetVoltage | .setVoltage => .voltage
  | .cellArea | .cellAspectRatio => .positive
  | _ => .number

/-- The word that stands for the supply voltage. -/
def vddWord : List Char := "vdd".toList

/-- The value the option reads from a line.  The word `vdd` belongs to the voltages. -/
def CellOption.valueOf (o : CellOption) (line : List Char) : Option CellValue :=
  let word := ((scanLiteral o.label line).bind scanWord).map Prod.fst
  let double := (scanLiteral o.label line).bind scanDouble
  match o.kind with
  | .word => word.bind fun w => if w = vddWord then none else some (.word w)
  | .int => (((scanLiteral o.label line).bind scanInt).map Prod.fst).map .int
  | .voltage => word.bind fun w => if w = vddWord then some .vdd else double.map .num
  | .positive => double.bind fun q => if 0 < q then some (.num q) else none
  | .number => double.map .num

/-- A well-formed option line. -/
structure CellLine where
  option : CellOption
  text : List Char
  value : CellValue
  key_prefix : option.key <+: text
  value_eq : option.valueOf text = some value
  no_newline : '\n' ∉ text

/-- The lines that stand first. -/
def CellOption.isHeader (o : CellOption) : Bool := o = .memCellType || o = .accessType

section Scanned
variable {K : Type} [Field K]

theorem CellLine.scanLiteral_ne_none (l : CellLine) : scanLiteral l.option.label l.text ≠ none := by
  intro h
  have hv := l.value_eq
  unfold CellOption.valueOf at hv
  rw [h] at hv
  cases hk : l.option.kind <;> simp [hk] at hv

/-- A well-formed line takes the branch of its option. -/
theorem CellLine.readLine_eq (l : CellLine) (sqrt : K → K) (vdd : K) (s : CellReader K) :
    MemCell.readLine sqrt vdd l.text s = l.option.read sqrt vdd l.text s := by
  unfold MemCell.readLine
  rw [branchOf_eq_some CellOption.pairwise_diverges (CellOption.mem_all _) l.key_prefix
    l.scanLiteral_ne_none]

/-- A word is never `vdd`, and it is what the scan leaves in the buffer. -/
theorem CellLine.scan_word (l : CellLine) (hk : l.option.kind = .word) :
    ∃ w, l.value = .word w ∧ w ≠ vddWord ∧
      ∀ tmp, sscanfWord l.option.label l.text tmp = w := by
  have hv := l.value_eq
  unfold CellOption.valueOf at hv
  simp only [hk] at hv
  obtain ⟨w, hw, hv⟩ := Option.bind_eq_some_iff.mp hv
  split at hv
  · cases hv
  · rename_i hne
    exact ⟨w, (Option.some.inj hv).symm, hne, fun tmp => sscanfWord_eq hw tmp⟩

theorem CellLine.scan_int (l : CellLine) (hk : l.option.kind = .int) :
    ∃ n, l.value = .int n ∧ ∀ x, sscanfInt l.option.label l.text x = n := by
  have hv := l.value_eq
  unfold CellOption.valueOf at hv
  simp only [hk] at hv
  obtain ⟨n, hn, hv⟩ := Option.map_eq_some_iff.mp hv
  exact ⟨n, hv.symm, fun x => sscanfInt_eq hn x⟩

theorem CellLine.scan_number (l : CellLine) (hk : l.option.kind = .number) :
    ∃ q, l.value = .num q ∧ ∀ x : K, sscanfDouble l.option.label l.text x = q := by
  have hv := l.value_eq
  unfold CellOption.valueOf at hv
  simp only [hk] at hv
  obtain ⟨q, hq, hv⟩ := Option.map_eq_some_iff.mp hv
  exact ⟨q, hv.symm, fun x => sscanfDouble_eq hq x⟩

theorem CellLine.scan_positive (l : CellLine) (hk : l.option.kind = .positive) :
    ∃ q, l.value = .num q ∧ 0 < q ∧ ∀ x : K, sscanfDouble l.option.label l.text x = q := by
  have hv := l.value_eq
  unfold CellOption.valueOf at hv
  simp only [hk] at hv
  obtain ⟨q, hq, hv⟩ := Option.bind_eq_some_iff.mp hv
  split at hv
  · rename_i hpos
    exact ⟨q, (Option.some.inj hv).symm, hpos, fun x => sscanfDouble_eq hq x⟩
  · cases hv

/-- The word `vdd` is no number. -/
theorem scanDouble_vdd {t r : List Char} (h : scanWord t = some (vddWord, r)) :
    scanDouble t = none := by
  simp only [scanWord] at h
  split at h
  · cases h
  · obtain ⟨hw, -⟩ := Prod.mk.inj (Option.some.inj h)
    have hword : (skipSpace t).takeWhile (fun c => !isspace c) = ['v', 'd', 'd'] := hw
    obtain ⟨u, hu⟩ : ∃ u, skipSpace t = 'v' :: u := by
      cases ht : skipSpace t with
      | nil =>
          rw [ht] at hword
          cases hword
      | cons c u =>
          rw [ht, List.takeWhile_cons] at hword
          split at hword
          · obtain ⟨rfl, -⟩ := List.cons.inj hword
            exact ⟨u, rfl⟩
          · cases hword
    unfold scanDouble
    rw [hu]
    rfl

/-- A voltage line holds `vdd`, which no scan of a number stores, or a number. -/
theorem CellLine.scan_voltage (l : CellLine) (hk : l.option.kind = .voltage) :
    (l.value = .vdd ∧ (∀ tmp, sscanfWord l.option.label l.text tmp = vddWord) ∧
        ∀ x : K, sscanfDouble l.option.label l.text x = x) ∨
      ∃ q, l.value = .num q ∧ (∀ tmp, sscanfWord l.option.label l.text tmp ≠ vddWord) ∧
        ∀ x : K, sscanfDouble l.option.label l.text x = q := by
  have hv := l.value_eq
  unfold CellOption.valueOf at hv
  simp only [hk] at hv
  obtain ⟨w, hw, hv⟩ := Option.bind_eq_some_iff.mp hv
  split at hv
  · rename_i hvdd
    subst hvdd
    refine .inl ⟨(Option.some.inj hv).symm, fun tmp => sscanfWord_eq hw tmp, fun x => ?_⟩
    obtain ⟨⟨w, r⟩, hscan, hfst⟩ := Option.map_eq_some_iff.mp hw
    obtain rfl : w = vddWord := hfst
    obtain ⟨t, ht, hscan⟩ := Option.bind_eq_some_iff.mp hscan
    simp [sscanfDouble, ht, scanDouble_vdd hscan]
  · rename_i hne
    obtain ⟨q, hq, hv⟩ := Option.map_eq_some_iff.mp hv
    refine .inr ⟨q, hv.symm, fun tmp => ?_, fun x => sscanfDouble_eq hq x⟩
    rw [sscanfWord_eq hw tmp]
    exact hne

end Scanned

/-! ## The cell a set of values describes -/

/-- A value for some of the options. -/
abbrev CellSlots := CellOption → Option CellValue

section Slots
variable {K : Type} [Field K]

def CellSlots.num (v : CellSlots) (o : CellOption) (x : K) : K :=
  match v o with
  | some (.num q) => q
  | _ => x

/-- A number in a unit, `scale` of which make the unit of the field. -/
def CellSlots.scaled (v : CellSlots) (o : CellOption) (scale : K) (x : K) : K :=
  match v o with
  | some (.num q) => q / scale
  | _ => x

def CellSlots.int (v : CellSlots) (o : CellOption) (x : Int) : Int :=
  match v o with
  | some (.int n) => n
  | _ => x

def CellSlots.flag (v : CellSlots) (o : CellOption) (word : List Char) (x : Bool) : Bool :=
  match v o with
  | some (.word w) => w = word
  | _ => x

/-- The cell that the values describe, on top of the cell `c` as it is after the first
    lines. -/
def CellSlots.cell (sqrt : K → K) (vdd : K) (c : MemCell K) (v : CellSlots) : MemCell K :=
  { c with
    processNode := v.int .processNode c.processNode
    area := v.num .cellArea c.area
    aspectRatio := v.num .cellAspectRatio c.aspectRatio
    heightInFeatureSize :=
      match v .cellAspectRatio with
      | some (.num r) => sqrt (c.area * r)
      | _ => c.heightInFeatureSize
    widthInFeatureSize :=
      match v .cellAspectRatio with
      | some (.num r) => sqrt (c.area / r)
      | _ => c.widthInFeatureSize
    resistanceOnAtSetVoltage := v.num .resistanceOnAtSetVoltage c.resistanceOnAtSetVoltage
    resistanceOffAtSetVoltage := v.num .resistanceOffAtSetVoltage c.resistanceOffAtSetVoltage
    resistanceOnAtResetVoltage :=
      v.num .resistanceOnAtResetVoltage c.resistanceOnAtResetVoltage
    resistanceOffAtResetVoltage :=
      v.num .resistanceOffAtResetVoltage c.resistanceOffAtResetVoltage
    resistanceOnAtReadVoltage := v.num .resistanceOnAtReadVoltage c.resistanceOnAtReadVoltage
    resistanceOffAtReadVoltage :=
      v.num .resistanceOffAtReadVoltage c.resistanceOffAtReadVoltage
    resistanceOnAtHalfReadVoltage :=
      v.num .resistanceOnAtHalfReadVoltage c.resistanceOnAtHalfReadVoltage
    resistanceOffAtHalfReadVoltage :=
      v.num .resistanceOffAtHalfReadVoltage c.resistanceOffAtHalfReadVoltage
    resistanceOnAtHalfResetVoltage :=
      v.num .resistanceOnAtHalfResetVoltage c.resistanceOnAtHalfResetVoltage
    -- the resistance at the read voltage stands for the resistance itself
    resistanceOn := v.num .resistanceOnAtReadVoltage (v.num .resistanceOn c.resistanceOn)
    resistanceOff := v.num .resistanceOffAtReadVoltage (v.num .resistanceOff c.resistanceOff)
    capacitanceOn := v.num .capacitanceOn c.capacitanceOn
    capacitanceOff := v.num .capacitanceOff c.capacitanceOff
    gateOxThicknessFactor := v.num .gateOxThicknessFactor c.gateOxThicknessFactor
    widthSOIDevice := v.num .soiDeviceWidth c.widthSOIDevice
    readMode := v.flag .readMode "voltage".toList c.readMode
    readVoltage := v.num .readVoltage c.readVoltage
    readCurrent := v.scaled .readCurrent (10 ^ 6) c.readCurrent
    readPower := v.scaled .readPower (10 ^ 6) c.readPower
    wordlineBoostRatio := v.num .wordlineBoostRatio c.wordlineBoostRatio
    minSenseVoltage := v.scaled .minSenseVoltage (10 ^ 3) c.minSenseVoltage
    resetMode := v.flag .resetMode "voltage".toList c.resetMode
    resetVoltage :=
      match v .resetVoltage with
      | some .vdd => vdd
      | some (.num q) => q
      | _ => c.resetVoltage
    resetCurrent := v.scaled .resetCurrent (10 ^ 6) c.resetCurrent
    resetPulse := v.scaled .resetPulse (10 ^ 9) c.resetPulse
    resetEnergy := v.scaled .resetEnergy (10 ^ 12) c.resetEnergy
    setMode := v.flag .setMode "voltage".toList c.setMode
    -- `vdd` is not stored
    setVoltage := v.num .setVoltage c.setVoltage
    setCurrent := v.scaled .setCurrent (10 ^ 6) c.setCurrent
    setPulse := v.scaled .setPulse (10 ^ 9) c.setPulse
    setEnergy := v.scaled .setEnergy (10 ^ 12) c.setEnergy
    stitching := v.int .stitching c.stitching
    widthAccessCMOS :=
      if c.accessType = .CMOS_access then v.num .accessCMOSWidth c.widthAccessCMOS
      else c.widthAccessCMOS
    voltageDropAccessDevice := v.num .voltageDropAccessDevice c.voltageDropAccessDevice
    leakageCurrentAccessDevice :=
      v.scaled .leakageCurrentAccessDevice (10 ^ 6) c.leakageCurrentAccessDevice
    capDRAMCell := if c.isDRAM then v.num .dramCellCapacitance c.capDRAMCell else c.capDRAMCell
    widthSRAMCellNMOS :=
      if c.memCellType = .SRAM then v.num .sramCellNMOSWidth c.widthSRAMCellNMOS
      else c.widthSRAMCellNMOS
    widthSRAMCellPMOS :=
      if c.memCellType = .SRAM then v.num .sramCellPMOSWidth c.widthSRAMCellPMOS
      else c.widthSRAMCellPMOS
    readFloating := v.flag .readFloating "true".toList c.readFloating
    flashEraseVoltage :=
      if c.isFlash then v.num .flashEraseVoltage c.flashEraseVoltage else c.flashEraseVoltage
    flashProgramVoltage :=
      if c.isFlash then v.num .flashProgramVoltage c.flashProgramVoltage
      else c.flashProgramVoltage
    flashPassVoltage :=
      if c.isFlash then v.num .flashPassVoltage c.flashPassVoltage else c.flashPassVoltage
    flashEraseTime :=
      if c.isFlash then v.scaled .flashEraseTime (10 ^ 3) c.flashEraseTime else c.flashEraseTime
    flashProgramTime :=
      if c.isFlash then v.scaled .flashProgramTime (10 ^ 6) c.flashProgramTime
      else c.flashProgramTime
    gateCouplingRatio :=
      if c.isFlash then v.num .gateCouplingRatio c.gateCouplingRatio else c.gateCouplingRatio
    retentionTime :=
      if c.memCellType = .eDRAM then v.scaled .retentionTime (10 ^ 6) c.retentionTime
      else c.retentionTime
    temperature :=
      if c.memCellType = .eDRAM then v.num .temperature c.temperature else c.temperature }

/-- No values change nothing. -/
theorem CellSlots.cell_none (sqrt : K → K) (vdd : K) (c : MemCell K) :
    CellSlots.cell sqrt vdd c (fun _ => none) = c := by
  unfold CellSlots.cell
  simp only [CellSlots.num, CellSlots.scaled, CellSlots.int, CellSlots.flag, ite_self]

/-- The values of the options when one more line is read. -/
def CellSlots.add (v : CellSlots) (l : CellLine) : CellSlots :=
  fun o => if o = l.option then some l.value else v o

/-- No option's line gets in the way of another's. -/
structure CellSlots.Compatible (v : CellSlots) : Prop where
  area_ratio : ∀ p q, v .cellArea = some p → v .cellAspectRatio = some q → False
  on : ∀ p q, v .resistanceOn = some (.num p) →
    v .resistanceOnAtReadVoltage = some (.num q) → p = q
  off : ∀ p q, v .resistanceOff = some (.num p) →
    v .resistanceOffAtReadVoltage = some (.num q) → p = q
  set_reset : ∀ q, v .setVoltage = some (.num q) → v .resetVoltage = some .vdd → q = 0

theorem CellSlots.Compatible.anti {v w : CellSlots} (h : w.Compatible)
    (hvw : ∀ o x, v o = some x → w o = some x) : v.Compatible where
  area_ratio p q hp hq := h.area_ratio p q (hvw _ _ hp) (hvw _ _ hq)
  on p q hp hq := h.on p q (hvw _ _ hp) (hvw _ _ hq)
  off p q hp hq := h.off p q (hvw _ _ hp) (hvw _ _ hq)
  set_reset q hq hr := h.set_reset q (hvw _ _ hq) (hvw _ _ hr)

/-- What is known while the other lines are read: the cell is the one the values
    describe, and the buffer holds `vdd` only when `-ResetVoltage` does. -/
structure CellReader.Holds (sqrt : K → K) (vdd : K) (c : MemCell K) (v : CellSlots)
    (s : CellReader K) : Prop where
  cell : s.cell = v.cell sqrt vdd c
  tmp : s.tmp = vddWord → v .resetVoltage = some .vdd

/-! ## One line -/

theorem CellSlots.add_of_ne {v : CellSlots} {l : CellLine} {o : CellOption} (h : o ≠ l.option) :
    v.add l o = v o := if_neg h

theorem CellSlots.num_of_none {v : CellSlots} {o : CellOption} (h : v o = none) (x : K) :
    v.num o x = x := by
  simp [CellSlots.num, h]

theorem CellSlots.num_of_vdd {v : CellSlots} {o : CellOption} (h : v o = some .vdd) (x : K) :
    v.num o x = x := by
  simp [CellSlots.num, h]

theorem CellSlots.num_of_eq {v : CellSlots} {o : CellOption} {q : ℚ}
    (h : ∀ p, v o = some (.num p) → q = p) : v.num o (q : K) = q := by
  unfold CellSlots.num
  split
  · rename_i p hp
    rw [h p hp]
  · rfl

private theorem ite_else_same {α : Type} (p : Prop) [Decidable p] (a b d : α) :
    (if p then a else if p then b else d) = if p then a else d := by
  split <;> rfl

variable {sqrt : K → K} {vdd : K} {c : MemCell K} {v : CellSlots} {s : CellReader K}

theorem CellReader.Holds.word (hs : s.Holds sqrt vdd c v) (l : CellLine)
    (hk : l.option.kind = .word) (hl : l.option.isHeader = false) :
    (l.option.read sqrt vdd l.text s).cell = (v.add l).cell sqrt vdd c ∧
      (l.option.read sqrt vdd l.text s).tmp ≠ vddWord := by
  obtain ⟨w, hw, hne, hscan⟩ := l.scan_word hk
  obtain ⟨o, text, value, hkey, hval, hnl⟩ := l
  obtain rfl : value = .word w := hw
  obtain ⟨cell, tmp⟩ := s
  obtain rfl := hs.cell
  simp only at hscan hk hl
  cases o
  case readMode | resetMode | setMode | readFloating =>
    simp only [CellOption.read, hscan]
    exact ⟨rfl, hne⟩
  case memCellType | accessType => cases hl
  all_goals cases hk

theorem CellReader.Holds.int (hs : s.Holds sqrt vdd c v) (l : CellLine)
    (hk : l.option.kind = .int) :
    (l.option.read sqrt vdd l.text s).cell = (v.add l).cell sqrt vdd c := by
  obtain ⟨n, hn, hscan⟩ := l.scan_int hk
  obtain ⟨o, text, value, hkey, hval, hnl⟩ := l
  obtain rfl : value = .int n := hn
  obtain ⟨cell, tmp⟩ := s
  obtain rfl := hs.cell
  simp only at hscan hk
  cases o
  case processNode | stitching =>
    simp only [CellOption.read, hscan]
    rfl
  all_goals cases hk

/-- The aspect ratio finds the initial area: the other line is not in the file. -/
theorem CellReader.Holds.positive (hs : s.Holds sqrt vdd c v) (l : CellLine)
    (hk : l.option.kind = .positive) (hcompat : (v.add l).Compatible) :
    (l.option.read sqrt vdd l.text s).cell = (v.add l).cell sqrt vdd c := by
  obtain ⟨q, hq, -, hscan⟩ := l.scan_positive (K := K) hk
  obtain ⟨o, text, value, hkey, hval, hnl⟩ := l
  obtain rfl : value = .num q := hq
  obtain ⟨cell, tmp⟩ := s
  obtain rfl := hs.cell
  simp only at hscan hk
  cases o
  case cellArea =>
    simp only [CellOption.read, hscan]
    rfl
  case cellAspectRatio =>
    have harea : (v.cell sqrt vdd c).area = c.area := by
      refine CellSlots.num_of_none ?_ c.area
      cases h : v .cellArea with
      | none => rfl
      | some p => exact (hcompat.area_ratio p _ h rfl).elim
    simp only [CellOption.read, hscan]
    exact congrArg (fun a => { v.cell sqrt vdd c with
      aspectRatio := (q : K)
      heightInFeatureSize := sqrt (a * q)
      widthInFeatureSize := sqrt (a / q) }) harea
  all_goals cases hk

theorem CellReader.Holds.voltage (hs : s.Holds sqrt vdd c v) (hc : c.setVoltage = 0)
    (l : CellLine) (hk : l.option.kind = .voltage) (hfree : v l.option = none)
    (hcompat : (v.add l).Compatible) :
    (l.option.read sqrt vdd l.text s).Holds sqrt vdd c (v.add l) := by
  have hscan := l.scan_voltage (K := K) hk
  obtain ⟨o, text, value, hkey, hval, hnl⟩ := l
  obtain ⟨cell, tmp⟩ := s
  obtain rfl := hs.cell
  simp only at hscan hk
  cases o
  case resetVoltage =>
    rcases hscan with ⟨rfl, hword, -⟩ | ⟨q, rfl, hword, hscan⟩
    · constructor
      · simp only [CellOption.read, hword]
        rfl
      · exact fun _ => rfl
    · constructor
      · have hne : ¬ sscanfWord CellOption.resetVoltage.label text tmp = "vdd".toList :=
          hword tmp
        simp only [CellOption.read, hscan, if_neg hne]
        rfl
      · exact fun h => absurd h (hword tmp)
  case setVoltage =>
    -- the word is looked for behind the label of `-ResetVoltage`, which is not there
    have hlit : scanLiteral CellOption.resetVoltage.label text = none := by
      obtain ⟨r, rfl⟩ := hkey
      exact scanLiteral_eq_none_of_diverges rfl r
    have hword : sscanfWord CellOption.resetVoltage.label text tmp = tmp := by
      simp [sscanfWord, hlit]
    have hset : v.num .setVoltage c.setVoltage = c.setVoltage :=
      CellSlots.num_of_none hfree _
    constructor
    · simp only [CellOption.read, hword]
      by_cases htmp : tmp = vddWord
      · -- `-ResetVoltage` has set the same value already, and the voltage stays at 0
        have hreset : v .resetVoltage = some .vdd := hs.tmp htmp
        have hfirst : (v.cell sqrt vdd c).resetVoltage = vdd := by
          simp [CellSlots.cell, hreset]
        have hsecond : (v.add ⟨.setVoltage, text, value, hkey, hval, hnl⟩).num .setVoltage
            c.setVoltage = c.setVoltage := by
          rcases hscan with ⟨rfl, -, -⟩ | ⟨q, rfl, -, -⟩
          · rfl
          · show (q : K) = c.setVoltage
            rw [hcompat.set_reset q rfl hreset, hc, Rat.cast_zero]
        have hvdd : tmp = "vdd".toList := htmp
        simp only [if_pos hvdd]
        refine Eq.trans ?_ (congrArg (fun x => { v.cell sqrt vdd c with setVoltage := x })
          (hset.trans hsecond.symm))
        exact congrArg (fun x => { v.cell sqrt vdd c with resetVoltage := x }) hfirst.symm
      · have hvdd : ¬ tmp = "vdd".toList := htmp
        simp only [if_neg hvdd]
        rcases hscan with ⟨rfl, -, hscan⟩ | ⟨q, rfl, -, hscan⟩
        · rw [hscan]
          exact congrArg (fun x => { v.cell sqrt vdd c with setVoltage := x }) hset
        · rw [hscan]
          rfl
    · simp only [CellOption.read, hword]
      exact fun h => hs.tmp h
  all_goals cases hk

theorem CellReader.Holds.number (hs : s.Holds sqrt vdd c v) (l : CellLine)
    (hk : l.option.kind = .number) (hcompat : (v.add l).Compatible) :
    (l.option.read sqrt vdd l.text s).cell = (v.add l).cell sqrt vdd c := by
  obtain ⟨q, hq, hscan⟩ := l.scan_number (K := K) hk
  obtain ⟨o, text, value, hkey, hval, hnl⟩ := l
  obtain rfl : value = .num q := hq
  obtain ⟨cell, tmp⟩ := s
  obtain rfl := hs.cell
  simp only at hscan hk
  cases o
  case resistanceOn =>
    have hval : v.num .resistanceOnAtReadVoltage (q : K) = q :=
      CellSlots.num_of_eq fun p hp => hcompat.on q p rfl hp
    simp only [CellOption.read, hscan]
    exact congrArg (fun x => { v.cell sqrt vdd c with resistanceOn := x }) hval.symm
  case resistanceOff =>
    have hval : v.num .resistanceOffAtReadVoltage (q : K) = q :=
      CellSlots.num_of_eq fun p hp => hcompat.off q p rfl hp
    simp only [CellOption.read, hscan]
    exact congrArg (fun x => { v.cell sqrt vdd c with resistanceOff := x }) hval.symm
  -- the options that only some cells have
  case dramCellCapacitance =>
    simp only [CellOption.read, hscan]
    exact congrArg (fun x => { v.cell sqrt vdd c with capDRAMCell := x })
      (ite_else_same (c.isDRAM = true) _ _ _)
  case accessCMOSWidth =>
    simp only [CellOption.read, hscan]
    exact congrArg (fun x => { v.cell sqrt vdd c with widthAccessCMOS := x })
      (ite_else_same (c.accessType = .CMOS_access) _ _ _)
  case sramCellNMOSWidth =>
    simp only [CellOption.read, hscan]
    exact congrArg (fun x => { v.cell sqrt vdd c with widthSRAMCellNMOS := x })
      (ite_else_same (c.memCellType = .SRAM) _ _ _)
  case sramCellPMOSWidth =>
    simp only [CellOption.read, hscan]
    exact congrArg (fun x => { v.cell sqrt vdd c with widthSRAMCellPMOS := x })
      (ite_else_same (c.memCellType = .SRAM) _ _ _)
  case flashEraseVoltage =>
    simp only [CellOption.read, hscan]
    exact congrArg (fun x => { v.cell sqrt vdd c with flashEraseVoltage := x })
      (ite_else_same (c.isFlash = true) _ _ _)
  case flashProgramVoltage =>
    simp only [CellOption.read, hscan]
    exact congrArg (fun x => { v.cell sqrt vdd c with flashProgramVoltage := x })
      (ite_else_same (c.isFlash = true) _ _ _)
  case flashPassVoltage =>
    simp only [CellOption.read, hscan]
    exact congrArg (fun x => { v.cell sqrt vdd c with flashPassVoltage := x })
      (ite_else_same (c.isFlash = true) _ _ _)
  case flashEraseTime =>
    simp only [CellOption.read, hscan]
    exact congrArg (fun x => { v.cell sqrt vdd c with flashEraseTime := x })
      (ite_else_same (c.isFlash = true) _ _ _)
  case flashProgramTime =>
    simp only [CellOption.read, hscan]
    exact congrArg (fun x => { v.cell sqrt vdd c with flashProgramTime := x })
      (ite_else_same (c.isFlash = true) _ _ _)
  case gateCouplingRatio =>
    simp only [CellOption.read, hscan]
    exact congrArg (fun x => { v.cell sqrt vdd c with gateCouplingRatio := x })
      (ite_else_same (c.isFlash = true) _ _ _)
  case retentionTime =>
    simp only [CellOption.read, hscan]
    exact congrArg (fun x => { v.cell sqrt vdd c with retentionTime := x })
      (ite_else_same (c.memCellType = .eDRAM) _ _ _)
  case temperature =>
    simp only [CellOption.read, hscan]
    exact congrArg (fun x => { v.cell sqrt vdd c with temperature := x })
      (ite_else_same (c.memCellType = .eDRAM) _ _ _)
  case memCellType | processNode | cellArea | cellAspectRatio | readMode | resetMode | resetVoltage
      | setMode | setVoltage | stitching | accessType | readFloating => cases hk
  all_goals
    simp only [CellOption.read, hscan]
    rfl

/-- Numbers leave the buffer alone. -/
theorem CellOption.read_tmp {o : CellOption} (hword : o.kind ≠ .word) (hvoltage : o.kind ≠ .voltage)
    (line : List Char) : (o.read sqrt vdd line s).tmp = s.tmp := by
  cases o
  case memCellType | accessType | readMode | resetMode | setMode | readFloating =>
    exact absurd rfl hword
  case resetVoltage | setVoltage => exact absurd rfl hvoltage
  all_goals rfl

/-- A line that gets in no other's way adds its value. -/
theorem CellReader.Holds.read (hs : s.Holds sqrt vdd c v) (hc : c.setVoltage = 0) (l : CellLine)
    (hl : l.option.isHeader = false) (hfree : v l.option = none)
    (hcompat : (v.add l).Compatible) :
    (l.option.read sqrt vdd l.text s).Holds sqrt vdd c (v.add l) := by
  -- whatever kind the line is of, its branch leaves the value of `-ResetVoltage` or sets it
  have htmp : l.option.kind ≠ .word → l.option.kind ≠ .voltage →
      (l.option.read sqrt vdd l.text s).tmp = vddWord →
        v.add l .resetVoltage = some .vdd := by
    intro hword hvoltage h
    rw [CellOption.read_tmp hword hvoltage] at h
    rw [CellSlots.add_of_ne (fun hcon => hvoltage (hcon ▸ rfl))]
    exact hs.tmp h
  cases hk : l.option.kind with
  | word =>
      obtain ⟨hcell, hne⟩ := hs.word l hk hl
      exact ⟨hcell, fun h => absurd h hne⟩
  | voltage => exact hs.voltage hc l hk hfree hcompat
  | int => exact ⟨hs.int l hk, htmp (by simp [hk]) (by simp [hk])⟩
  | positive => exact ⟨hs.positive l hk hcompat, htmp (by simp [hk]) (by simp [hk])⟩
  | number => exact ⟨hs.number l hk hcompat, htmp (by simp [hk]) (by simp [hk])⟩

end Slots

end Destiny
