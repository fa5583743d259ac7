/-
  Destiny.Circuit.RepeatedWire

  `Wire`: the repeaters of a wire, and what they cost for a unit length.

  A repeater is an inverter of `repeaterSize` times the minimum widths, and there
  is one every `repeaterSpacing`.  `findOptimalRepeater` takes its pair from a
  closed form in the values of the minimum inverter; `getRepeatedWireUnitDelay`
  evaluates the gate models at the size itself.  As long as no transistor is
  folded, the capacitances are linear in the size and the resistance is inverse to
  it (`inputCap_eq`, `outputCap_eq`, `outputRes_eq`).
-/

import Destiny.Circuit.Formula
import Destiny.Circuit.Repeater
import Destiny.Typedef

namespace Destiny

open Lib

variable {K : Type} [Field K] [LinearOrder K]

/-- What the repeaters of a wire depend on. -/
structure UnitWire (K : Type) [Field K] [LinearOrder K] where
  tech : GateTech K
  /-- of `inputParameter->temperature` -/
  tempIndex : Fin 101
  wirePitch : K
  resWirePerUnit : K
  capWirePerUnit : K
  /-- one metre, which stands for no limit, has room for a finger -/
  foldable : 3 * tech.featureSize ≤ 1

/-- The members of `Wire` that its repeaters set. -/
structure Repeaters (K : Type) where
  repeaterSpacing : K
  repeaterSize : K
  repeaterHeight : K
  repeaterWidth : K
  repeatedWirePitch : K

namespace UnitWire

variable (w : UnitWire K)

/-! ## One repeater -/

/-- The width of its NMOS; the minimum inverter has size one. -/
def nmosSize (repeaterSize : K) : K := MIN_NMOS_SIZE K * w.tech.featureSize * repeaterSize

def pmosSize (repeaterSize : K) : K := w.nmosSize repeaterSize * w.tech.pnSizeRatio

def inputCap (repeaterSize : K) : K :=
  w.tech.CalculateGateCap (w.nmosSize repeaterSize) +
    w.tech.CalculateGateCap (w.pmosSize repeaterSize)

def outputRes (repeaterSize : K) : K :=
  w.tech.CalculateOnResistance (w.nmosSize repeaterSize) .NMOS w.tempIndex +
    w.tech.CalculateOnResistance (w.pmosSize repeaterSize) .PMOS w.tempIndex

variable [FloorRing K]

/-- `CalculateDrainCap(width, type, 1 /*no limit*/, *tech)` -/
def drainCapNoLimit (width : K) (type : MosType) : K :=
  (w.tech.CalculateDrainCap width type 1).get
    (GateTech.CalculateDrainCap_isSome w.foldable width type)

def outputCap (repeaterSize : K) : K :=
  w.drainCapNoLimit (w.nmosSize repeaterSize) .NMOS +
    w.drainCapNoLimit (w.pmosSize repeaterSize) .PMOS

/-! ## A unit length -/

def getRepeatedWireUnitDelay (repeaterSpacing repeaterSize : K) : K :=
  let inputCap := w.inputCap repeaterSize
  let outputCap := w.outputCap repeaterSize
  let outputRes := w.outputRes repeaterSize
  let wireCap := w.capWirePerUnit * repeaterSpacing
  let wireRes := w.resWirePerUnit * repeaterSpacing
  let tau := outputRes * (inputCap + outputCap) + outputRes * wireCap + wireRes * outputCap +
    0.5 * wireRes * wireCap
  0.693 * tau / repeaterSpacing

/-- There is no short circuit energy in this version. -/
def getRepeatedWireUnitDynamicEnergy (repeaterSpacing repeaterSize : K) : K :=
  let wireCap := w.capWirePerUnit * repeaterSpacing
  let switchingEnergy :=
    (w.inputCap repeaterSize + w.outputCap repeaterSize + wireCap) * w.tech.vdd * w.tech.vdd
  switchingEnergy / repeaterSpacing

omit [FloorRing K] in
def getRepeatedWireUnitLeakage (repeaterSpacing repeaterSize : K) : K :=
  let leakagePerRepeater := w.tech.CalculateGateLeakage .INV 1 (w.nmosSize repeaterSize)
    (w.pmosSize repeaterSize) w.tempIndex * w.tech.vdd
  leakagePerRepeater / repeaterSpacing

/-- The wire as the search for penalized repeaters sees it. -/
def repeated : RepeatedWire K where
  getRepeatedWireUnitDelay := w.getRepeatedWireUnitDelay
  getRepeatedWireUnitDynamicEnergy := w.getRepeatedWireUnitDynamicEnergy
  getRepeatedWireUnitLeakage := w.getRepeatedWireUnitLeakage

/-! ## Inserting repeaters -/

/-- The spacing and the size, from the minimum inverter. -/
def findOptimalRepeater (sqrt : K → K) : K × K :=
  let inputCap := w.inputCap 1
  let outputCap := w.outputCap 1
  let outputRes := w.outputRes 1
  (sqrt (2 * outputRes * (outputCap + inputCap) / (w.resWirePerUnit * w.capWirePerUnit)),
    sqrt (outputRes * w.capWirePerUnit / inputCap / w.resWirePerUnit))

omit [LinearOrder K] [FloorRing K] in
/-- The penalty of a repeater type that is not fully latency optimized. -/
def penalty (K : Type) [Field K] : WireRepeaterType → K
  | .repeated_5 => 0.05
  | .repeated_10 => 0.10
  | .repeated_20 => 0.20
  | .repeated_30 => 0.30
  | .repeated_40 => 0.40
  | _ => 0.50

/-- The repeated wire pitch: repeaters lie along the longer of their sides. -/
def layOut (repeaterSpacing repeaterSize : K) : Repeaters K :=
  let area := w.tech.CalculateGateArea .INV 1 (repeaterSize * MIN_NMOS_SIZE K * w.tech.featureSize)
    (repeaterSize * MIN_NMOS_SIZE K * w.tech.featureSize * w.tech.pnSizeRatio) 1e41
  let sides := if area.2 < area.1 then (area.2, area.1) else (area.1, area.2)
  { repeaterSpacing, repeaterSize
    repeaterHeight := sides.1
    repeaterWidth := sides.2
    repeatedWirePitch := w.wirePitch + sides.2 }

/-- The end of `Wire::Initialize`, for a type that is not `repeated_none`. -/
def insertRepeaters (sqrt : K → K) (type : WireRepeaterType) (fuel : ℕ) : Option (Repeaters K) :=
  let optimal := w.findOptimalRepeater sqrt
  if type = .repeated_opt then some (w.layOut optimal.1 optimal.2)
  else
    (findPenalizedRepeater w.repeated (penalty K type) optimal.1 optimal.2 fuel).map fun s =>
      w.layOut s.repeaterSpacing s.repeaterSize

/-! ## Repeaters that are not folded -/

omit [FloorRing K] in
/-- A wire whose parameters make sense. -/
structure Physical : Prop where
  featureSize_pos : 0 < w.tech.featureSize
  vdd_pos : 0 < w.tech.vdd
  pnSizeRatio_pos : 0 < w.tech.pnSizeRatio
  resistance_pos : 0 < w.tech.effectiveResistanceMultiplier
  currentOnNmos_pos : 0 < w.tech.currentOnNmos w.tempIndex
  currentOnPmos_pos : 0 < w.tech.currentOnPmos w.tempIndex
  currentOffNmos_pos : 0 < w.tech.currentOffNmos w.tempIndex
  gateCap_pos : 0 < w.tech.capIdealGate + w.tech.capOverlap + 3 * w.tech.capFringe
  polywire_nonneg : 0 ≤ w.tech.phyGateLength * w.tech.capPolywire
  capJunction_nonneg : 0 ≤ w.tech.capJunction
  capSidewall_nonneg : 0 ≤ w.tech.capSidewall
  capDrainToChannel_nonneg : 0 ≤ w.tech.capDrainToChannel
  resWirePerUnit_pos : 0 < w.resWirePerUnit
  capWirePerUnit_pos : 0 < w.capWirePerUnit

omit [FloorRing K] in
/-- Both transistors are narrower than the metre that stands for no limit. -/
def Unfolded (repeaterSize : K) : Prop := w.nmosSize repeaterSize < 1 ∧ w.pmosSize repeaterSize < 1

omit [FloorRing K] in
/-- The sizes of which no transistor is folded. -/
def sizes : Set K := {repeaterSize | 0 < repeaterSize ∧ w.Unfolded repeaterSize}

omit [FloorRing K] in
/-- The transistors of the minimum inverter side by side. -/
def minWidth : K := w.nmosSize 1 + w.pmosSize 1

omit [FloorRing K] in
/-- What a unit of size adds to the input capacitance. -/
def gateSlope : K :=
  (w.tech.capIdealGate + w.tech.capOverlap + 3 * w.tech.capFringe) * w.minWidth

omit [FloorRing K] in
/-- The input capacitance that all sizes have: the wires of two gates. -/
def gateFixed : K := 2 * (w.tech.phyGateLength * w.tech.capPolywire)

omit [FloorRing K] in
/-- What a unit of size adds to the output capacitance. -/
def drainSlope : K :=
  (w.tech.contactWidth * w.tech.capJunction + w.tech.capSidewall + w.tech.capDrainToChannel) *
    w.minWidth

omit [FloorRing K] in
/-- The output capacitance that all sizes have: the sidewalls of two contacts. -/
def drainFixed : K := 4 * (w.tech.contactWidth * w.tech.capSidewall)

variable {w} {repeaterSize repeaterSpacing : K}

section
omit [FloorRing K]

theorem nmosSize_eq (w : UnitWire K) (repeaterSize : K) :
    w.nmosSize repeaterSize = w.nmosSize 1 * repeaterSize := by
  rw [nmosSize, nmosSize, mul_one]

theorem pmosSize_eq (w : UnitWire K) (repeaterSize : K) :
    w.pmosSize repeaterSize = w.pmosSize 1 * repeaterSize := by
  rw [pmosSize, pmosSize, nmosSize_eq, mul_right_comm]

theorem inputCap_eq (w : UnitWire K) (repeaterSize : K) :
    w.inputCap repeaterSize = w.gateSlope * repeaterSize + w.gateFixed := by
  simp only [inputCap, GateTech.CalculateGateCap, gateSlope, gateFixed, minWidth]
  rw [nmosSize_eq, pmosSize_eq]
  ring

theorem outputRes_eq (w : UnitWire K) (repeaterSize : K) :
    w.outputRes repeaterSize = w.outputRes 1 / repeaterSize := by
  simp only [outputRes, GateTech.CalculateOnResistance]
  rw [nmosSize_eq, pmosSize_eq, add_div, div_div, div_div, mul_assoc, mul_assoc]

variable [IsStrictOrderedRing K]

theorem Physical.nmosSize_pos (h : w.Physical) (hsize : 0 < repeaterSize) :
    0 < w.nmosSize repeaterSize := by
  have hmin : (0 : K) < MIN_NMOS_SIZE K := by
    unfold MIN_NMOS_SIZE
    norm_num
  exact mul_pos (mul_pos hmin h.featureSize_pos) hsize

theorem Physical.pmosSize_pos (h : w.Physical) (hsize : 0 < repeaterSize) :
    0 < w.pmosSize repeaterSize :=
  mul_pos (h.nmosSize_pos hsize) h.pnSizeRatio_pos

theorem Physical.minWidth_pos (h : w.Physical) : 0 < w.minWidth :=
  add_pos (h.nmosSize_pos one_pos) (h.pmosSize_pos one_pos)

theorem Physical.contactWidth_pos (h : w.Physical) : 0 < w.tech.contactWidth := by
  unfold GateTech.contactWidth CONTACT_SIZE MIN_GAP_BET_CONTACT_POLY
  exact mul_pos h.featureSize_pos (by norm_num)

theorem Physical.gateSlope_pos (h : w.Physical) : 0 < w.gateSlope :=
  mul_pos h.gateCap_pos h.minWidth_pos

theorem Physical.gateFixed_nonneg (h : w.Physical) : 0 ≤ w.gateFixed :=
  mul_nonneg zero_le_two h.polywire_nonneg

theorem Physical.inputCap_pos (h : w.Physical) : 0 < w.inputCap 1 := by
  rw [inputCap_eq, mul_one]
  exact add_pos_of_pos_of_nonneg h.gateSlope_pos h.gateFixed_nonneg

theorem Physical.drainSlope_nonneg (h : w.Physical) : 0 ≤ w.drainSlope := by
  have hjunction := mul_nonneg h.contactWidth_pos.le h.capJunction_nonneg
  exact mul_nonneg (add_nonneg (add_nonneg hjunction h.capSidewall_nonneg)
    h.capDrainToChannel_nonneg) h.minWidth_pos.le

theorem Physical.drainFixed_nonneg (h : w.Physical) : 0 ≤ w.drainFixed :=
  mul_nonneg (by norm_num) (mul_nonneg h.contactWidth_pos.le h.capSidewall_nonneg)

theorem Physical.outputRes_pos (h : w.Physical) : 0 < w.outputRes 1 := by
  have hvolt := mul_pos h.resistance_pos h.vdd_pos
  exact add_pos (div_pos hvolt (mul_pos h.currentOnNmos_pos (h.nmosSize_pos one_pos)))
    (div_pos hvolt (mul_pos h.currentOnPmos_pos (h.pmosSize_pos one_pos)))

/-- A smaller repeater is not folded either. -/
theorem Unfolded.mono (h : w.Physical) {small : K} (hle : small ≤ repeaterSize)
    (hroom : w.Unfolded repeaterSize) : w.Unfolded small := by
  have hn := mul_le_mul_of_nonneg_left hle (h.nmosSize_pos one_pos).le
  have hp := mul_le_mul_of_nonneg_left hle (h.pmosSize_pos one_pos).le
  rw [← nmosSize_eq, ← nmosSize_eq] at hn
  rw [← pmosSize_eq, ← pmosSize_eq] at hp
  exact ⟨hn.trans_lt hroom.1, hp.trans_lt hroom.2⟩

end

theorem drainCapNoLimit_of_lt {width : K} (hwidth : 0 < width) (hlt : width < 1) (type : MosType) :
    w.drainCapNoLimit width type = w.tech.drainCap width :=
  Option.get_of_eq_some _ (GateTech.CalculateDrainCap_of_lt hwidth hlt type)

variable [IsStrictOrderedRing K]

theorem outputCap_eq (h : w.Physical) (hsize : 0 < repeaterSize)
    (hroom : w.Unfolded repeaterSize) :
    w.outputCap repeaterSize = w.drainSlope * repeaterSize + w.drainFixed := by
  rw [outputCap, drainCapNoLimit_of_lt (h.nmosSize_pos hsize) hroom.1,
    drainCapNoLimit_of_lt (h.pmosSize_pos hsize) hroom.2]
  simp only [GateTech.drainCap, drainSlope, drainFixed, minWidth]
  rw [nmosSize_eq, pmosSize_eq]
  ring

theorem Physical.outputCap_nonneg (h : w.Physical) (hmin : w.Unfolded 1) : 0 ≤ w.outputCap 1 := by
  rw [outputCap_eq h one_pos hmin, mul_one]
  exact add_nonneg h.drainSlope_nonneg h.drainFixed_nonneg

end UnitWire

end Destiny
