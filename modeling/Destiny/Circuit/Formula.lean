/-
  Destiny.Circuit.Formula

  The gate models of formula.cpp.

  A gate is drawn in a region of a given height.  `maxWidths` shares that height
  between the two kinds of transistor; one that does not fit is folded into
  fingers.  `CalculateGateArea` and `CalculateGateCapacitance` repeat each other
  here, but only the second gives up when there is no room for a finger
  (`exit(-1)`, here `none`).  `gate_folding` says when the transistors of a gate
  are folded, into how many fingers, and when the second function gives up.
-/

import Destiny.Bank.TSVPower
import Destiny.Lib.Literals
import Mathlib.Algebra.Order.Floor.Ring
import Mathlib.Data.Rat.Cast.OfScientific
import Mathlib.Tactic.FieldSimp
import Mathlib.Tactic.Linarith

namespace Destiny

open Lib

/-! ## Constants -/

section
variable (K : Type) [Field K]

def MIN_NMOS_SIZE : K := 1.5

def MIN_GAP_BET_P_AND_N_DIFFS : K := 2

def MIN_GAP_BET_POLY : K := 1.5

def MIN_GAP_BET_CONTACT_POLY : K := 0.75

def CONTACT_SIZE : K := 1

def MIN_WIDTH_POWER_RAIL : K := 2

def AVG_RATIO_LEAK_2INPUT_NAND : K := 0.48

def AVG_RATIO_LEAK_3INPUT_NAND : K := 0.31

def AVG_RATIO_LEAK_2INPUT_NOR : K := 0.95

def AVG_RATIO_LEAK_3INPUT_NOR : K := 0.62

end

inductive GateType
  | INV | NOR | NAND
  deriving DecidableEq, Repr

/-- The fields of `Technology` that the gate models read; the currents are tables
    by the degrees above 300K. -/
structure GateTech (K : Type) where
  featureSize : K
  vdd : K
  phyGateLength : K
  capIdealGate : K
  capFringe : K
  capJunction : K
  capOverlap : K
  capSidewall : K
  capDrainToChannel : K
  capPolywire : K
  pnSizeRatio : K
  effectiveResistanceMultiplier : K
  currentOnNmos : Fin 101 → K
  currentOnPmos : Fin 101 → K
  currentOffNmos : Fin 101 → K
  currentOffPmos : Fin 101 → K

variable {K : Type} [Field K]

namespace GateTech

variable (tech : GateTech K)

def CalculateGateCap (width : K) : K :=
  (tech.capIdealGate + tech.capOverlap + 3 * tech.capFringe) * width +
    tech.phyGateLength * tech.capPolywire

def CalculateOnResistance (width : K) (type : MosType) (tempIndex : Fin 101) : K :=
  match type with
  | .NMOS => tech.effectiveResistanceMultiplier * tech.vdd / (tech.currentOnNmos tempIndex * width)
  | .PMOS => tech.effectiveResistanceMultiplier * tech.vdd / (tech.currentOnPmos tempIndex * width)

/-- `F * (CONTACT_SIZE + MIN_GAP_BET_CONTACT_POLY * 2)` -/
def contactWidth : K := tech.featureSize * (CONTACT_SIZE K + MIN_GAP_BET_CONTACT_POLY K * 2)

variable [LinearOrder K]

def CalculateGateLeakage (gateType : GateType) (numInput : ℕ) (widthNMOS widthPMOS : K)
    (tempIndex : Fin 101) : K :=
  match gateType with
  | .INV =>
    max (widthNMOS * tech.currentOffNmos tempIndex) (widthPMOS * tech.currentOffPmos tempIndex)
  | .NOR =>
    let leakageN := widthNMOS * tech.currentOffNmos tempIndex * numInput
    (if numInput = 2 then AVG_RATIO_LEAK_2INPUT_NOR K else AVG_RATIO_LEAK_3INPUT_NOR K) * leakageN
  | .NAND =>
    let leakageP := widthPMOS * tech.currentOffPmos tempIndex * numInput
    (if numInput = 2 then AVG_RATIO_LEAK_2INPUT_NAND K else AVG_RATIO_LEAK_3INPUT_NAND K) * leakageP

/-! ## Folding -/

/-- The widths of PMOS and NMOS from which they are folded. -/
def maxWidths (widthNMOS widthPMOS heightTransistorRegion : K) : K × K :=
  let ratio := widthPMOS / (widthPMOS + widthNMOS)
  if ratio = 0 then (0, heightTransistorRegion)
  else if ratio = 1 then (heightTransistorRegion, 0)
  else
    let maxWidthPMOS :=
      ratio * (heightTransistorRegion - MIN_GAP_BET_P_AND_N_DIFFS K * tech.featureSize)
    (maxWidthPMOS, maxWidthPMOS / ratio * (1 - ratio))

variable [FloorRing K]

/-- 3F for folding overhead. -/
def numFolded (width maxWidth : K) : ℤ := ⌈width / (maxWidth - 3 * tech.featureSize)⌉

/-- The width of one transistor in its region, and the height of the region. -/
def region (width maxWidth : K) : K × K :=
  if 0 < width then
    if width < maxWidth then (tech.featureSize, width)
    else
      let n := tech.numFolded width maxWidth
      (n * tech.featureSize + (n - 1) * tech.featureSize * MIN_GAP_BET_POLY K, maxWidth)
  else (0, 0)

/-- The regions of transistors in series. -/
def seriesRegion (numInput : ℕ) (unitWidthRegion : K) : K :=
  2 * tech.contactWidth + unitWidthRegion * numInput +
    (numInput - 1) * tech.featureSize * MIN_GAP_BET_POLY K

/-- The regions of transistors in parallel. -/
def parallelRegion (numInput : ℕ) (unitWidthRegion : K) : K :=
  2 * tech.contactWidth + unitWidthRegion * numInput + (numInput - 1) * tech.contactWidth

/-- The width of the PMOS and the NMOS region. -/
def widthRegions (gateType : GateType) (numInput : ℕ) (unitWidthRegionP unitWidthRegionN : K) :
    K × K :=
  match gateType with
  | .INV => (2 * tech.contactWidth + unitWidthRegionP, 2 * tech.contactWidth + unitWidthRegionN)
  | .NOR =>
    (tech.seriesRegion numInput unitWidthRegionP, tech.parallelRegion numInput unitWidthRegionN)
  | .NAND =>
    (tech.parallelRegion numInput unitWidthRegionP, tech.seriesRegion numInput unitWidthRegionN)

/-- The height and the width of a gate; its area is their product. -/
def CalculateGateArea (gateType : GateType) (numInput : ℕ)
    (widthNMOS widthPMOS heightTransistorRegion : K) : K × K :=
  let max' := tech.maxWidths widthNMOS widthPMOS heightTransistorRegion
  let regionP := tech.region widthPMOS max'.1
  let regionN := tech.region widthNMOS max'.2
  let widths := tech.widthRegions gateType numInput regionP.1 regionN.1
  let height :=
    if 0 < widthPMOS ∧ 0 < widthNMOS then
      -- it is a gate
      regionN.2 + regionP.2 + tech.featureSize * MIN_GAP_BET_P_AND_N_DIFFS K +
        2 * tech.featureSize * MIN_WIDTH_POWER_RAIL K
    else regionN.2 + regionP.2
  (height, max widths.2 widths.1)

/-! ## Capacitances -/

end GateTech

/-- The drains of one kind of transistor. -/
structure Drain (K : Type) where
  numFolded : ℤ
  unitWidthDrain : K
  heightDrain : K

namespace GateTech

variable (tech : GateTech K) [LinearOrder K] [FloorRing K]

def drain (width maxWidth : K) : Option (Drain K) :=
  if 0 < width then
    if width < maxWidth then some ⟨1, 0, width⟩
    else if maxWidth < 3 * tech.featureSize then none
    else
      let n := tech.numFolded width maxWidth
      some ⟨n, (n - 1) * tech.featureSize * MIN_GAP_BET_POLY K, maxWidth⟩
  else some ⟨1, 0, 0⟩

/-- The drain of transistors in series, the worst case. -/
def seriesDrain (numInput : ℕ) (unitWidthDrain : K) : K :=
  tech.contactWidth + unitWidthDrain * numInput +
    (numInput - 1) * tech.featureSize * MIN_GAP_BET_POLY K

/-- The drains of transistors in parallel. -/
def parallelDrain (numInput : ℕ) (unitWidthDrain : K) : K :=
  (tech.contactWidth + unitWidthDrain) * numInput

/-- The width of the PMOS and the NMOS drains. -/
def widthDrains (gateType : GateType) (numInput : ℕ) (widthNMOS widthPMOS : K)
    (unitWidthDrainP unitWidthDrainN : K) : K × K :=
  let widths :=
    match gateType with
    | .INV => (tech.contactWidth + unitWidthDrainP, tech.contactWidth + unitWidthDrainN)
    | .NOR =>
        (tech.seriesDrain numInput unitWidthDrainP, tech.parallelDrain numInput unitWidthDrainN)
    | .NAND =>
        (tech.parallelDrain numInput unitWidthDrainP, tech.seriesDrain numInput unitWidthDrainN)
  (if 0 < widthPMOS then widths.1 else 0, if 0 < widthNMOS then widths.2 else 0)

/-- Junction, sidewall and drain to channel capacitance of a drain.  Two fingers
    share the sidewall between them. -/
def capDrain (widthDrain : K) (d : Drain K) : K :=
  let capDrainBottom := widthDrain * d.heightDrain * tech.capJunction
  let capDrainSidewall :=
    if d.numFolded % 2 = 0 then 2 * widthDrain * tech.capSidewall
    else (2 * widthDrain + d.heightDrain) * tech.capSidewall
  let capDrainToChannel := d.numFolded * d.heightDrain * tech.capDrainToChannel
  capDrainBottom + capDrainSidewall + capDrainToChannel

/-- The input and the output capacitance. -/
def CalculateGateCapacitance (gateType : GateType) (numInput : ℕ)
    (widthNMOS widthPMOS heightTransistorRegion : K) : Option (K × K) := do
  let max' := tech.maxWidths widthNMOS widthPMOS heightTransistorRegion
  let drainP ← tech.drain widthPMOS max'.1
  let drainN ← tech.drain widthNMOS max'.2
  let widths := tech.widthDrains gateType numInput widthNMOS widthPMOS drainP.unitWidthDrain
    drainN.unitWidthDrain
  return (tech.CalculateGateCap widthNMOS + tech.CalculateGateCap widthPMOS,
    tech.capDrain widths.2 drainN + tech.capDrain widths.1 drainP)

/-- The output capacitance of an inverter with one transistor. -/
def CalculateDrainCap (width : K) (type : MosType) (heightTransistorRegion : K) : Option K :=
  match type with
  | .NMOS => (tech.CalculateGateCapacitance .INV 1 width 0 heightTransistorRegion).map Prod.snd
  | .PMOS => (tech.CalculateGateCapacitance .INV 1 0 width heightTransistorRegion).map Prod.snd

/-! ## Two functions, one layout -/

variable {tech} {widthNMOS widthPMOS heightTransistorRegion : K}

/-- The area and the capacitance of a transistor are those of one layout: the same
    fingers, of the same height. -/
theorem region_of_drain {width maxWidth : K} (hwidth : 0 < width) {d : Drain K}
    (hd : tech.drain width maxWidth = some d) :
    tech.region width maxWidth =
      (d.numFolded * tech.featureSize + d.unitWidthDrain, d.heightDrain) := by
  unfold drain at hd
  unfold region
  rw [if_pos hwidth] at hd ⊢
  split at hd
  · next hlt =>
    obtain rfl := Option.some.inj hd
    rw [if_pos hlt, Int.cast_one, one_mul, add_zero]
  · next hfold =>
    split at hd
    · cases hd
    · obtain rfl := Option.some.inj hd
      rw [if_neg hfold]

/-- A region is as high as its transistor is wide, up to the limit. -/
theorem region_height {width : K} (hwidth : 0 < width) (maxWidth : K) :
    (tech.region width maxWidth).2 = min width maxWidth := by
  unfold region
  rw [if_pos hwidth]
  split
  · next hlt => exact (min_eq_left hlt.le).symm
  · next hfold => exact (min_eq_right (not_lt.mp hfold)).symm

theorem drain_eq_none_iff {width : K} (hwidth : 0 < width) (maxWidth : K) :
    tech.drain width maxWidth = none ↔ maxWidth ≤ width ∧ maxWidth < 3 * tech.featureSize := by
  unfold drain
  rw [if_pos hwidth]
  split
  · next hlt => simp [not_le.mpr hlt]
  · next hfold =>
    split
    · next hroom => simp [not_lt.mp hfold, hroom]
    · next hroom => simp [hroom]

theorem CalculateGateCapacitance_eq_none_iff (gateType : GateType) (numInput : ℕ) :
    tech.CalculateGateCapacitance gateType numInput widthNMOS widthPMOS heightTransistorRegion =
        none ↔
      tech.drain widthPMOS (tech.maxWidths widthNMOS widthPMOS heightTransistorRegion).1 = none ∨
      tech.drain widthNMOS (tech.maxWidths widthNMOS widthPMOS heightTransistorRegion).2 =
        none := by
  generalize hmax : tech.maxWidths widthNMOS widthPMOS heightTransistorRegion = maxWidth
  cases hdrainP : tech.drain widthPMOS maxWidth.1 with
  | none => simp [CalculateGateCapacitance, hmax, hdrainP]
  | some drainP =>
    cases hdrainN : tech.drain widthNMOS maxWidth.2 with
    | none => simp [CalculateGateCapacitance, hmax, hdrainP, hdrainN]
    | some drainN => simp [CalculateGateCapacitance, hmax, hdrainP, hdrainN]

/-! ## Single transistors -/

omit [FloorRing K] in
theorem maxWidths_of_nmos (tech : GateTech K) (width height : K) :
    tech.maxWidths width 0 height = (0, height) := by
  rw [maxWidths, zero_div]
  exact if_pos rfl

omit [FloorRing K] in
theorem maxWidths_of_pmos (tech : GateTech K) {width : K} (hwidth : 0 < width) (height : K) :
    tech.maxWidths 0 width height = (height, 0) := by
  rw [maxWidths, add_zero, div_self hwidth.ne']
  exact (if_neg one_ne_zero).trans (if_pos rfl)

/-- The drain of a transistor that is not folded, by its width. -/
def drainCap (tech : GateTech K) (width : K) : K :=
  (tech.contactWidth * tech.capJunction + tech.capSidewall + tech.capDrainToChannel) * width +
    2 * tech.contactWidth * tech.capSidewall

/-- Below the limit the drain capacitance is linear in the width. -/
theorem CalculateDrainCap_of_lt {width height : K} (hwidth : 0 < width) (hlt : width < height)
    (type : MosType) : tech.CalculateDrainCap width type height = some (tech.drainCap width) := by
  have hdrain : tech.drain width height = some ⟨1, 0, width⟩ := by
    rw [drain, if_pos hwidth, if_pos hlt]
  have hnone (maxWidth : K) : tech.drain 0 maxWidth = some ⟨1, 0, 0⟩ := if_neg (lt_irrefl 0)
  cases type with
  | NMOS =>
    simp only [CalculateDrainCap, CalculateGateCapacitance, maxWidths_of_nmos, hdrain, hnone]
    simp [widthDrains, capDrain, drainCap, hwidth]
    ring
  | PMOS =>
    simp only [CalculateDrainCap, CalculateGateCapacitance, maxWidths_of_pmos tech hwidth, hdrain,
      hnone]
    simp [widthDrains, capDrain, drainCap, hwidth]
    ring

theorem drain_isSome {width maxWidth : K} (hroom : 0 < width → 3 * tech.featureSize ≤ maxWidth) :
    (tech.drain width maxWidth).isSome := by
  rcases lt_or_ge 0 width with hwidth | hwidth
  · rw [Option.isSome_iff_ne_none, Ne, drain_eq_none_iff hwidth]
    exact fun h => absurd h.2 (not_lt.mpr (hroom hwidth))
  · rw [drain, if_neg (not_lt.mpr hwidth)]
    rfl

/-- With room for a finger a single transistor can always be folded. -/
theorem CalculateDrainCap_isSome {height : K} (hroom : 3 * tech.featureSize ≤ height) (width : K)
    (type : MosType) : (tech.CalculateDrainCap width type height).isSome := by
  have hsome (wN wP : K) (hP : 0 < wP → 3 * tech.featureSize ≤ (tech.maxWidths wN wP height).1)
      (hN : 0 < wN → 3 * tech.featureSize ≤ (tech.maxWidths wN wP height).2) :
      (tech.CalculateGateCapacitance .INV 1 wN wP height).isSome := by
    rw [Option.isSome_iff_ne_none, Ne, CalculateGateCapacitance_eq_none_iff, not_or, ← Ne, ← Ne,
      ← Option.isSome_iff_ne_none, ← Option.isSome_iff_ne_none]
    exact ⟨drain_isSome hP, drain_isSome hN⟩
  cases type with
  | NMOS =>
    rw [CalculateDrainCap, Option.isSome_map]
    refine hsome width 0 (fun h => absurd h (lt_irrefl 0)) fun _ => ?_
    rwa [maxWidths_of_nmos]
  | PMOS =>
    rw [CalculateDrainCap, Option.isSome_map]
    refine hsome 0 width (fun h => ?_) fun h => absurd h (lt_irrefl 0)
    rwa [maxWidths_of_pmos tech h]

/-! ## Gates -/

/-- What is left of a region when the gap between the diffusions is taken away. -/
def diffusionHeight (tech : GateTech K) (heightTransistorRegion : K) : K :=
  heightTransistorRegion - MIN_GAP_BET_P_AND_N_DIFFS K * tech.featureSize

variable [IsStrictOrderedRing K]

omit [FloorRing K] in
/-- The two transistors of a gate share the height in proportion to their widths. -/
theorem maxWidths_of_gate (hN : 0 < widthNMOS) (hP : 0 < widthPMOS) :
    tech.maxWidths widthNMOS widthPMOS heightTransistorRegion =
      (widthPMOS / (widthPMOS + widthNMOS) * tech.diffusionHeight heightTransistorRegion,
        widthNMOS / (widthPMOS + widthNMOS) * tech.diffusionHeight heightTransistorRegion) := by
  have hsum : widthPMOS + widthNMOS ≠ 0 := (add_pos hP hN).ne'
  have hzero : widthPMOS / (widthPMOS + widthNMOS) ≠ 0 := (div_pos hP (add_pos hP hN)).ne'
  have hone : widthPMOS / (widthPMOS + widthNMOS) ≠ 1 := by
    rw [Ne, div_eq_one_iff_eq hsum]
    linarith
  rw [maxWidths]
  simp only [if_neg hzero, if_neg hone, diffusionHeight, Prod.mk.injEq, true_and]
  rw [mul_div_cancel_left₀ _ hzero]
  field_simp
  ring

omit [FloorRing K] in
theorem share_le_iff {width sum height : K} (hwidth : 0 < width) (hsum : 0 < sum) :
    width / sum * height ≤ width ↔ height ≤ sum := by
  rw [div_mul_eq_mul_div, div_le_iff₀ hsum, mul_le_mul_iff_right₀ hwidth]

omit [FloorRing K] in
theorem share_lt_iff {width sum height bound : K} (hsum : 0 < sum) :
    width / sum * height < bound ↔ width * height < bound * sum := by
  rw [div_mul_eq_mul_div, div_lt_iff₀ hsum]

omit [FloorRing K] in
theorem lt_share_iff {width sum height bound : K} (hsum : 0 < sum) :
    bound < width / sum * height ↔ bound * sum < width * height := by
  rw [div_mul_eq_mul_div, lt_div_iff₀ hsum]

omit [FloorRing K] in
/-- Cut off at their shares, two widths add up to their sum cut off at the whole. -/
theorem min_add_min_of_shares {a b height : K} (ha : 0 < a) (hb : 0 < b) :
    min a (a / (a + b) * height) + min b (b / (a + b) * height) = min (a + b) height := by
  have hsum : 0 < a + b := add_pos ha hb
  by_cases hfold : height ≤ a + b
  · rw [min_eq_right ((share_le_iff ha hsum).mpr hfold),
      min_eq_right ((share_le_iff hb hsum).mpr hfold), min_eq_right hfold, ← add_mul, ← add_div,
      div_self hsum.ne', one_mul]
  · have ha' : ¬ a / (a + b) * height ≤ a := (share_le_iff ha hsum).not.mpr hfold
    have hb' : ¬ b / (a + b) * height ≤ b := (share_le_iff hb hsum).not.mpr hfold
    rw [min_eq_left (not_le.mp ha').le, min_eq_left (not_le.mp hb').le,
      min_eq_left (not_le.mp hfold).le]

/-- The least number of fingers that hold the width, with 3F of each for the
    folding. -/
theorem isLeast_numFolded {width maxWidth : K} (hroom : 3 * tech.featureSize < maxWidth) :
    IsLeast {n : ℤ | width ≤ n * (maxWidth - 3 * tech.featureSize)}
      (tech.numFolded width maxWidth) := by
  have hpos : 0 < maxWidth - 3 * tech.featureSize := sub_pos.mpr hroom
  constructor
  · exact (div_le_iff₀ hpos).mp (Int.le_ceil _)
  · intro n hn
    exact Int.ceil_le.mpr ((div_le_iff₀ hpos).mpr hn)

/-- Folding takes two fingers at least. -/
theorem two_le_numFolded {width maxWidth : K} (hF : 0 < tech.featureSize)
    (hroom : 3 * tech.featureSize < maxWidth) (hfold : maxWidth ≤ width) :
    2 ≤ tech.numFolded width maxWidth := by
  have hpos : 0 < maxWidth - 3 * tech.featureSize := sub_pos.mpr hroom
  have hone : ((1 : ℤ) : K) < width / (maxWidth - 3 * tech.featureSize) := by
    rw [Int.cast_one, one_lt_div hpos]
    linarith
  have hlt : 1 < tech.numFolded width maxWidth := Int.lt_ceil.mpr hone
  omega

/-- The height of a gate: its transistors side by side, cut off where they are
    folded, with the gap and two power rails. -/
theorem CalculateGateArea_height (tech : GateTech K) (gateType : GateType) (numInput : ℕ)
    (hN : 0 < widthNMOS) (hP : 0 < widthPMOS) (heightTransistorRegion : K) :
    (tech.CalculateGateArea gateType numInput widthNMOS widthPMOS heightTransistorRegion).1 =
      min (widthNMOS + widthPMOS) (tech.diffusionHeight heightTransistorRegion) +
        6 * tech.featureSize := by
  have harea : (tech.CalculateGateArea gateType numInput widthNMOS widthPMOS
      heightTransistorRegion).1 = (tech.region widthNMOS _).2 + (tech.region widthPMOS _).2 +
        tech.featureSize * MIN_GAP_BET_P_AND_N_DIFFS K +
          2 * tech.featureSize * MIN_WIDTH_POWER_RAIL K := if_pos ⟨hP, hN⟩
  rw [harea, region_height hN, region_height hP, maxWidths_of_gate hN hP, add_comm widthPMOS,
    min_add_min_of_shares hN hP]
  unfold MIN_GAP_BET_P_AND_N_DIFFS MIN_WIDTH_POWER_RAIL
  ring

/-- The width of an inverter whose transistors fit: two contacts and a gate. -/
theorem CalculateGateArea_inv_width (tech : GateTech K) (hN : 0 < widthNMOS) (hP : 0 < widthPMOS)
    (hfits : widthNMOS + widthPMOS < tech.diffusionHeight heightTransistorRegion) :
    (tech.CalculateGateArea .INV 1 widthNMOS widthPMOS heightTransistorRegion).2 =
      6 * tech.featureSize := by
  have hsum : 0 < widthPMOS + widthNMOS := add_pos hP hN
  have hfold := not_le.mpr hfits
  rw [add_comm] at hfold
  have hregionP : tech.region widthPMOS
      (tech.maxWidths widthNMOS widthPMOS heightTransistorRegion).1 =
        (tech.featureSize, widthPMOS) := by
    rw [maxWidths_of_gate hN hP, region, if_pos hP,
      if_pos (not_le.mp ((share_le_iff hP hsum).not.mpr hfold))]
  have hregionN : tech.region widthNMOS
      (tech.maxWidths widthNMOS widthPMOS heightTransistorRegion).2 =
        (tech.featureSize, widthNMOS) := by
    rw [maxWidths_of_gate hN hP, region, if_pos hN,
      if_pos (not_le.mp ((share_le_iff hN hsum).not.mpr hfold))]
  simp only [CalculateGateArea, hregionP, hregionN, widthRegions, max_self]
  unfold contactWidth CONTACT_SIZE MIN_GAP_BET_CONTACT_POLY
  ring

/-- A gate with both kinds of transistor in a region of a given height. -/
structure GateFolding (tech : GateTech K) (gateType : GateType) (numInput : ℕ)
    (widthNMOS widthPMOS heightTransistorRegion : K) : Prop where
  /-- both kinds are folded, or neither -/
  together : let maxWidth := tech.maxWidths widthNMOS widthPMOS heightTransistorRegion
    let folded := tech.diffusionHeight heightTransistorRegion ≤ widthNMOS + widthPMOS
    (maxWidth.1 ≤ widthPMOS ↔ folded) ∧ (maxWidth.2 ≤ widthNMOS ↔ folded)
  /-- folding bounds the height, and wastes none of it -/
  height : (tech.CalculateGateArea gateType numInput widthNMOS widthPMOS heightTransistorRegion).1 =
    min (widthNMOS + widthPMOS) (tech.diffusionHeight heightTransistorRegion) +
      6 * tech.featureSize
  /-- the capacitance gives up when a folded transistor has no room for a finger -/
  gives_up : tech.CalculateGateCapacitance gateType numInput widthNMOS widthPMOS
      heightTransistorRegion = none ↔
    tech.diffusionHeight heightTransistorRegion ≤ widthNMOS + widthPMOS ∧
      min widthNMOS widthPMOS * tech.diffusionHeight heightTransistorRegion <
        3 * tech.featureSize * (widthNMOS + widthPMOS)
  /-- where it does not, the fingers are as few as hold the width, two at least -/
  fingers : tech.diffusionHeight heightTransistorRegion ≤ widthNMOS + widthPMOS →
    3 * tech.featureSize * (widthNMOS + widthPMOS) <
      min widthNMOS widthPMOS * tech.diffusionHeight heightTransistorRegion →
    let maxWidth := tech.maxWidths widthNMOS widthPMOS heightTransistorRegion
    (IsLeast {n : ℤ | widthPMOS ≤ n * (maxWidth.1 - 3 * tech.featureSize)}
        (tech.numFolded widthPMOS maxWidth.1) ∧
      IsLeast {n : ℤ | widthNMOS ≤ n * (maxWidth.2 - 3 * tech.featureSize)}
        (tech.numFolded widthNMOS maxWidth.2)) ∧
    2 ≤ tech.numFolded widthPMOS maxWidth.1 ∧ 2 ≤ tech.numFolded widthNMOS maxWidth.2

omit [FloorRing K] in
theorem min_mul_lt_iff {a b height bound : K} (ha : 0 < a) (hb : 0 < b) (hbound : 0 < bound) :
    min a b * height < bound ↔ a * height < bound ∨ b * height < bound := by
  rcases le_or_gt 0 height with hheight | hheight
  · rw [min_mul_of_nonneg _ _ hheight, min_lt_iff]
  · have hmin : min a b * height < bound :=
      (mul_neg_of_pos_of_neg (lt_min ha hb) hheight).trans hbound
    exact iff_of_true hmin (Or.inl ((mul_neg_of_pos_of_neg ha hheight).trans hbound))

omit [FloorRing K] in
theorem lt_min_mul {a b height bound : K} (ha : 0 < a) (hb : 0 < b) (hbound : 0 < bound)
    (h : bound < min a b * height) : bound < a * height ∧ bound < b * height := by
  have hheight : 0 < height := pos_of_mul_pos_right (hbound.trans h) (lt_min ha hb).le
  exact ⟨h.trans_le (mul_le_mul_of_nonneg_right (min_le_left a b) hheight.le),
    h.trans_le (mul_le_mul_of_nonneg_right (min_le_right a b) hheight.le)⟩

/-- How a gate is folded, in whatever region. -/
theorem gate_folding (tech : GateTech K) (hF : 0 < tech.featureSize) (gateType : GateType)
    (numInput : ℕ) (hN : 0 < widthNMOS) (hP : 0 < widthPMOS) (heightTransistorRegion : K) :
    tech.GateFolding gateType numInput widthNMOS widthPMOS heightTransistorRegion := by
  have hsum : 0 < widthNMOS + widthPMOS := add_pos hN hP
  have hbound : 0 < 3 * tech.featureSize * (widthNMOS + widthPMOS) := by positivity
  have hmax : tech.maxWidths widthNMOS widthPMOS heightTransistorRegion =
      (widthPMOS / (widthNMOS + widthPMOS) * tech.diffusionHeight heightTransistorRegion,
        widthNMOS / (widthNMOS + widthPMOS) * tech.diffusionHeight heightTransistorRegion) := by
    rw [maxWidths_of_gate hN hP, add_comm widthPMOS]
  constructor
  case together =>
    rw [hmax]
    exact ⟨share_le_iff hP hsum, share_le_iff hN hsum⟩
  case height =>
    exact CalculateGateArea_height tech gateType numInput hN hP heightTransistorRegion
  case gives_up =>
    rw [CalculateGateCapacitance_eq_none_iff, drain_eq_none_iff hP, drain_eq_none_iff hN, hmax,
      share_le_iff hP hsum, share_le_iff hN hsum, share_lt_iff hsum, share_lt_iff hsum,
      ← and_or_left, or_comm, ← min_mul_lt_iff hN hP hbound]
  case fingers =>
    intro hfold hroom
    obtain ⟨hroomN, hroomP⟩ := lt_min_mul hN hP hbound hroom
    rw [hmax]
    have hP' := (lt_share_iff hsum).mpr hroomP
    have hN' := (lt_share_iff hsum).mpr hroomN
    exact ⟨⟨isLeast_numFolded hP', isLeast_numFolded hN'⟩,
      two_le_numFolded hF hP' ((share_le_iff hP hsum).mpr hfold),
      two_le_numFolded hF hN' ((share_le_iff hN hsum).mpr hfold)⟩

/-- A technology in units of its feature size. -/
def unit : GateTech ℚ where
  featureSize := 1
  vdd := 1
  phyGateLength := 1
  capIdealGate := 1
  capFringe := 1
  capJunction := 1
  capOverlap := 1
  capSidewall := 1
  capDrainToChannel := 1
  capPolywire := 0
  pnSizeRatio := 2
  effectiveResistanceMultiplier := 1
  currentOnNmos := fun _ => 1
  currentOnPmos := fun _ => 1
  currentOffNmos := fun _ => 1
  currentOffPmos := fun _ => 1

/-- An inverter that is folded: 90F of transistors in a region of 40F. -/
theorem gate_folding_inverter : unit.GateFolding .INV 1 30 60 40 :=
  gate_folding unit (by norm_num [unit]) .INV 1 (by norm_num) (by norm_num) 40

end GateTech

end Destiny
