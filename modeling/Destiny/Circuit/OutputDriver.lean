/-
  Destiny.Circuit.OutputDriver

  `OutputDriver::Initialize`: the chain of inverters that drives a load.

  The number of stages is a rounded logarithm of the effort, made odd or even so
  that the chain flips its input, and cut off at the size of the arrays of widths.
  The widths are set from the last stage back to the first:

    * `latencyFirst` counts the stages, and writes below their number;
    * `latencyAreaTradeOff` counts the stages but one, and writes at their number;
    * `areaFirst` is a single inverter.

  The first of them hands over to the second when its last inverter is too small
  for the current.
-/

import Destiny.Lib.Literals
import Destiny.Lib.TracedArray
import Destiny.Typedef
import Mathlib.Analysis.SpecialFunctions.Pow.Real
import Mathlib.Data.Rat.Cast.OfScientific
import Mathlib.Order.Defs.LinearOrder

namespace Destiny

open Lib

variable {K : Type}

def MAX_INV_CHAIN_LEN : ℕ := 20

/-- The technology a driver is built in, at the temperature of the run. -/
structure DriverTech (K : Type) where
  currentOnNmos : K
  featureSize : K
  pnSizeRatio : K
  maxNmosSize : K
  /-- capacitance of a gate by its width -/
  CalculateGateCap : K → K
  pow : K → K → K
  /-- `(int)(log(F) / log(OPT_F) + 0.5)` -/
  roundedLog : K → ℤ

structure OutputDriver (K : Type) where
  initialized : Bool
  invalid : Bool
  logicEffort : K
  inputCap : K
  outputCap : K
  outputRes : K
  /-- whether the chain flips its input -/
  inv : Bool
  numStage : ℤ
  areaOptimizationLevel : BufferDesignTarget
  minDriverCurrent : K
  widthNMOS : TracedArray K
  widthPMOS : TracedArray K

/-! ## Counting stages -/

def clampStages (optimalNumStage : ℤ) : ℤ :=
  if MAX_INV_CHAIN_LEN < optimalNumStage then MAX_INV_CHAIN_LEN else optimalNumStage

/-- The rounded stages of an effort. -/
def optimalStages (tech : DriverTech K) (F : K) : ℤ := max 0 (tech.roundedLog F - 1)

/-- `latency_first`: one more stage if the chain would not flip. -/
def latencyStages (tech : DriverTech K) (inv : Bool) (F : K) : ℤ :=
  let optimalNumStage := optimalStages tech F
  clampStages (if (optimalNumStage % 2 != 0) ^^ inv then optimalNumStage + 1 else optimalNumStage)

/-- `latency_area_trade_off`: the test is the opposite one, for the last inverter
    is not counted. -/
def tradeOffStages (tech : DriverTech K) (inv : Bool) (F : K) : ℤ :=
  let optimalNumStage := optimalStages tech F
  clampStages
    (if !((optimalNumStage % 2 != 0) ^^ inv) then optimalNumStage + 1 else optimalNumStage)

theorem clampStages_eq (n : ℤ) : clampStages n = min n MAX_INV_CHAIN_LEN := by
  unfold clampStages
  split <;> omega

/-- The test of `latency_first` with `inv` set. -/
theorem odd_xor_inv_iff (n : ℤ) : ((n % 2 != 0) ^^ true) = true ↔ n % 2 = 0 := by
  rw [Bool.xor_true, Bool.not_eq_true', bne_eq_false_iff_eq]

/-- With `inv` set the first test is for an even number. -/
theorem latencyStages_eq (tech : DriverTech K) (F : K) : latencyStages tech true F =
    min (if optimalStages tech F % 2 = 0 then optimalStages tech F + 1 else optimalStages tech F)
      MAX_INV_CHAIN_LEN := by
  have htest := odd_xor_inv_iff (optimalStages tech F)
  rw [latencyStages, clampStages_eq]
  by_cases heven : optimalStages tech F % 2 = 0
  · rw [if_pos (htest.mpr heven), if_pos heven]
  · rw [if_neg fun h => heven (htest.mp h), if_neg heven]

theorem tradeOffStages_eq (tech : DriverTech K) (F : K) : tradeOffStages tech true F =
    min (if optimalStages tech F % 2 = 0 then optimalStages tech F else optimalStages tech F + 1)
      MAX_INV_CHAIN_LEN := by
  have htest : (!((optimalStages tech F % 2 != 0) ^^ true)) = true ↔
      ¬ optimalStages tech F % 2 = 0 := by
    rw [Bool.not_eq_true', ← Bool.not_eq_true, odd_xor_inv_iff]
  rw [tradeOffStages, clampStages_eq]
  by_cases heven : optimalStages tech F % 2 = 0
  · rw [if_neg fun h => htest.mp h heven, if_pos heven]
  · rw [if_pos (htest.mpr heven), if_neg heven]

/-- The stages of `latency_first` are odd unless the clamp takes an odd one away. -/
theorem latencyStages_spec (tech : DriverTech K) (F : K) {inv : Bool} (hinv : inv = true) :
    1 ≤ latencyStages tech inv F ∧ latencyStages tech inv F ≤ MAX_INV_CHAIN_LEN ∧
      (latencyStages tech inv F % 2 = 1 ↔ tech.roundedLog F ≤ MAX_INV_CHAIN_LEN) := by
  rw [hinv, latencyStages_eq]
  unfold optimalStages MAX_INV_CHAIN_LEN
  split <;> omega

/-- Those of `latency_area_trade_off` are even, and one less than the chain has. -/
theorem tradeOffStages_spec (tech : DriverTech K) (F : K) {inv : Bool} (hinv : inv = true) :
    0 ≤ tradeOffStages tech inv F ∧ tradeOffStages tech inv F ≤ MAX_INV_CHAIN_LEN ∧
      tradeOffStages tech inv F % 2 = 0 ∧
      (tradeOffStages tech inv F < MAX_INV_CHAIN_LEN ↔
        tech.roundedLog F < MAX_INV_CHAIN_LEN) := by
  rw [hinv, tradeOffStages_eq]
  unfold optimalStages MAX_INV_CHAIN_LEN
  split <;> omega

/-! ## Widths -/

variable [Field K] [LinearOrder K]

namespace DriverTech
variable (tech : DriverTech K)

/-- `MIN_NMOS_SIZE`, in metres. -/
def minWidth : K := 1.5 * tech.featureSize

def maxWidth : K := tech.maxNmosSize * tech.featureSize

end DriverTech

/-- `minNMOSDriverWidth`: the width that gives the current. -/
def minNMOSDriverWidth (tech : DriverTech K) (minDriverCurrent : K) : K :=
  max tech.minWidth (minDriverCurrent / tech.currentOnNmos)

namespace OutputDriver

/-! ## Sizing -/

/-- One round of the loops: an inverter from the one behind it. -/
def sizeStage (tech : DriverTech K) (f : K) (i : ℕ) (d : OutputDriver K) : OutputDriver K :=
  let width := d.widthNMOS.get (i + 1) / f
  let width := if width < tech.minWidth then tech.minWidth else width
  { d with
    widthNMOS := d.widthNMOS.set i width
    widthPMOS := d.widthPMOS.set i (width * tech.pnSizeRatio) }

/-- The effort of the load. -/
def latencyEffort (d : OutputDriver K) : K := max 1 (d.logicEffort * d.outputCap / d.inputCap)

/-- The width of the last inverter by the effort of a stage, before it is cut
    off. -/
def lastWidth (tech : DriverTech K) (d : OutputDriver K) (f : K) : K :=
  max tech.minWidth (d.outputCap / f / tech.CalculateGateCap 1 / (1 + tech.pnSizeRatio))

/-- `latency_first` up to the last inverter, with the effort of a stage in front of
    it. -/
def setLastInverter (tech : DriverTech K) (d : OutputDriver K) : OutputDriver K × K :=
  let F := d.latencyEffort
  let optimalNumStage := latencyStages tech d.inv F
  let f := tech.pow F (1 / (optimalNumStage + 1))
  let width := d.lastWidth tech f
  let d := { d with
    numStage := optimalNumStage, widthNMOS := d.widthNMOS.set (optimalNumStage - 1) width }
  if tech.maxWidth < width then
    -- cut off, and the logic effort is that of the largest inverter
    let capLastStage :=
      tech.CalculateGateCap ((1 + tech.pnSizeRatio) * tech.maxNmosSize * tech.featureSize)
    ({ d with widthNMOS := d.widthNMOS.set (optimalNumStage - 1) tech.maxWidth },
      tech.pow (d.logicEffort * capLastStage / d.inputCap) (1 / optimalNumStage))
  else (d, f)

/-- The branch for `latency_first`. -/
def latencyFirst (tech : DriverTech K) (d : OutputDriver K) (minNMOSDriverWidth : K) :
    OutputDriver K :=
  let (d, f) := d.setLastInverter tech
  let widthLast := d.widthNMOS.get (d.numStage - 1)
  if widthLast < minNMOSDriverWidth then
    { d with areaOptimizationLevel := .latency_area_trade_off }
  else
    countDown (sizeStage tech f) (d.numStage - 1).toNat
      { d with widthPMOS := d.widthPMOS.set (d.numStage - 1) (widthLast * tech.pnSizeRatio) }

/-- The effort of the inverter that gives the current. -/
def tradeOffEffort (tech : DriverTech K) (d : OutputDriver K) (minNMOSDriverWidth : K) : K :=
  let newOutputCap := tech.CalculateGateCap minNMOSDriverWidth * (1 + tech.pnSizeRatio)
  max 1 (d.logicEffort * newOutputCap / d.inputCap)

/-- The branch for `latency_area_trade_off`. -/
def latencyAreaTradeOff (tech : DriverTech K) (d : OutputDriver K) (minNMOSDriverWidth : K) :
    OutputDriver K :=
  let F := d.tradeOffEffort tech minNMOSDriverWidth
  let optimalNumStage := tradeOffStages tech d.inv F
  let f := tech.pow F (1 / (optimalNumStage + 1))
  countDown (sizeStage tech f) optimalNumStage.toNat
    { d with
      numStage := optimalNumStage + 1
      widthNMOS := d.widthNMOS.set optimalNumStage minNMOSDriverWidth
      widthPMOS := d.widthPMOS.set optimalNumStage (minNMOSDriverWidth * tech.pnSizeRatio) }

/-- The branch for `area_first`, with whether it goes on. -/
def areaFirst (tech : DriverTech K) (d : OutputDriver K) (minNMOSDriverWidth : K) :
    OutputDriver K × Bool :=
  let width := max tech.minWidth minNMOSDriverWidth
  let d := { d with numStage := 1, widthNMOS := d.widthNMOS.set 0 width }
  if tech.maxWidth < width then ({ d with invalid := true }, false)
  else ({ d with widthPMOS := d.widthPMOS.set 0 (width * tech.pnSizeRatio) }, true)

/-! ## Initialize -/

/-- The arguments of `Initialize` are stored; nothing is written to the widths yet. -/
def store (d : OutputDriver K) (logicEffort inputCap outputCap outputRes : K) (inv : Bool)
    (areaOptimizationLevel : BufferDesignTarget) (minDriverCurrent : K) : OutputDriver K :=
  { d with
    logicEffort, inputCap, outputCap, outputRes, inv, areaOptimizationLevel, minDriverCurrent
    widthNMOS := d.widthNMOS.restart
    widthPMOS := d.widthPMOS.restart }

/-- The buffer design style is restored at the end. -/
def finish (areaOptimizationLevel : BufferDesignTarget) (d : OutputDriver K) : OutputDriver K :=
  { d with areaOptimizationLevel, initialized := true }

def Initialize (tech : DriverTech K) (d : OutputDriver K)
    (logicEffort inputCap outputCap outputRes : K) (inv : Bool)
    (areaOptimizationLevel : BufferDesignTarget) (minDriverCurrent : K) : OutputDriver K :=
  let d := d.store logicEffort inputCap outputCap outputRes inv areaOptimizationLevel
    minDriverCurrent
  let minNMOSDriverWidth := minNMOSDriverWidth tech minDriverCurrent
  if tech.maxWidth < minNMOSDriverWidth then { d with invalid := true }
  else
    let d := if d.areaOptimizationLevel = .latency_first then
        d.latencyFirst tech minNMOSDriverWidth
      else d
    if d.areaOptimizationLevel = .latency_area_trade_off then
      finish areaOptimizationLevel (d.latencyAreaTradeOff tech minNMOSDriverWidth)
    else if d.areaOptimizationLevel = .area_first then
      let (d, goesOn) := d.areaFirst tech minNMOSDriverWidth
      if goesOn then finish areaOptimizationLevel d else d
    else finish areaOptimizationLevel d

/-! ## What sizing keeps -/

/-- A driver while its inverters are sized: only the widths change, and none of the
    writes leaves the arrays. -/
structure Sizes (d d' : OutputDriver K) : Prop where
  initialized : d'.initialized = d.initialized
  invalid : d'.invalid = d.invalid
  numStage : d'.numStage = d.numStage
  areaOptimizationLevel : d'.areaOptimizationLevel = d.areaOptimizationLevel
  nmos : d'.widthNMOS.InBounds MAX_INV_CHAIN_LEN ↔ d.widthNMOS.InBounds MAX_INV_CHAIN_LEN
  pmos : d'.widthPMOS.InBounds MAX_INV_CHAIN_LEN ↔ d.widthPMOS.InBounds MAX_INV_CHAIN_LEN

variable {tech : DriverTech K} {d d' : OutputDriver K} {f w : K}

omit [Field K] [LinearOrder K] in
theorem Sizes.refl (d : OutputDriver K) : Sizes d d := ⟨rfl, rfl, rfl, rfl, Iff.rfl, Iff.rfl⟩

theorem Sizes.sizeStage {i : ℕ} (h : Sizes d d') (hi : i < MAX_INV_CHAIN_LEN) :
    Sizes d (sizeStage tech f i d') := by
  have hin : (0 : ℤ) ≤ i ∧ (i : ℤ) < MAX_INV_CHAIN_LEN := by omega
  refine ⟨h.initialized, h.invalid, h.numStage, h.areaOptimizationLevel, ?_, ?_⟩
  · show (TracedArray.set _ _ _).InBounds _ ↔ _
    rw [TracedArray.inBounds_set, and_iff_right hin]
    exact h.nmos
  · show (TracedArray.set _ _ _).InBounds _ ↔ _
    rw [TracedArray.inBounds_set, and_iff_right hin]
    exact h.pmos

/-- The loops write below their first index. -/
theorem sizes_countDown (tech : DriverTech K) (f : K) (d : OutputDriver K) {n : ℕ}
    (hn : n ≤ MAX_INV_CHAIN_LEN) : Sizes d (countDown (OutputDriver.sizeStage tech f) n d) :=
  countDown_invariant (Sizes.refl d) fun i hi _ h => h.sizeStage (by omega)

/-! ## The branches -/

/-- No write of this call has left the arrays. -/
def WritesInBounds (d : OutputDriver K) : Prop :=
  d.widthNMOS.InBounds MAX_INV_CHAIN_LEN ∧ d.widthPMOS.InBounds MAX_INV_CHAIN_LEN

omit [Field K] [LinearOrder K] in
theorem Sizes.writesInBounds_iff (h : Sizes d d') : d'.WritesInBounds ↔ d.WritesInBounds :=
  and_congr h.nmos h.pmos

/-- The last inverter of `latency_first`, as wide as it may be. -/
def lastInverter (tech : DriverTech K) (d : OutputDriver K) : K :=
  let F := d.latencyEffort
  let f := tech.pow F (1 / (latencyStages tech d.inv F + 1))
  if tech.maxWidth < d.lastWidth tech f then tech.maxWidth else d.lastWidth tech f

theorem minWidth_le_lastInverter (h : tech.minWidth ≤ tech.maxWidth) :
    tech.minWidth ≤ d.lastInverter tech := by
  unfold lastInverter
  dsimp only
  split
  · exact h
  · exact le_max_left _ _

/-- The last inverter is set once or twice, at one index. -/
theorem setLastInverter_spec (tech : DriverTech K) (d : OutputDriver K) :
    ∃ widthNMOS : TracedArray K,
      (d.setLastInverter tech).1 =
        { d with numStage := latencyStages tech d.inv d.latencyEffort, widthNMOS := widthNMOS } ∧
      widthNMOS.get (latencyStages tech d.inv d.latencyEffort - 1) = d.lastInverter tech ∧
      (d.widthNMOS.InBounds MAX_INV_CHAIN_LEN → 1 ≤ latencyStages tech d.inv d.latencyEffort →
        latencyStages tech d.inv d.latencyEffort ≤ MAX_INV_CHAIN_LEN →
        widthNMOS.InBounds MAX_INV_CHAIN_LEN) := by
  unfold setLastInverter lastInverter
  dsimp only
  split
  · refine ⟨_, rfl, TracedArray.get_set_self, fun hd hlow hhigh => ?_⟩
    rw [TracedArray.inBounds_set, TracedArray.inBounds_set]
    exact ⟨by omega, by omega, hd⟩
  · refine ⟨_, rfl, TracedArray.get_set_self, fun hd hlow hhigh => ?_⟩
    rw [TracedArray.inBounds_set]
    exact ⟨by omega, hd⟩

/-- `latency_first` that hands over. -/
theorem latencyFirst_of_small (hinv : d.inv = true) (hd : d.WritesInBounds)
    (hsmall : d.lastInverter tech < w) : ∃ (n : ℤ) (widthNMOS : TracedArray K),
      d.latencyFirst tech w =
        { d with
          numStage := n
          widthNMOS := widthNMOS
          areaOptimizationLevel := .latency_area_trade_off } ∧
      widthNMOS.InBounds MAX_INV_CHAIN_LEN := by
  obtain ⟨widthNMOS, heq, hlast, hbounds⟩ := setLastInverter_spec tech d
  obtain ⟨hlow, hhigh, -⟩ := latencyStages_spec tech d.latencyEffort hinv
  refine ⟨latencyStages tech d.inv d.latencyEffort, widthNMOS, ?_, hbounds hd.1 hlow hhigh⟩
  rw [latencyFirst]
  dsimp only
  rw [heq, if_pos (by rwa [hlast])]

/-- `latency_first` that does not. -/
theorem latencyFirst_of_large (hinv : d.inv = true) (hd : d.WritesInBounds)
    (hlarge : ¬ d.lastInverter tech < w) :
    (d.latencyFirst tech w).numStage = latencyStages tech d.inv d.latencyEffort ∧
      (d.latencyFirst tech w).invalid = d.invalid ∧
      (d.latencyFirst tech w).areaOptimizationLevel = d.areaOptimizationLevel ∧
      (d.latencyFirst tech w).WritesInBounds := by
  obtain ⟨widthNMOS, heq, hlast, hbounds⟩ := setLastInverter_spec tech d
  obtain ⟨hlow, hhigh, -⟩ := latencyStages_spec tech d.latencyEffort hinv
  rw [latencyFirst]
  dsimp only
  rw [heq, if_neg (by rwa [hlast])]
  have hloop := sizes_countDown tech (d.setLastInverter tech).2
    { d with
      numStage := latencyStages tech d.inv d.latencyEffort
      widthNMOS := widthNMOS
      widthPMOS := d.widthPMOS.set (latencyStages tech d.inv d.latencyEffort - 1)
        (widthNMOS.get (latencyStages tech d.inv d.latencyEffort - 1) * tech.pnSizeRatio) }
    (show (latencyStages tech d.inv d.latencyEffort - 1).toNat ≤ MAX_INV_CHAIN_LEN by omega)
  refine ⟨hloop.numStage, hloop.invalid, hloop.areaOptimizationLevel, ?_⟩
  rw [hloop.writesInBounds_iff]
  refine ⟨hbounds hd.1 hlow hhigh, ?_⟩
  show (TracedArray.set _ _ _).InBounds _
  rw [TracedArray.inBounds_set]
  exact ⟨by omega, hd.2⟩

theorem latencyAreaTradeOff_spec (tech : DriverTech K) (w : K) (hinv : d.inv = true)
    (hd : d.WritesInBounds) :
    (d.latencyAreaTradeOff tech w).numStage =
        tradeOffStages tech d.inv (d.tradeOffEffort tech w) + 1 ∧
      (d.latencyAreaTradeOff tech w).invalid = d.invalid ∧
      ((d.latencyAreaTradeOff tech w).WritesInBounds ↔
        tradeOffStages tech d.inv (d.tradeOffEffort tech w) < MAX_INV_CHAIN_LEN) := by
  obtain ⟨hlow, hhigh, -⟩ := tradeOffStages_spec tech (d.tradeOffEffort tech w) hinv
  rw [latencyAreaTradeOff]
  refine ⟨(sizes_countDown _ _ _ (by omega)).numStage, (sizes_countDown _ _ _ (by omega)).invalid,
    ?_⟩
  rw [(sizes_countDown _ _ _ (by omega)).writesInBounds_iff, WritesInBounds]
  rw [TracedArray.inBounds_set, TracedArray.inBounds_set]
  constructor
  · intro h
    exact h.1.1.2
  · intro h
    exact ⟨⟨⟨hlow, h⟩, hd.1⟩, ⟨hlow, h⟩, hd.2⟩

/-! ## Limits -/

/-- An initialised and valid driver has an odd number of stages, no more than there
    are elements, and all writes were to elements. -/
structure WithinLimits (d : OutputDriver K) : Prop where
  stages (hinitialized : d.initialized = true) (hvalid : d.invalid = false) :
    0 < d.numStage ∧ d.numStage % 2 = 1 ∧ d.numStage ≤ MAX_INV_CHAIN_LEN
  writes : d.WritesInBounds

/-- The rounded logarithm leaves room in the arrays: for a last inverter that is not
    counted, or for an odd number of stages.  A driver that was invalid before stays
    so, and is asked for its writes only. -/
def LogFits (tech : DriverTech K) (d : OutputDriver K) (w : K) : Prop :=
  match d.areaOptimizationLevel with
  | .area_first => True
  | .latency_area_trade_off => tech.roundedLog (d.tradeOffEffort tech w) < MAX_INV_CHAIN_LEN
  | .latency_first =>
      if d.lastInverter tech < w then
        tech.roundedLog (d.tradeOffEffort tech w) < MAX_INV_CHAIN_LEN
      else d.invalid = true ∨ tech.roundedLog d.latencyEffort ≤ MAX_INV_CHAIN_LEN

omit [Field K] [LinearOrder K] in
theorem withinLimits_finish_iff (a : BufferDesignTarget) : WithinLimits (finish a d) ↔
    (d.invalid = false → 0 < d.numStage ∧ d.numStage % 2 = 1 ∧ d.numStage ≤ MAX_INV_CHAIN_LEN) ∧
      d.WritesInBounds :=
  ⟨fun h => ⟨fun hvalid => h.stages rfl hvalid, h.writes⟩, fun h => ⟨fun _ => h.1, h.2⟩⟩

/-- The trade-off goes wrong where it writes behind the arrays. -/
theorem withinLimits_tradeOff_iff (a : BufferDesignTarget) (hinv : d.inv = true)
    (hd : d.WritesInBounds) : WithinLimits (finish a (d.latencyAreaTradeOff tech w)) ↔
      tech.roundedLog (d.tradeOffEffort tech w) < MAX_INV_CHAIN_LEN := by
  obtain ⟨hnum, hinvalid, hwrites⟩ := latencyAreaTradeOff_spec tech w hinv hd
  obtain ⟨hlow, -, heven, hfits⟩ := tradeOffStages_spec tech (d.tradeOffEffort tech w) hinv
  rw [withinLimits_finish_iff, hwrites, hnum, ← hfits]
  constructor
  · intro h
    exact h.2
  · intro h
    exact ⟨fun _ => by omega, h⟩

/-- The number of stages goes wrong where it is clamped. -/
theorem withinLimits_latency_iff (a : BufferDesignTarget) (hinv : d.inv = true)
    (hd : d.WritesInBounds) (hlarge : ¬ d.lastInverter tech < w) :
    WithinLimits (finish a (d.latencyFirst tech w)) ↔
      d.invalid = true ∨ tech.roundedLog d.latencyEffort ≤ MAX_INV_CHAIN_LEN := by
  obtain ⟨hnum, hinvalid, -, hwrites⟩ := latencyFirst_of_large hinv hd hlarge
  obtain ⟨hlow, hhigh, hodd⟩ := latencyStages_spec tech d.latencyEffort hinv
  rw [withinLimits_finish_iff, hnum, hinvalid, ← hodd]
  constructor
  · rintro ⟨hstages, -⟩
    cases hvalid : d.invalid with
    | true => exact .inl rfl
    | false => exact .inr (hstages hvalid).2.1
  · intro h
    refine ⟨fun hvalid => ?_, hwrites⟩
    rcases h with hbad | hodd
    · rw [hvalid] at hbad
      cases hbad
    · exact ⟨by omega, hodd, hhigh⟩

theorem withinLimits_area (a : BufferDesignTarget) (hd : d.WritesInBounds) :
    WithinLimits (if (d.areaFirst tech w).2 then finish a (d.areaFirst tech w).1
      else (d.areaFirst tech w).1) := by
  have hzero : (0 : ℤ) ≤ 0 ∧ (0 : ℤ) < MAX_INV_CHAIN_LEN := by decide
  have hnmos : ((d.widthNMOS.set 0 (max tech.minWidth w)).InBounds MAX_INV_CHAIN_LEN) :=
    TracedArray.inBounds_set.mpr ⟨hzero, hd.1⟩
  by_cases hwide : tech.maxWidth < max tech.minWidth w
  · have harea : d.areaFirst tech w = ({ d with
        numStage := 1
        widthNMOS := d.widthNMOS.set 0 (max tech.minWidth w)
        invalid := true }, false) := if_pos hwide
    rw [harea]
    exact ⟨fun _ hvalid => absurd hvalid Bool.true_eq_false.mp, hnmos, hd.2⟩
  · have harea : d.areaFirst tech w = ({ d with
        numStage := 1
        widthNMOS := d.widthNMOS.set 0 (max tech.minWidth w)
        widthPMOS := d.widthPMOS.set 0 (max tech.minWidth w * tech.pnSizeRatio) }, true) :=
      if_neg hwide
    rw [harea]
    refine (withinLimits_finish_iff a).mpr ⟨fun _ => ?_, hnmos, ?_⟩
    · show (0 : ℤ) < 1 ∧ (1 : ℤ) % 2 = 1 ∧ (1 : ℤ) ≤ MAX_INV_CHAIN_LEN
      decide
    · exact TracedArray.inBounds_set.mpr ⟨hzero, hd.2⟩

omit [Field K] [LinearOrder K] in
theorem writesInBounds_store (d : OutputDriver K) (x y z u c : K) (inv : Bool)
    (a : BufferDesignTarget) : (d.store x y z u inv a c).WritesInBounds :=
  ⟨TracedArray.inBounds_restart, TracedArray.inBounds_restart⟩

/-! ## The styles -/

section
variable (tech : DriverTech K) (d : OutputDriver K)
  (logicEffort inputCap outputCap outputRes minDriverCurrent : K)

/-- A current for which no inverter is wide enough. -/
theorem initialize_of_too_wide (a : BufferDesignTarget)
    (hwide : tech.maxWidth < minNMOSDriverWidth tech minDriverCurrent) :
    WithinLimits (d.Initialize tech logicEffort inputCap outputCap outputRes true a
      minDriverCurrent) := by
  rw [Initialize]
  dsimp only
  rw [if_pos hwide]
  exact ⟨fun _ hvalid => absurd hvalid Bool.true_eq_false.mp,
    writesInBounds_store d logicEffort inputCap outputCap outputRes minDriverCurrent true a⟩

theorem initialize_tradeOff_iff
    (hwide : ¬ tech.maxWidth < minNMOSDriverWidth tech minDriverCurrent) :
    WithinLimits (d.Initialize tech logicEffort inputCap outputCap outputRes true
        .latency_area_trade_off minDriverCurrent) ↔
      LogFits tech (d.store logicEffort inputCap outputCap outputRes true .latency_area_trade_off
        minDriverCurrent) (minNMOSDriverWidth tech minDriverCurrent) := by
  rw [Initialize]
  dsimp only
  rw [if_neg hwide]
  exact withinLimits_tradeOff_iff _ rfl (writesInBounds_store d logicEffort inputCap outputCap
    outputRes minDriverCurrent true .latency_area_trade_off)

theorem initialize_latency_iff
    (hwide : ¬ tech.maxWidth < minNMOSDriverWidth tech minDriverCurrent) :
    WithinLimits (d.Initialize tech logicEffort inputCap outputCap outputRes true
        .latency_first minDriverCurrent) ↔
      LogFits tech (d.store logicEffort inputCap outputCap outputRes true .latency_first
        minDriverCurrent) (minNMOSDriverWidth tech minDriverCurrent) := by
  have hstore := writesInBounds_store d logicEffort inputCap outputCap outputRes minDriverCurrent
    true .latency_first
  rw [Initialize]
  dsimp only
  rw [if_neg hwide]
  have hfirst : (d.store logicEffort inputCap outputCap outputRes true .latency_first
    minDriverCurrent).areaOptimizationLevel = .latency_first := rfl
  rw [if_pos hfirst, LogFits, hfirst]
  dsimp only
  by_cases hsmall : (d.store logicEffort inputCap outputCap outputRes true .latency_first
      minDriverCurrent).lastInverter tech < minNMOSDriverWidth tech minDriverCurrent
  · -- the trade-off starts from the stored arguments again
    obtain ⟨n, widthNMOS, heq, hbounds⟩ := latencyFirst_of_small rfl hstore hsmall
    rw [if_pos hsmall, heq, if_pos rfl]
    exact withinLimits_tradeOff_iff _ rfl ⟨hbounds, hstore.2⟩
  · obtain ⟨-, -, hkept, -⟩ := latencyFirst_of_large rfl hstore hsmall
    rw [if_neg hsmall, hkept]
    exact withinLimits_latency_iff _ rfl hstore hsmall

theorem initialize_area
    (hwide : ¬ tech.maxWidth < minNMOSDriverWidth tech minDriverCurrent) :
    WithinLimits (d.Initialize tech logicEffort inputCap outputCap outputRes true .area_first
      minDriverCurrent) := by
  rw [Initialize]
  dsimp only
  rw [if_neg hwide]
  exact withinLimits_area _ (writesInBounds_store d logicEffort inputCap outputCap outputRes
    minDriverCurrent true .area_first)

/-- With `inv` set, whatever the driver was before: `Initialize` keeps to the limits
    if and only if the current is too large for any inverter or the logarithms
    fit. -/
theorem initialize_withinLimits_iff (areaOptimizationLevel : BufferDesignTarget) :
    WithinLimits (d.Initialize tech logicEffort inputCap outputCap outputRes true
        areaOptimizationLevel minDriverCurrent) ↔
      tech.maxWidth < minNMOSDriverWidth tech minDriverCurrent ∨
        LogFits tech (d.store logicEffort inputCap outputCap outputRes true
          areaOptimizationLevel minDriverCurrent) (minNMOSDriverWidth tech minDriverCurrent) := by
  by_cases hwide : tech.maxWidth < minNMOSDriverWidth tech minDriverCurrent
  · exact iff_of_true (initialize_of_too_wide _ _ _ _ _ _ _ _ hwide) (.inl hwide)
  rw [or_iff_right hwide]
  cases areaOptimizationLevel with
  | latency_first => exact initialize_latency_iff _ _ _ _ _ _ _ hwide
  | latency_area_trade_off => exact initialize_tradeOff_iff _ _ _ _ _ _ _ hwide
  | area_first => exact iff_of_true (initialize_area _ _ _ _ _ _ _ hwide) trivial

end

/-- A technology of unit sizes, with logarithms and powers of the real numbers. -/
noncomputable def unitTech : DriverTech ℝ where
  currentOnNmos := 1
  featureSize := 1
  pnSizeRatio := 1
  maxNmosSize := 100
  CalculateGateCap w := w
  pow x y := x ^ y
  roundedLog F := ⌊Real.log F / Real.log 4 + 1 / 2⌋

theorem unitTech_roundedLog (n : ℕ) : unitTech.roundedLog (4 ^ n) = n := by
  have hlog : Real.log 4 ≠ 0 := (Real.log_pos (by norm_num)).ne'
  show ⌊Real.log (4 ^ n) / Real.log 4 + 1 / 2⌋ = (n : ℤ)
  rw [Real.log_pow, mul_div_cancel_right₀ _ hlog, Int.floor_eq_iff]
  push_cast
  constructor <;> linarith

/-- What the constructor leaves; the fields it does not set are zero. -/
def new : OutputDriver ℝ where
  initialized := false
  invalid := false
  logicEffort := 0
  inputCap := 0
  outputCap := 0
  outputRes := 0
  inv := false
  numStage := 0
  areaOptimizationLevel := .latency_first
  minDriverCurrent := 0
  widthNMOS := ⟨fun _ => 0, []⟩
  widthPMOS := ⟨fun _ => 0, []⟩

/-- An effort of twenty stages is one write too far for the trade-off, and one of
    twenty-one an even number of stages for `latency_first`. -/
theorem initialize_exceeds_limits :
    ¬ WithinLimits (new.Initialize unitTech 1 (3 / 4 ^ 20) 1 0 true .latency_area_trade_off 0) ∧
      ¬ WithinLimits (new.Initialize unitTech 1 (1 / 4 ^ 21) 1 0 true .latency_first 0) := by
  have hwidth : minNMOSDriverWidth unitTech 0 = 3 / 2 := by
    norm_num [minNMOSDriverWidth, DriverTech.minWidth, unitTech]
  have hwide : ¬ unitTech.maxWidth < minNMOSDriverWidth unitTech 0 := by
    rw [hwidth]
    norm_num [DriverTech.maxWidth, unitTech]
  constructor
  · rw [initialize_tradeOff_iff _ _ _ _ _ _ _ hwide, hwidth]
    have heffort : (new.store 1 (3 / 4 ^ 20) 1 0 true .latency_area_trade_off 0).tradeOffEffort
        unitTech (3 / 2) = 4 ^ 20 := by
      norm_num [tradeOffEffort, store, unitTech]
    show ¬ unitTech.roundedLog (tradeOffEffort _ _ _) < _
    rw [heffort, unitTech_roundedLog]
    decide
  · rw [initialize_latency_iff _ _ _ _ _ _ _ hwide, hwidth]
    have heffort : (new.store 1 (1 / 4 ^ 21) 1 0 true .latency_first 0).latencyEffort = 4 ^ 21 := by
      norm_num [latencyEffort, store]
    have hlarge : ¬ (new.store 1 (1 / 4 ^ 21) 1 0 true .latency_first 0).lastInverter unitTech <
        3 / 2 := by
      have hmin : unitTech.minWidth = 3 / 2 := by norm_num [DriverTech.minWidth, unitTech]
      rw [← hmin, not_lt]
      refine minWidth_le_lastInverter ?_
      norm_num [DriverTech.minWidth, DriverTech.maxWidth, unitTech]
    show ¬ if _ then _ else _
    rw [if_neg hlarge, heffort, unitTech_roundedLog]
    decide

end OutputDriver

end Destiny
