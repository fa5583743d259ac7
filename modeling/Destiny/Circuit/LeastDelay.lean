/-
  Destiny.Circuit.LeastDelay

  Which repeaters are the fastest.

  A unit delay is a posynomial in the spacing and the size (`DelayTerms`), so the
  fastest repeaters are those where its terms balance.  The closed form of
  `findOptimalRepeater` balances the delay of repeaters whose capacitances all
  scale with the size, with the wire charging the input of the next repeater
  (`scaledDelay`).  `getRepeatedWireUnitDelay` charges the output instead, and
  part of its capacitances does not scale: `findOptimalRepeater_least` says when
  the pair is the fastest all the same.
-/

import Destiny.Circuit.RepeatedWire
import Destiny.Lib.Posynomial
import Mathlib.Tactic.FinCases

namespace Destiny

open Lib Topology

/-! ## Delays as posynomials -/

/-- The terms of a unit delay, by the powers of spacing and size they go with. -/
structure DelayTerms where
  perSpacing : ℝ
  perSpacingSize : ℝ
  perSize : ℝ
  size : ℝ
  fixed : ℝ
  spacing : ℝ
  perSpacing_nonneg : 0 ≤ perSpacing
  perSpacingSize_nonneg : 0 ≤ perSpacingSize
  perSize_nonneg : 0 ≤ perSize
  size_nonneg : 0 ≤ size
  fixed_nonneg : 0 ≤ fixed
  spacing_nonneg : 0 ≤ spacing

namespace DelayTerms

variable (t : DelayTerms)

noncomputable def delay (repeaterSpacing repeaterSize : ℝ) : ℝ :=
  t.perSpacing / repeaterSpacing + t.perSpacingSize / (repeaterSpacing * repeaterSize) +
    t.perSize / repeaterSize + t.size * repeaterSize + t.fixed + t.spacing * repeaterSpacing

theorem delay_nonneg {repeaterSpacing repeaterSize : ℝ} (hspacing : 0 < repeaterSpacing)
    (hsize : 0 < repeaterSize) : 0 ≤ t.delay repeaterSpacing repeaterSize := by
  have := t.perSpacing_nonneg
  have := t.perSpacingSize_nonneg
  have := t.perSize_nonneg
  have := t.size_nonneg
  have := t.fixed_nonneg
  have := t.spacing_nonneg
  unfold delay
  positivity

def coeff : Fin 6 → ℝ :=
  ![t.perSpacing, t.perSpacingSize, t.perSize, t.size, t.fixed, t.spacing]

theorem coeff_nonneg (i : Fin 6) : 0 ≤ t.coeff i := by
  fin_cases i
  · exact t.perSpacing_nonneg
  · exact t.perSpacingSize_nonneg
  · exact t.perSize_nonneg
  · exact t.size_nonneg
  · exact t.fixed_nonneg
  · exact t.spacing_nonneg

/-- In the spacing and the size. -/
def posynomial : Posynomial (Fin 6) (Fin 2) where
  coeff := t.coeff
  exponent := ![![-1, 0], ![-1, -1], ![0, -1], ![0, 1], ![0, 0], ![1, 0]]
  coeff_nonneg := t.coeff_nonneg

theorem eval_posynomial (x : Fin 2 → ℝ) : t.posynomial.eval x = t.delay (x 0) (x 1) := by
  simp [Posynomial.eval, Posynomial.monomial, posynomial, coeff, delay, Fin.sum_univ_succ]
  ring

/-- The terms with the spacing balance, and so do the terms with the size. -/
theorem balanced_iff (x : Fin 2 → ℝ) :
    t.posynomial.Balanced x ↔
      t.perSpacing / x 0 + t.perSpacingSize / (x 0 * x 1) = t.spacing * x 0 ∧
      t.perSpacingSize / (x 0 * x 1) + t.perSize / x 1 = t.size * x 1 := by
  have hspacing : ∑ i, t.posynomial.monomial i x * (t.posynomial.exponent i 0 : ℤ) =
      t.spacing * x 0 - (t.perSpacing / x 0 + t.perSpacingSize / (x 0 * x 1)) := by
    simp [Posynomial.monomial, posynomial, coeff, Fin.sum_univ_succ]
    ring
  have hsize : ∑ i, t.posynomial.monomial i x * (t.posynomial.exponent i 1 : ℤ) =
      t.size * x 1 - (t.perSpacingSize / (x 0 * x 1) + t.perSize / x 1) := by
    simp [Posynomial.monomial, posynomial, coeff, Fin.sum_univ_succ]
    ring
  rw [Posynomial.Balanced, Fin.forall_fin_two, hspacing, hsize, sub_eq_zero, sub_eq_zero,
    eq_comm, @eq_comm _ (t.size * x 1)]

end DelayTerms

/-- No repeater of these sizes, at whatever spacing, has a smaller unit delay. -/
def LeastDelay (delay : ℝ → ℝ → ℝ) (sizes : Set ℝ) (repeater : ℝ × ℝ) : Prop :=
  ∀ repeaterSpacing, 0 < repeaterSpacing → ∀ repeaterSize ∈ sizes,
    delay repeater.1 repeater.2 ≤ delay repeaterSpacing repeaterSize

theorem leastDelay_congr {delay delay' : ℝ → ℝ → ℝ} {sizes : Set ℝ} {repeater : ℝ × ℝ}
    (heq : ∀ L, 0 < L → ∀ S ∈ sizes, delay L S = delay' L S) (hspacing : 0 < repeater.1)
    (hsize : repeater.2 ∈ sizes) :
    LeastDelay delay sizes repeater ↔ LeastDelay delay' sizes repeater := by
  refine forall_congr' fun L => forall_congr' fun hL => forall_congr' fun S =>
    forall_congr' fun hS => ?_
  rw [heq _ hspacing _ hsize, heq L hL S hS]

theorem DelayTerms.leastDelay_iff (t : DelayTerms) {sizes : Set ℝ} (hopen : IsOpen sizes)
    (hpos : ∀ repeaterSize ∈ sizes, 0 < repeaterSize) {repeater : ℝ × ℝ}
    (hspacing : 0 < repeater.1) (hsize : repeater.2 ∈ sizes) :
    LeastDelay t.delay sizes repeater ↔
      t.perSpacing / repeater.1 + t.perSpacingSize / (repeater.1 * repeater.2) =
        t.spacing * repeater.1 ∧
      t.perSpacingSize / (repeater.1 * repeater.2) + t.perSize / repeater.2 =
        t.size * repeater.2 := by
  let s : Set (Fin 2 → ℝ) := {x | 0 < x 0 ∧ x 1 ∈ sizes}
  let x : Fin 2 → ℝ := ![repeater.1, repeater.2]
  have hs : s ∈ 𝓝 x := by
    have hopen' : IsOpen s :=
      (isOpen_lt continuous_const (continuous_apply 0)).inter (hopen.preimage (continuous_apply 1))
    exact hopen'.mem_nhds ⟨hspacing, hsize⟩
  have hpos' : ∀ y ∈ s, ∀ j, 0 < y j := by
    intro y hy
    rw [Fin.forall_fin_two]
    exact ⟨hy.1, hpos _ hy.2⟩
  have hmin : LeastDelay t.delay sizes repeater ↔ IsMinOn t.posynomial.eval s x := by
    rw [isMinOn_iff]
    simp only [eval_posynomial]
    constructor
    · intro hleast y hy
      exact hleast (y 0) hy.1 (y 1) hy.2
    · intro hleast repeaterSpacing hspacing' repeaterSize hsize'
      exact hleast ![repeaterSpacing, repeaterSize] ⟨hspacing', hsize'⟩
  rw [hmin, Posynomial.isMinOn_iff_balanced hs hpos', balanced_iff]
  exact Iff.rfl

namespace UnitWire

variable {w : UnitWire ℝ} {repeaterSpacing repeaterSize : ℝ}

/-! ## The unit delay of a wire -/

theorem isOpen_sizes (w : UnitWire ℝ) : IsOpen w.sizes := by
  have hn : Continuous w.nmosSize := by
    rw [funext (nmosSize_eq w)]
    exact continuous_const.mul continuous_id
  have hp : Continuous w.pmosSize := by
    rw [funext (pmosSize_eq w)]
    exact continuous_const.mul continuous_id
  exact (isOpen_lt continuous_const continuous_id).inter
    ((isOpen_lt hn continuous_const).inter (isOpen_lt hp continuous_const))

noncomputable def delayTerms (h : w.Physical) : DelayTerms where
  perSpacing := 0.693 * (w.outputRes 1 * (w.gateSlope + w.drainSlope))
  perSpacingSize := 0.693 * (w.outputRes 1 * (w.gateFixed + w.drainFixed))
  perSize := 0.693 * (w.outputRes 1 * w.capWirePerUnit)
  size := 0.693 * (w.resWirePerUnit * w.drainSlope)
  fixed := 0.693 * (w.resWirePerUnit * w.drainFixed)
  spacing := 0.693 * (0.5 * w.resWirePerUnit * w.capWirePerUnit)
  perSpacing_nonneg := by
    have := h.outputRes_pos
    have := h.gateSlope_pos
    have := h.drainSlope_nonneg
    positivity
  perSpacingSize_nonneg := by
    have := h.outputRes_pos
    have := h.gateFixed_nonneg
    have := h.drainFixed_nonneg
    positivity
  perSize_nonneg := by
    have := h.outputRes_pos
    have := h.capWirePerUnit_pos
    positivity
  size_nonneg := by
    have := h.resWirePerUnit_pos
    have := h.drainSlope_nonneg
    positivity
  fixed_nonneg := by
    have := h.resWirePerUnit_pos
    have := h.drainFixed_nonneg
    positivity
  spacing_nonneg := by
    have := h.resWirePerUnit_pos
    have := h.capWirePerUnit_pos
    positivity

theorem getRepeatedWireUnitDelay_eq (h : w.Physical) (hspacing : 0 < repeaterSpacing)
    (hsize : repeaterSize ∈ w.sizes) :
    w.getRepeatedWireUnitDelay repeaterSpacing repeaterSize =
      (delayTerms h).delay repeaterSpacing repeaterSize := by
  have hpos : 0 < repeaterSize := hsize.1
  simp only [getRepeatedWireUnitDelay, DelayTerms.delay, delayTerms]
  rw [inputCap_eq, outputCap_eq h hsize.1 hsize.2, outputRes_eq]
  field_simp
  ring

/-- The unit delay if all capacitances of a repeater scaled with its size and the
    wire charged the input of the next one. -/
noncomputable def scaledDelay (w : UnitWire ℝ) (repeaterSpacing repeaterSize : ℝ) : ℝ :=
  let inputCap := w.inputCap 1 * repeaterSize
  let outputCap := w.outputCap 1 * repeaterSize
  let outputRes := w.outputRes 1 / repeaterSize
  let wireCap := w.capWirePerUnit * repeaterSpacing
  let wireRes := w.resWirePerUnit * repeaterSpacing
  let tau := outputRes * (inputCap + outputCap) + outputRes * wireCap + wireRes * inputCap +
    0.5 * wireRes * wireCap
  0.693 * tau / repeaterSpacing

noncomputable def scaledTerms (h : w.Physical) (hmin : w.Unfolded 1) : DelayTerms where
  perSpacing := 0.693 * (w.outputRes 1 * (w.inputCap 1 + w.outputCap 1))
  perSpacingSize := 0
  perSize := 0.693 * (w.outputRes 1 * w.capWirePerUnit)
  size := 0.693 * (w.resWirePerUnit * w.inputCap 1)
  fixed := 0
  spacing := 0.693 * (0.5 * w.resWirePerUnit * w.capWirePerUnit)
  perSpacing_nonneg := by
    have := h.outputRes_pos
    have := h.inputCap_pos
    have := h.outputCap_nonneg hmin
    positivity
  perSpacingSize_nonneg := le_rfl
  perSize_nonneg := (delayTerms h).perSize_nonneg
  size_nonneg := by
    have := h.resWirePerUnit_pos
    have := h.inputCap_pos
    positivity
  fixed_nonneg := le_rfl
  spacing_nonneg := (delayTerms h).spacing_nonneg

theorem scaledDelay_eq (h : w.Physical) (hmin : w.Unfolded 1) (hspacing : 0 < repeaterSpacing)
    (hsize : 0 < repeaterSize) :
    w.scaledDelay repeaterSpacing repeaterSize =
      (scaledTerms h hmin).delay repeaterSpacing repeaterSize := by
  simp only [scaledDelay, DelayTerms.delay, scaledTerms]
  field_simp
  ring

/-! ## The closed form -/

theorem Physical.optimalSpacing_pos (h : w.Physical) (hmin : w.Unfolded 1) :
    0 < (w.findOptimalRepeater Real.sqrt).1 := by
  have := h.outputRes_pos
  have := h.inputCap_pos
  have := h.outputCap_nonneg hmin
  have := h.resWirePerUnit_pos
  have := h.capWirePerUnit_pos
  exact Real.sqrt_pos.mpr (by positivity)

theorem Physical.optimalSize_pos (h : w.Physical) : 0 < (w.findOptimalRepeater Real.sqrt).2 := by
  have := h.outputRes_pos
  have := h.inputCap_pos
  have := h.resWirePerUnit_pos
  have := h.capWirePerUnit_pos
  exact Real.sqrt_pos.mpr (by positivity)

/-- The wire of a section takes as long to charge as its repeater does by itself,
    twice over. -/
theorem optimalSpacing_sq (h : w.Physical) (hmin : w.Unfolded 1) :
    (w.findOptimalRepeater Real.sqrt).1 ^ 2 * (w.resWirePerUnit * w.capWirePerUnit) =
      2 * w.outputRes 1 * (w.inputCap 1 + w.outputCap 1) := by
  have hR := h.outputRes_pos
  have hin := h.inputCap_pos
  have hout := h.outputCap_nonneg hmin
  have hr := h.resWirePerUnit_pos
  have hc := h.capWirePerUnit_pos
  rw [findOptimalRepeater, Real.sq_sqrt (by positivity), div_mul_cancel₀ _ (mul_pos hr hc).ne',
    add_comm (w.outputCap 1)]

/-- The wire charges the input of a repeater as fast as the repeater charges the
    wire. -/
theorem optimalSize_sq (h : w.Physical) :
    (w.findOptimalRepeater Real.sqrt).2 ^ 2 * (w.inputCap 1 * w.resWirePerUnit) =
      w.outputRes 1 * w.capWirePerUnit := by
  have hR := h.outputRes_pos
  have hin := h.inputCap_pos
  have hr := h.resWirePerUnit_pos
  have hc := h.capWirePerUnit_pos
  rw [findOptimalRepeater, Real.sq_sqrt (by positivity), div_div,
    div_mul_cancel₀ _ (mul_pos hin hr).ne']

/-- The closed form is the fastest repeater when everything scales. -/
theorem scaledDelay_least (h : w.Physical) (hmin : w.Unfolded 1) :
    LeastDelay w.scaledDelay (Set.Ioi 0) (w.findOptimalRepeater Real.sqrt) := by
  have hspacing := h.optimalSpacing_pos hmin
  have hsize := h.optimalSize_pos
  have hspacing_sq := optimalSpacing_sq h hmin
  have hsize_sq := optimalSize_sq h
  generalize w.findOptimalRepeater Real.sqrt = repeater at *
  have hdelay : LeastDelay w.scaledDelay (Set.Ioi 0) repeater ↔
      LeastDelay (scaledTerms h hmin).delay (Set.Ioi 0) repeater :=
    leastDelay_congr (fun L hL S hS => scaledDelay_eq h hmin hL hS) hspacing hsize
  rw [hdelay, DelayTerms.leastDelay_iff _ isOpen_Ioi (fun _ hpos => hpos) hspacing hsize]
  simp only [scaledTerms, zero_div, add_zero, zero_add]
  constructor
  · field_simp
    linear_combination -hspacing_sq / 2
  · field_simp
    linear_combination -hsize_sq

/-- The terms with the spacing balance at the closed form when there is nothing
    that does not scale, or the size is one. -/
theorem spacing_balanced_iff (h : w.Physical) (hmin : w.Unfolded 1) {repeater : ℝ × ℝ}
    (hspacing : 0 < repeater.1) (hsize : 0 < repeater.2)
    (hspacing_sq : repeater.1 ^ 2 * (w.resWirePerUnit * w.capWirePerUnit) =
      2 * w.outputRes 1 * (w.inputCap 1 + w.outputCap 1)) :
    (delayTerms h).perSpacing / repeater.1 +
        (delayTerms h).perSpacingSize / (repeater.1 * repeater.2) =
      (delayTerms h).spacing * repeater.1 ↔
    w.gateFixed + w.drainFixed = 0 ∨ repeater.2 = 1 := by
  have hR := h.outputRes_pos
  rw [inputCap_eq, outputCap_eq h one_pos hmin] at hspacing_sq
  have hdiff : (delayTerms h).perSpacing / repeater.1 +
      (delayTerms h).perSpacingSize / (repeater.1 * repeater.2) -
        (delayTerms h).spacing * repeater.1 =
      0.693 * w.outputRes 1 / (repeater.1 * repeater.2) *
        ((w.gateFixed + w.drainFixed) * (1 - repeater.2)) := by
    simp only [delayTerms]
    field_simp
    linear_combination -repeater.2 * hspacing_sq / 2
  have hscale : 0.693 * w.outputRes 1 / (repeater.1 * repeater.2) ≠ 0 := by positivity
  rw [← sub_eq_zero, hdiff, mul_eq_zero, or_iff_right hscale, mul_eq_zero, sub_eq_zero,
    @eq_comm _ 1]

/-- The terms with the size balance at the closed form when the outputs weigh what
    the inputs, the wire and all that does not scale do. -/
theorem size_balanced_iff (h : w.Physical) {repeater : ℝ × ℝ} (hspacing : 0 < repeater.1)
    (hsize : 0 < repeater.2)
    (hsize_sq : repeater.2 ^ 2 * (w.inputCap 1 * w.resWirePerUnit) =
      w.outputRes 1 * w.capWirePerUnit) :
    (delayTerms h).perSpacingSize / (repeater.1 * repeater.2) +
        (delayTerms h).perSize / repeater.2 = (delayTerms h).size * repeater.2 ↔
    w.inputCap 1 * (w.gateFixed + w.drainFixed + w.capWirePerUnit * repeater.1) =
      w.drainSlope * (w.capWirePerUnit * repeater.1) := by
  have hR := h.outputRes_pos
  have hin := h.inputCap_pos
  have hdiff : (delayTerms h).perSpacingSize / (repeater.1 * repeater.2) +
      (delayTerms h).perSize / repeater.2 - (delayTerms h).size * repeater.2 =
      0.693 * w.outputRes 1 / (repeater.1 * repeater.2 * w.inputCap 1) *
        (w.inputCap 1 * (w.gateFixed + w.drainFixed + w.capWirePerUnit * repeater.1) -
          w.drainSlope * (w.capWirePerUnit * repeater.1)) := by
    simp only [delayTerms]
    field_simp
    linear_combination -repeater.1 * w.drainSlope * hsize_sq
  have hscale : 0.693 * w.outputRes 1 / (repeater.1 * repeater.2 * w.inputCap 1) ≠ 0 := by
    positivity
  rw [← sub_eq_zero, hdiff, mul_eq_zero, or_iff_right hscale, sub_eq_zero]

/-- The closed form is the fastest repeater of the model just when the
    capacitances that do not scale vanish and a unit of size adds as much at the
    input as at the output, or when the size is one and the outputs weigh what the
    inputs and the wire do. -/
theorem unitDelay_least_iff (h : w.Physical) (hmin : w.Unfolded 1)
    (hroom : w.Unfolded (w.findOptimalRepeater Real.sqrt).2) :
    LeastDelay w.getRepeatedWireUnitDelay w.sizes (w.findOptimalRepeater Real.sqrt) ↔
      (w.gateFixed + w.drainFixed = 0 ∧ w.gateSlope = w.drainSlope) ∨
      ((w.findOptimalRepeater Real.sqrt).2 = 1 ∧
        let wireCap := w.capWirePerUnit * (w.findOptimalRepeater Real.sqrt).1
        w.inputCap 1 * (w.gateFixed + w.drainFixed + wireCap) = w.drainSlope * wireCap) := by
  have hspacing := h.optimalSpacing_pos hmin
  have hsize : (w.findOptimalRepeater Real.sqrt).2 ∈ w.sizes := ⟨h.optimalSize_pos, hroom⟩
  have hspacing_sq := optimalSpacing_sq h hmin
  have hsize_sq := optimalSize_sq h
  generalize w.findOptimalRepeater Real.sqrt = repeater at *
  have hdelay := leastDelay_congr (fun L hL S hS => getRepeatedWireUnitDelay_eq h hL hS)
    hspacing hsize
  rw [hdelay, DelayTerms.leastDelay_iff _ w.isOpen_sizes (fun _ hs => hs.1) hspacing hsize,
    spacing_balanced_iff h hmin hspacing hsize.1 hspacing_sq,
    size_balanced_iff h hspacing hsize.1 hsize_sq, or_and_right]
  refine or_congr (and_congr_right fun hfixed => ?_) Iff.rfl
  -- with nothing fixed the input capacitance is its slope
  have hgate : w.gateFixed = 0 :=
    le_antisymm (by linarith [h.drainFixed_nonneg]) h.gateFixed_nonneg
  have hwire : w.capWirePerUnit * repeater.1 ≠ 0 := (mul_pos h.capWirePerUnit_pos hspacing).ne'
  rw [hfixed, zero_add, inputCap_eq, hgate, mul_one, add_zero, mul_left_inj' hwire]

/-- What `findOptimalRepeater` finds: the fastest repeater if everything scaled,
    and when it is the fastest as it is. -/
theorem findOptimalRepeater_least (h : w.Physical) (hmin : w.Unfolded 1)
    (hroom : w.Unfolded (w.findOptimalRepeater Real.sqrt).2) :
    LeastDelay w.scaledDelay (Set.Ioi 0) (w.findOptimalRepeater Real.sqrt) ∧
    (LeastDelay w.getRepeatedWireUnitDelay w.sizes (w.findOptimalRepeater Real.sqrt) ↔
      (w.gateFixed + w.drainFixed = 0 ∧ w.gateSlope = w.drainSlope) ∨
      ((w.findOptimalRepeater Real.sqrt).2 = 1 ∧
        let wireCap := w.capWirePerUnit * (w.findOptimalRepeater Real.sqrt).1
        w.inputCap 1 * (w.gateFixed + w.drainFixed + wireCap) = w.drainSlope * wireCap)) :=
  ⟨scaledDelay_least h hmin, unitDelay_least_iff h hmin hroom⟩

/-- A wire in a technology of one millimetre, whose drains charge as its gates do. -/
noncomputable def coarse : UnitWire ℝ where
  tech :=
    { featureSize := 1 / 1000
      vdd := 1
      phyGateLength := 1
      capIdealGate := 1
      capFringe := 1
      capJunction := 0
      capOverlap := 1
      capSidewall := 0
      capDrainToChannel := 5
      capPolywire := 0
      pnSizeRatio := 2
      effectiveResistanceMultiplier := 1
      currentOnNmos := fun _ => 1
      currentOnPmos := fun _ => 1
      currentOffNmos := fun _ => 1
      currentOffPmos := fun _ => 1 }
  tempIndex := 50
  wirePitch := 1
  resWirePerUnit := 1
  capWirePerUnit := 1
  foldable := by norm_num

theorem coarse_physical : coarse.Physical := by
  constructor <;> norm_num [coarse]

theorem coarse_unfolded_one : coarse.Unfolded 1 := by
  norm_num [Unfolded, pmosSize, nmosSize, MIN_NMOS_SIZE, coarse]

theorem coarse_optimal_unfolded : coarse.Unfolded (coarse.findOptimalRepeater Real.sqrt).2 := by
  have hsize : (coarse.findOptimalRepeater Real.sqrt).2 < 300 := by
    rw [findOptimalRepeater, Real.sqrt_lt' (by norm_num)]
    norm_num [outputRes, inputCap, GateTech.CalculateOnResistance, GateTech.CalculateGateCap,
      pmosSize, nmosSize, MIN_NMOS_SIZE, coarse]
  have hroom : coarse.Unfolded 300 := by
    norm_num [Unfolded, pmosSize, nmosSize, MIN_NMOS_SIZE, coarse]
  exact Unfolded.mono coarse_physical hsize.le hroom

theorem findOptimalRepeater_least_coarse :
    LeastDelay coarse.scaledDelay (Set.Ioi 0) (coarse.findOptimalRepeater Real.sqrt) ∧
      LeastDelay coarse.getRepeatedWireUnitDelay coarse.sizes
        (coarse.findOptimalRepeater Real.sqrt) := by
  obtain ⟨hscaled, hiff⟩ :=
    findOptimalRepeater_least coarse_physical coarse_unfolded_one coarse_optimal_unfolded
  refine ⟨hscaled, hiff.mpr (.inl ⟨?_, ?_⟩)⟩
  · norm_num [gateFixed, drainFixed, coarse]
  · norm_num [gateSlope, drainSlope, coarse]

end UnitWire

end Destiny
