/-
  Destiny.Circuit.PenalizedRepeater

  What a wire saves with repeaters that are not the fastest.

  `findPenalizedRepeater` compares a pair with the best so far by energy and
  leakage.  Both grow with the size, so a pair is better just when its size is
  smaller (`accept_start`), and the search ends with the smallest size that is
  still fast enough (`findPenalizedRepeater_isLeast`).  The more delay a repeater
  type allows, the smaller, then, are its repeaters (`insertRepeaters_spare`).
-/

import Destiny.Circuit.LeastDelay
import Destiny.Lib.RunningBest

namespace Destiny

open Lib

variable {K : Type} [Field K] [LinearOrder K]

/-! ## Smaller is better -/

/-- Energy and leakage at one spacing are positive and grow with the size. -/
structure RepeatedWire.GrowsWith (w : RepeatedWire K) (repeaterSpacing : K) (sizes : Set K) :
    Prop where
  energy_pos : ∀ y ∈ sizes, 0 < w.getRepeatedWireUnitDynamicEnergy repeaterSpacing y
  leakage_pos : ∀ y ∈ sizes, 0 < w.getRepeatedWireUnitLeakage repeaterSpacing y
  energy_strictMono : StrictMonoOn (w.getRepeatedWireUnitDynamicEnergy repeaterSpacing) sizes
  leakage_strictMono : StrictMonoOn (w.getRepeatedWireUnitLeakage repeaterSpacing) sizes

variable [IsStrictOrderedRing K] {w : RepeatedWire K} {spacing size targetDelay : K} {sizes : Set K}

/-- The ratios of energy and leakage fall below two together just when the size
    falls. -/
theorem RepeatedWire.GrowsWith.ratios_lt_iff (h : w.GrowsWith spacing sizes) {y z : K}
    (hy : y ∈ sizes) (hz : z ∈ sizes) :
    w.getRepeatedWireUnitDynamicEnergy spacing y / w.getRepeatedWireUnitDynamicEnergy spacing z +
        w.getRepeatedWireUnitLeakage spacing y / w.getRepeatedWireUnitLeakage spacing z < 2 ↔
      y < z := by
  have henergy := h.energy_pos z hz
  have hleakage := h.leakage_pos z hz
  rcases lt_or_ge y z with hlt | hge
  · have he := (div_lt_one henergy).mpr (h.energy_strictMono hy hz hlt)
    have hl := (div_lt_one hleakage).mpr (h.leakage_strictMono hy hz hlt)
    exact iff_of_true (by linarith) hlt
  · have he := (one_le_div henergy).mpr (h.energy_strictMono.monotoneOn hz hy hge)
    have hl := (one_le_div hleakage).mpr (h.leakage_strictMono.monotoneOn hz hy hge)
    exact iff_of_false (by linarith) (not_lt.mpr hge)

/-- A pair is accepted when it is fast enough and smaller. -/
theorem RepeaterBest.accept_start (h : w.GrowsWith spacing sizes) {y z : K} (hy : y ∈ sizes)
    (hz : z ∈ sizes) :
    (RepeaterBest.start w spacing z).accept w targetDelay (spacing, y) =
      .start w spacing
        (keepBest (fun y => w.getRepeatedWireUnitDelay spacing y ≤ targetDelay) id z y) := by
  simp only [RepeaterBest.accept, RepeaterBest.start, keepBest, decide_eq_true_eq, id,
    h.ratios_lt_iff hy hz]
  split <;> rfl

/-- Over a row of one spacing, what is kept is the smallest size. -/
theorem foldl_accept (h : w.GrowsWith spacing sizes) {row : List K} (hrow : ∀ y ∈ row, y ∈ sizes)
    {z : K} (hz : z ∈ sizes) :
    (row.map fun y => (spacing, y)).foldl (RepeaterBest.accept w targetDelay)
        (.start w spacing z) =
      .start w spacing
        (row.foldl (keepBest (fun y => w.getRepeatedWireUnitDelay spacing y ≤ targetDelay) id)
          z) := by
  induction row generalizing z with
  | nil => rfl
  | cons y row ih =>
    rw [List.map_cons, List.foldl_cons, List.foldl_cons,
      RepeaterBest.accept_start h (hrow y List.mem_cons_self) hz]
    refine ih (fun y' hy' => hrow y' (List.mem_cons_of_mem y hy')) ?_
    unfold keepBest
    split
    · exact hrow y List.mem_cons_self
    · exact hz

variable [FloorRing K]

/-- The sizes of the search are between one and the first. -/
theorem mem_gridSizes_le {y : K} (hy : y ∈ gridSizes size) : 1 ≤ y ∧ y ≤ size := by
  obtain ⟨i, hi, rfl⟩ := List.mem_map.mp hy
  have hlt : i + 1 ≤ ⌊size⌋₊ := List.mem_range.mp hi
  have hle : ((i + 1 : ℕ) : K) ≤ size := (Nat.le_floor_iff' (Nat.succ_ne_zero i)).mp hlt
  rw [Nat.cast_succ] at hle
  exact ⟨le_sub_iff_add_le'.mpr hle, sub_le_self size (Nat.cast_nonneg i)⟩

/-- The search ends with the smallest size of the optimal spacing that is fast
    enough. -/
theorem findPenalizedRepeater_isLeast (h : w.GrowsWith spacing sizes) (hspacing : 0 ≤ spacing)
    (hsize : size ∈ sizes) (hgrid : ∀ y ∈ gridSizes size, y ∈ sizes) {penalty : K}
    (hpenalty : 0 ≤ penalty) (hdelay : 0 ≤ w.getRepeatedWireUnitDelay spacing size) :
    ∃ enough, ∀ fuel, enough ≤ fuel →
      ∃ s, findPenalizedRepeater w penalty spacing size fuel = some s ∧
        s.repeaterSpacing = spacing ∧
        IsLeast {y | (y = size ∨ y ∈ gridSizes size) ∧
            w.getRepeatedWireUnitDelay spacing y ≤
              w.getRepeatedWireUnitDelay spacing size * (1 + penalty)}
          s.repeaterSize := by
  obtain ⟨enough, henough⟩ := findPenalizedRepeater_eq w penalty size
    (by linarith : spacing ≤ 4 * spacing)
  refine ⟨enough, fun fuel hfuel => ?_⟩
  obtain ⟨s, hs, hbest, hx, hy, -⟩ := henough fuel hfuel
  -- the row is folded from the optimal size, which is fast enough itself
  rw [optimalRow, foldl_accept h hgrid hsize] at hbest
  have hstart : decide (w.getRepeatedWireUnitDelay spacing size ≤
      w.getRepeatedWireUnitDelay spacing size * (1 + penalty)) = true :=
    decide_eq_true (le_mul_of_one_le_right hdelay (le_add_of_nonneg_right hpenalty))
  have hleast := @foldl_keepBest_isLeast _ _ (fun y => w.getRepeatedWireUnitDelay spacing y ≤
    w.getRepeatedWireUnitDelay spacing size * (1 + penalty)) (gridSizes size) size hstart
  simp only [decide_eq_true_eq] at hleast
  refine ⟨s, hs, ?_, ?_⟩
  · rw [hx, hbest]
    rfl
  · rw [hy, hbest]
    exact hleast

namespace UnitWire

variable {w : UnitWire K} {repeaterSpacing : K}

/-! ## Energy, leakage and pitch -/

theorem dynamicEnergy_eq (h : w.Physical) {repeaterSize : K} (hsize : repeaterSize ∈ w.sizes) :
    w.getRepeatedWireUnitDynamicEnergy repeaterSpacing repeaterSize =
      ((w.gateSlope + w.drainSlope) * repeaterSize + (w.gateFixed + w.drainFixed) +
        w.capWirePerUnit * repeaterSpacing) * w.tech.vdd * w.tech.vdd / repeaterSpacing := by
  rw [getRepeatedWireUnitDynamicEnergy, inputCap_eq, outputCap_eq h hsize.1 hsize.2]
  ring

omit [FloorRing K] in
theorem leakage_eq {repeaterSize : K} (hsize : 0 ≤ repeaterSize) :
    w.getRepeatedWireUnitLeakage repeaterSpacing repeaterSize =
      w.tech.CalculateGateLeakage .INV 1 (w.nmosSize 1) (w.pmosSize 1) w.tempIndex *
        repeaterSize * w.tech.vdd / repeaterSpacing := by
  simp only [getRepeatedWireUnitLeakage, GateTech.CalculateGateLeakage]
  rw [nmosSize_eq, pmosSize_eq, max_mul_of_nonneg _ _ hsize, mul_right_comm,
    mul_right_comm (w.pmosSize 1)]

/-- The energy and the leakage of a wire grow with the size of its repeaters. -/
theorem growsWith (h : w.Physical) (hspacing : 0 < repeaterSpacing) :
    w.repeated.GrowsWith repeaterSpacing w.sizes := by
  have hvdd := h.vdd_pos
  have hcap := h.capWirePerUnit_pos
  have hslope : 0 < w.gateSlope + w.drainSlope :=
    add_pos_of_pos_of_nonneg h.gateSlope_pos h.drainSlope_nonneg
  have hfixed := add_nonneg h.gateFixed_nonneg h.drainFixed_nonneg
  -- energy and leakage are linear in the size, with positive slopes
  have hleak : 0 < w.tech.CalculateGateLeakage .INV 1 (w.nmosSize 1) (w.pmosSize 1) w.tempIndex :=
    lt_max_of_lt_left (mul_pos (h.nmosSize_pos one_pos) h.currentOffNmos_pos)
  constructor
  case energy_pos =>
    intro y hy
    have hpos : 0 < y := hy.1
    show 0 < w.getRepeatedWireUnitDynamicEnergy repeaterSpacing y
    rw [dynamicEnergy_eq h hy]
    positivity
  case leakage_pos =>
    intro y hy
    have hpos : 0 < y := hy.1
    show 0 < w.getRepeatedWireUnitLeakage repeaterSpacing y
    rw [leakage_eq hpos.le]
    positivity
  case energy_strictMono =>
    intro y hy z hz hlt
    show w.getRepeatedWireUnitDynamicEnergy repeaterSpacing y <
      w.getRepeatedWireUnitDynamicEnergy repeaterSpacing z
    rw [dynamicEnergy_eq h hy, dynamicEnergy_eq h hz]
    gcongr
  case leakage_strictMono =>
    intro y hy z hz hlt
    show w.getRepeatedWireUnitLeakage repeaterSpacing y <
      w.getRepeatedWireUnitLeakage repeaterSpacing z
    rw [leakage_eq hy.1.le, leakage_eq hz.1.le]
    gcongr

/-- Repeaters lie along their height, which grows with the size. -/
theorem layOut_pitch (h : w.Physical) {repeaterSize : K} (hsize : repeaterSize ∈ w.sizes) :
    (w.layOut repeaterSpacing repeaterSize).repeatedWirePitch =
      w.wirePitch + (w.minWidth * repeaterSize + 6 * w.tech.featureSize) := by
  obtain ⟨hpos, hn, hp⟩ := hsize
  have hnmos : repeaterSize * MIN_NMOS_SIZE K * w.tech.featureSize = w.nmosSize repeaterSize := by
    rw [nmosSize, mul_assoc, mul_comm]
  have hpmos : w.nmosSize repeaterSize * w.tech.pnSizeRatio = w.pmosSize repeaterSize := rfl
  have hN := h.nmosSize_pos hpos
  have hP := h.pmosSize_pos hpos
  have hsum : w.nmosSize repeaterSize + w.pmosSize repeaterSize = w.minWidth * repeaterSize := by
    rw [nmosSize_eq, pmosSize_eq, minWidth, add_mul]
  have hfits : w.nmosSize repeaterSize + w.pmosSize repeaterSize < w.tech.diffusionHeight 1e41 := by
    have hfold := w.foldable
    unfold GateTech.diffusionHeight MIN_GAP_BET_P_AND_N_DIFFS
    norm_num
    linarith [h.featureSize_pos]
  have hheight := GateTech.CalculateGateArea_height w.tech .INV 1 hN hP 1e41
  have hwidth := GateTech.CalculateGateArea_inv_width w.tech hN hP hfits
  rw [min_eq_left hfits.le] at hheight
  simp only [layOut]
  rw [hnmos, hpmos, hheight, hwidth, if_pos (lt_add_of_pos_left _ (add_pos hN hP)), hsum]

end UnitWire

/-! ## Repeater types -/

/-- The repeaters `r'` cost no more than `r` at the same spacing, but for delay. -/
structure Repeaters.Spares (w : UnitWire K) (r r' : Repeaters K) : Prop where
  spacing : r'.repeaterSpacing = r.repeaterSpacing
  size : r'.repeaterSize ≤ r.repeaterSize
  energy : w.getRepeatedWireUnitDynamicEnergy r'.repeaterSpacing r'.repeaterSize ≤
    w.getRepeatedWireUnitDynamicEnergy r.repeaterSpacing r.repeaterSize
  leakage : w.getRepeatedWireUnitLeakage r'.repeaterSpacing r'.repeaterSize ≤
    w.getRepeatedWireUnitLeakage r.repeaterSpacing r.repeaterSize
  pitch : r'.repeatedWirePitch ≤ r.repeatedWirePitch

namespace UnitWire

variable {w : UnitWire ℝ}

/-- The sizes that a repeater type can end with: the optimal one, and with a
    penalty those of the row that are fast enough. -/
def allowed (w : UnitWire ℝ) (repeater : ℝ × ℝ) (type : WireRepeaterType) : Set ℝ :=
  if type = .repeated_opt then {repeater.2}
  else {y | (y = repeater.2 ∨ y ∈ gridSizes repeater.2) ∧
    w.getRepeatedWireUnitDelay repeater.1 y ≤
      w.getRepeatedWireUnitDelay repeater.1 repeater.2 * (1 + penalty ℝ type)}

theorem penalty_nonneg (type : WireRepeaterType) : 0 ≤ penalty ℝ type := by
  cases type <;> norm_num [penalty]

/-- Types with a penalty are listed by it. -/
theorem penalty_mono {s t : WireRepeaterType} (hs : WireRepeaterType.repeated_opt.code < s.code)
    (hle : s.code ≤ t.code) : penalty ℝ s ≤ penalty ℝ t := by
  cases s <;> cases t <;> first | exact absurd hs (by decide) | exact absurd hle (by decide) | skip
  all_goals norm_num [penalty]

theorem code_opt_lt {s : WireRepeaterType} (hnone : s ≠ .repeated_none) (hopt : s ≠ .repeated_opt) :
    WireRepeaterType.repeated_opt.code < s.code := by
  cases s <;> first | exact absurd rfl hnone | exact absurd rfl hopt | decide

/-- What is allowed for a smaller penalty is allowed for a larger one. -/
theorem allowed_mono {repeater : ℝ × ℝ}
    (hdelay : 0 ≤ w.getRepeatedWireUnitDelay repeater.1 repeater.2) {s t : WireRepeaterType}
    (hs : s ≠ .repeated_none) (hle : s.code ≤ t.code) :
    w.allowed repeater s ⊆ w.allowed repeater t := by
  unfold allowed
  by_cases ht : t = .repeated_opt
  · -- then the other type is the optimal one too
    have hopt : s = .repeated_opt := by
      by_contra hopt
      have hlt := code_opt_lt hs hopt
      rw [ht] at hle
      omega
    rw [if_pos hopt, if_pos ht]
  · rw [if_neg ht]
    by_cases hopt : s = .repeated_opt
    · rw [if_pos hopt]
      rintro y rfl
      exact ⟨Or.inl rfl,
        le_mul_of_one_le_right hdelay (le_add_of_nonneg_right (penalty_nonneg t))⟩
    · rw [if_neg hopt]
      rintro y ⟨hrow, hfast⟩
      have hpenalty := penalty_mono (code_opt_lt hs hopt) hle
      exact ⟨hrow, hfast.trans (mul_le_mul_of_nonneg_left (by linarith) hdelay)⟩

/-- The sizes of a row are not folded if the first is not. -/
theorem mem_sizes_of_row (h : w.Physical) {size y : ℝ} (hsize : size ∈ w.sizes)
    (hy : y = size ∨ y ∈ gridSizes size) : y ∈ w.sizes := by
  rcases hy with rfl | hy
  · exact hsize
  · obtain ⟨hone, hle⟩ := mem_gridSizes_le hy
    exact ⟨one_pos.trans_le hone, hsize.2.mono h hle⟩

theorem mem_sizes_of_allowed (h : w.Physical) {repeater : ℝ × ℝ} (hsize : repeater.2 ∈ w.sizes)
    {type : WireRepeaterType} {y : ℝ} (hy : y ∈ w.allowed repeater type) : y ∈ w.sizes := by
  unfold allowed at hy
  split at hy
  · rw [Set.mem_singleton_iff.mp hy]
    exact hsize
  · exact mem_sizes_of_row h hsize hy.1

/-- A repeater type ends with the optimal spacing and the smallest size allowed. -/
theorem insertRepeaters_eq (h : w.Physical) (hmin : w.Unfolded 1)
    (hroom : w.Unfolded (w.findOptimalRepeater Real.sqrt).2) (type : WireRepeaterType) :
    ∃ enough, ∀ fuel, enough ≤ fuel →
      ∃ size, IsLeast (w.allowed (w.findOptimalRepeater Real.sqrt) type) size ∧
        w.insertRepeaters Real.sqrt type fuel =
          some (w.layOut (w.findOptimalRepeater Real.sqrt).1 size) := by
  have hspacing := h.optimalSpacing_pos hmin
  have hsize : (w.findOptimalRepeater Real.sqrt).2 ∈ w.sizes := ⟨h.optimalSize_pos, hroom⟩
  simp only [insertRepeaters]
  generalize w.findOptimalRepeater Real.sqrt = repeater at *
  by_cases hopt : type = .repeated_opt
  · refine ⟨0, fun fuel _ => ⟨repeater.2, ?_, if_pos hopt⟩⟩
    rw [allowed, if_pos hopt]
    exact isLeast_singleton
  · have hdelay : 0 ≤ w.getRepeatedWireUnitDelay repeater.1 repeater.2 := by
      rw [getRepeatedWireUnitDelay_eq h hspacing hsize]
      exact (delayTerms h).delay_nonneg hspacing hsize.1
    obtain ⟨enough, henough⟩ := findPenalizedRepeater_isLeast (growsWith h hspacing) hspacing.le
      hsize (fun y hy => mem_sizes_of_row h hsize (Or.inr hy)) (penalty_nonneg type) hdelay
    refine ⟨enough, fun fuel hfuel => ?_⟩
    obtain ⟨s, hs, hx, hleast⟩ := henough fuel hfuel
    refine ⟨s.repeaterSize, ?_, ?_⟩
    · rw [allowed, if_neg hopt]
      exact hleast
    · rw [if_neg hopt, hs, Option.map_some, hx]

/-- Along the repeater types from the optimal one on, repeaters keep the optimal
    spacing, and are as small as the delay allowed lets them be; so each type needs
    no more energy, leakage and pitch than those before it. -/
theorem insertRepeaters_spare (h : w.Physical) (hmin : w.Unfolded 1)
    (hroom : w.Unfolded (w.findOptimalRepeater Real.sqrt).2) {s t : WireRepeaterType}
    (hs : s ≠ .repeated_none) (hle : s.code ≤ t.code) :
    ∃ enough, ∀ fuel, enough ≤ fuel →
      ∃ r r', w.insertRepeaters Real.sqrt s fuel = some r ∧
        w.insertRepeaters Real.sqrt t fuel = some r' ∧
        r.repeaterSpacing = (w.findOptimalRepeater Real.sqrt).1 ∧
        IsLeast (w.allowed (w.findOptimalRepeater Real.sqrt) s) r.repeaterSize ∧
        IsLeast (w.allowed (w.findOptimalRepeater Real.sqrt) t) r'.repeaterSize ∧
        r.Spares w r' := by
  have hspacing := h.optimalSpacing_pos hmin
  have hsize : (w.findOptimalRepeater Real.sqrt).2 ∈ w.sizes := ⟨h.optimalSize_pos, hroom⟩
  obtain ⟨n, hn⟩ := insertRepeaters_eq h hmin hroom s
  obtain ⟨m, hm⟩ := insertRepeaters_eq h hmin hroom t
  generalize w.findOptimalRepeater Real.sqrt = repeater at *
  have hdelay : 0 ≤ w.getRepeatedWireUnitDelay repeater.1 repeater.2 := by
    rw [getRepeatedWireUnitDelay_eq h hspacing hsize]
    exact (delayTerms h).delay_nonneg hspacing hsize.1
  refine ⟨max n m, fun fuel hfuel => ?_⟩
  obtain ⟨y, hy, hr⟩ := hn fuel ((le_max_left n m).trans hfuel)
  obtain ⟨z, hz, hr'⟩ := hm fuel ((le_max_right n m).trans hfuel)
  have hys := mem_sizes_of_allowed h hsize hy.1
  have hzs := mem_sizes_of_allowed h hsize hz.1
  -- what the smaller penalty allows, the larger one allows too
  have hzy : z ≤ y := hz.2 (allowed_mono hdelay hs hle hy.1)
  have hgrows := growsWith h hspacing
  refine ⟨_, _, hr, hr', rfl, hy, hz, ?_⟩
  exact
    { spacing := rfl
      size := hzy
      energy := hgrows.energy_strictMono.monotoneOn hzs hys hzy
      leakage := hgrows.leakage_strictMono.monotoneOn hzs hys hzy
      pitch := by
        rw [layOut_pitch h hys, layOut_pitch h hzs]
        have := mul_le_mul_of_nonneg_left hzy h.minWidth_pos.le
        linarith }

/-- The repeaters with the least and the largest penalty. -/
theorem insertRepeaters_spare_coarse :
    ∃ enough, ∀ fuel, enough ≤ fuel →
      ∃ r r', coarse.insertRepeaters Real.sqrt .repeated_5 fuel = some r ∧
        coarse.insertRepeaters Real.sqrt .repeated_50 fuel = some r' ∧
        r.repeaterSpacing = (coarse.findOptimalRepeater Real.sqrt).1 ∧
        IsLeast (coarse.allowed (coarse.findOptimalRepeater Real.sqrt) .repeated_5)
          r.repeaterSize ∧
        IsLeast (coarse.allowed (coarse.findOptimalRepeater Real.sqrt) .repeated_50)
          r'.repeaterSize ∧
        r.Spares coarse r' :=
  insertRepeaters_spare coarse_physical coarse_unfolded_one coarse_optimal_unfolded (by decide)
    (by decide)

end UnitWire

end Destiny
