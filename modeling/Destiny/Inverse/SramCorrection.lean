/-
  Destiny.Inverse.SramCorrection

  The correction of the transistor widths of a snapped SRAM design, in the Gumbel
  optimisers for targets and for objectives.

  A pull-up transistor as wide as the access transistor is narrowed, or the access
  transistor widened; then a pull-down transistor of less than twice the access
  width is widened to it, rounded to two digits.  Inside the bounds of the tables
  the first correction always succeeds, the second one unless the rounding goes
  down (`sram_correction_restores_iff`).
-/

import Destiny.Inverse.Columns
import Destiny.Sweep.CellParams

namespace Destiny.Inverse

open Lib Sweep

/-! ## The correction -/

/-- The limits of the ratios and widths. -/
structure RatioLimits where
  WP_WAC_RATIO_CEILING : ℚ
  WN_WAC_RATIO_FLOOR : ℚ
  WN_MAX_F : ℚ
  WP_MAX_F : ℚ
  WAC_MIN_F : ℚ
  WAC_MAX_F : ℚ

/-- The widths of the transistors of a cell. -/
structure Widths where
  wn : ℚ
  wp : ℚ
  wac : ℚ
  deriving DecidableEq

/-- `round(x, 2)` -/
def round2 (x : ℚ) : ℚ := roundTo (1 / 100) x

/-- W_P must be less than W_AC. -/
def correctGamma (k : RatioLimits) (w : Widths) : Widths :=
  if w.wp / w.wac ≥ 1 then
    if k.WP_WAC_RATIO_CEILING * w.wac > k.WAC_MIN_F then
      { w with wp := round2 (k.WP_WAC_RATIO_CEILING * w.wac) }
    else
      -- the access width is too small for a narrower pull-up transistor
      let wac := round2 (min (k.WAC_MIN_F / k.WP_WAC_RATIO_CEILING + 0.01) k.WAC_MAX_F)
      { w with wac := wac, wp := round2 (min (k.WP_WAC_RATIO_CEILING * wac) k.WP_MAX_F) }
  else w

/-- W_N must be at least twice W_AC. -/
def correctBeta (k : RatioLimits) (w : Widths) : Widths :=
  if w.wn / w.wac < k.WN_WAC_RATIO_FLOOR then
    { w with wn := round2 (min (k.WN_WAC_RATIO_FLOOR * w.wac) k.WN_MAX_F) }
  else w

def correctWidths (k : RatioLimits) (w : Widths) : Widths := correctBeta k (correctGamma k w)

/-- The widths of a design. -/
def Widths.ofDesign (design : Dict ℚ) : Option Widths :=
  match design .CellInput_SRAMCellNMOSWidth, design .CellInput_SRAMCellPMOSWidth,
    design .CellInput_AccessCMOSWidth with
  | some wn, some wp, some wac => some ⟨wn, wp, wac⟩
  | _, _, _ => none

def Widths.write (w : Widths) (design : Dict ℚ) : Dict ℚ
  | .CellInput_SRAMCellNMOSWidth => some w.wn
  | .CellInput_SRAMCellPMOSWidth => some w.wp
  | .CellInput_AccessCMOSWidth => some w.wac
  | p => design p

/-- The block of `optimize` that corrects a design; a design with one of the three
    widths only raises a `KeyError`. -/
def correctDesign (k : RatioLimits) (tech : Tech) (design : Dict ℚ) : Option (Dict ℚ) :=
  if tech = .SRAM ∧ (design .CellInput_SRAMCellNMOSWidth).isSome then
    (Widths.ofDesign design).map fun w => (correctWidths k w).write design
  else some design

/-- `optimize` of inverse_design_gumbel_target.py. -/
def correctTargetDesign : Tech → Dict ℚ → Option (Dict ℚ) :=
  correctDesign
    { WP_WAC_RATIO_CEILING := 0.9
      WN_WAC_RATIO_FLOOR := 2.0
      WN_MAX_F := 2.5
      WP_MAX_F := 1.1
      WAC_MIN_F := 1.0
      WAC_MAX_F := 1.25 }

/-- `optimize` of inverse_design_gumbel_objective.py. -/
def correctObjectiveDesign : Tech → Dict ℚ → Option (Dict ℚ) :=
  correctDesign
    { WP_WAC_RATIO_CEILING := 0.9
      WN_WAC_RATIO_FLOOR := 2.0
      WN_MAX_F := 2.5
      WP_MAX_F := 1.1
      WAC_MIN_F := 1.0
      WAC_MAX_F := 1.25 }

/-! ## Its result -/

/-- `SRAM_CELL_BOUNDS_LOG10` -/
structure Widths.InBounds (w : Widths) : Prop where
  wn_ge : 2.2 ≤ w.wn
  wn_le : w.wn ≤ 2.5
  wp_ge : 1.0 ≤ w.wp
  wp_le : w.wp ≤ 1.1
  wac_ge : 1.1 ≤ w.wac
  wac_le : w.wac ≤ 1.25

/-- The parameters of a cell with these widths. -/
def Widths.params (w : Widths) : PyDict CellValue where
  items := [(CheckedKey.SRAMCellNMOSWidth.name, .float w.wn),
    (CheckedKey.SRAMCellPMOSWidth.name, .float w.wp),
    (CheckedKey.AccessCMOSWidth.name, .float w.wac)]
  nodup := by
    have hnames : [CheckedKey.SRAMCellNMOSWidth.name, CheckedKey.SRAMCellPMOSWidth.name,
      CheckedKey.AccessCMOSWidth.name].Nodup := by decide +kernel
    exact hnames

theorem valid_sram_params {w : Widths} (h : 0 < w.wac) :
    valid_sram w.params = true ↔ 2 * w.wac ≤ w.wn ∧ w.wp < w.wac := by
  have hwn : floatAt w.params .SRAMCellNMOSWidth = some w.wn := rfl
  have hwp : floatAt w.params .SRAMCellPMOSWidth = some w.wp := rfl
  have hwac : floatAt w.params .AccessCMOSWidth = some w.wac := rfl
  rw [valid_sram_iff]
  simp only [hwn, hwp, hwac, Option.some.injEq, exists_and_left, exists_eq_left']
  rw [le_div_iff₀ h, div_lt_one h]
  exact and_iff_right h.ne'

/-- Twice the width, counted in hundredths, is whole, or more than half-way to the
    next one, or half-way to an even one. -/
def TwiceNotRoundedDown (wac : ℚ) : Prop :=
  Int.fract (200 * wac) = 0 ∨ 1 / 2 < Int.fract (200 * wac) ∨
    (Int.fract (200 * wac) = 1 / 2 ∧ ⌊200 * wac⌋ % 2 = 1)

instance (wac : ℚ) : Decidable (TwiceNotRoundedDown wac) := inferInstanceAs (Decidable (_ ∨ _))

/-- The correction leaves widths that satisfy `valid_sram` and the bounds. -/
def Restores (correct : Tech → Dict ℚ → Option (Dict ℚ)) (design : Dict ℚ) : Prop :=
  ∃ design' w', correct .SRAM design = some design' ∧ Widths.ofDesign design' = some w' ∧
    valid_sram w'.params = true ∧ w'.InBounds

theorem restores_correctDesign {k : RatioLimits} {design : Dict ℚ} {w : Widths}
    (hw : Widths.ofDesign design = some w) :
    Restores (correctDesign k) design ↔
      valid_sram (correctWidths k w).params = true ∧ (correctWidths k w).InBounds := by
  have hmem : (design .CellInput_SRAMCellNMOSWidth).isSome := by
    unfold Widths.ofDesign at hw
    split at hw
    · next hwn _ _ => rw [hwn, Option.isSome_some]
    · cases hw
  have hcorrect : correctDesign k .SRAM design = some ((correctWidths k w).write design) := by
    rw [correctDesign, if_pos ⟨rfl, hmem⟩, hw, Option.map_some]
  have hread : Widths.ofDesign ((correctWidths k w).write design) = some (correctWidths k w) := rfl
  constructor
  · rintro ⟨design', w', hdesign', hw', hvalid⟩
    obtain rfl := Option.some.inj (hcorrect.symm.trans hdesign')
    obtain rfl := Option.some.inj (hread.symm.trans hw')
    exact hvalid
  · exact fun hvalid => ⟨_, _, hcorrect, hread, hvalid⟩

section
variable {k : RatioLimits} {w : Widths}

/-- Inside the bounds only the widest pull-up transistor meets the narrowest access
    transistor, and both are then replaced. -/
theorem correctGamma_of_le (hk : k = ⟨0.9, 2.0, 2.5, 1.1, 1.0, 1.25⟩) (hb : w.InBounds)
    (h : w.wac ≤ w.wp) : correctGamma k w = { w with wac := 1.12, wp := 1.01 } := by
  have hwac : w.wac = 1.1 := le_antisymm (h.trans hb.wp_le) hb.wac_ge
  have hratio : w.wp / w.wac ≥ 1 := by
    rw [ge_iff_le, one_le_div (by rw [hwac]; norm_num)]
    exact h
  have hsmall : ¬ (0.9 : ℚ) * w.wac > 1.0 := by
    rw [hwac]
    norm_num
  have hnew : round2 (min ((1.0 : ℚ) / 0.9 + 0.01) 1.25) = 1.12 := by decide +kernel
  have hnewp : round2 (min ((0.9 : ℚ) * 1.12) 1.1) = 1.01 := by decide +kernel
  subst hk
  unfold correctGamma
  rw [if_pos hratio, if_neg hsmall]
  dsimp only
  rw [hnew, hnewp]

theorem correctGamma_of_lt (hb : w.InBounds) (h : w.wp < w.wac) : correctGamma k w = w := by
  have hpos : 0 < w.wac := lt_of_lt_of_le (by norm_num) hb.wac_ge
  have hratio : ¬ w.wp / w.wac ≥ 1 := by
    rw [ge_iff_le, one_le_div hpos]
    exact not_le.mpr h
  rw [correctGamma, if_neg hratio]

theorem correctBeta_of_le (hk : k = ⟨0.9, 2.0, 2.5, 1.1, 1.0, 1.25⟩) (hpos : 0 < w.wac)
    (h : 2 * w.wac ≤ w.wn) : correctBeta k w = w := by
  have hratio : ¬ w.wn / w.wac < 2.0 := by
    rw [not_lt, le_div_iff₀ hpos]
    linarith
  subst hk
  rw [correctBeta, if_neg hratio]

/-- Twice the access width is inside the bounds of the pull-down transistor, and
    rounding keeps it there. -/
theorem correctBeta_of_lt (hk : k = ⟨0.9, 2.0, 2.5, 1.1, 1.0, 1.25⟩) (hpos : 0 < w.wac)
    (hmax : w.wac ≤ 1.25) (h : w.wn < 2 * w.wac) :
    correctBeta k w = { w with wn := round2 (2 * w.wac) } := by
  have hratio : w.wn / w.wac < 2.0 := by
    rw [div_lt_iff₀ hpos]
    linarith
  have hmin : min (2.0 * w.wac) 2.5 = 2 * w.wac := by
    rw [min_eq_left (by linarith)]
    norm_num
  subst hk
  unfold correctBeta
  rw [if_pos hratio]
  dsimp only
  rw [hmin]

theorem round2_bounds {x : ℚ} (hlow : 2.2 ≤ x) (hhigh : x ≤ 2.5) :
    2.2 ≤ round2 x ∧ round2 x ≤ 2.5 := by
  have hunit : (0 : ℚ) < 1 / 100 := by norm_num
  have hge : ((220 : ℤ) : ℚ) * (1 / 100) ≤ round2 x :=
    le_roundTo hunit (le_trans (by norm_num) hlow)
  have hle : round2 x ≤ ((250 : ℤ) : ℚ) * (1 / 100) :=
    roundTo_le hunit (le_trans hhigh (by norm_num))
  exact ⟨le_trans (by norm_num) hge, le_trans hle (by norm_num)⟩

theorem le_round2_iff (x : ℚ) : 2 * x ≤ round2 (2 * x) ↔ TwiceNotRoundedDown x := by
  have hscale : 2 * x / (1 / 100) = 200 * x := by ring
  rw [TwiceNotRoundedDown, ← self_le_roundHalfEven_iff, round2, roundTo, hscale]
  constructor
  · intro h
    linarith
  · intro h
    linarith

theorem correctWidths_restores_iff (hk : k = ⟨0.9, 2.0, 2.5, 1.1, 1.0, 1.25⟩) (hb : w.InBounds) :
    valid_sram (correctWidths k w).params = true ∧ (correctWidths k w).InBounds ↔
      2 * w.wac ≤ w.wn ∨ w.wac ≤ w.wp ∨ TwiceNotRoundedDown w.wac := by
  have hpos : 0 < w.wac := lt_of_lt_of_le (by norm_num) hb.wac_ge
  unfold correctWidths
  rcases le_or_gt w.wac w.wp with hgamma | hgamma
  · -- both widths are replaced, and twice the new access width has two digits
    refine iff_of_true ?_ (.inr (.inl hgamma))
    rw [correctGamma_of_le hk hb hgamma]
    rcases le_or_gt (2 * 1.12) w.wn with hbeta | hbeta
    · rw [correctBeta_of_le hk (by norm_num) hbeta, valid_sram_params (by norm_num)]
      refine ⟨⟨hbeta, by norm_num⟩, hb.wn_ge, hb.wn_le, ?_, ?_, ?_, ?_⟩ <;> norm_num
    · have hround : round2 (2 * 1.12) = 2.24 := by decide +kernel
      rw [correctBeta_of_lt hk (by norm_num) (by norm_num) hbeta, valid_sram_params (by norm_num)]
      dsimp only
      rw [hround]
      refine ⟨⟨?_, ?_⟩, ?_, ?_, ?_, ?_, ?_, ?_⟩ <;> norm_num
  · rw [correctGamma_of_lt hb hgamma]
    rcases le_or_gt (2 * w.wac) w.wn with hbeta | hbeta
    · refine iff_of_true ?_ (.inl hbeta)
      rw [correctBeta_of_le hk hpos hbeta, valid_sram_params hpos]
      exact ⟨⟨hbeta, hgamma⟩, hb⟩
    · have hlow : 2.2 ≤ 2 * w.wac := by linarith [hb.wac_ge]
      have hhigh : 2 * w.wac ≤ 2.5 := by linarith [hb.wac_le]
      obtain ⟨hge, hle⟩ := round2_bounds hlow hhigh
      rw [correctBeta_of_lt hk hpos hb.wac_le hbeta,
        valid_sram_params (w := ⟨round2 (2 * w.wac), w.wp, w.wac⟩) hpos, ← le_round2_iff]
      constructor
      · exact fun h => .inr (.inr h.1.1)
      · rintro (h | h | h)
        · exact absurd h (not_le.mpr hbeta)
        · exact absurd h (not_le.mpr hgamma)
        · exact ⟨⟨h, hgamma⟩, hge, hle, hb.wp_ge, hb.wp_le, hb.wac_ge, hb.wac_le⟩

end

/-- The corrected widths of a design inside the bounds satisfy `valid_sram` and the
    bounds exactly when no pull-down transistor has to be widened, the access
    transistor is replaced, or twice its width is not rounded down. -/
theorem sram_correction_restores_iff {design : Dict ℚ} {w : Widths}
    (hw : Widths.ofDesign design = some w) (hb : w.InBounds) :
    (Restores correctTargetDesign design ↔
        2 * w.wac ≤ w.wn ∨ w.wac ≤ w.wp ∨ TwiceNotRoundedDown w.wac) ∧
      (Restores correctObjectiveDesign design ↔
        2 * w.wac ≤ w.wn ∨ w.wac ≤ w.wp ∨ TwiceNotRoundedDown w.wac) := by
  constructor
  · exact (restores_correctDesign hw).trans (correctWidths_restores_iff rfl hb)
  · exact (restores_correctDesign hw).trans (correctWidths_restores_iff rfl hb)

/-- A design with these widths and nothing else. -/
def Widths.design (w : Widths) : Dict ℚ := w.write fun _ => none

/-- Twice the access width is 2.296875, which is rounded up. -/
theorem sram_correction_restores_iff_rounded_up :
    Restores correctTargetDesign (Widths.design ⟨2.25, 1.0, 1.1484375⟩) ∧
      Restores correctObjectiveDesign (Widths.design ⟨2.25, 1.0, 1.1484375⟩) := by
  have hb : (Widths.mk 2.25 1.0 1.1484375).InBounds := by constructor <;> norm_num
  have hw : Widths.ofDesign (Widths.design ⟨2.25, 1.0, 1.1484375⟩) =
      some ⟨2.25, 1.0, 1.1484375⟩ := rfl
  obtain ⟨htarget, hobjective⟩ := sram_correction_restores_iff hw hb
  have hround : TwiceNotRoundedDown 1.1484375 := by decide +kernel
  exact ⟨htarget.mpr (.inr (.inr hround)), hobjective.mpr (.inr (.inr hround))⟩

/-- Twice the access width is 2.2002, and the pull-down transistor stays at 2.2. -/
theorem sram_correction_rounds_down :
    ¬ ∀ (design : Dict ℚ) (w : Widths), Widths.ofDesign design = some w → w.InBounds →
      Restores correctTargetDesign design ∧ Restores correctObjectiveDesign design := by
  intro h
  have hb : (Widths.mk 2.2 1.0 1.1001).InBounds := by constructor <;> norm_num
  obtain ⟨htarget, -⟩ := h (Widths.design ⟨2.2, 1.0, 1.1001⟩) _ rfl hb
  rw [correctTargetDesign, restores_correctDesign (w := ⟨2.2, 1.0, 1.1001⟩) rfl,
    correctWidths_restores_iff rfl hb] at htarget
  rcases htarget with hbeta | hgamma | hround
  · norm_num at hbeta
  · norm_num at hgamma
  · exact absurd hround (by decide +kernel)

end Destiny.Inverse
