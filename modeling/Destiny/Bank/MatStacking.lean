/-
  Destiny.Bank.MatStacking

  What the TSVs of a stacked mat cost.

  `Mat::Initialize` counts the outputs of the predecoder blocks.  Where the
  predecoders are on another die, every output needs a TSV: `CalculateArea` and
  `CalculatePower` charge them by that count, the one with redundant TSVs, the
  other with them only for the leakage.  `Mat.Charges` reads the charged numbers
  off what the two functions return.
-/

import Destiny.Bank.WireLength
import Mathlib.Tactic.Linarith

namespace Destiny

open Lib

/-! ## Predecoder blocks -/

inductive MatBlock
  | rowPredecoderBlock1 | rowPredecoderBlock2
  | bitlineMuxPredecoderBlock1 | bitlineMuxPredecoderBlock2
  | senseAmpMuxLev1PredecoderBlock1 | senseAmpMuxLev1PredecoderBlock2
  | senseAmpMuxLev2PredecoderBlock1 | senseAmpMuxLev2PredecoderBlock2
  deriving DecidableEq, Repr

def MatBlock.all : List MatBlock :=
  [.rowPredecoderBlock1, .rowPredecoderBlock2, .bitlineMuxPredecoderBlock1,
   .bitlineMuxPredecoderBlock2, .senseAmpMuxLev1PredecoderBlock1, .senseAmpMuxLev1PredecoderBlock2,
   .senseAmpMuxLev2PredecoderBlock1, .senseAmpMuxLev2PredecoderBlock2]

theorem MatBlock.mem_all (b : MatBlock) : b ∈ all := by cases b <;> decide

/-- The address bits of a block. -/
def Mat.numAddressBlock (m : Mat) : MatBlock → Int
  | .rowPredecoderBlock1 => m.rowPredecoder.block1
  | .rowPredecoderBlock2 => m.rowPredecoder.block2
  | .bitlineMuxPredecoderBlock1 => m.bitlineMuxPredecoder.block1
  | .bitlineMuxPredecoderBlock2 => m.bitlineMuxPredecoder.block2
  | .senseAmpMuxLev1PredecoderBlock1 => m.senseAmpMuxLev1Predecoder.block1
  | .senseAmpMuxLev1PredecoderBlock2 => m.senseAmpMuxLev1Predecoder.block2
  | .senseAmpMuxLev2PredecoderBlock1 => m.senseAmpMuxLev2Predecoder.block1
  | .senseAmpMuxLev2PredecoderBlock2 => m.senseAmpMuxLev2Predecoder.block2

/-- The outputs of the blocks that have an address bit. -/
def Mat.predecoderOutputs (m : Mat) : Nat :=
  ((MatBlock.all.filter fun b => 0 < m.numAddressBlock b).map fun b =>
    2 ^ (m.numAddressBlock b).toNat).sum

/-! ## Area and power -/

section
variable {K : Type} [Field K] [LinearOrder K] [FloorRing K]

/-- What `Mat::CalculateArea` reads of its components. -/
structure MatComponentArea (K : Type) where
  subarray : MatSize K
  predecoderArea : MatBlock → K
  comparatorArea : K

/-- `numTotalBits` and `numAccessBits` of `tsvArray`. -/
structure MatTSVBits where
  numTotalBits : Int
  numAccessBits : Int
  deriving DecidableEq, Repr

/-- The constructor of `TSV`. -/
def MatTSVBits.zero : MatTSVBits := ⟨0, 0⟩

structure MatArea (K : Type) extends MatSize K where
  area : K
  areaAllLogicBlocks : K
  tsvArray : MatTSVBits

/-- Where `CalculateArea` puts the predecoders on the logic layer. -/
def MatArgs.predecodersOnLogicLayer (a : MatArgs) : Prop :=
  1 < a.stackedDieCount ∧ a.partitionGranularity = 1

instance (a : MatArgs) : Decidable a.predecodersOnLogicLayer := inferInstanceAs (Decidable (_ ∧ _))

/-- Where `CalculatePower` charges address TSVs. -/
def MatArgs.addressThroughTSV (a : MatArgs) : Prop :=
  1 < a.stackedDieCount ∧ a.partitionGranularity ≠ 0

instance (a : MatArgs) : Decidable a.addressThroughTSV := inferInstanceAs (Decidable (_ ∧ _))

/-- The predecoder outputs with redundant TSVs, as a whole number. -/
def Mat.redundantOutputs (tsvRedundancy : K) (m : Mat) : Int :=
  toInt (m.totalPredecoderOutputBits * tsvRedundancy + 1 / 10)

/-- The area of the predecoders' TSVs. -/
def Mat.areaTSV (tsvRedundancy : K) (tsv : TSV K) (m : Mat) : K :=
  if m.predecodersOnLogicLayer then tsv.area * m.totalPredecoderOutputBits * tsvRedundancy else 0

/-- `Mat::CalculateArea` of a valid mat. -/
def Mat.CalculateArea (sqrt : K → K) (tsvRedundancy : K) (tsv : TSV K) (parts : MatComponentArea K)
    (tsvArray : MatTSVBits) (m : Mat) : MatArea K :=
  let areaAllPredecoderBlocks := (MatBlock.all.map parts.predecoderArea).sum
  let width := parts.subarray.width * m.numColumnSubarray
  let height := parts.subarray.height * m.numRowSubarray
  -- either the TSVs or the predecoders themselves take space on the mat
  let extra := sqrt
    (if m.predecodersOnLogicLayer then m.areaTSV tsvRedundancy tsv else areaAllPredecoderBlocks)
  let size : MatSize K :=
    if height < width then ⟨height, width + extra⟩ else ⟨height + extra, width⟩
  let comparator := m.memoryType = .tag ∧ m.internalSenseAmp = true
  let height :=
    if comparator ∧ ¬ m.predecodersOnLogicLayer then
      size.height + m.numWay * parts.comparatorArea / size.width
    else size.height
  { height := height
    width := size.width
    area := height * size.width
    areaAllLogicBlocks :=
      areaAllPredecoderBlocks + if comparator then parts.comparatorArea else 0
    tsvArray :=
      if m.predecodersOnLogicLayer then
        ⟨m.redundantOutputs tsvRedundancy, m.redundantOutputs tsvRedundancy⟩
      else tsvArray }

omit [LinearOrder K] [FloorRing K]

/-- What `Mat::CalculatePower` reads of its components. -/
structure MatComponentPower (K : Type) where
  predecoder : MatBlock → FunctionUnit K
  subarray : FunctionUnit K
  cellReadEnergy : K
  cellSetEnergy : K
  cellResetEnergy : K
  comparator : FunctionUnit K

structure MatPower (K : Type) where
  dynamicEnergy : Operation → K
  leakage : K
  cellReadEnergy : K
  cellSetEnergy : K
  cellResetEnergy : K

/-- A sum over all predecoder blocks. -/
def MatComponentPower.predecoders (parts : MatComponentPower K) (f : FunctionUnit K → K) : K :=
  (MatBlock.all.map fun b => f (parts.predecoder b)).sum

/-- The dynamic energy of predecoders and subarrays. -/
def Mat.arrayEnergy (parts : MatComponentPower K) (m : Mat) : Operation → K :=
  let active : K := m.numActiveSubarrayPerRow * m.numActiveSubarrayPerColumn
  fun
    | .read =>
        parts.predecoders (·.dynamicEnergy .read) + parts.subarray.dynamicEnergy .read * active
    | .write =>
        parts.predecoders (·.dynamicEnergy .write) + parts.subarray.dynamicEnergy .write * active
    | .reset =>
        parts.predecoders (·.dynamicEnergy .write) + parts.subarray.dynamicEnergy .reset * active
    | .set =>
        parts.predecoders (·.dynamicEnergy .write) + parts.subarray.dynamicEnergy .set * active
    -- every row is refreshed, in all subarrays
    | .refresh =>
        ((parts.predecoder .rowPredecoderBlock1).dynamicEnergy .read +
            (parts.predecoder .rowPredecoderBlock2).dynamicEnergy .read) *
          (m.subarray.numRow * m.numRowSubarray) +
        parts.subarray.dynamicEnergy .refresh * (m.numRowSubarray * m.numColumnSubarray)

/-- The operation of the TSVs; a refresh reads. -/
def Operation.throughTSV : Operation → Operation
  | .refresh => .read
  | op => op

/-- The comparators of all ways; they are read and written only. -/
def Mat.comparatorEnergy (parts : MatComponentPower K) (m : Mat) : Operation → K
  | .read => parts.comparator.dynamicEnergy .read * m.numWay
  | .write => parts.comparator.dynamicEnergy .write * m.numWay
  | .reset | .set | .refresh => 0

/-- `Mat::CalculatePower` of a valid mat. -/
def Mat.CalculatePower (tsv : TSV K) (tsvArray : MatTSVBits) (parts : MatComponentPower K)
    (m : Mat) : MatPower K :=
  let hops : K := m.stackedDieCount - 1
  let active : K := m.numActiveSubarrayPerRow * m.numActiveSubarrayPerColumn
  let comparator := m.memoryType = .tag ∧ m.internalSenseAmp = true
  { dynamicEnergy := fun op =>
      m.arrayEnergy parts op +
        (if m.addressThroughTSV then
          hops * m.totalPredecoderOutputBits * tsv.dynamicEnergy op.throughTSV else 0) +
        if comparator then m.comparatorEnergy parts op else 0
    leakage :=
      parts.predecoders (·.leakage) +
        parts.subarray.leakage * (m.numRowSubarray * m.numColumnSubarray) +
        (if m.addressThroughTSV then tsvArray.numTotalBits * hops * tsv.leakage else 0) +
        if comparator then parts.comparator.leakage * m.numWay else 0
    cellReadEnergy := parts.cellReadEnergy * active
    cellSetEnergy := parts.cellSetEnergy * active
    cellResetEnergy := parts.cellResetEnergy * active }

end

/-! ## The count of the outputs -/

/-- A mux degree has no negative number of address bits. -/
theorem truncLog2_natCast_nonneg {n : ℕ} (h : 0 < n) : 0 ≤ truncLog2 (n : ℚ) := by
  have hone : (1 : ℚ) ≤ n := by exact_mod_cast h
  have hlog : 0 ≤ Int.log 2 (2 * (n : ℚ) ^ 10) := by
    have hpow : (1 : ℚ) ≤ (n : ℚ) ^ 10 := one_le_pow₀ hone
    rw [← Int.zpow_le_iff_le_log (by norm_num) (by positivity), zpow_zero]
    linarith
  rw [truncLog2, if_pos (by linarith)]
  dsimp only
  split <;> omega

theorem BlockPair.distribute_nonneg {n : Int} (h : 0 ≤ n) :
    0 ≤ (distribute n).block1 ∧ 0 ≤ (distribute n).block2 := by
  unfold distribute
  split <;> constructor <;> dsimp only <;> omega

/-- Both blocks are there for more than three address bits. -/
theorem BlockPair.distribute_present_iff {n : Int} :
    (0 < (distribute n).block1 ∧ 0 < (distribute n).block2) ↔ 3 < n := by
  unfold distribute
  split <;> dsimp only <;> omega

/-- The terms of a list, where those that are left out are ones. -/
theorem sum_map_eq_filter_add {α : Type} (l : List α) (p : α → Bool) (f : α → Nat)
    (h : ∀ a ∈ l, p a = false → f a = 1) :
    (l.map f).sum = ((l.filter p).map f).sum + l.countP fun a => !p a := by
  induction l with
  | nil => rfl
  | cons a l ih =>
      have htail := ih fun b hb => h b (List.mem_cons_of_mem a hb)
      rw [List.map_cons, List.sum_cons, htail]
      cases hp : p a with
      | true =>
          rw [List.filter_cons_of_pos hp, List.countP_cons_of_neg (by simp [hp]), List.map_cons,
            List.sum_cons]
          omega
      | false =>
          rw [List.filter_cons_of_neg (by simp [hp]), List.countP_cons_of_pos (by simp [hp]),
            h a List.mem_cons_self hp]
          omega

/-- Every group of address bits needs both of its blocks. -/
def MatArgs.NeedsAllBlocks (a : MatArgs) : Prop :=
  3 < a.numAddressRowPredecoder ∧ 3 < truncLog2 (a.muxSenseAmp : ℚ) ∧
    3 < truncLog2 (a.muxOutputLev1 : ℚ) ∧ 3 < truncLog2 (a.muxOutputLev2 : ℚ)

instance (a : MatArgs) : Decidable a.NeedsAllBlocks := inferInstanceAs (Decidable (_ ∧ _))

section
variable {g : Globals} {a : MatArgs} {m : Mat}

/-- A valid mat has muxes of positive degree. -/
theorem Mat.mux_pos (h : Mat.Initialize g a = some m) :
    0 < a.muxSenseAmp ∧ 0 < a.muxOutputLev1 ∧ 0 < a.muxOutputLev2 := by
  obtain ⟨-, hrow, -⟩ := Mat.Initialize_eq_some h
  have hdegree : a.muxDegree ≠ 0 := by
    intro hzero
    exact hrow (by rw [MatArgs.numRow, hzero, Nat.div_zero])
  unfold MatArgs.muxDegree at hdegree
  refine ⟨Nat.pos_of_ne_zero ?_, Nat.pos_of_ne_zero ?_, Nat.pos_of_ne_zero ?_⟩ <;>
    · intro hzero
      simp [hzero] at hdegree

theorem Mat.numAddressBlock_nonneg (h : Mat.Initialize g a = some m) (b : MatBlock) :
    0 ≤ m.numAddressBlock b := by
  obtain ⟨hmux, hlev1, hlev2⟩ := Mat.mux_pos h
  obtain ⟨-, -, -, -, hrow, rfl⟩ := Mat.Initialize_eq_some h
  have hsense := BlockPair.distribute_nonneg (truncLog2_natCast_nonneg hmux)
  have h1 := BlockPair.distribute_nonneg (truncLog2_natCast_nonneg hlev1)
  have h2 := BlockPair.distribute_nonneg (truncLog2_natCast_nonneg hlev2)
  have h0 := BlockPair.distribute_nonneg hrow
  cases b with
  | rowPredecoderBlock1 => exact h0.1
  | rowPredecoderBlock2 => exact h0.2
  | bitlineMuxPredecoderBlock1 => exact hsense.1
  | bitlineMuxPredecoderBlock2 => exact hsense.2
  | senseAmpMuxLev1PredecoderBlock1 => exact h1.1
  | senseAmpMuxLev1PredecoderBlock2 => exact h1.2
  | senseAmpMuxLev2PredecoderBlock1 => exact h2.1
  | senseAmpMuxLev2PredecoderBlock2 => exact h2.2

/-- `totalPredecoderOutputBits` goes over all eight blocks. -/
theorem Mat.totalPredecoderOutputBits_eq (h : Mat.Initialize g a = some m) :
    m.totalPredecoderOutputBits =
      (MatBlock.all.map fun b => 2 ^ (m.numAddressBlock b).toNat).sum := by
  obtain ⟨-, -, -, -, -, rfl⟩ := Mat.Initialize_eq_some h
  simp only [MatArgs.build, BlockPair.outputBits, MatBlock.all, List.map_cons, List.map_nil,
    List.sum_cons, List.sum_nil, Mat.numAddressBlock]
  omega

/-- Each absent block adds one to the count. -/
theorem Mat.totalPredecoderOutputBits_eq_add (h : Mat.Initialize g a = some m) :
    m.totalPredecoderOutputBits = m.predecoderOutputs +
      MatBlock.all.countP fun b => !decide (0 < m.numAddressBlock b) := by
  rw [Mat.totalPredecoderOutputBits_eq h]
  refine sum_map_eq_filter_add MatBlock.all _ _ fun b _ habsent => ?_
  have hnonneg := Mat.numAddressBlock_nonneg h b
  have hzero : m.numAddressBlock b = 0 := by
    have hneg := of_decide_eq_false habsent
    omega
  rw [hzero, Int.toNat_zero, pow_zero]

theorem Mat.all_present_iff (h : Mat.Initialize g a = some m) :
    (∀ b, 0 < m.numAddressBlock b) ↔ a.NeedsAllBlocks := by
  obtain ⟨-, -, -, -, -, rfl⟩ := Mat.Initialize_eq_some h
  unfold MatArgs.NeedsAllBlocks
  rw [← BlockPair.distribute_present_iff, ← BlockPair.distribute_present_iff,
    ← BlockPair.distribute_present_iff, ← BlockPair.distribute_present_iff]
  constructor
  · intro hall
    exact ⟨⟨hall .rowPredecoderBlock1, hall .rowPredecoderBlock2⟩,
      ⟨hall .bitlineMuxPredecoderBlock1, hall .bitlineMuxPredecoderBlock2⟩,
      ⟨hall .senseAmpMuxLev1PredecoderBlock1, hall .senseAmpMuxLev1PredecoderBlock2⟩,
      ⟨hall .senseAmpMuxLev2PredecoderBlock1, hall .senseAmpMuxLev2PredecoderBlock2⟩⟩
  · rintro ⟨h0, hsense, h1, h2⟩ b
    cases b with
    | rowPredecoderBlock1 => exact h0.1
    | rowPredecoderBlock2 => exact h0.2
    | bitlineMuxPredecoderBlock1 => exact hsense.1
    | bitlineMuxPredecoderBlock2 => exact hsense.2
    | senseAmpMuxLev1PredecoderBlock1 => exact h1.1
    | senseAmpMuxLev1PredecoderBlock2 => exact h1.2
    | senseAmpMuxLev2PredecoderBlock1 => exact h2.1
    | senseAmpMuxLev2PredecoderBlock2 => exact h2.2

theorem Mat.totalPredecoderOutputBits_eq_iff (h : Mat.Initialize g a = some m) :
    m.totalPredecoderOutputBits = m.predecoderOutputs ↔ a.NeedsAllBlocks := by
  rw [← Mat.all_present_iff h, Mat.totalPredecoderOutputBits_eq_add h, Nat.add_eq_left,
    List.countP_eq_zero]
  constructor
  · intro hnone b
    have hpresent := hnone b b.mem_all
    simpa using hpresent
  · intro hall b _
    simpa using hall b

/-- There is at least one output. -/
theorem Mat.totalPredecoderOutputBits_pos (h : Mat.Initialize g a = some m) :
    0 < m.totalPredecoderOutputBits := by
  obtain ⟨-, -, -, -, -, rfl⟩ := Mat.Initialize_eq_some h
  have hrow : 0 < (BlockPair.distribute a.numAddressRowPredecoder).outputBits :=
    Nat.add_pos_left (Nat.two_pow_pos _) _
  show 0 < (BlockPair.distribute a.numAddressRowPredecoder).outputBits + _ + _ + _
  omega

end

/-! ## The TSVs charged -/

section
variable {K : Type} [Field K] [LinearOrder K] [FloorRing K]

/-- A TSV that costs nothing. -/
def TSV.free : TSV K := { FunctionUnit.zero with area := 0 }

/-- The numbers of TSVs that area, dynamic energy and leakage of a mat are charged
    for, the last two once for each die but one. -/
structure Mat.Charges (tsvRedundancy : K) (m : Mat) (area energy leakage : K) : Prop where
  area : ∀ tsv, m.areaTSV tsvRedundancy tsv = tsv.area * area
  energy : ∀ (tsv : TSV K) tsvArray parts op,
    (m.CalculatePower tsv tsvArray parts).dynamicEnergy op =
      (m.CalculatePower .free tsvArray parts).dynamicEnergy op +
        ((m.stackedDieCount : K) - 1) * energy * tsv.dynamicEnergy op.throughTSV
  leakage : ∀ sqrt areaParts (tsv : TSV K) parts,
    let tsvArray := (m.CalculateArea sqrt tsvRedundancy tsv areaParts .zero).tsvArray
    (m.CalculatePower tsv tsvArray parts).leakage =
      (m.CalculatePower .free tsvArray parts).leakage +
        ((m.stackedDieCount : K) - 1) * leakage * tsv.leakage

/-- A number of TSVs for `n` outputs with the redundancy, exact or whole. -/
def RedundantCount (tsvRedundancy : K) (n : Nat) (x : K) : Prop :=
  x = n * tsvRedundancy ∨ x = (toInt (n * tsvRedundancy + 1 / 10) : K)

/-- All charges are for the outputs of the predecoders, with the same redundancy. -/
def Mat.ChargesOutputs (tsvRedundancy : K) (m : Mat) : Prop :=
  ∀ area energy leakage, m.Charges tsvRedundancy area energy leakage →
    RedundantCount tsvRedundancy m.totalPredecoderOutputBits area ∧
      RedundantCount tsvRedundancy m.totalPredecoderOutputBits energy ∧
      RedundantCount tsvRedundancy m.totalPredecoderOutputBits leakage

/-- The numbers charged where addresses go through TSVs. -/
theorem Mat.charges (tsvRedundancy : K) {m : Mat} (hthrough : m.addressThroughTSV) :
    m.Charges tsvRedundancy
      (if m.predecodersOnLogicLayer then m.totalPredecoderOutputBits * tsvRedundancy else 0)
      m.totalPredecoderOutputBits
      (if m.predecodersOnLogicLayer then (m.redundantOutputs tsvRedundancy : K) else 0) where
  area tsv := by
    unfold Mat.areaTSV
    split
    · ring
    · rw [mul_zero]
  energy tsv tsvArray parts op := by
    simp only [Mat.CalculatePower, if_pos hthrough]
    have hfree : (TSV.free : TSV K).dynamicEnergy op.throughTSV = 0 := rfl
    rw [hfree]
    ring
  leakage sqrt areaParts tsv parts := by
    dsimp only [Mat.CalculateArea]
    simp only [Mat.CalculatePower, if_pos hthrough]
    have hfree : (TSV.free : TSV K).leakage = 0 := rfl
    rw [hfree]
    split
    · ring
    · -- the constructor's count is still in place
      have hzero : ((MatTSVBits.zero.numTotalBits : Int) : K) = 0 := Int.cast_zero
      rw [hzero]
      ring

/-- A TSV that costs one of everything. -/
def TSV.unit : TSV K where
  latency _ := 1
  dynamicEnergy _ := 1
  leakage := 1
  area := 1

/-- What a function charges determines the number it charges for. -/
theorem Mat.Charges.unique [IsStrictOrderedRing K] {tsvRedundancy : K} {m : Mat}
    {a e l a' e' l' : K} (hstack : 1 < m.stackedDieCount) (parts : MatComponentPower K)
    (areaParts : MatComponentArea K) (h : m.Charges tsvRedundancy a e l)
    (h' : m.Charges tsvRedundancy a' e' l') : a = a' ∧ e = e' ∧ l = l' := by
  have hhops : (m.stackedDieCount : K) - 1 ≠ 0 := by
    have hone : (1 : K) < m.stackedDieCount := by exact_mod_cast hstack
    exact (sub_pos.mpr hone).ne'
  refine ⟨?_, ?_, ?_⟩
  · have harea := (h.area .unit).symm.trans (h'.area .unit)
    have hone : (TSV.unit : TSV K).area = 1 := rfl
    rwa [hone, one_mul, one_mul] at harea
  · have henergy := (h.energy .unit .zero parts .read).symm.trans
      (h'.energy .unit .zero parts .read)
    have hone : (TSV.unit : TSV K).dynamicEnergy Operation.read.throughTSV = 1 := rfl
    rw [hone, mul_one, mul_one] at henergy
    exact mul_left_cancel₀ hhops (add_left_cancel henergy)
  · have hleakage := (h.leakage id areaParts .unit parts).symm.trans
      (h'.leakage id areaParts .unit parts)
    have hone : (TSV.unit : TSV K).leakage = 1 := rfl
    rw [hone, mul_one, mul_one] at hleakage
    exact mul_left_cancel₀ hhops (add_left_cancel hleakage)

/-- Parts that cost nothing. -/
def MatComponentArea.free : MatComponentArea K where
  subarray := ⟨0, 0⟩
  predecoderArea _ := 0
  comparatorArea := 0

def MatComponentPower.free : MatComponentPower K where
  predecoder _ := .zero
  subarray := .zero
  cellReadEnergy := 0
  cellSetEnergy := 0
  cellResetEnergy := 0
  comparator := .zero

section
variable [IsStrictOrderedRing K]

/-- The conversion to a positive whole number. -/
theorem toInt_eq_natCast_iff {x : K} {n : Nat} (h : 0 < n) :
    toInt x = n ↔ (n : K) ≤ x ∧ x < n + 1 := by
  have hn : (0 : K) < n := by exact_mod_cast h
  unfold toInt
  by_cases hx : 0 ≤ x
  · rw [if_pos hx, Int.floor_eq_iff, Int.cast_natCast]
  · rw [if_neg hx]
    constructor
    · intro hceil
      have hle : ⌈x⌉ ≤ 0 := Int.ceil_le.mpr (by rw [Int.cast_zero]; exact (not_le.mp hx).le)
      omega
    · rintro ⟨hle, -⟩
      exact absurd (hn.le.trans hle) hx

/-- A positive count is its own redundant count when the redundancy adds no whole TSV. -/
theorem redundantCount_self_iff {tsvRedundancy : K} {n : Nat} (h : 0 < n) :
    RedundantCount tsvRedundancy n (n : K) ↔
      (n : K) ≤ n * tsvRedundancy + 1 / 10 ∧ n * tsvRedundancy + 1 / 10 < (n : K) + 1 := by
  rw [← toInt_eq_natCast_iff h]
  constructor
  · rintro (hexact | hwhole)
    · rw [toInt_eq_natCast_iff h, ← hexact]
      constructor
      · linarith [show (0 : K) < 1 / 10 by norm_num]
      · linarith [show (1 / 10 : K) < 1 by norm_num]
    · exact_mod_cast hwhole.symm
  · intro hwhole
    exact .inr (by rw [hwhole, Int.cast_natCast])

/-- The charges agree just on a logic layer and without a redundant TSV. -/
theorem Mat.chargesOutputs_iff {tsvRedundancy : K} {m : Mat} (hthrough : m.addressThroughTSV)
    (hpos : 0 < m.totalPredecoderOutputBits) :
    m.ChargesOutputs tsvRedundancy ↔ m.partitionGranularity = 1 ∧
      (m.totalPredecoderOutputBits : K) ≤ m.totalPredecoderOutputBits * tsvRedundancy + 1 / 10 ∧
      m.totalPredecoderOutputBits * tsvRedundancy + 1 / 10 <
        (m.totalPredecoderOutputBits : K) + 1 := by
  have hcharges := Mat.charges tsvRedundancy hthrough
  rw [← redundantCount_self_iff hpos]
  constructor
  · intro hall
    obtain ⟨harea, henergy, -⟩ := hall _ _ _ hcharges
    refine ⟨?_, henergy⟩
    by_contra hgranularity
    -- no area is charged, but energy is
    have hoff : ¬ m.predecodersOnLogicLayer := fun h => hgranularity h.2
    rw [if_neg hoff] at harea
    rw [redundantCount_self_iff hpos] at henergy
    have hn : (1 : K) ≤ m.totalPredecoderOutputBits := by exact_mod_cast hpos
    have htenth : (1 / 10 : K) < 1 := by norm_num
    rcases harea with harea | harea
    · linarith [henergy.1]
    · rw [(toInt_eq_natCast_iff hpos).mpr henergy, Int.cast_natCast] at harea
      linarith
  · rintro ⟨hgranularity, henergy⟩ a e l h
    have hlayer : m.predecodersOnLogicLayer := ⟨hthrough.1, hgranularity⟩
    obtain ⟨rfl, rfl, rfl⟩ := h.unique hthrough.1 .free .free hcharges
    rw [if_pos hlayer, if_pos hlayer]
    exact ⟨.inl rfl, henergy, .inr rfl⟩

end

end

/-- The predecoder outputs of a valid mat are counted and charged by one rule exactly
    when no block is absent and the TSVs, where there are any, have no redundant one. -/
theorem predecoder_tsv_count_iff {K : Type} [Field K] [LinearOrder K] [IsStrictOrderedRing K]
    [FloorRing K] {g : Globals} {a : MatArgs} {m : Mat} (h : Mat.Initialize g a = some m)
    (tsvRedundancy : K) :
    (m.totalPredecoderOutputBits = m.predecoderOutputs ∧
        (1 < a.stackedDieCount ∧ a.partitionGranularity ≠ 0 → m.ChargesOutputs tsvRedundancy)) ↔
      a.NeedsAllBlocks ∧
        (1 < a.stackedDieCount ∧ a.partitionGranularity ≠ 0 → a.partitionGranularity = 1 ∧
          (m.predecoderOutputs : K) ≤ m.predecoderOutputs * tsvRedundancy + 1 / 10 ∧
          m.predecoderOutputs * tsvRedundancy + 1 / 10 < (m.predecoderOutputs : K) + 1) := by
  have hpos := Mat.totalPredecoderOutputBits_pos h
  have hstack : m.stackedDieCount = a.stackedDieCount := by
    obtain ⟨-, -, -, -, -, rfl⟩ := Mat.Initialize_eq_some h
    rfl
  have hgranularity : m.partitionGranularity = a.partitionGranularity := by
    obtain ⟨-, -, -, -, -, rfl⟩ := Mat.Initialize_eq_some h
    rfl
  rw [← Mat.totalPredecoderOutputBits_eq_iff h]
  refine and_congr_right fun hcount => imp_congr_right fun hthrough => ?_
  rw [← hcount, ← hgranularity]
  exact Mat.chargesOutputs_iff ⟨hstack ▸ hthrough.1, hgranularity ▸ hthrough.2⟩ hpos

/-- One subarray of 16 rows on the lower of two dies, with muxes of degree 16. -/
def muxedMat : MatArgs where
  numRowSubarray := 1
  numColumnSubarray := 1
  numAddressBit := 16
  numDataBit := 16
  numWay := 1
  numRowPerSet := 1
  split := false
  numActiveSubarrayPerRow := 1
  numActiveSubarrayPerColumn := 1
  muxSenseAmp := 16
  internalSenseAmp := true
  muxOutputLev1 := 16
  muxOutputLev2 := 16
  areaOptimizationLevel := .latency_first
  memoryType := .data
  stackedDieCount := 2
  partitionGranularity := 1
  monolithicStackCount := 1

/-- Sixty-four rows on a single die, without muxes. -/
def unmuxedMat : MatArgs :=
  { muxedMat with
    numAddressBit := 6, muxSenseAmp := 1, muxOutputLev1 := 1, muxOutputLev2 := 1
    stackedDieCount := 1, partitionGranularity := 0 }

theorem muxedMat_valid :
    Mat.Initialize sramGlobals muxedMat = some (muxedMat.build muxedMat.subarray) := by
  decide +kernel

theorem predecoder_tsv_count_iff_muxed :
    (muxedMat.build muxedMat.subarray).totalPredecoderOutputBits =
        (muxedMat.build muxedMat.subarray).predecoderOutputs ∧
      (1 < muxedMat.stackedDieCount ∧ muxedMat.partitionGranularity ≠ 0 →
        (muxedMat.build muxedMat.subarray).ChargesOutputs (1 : ℚ)) := by
  refine (predecoder_tsv_count_iff muxedMat_valid (1 : ℚ)).mpr ⟨by decide +kernel, fun _ => ?_⟩
  refine ⟨rfl, ?_, ?_⟩ <;> linarith

/-- Without muxes, six absent blocks are counted; and with the default redundancy of
    3/2 the dynamic energy is charged without redundant TSVs. -/
theorem predecoder_tsv_count_wrong :
    (Mat.Initialize sramGlobals unmuxedMat = some (unmuxedMat.build unmuxedMat.subarray) ∧
        (unmuxedMat.build unmuxedMat.subarray).totalPredecoderOutputBits = 22 ∧
        (unmuxedMat.build unmuxedMat.subarray).predecoderOutputs = 16) ∧
      Mat.Initialize sramGlobals muxedMat = some (muxedMat.build muxedMat.subarray) ∧
      ¬ (muxedMat.build muxedMat.subarray).ChargesOutputs (3 / 2 : ℚ) := by
  refine ⟨⟨by decide +kernel, by decide +kernel, by decide +kernel⟩, muxedMat_valid, ?_⟩
  have hcount : (muxedMat.build muxedMat.subarray).totalPredecoderOutputBits = 32 := by
    decide +kernel
  rw [Mat.chargesOutputs_iff ⟨by decide, by decide⟩ (by rw [hcount]; decide), hcount]
  rintro ⟨-, -, hwhole⟩
  norm_num at hwhole

end Destiny
