/-
  Destiny.Mat

  `Mat::Initialize` and the checks of `SubArray::Initialize`: how the address
  bits, data bits and ways a bank routes to one mat become the rows and columns
  of its subarrays, and how the row and mux addresses are split over the
  predecoder blocks.

  An initialisation that sets `invalid` returns `none`.  The checks of
  `SubArray::Initialize` that compare currents and driver widths (and those of
  its decoders, muxes and drivers) are floating point; they enter as one
  predicate of `Globals` on the subarray's arguments.
-/

import Destiny.Lib.BinaryLog
import Destiny.Typedef

namespace Destiny

open Lib

/-! ## Arguments and globals -/

/-- The arguments of `SubArray::Initialize`, all of which it stores. -/
structure SubArray where
  numRow : Nat
  numColumn : Nat
  multipleRowPerSet : Bool
  split : Bool
  muxSenseAmp : Nat
  internalSenseAmp : Bool
  muxOutputLev1 : Nat
  muxOutputLev2 : Nat
  areaOptimizationLevel : BufferDesignTarget
  num3DLevels : Nat
  deriving DecidableEq, Repr

/-- The arguments of `Mat::Initialize`. -/
structure MatArgs where
  numRowSubarray : Nat
  numColumnSubarray : Nat
  numAddressBit : Int
  numDataBit : Nat
  numWay : Nat
  numRowPerSet : Nat
  split : Bool
  numActiveSubarrayPerRow : Nat
  numActiveSubarrayPerColumn : Nat
  muxSenseAmp : Nat
  internalSenseAmp : Bool
  muxOutputLev1 : Nat
  muxOutputLev2 : Nat
  areaOptimizationLevel : BufferDesignTarget
  memoryType : MemoryType
  stackedDieCount : Nat
  partitionGranularity : Nat
  monolithicStackCount : Nat
  deriving DecidableEq, Repr

/-- What the array model reads from the globals `inputParameter`, `cell` and
    `globalWire`, and the outcome of its floating-point checks. -/
structure Globals where
  designTarget : DesignTarget
  cacheAccessMode : CacheAccessMode
  associativity : Nat
  flashBlockSize : Nat
  pageSize : Nat
  memCellType : MemCellType
  globalWireRepeaterType : WireRepeaterType
  /-- a current or driver check of the subarray fails -/
  electricallyInvalid : SubArray → Bool
  /-- the sense amplifiers of a bank (how many, over how many mat columns, of
      which mat) are invalid -/
  globalSenseAmpInvalid : Nat → Nat → MatArgs → Bool

/-! ## Subarrays -/

/-- `SubArray::Initialize`: the legality checks in their order. -/
def SubArray.Initialize (g : Globals) (a : SubArray) : Option SubArray :=
  if g.designTarget = .cache ∧ g.cacheAccessMode ≠ .sequential_access_mode ∧
      a.numColumn < g.associativity then
    -- Each column should hold part of data in all the ways.
    none
  else if (g.memCellType = .DRAM ∨ g.memCellType = .eDRAM) ∧ 1 < a.muxSenseAmp then
    -- DRAM does not allow muxed bitline because of its destructive readout.
    none
  else if g.memCellType = .SLCNAND ∧ a.numRow < g.flashBlockSize / g.pageSize then
    none
  else if (g.memCellType = .SLCNAND ∨ g.memCellType = .memristor ∨ g.memCellType = .FBRAM) ∧
      a.internalSenseAmp = true ∧ a.muxSenseAmp < 2 then
    -- There is no way to put the sense amp.
    none
  else if g.electricallyInvalid a then none
  else some a

/-- A valid subarray keeps the arguments it was given. -/
theorem SubArray.eq_of_Initialize {g : Globals} {a s : SubArray}
    (h : a.Initialize g = some s) : s = a := by
  unfold SubArray.Initialize at h
  repeat' split at h
  all_goals first | (cases h; rfl) | cases h

/-! ## Mats -/

/-- The address bits of a pair of predecoder blocks. -/
structure BlockPair where
  block1 : Int
  block2 : Int
  deriving DecidableEq, Repr

/-- Block 2 is needed for more than three address bits. -/
def BlockPair.distribute (n : Int) : BlockPair :=
  if 3 < n then ⟨n - n / 2, n / 2⟩ else ⟨n, 0⟩

/-- `1 << numAddressBit` of both blocks. -/
def BlockPair.outputBits (p : BlockPair) : Nat := 2 ^ p.block1.toNat + 2 ^ p.block2.toNat

/-- A mat that `Mat::Initialize` left valid. -/
structure Mat extends MatArgs where
  subarray : SubArray
  rowPredecoder : BlockPair
  bitlineMuxPredecoder : BlockPair
  senseAmpMuxLev1Predecoder : BlockPair
  senseAmpMuxLev2Predecoder : BlockPair
  totalPredecoderOutputBits : Nat
  deriving DecidableEq, Repr

namespace MatArgs

/-- The active counts after the comparison with the subarray counts. -/
def activePerRow (a : MatArgs) : Nat := min a.numActiveSubarrayPerRow a.numColumnSubarray

def activePerColumn (a : MatArgs) : Nat := min a.numActiveSubarrayPerColumn a.numRowSubarray

/-- The address bits used to power gate inactive subarrays. -/
def numAddressForGating (a : MatArgs) : Int :=
  truncLog2
    ((a.numRowSubarray * a.numColumnSubarray / a.activePerColumn / a.activePerRow : Nat) : ℚ)

/-- The address bits left for rows and column decoding. -/
def effectiveAddressBit (a : MatArgs) : Int := a.numAddressBit - a.numAddressForGating

def muxDegree (a : MatArgs) : Nat := a.muxSenseAmp * a.muxOutputLev1 * a.muxOutputLev2

/-- The number of rows in a subarray; ways are rows only in a data array. -/
def numRow (a : MatArgs) : Nat :=
  2 ^ a.effectiveAddressBit.toNat * (if a.memoryType = .data then a.numWay else 1) / a.muxDegree

/-- The number of columns in a subarray before column muxing. -/
def numDataColumn (a : MatArgs) : Nat := a.numDataBit / (a.activePerRow * a.activePerColumn)

/-- The number of columns in a subarray; ways are columns only in a tag array. -/
def numColumn (a : MatArgs) : Nat :=
  a.numDataColumn * a.muxDegree * (if a.memoryType = .tag then a.numWay else 1)

/-- The arguments `Mat::Initialize` hands to its subarray. -/
def subarray (a : MatArgs) : SubArray where
  numRow := a.numRow
  numColumn := a.numColumn
  multipleRowPerSet := 1 < a.numRowPerSet
  split := true
  muxSenseAmp := a.muxSenseAmp
  internalSenseAmp := a.internalSenseAmp
  muxOutputLev1 := a.muxOutputLev1
  muxOutputLev2 := a.muxOutputLev2
  areaOptimizationLevel := a.areaOptimizationLevel
  num3DLevels := a.monolithicStackCount

/-- The address bits on row decoding. -/
def numAddressRowPredecoder (a : MatArgs) : Int :=
  a.effectiveAddressBit - truncLog2 (a.muxDegree : ℚ)

/-- The mat built once all checks have passed. -/
def build (a : MatArgs) (s : SubArray) : Mat :=
  let row := BlockPair.distribute a.numAddressRowPredecoder
  let bitline := BlockPair.distribute (truncLog2 (a.muxSenseAmp : ℚ))
  let lev1 := BlockPair.distribute (truncLog2 (a.muxOutputLev1 : ℚ))
  let lev2 := BlockPair.distribute (truncLog2 (a.muxOutputLev2 : ℚ))
  { a with
    numActiveSubarrayPerRow := a.activePerRow
    numActiveSubarrayPerColumn := a.activePerColumn
    subarray := s
    rowPredecoder := row
    bitlineMuxPredecoder := bitline
    senseAmpMuxLev1Predecoder := lev1
    senseAmpMuxLev2Predecoder := lev2
    totalPredecoderOutputBits :=
      row.outputBits + bitline.outputBits + lev1.outputBits + lev2.outputBits }

end MatArgs

/-- `Mat::Initialize`. -/
def Mat.Initialize (g : Globals) (a : MatArgs) : Option Mat :=
  -- too aggressive partitioning
  if a.effectiveAddressBit ≤ 0 then none
  else if a.numRow = 0 then none
  else if a.numDataColumn = 0 then none
  else
    match a.subarray.Initialize g with
    | none => none
    | some s => if a.numAddressRowPredecoder < 0 then none else some (a.build s)

/-! ## What a valid mat satisfies -/

/-- Everything a successful `Mat::Initialize` has checked and set. -/
theorem Mat.Initialize_eq_some {g : Globals} {a : MatArgs} {m : Mat}
    (h : Mat.Initialize g a = some m) :
    0 < a.effectiveAddressBit ∧ a.numRow ≠ 0 ∧ a.numDataColumn ≠ 0 ∧
      a.subarray.Initialize g = some a.subarray ∧ 0 ≤ a.numAddressRowPredecoder ∧
      m = a.build a.subarray := by
  unfold Mat.Initialize at h
  split at h
  · cases h
  · next haddr =>
    split at h
    · cases h
    · next hrow =>
      split at h
      · cases h
      · next hcol =>
        split at h
        · cases h
        · next s hs =>
          split at h
          · cases h
          · next hpred =>
            have hsub := SubArray.eq_of_Initialize hs
            subst hsub
            exact ⟨by omega, hrow, hcol, hs, by omega, (Option.some.inj h).symm⟩

/-- With no address bit left the mat is rejected. -/
theorem Mat.Initialize_of_numAddressBit_nonpos {g : Globals} {a : MatArgs}
    (hgate : 0 ≤ a.numAddressForGating) (h : a.numAddressBit ≤ 0) :
    Mat.Initialize g a = none := by
  rw [Mat.Initialize, if_pos (by unfold MatArgs.effectiveAddressBit; omega)]

/-- With no data bit the mat is rejected. -/
theorem Mat.Initialize_of_numDataBit_zero {g : Globals} {a : MatArgs} (h : a.numDataBit = 0) :
    Mat.Initialize g a = none := by
  have hcol : a.numDataColumn = 0 := by simp [MatArgs.numDataColumn, h]
  unfold Mat.Initialize
  simp [hcol]

/-! ## Power-of-two mats -/

/-- All counts and mux degrees of a mat are powers of two. -/
structure MatArgs.Binary (a : MatArgs) : Prop where
  numRowSubarray : a.numRowSubarray.isPowerOfTwo
  numColumnSubarray : a.numColumnSubarray.isPowerOfTwo
  numWay : a.numWay.isPowerOfTwo
  numActiveSubarrayPerRow : a.numActiveSubarrayPerRow.isPowerOfTwo
  numActiveSubarrayPerColumn : a.numActiveSubarrayPerColumn.isPowerOfTwo
  muxSenseAmp : a.muxSenseAmp.isPowerOfTwo
  muxOutputLev1 : a.muxOutputLev1.isPowerOfTwo
  muxOutputLev2 : a.muxOutputLev2.isPowerOfTwo

namespace MatArgs
variable {a : MatArgs}

/-- The gating bits count the subarrays that are never active together. -/
theorem numAddressForGating_spec (h : a.Binary) :
    ∃ k : ℕ, a.numAddressForGating = k ∧
      2 ^ k * (a.activePerColumn * a.activePerRow) = a.numRowSubarray * a.numColumnSubarray :=
  truncLog2_grid h.numRowSubarray h.numColumnSubarray
    (isPowerOfTwo_min h.numActiveSubarrayPerColumn h.numRowSubarray)
    (isPowerOfTwo_min h.numActiveSubarrayPerRow h.numColumnSubarray)
    (min_le_right _ _) (min_le_right _ _)

theorem numAddressForGating_nonneg (h : a.Binary) : 0 ≤ a.numAddressForGating := by
  obtain ⟨k, hk, -⟩ := numAddressForGating_spec h
  omega

theorem muxDegree_isPowerOfTwo (h : a.Binary) : a.muxDegree.isPowerOfTwo :=
  isPowerOfTwo_mul (isPowerOfTwo_mul h.muxSenseAmp h.muxOutputLev1) h.muxOutputLev2

/-- The muxes trade rows for columns: the cells of a subarray are one word for
    each effective address and way. -/
theorem numColumn_mul_numRow (h : a.Binary) (htype : a.memoryType ≠ .CAM)
    (hrow : a.numRow ≠ 0) :
    a.numColumn * a.numRow = 2 ^ a.effectiveAddressBit.toNat * a.numDataColumn * a.numWay := by
  have hways : (2 ^ a.effectiveAddressBit.toNat *
      (if a.memoryType = .data then a.numWay else 1)).isPowerOfTwo := by
    refine isPowerOfTwo_mul (isPowerOfTwo_two_pow _) ?_
    split
    · exact h.numWay
    · exact isPowerOfTwo_two_pow 0
  have hexact : a.muxDegree * a.numRow = 2 ^ a.effectiveAddressBit.toNat *
      (if a.memoryType = .data then a.numWay else 1) :=
    Nat.mul_div_cancel' (isPowerOfTwo_div hways (muxDegree_isPowerOfTwo h) hrow).2
  calc a.numColumn * a.numRow
      = a.numDataColumn * (a.muxDegree * a.numRow) *
          (if a.memoryType = .tag then a.numWay else 1) := by rw [numColumn]; ring
    _ = 2 ^ a.effectiveAddressBit.toNat * a.numDataColumn * a.numWay := by
      rw [hexact]
      cases hmem : a.memoryType with
      | data => simp only [if_true, reduceCtorEq, if_false]; ring
      | tag => simp only [if_true, reduceCtorEq, if_false]; ring
      | CAM => exact absurd hmem htype

end MatArgs

/-- A valid mat holds one word for each address and way routed to it. -/
theorem Mat.capacity_eq {g : Globals} {a : MatArgs} {m : Mat} (h : Mat.Initialize g a = some m)
    (hbin : a.Binary) (htype : a.memoryType ≠ .CAM)
    (hdvd : a.activePerRow * a.activePerColumn ∣ a.numDataBit) :
    m.subarray.numColumn * m.subarray.numRow * (a.numRowSubarray * a.numColumnSubarray) =
      2 ^ a.numAddressBit.toNat * a.numDataBit * a.numWay := by
  obtain ⟨haddr, hrow, -, -, -, rfl⟩ := Mat.Initialize_eq_some h
  obtain ⟨k, hk, hgrid⟩ := MatArgs.numAddressForGating_spec hbin
  have hbits : a.numAddressBit.toNat = a.effectiveAddressBit.toNat + k := by
    unfold MatArgs.effectiveAddressBit at haddr ⊢
    omega
  have hcolumn : a.numDataColumn * (a.activePerRow * a.activePerColumn) = a.numDataBit :=
    Nat.div_mul_cancel hdvd
  change a.numColumn * a.numRow * _ = _
  calc a.numColumn * a.numRow * (a.numRowSubarray * a.numColumnSubarray)
      = 2 ^ a.effectiveAddressBit.toNat * 2 ^ k *
          (a.numDataColumn * (a.activePerRow * a.activePerColumn)) * a.numWay := by
        rw [MatArgs.numColumn_mul_numRow hbin htype hrow, ← hgrid]; ring
    _ = 2 ^ a.numAddressBit.toNat * a.numDataBit * a.numWay := by
        rw [hcolumn, hbits, pow_add]

end Destiny
