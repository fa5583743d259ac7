/-
  Destiny.Bank.Basic

  What the two bank classes share: the arguments of `Bank::Initialize`, the
  total address bits, the way multiplexers, and the capacity checks of
  macros.h.

  The two routing organisations live in `Bank.WithoutHtree` (closed-form
  divisions) and `Bank.WithHtree` (level by level); both hand a `MatArgs` to
  `Mat.Initialize` and store the outcome as a `Bank`.
-/

import Destiny.Mat

namespace Destiny

open Lib

/-! ## Arguments -/

/-- The arguments of `Bank::Initialize`. -/
structure BankArgs where
  numRowMat : Nat
  numColumnMat : Nat
  /-- in bits -/
  capacity : Nat
  /-- in bits -/
  blockSize : Nat
  associativity : Nat
  numRowPerSet : Nat
  numActiveMatPerRow : Nat
  numActiveMatPerColumn : Nat
  muxSenseAmp : Nat
  internalSenseAmp : Bool
  muxOutputLev1 : Nat
  muxOutputLev2 : Nat
  numRowSubarray : Nat
  numColumnSubarray : Nat
  numActiveSubarrayPerRow : Nat
  numActiveSubarrayPerColumn : Nat
  areaOptimizationLevel : BufferDesignTarget
  memoryType : MemoryType
  stackedDieCount : Nat
  partitionGranularity : Nat
  monolithicStackCount : Nat
  deriving DecidableEq, Repr

namespace BankArgs

/-- The active counts a bank stores are at most the total counts. -/
def clamp (a : BankArgs) : BankArgs :=
  { a with
    numActiveMatPerRow := min a.numActiveMatPerRow a.numColumnMat
    numActiveMatPerColumn := min a.numActiveMatPerColumn a.numRowMat
    numActiveSubarrayPerRow := min a.numActiveSubarrayPerRow a.numColumnSubarray
    numActiveSubarrayPerColumn := min a.numActiveSubarrayPerColumn a.numRowSubarray }

/-- The address bits of the bank: one address for each block of each way (and
    die). -/
def numAddressBit (a : BankArgs) : Int :=
  if 1 < a.stackedDieCount then
    truncLog2 ((a.capacity : ℚ) / a.blockSize / a.associativity / a.stackedDieCount)
  else
    truncLog2 ((a.capacity : ℚ) / a.blockSize / a.associativity)

end BankArgs

/-! ## Way multiplexers -/

/-- The three mux degrees of a mat. -/
structure MuxDegrees where
  muxSenseAmp : Nat
  muxOutputLev1 : Nat
  muxOutputLev2 : Nat
  deriving DecidableEq, Repr

def MuxDegrees.product (m : MuxDegrees) : Nat := m.muxSenseAmp * m.muxOutputLev1 * m.muxOutputLev2

def BankArgs.mux (a : BankArgs) : MuxDegrees :=
  ⟨a.muxSenseAmp, a.muxOutputLev1, a.muxOutputLev2⟩

/-- The mux level recalculation when a row holds several ways. -/
def MuxDegrees.containWays (memCellType : MemCellType) (numWayPerRow : Nat) (m : MuxDegrees) :
    MuxDegrees :=
  if 1 < numWayPerRow then
    let numWayPerRowInLog := (truncLog2 (numWayPerRow : ℚ)).toNat
    if memCellType = .DRAM ∨ memCellType = .eDRAM then
      -- The mux before the sense amp has to be 1.
      let extraMuxOutputLev2 := 2 ^ (numWayPerRowInLog / 2)
      let extraMuxOutputLev1 := numWayPerRow / extraMuxOutputLev2
      { m with
        muxOutputLev1 := m.muxOutputLev1 * extraMuxOutputLev1
        muxOutputLev2 := m.muxOutputLev2 * extraMuxOutputLev2 }
    else
      let extraMuxOutputLev2 := 2 ^ (numWayPerRowInLog / 3)
      let extraMuxOutputLev1 := extraMuxOutputLev2
      let extraMuxSenseAmp := numWayPerRow / extraMuxOutputLev1 / extraMuxOutputLev2
      { muxSenseAmp := m.muxSenseAmp * extraMuxSenseAmp
        muxOutputLev1 := m.muxOutputLev1 * extraMuxOutputLev1
        muxOutputLev2 := m.muxOutputLev2 * extraMuxOutputLev2 }
  else m

/-- The ways of a row are exactly what the mux levels gain. -/
theorem MuxDegrees.product_containWays (t : MemCellType) (k : Nat) (m : MuxDegrees) :
    (m.containWays t (2 ^ k)).product = m.product * 2 ^ k := by
  unfold MuxDegrees.containWays
  split
  · next hlt =>
    have hlog : (truncLog2 ((2 ^ k : ℕ) : ℚ)).toNat = k := by
      rw [truncLog2_natCast_two_pow, Int.toNat_natCast]
    rw [hlog]
    split
    · have hdiv : 2 ^ k / 2 ^ (k / 2) * 2 ^ (k / 2) = 2 ^ k :=
        Nat.div_mul_cancel (pow_dvd_pow 2 (Nat.div_le_self k 2))
      simp only [product]
      calc m.muxSenseAmp * (m.muxOutputLev1 * (2 ^ k / 2 ^ (k / 2))) *
              (m.muxOutputLev2 * 2 ^ (k / 2))
          = m.muxSenseAmp * m.muxOutputLev1 * m.muxOutputLev2 *
              (2 ^ k / 2 ^ (k / 2) * 2 ^ (k / 2)) := by ring
        _ = _ := by rw [hdiv]
    · have hdiv : 2 ^ k / 2 ^ (k / 3) / 2 ^ (k / 3) * (2 ^ (k / 3) * 2 ^ (k / 3)) = 2 ^ k := by
        rw [Nat.div_div_eq_div_mul, ← pow_add]
        exact Nat.div_mul_cancel (pow_dvd_pow 2 (by omega))
      simp only [product]
      calc m.muxSenseAmp * (2 ^ k / 2 ^ (k / 3) / 2 ^ (k / 3)) *
              (m.muxOutputLev1 * 2 ^ (k / 3)) * (m.muxOutputLev2 * 2 ^ (k / 3))
          = m.muxSenseAmp * m.muxOutputLev1 * m.muxOutputLev2 *
              (2 ^ k / 2 ^ (k / 3) / 2 ^ (k / 3) * (2 ^ (k / 3) * 2 ^ (k / 3))) := by ring
        _ = _ := by rw [hdiv]
  · next hlt =>
    have hone : 2 ^ k = 1 := le_antisymm (not_lt.mp hlt) Nat.one_le_two_pow
    rw [hone, mul_one]

/-! ## Initialised banks -/

/-- A bank that `Initialize` left valid: its stored arguments (the mux degrees
    are reset "for correct printing"), its address bits and its mat. -/
structure Bank extends BankArgs where
  addressBit : Int
  /-- what was handed to `Mat::Initialize` -/
  matArgs : MatArgs
  mat : Mat
  deriving DecidableEq, Repr

/-- The mat arguments both organisations build from what they route to a mat. -/
def BankArgs.matArgs (a : BankArgs) (numAddressBit : Int) (numDataBit numWay : Nat)
    (mux : MuxDegrees) : MatArgs where
  numRowSubarray := a.numRowSubarray
  numColumnSubarray := a.numColumnSubarray
  numAddressBit := numAddressBit
  numDataBit := numDataBit
  numWay := numWay
  numRowPerSet := a.numRowPerSet
  split := false
  numActiveSubarrayPerRow := min a.numActiveSubarrayPerRow a.numColumnSubarray
  numActiveSubarrayPerColumn := min a.numActiveSubarrayPerColumn a.numRowSubarray
  muxSenseAmp := mux.muxSenseAmp
  internalSenseAmp := a.internalSenseAmp
  muxOutputLev1 := mux.muxOutputLev1
  muxOutputLev2 := mux.muxOutputLev2
  areaOptimizationLevel := a.areaOptimizationLevel
  memoryType := a.memoryType
  stackedDieCount := a.stackedDieCount
  partitionGranularity := a.partitionGranularity
  monolithicStackCount := a.monolithicStackCount

/-! ## Power-of-two geometries -/

/-- All counts of a bank but its capacity and block size are powers of two. -/
structure BankArgs.Binary (a : BankArgs) : Prop where
  numRowMat : a.numRowMat.isPowerOfTwo
  numColumnMat : a.numColumnMat.isPowerOfTwo
  associativity : a.associativity.isPowerOfTwo
  numRowPerSet : a.numRowPerSet.isPowerOfTwo
  numActiveMatPerRow : a.numActiveMatPerRow.isPowerOfTwo
  numActiveMatPerColumn : a.numActiveMatPerColumn.isPowerOfTwo
  muxSenseAmp : a.muxSenseAmp.isPowerOfTwo
  muxOutputLev1 : a.muxOutputLev1.isPowerOfTwo
  muxOutputLev2 : a.muxOutputLev2.isPowerOfTwo
  numRowSubarray : a.numRowSubarray.isPowerOfTwo
  numColumnSubarray : a.numColumnSubarray.isPowerOfTwo
  numActiveSubarrayPerRow : a.numActiveSubarrayPerRow.isPowerOfTwo
  numActiveSubarrayPerColumn : a.numActiveSubarrayPerColumn.isPowerOfTwo
  stackedDieCount : a.stackedDieCount.isPowerOfTwo

/-- The mux degrees of a power-of-two geometry stay powers of two. -/
structure MuxDegrees.Binary (m : MuxDegrees) : Prop where
  muxSenseAmp : m.muxSenseAmp.isPowerOfTwo
  muxOutputLev1 : m.muxOutputLev1.isPowerOfTwo
  muxOutputLev2 : m.muxOutputLev2.isPowerOfTwo

theorem MuxDegrees.Binary.containWays {m : MuxDegrees} (h : m.Binary) (t : MemCellType)
    {n : Nat} (hn : n.isPowerOfTwo) : (m.containWays t n).Binary := by
  obtain ⟨k, rfl⟩ := hn
  unfold MuxDegrees.containWays
  split
  · have hlog : (truncLog2 ((2 ^ k : ℕ) : ℚ)).toNat = k := by
      rw [truncLog2_natCast_two_pow, Int.toNat_natCast]
    rw [hlog]
    split
    · have hlev1 : 2 ^ k / 2 ^ (k / 2) = 2 ^ (k - k / 2) := Nat.pow_div (by omega) two_pos
      simp only [hlev1]
      exact ⟨h.muxSenseAmp, isPowerOfTwo_mul h.muxOutputLev1 (isPowerOfTwo_two_pow _),
        isPowerOfTwo_mul h.muxOutputLev2 (isPowerOfTwo_two_pow _)⟩
    · have hsense : 2 ^ k / 2 ^ (k / 3) / 2 ^ (k / 3) = 2 ^ (k - (k / 3 + k / 3)) := by
        rw [Nat.div_div_eq_div_mul, ← pow_add]
        exact Nat.pow_div (by omega) two_pos
      simp only [hsense]
      exact ⟨isPowerOfTwo_mul h.muxSenseAmp (isPowerOfTwo_two_pow _),
        isPowerOfTwo_mul h.muxOutputLev1 (isPowerOfTwo_two_pow _),
        isPowerOfTwo_mul h.muxOutputLev2 (isPowerOfTwo_two_pow _)⟩
  · exact h

/-- What a power-of-two bank hands to its mat is a power-of-two mat. -/
theorem BankArgs.Binary.matArgs {a : BankArgs} (h : a.Binary) {A : Int} {D n : Nat}
    {m : MuxDegrees} (hn : n.isPowerOfTwo) (hm : m.Binary) : (a.matArgs A D n m).Binary where
  numRowSubarray := h.numRowSubarray
  numColumnSubarray := h.numColumnSubarray
  numWay := hn
  numActiveSubarrayPerRow := isPowerOfTwo_min h.numActiveSubarrayPerRow h.numColumnSubarray
  numActiveSubarrayPerColumn := isPowerOfTwo_min h.numActiveSubarrayPerColumn h.numRowSubarray
  muxSenseAmp := hm.muxSenseAmp
  muxOutputLev1 := hm.muxOutputLev1
  muxOutputLev2 := hm.muxOutputLev2

/-- Rows and columns of mats, all and active, as exponents. -/
theorem BankArgs.Binary.exponents {a : BankArgs} (h : a.Binary) :
    ∃ LH LV p q : ℕ, a.numColumnMat = 2 ^ LH ∧ a.numRowMat = 2 ^ LV ∧
      a.clamp.numActiveMatPerRow = 2 ^ p ∧ a.clamp.numActiveMatPerColumn = 2 ^ q ∧
      p ≤ LH ∧ q ≤ LV := by
  obtain ⟨LH, hLH⟩ := h.numColumnMat
  obtain ⟨LV, hLV⟩ := h.numRowMat
  obtain ⟨p, hp⟩ := isPowerOfTwo_min h.numActiveMatPerRow h.numColumnMat
  obtain ⟨q, hq⟩ := isPowerOfTwo_min h.numActiveMatPerColumn h.numRowMat
  refine ⟨LH, LV, p, q, hLH, hLV, hp, hq, ?_, ?_⟩
  · rw [← Nat.pow_le_pow_iff_right (show 1 < 2 by decide), ← hp, ← hLH]
    exact min_le_right _ _
  · rw [← Nat.pow_le_pow_iff_right (show 1 < 2 by decide), ← hq, ← hLV]
    exact min_le_right _ _

/-! ## The capacity checks of the search -/

/-- The product `VERIFY_DATA_CAPACITY` and `VERIFY_TAG_CAPACITY` compute. -/
def Bank.modelledCapacity (b : Bank) (stackedDieCount : Nat) : Nat :=
  b.mat.subarray.numColumn * b.mat.subarray.numRow * b.numColumnMat * b.numRowMat *
    b.numColumnSubarray * b.numRowSubarray * stackedDieCount

/-- The branch of the capacity checks that ends in `exit(-1)`. -/
def Bank.violatesCapacity (b : Bank) (stackedDieCount capacity : Nat) : Bool :=
  b.modelledCapacity stackedDieCount != capacity

/-- The tag block size padded up to a multiple of the active product. -/
def padBlockSize (blockSize product : Int) : Int :=
  if blockSize.tmod product ≠ 0 then (blockSize.tdiv product + 1) * product else blockSize

theorem dvd_padBlockSize (blockSize product : Int) : product ∣ padBlockSize blockSize product := by
  unfold padBlockSize
  split
  · exact Dvd.intro_left _ rfl
  · next h => exact Int.dvd_of_tmod_eq_zero (not_not.mp h)

end Destiny
