/-
  Destiny.Bank.RowDecode

  The rows of a data mat against the addresses of its row predecoder.

  `Mat::Initialize` multiplies the rows by the ways of the mat and divides them
  by the mux degrees, in which the bank has folded the ways that share a row;
  the row predecoder gets the address bits less those mux degrees.  The first
  accounts for the ways, the second does not: `row_decode_iff` says that they
  agree just where no two ways share a row.
-/

import Destiny.Bank.Routing

namespace Destiny

open Lib

/-! ## Row addresses -/

/-- The address bits of both predecoder blocks. -/
def BlockPair.total (p : BlockPair) : Int := p.block1 + p.block2

theorem BlockPair.total_distribute (n : Int) : (BlockPair.distribute n).total = n := by
  unfold BlockPair.distribute BlockPair.total
  split
  · dsimp only
    omega
  · exact add_zero n

/-- `Mat::Initialize` comes to the check on the row address bits. -/
def MatArgs.ReachesRowPredecoder (g : Globals) (m : MatArgs) : Prop :=
  0 < m.effectiveAddressBit ∧ m.numRow ≠ 0 ∧ m.numDataColumn ≠ 0 ∧
    (m.subarray.Initialize g).isSome

/-- There, the sign of the row address bits decides. -/
theorem Mat.Initialize_of_reaches {g : Globals} {m : MatArgs} (h : m.ReachesRowPredecoder g) :
    Mat.Initialize g m =
      if m.numAddressRowPredecoder < 0 then none else some (m.build m.subarray) := by
  obtain ⟨haddr, hrow, hcol, hsub⟩ := h
  obtain ⟨s, hs⟩ := Option.isSome_iff_exists.mp hsub
  unfold Mat.Initialize
  rw [if_neg (by omega), if_neg hrow, if_neg hcol, hs, SubArray.eq_of_Initialize hs]

theorem Mat.reaches_of_Initialize {g : Globals} {m : MatArgs} {mat : Mat}
    (h : Mat.Initialize g m = some mat) : m.ReachesRowPredecoder g := by
  obtain ⟨haddr, hrow, hcol, hsub, -, -⟩ := Mat.Initialize_eq_some h
  exact ⟨haddr, hrow, hcol, by rw [hsub]; rfl⟩

/-- Each row of a valid mat is one row address and one row of its set, and a mat
    with rows has the address bits for them. -/
def DecodesRows (g : Globals) (m : MatArgs) : Prop :=
  (∀ mat, Mat.Initialize g m = some mat →
    2 ^ mat.rowPredecoder.total.toNat * m.numRowPerSet = mat.subarray.numRow) ∧
  (m.ReachesRowPredecoder g → (Mat.Initialize g m).isSome)

/-- The same about the two counts alone. -/
theorem decodesRows_iff {g : Globals} {m : MatArgs} :
    DecodesRows g m ↔ (m.ReachesRowPredecoder g → 0 ≤ m.numAddressRowPredecoder ∧
      2 ^ m.numAddressRowPredecoder.toNat * m.numRowPerSet = m.numRow) := by
  constructor
  · rintro ⟨hrows, haccept⟩ hreach
    have hvalid := haccept hreach
    rw [Mat.Initialize_of_reaches hreach] at hvalid
    split at hvalid
    · cases hvalid
    · next hbits =>
      have hmat := hrows _ (by rw [Mat.Initialize_of_reaches hreach, if_neg hbits])
      simp only [MatArgs.build, BlockPair.total_distribute] at hmat
      exact ⟨not_lt.mp hbits, hmat⟩
  · intro h
    refine ⟨fun mat hmat => ?_, fun hreach => ?_⟩
    · have hrows := (h (Mat.reaches_of_Initialize hmat)).2
      obtain ⟨-, -, -, -, -, rfl⟩ := Mat.Initialize_eq_some hmat
      simp only [MatArgs.build, BlockPair.total_distribute]
      exact hrows
    · rw [Mat.Initialize_of_reaches hreach, if_neg (not_lt.mpr (h hreach).1)]
      rfl

/-! ## Data mats of a bank -/

/-- The arguments either bank class hands to `Mat::Initialize`. -/
def RoutesTo (g : Globals) (a : BankArgs) (m : MatArgs) : Prop :=
  WithoutHtree.route g a = some m ∨ ∃ levels, WithHtree.route g a = .ok (levels, m)

/-- What a bank routes to a data mat: all the ways, with those that share a row
    folded into the muxes. -/
structure BankArgs.DataMat (g : Globals) (a : BankArgs) (m : MatArgs) : Prop where
  enoughWays : a.numRowPerSet ≤ a.associativity
  memoryType : m.memoryType = .data
  numWay : m.numWay = a.associativity
  numRowPerSet : m.numRowPerSet = a.numRowPerSet
  muxDegree : m.muxDegree =
    (a.mux.containWays g.memCellType (a.associativity / a.numRowPerSet)).product
  active : 0 < m.activePerRow * m.activePerColumn

theorem RoutesTo.dataMat {g : Globals} {a : BankArgs} {m : MatArgs} (hbin : a.Binary)
    (hdata : a.memoryType = .data) (h : RoutesTo g a m) : a.DataMat g m := by
  have hroute : WithoutHtree.route g a = some m := by
    rcases h with hclosed | ⟨levels, hlevels⟩
    · exact hclosed
    · exact (WithHtree.route_spec g hbin).of_eq_ok hlevels
  unfold WithoutHtree.route at hroute
  simp only [hdata] at hroute
  split at hroute
  · cases hroute
  · next hset =>
    obtain rfl := Option.some.inj hroute
    have hrowSub := Nat.pos_of_isPowerOfTwo hbin.numRowSubarray
    have hcolSub := Nat.pos_of_isPowerOfTwo hbin.numColumnSubarray
    have hactRow := Nat.pos_of_isPowerOfTwo hbin.numActiveSubarrayPerRow
    have hactCol := Nat.pos_of_isPowerOfTwo hbin.numActiveSubarrayPerColumn
    exact
      { enoughWays := not_lt.mp hset
        memoryType := hdata
        numWay := rfl
        numRowPerSet := rfl
        muxDegree := rfl
        active := Nat.mul_pos (lt_min (lt_min hactRow hcolSub) hcolSub)
          (lt_min (lt_min hactCol hrowSub) hrowSub) }

/-- No check before the row address bits fails: the subarray has addresses, rows
    and columns, and is legal. -/
def BankArgs.Fits (g : Globals) (a : BankArgs) (m : MatArgs) : Prop :=
  0 < m.effectiveAddressBit ∧
    a.mux.product ≤ 2 ^ m.effectiveAddressBit.toNat * a.numRowPerSet ∧
    m.activePerRow * m.activePerColumn ≤ m.numDataBit ∧
    (m.subarray.Initialize g).isSome

section
variable {g : Globals} {a : BankArgs} {m : MatArgs} {n w r d : ℕ}

/-- The rows and row address bits of a data mat, as exponents. -/
theorem BankArgs.DataMat.exponents (h : a.DataMat g m) (hn : m.effectiveAddressBit = n)
    (hw : a.associativity = 2 ^ w) (hr : a.numRowPerSet = 2 ^ r) (hd : a.mux.product = 2 ^ d) :
    r ≤ w ∧ m.numRow = 2 ^ (n + w) / 2 ^ (d + (w - r)) ∧
      m.numAddressRowPredecoder = n - (d + (w - r) : ℕ) := by
  have hrw : r ≤ w := by
    have hle := h.enoughWays
    rw [hw, hr] at hle
    exact (Nat.pow_le_pow_iff_right (by decide)).mp hle
  have hdegree : m.muxDegree = 2 ^ (d + (w - r)) := by
    rw [h.muxDegree, hw, hr, Nat.pow_div hrw two_pos, MuxDegrees.product_containWays, hd,
      ← pow_add]
  refine ⟨hrw, ?_, ?_⟩
  · rw [MatArgs.numRow, hn, hdegree, Int.toNat_natCast, if_pos h.memoryType, h.numWay, hw,
      pow_add 2 n w]
  · rw [MatArgs.numAddressRowPredecoder, hn, hdegree, truncLog2_natCast_two_pow]

/-- The checks before, in terms of what the bank was given. -/
theorem BankArgs.DataMat.fits_iff (h : a.DataMat g m) (hn : m.effectiveAddressBit = n)
    (hw : a.associativity = 2 ^ w) (hr : a.numRowPerSet = 2 ^ r) (hd : a.mux.product = 2 ^ d) :
    a.Fits g m ↔ m.ReachesRowPredecoder g := by
  obtain ⟨hrw, hrow, -⟩ := h.exponents hn hw hr hd
  have hrows : a.mux.product ≤ 2 ^ m.effectiveAddressBit.toNat * a.numRowPerSet ↔
      m.numRow ≠ 0 := by
    rw [hrow, hn, hd, hr, Int.toNat_natCast, ← pow_add, Nat.div_ne_zero_iff,
      Nat.pow_le_pow_iff_right (by decide), Nat.pow_le_pow_iff_right (by decide)]
    have hpos : 2 ^ (d + (w - r)) ≠ 0 := pow_ne_zero _ two_ne_zero
    constructor
    · intro hle
      exact ⟨hpos, by omega⟩
    · rintro ⟨-, hle⟩
      omega
  have hcolumns : m.activePerRow * m.activePerColumn ≤ m.numDataBit ↔ m.numDataColumn ≠ 0 := by
    rw [MatArgs.numDataColumn, Nat.div_ne_zero_iff]
    exact ⟨fun hle => ⟨h.active.ne', hle⟩, fun hle => hle.2⟩
  rw [BankArgs.Fits, MatArgs.ReachesRowPredecoder, hrows, hcolumns]

end

/-- The row predecoder covers the rows of a data mat just when every way has its
    own row and the addresses of a subarray cover the column muxes, unless an
    earlier check rejects the mat. -/
theorem row_decode_iff (g : Globals) (a : BankArgs) (hbin : a.Binary)
    (hdata : a.memoryType = .data) (m : MatArgs) (hroute : RoutesTo g a m) :
    DecodesRows g m ↔ (a.Fits g m → a.associativity = a.numRowPerSet ∧
      a.mux.product ≤ 2 ^ m.effectiveAddressBit.toNat) := by
  have hmat := hroute.dataMat hbin hdata
  obtain ⟨w, hw⟩ := hbin.associativity
  obtain ⟨r, hr⟩ := hbin.numRowPerSet
  obtain ⟨d, hd⟩ := isPowerOfTwo_mul (isPowerOfTwo_mul hbin.muxSenseAmp hbin.muxOutputLev1)
    hbin.muxOutputLev2
  rw [decodesRows_iff]
  by_cases haddr : 0 < m.effectiveAddressBit
  · obtain ⟨n, hn⟩ := Int.eq_ofNat_of_zero_le haddr.le
    rw [← hmat.fits_iff hn hw hr hd]
    obtain ⟨hrw, hrow, hbits⟩ := hmat.exponents hn hw hr hd
    refine forall_congr' fun hfits => ?_
    have hmux : a.mux.product = 2 ^ d := hd
    rw [hrow, hbits, hmat.numRowPerSet, hn, hw, hr, hmux, Int.toNat_natCast,
      Nat.pow_le_pow_iff_right (by decide)]
    have hle : d ≤ n + r := by
      have hrows := hfits.2.1
      rw [hmux, hr, hn, Int.toNat_natCast, ← pow_add] at hrows
      exact (Nat.pow_le_pow_iff_right (by decide)).mp hrows
    rw [Nat.pow_div (by omega) two_pos, ← pow_add]
    constructor
    · rintro ⟨hnonneg, hcount⟩
      -- the ways that share a row appear once in the rows and twice in the bits
      have hexp := Nat.pow_right_injective (le_refl 2) hcount
      have hwr : w = r := by omega
      exact ⟨by rw [hwr], by omega⟩
    · rintro ⟨hways, hdn⟩
      have hwr : w = r := Nat.pow_right_injective (le_refl 2) hways
      subst hwr
      refine ⟨by omega, ?_⟩
      congr 1
      omega
  · -- too aggressive partitioning
    exact ⟨fun _ hfits => absurd hfits.1 haddr, fun _ hreach => absurd hreach.1 haddr⟩

/-- What arrives at the mats of the two-by-two array, where a row holds both ways
    of its set. -/
def twoByTwoMat : MatArgs :=
  twoByTwoBank.matArgs 8 32 2 (twoByTwoBank.mux.containWays .SRAM 2)

/-- The same array with a row for each way. -/
def rowPerWayBank : BankArgs := { twoByTwoBank with numRowPerSet := 2 }

theorem row_decode_iff_row_per_way :
    (Mat.Initialize sramGlobals (rowPerWayBank.matArgs 8 32 2 rowPerWayBank.mux)).isSome = true ∧
      DecodesRows sramGlobals (rowPerWayBank.matArgs 8 32 2 rowPerWayBank.mux) := by
  have hbinary : rowPerWayBank.Binary := { twoByTwoBank_binary with numRowPerSet := ⟨1, rfl⟩ }
  refine ⟨by decide +kernel, (row_decode_iff sramGlobals rowPerWayBank hbinary rfl _
    (.inl (by decide +kernel))).mpr fun _ => ⟨rfl, by decide +kernel⟩⟩

/-- With both ways in a row seven address bits select among 256 rows. -/
theorem row_decode_short :
    WithoutHtree.route sramGlobals twoByTwoBank = some twoByTwoMat ∧
      ((WithHtree.route sramGlobals twoByTwoBank).map Prod.snd).toOption = some twoByTwoMat ∧
      ¬ DecodesRows sramGlobals twoByTwoMat := by
  refine ⟨by decide +kernel, by decide +kernel, fun h => ?_⟩
  have hmat : Mat.Initialize sramGlobals twoByTwoMat =
      some (twoByTwoMat.build twoByTwoMat.subarray) := by
    decide +kernel
  have hrows := h.1 _ hmat
  exact absurd hrows (by decide +kernel)

end Destiny
