/-
  Destiny.Bank.Capacity

  A valid bank models exactly the capacity it was asked for.

  A mat holds one word for each address and way routed to it
  (`Mat.capacity_eq`); the mats of a bank together hold one block for each
  address and way of the bank; and the address bits of the bank times its ways
  and dies are the blocks of the requested capacity.  Over powers of two each of
  these divisions is exact unless the mat is invalid.
-/

import Destiny.Bank.Routing

namespace Destiny

open Lib

section
variable {g : Globals} {a : BankArgs}

/-- The gating bits count the mats that are never active together. -/
theorem WithoutHtree.numAddressForGating_spec (hbin : a.Binary) :
    ∃ k : ℕ, WithoutHtree.numAddressForGating a = k ∧
      2 ^ k * (a.clamp.numActiveMatPerColumn * a.clamp.numActiveMatPerRow) =
        a.numRowMat * a.numColumnMat :=
  truncLog2_grid hbin.numRowMat hbin.numColumnMat
    (isPowerOfTwo_min hbin.numActiveMatPerColumn hbin.numRowMat)
    (isPowerOfTwo_min hbin.numActiveMatPerRow hbin.numColumnMat)
    (min_le_right _ _) (min_le_right _ _)

/-- The active counts, of mats and subarrays together. -/
def BankArgs.activeProduct (a : BankArgs) : Nat :=
  a.numActiveMatPerRow * a.numActiveMatPerColumn * a.numActiveSubarrayPerRow *
    a.numActiveSubarrayPerColumn

/-- The sizes the search asks a bank for: a power of two of data bits, or tags
    padded to a multiple of the active product, one for each word. -/
inductive BankArgs.Requested (a : BankArgs) : Prop
  | data (htype : a.memoryType = .data) (hcapacity : a.capacity.isPowerOfTwo)
      (hblock : a.blockSize.isPowerOfTwo)
  | tag (tagBits : Int) (capacityBits wordWidth : Nat) (htype : a.memoryType = .tag)
      (hbits : capacityBits.isPowerOfTwo) (hword : wordWidth.isPowerOfTwo)
      (hblock : (a.blockSize : Int) = padBlockSize tagBits a.activeProduct)
      (hcapacity : a.capacity = capacityBits / wordWidth * a.blockSize)

theorem BankArgs.Requested.memoryType_ne_CAM (h : a.Requested) : a.memoryType ≠ .CAM := by
  cases h with
  | data htype => simp [htype]
  | tag _ _ _ htype => simp [htype]

/-- The active counts of the mats of a bank divide the requested ones. -/
theorem BankArgs.Binary.active_dvd (hbin : a.Binary) {A : Int} {D n : Nat} {m : MuxDegrees} :
    (a.matArgs A D n m).activePerRow * (a.matArgs A D n m).activePerColumn ∣ a.activeProduct := by
  have hrow : (a.matArgs A D n m).activePerRow ∣ a.numActiveSubarrayPerRow := by
    refine isPowerOfTwo_dvd (isPowerOfTwo_min (isPowerOfTwo_min hbin.numActiveSubarrayPerRow
      hbin.numColumnSubarray) hbin.numColumnSubarray) hbin.numActiveSubarrayPerRow ?_
    exact (min_le_left _ _).trans (min_le_left _ _)
  have hcolumn : (a.matArgs A D n m).activePerColumn ∣ a.numActiveSubarrayPerColumn := by
    refine isPowerOfTwo_dvd (isPowerOfTwo_min (isPowerOfTwo_min hbin.numActiveSubarrayPerColumn
      hbin.numRowSubarray) hbin.numRowSubarray) hbin.numActiveSubarrayPerColumn ?_
    exact (min_le_left _ _).trans (min_le_left _ _)
  rw [BankArgs.activeProduct, mul_assoc (a.numActiveMatPerRow * a.numActiveMatPerColumn)]
  exact Dvd.dvd.mul_left (mul_dvd_mul hrow hcolumn) _

/-- What the closed forms route to a valid mat: a block's bits and ways are
    divided exactly over the active mats and subarrays. -/
theorem WithoutHtree.route_words {m : MatArgs} {mat : Mat} (hbin : a.Binary)
    (hreq : a.Requested) (hroute : WithoutHtree.route g a = some m)
    (hmat : Mat.Initialize g m = some mat) :
    m.activePerRow * m.activePerColumn ∣ m.numDataBit ∧
      m.numDataBit * m.numWay *
          (a.clamp.numActiveMatPerColumn * a.clamp.numActiveMatPerRow) =
        a.blockSize * a.associativity := by
  obtain ⟨-, -, hcol, -⟩ := Mat.Initialize_eq_some hmat
  have hact := isPowerOfTwo_mul (isPowerOfTwo_min hbin.numActiveMatPerColumn hbin.numRowMat)
    (isPowerOfTwo_min hbin.numActiveMatPerRow hbin.numColumnMat)
  have hsub : (m.activePerRow * m.activePerColumn).isPowerOfTwo := by
    obtain ⟨D, n, mux, hn, hmux, rfl⟩ := WithoutHtree.route_eq_some hbin hroute
    have hmbin := hbin.matArgs (A := numAddressBitRouteToMat a) (D := D) hn hmux
    exact isPowerOfTwo_mul
      (isPowerOfTwo_min hmbin.numActiveSubarrayPerRow hmbin.numColumnSubarray)
      (isPowerOfTwo_min hmbin.numActiveSubarrayPerColumn hmbin.numRowSubarray)
  unfold WithoutHtree.route at hroute
  cases hreq with
  | data htype hcapacity hblock =>
      simp only [htype] at hroute
      split at hroute
      · cases hroute
      · obtain rfl := Option.some.inj hroute
        -- the block is a power of two, so non-zero quotients are exact
        have hbits : a.blockSize / a.clamp.numActiveMatPerColumn /
            a.clamp.numActiveMatPerRow ≠ 0 := by
          intro hzero
          exact hcol (by simp only [MatArgs.numDataColumn, BankArgs.matArgs, hzero, Nat.zero_div])
        rw [Nat.div_div_eq_div_mul] at hbits
        have hexact := isPowerOfTwo_div hblock hact hbits
        refine ⟨(isPowerOfTwo_div ?_ hsub hcol).2, ?_⟩
        · simp only [BankArgs.matArgs]
          rw [Nat.div_div_eq_div_mul]
          exact hexact.1
        · simp only [BankArgs.matArgs]
          rw [Nat.div_div_eq_div_mul, mul_right_comm]
          exact congrArg (· * a.associativity) (Nat.div_mul_cancel hexact.2)
  | tag tagBits capacityBits wordWidth htype hbits hword hblock hcapacity =>
      simp only [htype] at hroute
      split at hroute
      · cases hroute
      · split at hroute
        · cases hroute
        · next hway =>
          obtain rfl := Option.some.inj hroute
          -- the block is a multiple of the active counts, the ways a power of two
          rw [Nat.div_div_eq_div_mul, Nat.lt_one_iff] at hway
          refine ⟨?_, ?_⟩
          · refine hbin.active_dvd.trans ?_
            show a.activeProduct ∣ a.blockSize
            rw [← Int.natCast_dvd_natCast, hblock]
            exact dvd_padBlockSize _ _
          · simp only [BankArgs.matArgs]
            rw [Nat.div_div_eq_div_mul, mul_assoc]
            exact congrArg (a.blockSize * ·)
              (Nat.div_mul_cancel (isPowerOfTwo_div hbin.associativity hact hway).2)

/-- The addresses of a bank times its ways and dies are its blocks. -/
theorem BankArgs.numAddressBit_spec (hbin : a.Binary) (hreq : a.Requested)
    (hpos : 0 < a.numAddressBit) :
    2 ^ a.numAddressBit.toNat * (a.blockSize * a.associativity) * a.stackedDieCount =
      a.capacity := by
  have hdie : a.numAddressBit = truncLog2 ((a.capacity : ℚ) / a.blockSize / a.associativity /
      a.stackedDieCount) := by
    unfold BankArgs.numAddressBit
    split
    · rfl
    · next hone =>
      have hpos' := Nat.pos_of_isPowerOfTwo hbin.stackedDieCount
      have heq : a.stackedDieCount = 1 := by omega
      rw [heq, Nat.cast_one, div_one]
  -- data is cut into blocks; a tag block is as wide as the tag, which need not be a power of two
  cases hreq with
  | data htype hcapacity hblock =>
      have hratio : (a.capacity : ℚ) / a.blockSize / a.associativity / a.stackedDieCount =
          (a.capacity : ℚ) / ((a.blockSize * a.associativity * a.stackedDieCount : ℕ) : ℚ) := by
        push_cast
        rw [div_div, div_div, mul_assoc]
      rw [hratio] at hdie
      rw [hdie, mul_assoc]
      exact two_pow_truncLog2_div hcapacity
        (isPowerOfTwo_mul (isPowerOfTwo_mul hblock hbin.associativity) hbin.stackedDieCount)
        (hdie ▸ hpos)
  | tag tagBits capacityBits wordWidth htype hbits hword hblock hcapacity =>
      have hblock0 : (a.blockSize : ℚ) ≠ 0 := by
        intro hzero
        rw [hdie, hzero, div_zero, zero_div, zero_div, truncLog2_of_nonpos le_rfl, intMin] at hpos
        omega
      have hratio : (a.capacity : ℚ) / a.blockSize / a.associativity / a.stackedDieCount =
          ((capacityBits / wordWidth : ℕ) : ℚ) /
            ((a.associativity * a.stackedDieCount : ℕ) : ℚ) := by
        rw [hcapacity, Nat.cast_mul, mul_div_cancel_right₀ _ hblock0, div_div, Nat.cast_mul]
      have hwords : capacityBits / wordWidth ≠ 0 := by
        intro hzero
        rw [hdie, hratio, hzero, Nat.cast_zero, zero_div, truncLog2_of_nonpos le_rfl,
          intMin] at hpos
        omega
      rw [hratio] at hdie
      have hexact := two_pow_truncLog2_div (isPowerOfTwo_div hbits hword hwords).1
        (isPowerOfTwo_mul hbin.associativity hbin.stackedDieCount) (hdie ▸ hpos)
      rw [← hdie] at hexact
      calc 2 ^ a.numAddressBit.toNat * (a.blockSize * a.associativity) * a.stackedDieCount
          = 2 ^ a.numAddressBit.toNat * (a.associativity * a.stackedDieCount) * a.blockSize := by
            ring
        _ = a.capacity := by rw [hexact, hcapacity]

/-- The mats of a bank without H-tree hold its capacity. -/
theorem BankWithoutHtree.modelledCapacity_eq {b : Bank} (hbin : a.Binary) (hreq : a.Requested)
    (h : BankWithoutHtree.Initialize g a = some b) :
    b.modelledCapacity a.stackedDieCount = a.capacity := by
  obtain ⟨m, mat, hroute, hmat, rfl⟩ := BankWithoutHtree.Initialize_eq_some h
  obtain ⟨hdvd, hwords⟩ := WithoutHtree.route_words hbin hreq hroute hmat
  obtain ⟨D, n, mux, hn, hmux, rfl⟩ := WithoutHtree.route_eq_some hbin hroute
  have hmbin := hbin.matArgs (A := WithoutHtree.numAddressBitRouteToMat a) (D := D) hn hmux
  have hcells := Mat.capacity_eq hmat hmbin hreq.memoryType_ne_CAM hdvd
  obtain ⟨haddr, -⟩ := Mat.Initialize_eq_some hmat
  obtain ⟨k, hk, hgrid⟩ := WithoutHtree.numAddressForGating_spec hbin
  have hgate := MatArgs.numAddressForGating_nonneg hmbin
  have hroutebits : WithoutHtree.numAddressBitRouteToMat a = a.numAddressBit - k := by
    rw [WithoutHtree.numAddressBitRouteToMat, hk]
  -- a mat is built only with address bits of its own left
  have hmatpos : 0 < WithoutHtree.numAddressBitRouteToMat a := by
    have hle : 0 < (a.matArgs (WithoutHtree.numAddressBitRouteToMat a) D n mux).numAddressBit := by
      simp only [MatArgs.effectiveAddressBit] at haddr
      omega
    exact hle
  -- the rest of the address selects among the mats
  have hbits : a.numAddressBit.toNat =
      (WithoutHtree.numAddressBitRouteToMat a).toNat + k := by omega
  have hcapacity := BankArgs.numAddressBit_spec hbin hreq (by omega)
  simp only [BankArgs.matArgs] at hcells hwords
  simp only [Bank.modelledCapacity, BankArgs.clamp] at hgrid hwords ⊢
  calc mat.subarray.numColumn * mat.subarray.numRow * a.numColumnMat * a.numRowMat *
          a.numColumnSubarray * a.numRowSubarray * a.stackedDieCount
      = mat.subarray.numColumn * mat.subarray.numRow * (a.numRowSubarray * a.numColumnSubarray) *
          (a.numRowMat * a.numColumnMat) * a.stackedDieCount := by ring
    _ = 2 ^ (WithoutHtree.numAddressBitRouteToMat a).toNat * 2 ^ k *
          (D * n * (min a.numActiveMatPerColumn a.numRowMat *
            min a.numActiveMatPerRow a.numColumnMat)) * a.stackedDieCount := by
        rw [hcells, ← hgrid]
        ring
    _ = a.capacity := by rw [hwords, ← pow_add, ← hbits, hcapacity]

/-- The mats of a bank with H-tree hold its capacity. -/
theorem BankWithHtree.modelledCapacity_eq {b : BankWithHtree} (hbin : a.Binary)
    (hreq : a.Requested) (h : BankWithHtree.Initialize g a = some b) :
    b.modelledCapacity a.stackedDieCount = a.capacity := by
  obtain ⟨-, -, -, hint, -⟩ := BankWithHtree.Initialize_eq_some h
  have hmap := BankWithHtree.Initialize_map_toBank g hbin hint
  rw [h] at hmap
  exact BankWithoutHtree.modelledCapacity_eq hbin hreq hmap.symm

end

/-- A bank that either class leaves valid passes the capacity check. -/
theorem capacity_check_never_fails (g : Globals) (a : BankArgs) (hbin : a.Binary)
    (hreq : a.Requested) :
    (∀ b, BankWithHtree.Initialize g a = some b →
        b.modelledCapacity a.stackedDieCount = a.capacity ∧
          b.violatesCapacity a.stackedDieCount a.capacity = false) ∧
      ∀ b, BankWithoutHtree.Initialize g a = some b →
        b.modelledCapacity a.stackedDieCount = a.capacity ∧
          b.violatesCapacity a.stackedDieCount a.capacity = false := by
  refine ⟨fun b hb => ?_, fun b hb => ?_⟩
  · have hcap := BankWithHtree.modelledCapacity_eq hbin hreq hb
    exact ⟨hcap, by simp [Bank.violatesCapacity, hcap]⟩
  · have hcap := BankWithoutHtree.modelledCapacity_eq hbin hreq hb
    exact ⟨hcap, by simp [Bank.violatesCapacity, hcap]⟩

theorem capacity_check_never_fails_two_by_two :
    (∀ b, BankWithHtree.Initialize sramGlobals twoByTwoBank = some b →
        b.modelledCapacity 1 = 2 ^ 16 ∧ b.violatesCapacity 1 (2 ^ 16) = false) ∧
      ∀ b, BankWithoutHtree.Initialize sramGlobals twoByTwoBank = some b →
        b.modelledCapacity 1 = 2 ^ 16 ∧ b.violatesCapacity 1 (2 ^ 16) = false :=
  capacity_check_never_fails sramGlobals twoByTwoBank twoByTwoBank_binary
    (.data rfl ⟨16, rfl⟩ ⟨6, rfl⟩)

end Destiny
