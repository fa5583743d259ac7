/-
  Destiny.Inverse.Accepted

  Which geometries of a design the simulator accepts.

  * `InputParameter.CALCULATE` builds the arguments of `Bank::Initialize` for a
    point of the nest;
  * `Accepted` are the tests of main.cpp and the two banks with H-tree that
    have to be valid;
  * `Accepted.feasible` reads off the exponents what the simulator has checked
    over three functions.
-/

import Destiny.Bank.Capacity
import Destiny.Inverse.Design
import Destiny.Search.Nvsim

namespace Destiny

open Lib

/-! ## Points of the nest -/

/-- The arguments `CALCULATE` hands to `Bank::Initialize`. -/
def InputParameter.CALCULATE (ip : InputParameter) (memoryType : MemoryType) (x : Geometry) :
    BankArgs where
  numRowMat := x.numRowMat.toNat
  numColumnMat := x.numColumnMat.toNat
  capacity := x.capacity.toNat
  blockSize := x.blockSize.toNat
  associativity := x.associativity.toNat
  numRowPerSet := x.numRowPerSet.toNat
  numActiveMatPerRow := x.numActiveMatPerRow.toNat
  numActiveMatPerColumn := x.numActiveMatPerColumn.toNat
  muxSenseAmp := x.muxSenseAmp.toNat
  internalSenseAmp := ip.internalSensing
  muxOutputLev1 := x.muxOutputLev1.toNat
  muxOutputLev2 := x.muxOutputLev2.toNat
  numRowSubarray := x.numRowSubarray.toNat
  numColumnSubarray := x.numColumnSubarray.toNat
  numActiveSubarrayPerRow := x.numActiveSubarrayPerRow.toNat
  numActiveSubarrayPerColumn := x.numActiveSubarrayPerColumn.toNat
  areaOptimizationLevel := x.areaOptimizationLevel
  memoryType := memoryType
  stackedDieCount := x.stackedDieCount.toNat
  partitionGranularity := x.partitionGranularity
  monolithicStackCount := ip.monolithicStackCount

section
variable (ip : InputParameter) (m : MemoryType) (p : DesignPoint) (shape : ArrayShape)

theorem InputParameter.CALCULATE_capacity :
    (ip.CALCULATE m (p.geometry shape)).capacity = shape.capacity.toNat := rfl

theorem InputParameter.CALCULATE_blockSize :
    (ip.CALCULATE m (p.geometry shape)).blockSize = shape.blockSize.toNat := rfl

theorem InputParameter.CALCULATE_associativity :
    (ip.CALCULATE m (p.geometry shape)).associativity = shape.associativity.toNat := rfl

end

theorem InputParameter.tagShape_blockSize (ip : InputParameter) (pg : Nat) (p : DesignPoint) :
    (ip.tagShape pg p).blockSize = padBlockSize ip.tagBits p.activeProduct := by
  rw [InputParameter.tagShape]

theorem InputParameter.tagShape_capacity (ip : InputParameter) (pg : Nat) (p : DesignPoint) :
    (ip.tagShape pg p).capacity = (ip.capacity * 8 / ip.wordWidth : ℕ) *
      padBlockSize ip.tagBits p.activeProduct := by
  rw [InputParameter.tagShape]

/-- The active counts of a point of the nest are within the totals. -/
structure DesignPoint.Nested (p : DesignPoint) : Prop where
  matPerRow : p.numActiveMatPerRow ≤ p.numColumnMat
  matPerColumn : p.numActiveMatPerColumn ≤ p.numRowMat
  subarrayPerRow : p.numActiveSubarrayPerRow ≤ p.numColumnSubarray
  subarrayPerColumn : p.numActiveSubarrayPerColumn ≤ p.numRowSubarray

/-! ## Valid banks -/

section
variable {g : Globals} {a : BankArgs} {b : BankWithHtree}

/-- A valid bank has an address bit left after gating inactive mats. -/
theorem BankWithHtree.gating_lt_addressBit (hbin : a.Binary)
    (h : BankWithHtree.Initialize g a = some b) :
    WithoutHtree.numAddressForGating a < a.numAddressBit := by
  obtain ⟨-, -, -, hint, -⟩ := BankWithHtree.Initialize_eq_some h
  have hmap := BankWithHtree.Initialize_map_toBank g hbin hint
  rw [h] at hmap
  obtain ⟨m, mat, hroute, hmat, -⟩ := BankWithoutHtree.Initialize_eq_some hmap.symm
  obtain ⟨D, n, mux, hn, hmux, rfl⟩ := WithoutHtree.route_eq_some hbin hroute
  obtain ⟨haddr, -⟩ := Mat.Initialize_eq_some hmat
  have hgate := MatArgs.numAddressForGating_nonneg
    (hbin.matArgs (A := WithoutHtree.numAddressBitRouteToMat a) (D := D) hn hmux)
  have hpos : 0 < WithoutHtree.numAddressBitRouteToMat a := by
    simp only [MatArgs.effectiveAddressBit] at haddr
    have hbits : (a.matArgs (WithoutHtree.numAddressBitRouteToMat a) D n mux).numAddressBit =
        WithoutHtree.numAddressBitRouteToMat a := rfl
    omega
  rw [WithoutHtree.numAddressBitRouteToMat] at hpos
  omega

/-- Without a block there are no addresses. -/
theorem BankArgs.blockSize_ne_zero (h : 0 < a.numAddressBit) : a.blockSize ≠ 0 := by
  intro hzero
  rw [BankArgs.numAddressBit, hzero, Nat.cast_zero, div_zero, zero_div, zero_div,
    truncLog2_of_nonpos le_rfl, ite_self, intMin] at h
  omega

/-- A valid tag bank has a way for every active mat. -/
theorem BankWithHtree.way_of_tag (hbin : a.Binary) (htag : a.memoryType = .tag)
    (h : BankWithHtree.Initialize g a = some b) :
    a.clamp.numActiveMatPerColumn * a.clamp.numActiveMatPerRow ≤ a.associativity := by
  obtain ⟨-, -, -, hint, -⟩ := BankWithHtree.Initialize_eq_some h
  have hmap := BankWithHtree.Initialize_map_toBank g hbin hint
  rw [h] at hmap
  obtain ⟨m, mat, hroute, -, -⟩ := BankWithoutHtree.Initialize_eq_some hmap.symm
  unfold WithoutHtree.route at hroute
  simp only [htag] at hroute
  split at hroute
  · cases hroute
  · split at hroute
    · cases hroute
    · next hway =>
      rw [Nat.div_div_eq_div_mul, Nat.lt_one_iff] at hway
      exact (Nat.div_ne_zero_iff.mp hway).2

end

/-! ## Accepted designs -/

/-- What main.cpp and the classes it calls test of a data point and a tag point.
    The data partition is tested against the word width, the block size of
    every mode but fast access. -/
structure Accepted (g : Globals) (ip : InputParameter) (partitionGranularity : Nat)
    (data tag : DesignPoint) : Prop where
  data_nested : data.Nested
  tag_nested : tag.Nested
  tag_partition : ip.tagBits.tdiv tag.activeProduct ≠ 0
  tag_bank : (BankWithHtree.Initialize g (ip.CALCULATE .tag
    (tag.geometry (ip.tagShape partitionGranularity tag)))).isSome = true
  data_partition : (ip.wordWidth : Int).tdiv data.activeProduct ≠ 0
  data_bank : (BankWithHtree.Initialize g (ip.CALCULATE .data
    (data.geometry (ip.accessShape partitionGranularity)))).isSome = true

namespace Inverse

/-- The point of the nest has the counts of the design; what the design leaves
    open are powers of two. -/
structure ArrayDesign.Describes (a : ArrayDesign) (p : DesignPoint) : Prop where
  numRowMat : p.numRowMat = 2 ^ a.num_row_mat
  numColumnMat : p.numColumnMat = 2 ^ a.num_col_mat
  numActiveMatPerRow : p.numActiveMatPerRow = 2 ^ a.num_active_mat_per_row
  numActiveMatPerColumn : p.numActiveMatPerColumn = 2 ^ a.num_active_mat_per_col
  numActiveSubarrayPerRow : p.numActiveSubarrayPerRow = 2 ^ a.num_active_subarray_per_row
  numActiveSubarrayPerColumn : p.numActiveSubarrayPerColumn = 2 ^ a.num_active_subarray_per_col
  stackedDieCount : ∃ n : ℕ, p.stackedDieCount = 2 ^ n
  numRowSubarray : ∃ n : ℕ, p.numRowSubarray = 2 ^ n
  numColumnSubarray : ∃ n : ℕ, p.numColumnSubarray = 2 ^ n
  muxSenseAmp : ∃ n : ℕ, p.muxSenseAmp = 2 ^ n
  muxOutputLev1 : ∃ n : ℕ, p.muxOutputLev1 = 2 ^ n
  muxOutputLev2 : ∃ n : ℕ, p.muxOutputLev2 = 2 ^ n
  numRowPerSet : ∃ n : ℕ, p.numRowPerSet = 2 ^ n

/-- The simulator is run on the design. -/
structure Design.Describes (d : Design) (ip : InputParameter) (data tag : DesignPoint) :
    Prop where
  cache : ip.designTarget = .cache
  capacity : ip.capacity = 2 ^ (d.capacity_kb + 10)
  wordWidth : ip.wordWidth = 2 ^ d.word_width_bits
  associativity : ip.associativity = 2 ^ d.associativity
  data : d.data.Describes data
  tag : d.tag.Describes tag

/-- The integers main.cpp computes a tag with stay in their types: a word is at
    least a byte, the number of sets is an `int` and a tag has no negative
    width. -/
structure Design.Representable (d : Design) : Prop where
  byte : 3 ≤ d.word_width_bits
  sets : d.cap_bits < d.word_width_bits + d.associativity + 31
  tag : 0 ≤ d.tag_width

/-- The vocabularies of the optimiser hold representable designs only. -/
theorem Design.representable_of_vocab {d : Design} (hcap : d.capacity_kb ≤ 15)
    (hword : 6 ≤ d.word_width_bits) : d.Representable where
  byte := by omega
  sets := by
    rw [Design.cap_bits]
    omega
  tag := by
    rw [Design.tag_width]
    omega

/-! ## The arguments of a described design -/

theorem toNat_two_pow (n : ℕ) : ((2 : ℤ) ^ n).toNat = 2 ^ n := by
  rw [← Nat.cast_ofNat, ← Nat.cast_pow, Int.toNat_natCast]

theorem toNat_isPowerOfTwo {z : ℤ} (h : ∃ n : ℕ, z = 2 ^ n) : z.toNat.isPowerOfTwo := by
  obtain ⟨n, rfl⟩ := h
  exact ⟨n, toNat_two_pow n⟩

section
variable {e : ArrayDesign} {p : DesignPoint} {ip : InputParameter} {m : MemoryType}
  {shape : ArrayShape}

theorem ArrayDesign.Describes.binary (h : e.Describes p)
    (hassoc : ∃ n : ℕ, shape.associativity = 2 ^ n) :
    (ip.CALCULATE m (p.geometry shape)).Binary where
  numRowMat := toNat_isPowerOfTwo ⟨_, h.numRowMat⟩
  numColumnMat := toNat_isPowerOfTwo ⟨_, h.numColumnMat⟩
  associativity := toNat_isPowerOfTwo hassoc
  numRowPerSet := toNat_isPowerOfTwo h.numRowPerSet
  numActiveMatPerRow := toNat_isPowerOfTwo ⟨_, h.numActiveMatPerRow⟩
  numActiveMatPerColumn := toNat_isPowerOfTwo ⟨_, h.numActiveMatPerColumn⟩
  muxSenseAmp := toNat_isPowerOfTwo h.muxSenseAmp
  muxOutputLev1 := toNat_isPowerOfTwo h.muxOutputLev1
  muxOutputLev2 := toNat_isPowerOfTwo h.muxOutputLev2
  numRowSubarray := toNat_isPowerOfTwo h.numRowSubarray
  numColumnSubarray := toNat_isPowerOfTwo h.numColumnSubarray
  numActiveSubarrayPerRow := toNat_isPowerOfTwo ⟨_, h.numActiveSubarrayPerRow⟩
  numActiveSubarrayPerColumn := toNat_isPowerOfTwo ⟨_, h.numActiveSubarrayPerColumn⟩
  stackedDieCount := toNat_isPowerOfTwo h.stackedDieCount

/-- The active product in exponents. -/
theorem ArrayDesign.Describes.activeProduct (h : e.Describes p) :
    p.activeProduct = 2 ^ e.active_partitions := by
  rw [DesignPoint.activeProduct, h.numActiveMatPerRow, h.numActiveMatPerColumn,
    h.numActiveSubarrayPerRow, h.numActiveSubarrayPerColumn, ← pow_add, ← pow_add, ← pow_add,
    ArrayDesign.active_partitions, ArrayDesign.active_mats]

theorem ArrayDesign.Describes.activeProduct_CALCULATE (h : e.Describes p) (ip : InputParameter)
    (m : MemoryType) (shape : ArrayShape) :
    ((ip.CALCULATE m (p.geometry shape)).activeProduct : ℤ) = 2 ^ e.active_partitions := by
  have hprod : (ip.CALCULATE m (p.geometry shape)).activeProduct = 2 ^ e.active_partitions := by
    show p.numActiveMatPerRow.toNat * p.numActiveMatPerColumn.toNat *
      p.numActiveSubarrayPerRow.toNat * p.numActiveSubarrayPerColumn.toNat = _
    rw [h.numActiveMatPerRow, h.numActiveMatPerColumn, h.numActiveSubarrayPerRow,
      h.numActiveSubarrayPerColumn, toNat_two_pow, toNat_two_pow, toNat_two_pow, toNat_two_pow,
      ← pow_add, ← pow_add, ← pow_add, ArrayDesign.active_partitions, ArrayDesign.active_mats]
  rw [hprod]
  push_cast
  rfl

/-- Nested points describe nested designs. -/
theorem ArrayDesign.Describes.nested (h : e.Describes p) (hp : p.Nested) : e.Nested := by
  have hrow := hp.matPerRow
  have hcol := hp.matPerColumn
  rw [h.numActiveMatPerRow, h.numColumnMat, pow_le_pow_iff_right₀ one_lt_two] at hrow
  rw [h.numActiveMatPerColumn, h.numRowMat, pow_le_pow_iff_right₀ one_lt_two] at hcol
  exact ⟨hrow, hcol⟩

/-- Nothing is clamped at a nested point. -/
theorem ArrayDesign.Describes.clamp (h : e.Describes p) (ip : InputParameter) (m : MemoryType)
    (shape : ArrayShape) (hp : e.Nested) :
    (ip.CALCULATE m (p.geometry shape)).clamp.numActiveMatPerRow =
        2 ^ e.num_active_mat_per_row ∧
      (ip.CALCULATE m (p.geometry shape)).clamp.numActiveMatPerColumn =
        2 ^ e.num_active_mat_per_col := by
  have hrow : p.numActiveMatPerRow.toNat = 2 ^ e.num_active_mat_per_row := by
    rw [h.numActiveMatPerRow, toNat_two_pow]
  have hcol : p.numActiveMatPerColumn.toNat = 2 ^ e.num_active_mat_per_col := by
    rw [h.numActiveMatPerColumn, toNat_two_pow]
  have hcols : p.numColumnMat.toNat = 2 ^ e.num_col_mat := by rw [h.numColumnMat, toNat_two_pow]
  have hrows : p.numRowMat.toNat = 2 ^ e.num_row_mat := by rw [h.numRowMat, toNat_two_pow]
  constructor
  · show min p.numActiveMatPerRow.toNat p.numColumnMat.toNat = _
    rw [hrow, hcols]
    exact min_eq_left (Nat.pow_le_pow_right two_pos hp.per_row)
  · show min p.numActiveMatPerColumn.toNat p.numRowMat.toNat = _
    rw [hcol, hrows]
    exact min_eq_left (Nat.pow_le_pow_right two_pos hp.per_col)

/-- The mats that are not active take address bits of a valid bank. -/
theorem ArrayDesign.Describes.gating {g : Globals} {b : BankWithHtree} (h : e.Describes p)
    (hp : e.Nested) (hassoc : ∃ n : ℕ, shape.associativity = 2 ^ n)
    (hbank : BankWithHtree.Initialize g (ip.CALCULATE m (p.geometry shape)) = some b) :
    (e.total_mats : ℤ) <
      (ip.CALCULATE m (p.geometry shape)).numAddressBit + e.active_mats := by
  have hlt := BankWithHtree.gating_lt_addressBit (h.binary hassoc) hbank
  have hcols : p.numColumnMat.toNat = 2 ^ e.num_col_mat := by rw [h.numColumnMat, toNat_two_pow]
  have hrows : p.numRowMat.toNat = 2 ^ e.num_row_mat := by rw [h.numRowMat, toNat_two_pow]
  obtain ⟨hrow, hcol⟩ := h.clamp ip m shape hp
  rw [WithoutHtree.numAddressForGating_eq hcols hrows hrow hcol hp.per_row hp.per_col] at hlt
  have hperrow := hp.per_row
  have hpercol := hp.per_col
  rw [ArrayDesign.total_mats, ArrayDesign.active_mats]
  omega

end

/-! ## Address bits -/

section
variable {d : Design} {ip : InputParameter} {data tag : DesignPoint} {g : Globals}
  {pg : Nat}

/-- Whatever the access mode, a data block has at least the bits of a word. -/
theorem Design.Describes.accessShape (h : d.Describes ip data tag) (pg : Nat) :
    ∃ w m : ℕ, (ip.accessShape pg).capacity = 2 ^ d.cap_bits ∧
      (ip.accessShape pg).blockSize = 2 ^ w ∧ (ip.accessShape pg).associativity = 2 ^ m ∧
      d.word_width_bits ≤ w := by
  have hcap : (ip.capacity * 8 : ℤ) = 2 ^ d.cap_bits := by
    rw [h.capacity, Design.cap_bits]
    push_cast
    ring
  have hww : (ip.wordWidth : ℤ) = 2 ^ d.word_width_bits := by
    rw [h.wordWidth]
    push_cast
    rfl
  have hassoc : (ip.associativity : ℤ) = 2 ^ d.associativity := by
    rw [h.associativity]
    push_cast
    rfl
  rw [InputParameter.accessShape]
  simp only [h.cache, if_true]
  cases ip.cacheAccessMode with
  | normal_access_mode => exact ⟨_, _, hcap, hww, hassoc, le_rfl⟩
  | sequential_access_mode => exact ⟨_, 0, hcap, hww, (pow_zero 2).symm, le_rfl⟩
  | fast_access_mode =>
      refine ⟨d.word_width_bits + d.associativity, 0, hcap, ?_, (pow_zero 2).symm,
        Nat.le_add_right _ _⟩
      rw [pow_add, ← hww, ← hassoc]

/-- A valid data bank leaves an address bit to its mats. -/
theorem Design.Describes.data_address (h : d.Describes ip data tag) (hnested : data.Nested)
    {b : BankWithHtree} (hbank : BankWithHtree.Initialize g (ip.CALCULATE .data
      (data.geometry (ip.accessShape pg))) = some b) :
    d.word_width_bits + d.data.total_mats < d.cap_bits + d.data.active_mats := by
  obtain ⟨w, m, hcap, hblock, hassoc, hw⟩ := h.accessShape pg
  obtain ⟨L, hL⟩ := h.data.stackedDieCount
  have hnest := h.data.nested hnested
  have hgate := h.data.gating hnest ⟨m, hassoc⟩ hbank
  have hpos : d.data.active_mats ≤ d.data.total_mats := by
    have hrow := hnest.per_row
    have hcol := hnest.per_col
    rw [ArrayDesign.active_mats, ArrayDesign.total_mats]
    omega
  generalize ha : ip.CALCULATE .data (data.geometry (ip.accessShape pg)) = a at hgate hbank
  have hcapacity : a.capacity = 2 ^ d.cap_bits := by
    rw [← ha, InputParameter.CALCULATE_capacity, hcap, toNat_two_pow]
  have hblockSize : a.blockSize = 2 ^ w := by
    rw [← ha, InputParameter.CALCULATE_blockSize, hblock, toNat_two_pow]
  have hways : a.associativity = 2 ^ m := by
    rw [← ha, InputParameter.CALCULATE_associativity, hassoc, toNat_two_pow]
  have hdies : a.stackedDieCount = 2 ^ L := by
    rw [← ha, ← toNat_two_pow, ← hL]
    rfl
  have hbin : a.Binary := ha ▸ h.data.binary ⟨m, hassoc⟩
  have hspec := BankArgs.numAddressBit_spec hbin
    (.data (by rw [← ha]; rfl) ⟨_, hcapacity⟩ ⟨_, hblockSize⟩) (by omega)
  -- addresses, bits, ways and dies multiply to the capacity
  rw [hcapacity, hblockSize, hways, hdies, ← pow_add, ← pow_add, ← pow_add] at hspec
  have hexp := Nat.pow_right_injective le_rfl hspec
  omega

/-- The word width cancels in the width of a tag, as exponents. -/
theorem InputParameter.tagBits_eq {ip : InputParameter} {c w m : ℕ}
    (hcapacity : ip.capacity = 2 ^ (c + 10)) (hword : ip.wordWidth = 2 ^ w)
    (hassoc : ip.associativity = 2 ^ m) (hbyte : 3 ≤ w) (hsets : w + m ≤ c + 13)
    (hint : c + 13 < w + m + 31) : ip.tagBits = 40 - c + m := by
  obtain ⟨n, hn⟩ := Nat.exists_eq_add_of_le hsets
  obtain ⟨o, ho⟩ := Nat.exists_eq_add_of_le hbyte
  have hdiv : ip.capacity * 8 / ip.wordWidth / ip.associativity = 2 ^ n := by
    have hprod : ip.capacity * 8 = 2 ^ n * (2 ^ w * 2 ^ m) := by
      rw [hcapacity, show 8 = 2 ^ 3 by rfl, ← pow_add, ← pow_add, ← pow_add]
      congr 1
      omega
    rw [hword, hassoc, Nat.div_div_eq_div_mul, hprod]
    exact Nat.mul_div_cancel _ (by positivity)
  have hbmod : ((2 ^ n : ℕ) : ℤ).bmod (2 ^ 32) = (2 ^ n : ℕ) := by
    have hlt : 2 ^ n < 2 ^ 31 := Nat.pow_lt_pow_right (by decide) (by omega)
    generalize 2 ^ n = sets at hlt
    apply Int.bmod_eq_of_le <;> omega
  have hoffset : ip.wordWidth / 8 = 2 ^ o := by
    rw [hword, ho, pow_add]
    exact Nat.mul_div_cancel_left _ (by decide)
  have hindex : truncLog2 ((((2 ^ n : ℕ) : ℤ) : ℚ)) = n := by
    rw [Int.cast_natCast, truncLog2_natCast_two_pow]
  rw [InputParameter.tagBits, hdiv, hbmod, hindex, hoffset, truncLog2_natCast_two_pow,
    TOTAL_ADDRESS_BIT]
  omega

theorem Design.Describes.tagBits (h : d.Describes ip data tag) (hrep : d.Representable)
    (hsets : d.word_width_bits + d.associativity ≤ d.cap_bits) : ip.tagBits = d.tag_width :=
  InputParameter.tagBits_eq h.capacity h.wordWidth h.associativity hrep.byte hsets hrep.sets

/-- A valid tag bank leaves an address bit to its mats. -/
theorem Design.Describes.tag_address (h : d.Describes ip data tag) (hnested : tag.Nested)
    {b : BankWithHtree} (hbank : BankWithHtree.Initialize g (ip.CALCULATE .tag
      (tag.geometry (ip.tagShape pg tag))) = some b) :
    d.word_width_bits + d.associativity + d.tag.total_mats <
      d.cap_bits + d.tag.active_mats := by
  obtain ⟨L, hL⟩ := h.tag.stackedDieCount
  have hassoc : (ip.tagShape pg tag).associativity = 2 ^ d.associativity := by
    rw [InputParameter.tagShape, h.associativity]
    push_cast
    rfl
  have hnest := h.tag.nested hnested
  have hgate := h.tag.gating hnest ⟨_, hassoc⟩ hbank
  have hpos : d.tag.active_mats ≤ d.tag.total_mats := by
    have hrow := hnest.per_row
    have hcol := hnest.per_col
    rw [ArrayDesign.active_mats, ArrayDesign.total_mats]
    omega
  generalize ha : ip.CALCULATE .tag (tag.geometry (ip.tagShape pg tag)) = a at hgate hbank
  have hblock : a.blockSize = (padBlockSize ip.tagBits tag.activeProduct).toNat := by
    rw [← ha, InputParameter.CALCULATE_blockSize, InputParameter.tagShape_blockSize]
  have hblock0 := BankArgs.blockSize_ne_zero (a := a) (by omega)
  have hpad : (a.blockSize : ℤ) = padBlockSize ip.tagBits tag.activeProduct := by omega
  have hproduct : (a.activeProduct : ℤ) = tag.activeProduct := by
    rw [h.tag.activeProduct, ← h.tag.activeProduct_CALCULATE ip .tag (ip.tagShape pg tag),
      ha]
  have hcapacity : a.capacity = 2 ^ d.cap_bits / 2 ^ d.word_width_bits * a.blockSize := by
    have hcap : a.capacity = ((ip.capacity * 8 / ip.wordWidth : ℕ) *
        padBlockSize ip.tagBits tag.activeProduct).toNat := by
      rw [← ha, InputParameter.CALCULATE_capacity, InputParameter.tagShape_capacity]
    have hbits : ip.capacity * 8 = 2 ^ d.cap_bits := by
      rw [h.capacity, Design.cap_bits, show 8 = 2 ^ 3 by rfl, ← pow_add]
    rw [hcap, ← hpad, ← Nat.cast_mul, Int.toNat_natCast, hbits, h.wordWidth]
  have hways : a.associativity = 2 ^ d.associativity := by
    rw [← ha, InputParameter.CALCULATE_associativity, hassoc, toNat_two_pow]
  have hdies : a.stackedDieCount = 2 ^ L := by
    rw [← ha, ← toNat_two_pow, ← hL]
    rfl
  have hbin : a.Binary := ha ▸ h.tag.binary ⟨_, hassoc⟩
  have hspec := BankArgs.numAddressBit_spec hbin
    (.tag ip.tagBits (2 ^ d.cap_bits) (2 ^ d.word_width_bits) (by rw [← ha]; rfl)
      (isPowerOfTwo_two_pow _) (isPowerOfTwo_two_pow _) (by rw [hpad, hproduct]) hcapacity)
    (by omega)
  -- the block cancels: addresses, ways and dies multiply to the words
  have hwords : 2 ^ (a.numAddressBit.toNat + d.associativity + L) =
      2 ^ d.cap_bits / 2 ^ d.word_width_bits := by
    apply Nat.eq_of_mul_eq_mul_right (Nat.pos_of_ne_zero hblock0)
    rw [← hcapacity, ← hspec, hways, hdies, pow_add, pow_add]
    ring
  have hfits : d.word_width_bits ≤ d.cap_bits := by
    by_contra hlt
    rw [Nat.div_eq_of_lt (Nat.pow_lt_pow_right one_lt_two (by omega))] at hwords
    exact absurd hwords (by positivity)
  rw [Nat.pow_div hfits two_pos] at hwords
  have hexp := Nat.pow_right_injective le_rfl hwords
  omega

end

end Inverse

open Inverse in
/-- An accepted design has a feasible geometry. -/
theorem Accepted.feasible {d : Design} {ip : InputParameter} {data tag : DesignPoint}
    {g : Globals} {pg : Nat} (h : Accepted g ip pg data tag) (hdesc : d.Describes ip data tag)
    (hrep : d.Representable) : d.Feasible := by
  obtain ⟨b, hdata⟩ := Option.isSome_iff_exists.mp h.data_bank
  obtain ⟨c, htag⟩ := Option.isSome_iff_exists.mp h.tag_bank
  have htagnest := hdesc.tag.nested h.tag_nested
  have htagaddr := hdesc.tag_address h.tag_nested htag
  -- a tag bank has no more active mats than ways
  have hways : 2 ^ d.tag.active_mats ≤ 2 ^ d.associativity := by
    have hassoc : (ip.tagShape pg tag).associativity = 2 ^ d.associativity := by
      rw [InputParameter.tagShape, hdesc.associativity]
      push_cast
      rfl
    have hway := BankWithHtree.way_of_tag (hdesc.tag.binary ⟨_, hassoc⟩) rfl htag
    obtain ⟨hrow, hcol⟩ :=
      hdesc.tag.clamp ip .tag (ip.tagShape pg tag) htagnest
    have hassoc' : (ip.CALCULATE .tag (tag.geometry (ip.tagShape pg tag))).associativity =
        2 ^ d.associativity := by
      rw [InputParameter.CALCULATE_associativity, hassoc, toNat_two_pow]
    rw [hrow, hcol, hassoc', ← pow_add, add_comm] at hway
    exact hway
  have hways := (Nat.pow_le_pow_iff_right one_lt_two).mp hways
  refine ⟨hdesc.data.nested h.data_nested, htagnest, ?_, ?_, hways,
    hdesc.data_address h.data_nested hdata, htagaddr⟩
  · have hpart := h.data_partition
    rw [hdesc.data.activeProduct, hdesc.wordWidth] at hpart
    -- too many partitions would divide the word to nothing
    by_contra hlt
    refine hpart (Int.tdiv_eq_zero_of_lt (by positivity) ?_)
    push_cast
    exact pow_lt_pow_right₀ one_lt_two (not_le.mp hlt)
  · have hpart := h.tag_partition
    have hnested := htagnest
    rw [hdesc.tag.activeProduct, hdesc.tagBits hrep (by
      have hrow := hnested.per_row
      have hcol := hnested.per_col
      rw [ArrayDesign.active_mats, ArrayDesign.total_mats] at htagaddr
      omega)] at hpart
    by_contra hlt
    refine hpart (Int.tdiv_eq_zero_of_lt hrep.tag ?_)
    push_cast at hlt
    exact not_le.mp hlt

end Destiny
