/-
  Destiny.Bank.Routing

  The two routing organisations model the same array.

  Over powers of two the level recursion arrives at a mat with the bits that
  the closed forms of `BankWithoutHtree` compute (`toMat_eq_route`).  Where the
  recursion gives up early, at a level without data or address bits, the closed
  forms go on, and the mat rejects what they hand it (`reject_of_stuck`).
-/

import Destiny.Bank.Levels
import Destiny.Bank.WithHtree
import Destiny.Bank.WithoutHtree

namespace Destiny

open Lib

section
variable {g : Globals} {a : BankArgs} {LH LV p q : ℕ}

/-- The gating bits of the bank, as exponents. -/
theorem WithoutHtree.numAddressForGating_eq (hcol : a.numColumnMat = 2 ^ LH)
    (hrow : a.numRowMat = 2 ^ LV) (hp : a.clamp.numActiveMatPerRow = 2 ^ p)
    (hq : a.clamp.numActiveMatPerColumn = 2 ^ q) (hpLH : p ≤ LH) (hqLV : q ≤ LV) :
    WithoutHtree.numAddressForGating a = ((LH - p + (LV - q) : ℕ) : Int) := by
  unfold WithoutHtree.numAddressForGating
  rw [hcol, hrow, hp, hq, ← pow_add, Nat.pow_div (by omega) two_pos,
    Nat.pow_div (by omega) two_pos, truncLog2_natCast_two_pow]
  congr 1
  omega

/-- What the last step leaves over powers of two is what the closed forms give. -/
theorem toMat_eq_route {s : Route} (hbin : a.Binary) (hcol : a.numColumnMat = 2 ^ LH)
    (hrow : a.numRowMat = 2 ^ LV) (hp : a.clamp.numActiveMatPerRow = 2 ^ p)
    (hq : a.clamp.numActiveMatPerColumn = 2 ^ q) (hpLH : p ≤ LH) (hqLV : q ≤ LV)
    (hbits : s.toRouteBits = RouteBits.after a.numAddressBit (WithHtree.numDataDistributeBit a)
      p q LH LV)
    (hbroadcast : s.numDataBroadcastBitToRoute = WithHtree.numDataBroadcastBit a) :
    WithHtree.toMat g a s =
      match WithoutHtree.route g a with
      | some m => .ok m
      | none => .error .invalid := by
  have haddr : s.numAddressBitToRoute = WithoutHtree.numAddressBitRouteToMat a := by
    rw [WithoutHtree.numAddressBitRouteToMat,
      WithoutHtree.numAddressForGating_eq hcol hrow hp hq hpLH hqLV, hbits]
    rfl
  have hdist : s.numDataDistributeBitToRoute = WithHtree.numDataDistributeBit a /
      a.clamp.numActiveMatPerColumn / a.clamp.numActiveMatPerRow := by
    rw [hbits, hp, hq, Nat.div_div_eq_div_mul, ← pow_add]
    simp only [RouteBits.after, Nat.min_eq_right hpLH, Nat.min_eq_right hqLV]
    rw [Nat.add_comm]
  unfold WithHtree.toMat WithoutHtree.route
  rw [haddr, hbroadcast, hdist]
  -- for data the last step reads the ways off the broadcast bits
  cases hmem : a.memoryType with
  | data =>
      obtain ⟨w, hw⟩ := hbin.associativity
      have hway : 2 ^ WithHtree.numDataBroadcastBit a = a.associativity := by
        simp only [WithHtree.numDataBroadcastBit, hmem]
        rw [hw, Nat.log_pow (by decide)]
      simp only [hway, WithHtree.numDataDistributeBit, hmem]
      by_cases hset : a.associativity < a.numRowPerSet
      · rw [if_pos hset, if_pos hset]
      · rw [if_neg hset, if_neg hset]
  | tag =>
      simp only [WithHtree.numDataBroadcastBit, WithHtree.numDataDistributeBit, hmem,
        Nat.lt_one_iff]
      by_cases hset : 1 < a.numRowPerSet
      · rw [if_pos hset, if_pos hset]
      · rw [if_neg hset, if_neg hset]
        by_cases hway : a.associativity / a.clamp.numActiveMatPerColumn /
            a.clamp.numActiveMatPerRow = 0
        · rw [if_pos hway, if_pos hway]
        · rw [if_neg hway, if_neg hway]
  | CAM => simp only [WithHtree.numDataBroadcastBit, hmem]

/-- Address bits only get fewer, so none are left at the mat once they ran out
    at some level. -/
theorem numAddressBit_nonpos_of_stuck {c r : ℕ} (hc : c ≤ LH) (hr : r ≤ LV) {A : Int} {D : ℕ}
    (h : (RouteBits.after A D p q c r).numAddressBitToRoute = 0) :
    A - ((LH - p + (LV - q) : ℕ) : Int) ≤ 0 := by
  simp only [RouteBits.after] at h
  omega

/-- Data bits only get fewer, so none are left at the mat once they ran out at
    some level. -/
theorem numDataBit_zero_of_stuck {c r : ℕ} {A : Int} {D : ℕ}
    (h : (RouteBits.after A D p q c r).numDataDistributeBitToRoute = 0) :
    D / 2 ^ q / 2 ^ p = 0 := by
  simp only [RouteBits.after] at h
  rw [Nat.div_div_eq_div_mul, ← pow_add]
  have hle : D / 2 ^ (q + p) ≤ D / 2 ^ (min c p + min r q) :=
    Nat.div_le_div_left (Nat.pow_le_pow_right two_pos (by omega)) (pow_pos two_pos _)
  rw [h] at hle
  exact Nat.le_zero.mp hle

/-- The closed forms hand a power-of-two mat on. -/
theorem WithoutHtree.route_eq_some (hbin : a.Binary) {m : MatArgs}
    (hroute : WithoutHtree.route g a = some m) :
    ∃ (D n : ℕ) (mux : MuxDegrees), n.isPowerOfTwo ∧ mux.Binary ∧
      m = a.matArgs (WithoutHtree.numAddressBitRouteToMat a) D n mux := by
  have hmux : a.mux.Binary := ⟨hbin.muxSenseAmp, hbin.muxOutputLev1, hbin.muxOutputLev2⟩
  unfold WithoutHtree.route at hroute
  cases hmem : a.memoryType with
  | data =>
      simp only [hmem] at hroute
      split at hroute
      · cases hroute
      · next hset =>
        obtain rfl := Option.some.inj hroute
        have hpos := Nat.pos_of_isPowerOfTwo hbin.numRowPerSet
        have hne : a.associativity / a.numRowPerSet ≠ 0 :=
          Nat.div_ne_zero_iff.mpr ⟨hpos.ne', not_lt.mp hset⟩
        exact ⟨_, _, _, hbin.associativity, hmux.containWays g.memCellType
          (isPowerOfTwo_div hbin.associativity hbin.numRowPerSet hne).1, rfl⟩
  | tag =>
      simp only [hmem] at hroute
      split at hroute
      · cases hroute
      · split at hroute
        · cases hroute
        · next hway =>
          obtain rfl := Option.some.inj hroute
          -- the ways of a mat are the ways divided over the active mats
          have hact := isPowerOfTwo_mul
            (isPowerOfTwo_min hbin.numActiveMatPerColumn hbin.numRowMat)
            (isPowerOfTwo_min hbin.numActiveMatPerRow hbin.numColumnMat)
          refine ⟨_, _, _, ?_, hmux, rfl⟩
          rw [Nat.div_div_eq_div_mul] at hway ⊢
          exact (isPowerOfTwo_div hbin.associativity hact (by
            intro hzero
            exact hway (by rw [show a.associativity / (a.clamp.numActiveMatPerColumn *
              a.clamp.numActiveMatPerRow) = 0 from hzero]; decide))).1
  | CAM =>
      simp only [hmem] at hroute
      obtain rfl := Option.some.inj hroute
      exact ⟨_, 1, _, isPowerOfTwo_two_pow 0, hmux, rfl⟩

/-- Where the level recursion gives up, the mat of the closed forms is invalid. -/
theorem reject_of_stuck (hbin : a.Binary) (hcol : a.numColumnMat = 2 ^ LH)
    (hrow : a.numRowMat = 2 ^ LV) (hp : a.clamp.numActiveMatPerRow = 2 ^ p)
    (hq : a.clamp.numActiveMatPerColumn = 2 ^ q) (hpLH : p ≤ LH) (hqLV : q ≤ LV) {e : Abort}
    (hstuck : Stuck LH LV a.numAddressBit (WithHtree.numDataDistributeBit a)
      (WithHtree.numDataBroadcastBit a) p q e)
    {m : MatArgs} (hroute : WithoutHtree.route g a = some m) : Mat.Initialize g m = none := by
  obtain ⟨-, c, hc, r, hr, hbits | haddr⟩ := hstuck
  · -- no data bit is left
    apply Mat.Initialize_of_numDataBit_zero
    have hdist : (RouteBits.after a.numAddressBit (WithHtree.numDataDistributeBit a) p q c
        r).numDataDistributeBitToRoute = 0 := by omega
    have hzero := numDataBit_zero_of_stuck hdist
    have hbroadcast : WithHtree.numDataBroadcastBit a = 0 := by omega
    unfold WithoutHtree.route at hroute
    -- for data the distributed bits give it, for tags and CAM the broadcast ones
    cases hmem : a.memoryType with
    | data =>
        simp only [hmem] at hroute
        split at hroute
        · cases hroute
        · obtain rfl := Option.some.inj hroute
          simp only [WithHtree.numDataDistributeBit, hmem] at hzero
          simp only [BankArgs.matArgs, hp, hq, hzero]
    | tag =>
        simp only [WithHtree.numDataBroadcastBit, hmem] at hbroadcast
        simp only [hmem] at hroute
        split at hroute
        · cases hroute
        · split at hroute
          · cases hroute
          · obtain rfl := Option.some.inj hroute
            exact hbroadcast
    | CAM =>
        simp only [WithHtree.numDataBroadcastBit, hmem] at hbroadcast
        simp only [hmem] at hroute
        obtain rfl := Option.some.inj hroute
        exact hbroadcast
  · -- no address bit is left
    have hle := numAddressBit_nonpos_of_stuck (p := p) (q := q) hc hr haddr
    rw [← WithoutHtree.numAddressForGating_eq hcol hrow hp hq hpLH hqLV] at hle
    obtain ⟨D, n, mux, hn, hmux, rfl⟩ := WithoutHtree.route_eq_some hbin hroute
    exact Mat.Initialize_of_numAddressBit_nonpos
      (MatArgs.numAddressForGating_nonneg (hbin.matArgs hn hmux)) hle

/-- The whole routing of the H-tree against the closed forms: it reads no unset
    entry, arrives at the same mat, or gives up where the mat is invalid. -/
theorem WithHtree.route_spec (g : Globals) (hbin : a.Binary) :
    Ends (fun r => WithoutHtree.route g a = some r.2)
      (fun e => e = .invalid ∧ ∀ m, WithoutHtree.route g a = some m → Mat.Initialize g m = none)
      (WithHtree.route g a) := by
  obtain ⟨LH, LV, p, q, hcol, hrow, hp, hq, hpLH, hqLV⟩ := hbin.exponents
  have hLH : WithHtree.levelHorizontal a = LH := by
    rw [WithHtree.levelHorizontal, hcol, truncLog2_natCast_two_pow, Int.toNat_natCast]
  have hLV : WithHtree.levelVertical a = LV := by
    rw [WithHtree.levelVertical, hrow, truncLog2_natCast_two_pow, Int.toNat_natCast]
  have hreject : ∀ e, Stuck LH LV a.numAddressBit (WithHtree.numDataDistributeBit a)
      (WithHtree.numDataBroadcastBit a) p q e →
      e = .invalid ∧ ∀ m, WithoutHtree.route g a = some m → Mat.Initialize g m = none :=
    fun e he => ⟨he.1, fun m hm => reject_of_stuck hbin hcol hrow hp hq hpLH hqLV he hm⟩
  unfold WithHtree.route
  rw [hLH, hLV, WithHtree.start, hp, hq]
  refine (routeLevels_spec.mono (fun _ h => h) hreject).bind fun levels hlevels => ?_
  refine ((finish_spec hpLH hlevels).mono (fun _ h => h) hreject).bind fun s hs => ?_
  rw [toMat_eq_route hbin hcol hrow hp hq hpLH hqLV hs.1 hs.2]
  cases hroute : WithoutHtree.route g a with
  | none => exact ⟨rfl, fun m hm => by cases hm⟩
  | some m => exact rfl

end

/-- With internal sensing both classes initialise the same bank. -/
theorem BankWithHtree.Initialize_map_toBank (g : Globals) {a : BankArgs} (hbin : a.Binary)
    (hint : a.internalSenseAmp = true) :
    (BankWithHtree.Initialize g a).map BankWithHtree.toBank = BankWithoutHtree.Initialize g a := by
  have hspec := WithHtree.route_spec g hbin
  rw [BankWithoutHtree.Initialize_of_internal hint]
  unfold BankWithHtree.Initialize
  rw [if_neg (by simp [hint])]
  cases hroute : WithHtree.route g a with
  | error e =>
      have hrej := hspec.of_eq_error hroute
      cases hclosed : WithoutHtree.route g a with
      | none => rfl
      | some m => simp [hrej.2 m hclosed]
  | ok r =>
      rw [hspec.of_eq_ok hroute]
      cases hmat : Mat.Initialize g r.2 with
      | none => simp [hmat]
      | some mat => simp [hmat]

/-- Both organisations reject the same geometries, and hand the same arguments
    to the mats of the others. -/
theorem routing_organisations_agree (g : Globals) (a : BankArgs) (hbin : a.Binary)
    (hint : a.internalSenseAmp = true) :
    (BankWithHtree.Initialize g a).isNone = (BankWithoutHtree.Initialize g a).isNone ∧
      ∀ b c, BankWithHtree.Initialize g a = some b → BankWithoutHtree.Initialize g a = some c →
        b.matArgs = c.matArgs := by
  have hmap := BankWithHtree.Initialize_map_toBank g hbin hint
  refine ⟨by rw [← hmap, Option.isNone_map], ?_⟩
  intro b c hb hc
  rw [hb, hc] at hmap
  rw [← Option.some.inj hmap]

/-- An 8 KiB data array of 64-bit words: two by two mats of which one row is
    active, one subarray each. -/
def twoByTwoBank : BankArgs where
  numRowMat := 2
  numColumnMat := 2
  capacity := 2 ^ 16
  blockSize := 64
  associativity := 2
  numRowPerSet := 1
  numActiveMatPerRow := 2
  numActiveMatPerColumn := 1
  muxSenseAmp := 1
  internalSenseAmp := true
  muxOutputLev1 := 1
  muxOutputLev2 := 1
  numRowSubarray := 1
  numColumnSubarray := 1
  numActiveSubarrayPerRow := 1
  numActiveSubarrayPerColumn := 1
  areaOptimizationLevel := .latency_first
  memoryType := .data
  stackedDieCount := 1
  partitionGranularity := 0
  monolithicStackCount := 1

theorem twoByTwoBank_binary : twoByTwoBank.Binary where
  numRowMat := ⟨1, rfl⟩
  numColumnMat := ⟨1, rfl⟩
  associativity := ⟨1, rfl⟩
  numRowPerSet := ⟨0, rfl⟩
  numActiveMatPerRow := ⟨1, rfl⟩
  numActiveMatPerColumn := ⟨0, rfl⟩
  muxSenseAmp := ⟨0, rfl⟩
  muxOutputLev1 := ⟨0, rfl⟩
  muxOutputLev2 := ⟨0, rfl⟩
  numRowSubarray := ⟨0, rfl⟩
  numColumnSubarray := ⟨0, rfl⟩
  numActiveSubarrayPerRow := ⟨0, rfl⟩
  numActiveSubarrayPerColumn := ⟨0, rfl⟩
  stackedDieCount := ⟨0, rfl⟩

/-- An SRAM cache whose subarrays pass every electrical check. -/
def sramGlobals : Globals where
  designTarget := .cache
  cacheAccessMode := .normal_access_mode
  associativity := 2
  flashBlockSize := 0
  pageSize := 0
  memCellType := .SRAM
  globalWireRepeaterType := .repeated_none
  electricallyInvalid := fun _ => false
  globalSenseAmpInvalid := fun _ _ _ => false

theorem routing_organisations_agree_two_by_two :
    (BankWithHtree.Initialize sramGlobals twoByTwoBank).isNone =
        (BankWithoutHtree.Initialize sramGlobals twoByTwoBank).isNone ∧
      ∀ b c, BankWithHtree.Initialize sramGlobals twoByTwoBank = some b →
        BankWithoutHtree.Initialize sramGlobals twoByTwoBank = some c → b.matArgs = c.matArgs :=
  routing_organisations_agree sramGlobals twoByTwoBank twoByTwoBank_binary rfl

/-- Both classes accept that array, so the agreement is about real banks. -/
example : (BankWithHtree.Initialize sramGlobals twoByTwoBank).isSome = true ∧
    (BankWithoutHtree.Initialize sramGlobals twoByTwoBank).isSome = true := by
  decide +kernel

end Destiny
