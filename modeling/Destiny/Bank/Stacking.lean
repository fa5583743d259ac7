/-
  Destiny.Bank.Stacking

  What the TSVs of a stacked bank cost.

  A bank with several dies adds TSVs to its area, its latencies, its dynamic
  energies and its leakage.  `BankWithHtree` and `BankWithoutHtree` have a copy
  of the same accounting each; `tsv_overhead_agrees_iff` says when the copies
  agree.
-/

import Destiny.Bank.Routing
import Mathlib.Algebra.Order.Floor.Ring
import Mathlib.Tactic.Ring

namespace Destiny

open Lib

/-! ## Function units -/

/-- What a function unit reports a latency and a dynamic energy of. -/
inductive Operation
  | read | write | reset | set | refresh
  deriving DecidableEq, Repr

/-- The metrics of a `FunctionUnit` by operation: `readLatency` is `latency .read`. -/
@[ext] structure FunctionUnit (K : Type) where
  latency : Operation → K
  dynamicEnergy : Operation → K
  leakage : K

namespace FunctionUnit

variable {K : Type} [Field K]

def zero : FunctionUnit K where
  latency _ := 0
  dynamicEnergy _ := 0
  leakage := 0

/-- `+=`, metric by metric. -/
def add (u v : FunctionUnit K) : FunctionUnit K where
  latency op := u.latency op + v.latency op
  dynamicEnergy op := u.dynamicEnergy op + v.dynamicEnergy op
  leakage := u.leakage + v.leakage

end FunctionUnit

/-! ## TSVs -/

structure TSV (K : Type) extends FunctionUnit K where
  area : K

section
variable {K : Type} [Field K]

/-- `infinite_ramp` of global.h. -/
def infinite_ramp (K : Type) [Field K] : K := 10 ^ 41

/-- `TSV::CalculateLatencyAndPower` over `_CalculateLatencyAndPower`, which turns a
    ramp, a dynamic energy and a latency into the new energy and latency. -/
def TSV.CalculateLatencyAndPower (calculate : K → K → K → K × K) (rampInputRead rampInputWrite : K)
    (t : TSV K) : TSV K :=
  let read := calculate rampInputRead (t.dynamicEnergy .read) (t.latency .read)
  let write := calculate rampInputWrite (t.dynamicEnergy .write) (t.latency .write)
  { t with
    dynamicEnergy := fun
      | .read => read.1
      -- reset, set, erase are same driving direction as write
      | .write | .reset | .set => write.1
      | .refresh => t.dynamicEnergy .refresh
    latency := fun
      | .read => read.2
      | .write | .reset | .set => write.2
      | .refresh => t.latency .refresh }

/-- What a bank calls: `tsvReadRampInput = 1e20`, `tsvWriteRampInput = infinite_ramp`. -/
def TSV.evaluate (calculate : K → K → K → K × K) (t : TSV K) : TSV K :=
  t.CalculateLatencyAndPower calculate (10 ^ 20) (infinite_ramp K)

end

/-! ## How many of them -/

/-- The TSVs of a bank, by what they carry. -/
structure TSVBits where
  numTotalBits : Int
  numAccessBits : Int
  numReadBits : Int
  numDataBits : Int
  deriving DecidableEq, Repr

section
variable {K : Type} [Field K] [LinearOrder K] [FloorRing K]

/-- The conversion to `int`: toward zero. -/
def toInt (x : K) : Int := if 0 ≤ x then ⌊x⌋ else ⌈x⌉

/-- The address TSVs; fine granularity has predecoders on the logic layer. -/
def BankArgs.numAddressTSV (a : BankArgs) : Int :=
  if a.partitionGranularity = 1 then 0
  else truncLog2 ((a.capacity : ℚ) / a.blockSize / a.associativity / a.stackedDieCount)

/-- The counts of a bank, with redundant ones. -/
def BankArgs.tsvBits (tsvRedundancy : K) (a : BankArgs) : TSVBits :=
  let numControlBits : Int := a.stackedDieCount
  let numAddressBits := a.numAddressTSV
  -- read and write TSVs
  let numDataBits : Int := a.blockSize * 2
  { numTotalBits :=
      toInt (((numControlBits + numAddressBits + numDataBits : Int) : K) * tsvRedundancy)
    numAccessBits :=
      toInt (((numControlBits + numAddressBits + a.blockSize : Int) : K) * tsvRedundancy)
    numReadBits := toInt (((numControlBits + numAddressBits : Int) : K) * tsvRedundancy)
    numDataBits := toInt (((a.blockSize : Int) : K) * tsvRedundancy) }

/-! ## What they add -/

/-- `BankWithHtree::CalculateArea` -/
def BankWithHtree.tsvArea (tsvRedundancy : K) (tsv : TSV K) (a : BankArgs) : K :=
  (a.tsvBits tsvRedundancy).numTotalBits * tsv.area

/-- `BankWithoutHtree::CalculateArea` -/
def BankWithoutHtree.tsvArea (tsvRedundancy : K) (tsv : TSV K) (a : BankArgs) : K :=
  (a.tsvBits tsvRedundancy).numTotalBits * tsv.area

/-- `BankWithHtree::CalculateLatencyAndPower`: always the furthest die. -/
def BankWithHtree.tsvOverhead (tsvRedundancy : K) (tsv : TSV K) (a : BankArgs) : FunctionUnit K :=
  let bits := a.tsvBits tsvRedundancy
  let hops : K := a.stackedDieCount - 1
  { latency := fun
      | .read => hops * tsv.latency .read + hops * tsv.latency .write
      | .write => hops * tsv.latency .write
      | .reset => hops * tsv.latency .reset
      | .set => hops * tsv.latency .set
      -- `refreshLatency` stays as it is
      | .refresh => 0
    dynamicEnergy := fun
      | .read => bits.numReadBits * hops * tsv.dynamicEnergy .write +
          bits.numDataBits * tsv.dynamicEnergy .read * hops
      | .write => bits.numAccessBits * hops * tsv.dynamicEnergy .write
      | .reset => bits.numAccessBits * hops * tsv.dynamicEnergy .reset
      | .set => bits.numAccessBits * hops * tsv.dynamicEnergy .set
      | .refresh => bits.numReadBits * hops * tsv.dynamicEnergy .write
    leakage := bits.numTotalBits * hops * tsv.leakage }

/-- `BankWithoutHtree::CalculateLatencyAndPower`: always the furthest die. -/
def BankWithoutHtree.tsvOverhead (tsvRedundancy : K) (tsv : TSV K) (a : BankArgs) :
    FunctionUnit K :=
  let bits := a.tsvBits tsvRedundancy
  let hops : K := a.stackedDieCount - 1
  { latency := fun
      | .read => hops * tsv.latency .read + hops * tsv.latency .write
      | .write | .reset | .set | .refresh => hops * tsv.latency .write
    dynamicEnergy := fun
      | .read => bits.numReadBits * hops * tsv.dynamicEnergy .write +
          bits.numDataBits * tsv.dynamicEnergy .read * hops
      | .write => bits.numAccessBits * hops * tsv.dynamicEnergy .write
      | .reset => bits.numAccessBits * hops * tsv.dynamicEnergy .reset
      | .set => bits.numAccessBits * hops * tsv.dynamicEnergy .set
      | .refresh => bits.numReadBits * hops * tsv.dynamicEnergy .write
    leakage := bits.numTotalBits * hops * tsv.leakage }

/-! ## The two copies -/

section
variable [IsStrictOrderedRing K] (tsvRedundancy : K) (calculate : K → K → K → K × K) (t : TSV K)
  (a : BankArgs)

omit [IsStrictOrderedRing K] in
/-- The copies differ in one place. -/
theorem tsvOverhead_eq_of_ne_refresh {op : Operation} (h : op ≠ .refresh) :
    (BankWithHtree.tsvOverhead tsvRedundancy (t.evaluate calculate) a).latency op =
      (BankWithoutHtree.tsvOverhead tsvRedundancy (t.evaluate calculate) a).latency op := by
  cases op with
  | read => rfl
  | write => rfl
  | reset => rfl
  | set => rfl
  | refresh => exact absurd rfl h

/-- There the H-tree charges nothing for what the other organisation charges a write. -/
theorem tsvOverhead_refresh_eq_iff (hstack : 1 < a.stackedDieCount) :
    (BankWithHtree.tsvOverhead tsvRedundancy (t.evaluate calculate) a).latency .refresh =
        (BankWithoutHtree.tsvOverhead tsvRedundancy (t.evaluate calculate) a).latency .refresh ↔
      (t.evaluate calculate).latency .write = 0 := by
  have hhops : (a.stackedDieCount : K) - 1 ≠ 0 := by
    have hone : (1 : K) < a.stackedDieCount := by exact_mod_cast hstack
    exact (sub_pos.mpr hone).ne'
  change (0 : K) = ((a.stackedDieCount : K) - 1) * (t.evaluate calculate).latency .write ↔ _
  rw [eq_comm, mul_eq_zero, or_iff_right hhops]

/-- Both organisations charge a stacked bank the same for its TSVs just when a write
    passes them at once. -/
theorem tsv_overhead_agrees_iff (hstack : 1 < a.stackedDieCount) :
    (BankWithHtree.tsvArea tsvRedundancy (t.evaluate calculate) a =
          BankWithoutHtree.tsvArea tsvRedundancy (t.evaluate calculate) a ∧
        BankWithHtree.tsvOverhead tsvRedundancy (t.evaluate calculate) a =
          BankWithoutHtree.tsvOverhead tsvRedundancy (t.evaluate calculate) a) ↔
      (t.evaluate calculate).latency .write = 0 := by
  rw [← tsvOverhead_refresh_eq_iff tsvRedundancy calculate t a hstack]
  constructor
  · rintro ⟨-, h⟩
    rw [h]
  · intro hrefresh
    refine ⟨rfl, ?_⟩
    ext op
    · by_cases hop : op = .refresh
      · rw [hop, hrefresh]
      · exact tsvOverhead_eq_of_ne_refresh tsvRedundancy calculate t a hop
    · cases op <;> rfl
    · rfl

end

end

/-- Two dies of the array of `twoByTwoBank`. -/
def twoDieBank : BankArgs := { twoByTwoBank with capacity := 2 ^ 17, stackedDieCount := 2 }

/-- An unbuffered TSV: the energy is accumulated. -/
def unbufferedTSV : ℚ → ℚ → ℚ → ℚ × ℚ := fun _ dynamicEnergy _ => (dynamicEnergy + 1, 1)

/-- Such TSVs before the first evaluation. -/
def freshTSV : TSV ℚ := { FunctionUnit.zero with area := 1 }

/-- A TSV without delay. -/
def instantTSV : ℚ → ℚ → ℚ → ℚ × ℚ := fun _ dynamicEnergy _ => (dynamicEnergy + 1, 0)

theorem tsv_overhead_agrees_iff_two_dies :
    BankWithHtree.tsvArea 1 (freshTSV.evaluate instantTSV) twoDieBank =
        BankWithoutHtree.tsvArea 1 (freshTSV.evaluate instantTSV) twoDieBank ∧
      BankWithHtree.tsvOverhead 1 (freshTSV.evaluate instantTSV) twoDieBank =
        BankWithoutHtree.tsvOverhead 1 (freshTSV.evaluate instantTSV) twoDieBank :=
  (tsv_overhead_agrees_iff 1 instantTSV freshTSV twoDieBank (by decide)).mpr (by decide +kernel)

/-- Both classes accept that bank, and only one charges its refresh for the TSVs. -/
theorem tsv_overhead_differs :
    (BankWithHtree.Initialize sramGlobals twoDieBank).isSome = true ∧
      (BankWithoutHtree.Initialize sramGlobals twoDieBank).isSome = true ∧
      ¬ (BankWithHtree.tsvArea 1 (freshTSV.evaluate unbufferedTSV) twoDieBank =
            BankWithoutHtree.tsvArea 1 (freshTSV.evaluate unbufferedTSV) twoDieBank ∧
          BankWithHtree.tsvOverhead 1 (freshTSV.evaluate unbufferedTSV) twoDieBank =
            BankWithoutHtree.tsvOverhead 1 (freshTSV.evaluate unbufferedTSV) twoDieBank) := by
  refine ⟨by decide +kernel, by decide +kernel, ?_⟩
  rintro ⟨-, h⟩
  have hrefresh := congrArg (fun u => u.latency .refresh) h
  have hzero : (0 : ℚ) = (2 - 1) * 1 := hrefresh
  norm_num at hzero

end Destiny
