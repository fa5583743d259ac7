/-
  Destiny.Search.TagComparator

  The comparators of a tag array.

  main.cpp pads the tag to a multiple of the active product, the bank passes it
  to its mats, and `Comparator::Initialize` divides it by four.  With internal
  sensing the comparators are in the mats, with external sensing in the bank.
-/

import Destiny.Bank.WireLength
import Destiny.Inverse.FalsePenalty

namespace Destiny

open Lib

/-! ## Comparators -/

/-- The bits of a quarter comparator. -/
structure Comparator where
  numTagBits : Int
  deriving DecidableEq, Repr

/-- `Comparator::Initialize` -/
def Comparator.Initialize (numTagBits : Int) : Comparator where
  -- "Assuming there are 4 quarter comparators. input tagbits is already a multiple of 4"
  numTagBits := numTagBits.tdiv 4

/-- The four quarters compare all bits. -/
def Comparator.Covers (c : Comparator) (numTagBits : Int) : Prop := numTagBits ≤ 4 * c.numTagBits

instance (c : Comparator) (n : Int) : Decidable (c.Covers n) := inferInstanceAs (Decidable (_ ≤ _))

theorem Comparator.covers_iff {n : Int} (h : 0 ≤ n) :
    (Comparator.Initialize n).Covers n ↔ 4 ∣ n := by
  unfold Comparator.Covers Comparator.Initialize
  rw [Int.tdiv_eq_ediv_of_nonneg h]
  dsimp only
  omega

/-- The comparator `Mat::Initialize` sets up. -/
def MatArgs.comparator (a : MatArgs) : Option Comparator :=
  if a.memoryType = .tag ∧ a.internalSenseAmp = true then
    some (Comparator.Initialize a.numDataBit)
  else none

/-- The comparator `BankWithoutHtree::Initialize` sets up. -/
def BankWithoutHtree.globalComparator (a : BankArgs) : Option Comparator :=
  if a.internalSenseAmp = false ∧ a.memoryType = .tag then some (Comparator.Initialize a.blockSize)
  else none

/-! ## What arrives at a mat -/

namespace Route

variable {s t : Route} {LH LV : Nat}

/-- The levels leave the broadcast bits as they are. -/
def Broadcasts (B : Nat) (s : Route) : Prop := s.numDataBroadcastBitToRoute = B

theorem level_broadcasts {B : Nat} (h : s.Broadcasts B) (d : Direction) (i : Int)
    (predecessor : Option (Direction × Int)) (n : Nat) :
    Ends (Broadcasts B) (fun _ : Abort => True) (s.level d i predecessor n) := by
  refine (s.level_placed d i predecessor n).mono ?_ fun _ _ => trivial
  rintro t ⟨a, b, rfl⟩
  exact h

theorem reduceHorizontal_broadcasts {B : Nat} (v : Nat) :
    ∀ (h : Nat) (s : Route), s.Broadcasts B →
      Ends (Broadcasts B) (fun _ : Abort => True) (reduceHorizontal LH v h s) := by
  intro h
  induction h with
  | zero => exact fun s hs => hs
  | succ h ih =>
      intro s hs
      unfold reduceHorizontal
      split
      · exact (level_broadcasts hs _ _ _ _).bind fun t ht => ih _ ht
      · exact hs

theorem reduceVertical_broadcasts {B : Nat} (h : Nat) :
    ∀ (v : Nat) (s : Route), s.Broadcasts B →
      Ends (Broadcasts B) (fun _ : Abort => True) (reduceVertical LV h v s) := by
  intro v
  induction v with
  | zero => exact fun s hs => hs
  | succ v ih =>
      intro s hs
      unfold reduceVertical
      split
      · exact (level_broadcasts hs _ _ _ _).bind fun t ht => ih _ ht
      · exact hs

theorem interleave_broadcasts {B : Nat} :
    ∀ (h : Nat) (v : Int) (s : Route), s.Broadcasts B →
      Ends (Broadcasts B) (fun _ : Abort => True) (interleave LH LV h v s) := by
  intro h
  induction h with
  | zero => exact fun v s hs => hs
  | succ h ih =>
      intro v s hs
      unfold interleave
      refine (level_broadcasts hs _ _ _ _).bind fun t ht => ?_
      exact (level_broadcasts ht _ _ _ _).bind fun u hu => ih _ _ hu

theorem routeLevels_broadcasts {B : Nat} (hs : s.Broadcasts B) :
    Ends (Broadcasts B) (fun _ : Abort => True) (routeLevels LH LV s) := by
  have hroot : Ends (Broadcasts B) (fun _ : Abort => True) (rootHorizontal LH s) := by
    unfold rootHorizontal
    split
    · exact (check_ends s).bind fun _ _ => hs
    · exact hs
  unfold routeLevels
  refine hroot.bind fun t ht => ?_
  refine (reduceHorizontal_broadcasts LV (LH - 1) t ht).bind fun u hu => ?_
  refine (reduceVertical_broadcasts _ LV u hu).bind fun w hw => ?_
  exact interleave_broadcasts _ _ w hw

theorem finish_broadcasts {B : Nat} (hs : s.Broadcasts B) :
    Ends (Broadcasts B) (fun _ : Abort => True) (s.finish LH) := by
  unfold finish
  refine (check_ends s).bind fun _ _ => ?_
  split
  · exact hs
  · split
    · exact hs
    · exact hs

end Route

/-- The mat arguments are those of a tag mat with the tag of the bank. -/
structure MatArgs.HasTag (a : BankArgs) (m : MatArgs) : Prop where
  memoryType : m.memoryType = .tag
  internalSenseAmp : m.internalSenseAmp = a.internalSenseAmp
  numDataBit : m.numDataBit = a.blockSize

/-- The H-tree broadcasts the tag to every mat. -/
theorem WithHtree.route_hasTag (g : Globals) {a : BankArgs} (h : a.memoryType = .tag) :
    Ends (fun r => MatArgs.HasTag a r.2) (fun _ : Abort => True) (WithHtree.route g a) := by
  have hstart : (WithHtree.start a).Broadcasts a.blockSize := by
    change WithHtree.numDataBroadcastBit a = a.blockSize
    rw [WithHtree.numDataBroadcastBit, h]
  unfold WithHtree.route
  refine (Route.routeLevels_broadcasts hstart).bind fun levels hlevels => ?_
  refine (Route.finish_broadcasts hlevels).bind fun s hs => ?_
  have hmat : Ends (MatArgs.HasTag a) (fun _ : Abort => True) (WithHtree.toMat g a s) := by
    unfold WithHtree.toMat
    rw [h]
    dsimp only
    split
    · trivial
    · split
      · trivial
      · exact ⟨h, rfl, hs⟩
  exact hmat.bind fun m hm => hm

theorem WithoutHtree.route_hasTag {g : Globals} {a : BankArgs} {m : MatArgs}
    (h : a.memoryType = .tag) (hroute : WithoutHtree.route g a = some m) :
    MatArgs.HasTag a m := by
  unfold WithoutHtree.route at hroute
  rw [h] at hroute
  dsimp only at hroute
  split at hroute
  · cases hroute
  · split at hroute
    · cases hroute
    · obtain rfl := Option.some.inj hroute
      exact ⟨h, rfl, rfl⟩

/-! ## What the comparators cover -/

/-- An accepted tag is padded to a number of bits. -/
theorem padBlockSize_nonneg {blockSize product : Int} (hpos : 0 < blockSize)
    (haccept : blockSize.tdiv product ≠ 0) : 0 ≤ padBlockSize blockSize product := by
  unfold padBlockSize
  split
  · rcases le_total 0 product with h | h
    · exact mul_nonneg (Int.le_add_one (Int.tdiv_nonneg hpos.le h)) h
    · have hquotient := Int.tdiv_nonpos_of_nonneg_of_nonpos hpos.le h
      exact mul_nonneg_of_nonpos_of_nonpos (by omega) h
  · exact hpos.le

/-- The arguments of a tag bank at a point of the nest. -/
def InputParameter.tagArgs (ip : InputParameter) (partitionGranularity : Nat) (p : DesignPoint) :
    BankArgs :=
  ip.CALCULATE .tag (p.geometry (ip.tagShape partitionGranularity p))

section
variable {ip : InputParameter} {p : DesignPoint} (hpos : 0 < ip.tagBits)
  (haccept : ip.tagBits.tdiv p.activeProduct ≠ 0)
include hpos haccept

theorem InputParameter.tagArgs_blockSize (pg : Nat) :
    ((ip.tagArgs pg p).blockSize : Int) = padBlockSize ip.tagBits p.activeProduct := by
  have hblock : (ip.tagArgs pg p).blockSize = (padBlockSize ip.tagBits p.activeProduct).toNat := by
    rw [InputParameter.tagArgs, InputParameter.CALCULATE_blockSize,
      InputParameter.tagShape_blockSize]
  rw [hblock, Int.toNat_of_nonneg (padBlockSize_nonneg hpos haccept)]

/-- The comparator of a tag mat covers the tag where the padded tag has four equal parts. -/
theorem MatArgs.HasTag.covers_iff {pg : Nat} {m : MatArgs} (h : m.HasTag (ip.tagArgs pg p))
    (hint : ip.internalSensing = true) :
    ∃ c, m.comparator = some c ∧
      (m.numDataBit : Int) = padBlockSize ip.tagBits p.activeProduct ∧
      (c.Covers m.numDataBit ↔ 4 ∣ padBlockSize ip.tagBits p.activeProduct) := by
  have hbits : (m.numDataBit : Int) = padBlockSize ip.tagBits p.activeProduct := by
    rw [h.numDataBit, InputParameter.tagArgs_blockSize hpos haccept]
  refine ⟨_, if_pos ⟨h.memoryType, h.internalSenseAmp.trans hint⟩, hbits, ?_⟩
  rw [Comparator.covers_iff (Int.natCast_nonneg _), hbits]

/-- The comparators cover the tag just when the padded tag is a multiple of four bits: in the
    mats of either class with internal sensing, and in the bank with external sensing. -/
theorem tag_comparators_cover_iff (g : Globals) (pg : Nat) :
    (∀ b, BankWithHtree.Initialize g (ip.tagArgs pg p) = some b →
        ∃ c, b.matArgs.comparator = some c ∧
          (b.matArgs.numDataBit : Int) = padBlockSize ip.tagBits p.activeProduct ∧
          (c.Covers b.matArgs.numDataBit ↔ 4 ∣ padBlockSize ip.tagBits p.activeProduct)) ∧
      ∀ b, BankWithoutHtree.Initialize g (ip.tagArgs pg p) = some b →
        (ip.internalSensing = true →
          ∃ c, b.matArgs.comparator = some c ∧
            (b.matArgs.numDataBit : Int) = padBlockSize ip.tagBits p.activeProduct ∧
            (c.Covers b.matArgs.numDataBit ↔ 4 ∣ padBlockSize ip.tagBits p.activeProduct)) ∧
        (ip.internalSensing = false →
          ∃ c, BankWithoutHtree.globalComparator (ip.tagArgs pg p) = some c ∧
            ((ip.tagArgs pg p).blockSize : Int) = padBlockSize ip.tagBits p.activeProduct ∧
            (c.Covers (ip.tagArgs pg p).blockSize ↔
              4 ∣ padBlockSize ip.tagBits p.activeProduct)) := by
  refine ⟨fun b hb => ?_, fun b hb => ⟨fun hint => ?_, fun hext => ?_⟩⟩
  · obtain ⟨levels, matArgs, mat, hint, hroute, -, hbank, -⟩ := BankWithHtree.Initialize_eq_some hb
    have htag := (WithHtree.route_hasTag g (show (ip.tagArgs pg p).memoryType = .tag from
      rfl)).of_eq_ok hroute
    have hmat : b.matArgs = matArgs := by rw [hbank]
    rw [hmat]
    exact htag.covers_iff hpos haccept hint
  · obtain ⟨matArgs, mat, hroute, -, rfl⟩ := BankWithoutHtree.Initialize_eq_some hb
    exact (WithoutHtree.route_hasTag rfl hroute).covers_iff hpos haccept hint
  · have hbits := InputParameter.tagArgs_blockSize hpos haccept pg
    refine ⟨_, if_pos ⟨hext, rfl⟩, hbits, ?_⟩
    rw [Comparator.covers_iff (Int.natCast_nonneg _), hbits]

end

/-! ## A cache of four ways -/

def fourWayTagGlobals : Globals := { sramGlobals with associativity := 4 }

def externalFourWays : InputParameter := { smallCache 2 with internalSensing := false }

/-- The 36 bits of its tags are compared in all three organisations. -/
theorem tag_comparators_cover_iff_four_ways :
    (∃ b c, BankWithHtree.Initialize fourWayTagGlobals ((smallCache 2).tagArgs 0 (oneMat 1)) =
          some b ∧
        b.matArgs.comparator = some c ∧ c.Covers b.matArgs.numDataBit) ∧
      (∃ b c, BankWithoutHtree.Initialize fourWayTagGlobals ((smallCache 2).tagArgs 0 (oneMat 1)) =
            some b ∧
          b.matArgs.comparator = some c ∧ c.Covers b.matArgs.numDataBit) ∧
      ∃ b c, BankWithoutHtree.Initialize fourWayTagGlobals (externalFourWays.tagArgs 0 (oneMat 1)) =
            some b ∧
          BankWithoutHtree.globalComparator (externalFourWays.tagArgs 0 (oneMat 1)) = some c ∧
          c.Covers (externalFourWays.tagArgs 0 (oneMat 1)).blockSize := by
  have hwide : 0 < (smallCache 2).tagBits ∧ 0 < externalFourWays.tagBits ∧
      (smallCache 2).tagBits.tdiv (oneMat 1).activeProduct ≠ 0 ∧
      externalFourWays.tagBits.tdiv (oneMat 1).activeProduct ≠ 0 := by decide +kernel
  have hdvd : 4 ∣ padBlockSize (smallCache 2).tagBits (oneMat 1).activeProduct ∧
      4 ∣ padBlockSize externalFourWays.tagBits (oneMat 1).activeProduct := by decide +kernel
  obtain ⟨hpos, hpos', haccept, haccept'⟩ := hwide
  obtain ⟨b, hb⟩ := Option.isSome_iff_exists.mp (show (BankWithHtree.Initialize fourWayTagGlobals
    ((smallCache 2).tagArgs 0 (oneMat 1))).isSome = true by decide +kernel)
  obtain ⟨b', hb'⟩ := Option.isSome_iff_exists.mp (show (BankWithoutHtree.Initialize
    fourWayTagGlobals ((smallCache 2).tagArgs 0 (oneMat 1))).isSome = true by decide +kernel)
  obtain ⟨b'', hb''⟩ := Option.isSome_iff_exists.mp (show (BankWithoutHtree.Initialize
    fourWayTagGlobals (externalFourWays.tagArgs 0 (oneMat 1))).isSome = true by decide +kernel)
  obtain ⟨htree, hrows⟩ := tag_comparators_cover_iff hpos haccept fourWayTagGlobals 0
  obtain ⟨-, hexternal⟩ := tag_comparators_cover_iff hpos' haccept' fourWayTagGlobals 0
  obtain ⟨c, hc, -, hcovers⟩ := htree b hb
  obtain ⟨c', hc', -, hcovers'⟩ := (hrows b' hb').1 rfl
  obtain ⟨c'', hc'', -, hcovers''⟩ := (hexternal b'' hb'').2 rfl
  exact ⟨⟨b, c, hb, hc, hcovers.mpr hdvd.1⟩, ⟨b', c', hb', hc', hcovers'.mpr hdvd.1⟩,
    b'', c'', hb'', hc'', hcovers''.mpr hdvd.2⟩

/-! ## A direct-mapped cache -/

/-- One way of 34 tag bits. -/
def directMappedGlobals : Globals := { sramGlobals with associativity := 1 }

/-- That cache with the sense amplifiers outside of the mats. -/
def externalCache : InputParameter := { smallCache 0 with internalSensing := false }

/-- 64 KiB of words of 8 bytes leave 32 address bits to a tag, and two status
    bits: its comparators compare 32 of the 34 bits, with either sensing. -/
theorem tag_comparators_miss_bits :
    (∃ b, BankWithHtree.Initialize directMappedGlobals ((smallCache 0).tagArgs 0 (oneMat 1)) =
        some b ∧
        b.matArgs.comparator = some ⟨8⟩ ∧ b.matArgs.numDataBit = 34 ∧
        ¬ (Comparator.mk 8).Covers b.matArgs.numDataBit) ∧
      ∃ b, BankWithoutHtree.Initialize directMappedGlobals
          (externalCache.tagArgs 0 (oneMat 1)) = some b ∧
        BankWithoutHtree.globalComparator (externalCache.tagArgs 0 (oneMat 1)) = some ⟨8⟩ ∧
        (externalCache.tagArgs 0 (oneMat 1)).blockSize = 34 ∧
        ¬ (Comparator.mk 8).Covers (externalCache.tagArgs 0 (oneMat 1)).blockSize := by
  have htree : (BankWithHtree.Initialize directMappedGlobals
      ((smallCache 0).tagArgs 0 (oneMat 1))).map (fun b =>
        (b.matArgs.comparator, b.matArgs.numDataBit)) = some (some ⟨8⟩, 34) := by decide +kernel
  have hblock : (externalCache.tagArgs 0 (oneMat 1)).blockSize = 34 := by decide +kernel
  obtain ⟨b', hb'⟩ := Option.isSome_iff_exists.mp (show (BankWithoutHtree.Initialize
    directMappedGlobals (externalCache.tagArgs 0 (oneMat 1))).isSome = true by decide +kernel)
  obtain ⟨b, hb, hbits⟩ := Option.map_eq_some_iff.mp htree
  have hnum : b.matArgs.numDataBit = 34 := congrArg Prod.snd hbits
  refine ⟨⟨b, hb, congrArg Prod.fst hbits, hnum, ?_⟩, b', hb', ?_, hblock, ?_⟩
  · rw [hnum]
    decide
  · unfold BankWithoutHtree.globalComparator
    rw [hblock]
    rfl
  · rw [hblock]
    decide

end Destiny
