/-
  Destiny.Search.Enumerated

  When the nest `BIGFOR` / `BIGFOR_TAG` ends, and what it visits then.

  The bounds come from a configuration file read on top of the restored
  defaults.  Every option that forces a range copies the number it has scanned
  into both ends, so every range that is read starts no later than it ends
  (`Ordered`), and every loop of the nest is reached as long as those around it
  end.  A start that is not positive does not grow when it is doubled.
-/

import Destiny.Config.Reader
import Destiny.Search.Space
import Mathlib.Algebra.Order.BigOperators.Group.List

namespace Destiny

open Lib Lib.Enumeration

/-! ## The design space -/

/-- The ranges of an array that are doubled through. -/
inductive LoopRange
  | numRowMat | numColumnMat | numActiveMatPerRow | numActiveMatPerColumn
  | numRowSubarray | numColumnSubarray | numActiveSubarrayPerRow | numActiveSubarrayPerColumn
  | muxSenseAmp | muxOutputLev1 | muxOutputLev2
  deriving DecidableEq, Repr

def LoopRange.all : List LoopRange :=
  [.numRowMat, .numColumnMat, .numActiveMatPerRow, .numActiveMatPerColumn, .numRowSubarray,
   .numColumnSubarray, .numActiveSubarrayPerRow, .numActiveSubarrayPerColumn, .muxSenseAmp,
   .muxOutputLev1, .muxOutputLev2]

theorem LoopRange.mem_all (l : LoopRange) : l ∈ all := by cases l <;> decide

def ArrayBounds.loop (b : ArrayBounds) : LoopRange → Range Int
  | .numRowMat => b.numRowMat
  | .numColumnMat => b.numColumnMat
  | .numActiveMatPerRow => b.numActiveMatPerRow
  | .numActiveMatPerColumn => b.numActiveMatPerColumn
  | .numRowSubarray => b.numRowSubarray
  | .numColumnSubarray => b.numColumnSubarray
  | .numActiveSubarrayPerRow => b.numActiveSubarrayPerRow
  | .numActiveSubarrayPerColumn => b.numActiveSubarrayPerColumn
  | .muxSenseAmp => b.muxSenseAmp
  | .muxOutputLev1 => b.muxOutputLev1
  | .muxOutputLev2 => b.muxOutputLev2

/-- A power-of-two multiple of the lower bound, not above the upper bound. -/
def Range.Contains (r : Range Int) (x : Int) : Prop := Doubled r.min r.max x

/-- The range of an active count is cut to the total. -/
def Range.cut (r : Range Int) (total : Int) : Range Int :=
  ⟨Min.min total r.min, Min.min total r.max⟩

/-- The rows per set go up to the ways at most. -/
def Range.upTo (r : Range Int) (ways : Nat) : Range Int := ⟨r.min, Min.min r.max ways⟩

/-- The design points that the bounds of one array stand for. -/
structure InDesignSpace (b : ArrayBounds) (numRowPerSet stackLayer : Range Int)
    (associativity : Nat) (p : DesignPoint) : Prop where
  numRowMat : b.numRowMat.Contains p.numRowMat
  numColumnMat : b.numColumnMat.Contains p.numColumnMat
  stackedDieCount : stackLayer.Contains p.stackedDieCount
  numActiveMatPerRow : (b.numActiveMatPerRow.cut p.numColumnMat).Contains p.numActiveMatPerRow
  numActiveMatPerColumn :
    (b.numActiveMatPerColumn.cut p.numRowMat).Contains p.numActiveMatPerColumn
  numRowSubarray : b.numRowSubarray.Contains p.numRowSubarray
  numColumnSubarray : b.numColumnSubarray.Contains p.numColumnSubarray
  numActiveSubarrayPerRow :
    (b.numActiveSubarrayPerRow.cut p.numColumnSubarray).Contains p.numActiveSubarrayPerRow
  numActiveSubarrayPerColumn :
    (b.numActiveSubarrayPerColumn.cut p.numRowSubarray).Contains p.numActiveSubarrayPerColumn
  muxSenseAmp : b.muxSenseAmp.Contains p.muxSenseAmp
  muxOutputLev1 : b.muxOutputLev1.Contains p.muxOutputLev1
  muxOutputLev2 : b.muxOutputLev2.Contains p.muxOutputLev2
  numRowPerSet : (numRowPerSet.upTo associativity).Contains p.numRowPerSet
  areaOptimizationLevel : p.areaOptimizationLevel ∈ areaOptimizationLevels b.areaOptimizationLevel

/-! ## Positive starts -/

/-- Enough rounds for every loop of the nest. -/
structure EnoughRounds (fuel : Nat) (b : ArrayBounds) (numRowPerSet stackLayer : Range Int) :
    Prop where
  array : ∀ l, (b.loop l).max.toNat ≤ fuel
  numRowPerSet : numRowPerSet.max.toNat ≤ fuel
  stackLayer : stackLayer.max.toNat ≤ fuel

theorem exists_enoughRounds (b : ArrayBounds) (numRowPerSet stackLayer : Range Int) :
    ∃ fuel, EnoughRounds fuel b numRowPerSet stackLayer := by
  refine ⟨(LoopRange.all.map fun l => (b.loop l).max.toNat).sum + numRowPerSet.max.toNat +
    stackLayer.max.toNat, fun l => ?_, ?_, ?_⟩
  · have hmem := List.mem_map_of_mem (f := fun l => (b.loop l).max.toNat) l.mem_all
    have hle := List.le_sum_of_mem hmem
    omega
  · omega
  · omega

theorem Range.enumerates {fuel : Nat} {r : Range Int} (hmin : 0 < r.min)
    (hfuel : r.max.toNat ≤ fuel) : (doublings fuel r.min r.max).Enumerates r.Contains :=
  doublings_enumerates hmin (by omega)

/-- A range of active counts under a positive total. -/
theorem Range.cut_enumerates {fuel : Nat} {r : Range Int} {total : Int} (hmin : 0 < r.min)
    (htotal : 0 < total) (hfuel : r.max.toNat ≤ fuel) :
    (doublings fuel (Min.min total r.min) (Min.min total r.max)).Enumerates
      (r.cut total).Contains :=
  Range.enumerates (r := r.cut total) (lt_min htotal hmin) (by
    have hle : Min.min total r.max ≤ r.max := min_le_right _ _
    show (Min.min total r.max).toNat ≤ fuel
    omega)

theorem nodup_areaOptimizationLevels (r : Range BufferDesignTarget) :
    (areaOptimizationLevels r).Nodup := by
  have hall : BufferDesignTarget.all.Nodup := by decide
  unfold areaOptimizationLevels between
  exact hall.filter _

section
variable {fuel associativity : Nat} {b : ArrayBounds} {numRowPerSet stackLayer : Range Int}

/-- From positive starts the inner loops visit the tuples around the outer three. -/
theorem innerLoops_enumerates (hpos : ∀ l, 0 < (b.loop l).min) (hset : 0 < numRowPerSet.min)
    (hfuel : EnoughRounds fuel b numRowPerSet stackLayer) {row column die : Int} (hrow : 0 < row)
    (hcolumn : 0 < column) :
    (innerLoops fuel b numRowPerSet associativity row column die).Enumerates fun p =>
      (p.stackedDieCount = die ∧ p.numColumnMat = column ∧ p.numRowMat = row ∧ True) ∧
      (b.numActiveMatPerRow.cut p.numColumnMat).Contains p.numActiveMatPerRow ∧
      (b.numActiveMatPerColumn.cut p.numRowMat).Contains p.numActiveMatPerColumn ∧
      b.numRowSubarray.Contains p.numRowSubarray ∧
      b.numColumnSubarray.Contains p.numColumnSubarray ∧
      (b.numActiveSubarrayPerRow.cut p.numColumnSubarray).Contains p.numActiveSubarrayPerRow ∧
      (b.numActiveSubarrayPerColumn.cut p.numRowSubarray).Contains p.numActiveSubarrayPerColumn ∧
      b.muxSenseAmp.Contains p.muxSenseAmp ∧
      b.muxOutputLev1.Contains p.muxOutputLev1 ∧
      b.muxOutputLev2.Contains p.muxOutputLev2 ∧
      (numRowPerSet.upTo associativity).Contains p.numRowPerSet ∧
      p.areaOptimizationLevel ∈ areaOptimizationLevels b.areaOptimizationLevel ∧ True := by
  unfold innerLoops
  refine (Range.cut_enumerates (hpos .numActiveMatPerRow) hcolumn
    (hfuel.array .numActiveMatPerRow)).nest DesignPoint.numActiveMatPerRow
    (fun p hp => by rw [hp.2.1]; exact Iff.rfl) fun activeRow _ => ?_
  refine (Range.cut_enumerates (hpos .numActiveMatPerColumn) hrow
    (hfuel.array .numActiveMatPerColumn)).nest DesignPoint.numActiveMatPerColumn
    (fun p hp => by rw [hp.2.2.2.1]; exact Iff.rfl) fun activeColumn _ => ?_
  refine (Range.enumerates (hpos .numRowSubarray) (hfuel.array .numRowSubarray)).nest
    DesignPoint.numRowSubarray (fun _ _ => Iff.rfl) fun rowSubarray hrowSubarray => ?_
  refine (Range.enumerates (hpos .numColumnSubarray) (hfuel.array .numColumnSubarray)).nest
    DesignPoint.numColumnSubarray (fun _ _ => Iff.rfl) fun columnSubarray hcolumnSubarray => ?_
  refine (Range.cut_enumerates (hpos .numActiveSubarrayPerRow)
    (hcolumnSubarray.pos (hpos .numColumnSubarray)) (hfuel.array .numActiveSubarrayPerRow)).nest
    DesignPoint.numActiveSubarrayPerRow (fun p hp => by rw [hp.1]; exact Iff.rfl)
    fun activeSubarrayRow _ => ?_
  refine (Range.cut_enumerates (hpos .numActiveSubarrayPerColumn)
    (hrowSubarray.pos (hpos .numRowSubarray)) (hfuel.array .numActiveSubarrayPerColumn)).nest
    DesignPoint.numActiveSubarrayPerColumn (fun p hp => by rw [hp.2.2.1]; exact Iff.rfl)
    fun activeSubarrayColumn _ => ?_
  refine (Range.enumerates (hpos .muxSenseAmp) (hfuel.array .muxSenseAmp)).nest
    DesignPoint.muxSenseAmp (fun _ _ => Iff.rfl) fun senseAmp _ => ?_
  refine (Range.enumerates (hpos .muxOutputLev1) (hfuel.array .muxOutputLev1)).nest
    DesignPoint.muxOutputLev1 (fun _ _ => Iff.rfl) fun lev1 _ => ?_
  refine (Range.enumerates (hpos .muxOutputLev2) (hfuel.array .muxOutputLev2)).nest
    DesignPoint.muxOutputLev2 (fun _ _ => Iff.rfl) fun lev2 _ => ?_
  refine (Range.enumerates (r := numRowPerSet.upTo associativity) hset (by
    have hle : min numRowPerSet.max (associativity : Int) ≤ numRowPerSet.max := min_le_left _ _
    have henough := hfuel.numRowPerSet
    show (min numRowPerSet.max (associativity : Int)).toNat ≤ fuel
    omega)).nest DesignPoint.numRowPerSet (fun _ _ => Iff.rfl) fun rowPerSet _ => ?_
  refine (enumerates_ofList (nodup_areaOptimizationLevels b.areaOptimizationLevel)).nest
    DesignPoint.areaOptimizationLevel (fun _ _ => Iff.rfl) fun level _ => ?_
  refine (enumerates_pure _).congr fun p => ?_
  -- the fields are those of the loop variables
  constructor
  · rintro rfl
    exact ⟨⟨rfl, rfl, rfl, rfl, rfl, rfl, rfl, rfl, rfl, rfl, rfl, rfl, rfl, rfl, trivial⟩, trivial⟩
  · rintro ⟨⟨rfl, rfl, rfl, rfl, rfl, rfl, rfl, rfl, rfl, rfl, rfl, rfl, rfl, rfl, -⟩, -⟩
    rfl

/-- From positive starts the nest visits the design space, each point once. -/
theorem bigFor_enumerates (hpos : ∀ l, 0 < (b.loop l).min) (hset : 0 < numRowPerSet.min)
    (hstack : 0 < stackLayer.min) (hfuel : EnoughRounds fuel b numRowPerSet stackLayer) :
    (bigFor fuel b numRowPerSet stackLayer associativity).Enumerates
      (InDesignSpace b numRowPerSet stackLayer associativity) := by
  have hnest : (bigFor fuel b numRowPerSet stackLayer associativity).Enumerates fun p =>
      True ∧ b.numRowMat.Contains p.numRowMat ∧ b.numColumnMat.Contains p.numColumnMat ∧
      stackLayer.Contains p.stackedDieCount ∧
      (b.numActiveMatPerRow.cut p.numColumnMat).Contains p.numActiveMatPerRow ∧
      (b.numActiveMatPerColumn.cut p.numRowMat).Contains p.numActiveMatPerColumn ∧
      b.numRowSubarray.Contains p.numRowSubarray ∧
      b.numColumnSubarray.Contains p.numColumnSubarray ∧
      (b.numActiveSubarrayPerRow.cut p.numColumnSubarray).Contains p.numActiveSubarrayPerRow ∧
      (b.numActiveSubarrayPerColumn.cut p.numRowSubarray).Contains p.numActiveSubarrayPerColumn ∧
      b.muxSenseAmp.Contains p.muxSenseAmp ∧
      b.muxOutputLev1.Contains p.muxOutputLev1 ∧
      b.muxOutputLev2.Contains p.muxOutputLev2 ∧
      (numRowPerSet.upTo associativity).Contains p.numRowPerSet ∧
      p.areaOptimizationLevel ∈ areaOptimizationLevels b.areaOptimizationLevel ∧ True := by
    unfold bigFor
    refine (Range.enumerates (hpos .numRowMat) (hfuel.array .numRowMat)).nest
      DesignPoint.numRowMat (fun _ _ => Iff.rfl) fun row hrow => ?_
    refine (Range.enumerates (hpos .numColumnMat) (hfuel.array .numColumnMat)).nest
      DesignPoint.numColumnMat (fun _ _ => Iff.rfl) fun column hcolumn => ?_
    refine (Range.enumerates hstack hfuel.stackLayer).nest
      DesignPoint.stackedDieCount (fun _ _ => Iff.rfl) fun die _ => ?_
    exact innerLoops_enumerates hpos hset hfuel (hrow.pos (hpos .numRowMat))
      (hcolumn.pos (hpos .numColumnMat))
  refine hnest.congr fun p => ⟨?_, ?_⟩
  · rintro ⟨-, h1, h2, h3, h4, h5, h6, h7, h8, h9, h10, h11, h12, h13, h14, -⟩
    exact ⟨h1, h2, h3, h4, h5, h6, h7, h8, h9, h10, h11, h12, h13, h14⟩
  · rintro ⟨h1, h2, h3, h4, h5, h6, h7, h8, h9, h10, h11, h12, h13, h14⟩
    exact ⟨trivial, h1, h2, h3, h4, h5, h6, h7, h8, h9, h10, h11, h12, h13, h14, trivial⟩

/-! ## Other starts -/

/-- Every range starts no later than it ends. -/
def ArrayBounds.Ordered (b : ArrayBounds) : Prop := ∀ l, (b.loop l).min ≤ (b.loop l).max

/-- A range of active counts is entered for any total, and where that is positive and
    the loop ends its lower bound is positive. -/
theorem of_cut_bind_finished {γ : Type} {r : Range Int} {total : Int} {f : Int → Enumeration γ}
    (hle : r.min ≤ r.max)
    (h : (doublings fuel (min total r.min) (min total r.max) >>= f).finished = true) :
    0 < r.min ∧ (f (min total r.min)).finished = true := by
  obtain ⟨hlo, hf⟩ := of_doublings_bind_finished (min_le_min_left total hle) h
  exact ⟨(lt_min_iff.mp hlo).2, hf⟩

/-- A nest of ordered ranges that ends has positive starts: each loop is entered for
    the starts of those around it. -/
theorem pos_of_bigFor_finished (hordered : b.Ordered) (hstack : stackLayer.min ≤ stackLayer.max)
    (h : (bigFor fuel b numRowPerSet stackLayer associativity).finished = true) :
    (∀ l, 0 < (b.loop l).min) ∧ 0 < stackLayer.min := by
  unfold bigFor innerLoops at h
  obtain ⟨hrow, h⟩ := of_doublings_bind_finished (hordered .numRowMat) h
  obtain ⟨hcolumn, h⟩ := of_doublings_bind_finished (hordered .numColumnMat) h
  obtain ⟨hdie, h⟩ := of_doublings_bind_finished hstack h
  obtain ⟨hactiveRow, h⟩ := of_cut_bind_finished (hordered .numActiveMatPerRow) h
  obtain ⟨hactiveColumn, h⟩ := of_cut_bind_finished (hordered .numActiveMatPerColumn) h
  obtain ⟨hrowSubarray, h⟩ := of_doublings_bind_finished (hordered .numRowSubarray) h
  obtain ⟨hcolumnSubarray, h⟩ := of_doublings_bind_finished (hordered .numColumnSubarray) h
  obtain ⟨hsubarrayRow, h⟩ := of_cut_bind_finished (hordered .numActiveSubarrayPerRow) h
  obtain ⟨hsubarrayColumn, h⟩ := of_cut_bind_finished (hordered .numActiveSubarrayPerColumn) h
  obtain ⟨hsenseAmp, h⟩ := of_doublings_bind_finished (hordered .muxSenseAmp) h
  obtain ⟨hlev1, h⟩ := of_doublings_bind_finished (hordered .muxOutputLev1) h
  obtain ⟨hlev2, -⟩ := of_doublings_bind_finished (hordered .muxOutputLev2) h
  refine ⟨fun l => ?_, hdie⟩
  cases l with
  | numRowMat => exact hrow
  | numColumnMat => exact hcolumn
  | numActiveMatPerRow => exact hactiveRow
  | numActiveMatPerColumn => exact hactiveColumn
  | numRowSubarray => exact hrowSubarray
  | numColumnSubarray => exact hcolumnSubarray
  | numActiveSubarrayPerRow => exact hsubarrayRow
  | numActiveSubarrayPerColumn => exact hsubarrayColumn
  | muxSenseAmp => exact hsenseAmp
  | muxOutputLev1 => exact hlev1
  | muxOutputLev2 => exact hlev2

/-- Over ordered ranges the nest ends and visits the design space just when every
    start is positive. -/
theorem bigFor_enumerates_iff (hordered : b.Ordered) (hstack : stackLayer.min ≤ stackLayer.max)
    (hset : 0 < numRowPerSet.min) :
    (∃ fuel, (bigFor fuel b numRowPerSet stackLayer associativity).Enumerates
        (InDesignSpace b numRowPerSet stackLayer associativity)) ↔
      (∀ l, 0 < (b.loop l).min) ∧ 0 < stackLayer.min := by
  constructor
  · rintro ⟨fuel, h⟩
    exact pos_of_bigFor_finished hordered hstack h.finished
  · rintro ⟨hpos, hdie⟩
    obtain ⟨fuel, hfuel⟩ := exists_enoughRounds b numRowPerSet stackLayer
    exact ⟨fuel, bigFor_enumerates hpos hset hdie hfuel⟩

end

/-! ## Bounds that are read -/

/-- What reading a line keeps of the bounds. -/
structure BoundsOrdered (ip : InputParameter) : Prop where
  data : ip.data.Ordered
  tag : ip.tag.Ordered
  stackLayer : ip.stackLayer.min ≤ ip.stackLayer.max
  numRowPerSet : ip.numRowPerSet.min = 1

theorem ordered_useCactiAssumption {b : ArrayBounds} (h : b.Ordered) (yes : Bool) :
    (b.applyDataLine (.useCactiAssumption yes)).Ordered := by
  cases yes with
  | false => exact h
  | true =>
      intro l
      have hl := h l
      cases l <;> first | exact hl | exact le_rfl

/-- Options that force a range copy one end to the other. -/
theorem read_data_ordered (o : ConfigOption) (line : List Char) {s : ConfigReader}
    (h : s.ip.data.Ordered) : (o.read line s).ip.data.Ordered := by
  intro l
  have hl := h l
  cases o
  case useCactiAssumption => exact ordered_useCactiAssumption h _ l
  all_goals first
    | exact hl
    | (cases l <;> first | exact hl | exact le_rfl)

theorem read_tag_ordered (o : ConfigOption) (line : List Char) {s : ConfigReader}
    (h : s.ip.tag.Ordered) : (o.read line s).ip.tag.Ordered := by
  intro l
  have hl := h l
  cases o
  all_goals first
    | exact hl
    | (cases l <;> first | exact hl | exact le_rfl)

/-- The die counts are forced like the ranges of the arrays. -/
theorem read_stackLayer_ordered (o : ConfigOption) (line : List Char) {s : ConfigReader}
    (h : s.ip.stackLayer.min ≤ s.ip.stackLayer.max) :
    (o.read line s).ip.stackLayer.min ≤ (o.read line s).ip.stackLayer.max := by
  cases o <;> first | exact h | exact le_rfl

/-- Only a target other than a cache sets the rows per set, to one. -/
theorem read_numRowPerSet_min (o : ConfigOption) (line : List Char) {s : ConfigReader}
    (h : s.ip.numRowPerSet.min = 1) : (o.read line s).ip.numRowPerSet.min = 1 := by
  cases o
  case designTarget =>
    show (if _ then s.ip.numRowPerSet else Range.pin 1).min = 1
    split
    · exact h
    · rfl
  all_goals exact h

theorem BoundsOrdered.readLine {s : ConfigReader} (h : BoundsOrdered s.ip) (line : List Char) :
    BoundsOrdered (ConfigReader.readLine line s).ip := by
  unfold ConfigReader.readLine
  split
  · next o _ =>
    exact ⟨read_data_ordered o line h.data, read_tag_ordered o line h.tag,
      read_stackLayer_ordered o line h.stackLayer, read_numRowPerSet_min o line h.numRowPerSet⟩
  · exact h

theorem restored_ordered : restoredData.Ordered ∧ restoredTag.Ordered := by
  constructor <;> · intro l; cases l <;> decide

/-- The restored defaults are ordered; the die counts are not restored. -/
theorem boundsOrdered_restored {ip : InputParameter}
    (h : ip.stackLayer.min ≤ ip.stackLayer.max) : BoundsOrdered (RESTORE_SEARCH_SIZE ip) where
  data := restored_ordered.1
  tag := restored_ordered.2
  stackLayer := h
  numRowPerSet := rfl

/-- The nest over bounds read on top of the restored defaults ends, and visits every
    point of the design space once, exactly when all lower bounds are positive.  The
    die counts start as the constructor or an earlier file left them. -/
theorem design_space_enumerated_iff {ip : InputParameter} {s s' : ConfigReader} {rounds : ℕ}
    {file line : List Char} (hip : s.ip = RESTORE_SEARCH_SIZE ip)
    (hstack : ip.stackLayer = ⟨1, 16⟩ ∨ ∃ n, ip.stackLayer = .pin n)
    (hread : ConfigReader.ReadInputParameterFromFile rounds file line s = some s')
    (memoryType : MemoryType) :
    (∃ fuel, (s'.ip.bigFor fuel memoryType).Enumerates
        (InDesignSpace (s'.ip.array memoryType) s'.ip.numRowPerSet s'.ip.stackLayer
          s'.ip.associativity)) ↔
      (∀ l, 0 < ((s'.ip.array memoryType).loop l).min) ∧ 0 < s'.ip.stackLayer.min := by
  have hle : ip.stackLayer.min ≤ ip.stackLayer.max := by
    rcases hstack with h | ⟨n, h⟩
    · rw [h]
      decide
    · rw [h]
      exact le_refl n
  have hordered : BoundsOrdered s'.ip := by
    have hstart : BoundsOrdered s.ip := by
      rw [hip]
      exact boundsOrdered_restored hle
    have hkeep : ∀ (l : List Char) (t : ConfigReader), BoundsOrdered t.ip →
        BoundsOrdered (ConfigReader.readLine l t).ip := fun l t ht => ht.readLine l
    unfold ConfigReader.ReadInputParameterFromFile at hread
    exact lineLoop_invariant hkeep hstart hread
  have harray : (s'.ip.array memoryType).Ordered := by
    cases memoryType
    · exact hordered.data
    · exact hordered.tag
    · exact hordered.data
  have hset : 0 < s'.ip.numRowPerSet.min := by
    rw [hordered.numRowPerSet]
    decide
  exact bigFor_enumerates_iff harray hordered.stackLayer hset

/-! ### Two files -/

/-- A file of a single line runs the body of the loop once. -/
theorem read_single_line {c : Char} {l : List Char} (hl : '\n' ∉ c :: l) (s : ConfigReader) :
    ∃ rounds, ConfigReader.ReadInputParameterFromFile rounds (c :: l) [] s =
      some (ConfigReader.readLine (c :: l) s) := by
  have hhead : (c :: l).head? ≠ some '\n' := by
    intro h
    obtain rfl : c = '\n' := Option.some.inj h
    exact hl List.mem_cons_self
  obtain ⟨rounds, hrun⟩ := lineLoop_ends ConfigReader.readLine hhead [] s
  have hfetched := fetchedLines_append hl (.inl rfl : ([] : List Char) = [] ∨ _)
  rw [List.append_nil] at hfetched
  rw [hfetched] at hrun
  exact ⟨rounds, hrun⟩

/-- A reader with restored bounds and the die counts of the constructor. -/
def restoredReader : ConfigReader :=
  { (default : ConfigReader) with
    ip := RESTORE_SEARCH_SIZE { (default : InputParameter) with stackLayer := ⟨1, 16⟩ } }

/-- The line that forces the degree of the bitline mux. -/
def muxSenseAmpLine (degree : Char) : List Char := '-' :: ("ForceMuxSenseAmp: ".toList ++ [degree])

theorem read_muxSenseAmpLine (degree : Char) (n : Int) (hdegree : '\n' ∉ muxSenseAmpLine degree)
    (h : parseLine (muxSenseAmpLine degree) = some (.forceMuxSenseAmp n)) :
    ∃ rounds s', ConfigReader.ReadInputParameterFromFile rounds (muxSenseAmpLine degree) []
        restoredReader = some s' ∧
      s'.ip = restoredReader.ip.applyLine (.forceMuxSenseAmp n) := by
  obtain ⟨rounds, hread⟩ := read_single_line hdegree restoredReader
  exact ⟨rounds, _, hread, readLine_ip h restoredReader⟩

/-- Four bitlines for each sense amplifier. -/
theorem design_space_enumerated_iff_four :
    ∃ rounds s', ConfigReader.ReadInputParameterFromFile rounds (muxSenseAmpLine '4') []
        restoredReader = some s' ∧
      ∃ fuel, (s'.ip.bigFor fuel .data).Enumerates
        (InDesignSpace (s'.ip.array .data) s'.ip.numRowPerSet s'.ip.stackLayer
          s'.ip.associativity) := by
  obtain ⟨rounds, s', hread, hip⟩ :=
    read_muxSenseAmpLine '4' 4 (by decide +kernel) (by decide +kernel)
  refine ⟨rounds, s', hread, (design_space_enumerated_iff rfl (.inl rfl) hread .data).mpr ?_⟩
  rw [hip]
  exact ⟨fun l => by cases l <;> decide, by decide⟩

/-- No bitline for a sense amplifier: the mux loop does not leave zero. -/
theorem force_mux_zero_never_ends :
    ∃ rounds s', ConfigReader.ReadInputParameterFromFile rounds (muxSenseAmpLine '0') []
        restoredReader = some s' ∧
      ∀ fuel, (s'.ip.bigFor fuel .data).finished = false := by
  obtain ⟨rounds, s', hread, hip⟩ :=
    read_muxSenseAmpLine '0' 0 (by decide +kernel) (by decide +kernel)
  refine ⟨rounds, s', hread, fun fuel => ?_⟩
  rw [hip, Bool.eq_false_iff]
  intro hfinished
  have hordered : (restoredReader.ip.applyLine (.forceMuxSenseAmp 0)).data.Ordered := by
    intro l
    cases l <;> decide
  have hpos := (pos_of_bigFor_finished hordered (by decide) hfinished).1 .muxSenseAmp
  exact absurd hpos (by decide)

end Destiny
