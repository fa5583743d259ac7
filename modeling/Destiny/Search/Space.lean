/-
  Destiny.Search.Space

  The design space: the nest `BIGFOR` / `BIGFOR_TAG`, the wires the search
  starts with (`INITIAL_BASIC_WIRE`) and the wires the refinement loops try.

  The data and tag macros differ only in which bounds they read, so each is one
  definition over `ArrayBounds`.
-/

import Destiny.Lib.Enumeration
import Destiny.Search.Record

namespace Destiny

open Lib Lib.Enumeration

/-! ## The nest of loops -/

/-- The integers of an `areaOptimizationLevel` loop. -/
def areaOptimizationLevels (r : Range BufferDesignTarget) : List BufferDesignTarget :=
  between BufferDesignTarget.all BufferDesignTarget.code r

/-- The loops inside the die-count loop; none of them depends on the die count. -/
def innerLoops (fuel : Nat) (b : ArrayBounds) (numRowPerSet : Range Int) (associativity : Nat)
    (numRowMat numColumnMat stackedDieCount : Int) : Enumeration DesignPoint := do
  let numActiveMatPerRow ← doublings fuel (min numColumnMat b.numActiveMatPerRow.min)
    (min numColumnMat b.numActiveMatPerRow.max)
  let numActiveMatPerColumn ← doublings fuel (min numRowMat b.numActiveMatPerColumn.min)
    (min numRowMat b.numActiveMatPerColumn.max)
  let numRowSubarray ← doublings fuel b.numRowSubarray.min b.numRowSubarray.max
  let numColumnSubarray ← doublings fuel b.numColumnSubarray.min b.numColumnSubarray.max
  let numActiveSubarrayPerRow ←
    doublings fuel (min numColumnSubarray b.numActiveSubarrayPerRow.min)
      (min numColumnSubarray b.numActiveSubarrayPerRow.max)
  let numActiveSubarrayPerColumn ←
    doublings fuel (min numRowSubarray b.numActiveSubarrayPerColumn.min)
      (min numRowSubarray b.numActiveSubarrayPerColumn.max)
  let muxSenseAmp ← doublings fuel b.muxSenseAmp.min b.muxSenseAmp.max
  let muxOutputLev1 ← doublings fuel b.muxOutputLev1.min b.muxOutputLev1.max
  let muxOutputLev2 ← doublings fuel b.muxOutputLev2.min b.muxOutputLev2.max
  let numRowPerSet ← doublings fuel numRowPerSet.min (min numRowPerSet.max associativity)
  let areaOptimizationLevel ← ofList (areaOptimizationLevels b.areaOptimizationLevel)
  pure {
    numRowMat := numRowMat
    numColumnMat := numColumnMat
    stackedDieCount := stackedDieCount
    numActiveMatPerRow := numActiveMatPerRow
    numActiveMatPerColumn := numActiveMatPerColumn
    numRowSubarray := numRowSubarray
    numColumnSubarray := numColumnSubarray
    numActiveSubarrayPerRow := numActiveSubarrayPerRow
    numActiveSubarrayPerColumn := numActiveSubarrayPerColumn
    muxSenseAmp := muxSenseAmp
    muxOutputLev1 := muxOutputLev1
    muxOutputLev2 := muxOutputLev2
    numRowPerSet := numRowPerSet
    areaOptimizationLevel := areaOptimizationLevel }

/-- `BIGFOR` with the bounds of one array. -/
def bigFor (fuel : Nat) (b : ArrayBounds) (numRowPerSet stackLayer : Range Int)
    (associativity : Nat) : Enumeration DesignPoint := do
  let numRowMat ← doublings fuel b.numRowMat.min b.numRowMat.max
  let numColumnMat ← doublings fuel b.numColumnMat.min b.numColumnMat.max
  let stackedDieCount ← doublings fuel stackLayer.min stackLayer.max
  innerLoops fuel b numRowPerSet associativity numRowMat numColumnMat stackedDieCount

/-- The bounds of an array, by its memory type. -/
def SearchBounds.array (b : SearchBounds) : MemoryType → ArrayBounds
  | .data => b.data
  | .tag => b.tag
  | .CAM => b.data

/-- `BIGFOR` for the data array, `BIGFOR_TAG` for the tag array. -/
def InputParameter.bigFor (ip : InputParameter) (fuel : Nat) (memoryType : MemoryType) :
    Enumeration DesignPoint :=
  Destiny.bigFor fuel (ip.array memoryType) ip.numRowPerSet ip.stackLayer ip.associativity

/-! ## Wires -/

/-- The value both ends agree on, or a default. -/
def Range.orDefault {α : Type} [DecidableEq α] (r : Range α) (default : α) : α :=
  if r.min = r.max then r.min else default

/-- The local wire of `INITIAL_BASIC_WIRE`. -/
def ArrayBounds.basicLocalWire (b : ArrayBounds) : Wire where
  wireType := b.localWireType.orDefault .local_aggressive
  wireRepeaterType := b.localWireRepeaterType.orDefault .repeated_none
  isLowSwing := b.isLocalWireLowSwing.orDefault false

/-- The global wire of `INITIAL_BASIC_WIRE`. -/
def ArrayBounds.basicGlobalWire (b : ArrayBounds) : Wire where
  wireType := b.globalWireType.orDefault .global_aggressive
  wireRepeaterType := b.globalWireRepeaterType.orDefault .repeated_none
  isLowSwing := b.isGlobalWireLowSwing.orDefault false

/-- The order of the low-swing flags as integers. -/
def lowSwingCode : Bool → Nat
  | false => 0
  | true => 1

/-- The three nested wire loops with their filter. -/
def wireLoop (types : Range WireType) (repeaters : Range WireRepeaterType)
    (lowSwings : Range Bool) : List Wire :=
  (between WireType.all WireType.code types).flatMap fun wireType =>
    (between WireRepeaterType.all WireRepeaterType.code repeaters).flatMap fun repeater =>
      ((between lowSwingFlags lowSwingCode lowSwings).filter fun lowSwing =>
        repeater == .repeated_none || lowSwing == false).map fun lowSwing =>
          { wireType := wireType, wireRepeaterType := repeater, isLowSwing := lowSwing }

/-- `REFINE_LOCAL_WIRE_FORLOOP` and `REFINE_TAG_LOCAL_WIRE_FORLOOP`. -/
def ArrayBounds.localWires (b : ArrayBounds) : List Wire :=
  wireLoop b.localWireType b.localWireRepeaterType b.isLocalWireLowSwing

/-- `REFINE_GLOBAL_WIRE_FORLOOP` and `REFINE_TAG_GLOBAL_WIRE_FORLOOP`. -/
def ArrayBounds.globalWires (b : ArrayBounds) : List Wire :=
  wireLoop b.globalWireType b.globalWireRepeaterType b.isGlobalWireLowSwing

/-! ## What the loops visit -/

theorem Range.orDefault_pin {α : Type} [DecidableEq α] (a d : α) :
    (Range.pin a).orDefault d = a := if_pos rfl

theorem mem_wireLoop {types : Range WireType} {repeaters : Range WireRepeaterType}
    {lowSwings : Range Bool} {x : Wire} (h : x ∈ wireLoop types repeaters lowSwings) :
    x.wireType ∈ between WireType.all WireType.code types ∧
      x.wireRepeaterType ∈ between WireRepeaterType.all WireRepeaterType.code repeaters ∧
      x.isLowSwing ∈ between lowSwingFlags lowSwingCode lowSwings ∧ x.unsupported = false := by
  simp only [wireLoop, List.mem_flatMap, List.mem_map, List.mem_filter] at h
  obtain ⟨t, ht, r, hr, l, ⟨hl, hfilter⟩, rfl⟩ := h
  refine ⟨ht, hr, hl, ?_⟩
  rcases (by simpa using hfilter : r = .repeated_none ∨ l = false) with rfl | rfl
  · rfl
  · simp [Wire.unsupported]

/-- Every supported wire of the ranges is tried. -/
theorem mem_wireLoop_of {types : Range WireType} {repeaters : Range WireRepeaterType}
    {lowSwings : Range Bool} {x : Wire}
    (htype : x.wireType ∈ between WireType.all WireType.code types)
    (hrepeater : x.wireRepeaterType ∈ between WireRepeaterType.all WireRepeaterType.code repeaters)
    (hswing : x.isLowSwing ∈ between lowSwingFlags lowSwingCode lowSwings)
    (hsupported : x.unsupported = false) : x ∈ wireLoop types repeaters lowSwings := by
  have hfilter : (x.wireRepeaterType == .repeated_none || x.isLowSwing == false) = true := by
    rw [Wire.unsupported] at hsupported
    cases hx : x.isLowSwing with
    | false => simp
    | true => simpa [hx] using hsupported
  simp only [wireLoop, List.mem_flatMap, List.mem_map, List.mem_filter]
  exact ⟨x.wireType, htype, x.wireRepeaterType, hrepeater, x.isLowSwing, ⟨hswing, hfilter⟩, rfl⟩

/-- The value a loop starts from is visited, when the range is the default one or
    a single value. -/
theorem orDefault_mem_between {α : Type} [DecidableEq α] {enumerators : List α} {code : α → Nat}
    {r full : Range α} {d : α} (hall : ∀ a, a ∈ enumerators)
    (hr : r = full ∨ ∃ x, r = .pin x) (hfull : full.orDefault d ∈ between enumerators code full) :
    r.orDefault d ∈ between enumerators code r := by
  rcases hr with rfl | ⟨x, rfl⟩
  · exact hfull
  · rw [Range.orDefault_pin]
    exact mem_between.mpr ⟨hall x, le_rfl, le_rfl⟩

/-- A pinned wire loop tries the pinned value only. -/
theorem eq_of_mem_between_pin {t u : WireType}
    (h : t ∈ between WireType.all WireType.code (.pin u)) : t = u := by
  obtain ⟨-, hle, hge⟩ := mem_between.mp h
  exact WireType.code_injective (le_antisymm hge hle)

theorem eq_of_mem_between_pin_repeater {t u : WireRepeaterType}
    (h : t ∈ between WireRepeaterType.all WireRepeaterType.code (.pin u)) : t = u := by
  obtain ⟨-, hle, hge⟩ := mem_between.mp h
  exact WireRepeaterType.code_injective (le_antisymm hge hle)

theorem eq_of_mem_between_pin_lowSwing {t u : Bool}
    (h : t ∈ between lowSwingFlags lowSwingCode (.pin u)) : t = u := by
  obtain ⟨-, hle, hge⟩ := mem_between.mp h
  cases t <;> cases u <;> first | rfl | exact absurd hle (by decide) | exact absurd hge (by decide)

/-- The inner loops keep the die count they are given. -/
theorem stackedDieCount_of_mem_innerLoops {fuel : Nat} {b : ArrayBounds}
    {numRowPerSet : Range Int} {associativity : Nat} {row col die : Int} :
    ∀ p ∈ (innerLoops fuel b numRowPerSet associativity row col die).visited,
      p.stackedDieCount = die := by
  rw [innerLoops]
  iterate 11 refine forall_mem_bind fun _ _ => ?_
  intro p hp
  rw [pure_visited, List.mem_singleton] at hp
  rw [hp]

/-- The die counts of a nest are those of its die-count loop. -/
theorem stackedDieCount_of_mem_bigFor {fuel : Nat} {b : ArrayBounds}
    {numRowPerSet stackLayer : Range Int} {associativity : Nat} :
    ∀ p ∈ (bigFor fuel b numRowPerSet stackLayer associativity).visited,
      p.stackedDieCount ∈ (doublings fuel stackLayer.min stackLayer.max).visited := by
  rw [bigFor]
  refine forall_mem_bind fun row _ => forall_mem_bind fun col _ => forall_mem_bind ?_
  intro die hdie p hp
  rw [stackedDieCount_of_mem_innerLoops p hp]
  exact hdie

end Destiny
