/-
  Destiny.Circuit.PredecodeBlock

  `PredecodeBlock`: a predecoder of one or two stages.

  The address bits are shared out over up to four groups of basic decoders; the
  groups share the row decoders of the first stage and the one of the second.
  The decoders are objects whose fields the methods of the block overwrite one
  call after the other, and read back:

    * `Initialize` allocates them;
    * `CalculateLatency` calls them along one path after the other;
    * `CalculateArea` and `CalculatePower` go over all of them.

  What a call computes is a parameter (`Component`).  `Built` says what all
  methods keep.
-/

import Destiny.Lib.Ends
import Destiny.Lib.Literals
import Mathlib.Algebra.BigOperators.Group.List.Basic
import Mathlib.Algebra.Order.Field.Basic
import Mathlib.Tactic.Ring

namespace Destiny

open Lib

/-! ## Decoders -/

/-- What the methods of a decoder compute. -/
structure Component (K : Type) where
  /-- latency and output ramp by input ramp -/
  latency : K → K
  ramp : K → K
  leakage : K
  dynamicEnergy : K
  height : K
  width : K

/-- A decoder with its fields. -/
structure Decoder (K : Type) where
  component : Component K
  readLatency : K
  rampOutput : K
  leakage : K
  readDynamicEnergy : K
  height : K
  width : K

/-- The decoders of a block. -/
inductive Slot
  | basicDecoderA1 | basicDecoderA2 | basicDecoderB | basicDecoderC
  | rowDecoderStage1A | rowDecoderStage1B | rowDecoderStage1C | rowDecoderStage2
  deriving DecidableEq, Repr

namespace Decoder

variable {K : Type}

/-- The constructors leave all fields at zero. -/
def new [Zero K] (c : Component K) : Decoder K where
  component := c
  readLatency := 0
  rampOutput := 0
  leakage := 0
  readDynamicEnergy := 0
  height := 0
  width := 0

def CalculateLatency (rampInput : K) (d : Decoder K) : Decoder K :=
  { d with
    readLatency := d.component.latency rampInput
    rampOutput := d.component.ramp rampInput }

def CalculatePower (d : Decoder K) : Decoder K :=
  { d with leakage := d.component.leakage, readDynamicEnergy := d.component.dynamicEnergy }

def CalculateArea (d : Decoder K) : Decoder K :=
  { d with height := d.component.height, width := d.component.width }

end Decoder

/-! ## How the bits are shared out -/

namespace Predecode

/-- The number of 1 to 2 decoders. -/
def numDecoder12 (numAddressBit : Nat) : Nat := if numAddressBit = 1 then 1 else 0

/-- The number of 2 to 4 decoders. -/
def numDecoder24 (numAddressBit : Nat) : Nat :=
  if numAddressBit = 1 then 0
  else if numAddressBit % 3 = 2 then 1
  else if numAddressBit % 3 = 1 then 2
  else 0

/-- The number of 3 to 8 decoders. -/
def numDecoder38 (numAddressBit : Nat) : Nat :=
  if numAddressBit = 1 then 0 else (numAddressBit - 2 * numDecoder24 numAddressBit) / 3

def numBasicDecoder (numAddressBit : Nat) : Nat :=
  numDecoder12 numAddressBit + numDecoder24 numAddressBit + numDecoder38 numAddressBit

/-- The inputs of the three first-stage row decoders. -/
structure NandInputs where
  numNandInputStage1A : Nat
  numNandInputStage1B : Nat
  numNandInputStage1C : Nat
  deriving DecidableEq, Repr

/-- They are set where the row decoders exist. -/
def nandInputs (numBasicDecoder : Nat) : NandInputs :=
  if numBasicDecoder ≤ 1 then ⟨0, 0, 0⟩
  else if numBasicDecoder ≤ 3 then ⟨numBasicDecoder, 0, 0⟩
  else if numBasicDecoder ≤ 6 then
    ⟨numBasicDecoder - numBasicDecoder / 2, numBasicDecoder / 2, 0⟩
  else if numBasicDecoder = 7 then ⟨3, 2, 2⟩
  else if numBasicDecoder = 8 then ⟨3, 3, 2⟩
  else ⟨3, 3, 3⟩

/-- The copies of the basic decoders of the first row decoder: `numBasicDecoderA1` and
    `numBasicDecoderA2`, the latter with whether the decoder is allocated. -/
def basicDecodersA (numDecoder24 numBasicDecoder numNandInputStage1A : Nat) : Nat × Nat × Bool :=
  if numBasicDecoder ≤ 1 then (1, 0, false)
  else if numDecoder24 = 0 then (numNandInputStage1A, 0, false)
  else if numDecoder24 = 1 then (1, numNandInputStage1A - 1, true)
  else if numNandInputStage1A = 2 then (2, 0, false)
  else (2, 1, true)

/-- Whether `Initialize` allocates a decoder. -/
def allocated (numAddressBit : Nat) : Slot → Bool
  | .basicDecoderA1 => numAddressBit ≠ 0
  | .basicDecoderA2 =>
      (basicDecodersA (numDecoder24 numAddressBit) (numBasicDecoder numAddressBit)
        (nandInputs (numBasicDecoder numAddressBit)).numNandInputStage1A).2.2
  | .rowDecoderStage1A => 1 < numBasicDecoder numAddressBit
  | .basicDecoderB | .rowDecoderStage1B | .rowDecoderStage2 => 3 < numBasicDecoder numAddressBit
  | .basicDecoderC | .rowDecoderStage1C => 6 < numBasicDecoder numAddressBit

theorem allocated_stage1A {n : Nat} (h : allocated n .basicDecoderA2 = true) :
    allocated n .rowDecoderStage1A = true := by
  refine decide_eq_true ?_
  by_contra hle
  have hnone : allocated n .basicDecoderA2 = false := by
    change (basicDecodersA _ _ _).2.2 = false
    rw [basicDecodersA, if_pos (not_lt.mp hle)]
  exact absurd (h.symm.trans hnone) (by decide)

theorem allocated_of_stage1C {n : Nat} (h : allocated n .rowDecoderStage1C = true) :
    allocated n .rowDecoderStage1B = true := by
  unfold allocated at *
  exact decide_eq_true ((by decide : 3 < 6).trans (of_decide_eq_true h))

theorem stage1C_not_allocated {n : Nat} (h : allocated n .rowDecoderStage1B = false) :
    allocated n .rowDecoderStage1C = false :=
  Bool.eq_false_iff.mpr fun hc => absurd (h.symm.trans (allocated_of_stage1C hc)) (by decide)

theorem stage1B_not_allocated {n : Nat} (h : allocated n .rowDecoderStage1A = false) :
    allocated n .rowDecoderStage1B = false := by
  unfold allocated at *
  have hle : numBasicDecoder n ≤ 1 := not_lt.mp (of_decide_eq_false h)
  exact decide_eq_false (not_lt.mpr (hle.trans (by decide)))

/-- The copies of each decoder. -/
def multiplicity (numAddressBit : Nat) : Slot → Nat
  | .basicDecoderA1 =>
      (basicDecodersA (numDecoder24 numAddressBit) (numBasicDecoder numAddressBit)
        (nandInputs (numBasicDecoder numAddressBit)).numNandInputStage1A).1
  | .basicDecoderA2 =>
      (basicDecodersA (numDecoder24 numAddressBit) (numBasicDecoder numAddressBit)
        (nandInputs (numBasicDecoder numAddressBit)).numNandInputStage1A).2.1
  | .basicDecoderB => (nandInputs (numBasicDecoder numAddressBit)).numNandInputStage1B
  | .basicDecoderC => (nandInputs (numBasicDecoder numAddressBit)).numNandInputStage1C
  | _ => 1

end Predecode

/-! ## The block -/

/-- A method is called through a null pointer. -/
inductive NullPointer
  | null
  deriving DecidableEq, Repr

/-- The fields of a block; a decoder that is not allocated is a null pointer. -/
structure PredecodeBlock (K : Type) extends Predecode.NandInputs where
  numAddressBit : Nat
  numBasicDecoderA1 : Nat
  numBasicDecoderA2 : Nat
  decoders : Slot → Option (Decoder K)
  height : K
  width : K
  area : K
  readLatency : K
  writeLatency : K
  rampOutput : K
  readDynamicEnergy : K
  writeDynamicEnergy : K
  leakage : K

namespace PredecodeBlock

variable {K : Type}

/-- `PredecodeBlock::Initialize`, `none` for `exit(-1)`.  The loads only enter the components. -/
def Initialize [Zero K] (numAddressBit : Nat) (parts : Slot → Component K) :
    Option (PredecodeBlock K) :=
  if 27 < numAddressBit then none
  else
    let numBasicDecoder := Predecode.numBasicDecoder numAddressBit
    let nands := Predecode.nandInputs numBasicDecoder
    let basic := Predecode.basicDecodersA (Predecode.numDecoder24 numAddressBit) numBasicDecoder
      nands.numNandInputStage1A
    some
      { toNandInputs := nands
        numAddressBit := numAddressBit
        numBasicDecoderA1 := basic.1
        numBasicDecoderA2 := basic.2.1
        decoders := fun s =>
          if Predecode.allocated numAddressBit s = true then some (Decoder.new (parts s)) else none
        height := 0
        width := 0
        area := 0
        readLatency := 0
        writeLatency := 0
        rampOutput := 0
        readDynamicEnergy := 0
        writeDynamicEnergy := 0
        leakage := 0 }

/-- A method call through a pointer: the decoder after the call and the block. -/
def call (s : Slot) (method : Decoder K → Decoder K) (b : PredecodeBlock K) :
    Except NullPointer (Decoder K × PredecodeBlock K) :=
  match b.decoders s with
  | none => .error .null
  | some d =>
      .ok (method d, { b with decoders := Function.update b.decoders s (some (method d)) })

/-- A decoder as it stands. -/
def get (s : Slot) (b : PredecodeBlock K) : Except NullPointer (Decoder K) :=
  match b.decoders s with
  | none => .error .null
  | some d => .ok d

/-! ### Latency -/

/-- The delay of a path, its last ramp, and the block with the decoders it has overwritten. -/
structure Delay (K : Type) where
  delay : K
  maxRampOutput : K
  block : PredecodeBlock K

section
variable [Add K] [Zero K]

/-- The second stage at the end of a path of group A. -/
def thenStage2 (delay maxRampOutput : K) (b : PredecodeBlock K) : Except NullPointer (Delay K) :=
  match b.decoders .rowDecoderStage2 with
  | none => .ok ⟨delay, maxRampOutput, b⟩
  | some _ => do
      let (stage2, b) ← b.call .rowDecoderStage2 (Decoder.CalculateLatency maxRampOutput)
      .ok ⟨delay + stage2.readLatency, stage2.rampOutput, b⟩

def pathA1 (rampInput : K) (b : PredecodeBlock K) : Except NullPointer (Delay K) :=
  match b.decoders .basicDecoderA1 with
  | none => .ok ⟨0, 0, b⟩
  | some _ => do
      let (a1, b) ← b.call .basicDecoderA1 (Decoder.CalculateLatency rampInput)
      match b.decoders .rowDecoderStage1A with
      | none => .ok ⟨a1.readLatency, a1.rampOutput, b⟩
      | some _ => do
          let (stage1, b) ← b.call .rowDecoderStage1A (Decoder.CalculateLatency a1.rampOutput)
          b.thenStage2 (a1.readLatency + stage1.readLatency) stage1.rampOutput

def pathA2 (rampInput : K) (b : PredecodeBlock K) : Except NullPointer (Delay K) :=
  match b.decoders .basicDecoderA2 with
  | none => .ok ⟨0, 0, b⟩
  | some _ => do
      let (a2, b) ← b.call .basicDecoderA2 (Decoder.CalculateLatency rampInput)
      -- the latency that is added is that of the other basic decoder
      let a1 ← b.get .basicDecoderA1
      let (stage1, b) ← b.call .rowDecoderStage1A (Decoder.CalculateLatency a2.rampOutput)
      b.thenStage2 (a1.readLatency + stage1.readLatency) stage1.rampOutput

/-- The paths B and C. -/
def path (basic stage1 : Slot) (rampInput : K) (b : PredecodeBlock K) :
    Except NullPointer (Delay K) :=
  match b.decoders basic with
  | none => .ok ⟨0, 0, b⟩
  | some _ => do
      let (d, b) ← b.call basic (Decoder.CalculateLatency rampInput)
      let (row, b) ← b.call stage1 (Decoder.CalculateLatency d.rampOutput)
      let (stage2, b) ← b.call .rowDecoderStage2 (Decoder.CalculateLatency row.rampOutput)
      .ok ⟨d.readLatency + row.readLatency + stage2.readLatency, stage2.rampOutput, b⟩

def pathB (rampInput : K) : PredecodeBlock K → Except NullPointer (Delay K) :=
  path .basicDecoderB .rowDecoderStage1B rampInput

def pathC (rampInput : K) : PredecodeBlock K → Except NullPointer (Delay K) :=
  path .basicDecoderC .rowDecoderStage1C rampInput

variable [LinearOrder K]

def CalculateLatency (rampInput : K) (b : PredecodeBlock K) :
    Except NullPointer (PredecodeBlock K) :=
  if b.numAddressBit = 0 then
    .ok { b with readLatency := 0, writeLatency := 0, rampOutput := rampInput }
  else do
    let a1 ← b.pathA1 rampInput
    let a2 ← a1.block.pathA2 rampInput
    let b ← a2.block.pathB rampInput
    let c ← b.block.pathC rampInput
    let rampOutput := max (max (max (max 0 a1.maxRampOutput) a2.maxRampOutput) b.maxRampOutput)
      c.maxRampOutput
    let readLatency := max (max (max (max 0 a1.delay) a2.delay) b.delay) c.delay
    .ok { c.block with
      readLatency := readLatency, writeLatency := readLatency, rampOutput := rampOutput }

end

/-! ### Area and power -/

/-- Two running totals and the block with the decoders that were visited. -/
structure Walk (K : Type) where
  totals : K × K
  block : PredecodeBlock K

/-- `if (decoder != NULL)` -/
def Walk.when (s : Slot) (visit : Walk K → Except NullPointer (Walk K)) (w : Walk K) :
    Except NullPointer (Walk K) :=
  match w.block.decoders s with
  | none => .ok w
  | some _ => visit w

/-- The nesting in which the basic decoders are visited. -/
def Walk.basicDecoders (visit : Slot → Walk K → Except NullPointer (Walk K)) :
    Walk K → Except NullPointer (Walk K) :=
  Walk.when .basicDecoderA1 fun w => do
    let w ← visit .basicDecoderA1 w
    let w ← w.when .basicDecoderA2 (visit .basicDecoderA2)
    w.when .basicDecoderB fun w => do
      let w ← visit .basicDecoderB w
      w.when .basicDecoderC (visit .basicDecoderC)

/-- The nesting in which the row decoders are visited. -/
def Walk.rowDecoders (visit : Slot → Walk K → Except NullPointer (Walk K)) :
    Walk K → Except NullPointer (Walk K) :=
  Walk.when .rowDecoderStage1A fun w => do
    let w ← visit .rowDecoderStage1A w
    let w ← w.when .rowDecoderStage1B fun w => do
      let w ← visit .rowDecoderStage1B w
      w.when .rowDecoderStage1C (visit .rowDecoderStage1C)
    w.when .rowDecoderStage2 (visit .rowDecoderStage2)

/-- A visit calls a method and adds the fields of the decoder to the totals. -/
def Walk.visit (method : Decoder K → Decoder K) (add : Decoder K → K × K → K × K) (s : Slot)
    (w : Walk K) : Except NullPointer (Walk K) := do
  let (d, b) ← w.block.call s method
  .ok ⟨add d w.totals, b⟩

/-- The copies of a decoder in the area. -/
def multiplicity (b : PredecodeBlock K) : Slot → Nat
  | .basicDecoderA1 => b.numBasicDecoderA1
  | .basicDecoderA2 => b.numBasicDecoderA2
  | .basicDecoderB => b.numNandInputStage1B
  | .basicDecoderC => b.numNandInputStage1C
  | _ => 1

section
variable [Field K] [LinearOrder K]

/-- A decoder in a column: `wTemp` and `hTemp`. -/
def columnArea (b : PredecodeBlock K) (s : Slot) : Walk K → Except NullPointer (Walk K) :=
  Walk.visit Decoder.CalculateArea
    (fun d t => (max t.1 d.width, t.2 + b.multiplicity s * d.height)) s

/-- The second stage stands beside the column of the first. -/
def rowArea (b : PredecodeBlock K) : Slot → Walk K → Except NullPointer (Walk K)
  | .rowDecoderStage2 =>
      Walk.visit Decoder.CalculateArea (fun d t => (t.1 + d.width, max t.2 d.height))
        .rowDecoderStage2
  | s => b.columnArea s

def CalculateArea (b : PredecodeBlock K) : Except NullPointer (PredecodeBlock K) :=
  if b.numAddressBit = 0 then .ok { b with height := 0, width := 0, area := 0 }
  else do
    let basic ← Walk.basicDecoders b.columnArea ⟨(0, 0), b⟩
    let rows ← Walk.rowDecoders b.rowArea ⟨(0, 0), basic.block⟩
    let width := basic.totals.1 + rows.totals.1
    let height := max basic.totals.2 rows.totals.2
    .ok { rows.block with width := width, height := height, area := width * height }

/-- `leakage` and `readDynamicEnergy` -/
def addPower (d : Decoder K) (t : K × K) : K × K := (t.1 + d.leakage, t.2 + d.readDynamicEnergy)

def basicPower : Slot → Walk K → Except NullPointer (Walk K) :=
  Walk.visit Decoder.CalculatePower addPower

/-- The fields of the second stage are added as they stand. -/
def rowPower : Slot → Walk K → Except NullPointer (Walk K)
  | .rowDecoderStage2 => Walk.visit id addPower .rowDecoderStage2
  | s => Walk.visit Decoder.CalculatePower addPower s

def CalculatePower (b : PredecodeBlock K) : Except NullPointer (PredecodeBlock K) :=
  if b.numAddressBit = 0 then
    .ok { b with leakage := 0, readDynamicEnergy := 0, writeDynamicEnergy := 0 }
  else do
    let basic ← Walk.basicDecoders basicPower ⟨(0, 0), b⟩
    let rows ← Walk.rowDecoders rowPower basic
    .ok { rows.block with
      leakage := rows.totals.1
      readDynamicEnergy := rows.totals.2
      writeDynamicEnergy := rows.totals.2 }

end

/-- The states of a block: initialised, and after any calls of its methods. -/
inductive Reached [Field K] [LinearOrder K] (n : Nat) (parts : Slot → Component K) :
    PredecodeBlock K → Prop
  | Initialize {b} (h : Initialize n parts = some b) : Reached n parts b
  | CalculateArea {b b'} (hb : Reached n parts b) (h : b.CalculateArea = .ok b') :
      Reached n parts b'
  | CalculateLatency {b b'} (hb : Reached n parts b) (rampInput : K)
      (h : b.CalculateLatency rampInput = .ok b') : Reached n parts b'
  | CalculatePower {b b'} (hb : Reached n parts b) (h : b.CalculatePower = .ok b') :
      Reached n parts b'

/-! ## What all methods keep -/

/-- A decoder is there where it was allocated, computes what it is given to compute, and the
    power of the second stage is never written. -/
def Kept [Zero K] (n : Nat) (parts : Slot → Component K) (s : Slot) : Option (Decoder K) → Prop
  | none => Predecode.allocated n s = false
  | some d => Predecode.allocated n s = true ∧ d.component = parts s ∧
      (s = .rowDecoderStage2 → d.leakage = 0 ∧ d.readDynamicEnergy = 0)

structure Built [Zero K] (n : Nat) (parts : Slot → Component K) (b : PredecodeBlock K) :
    Prop where
  numAddressBit : b.numAddressBit = n
  multiplicity : b.multiplicity = Predecode.multiplicity n
  decoders : ∀ s, Kept n parts s (b.decoders s)

section
variable [Zero K] {n : Nat} {parts : Slot → Component K} {b : PredecodeBlock K}

theorem Initialize_built (h : Initialize n parts = some b) : Built n parts b := by
  unfold Initialize at h
  split at h
  · cases h
  · obtain rfl := Option.some.inj h
    refine ⟨rfl, rfl, fun s => ?_⟩
    change Kept n parts s (if _ then _ else _)
    split
    · next ha => exact ⟨ha, rfl, fun _ => ⟨rfl, rfl⟩⟩
    · next ha => exact Bool.eq_false_iff.mpr ha

theorem Built.exists_of_allocated (hb : Built n parts b) {s : Slot}
    (hs : Predecode.allocated n s = true) :
    ∃ d, b.decoders s = some d ∧ d.component = parts s ∧
      (s = .rowDecoderStage2 → d.leakage = 0 ∧ d.readDynamicEnergy = 0) := by
  have hkept := hb.decoders s
  cases hd : b.decoders s with
  | none =>
      rw [hd] at hkept
      exact absurd (hs.symm.trans hkept) (by decide)
  | some d =>
      rw [hd] at hkept
      exact ⟨d, rfl, hkept.2⟩

theorem Built.eq_none (hb : Built n parts b) {s : Slot}
    (hs : Predecode.allocated n s = false) : b.decoders s = none := by
  have hkept := hb.decoders s
  cases hd : b.decoders s with
  | none => rfl
  | some d =>
      rw [hd] at hkept
      exact absurd (hs.symm.trans hkept.1) (by decide)

/-- What a method does to the fields that `Built` is about. -/
structure Harmless (s : Slot) (method : Decoder K → Decoder K) : Prop where
  component : ∀ d, (method d).component = d.component
  power : s = .rowDecoderStage2 → ∀ d, (method d).leakage = d.leakage ∧
    (method d).readDynamicEnergy = d.readDynamicEnergy

theorem Built.update (hb : Built n parts b) {s : Slot} {d : Decoder K}
    (hd : Kept n parts s (some d)) :
    Built n parts { b with decoders := Function.update b.decoders s (some d) } where
  numAddressBit := hb.numAddressBit
  multiplicity := hb.multiplicity
  decoders t := by
    change Kept n parts t (Function.update b.decoders s (some d) t)
    rcases eq_or_ne t s with rfl | ht
    · rw [Function.update_self]
      exact hd
    · rw [Function.update_of_ne ht]
      exact hb.decoders t

/-- A call of an allocated decoder returns it, and changes no other. -/
theorem Built.call_ends (hb : Built n parts b) {s : Slot}
    (hs : Predecode.allocated n s = true) {method : Decoder K → Decoder K}
    (hmethod : Harmless s method) :
    Ends (fun p => ∃ d, d.component = parts s ∧ p.1 = method d ∧
        (s = .rowDecoderStage2 → d.leakage = 0 ∧ d.readDynamicEnergy = 0) ∧
        Built n parts p.2 ∧ p.2.decoders s = some p.1 ∧
        ∀ t, t ≠ s → p.2.decoders t = b.decoders t)
      (fun _ : NullPointer => False) (b.call s method) := by
  obtain ⟨d, hd, hcomponent, hpower⟩ := hb.exists_of_allocated hs
  unfold call
  rw [hd]
  refine ⟨d, hcomponent, rfl, hpower, hb.update ⟨hs, (hmethod.component d).trans hcomponent, ?_⟩,
    Function.update_self _ _ _, fun t ht => Function.update_of_ne ht _ _⟩
  intro hstage
  rw [(hmethod.power hstage d).1, (hmethod.power hstage d).2]
  exact hpower hstage

end

end PredecodeBlock

end Destiny
