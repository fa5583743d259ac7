/-
  Destiny.Circuit.PredecodeLatency

  The paths of a predecoder.

  `CalculateLatency` goes through the groups of basic decoders one after the
  other, over the same row decoders.  `CalculateLatency_ends` says what the
  running maxima come to: the worst path, with the latency of the wrong basic
  decoder on path A2.
-/

import Destiny.Circuit.PredecodeBlock
import Destiny.Lib.Worst

namespace Destiny

open Lib

namespace PredecodeBlock

variable {K : Type}

/-! ## The worst path -/

/-- The latency along some decoders, each under the ramp of the one before. -/
def delayAlong [Add K] [Zero K] (parts : Slot → Component K) : List Slot → K → K
  | [], _ => 0
  | s :: l, ramp => (parts s).latency ramp + delayAlong parts l ((parts s).ramp ramp)

def rampAlong (parts : Slot → Component K) : List Slot → K → K
  | [], ramp => ramp
  | s :: l, ramp => rampAlong parts l ((parts s).ramp ramp)

/-- The decoders behind a first-stage row decoder and those on a whole path. -/
def rowStages (n : Nat) (stage1 : Slot) : List Slot :=
  [stage1, .rowDecoderStage2].filter fun s => Predecode.allocated n s

/-- The path of a group of basic decoders, where the group is present. -/
def pathOf (n : Nat) (basic stage1 : Slot) : List (List Slot) :=
  if Predecode.allocated n basic = true then [basic :: rowStages n stage1] else []

/-- The paths A1, A2, B and C of a block. -/
def paths (n : Nat) : List (List Slot) :=
  pathOf n .basicDecoderA1 .rowDecoderStage1A ++ pathOf n .basicDecoderA2 .rowDecoderStage1A ++
    pathOf n .basicDecoderB .rowDecoderStage1B ++ pathOf n .basicDecoderC .rowDecoderStage1C

/-- The paths without A2. -/
def otherPaths (n : Nat) : List (List Slot) :=
  pathOf n .basicDecoderA1 .rowDecoderStage1A ++ pathOf n .basicDecoderB .rowDecoderStage1B ++
    pathOf n .basicDecoderC .rowDecoderStage1C

section
variable [Field K] {n : Nat} {parts : Slot → Component K} {b : PredecodeBlock K}

omit [Field K] in
theorem Harmless.CalculateLatency (s : Slot) (ramp : K) :
    Harmless s (Decoder.CalculateLatency ramp) :=
  ⟨fun _ => rfl, fun _ _ => ⟨rfl, rfl⟩⟩

/-- A call of `CalculateLatency` reads back what it computes. -/
theorem Built.latency_ends (hb : Built n parts b) {s : Slot}
    (hs : Predecode.allocated n s = true) (ramp : K) :
    Ends (fun p => p.1.readLatency = (parts s).latency ramp ∧
        p.1.rampOutput = (parts s).ramp ramp ∧ Built n parts p.2 ∧
        p.2.decoders s = some p.1 ∧ ∀ t, t ≠ s → p.2.decoders t = b.decoders t)
      (fun _ : NullPointer => False) (b.call s (Decoder.CalculateLatency ramp)) := by
  refine (hb.call_ends hs (Harmless.CalculateLatency s ramp)).mono ?_ fun _ h => h
  rintro ⟨d, b'⟩ ⟨d₀, hcomponent, rfl, -, hbuilt, hself, hother⟩
  refine ⟨?_, ?_, hbuilt, hself, hother⟩
  · rw [← hcomponent]
    rfl
  · rw [← hcomponent]
    rfl

/-- What a path of group A ends with after its row decoder. -/
structure Delay.Along (n : Nat) (parts : Slot → Component K) (stages : List Slot)
    (delay rampInput : K) (p : Delay K) : Prop where
  delay_eq : p.delay = delay + delayAlong parts stages rampInput
  ramp_eq : p.maxRampOutput = rampAlong parts stages rampInput
  built : Built n parts p.block

theorem Built.thenStage2_ends (hb : Built n parts b) (delay ramp : K) :
    Ends (fun p => p.Along n parts ([Slot.rowDecoderStage2].filter fun s => Predecode.allocated n s)
          delay ramp ∧ ∀ t, t ≠ .rowDecoderStage2 → p.block.decoders t = b.decoders t)
      (fun _ : NullPointer => False) (b.thenStage2 delay ramp) := by
  unfold thenStage2
  cases ha : Predecode.allocated n .rowDecoderStage2 with
  | false =>
      rw [hb.eq_none ha, List.filter_singleton, ha]
      exact ⟨⟨(add_zero _).symm, rfl, hb⟩, fun _ _ => rfl⟩
  | true =>
      obtain ⟨d, hd, -⟩ := hb.exists_of_allocated ha
      rw [hd, List.filter_singleton, ha]
      refine (hb.latency_ends ha ramp).bind ?_
      rintro ⟨d', b'⟩ ⟨hlatency, hramp, hbuilt, -, hother⟩
      refine ⟨⟨?_, hramp, hbuilt⟩, hother⟩
      change delay + d'.readLatency = delay + (_ + 0)
      rw [hlatency, add_zero]

/-- A row decoder of the first stage and what follows it. -/
theorem Built.stages_ends (hb : Built n parts b)
    (hs : Predecode.allocated n .rowDecoderStage1A = true) (delay ramp : K) :
    Ends (fun p => p.Along n parts (rowStages n .rowDecoderStage1A) delay ramp ∧
          p.block.decoders .basicDecoderA1 = b.decoders .basicDecoderA1)
      (fun _ : NullPointer => False) (do
        let (stage1, b) ← b.call .rowDecoderStage1A (Decoder.CalculateLatency ramp)
        b.thenStage2 (delay + stage1.readLatency) stage1.rampOutput) := by
  refine (hb.latency_ends hs ramp).bind ?_
  rintro ⟨d, b'⟩ ⟨hlatency, hramp, hbuilt, -, hother⟩
  refine (hbuilt.thenStage2_ends _ _).mono ?_ fun _ h => h
  rintro p ⟨⟨hdelay, hlast, hlastBuilt⟩, hkept⟩
  rw [rowStages, List.filter_cons_of_pos hs]
  refine ⟨⟨?_, ?_, hlastBuilt⟩, ?_⟩
  · rw [hdelay, hlatency, hramp, delayAlong, add_assoc]
  · rw [hlast, hramp, rampAlong]
  · rw [hkept _ (by decide), hother _ (by decide)]

theorem Built.pathA1_ends (hb : Built n parts b)
    (ha : Predecode.allocated n .basicDecoderA1 = true) (rampInput : K) :
    Ends (fun p => p.Along n parts (.basicDecoderA1 :: rowStages n .rowDecoderStage1A) 0 rampInput ∧
          ∃ d, p.block.decoders .basicDecoderA1 = some d ∧
            d.readLatency = (parts .basicDecoderA1).latency rampInput)
      (fun _ : NullPointer => False) (b.pathA1 rampInput) := by
  obtain ⟨a, hd, -⟩ := hb.exists_of_allocated ha
  unfold pathA1
  rw [hd]
  refine (hb.latency_ends ha rampInput).bind ?_
  rintro ⟨d, b'⟩ ⟨hlatency, hramp, hbuilt, hself, -⟩
  dsimp only
  -- without the first row stage of A there is no second stage either
  cases hs : Predecode.allocated n .rowDecoderStage1A with
  | false =>
      have hstage2 : Predecode.allocated n .rowDecoderStage2 = false :=
        Predecode.stage1B_not_allocated hs
      have hstages : rowStages n .rowDecoderStage1A = [] := by
        rw [rowStages, List.filter_cons_of_neg (by simp [hs]), List.filter_singleton, hstage2]
        rfl
      rw [hbuilt.eq_none hs, hstages]
      refine ⟨⟨?_, hramp, hbuilt⟩, d, hself, hlatency⟩
      change d.readLatency = 0 + (_ + 0)
      rw [hlatency, zero_add, add_zero]
  | true =>
      obtain ⟨row, hrow, -⟩ := hbuilt.exists_of_allocated hs
      rw [hrow]
      refine (hbuilt.stages_ends hs d.readLatency d.rampOutput).mono ?_ fun _ h => h
      rintro p ⟨⟨hdelay, hlast, hlastBuilt⟩, hkept⟩
      refine ⟨⟨?_, ?_, hlastBuilt⟩, d, hkept.trans hself, hlatency⟩
      · rw [hdelay, hlatency, hramp, zero_add, delayAlong]
      · rw [hlast, hramp, rampAlong]

/-- The delay of path A2 starts with the latency of the other basic decoder. -/
theorem Built.pathA2_ends (hb : Built n parts b)
    (ha : Predecode.allocated n .basicDecoderA2 = true) (rampInput : K) {d : Decoder K}
    (hd : b.decoders .basicDecoderA1 = some d) :
    Ends (fun p => p.Along n parts (rowStages n .rowDecoderStage1A) d.readLatency
          ((parts .basicDecoderA2).ramp rampInput))
      (fun _ : NullPointer => False) (b.pathA2 rampInput) := by
  obtain ⟨a, hd₂, -⟩ := hb.exists_of_allocated ha
  unfold pathA2
  rw [hd₂]
  refine (hb.latency_ends ha rampInput).bind ?_
  rintro ⟨d₂, b'⟩ ⟨-, hramp, hbuilt, -, hother⟩
  have hget : b'.get .basicDecoderA1 = .ok d := by
    rw [get, hother _ (by decide), hd]
  change Ends _ _ (b'.get .basicDecoderA1 >>= _)
  rw [hget]
  refine (hbuilt.stages_ends (Predecode.allocated_stage1A ha) d.readLatency d₂.rampOutput).mono ?_
    fun _ h => h
  rintro p ⟨hp, -⟩
  rwa [hramp] at hp

theorem Built.path_ends (hb : Built n parts b) {basic stage1 : Slot}
    (ha : Predecode.allocated n basic = true) (hs : Predecode.allocated n stage1 = true)
    (hlast : Predecode.allocated n .rowDecoderStage2 = true) (rampInput : K) :
    Ends (fun p => p.Along n parts (basic :: rowStages n stage1) 0 rampInput)
      (fun _ : NullPointer => False) (b.path basic stage1 rampInput) := by
  obtain ⟨a, hd, -⟩ := hb.exists_of_allocated ha
  have hstages : rowStages n stage1 = [stage1, .rowDecoderStage2] := by
    rw [rowStages, List.filter_cons_of_pos hs, List.filter_cons_of_pos hlast, List.filter_nil]
  unfold path
  rw [hd, hstages]
  refine (hb.latency_ends ha rampInput).bind ?_
  rintro ⟨d, b₁⟩ ⟨hlatency, hramp, hbuilt, -, -⟩
  refine (hbuilt.latency_ends hs d.rampOutput).bind ?_
  rintro ⟨row, b₂⟩ ⟨hlatency₁, hramp₁, hbuilt₁, -, -⟩
  refine (hbuilt₁.latency_ends hlast row.rampOutput).bind ?_
  rintro ⟨stage2, b₃⟩ ⟨hlatency₂, hramp₂, hbuilt₂, -, -⟩
  refine ⟨?_, ?_, hbuilt₂⟩
  · change d.readLatency + row.readLatency + stage2.readLatency = 0 + (_ + (_ + (_ + 0)))
    rw [hlatency₂, hlatency₁, hlatency, hramp₁, hramp, zero_add, add_zero, add_assoc]
  · change stage2.rampOutput = _
    rw [hramp₂, hramp₁, hramp]
    rfl

variable [LinearOrder K]

/-- What a path adds to the running maxima of a block. -/
structure Delay.Worst (n : Nat) (parts : Slot → Component K) (l : List (List Slot)) (rampInput : K)
    (p : Delay K) : Prop where
  delay : max 0 p.delay = worst 0 (l.map fun path => delayAlong parts path rampInput)
  ramp : max 0 p.maxRampOutput = worst 0 (l.map fun path => rampAlong parts path rampInput)
  built : Built n parts p.block

/-- A path that is present counts, an absent one adds nothing. -/
theorem Delay.Along.worst {basic stage1 : Slot} {rampInput : K} {p : Delay K}
    (h : p.Along n parts (basic :: rowStages n stage1) 0 rampInput)
    (ha : Predecode.allocated n basic = true) :
    p.Worst n parts (pathOf n basic stage1) rampInput := by
  obtain ⟨hdelay, hramp, hbuilt⟩ := h
  rw [pathOf, if_pos ha]
  refine ⟨?_, ?_, hbuilt⟩
  · rw [hdelay, zero_add, max_comm]
    rfl
  · rw [hramp, max_comm]
    rfl

theorem Built.worst_absent (hb : Built n parts b) {basic : Slot}
    (ha : Predecode.allocated n basic = false) (stage1 : Slot) (rampInput : K) :
    Delay.Worst n parts (pathOf n basic stage1) rampInput ⟨0, 0, b⟩ := by
  rw [pathOf, ha]
  exact ⟨max_self 0, max_self 0, hb⟩

theorem Built.path_worst (hb : Built n parts b) (basic stage1 : Slot)
    (hs : Predecode.allocated n basic = true → Predecode.allocated n stage1 = true)
    (hlast : Predecode.allocated n basic = true →
      Predecode.allocated n .rowDecoderStage2 = true) (rampInput : K) :
    Ends (fun p => p.Worst n parts (pathOf n basic stage1) rampInput)
      (fun _ : NullPointer => False) (b.path basic stage1 rampInput) := by
  cases ha : Predecode.allocated n basic with
  | false =>
      unfold path
      rw [hb.eq_none ha]
      exact hb.worst_absent ha stage1 rampInput
  | true =>
      exact (hb.path_ends ha (hs ha) (hlast ha) rampInput).mono (fun p hp => hp.worst ha)
        fun _ h => h

/-- What the running maximum gets for path A2. -/
def delayA2 (n : Nat) (parts : Slot → Component K) (rampInput : K) : K :=
  (parts .basicDecoderA1).latency rampInput +
    delayAlong parts (rowStages n .rowDecoderStage1A) ((parts .basicDecoderA2).ramp rampInput)

/-- The calculation of a block with address bits: the maximum over the paths, with that value
    in place of the delay of path A2. -/
theorem Built.CalculateLatency_ends (hb : Built n parts b) (hn : n ≠ 0) (rampInput : K) :
    Ends (fun b' => Built n parts b' ∧
        b'.readLatency =
          max (worst 0 ((otherPaths n).map fun path => delayAlong parts path rampInput))
            (if Predecode.allocated n .basicDecoderA2 = true then delayA2 n parts rampInput
              else 0) ∧
        b'.rampOutput = worst 0 ((paths n).map fun path => rampAlong parts path rampInput))
      (fun _ : NullPointer => False) (b.CalculateLatency rampInput) := by
  have hallocated : Predecode.allocated n .basicDecoderA1 = true := decide_eq_true hn
  have hbits : b.numAddressBit ≠ 0 := by rwa [hb.numAddressBit]
  unfold CalculateLatency
  rw [if_neg hbits]
  -- A1 exists, as there are address bits
  refine (hb.pathA1_ends hallocated rampInput).bind ?_
  rintro a1 ⟨hone, d, hd, hlatency⟩
  -- the delay of path A2 starts with the latency of decoder A1
  have htwo : Ends (fun a2 =>
        a2.delay = (if Predecode.allocated n .basicDecoderA2 = true then
          delayA2 n parts rampInput else 0) ∧
        max 0 a2.maxRampOutput =
          worst 0 ((pathOf n .basicDecoderA2 .rowDecoderStage1A).map fun path =>
            rampAlong parts path rampInput) ∧
        Built n parts a2.block)
      (fun _ : NullPointer => False) (a1.block.pathA2 rampInput) := by
    cases ha : Predecode.allocated n .basicDecoderA2 with
    | false =>
        unfold pathA2
        rw [hone.built.eq_none ha]
        exact ⟨rfl, (hone.built.worst_absent ha _ rampInput).ramp, hone.built⟩
    | true =>
        refine (hone.built.pathA2_ends ha rampInput hd).mono ?_ fun _ h => h
        rintro p ⟨hdelay, hramp, hbuilt⟩
        rw [pathOf, if_pos ha, hdelay, hlatency, hramp]
        exact ⟨rfl, max_comm _ _, hbuilt⟩
  refine htwo.bind ?_
  rintro a2 ⟨hdelay, hramp, hbuilt⟩
  have hB : Ends (fun p =>
      p.Worst n parts (pathOf n .basicDecoderB .rowDecoderStage1B) rampInput)
      (fun _ : NullPointer => False) (a2.block.pathB rampInput) :=
    hbuilt.path_worst .basicDecoderB .rowDecoderStage1B (fun h => h) (fun h => h) rampInput
  refine hB.bind fun pB hB => ?_
  have hC : Ends (fun p =>
      p.Worst n parts (pathOf n .basicDecoderC .rowDecoderStage1C) rampInput)
      (fun _ : NullPointer => False) (pB.block.pathC rampInput) :=
    hB.built.path_worst .basicDecoderC .rowDecoderStage1C (fun h => h)
      (fun h => Predecode.allocated_of_stage1C h) rampInput
  refine hC.bind fun pC hC => ?_
  have hA := hone.worst hallocated
  refine ⟨⟨hC.built.numAddressBit, hC.built.multiplicity, hC.built.decoders⟩, ?_, ?_⟩
  · -- the running maxima of the walk are the maxima over the paths
    change max (max (max (max 0 a1.delay) a2.delay) pB.delay) pC.delay = _
    rw [otherPaths, List.map_append, List.map_append, worst_append, worst_append, ← hA.delay,
      ← hB.delay, ← hC.delay, ← hdelay]
    refine eq_of_forall_ge_iff fun x => ?_
    simp only [max_le_iff]
    tauto
  · change max (max (max (max 0 a1.maxRampOutput) a2.maxRampOutput) pB.maxRampOutput)
      pC.maxRampOutput = _
    rw [paths, List.map_append, List.map_append, List.map_append, worst_append, worst_append,
      worst_append, ← hA.ramp, ← hramp, ← hB.ramp, ← hC.ramp]
    refine eq_of_forall_ge_iff fun x => ?_
    simp only [max_le_iff]
    tauto

/-- The delays and the final ramps of some paths. -/
def delays (parts : Slot → Component K) (rampInput : K) (l : List (List Slot)) : List K :=
  l.map fun path => delayAlong parts path rampInput

def ramps (parts : Slot → Component K) (rampInput : K) (l : List (List Slot)) : List K :=
  l.map fun path => rampAlong parts path rampInput

/-- The latency of a block is that of its worst path, and its ramp the worst final ramp. -/
structure LatencyIsWorst (n : Nat) (parts : Slot → Component K) (rampInput : K)
    (b : PredecodeBlock K) : Prop where
  readLatency : IsGreatest {x | x ∈ delays parts rampInput (paths n)} b.readLatency
  rampOutput : IsGreatest {x | x ∈ ramps parts rampInput (paths n)} b.rampOutput

/-- Path A2 is not there, or both basic decoders of group A are as fast, or path A2 is no
    worse than the other paths with the latency of either. -/
def PathA2Unnoticed (n : Nat) (parts : Slot → Component K) (rampInput : K) : Prop :=
  Predecode.allocated n .basicDecoderA2 = true →
    (parts .basicDecoderA1).latency rampInput = (parts .basicDecoderA2).latency rampInput ∨
      ∀ s ∈ [Slot.basicDecoderA1, .basicDecoderA2],
        (parts s).latency rampInput +
            delayAlong parts (rowStages n .rowDecoderStage1A)
              ((parts .basicDecoderA2).ramp rampInput) ≤
          worst 0 (delays parts rampInput (otherPaths n))

instance (n : Nat) (parts : Slot → Component K) (rampInput : K) :
    Decidable (PathA2Unnoticed n parts rampInput) := inferInstanceAs (Decidable (_ → _ ∨ _))

/-- The running maximum with the value for path A2 is the worst path where that value goes
    unnoticed. -/
theorem worst_paths_iff (n : Nat) (parts : Slot → Component K) (rampInput : K) :
    max (worst 0 (delays parts rampInput (otherPaths n)))
          (if Predecode.allocated n .basicDecoderA2 = true then delayA2 n parts rampInput else 0) =
        worst 0 (delays parts rampInput (paths n)) ↔
      PathA2Unnoticed n parts rampInput := by
  have hpaths : worst 0 (delays parts rampInput (paths n)) =
      max (worst 0 (delays parts rampInput (otherPaths n)))
        (worst 0 (delays parts rampInput (pathOf n .basicDecoderA2 .rowDecoderStage1A))) := by
    rw [paths, otherPaths]
    simp only [delays, List.map_append, worst_append]
    refine eq_of_forall_ge_iff fun x => ?_
    simp only [max_le_iff]
    tauto
  have hfloor := floor_le_worst (0 : K) (delays parts rampInput (otherPaths n))
  rw [hpaths, PathA2Unnoticed]
  cases ha : Predecode.allocated n .basicDecoderA2 with
  | false =>
      rw [pathOf, ha]
      exact iff_of_true rfl fun h => absurd h (by decide)
  | true =>
      have hpath : worst 0 (delays parts rampInput (pathOf n .basicDecoderA2 .rowDecoderStage1A)) =
          max ((parts .basicDecoderA2).latency rampInput +
            delayAlong parts (rowStages n .rowDecoderStage1A)
              ((parts .basicDecoderA2).ramp rampInput)) 0 := by
        rw [pathOf, if_pos ha]
        rfl
      rw [hpath, max_comm _ (0 : K), ← max_assoc, max_eq_left hfloor, if_pos rfl,
        worst_replace_iff, delayA2, add_left_inj, List.forall_mem_cons, List.forall_mem_singleton]
      exact ⟨fun h _ => h, fun h => h rfl⟩

end

end PredecodeBlock

end Destiny
