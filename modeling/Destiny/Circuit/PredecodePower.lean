/-
  Destiny.Circuit.PredecodePower

  Area and power of a predecoder, and its runs.

  `CalculateArea` and `CalculatePower` go over the decoders in the same order
  (`Walk`).  The area counts the copies of each decoder, the power does not, and
  it reads the second stage without calculating it.  `Reached.built` carries
  what all methods keep through every sequence of calls.
-/

import Destiny.Circuit.PredecodeLatency

namespace Destiny

open Lib

namespace PredecodeBlock

variable {K : Type}

/-! ## What a walk over the decoders adds up -/

/-- What a decoder adds to the totals, where it is present. -/
def Walk.step (n : Nat) (add : Slot → K × K → K × K) (t : K × K) (s : Slot) : K × K :=
  if Predecode.allocated n s = true then add s t else t

/-- The decoders of `l` were visited, and no other was called. -/
structure Walk.Visited [Zero K] (n : Nat) (parts : Slot → Component K)
    (add : Slot → K × K → K × K) (post : Slot → Decoder K → Prop) (l : List Slot)
    (w w' : Walk K) : Prop where
  built : Built n parts w'.block
  totals : w'.totals = l.foldl (Walk.step n add) w.totals
  visited : ∀ s ∈ l, ∀ d, w'.block.decoders s = some d → post s d
  others : ∀ s, s ∉ l → w'.block.decoders s = w.block.decoders s

section
variable [Zero K] {n : Nat} {parts : Slot → Component K} {add : Slot → K × K → K × K}
  {post : Slot → Decoder K → Prop} {l m : List Slot} {w w' w'' : Walk K}

theorem Walk.Visited.trans (h : w.Visited n parts add post l w')
    (h' : w'.Visited n parts add post m w'') (hlm : ∀ s ∈ l, s ∉ m) :
    w.Visited n parts add post (l ++ m) w'' where
  built := h'.built
  totals := by rw [h'.totals, h.totals, List.foldl_append]
  visited s hs d hd := by
    rcases List.mem_append.mp hs with hl | hm
    · rw [h'.others s (hlm s hl)] at hd
      exact h.visited s hl d hd
    · exact h'.visited s hm d hd
  others s hs := by
    rw [List.mem_append, not_or] at hs
    rw [h'.others s hs.2, h.others s hs.1]

/-- Nothing happens to decoders that are not there. -/
theorem Walk.Visited.skip (hw : Built n parts w.block)
    (hl : ∀ s ∈ l, Predecode.allocated n s = false) : w.Visited n parts add post l w where
  built := hw
  totals := by
    induction l with
    | nil => rfl
    | cons s l ih =>
        rw [List.foldl_cons, Walk.step, hl s List.mem_cons_self]
        exact ih fun t ht => hl t (List.mem_cons_of_mem s ht)
  visited s hs d hd := by
    rw [hw.eq_none (hl s hs)] at hd
    cases hd
  others _ _ := rfl

theorem Walk.when_ends (hw : Built n parts w.block) {s : Slot}
    {visit : Walk K → Except NullPointer (Walk K)}
    (hvisit : Predecode.allocated n s = true →
      Ends (w.Visited n parts add post l) (fun _ : NullPointer => False) (visit w))
    (hskip : Predecode.allocated n s = false → ∀ t ∈ l, Predecode.allocated n t = false) :
    Ends (w.Visited n parts add post l) (fun _ : NullPointer => False) (w.when s visit) := by
  unfold Walk.when
  cases hs : Predecode.allocated n s with
  | false =>
      rw [hw.eq_none hs]
      exact Walk.Visited.skip hw (hskip hs)
  | true =>
      obtain ⟨d, hd, -⟩ := hw.exists_of_allocated hs
      rw [hd]
      exact hvisit hs

/-- The visit of one decoder. -/
theorem Walk.visit_ends (hw : Built n parts w.block) {s : Slot}
    (hs : Predecode.allocated n s = true) {method : Decoder K → Decoder K}
    {addFields : Decoder K → K × K → K × K} (hmethod : Harmless s method)
    (hadd : ∀ d, d.component = parts s →
      (s = .rowDecoderStage2 → d.leakage = 0 ∧ d.readDynamicEnergy = 0) →
      post s (method d) ∧ ∀ t, addFields (method d) t = add s t) :
    Ends (w.Visited n parts add post [s]) (fun _ : NullPointer => False)
      (Walk.visit method addFields s w) := by
  refine (hw.call_ends hs hmethod).bind ?_
  rintro ⟨d', b⟩ ⟨d, hcomponent, rfl, hpower, hbuilt, hself, hother⟩
  obtain ⟨hpost, hfields⟩ := hadd d hcomponent hpower
  refine ⟨hbuilt, ?_, ?_, fun t ht => hother t (List.ne_of_not_mem_cons ht)⟩
  · rw [List.foldl_cons, List.foldl_nil, Walk.step, if_pos hs]
    exact hfields _
  · intro t ht d₁ hd₁
    obtain rfl := List.mem_singleton.mp ht
    obtain rfl := Option.some.inj (hself.symm.trans hd₁)
    exact hpost

section
variable {visit : Slot → Walk K → Except NullPointer (Walk K)}
  (hvisit : ∀ s w, Predecode.allocated n s = true → Built n parts w.block →
    Ends (w.Visited n parts add post [s]) (fun _ : NullPointer => False) (visit s w))
include hvisit

theorem Walk.when_visit_ends (hw : Built n parts w.block) (s : Slot) :
    Ends (w.Visited n parts add post [s]) (fun _ : NullPointer => False)
      (w.when s (visit s)) :=
  Walk.when_ends hw (fun hs => hvisit s w hs hw) fun hs t ht => by
    rwa [List.mem_singleton.mp ht]

theorem Walk.basicDecoders_ends (hn : n ≠ 0) (hw : Built n parts w.block) :
    Ends (w.Visited n parts add post
        [.basicDecoderA1, .basicDecoderA2, .basicDecoderB, .basicDecoderC])
      (fun _ : NullPointer => False) (Walk.basicDecoders visit w) := by
  refine Walk.when_ends hw (fun ha => ?_) fun ha => absurd ha (by simp [Predecode.allocated, hn])
  refine (hvisit .basicDecoderA1 w ha hw).bind fun w₁ h₁ => ?_
  refine (Walk.when_visit_ends hvisit h₁.built .basicDecoderA2).bind fun w₂ h₂ => ?_
  have hrest : Ends (w₂.Visited n parts add post [.basicDecoderB, .basicDecoderC])
      (fun _ : NullPointer => False)
      (w₂.when .basicDecoderB fun w => do
        let w ← visit .basicDecoderB w
        w.when .basicDecoderC (visit .basicDecoderC)) := by
    refine Walk.when_ends h₂.built (fun hb => ?_) fun hb t ht => ?_
    · refine (hvisit .basicDecoderB w₂ hb h₂.built).bind fun w₃ h₃ => ?_
      exact (Walk.when_visit_ends hvisit h₃.built .basicDecoderC).mono
        (fun w₄ h₄ => h₃.trans h₄ (by decide)) fun _ h => h
    · rcases List.mem_cons.mp ht with rfl | ht
      · exact hb
      · obtain rfl := List.mem_singleton.mp ht
        exact Predecode.stage1C_not_allocated hb
  exact hrest.mono (fun w₃ h₃ => (h₁.trans h₂ (by decide)).trans h₃ (by decide)) fun _ h => h

theorem Walk.rowDecoders_ends (hw : Built n parts w.block) :
    Ends (w.Visited n parts add post
        [.rowDecoderStage1A, .rowDecoderStage1B, .rowDecoderStage1C, .rowDecoderStage2])
      (fun _ : NullPointer => False) (Walk.rowDecoders visit w) := by
  refine Walk.when_ends hw (fun ha => ?_) fun ha t ht => ?_
  · refine (hvisit .rowDecoderStage1A w ha hw).bind fun w₁ h₁ => ?_
    have hrest : Ends (w₁.Visited n parts add post [.rowDecoderStage1B, .rowDecoderStage1C])
        (fun _ : NullPointer => False)
        (w₁.when .rowDecoderStage1B fun w => do
          let w ← visit .rowDecoderStage1B w
          w.when .rowDecoderStage1C (visit .rowDecoderStage1C)) := by
      refine Walk.when_ends h₁.built (fun hb => ?_) fun hb t ht => ?_
      · refine (hvisit .rowDecoderStage1B w₁ hb h₁.built).bind fun w₂ h₂ => ?_
        exact (Walk.when_visit_ends hvisit h₂.built .rowDecoderStage1C).mono
          (fun w₃ h₃ => h₂.trans h₃ (by decide)) fun _ h => h
      · rcases List.mem_cons.mp ht with rfl | ht
        · exact hb
        · obtain rfl := List.mem_singleton.mp ht
          exact Predecode.stage1C_not_allocated hb
    refine hrest.bind fun w₂ h₂ => ?_
    exact (Walk.when_visit_ends hvisit h₂.built .rowDecoderStage2).mono
      (fun w₃ h₃ => (h₁.trans h₂ (by decide)).trans h₃ (by decide)) fun _ h => h
  · have hb := Predecode.stage1B_not_allocated ha
    simp only [List.mem_cons, List.not_mem_nil, or_false] at ht
    rcases ht with rfl | rfl | rfl | rfl
    · exact ha
    · exact hb
    · exact Predecode.stage1C_not_allocated hb
    · exact hb

end

end

/-! ### Area -/

/-- A quantity of a decoder that is present. -/
def present [Zero K] (n : Nat) (f : Slot → K) (s : Slot) : K :=
  if Predecode.allocated n s = true then f s else 0

section
variable [Field K] {n : Nat} {parts : Slot → Component K} {b : PredecodeBlock K}

/-- A total to which every visit adds is a sum. -/
theorem Walk.foldl_step (add : Slot → K × K → K × K) (total : K × K → K) {f : Slot → K} :
    ∀ (l : List Slot) (t : K × K), (∀ s ∈ l, ∀ t, total (add s t) = total t + f s) →
      total (l.foldl (Walk.step n add) t) = total t + (l.map (present n f)).sum
  | [], t, _ => (add_zero _).symm
  | s :: l, t, hadd => by
    have hstep : total (Walk.step n add t s) = total t + present n f s := by
      unfold Walk.step present
      split
      · exact hadd s List.mem_cons_self t
      · exact (add_zero _).symm
    rw [List.foldl_cons,
      Walk.foldl_step add total l _ fun u hu => hadd u (List.mem_cons_of_mem s hu), hstep,
      List.map_cons, List.sum_cons, add_assoc]

variable [LinearOrder K]

/-- A column of decoders. -/
def Walk.column (n : Nat) (parts : Slot → Component K) (s : Slot) (t : K × K) : K × K :=
  (max t.1 (parts s).width, t.2 + Predecode.multiplicity n s * (parts s).height)

/-- The row decoders: a column of the first stage, and the second stage beside it. -/
def Walk.rows (n : Nat) (parts : Slot → Component K) : Slot → K × K → K × K
  | .rowDecoderStage2, t =>
      (t.1 + (parts .rowDecoderStage2).width, max t.2 (parts .rowDecoderStage2).height)
  | s, t => Walk.column n parts s t

/-- The height of the copies of some decoders. -/
def heightOf (n : Nat) (parts : Slot → Component K) (l : List Slot) : K :=
  (l.map (present n fun s => Predecode.multiplicity n s * (parts s).height)).sum

theorem Built.columnArea_ends (hb : Built n parts b) {s : Slot} {w : Walk K}
    (hs : Predecode.allocated n s = true) (hw : Built n parts w.block) :
    Ends (w.Visited n parts (Walk.column n parts) (fun _ _ => True) [s])
      (fun _ : NullPointer => False) (b.columnArea s w) := by
  refine Walk.visit_ends hw hs ⟨fun _ => rfl, fun _ _ => ⟨rfl, rfl⟩⟩ fun d hd _ =>
    ⟨trivial, fun t => ?_⟩
  rw [Walk.column, ← hd, hb.multiplicity]
  rfl

theorem Built.rowArea_ends (hb : Built n parts b) {s : Slot} {w : Walk K}
    (hs : Predecode.allocated n s = true) (hw : Built n parts w.block) :
    Ends (w.Visited n parts (Walk.rows n parts) (fun _ _ => True) [s])
      (fun _ : NullPointer => False) (b.rowArea s w) := by
  have hcolumn := hb.columnArea_ends hs hw
  cases s with
  | rowDecoderStage2 =>
      unfold rowArea
      refine Walk.visit_ends hw hs ⟨fun _ => rfl, fun _ _ => ⟨rfl, rfl⟩⟩ fun d hd _ =>
        ⟨trivial, fun t => ?_⟩
      rw [Walk.rows, ← hd]
      rfl
  | _ => exact hcolumn.mono (fun _ h => ⟨h.built, h.totals, h.visited, h.others⟩) fun _ h => h

/-- The height of a block: its basic decoders in their copies, or its row decoders. -/
theorem Built.CalculateArea_ends (hb : Built n parts b) (hn : n ≠ 0) :
    Ends (fun b' => Built n parts b' ∧ ∃ rows : K,
        b'.height = max (heightOf n parts
          [.basicDecoderA1, .basicDecoderA2, .basicDecoderB, .basicDecoderC]) rows ∧
        rows =
          (let stage1 := heightOf n parts
            [.rowDecoderStage1A, .rowDecoderStage1B, .rowDecoderStage1C]
          if Predecode.allocated n .rowDecoderStage2 = true then
            max stage1 (parts .rowDecoderStage2).height
          else stage1))
      (fun _ : NullPointer => False) b.CalculateArea := by
  have hbits : b.numAddressBit ≠ 0 := by rwa [hb.numAddressBit]
  unfold CalculateArea
  rw [if_neg hbits]
  refine (Walk.basicDecoders_ends (fun s w => hb.columnArea_ends) hn hb).bind fun basic hbasic => ?_
  have hstart : Built n parts (Walk.block ⟨((0 : K), (0 : K)), basic.block⟩) := hbasic.built
  refine (Walk.rowDecoders_ends (fun s w => hb.rowArea_ends) hstart).bind fun rows hrow => ?_
  refine ⟨⟨hrow.built.numAddressBit, hrow.built.multiplicity, hrow.built.decoders⟩, rows.totals.2,
    ?_, ?_⟩
  · change max basic.totals.2 rows.totals.2 = _
    rw [hbasic.totals, Walk.foldl_step _ Prod.snd _ _ fun s _ t => rfl, zero_add]
    rfl
  · -- the heights of the first stages add up, and the second stage stands beside them
    have hstage1 := Walk.foldl_step (n := n) (Walk.rows n parts) Prod.snd
      (f := fun s => Predecode.multiplicity n s * (parts s).height)
      [.rowDecoderStage1A, .rowDecoderStage1B, .rowDecoderStage1C] (0, 0) (fun s hs t => by
        simp only [List.mem_cons, List.not_mem_nil, or_false] at hs
        rcases hs with rfl | rfl | rfl <;> rfl)
    rw [zero_add] at hstage1
    rw [hrow.totals]
    change (Walk.step n (Walk.rows n parts) (List.foldl (Walk.step n (Walk.rows n parts)) (0, 0)
      [.rowDecoderStage1A, .rowDecoderStage1B, .rowDecoderStage1C]) .rowDecoderStage2).2 = _
    unfold Walk.step
    split
    · exact congrArg (max · _) hstage1
    · exact hstage1

/-! ### Power -/

/-- The fields hold what `CalculatePower` of the decoder computes. -/
def Calculated (parts : Slot → Component K) (s : Slot) (d : Decoder K) : Prop :=
  d.leakage = (parts s).leakage ∧ d.readDynamicEnergy = (parts s).dynamicEnergy

/-- What the walk adds: each decoder once, and nothing for the second stage. -/
def Walk.power (parts : Slot → Component K) (s : Slot) (t : K × K) : K × K :=
  if s = .rowDecoderStage2 then t
  else (t.1 + (parts s).leakage, t.2 + (parts s).dynamicEnergy)

/-- After its visit a decoder holds its power; the second stage holds nothing. -/
def Walk.powered (parts : Slot → Component K) (s : Slot) (d : Decoder K) : Prop :=
  if s = .rowDecoderStage2 then d.leakage = 0 ∧ d.readDynamicEnergy = 0 else Calculated parts s d

omit [LinearOrder K] in
theorem Walk.rowPower_ends {s : Slot} {w : Walk K} (hs : Predecode.allocated n s = true)
    (hw : Built n parts w.block) :
    Ends (w.Visited n parts (Walk.power parts) (Walk.powered parts) [s])
      (fun _ : NullPointer => False) (rowPower s w) := by
  by_cases hstage : s = .rowDecoderStage2
  · subst hstage
    unfold rowPower
    refine Walk.visit_ends hw hs ⟨fun _ => rfl, fun _ _ => ⟨rfl, rfl⟩⟩ fun d _ hpower => ?_
    obtain ⟨hleakage, henergy⟩ := hpower rfl
    refine ⟨⟨hleakage, henergy⟩, fun t => ?_⟩
    change (t.1 + d.leakage, t.2 + d.readDynamicEnergy) = t
    rw [hleakage, henergy, add_zero, add_zero]
  · have hvisit : rowPower s w = Walk.visit Decoder.CalculatePower addPower s w := by
      cases s <;> first | rfl | exact absurd rfl hstage
    rw [hvisit]
    refine Walk.visit_ends hw hs ⟨fun _ => rfl, fun h => absurd h hstage⟩ fun d hd _ => ?_
    unfold Walk.powered Walk.power Calculated
    rw [if_neg hstage, ← hd]
    exact ⟨⟨rfl, rfl⟩, fun t => (if_neg hstage).symm⟩

/-- All decoders, in the order of the visits. -/
def Slot.all : List Slot :=
  [.basicDecoderA1, .basicDecoderA2, .basicDecoderB, .basicDecoderC, .rowDecoderStage1A,
    .rowDecoderStage1B, .rowDecoderStage1C, .rowDecoderStage2]

/-- The sum over the decoders that are present. -/
def sumPresent (n : Nat) (f : Slot → K) : K := (Slot.all.map (present n f)).sum

omit [LinearOrder K] in
/-- The power of a block: each decoder but the second stage, once. -/
theorem Built.CalculatePower_ends (hb : Built n parts b) (hn : n ≠ 0) :
    Ends (fun b' => Built n parts b' ∧
        b'.leakage = sumPresent n
          (fun s => if s = .rowDecoderStage2 then 0 else (parts s).leakage) ∧
        b'.readDynamicEnergy = sumPresent n
          (fun s => if s = .rowDecoderStage2 then 0 else (parts s).dynamicEnergy) ∧
        b'.writeDynamicEnergy = b'.readDynamicEnergy ∧
        ∀ s d, b'.decoders s = some d → Walk.powered parts s d)
      (fun _ : NullPointer => False) b.CalculatePower := by
  have hbits : b.numAddressBit ≠ 0 := by rwa [hb.numAddressBit]
  have hbasic : Ends
      ((Walk.mk (0, 0) b).Visited n parts (Walk.power parts) (Walk.powered parts)
        [.basicDecoderA1, .basicDecoderA2, .basicDecoderB, .basicDecoderC])
      (fun _ : NullPointer => False) (Walk.basicDecoders rowPower ⟨(0, 0), b⟩) :=
    Walk.basicDecoders_ends (fun s w => Walk.rowPower_ends) hn hb
  unfold CalculatePower
  rw [if_neg hbits]
  refine hbasic.bind fun basic h => ?_
  refine (Walk.rowDecoders_ends (fun s w => Walk.rowPower_ends) h.built).bind fun rows h' => ?_
  have hall := h.trans h' (by decide)
  -- a total that every step adds to is a sum over the decoders present
  have hsum : ∀ (total : K × K → K) (f : Slot → K), total (0, 0) = 0 →
      (∀ s t, total (Walk.power parts s t) = total t + f s) →
      total rows.totals = sumPresent n f := by
    intro total f hzero hadd
    rw [hall.totals]
    refine (Walk.foldl_step _ total _ _ fun s _ t => hadd s t).trans ?_
    rw [hzero, zero_add]
    rfl
  refine ⟨⟨h'.built.numAddressBit, h'.built.multiplicity, h'.built.decoders⟩,
    hsum Prod.fst _ rfl fun s t => ?_, hsum Prod.snd _ rfl fun s t => ?_, rfl,
    fun s d hd => hall.visited s (by cases s <;> decide) d hd⟩
  · unfold Walk.power
    split
    · exact (add_zero _).symm
    · rfl
  · unfold Walk.power
    split
    · exact (add_zero _).symm
    · rfl

/-! ## Runs -/

/-- What every state of a block keeps. -/
theorem Reached.built (h : Reached n parts b) : Built n parts b := by
  rcases eq_or_ne n 0 with rfl | hn
  · induction h with
    | Initialize h => exact Initialize_built h
    | CalculateArea _ h ih =>
        rw [PredecodeBlock.CalculateArea, if_pos ih.numAddressBit] at h
        obtain rfl := Except.ok.inj h
        exact ⟨ih.numAddressBit, ih.multiplicity, ih.decoders⟩
    | CalculateLatency _ _ h ih =>
        rw [PredecodeBlock.CalculateLatency, if_pos ih.numAddressBit] at h
        obtain rfl := Except.ok.inj h
        exact ⟨ih.numAddressBit, ih.multiplicity, ih.decoders⟩
    | CalculatePower _ h ih =>
        rw [PredecodeBlock.CalculatePower, if_pos ih.numAddressBit] at h
        obtain rfl := Except.ok.inj h
        exact ⟨ih.numAddressBit, ih.multiplicity, ih.decoders⟩
  · induction h with
    | Initialize h => exact Initialize_built h
    | CalculateArea _ h ih => exact ((ih.CalculateArea_ends hn).of_eq_ok h).1
    | CalculateLatency _ rampInput h ih =>
        exact ((ih.CalculateLatency_ends hn rampInput).of_eq_ok h).1
    | CalculatePower _ h ih => exact ((ih.CalculatePower_ends hn).of_eq_ok h).1

/-- A block gets the latency of its worst path just when a delay and a ramp are not negative
    and path A2 goes unnoticed under the latency of the other basic decoder. -/
theorem predecode_latency_worst_path_iff (hn : n ≠ 0) (hb : Reached n parts b) (rampInput : K) :
    Ends (fun b' =>
        LatencyIsWorst n parts rampInput b' ↔
          (∃ x ∈ delays parts rampInput (paths n), 0 ≤ x) ∧
            (∃ x ∈ ramps parts rampInput (paths n), 0 ≤ x) ∧
            PathA2Unnoticed n parts rampInput)
      (fun _ : NullPointer => False) (b.CalculateLatency rampInput) := by
  refine (hb.built.CalculateLatency_ends hn rampInput).mono ?_ fun _ h => h
  rintro b' ⟨-, hlatency, hramp⟩
  have hnonneg : 0 ≤ b'.readLatency := by
    rw [hlatency]
    exact (floor_le_worst _ _).trans (le_max_left _ _)
  have hdelays : IsGreatest {x | x ∈ delays parts rampInput (paths n)} b'.readLatency ↔
      PathA2Unnoticed n parts rampInput ∧ ∃ x ∈ delays parts rampInput (paths n), 0 ≤ x := by
    rw [isGreatest_iff_eq_worst hnonneg, ← worst_paths_iff, hlatency]
    rfl
  have hramps : IsGreatest {x | x ∈ ramps parts rampInput (paths n)} b'.rampOutput ↔
      ∃ x ∈ ramps parts rampInput (paths n), 0 ≤ x := by
    rw [hramp]
    exact isGreatest_worst_iff _
  constructor
  · rintro ⟨hgreatest, hgreatest'⟩
    obtain ⟨hunnoticed, hreach⟩ := hdelays.mp hgreatest
    exact ⟨hreach, hramps.mp hgreatest', hunnoticed⟩
  · rintro ⟨hreach, hreach', hunnoticed⟩
    exact ⟨hdelays.mpr ⟨hunnoticed, hreach⟩, hramps.mpr hreach'⟩

/-! ## The copies -/

/-- What the copies of the basic decoders beyond the first add up to. -/
def surplus (n : Nat) (f : Slot → K) : K :=
  ([Slot.basicDecoderA1, .basicDecoderA2, .basicDecoderB, .basicDecoderC].map
    (present n fun s => (Predecode.multiplicity n s - 1) * f s)).sum

omit [LinearOrder K] in
/-- Counting each decoder once leaves out the surplus copies and the second stage. -/
theorem sumPresent_multiplicity (n : Nat) (f : Slot → K) :
    sumPresent n (fun s => Predecode.multiplicity n s * f s) =
      sumPresent n (fun s => if s = .rowDecoderStage2 then 0 else f s) + surplus n f +
        present n f .rowDecoderStage2 := by
  -- a decoder counted once leaves its surplus copies
  have hbasic : ∀ s, s ≠ .rowDecoderStage2 →
      present n (fun s => Predecode.multiplicity n s * f s) s =
        present n (fun s => if s = .rowDecoderStage2 then 0 else f s) s +
          present n (fun s => (Predecode.multiplicity n s - 1) * f s) s := by
    intro s hs
    unfold present
    split
    · dsimp only
      rw [if_neg hs]
      ring
    · exact (add_zero _).symm
  -- the row stages have no copies
  have hrow : ∀ s, Predecode.multiplicity n s = 1 →
      present n (fun s => (Predecode.multiplicity n s - 1) * f s) s = 0 := by
    intro s hs
    unfold present
    dsimp only
    rw [hs, Nat.cast_one, sub_self, zero_mul, ite_self]
  have hlast : present n (fun s => Predecode.multiplicity n s * f s) .rowDecoderStage2 =
      present n f .rowDecoderStage2 := by
    have hone : Predecode.multiplicity n .rowDecoderStage2 = 1 := rfl
    unfold present
    dsimp only
    rw [hone, Nat.cast_one, one_mul]
  have hnone : present n (fun s => if s = .rowDecoderStage2 then 0 else f s)
      .rowDecoderStage2 = 0 := by
    unfold present
    dsimp only
    rw [if_pos rfl, ite_self]
  unfold sumPresent surplus Slot.all
  simp only [List.map_cons, List.map_nil, List.sum_cons, List.sum_nil]
  rw [hbasic .basicDecoderA1 (by decide), hbasic .basicDecoderA2 (by decide),
    hbasic .basicDecoderB (by decide), hbasic .basicDecoderC (by decide),
    hbasic .rowDecoderStage1A (by decide), hbasic .rowDecoderStage1B (by decide),
    hbasic .rowDecoderStage1C (by decide), hrow .rowDecoderStage1A rfl,
    hrow .rowDecoderStage1B rfl, hrow .rowDecoderStage1C rfl, hlast, hnone]
  ring

/-- The power of a block counts what its area counts. -/
structure PowerCounted (n : Nat) (parts : Slot → Component K) (b : PredecodeBlock K) : Prop where
  leakage : b.leakage =
    sumPresent n fun s => Predecode.multiplicity n s * (parts s).leakage
  readDynamicEnergy : b.readDynamicEnergy =
    sumPresent n fun s => Predecode.multiplicity n s * (parts s).dynamicEnergy
  writeDynamicEnergy : b.writeDynamicEnergy =
    sumPresent n fun s => Predecode.multiplicity n s * (parts s).dynamicEnergy
  /-- the fields that were added are those `CalculatePower` computes -/
  calculated : ∀ s d, b.decoders s = some d → Calculated parts s d

/-- It does so just when the surplus copies and the second stage have no power. -/
theorem predecode_power_counted_iff (hn : n ≠ 0) (hb : Reached n parts b) :
    Ends (fun b' =>
        PowerCounted n parts b' ↔
          (Predecode.allocated n .rowDecoderStage2 = true →
              (parts .rowDecoderStage2).leakage = 0 ∧
                (parts .rowDecoderStage2).dynamicEnergy = 0) ∧
            surplus n (fun s => (parts s).leakage) = 0 ∧
            surplus n (fun s => (parts s).dynamicEnergy) = 0)
      (fun _ : NullPointer => False) b.CalculatePower := by
  refine (hb.built.CalculatePower_ends hn).mono ?_ fun _ h => h
  rintro b' ⟨hbuilt, hleakage, henergy, hwrite, hpowered⟩
  -- the second stage keeps its old power, so it counts just when there is none
  have hcalculated : (∀ s d, b'.decoders s = some d → Calculated parts s d) ↔
      (Predecode.allocated n .rowDecoderStage2 = true →
        (parts .rowDecoderStage2).leakage = 0 ∧ (parts .rowDecoderStage2).dynamicEnergy = 0) := by
    constructor
    · intro h hs
      obtain ⟨d, hd, -⟩ := hbuilt.exists_of_allocated hs
      obtain ⟨hl, he⟩ := hpowered _ d hd
      obtain ⟨hl', he'⟩ := h _ d hd
      exact ⟨hl'.symm.trans hl, he'.symm.trans he⟩
    · intro h s d hd
      have hpower := hpowered s d hd
      unfold Walk.powered at hpower
      split at hpower
      · next hs =>
        subst hs
        have hs : Predecode.allocated n .rowDecoderStage2 = true := by
          have hkept := hbuilt.decoders .rowDecoderStage2
          rw [hd] at hkept
          exact hkept.1
        exact ⟨hpower.1.trans (h hs).1.symm, hpower.2.trans (h hs).2.symm⟩
      · exact hpower
  -- with that stage out of the way, what is missing are the surplus copies
  have hsurplus : ∀ f : Slot → K, (Predecode.allocated n .rowDecoderStage2 = true →
      f .rowDecoderStage2 = 0) →
      (sumPresent n (fun s => if s = .rowDecoderStage2 then 0 else f s) =
          sumPresent n (fun s => Predecode.multiplicity n s * f s) ↔ surplus n f = 0) := by
    intro f hf
    have hlast : present n f .rowDecoderStage2 = 0 := by
      unfold present
      split
      · next hs => exact hf hs
      · rfl
    rw [sumPresent_multiplicity, hlast, add_zero, left_eq_add]
  constructor
  · rintro ⟨hl, he, -, hc⟩
    have hstage := hcalculated.mp hc
    refine ⟨hstage, ?_, ?_⟩
    · exact (hsurplus _ fun hs => (hstage hs).1).mp (hleakage.symm.trans hl)
    · exact (hsurplus _ fun hs => (hstage hs).2).mp (henergy.symm.trans he)
  · rintro ⟨hstage, hl, he⟩
    have hread := henergy.trans ((hsurplus _ fun hs => (hstage hs).2).mpr he)
    exact ⟨hleakage.trans ((hsurplus _ fun hs => (hstage hs).1).mpr hl), hread,
      hwrite.trans hread, hcalculated.mpr hstage⟩

end

/-! ## Two predecoders -/

/-- A 3 to 8 decoder that is slower than the 2 to 4 decoder beside it. -/
def unevenParts (s : Slot) : Component ℚ where
  latency _ := if s = .basicDecoderA2 then 3 else 1
  ramp _ := 1
  leakage := 1
  dynamicEnergy := 1
  height := 1
  width := 1

/-- Five address bits, a 2 to 4 and a 3 to 8 decoder, and now the first is slow. -/
theorem predecode_latency_worst_path_iff_five :
    let parts := fun s => { unevenParts s with latency := fun _ : ℚ =>
      if s = .basicDecoderA1 then 3 else 1 }
    ∃ b b', Initialize 5 parts = some b ∧ b.CalculateLatency 1 = .ok b' ∧
      LatencyIsWorst 5 parts 1 b' := by
  intro parts
  refine ⟨_, _, rfl, rfl, ?_⟩
  exact (@predecode_latency_worst_path_iff ℚ _ 5 parts _ _ (by decide) (.Initialize rfl) 1).mpr
    ⟨by decide +kernel, by decide +kernel, by decide +kernel⟩

/-- The worst path takes 4, and the block reports 2. -/
theorem predecode_latency_misses_path :
    ∃ b b', Initialize 5 unevenParts = some b ∧ b.CalculateLatency 1 = .ok b' ∧
      b'.readLatency = 2 ∧ 4 ∈ delays unevenParts 1 (paths 5) ∧
      ¬ LatencyIsWorst 5 unevenParts 1 b' := by
  have hpath : (4 : ℚ) ∈ delays unevenParts 1 (paths 5) := by decide +kernel
  refine ⟨_, _, rfl, rfl, by decide +kernel, hpath, ?_⟩
  intro h
  have hle := h.readLatency.2 hpath
  revert hle
  decide +kernel

/-- Five address bits have one stage without copies. -/
theorem predecode_power_counted_iff_five :
    ∃ b b', Initialize 5 unevenParts = some b ∧ b.CalculatePower = .ok b' ∧
      PowerCounted 5 unevenParts b' := by
  refine ⟨_, _, rfl, rfl, ?_⟩
  exact (@predecode_power_counted_iff ℚ _ 5 unevenParts _ _ (by decide) (.Initialize rfl)).mpr
    ⟨by decide +kernel, by decide +kernel, by decide +kernel⟩

/-- Ten address bits have two 2 to 4 and two 3 to 8 decoders, and two stages: the
    area counts seven decoders, and the power four. -/
theorem predecode_power_misses_copies :
    ∃ b b', Initialize 10 unevenParts = some b ∧ b.CalculatePower = .ok b' ∧
      b'.leakage = 4 ∧
      sumPresent 10 (fun s => Predecode.multiplicity 10 s * (unevenParts s).leakage) = 7 ∧
      ¬ PowerCounted 10 unevenParts b' := by
  have hsum : sumPresent 10 (fun s => Predecode.multiplicity 10 s * (unevenParts s).leakage) =
      7 := by
    decide +kernel
  refine ⟨_, _, rfl, rfl, by decide +kernel, hsum, fun h => ?_⟩
  have hseven := h.leakage.trans hsum
  revert hseven
  decide +kernel

end PredecodeBlock

end Destiny
