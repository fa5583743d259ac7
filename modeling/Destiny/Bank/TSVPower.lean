/-
  Destiny.Bank.TSVPower

  `TSV`: what a through-silicon via costs, with or without a chain of buffers.

  `_CalculateLatencyAndPower` is called for the reads and for the writes, with
  references to the fields it is to set.  The latency is assigned; the energy is
  assigned where there are buffers and accumulated where there are none, so that
  there the fields keep what earlier calls have left in them.
-/

import Destiny.Bank.Stacking
import Destiny.Lib.TracedArray

namespace Destiny

open Lib

variable {K : Type}

/-! ## Models of the gates -/

inductive MosType
  | NMOS | PMOS
  deriving DecidableEq, Repr

/-- The technology of the stack and the gate models of formula.cpp. -/
structure TSVTech (K : Type) where
  vdd : K
  featureSize : K
  pnSizeRatio : K
  capTSV : TSV_type → K
  resTSV : TSV_type → K
  areaTSV : TSV_type → K
  /-- of a width, at the temperature of the run -/
  CalculateOnResistance : MosType → K → K
  CalculateDrainCap : MosType → K → K
  CalculateGateCap : K → K
  /-- input and output capacitance of an inverter -/
  CalculateGateCapacitance : K → K → K × K
  /-- delay and output ramp -/
  horowitz : K → K → K → K × K
  pow : K → K → K
  /-- `(int)(log(F) / log(fopt))` -/
  truncLog : K → ℤ

/-- The members of a `TSV` that `Initialize` sets. -/
structure TSVDriver (K : Type) where
  res : K
  cap : K
  C_load_TSV : K
  min_area : K
  F : K
  num_gates : ℤ
  w_TSV_n : TracedArray K
  w_TSV_p : TracedArray K
  initialized : Bool
  invalid : Bool

def MAX_NUMBER_GATES_STAGE : ℤ := 20

variable [Field K]

/-! ## Initialize -/

section
variable [LinearOrder K]

namespace TSVTech
variable (tech : TSVTech K)

/-- `MIN_NMOS_SIZE * featureSize` -/
def minWidth : K := 1.5 * tech.featureSize

/-- `MAX_NMOS_SIZE * featureSize` -/
def maxWidth : K := 100 * tech.featureSize

end TSVTech

/-- One more gate if their number is odd, and no less than the least. -/
def evenGates (num_gates_min num_gates : ℤ) : ℤ :=
  max (num_gates + if num_gates % 2 ≠ 0 then 1 else 0) num_gates_min

/-- The widths of a gate. -/
def TSVDriver.setGate (tech : TSVTech K) (t : TSVDriver K) (i : ℤ) (w_n : K) : TSVDriver K :=
  { t with
    w_TSV_n := t.w_TSV_n.set i w_n
    w_TSV_p := t.w_TSV_p.set i (tech.pnSizeRatio * w_n) }

/-- `FunctionUnit::logical_effort` up to the last gate, with the number of gates and
    the fanout of a stage. -/
def TSVDriver.sizeLastGate (tech : TSVTech K) (t : TSVDriver K) (num_gates_min : ℤ) (g : K) :
    TSVDriver K × ℤ × K :=
  let num_gates := evenGates num_gates_min (tech.truncLog t.F)
  let f := tech.pow t.F (1 / num_gates)
  let w_n := max (1 / (1 + tech.pnSizeRatio) * (t.C_load_TSV / f) / tech.CalculateGateCap 1)
    tech.minWidth
  let t := t.setGate tech (num_gates - 1) w_n
  if tech.maxWidth < w_n then
    let C_ld := tech.CalculateGateCap ((1 + tech.pnSizeRatio) * tech.maxWidth)
    let F := g * C_ld / tech.CalculateGateCap (t.w_TSV_n.get 0 + t.w_TSV_p.get 0)
    let num_gates := evenGates num_gates_min (tech.truncLog F + 1)
    (t.setGate tech (num_gates - 1) tech.maxWidth, num_gates, tech.pow F (1 / (num_gates - 1)))
  else (t, num_gates, f)

/-- `FunctionUnit::logical_effort` with a logic effort `g`, on the gates of a TSV. -/
def TSVDriver.logical_effort (tech : TSVTech K) (t : TSVDriver K) (num_gates_min : ℤ) (g : K) :
    TSVDriver K :=
  let (t, num_gates, f) := t.sizeLastGate tech num_gates_min g
  let t := countDown (fun k t => t.setGate tech (k + 1)
    (max (t.w_TSV_n.get (k + 1 + 1) / f) tech.minWidth)) (num_gates - 2).toNat t
  { t with num_gates }

/-- `TSV::Initialize`; an assertion stops it with more gates than there are
    elements. -/
def TSVDriver.Initialize (tech : TSVTech K) (t : TSVDriver K) (tsv_type : TSV_type)
    (buffered : Bool) : Option (TSVDriver K) :=
  let t := { t with
    num_gates := 1
    cap := tech.capTSV tsv_type
    res := tech.resTSV tsv_type
    min_area := tech.areaTSV tsv_type / 10 ^ 12 }
  if buffered then
    let first_buf_stg_coef := 5
    let min_w_pmos := tech.pnSizeRatio * tech.minWidth
    let w_n := 1.5 * first_buf_stg_coef * tech.featureSize
    let C_load_TSV := t.cap + tech.CalculateGateCap (tech.minWidth + min_w_pmos)
    let t := { t with
      w_TSV_n := t.w_TSV_n.set 0 w_n
      w_TSV_p := t.w_TSV_p.set 0 (w_n * tech.pnSizeRatio)
      C_load_TSV
      F := C_load_TSV / tech.CalculateGateCap (w_n + w_n * tech.pnSizeRatio) }
    let t := t.logical_effort tech 1 1
    if t.num_gates ≤ MAX_NUMBER_GATES_STAGE then some { t with initialized := true } else none
  else some { t with num_gates := 0, initialized := true }

theorem TSVDriver.le_num_gates (tech : TSVTech K) (t : TSVDriver K) (num_gates_min : ℤ) (g : K) :
    num_gates_min ≤ (t.logical_effort tech num_gates_min g).num_gates := by
  have heven (n : ℤ) : num_gates_min ≤ evenGates num_gates_min n := le_max_right _ _
  show num_gates_min ≤ (t.sizeLastGate tech num_gates_min g).2.1
  unfold sizeLastGate
  dsimp only
  split
  · exact heven _
  · exact heven _

/-- A buffered TSV has a gate at least, and one without buffers has none. -/
theorem TSVDriver.initialize_num_gates_pos_iff {tech : TSVTech K} {t t' : TSVDriver K}
    {tsv_type : TSV_type} {buffered : Bool} (h : t.Initialize tech tsv_type buffered = some t') :
    0 < t'.num_gates ↔ buffered = true := by
  unfold Initialize at h
  dsimp only at h
  cases buffered with
  | false =>
      rw [if_neg Bool.false_ne_true] at h
      obtain rfl := Option.some.inj h
      exact iff_of_false (lt_irrefl 0) Bool.false_ne_true
  | true =>
      rw [if_pos rfl] at h
      split_ifs at h
      obtain rfl := Option.some.inj h
      exact iff_of_true (le_num_gates tech _ 1 1) rfl

end

/-! ## Latency and power -/

/-- The chain while the delay of its inverters is summed up. -/
structure ChainState (K : Type) where
  delay : K
  rampOutput : K
  dynamicEnergy : K

namespace TSVDriver
variable (tech : TSVTech K) (t : TSVDriver K)

/-- `c_load` of an inverter that drives the next one. -/
def gateLoad (i : ℤ) : K :=
  let caps := tech.CalculateGateCapacitance (t.w_TSV_n.get (i + 1)) (t.w_TSV_p.get (i + 1))
  caps.1 + caps.2

def c_intrinsic (i : ℤ) : K :=
  tech.CalculateDrainCap .PMOS (t.w_TSV_p.get i) + tech.CalculateDrainCap .NMOS (t.w_TSV_n.get i)

/-- Carried over from CACTI3DD. -/
def beta : K := 0.5

/-- An inverter of the chain with a load and the delay of what it drives. -/
def inverter (i : ℤ) (c_load wireDelay rampInput : K) : K × K :=
  let rd := tech.CalculateOnResistance .NMOS (t.w_TSV_n.get i)
  tech.horowitz (rd * (t.c_intrinsic tech i + c_load) + wireDelay) beta rampInput

def switchEnergy (i : ℤ) (c_load : K) : K :=
  (c_load + t.c_intrinsic tech i) * tech.vdd * tech.vdd

/-- The first inverter; the energy is assigned. -/
def firstStage (rampInput : K) : ChainState K :=
  let out := t.inverter tech 0 (t.gateLoad tech 0) 0 rampInput
  { delay := 0 + out.1
    rampOutput := out.2
    dynamicEnergy := t.switchEnergy tech 0 (t.gateLoad tech 0) }

/-- A later inverter. -/
def nextStage (i : ℤ) (c_load wireDelay : K) (s : ChainState K) : ChainState K :=
  let out := t.inverter tech i c_load wireDelay s.rampOutput
  { delay := s.delay + out.1
    rampOutput := out.2
    dynamicEnergy := s.dynamicEnergy + t.switchEnergy tech i c_load }

/-- `_CalculateLatencyAndPower`: the energy and the latency its references are left
    with. -/
def calculate (_rampInput _dynamicEnergy _latency : K) : K × K :=
  if 0 < t.num_gates then
    let s := t.firstStage tech _rampInput
    -- `for (i = 1; i < num_gates - 1; ++i)`
    let s := (List.range (t.num_gates - 2).toNat).foldl
      (fun s (k : ℕ) => t.nextStage tech (k + 1) (t.gateLoad tech (k + 1)) 0 s) s
    -- the final inverter drives the TSV
    let s := t.nextStage tech (t.num_gates - 1) t.C_load_TSV (t.res * t.C_load_TSV / 2) s
    (s.dynamicEnergy, s.delay)
  else
    let out := tech.horowitz (t.res * t.cap / 2) beta _rampInput
    (_dynamicEnergy + t.cap * tech.vdd * tech.vdd, 0 + out.1)

variable {tech t}

/-- The energy and the latency of a chain are assigned. -/
theorem calculate_of_buffered (h : 0 < t.num_gates) (r e l e' l' : K) :
    t.calculate tech r e l = t.calculate tech r e' l' := by
  rw [calculate, calculate, if_pos h, if_pos h]

/-- Without buffers the latency is, and the energy is accumulated. -/
theorem calculate_of_unbuffered (h : ¬ 0 < t.num_gates) (r e l : K) :
    t.calculate tech r e l = (e + t.cap * tech.vdd * tech.vdd,
      0 + (tech.horowitz (t.res * t.cap / 2) beta r).1) := by
  rw [calculate, if_neg h]

end TSVDriver

/-! ## Evaluations -/

/-- The energies and latencies of reads and of writes are set, and no others. -/
def TSV.assign (read write : K × K) (t : TSV K) : TSV K :=
  { t with
    dynamicEnergy := fun
      | .read => read.1
      | .write | .reset | .set => write.1
      | .refresh => t.dynamicEnergy .refresh
    latency := fun
      | .read => read.2
      | .write | .reset | .set => write.2
      | .refresh => t.latency .refresh }

omit [Field K] in
theorem TSV.calculateLatencyAndPower_eq (calculate : K → K → K → K × K) (r w : K) (t : TSV K) :
    t.CalculateLatencyAndPower calculate r w =
      t.assign (calculate r (t.dynamicEnergy .read) (t.latency .read))
        (calculate w (t.dynamicEnergy .write) (t.latency .write)) := rfl

/-- A `TSV` with its metrics. -/
structure TSVArray (K : Type) where
  tsv : TSV K
  driver : TSVDriver K

namespace TSVArray
variable [DecidableEq K] (tech : TSVTech K) (rampInputRead rampInputWrite : K)

/-- `TSV::CalculateLatencyAndPower`; an assertion stops it on a ramp of zero. -/
def CalculateLatencyAndPower (a : TSVArray K) : Option (TSVArray K) :=
  if rampInputRead ≠ 0 ∧ rampInputWrite ≠ 0 then
    some { a with
      tsv := a.tsv.CalculateLatencyAndPower (a.driver.calculate tech) rampInputRead
        rampInputWrite }
  else none

/-- The same TSV with other metrics. -/
def withMetrics (old : FunctionUnit K) (a : TSVArray K) : TSVArray K where
  tsv := { old with area := a.tsv.area }
  driver := a.driver

/-- `n` evaluations, one after the other. -/
def evaluations : ℕ → TSVArray K → Option (TSVArray K)
  | 0, a => some a
  | n + 1, a =>
      (evaluations n a).bind (CalculateLatencyAndPower tech rampInputRead rampInputWrite)

/-- What the metrics held before is not reported: not after several evaluations, and
    not after one with other metrics to start from. -/
structure Idempotent (a : TSVArray K) : Prop where
  again (n : ℕ) : evaluations tech rampInputRead rampInputWrite (n + 1) a =
    a.CalculateLatencyAndPower tech rampInputRead rampInputWrite
  fresh (old : FunctionUnit K) (a' b' : TSVArray K)
    (ha : a.CalculateLatencyAndPower tech rampInputRead rampInputWrite = some a')
    (hb : (a.withMetrics old).CalculateLatencyAndPower tech rampInputRead rampInputWrite = some b')
    (op : Operation) (hop : op ≠ .refresh) :
    b'.tsv.latency op = a'.tsv.latency op ∧ b'.tsv.dynamicEnergy op = a'.tsv.dynamicEnergy op

/-! ## Buffers -/

variable {tech rampInputRead rampInputWrite} {a a' : TSVArray K}

theorem evaluated (h : a.CalculateLatencyAndPower tech rampInputRead rampInputWrite = some a') :
    a' = { a with
      tsv := a.tsv.CalculateLatencyAndPower (a.driver.calculate tech) rampInputRead
        rampInputWrite } := by
  unfold CalculateLatencyAndPower at h
  split_ifs at h
  exact (Option.some.inj h).symm

/-- A ramp of zero stops every evaluation. -/
theorem idempotent_of_zero (h : rampInputRead = 0 ∨ rampInputWrite = 0) :
    Idempotent tech rampInputRead rampInputWrite a := by
  have hnone (b : TSVArray K) :
      b.CalculateLatencyAndPower tech rampInputRead rampInputWrite = none := by
    rw [CalculateLatencyAndPower, if_neg]
    rintro ⟨hread, hwrite⟩
    exact h.elim hread hwrite
  refine ⟨fun n => ?_, fun old a' b' ha => ?_⟩
  · induction n with
    | zero => rfl
    | succ n ih => rw [evaluations, ih, hnone, Option.bind_none]
  · rw [hnone] at ha
    cases ha

/-- With buffers an evaluation assigns the same metrics whatever was there. -/
theorem evaluate_of_buffered (h : 0 < a.driver.num_gates)
    (hramps : rampInputRead ≠ 0 ∧ rampInputWrite ≠ 0) :
    a.CalculateLatencyAndPower tech rampInputRead rampInputWrite =
      some { a with
        tsv := a.tsv.assign (a.driver.calculate tech rampInputRead 0 0)
          (a.driver.calculate tech rampInputWrite 0 0) } := by
  rw [CalculateLatencyAndPower, if_pos hramps, TSV.calculateLatencyAndPower_eq,
    TSVDriver.calculate_of_buffered h rampInputRead _ _ 0 0,
    TSVDriver.calculate_of_buffered h rampInputWrite _ _ 0 0]

theorem idempotent_of_buffered (h : 0 < a.driver.num_gates)
    (hramps : rampInputRead ≠ 0 ∧ rampInputWrite ≠ 0) :
    Idempotent tech rampInputRead rampInputWrite a := by
  refine ⟨fun n => ?_, fun old a' b' ha hb op hop => ?_⟩
  · -- the second evaluation of two assigns what the first did
    induction n with
    | zero => rfl
    | succ n ih =>
        rw [evaluations, ih, evaluate_of_buffered h hramps, Option.bind_some]
        exact evaluate_of_buffered h hramps
  · have hgates : 0 < (a.withMetrics old).driver.num_gates := h
    rw [evaluate_of_buffered h hramps] at ha
    rw [evaluate_of_buffered hgates hramps] at hb
    rw [← Option.some.inj ha, ← Option.some.inj hb]
    cases op with
    | read => exact ⟨rfl, rfl⟩
    | write => exact ⟨rfl, rfl⟩
    | reset => exact ⟨rfl, rfl⟩
    | set => exact ⟨rfl, rfl⟩
    | refresh => exact absurd rfl hop

/-- Nothing else stops an evaluation. -/
theorem exists_evaluations (tech : TSVTech K)
    (hramps : rampInputRead ≠ 0 ∧ rampInputWrite ≠ 0) (n : ℕ) (a : TSVArray K) :
    ∃ a', evaluations tech rampInputRead rampInputWrite n a = some a' := by
  induction n with
  | zero => exact ⟨a, rfl⟩
  | succ n ih =>
      obtain ⟨b, hb⟩ := ih
      rw [evaluations, hb]
      exact ⟨_, if_pos hramps⟩

/-- What an evaluation adds without buffers. -/
theorem evaluate_of_unbuffered (h : ¬ 0 < a.driver.num_gates)
    (ha : a.CalculateLatencyAndPower tech rampInputRead rampInputWrite = some a') :
    a'.driver = a.driver ∧
      a'.tsv.dynamicEnergy .read =
        a.tsv.dynamicEnergy .read + a.driver.cap * tech.vdd * tech.vdd ∧
      a'.tsv.dynamicEnergy .write =
        a.tsv.dynamicEnergy .write + a.driver.cap * tech.vdd * tech.vdd := by
  rw [evaluated ha, TSV.calculateLatencyAndPower_eq, TSVDriver.calculate_of_unbuffered h,
    TSVDriver.calculate_of_unbuffered h]
  exact ⟨rfl, rfl, rfl⟩

/-- After `n` evaluations without buffers the energies are `n` times the one of a
    TSV above what they were. -/
theorem energy_after_evaluations (h : ¬ 0 < a.driver.num_gates) {n : ℕ}
    (ha : evaluations tech rampInputRead rampInputWrite n a = some a') :
    a'.driver = a.driver ∧
      a'.tsv.dynamicEnergy .read =
        a.tsv.dynamicEnergy .read + n * (a.driver.cap * tech.vdd * tech.vdd) ∧
      a'.tsv.dynamicEnergy .write =
        a.tsv.dynamicEnergy .write + n * (a.driver.cap * tech.vdd * tech.vdd) := by
  induction n generalizing a' with
  | zero =>
      obtain rfl := Option.some.inj ha
      refine ⟨rfl, ?_, ?_⟩
      · rw [Nat.cast_zero, zero_mul, add_zero]
      · rw [Nat.cast_zero, zero_mul, add_zero]
  | succ n ih =>
      obtain ⟨b, hb, hlast⟩ := Option.bind_eq_some_iff.mp ha
      obtain ⟨hdriver, hread, hwrite⟩ := ih hb
      have hgates : ¬ 0 < b.driver.num_gates := by rwa [hdriver]
      obtain ⟨hdriver', hread', hwrite'⟩ := evaluate_of_unbuffered hgates hlast
      rw [hdriver', hread', hwrite', hdriver, hread, hwrite]
      push_cast
      exact ⟨rfl, by ring, by ring⟩

theorem not_idempotent_of_unbuffered (h : ¬ 0 < a.driver.num_gates)
    (hramps : rampInputRead ≠ 0 ∧ rampInputWrite ≠ 0) :
    ¬ Idempotent tech rampInputRead rampInputWrite a := by
  intro hidem
  -- an energy that was larger by one is so afterwards
  let old : FunctionUnit K :=
    { a.tsv.toFunctionUnit with dynamicEnergy := fun op => a.tsv.dynamicEnergy op + 1 }
  have hsome (c : TSVArray K) : ∃ c',
      c.CalculateLatencyAndPower tech rampInputRead rampInputWrite = some c' :=
    ⟨_, if_pos hramps⟩
  obtain ⟨a', ha⟩ := hsome a
  obtain ⟨b', hb⟩ := hsome (a.withMetrics old)
  have henergy := (hidem.fresh old a' b' ha hb .read (by decide)).2
  have hgates : ¬ 0 < (a.withMetrics old).driver.num_gates := h
  rw [(evaluate_of_unbuffered h ha).2.1, (evaluate_of_unbuffered hgates hb).2.1] at henergy
  have hone : a.tsv.dynamicEnergy .read + 1 = a.tsv.dynamicEnergy .read := add_right_cancel henergy
  exact one_ne_zero (add_eq_left.mp hone)

/-- For a TSV as `Initialize` leaves it, that is whether it was asked for buffers. -/
theorem initialized_idempotent_iff [LinearOrder K] {t : TSVDriver K} {tsv_type : TSV_type}
    {buffered : Bool} (hinit : t.Initialize tech tsv_type buffered = some a.driver)
    (hramps : rampInputRead ≠ 0 ∧ rampInputWrite ≠ 0) :
    Idempotent tech rampInputRead rampInputWrite a ↔ buffered = true := by
  rw [← TSVDriver.initialize_num_gates_pos_iff hinit]
  constructor
  · intro h
    by_contra hgates
    exact not_idempotent_of_unbuffered hgates hramps h
  · intro h
    exact idempotent_of_buffered h hramps

/-- The writes of a stacked bank with its TSVs evaluated `n` times over. -/
theorem tsvOverhead_after_evaluations [LinearOrder K] [FloorRing K] (tsvRedundancy : K)
    (args : BankArgs) (h : ¬ 0 < a.driver.num_gates) {n : ℕ}
    (ha : evaluations tech rampInputRead rampInputWrite n a = some a') :
    (BankWithHtree.tsvOverhead tsvRedundancy a'.tsv args).dynamicEnergy .write =
      (BankWithHtree.tsvOverhead tsvRedundancy a.tsv args).dynamicEnergy .write +
        n * ((args.tsvBits tsvRedundancy).numAccessBits * (args.stackedDieCount - 1) *
          (a.driver.cap * tech.vdd * tech.vdd)) := by
  obtain ⟨-, -, hwrite⟩ := energy_after_evaluations h ha
  show _ * _ * a'.tsv.dynamicEnergy .write = _ * _ * a.tsv.dynamicEnergy .write + _
  rw [hwrite]
  ring

/-- Evaluating a TSV reports the same however often and from whatever metrics, if
    and only if it has buffers, or no evaluation gets past the assertion. -/
theorem idempotent_iff (tech : TSVTech K) (rampInputRead rampInputWrite : K) (a : TSVArray K) :
    Idempotent tech rampInputRead rampInputWrite a ↔
      0 < a.driver.num_gates ∨ rampInputRead = 0 ∨ rampInputWrite = 0 := by
  by_cases hzero : rampInputRead = 0 ∨ rampInputWrite = 0
  · exact iff_of_true (idempotent_of_zero hzero) (.inr hzero)
  rw [or_iff_left hzero]
  have hramps : rampInputRead ≠ 0 ∧ rampInputWrite ≠ 0 := not_or.mp hzero
  constructor
  · intro h
    by_contra hgates
    exact not_idempotent_of_unbuffered hgates hramps h
  · intro h
    exact idempotent_of_buffered h hramps

/-- Models of unit values. -/
def unitTSVTech : TSVTech ℚ where
  vdd := 1
  featureSize := 1
  pnSizeRatio := 1
  capTSV _ := 1
  resTSV _ := 1
  areaTSV _ := 1
  CalculateOnResistance _ w := 1 / w
  CalculateDrainCap _ w := w
  CalculateGateCap w := w
  CalculateGateCapacitance w_n w_p := (w_n, w_p)
  horowitz tr _ _ := (tr, 1)
  pow x _ := x
  truncLog _ := 0

/-- A TSV without buffers before the first evaluation. -/
def freshArray : TSVArray ℚ where
  tsv := freshTSV
  driver :=
    { res := 1, cap := 1, C_load_TSV := 0, min_area := 1 / 10 ^ 12, F := 0, num_gates := 0
      w_TSV_n := ⟨fun _ => 0, []⟩, w_TSV_p := ⟨fun _ => 0, []⟩
      initialized := true, invalid := true }

/-- The second evaluation, with the ramps a bank has, doubles the energy. -/
theorem second_evaluation_doubles :
    freshArray.driver.Initialize unitTSVTech .Fine false = some freshArray.driver ∧
      ((evaluations unitTSVTech (10 ^ 20) (infinite_ramp ℚ) 1 freshArray).map
        fun a => a.tsv.dynamicEnergy .read) = some 1 ∧
      ((evaluations unitTSVTech (10 ^ 20) (infinite_ramp ℚ) 2 freshArray).map
        fun a => a.tsv.dynamicEnergy .read) = some 2 ∧
      ¬ Idempotent unitTSVTech (10 ^ 20) (infinite_ramp ℚ) freshArray := by
  have hramps : (10 ^ 20 : ℚ) ≠ 0 ∧ infinite_ramp ℚ ≠ 0 := by norm_num [infinite_ramp]
  have hgates : ¬ 0 < freshArray.driver.num_gates := by decide
  have henergy (n : ℕ) : ((evaluations unitTSVTech (10 ^ 20) (infinite_ramp ℚ) n freshArray).map
      fun a => a.tsv.dynamicEnergy .read) = some (n : ℚ) := by
    obtain ⟨a', ha⟩ := exists_evaluations unitTSVTech hramps n freshArray
    have hread : a'.tsv.dynamicEnergy .read = 0 + n * (1 * 1 * 1) :=
      (energy_after_evaluations hgates ha).2.1
    rw [ha, Option.map_some, hread]
    simp
  exact ⟨rfl, henergy 1, henergy 2, not_idempotent_of_unbuffered hgates hramps⟩

end TSVArray

end Destiny
