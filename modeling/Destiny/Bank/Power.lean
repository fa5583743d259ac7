/-
  Destiny.Bank.Power

  `CalculateLatencyAndPower` of the two bank classes; what external sensing adds
  to a bank without H-tree is left open.

  Both classes add the metrics of the wires to those of the mats, take the mats
  off again for the routing breakdown, and charge a stacked bank for its TSVs.
  The H-tree goes through its levels, the other organisation through the rows of
  mats; `routing_adds_up_iff` says for each what the routing breakdown comes to.
-/

import Destiny.Bank.WireLength
import Mathlib.Algebra.BigOperators.Field

namespace Destiny

open Lib

/-! ## Metrics add up -/

namespace FunctionUnit

section
variable {K : Type} [Field K]

def neg (u : FunctionUnit K) : FunctionUnit K where
  latency op := -u.latency op
  dynamicEnergy op := -u.dynamicEnergy op
  leakage := -u.leakage

/-- `-`, metric by metric. -/
def sub (u v : FunctionUnit K) : FunctionUnit K where
  latency op := u.latency op - v.latency op
  dynamicEnergy op := u.dynamicEnergy op - v.dynamicEnergy op
  leakage := u.leakage - v.leakage

instance : Zero (FunctionUnit K) := ⟨zero⟩

instance : Add (FunctionUnit K) := ⟨add⟩

instance : Neg (FunctionUnit K) := ⟨neg⟩

instance : Sub (FunctionUnit K) := ⟨sub⟩

instance : AddCommGroup (FunctionUnit K) where
  nsmul := nsmulRec
  zsmul := zsmulRec
  add_assoc _ _ _ := FunctionUnit.ext (funext fun _ => add_assoc _ _ _)
    (funext fun _ => add_assoc _ _ _) (add_assoc _ _ _)
  zero_add _ := FunctionUnit.ext (funext fun _ => zero_add _) (funext fun _ => zero_add _)
    (zero_add _)
  add_zero _ := FunctionUnit.ext (funext fun _ => add_zero _) (funext fun _ => add_zero _)
    (add_zero _)
  add_comm _ _ := FunctionUnit.ext (funext fun _ => add_comm _ _) (funext fun _ => add_comm _ _)
    (add_comm _ _)
  neg_add_cancel _ := FunctionUnit.ext (funext fun _ => neg_add_cancel _)
    (funext fun _ => neg_add_cancel _) (neg_add_cancel _)
  sub_eq_add_neg _ _ := FunctionUnit.ext (funext fun _ => sub_eq_add_neg _ _)
    (funext fun _ => sub_eq_add_neg _ _) (sub_eq_add_neg _ _)

@[simp] theorem add_latency (u v : FunctionUnit K) (op : Operation) :
    (u + v).latency op = u.latency op + v.latency op := rfl

@[simp] theorem add_dynamicEnergy (u v : FunctionUnit K) (op : Operation) :
    (u + v).dynamicEnergy op = u.dynamicEnergy op + v.dynamicEnergy op := rfl

@[simp] theorem add_leakage (u v : FunctionUnit K) : (u + v).leakage = u.leakage + v.leakage := rfl

@[simp] theorem sub_leakage (u v : FunctionUnit K) : (u - v).leakage = u.leakage - v.leakage := rfl

@[simp] theorem sum_latency (f : Nat → FunctionUnit K) (n : Nat) (op : Operation) :
    (∑ i ∈ Finset.range n, f i).latency op = ∑ i ∈ Finset.range n, (f i).latency op := by
  induction n with
  | zero => rfl
  | succ n ih => rw [Finset.sum_range_succ, Finset.sum_range_succ, add_latency, ih]

@[simp] theorem sum_dynamicEnergy (f : Nat → FunctionUnit K) (n : Nat) (op : Operation) :
    (∑ i ∈ Finset.range n, f i).dynamicEnergy op =
      ∑ i ∈ Finset.range n, (f i).dynamicEnergy op := by
  induction n with
  | zero => rfl
  | succ n ih => rw [Finset.sum_range_succ, Finset.sum_range_succ, add_dynamicEnergy, ih]

@[simp] theorem sum_leakage (f : Nat → FunctionUnit K) (n : Nat) :
    (∑ i ∈ Finset.range n, f i).leakage = ∑ i ∈ Finset.range n, (f i).leakage := by
  induction n with
  | zero => rfl
  | succ n ih => rw [Finset.sum_range_succ, Finset.sum_range_succ, add_leakage, ih]

end

end FunctionUnit

/-! ## Mats and what the banks share -/

/-- What a bank reads of its mat after `CalculateLatency(infinite_ramp)` and
    `CalculatePower`. -/
structure MatMetrics (K : Type) extends FunctionUnit K, MatSize K where
  cellReadEnergy : K
  cellSetEnergy : K
  cellResetEnergy : K

/-- What the calculation of a bank uses besides its own fields. -/
structure BankParts (K : Type) where
  mat : MatMetrics K
  globalWire : GlobalWire K
  tsv : TSV K
  /-- `TSV::_CalculateLatencyAndPower` -/
  calculateTSV : K → K → K → K × K
  tsvRedundancy : K
  /-- of the cell -/
  retentionTime : K
  /-- what the bitlines, multiplexers, sense amplifiers and comparators outside of the mats
      add with external sensing -/
  externalSensing : Bank → FunctionUnit K

/-- The metrics of a bank with the share of its routing. -/
structure BankMetrics (K : Type) extends FunctionUnit K where
  cellReadEnergy : K
  cellSetEnergy : K
  cellResetEnergy : K
  routing : FunctionUnit K
  /-- the retention check failed -/
  invalid : Bool

/-- The mats of a bank: active ones in an access, all in a refresh. -/
def BankArgs.matTotal {K : Type} [Field K] (mat : FunctionUnit K) (a : BankArgs) :
    FunctionUnit K where
  latency
    -- TOTAL refresh time for all Mats
    | .refresh => mat.latency .refresh * a.numColumnMat
    | op => mat.latency op
  dynamicEnergy
    | .refresh => mat.dynamicEnergy .refresh * a.numRowMat * a.numColumnMat
    | op => mat.dynamicEnergy op * a.numActiveMatPerRow * a.numActiveMatPerColumn
  leakage := mat.leakage * a.numRowMat * a.numColumnMat

/-- What the routing breakdown takes off for the mats. -/
def BankArgs.matShare {K : Type} [Field K] (mat : FunctionUnit K) (a : BankArgs) :
    FunctionUnit K where
  latency op := mat.latency op
  dynamicEnergy op := mat.dynamicEnergy op * a.numActiveMatPerColumn * a.numActiveMatPerRow
  leakage := mat.leakage * a.numColumnMat * a.numRowMat

/-- Only `1 / beta` of the interconnect wires are activated by a fast cache write. -/
def Globals.beta (g : Globals) : Nat :=
  if g.designTarget = .cache ∧ g.cacheAccessMode = .fast_access_mode then g.associativity else 1

section
variable {K : Type} [Field K] [LinearOrder K]

/-- The end of both calculations: the routing breakdown, the stacking, and the retention
    check. -/
def BankArgs.finish (g : Globals) (parts : BankParts K) (tsvOverhead : FunctionUnit K)
    (a : BankArgs) (total : FunctionUnit K) : BankMetrics K :=
  let active : K := a.numActiveMatPerRow * a.numActiveMatPerColumn
  let stacked : FunctionUnit K :=
    -- each layer contains an exact copy of this bank
    if 1 < a.stackedDieCount then
      { total with leakage := total.leakage * a.stackedDieCount } + tsvOverhead
    else total
  { toFunctionUnit := stacked
    cellReadEnergy := parts.mat.cellReadEnergy * active
    cellSetEnergy := parts.mat.cellSetEnergy * active
    cellResetEnergy := parts.mat.cellResetEnergy * active
    routing := total - a.matShare parts.mat.toFunctionUnit
    invalid := g.memCellType = .eDRAM ∧ parts.retentionTime < stacked.latency .refresh }

/-! ## H-tree -/

/-- What a level adds; the wires are used in and out by a read, and only in otherwise. -/
def WireMetrics.level (wire : WireMetrics K) (beta : Nat) (w : WireLevel) : FunctionUnit K where
  latency
    | .read => wire.latency * 2
    | _ => wire.latency
  dynamicEnergy
    | .read => wire.energy * w.numActiveWire * w.bits
    | _ => wire.energy * w.numActiveWire * w.bits / beta
  leakage := wire.leakage * w.numSumWire * w.bits

/-- The loop over the levels of a direction. -/
def addLevels (wire : GlobalWire K) (beta : Nat) (levels : Route) (lengthWire : Lengths K)
    (d : Direction) (n : Nat) (u : FunctionUnit K) : Except Abort (FunctionUnit K) :=
  (List.range n).foldlM (fun u (i : Nat) => do
    let length ← lengthWire.read d i
    let w ← levels.read d i
    .ok (u + (wire.CalculateLatencyAndPower length).level beta w)) u

variable [FloorRing K]

/-- `BankWithHtree::CalculateLatencyAndPower` of a valid bank. -/
def BankWithHtree.CalculateLatencyAndPower (g : Globals) (parts : BankParts K)
    (lengthWire : Lengths K) (b : BankWithHtree) : Except Abort (BankMetrics K) := do
  let u := b.matTotal parts.mat.toFunctionUnit
  let u ← addLevels parts.globalWire g.beta b.levels lengthWire .horizontal b.levelHorizontal u
  let u ← addLevels parts.globalWire g.beta b.levels lengthWire .vertical b.levelVertical u
  let tsv := parts.tsv.evaluate parts.calculateTSV
  .ok (b.finish g parts (tsvOverhead parts.tsvRedundancy tsv b.toBankArgs) u)

/-! ## Rows of mats -/

/-- The bits routed to each active mat. -/
def BankWithoutHtree.numBitRouteToMat (b : Bank) : Int :=
  if b.memoryType = .tag then
    b.matArgs.numAddressBit + b.matArgs.numDataBit + b.matArgs.numWay
  else b.matArgs.numAddressBit + b.matArgs.numDataBit

/-- What row `i` adds; the bit count starts at 0 in each iteration. -/
def WireMetrics.row (wire : WireMetrics K) (b : Bank) (i : Nat) : FunctionUnit K :=
  let numBitRouteToMat : K :=
    if i < b.numActiveMatPerColumn then BankWithoutHtree.numBitRouteToMat b else 0
  let energy : K :=
    if i < b.numActiveMatPerColumn then wire.energy * numBitRouteToMat * b.numActiveMatPerRow
    else 0
  { latency := fun
      | .read | .write | .refresh => if i = 0 then wire.latency else 0
      | .reset | .set => 0
    dynamicEnergy := fun
      | .read | .write | .refresh => energy
      | .reset | .set => 0
    leakage := wire.leakage * numBitRouteToMat * b.numColumnMat }

/-- The variables of the row loop. -/
structure RowLoop (K : Type) extends FunctionUnit K where
  lengthWire : K

def RowLoop.row (parts : BankParts K) (b : Bank) (s : RowLoop K) (i : Nat) : RowLoop K :=
  let lengthWire := s.lengthWire - parts.mat.height
  { toFunctionUnit :=
      if b.internalSenseAmp then
        s.toFunctionUnit + (parts.globalWire.CalculateLatencyAndPower lengthWire).row b i
      else s.toFunctionUnit
    lengthWire := lengthWire }

def RowLoop.start (parts : BankParts K) (b : Bank) : RowLoop K where
  latency
    -- TOTAL refresh time for all Mats
    | .refresh => parts.mat.latency .refresh * b.numColumnMat
    | _ => 0
  dynamicEnergy
    | .refresh => parts.mat.dynamicEnergy .refresh * b.numRowMat * b.numColumnMat
    | _ => 0
  leakage := 0
  lengthWire := parts.mat.height * (b.numRowMat + 1)

/-- The mats on top of the wires. -/
def RowLoop.addMats (g : Globals) (mat : FunctionUnit K) (b : Bank) (u : FunctionUnit K) :
    FunctionUnit K :=
  -- only 1/A wires are activated in fast mode cache write
  let writeDynamicEnergy :=
    if g.designTarget = .cache ∧ g.cacheAccessMode = .fast_access_mode then
      u.dynamicEnergy .write / g.associativity
    else u.dynamicEnergy .write
  let active (op : Operation) : K :=
    mat.dynamicEnergy op * b.numActiveMatPerRow * b.numActiveMatPerColumn
  { latency := fun
      | .read => u.latency .read + mat.latency .read
      | .refresh => u.latency .refresh
      | op => u.latency .write + mat.latency op
    dynamicEnergy := fun
      | .read => u.dynamicEnergy .read + active .read
      | .refresh => u.dynamicEnergy .refresh
      | op => writeDynamicEnergy + active op
    leakage := u.leakage + mat.leakage * b.numRowMat * b.numColumnMat }

/-- `BankWithoutHtree::CalculateLatencyAndPower` of a valid bank. -/
def BankWithoutHtree.CalculateLatencyAndPower (g : Globals) (parts : BankParts K) (b : Bank) :
    BankMetrics K :=
  let s := (List.range b.numRowMat).foldl (RowLoop.row parts b) (RowLoop.start parts b)
  let u := if b.internalSenseAmp then s.toFunctionUnit
    else s.toFunctionUnit + parts.externalSensing b
  let tsv := parts.tsv.evaluate parts.calculateTSV
  b.finish g parts (tsvOverhead parts.tsvRedundancy tsv b.toBankArgs)
    (RowLoop.addMats g parts.mat.toFunctionUnit b u)

/-! ## What the routing comes to -/

section
variable [IsStrictOrderedRing K]

/-- What the totals hold of the mats is what the breakdown takes off. -/
def BankArgs.RefreshSubtracted (mat : FunctionUnit K) (a : BankArgs) : Prop :=
  (mat.latency .refresh = 0 ∨ a.numColumnMat = 1) ∧
    (mat.dynamicEnergy .refresh = 0 ∨
      a.numActiveMatPerRow * a.numActiveMatPerColumn = a.numRowMat * a.numColumnMat)

omit [FloorRing K] in
/-- The refresh latency of all columns is that of one, and the refresh energy of all mats is
    that of the active ones. -/
theorem BankArgs.refreshSubtracted_iff (mat : FunctionUnit K) (a : BankArgs) :
    a.RefreshSubtracted mat ↔
      mat.latency .refresh * a.numColumnMat = mat.latency .refresh ∧
        mat.dynamicEnergy .refresh * a.numRowMat * a.numColumnMat =
          mat.dynamicEnergy .refresh * a.numActiveMatPerColumn * a.numActiveMatPerRow := by
  have hlatency : mat.latency .refresh * a.numColumnMat = mat.latency .refresh ↔
      mat.latency .refresh = 0 ∨ a.numColumnMat = 1 := by
    rw [mul_right_eq_self₀, Nat.cast_eq_one, or_comm]
  have henergy : mat.dynamicEnergy .refresh * a.numRowMat * a.numColumnMat =
        mat.dynamicEnergy .refresh * a.numActiveMatPerColumn * a.numActiveMatPerRow ↔
      mat.dynamicEnergy .refresh = 0 ∨
        a.numActiveMatPerRow * a.numActiveMatPerColumn = a.numRowMat * a.numColumnMat := by
    rw [mul_assoc, mul_assoc, mul_eq_mul_left_iff, ← Nat.cast_mul, ← Nat.cast_mul, Nat.cast_inj,
      or_comm, mul_comm a.numActiveMatPerColumn, @eq_comm ℕ]
  rw [BankArgs.RefreshSubtracted, hlatency, henergy]

omit [FloorRing K] in
theorem BankArgs.matTotal_eq_matShare_iff (mat : FunctionUnit K) (a : BankArgs) :
    a.matTotal mat = a.matShare mat ↔ a.RefreshSubtracted mat := by
  rw [BankArgs.refreshSubtracted_iff]
  constructor
  · intro h
    exact ⟨congrFun (congrArg FunctionUnit.latency h) .refresh,
      congrFun (congrArg FunctionUnit.dynamicEnergy h) .refresh⟩
  · rintro ⟨hlatency, henergy⟩
    have haccess : ∀ op, mat.dynamicEnergy op * a.numActiveMatPerRow * a.numActiveMatPerColumn =
        mat.dynamicEnergy op * a.numActiveMatPerColumn * a.numActiveMatPerRow :=
      fun op => mul_right_comm _ _ _
    refine FunctionUnit.ext (funext fun op => ?_) (funext fun op => ?_) (mul_right_comm _ _ _)
    · cases op with
      | refresh => exact hlatency
      | _ => rfl
    · cases op with
      | refresh => exact henergy
      | _ => exact haccess _

omit [FloorRing K] in
/-- The breakdown of a bank whose total is the mats and the wires. -/
theorem BankArgs.finish_routing (g : Globals) (parts : BankParts K) (tsvOverhead : FunctionUnit K)
    (a : BankArgs) (wires : FunctionUnit K) :
    (a.finish g parts tsvOverhead (a.matTotal parts.mat.toFunctionUnit + wires)).routing = wires ↔
      a.RefreshSubtracted parts.mat.toFunctionUnit := by
  rw [← BankArgs.matTotal_eq_matShare_iff]
  change a.matTotal parts.mat.toFunctionUnit + wires - a.matShare parts.mat.toFunctionUnit =
    wires ↔ _
  rw [sub_eq_iff_eq_add, add_comm wires, add_left_inj]

/-! ### H-tree -/

/-- What a level adds, where it has an entry and a length. -/
def levelShare (wire : GlobalWire K) (beta : Nat) (levels : Route) (lengthWire : Lengths K)
    (d : Direction) (i : Nat) : FunctionUnit K :=
  match lengthWire d i, levels.wires d i with
  | some length, some w => (wire.CalculateLatencyAndPower length).level beta w
  | _, _ => 0

omit [LinearOrder K] [FloorRing K] [IsStrictOrderedRing K] in
theorem addLevels_eq (wire : GlobalWire K) (beta : Nat) {levels : Route} {lengthWire : Lengths K}
    {d : Direction} {n : Nat} (hlength : ∀ i < n, (lengthWire d i).isSome = true)
    (hwire : ∀ i < n, (levels.wires d i).isSome = true) (u : FunctionUnit K) :
    addLevels wire beta levels lengthWire d n u =
      .ok (u + ∑ i ∈ Finset.range n, levelShare wire beta levels lengthWire d i) := by
  unfold addLevels
  induction n with
  | zero =>
      rw [Finset.sum_range_zero, add_zero]
      rfl
  | succ n ih =>
      obtain ⟨length, hl⟩ := Option.isSome_iff_exists.mp (hlength n n.lt_succ_self)
      obtain ⟨w, hw⟩ := Option.isSome_iff_exists.mp (hwire n n.lt_succ_self)
      have hshare : levelShare wire beta levels lengthWire d n =
          (wire.CalculateLatencyAndPower length).level beta w := by
        rw [levelShare, hl, hw]
      have hstep : levels.read d n = .ok w := by rw [Route.read, hw]
      rw [List.range_succ, List.foldlM_append,
        ih (fun i hi => hlength i (by omega)) (fun i hi => hwire i (by omega)),
        Finset.sum_range_succ, hshare, ← add_assoc]
      simp only [List.foldlM_cons, List.foldlM_nil, Lengths.read_of_eq hl, hstep]
      rfl

/-- What the wires of all levels add. -/
def BankWithHtree.wireTotal (g : Globals) (wire : GlobalWire K) (lengthWire : Lengths K)
    (b : BankWithHtree) : FunctionUnit K :=
  ∑ i ∈ Finset.range b.levelHorizontal,
      levelShare wire g.beta b.levels lengthWire .horizontal i +
    ∑ i ∈ Finset.range b.levelVertical, levelShare wire g.beta b.levels lengthWire .vertical i

omit [Field K] [LinearOrder K] [FloorRing K] [IsStrictOrderedRing K] in
theorem Lengths.Known.isSome {P : Direction → Nat → K → Prop} {LH LV : Nat} {l : Lengths K}
    (h : l.Known P LH LV 0 0) (d : Direction) :
    ∀ i < Direction.levels LH LV d, (l d i).isSome = true := by
  intro i hi
  cases d with
  | horizontal =>
      obtain ⟨x, hx, -⟩ := h.horizontal i (Nat.zero_le i) hi
      rw [hx, Option.isSome_some]
  | vertical =>
      obtain ⟨x, hx, -⟩ := h.vertical i (Nat.zero_le i) hi
      rw [hx, Option.isSome_some]

omit [IsStrictOrderedRing K] in
/-- The calculation of a valid bank ends; its total is the mats and the wires. -/
theorem BankWithHtree.CalculateLatencyAndPower_eq {g : Globals} {a : BankArgs} {b : BankWithHtree}
    (hb : BankWithHtree.Initialize g a = some b) {parts : BankParts K} {area : BankArea K}
    (harea : b.CalculateArea parts.globalWire parts.mat.toMatSize parts.tsvRedundancy
      parts.tsv = .ok area) :
    b.CalculateLatencyAndPower g parts area.lengthWire =
      .ok (b.finish g parts
        (tsvOverhead parts.tsvRedundancy (parts.tsv.evaluate parts.calculateTSV) b.toBankArgs)
        (b.matTotal parts.mat.toFunctionUnit +
          b.wireTotal g parts.globalWire area.lengthWire)) := by
  obtain ⟨hfilled, -, -⟩ := BankWithHtree.levels_filled hb
  have rule : LengthRule parts.globalWire parts.mat.toMatSize b.levelHorizontal b.levelVertical
      fun _ _ _ => True :=
    ⟨fun _ _ => trivial, fun _ _ => trivial, fun _ _ _ _ _ => trivial, fun _ _ _ _ _ => trivial⟩
  have hknown := (BankWithHtree.CalculateArea_spec hfilled rule _ _).of_eq_ok harea
  have hhorizontal := addLevels_eq parts.globalWire g.beta (n := b.levelHorizontal)
    (hknown.isSome .horizontal) hfilled.horizontal
  have hvertical := addLevels_eq parts.globalWire g.beta (n := b.levelVertical)
    (hknown.isSome .vertical) hfilled.vertical
  unfold BankWithHtree.CalculateLatencyAndPower
  dsimp only
  rw [hhorizontal]
  change (addLevels _ _ _ _ _ _ _ >>= _) = _
  rw [hvertical, add_assoc]
  rfl

/-! ### Rows -/

/-- The length of the wire to row `i`. -/
def BankWithoutHtree.rowLength (height : K) (b : Bank) (i : Nat) : K := height * (b.numRowMat - i)

/-- What the wire to row `i` adds, by operation; a reset and a set are driven as a write. -/
def BankWithoutHtree.rowShare (g : Globals) (wire : WireMetrics K) (b : Bank) (i : Nat) :
    FunctionUnit K where
  latency
    | .reset | .set => (wire.row b i).latency .write
    | op => (wire.row b i).latency op
  dynamicEnergy
    | .read => (wire.row b i).dynamicEnergy .read
    | .refresh => (wire.row b i).dynamicEnergy .refresh
    | _ => (wire.row b i).dynamicEnergy .write / g.beta
  leakage := (wire.row b i).leakage

/-- What the wires to all rows add. -/
def BankWithoutHtree.wireTotal (g : Globals) (parts : BankParts K) (b : Bank) : FunctionUnit K :=
  ∑ i ∈ Finset.range b.numRowMat,
    rowShare g (parts.globalWire.CalculateLatencyAndPower (rowLength parts.mat.height b i)) b i

omit [LinearOrder K] [FloorRing K] [IsStrictOrderedRing K] in
/-- The loop variables after `n` rows. -/
theorem RowLoop.foldl_row (parts : BankParts K) {b : Bank} (hint : b.internalSenseAmp = true)
    (n : Nat) :
    ((List.range n).foldl (RowLoop.row parts b) (RowLoop.start parts b)).toFunctionUnit =
        (RowLoop.start parts b).toFunctionUnit + ∑ i ∈ Finset.range n,
          (parts.globalWire.CalculateLatencyAndPower
            (BankWithoutHtree.rowLength parts.mat.height b i)).row b i ∧
      ((List.range n).foldl (RowLoop.row parts b) (RowLoop.start parts b)).lengthWire =
        parts.mat.height * (b.numRowMat + 1 - n) := by
  induction n with
  | zero => exact ⟨(add_zero _).symm, by simp [RowLoop.start]⟩
  | succ n ih =>
      rw [List.range_succ, List.foldl_append, List.foldl_cons, List.foldl_nil,
        Finset.sum_range_succ, ← add_assoc]
      generalize (List.range n).foldl (RowLoop.row parts b) (RowLoop.start parts b) = s at ih ⊢
      obtain ⟨hunit, hlength⟩ := ih
      have hnext : s.lengthWire - parts.mat.height =
          BankWithoutHtree.rowLength parts.mat.height b n := by
        rw [hlength, BankWithoutHtree.rowLength]
        ring
      constructor
      · change (if b.internalSenseAmp then s.toFunctionUnit +
          (parts.globalWire.CalculateLatencyAndPower (s.lengthWire - parts.mat.height)).row b n
            else s.toFunctionUnit) = _
        rw [if_pos hint, hunit, hnext]
      · change s.lengthWire - parts.mat.height = _
        rw [hlength]
        push_cast
        ring

omit [LinearOrder K] [FloorRing K] [IsStrictOrderedRing K] in
/-- The fast cache write divides by `beta`. -/
theorem Globals.div_beta (g : Globals) (x : K) :
    (if g.designTarget = .cache ∧ g.cacheAccessMode = .fast_access_mode then x / g.associativity
      else x) = x / g.beta := by
  unfold Globals.beta
  split
  · rfl
  · rw [Nat.cast_one, div_one]

omit [LinearOrder K] [FloorRing K] [IsStrictOrderedRing K] in
/-- The wires of the rows and the mats add up to the total. -/
theorem RowLoop.addMats_eq (g : Globals) (parts : BankParts K) {b : Bank}
    (hint : b.internalSenseAmp = true) :
    RowLoop.addMats g parts.mat.toFunctionUnit b
        ((List.range b.numRowMat).foldl (RowLoop.row parts b)
          (RowLoop.start parts b)).toFunctionUnit =
      b.matTotal parts.mat.toFunctionUnit + BankWithoutHtree.wireTotal g parts b := by
  rw [(RowLoop.foldl_row parts hint b.numRowMat).1]
  unfold RowLoop.addMats BankWithoutHtree.wireTotal
  refine FunctionUnit.ext (funext fun op => ?_) (funext fun op => ?_) ?_
  · simp only [FunctionUnit.add_latency, FunctionUnit.sum_latency]
    cases op with
    | refresh => rfl
    | _ =>
        rw [add_comm (BankArgs.matTotal _ _ |>.latency _)]
        exact congrArg (· + _) (zero_add _)
  · simp only [FunctionUnit.add_dynamicEnergy, FunctionUnit.sum_dynamicEnergy, Globals.div_beta]
    cases op with
    | refresh => rfl
    | read =>
        rw [add_comm (BankArgs.matTotal _ _ |>.dynamicEnergy _)]
        exact congrArg (· + _) (zero_add _)
    | _ =>
        rw [add_comm (BankArgs.matTotal _ _ |>.dynamicEnergy _)]
        refine congrArg (· + _) ?_
        exact (congrArg (· / _) (zero_add _)).trans (Finset.sum_div _ _ _)
  · simp only [FunctionUnit.add_leakage, FunctionUnit.sum_leakage]
    rw [add_comm (BankArgs.matTotal _ _ |>.leakage)]
    exact congrArg (· + _) (zero_add _)

/-! ### The breakdown -/

/-- What the calculation of a valid H-tree bank ends with. -/
theorem BankWithHtree.routing_iff {g : Globals} {a : BankArgs} {b : BankWithHtree}
    (hb : BankWithHtree.Initialize g a = some b) (parts : BankParts K) {area : BankArea K}
    (harea : b.CalculateArea parts.globalWire parts.mat.toMatSize parts.tsvRedundancy
      parts.tsv = .ok area) :
    Ends
      (fun m : BankMetrics K => m.routing = b.wireTotal g parts.globalWire area.lengthWire ↔
        b.RefreshSubtracted parts.mat.toFunctionUnit)
      (fun _ : Abort => False) (b.CalculateLatencyAndPower g parts area.lengthWire) := by
  rw [BankWithHtree.CalculateLatencyAndPower_eq hb harea]
  exact b.finish_routing g parts _ _

theorem BankWithoutHtree.internalSenseAmp_eq {g : Globals} {a : BankArgs} {b : Bank}
    (hb : BankWithoutHtree.Initialize g a = some b) : b.internalSenseAmp = a.internalSenseAmp := by
  obtain ⟨matArgs, mat, -, -, rfl⟩ := BankWithoutHtree.Initialize_eq_some hb
  rfl

theorem BankWithoutHtree.routing_iff (g : Globals) (parts : BankParts K) {b : Bank}
    (hint : b.internalSenseAmp = true) :
    (BankWithoutHtree.CalculateLatencyAndPower g parts b).routing =
        BankWithoutHtree.wireTotal g parts b ↔
      b.RefreshSubtracted parts.mat.toFunctionUnit := by
  unfold BankWithoutHtree.CalculateLatencyAndPower
  dsimp only
  rw [if_pos hint, RowLoop.addMats_eq g parts hint]
  exact b.finish_routing g parts _ _

/-- The routing breakdown of a valid bank is what its wires add just when the totals hold
    no more of the mats for a refresh than for an access. -/
theorem routing_adds_up_iff (g : Globals) (a : BankArgs) (parts : BankParts K) :
    (∀ b area, BankWithHtree.Initialize g a = some b →
        b.CalculateArea parts.globalWire parts.mat.toMatSize parts.tsvRedundancy
          parts.tsv = .ok area →
        Ends
          (fun m : BankMetrics K => m.routing = b.wireTotal g parts.globalWire area.lengthWire ↔
            b.RefreshSubtracted parts.mat.toFunctionUnit)
          (fun _ : Abort => False) (b.CalculateLatencyAndPower g parts area.lengthWire)) ∧
      ∀ b, a.internalSenseAmp = true → BankWithoutHtree.Initialize g a = some b →
        ((BankWithoutHtree.CalculateLatencyAndPower g parts b).routing =
            BankWithoutHtree.wireTotal g parts b ↔
          b.RefreshSubtracted parts.mat.toFunctionUnit) :=
  ⟨fun _ _ hb harea => BankWithHtree.routing_iff hb parts harea, fun _ hint hb =>
    BankWithoutHtree.routing_iff g parts ((BankWithoutHtree.internalSenseAmp_eq hb).trans hint)⟩

/-! ### Leakage by row -/

omit [LinearOrder K] [FloorRing K] [IsStrictOrderedRing K] in
/-- A sum of which only the first `m` of `n` terms are kept is short of the others. -/
theorem sum_range_ite_lt (f : Nat → K) {m n : Nat} (h : m ≤ n) :
    ∑ i ∈ Finset.range n, (if i < m then f i else 0) = ∑ i ∈ Finset.range m, f i := by
  rw [← Finset.sum_filter]
  congr 1
  ext i
  rw [Finset.mem_filter, Finset.mem_range, Finset.mem_range]
  omega

/-- The leakage of the wires to the rows from `m` to `n`, one bit each. -/
def BankWithoutHtree.rowLeakage (parts : BankParts K) (b : Bank) (m n : Nat) : K :=
  ∑ i ∈ Finset.Ico m n,
    (parts.globalWire.CalculateLatencyAndPower (rowLength parts.mat.height b i)).leakage

omit [IsStrictOrderedRing K] in
/-- The routing leakage is that of the active rows. -/
theorem BankWithoutHtree.routing_leakage (g : Globals) (parts : BankParts K) {b : Bank}
    (hint : b.internalSenseAmp = true) (hactive : b.numActiveMatPerColumn ≤ b.numRowMat) :
    (BankWithoutHtree.CalculateLatencyAndPower g parts b).routing.leakage =
      rowLeakage parts b 0 b.numActiveMatPerColumn * numBitRouteToMat b * b.numColumnMat := by
  have hrow : ∀ i, (rowShare g (parts.globalWire.CalculateLatencyAndPower
      (rowLength parts.mat.height b i)) b i).leakage =
      if i < b.numActiveMatPerColumn then
        (parts.globalWire.CalculateLatencyAndPower (rowLength parts.mat.height b i)).leakage *
          numBitRouteToMat b * b.numColumnMat
      else 0 := by
    intro i
    change _ * (if i < b.numActiveMatPerColumn then _ else 0) * _ = _
    split
    · rfl
    · rw [mul_zero, zero_mul]
  have hmats : (b.matTotal parts.mat.toFunctionUnit).leakage =
      (b.matShare parts.mat.toFunctionUnit).leakage := mul_right_comm _ _ _
  unfold BankWithoutHtree.CalculateLatencyAndPower
  dsimp only
  rw [if_pos hint, RowLoop.addMats_eq g parts hint]
  change (_ + wireTotal g parts b - b.matShare parts.mat.toFunctionUnit).leakage = _
  rw [FunctionUnit.sub_leakage, FunctionUnit.add_leakage, hmats, add_sub_cancel_left, wireTotal,
    FunctionUnit.sum_leakage, Finset.sum_congr rfl fun i _ => hrow i, sum_range_ite_lt _ hactive,
    rowLeakage, Finset.range_eq_Ico, Finset.sum_mul, Finset.sum_mul]

omit [LinearOrder K] [FloorRing K] [IsStrictOrderedRing K] in
theorem BankWithoutHtree.rowLeakage_add (parts : BankParts K) (b : Bank) {m n : Nat} (h : m ≤ n) :
    rowLeakage parts b 0 m + rowLeakage parts b m n = rowLeakage parts b 0 n :=
  Finset.sum_Ico_consecutive _ (Nat.zero_le m) h

omit [LinearOrder K] [FloorRing K] [IsStrictOrderedRing K] in
/-- Two counts of rows leak the same just when the rows of only one of them do not leak. -/
theorem BankWithoutHtree.rowLeakage_eq_iff (parts : BankParts K) (b : Bank) (m n : Nat) :
    rowLeakage parts b 0 m = rowLeakage parts b 0 n ↔
      rowLeakage parts b (min m n) (max m n) = 0 := by
  rcases le_total m n with h | h
  · rw [min_eq_left h, max_eq_right h, ← rowLeakage_add parts b h, left_eq_add]
  · rw [min_eq_right h, max_eq_left h, ← rowLeakage_add parts b h, add_eq_left]

/-- Of the rows between `m` and `n` nothing can be measured. -/
def BankWithoutHtree.RowsSilent (parts : BankParts K) (b : Bank) (m n : Nat) : Prop :=
  numBitRouteToMat b = 0 ∨ b.numColumnMat = 0 ∨ rowLeakage parts b m n = 0

omit [FloorRing K] in
theorem BankWithoutHtree.scaled_rowLeakage_eq_iff (parts : BankParts K) (b : Bank) (m n : Nat) :
    rowLeakage parts b 0 m * numBitRouteToMat b * b.numColumnMat =
        rowLeakage parts b 0 n * numBitRouteToMat b * b.numColumnMat ↔
      RowsSilent parts b (min m n) (max m n) := by
  rw [mul_eq_mul_right_iff, mul_eq_mul_right_iff, rowLeakage_eq_iff, Int.cast_eq_zero,
    Nat.cast_eq_zero, RowsSilent]
  tauto

/-- The routing leakage counts every row of mats just when the inactive rows count for
    nothing, and it tells two active counts apart just when the rows between them do not. -/
theorem routing_leakage_counts_rows_iff {g : Globals} {a : BankArgs} {b : Bank}
    (hb : BankWithoutHtree.Initialize g a = some b) (hint : a.internalSenseAmp = true)
    (parts : BankParts K) :
    ((BankWithoutHtree.CalculateLatencyAndPower g parts b).routing.leakage =
          BankWithoutHtree.rowLeakage parts b 0 b.numRowMat *
            BankWithoutHtree.numBitRouteToMat b * b.numColumnMat ↔
        BankWithoutHtree.RowsSilent parts b b.numActiveMatPerColumn b.numRowMat) ∧
      ∀ n b', BankWithoutHtree.Initialize g { a with numActiveMatPerColumn := n } = some b' →
        BankWithoutHtree.numBitRouteToMat b' = BankWithoutHtree.numBitRouteToMat b →
        ((BankWithoutHtree.CalculateLatencyAndPower g parts b).routing.leakage =
            (BankWithoutHtree.CalculateLatencyAndPower g parts b').routing.leakage ↔
          BankWithoutHtree.RowsSilent parts b
            (min b.numActiveMatPerColumn b'.numActiveMatPerColumn)
            (max b.numActiveMatPerColumn b'.numActiveMatPerColumn)) := by
  obtain ⟨matArgs, mat, -, -, rfl⟩ := BankWithoutHtree.Initialize_eq_some hb
  have hactive : a.clamp.numActiveMatPerColumn ≤ a.clamp.numRowMat := min_le_right _ _
  refine ⟨?_, ?_⟩
  · rw [BankWithoutHtree.routing_leakage g parts hint hactive,
      BankWithoutHtree.scaled_rowLeakage_eq_iff, min_eq_left hactive, max_eq_right hactive]
  · intro n b' hb' hbits
    obtain ⟨matArgs', mat', -, -, rfl⟩ := BankWithoutHtree.Initialize_eq_some hb'
    have hactive' : (BankArgs.clamp { a with numActiveMatPerColumn := n }).numActiveMatPerColumn ≤
        (BankArgs.clamp { a with numActiveMatPerColumn := n }).numRowMat := min_le_right _ _
    rw [BankWithoutHtree.routing_leakage g parts hint hactive,
      BankWithoutHtree.routing_leakage g parts hint hactive', hbits]
    exact BankWithoutHtree.scaled_rowLeakage_eq_iff parts _ _ _

end

end

/-! ## A bank with refresh -/

def edramGlobals : Globals := { sramGlobals with memCellType := .eDRAM }

/-- Each metric of the mat is 1. -/
def unitParts : BankParts ℚ where
  mat :=
    { latency := fun _ => 1, dynamicEnergy := fun _ => 1, leakage := 1, height := 1, width := 1,
      cellReadEnergy := 1, cellSetEnergy := 1, cellResetEnergy := 1 }
  globalWire := plainWire
  tsv := freshTSV
  calculateTSV := unbufferedTSV
  tsvRedundancy := 1
  retentionTime := 100
  externalSensing := fun _ => { latency := fun _ => 1, dynamicEnergy := fun _ => 1, leakage := 1 }

/-- The two by two bank is valid, and its H-tree has lengths. -/
theorem twoByTwoBank_area :
    ∃ b area, BankWithHtree.Initialize edramGlobals twoByTwoBank = some b ∧
      b.CalculateArea plainWire unitParts.mat.toMatSize 1 freshTSV = .ok area := by
  have hruns : ((BankWithHtree.Initialize edramGlobals twoByTwoBank).bind fun b =>
      (b.CalculateArea plainWire unitParts.mat.toMatSize 1 freshTSV).toOption).isSome = true := by
    decide +kernel
  obtain ⟨area, harea⟩ := Option.isSome_iff_exists.mp hruns
  obtain ⟨b, hb, harea⟩ := Option.bind_eq_some_iff.mp harea
  refine ⟨b, area, hb, ?_⟩
  cases hresult : b.CalculateArea plainWire unitParts.mat.toMatSize 1 freshTSV with
  | error e =>
      rw [hresult] at harea
      cases harea
  | ok area' =>
      rw [hresult] at harea
      rw [Option.some.inj harea]

theorem twoByTwoBank_rows :
    ∃ b, BankWithoutHtree.Initialize edramGlobals twoByTwoBank = some b :=
  Option.isSome_iff_exists.mp (by decide +kernel)

/-- Mats without refresh. -/
def staticParts : BankParts ℚ :=
  { unitParts with
    mat := { unitParts.mat with
      latency := fun op => if op = .refresh then 0 else 1
      dynamicEnergy := fun op => if op = .refresh then 0 else 1 } }

theorem routing_adds_up_iff_two_by_two :
    (∃ b area, BankWithHtree.Initialize edramGlobals twoByTwoBank = some b ∧
        b.CalculateArea plainWire unitParts.mat.toMatSize 1 freshTSV = .ok area ∧
        Ends
          (fun m : BankMetrics ℚ =>
            m.routing = b.wireTotal edramGlobals plainWire area.lengthWire)
          (fun _ : Abort => False)
          (b.CalculateLatencyAndPower edramGlobals staticParts area.lengthWire)) ∧
      ∃ b, BankWithoutHtree.Initialize edramGlobals twoByTwoBank = some b ∧
        (BankWithoutHtree.CalculateLatencyAndPower edramGlobals staticParts b).routing =
          BankWithoutHtree.wireTotal edramGlobals staticParts b := by
  obtain ⟨b, area, hb, harea⟩ := twoByTwoBank_area
  obtain ⟨b', hb'⟩ := twoByTwoBank_rows
  obtain ⟨htree, hrows⟩ := routing_adds_up_iff edramGlobals twoByTwoBank staticParts
  refine ⟨⟨b, area, hb, harea, (htree b area hb harea).mono (fun m hm => ?_) fun _ h => h⟩,
    b', hb', (hrows b' rfl hb').mpr ⟨.inl rfl, .inl rfl⟩⟩
  exact hm.mpr ⟨.inl rfl, .inl rfl⟩

/-- Two columns of mats are refreshed, and one is taken off. -/
theorem routing_breakdown_keeps_mats :
    (∃ b area, BankWithHtree.Initialize edramGlobals twoByTwoBank = some b ∧
        b.CalculateArea plainWire unitParts.mat.toMatSize 1 freshTSV = .ok area ∧
        Ends
          (fun m : BankMetrics ℚ =>
            m.routing ≠ b.wireTotal edramGlobals plainWire area.lengthWire)
          (fun _ : Abort => False)
          (b.CalculateLatencyAndPower edramGlobals unitParts area.lengthWire)) ∧
      ∃ b, BankWithoutHtree.Initialize edramGlobals twoByTwoBank = some b ∧
        (BankWithoutHtree.CalculateLatencyAndPower edramGlobals unitParts b).routing ≠
          BankWithoutHtree.wireTotal edramGlobals unitParts b := by
  -- two columns of mats with a refresh latency: it is not that of one column
  have hkept : ∀ a : BankArgs, a.numColumnMat = 2 →
      ¬ a.RefreshSubtracted unitParts.mat.toFunctionUnit := by
    rintro a ha ⟨hzero | hone, -⟩
    · exact one_ne_zero hzero
    · rw [ha] at hone
      cases hone
  obtain ⟨b, area, hb, harea⟩ := twoByTwoBank_area
  obtain ⟨b', hb'⟩ := twoByTwoBank_rows
  refine ⟨⟨b, area, hb, harea, ?_⟩, b', hb', ?_⟩
  · obtain ⟨levels, matArgs, mat, -, -, -, hbank, -⟩ := BankWithHtree.Initialize_eq_some hb
    refine (BankWithHtree.routing_iff hb unitParts harea).mono
      (fun m hm hsum => hkept _ ?_ (hm.mp hsum)) fun _ h => h
    rw [hbank]
    rfl
  · obtain ⟨matArgs, mat, -, -, hbank⟩ := BankWithoutHtree.Initialize_eq_some hb'
    have hint := BankWithoutHtree.internalSenseAmp_eq hb'
    refine fun hsum => hkept _ ?_ ((BankWithoutHtree.routing_iff _ _ hint).mp hsum)
    rw [hbank]
    rfl

/-! ## A bank with an inactive row -/

/-- Tags of four ways, one of two rows of mats active. -/
def fourWayTags : BankArgs :=
  { twoByTwoBank with memoryType := .tag, associativity := 4, blockSize := 16 }

def fourWayGlobals : Globals := { sramGlobals with associativity := 4 }

/-- A valid bank by what is routed to its mats. -/
theorem fourWayTags_bits {n : Nat} (hn : n = 1 ∨ n = 2) :
    ∃ b, BankWithoutHtree.Initialize fourWayGlobals
        { fourWayTags with numActiveMatPerColumn := n } = some b ∧
      BankWithoutHtree.numBitRouteToMat b = 27 ∧ b.numActiveMatPerColumn = n := by
  have hbank : ((BankWithoutHtree.Initialize fourWayGlobals
        { fourWayTags with numActiveMatPerColumn := n }).map fun b =>
      (BankWithoutHtree.numBitRouteToMat b, b.numActiveMatPerColumn)) = some (27, n) := by
    rcases hn with rfl | rfl
    · decide +kernel
    · decide +kernel
  obtain ⟨b, hb, hbits⟩ := Option.map_eq_some_iff.mp hbank
  exact ⟨b, hb, congrArg Prod.fst hbits, congrArg Prod.snd hbits⟩

/-- With both rows active none is left out. -/
theorem routing_leakage_counts_rows_iff_four_ways :
    ∃ b, BankWithoutHtree.Initialize fourWayGlobals
        { fourWayTags with numActiveMatPerColumn := 2 } = some b ∧
      (BankWithoutHtree.CalculateLatencyAndPower fourWayGlobals unitParts b).routing.leakage =
        BankWithoutHtree.rowLeakage unitParts b 0 b.numRowMat *
          BankWithoutHtree.numBitRouteToMat b * b.numColumnMat := by
  obtain ⟨b, hb, -, hactive⟩ := fourWayTags_bits (.inr rfl)
  obtain ⟨matArgs, mat, -, -, hbank⟩ := BankWithoutHtree.Initialize_eq_some hb
  have hrows : b.numRowMat = 2 := by
    rw [hbank]
    rfl
  refine ⟨b, hb, (routing_leakage_counts_rows_iff hb rfl unitParts).1.mpr (.inr (.inr ?_))⟩
  rw [hactive, hrows, BankWithoutHtree.rowLeakage, Finset.Ico_self, Finset.sum_empty]

/-- The inactive row leaks, and is not counted. -/
theorem routing_leakage_misses_row :
    ∃ b b', BankWithoutHtree.Initialize fourWayGlobals
        { fourWayTags with numActiveMatPerColumn := 1 } = some b ∧
      BankWithoutHtree.Initialize fourWayGlobals
        { fourWayTags with numActiveMatPerColumn := 2 } = some b' ∧
      BankWithoutHtree.numBitRouteToMat b' = BankWithoutHtree.numBitRouteToMat b ∧
      (BankWithoutHtree.CalculateLatencyAndPower fourWayGlobals unitParts b).routing.leakage ≠
        BankWithoutHtree.rowLeakage unitParts b 0 b.numRowMat *
          BankWithoutHtree.numBitRouteToMat b * b.numColumnMat ∧
      (BankWithoutHtree.CalculateLatencyAndPower fourWayGlobals unitParts b).routing.leakage ≠
        (BankWithoutHtree.CalculateLatencyAndPower fourWayGlobals unitParts
          b').routing.leakage := by
  obtain ⟨b, hb, hbits, hone⟩ := fourWayTags_bits (.inl rfl)
  obtain ⟨b', hb', hbits', htwo⟩ := fourWayTags_bits (.inr rfl)
  have hrow : ∀ (c : Bank) (n : Nat), BankWithoutHtree.rowLeakage unitParts c 0 n = n := by
    intro c n
    simp [BankWithoutHtree.rowLeakage, unitParts, plainWire]
  obtain ⟨matArgs, mat, -, -, hbank⟩ := BankWithoutHtree.Initialize_eq_some hb
  obtain ⟨matArgs', mat', -, -, hbank'⟩ := BankWithoutHtree.Initialize_eq_some hb'
  have hrows : b.numRowMat = 2 ∧ b.numColumnMat = 2 := by
    rw [hbank]
    exact ⟨rfl, rfl⟩
  have hrows' : b'.numRowMat = 2 ∧ b'.numColumnMat = 2 := by
    rw [hbank']
    exact ⟨rfl, rfl⟩
  have hleak := BankWithoutHtree.routing_leakage fourWayGlobals unitParts
    (BankWithoutHtree.internalSenseAmp_eq hb) (by omega)
  have hleak' := BankWithoutHtree.routing_leakage fourWayGlobals unitParts
    (BankWithoutHtree.internalSenseAmp_eq hb') (by omega)
  rw [hrow, hone, hbits, hrows.2] at hleak
  rw [hrow, htwo, hbits', hrows'.2] at hleak'
  refine ⟨b, b', hb, hb', hbits'.trans hbits.symm, ?_, ?_⟩
  · rw [hleak, hrow, hbits, hrows.1, hrows.2]
    norm_num
  · rw [hleak, hleak']
    norm_num

end Destiny
