/-
  Destiny.Bank.WireLength

  `BankWithHtree::CalculateArea`: the size of the bank and the length of every
  H-tree wire.

  The level recursion has written an entry for every level (`routeLevels_filled`).
  The lengths are computed from the mats upward, by three loops over the two
  level indices; `lengthWires_spec` gives the closed form where the wires
  take no silicon area.
-/

import Destiny.Bank.Stacking
import Mathlib.Algebra.BigOperators.Intervals
import Mathlib.Algebra.Ring.GeomSum
import Mathlib.Algebra.Order.BigOperators.Group.Finset

namespace Destiny

open Lib

/-! ## Every level has an entry -/

/-- The first `c` horizontal and `r` vertical entries are written. -/
structure Route.Filled (s : Route) (c r : Nat) : Prop where
  horizontal : ∀ i < c, (s.wires .horizontal i).isSome = true
  vertical : ∀ j < r, (s.wires .vertical j).isSome = true

section
variable {s : Route} {c r LH LV : Nat}

theorem Route.Filled.start (A : Int) (D B p q : Nat) : (Route.start A D B p q).Filled 0 0 :=
  ⟨fun _ h => absurd h (Nat.not_lt_zero _), fun _ h => absurd h (Nat.not_lt_zero _)⟩

/-- Scratch counters do not matter. -/
theorem Route.Filled.with_temps (h : s.Filled c r) (x y : Nat) :
    ({ s with hTemp := x, vTemp := y } : Route).Filled c r :=
  ⟨h.horizontal, h.vertical⟩

/-- An entry that is written leaves the others as they are. -/
theorem Route.write_isSome (s : Route) {w : WireLevel} {d d' : Direction} {i i' : Int}
    (h : (d' = d ∧ i' = i) ∨ (s.wires d' i').isSome = true) :
    ((s.write d i w).wires d' i').isSome = true := by
  unfold Route.write
  dsimp only
  split
  · rfl
  · next hne => exact h.resolve_left hne

theorem Route.place_isSome (d : Direction) (i : Int) (n a b : Nat) {d' : Direction} {i' : Int}
    (h : (d' = d ∧ i' = i) ∨ (s.wires d' i').isSome = true) :
    ((s.place d i n a b).wires d' i').isSome = true :=
  s.write_isSome h

theorem Route.Filled.place_horizontal (h : s.Filled c r) (n a b : Nat) :
    (s.place .horizontal c n a b).Filled (c + 1) r where
  horizontal i hi := by
    refine Route.place_isSome .horizontal c n a b ?_
    rcases Nat.lt_succ_iff_lt_or_eq.mp hi with hlt | rfl
    · exact .inr (h.horizontal i hlt)
    · exact .inl ⟨rfl, rfl⟩
  vertical j hj := Route.place_isSome .horizontal c n a b (.inr (h.vertical j hj))

theorem Route.Filled.place_vertical (h : s.Filled c r) (n a b : Nat) :
    (s.place .vertical r n a b).Filled c (r + 1) where
  horizontal i hi := Route.place_isSome .vertical r n a b (.inr (h.horizontal i hi))
  vertical j hj := by
    refine Route.place_isSome .vertical r n a b ?_
    rcases Nat.lt_succ_iff_lt_or_eq.mp hj with hlt | rfl
    · exact .inr (h.vertical j hlt)
    · exact .inl ⟨rfl, rfl⟩

theorem check_ends (s : Route) : Ends (fun _ => True) (fun _ : Abort => True) s.check := by
  cases s.check <;> trivial

/-- A level that does not stop the recursion is placed. -/
theorem Route.level_placed (s : Route) (d : Direction) (i : Int)
    (predecessor : Option (Direction × Int)) (n : Nat) :
    Ends (fun t => ∃ a b, t = s.place d i n a b) (fun _ : Abort => True)
      (s.level d i predecessor n) := by
  unfold Route.level
  refine (check_ends s).bind fun _ _ => ?_
  cases predecessor with
  | none => exact ⟨1, 1, rfl⟩
  | some p =>
      have hread : Ends (fun _ => True) (fun _ : Abort => True) (s.read p.1 p.2) := by
        cases s.read p.1 p.2 <;> trivial
      exact hread.bind fun before _ => ⟨before.numSumWire, before.numActiveWire, rfl⟩

theorem Route.Filled.level_horizontal (h : s.Filled c r) {i : Int} (hi : i = c)
    (predecessor : Option (Direction × Int)) (n : Nat) :
    Ends (fun t => t.Filled (c + 1) r) (fun _ : Abort => True)
      (s.level .horizontal i predecessor n) := by
  subst hi
  refine (s.level_placed .horizontal c predecessor n).mono ?_ fun _ _ => trivial
  rintro t ⟨a, b, rfl⟩
  exact h.place_horizontal n a b

theorem Route.Filled.level_vertical (h : s.Filled c r) {j : Int} (hj : j = r)
    (predecessor : Option (Direction × Int)) (n : Nat) :
    Ends (fun t => t.Filled c (r + 1)) (fun _ : Abort => True)
      (s.level .vertical j predecessor n) := by
  subst hj
  refine (s.level_placed .vertical r predecessor n).mono ?_ fun _ _ => trivial
  rintro t ⟨a, b, rfl⟩
  exact h.place_vertical n a b

theorem rootHorizontal_filled (h : s.Filled 0 0) :
    Ends (fun t => t.Filled (rootLevels LH) 0) (fun _ : Abort => True)
      (Route.rootHorizontal LH s) := by
  unfold Route.rootHorizontal rootLevels
  split
  · refine (check_ends s).bind fun _ _ => ?_
    refine ⟨fun i hi => s.write_isSome (.inl ⟨rfl, ?_⟩), fun j hj => absurd hj (Nat.not_lt_zero _)⟩
    have hzero : i = 0 := by omega
    simp [hzero]
  · exact h

/-- The loop variable and the filled entries make up all levels. -/
theorem reduceHorizontal_filled (v : Nat) :
    ∀ (h c : Nat) (s : Route), h + c = LH → s.Filled c 0 →
      Ends (fun t => t.Filled (LH - min h v) 0) (fun _ : Abort => True)
        (Route.reduceHorizontal LH v h s) := by
  intro h
  induction h with
  | zero =>
      intro c s hc hs
      have hmin : LH - min 0 v = c := by omega
      rw [hmin]
      exact hs
  | succ h ih =>
      intro c s hc hs
      unfold Route.reduceHorizontal
      split
      · next hlt =>
        have hlevel := hs.level_horizontal (i := LH - ((h + 1 : Nat) : Int)) (by omega)
          (some (.horizontal, LH - ((h + 1 : Nat) : Int) - 1)) 1
        refine hlevel.bind fun t ht => ?_
        have hnext := ih (c + 1) { t with vTemp := t.vTemp * 2 } (by omega) (ht.with_temps _ _)
        have hmin : min (h + 1) v = min h v := by omega
        rw [hmin]
        exact hnext
      · have hmin : LH - min (h + 1) v = c := by omega
        rw [hmin]
        exact hs

theorem reduceVertical_filled (h : Nat) :
    ∀ (v r : Nat) (s : Route), v + r = LV → s.Filled c r →
      Ends (fun t => t.Filled c (LV - min v h)) (fun _ : Abort => True)
        (Route.reduceVertical LV h v s) := by
  intro v
  induction v with
  | zero =>
      intro r s hr hs
      have hmin : LV - min 0 h = r := by omega
      rw [hmin]
      exact hs
  | succ v ih =>
      intro r s hr hs
      unfold Route.reduceVertical
      split
      · next hlt =>
        have hlevel := hs.level_vertical (j := LV - ((v + 1 : Nat) : Int)) (by omega)
          (if v + 1 = LV then none else some (.vertical, LV - ((v + 1 : Nat) : Int) - 1)) 1
        refine hlevel.bind fun t ht => ?_
        have hnext := ih (r + 1) { t with hTemp := t.hTemp * 2 } (by omega) (ht.with_temps _ _)
        have hmin : min (v + 1) h = min v h := by omega
        rw [hmin]
        exact hnext
      · have hmin : LV - min (v + 1) h = r := by omega
        rw [hmin]
        exact hs

theorem interleave_filled :
    ∀ (h c r : Nat) (v : Int) (s : Route), h + c = LH → v = h → h + r = LV → s.Filled c r →
      Ends (fun t => t.Filled LH LV) (fun _ : Abort => True) (Route.interleave LH LV h v s) := by
  intro h
  induction h with
  | zero =>
      intro c r v s hc hv hr hs
      obtain rfl : c = LH := by omega
      obtain rfl : r = LV := by omega
      exact hs
  | succ h ih =>
      intro c r v s hc hv hr hs
      unfold Route.interleave
      have hcolumn := hs.level_horizontal (i := LH - ((h + 1 : Nat) : Int)) (by omega)
        (some (if v = LV then (.horizontal, LH - ((h + 1 : Nat) : Int) - 1)
          else (.vertical, LV - v - 1))) s.hTemp
      refine hcolumn.bind fun t ht => ?_
      have hrow := ht.level_vertical (j := LV - v) (by omega)
        (some (.horizontal, LH - ((h + 1 : Nat) : Int)))
        (if LH = 2 then t.vTemp else 2 * t.vTemp)
      refine hrow.bind fun u hu => ?_
      exact ih (c + 1) (r + 1) (v - 1) _ (by omega) (by omega) (by omega) (hu.with_temps _ _)

/-- A routed bank has an entry for every level. -/
theorem routeLevels_filled (h : s.Filled 0 0) :
    Ends (fun t => t.Filled LH LV) (fun _ : Abort => True) (Route.routeLevels LH LV s) := by
  unfold Route.routeLevels
  refine (rootHorizontal_filled h).bind fun t ht => ?_
  have hroot : LH - 1 + rootLevels LH = LH := by unfold rootLevels; split <;> omega
  refine (reduceHorizontal_filled LV (LH - 1) _ t hroot ht).bind fun u hu => ?_
  refine (reduceVertical_filled _ LV 0 u (by omega) hu).bind fun w hw => ?_
  exact interleave_filled _ _ _ _ w (by omega) rfl (by omega) hw

end

/-! ## Wires and their tracks -/

/-- What `Wire::CalculateLatencyAndPower` returns. -/
structure WireMetrics (K : Type) where
  latency : K
  energy : K
  leakage : K

/-- The global wire, and its metrics by length. -/
structure GlobalWire (K : Type) where
  wireRepeaterType : WireRepeaterType
  repeaterSpacing : K
  repeaterHeight : K
  repeatedWirePitch : K
  CalculateLatencyAndPower : K → WireMetrics K

structure MatSize (K : Type) where
  height : K
  width : K

/-- Lengths by direction and level, from `new double[]`. -/
abbrev Lengths (K : Type) := Direction → Int → Option K

/-- The size of a bank and the lengths of its wires. -/
structure BankArea (K : Type) where
  height : K
  width : K
  area : K
  lengthWire : Lengths K

/-- The bits a wire of the level carries. -/
def WireLevel.bits (w : WireLevel) : Int :=
  w.numAddressBitToRoute + w.numDataDistributeBitToRoute + w.numDataBroadcastBitToRoute

def Route.bits (s : Route) (d : Direction) (i : Int) : Except Abort Int := do
  let w ← s.read d i
  .ok w.bits

namespace Lengths

variable {K : Type}

def read (l : Lengths K) (d : Direction) (i : Int) : Except Abort K :=
  match l d i with
  | some x => .ok x
  | none => .error .unset

def write (l : Lengths K) (d : Direction) (i : Int) (x : K) : Lengths K :=
  fun d' i' => if d' = d ∧ i' = i then some x else l d' i'

theorem write_self (l : Lengths K) (d : Direction) (i : Int) (x : K) : l.write d i x d i = some x :=
  if_pos ⟨rfl, rfl⟩

theorem write_of_ne (l : Lengths K) {d d' : Direction} {i i' : Int} (x : K)
    (h : ¬ (d' = d ∧ i' = i)) : l.write d i x d' i' = l d' i' :=
  if_neg h

theorem read_of_eq {l : Lengths K} {d : Direction} {i : Int} {x : K} (h : l d i = some x) :
    l.read d i = .ok x := by
  rw [read, h]

end Lengths

section
variable {K : Type} [Field K] [LinearOrder K] [FloorRing K]

def GlobalWire.numWireSharingWidth (wire : GlobalWire K) : Int :=
  if wire.wireRepeaterType = .repeated_none then 1
  else ⌊wire.repeaterSpacing / wire.repeaterHeight⌋

/-- Wires without repeaters are built on another metal layer. -/
def GlobalWire.effectivePitch (wire : GlobalWire K) : K :=
  if wire.wireRepeaterType = .repeated_none then 0 else wire.repeatedWirePitch

/-- The silicon that many wires take. -/
def GlobalWire.track (wire : GlobalWire K) (bits : Int) : K :=
  ⌈(bits : K) / wire.numWireSharingWidth⌉ * wire.effectivePitch

theorem GlobalWire.track_of_repeated_none {wire : GlobalWire K}
    (h : wire.wireRepeaterType = .repeated_none) (bits : Int) : wire.track bits = 0 := by
  rw [track, effectivePitch, if_pos h, mul_zero]

/-! ## The length loops -/

section
variable (wire : GlobalWire K) (mat : MatSize K) (levels : Route)
  (levelHorizontal levelVertical : Nat)

/-- A level of the surplus loops: `leaf` at the mats, else twice the level below. -/
def surplusLength (leaf : K) (l : Lengths K) (d : Direction) (n i : Nat) : Except Abort K :=
  if i + 1 = n then .ok leaf
  else do
    let below ← l.read d (i + 1 : Nat)
    .ok (below * 2)

/-- `while (v > h)` before any horizontal level, with `v + 1` for the loop variable;
    the loop leaves `v = min v h`. -/
def surplusVertical : Nat → Lengths K → Except Abort (Lengths K)
  | 0, l => .ok l
  | v + 1, l =>
      if levelHorizontal < v + 1 then do
        let length ← surplusLength (mat.height / 2) l .vertical levelVertical v
        surplusVertical v (l.write .vertical v length)
      else .ok l

/-- The vertical length where levels alternate. -/
def verticalLength (l : Lengths K) (v h : Int) : Except Abort K :=
  if v = levelVertical - 1 then .ok (mat.height / 2)
  else do
    let below ← l.read .vertical (v + 1)
    if h = levelHorizontal - 1 then .ok (below * 2)
    else do
      let numHorizontalBitToRoute ← levels.bits .horizontal (h + 1)
      .ok (below * 2 + wire.track numHorizontalBitToRoute / 2)

/-- The horizontal length there; the deepest one spans all vertical levels below it. -/
def horizontalLength (l : Lengths K) (v h : Int) : Except Abort K :=
  if h = levelHorizontal - 1 then
    (List.range (levelVertical - v).toNat).foldlM (fun length (i : Nat) => do
      let numVerticalBitToRoute ← levels.bits .vertical (v + i)
      .ok (length + wire.track numVerticalBitToRoute / 2)) mat.width
  else do
    let numVerticalBitToRoute ← levels.bits .vertical v
    let below ← l.read .horizontal (h + 1)
    .ok (below * 2 + wire.track numVerticalBitToRoute / 2)

/-- `while (v >= 0)`, with `v + 1` for the loop variable. -/
def alternating : Nat → Int → Lengths K → Except Abort (Lengths K)
  | 0, _, l => .ok l
  | v + 1, h, l => do
      let vertical ← verticalLength wire mat levels levelHorizontal levelVertical l v h
      let l := l.write .vertical v vertical
      let horizontal ← horizontalLength wire mat levels levelHorizontal levelVertical l v h
      alternating v (h - 1) (l.write .horizontal h horizontal)

/-- `while (h >= 0)`, with `h + 1` for the loop variable. -/
def surplusHorizontal : Nat → Lengths K → Except Abort (Lengths K)
  | 0, l => .ok l
  | h + 1, l => do
      let length ← surplusLength mat.width l .horizontal levelHorizontal h
      surplusHorizontal h (l.write .horizontal h length)

/-- The length of each H-tree wire. -/
def lengthWires : Except Abort (Lengths K) := do
  let l ← surplusVertical mat levelHorizontal levelVertical levelVertical fun _ _ => none
  let v := min levelVertical levelHorizontal
  let l ← alternating wire mat levels levelHorizontal levelVertical v (levelHorizontal - 1) l
  surplusHorizontal mat levelHorizontal (levelHorizontal - v) l

end

/-- The silicon of the wires of all levels of a direction, on top of the mats. -/
def addTracks (wire : GlobalWire K) (levels : Route) (d : Direction) (n : Nat) (size : K) :
    Except Abort K :=
  (List.range n).foldlM (fun size (i : Nat) => do
    let w ← levels.read d i
    .ok (size + wire.track (w.bits * w.numWire))) size

/-- `CONSTRAINT_ASPECT_RATIO_BANK` -/
def constraintAspectRatioBank (K : Type) [Field K] : K := 3

/-- `BankWithHtree::CalculateArea` of a valid bank. -/
def BankWithHtree.CalculateArea (wire : GlobalWire K) (mat : MatSize K) (tsvRedundancy : K)
    (tsv : TSV K) (b : BankWithHtree) : Except Abort (BankArea K) := do
  let height ← addTracks wire b.levels .horizontal b.levelHorizontal (mat.height * b.numRowMat)
  let width ← addTracks wire b.levels .vertical b.levelVertical (mat.width * b.numColumnMat)
  if b.memoryType = .data ∧ (constraintAspectRatioBank K < height / width ∨
      constraintAspectRatioBank K < width / height) then .error .invalid
  else do
    let lengthWire ← lengthWires wire mat b.levels b.levelHorizontal b.levelVertical
    let tsvArea :=
      if 1 < b.stackedDieCount then tsvArea tsvRedundancy tsv b.toBankArgs else 0
    .ok { height := height, width := width, area := height * width + tsvArea,
          lengthWire := lengthWire }

/-! ## The closed form -/

/-- The length of level `i` of `n`, twice that of the level below. -/
def treeLength (leaf : K) (n i : Nat) : K := leaf * 2 ^ (n - 1 - i)

omit [LinearOrder K] [FloorRing K] in
theorem treeLength_last (leaf : K) {n i : Nat} (h : i + 1 = n) : treeLength leaf n i = leaf := by
  rw [treeLength, show n - 1 - i = 0 by omega, pow_zero, mul_one]

omit [LinearOrder K] [FloorRing K] in
theorem treeLength_double (leaf : K) {n i : Nat} (h : i + 1 < n) :
    treeLength leaf n i = treeLength leaf n (i + 1) * 2 := by
  rw [treeLength, treeLength, show n - 1 - i = n - 1 - (i + 1) + 1 by omega, pow_succ, mul_assoc]

omit [LinearOrder K] [FloorRing K] in
/-- All levels together fall one leaf short of the next power of two. -/
theorem sum_treeLength (leaf : K) (n : Nat) :
    ∑ i ∈ Finset.range n, treeLength leaf n i = leaf * (2 ^ n - 1) := by
  have hreflect := Finset.sum_range_reflect (fun j => leaf * (2 : K) ^ j) n
  have hgeom : ∑ j ∈ Finset.range n, (2 : K) ^ j = 2 ^ n - 1 := by
    have h := geom_sum_mul (2 : K) n
    rwa [show (2 : K) - 1 = 1 by norm_num, mul_one] at h
  unfold treeLength
  rw [hreflect, ← Finset.mul_sum, hgeom]

/-! ## The loops -/

/-- The levels of a direction. -/
def Direction.levels (levelHorizontal levelVertical : Nat) : Direction → Nat
  | .horizontal => levelHorizontal
  | .vertical => levelVertical

/-- `P` holds of the leaves and passes from a level to the one above. -/
structure LengthRule (wire : GlobalWire K) (mat : MatSize K) (levelHorizontal levelVertical : Nat)
    (P : Direction → Nat → K → Prop) : Prop where
  horizontal_leaf : ∀ i, i + 1 = levelHorizontal → P .horizontal i mat.width
  vertical_leaf : ∀ i, i + 1 = levelVertical → P .vertical i (mat.height / 2)
  double : ∀ d i x, i + 1 < Direction.levels levelHorizontal levelVertical d →
    P d (i + 1) x → P d i (x * 2)
  track : ∀ d i x bits, P d i x → P d i (x + wire.track bits / 2)

/-- The levels from `c` and from `r` on have lengths with `P`. -/
structure Lengths.Known {K : Type} (P : Direction → Nat → K → Prop)
    (levelHorizontal levelVertical c r : Nat) (l : Lengths K) : Prop where
  horizontal : ∀ i : Nat, c ≤ i → i < levelHorizontal →
    ∃ x, l .horizontal i = some x ∧ P .horizontal i x
  vertical : ∀ j : Nat, r ≤ j → j < levelVertical → ∃ x, l .vertical j = some x ∧ P .vertical j x

/-- The bits of a level can be read. -/
theorem Route.Filled.read {levels : Route} {LH LV : Nat} (h : levels.Filled LH LV) {d : Direction}
    {i : Int} {k : Nat} (hi : i = k) (hk : k < Direction.levels LH LV d) :
    ∃ w, levels.read d i = .ok w := by
  subst hi
  have hsome : (levels.wires d k).isSome = true := by
    cases d with
    | horizontal => exact h.horizontal k hk
    | vertical => exact h.vertical k hk
  obtain ⟨w, hw⟩ := Option.isSome_iff_exists.mp hsome
  exact ⟨w, by rw [Route.read, hw]⟩

theorem Route.Filled.bits {levels : Route} {LH LV : Nat} (h : levels.Filled LH LV) {d : Direction}
    {i : Int} {k : Nat} (hi : i = k) (hk : k < Direction.levels LH LV d) :
    Ends (fun _ => True) (fun _ => False) (levels.bits d i) := by
  obtain ⟨w, hw⟩ := h.read hi hk
  rw [Route.bits, hw]
  trivial

section
variable {P : Direction → Nat → K → Prop} {LH LV c r : Nat} {l : Lengths K}

omit [Field K] [LinearOrder K] [FloorRing K] in
theorem Lengths.Known.write_vertical {x : K} (h : l.Known P LH LV c (r + 1))
    (hx : P .vertical r x) : (l.write .vertical r x).Known P LH LV c r where
  horizontal i hi hlt := by
    rw [Lengths.write_of_ne l _ (by simp)]
    exact h.horizontal i hi hlt
  vertical j hj hlt := by
    rcases Nat.eq_or_lt_of_le hj with rfl | hr
    · exact ⟨x, Lengths.write_self l _ _ _, hx⟩
    · rw [Lengths.write_of_ne l _ (by simp; omega)]
      exact h.vertical j hr hlt

omit [Field K] [LinearOrder K] [FloorRing K] in
theorem Lengths.Known.write_horizontal {x : K} (h : l.Known P LH LV (c + 1) r)
    (hx : P .horizontal c x) : (l.write .horizontal c x).Known P LH LV c r where
  horizontal i hi hlt := by
    rcases Nat.eq_or_lt_of_le hi with rfl | hc
    · exact ⟨x, Lengths.write_self l _ _ _, hx⟩
    · rw [Lengths.write_of_ne l _ (by simp; omega)]
      exact h.horizontal i hc hlt
  vertical j hj hlt := by
    rw [Lengths.write_of_ne l _ (by simp)]
    exact h.vertical j hj hlt

variable {wire : GlobalWire K} {mat : MatSize K} {levels : Route}
  (rule : LengthRule wire mat LH LV P)
include rule

theorem surplusLength_spec {leaf : K} {d : Direction} {n i : Nat}
    (hn : n = Direction.levels LH LV d) (hi : i < n) (hleaf : i + 1 = n → P d i leaf)
    (hbelow : i + 1 < n → ∃ x, l d (i + 1 : Nat) = some x ∧ P d (i + 1) x) :
    Ends (P d i) (fun _ => False) (surplusLength leaf l d n i) := by
  unfold surplusLength
  split
  · next hlast => exact hleaf hlast
  · next hlast =>
    obtain ⟨x, hx, hP⟩ := hbelow (by omega)
    rw [Lengths.read_of_eq hx]
    exact rule.double d i x (by omega) hP

theorem surplusVertical_spec :
    ∀ (v : Nat) (l : Lengths K), v ≤ LV → l.Known P LH LV c v →
      Ends (Lengths.Known P LH LV c (min v LH)) (fun _ => False)
        (surplusVertical mat LH LV v l) := by
  intro v
  induction v with
  | zero =>
      intro l _ hl
      rw [Nat.zero_min]
      exact hl
  | succ v ih =>
      intro l hv hl
      unfold surplusVertical
      split
      · next hlt =>
        have hlength := surplusLength_spec rule (d := .vertical) rfl (show v < LV by omega)
          (rule.vertical_leaf v) (hl.vertical (v + 1) le_rfl)
        refine hlength.bind fun x hx => ?_
        have hnext := ih _ (by omega) (hl.write_vertical hx)
        rwa [show min (v + 1) LH = min v LH by omega]
      · rw [show min (v + 1) LH = v + 1 by omega]
        exact hl

theorem surplusHorizontal_spec :
    ∀ (h : Nat) (l : Lengths K), h ≤ LH → l.Known P LH LV h r →
      Ends (Lengths.Known P LH LV 0 r) (fun _ => False) (surplusHorizontal mat LH h l) := by
  intro h
  induction h with
  | zero => exact fun l _ hl => hl
  | succ h ih =>
      intro l hh hl
      unfold surplusHorizontal
      have hlength := surplusLength_spec rule (d := .horizontal) rfl (show h < LH by omega)
        (rule.horizontal_leaf h) (hl.horizontal (h + 1) le_rfl)
      refine hlength.bind fun x hx => ?_
      exact ih _ (by omega) (hl.write_horizontal hx)

variable (hfilled : levels.Filled LH LV)
include hfilled

theorem verticalLength_spec {v m : Nat} (hmLH : m ≤ LH) (hvLV : v < LV)
    (hl : l.Known P LH LV m (v + 1)) :
    Ends (P .vertical v) (fun _ => False)
      (verticalLength wire mat levels LH LV l v (m - 1)) := by
  unfold verticalLength
  split
  · next hlast => exact rule.vertical_leaf v (by omega)
  · next hlast =>
    obtain ⟨x, hx, hP⟩ := hl.vertical (v + 1) le_rfl (by omega)
    have hread : l.read .vertical ((v : Int) + 1) = .ok x := Lengths.read_of_eq hx
    have hdouble : P .vertical v (x * 2) :=
      rule.double .vertical v x (show v + 1 < LV by omega) hP
    rw [hread]
    change Ends _ _ (if _ then _ else _)
    split
    · exact hdouble
    · next hdeepest =>
      refine (hfilled.bits (d := .horizontal) (k := m) (by omega) (show m < LH by omega)).bind
        fun bits _ => ?_
      exact rule.track .vertical v _ bits hdouble

theorem horizontalLength_spec {v m : Nat} (hm : 0 < m) (hmLH : m ≤ LH) (hvLV : v < LV)
    (hl : l.Known P LH LV m (v + 1)) :
    Ends (P .horizontal (m - 1)) (fun _ => False)
      (horizontalLength wire mat levels LH LV l v (m - 1)) := by
  unfold horizontalLength
  split
  · next hlast =>
    refine Ends.foldlM (fun x hx i hi => ?_) (rule.horizontal_leaf (m - 1) (by omega))
    have hi' : i < LV - v := by
      have := List.mem_range.mp hi
      omega
    refine (hfilled.bits (d := .vertical) (k := v + i) (by omega) (show v + i < LV by omega)).bind
      fun bits _ => ?_
    exact rule.track .horizontal (m - 1) x bits hx
  · next hlast =>
    refine (hfilled.bits (d := .vertical) (k := v) rfl hvLV).bind fun bits _ => ?_
    obtain ⟨x, hx, hP⟩ := hl.horizontal m le_rfl (by omega)
    have hread : l.read .horizontal ((m : Int) - 1 + 1) = .ok x := by
      rw [sub_add_cancel]
      exact Lengths.read_of_eq hx
    have hm' : m - 1 + 1 = m := by omega
    have hdouble : P .horizontal (m - 1) (x * 2) :=
      rule.double .horizontal (m - 1) x (show m - 1 + 1 < LH by omega) (by rwa [hm'])
    rw [hread]
    exact rule.track .horizontal (m - 1) _ bits hdouble

theorem alternating_spec :
    ∀ (v m : Nat) (l : Lengths K), v ≤ m → m ≤ LH → v ≤ LV → l.Known P LH LV m v →
      Ends (Lengths.Known P LH LV (m - v) 0) (fun _ => False)
        (alternating wire mat levels LH LV v ((m : Int) - 1) l) := by
  intro v
  induction v with
  | zero => exact fun m l _ _ _ hl => hl
  | succ v ih =>
      intro m l hvm hmLH hvLV hl
      unfold alternating
      refine (verticalLength_spec rule hfilled hmLH (by omega) hl).bind fun x hx => ?_
      have hvertical := hl.write_vertical hx
      have hl' : (l.write .vertical v x).Known P LH LV m (v + 1) :=
        ⟨hvertical.horizontal, fun j hj => hvertical.vertical j (by omega)⟩
      refine (horizontalLength_spec rule hfilled (by omega) hmLH (by omega) hl').bind
        fun y hy => ?_
      obtain ⟨m, rfl⟩ : ∃ k, m = k + 1 := ⟨m - 1, by omega⟩
      have hindex : ((m + 1 : Nat) : Int) - 1 = m := by omega
      rw [hindex, show m + 1 - (v + 1) = m - v by omega]
      exact ih m _ (by omega) (by omega) (by omega) (hvertical.write_horizontal hy)

/-- Every level gets a length that obeys the rule. -/
theorem lengthWires_spec :
    Ends (Lengths.Known P LH LV 0 0) (fun _ => False) (lengthWires wire mat levels LH LV) := by
  unfold lengthWires
  have hnone : Lengths.Known P LH LV LH LV fun _ _ => none :=
    ⟨fun i hi hlt => absurd hlt (not_lt.mpr hi), fun j hj hlt => absurd hlt (not_lt.mpr hj)⟩
  refine (surplusVertical_spec rule LV _ le_rfl hnone).bind fun l hl => ?_
  refine (alternating_spec rule hfilled (min LV LH) LH l (min_le_right _ _) le_rfl
    (min_le_left _ _) hl).bind fun l hl => ?_
  exact surplusHorizontal_spec rule _ l (Nat.sub_le _ _) hl

omit rule in
theorem addTracks_ends (d : Direction) (size : K) :
    Ends (fun _ => True) (fun _ => False)
      (addTracks wire levels d (Direction.levels LH LV d) size) := by
  unfold addTracks
  refine Ends.foldlM (fun x _ i hi => ?_) trivial
  obtain ⟨w, hw⟩ := hfilled.read rfl (List.mem_range.mp hi)
  rw [hw]
  trivial

omit rule hfilled in
/-- The lengths of a valid bank obey the rule, unless its aspect ratio is illegal. -/
theorem BankWithHtree.CalculateArea_spec {b : BankWithHtree}
    (hfilled : b.levels.Filled b.levelHorizontal b.levelVertical)
    (rule : LengthRule wire mat b.levelHorizontal b.levelVertical P) (tsvRedundancy : K)
    (tsv : TSV K) :
    Ends (fun area : BankArea K =>
        area.lengthWire.Known P b.levelHorizontal b.levelVertical 0 0)
      (fun e => e = .invalid) (b.CalculateArea wire mat tsvRedundancy tsv) := by
  have himpossible : ∀ e : Abort, False → e = .invalid := fun _ => False.elim
  unfold BankWithHtree.CalculateArea
  refine ((addTracks_ends hfilled .horizontal _).mono (fun _ h => h) himpossible).bind
    fun height _ => ?_
  refine ((addTracks_ends hfilled .vertical _).mono (fun _ h => h) himpossible).bind
    fun width _ => ?_
  split
  · rfl
  · exact ((lengthWires_spec rule hfilled).mono (fun _ h => h) himpossible).bind fun l hl => hl

end

/-- Without repeaters the lengths are those of a complete tree. -/
theorem LengthRule.tree {wire : GlobalWire K} (hwire : wire.wireRepeaterType = .repeated_none)
    (mat : MatSize K) (LH LV : Nat) :
    LengthRule wire mat LH LV fun
      | .horizontal, i, x => x = treeLength mat.width LH i
      | .vertical, j, x => x = treeLength (mat.height / 2) LV j where
  horizontal_leaf i hi := (treeLength_last _ hi).symm
  vertical_leaf j hj := (treeLength_last _ hj).symm
  double
    | .horizontal, i, x, hi, hx => by
      subst hx
      exact (treeLength_double _ hi).symm
    | .vertical, j, x, hj, hx => by
      subst hx
      exact (treeLength_double _ hj).symm
  track d i x bits hx := by
    rw [wire.track_of_repeated_none hwire, zero_div, add_zero]
    exact hx

end

/-! ## Valid banks -/

/-- A valid bank has an entry for each of its levels. -/
theorem BankWithHtree.levels_filled {g : Globals} {a : BankArgs} {b : BankWithHtree}
    (h : BankWithHtree.Initialize g a = some b) :
    b.levels.Filled b.levelHorizontal b.levelVertical ∧
      b.levelHorizontal = WithHtree.levelHorizontal a ∧
      b.levelVertical = WithHtree.levelVertical a := by
  unfold BankWithHtree.Initialize at h
  split at h
  · cases h
  · split at h
    · cases h
    · next levels matArgs hroute =>
      split at h
      · cases h
      · obtain rfl := Option.some.inj h
        refine ⟨?_, rfl, rfl⟩
        have hlevels : Ends
            (fun t => t.Filled (WithHtree.levelHorizontal a) (WithHtree.levelVertical a))
            (fun _ : Abort => True)
            (Route.routeLevels (WithHtree.levelHorizontal a) (WithHtree.levelVertical a)
              (WithHtree.start a)) := routeLevels_filled (Route.Filled.start _ _ _ _ _)
        have hends : Ends (fun r => r.1.Filled (WithHtree.levelHorizontal a)
            (WithHtree.levelVertical a)) (fun _ : Abort => True) (WithHtree.route g a) := by
          unfold WithHtree.route
          refine hlevels.bind fun t ht => ?_
          have hfinish : Ends (fun _ => True) (fun _ : Abort => True)
              (t.finish (WithHtree.levelHorizontal a)) := by
            cases t.finish (WithHtree.levelHorizontal a) <;> trivial
          refine hfinish.bind fun u _ => ?_
          have hmat : Ends (fun _ => True) (fun _ : Abort => True) (WithHtree.toMat g a u) := by
            cases WithHtree.toMat g a u <;> trivial
          exact hmat.bind fun _ _ => ht
        exact hends.of_eq_ok hroute

/-- The lengths of a complete tree over `numColumnMat` columns and `numRowMat` rows. -/
structure BankArea.TreeLengths {K : Type} [Field K] (r : BankArea K) (mat : MatSize K)
    (levelHorizontal levelVertical numColumnMat numRowMat : Nat) (length : Direction → Nat → K) :
    Prop where
  horizontal : ∀ i < levelHorizontal, r.lengthWire .horizontal i = some (length .horizontal i)
  vertical : ∀ j < levelVertical, r.lengthWire .vertical j = some (length .vertical j)
  horizontal_double : ∀ i, i + 1 < levelHorizontal →
    length .horizontal i = 2 * length .horizontal (i + 1)
  vertical_double : ∀ j, j + 1 < levelVertical → length .vertical j = 2 * length .vertical (j + 1)
  horizontal_sum : ∑ i ∈ Finset.range levelHorizontal, length .horizontal i =
    mat.width * (numColumnMat - 1)
  vertical_sum : ∑ j ∈ Finset.range levelVertical, length .vertical j =
    mat.height * (numRowMat - 1) / 2

/-- Without repeaters, `CalculateArea` lays a complete tree, or finds the aspect ratio
    illegal. -/
theorem htree_wire_lengths {K : Type} [Field K] [LinearOrder K] [FloorRing K] {g : Globals}
    {a : BankArgs} {b : BankWithHtree} (hb : BankWithHtree.Initialize g a = some b)
    (hrow : a.numRowMat.isPowerOfTwo) (hcolumn : a.numColumnMat.isPowerOfTwo)
    {wire : GlobalWire K} (hwire : wire.wireRepeaterType = .repeated_none) (mat : MatSize K)
    (tsvRedundancy : K) (tsv : TSV K) :
    Ends (fun r : BankArea K => ∃ length, r.TreeLengths mat b.levelHorizontal b.levelVertical
        a.numColumnMat a.numRowMat length)
      (fun e => e = .invalid) (b.CalculateArea wire mat tsvRedundancy tsv) := by
  obtain ⟨hfilled, hLH, hLV⟩ := BankWithHtree.levels_filled hb
  obtain ⟨m, hm⟩ := hcolumn
  obtain ⟨n, hn⟩ := hrow
  have hm' : b.levelHorizontal = m := by
    rw [hLH, WithHtree.levelHorizontal, hm, truncLog2_natCast_two_pow, Int.toNat_natCast]
  have hn' : b.levelVertical = n := by
    rw [hLV, WithHtree.levelVertical, hn, truncLog2_natCast_two_pow, Int.toNat_natCast]
  refine (BankWithHtree.CalculateArea_spec hfilled
    (LengthRule.tree hwire mat b.levelHorizontal b.levelVertical) tsvRedundancy tsv).mono
    (fun area hlength => ?_) fun _ h => h
  -- the lengths are halvings of the width, and of half the height
  refine ⟨fun
    | .horizontal => treeLength mat.width b.levelHorizontal
    | .vertical => treeLength (mat.height / 2) b.levelVertical, ?_⟩
  exact
    { horizontal := fun i hi => by
        obtain ⟨x, hx, rfl⟩ := hlength.horizontal i (Nat.zero_le i) hi
        exact hx
      vertical := fun j hj => by
        obtain ⟨x, hx, rfl⟩ := hlength.vertical j (Nat.zero_le j) hj
        exact hx
      horizontal_double := fun i hi => by
        rw [mul_comm]
        exact treeLength_double _ hi
      vertical_double := fun j hj => by
        rw [mul_comm]
        exact treeLength_double _ hj
      horizontal_sum := by
        rw [sum_treeLength, hm', hm]
        push_cast
        rfl
      vertical_sum := by
        rw [sum_treeLength, hn', hn]
        push_cast
        ring }

/-- The wire and the mats of a small bank. -/
def plainWire : GlobalWire ℚ where
  wireRepeaterType := .repeated_none
  repeaterSpacing := 0
  repeaterHeight := 0
  repeatedWirePitch := 0
  CalculateLatencyAndPower length := ⟨length, length, 1⟩

theorem htree_wire_lengths_two_by_two :
    ∃ b r length, BankWithHtree.Initialize sramGlobals twoByTwoBank = some b ∧
      b.CalculateArea plainWire ⟨1, 1⟩ 1 freshTSV = .ok r ∧
      r.TreeLengths ⟨1, 1⟩ b.levelHorizontal b.levelVertical 2 2 length := by
  have hruns : ((BankWithHtree.Initialize sramGlobals twoByTwoBank).bind fun b =>
      (b.CalculateArea plainWire ⟨1, 1⟩ 1 freshTSV).toOption).isSome = true := by decide +kernel
  obtain ⟨r, hr⟩ := Option.isSome_iff_exists.mp hruns
  obtain ⟨b, hb, hr⟩ := Option.bind_eq_some_iff.mp hr
  have hends := htree_wire_lengths hb ⟨1, rfl⟩ ⟨1, rfl⟩
    (show plainWire.wireRepeaterType = .repeated_none from rfl) ⟨1, 1⟩ 1 freshTSV
  cases harea : b.CalculateArea plainWire ⟨1, 1⟩ 1 freshTSV with
  | error e =>
      rw [harea] at hr
      cases hr
  | ok r' =>
      obtain ⟨length, hlength⟩ := hends.of_eq_ok harea
      exact ⟨b, r', length, hb, harea, hlength⟩

end Destiny
