/-
  Destiny.Bank.WireCount

  The parallel wires of an H-tree level, `numHorizontalWire` and
  `numVerticalWire`.

  A level of one direction is repeated once for every branch that the levels of
  the other direction have opened before it.  The recursion keeps the number of
  branches in the running products `hTemp` and `vTemp`; `Route.Counted` relates
  them to the levels placed so far, and every loop keeps it.  The products agree
  with the branches but for `levelHorizontal == 2`, where the vertical levels
  read `vTemp` before the last horizontal level has doubled it.
-/

import Destiny.Bank.WireLength

namespace Destiny

open Lib

/-! ## Levels placed before a level -/

/-- The levels whose branches multiply the wires of a direction: those of the
    other direction, the root aside. -/
def Direction.crosses : Direction → Placement → Bool
  | .horizontal, e => e.direction = .vertical
  | .vertical, e => e.direction = .horizontal ∧ e.index ≠ 0

/-- The levels placed before level `i` of a direction. -/
def Route.before (s : Route) (d : Direction) (i : Int) : List Placement :=
  s.placed.takeWhile fun e => ¬ (e.direction = d ∧ e.index = i)

/-- Every level has two to the number of the crossing levels before it as its
    number of wires. -/
def Route.Parallel (levelHorizontal levelVertical : Nat) (s : Route) : Prop :=
  ∀ (d : Direction) (i : Nat), i < d.levels levelHorizontal levelVertical →
    ∃ w, s.wires d i = some w ∧ w.numWire = 2 ^ (s.before d i).countP d.crosses

/-! ## Closed forms -/

/-- How many crossing levels come before level `i`, when the surplus levels of
    the longer direction come first and the others alternate. -/
def Direction.levelsAcross (levelHorizontal levelVertical : Nat) : Direction → Nat → Nat
  | .horizontal, i => if i = 0 then 0 else i + levelVertical - levelHorizontal
  | .vertical, j => j + levelHorizontal - levelVertical

/-- The number of wires the recursion gives level `i`. -/
def Direction.wireCount (levelHorizontal levelVertical : Nat) (d : Direction) (i : Nat) : Nat :=
  match d with
  | .horizontal => 2 ^ d.levelsAcross levelHorizontal levelVertical i
  | .vertical =>
      if levelHorizontal = 2 then 2 ^ (d.levelsAcross levelHorizontal levelVertical i - 1)
      else 2 ^ d.levelsAcross levelHorizontal levelVertical i

/-- The crossing levels among `c` horizontal (root included) and `r` vertical ones. -/
def Direction.crossing (c r : Nat) : Direction → Nat
  | .horizontal => r
  | .vertical => c - 1

/-! ## The invariant -/

/-- Elements after one that ends the prefix do not change it. -/
theorem takeWhile_append_of_stop {α : Type} {p : α → Bool} {l : List α} (l' : List α)
    (h : ∃ e ∈ l, p e = false) : (l ++ l').takeWhile p = l.takeWhile p := by
  induction l with
  | nil =>
      obtain ⟨e, he, -⟩ := h
      exact absurd he List.not_mem_nil
  | cons a l ih =>
      rw [List.cons_append, List.takeWhile_cons, List.takeWhile_cons]
      split
      · next ha =>
        obtain ⟨e, he, hstop⟩ := h
        rcases List.mem_cons.mp he with rfl | he
        · rw [ha] at hstop
          exact absurd hstop (by decide)
        · rw [ih ⟨e, he, hstop⟩]
      · rfl

/-- The state with `c` horizontal levels (root included) and `r` vertical ones. -/
structure Route.Counted (LH LV c r : Nat) (s : Route) : Prop where
  index : ∀ e ∈ s.placed, e.index < e.direction.levels c r
  crossing : ∀ d : Direction, s.placed.countP d.crosses = d.crossing c r
  placed : ∀ (d : Direction) (i : Nat), i < d.levels c r →
    ∃ e ∈ s.placed, e.direction = d ∧ e.index = i
  before : ∀ (d : Direction) (i : Nat), i < d.levels c r →
    (s.before d i).countP d.crosses = d.levelsAcross LH LV i
  wires : ∀ (d : Direction) (i : Nat), i < d.levels c r →
    ∃ w, s.wires d i = some w ∧ w.numWire = d.wireCount LH LV i

section
variable {s : Route} {LH LV c r : Nat}

theorem Route.Counted.start (A : Int) (D B p q : Nat) :
    (Route.start A D B p q).Counted LH LV 0 0 where
  index e he := absurd he List.not_mem_nil
  crossing d := by cases d <;> rfl
  placed d i hi := by cases d <;> exact absurd hi (Nat.not_lt_zero _)
  before d i hi := by cases d <;> exact absurd hi (Nat.not_lt_zero _)
  wires d i hi := by cases d <;> exact absurd hi (Nat.not_lt_zero _)

/-- Scratch counters do not matter. -/
theorem Route.Counted.with_temps (h : s.Counted LH LV c r) (x y : Nat) :
    ({ s with hTemp := x, vTemp := y } : Route).Counted LH LV c r :=
  ⟨h.index, h.crossing, h.placed, h.before, h.wires⟩

/-- No level is placed yet at the first free index. -/
theorem Route.Counted.next_free (h : s.Counted LH LV c r) (d : Direction) :
    ∀ e ∈ s.placed, ¬ (e.direction = d ∧ e.index = (d.levels c r : Nat)) := by
  rintro e he ⟨rfl, hidx⟩
  have hlt := h.index e he
  rw [hidx] at hlt
  exact lt_irrefl _ hlt

/-- A level placed later does not come before one that is there already. -/
theorem Route.before_place {d' : Direction} {i' : Int}
    (h : ∃ e ∈ s.placed, e.direction = d' ∧ e.index = i') (d : Direction) (i : Int) (n a b : Nat) :
    (s.place d i n a b).before d' i' = s.before d' i' := by
  obtain ⟨e, he, hdir, hidx⟩ := h
  exact takeWhile_append_of_stop _ ⟨e, he, decide_eq_false (not_not_intro ⟨hdir, hidx⟩)⟩

/-- The level placed last comes after all others. -/
theorem Route.Counted.before_place_self (h : s.Counted LH LV c r) (d : Direction) (n a b : Nat) :
    (s.place d (d.levels c r : Nat) n a b).before d (d.levels c r : Nat) = s.placed := by
  show (s.placed ++ [_]).takeWhile _ = s.placed
  rw [List.takeWhile_append_of_pos fun e he => decide_eq_true (h.next_free d e he),
    List.takeWhile_cons_of_neg, List.append_nil]
  -- the new level itself ends the prefix
  simp

/-- A placed index is an older one or the new one. -/
theorem Direction.lt_levels_succ {d d' : Direction} {i : Nat}
    (h : i < d'.levels (d.columns c) (d.rows r)) :
    i < d'.levels c r ∨ (d' = d ∧ i = d.levels c r) := by
  cases d <;> cases d' <;> simp only [levels, columns, rows] at h ⊢ <;> simp <;> omega

theorem Direction.levels_le (d d' : Direction) :
    d'.levels c r ≤ d'.levels (d.columns c) (d.rows r) := by
  cases d <;> cases d' <;> simp only [levels, columns, rows] <;> omega

theorem Direction.levels_lt (d : Direction) : d.levels c r < d.levels (d.columns c) (d.rows r) := by
  cases d <;> exact Nat.lt_succ_self _

/-- A level after the root crosses those of the other direction. -/
theorem Direction.crossing_succ (d d' : Direction) (k : Bool) (hroot : d = .horizontal → 0 < c) :
    d'.crossing (d.columns c) (d.rows r) =
      d'.crossing c r + if d'.crosses ⟨d, (d.levels c r : Nat), k⟩ = true then 1 else 0 := by
  cases d <;> cases d' <;> simp [crossing, crosses, columns, rows, levels]
  have hc := hroot rfl
  split <;> omega

/-- A level with the wire count and the crossing levels of the closed forms keeps
    the invariant. -/
theorem Route.Counted.place (h : s.Counted LH LV c r) (d : Direction)
    (hroot : d = .horizontal → 0 < c)
    (hacross : d.crossing c r = d.levelsAcross LH LV (d.levels c r)) (a b : Nat) :
    (s.place d (d.levels c r : Nat) (d.wireCount LH LV (d.levels c r)) a b).Counted LH LV
      (d.columns c) (d.rows r) where
  index e he := by
    rcases List.mem_append.mp he with he | he
    · have hlt := h.index e he
      have hle := Direction.levels_le (c := c) (r := r) d e.direction
      omega
    · obtain rfl := List.mem_singleton.mp he
      exact Int.ofNat_lt.mpr d.levels_lt
  crossing d' := by
    show (s.placed ++ [_]).countP d'.crosses = _
    rw [List.countP_append, h.crossing, List.countP_singleton]
    exact (d.crossing_succ d' _ hroot).symm
  placed d' i hi := by
    rcases Direction.lt_levels_succ hi with hold | ⟨rfl, rfl⟩
    · obtain ⟨e, he, hat⟩ := h.placed d' i hold
      exact ⟨e, List.mem_append_left _ he, hat⟩
    · exact ⟨_, List.mem_append_right _ (List.mem_singleton.mpr rfl), rfl, rfl⟩
  before d' i hi := by
    rcases Direction.lt_levels_succ hi with hold | ⟨rfl, rfl⟩
    · rw [Route.before_place (h.placed d' i hold)]
      exact h.before d' i hold
    · rw [h.before_place_self, h.crossing, hacross]
  wires d' i hi := by
    rcases Direction.lt_levels_succ hi with hold | ⟨rfl, rfl⟩
    · have hne : ¬ (d' = d ∧ (i : Int) = (d.levels c r : Nat)) := by
        rintro ⟨rfl, hidx⟩
        omega
      rw [Route.place_wires_of_ne s _ _ _ hne]
      exact h.wires d' i hold
    · exact ⟨_, Route.place_wires_self s _ _ _ _ _, rfl⟩

/-! ## One level -/

/-- One level keeps the invariant, whatever its predecessor is. -/
theorem Route.Counted.level_spec (h : s.Counted LH LV c r) (d : Direction) {i : Int}
    (hi : i = (d.levels c r : Nat)) (hroot : d = .horizontal → 0 < c)
    (predecessor : Option (Direction × Int)) (numWire : Nat)
    (hwire : numWire = d.wireCount LH LV (d.levels c r))
    (hacross : d.crossing c r = d.levelsAcross LH LV (d.levels c r)) :
    Ends (fun t => t.Counted LH LV (d.columns c) (d.rows r) ∧ t.hTemp = s.hTemp ∧
        t.vTemp = s.vTemp) (fun _ : Abort => True) (s.level d i predecessor numWire) := by
  subst hi hwire
  refine (s.level_placed d _ predecessor _).mono ?_ fun _ _ => trivial
  rintro t ⟨a, b, rfl⟩
  exact ⟨h.place d hroot hacross a b, rfl, rfl⟩

theorem rootHorizontal_counted (A : Int) (D B p q : Nat) :
    Ends (fun t => t.Counted LH LV (rootLevels LH) 0 ∧ t.hTemp = 1 ∧ t.vTemp = 1)
      (fun _ : Abort => True) (Route.rootHorizontal LH (Route.start A D B p q)) := by
  unfold Route.rootHorizontal rootLevels
  split
  · refine (check_ends _).bind fun _ _ => ⟨⟨?_, ?_, ?_, ?_, ?_⟩, rfl, rfl⟩
    · intro e he
      obtain rfl := List.mem_singleton.mp he
      exact Int.zero_lt_one
    · intro d
      cases d <;> rfl
    · intro d i hi
      cases d with
      | horizontal =>
          obtain rfl := Nat.lt_one_iff.mp hi
          exact ⟨_, List.mem_singleton.mpr rfl, rfl, rfl⟩
      | vertical => exact absurd hi (Nat.not_lt_zero _)
    · intro d i hi
      cases d with
      | horizontal =>
          obtain rfl := Nat.lt_one_iff.mp hi
          rfl
      | vertical => exact absurd hi (Nat.not_lt_zero _)
    · intro d i hi
      cases d with
      | horizontal =>
          obtain rfl := Nat.lt_one_iff.mp hi
          refine ⟨⟨A, D, B, 1, 1, 1⟩, ?_, rfl⟩
          simp only [Route.write, Nat.cast_zero, and_self, if_true]
          rfl
      | vertical => exact absurd hi (Nat.not_lt_zero _)
  · exact ⟨Route.Counted.start A D B p q, rfl, rfl⟩

/-! ## The loops -/

/-- Surplus horizontal levels have one wire, and `vTemp` counts them. -/
theorem reduceHorizontal_counted :
    ∀ (h c : Nat) (s : Route), h + c = LH → c = 0 ∨ s.vTemp = 2 ^ (c - 1) → s.hTemp = 1 →
      (0 < h → 0 < c) → s.Counted LH LV c 0 →
      Ends (fun t => t.Counted LH LV (LH - min h LV) 0 ∧ t.hTemp = 1 ∧
          (LH - min h LV = 0 ∨ t.vTemp = 2 ^ (LH - min h LV - 1)))
        (fun _ : Abort => True) (Route.reduceHorizontal LH LV h s) := by
  intro h
  induction h with
  | zero =>
      intro c s hc hv hh _ hs
      rw [show LH - min 0 LV = c by omega]
      exact ⟨hs, hh, hv⟩
  | succ h ih =>
      intro c s hc hv hh hpos hs
      have hcpos : 0 < c := hpos (Nat.succ_pos h)
      unfold Route.reduceHorizontal
      split
      · next hlt =>
        have hacross : Direction.horizontal.levelsAcross LH LV c = 0 := by
          show (if c = 0 then 0 else c + LV - LH) = 0
          split <;> omega
        have hlevel := hs.level_spec .horizontal (i := LH - ((h + 1 : Nat) : Int))
          (show _ = ((c : Nat) : Int) by omega) (fun _ => hcpos)
          (some (.horizontal, LH - ((h + 1 : Nat) : Int) - 1)) 1
          (show 1 = 2 ^ Direction.horizontal.levelsAcross LH LV c by rw [hacross, pow_zero])
          hacross.symm
        refine hlevel.bind fun t ht => ?_
        have hdouble : t.vTemp * 2 = 2 ^ (c + 1 - 1) := by
          rw [ht.2.2, hv.resolve_left (by omega), ← pow_succ]
          congr 1
          omega
        have hnext := ih (c + 1) { t with vTemp := t.vTemp * 2 } (by omega) (.inr hdouble)
          (ht.2.1.trans hh) (fun _ => Nat.succ_pos c) (ht.1.with_temps _ _)
        rw [show min (h + 1) LV = min h LV by omega]
        exact hnext
      · rw [show LH - min (h + 1) LV = c by omega]
        exact ⟨hs, hh, hv⟩

/-- Surplus vertical levels have one wire, and `hTemp` counts them: no horizontal
    level but the root comes before them. -/
theorem reduceVertical_counted (h c : Nat) :
    ∀ (v r : Nat) (s : Route), v + r = LV → s.hTemp = 2 ^ r → (h < v → c ≤ 1 ∧ LH ≤ h + 1) →
      s.Counted LH LV c r →
      Ends (fun t => t.Counted LH LV c (LV - min v h) ∧ t.hTemp = 2 ^ (LV - min v h) ∧
          t.vTemp = s.vTemp)
        (fun _ : Abort => True) (Route.reduceVertical LV h v s) := by
  intro v
  induction v with
  | zero =>
      intro r s hr hh _ hs
      rw [show LV - min 0 h = r by omega]
      exact ⟨hs, hh, rfl⟩
  | succ v ih =>
      intro r s hr hh hfirst hs
      unfold Route.reduceVertical
      split
      · next hlt =>
        obtain ⟨hc, hLH⟩ := hfirst hlt
        have hacross : Direction.vertical.levelsAcross LH LV r = 0 := by
          show r + LH - LV = 0
          omega
        have hwire : 1 = Direction.vertical.wireCount LH LV r := by
          simp only [Direction.wireCount, hacross, Nat.zero_sub, pow_zero, ite_self]
        have hlevel := hs.level_spec .vertical (i := LV - ((v + 1 : Nat) : Int))
          (show _ = ((r : Nat) : Int) by omega) (fun hne => absurd hne (by decide))
          (if v + 1 = LV then none else some (.vertical, LV - ((v + 1 : Nat) : Int) - 1)) 1
          hwire (show c - 1 = Direction.vertical.levelsAcross LH LV r by omega)
        refine hlevel.bind fun t ht => ?_
        have hdouble : t.hTemp * 2 = 2 ^ (r + 1) := by rw [ht.2.1, hh, pow_succ]
        have hnext := ih (r + 1) { t with hTemp := t.hTemp * 2 } (by omega) hdouble
          (by omega) (ht.1.with_temps _ _)
        rw [show min (v + 1) h = min v h by omega]
        exact hnext.mono (fun u hu => ⟨hu.1, hu.2.1, hu.2.2.trans ht.2.2⟩) fun _ _ => trivial
      · rw [show LV - min (v + 1) h = r by omega]
        exact ⟨hs, hh, rfl⟩

/-- Where levels alternate, `hTemp` counts the vertical and `vTemp` the horizontal
    levels placed; the vertical level comes right after a horizontal one. -/
theorem interleave_counted :
    ∀ (h c r : Nat) (v : Int) (s : Route), h + c = LH → v = h → h + r = LV → (0 < h → 0 < c) →
      s.hTemp = 2 ^ r → c = 0 ∨ s.vTemp = 2 ^ (c - 1) → s.Counted LH LV c r →
      Ends (fun t => t.Counted LH LV LH LV) (fun _ : Abort => True)
        (Route.interleave LH LV h v s) := by
  intro h
  -- on the horizontal levels left
  induction h with
  | zero =>
      intro c r v s hc _ hr _ _ _ hs
      obtain rfl : c = LH := by omega
      obtain rfl : r = LV := by omega
      exact hs
  | succ h ih =>
      intro c r v s hc hv hr hpos hh hvt hs
      have hcpos : 0 < c := hpos (Nat.succ_pos h)
      have hvt := hvt.resolve_left (by omega)
      unfold Route.interleave
      have hacross : r = Direction.horizontal.levelsAcross LH LV c := by
        show r = if c = 0 then 0 else c + LV - LH
        rw [if_neg (by omega)]
        omega
      have hcolumn := hs.level_spec .horizontal (i := LH - ((h + 1 : Nat) : Int))
        (show _ = ((c : Nat) : Int) by omega) (fun _ => hcpos)
        (some (if v = LV then (.horizontal, LH - ((h + 1 : Nat) : Int) - 1)
          else (.vertical, LV - v - 1))) s.hTemp
        (show s.hTemp = 2 ^ Direction.horizontal.levelsAcross LH LV c by rw [← hacross, hh])
        hacross
      refine hcolumn.bind fun t ht => ?_
      have hacross' : c = Direction.vertical.levelsAcross LH LV r := by
        show c = r + LH - LV
        omega
      -- with two horizontal levels the source does not double `vTemp`
      have hwire : (if LH = 2 then t.vTemp else 2 * t.vTemp) =
          Direction.vertical.wireCount LH LV r := by
        simp only [Direction.wireCount, ← hacross', ht.2.2, hvt]
        rw [← pow_succ', Nat.sub_add_cancel hcpos]
      have hrow := ht.1.level_spec .vertical (i := LV - v)
        (show _ = ((r : Nat) : Int) by omega) (fun hne => absurd hne (by decide))
        (some (.horizontal, LH - ((h + 1 : Nat) : Int))) _ hwire hacross'
      refine hrow.bind fun u hu => ?_
      refine ih (c + 1) (r + 1) (v - 1) _ (by omega) (by omega) (by omega)
        (fun _ => Nat.succ_pos c) ?_ (.inr ?_) (hu.1.with_temps _ _)
      · show u.hTemp * 2 = 2 ^ (r + 1)
        rw [hu.2.1, ht.2.1, hh, pow_succ]
      · show u.vTemp * 2 = 2 ^ (c + 1 - 1)
        rw [hu.2.2, ht.2.2, hvt, ← pow_succ]
        congr 1
        omega

/-- A completed recursion has the wire counts of the closed forms. -/
theorem routeLevels_counted (A : Int) (D B p q : Nat) :
    Ends (fun t => t.Counted LH LV LH LV) (fun _ : Abort => True)
      (Route.routeLevels LH LV (Route.start A D B p q)) := by
  unfold Route.routeLevels
  have hfirst : Ends (fun t => t.Counted LH LV (rootLevels LH) 0 ∧ t.hTemp = 1 ∧ t.vTemp = 1)
      (fun _ : Abort => True) (Route.rootHorizontal LH (Route.start A D B p q)) :=
    rootHorizontal_counted A D B p q
  refine hfirst.bind fun t ht => ?_
  have hroot : LH - 1 + rootLevels LH = LH := by unfold rootLevels; split <;> omega
  have hone : rootLevels LH - 1 = 0 := by unfold rootLevels; split <;> rfl
  refine (reduceHorizontal_counted (LH - 1) _ t hroot (.inr (by rw [hone, ht.2.2, pow_zero]))
    ht.2.1 (by omega) ht.1).bind fun u hu => ?_
  refine (reduceVertical_counted _ _ LV 0 u (by omega) (by rw [hu.2.1, pow_zero]) (by omega)
    hu.1).bind fun w hw => ?_
  rw [show LV - min LV (min (LH - 1) LV) = LV - min (LH - 1) LV by omega] at hw
  refine interleave_counted _ _ _ _ w (by omega) rfl (by omega) (by omega) hw.2.1 ?_ hw.1
  rw [hw.2.2]
  exact hu.2.2

/-! ## Wires in parallel -/

/-- The closed forms give every level its parallel wires unless two horizontal
    levels meet a vertical one. -/
theorem Route.Counted.parallel_iff (h : s.Counted LH LV LH LV) :
    s.Parallel LH LV ↔ (LH = 2 → LV = 0) := by
  constructor
  · intro hparallel hLH
    subst hLH
    by_contra hLV
    -- the last vertical level has one crossing level before it
    have hlast : LV - 1 < Direction.vertical.levels 2 LV := by
      show LV - 1 < LV
      omega
    have hacross : Direction.vertical.levelsAcross 2 LV (LV - 1) = 1 := by
      show LV - 1 + 2 - LV = 1
      omega
    obtain ⟨w, hw, hcount⟩ := hparallel .vertical (LV - 1) hlast
    obtain ⟨w', hw', hwire⟩ := h.wires .vertical (LV - 1) hlast
    obtain rfl : w = w' := Option.some.inj (hw.symm.trans hw')
    rw [h.before .vertical (LV - 1) hlast, hwire, Direction.wireCount, hacross] at hcount
    exact absurd hcount (by decide)
  · intro hshape d i hi
    obtain ⟨w, hw, hwire⟩ := h.wires d i hi
    refine ⟨w, hw, ?_⟩
    rw [h.before d i hi, hwire]
    cases d with
    | horizontal => rfl
    | vertical =>
        unfold Direction.wireCount
        have hLH : LH ≠ 2 := by
          intro hLH
          rw [show Direction.vertical.levels LH LV = LV from rfl, hshape hLH] at hi
          exact absurd hi (Nat.not_lt_zero i)
        rw [if_neg hLH]

end

/-- Over every power-of-two shape, a completed recursion gives every level its
    parallel wires exactly when four columns come with a single row. -/
theorem htree_parallel_wires_iff {numRowMat numColumnMat : ℕ} (hrow : numRowMat.isPowerOfTwo)
    (hcolumn : numColumnMat.isPowerOfTwo) (A : ℤ) (D B activePerRow activePerColumn : ℕ)
    {s : Route}
    (hs : Route.routeLevels (truncLog2 (numColumnMat : ℚ)).toNat
      (truncLog2 (numRowMat : ℚ)).toNat
      (Route.start A D B activePerColumn activePerRow) = .ok s) :
    s.Parallel (truncLog2 (numColumnMat : ℚ)).toNat (truncLog2 (numRowMat : ℚ)).toNat ↔
      (numColumnMat = 4 → numRowMat = 1) := by
  obtain ⟨LV, rfl⟩ := hrow
  obtain ⟨LH, rfl⟩ := hcolumn
  simp only [truncLog2_natCast_two_pow, Int.toNat_natCast] at hs ⊢
  have hcounted := (routeLevels_counted A D B activePerColumn activePerRow).of_eq_ok hs
  rw [hcounted.parallel_iff]
  have hfour : LH = 2 ↔ 2 ^ LH = 4 :=
    ⟨fun h => by rw [h]; rfl, fun h => Nat.pow_right_injective (le_refl 2) h⟩
  have hone : LV = 0 ↔ 2 ^ LV = 1 :=
    ⟨fun h => by rw [h]; rfl, fun h => Nat.pow_right_injective (le_refl 2) h⟩
  rw [hfour, hone]

/-- Two rows of two columns: one vertical level behind the horizontal ones. -/
theorem htree_parallel_wires_two_by_two :
    ∃ s, Route.routeLevels 1 1 (Route.start 4 8 1 1 1) = .ok s ∧ s.Parallel 1 1 := by
  have htwo : (truncLog2 ((2 : ℕ) : ℚ)).toNat = 1 := by
    rw [show (2 : ℕ) = 2 ^ 1 from rfl, truncLog2_natCast_two_pow]
    rfl
  refine ⟨_, rfl, ?_⟩
  have hiff := htree_parallel_wires_iff (show (2 : ℕ).isPowerOfTwo from ⟨1, rfl⟩)
    (show (2 : ℕ).isPowerOfTwo from ⟨1, rfl⟩) 4 8 1 1 1 (by rw [htwo]; rfl)
  rw [htwo] at hiff
  exact hiff.mpr (by decide)

/-- Two rows of four columns: the vertical level follows a horizontal one and
    still has a single wire. -/
theorem htree_two_rows_four_columns :
    ¬ ∀ (numRowMat numColumnMat : ℕ), numRowMat.isPowerOfTwo → numColumnMat.isPowerOfTwo →
      ∀ (A : ℤ) (D B activePerRow activePerColumn : ℕ) (s : Route),
        Route.routeLevels (truncLog2 (numColumnMat : ℚ)).toNat (truncLog2 (numRowMat : ℚ)).toNat
          (Route.start A D B activePerColumn activePerRow) = .ok s →
        s.Parallel (truncLog2 (numColumnMat : ℚ)).toNat (truncLog2 (numRowMat : ℚ)).toNat := by
  intro hall
  have htwo : (truncLog2 ((2 : ℕ) : ℚ)).toNat = 1 := by
    rw [show (2 : ℕ) = 2 ^ 1 from rfl, truncLog2_natCast_two_pow]
    rfl
  have hfour : (truncLog2 ((4 : ℕ) : ℚ)).toNat = 2 := by
    rw [show (4 : ℕ) = 2 ^ 2 from rfl, truncLog2_natCast_two_pow]
    rfl
  have hparallel := hall 2 4 ⟨1, rfl⟩ ⟨2, rfl⟩ 5 8 1 1 1 _ (by rw [htwo, hfour]; rfl)
  rw [htwo, hfour] at hparallel
  obtain ⟨w, hw, hcount⟩ := hparallel .vertical 0 Nat.zero_lt_one
  -- the vertical wires are read before the horizontal level has doubled them
  have hone : w.numWire = 1 := by
    injection hw with hw
    rw [← hw]
    rfl
  rw [hone] at hcount
  exact absurd hcount (by decide)

end Destiny
