/-
  Destiny.Bank.Levels

  What the level recursion computes over powers of two.

  With `2^p` columns and `2^q` rows of active mats, the bits left after `c`
  horizontal and `r` vertical steps have a closed form, `RouteBits.after`; the
  wire counts of a level are powers of two of the number of levels before it.
  `Accounted c r` collects this for the whole state.  `level_spec` shows that
  one level keeps it, and the specs of the loops follow by induction on the
  loop variable.
-/

import Destiny.Bank.Htree

namespace Destiny

open Lib

/-! ## Closed form of the bits -/

/-- The bits left after `c` horizontal and `r` vertical steps: the first `p`
    and `q` of them split the data bits, the others spend address bits. -/
def RouteBits.after (A : Int) (D p q c r : Nat) : RouteBits where
  numAddressBitToRoute := A - ((c - p + (r - q) : Nat) : Int)
  numDataDistributeBitToRoute := D / 2 ^ (min c p + min r q)
  rowToActive := 2 ^ (q - r)
  columnToActive := 2 ^ (p - c)

/-- The horizontal steps after one more level in a direction. -/
def Direction.columns (c : Nat) : Direction → Nat
  | .horizontal => c + 1
  | .vertical => c

/-- The vertical steps after one more level in a direction. -/
def Direction.rows (r : Nat) : Direction → Nat
  | .horizontal => r
  | .vertical => r + 1

section
variable {A : Int} {D B p q c r : Nat}

theorem RouteBits.after_zero : RouteBits.after A D p q 0 0 = ⟨A, D, 2 ^ q, 2 ^ p⟩ := by
  simp [RouteBits.after]

theorem RouteBits.one_lt_columnToActive_after :
    1 < (RouteBits.after A D p q c r).columnToActive ↔ c < p := by
  change 1 < 2 ^ (p - c) ↔ c < p
  rw [Nat.one_lt_two_pow_iff]
  omega

theorem RouteBits.one_lt_rowToActive_after :
    1 < (RouteBits.after A D p q c r).rowToActive ↔ r < q := by
  change 1 < 2 ^ (q - r) ↔ r < q
  rw [Nat.one_lt_two_pow_iff]
  omega

/-- Halving a quotient by a power of two raises the power. -/
theorem div_two_pow_div_two (D n : Nat) : D / 2 ^ n / 2 = D / 2 ^ (n + 1) := by
  rw [Nat.div_div_eq_div_mul, pow_succ]

theorem two_pow_div_two {n : Nat} (h : 0 < n) : 2 ^ n / 2 = 2 ^ (n - 1) := by
  obtain ⟨m, rfl⟩ := Nat.exists_eq_succ_of_ne_zero h.ne'
  rw [pow_succ, Nat.mul_div_cancel _ two_pos, Nat.succ_eq_add_one, Nat.add_sub_cancel]

/-- One step in a direction moves the closed form by one. -/
theorem RouteBits.take_after (d : Direction) :
    (RouteBits.after A D p q c r).take d =
      RouteBits.after A D p q (d.columns c) (d.rows r) := by
  -- a level takes a data bit while mats of its direction are active, and an address bit after
  cases d with
  | horizontal =>
      by_cases h : c < p
      · rw [RouteBits.take, if_pos (one_lt_columnToActive_after.mpr h)]
        simp only [RouteBits.after, Direction.columns, Direction.rows, div_two_pow_div_two,
          two_pow_div_two (show 0 < p - c by omega)]
        have h1 : c - p = c + 1 - p := by omega
        have h2 : min c p + min r q + 1 = min (c + 1) p + min r q := by omega
        have h3 : p - c - 1 = p - (c + 1) := by omega
        rw [h1, h2, h3]
      · rw [RouteBits.take, if_neg (mt one_lt_columnToActive_after.mp h)]
        simp only [RouteBits.after, Direction.columns, Direction.rows]
        have h1 : c + 1 - p + (r - q) = c - p + (r - q) + 1 := by omega
        have h2 : min c p = min (c + 1) p := by omega
        have h3 : p - c = p - (c + 1) := by omega
        rw [h1, h2, h3, Nat.cast_succ, sub_add_eq_sub_sub]
  | vertical =>
      by_cases h : r < q
      · rw [RouteBits.take, if_pos (one_lt_rowToActive_after.mpr h)]
        simp only [RouteBits.after, Direction.columns, Direction.rows, div_two_pow_div_two,
          two_pow_div_two (show 0 < q - r by omega)]
        have h1 : r - q = r + 1 - q := by omega
        have h2 : min c p + min r q + 1 = min c p + min (r + 1) q := by omega
        have h3 : q - r - 1 = q - (r + 1) := by omega
        rw [h1, h2, h3]
      · rw [RouteBits.take, if_neg (mt one_lt_rowToActive_after.mp h)]
        simp only [RouteBits.after, Direction.columns, Direction.rows]
        have h1 : c - p + (r + 1 - q) = c - p + (r - q) + 1 := by omega
        have h2 : min r q = min (r + 1) q := by omega
        have h3 : q - r = q - (r + 1) := by omega
        rw [h1, h2, h3, Nat.cast_succ, sub_add_eq_sub_sub]

/-- A step counts as a data split exactly when the number of splits grows. -/
theorem RouteBits.split_after (d : Direction) :
    (if (RouteBits.after A D p q c r).split d = true then 1 else 0) + (min c p + min r q) =
      min (d.columns c) p + min (d.rows r) q := by
  cases d with
  | horizontal =>
      have h : (RouteBits.after A D p q c r).split .horizontal = true ↔ c < p := by
        rw [RouteBits.split, decide_eq_true_eq, one_lt_columnToActive_after]
      simp only [h, Direction.columns, Direction.rows]
      split <;> omega
  | vertical =>
      have h : (RouteBits.after A D p q c r).split .vertical = true ↔ r < q := by
        rw [RouteBits.split, decide_eq_true_eq, one_lt_rowToActive_after]
      simp only [h, Direction.columns, Direction.rows]
      split <;> omega

end

/-! ## The account of a state -/

/-- `levelHorizontal > 0`, as the number of root entries. -/
def rootLevels (levelHorizontal : Nat) : Nat := if 0 < levelHorizontal then 1 else 0

/-- The number of levels among `es` at which a data split was activated. -/
def numSplits (es : List Placement) : Nat := es.countP (·.split)

/-- The entry `w` of a level placed with `n` levels (root included) and `k` data
    splits up to and including it. -/
structure WireLevel.Accounts (D B root n k : Nat) (w : WireLevel) : Prop where
  numSumWire : w.numSumWire = 2 ^ (n - root)
  numActiveWire : w.numActiveWire = 2 ^ k
  numDataDistributeBitToRoute : w.numDataDistributeBitToRoute = D / 2 ^ k
  numDataBroadcastBitToRoute : w.numDataBroadcastBitToRoute = B

/-- The state after the root, `c` horizontal and `r` vertical levels. -/
structure Route.Accounted (levelHorizontal : Nat) (A : Int) (D B p q c r : Nat) (s : Route) :
    Prop where
  bits : s.toRouteBits = RouteBits.after A D p q c r
  broadcast : s.numDataBroadcastBitToRoute = B
  length : s.placed.length = rootLevels levelHorizontal + c + r
  splits : numSplits s.placed = min c p + min r q
  horizontal_index : ∀ e ∈ s.placed, e.direction = .horizontal →
    e.index < rootLevels levelHorizontal + c
  vertical_index : ∀ e ∈ s.placed, e.direction = .vertical → e.index < r
  horizontal_placed : ∀ i : ℕ, i < rootLevels levelHorizontal + c →
    ∃ k, ⟨.horizontal, i, k⟩ ∈ s.placed
  vertical_placed : ∀ j : ℕ, j < r → ∃ k, ⟨.vertical, j, k⟩ ∈ s.placed
  root : 0 < levelHorizontal → s.placed.head? = some ⟨.horizontal, 0, false⟩
  entries : ∀ n e, s.placed[n]? = some e →
    ∃ w, s.wires e.direction e.index = some w ∧
      w.Accounts D B (rootLevels levelHorizontal) (n + 1) (numSplits (s.placed.take (n + 1)))

/-- The last level filled. -/
def Route.Last (s : Route) (d : Direction) (i : Int) : Prop :=
  ∃ k, s.placed.getLast? = some ⟨d, i, k⟩

/-- The first free index of a direction. -/
def Direction.nextIndex (levelHorizontal c r : Nat) : Direction → Nat
  | .horizontal => rootLevels levelHorizontal + c
  | .vertical => r

/-- How the recursion may stop early: with no bit left after some of the steps. -/
def Stuck (levelHorizontal levelVertical : Nat) (A : Int) (D B p q : Nat) (e : Abort) : Prop :=
  e = .invalid ∧ ∃ c ≤ levelHorizontal, ∃ r ≤ levelVertical,
    (RouteBits.after A D p q c r).exhausted B

theorem numSplits_append (es : List Placement) (e : Placement) :
    numSplits (es ++ [e]) = numSplits es + if e.split = true then 1 else 0 := by
  simp [numSplits, List.countP_append, List.countP_singleton]

section
variable {LH LV : Nat} {A : Int} {D B p q c r : Nat}

/-- The entry of the last level, as the next level reads it. -/
theorem Route.Accounted.read_last {s : Route} {d : Direction} {i : Int}
    (h : s.Accounted LH A D B p q c r) (hlast : s.Last d i) :
    ∃ w, s.wires d i = some w ∧ w.numSumWire = 2 ^ (c + r) ∧
      w.numActiveWire = 2 ^ (min c p + min r q) := by
  obtain ⟨k, hplaced⟩ := hlast
  have hlen := h.length
  have hne : s.placed ≠ [] := by
    rintro hnil
    simp [hnil] at hplaced
  have hpos := List.length_pos_iff.mpr hne
  rw [List.getLast?_eq_getElem?] at hplaced
  obtain ⟨w, hw, hacc⟩ := h.entries _ _ hplaced
  refine ⟨w, hw, ?_, ?_⟩
  · rw [hacc.numSumWire]
    congr 1
    omega
  · rw [hacc.numActiveWire, List.take_of_length_le (by omega), h.splits]

/-- Placing one more level with the counts of the last one keeps the account. -/
theorem Route.Accounted.place {s : Route} (h : s.Accounted LH A D B p q c r) (numWire : Nat)
    (d : Direction) :
    (s.place d (d.nextIndex LH c r) numWire (2 ^ (c + r))
      (2 ^ (min c p + min r q))).Accounted LH A D B p q (d.columns c) (d.rows r) := by
  have htake := RouteBits.take_after (A := A) (D := D) (p := p) (q := q) (c := c) (r := r) d
  have hsplit := RouteBits.split_after (A := A) (D := D) (p := p) (q := q) (c := c) (r := r) d
  have hsplit' : s.split d = (RouteBits.after A D p q c r).split d := by rw [h.bits]
  have hsteps : d.columns c + d.rows r = c + r + 1 := by
    cases d <;> simp only [Direction.columns, Direction.rows] <;> omega
  -- field by field: the bits, the counts, what is placed, and what the entries hold
  refine ⟨?_, h.broadcast, ?_, ?_, ?_, ?_, ?_, ?_, ?_, ?_⟩
  · simp only [Route.place, h.bits, htake]
  · simp only [Route.place, List.length_append, List.length_singleton, h.length]
    omega
  · simp only [Route.place, numSplits_append, h.splits, hsplit']
    omega
  · -- the counters only grow, so older entries stay below them
    intro e he hdir
    rcases List.mem_append.mp he with he | he
    · have hlt := h.horizontal_index e he hdir
      cases d <;> simp only [Direction.columns] <;> omega
    · obtain rfl := List.mem_singleton.mp he
      simp only at hdir
      subst hdir
      simp only [Direction.nextIndex, Direction.columns]
      omega
  · intro e he hdir
    rcases List.mem_append.mp he with he | he
    · have hlt := h.vertical_index e he hdir
      cases d <;> simp only [Direction.rows] <;> omega
    · obtain rfl := List.mem_singleton.mp he
      simp only at hdir
      subst hdir
      simp only [Direction.nextIndex, Direction.rows]
      omega
  · intro i hi
    -- an index in reach for the first time is that of the entry just placed
    by_cases hold : i < rootLevels LH + c
    · obtain ⟨k, hk⟩ := h.horizontal_placed i hold
      exact ⟨k, List.mem_append_left _ hk⟩
    · cases d with
      | horizontal =>
          obtain rfl : i = rootLevels LH + c := by
            simp only [Direction.columns] at hi
            omega
          exact ⟨s.split .horizontal, List.mem_append_right _ (List.mem_singleton.mpr rfl)⟩
      | vertical => exact absurd hi hold
  · intro j hj
    by_cases hold : j < r
    · obtain ⟨k, hk⟩ := h.vertical_placed j hold
      exact ⟨k, List.mem_append_left _ hk⟩
    · cases d with
      | horizontal => exact absurd hj hold
      | vertical =>
          obtain rfl : j = r := by
            simp only [Direction.rows] at hj
            omega
          exact ⟨s.split .vertical, List.mem_append_right _ (List.mem_singleton.mpr rfl)⟩
  · intro hLH
    have hroot := h.root hLH
    simp only [Route.place, List.head?_append, hroot, Option.some_or]
  · intro n e hplaced
    simp only [Route.place] at hplaced
    by_cases hn : n < s.placed.length
    · -- an older entry is at another index
      rw [List.getElem?_append_left hn] at hplaced
      obtain ⟨w, hw, hacc⟩ := h.entries n e hplaced
      have hmem := List.mem_of_getElem? hplaced
      refine ⟨w, ?_, ?_⟩
      · rw [Route.place_wires_of_ne]
        · exact hw
        · rintro ⟨hdir, hidx⟩
          cases d with
          | horizontal =>
              have hlt := h.horizontal_index e hmem hdir
              simp only [Direction.nextIndex] at hidx
              omega
          | vertical =>
              have hlt := h.vertical_index e hmem hdir
              simp only [Direction.nextIndex] at hidx
              omega
      · simp only [Route.place]
        rwa [List.take_append_of_le_length (by omega)]
    · -- the entry just written
      have hlast : n = s.placed.length := by
        have hlt := (List.getElem?_eq_some_iff.mp hplaced).1
        rw [List.length_append, List.length_singleton] at hlt
        omega
      subst hlast
      rw [List.getElem?_concat_length, Option.some.injEq] at hplaced
      subst hplaced
      have hall : (s.place d (d.nextIndex LH c r) numWire (2 ^ (c + r))
          (2 ^ (min c p + min r q))).placed.take (s.placed.length + 1) =
          s.placed ++ [⟨d, d.nextIndex LH c r, s.split d⟩] :=
        List.take_of_length_le (by simp [Route.place])
      refine ⟨s.entry d numWire (2 ^ (c + r)) (2 ^ (min c p + min r q)),
        Route.place_wires_self s d _ _ _ _, ?_⟩
      rw [hall, numSplits_append, h.splits, hsplit']
      refine ⟨?_, ?_, ?_, h.broadcast⟩
      · simp only [Route.entry]
        rw [← pow_succ', h.length]
        congr 1
        omega
      · simp only [Route.entry, hsplit']
        split
        · rw [← pow_succ']
        · rw [one_mul, add_zero]
      · rw [show min c p + min r q +
              (if (RouteBits.after A D p q c r).split d = true then 1 else 0) =
            min (d.columns c) p + min (d.rows r) q by omega]
        simp only [Route.entry, h.bits, htake]
        rfl

/-! ## One level -/

/-- The test in front of a level stops the recursion only when it is stuck. -/
theorem check_spec {s : Route} (hbits : s.toRouteBits = RouteBits.after A D p q c r)
    (hB : s.numDataBroadcastBitToRoute = B) (hc : c ≤ LH) (hr : r ≤ LV) :
    Ends (fun _ => True) (Stuck LH LV A D B p q) s.check := by
  unfold Route.check
  split
  · next hex =>
    rw [hbits, hB] at hex
    exact ⟨rfl, c, hc, r, hr, hex⟩
  · trivial

/-- A level whose predecessor is the last level filled. -/
theorem Route.Accounted.level_spec {s : Route} {numWire : Nat} {d d' : Direction} {i i' : Int}
    (h : s.Accounted LH A D B p q c r) (hi : i = d.nextIndex LH c r) (hlast : s.Last d' i')
    (hc : c ≤ LH) (hr : r ≤ LV) :
    Ends (fun t => t.Accounted LH A D B p q (d.columns c) (d.rows r) ∧ t.Last d i)
      (Stuck LH LV A D B p q) (s.level d i (some (d', i')) numWire) := by
  subst hi
  obtain ⟨w, hw, hsum, hactive⟩ := h.read_last hlast
  unfold Route.level
  refine (check_spec h.bits h.broadcast hc hr).bind fun _ _ => ?_
  have hread : s.read d' i' = .ok w := by simp only [Route.read, hw]
  simp only [hread]
  change _ ∧ _
  rw [hsum, hactive]
  exact ⟨h.place numWire d, s.split d, by simp [Route.place]⟩

/-- The first vertical level, when no level follows the root yet. -/
theorem Route.Accounted.level_first_spec {s : Route} {numWire : Nat}
    (h : s.Accounted LH A D B p q 0 0) :
    Ends (fun t => t.Accounted LH A D B p q 0 1 ∧ t.Last .vertical 0)
      (Stuck LH LV A D B p q) (s.level .vertical 0 none numWire) := by
  unfold Route.level
  refine (check_spec h.bits h.broadcast (Nat.zero_le _) (Nat.zero_le _)).bind fun _ _ => ?_
  have hplace := h.place numWire .vertical
  simp only [Direction.nextIndex, Direction.columns, Direction.rows, Nat.zero_min, add_zero,
    pow_zero, zero_add, Nat.cast_zero] at hplace
  exact ⟨hplace, s.split .vertical, by simp [Route.place]⟩

/-! ## The loops -/

/-- Scratch counters do not enter the account. -/
theorem Route.Accounted.with_temps {s : Route} (h : s.Accounted LH A D B p q c r) (x y : Nat) :
    ({ s with hTemp := x, vTemp := y } : Route).Accounted LH A D B p q c r :=
  ⟨h.bits, h.broadcast, h.length, h.splits, h.horizontal_index, h.vertical_index,
    h.horizontal_placed, h.vertical_placed, h.root, h.entries⟩

/-- The root entry starts the account. -/
theorem rootHorizontal_spec :
    Ends (fun t => t.Accounted LH A D B p q 0 0 ∧ (0 < LH → t.Last .horizontal 0))
      (Stuck LH LV A D B p q)
      (Route.rootHorizontal LH (Route.start A D B (2 ^ q) (2 ^ p))) := by
  have hbits : (Route.start A D B (2 ^ q) (2 ^ p)).toRouteBits = RouteBits.after A D p q 0 0 :=
    RouteBits.after_zero.symm
  unfold Route.rootHorizontal
  split
  · next hpos =>
    -- the root is entry 0, and it does not split
    have hroot : rootLevels LH = 1 := if_pos hpos
    refine (check_spec hbits rfl (Nat.zero_le _) (Nat.zero_le _)).bind fun _ _ => ?_
    refine ⟨⟨hbits, rfl, ?_, ?_, ?_, ?_, ?_, ?_, fun _ => rfl, ?_⟩, fun _ => ⟨false, rfl⟩⟩
    · simp [Route.start, hroot]
    · simp [Route.start, numSplits]
    · simp [Route.start, hroot]
    · simp [Route.start]
    · intro i hi
      obtain rfl : i = 0 := by omega
      exact ⟨false, List.mem_singleton.mpr rfl⟩
    · intro j hj
      omega
    · intro n e hplaced
      simp only [Route.start, List.nil_append] at hplaced
      obtain rfl : n = 0 := by
        have hlt := (List.getElem?_eq_some_iff.mp hplaced).1
        simpa using hlt
      obtain rfl : _ = e := by simpa using hplaced
      refine ⟨⟨A, D, B, 1, 1, 1⟩, by simp only [Route.write, and_self, if_true]; rfl, ?_⟩
      exact ⟨by simp [hroot], by simp [numSplits, Route.start],
        by simp [numSplits, Route.start], rfl⟩
  · next hzero =>
    -- without horizontal levels nothing is placed yet
    have hroot : rootLevels LH = 0 := if_neg hzero
    refine ⟨⟨hbits, rfl, ?_, ?_, ?_, ?_, ?_, ?_, fun hpos => absurd hpos hzero, ?_⟩,
      fun hpos => absurd hpos hzero⟩
    · simp [Route.start, hroot]
    · simp [Route.start, numSplits]
    · simp [Route.start]
    · simp [Route.start]
    · intro i hi
      omega
    · intro j hj
      omega
    · simp [Route.start]

/-- Surplus horizontal levels: the loop variable counts down to `v`. -/
theorem reduceHorizontal_spec {v : Nat} :
    ∀ (h c : Nat) (s : Route), h + c + 1 = LH → s.Accounted LH A D B p q c 0 →
      s.Last .horizontal c →
      Ends (fun t => ∃ c', min h v + c' + 1 = LH ∧ t.Accounted LH A D B p q c' 0 ∧
          t.Last .horizontal c')
        (Stuck LH LV A D B p q) (Route.reduceHorizontal LH v h s) := by
  intro h
  induction h with
  | zero => exact fun c s hc hs hlast => ⟨c, by omega, hs, hlast⟩
  | succ h ih =>
      intro c s hc hs hlast
      unfold Route.reduceHorizontal
      split
      · have hroot : rootLevels LH = 1 := if_pos (by omega)
        have hi : (LH : Int) - ((h + 1 : Nat) : Int) = ((c + 1 : Nat) : Int) := by omega
        have hpred : ((c + 1 : Nat) : Int) - 1 = (c : Int) := by omega
        have hlevel : Ends (fun t => t.Accounted LH A D B p q (c + 1) 0 ∧
              t.Last .horizontal ((c + 1 : Nat) : Int)) (Stuck LH LV A D B p q)
            (s.level .horizontal ((c + 1 : Nat) : Int) (some (.horizontal, (c : Int))) 1) :=
          hs.level_spec (d := .horizontal)
            (by simp only [Direction.nextIndex, hroot]; omega) hlast (by omega) (Nat.zero_le _)
        simp only [hi, hpred]
        refine hlevel.bind fun t ht => ?_
        have hnext := ih (c + 1) { t with vTemp := t.vTemp * 2 } (by omega)
          (ht.1.with_temps _ _) ht.2
        exact hnext.mono (fun u ⟨c', hc', hu⟩ => ⟨c', by omega, hu⟩) fun _ he => he
      · exact ⟨c, by omega, hs, hlast⟩

/-- Surplus vertical levels: the loop variable counts down to `h`.  The first
    one has no predecessor entry to read, so none but the root may precede it. -/
theorem reduceVertical_spec {h : Nat} (hc : c ≤ LH) :
    ∀ (v r : Nat) (s : Route), v + r = LV → s.Accounted LH A D B p q c r →
      (r = 0 → h < v → c = 0) → (0 < r → s.Last .vertical ((r : Int) - 1)) →
      Ends (fun t => ∃ r', min v h + r' = LV ∧ t.Accounted LH A D B p q c r' ∧
          (0 < r' → t.Last .vertical ((r' : Int) - 1)) ∧ (r' = 0 → t = s))
        (Stuck LH LV A D B p q) (Route.reduceVertical LV h v s) := by
  intro v
  -- on the vertical levels left
  induction v with
  | zero => exact fun r s hr hs _ hlast => ⟨r, by omega, hs, hlast, fun _ => rfl⟩
  | succ v ih =>
      intro r s hr hs hfirst hlast
      unfold Route.reduceVertical
      split
      · next hlt =>
        have hidx : (LV : Int) - ((v + 1 : Nat) : Int) = (r : Int) := by omega
        have hlevel : Ends (fun t => t.Accounted LH A D B p q c (r + 1) ∧ t.Last .vertical r)
            (Stuck LH LV A D B p q)
            (s.level .vertical r
              (if v + 1 = LV then none else some (.vertical, (r : Int) - 1)) 1) := by
          -- only the very first level has no level in front of it
          by_cases hr0 : r = 0
          · obtain rfl := hr0
            obtain rfl := hfirst rfl hlt
            rw [if_pos (by omega)]
            exact hs.level_first_spec
          · rw [if_neg (by omega)]
            exact hs.level_spec (d := .vertical) rfl (hlast (by omega)) hc (by omega)
        simp only [hidx]
        refine hlevel.bind fun t ht => ?_
        have hnext := ih (r + 1) { t with hTemp := t.hTemp * 2 } (by omega)
          (ht.1.with_temps _ _) (by omega) (by
            intro _
            have hidx' : ((r + 1 : Nat) : Int) - 1 = (r : Int) := by omega
            rw [hidx']
            exact ht.2)
        exact hnext.mono
          (fun u ⟨r', hr', hu, hul, _⟩ => ⟨r', by omega, hu, hul, by omega⟩) fun _ he => he
      · exact ⟨r, by omega, hs, hlast, fun _ => rfl⟩

/-- The interleaved levels end with every level placed. -/
theorem interleave_spec :
    ∀ (h c r : Nat) (v : Int) (s : Route), h + c + 1 = LH → v = h → h + r = LV →
      s.Accounted LH A D B p q c r →
      (r = 0 → s.Last .horizontal c) → (0 < r → s.Last .vertical ((r : Int) - 1)) →
      Ends (fun t => t.Accounted LH A D B p q (LH - 1) LV) (Stuck LH LV A D B p q)
        (Route.interleave LH LV h v s) := by
  intro h
  -- on the horizontal levels left; the vertical ones are counted down beside them
  induction h with
  | zero =>
      intro c r v s hc _ hr hs _ _
      obtain rfl : c = LH - 1 := by omega
      obtain rfl : r = LV := by omega
      exact hs
  | succ h ih =>
      intro c r v s hc hv hr hs hfirst hlast
      have hroot : rootLevels LH = 1 := if_pos (by omega)
      have hi : (LH : Int) - ((h + 1 : Nat) : Int) = ((c + 1 : Nat) : Int) := by omega
      have hj : (LV : Int) - v = (r : Int) := by omega
      unfold Route.interleave
      simp only [hi, hj]
      have hfirstLevel : Ends (fun t => t.Accounted LH A D B p q (c + 1) r ∧
            t.Last .horizontal ((c + 1 : Nat) : Int)) (Stuck LH LV A D B p q)
          (s.level .horizontal ((c + 1 : Nat) : Int)
            (some (if v = (LV : Int) then (.horizontal, ((c + 1 : Nat) : Int) - 1)
              else (.vertical, (r : Int) - 1))) s.hTemp) := by
        have hnext : ((c + 1 : Nat) : Int) = Direction.horizontal.nextIndex LH c r := by
          simp only [Direction.nextIndex, hroot]
          omega
        -- only the first of them follows a horizontal entry
        by_cases hr0 : r = 0
        · rw [if_pos (by omega)]
          have hpred : ((c + 1 : Nat) : Int) - 1 = (c : Int) := by omega
          rw [hpred]
          exact hs.level_spec (d := .horizontal) hnext (hfirst hr0) (by omega) (by omega)
        · rw [if_neg (by omega)]
          exact hs.level_spec (d := .horizontal) hnext (hlast (by omega)) (by omega) (by omega)
      refine hfirstLevel.bind fun t ht => ?_
      refine (ht.1.level_spec (d := .vertical) rfl ht.2 (by omega) (by omega)).bind fun u hu => ?_
      refine ih (c + 1) (r + 1) (v - 1) _ (by omega) (by omega) (by omega)
        (hu.1.with_temps _ _) (by omega) ?_
      intro _
      have hidx : ((r + 1 : Nat) : Int) - 1 = (r : Int) := by omega
      rw [hidx]
      exact hu.2

/-- The whole recursion: it reads no unset entry, and when it is not stuck it
    ends with all levels accounted for. -/
theorem routeLevels_spec :
    Ends (fun t => t.Accounted LH A D B p q (LH - 1) LV) (Stuck LH LV A D B p q)
      (Route.routeLevels LH LV (Route.start A D B (2 ^ q) (2 ^ p))) := by
  unfold Route.routeLevels
  refine rootHorizontal_spec.bind fun s hs => ?_
  by_cases hLH : LH = 0
  · -- only vertical levels
    subst hLH
    refine (show Ends (fun t => t = s) (Stuck 0 LV A D B p q)
      (Route.reduceHorizontal 0 LV 0 s) from rfl).bind ?_
    rintro _ rfl
    refine (reduceVertical_spec (h := 0) (le_refl 0) LV 0 _ (by omega) hs.1 (fun _ _ => rfl)
      (fun h => absurd h (lt_irrefl 0))).bind ?_
    rintro t ⟨r', hr', ht, -, -⟩
    obtain rfl : r' = LV := by omega
    exact ht
  · refine (reduceHorizontal_spec (LH - 1) 0 s (by omega) hs.1
      (hs.2 (by omega))).bind ?_
    rintro t ⟨c', hc', ht, hlast⟩
    refine (reduceVertical_spec (h := min (LH - 1) LV) (by omega) LV 0 t (by omega) ht (by omega)
      (fun h => absurd h (lt_irrefl 0))).bind ?_
    rintro u ⟨r', hr', hu, hulast, husame⟩
    refine interleave_spec (min (LH - 1) LV) c' r' _ u hc' rfl (by omega) hu ?_ hulast
    intro hr0
    rw [husame hr0]
    exact hlast

/-- The last step in front of the mats completes the horizontal steps. -/
theorem finish_spec {s : Route} (hp : p ≤ LH) (h : s.Accounted LH A D B p q (LH - 1) LV) :
    Ends (fun t => t.toRouteBits = RouteBits.after A D p q LH LV ∧
        t.numDataBroadcastBitToRoute = B)
      (Stuck LH LV A D B p q) (s.finish LH) := by
  unfold Route.finish
  refine (check_spec h.bits h.broadcast (by omega) (le_refl LV)).bind fun _ _ => ?_
  by_cases hLH : 0 < LH
  · have htake := RouteBits.take_after (A := A) (D := D) (p := p) (q := q) (c := LH - 1)
      (r := LV) .horizontal
    simp only [← h.bits, Direction.columns, Direction.rows, Nat.sub_add_cancel hLH] at htake
    simp only [RouteBits.take] at htake
    rw [if_pos hLH]
    split
    · next hcol =>
      rw [if_pos hcol] at htake
      exact ⟨htake, h.broadcast⟩
    · next hcol =>
      rw [if_neg hcol] at htake
      exact ⟨htake, h.broadcast⟩
  · -- without horizontal levels there is a single column of mats
    obtain rfl : LH = 0 := by omega
    have hcol : ¬ 1 < s.columnToActive := by
      rw [h.bits, RouteBits.one_lt_columnToActive_after]
      omega
    rw [if_neg hcol, if_neg hLH]
    exact ⟨h.bits, h.broadcast⟩

/-! ## The account of a finished recursion -/

/-- The factors of the placed levels multiply to a power of two. -/
theorem prod_factors (es : List Placement) :
    (es.map fun e => if e.split = true then 2 else 1).prod = 2 ^ numSplits es := by
  induction es with
  | nil => rfl
  | cons e es ih =>
      rw [List.map_cons, List.prod_cons, ih]
      unfold numSplits
      by_cases h : e.split = true
      · rw [if_pos h, List.countP_cons_of_pos h, pow_succ']
      · rw [if_neg h, List.countP_cons_of_neg h, one_mul]

/-- Levels after the root split at most once each; the root does not split. -/
theorem Route.Accounted.numSplits_take_le {s : Route} (h : s.Accounted LH A D B p q c r)
    (n : ℕ) : numSplits (s.placed.take (n + 1)) ≤ n + 1 - rootLevels LH := by
  have hle : ∀ es : List Placement, numSplits es ≤ es.length := fun es => List.countP_le_length
  by_cases hLH : 0 < LH
  · have hroot : rootLevels LH = 1 := if_pos hLH
    obtain ⟨rest, hrest⟩ := List.head?_eq_some_iff.mp (h.root hLH)
    rw [hrest, hroot, List.take_succ_cons, numSplits, List.countP_cons_of_neg (by decide)]
    exact (hle _).trans (List.length_take_le n rest)
  · have hroot : rootLevels LH = 0 := if_neg hLH
    rw [hroot]
    exact (hle _).trans (List.length_take_le (n + 1) s.placed)

end

/-- The account of one level, given the levels `upTo` and including it: how many
    of them follow the root, and which split the data bits. -/
structure WireLevel.LevelAccount (D B root : ℕ) (upTo : List Placement) (w : WireLevel) :
    Prop where
  numSumWire : w.numSumWire = 2 ^ (upTo.length - root)
  numActiveWire : w.numActiveWire = (upTo.map fun e => if e.split = true then 2 else 1).prod
  active_le_sum : w.numActiveWire ≤ w.numSumWire
  distribute : w.numActiveWire ∣ D → w.numActiveWire * w.numDataDistributeBitToRoute = D
  broadcast : w.numDataBroadcastBitToRoute = B

/-- The level recursion over every power-of-two shape: no entry is read before
    it is written, every level of both directions is placed and accounted for,
    and the mat gets the address bits that inactive mats leave. -/
theorem htree_level_accounting {numRowMat numColumnMat activePerRow activePerColumn : ℕ}
    (hrow : numRowMat.isPowerOfTwo) (hcolumn : numColumnMat.isPowerOfTwo)
    (hactiveRow : activePerRow.isPowerOfTwo) (hactiveColumn : activePerColumn.isPowerOfTwo)
    (hleRow : activePerRow ≤ numColumnMat) (hleColumn : activePerColumn ≤ numRowMat)
    (A : ℤ) (D B : ℕ) :
    let levelHorizontal := (truncLog2 (numColumnMat : ℚ)).toNat
    let levelVertical := (truncLog2 (numRowMat : ℚ)).toNat
    let recursion := Route.routeLevels levelHorizontal levelVertical
      (Route.start A D B activePerColumn activePerRow)
    recursion ≠ .error .unset ∧
      ∀ s, recursion = .ok s →
        (∀ i : ℕ, i < levelHorizontal → ∃ k, ⟨.horizontal, i, k⟩ ∈ s.placed) ∧
        (∀ j : ℕ, j < levelVertical → ∃ k, ⟨.vertical, j, k⟩ ∈ s.placed) ∧
        (0 < levelHorizontal → s.placed.head? = some ⟨.horizontal, 0, false⟩) ∧
        (∀ n e, s.placed[n]? = some e → ∃ w, s.wires e.direction e.index = some w ∧
          w.LevelAccount D B (rootLevels levelHorizontal) (s.placed.take (n + 1))) ∧
        ∀ t, s.finish levelHorizontal = .ok t →
          t.numAddressBitToRoute = A - truncLog2
            ((numRowMat * numColumnMat / (activePerColumn * activePerRow) : ℕ) : ℚ) := by
  obtain ⟨LV, rfl⟩ := hrow
  obtain ⟨LH, rfl⟩ := hcolumn
  obtain ⟨p, rfl⟩ := hactiveRow
  obtain ⟨q, rfl⟩ := hactiveColumn
  have hp : p ≤ LH := (Nat.pow_le_pow_iff_right (by decide)).mp hleRow
  have hq : q ≤ LV := (Nat.pow_le_pow_iff_right (by decide)).mp hleColumn
  simp only [truncLog2_natCast_two_pow, Int.toNat_natCast]
  have hspec := @routeLevels_spec LH LV A D B p q
  -- a recursion that is stuck ends in `invalid`, not in `unset`
  refine ⟨fun hunset => ?_, fun s hs => ?_⟩
  · exact absurd (hspec.of_eq_error hunset).1 (by decide)
  · have hacc := hspec.of_eq_ok hs
    have hlen := hacc.length
    refine ⟨?_, hacc.vertical_placed, hacc.root, ?_, ?_⟩
    · intro i hi
      have hroot : rootLevels LH = 1 := if_pos (by omega)
      exact hacc.horizontal_placed i (by omega)
    · intro n e hplaced
      obtain ⟨w, hw, hentry⟩ := hacc.entries n e hplaced
      have hn := (List.getElem?_eq_some_iff.mp hplaced).1
      have htake : (s.placed.take (n + 1)).length = n + 1 := List.length_take_of_le hn
      have hsplits := hacc.numSplits_take_le n
      refine ⟨w, hw, ?_, ?_, ?_, ?_, hentry.numDataBroadcastBitToRoute⟩
      · rw [htake, hentry.numSumWire]
      · rw [prod_factors, hentry.numActiveWire]
      · rw [hentry.numActiveWire, hentry.numSumWire]
        exact Nat.pow_le_pow_right two_pos hsplits
      · intro hdvd
        rw [hentry.numDataDistributeBitToRoute, ← hentry.numActiveWire]
        exact Nat.mul_div_cancel' hdvd
    · intro t ht
      have hfinish := (finish_spec hp hacc).of_eq_ok ht
      rw [hfinish.1]
      -- the mats that stay inactive take the rest of the address
      have hgrid : 2 ^ LV * 2 ^ LH / (2 ^ q * 2 ^ p) = 2 ^ (LH - p + (LV - q)) := by
        rw [← pow_add, ← pow_add, Nat.pow_div (by omega) two_pos]
        congr 1
        omega
      rw [hgrid, truncLog2_natCast_two_pow]
      rfl

/-- Four rows and two columns of mats, of which two by two are active: three
    levels after which one address bit is gone. -/
theorem htree_level_accounting_four_by_two : ∃ s t : Route,
    Route.routeLevels 1 2 (Route.start 5 8 1 2 2) = .ok s ∧ s.finish 1 = .ok t ∧
      s.placed = [⟨.horizontal, 0, false⟩, ⟨.vertical, 0, true⟩, ⟨.vertical, 1, false⟩] ∧
      (∀ n e, s.placed[n]? = some e → ∃ w, s.wires e.direction e.index = some w ∧
        w.LevelAccount 8 1 1 (s.placed.take (n + 1))) ∧
      t.numAddressBitToRoute = 4 := by
  have haccount := @htree_level_accounting 4 2 2 2 ⟨2, rfl⟩ ⟨1, rfl⟩ ⟨1, rfl⟩ ⟨1, rfl⟩ (by decide)
    (by decide) 5 8 1
  have hhorizontal : (truncLog2 ((2 : ℕ) : ℚ)).toNat = 1 := by decide +kernel
  have hvertical : (truncLog2 ((4 : ℕ) : ℚ)).toNat = 2 := by decide +kernel
  simp only [hhorizontal, hvertical] at haccount
  obtain ⟨-, haccount⟩ := haccount
  have hplaced : (match Route.routeLevels 1 2 (Route.start 5 8 1 2 2) with
      | .ok s =>
          s.placed = [⟨.horizontal, 0, false⟩, ⟨.vertical, 0, true⟩, ⟨.vertical, 1, false⟩] &&
            (s.finish 1).toBool
      | .error _ => false) = true := by decide +kernel
  cases hrun : Route.routeLevels 1 2 (Route.start 5 8 1 2 2) with
  | error e =>
      rw [hrun] at hplaced
      cases hplaced
  | ok s =>
      rw [hrun] at hplaced
      simp only [Bool.and_eq_true, decide_eq_true_eq] at hplaced
      obtain ⟨hplaced, hfinished⟩ := hplaced
      obtain ⟨-, -, -, haccounts, haddress⟩ := haccount s hrun
      cases hfinish : s.finish 1 with
      | error e =>
          rw [hfinish] at hfinished
          cases hfinished
      | ok t =>
          refine ⟨s, t, rfl, hfinish, hplaced, haccounts, (haddress t hfinish).trans ?_⟩
          decide +kernel

end Destiny
