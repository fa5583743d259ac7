/-
  Destiny.Bank.Htree

  The level recursion of `BankWithHtree::Initialize`.

  The H-tree routes one level after the other.  Each level either halves the
  data bits (while its direction still has mats to activate) or spends an
  address bit, and fills one entry of the wire arrays from its predecessor's:

    * `rootHorizontal`: "always route H as the first step";
    * `reduceHorizontal`: the surplus of horizontal levels;
    * `reduceVertical`: the surplus of vertical levels;
    * `interleave`: one horizontal and one vertical level in turn.

  The arrays come from `new int[]`, so an entry is `none` until it is written,
  and reading such an entry is the error `Abort.unset`.
-/

import Destiny.Bank.Basic
import Destiny.Lib.Ends

namespace Destiny

open Lib

/-! ## State of the recursion -/

inductive Direction
  | horizontal | vertical
  deriving DecidableEq, Repr

/-- Why the recursion stops early. -/
inductive Abort
  /-- the bank is marked invalid -/
  | invalid
  /-- an array entry is read before it is written -/
  | unset
  deriving DecidableEq, Repr

/-- The entries of the arrays of one direction at one index. -/
structure WireLevel where
  numAddressBitToRoute : Int
  numDataDistributeBitToRoute : Nat
  numDataBroadcastBitToRoute : Nat
  numWire : Nat
  numSumWire : Nat
  numActiveWire : Nat
  deriving DecidableEq, Repr

/-- The bits still to route and the mats still to activate. -/
structure RouteBits where
  numAddressBitToRoute : Int
  numDataDistributeBitToRoute : Nat
  rowToActive : Nat
  columnToActive : Nat
  deriving DecidableEq, Repr

/-- A level in the order of placement, with whether it split the data bits. -/
structure Placement where
  direction : Direction
  index : Int
  split : Bool
  deriving DecidableEq, Repr

structure Route extends RouteBits where
  numDataBroadcastBitToRoute : Nat
  hTemp : Nat
  vTemp : Nat
  /-- the arrays, by direction and index -/
  wires : Direction → Int → Option WireLevel
  /-- the levels filled so far, for reasoning only -/
  placed : List Placement

def Route.start (numAddressBit : Int) (numDataDistributeBit numDataBroadcastBit rowToActive
    columnToActive : Nat) : Route where
  numAddressBitToRoute := numAddressBit
  numDataDistributeBitToRoute := numDataDistributeBit
  rowToActive := rowToActive
  columnToActive := columnToActive
  numDataBroadcastBitToRoute := numDataBroadcastBit
  hTemp := 1
  vTemp := 1
  wires := fun _ _ => none
  placed := []

/-! ## One level -/

/-- Whether there is a possibility to reduce the data bits. -/
def RouteBits.split (b : RouteBits) : Direction → Bool
  | .horizontal => 1 < b.columnToActive
  | .vertical => 1 < b.rowToActive

/-- Halve the data bits or spend an address bit. -/
def RouteBits.take (b : RouteBits) : Direction → RouteBits
  | .horizontal =>
      if 1 < b.columnToActive then
        { b with
          numDataDistributeBitToRoute := b.numDataDistributeBitToRoute / 2
          columnToActive := b.columnToActive / 2 }
      else { b with numAddressBitToRoute := b.numAddressBitToRoute - 1 }
  | .vertical =>
      if 1 < b.rowToActive then
        { b with
          numDataDistributeBitToRoute := b.numDataDistributeBitToRoute / 2
          rowToActive := b.rowToActive / 2 }
      else { b with numAddressBitToRoute := b.numAddressBitToRoute - 1 }

/-- The test in front of every level: no data bit or no address bit is left. -/
def RouteBits.exhausted (b : RouteBits) (numDataBroadcastBit : Nat) : Prop :=
  b.numDataDistributeBitToRoute + numDataBroadcastBit = 0 ∨ b.numAddressBitToRoute = 0

instance (b : RouteBits) (n : Nat) : Decidable (b.exhausted n) :=
  inferInstanceAs (Decidable (_ ∨ _))

namespace Route

def check (s : Route) : Except Abort Unit :=
  if s.exhausted s.numDataBroadcastBitToRoute then .error .invalid else .ok ()

def read (s : Route) (d : Direction) (i : Int) : Except Abort WireLevel :=
  match s.wires d i with
  | some w => .ok w
  | none => .error .unset

def write (s : Route) (d : Direction) (i : Int) (w : WireLevel) : Route :=
  { s with wires := fun d' i' => if d' = d ∧ i' = i then some w else s.wires d' i' }

/-- The entry of a level, from the wire counts of its predecessor. -/
def entry (s : Route) (d : Direction) (numWire sumBefore activeBefore : Nat) : WireLevel where
  numAddressBitToRoute := (s.take d).numAddressBitToRoute
  numDataDistributeBitToRoute := (s.take d).numDataDistributeBitToRoute
  numDataBroadcastBitToRoute := s.numDataBroadcastBitToRoute
  numWire := numWire
  numSumWire := 2 * sumBefore
  numActiveWire := (if s.split d then 2 else 1) * activeBefore

def place (s : Route) (d : Direction) (i : Int) (numWire sumBefore activeBefore : Nat) : Route :=
  { s.write d i (s.entry d numWire sumBefore activeBefore) with
    toRouteBits := s.take d
    placed := s.placed ++ [⟨d, i, s.split d⟩] }

theorem place_wires_self (s : Route) (d : Direction) (i : Int) (n a b : Nat) :
    (s.place d i n a b).wires d i = some (s.entry d n a b) := by
  simp only [place, write, and_self, if_true]

theorem place_wires_of_ne (s : Route) {d d' : Direction} {i i' : Int} (n a b : Nat)
    (h : ¬ (d' = d ∧ i' = i)) : (s.place d i n a b).wires d' i' = s.wires d' i' := by
  simp only [place, write, if_neg h]

/-- The body of the level loops.  Without a predecessor entry (the first
    vertical level) the counts are constants. -/
def level (s : Route) (d : Direction) (i : Int) (predecessor : Option (Direction × Int))
    (numWire : Nat) : Except Abort Route := do
  s.check
  match predecessor with
  | none => .ok (s.place d i numWire 1 1)
  | some p =>
      let before ← s.read p.1 p.2
      .ok (s.place d i numWire before.numSumWire before.numActiveWire)

/-! ## The loops -/

def rootHorizontal (levelHorizontal : Nat) (s : Route) : Except Abort Route :=
  if 0 < levelHorizontal then do
    s.check
    .ok { s.write .horizontal 0
            { numAddressBitToRoute := s.numAddressBitToRoute
              numDataDistributeBitToRoute := s.numDataDistributeBitToRoute
              numDataBroadcastBitToRoute := s.numDataBroadcastBitToRoute
              numWire := 1
              numSumWire := 1
              numActiveWire := 1 } with
          placed := s.placed ++ [⟨.horizontal, 0, false⟩] }
  else .ok s

/-- `while (h > v)`; the loop leaves `h = min h v`. -/
def reduceHorizontal (levelHorizontal v : Nat) : (h : Nat) → Route → Except Abort Route
  | 0, s => .ok s
  | h + 1, s =>
      if v < h + 1 then do
        let i : Int := levelHorizontal - (h + 1 : Nat)
        let s ← s.level .horizontal i (some (.horizontal, i - 1)) 1
        reduceHorizontal levelHorizontal v h { s with vTemp := s.vTemp * 2 }
      else .ok s

/-- `while (v > h)`; the loop leaves `v = min v h`. -/
def reduceVertical (levelVertical h : Nat) : (v : Nat) → Route → Except Abort Route
  | 0, s => .ok s
  | v + 1, s =>
      if h < v + 1 then do
        let i : Int := levelVertical - (v + 1 : Nat)
        let s ← s.level .vertical i
          (if v + 1 = levelVertical then none else some (.vertical, i - 1)) 1
        reduceVertical levelVertical h v { s with hTemp := s.hTemp * 2 }
      else .ok s

/-- `while (h > 0)`: reduce H and V to zero. -/
def interleave (levelHorizontal levelVertical : Nat) :
    (h : Nat) → (v : Int) → Route → Except Abort Route
  | 0, _, s => .ok s
  | h + 1, v, s => do
      let i : Int := levelHorizontal - (h + 1 : Nat)
      let j : Int := levelVertical - v
      let s ← s.level .horizontal i
        (some (if v = levelVertical then (.horizontal, i - 1) else (.vertical, j - 1))) s.hTemp
      let s ← s.level .vertical j (some (.horizontal, i))
        (if levelHorizontal = 2 then s.vTemp else 2 * s.vTemp)
      interleave levelHorizontal levelVertical h (v - 1)
        { s with hTemp := s.hTemp * 2, vTemp := s.vTemp * 2 }

/-- All levels, from the root to the mats. -/
def routeLevels (levelHorizontal levelVertical : Nat) (s : Route) : Except Abort Route := do
  let s ← rootHorizontal levelHorizontal s
  let h := levelHorizontal - 1
  let s ← reduceHorizontal levelHorizontal levelVertical h s
  let h := min h levelVertical
  let s ← reduceVertical levelVertical h levelVertical s
  interleave levelHorizontal levelVertical h h s

/-- The last step in front of the mats. -/
def finish (levelHorizontal : Nat) (s : Route) : Except Abort Route := do
  s.check
  if 1 < s.columnToActive then
    .ok { s with
      numDataDistributeBitToRoute := s.numDataDistributeBitToRoute / 2
      columnToActive := s.columnToActive / 2 }
  else if 0 < levelHorizontal then
    .ok { s with numAddressBitToRoute := s.numAddressBitToRoute - 1 }
  else .ok s

end Route

end Destiny
