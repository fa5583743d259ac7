/-
  Destiny.Bank.WithHtree

  `BankWithHtree::Initialize`: the bits of the bank, the level recursion of
  `Bank.Htree`, and what arrives at a mat.

  * `WithHtree.start` sets up the recursion from the arguments;
  * `WithHtree.toMat` turns what the last step leaves into the arguments of
    `Mat::Initialize`, including the way multiplexers;
  * `BankWithHtree.Initialize` is the whole function.
-/

import Destiny.Bank.Htree

namespace Destiny

open Lib

namespace WithHtree

/-- The bits of a block to distribute over the mats. -/
def numDataDistributeBit (a : BankArgs) : Nat :=
  match a.memoryType with
  | .data => a.blockSize
  | .tag => a.associativity
  | .CAM => 0

/-- The bits to broadcast to every mat. -/
def numDataBroadcastBit (a : BankArgs) : Nat :=
  match a.memoryType with
  | .data => Nat.log 2 a.associativity
  | .tag => a.blockSize
  | .CAM => a.blockSize

def levelHorizontal (a : BankArgs) : Nat := (truncLog2 (a.numColumnMat : ℚ)).toNat

def levelVertical (a : BankArgs) : Nat := (truncLog2 (a.numRowMat : ℚ)).toNat

def start (a : BankArgs) : Route :=
  Route.start a.numAddressBit (numDataDistributeBit a) (numDataBroadcastBit a)
    a.clamp.numActiveMatPerColumn a.clamp.numActiveMatPerRow

/-- The ways assigned to a mat, and what it is initialised with. -/
def toMat (g : Globals) (a : BankArgs) (s : Route) : Except Abort MatArgs :=
  match a.memoryType with
  | .data =>
      let numWay := 2 ^ s.numDataBroadcastBitToRoute
      -- not enough ways to distribute into multiple rows
      if numWay < a.numRowPerSet then .error .invalid
      else
        .ok (a.matArgs s.numAddressBitToRoute s.numDataDistributeBitToRoute numWay
          (a.mux.containWays g.memCellType (numWay / a.numRowPerSet)))
  | .tag =>
      -- a tag array cannot have multiple rows to contain ways in a set
      if 1 < a.numRowPerSet then .error .invalid
      -- at least one way in each mat
      else if s.numDataDistributeBitToRoute = 0 then .error .invalid
      else
        .ok (a.matArgs s.numAddressBitToRoute s.numDataBroadcastBitToRoute
          s.numDataDistributeBitToRoute a.mux)
  | .CAM =>
      .ok (a.matArgs s.numAddressBitToRoute s.numDataBroadcastBitToRoute 1 a.mux)

/-- The levels and what they route to a mat. -/
def route (g : Globals) (a : BankArgs) : Except Abort (Route × MatArgs) := do
  let levels ← Route.routeLevels (levelHorizontal a) (levelVertical a) (start a)
  let s ← levels.finish (levelHorizontal a)
  let matArgs ← toMat g a s
  .ok (levels, matArgs)

end WithHtree

/-- A valid bank with its H-tree. -/
structure BankWithHtree extends Bank where
  levelHorizontal : Nat
  levelVertical : Nat
  levels : Route

/-- `BankWithHtree::Initialize`. -/
def BankWithHtree.Initialize (g : Globals) (a : BankArgs) : Option BankWithHtree :=
  -- The H-tree does not support external sense amplification.
  if a.internalSenseAmp = false then none
  else
    match WithHtree.route g a with
    | .error _ => none
    | .ok (levels, matArgs) =>
      match Mat.Initialize g matArgs with
      | none => none
      | some mat =>
        some { a.clamp with
          addressBit := a.numAddressBit
          matArgs := matArgs
          mat := mat
          levelHorizontal := WithHtree.levelHorizontal a
          levelVertical := WithHtree.levelVertical a
          levels := levels }

/-- A valid bank with H-tree has a routed, valid mat. -/
theorem BankWithHtree.Initialize_eq_some {g : Globals} {a : BankArgs} {b : BankWithHtree}
    (h : BankWithHtree.Initialize g a = some b) :
    ∃ levels matArgs mat, a.internalSenseAmp = true ∧
      WithHtree.route g a = .ok (levels, matArgs) ∧ Mat.Initialize g matArgs = some mat ∧
      b.toBank = { a.clamp with addressBit := a.numAddressBit, matArgs := matArgs, mat := mat } ∧
      b.levels = levels := by
  unfold BankWithHtree.Initialize at h
  split at h
  · cases h
  · next hint =>
    split at h
    · cases h
    · next levels matArgs hroute =>
      split at h
      · cases h
      · next mat hmat =>
        obtain rfl := Option.some.inj h
        exact ⟨levels, matArgs, mat, by simpa using hint, hroute, hmat, rfl, rfl⟩

end Destiny
