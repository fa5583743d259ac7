/-
  Destiny.Bank.WithoutHtree

  `BankWithoutHtree::Initialize`: the bits routed to a mat by closed-form
  divisions and logarithms.

  * `WithoutHtree.route` computes the arguments of `Mat::Initialize`;
  * `BankWithoutHtree.Initialize` adds the sensing checks before and after.
-/

import Destiny.Bank.Basic

namespace Destiny

open Lib

namespace WithoutHtree

/-- The address bits that power gate inactive mats. -/
def numAddressForGating (a : BankArgs) : Int :=
  truncLog2 ((a.numRowMat * a.numColumnMat / a.clamp.numActiveMatPerColumn /
    a.clamp.numActiveMatPerRow : Nat) : ℚ)

def numAddressBitRouteToMat (a : BankArgs) : Int := a.numAddressBit - numAddressForGating a

/-- What `Initialize` hands to `Mat::Initialize`, `none` where it returns early. -/
def route (g : Globals) (a : BankArgs) : Option MatArgs :=
  let b := a.clamp
  match a.memoryType with
  | .data =>
      -- not enough ways to distribute into multiple rows
      if a.associativity < a.numRowPerSet then none
      else
        some (a.matArgs (numAddressBitRouteToMat a)
          (a.blockSize / b.numActiveMatPerColumn / b.numActiveMatPerRow) a.associativity
          (a.mux.containWays g.memCellType (a.associativity / a.numRowPerSet)))
  | .tag =>
      -- a tag array cannot have multiple rows to contain ways in a set
      if 1 < a.numRowPerSet then none
      -- at least one way in each mat
      else if a.associativity / b.numActiveMatPerColumn / b.numActiveMatPerRow < 1 then none
      else
        some (a.matArgs (numAddressBitRouteToMat a) a.blockSize
          (a.associativity / b.numActiveMatPerColumn / b.numActiveMatPerRow) a.mux)
  | .CAM => some (a.matArgs (numAddressBitRouteToMat a) a.blockSize 1 a.mux)

/-- The number of sense amplifiers at the bank level. -/
def numSenseAmp (a : BankArgs) : Nat :=
  match a.memoryType with
  | .data => a.blockSize
  | _ => a.blockSize * a.associativity

end WithoutHtree

/-- `BankWithoutHtree::Initialize`. -/
def BankWithoutHtree.Initialize (g : Globals) (a : BankArgs) : Option Bank :=
  -- DRAM does not support external sense amplification.
  if a.internalSenseAmp = false ∧ (g.memCellType = .DRAM ∨ g.memCellType = .eDRAM) then none
  else if a.internalSenseAmp = false ∧ g.globalWireRepeaterType ≠ .repeated_none then none
  else
    match WithoutHtree.route g a with
    | none => none
    | some matArgs =>
      match Mat.Initialize g matArgs with
      | none => none
      | some mat =>
        if a.internalSenseAmp = false ∧
            g.globalSenseAmpInvalid (WithoutHtree.numSenseAmp a) a.numColumnMat matArgs = true then
          none
        else
          some { a.clamp with addressBit := a.numAddressBit, matArgs := matArgs, mat := mat }

/-- A valid bank without H-tree has a routed, valid mat. -/
theorem BankWithoutHtree.Initialize_eq_some {g : Globals} {a : BankArgs} {b : Bank}
    (h : BankWithoutHtree.Initialize g a = some b) :
    ∃ matArgs mat, WithoutHtree.route g a = some matArgs ∧ Mat.Initialize g matArgs = some mat ∧
      b = { a.clamp with addressBit := a.numAddressBit, matArgs := matArgs, mat := mat } := by
  unfold BankWithoutHtree.Initialize at h
  split at h
  · cases h
  · split at h
    · cases h
    · split at h
      · cases h
      · next matArgs hroute =>
        split at h
        · cases h
        · next mat hmat =>
          split at h
          · cases h
          · exact ⟨matArgs, mat, hroute, hmat, (Option.some.inj h).symm⟩

/-- With internal sensing only the routing and the mat decide. -/
theorem BankWithoutHtree.Initialize_of_internal {g : Globals} {a : BankArgs}
    (hint : a.internalSenseAmp = true) :
    BankWithoutHtree.Initialize g a =
      (WithoutHtree.route g a).bind fun matArgs =>
        (Mat.Initialize g matArgs).map fun mat =>
          { a.clamp with addressBit := a.numAddressBit, matArgs := matArgs, mat := mat } := by
  unfold BankWithoutHtree.Initialize
  rw [if_neg (by simp [hint]), if_neg (by simp [hint])]
  cases WithoutHtree.route g a with
  | none => rfl
  | some matArgs =>
      cases hmat : Mat.Initialize g matArgs with
      | none => simp [hmat]
      | some mat => simp [hint, hmat]

end Destiny
