/-
  Destiny.Typedef

  The enumerations of typedef.h and the constants the geometry depends on.

  Where the source loops over an enumeration as integers
  (`for (t = min; t <= max; t++)`), `between` lists the enumerators visited:
  those whose code lies in the closed range, in ascending order.
-/

import Mathlib.Data.Nat.Notation

namespace Destiny

inductive MemCellType
  | SRAM | DRAM | eDRAM | MRAM | PCRAM | memristor | FBRAM | SLCNAND | MLCNAND
  deriving DecidableEq, Repr, Inhabited

inductive CellAccessType
  | CMOS_access | BJT_access | diode_access | none_access
  deriving DecidableEq, Repr, Inhabited

inductive DeviceRoadmap
  | HP | LSTP | LOP | EDRAM
  deriving DecidableEq, Repr, Inhabited

inductive WireType
  | local_aggressive | local_conservative | semi_aggressive | semi_conservative
  | global_aggressive | global_conservative | dram_wordline
  deriving DecidableEq, Repr, Inhabited

inductive WireRepeaterType
  | repeated_none | repeated_opt | repeated_5 | repeated_10 | repeated_20 | repeated_30
  | repeated_40 | repeated_50
  deriving DecidableEq, Repr, Inhabited

inductive BufferDesignTarget
  | latency_first | latency_area_trade_off | area_first
  deriving DecidableEq, Repr, Inhabited

inductive WriteScheme
  | set_before_reset | reset_before_set | erase_before_set | erase_before_reset
  | write_and_verify | normal_write
  deriving DecidableEq, Repr, Inhabited

inductive MemoryType
  | data | tag | CAM
  deriving DecidableEq, Repr, Inhabited

inductive RoutingMode
  | h_tree | non_h_tree
  deriving DecidableEq, Repr, Inhabited

inductive DesignTarget
  | cache | RAM_chip | CAM_chip
  deriving DecidableEq, Repr, Inhabited

inductive CacheAccessMode
  | normal_access_mode | sequential_access_mode | fast_access_mode
  deriving DecidableEq, Repr, Inhabited

inductive TSV_type
  | Fine | Coarse
  deriving DecidableEq, Repr

/-- The enumerators of `OptimizationTarget` below `full_exploration`: what a
    `Result` can be optimised for ("Exploration should not be assigned here"). -/
inductive Target
  | read_latency_optimized | write_latency_optimized | read_energy_optimized
  | write_energy_optimized | read_edp_optimized | write_edp_optimized
  | leakage_optimized | area_optimized
  deriving DecidableEq, Repr, Inhabited

/-- `OptimizationTarget`: one of the eight targets or the last enumerator,
    `full_exploration`. -/
inductive OptimizationTarget
  | optimized (t : Target)
  | full_exploration
  deriving DecidableEq, Repr, Inhabited

/-- The targets in the order of `for (i = 0; i < (int)full_exploration; i++)`. -/
def Target.all : List Target :=
  [.read_latency_optimized, .write_latency_optimized, .read_energy_optimized,
   .write_energy_optimized, .read_edp_optimized, .write_edp_optimized,
   .leakage_optimized, .area_optimized]

@[simp] theorem Target.mem_all (t : Target) : t ∈ Target.all := by
  cases t <;> simp [Target.all]

theorem Target.nodup_all : Target.all.Nodup := by decide

/-! ## Ranges -/

/-- A pair of `min`/`max` fields of `InputParameter`. -/
structure Range (α : Type) where
  min : α
  max : α
  deriving DecidableEq, Repr, Inhabited

/-- Both ends set to one value, as the `-Force*` and wire options do. -/
def Range.pin {α : Type} (a : α) : Range α := ⟨a, a⟩

/-- The enumerators with codes between two given ones, in ascending order. -/
def between {α : Type} (enumerators : List α) (code : α → Nat) (r : Range α) : List α :=
  enumerators.filter fun a => code r.min ≤ code a && code a ≤ code r.max

theorem mem_between {α : Type} {enumerators : List α} {code : α → Nat} {r : Range α} {a : α} :
    a ∈ between enumerators code r ↔
      a ∈ enumerators ∧ code r.min ≤ code a ∧ code a ≤ code r.max := by
  simp [between]

def WireType.code : WireType → Nat
  | .local_aggressive => 0
  | .local_conservative => 1
  | .semi_aggressive => 2
  | .semi_conservative => 3
  | .global_aggressive => 4
  | .global_conservative => 5
  | .dram_wordline => 6

def WireType.all : List WireType :=
  [.local_aggressive, .local_conservative, .semi_aggressive, .semi_conservative,
   .global_aggressive, .global_conservative, .dram_wordline]

theorem WireType.code_injective {s t : WireType} (h : s.code = t.code) : s = t := by
  cases s <;> cases t <;> first | rfl | exact absurd h (by decide)

def WireRepeaterType.code : WireRepeaterType → Nat
  | .repeated_none => 0
  | .repeated_opt => 1
  | .repeated_5 => 2
  | .repeated_10 => 3
  | .repeated_20 => 4
  | .repeated_30 => 5
  | .repeated_40 => 6
  | .repeated_50 => 7

def WireRepeaterType.all : List WireRepeaterType :=
  [.repeated_none, .repeated_opt, .repeated_5, .repeated_10, .repeated_20, .repeated_30,
   .repeated_40, .repeated_50]

theorem WireRepeaterType.code_injective {s t : WireRepeaterType} (h : s.code = t.code) :
    s = t := by
  cases s <;> cases t <;> first | rfl | exact absurd h (by decide)

def BufferDesignTarget.code : BufferDesignTarget → Nat
  | .latency_first => 0
  | .latency_area_trade_off => 1
  | .area_first => 2

def BufferDesignTarget.all : List BufferDesignTarget :=
  [.latency_first, .latency_area_trade_off, .area_first]

/-- The low-swing flags, looped over as the integers 0 and 1. -/
def lowSwingFlags : List Bool := [false, true]

/-- `TOTAL_ADDRESS_BIT` of constant.h. -/
def TOTAL_ADDRESS_BIT : Nat := 48

end Destiny
