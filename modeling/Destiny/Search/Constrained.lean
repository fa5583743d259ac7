/-
  Destiny.Search.Constrained

  Whether the exploration under constraints finds what the first one knows.

  The limits come from the best records, which the wire refinements may have
  improved; the exploration under them tries the basic wires only.  It finds a
  solution exactly when a valid design with basic wires is within the limits
  (`State.numSolution_pos_iff`), which a refined record within the limits does
  not promise (`findsKnown_iff`).
-/

import Destiny.Search.Optimum

namespace Destiny

open Lib

/-- The designs an unconstrained exploration from `first` to `explored` knows:
    the valid ones of its nest and its best results. -/
def State.Knows (w : World) (ip : InputParameter) (shape : ArrayShape) (first explored : State)
    (x : Trial) : Prop :=
  x ∈ first.basicTrials w ip shape ∨ ∃ t, x = (explored.best .data t).stored

/-- When a known design satisfies the limits, a solution is found under them. -/
def State.FindsKnown (w : World) (ip : InputParameter) (shape : ArrayShape)
    (first explored u : State) : Prop :=
  (∃ x, first.Knows w ip shape explored x ∧ x.bank.metrics.within explored.allowedData = true) →
    0 < u.numSolution

section
variable {w : World} {ip : InputParameter} {shape : ArrayShape} {first explored u : State}

/-- The exploration under constraints evaluates the designs of the first nest again. -/
theorem exploreData_withBasicWires (hexplore : exploreData w ip shape first = .ok ⟨⟩ explored) :
    (first.withBasicWires ip).SameSetting (explored.withBasicWires ip) := by
  have hexplored := returns_exploreData.apply hexplore
  have hloop := (@State.loopData_spec w ip shape first).1
  have hrefines : (first.loopData w ip shape).Refines w explored := by
    rw [hexplored]
    exact .refined _
  exact ⟨hrefines.cell.trans hloop.cell, hrefines.cellFile.trans hloop.cellFile,
    hrefines.tech.trans hloop.tech, hrefines.inputParameter.trans hloop.inputParameter, rfl, rfl⟩

/-- The solutions under the limits are the valid basic-wire designs within them. -/
theorem State.numSolution_pos_iff (hconstrains : ip.constrains)
    (hexplore : exploreData w ip shape first = .ok ⟨⟩ explored)
    (hconstraints : applyDesignConstraints w ip shape explored = .ok ⟨⟩ u) :
    0 < u.numSolution ↔ ∃ x ∈ first.basicTrials w ip shape,
      x.bank.metrics.within explored.allowedData = true := by
  have hcount : u.numSolution = ((explored.withBasicWires ip).kept w .data
      (fun b => !b.invalid && b.metrics.within explored.allowedData)
      (ip.geometries w.fuel shape)).length := by
    rw [(returns_constrained hconstrains).apply hconstraints]
    exact (State.loopConstrained_spec ip shape explored.allowedData explored).2
  rw [hcount, (exploreData_withBasicWires hexplore).kept, List.length_pos_iff_exists_mem]
  constructor
  · rintro ⟨x, hx⟩
    obtain ⟨hmem, hkeep⟩ := List.mem_filter.mp hx
    rw [Bool.and_eq_true] at hkeep
    exact ⟨x, List.mem_filter.mpr ⟨hmem, hkeep.1⟩, hkeep.2⟩
  · rintro ⟨x, hx, hwithin⟩
    obtain ⟨hmem, hvalid⟩ := List.mem_filter.mp hx
    refine ⟨x, List.mem_filter.mpr ⟨hmem, ?_⟩⟩
    show (!x.bank.invalid && x.bank.metrics.within explored.allowedData) = true
    rw [hwithin, Bool.and_true]
    exact hvalid

/-- The exploration under constraints finds a solution whenever a known design
    satisfies them, exactly when a best record that satisfies them comes with a
    valid basic-wire design that does. -/
theorem findsKnown_iff (hconstrains : ip.constrains)
    (hexplore : exploreData w ip shape first = .ok ⟨⟩ explored)
    (hconstraints : applyDesignConstraints w ip shape explored = .ok ⟨⟩ u) :
    first.FindsKnown w ip shape explored u ↔
      ((∃ t, (explored.best .data t).stored.bank.metrics.within explored.allowedData = true) →
        ∃ x ∈ first.basicTrials w ip shape,
          x.bank.metrics.within explored.allowedData = true) := by
  rw [State.FindsKnown, State.numSolution_pos_iff hconstrains hexplore hconstraints]
  constructor
  · rintro hfinds ⟨t, hwithin⟩
    exact hfinds ⟨_, Or.inr ⟨t, rfl⟩, hwithin⟩
  · rintro hrecord ⟨x, hx | ⟨t, rfl⟩, hwithin⟩
    · exact ⟨x, hx, hwithin⟩
    · exact hrecord ⟨t, hwithin⟩

end

/-- A memory whose best read latency is the limit. -/
def constrainedMemory : List OptionLine := openLocalWire ++ [.applyReadLatencyConstraint 0]

/-- The state the data exploration of the memory starts from. -/
def State.enterMemory (w : World) : State :=
  ((State.initial w).load w constrainedMemory).enterCell w 0 "edram.cell"

/-- The sizes of the memory. -/
def memoryShape (w : World) : ArrayShape :=
  let ip := (State.enterMemory w).inputParameter
  ip.dataShape (w.memCellType "edram.cell") ip.partitionGranularity

/-- Both explorations of the memory return, and what is checked of them holds. -/
def World.explores (w : World) (check : State → State → Bool) : Bool :=
  let first := State.enterMemory w
  match exploreData w first.inputParameter (memoryShape w) first with
  | .ok _ explored =>
      match applyDesignConstraints w first.inputParameter (memoryShape w) explored with
      | .ok _ u => check explored u
      | .error _ _ => false
  | .error _ _ => false

theorem World.exists_of_explores {w : World} {check : State → State → Bool}
    (h : w.explores check = true) : ∃ explored u,
      exploreData w (State.enterMemory w).inputParameter (memoryShape w) (State.enterMemory w) =
        .ok ⟨⟩ explored ∧
      applyDesignConstraints w (State.enterMemory w).inputParameter (memoryShape w) explored =
        .ok ⟨⟩ u ∧ check explored u = true := by
  rw [World.explores] at h
  split at h
  · next explored hexplore =>
    split at h
    · next u hconstraints => exact ⟨explored, u, hexplore, hconstraints, h⟩
    · cases h
  · cases h

theorem findsKnown_iff_all_valid : ∃ explored u,
    let w := World.allValid
    let first := State.enterMemory w
    exploreData w first.inputParameter (memoryShape w) first = .ok ⟨⟩ explored ∧
      applyDesignConstraints w first.inputParameter (memoryShape w) explored = .ok ⟨⟩ u ∧
      (explored.best .data .read_latency_optimized).stored.bank.metrics.within
        explored.allowedData = true ∧ 0 < u.numSolution := by
  let first := State.enterMemory World.allValid
  obtain ⟨explored, u, hexplore, hconstraints, hcheck⟩ :=
    @World.exists_of_explores World.allValid (fun explored _ =>
      (explored.best .data .read_latency_optimized).stored.bank.metrics.within
        explored.allowedData &&
      (first.basicTrials World.allValid first.inputParameter (memoryShape World.allValid)).any
        fun x => x.bank.metrics.within explored.allowedData) (by decide +kernel)
  rw [Bool.and_eq_true, List.any_eq_true] at hcheck
  obtain ⟨hwithin, hbasic⟩ := hcheck
  have hfinds := (findsKnown_iff (by decide +kernel) hexplore hconstraints).mpr fun _ => hbasic
  exact ⟨explored, u, hexplore, hconstraints, hwithin, hfinds ⟨_, Or.inr ⟨_, rfl⟩, hwithin⟩⟩

/-- The best record meets its own limit, no basic-wire design does, and the run
    ends without a solution. -/
theorem refined_best_lost : (∃ explored u,
    let w := World.fasterConservative
    let first := State.enterMemory w
    exploreData w first.inputParameter (memoryShape w) first = .ok ⟨⟩ explored ∧
      applyDesignConstraints w first.inputParameter (memoryShape w) explored = .ok ⟨⟩ u ∧
      ¬ first.FindsKnown w first.inputParameter (memoryShape w) explored u) ∧
    (World.fasterConservative.run constrainedMemory).totalSolutions = 0 := by
  refine ⟨?_, by decide +kernel⟩
  obtain ⟨explored, u, hexplore, hconstraints, hcheck⟩ :=
    @World.exists_of_explores World.fasterConservative (fun explored u =>
      (explored.best .data .read_latency_optimized).stored.bank.metrics.within
        explored.allowedData && u.numSolution = 0) (by decide +kernel)
  rw [Bool.and_eq_true, decide_eq_true_eq] at hcheck
  refine ⟨explored, u, hexplore, hconstraints, fun hfinds => ?_⟩
  have hpos := hfinds ⟨_, Or.inr ⟨.read_latency_optimized, rfl⟩, hcheck.1⟩
  rw [hcheck.2] at hpos
  exact Nat.lt_irrefl 0 hpos

end Destiny
