/-
  Destiny.Search.Optimum

  The best records at the end of the unconstrained data exploration.

  Each record is the running best over the trials made for its target: the valid
  designs of the basic-wire nest, then the refinement trials of that target
  (`State.Refines`).  So it is the first of the best of them, and its wires are
  the ones its bank was evaluated with (`State.refined_optimal`).  The nest
  evaluates every design of the space (`State.loopData_tries`) and a refinement
  every wire for every target (`State.refined_triesWires`).
-/

import Destiny.Search.Cells
import Destiny.Search.Found
import Destiny.Search.Validity

namespace Destiny

open Lib

/-! ## Trials of a target -/

/-- The stage refines the record of a target. -/
def Stage.refinesFor (t : Target) : Stage → Bool
  | .refineLocal u | .refineGlobal u => u = t
  | _ => false

/-- A refinement trial of the data record of a target. -/
def Event.trialFor (t : Target) : Event → Option Trial
  | .evaluated v =>
      if v.memoryType = .data ∧ v.stage.refinesFor t = true then some v.trial else none
  | _ => none

/-- The refinement trials made for a target. -/
def trialsFor (t : Target) (events : List Event) : List Trial := events.filterMap (Event.trialFor t)

/-- Evaluating the geometry of a trial with its wires gives the trial. -/
def State.Reevaluates (w : World) (s : State) (x : Trial) : Prop :=
  w.trial s.cellFile s.tech s.inputParameter .data x.bank.geometry x.localWire x.globalWire = x

/-- `u` is reached from `s` by refinement trials: every data record is the
    running best over the trials of its target. -/
structure State.Refines (w : World) (s u : State) : Prop where
  cell : u.cell = s.cell
  cellFile : u.cellFile = s.cellFile
  tech : u.tech = s.tech
  inputParameter : u.inputParameter = s.inputParameter
  numSolution : u.numSolution = s.numSolution
  events : ∃ es, u.trace = s.trace ++ es ∧ ∀ t,
    u.best .data t = (trialsFor t es).foldl Result.compareAndUpdate (s.best .data t) ∧
      ∀ x ∈ trialsFor t es, s.Reevaluates w x

section
variable {w : World} {ip : InputParameter} {shape : ArrayShape} {s u v : State}

theorem State.Refines.refl (w : World) (s : State) : s.Refines w s :=
  ⟨rfl, rfl, rfl, rfl, rfl, [], by simp, fun t => ⟨rfl, fun x hx => (by cases hx)⟩⟩

theorem State.Refines.trans (h : s.Refines w u) (h' : u.Refines w v) : s.Refines w v := by
  obtain ⟨es, htrace, hes⟩ := h.events
  obtain ⟨es', htrace', hes'⟩ := h'.events
  refine ⟨h'.cell.trans h.cell, h'.cellFile.trans h.cellFile, h'.tech.trans h.tech,
    h'.inputParameter.trans h.inputParameter, h'.numSolution.trans h.numSolution, es ++ es', ?_,
    fun t => ⟨?_, fun x hx => ?_⟩⟩
  · rw [htrace', htrace, List.append_assoc]
  · rw [trialsFor, List.filterMap_append, List.foldl_append]
    exact (hes' t).1.trans (by rw [(hes t).1]; rfl)
  · rw [trialsFor, List.filterMap_append, List.mem_append] at hx
    rcases hx with hx | hx
    · exact (hes t).2 x hx
    · have hagain := (hes' t).2 x hx
      rw [State.Reevaluates, h.cellFile, h.tech, h.inputParameter] at hagain
      exact hagain

/-- A loop refines when each of its steps does. -/
theorem State.Refines.foldl {α : Type} {f : State → α → State}
    (hstep : ∀ (s : State) x, s.Refines w (f s x)) (xs : List α) (s : State) :
    s.Refines w (xs.foldl f s) := by
  induction xs generalizing s with
  | nil => exact .refl w s
  | cons x xs ih => exact (hstep s x).trans (ih (f s x))

/-- Events that are no trials. -/
theorem State.Refines.emitAll {es : List Event} (hes : ∀ e ∈ es, ∀ t, e.trialFor t = none)
    (s : State) : s.Refines w (s.emitAll es) := by
  have hnone : ∀ t, trialsFor t es = [] := fun t =>
    List.filterMap_eq_nil_iff.mpr fun e he => hes e he t
  refine ⟨rfl, rfl, rfl, rfl, rfl, es, rfl, fun t => ?_⟩
  rw [hnone t]
  exact ⟨rfl, fun x hx => (by cases hx)⟩

theorem State.Refines.outputDesign (ip : InputParameter) (s : State) :
    s.Refines w (s.outputDesign ip) := by
  rw [State.outputDesign]
  split
  · apply State.Refines.emitAll
    intro e he t
    obtain ⟨tag, -, rfl⟩ := State.mem_tempRows he
    rfl
  · exact .refl w s

/-- A refinement trial compares the record it was made for. -/
theorem State.Refines.tryRecord {load : State → MemoryType → Target → State}
    {stage : Target → Stage} (hload : ∀ (s : State) m t, s.Refines w (load s m t))
    (hstage : stage = .refineLocal ∨ stage = .refineGlobal) (s : State) (t : Target) :
    s.Refines w (s.tryRecord w .data load stage t) := by
  apply (hload s .data t).trans
  show (load s .data t).Refines w ((load s .data t).TRY_AND_UPDATE w (stage t) .data t)
  generalize load s .data t = s
  let v := s.visit w (stage t) .data (s.best .data t).stored.bank.geometry
  refine ⟨rfl, rfl, rfl, rfl, rfl, [.evaluated v, .compared v t (s.best .data t)], ?_, fun u => ?_⟩
  · show s.trace ++ [_] ++ [_] = _
    rw [List.append_assoc]
    rfl
  have hother : v.stage.refinesFor u = true ↔ t = u := by
    rcases hstage with rfl | rfl <;> simp [v, State.visit, Stage.refinesFor]
  -- the trial is recorded for its own target alone
  by_cases htu : t = u
  · subst htu
    have htrials : trialsFor t [.evaluated v, .compared v t (s.best .data t)] = [v.trial] := by
      have hevaluated : (Event.evaluated v).trialFor t = some v.trial :=
        if_pos ⟨rfl, hother.mpr rfl⟩
      rw [trialsFor, List.filterMap_cons_some hevaluated]
      rfl
    rw [htrials]
    refine ⟨State.compare_best_self _ v t, fun x hx => ?_⟩
    rw [List.mem_singleton.mp hx]
    rfl
  · have htrials : trialsFor u [.evaluated v, .compared v t (s.best .data t)] = [] := by
      have hevaluated : (Event.evaluated v).trialFor u = none :=
        if_neg fun h => htu (hother.mp h.2)
      rw [trialsFor, List.filterMap_cons_none hevaluated]
      rfl
    rw [htrials]
    refine ⟨?_, fun x hx => (by cases hx)⟩
    exact State.compare_best_of_ne _ v fun h => htu h.2.symm

theorem State.Refines.setWire (s : State) (x y : Wire) :
    s.Refines w { s with localWire := x, globalWire := y } :=
  ⟨rfl, rfl, rfl, rfl, rfl, [], by simp, fun t => ⟨rfl, fun x hx => (by cases hx)⟩⟩

/-- All trials of one wire. -/
theorem State.Refines.tryWire {set : State → Wire → State}
    {load : State → MemoryType → Target → State} {stage : Target → Stage}
    (hset : ∀ (s : State) x, s.Refines w (set s x))
    (hload : ∀ (s : State) m t, s.Refines w (load s m t))
    (hstage : stage = .refineLocal ∨ stage = .refineGlobal) (s : State) (x : Wire) :
    s.Refines w (s.tryWire w .data set load stage (State.outputDesign ip) x) := by
  have htrials :
      (set s x).Refines w (Target.all.foldl (State.tryRecord w .data load stage) (set s x)) :=
    .foldl (fun s t => .tryRecord hload hstage s t) _ _
  exact ((hset s x).trans htrials).trans (.outputDesign ip _)

/-- Both refinements. -/
theorem State.Refines.refined (s : State) :
    s.Refines w (s.refined w ip .data (State.outputDesign ip)) := by
  rw [State.refined]
  split
  · refine State.Refines.trans (.foldl (fun s x => ?_) _ s) (.foldl (fun s x => ?_) _ _)
    · exact .tryWire (fun s x => .setWire s x s.globalWire)
        (fun s m t => .setWire s s.localWire _) (Or.inl rfl) s x
    · exact .tryWire (fun s x => .setWire s s.localWire x)
        (fun s m t => .setWire s _ s.globalWire) (Or.inr rfl) s x
  · exact .refl w s

end

/-! ## The optimum -/

/-- Invalid banks have infinite metrics, in no objective below the worst case. -/
def World.InvalidInfinite (w : World) : Prop :=
  ∀ cell tech ip m g l gl, (w.evaluate cell tech ip m g l gl).invalid = true →
    ∀ t, Metrics.worstCase.objective t ≤ (w.evaluate cell tech ip m g l gl).metrics.objective t

/-- The valid designs of the basic-wire nest, in the order of the visits. -/
def State.basicTrials (w : World) (ip : InputParameter) (shape : ArrayShape) (s : State) :
    List Trial :=
  (s.withBasicWires ip).kept w .data (fun b => !b.invalid) (ip.geometries w.fuel shape)

/-- The data record of a target is the first of the best trials, and its wires
    are the ones its bank was evaluated with. -/
structure State.Optimal (w : World) (s : State) (t : Target) (trials : List Trial) : Prop where
  le : ∀ x ∈ trials, (s.best .data t).stored.bank.metrics.objective t ≤ x.bank.metrics.objective t
  first : ∃ pre post, trials = pre ++ (s.best .data t).stored :: post ∧
    ∀ x ∈ pre, (s.best .data t).stored.bank.metrics.objective t < x.bank.metrics.objective t
  reevaluates : s.Reevaluates w (s.best .data t).stored

section
variable {w : World} {ip : InputParameter} {shape : ArrayShape} {s u : State} {t : Target}

/-- The nest counts the valid designs and compares each record with all of them. -/
theorem State.loopData_spec (s : State) :
    (s.withBasicWires ip).SameSetting (s.loopData w ip shape) ∧
      (s.loopData w ip shape).numSolution =
        s.numSolution + (s.basicTrials w ip shape).length ∧
      ∀ t, (s.loopData w ip shape).best .data t =
        (s.basicTrials w ip shape).foldl Result.compareAndUpdate (s.best .data t) := by
  obtain ⟨hsetting, hcount, hbest⟩ := @State.foldl_tryDesign w .basic .data (fun b => !b.invalid) _
    (outputs_outputDesign ip) (ip.geometries w.fuel shape)
    ((s.withBasicWires ip).emit (.loopStart .data ip.toSearchBounds))
  exact ⟨⟨hsetting.cell, hsetting.cellFile, hsetting.tech, hsetting.inputParameter,
    hsetting.localWire, hsetting.globalWire⟩, hcount, hbest⟩

/-- A trial of the state is never accepted by an unset record when it is invalid. -/
theorem State.Reevaluates.finite_or_le {x : Trial} (hx : s.Reevaluates w x) (hfinite : w.Finite)
    (hinfinite : w.InvalidInfinite) (t : Target) :
    x.bank.metrics.Finite ∨ Metrics.worstCase.objective t ≤ x.bank.metrics.objective t := by
  rw [← hx]
  cases hinvalid : (w.evaluate s.cellFile s.tech s.inputParameter .data x.bank.geometry x.localWire
    x.globalWire).invalid with
  | false => exact Or.inl (hfinite _ _ _ _ _ _ _ hinvalid)
  | true => exact Or.inr (hinfinite _ _ _ _ _ _ _ hinvalid t)

/-- A record that starts as the worst case and is compared with trials, one of
    them finite, holds the first of the best of them. -/
theorem State.optimal_of_foldl {trials : List Trial} (hfinite : w.Finite)
    (hinfinite : w.InvalidInfinite) {memory : Trial} {cell : Nat}
    (hbest : s.best .data t = trials.foldl Result.compareAndUpdate (Result.new memory t cell))
    (htrials : ∀ x ∈ trials, s.Reevaluates w x) {x : Trial} (hx : x ∈ trials)
    (hxfinite : x.bank.metrics.Finite) : s.Optimal w t trials := by
  rw [Result.foldl_compareAndUpdate] at hbest
  let ok : Trial → Bool := fun y => y.bank.metrics.within .unset
  let key : Trial → ℚ := fun y => y.bank.metrics.objective t
  have hfirst :
      FirstBest ok key (Metrics.worstCase.objective t) trials (s.best .data t).stored := by
    rw [hbest]
    exact @foldl_keepBest_of_exists _ _ _ ok key _ (Result.new memory t cell).stored _ hx
      hxfinite.within (hxfinite.lt t)
  -- A trial that is not within the limits is infinite.
  have hcases : ∀ y ∈ trials, ok y = true ∨ Metrics.worstCase.objective t ≤ key y := fun y hy =>
    ((htrials y hy).finite_or_le hfinite hinfinite t).imp_left Metrics.Finite.within
  refine ⟨fun y hy => ?_, ?_, htrials _ hfirst.mem⟩
  · rcases hcases y hy with hok | hworst
    · exact hfirst.le y hy hok
    · exact hfirst.lt_top.le.trans hworst
  · obtain ⟨pre, post, hsplit, hpre⟩ := hfirst.split
    refine ⟨pre, post, hsplit, fun y hy => ?_⟩
    have hmem : y ∈ trials := by
      rw [hsplit]
      exact List.mem_append_left _ hy
    rcases hcases y hmem with hok | hworst
    · exact hpre y hy hok
    · exact hfirst.lt_top.trans_le hworst

/-- The designs of the nest are trials of the state the nest ends in. -/
theorem State.loopData_reevaluates {x : Trial} (hx : x ∈ s.basicTrials w ip shape) :
    (s.loopData w ip shape).Reevaluates w x := by
  obtain ⟨hmem, -⟩ := List.mem_filter.mp hx
  obtain ⟨g, -, rfl⟩ := List.mem_map.mp hmem
  have hsetting := (@State.loopData_spec w ip shape s).1
  rw [State.Reevaluates, hsetting.cellFile, hsetting.tech, hsetting.inputParameter]
  rfl

/-- The records after nest and refinements, from newly allocated ones. -/
theorem State.refined_optimal (hfinite : w.Finite) (hinfinite : w.InvalidInfinite)
    (hfresh : s.best .data t = Result.new w.recordMemory t s.cell)
    (hvalid : s.basicTrials w ip shape ≠ []) {es : List Event}
    (hrefines : (s.loopData w ip shape).Refines w u)
    (htrace : u.trace = (s.loopData w ip shape).trace ++ es) :
    u.Optimal w t (s.basicTrials w ip shape ++ trialsFor t es) ∧
      (u.best .data t).stored.bank.metrics.objective t ≤
        ((s.loopData w ip shape).best .data t).stored.bank.metrics.objective t := by
  obtain ⟨es', htrace', hes⟩ := hrefines.events
  obtain rfl : es = es' := List.append_cancel_left (htrace.symm.trans htrace')
  have hsame : ∀ x, (s.loopData w ip shape).Reevaluates w x → u.Reevaluates w x := by
    intro x hx
    rw [State.Reevaluates, hrefines.cellFile, hrefines.tech, hrefines.inputParameter]
    exact hx
  have hbest : u.best .data t = (s.basicTrials w ip shape ++ trialsFor t es).foldl
      Result.compareAndUpdate (Result.new w.recordMemory t s.cell) := by
    rw [List.foldl_append, (hes t).1, (State.loopData_spec s).2.2, hfresh]
  have htrials : ∀ x ∈ s.basicTrials w ip shape ++ trialsFor t es, u.Reevaluates w x := by
    intro x hx
    rcases List.mem_append.mp hx with hx | hx
    · exact hsame x (State.loopData_reevaluates hx)
    · exact hsame x ((hes t).2 x hx)
  obtain ⟨x, hx⟩ := List.exists_mem_of_ne_nil _ hvalid
  have hxfinite : x.bank.metrics.Finite := by
    obtain ⟨hmem, hkeep⟩ := List.mem_filter.mp hx
    obtain ⟨g, -, rfl⟩ := List.mem_map.mp hmem
    have hinvalid : ((s.withBasicWires ip).design w .data g).bank.invalid = false := by
      simpa using hkeep
    exact hfinite _ _ _ _ _ _ _ hinvalid
  refine ⟨State.optimal_of_foldl hfinite hinfinite hbest htrials
    (List.mem_append_left _ hx) hxfinite, ?_⟩
  -- The refinements only go on from the record of the nest.
  have htarget : ((s.loopData w ip shape).best .data t).optimizationTarget = t := by
    rw [(State.loopData_spec s).2.2, hfresh, Result.foldl_compareAndUpdate]
    rfl
  have hle := @foldl_keepBest_le_init _ _ _
    (fun y : Trial => y.bank.metrics.within ((s.loopData w ip shape).best .data t).limits)
    ((s.loopData w ip shape).best .data t).key (trialsFor t es)
    ((s.loopData w ip shape).best .data t).stored
  rw [Result.key, Result.key, htarget] at hle
  rw [(hes t).1, Result.foldl_compareAndUpdate]
  exact hle

end


/-! ## What was tried -/

/-- A data trial evaluated in a stage. -/
def Event.trialIn (stage : Stage) : Event → Option Trial
  | .evaluated v => if v.memoryType = .data ∧ v.stage = stage then some v.trial else none
  | _ => none

/-- The data trials of a stage, in the order they were made. -/
def trialsIn (stage : Stage) (events : List Event) : List Trial :=
  events.filterMap (Event.trialIn stage)

/-- The valid designs visited in the basic-wire nest. -/
def validDesigns (events : List Event) : List Trial :=
  (trialsIn .basic events).filter fun x => !x.bank.invalid

/-- Between `s` and `u` the data trials of a stage are `trials`. -/
def State.Tries (stage : Stage) (s u : State) (trials : List Trial) : Prop :=
  ∃ es, u.trace = s.trace ++ es ∧ trialsIn stage es = trials

section
variable {w : World} {ip : InputParameter} {shape : ArrayShape} {s u v : State}
variable {stage : Stage} {xs ys : List Trial}

theorem State.Tries.trans (h : s.Tries stage u xs) (h' : u.Tries stage v ys) :
    s.Tries stage v (xs ++ ys) := by
  obtain ⟨es, htrace, rfl⟩ := h
  obtain ⟨es', htrace', rfl⟩ := h'
  refine ⟨es ++ es', ?_, List.filterMap_append⟩
  rw [htrace', htrace, List.append_assoc]

theorem State.Tries.trialsIn_eq (h : s.Tries stage u xs) {es : List Event}
    (htrace : u.trace = s.trace ++ es) : trialsIn stage es = xs := by
  obtain ⟨es', htrace', hes⟩ := h
  rw [List.append_cancel_left (htrace.symm.trans htrace')]
  exact hes

/-- Events that are no evaluations. -/
theorem State.Tries.emitAll {es : List Event} (hes : ∀ e ∈ es, e.trialIn stage = none)
    (s : State) : s.Tries stage (s.emitAll es) [] :=
  ⟨es, rfl, List.filterMap_eq_nil_iff.mpr hes⟩

theorem State.Tries.outputDesign (ip : InputParameter) (s : State) :
    s.Tries stage (s.outputDesign ip) [] := by
  rw [State.outputDesign]
  split
  · apply State.Tries.emitAll
    intro e he
    obtain ⟨tag, -, rfl⟩ := State.mem_tempRows he
    rfl
  · exact ⟨[], by simp, rfl⟩

/-- An evaluation is a trial of its stage. -/
theorem State.Tries.evaluated (s : State) {v : Visit} (hv : v.memoryType = .data) :
    s.Tries stage (s.emit (.evaluated v)) (if v.stage = stage then [v.trial] else []) := by
  refine ⟨[.evaluated v], rfl, ?_⟩
  by_cases hstage : v.stage = stage
  · have htrial : (Event.evaluated v).trialIn stage = some v.trial := if_pos ⟨hv, hstage⟩
    rw [if_pos hstage, trialsIn, List.filterMap_cons_some htrial]
    rfl
  · have htrial : (Event.evaluated v).trialIn stage = none := if_neg fun h => hstage h.2
    rw [if_neg hstage, trialsIn, List.filterMap_cons_none htrial]
    rfl

/-- A refinement trial. -/
theorem State.Tries.TRY_AND_UPDATE (s : State) (st : Stage) (t : Target) :
    s.Tries stage (s.TRY_AND_UPDATE w st .data t)
      (if st = stage then [s.design w .data (s.best .data t).stored.bank.geometry] else []) := by
  let v := s.visit w st .data (s.best .data t).stored.bank.geometry
  have hevaluated : s.Tries stage (s.emit (.evaluated v)) (if st = stage then [v.trial] else []) :=
    .evaluated s rfl
  have hcompared : (s.emit (.evaluated v)).Tries stage (s.TRY_AND_UPDATE w st .data t) [] :=
    ⟨[_], rfl, rfl⟩
  rw [← List.append_nil (ite _ _ _)]
  exact hevaluated.trans hcompared

/-- One design of a nest. -/
theorem State.Tries.tryDesign {keep : EvaluatedBank → Bool} {output : State → State}
    (hout : ∀ s : State, s.Tries stage (output s) []) (s : State) (g : Geometry) :
    s.Tries stage (s.tryDesign w stage .data keep output g) [s.design w .data g] := by
  have hevaluated : s.Tries stage (s.emit (.evaluated (s.visit w stage .data g)))
      [s.design w .data g] := by
    have hvisit := @State.Tries.evaluated stage s (s.visit w stage .data g) rfl
    rw [if_pos (show (s.visit w stage .data g).stage = stage from rfl)] at hvisit
    exact hvisit
  by_cases hkeep : keep (s.design w .data g).bank = true
  · rw [State.tryDesign_of_keep hkeep]
    let v := s.visit w stage .data g
    have hrecord : (s.emit (.evaluated v)).Tries stage ((s.emit (.evaluated v)).record v) [] := by
      rw [State.record_eq]
      refine ⟨_, rfl, List.filterMap_eq_nil_iff.mpr fun e he => ?_⟩
      obtain ⟨t, -, rfl⟩ := List.mem_map.mp he
      rfl
    exact (hevaluated.trans hrecord).trans (hout _)
  · rw [State.tryDesign_of_not_keep hkeep]
    exact hevaluated

/-- A nest evaluates the designs of the space in their order. -/
theorem State.Tries.foldl_tryDesign {keep : EvaluatedBank → Bool} {output : State → State}
    (houtputs : Outputs output) (hout : ∀ s : State, s.Tries stage (output s) [])
    (gs : List Geometry) (s : State) :
    s.Tries stage (gs.foldl (State.tryDesign w stage .data keep output) s)
      (gs.map (s.design w .data)) := by
  induction gs generalizing s with
  | nil => exact ⟨[], by simp, rfl⟩
  | cons g gs ih =>
      have hsetting := (@State.tryDesign_spec w stage .data keep output houtputs s g).1
      have hrest := ih (s.tryDesign w stage .data keep output g)
      rw [funext (hsetting.design (w := w) .data)] at hrest
      exact (State.Tries.tryDesign hout s g).trans hrest

/-- The nest starts with the basic wires. -/
theorem State.loopData_tries (s : State) : s.Tries .basic (s.loopData w ip shape)
    ((ip.geometries w.fuel shape).map ((s.withBasicWires ip).design w .data)) := by
  have hstart : s.Tries .basic
      ((s.withBasicWires ip).emit (.loopStart .data ip.toSearchBounds)) [] := ⟨_, rfl, rfl⟩
  exact hstart.trans (.foldl_tryDesign (outputs_outputDesign ip) (.outputDesign ip) _ _)

theorem State.loopConstrained_trace (allowed : Limits) (s : State) :
    ∃ es, (s.loopConstrained w ip shape allowed).trace =
      s.trace ++ .limitsApplied s.cell allowed :: es := by
  let start := ({ s.APPLY_LIMIT allowed with numSolution := 0 } : State).withBasicWires ip
  obtain ⟨es, htrace, -⟩ := @State.Tries.foldl_tryDesign w .constrained
    (fun b => !b.invalid && b.metrics.within allowed) id outputs_id
    (fun s => ⟨[], by simp, rfl⟩) (ip.geometries w.fuel shape) start
  refine ⟨es, htrace.trans ?_⟩
  show s.trace ++ [_] ++ es = _
  rw [List.append_assoc]
  rfl

/-- Without constraints nothing follows the unconstrained exploration but its output. -/
theorem unconstrained_best (hconstrains : ¬ ip.constrains)
    (hrun : applyDesignConstraints w ip shape (s.outputPruned ip) = .ok ⟨⟩ u) :
    u.best = s.best ∧ u.numSolution = s.numSolution := by
  rw [(returns_unconstrained hconstrains).apply hrun, State.outputPruned]
  split <;> exact ⟨rfl, rfl⟩

/-- What follows the unconstrained exploration only adds to the trace. -/
theorem constrained_trace
    (hrun : applyDesignConstraints w ip shape (s.outputPruned ip) = .ok ⟨⟩ u) :
    ∃ after, u.trace = s.trace ++ after := by
  have hpruned : ∃ rows, (s.outputPruned ip).trace = s.trace ++ rows := by
    rw [State.outputPruned]
    split
    · exact ⟨_, rfl⟩
    · exact ⟨[], (List.append_nil _).symm⟩
  obtain ⟨rows, hrows⟩ := hpruned
  by_cases hconstrains : ip.constrains
  · obtain ⟨es, htrace⟩ := @State.loopConstrained_trace w ip shape (s.outputPruned ip).allowedData
      (s.outputPruned ip)
    rw [(returns_constrained hconstrains).apply hrun]
    exact ⟨_, by rw [htrace, hrows, List.append_assoc]⟩
  · rw [(returns_unconstrained hconstrains).apply hrun]
    exact ⟨rows, hrows⟩

end

/-! ## The wires tried -/

/-- What sets one refinement apart from the other: the loop its trials belong to
    and the wire it varies. -/
structure Refinement where
  stage : Target → Stage
  wire : Trial → Wire
  inForce : State → Wire
  stage_inj : ∀ {t u}, stage t = stage u → t = u
  inForce_update : ∀ (w : World) (s : State) st m t, inForce (s.TRY_AND_UPDATE w st m t) = inForce s
  wire_design : ∀ (w : World) (s : State) g, wire (s.design w .data g) = inForce s

def Refinement.localWire : Refinement where
  stage := .refineLocal
  wire := Trial.localWire
  inForce := State.localWire
  stage_inj := Stage.refineLocal.inj
  inForce_update _ _ _ _ _ := rfl
  wire_design _ _ _ := rfl

def Refinement.globalWire : Refinement where
  stage := .refineGlobal
  wire := Trial.globalWire
  inForce := State.globalWire
  stage_inj := Stage.refineGlobal.inj
  inForce_update _ _ _ _ _ := rfl
  wire_design _ _ _ := rfl

/-- Between `s` and `u` a refinement tries the wires `wires t` for a target. -/
def Refinement.Tries (r : Refinement) (s u : State) (wires : Target → List Wire) : Prop :=
  ∀ t, ∃ trials, s.Tries (r.stage t) u trials ∧ trials.map r.wire = wires t

section
variable {w : World} {ip : InputParameter} {s u v : State} {r : Refinement}
variable {set : State → Wire → State} {load : State → MemoryType → Target → State}
variable {stage : Target → Stage} {xs ys : Target → List Wire}

theorem Refinement.Tries.trans (h : r.Tries s u xs) (h' : r.Tries u v ys) :
    r.Tries s v fun t => xs t ++ ys t := by
  intro t
  obtain ⟨trials, htrials, hxs⟩ := h t
  obtain ⟨trials', htrials', hys⟩ := h' t
  exact ⟨_, htrials.trans htrials', by rw [List.map_append, hxs, hys]⟩

theorem Refinement.Tries.map_wire (h : r.Tries s u xs) {es : List Event}
    (htrace : u.trace = s.trace ++ es) (t : Target) :
    (trialsIn (r.stage t) es).map r.wire = xs t := by
  obtain ⟨trials, htrials, hwires⟩ := h t
  rw [htrials.trialsIn_eq htrace]
  exact hwires

/-- What leaves the trace alone tries nothing. -/
theorem Refinement.Tries.of_trace (h : u.trace = s.trace) : r.Tries s u fun _ => [] :=
  fun _ => ⟨[], ⟨[], by rw [h, List.append_nil], rfl⟩, rfl⟩

theorem Refinement.Tries.outputDesign (ip : InputParameter) (s : State) :
    r.Tries s (s.outputDesign ip) fun _ => [] := fun _ => ⟨[], .outputDesign ip s, rfl⟩

/-- A loop tries what its steps try. -/
theorem Refinement.Tries.foldl {α : Type} {f : State → α → State} {g : α → Target → List Wire}
    (hstep : ∀ (s : State) x, r.Tries s (f s x) (g x)) (zs : List α) (s : State) :
    r.Tries s (zs.foldl f s) fun t => zs.flatMap fun x => g x t := by
  induction zs generalizing s with
  | nil => exact .of_trace rfl
  | cons x zs ih => exact (hstep s x).trans (ih (f s x))

theorem Refinement.Tries.foldl_nil {α : Type} {f : State → α → State}
    (hstep : ∀ (s : State) x, r.Tries s (f s x) fun _ => []) (zs : List α) (s : State) :
    r.Tries s (zs.foldl f s) fun _ => [] := by
  intro t
  obtain ⟨trials, htrials, hwires⟩ := Refinement.Tries.foldl hstep zs s t
  exact ⟨trials, htrials, hwires.trans (List.flatMap_eq_nil_iff.mpr fun _ _ => rfl)⟩

/-- A trial for a target varies the wire of its own refinement only. -/
theorem Refinement.Tries.tryRecord (hload : ∀ (s : State) m t, (load s m t).trace = s.trace)
    (s : State) (t : Target) : r.Tries s (s.tryRecord w .data load stage t)
      fun u => if stage t = r.stage u then [r.inForce (load s .data t)] else [] := by
  intro u
  have hloaded : s.Tries (r.stage u) (load s .data t) [] :=
    ⟨[], by rw [hload, List.append_nil], rfl⟩
  refine ⟨_, hloaded.trans (.TRY_AND_UPDATE _ (stage t) t), ?_⟩
  show List.map r.wire (if stage t = r.stage u then [_] else []) =
    if stage t = r.stage u then [r.inForce (load s .data t)] else []
  split
  · exact congrArg (fun x => [x]) (r.wire_design w _ _)
  · rfl

/-- The other refinement tries none of the wires of this one. -/
theorem Refinement.Tries.other (hset : ∀ (s : State) x, (set s x).trace = s.trace)
    (hload : ∀ (s : State) m t, (load s m t).trace = s.trace)
    (hstage : ∀ t u, stage t ≠ r.stage u) (wires : List Wire) (s : State) :
    r.Tries s (wires.foldl (State.tryWire w .data set load stage (State.outputDesign ip)) s)
      fun _ => [] := by
  apply Refinement.Tries.foldl_nil
  intro s x
  have hrecord : ∀ (s : State) t, r.Tries s (s.tryRecord w .data load stage t) fun _ => [] := by
    intro s t
    have htried := @Refinement.Tries.tryRecord w r load stage hload s t
    simpa only [if_neg (hstage t _)] using htried
  exact ((Refinement.Tries.of_trace (hset s x)).trans (.foldl_nil hrecord Target.all _)).trans
    (.outputDesign ip _)

/-- The trials of one wire. -/
theorem Refinement.Tries.targets (hload : ∀ (s : State) m t, (load s m t).trace = s.trace)
    (hforce : ∀ (s : State) m t, r.inForce (load s m t) = r.inForce s) (ts : List Target)
    (s : State) : r.Tries s (ts.foldl (State.tryRecord w .data load r.stage) s)
      fun u => (ts.filter (· = u)).map fun _ => r.inForce s := by
  induction ts generalizing s with
  | nil => exact .of_trace rfl
  | cons t ts ih =>
      have hsame : r.inForce (s.tryRecord w .data load r.stage t) = r.inForce s :=
        (r.inForce_update w _ _ _ _).trans (hforce s .data t)
      have hrest := ih (s.tryRecord w .data load r.stage t)
      rw [hsame] at hrest
      intro u
      obtain ⟨trials, htrials, hwires⟩ := ((Refinement.Tries.tryRecord hload s t).trans hrest) u
      refine ⟨trials, htrials, hwires.trans ?_⟩
      rw [hforce]
      by_cases htu : t = u
      · simp [htu]
      · have hstage : r.stage t ≠ r.stage u := fun h => htu (r.stage_inj h)
        simp [htu, hstage]

/-- Each wire is tried once for every target. -/
theorem Refinement.Tries.own (hset : ∀ (s : State) x, (set s x).trace = s.trace)
    (hforce : ∀ (s : State) x, r.inForce (set s x) = x)
    (hload : ∀ (s : State) m t, (load s m t).trace = s.trace)
    (hkeep : ∀ (s : State) m t, r.inForce (load s m t) = r.inForce s) (wires : List Wire)
    (s : State) :
    r.Tries s (wires.foldl (State.tryWire w .data set load r.stage (State.outputDesign ip)) s)
      fun _ => wires := by
  have hwire : ∀ (s : State) x, r.Tries s
      (s.tryWire w .data set load r.stage (State.outputDesign ip) x) fun _ => [x] := by
    intro s x u
    have htargets := Refinement.Tries.targets (w := w) hload hkeep Target.all (set s x)
    obtain ⟨trials, htrials, hwires⟩ :=
      ((Refinement.Tries.of_trace (hset s x)).trans htargets).trans (.outputDesign ip _) u
    refine ⟨trials, htrials, hwires.trans ?_⟩
    rw [hforce]
    cases u <;> rfl
  intro t
  obtain ⟨trials, htrials, hwires⟩ := Refinement.Tries.foldl hwire wires s t
  exact ⟨trials, htrials, hwires.trans (List.flatMap_singleton' wires)⟩

end

section
variable {w : World} {ip : InputParameter} {s : State}

/-- The refinements try every wire for every target. -/
theorem State.refined_triesWires (hpos : 0 < s.numSolution) :
    Refinement.localWire.Tries s (s.refined w ip .data (State.outputDesign ip))
        (fun _ => (ip.array .data).localWires) ∧
      Refinement.globalWire.Tries s (s.refined w ip .data (State.outputDesign ip))
        (fun _ => (ip.array .data).globalWires) := by
  rw [State.refined, if_pos hpos]
  constructor
  · have hlocal := @Refinement.Tries.own w ip .localWire State.setLocalWire State.loadGlobalWire
      (fun _ _ => rfl) (fun _ _ => rfl) (fun _ _ _ => rfl) (fun _ _ _ => rfl)
      (ip.array .data).localWires s
    have hnone := @Refinement.Tries.other w ip .localWire State.setGlobalWire State.loadLocalWire
      .refineGlobal (fun _ _ => rfl) (fun _ _ _ => rfl) (fun _ _ h => by cases h)
      (ip.array .data).globalWires
    have hall := hlocal.trans (hnone _)
    simp only [List.append_nil] at hall
    exact hall
  · have hnone := @Refinement.Tries.other w ip .globalWire State.setLocalWire State.loadGlobalWire
      .refineLocal (fun _ _ => rfl) (fun _ _ _ => rfl) (fun _ _ h => by cases h)
      (ip.array .data).localWires s
    have hglobal := @Refinement.Tries.own w ip .globalWire State.setGlobalWire State.loadLocalWire
      (fun _ _ => rfl) (fun _ _ => rfl) (fun _ _ _ => rfl) (fun _ _ _ => rfl)
      (ip.array .data).globalWires
    exact hnone.trans (hglobal _)

end

/-! ## The data exploration of a cell -/

/-- In the unconstrained data exploration of a cell, with a valid design in the
    nest: each record is the first of the best trials of its target, the
    refinements did not worsen it and tried every wire, and its bank is the one
    its wires give.  A run that returns goes on from there. -/
theorem nvsim_data_optimal {w : World} (hfinite : w.Finite) (hinfinite : w.InvalidInfinite)
    {file : List OptionLine} {cell : Nat} {name : String} {s first explored : State}
    {shape : ArrayShape} (hrun : (s.enterCell w cell name).Explores w file shape first explored)
    (hvalid : first.basicTrials w first.inputParameter shape ≠ []) :
    ∃ mid basic refining,
      dataLoop w first.inputParameter shape first = .ok ⟨⟩ mid ∧
      mid.trace = first.trace ++ basic ∧ explored.trace = mid.trace ++ refining ∧
      validDesigns basic = first.basicTrials w first.inputParameter shape ∧
      (∀ t,
        explored.Optimal w t (validDesigns basic ++ trialsFor t refining) ∧
        (explored.best .data t).stored.bank.metrics.objective t ≤
          (mid.best .data t).stored.bank.metrics.objective t ∧
        (trialsIn (.refineLocal t) refining).map Trial.localWire =
          (first.inputParameter.array .data).localWires ∧
        (trialsIn (.refineGlobal t) refining).map Trial.globalWire =
          (first.inputParameter.array .data).globalWires) ∧
      ∀ u, nvsim w file (s.enterCell w cell name) = .ok false u →
        u.inputParameter = first.inputParameter ∧ (∃ after, u.trace = explored.trace ++ after) ∧
        (¬ u.inputParameter.constrains →
          u.best = explored.best ∧ u.numSolution = (validDesigns basic).length) := by
  obtain ⟨htags, hzero⟩ := hrun.fresh rfl
  -- the nest ends in `mid`, the refinements go on from there
  obtain ⟨_, mid, hloop, hrefine⟩ := bind_eq_ok.mp hrun.exploreData
  have hmid : mid = first.loopData w first.inputParameter shape := returns_dataLoop.apply hloop
  have hexplored := (returns_refine returns_outputDesign).apply hrefine
  have hrefines : mid.Refines w explored := by
    rw [hexplored]
    exact .refined mid
  obtain ⟨-, hcount, -⟩ := @State.loopData_spec w first.inputParameter shape first
  rw [hzero, Nat.zero_add, ← hmid] at hcount
  obtain ⟨basic, hbasic, htried⟩ := @State.loopData_tries w first.inputParameter shape first
  rw [← hmid] at hbasic
  have hdesigns : validDesigns basic = first.basicTrials w first.inputParameter shape := by
    rw [validDesigns, htried]
    rfl
  obtain ⟨refining, hrefining, -⟩ := hrefines.events
  have hwires := @State.refined_triesWires w first.inputParameter mid (by
    rw [hcount]
    exact List.length_pos_of_ne_nil hvalid)
  rw [← hexplored] at hwires
  refine ⟨mid, basic, refining, hloop, hbasic, hrefining, hdesigns, fun t => ?_, fun u hu => ?_⟩
  · -- the record has not been compared before the nest
    have hfresh : first.best .data t = Result.new w.recordMemory t first.cell := by
      rw [htags.data, htags.cell]
      rfl
    rw [hmid] at hrefines hrefining
    obtain ⟨hoptimal, hle⟩ :=
      State.refined_optimal hfinite hinfinite hfresh hvalid hrefines hrefining
    rw [hdesigns, hmid]
    rw [hmid] at hwires
    exact ⟨hoptimal, hle, hwires.1.map_wire hrefining t, hwires.2.map_wire hrefining t⟩
  · -- a run that returns has made this very exploration
    obtain ⟨first', explored', shape', hrun', hconstraints⟩ := nvsim_explores hu
    obtain ⟨rfl, rfl, rfl⟩ := hrun.unique hrun'
    have hinput : u.inputParameter = first.inputParameter := by
      rw [constrained_inputParameter hconstraints, State.outputPruned_inputParameter,
        hrefines.inputParameter, hmid]
      exact (State.loopData_spec first).1.inputParameter
    refine ⟨hinput, constrained_trace hconstraints, fun hunconstrained => ?_⟩
    obtain ⟨hbest, hsolutions⟩ := unconstrained_best (hinput ▸ hunconstrained) hconstraints
    refine ⟨hbest, hsolutions.trans (hrefines.numSolution.trans ?_)⟩
    rw [hcount, hdesigns]

/-- A world where a design is faster over conservative local wires. -/
def World.fasterConservative : World :=
  .zeroed fun _ _ _ memoryType _ localWire _ =>
    if localWire.wireType = .local_conservative then .uniform false 1 memoryType
    else .uniform false 2 memoryType

theorem fasterConservative_finite : World.fasterConservative.Finite := by
  intro cell tech ip m g l gl _
  have huniform : ∀ x : ℚ, x = 1 ∨ x = 2 → (Metrics.uniform x).Finite := by
    rintro x (rfl | rfl) <;> exact ⟨by decide +kernel, fun t => by cases t <;> decide +kernel⟩
  show (ite (l.wireType = .local_conservative) (Evaluation.uniform false 1 m)
    (Evaluation.uniform false 2 m)).metrics.Finite
  split
  · exact huniform 1 (Or.inl rfl)
  · exact huniform 2 (Or.inr rfl)

theorem fasterConservative_infinite : World.fasterConservative.InvalidInfinite := by
  intro cell tech ip m g l gl hinvalid
  change (ite (l.wireType = .local_conservative) (Evaluation.uniform false 1 m)
    (Evaluation.uniform false 2 m)).invalid = true at hinvalid
  split at hinvalid <;> cases hinvalid

/-- The states the exploration of a cell begins and ends in satisfy `check`. -/
def World.explorationMeets (w : World) (file : List OptionLine) (start : State)
    (check : ArrayShape → State → State → Bool) : Bool :=
  match beforeData w file start with
  | .ok (some g) ready =>
      let first : State := { ready with inputParameter := ready.inputParameter.adjustAccessMode }
      let shape := first.inputParameter.dataShape (w.memCellType first.cellFile) g
      match exploreData w first.inputParameter shape first with
      | .ok _ explored => check shape first explored
      | .error _ _ => false
  | _ => false

theorem World.explores_of_meets {w : World} {file : List OptionLine} {start : State}
    {check : ArrayShape → State → State → Bool}
    (h : w.explorationMeets file start check = true) :
    ∃ shape first explored, start.Explores w file shape first explored ∧
      check shape first explored = true := by
  rw [World.explorationMeets] at h
  split at h
  · next g ready hbefore =>
    dsimp only at h
    split at h
    · next explored hexplore =>
      exact ⟨_, _, explored, ⟨⟨g, ready, hbefore, rfl, rfl⟩, hexplore⟩, h⟩
    · cases h
  · cases h

/-- All designs of the nest read in 2, and the record holds a refinement that reads in 1. -/
theorem nvsim_data_optimal_open_wire :
    let w := World.fasterConservative
    let start := ((State.initial w).load w openLocalWire).enterCell w 0 "edram.cell"
    ∃ shape first explored basic refining,
      start.Explores w openLocalWire shape first explored ∧
      explored.trace = first.trace ++ basic ++ refining ∧ validDesigns basic ≠ [] ∧
      (∀ x ∈ validDesigns basic, x.bank.metrics.readLatency = 2) ∧
      (explored.best .data .read_latency_optimized).stored.bank.metrics.readLatency = 1 ∧
      ∀ t, explored.Optimal w t (validDesigns basic ++ trialsFor t refining) := by
  intro w start
  obtain ⟨shape, first, explored, hrun, hcheck⟩ := @World.explores_of_meets w openLocalWire start
    (fun shape first explored =>
      let trials := first.basicTrials w first.inputParameter shape
      !trials.isEmpty && trials.all (fun x => x.bank.metrics.readLatency = 2) &&
        (explored.best .data .read_latency_optimized).stored.bank.metrics.readLatency = 1)
    (by decide +kernel)
  simp only [Bool.and_eq_true, Bool.not_eq_true', List.isEmpty_eq_false_iff, List.all_eq_true,
    decide_eq_true_eq] at hcheck
  obtain ⟨⟨hvalid, hslow⟩, hfast⟩ := hcheck
  obtain ⟨mid, basic, refining, -, hbasic, hrefining, hdesigns, hoptimal, -⟩ :=
    nvsim_data_optimal fasterConservative_finite fasterConservative_infinite hrun hvalid
  refine ⟨shape, first, explored, basic, refining, hrun, by rw [hrefining, hbasic], ?_, ?_, hfast,
    fun t => (hoptimal t).1⟩
  · rw [hdesigns]
    exact hvalid
  · rw [hdesigns]
    exact hslow

end Destiny
