/-
  Destiny.Search.Explore

  What an exploration that returns has done, as a function of the state.

  The loops of `nvsim` may stop the run: a wire is not supported, a capacity
  check fails, a loop is not over.  A loop that returns has folded one pure step
  over what it visits: `State.tryDesign` over the designs of a nest,
  `State.tryWire` over the wires of a refinement.  Properties of a whole
  exploration are then inductions over these folds.
-/

import Destiny.Search.Invariant

namespace Destiny

open Lib

/-! ## Pure steps -/

/-- `tryDesign` without its checks. -/
def State.tryDesign (w : World) (stage : Stage) (m : MemoryType) (keep : EvaluatedBank → Bool)
    (output : State → State) (s : State) (g : Geometry) : State :=
  let v := s.visit w stage m g
  if keep v.trial.bank then output ((s.emit (.evaluated v)).record v)
  else s.emit (.evaluated v)

/-- The geometries a data nest evaluates, those not too aggressively partitioned. -/
def InputParameter.geometries (ip : InputParameter) (fuel : Nat) (shape : ArrayShape) :
    List Geometry :=
  ((ip.bigFor fuel .data).visited.filter fun p => shape.blockSize.tdiv p.activeProduct ≠ 0).map
    fun p => p.geometry shape

/-- One refinement trial: the wire is in force, the other one is loaded. -/
def State.tryRecord (w : World) (m : MemoryType) (load : State → MemoryType → Target → State)
    (stage : Target → Stage) (s : State) (t : Target) : State :=
  (load s m t).TRY_AND_UPDATE w (stage t) m t

/-- All trials of one wire. -/
def State.tryWire (w : World) (m : MemoryType) (set : State → Wire → State)
    (load : State → MemoryType → Target → State) (stage : Target → Stage)
    (output : State → State) (s : State) (x : Wire) : State :=
  output (Target.all.foldl (State.tryRecord w m load stage) (set s x))

def State.setLocalWire (s : State) (x : Wire) : State := { s with localWire := x }

def State.setGlobalWire (s : State) (x : Wire) : State := { s with globalWire := x }

def State.loadLocalWire (s : State) (m : MemoryType) (t : Target) : State :=
  s.setLocalWire (s.best m t).stored.localWire

def State.loadGlobalWire (s : State) (m : MemoryType) (t : Target) : State :=
  s.setGlobalWire (s.best m t).stored.globalWire

/-- Both refinements. -/
def State.refined (w : World) (ip : InputParameter) (m : MemoryType) (output : State → State)
    (s : State) : State :=
  if 0 < s.numSolution then
    (ip.array m).globalWires.foldl
      (State.tryWire w m .setGlobalWire .loadLocalWire .refineGlobal output)
      ((ip.array m).localWires.foldl
        (State.tryWire w m .setLocalWire .loadGlobalWire .refineLocal output) s)
  else s

def State.withBasicWires (ip : InputParameter) (s : State) : State :=
  (s.setLocalWire ip.data.basicLocalWire).setGlobalWire ip.data.basicGlobalWire

/-- The rows written for a design in a full exploration without pruning. -/
def State.outputDesign (ip : InputParameter) (s : State) : State :=
  if ip.writesEveryDesign then s.OUTPUT_TO_FILE else s

/-- The first `BIGFOR`. -/
def State.loopData (w : World) (ip : InputParameter) (shape : ArrayShape) (s : State) : State :=
  (ip.geometries w.fuel shape).foldl
    (State.tryDesign w .basic .data (fun b => !b.invalid) (State.outputDesign ip))
    ((s.withBasicWires ip).emit (.loopStart .data ip.toSearchBounds))

/-- The exploration under the limits `allowed`. -/
def State.loopConstrained (w : World) (ip : InputParameter) (shape : ArrayShape)
    (allowed : Limits) (s : State) : State :=
  (ip.geometries w.fuel shape).foldl
    (State.tryDesign w .constrained .data (fun b => !b.invalid && b.metrics.within allowed) id)
    (({ s.APPLY_LIMIT allowed with numSolution := 0 } : State).withBasicWires ip)

/-! ## The loops fold their steps -/

section
variable {w : World} {ip : InputParameter} {shape : ArrayShape}

theorem returns_stopIf {failed : Bool} {halt : Halt} : Returns id (stopIf failed halt) := by
  cases failed with
  | true => exact Returns.throw
  | false => exact Returns.pure

theorem returns_setLocalWire (x : Wire) : Returns (fun s => s.setLocalWire x) (setLocalWire x) :=
  Returns.modify.bind fun _ => returns_stopIf

theorem returns_setGlobalWire (x : Wire) :
    Returns (fun s => s.setGlobalWire x) (setGlobalWire x) :=
  Returns.modify.bind fun _ => returns_stopIf

theorem returns_basicWire : Returns (State.withBasicWires ip) (INITIAL_BASIC_WIRE ip) :=
  (returns_setLocalWire _).bind fun _ => returns_setGlobalWire _

theorem returns_loadLocalWire (m : MemoryType) (t : Target) :
    Returns (fun s => s.loadLocalWire m t) (LOAD_LOCAL_WIRE m t) :=
  Returns.get_bind fun _ => returns_setLocalWire _

theorem returns_loadGlobalWire (m : MemoryType) (t : Target) :
    Returns (fun s => s.loadGlobalWire m t) (LOAD_GLOBAL_WIRE m t) :=
  Returns.get_bind fun _ => returns_setGlobalWire _

theorem returns_outputDesign : Returns (State.outputDesign ip) (outputDesign ip) :=
  Returns.modify.cond Returns.pure

theorem returns_tryDesign {stage : Stage} {m : MemoryType} {keep : EvaluatedBank → Bool}
    {output : Search Unit} {out : State → State} (hout : Returns out output) (g : Geometry) :
    Returns (fun s => s.tryDesign w stage m keep out g) (tryDesign w stage m keep output g) := by
  -- The design is evaluated in the state read first; the rest starts from there.
  have hrest : ∀ v : Visit, Returns
      (fun u => if keep v.trial.bank then out (u.record v) else u)
      (if keep v.trial.bank then do
        stopIf v.trial.bank.violatesCapacity .exited
        modify fun s => { s with numSolution := s.numSolution + 1 }.UPDATE_BEST v
        output
      else pure () : Search Unit) := by
    intro v
    have hrecord : Returns (fun u => u.record v)
        (modify fun s => { s with numSolution := s.numSolution + 1 }.UPDATE_BEST v :
          Search Unit) := Returns.modify
    exact (returns_stopIf.check_bind fun _ => hrecord.bind fun _ => hout).cond Returns.pure
  intro s u t hrun
  let v := s.visit w stage m g
  have hemit : Returns (fun s => s.emit (.evaluated v))
      (modify fun s => s.emit (.evaluated v) : Search Unit) := Returns.modify
  exact (hemit.bind fun _ => hrest v) s u t hrun

/-- A nest passes over the designs that are too aggressively partitioned. -/
theorem returns_nest {f : State → Geometry → State} {body : Geometry → Search Unit}
    (hbody : ∀ g, Returns (fun s => f s g) (body g)) :
    Returns (fun s => (ip.geometries w.fuel shape).foldl f s)
      ((ip.bigFor w.fuel .data).forEach .outOfFuel fun p =>
        partitioned shape.blockSize p (body (p.geometry shape))) := by
  have hpoint : ∀ p : DesignPoint, Returns
      (fun s => if shape.blockSize.tdiv p.activeProduct = 0 then s else f s (p.geometry shape))
      (partitioned shape.blockSize p (body (p.geometry shape))) := fun p =>
    returns_stopIf.check_bind fun _ => Returns.pure.cond (hbody _)
  have hfold : (fun s => (ip.geometries w.fuel shape).foldl f s) = fun s =>
      (ip.bigFor w.fuel .data).visited.foldl (fun s p =>
        if shape.blockSize.tdiv p.activeProduct = 0 then s else f s (p.geometry shape)) s := by
    funext s
    rw [InputParameter.geometries, List.foldl_map, List.foldl_filter]
    congr
    funext s p
    by_cases h : shape.blockSize.tdiv p.activeProduct = 0 <;> simp [h]
  rw [hfold]
  exact Returns.forEach hpoint

theorem returns_dataLoop : Returns (State.loopData w ip shape) (dataLoop w ip shape) :=
  returns_basicWire.bind fun _ => Returns.modify.bind fun _ =>
    returns_nest fun g => returns_tryDesign returns_outputDesign g

theorem returns_exploreConstrained (allowed : Limits) :
    Returns (State.loopConstrained w ip shape allowed) (exploreConstrained w ip shape allowed) :=
  Returns.modify.bind fun _ => returns_basicWire.bind fun _ =>
    returns_nest fun g => returns_tryDesign Returns.pure g

theorem returns_refineWire {m : MemoryType} {set : Wire → Search Unit}
    {load : MemoryType → Target → Search Unit} {stage : Target → Stage} {output : Search Unit}
    {set' : State → Wire → State} {load' : State → MemoryType → Target → State}
    {out : State → State} (hset : ∀ x, Returns (fun s => set' s x) (set x))
    (hload : ∀ t, Returns (fun s => load' s m t) (load m t)) (hout : Returns out output)
    (wires : List Wire) :
    Returns (fun s => wires.foldl (State.tryWire w m set' load' stage out) s)
      (refineWire w m set load stage wires output) := by
  have htrial : ∀ t, Returns (fun s => State.tryRecord w m load' stage s t)
      (do load m t; modify (State.TRY_AND_UPDATE w (stage t) m t) : Search Unit) := by
    intro t
    have hmodify : Returns (State.TRY_AND_UPDATE w (stage t) m t)
        (modify (State.TRY_AND_UPDATE w (stage t) m t) : Search Unit) := Returns.modify
    exact (hload t).bind fun _ => hmodify
  have hwire : ∀ x, Returns (fun s => State.tryWire w m set' load' stage out s x)
      (do
        set x
        Target.all.forM fun t => do
          load m t
          modify (State.TRY_AND_UPDATE w (stage t) m t)
        output : Search Unit) :=
    fun x => (hset x).bind fun _ => (Returns.forM Target.all htrial).bind fun _ => hout
  exact Returns.forM wires hwire

theorem returns_refine {m : MemoryType} {output : Search Unit} {out : State → State}
    (hout : Returns out output) :
    Returns (State.refined w ip m out) (refine w ip m output) := by
  refine Returns.get_bind (f := fun s u => if 0 < s.numSolution then
    (ip.array m).globalWires.foldl
      (State.tryWire w m .setGlobalWire .loadLocalWire .refineGlobal out)
      ((ip.array m).localWires.foldl
        (State.tryWire w m .setLocalWire .loadGlobalWire .refineLocal out) u)
    else u) fun s => ?_
  refine Returns.cond ?_ Returns.pure
  exact (returns_refineWire returns_setLocalWire (returns_loadGlobalWire m) hout _).bind
    fun _ => returns_refineWire returns_setGlobalWire (returns_loadLocalWire m) hout _

/-- The data exploration: the nest, then the refinements. -/
theorem returns_exploreData :
    Returns (fun s => (s.loopData w ip shape).refined w ip .data (State.outputDesign ip))
      (exploreData w ip shape) :=
  returns_dataLoop.bind fun _ => returns_refine returns_outputDesign

end

/-! ## What a nest does -/

/-- The trial of a geometry in a state. -/
def State.design (w : World) (s : State) (m : MemoryType) (g : Geometry) : Trial :=
  w.trial s.cellFile s.tech s.inputParameter m g s.localWire s.globalWire

/-- What the trial of a geometry depends on is the same in both states. -/
structure State.SameSetting (s u : State) : Prop where
  cell : u.cell = s.cell
  cellFile : u.cellFile = s.cellFile
  tech : u.tech = s.tech
  inputParameter : u.inputParameter = s.inputParameter
  localWire : u.localWire = s.localWire
  globalWire : u.globalWire = s.globalWire

section
variable {w : World} {s u v : State} {stage : Stage} {m : MemoryType}
variable {keep : EvaluatedBank → Bool} {output : State → State}

theorem State.SameSetting.trans (h : s.SameSetting u) (h' : u.SameSetting v) : s.SameSetting v :=
  ⟨h'.cell.trans h.cell, h'.cellFile.trans h.cellFile, h'.tech.trans h.tech,
    h'.inputParameter.trans h.inputParameter, h'.localWire.trans h.localWire,
    h'.globalWire.trans h.globalWire⟩

theorem State.SameSetting.design (h : s.SameSetting u) (m : MemoryType) (g : Geometry) :
    u.design w m g = s.design w m g := by
  rw [State.design, State.design, h.cellFile, h.tech, h.inputParameter, h.localWire, h.globalWire]

/-- Output only adds to the trace. -/
def Outputs (output : State → State) : Prop := ∀ s, ∃ trace, output s = { s with trace := trace }

theorem outputs_id : Outputs id := fun s => ⟨s.trace, rfl⟩

theorem outputs_outputDesign (ip : InputParameter) : Outputs (State.outputDesign ip) := by
  intro s
  rw [State.outputDesign]
  split
  · exact ⟨_, rfl⟩
  · exact ⟨s.trace, rfl⟩

theorem State.tryDesign_of_keep {g : Geometry} (h : keep (s.design w m g).bank = true) :
    s.tryDesign w stage m keep output g =
      output ((s.emit (.evaluated (s.visit w stage m g))).record (s.visit w stage m g)) := if_pos h

theorem State.tryDesign_of_not_keep {g : Geometry} (h : ¬ keep (s.design w m g).bank = true) :
    s.tryDesign w stage m keep output g = s.emit (.evaluated (s.visit w stage m g)) := if_neg h

/-- One design of a nest: it counts and is compared when it is kept. -/
theorem State.tryDesign_spec (hout : Outputs output) (s : State) (g : Geometry) :
    s.SameSetting (s.tryDesign w stage m keep output g) ∧
      (s.tryDesign w stage m keep output g).numSolution =
        s.numSolution + (if keep (s.design w m g).bank then 1 else 0) ∧
      (s.tryDesign w stage m keep output g).best = fun n t =>
        if n = m ∧ keep (s.design w m g).bank then (s.best n t).compareAndUpdate (s.design w m g)
        else s.best n t := by
  by_cases hkeep : keep (s.design w m g).bank = true
  · obtain ⟨trace, htrace⟩ := hout ((s.emit (.evaluated (s.visit w stage m g))).record
      (s.visit w stage m g))
    rw [State.tryDesign_of_keep hkeep, htrace, State.record_eq, if_pos hkeep]
    refine ⟨⟨rfl, rfl, rfl, rfl, rfl, rfl⟩, rfl, ?_⟩
    simp only [hkeep, and_true]
    rfl
  · rw [State.tryDesign_of_not_keep hkeep, if_neg hkeep]
    refine ⟨⟨rfl, rfl, rfl, rfl, rfl, rfl⟩, rfl, ?_⟩
    simp [hkeep]

/-- The designs a nest keeps, in the order of the visits. -/
def State.kept (w : World) (s : State) (m : MemoryType) (keep : EvaluatedBank → Bool)
    (gs : List Geometry) : List Trial :=
  (gs.map (s.design w m)).filter fun x => keep x.bank

theorem State.SameSetting.kept (h : s.SameSetting u) (m : MemoryType)
    (keep : EvaluatedBank → Bool) (gs : List Geometry) :
    u.kept w m keep gs = s.kept w m keep gs := by
  have hdesign : u.design w m = s.design w m := funext (h.design m)
  rw [State.kept, State.kept, hdesign]

/-- A nest counts the designs it keeps and compares each record with all of them. -/
theorem State.foldl_tryDesign (hout : Outputs output) (gs : List Geometry) (s : State) :
    s.SameSetting (gs.foldl (State.tryDesign w stage m keep output) s) ∧
      (gs.foldl (State.tryDesign w stage m keep output) s).numSolution =
        s.numSolution + (s.kept w m keep gs).length ∧
      ∀ t, (gs.foldl (State.tryDesign w stage m keep output) s).best m t =
        (s.kept w m keep gs).foldl Result.compareAndUpdate (s.best m t) := by
  induction gs generalizing s with
  | nil => exact ⟨⟨rfl, rfl, rfl, rfl, rfl, rfl⟩, rfl, fun t => rfl⟩
  | cons g gs ih =>
      obtain ⟨hsetting, hcount, hbest⟩ := State.tryDesign_spec (w := w) hout s g
      obtain ⟨hsetting', hcount', hbest'⟩ := ih (s.tryDesign w stage m keep output g)
      rw [List.foldl_cons]
      refine ⟨hsetting.trans hsetting', ?_, fun t => ?_⟩
      · rw [hcount', hcount, hsetting.kept, State.kept, State.kept, List.map_cons]
        by_cases hkeep : keep (s.design w m g).bank <;> simp [hkeep]
        omega
      · rw [hbest', hbest, hsetting.kept, State.kept, State.kept, List.map_cons]
        by_cases hkeep : keep (s.design w m g).bank <;> simp [hkeep]

end

end Destiny
