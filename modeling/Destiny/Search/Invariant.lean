/-
  Destiny.Search.Invariant

  Invariants of `nvsim`, proven transition by transition.

  `NvsimInvariant w file loaded I` lists what a predicate `I phase state` has to
  satisfy: one condition for each transition a run can make, with everything the
  run knows at that point (the search space of the phase, the wires in force,
  which design is being compared).  `NvsimInvariant.nvsim` is the induction over
  the program, made once; each safety property of the search then supplies the
  conditions only.
-/

import Destiny.Search.Bounds

namespace Destiny

open Lib

/-! ## What a run knows -/

/-- The stage and the array of the nest of a phase. -/
def Phase.nest : Phase → Option (Stage × MemoryType)
  | .loop m => some (.basic, m)
  | .constrained _ => some (.constrained, .data)
  | _ => none

/-- The test a nest makes on an evaluated bank. -/
def Phase.keeps : Phase → EvaluatedBank → Bool
  | .constrained allowed => fun b => !b.invalid && b.metrics.within allowed
  | _ => fun b => !b.invalid

theorem Phase.valid_of_keeps {phase : Phase} {b : EvaluatedBank} (h : phase.keeps b = true) :
    b.invalid = false := by
  cases phase <;> simp_all [Phase.keeps]

theorem Phase.within_of_keeps {allowed : Limits} {b : EvaluatedBank}
    (h : (Phase.constrained allowed).keeps b = true) : b.metrics.within allowed = true := by
  simp_all [Phase.keeps]

/-- `v` was evaluated in the state, and evaluating it again gives the same. -/
structure State.Current (w : World) (s : State) (v : Visit) : Prop where
  evaluated : .evaluated v ∈ s.trace
  visit : v = s.visit w v.stage v.memoryType v.trial.bank.geometry

/-- The wires `INITIAL_BASIC_WIRE` sets are in force. -/
def State.BasicWires (s : State) : Prop :=
  s.localWire = s.inputParameter.data.basicLocalWire ∧
    s.globalWire = s.inputParameter.data.basicGlobalWire

/-- The TSV values were just set for a die count. -/
def State.LayersSet (w : World) (s : State) (die : Int) : Prop :=
  ∃ before : Technology,
    s.tech = before.SetLayerCount w.tsvTable s.inputParameter die

/-- The stage of the last refinement trial of a wire. -/
def Stage.isLastTrial : Stage → Prop
  | .refineLocal t | .refineGlobal t => t = .area_optimized
  | _ => False

instance : DecidablePred Stage.isLastTrial
  | .refineLocal t | .refineGlobal t => inferInstanceAs (Decidable (t = .area_optimized))
  | .basic | .constrained => inferInstanceAs (Decidable False)

/-- A count of one more solution and the comparisons with the best records. -/
def State.record (s : State) (v : Visit) : State :=
  { s with numSolution := s.numSolution + 1 }.UPDATE_BEST v

/-- `tech->SetLayerCount(inputParameter, die)`. -/
def State.setLayers (w : World) (s : State) (die : Int) : State :=
  { s with tech := s.tech.SetLayerCount w.tsvTable s.inputParameter die }

/-- `APPLY_LIMIT` on every data record, and `numSolution = 0`. -/
def State.limit (s : State) : State :=
  { s.APPLY_LIMIT s.allowedData with numSolution := 0 }

theorem State.record_eq (s : State) (v : Visit) :
    s.record v =
      { s with
        numSolution := s.numSolution + 1
        temp := v.trial
        best := fun m t =>
          if m = v.memoryType then (s.best m t).compareAndUpdate v.trial else s.best m t
        trace := s.trace ++ Target.all.map fun t => .compared v t (s.best v.memoryType t) } := by
  rw [record, UPDATE_BEST_eq]

@[simp] theorem State.record_cell (s : State) (v : Visit) : (s.record v).cell = s.cell := by
  rw [record_eq]

@[simp] theorem State.record_explored (s : State) (v : Visit) :
    (s.record v).explored = s.explored := by
  rw [record_eq]

theorem State.record_trace (s : State) (v : Visit) :
    (s.record v).trace =
      s.trace ++ Target.all.map fun t => .compared v t (s.best v.memoryType t) := by
  rw [record_eq]

theorem State.current_visit (w : World) (s : State) (stage : Stage) (m : MemoryType)
    (g : Geometry) :
    (s.emit (.evaluated (s.visit w stage m g))).Current w (s.visit w stage m g) :=
  ⟨by simp, rfl⟩

theorem State.Current.record {w : World} {s : State} {v : Visit} (h : s.Current w v) :
    (s.record v).Current w v := by
  rw [State.record_eq]
  exact ⟨List.mem_append_left _ h.evaluated, h.visit⟩

theorem State.current_TRY_AND_UPDATE (w : World) (s : State) (stage : Stage) (m : MemoryType)
    (t : Target) :
    (s.TRY_AND_UPDATE w stage m t).Current w
      (s.visit w stage m (s.best m t).stored.bank.geometry) :=
  ⟨by simp [State.TRY_AND_UPDATE, State.compare], rfl⟩

/-! ## The conditions -/

/-- A predicate on phases and states that every transition of `nvsim` keeps. -/
structure NvsimInvariant (w : World) (file : List OptionLine) (loaded : InputParameter)
    (I : Phase → State → Prop) : Prop where
  setInput : ∀ {phase s} ip, I phase s → I phase { s with inputParameter := ip }
  setWires : ∀ {phase s} x y, I phase s → I phase { s with localWire := x, globalWire := y }
  startTag : ∀ {s}, loaded.designTarget = .cache → Space file loaded (.loop .tag) s.inputParameter →
    I .entered s → I (.loop .tag) (s.emit (.loopStart .tag s.inputParameter.toSearchBounds))
  skipTag : ∀ {s}, loaded.designTarget ≠ .cache → I .entered s → I .ready s
  startData : ∀ {s}, Space file loaded (.loop .data) s.inputParameter →
    I .ready s → I (.loop .data) (s.emit (.loopStart .data s.inputParameter.toSearchBounds))
  setLayers : ∀ {s p}, Space file loaded (.loop .tag) s.inputParameter →
    p ∈ (s.inputParameter.bigFor w.fuel .tag).visited →
      I (.loop .tag) s → I (.loop .tag) (s.setLayers w p.stackedDieCount)
  visit : ∀ {phase stage m s p g}, phase.nest = some (stage, m) →
    Space file loaded phase s.inputParameter → s.BasicWires →
      p ∈ (s.inputParameter.bigFor w.fuel m).visited → g.toDesignPoint = p →
        (m = .tag → s.LayersSet w p.stackedDieCount) →
          I phase s → I phase (s.emit (.evaluated (s.visit w stage m g)))
  record : ∀ {phase s v}, phase.nest = some (v.stage, v.memoryType) →
    Space file loaded phase s.inputParameter → s.BasicWires → s.Current w v →
      phase.keeps v.trial.bank = true → I phase s → I phase (s.record v)
  output : ∀ {phase s v}, Space file loaded phase s.inputParameter →
    s.inputParameter.writesEveryDesign = true → s.Current w v → s.temp = v.trial →
      v.memoryType = .data →
        (v.stage = .basic ∧ v.trial.bank.invalid = false ∨ v.stage.isLastTrial) →
          I phase s → I phase s.OUTPUT_TO_FILE
  startRefine : ∀ {m s}, 0 < s.numSolution → I (.loop m) s → I (.refining m) s
  tryLocal : ∀ {m s t}, Space file loaded (.refining m) s.inputParameter →
    s.localWire ∈ (s.inputParameter.array m).localWires →
      s.globalWire = (s.best m t).stored.globalWire →
        I (.refining m) s → I (.refining m) (s.TRY_AND_UPDATE w (.refineLocal t) m t)
  tryGlobal : ∀ {m s t}, Space file loaded (.refining m) s.inputParameter →
    s.globalWire ∈ (s.inputParameter.array m).globalWires →
      s.localWire = (s.best m t).stored.localWire →
        I (.refining m) s → I (.refining m) (s.TRY_AND_UPDATE w (.refineGlobal t) m t)
  restore : ∀ {s}, 0 < s.numSolution → I (.refining .tag) s → I .ready { s with numSolution := 0 }
  exploreNone : ∀ {s}, s.numSolution = 0 → I (.loop .data) s → I .explored s
  exploreSome : ∀ {s}, 0 < s.numSolution → I (.refining .data) s → I .explored s
  prune : ∀ {s}, Space file loaded .explored s.inputParameter →
    s.inputParameter.optimizationTarget = .full_exploration →
      s.inputParameter.isPruningEnabled = true →
        I .explored s → I .explored (s.emitAll s.prunedRows)
  limit : ∀ {s}, Space file loaded .explored s.inputParameter →
    I .explored s → I (.constrained s.allowedData) s.limit

namespace NvsimInvariant

variable {w : World} {file : List OptionLine} {loaded ip : InputParameter}
variable {I : Phase → State → Prop}

/-- The run stops in some phase of the invariant. -/
def Stops (I : Phase → State → Prop) (s : State) : Prop := ∃ phase, I phase s

/-- In a phase with a fixed object `ip`. -/
def In (I : Phase → State → Prop) (ip : InputParameter) (phase : Phase) (s : State) : Prop :=
  s.inputParameter = ip ∧ I phase s

theorem In.stops {phase : Phase} {s : State} (h : In I ip phase s) : Stops I s := ⟨phase, h.2⟩

/-! ## Small programs -/

theorem stopIf_spec {P R : State → Prop} {failed : Bool} {halt : Halt} (h : ∀ s, P s → R s) :
    Triple P (stopIf failed halt) (fun _ s => P s ∧ failed = false) R := by
  cases failed with
  | true => exact Triple.throw h
  | false => exact Triple.pure fun s hs => ⟨hs, rfl⟩

theorem setLocalWire_spec {P Q R : State → Prop} {x : Wire}
    (hQ : ∀ s, P s → Q { s with localWire := x }) (hR : ∀ s, Q s → R s) :
    Triple P (setLocalWire x) (fun _ => Q) R :=
  (Triple.modify hQ).bind fun _ => (stopIf_spec hR).conseq (fun _ hs => hs) (fun _ _ hs => hs.1)
    fun _ hs => hs

theorem setGlobalWire_spec {P Q R : State → Prop} {x : Wire}
    (hQ : ∀ s, P s → Q { s with globalWire := x }) (hR : ∀ s, Q s → R s) :
    Triple P (setGlobalWire x) (fun _ => Q) R :=
  (Triple.modify hQ).bind fun _ => (stopIf_spec hR).conseq (fun _ hs => hs) (fun _ _ hs => hs.1)
    fun _ hs => hs

theorem partitioned_spec {P R : State → Prop} {blockSize : Int} {p : DesignPoint}
    {body : Search Unit} (hbody : Triple P body (fun _ => P) R) (hR : ∀ s, P s → R s) :
    Triple P (partitioned blockSize p body) (fun _ => P) R := by
  refine (stopIf_spec hR).bind fun _ => ?_
  split
  · exact Triple.pure fun s hs => hs.1
  · exact hbody.conseq (fun s hs => hs.1) (fun _ _ hs => hs) fun _ hs => hs

section
variable (hI : NvsimInvariant w file loaded I)
include hI

theorem In.setLocalWire {phase : Phase} {s : State} (h : In I ip phase s) (x : Wire) :
    In I ip phase { s with localWire := x } := ⟨h.1, hI.setWires x s.globalWire h.2⟩

theorem In.setGlobalWire {phase : Phase} {s : State} (h : In I ip phase s) (x : Wire) :
    In I ip phase { s with globalWire := x } := ⟨h.1, hI.setWires s.localWire x h.2⟩

/-- In a phase with the basic wires of `ip`. -/
def Basic (I : Phase → State → Prop) (ip : InputParameter) (phase : Phase) (s : State) : Prop :=
  In I ip phase s ∧ s.BasicWires

theorem basicWire_spec {phase : Phase} :
    Triple (In I ip phase) (INITIAL_BASIC_WIRE ip) (fun _ => Basic I ip phase) (Stops I) := by
  have hlocal : Triple (In I ip phase) (setLocalWire ip.data.basicLocalWire)
      (fun _ s => In I ip phase s ∧ s.localWire = ip.data.basicLocalWire) (Stops I) :=
    setLocalWire_spec (fun s hs => ⟨In.setLocalWire hI hs _, rfl⟩) fun s hs => hs.1.stops
  refine hlocal.bind fun _ => setGlobalWire_spec (fun s hs => ?_) fun s hs => hs.1.stops
  have hip : s.inputParameter = ip := hs.1.1
  refine ⟨In.setGlobalWire hI hs.1 _, ?_, ?_⟩
  · show s.localWire = s.inputParameter.data.basicLocalWire
    rw [hip, hs.2]
  · show ip.data.basicGlobalWire = s.inputParameter.data.basicGlobalWire
    rw [hip]

/-! ## One design -/

/-- A design of a nest: evaluated, and when kept counted and compared. -/
theorem tryDesign_spec (phase : Phase) {stage : Stage} {m : MemoryType} {p : DesignPoint}
    {g : Geometry} {output : Search Unit} (hnest : phase.nest = some (stage, m))
    (hspace : Space file loaded phase ip) (hp : p ∈ (ip.bigFor w.fuel m).visited)
    (hg : g.toDesignPoint = p)
    (houtput : ∀ v : Visit, v.stage = stage → v.memoryType = m →
      phase.keeps v.trial.bank = true →
        Triple (fun s => Basic I ip phase s ∧ s.Current w v ∧ s.temp = v.trial) output
          (fun _ => Basic I ip phase) (Stops I)) :
    Triple (fun s => Basic I ip phase s ∧ (m = .tag → s.LayersSet w p.stackedDieCount))
      (tryDesign w stage m phase.keeps output g) (fun _ => Basic I ip phase) (Stops I) := by
  refine Triple.get_bind fun s hs => ?_
  obtain ⟨⟨⟨hip, hs⟩, hwires⟩, hlayers⟩ := hs
  subst hip
  dsimp only
  refine Triple.modify_bind (fun t => Basic I s.inputParameter phase t ∧
    t.Current w (s.visit w stage m g)) ?_ ?_
  · rintro _ rfl
    have hvisit := hI.visit hnest hspace hwires hp hg hlayers hs
    exact ⟨⟨⟨rfl, hvisit⟩, hwires⟩, State.current_visit w _ stage m g⟩
  by_cases hkeep : phase.keeps (s.visit w stage m g).trial.bank = true
  · rw [if_pos hkeep]
    refine (stopIf_spec fun t ht => ht.1.1.stops).bind fun _ => ?_
    refine Triple.modify_bind _ (fun t ht => ?_) (houtput _ rfl rfl hkeep)
    obtain ⟨⟨⟨⟨hip, ht⟩, htwires⟩, hcurrent⟩, -⟩ := ht
    have hrecord := hI.record hnest (hip ▸ hspace) htwires hcurrent hkeep ht
    have hcurrent := hcurrent.record
    show Basic I s.inputParameter phase (t.record _) ∧ (t.record _).Current w _ ∧
      (t.record _).temp = _
    rw [State.record_eq] at hrecord hcurrent ⊢
    exact ⟨⟨⟨hip, hrecord⟩, htwires⟩, hcurrent, rfl⟩
  · rw [if_neg hkeep]
    exact Triple.pure fun t ht => ht.1

/-- The body of `BIGFOR_TAG`. -/
theorem tagDesign_spec (hspace : Space file loaded (.loop .tag) ip) {g : Nat} {p : DesignPoint}
    (hp : p ∈ (ip.bigFor w.fuel .tag).visited) :
    Triple (Basic I ip (.loop .tag)) (tagDesign w ip g p) (fun _ => Basic I ip (.loop .tag))
      (Stops I) := by
  refine Triple.modify_bind
    (fun s => Basic I ip (.loop .tag) s ∧ s.LayersSet w p.stackedDieCount) (fun s hs => ?_) ?_
  · obtain ⟨⟨hip, hs⟩, hwires⟩ := hs
    subst hip
    exact ⟨⟨⟨rfl, hI.setLayers hspace hp hs⟩, hwires⟩, s.tech, rfl⟩
  · refine (stopIf_spec fun s hs => hs.1.1.stops).bind fun _ => ?_
    split
    · exact Triple.pure fun s hs => hs.1.1
    · refine (tryDesign_spec hI (.loop .tag) rfl hspace hp rfl
        fun v _ _ _ => Triple.pure fun _ hs => hs.1).conseq (fun s hs => ⟨hs.1.1, fun _ => hs.1.2⟩)
        (fun _ _ hs => hs) fun _ hs => hs

/-- The rows written for a design of the data nest. -/
theorem outputDesign_spec (hspace : Space file loaded (.loop .data) ip) {v : Visit}
    (hstage : v.stage = .basic) (hm : v.memoryType = .data)
    (hkeep : (Phase.loop .data).keeps v.trial.bank = true) :
    Triple (fun s => Basic I ip (.loop .data) s ∧ s.Current w v ∧ s.temp = v.trial)
      (outputDesign ip) (fun _ => Basic I ip (.loop .data)) (Stops I) := by
  rw [outputDesign]
  split
  · next hwrites =>
    refine Triple.modify fun s hs => ?_
    obtain ⟨⟨⟨hip, hs⟩, hwires⟩, hcurrent, htemp⟩ := hs
    subst hip
    have hvalid : v.trial.bank.invalid = false := Phase.valid_of_keeps hkeep
    exact ⟨⟨rfl, hI.output hspace hwrites hcurrent htemp hm (Or.inl ⟨hstage, hvalid⟩) hs⟩, hwires⟩
  · exact Triple.pure fun _ hs => hs.1

/-- The body of the first `BIGFOR`. -/
theorem dataDesign_spec (hspace : Space file loaded (.loop .data) ip) {shape : ArrayShape}
    {p : DesignPoint} (hp : p ∈ (ip.bigFor w.fuel .data).visited) :
    Triple (Basic I ip (.loop .data)) (dataDesign w ip shape p)
      (fun _ => Basic I ip (.loop .data)) (Stops I) := by
  refine partitioned_spec ?_ fun s hs => hs.1.stops
  refine (tryDesign_spec hI (.loop .data) rfl hspace hp rfl
    fun v hstage hm hkeep => outputDesign_spec hI hspace hstage hm hkeep).conseq
    (fun s hs => ⟨hs, nofun⟩) (fun _ _ hs => hs) fun _ hs => hs

/-- The body of the second `BIGFOR`. -/
theorem constrainedDesign_spec {allowed : Limits}
    (hspace : Space file loaded (.constrained allowed) ip) {shape : ArrayShape}
    {p : DesignPoint} (hp : p ∈ (ip.bigFor w.fuel .data).visited) :
    Triple (Basic I ip (.constrained allowed)) (constrainedDesign w shape allowed p)
      (fun _ => Basic I ip (.constrained allowed)) (Stops I) := by
  refine partitioned_spec ?_ fun s hs => hs.1.stops
  refine (tryDesign_spec hI (.constrained allowed) rfl hspace hp rfl
    fun v _ _ _ => Triple.pure fun _ hs => hs.1).conseq (fun s hs => ⟨hs, nofun⟩)
    (fun _ _ hs => hs) fun _ hs => hs

/-! ## Refinement -/

/-- In the refinement of an array whose nest found a solution. -/
def Refining (I : Phase → State → Prop) (ip : InputParameter) (m : MemoryType) (s : State) : Prop :=
  In I ip (.refining m) s ∧ 0 < s.numSolution

/-- The last trial of a wire is what `tempResult` holds. -/
def LastTrial (w : World) (m : MemoryType) (stage : Target → Stage) (tried : List Target)
    (s : State) : Prop :=
  ∀ t ∈ tried.getLast?, ∃ v, s.Current w v ∧ s.temp = v.trial ∧ v.memoryType = m ∧ v.stage = stage t

omit hI in
/-- A refinement keeps what each of its trials keeps. -/
theorem refineWire_spec {m : MemoryType} {set : Wire → Search Unit}
    {load : MemoryType → Target → Search Unit} {stage : Target → Stage} {wires : List Wire}
    {output : Search Unit} (inForce : Wire → State → Prop) (loaded' : Target → State → Prop)
    (hset : ∀ x, Triple (Refining I ip m) (set x)
      (fun _ s => Refining I ip m s ∧ inForce x s) (Stops I))
    (hload : ∀ x t, Triple (fun s => Refining I ip m s ∧ inForce x s) (load m t)
      (fun _ s => Refining I ip m s ∧ inForce x s ∧ loaded' t s) (Stops I))
    (htry : ∀ x ∈ wires, ∀ t s, Refining I ip m s → inForce x s → loaded' t s →
      Refining I ip m (s.TRY_AND_UPDATE w (stage t) m t) ∧
        inForce x (s.TRY_AND_UPDATE w (stage t) m t))
    (houtput : Triple (fun s => Refining I ip m s ∧ LastTrial w m stage Target.all s) output
      (fun _ => Refining I ip m) (Stops I)) :
    Triple (Refining I ip m) (refineWire w m set load stage wires output)
      (fun _ => Refining I ip m) (Stops I) := by
  refine Triple.forM (fun _ => Refining I ip m) fun pre x post hwires => ?_
  have hx : x ∈ wires := by simp [hwires]
  refine (hset x).bind fun _ => ?_
  -- Within one wire the targets tried so far leave their last trial in `tempResult`.
  have htrials : Triple (fun s => Refining I ip m s ∧ inForce x s)
      (Target.all.forM fun t => do
        load m t
        modify (State.TRY_AND_UPDATE w (stage t) m t))
      (fun _ s => (Refining I ip m s ∧ inForce x s) ∧ LastTrial w m stage Target.all s)
      (Stops I) := by
    refine (Triple.forM (fun tried s => (Refining I ip m s ∧ inForce x s) ∧
      LastTrial w m stage tried s) fun tried t _ _ => ?_).conseq
      (fun s hs => ⟨hs, nofun⟩) (fun _ _ hs => hs) fun _ hs => hs
    refine ((hload x t).conseq (fun s hs => hs.1) (fun _ _ hs => hs) fun _ hs => hs).bind
      fun _ => Triple.modify fun s hs => ?_
    obtain ⟨hs, hforce, hloaded⟩ := hs
    refine ⟨htry x hx t s hs hforce hloaded, fun u hu => ?_⟩
    obtain rfl : t = u := by simpa using hu
    exact ⟨_, State.current_TRY_AND_UPDATE w s (stage t) m t, rfl, rfl, rfl⟩
  exact htrials.bind fun _ => houtput.conseq (fun s hs => ⟨hs.1.1, hs.2⟩) (fun _ _ hs => hs)
    fun _ hs => hs

/-- "refine local wire type" -/
theorem refineLocalWire_spec {m : MemoryType} (hspace : Space file loaded (.refining m) ip)
    {output : Search Unit}
    (houtput : Triple (fun s => Refining I ip m s ∧ LastTrial w m .refineLocal Target.all s) output
      (fun _ => Refining I ip m) (Stops I)) :
    Triple (Refining I ip m) (refineLocalWire w ip m output) (fun _ => Refining I ip m)
      (Stops I) := by
  refine refineWire_spec (fun x s => s.localWire = x)
    (fun t s => s.globalWire = (s.best m t).stored.globalWire) ?_ ?_ ?_ houtput
  · exact fun x => setLocalWire_spec
      (fun s hs => ⟨⟨In.setLocalWire hI hs.1 x, hs.2⟩, rfl⟩) fun s hs => hs.1.1.stops
  · refine fun x t => Triple.get_bind fun s hs => setGlobalWire_spec ?_ fun s hs => hs.1.1.stops
    rintro _ rfl
    exact ⟨⟨In.setGlobalWire hI hs.1.1 _, hs.1.2⟩, hs.2, rfl⟩
  · rintro x hx t s ⟨⟨rfl, hs⟩, hpos⟩ rfl hglobal
    exact ⟨⟨⟨rfl, hI.tryLocal hspace hx hglobal hs⟩, hpos⟩, rfl⟩

/-- "refine global wire type" -/
theorem refineGlobalWire_spec {m : MemoryType} (hspace : Space file loaded (.refining m) ip)
    {output : Search Unit}
    (houtput : Triple (fun s => Refining I ip m s ∧ LastTrial w m .refineGlobal Target.all s) output
      (fun _ => Refining I ip m) (Stops I)) :
    Triple (Refining I ip m) (refineGlobalWire w ip m output) (fun _ => Refining I ip m)
      (Stops I) := by
  refine refineWire_spec (fun x s => s.globalWire = x)
    (fun t s => s.localWire = (s.best m t).stored.localWire) ?_ ?_ ?_ houtput
  · exact fun x => setGlobalWire_spec
      (fun s hs => ⟨⟨In.setGlobalWire hI hs.1 x, hs.2⟩, rfl⟩) fun s hs => hs.1.1.stops
  · refine fun x t => Triple.get_bind fun s hs => setLocalWire_spec ?_ fun s hs => hs.1.1.stops
    rintro _ rfl
    exact ⟨⟨In.setLocalWire hI hs.1.1 _, hs.1.2⟩, hs.2, rfl⟩
  · rintro x hx t s ⟨⟨rfl, hs⟩, hpos⟩ rfl hlocal
    exact ⟨⟨⟨rfl, hI.tryGlobal hspace hx hlocal hs⟩, hpos⟩, rfl⟩

/-- Both refinements, after a nest. -/
theorem refine_spec {m : MemoryType} (hspace : Space file loaded (.refining m) ip)
    {output : Search Unit}
    (houtput : ∀ stage : Target → Stage, (stage .area_optimized).isLastTrial →
      Triple (fun s => Refining I ip m s ∧ LastTrial w m stage Target.all s) output
        (fun _ => Refining I ip m) (Stops I)) :
    Triple (In I ip (.loop m)) (refine w ip m output)
      (fun _ s => s.numSolution = 0 ∧ In I ip (.loop m) s ∨ Refining I ip m s) (Stops I) := by
  refine Triple.get_bind fun s hs => ?_
  split
  · next hpos =>
    have hlocal := refineLocalWire_spec hI hspace (houtput .refineLocal rfl)
    have hglobal := refineGlobalWire_spec hI hspace (houtput .refineGlobal rfl)
    refine (hlocal.bind fun _ => hglobal).conseq ?_ (fun _ _ ht => Or.inr ht) fun _ ht => ht
    rintro _ rfl
    exact ⟨⟨hs.1, hI.startRefine hpos hs.2⟩, hpos⟩
  · next hzero =>
    refine Triple.pure ?_
    rintro _ rfl
    exact Or.inl ⟨Nat.eq_zero_of_not_pos hzero, hs⟩

/-! ## The tag phase -/

theorem applyConstraint_spec {phase : Phase} :
    Triple (fun s => Space file loaded phase s.inputParameter ∧ I phase s) (applyConstraint w)
      (fun _ s => Space file loaded phase s.inputParameter ∧ I phase s) (Stops I) := by
  refine Triple.get_bind fun s hs => ?_
  refine (stopIf_spec ?_).bind fun _ => ?_
  · rintro _ rfl
    exact ⟨phase, hs.2⟩
  · refine Triple.modify_bind
      (fun t => Space file loaded phase t.inputParameter ∧ I phase t) ?_ ?_
    · rintro _ ⟨rfl, -⟩
      exact ⟨hs.1.ignoreAssociativity, hI.setInput _ hs.2⟩
    · exact (stopIf_spec fun t ht => ⟨phase, ht.2⟩).conseq (fun _ ht => ht) (fun _ _ ht => ht.1)
        fun _ ht => ht

/-- The tag exploration over a reduced search space. -/
theorem exploreTag_spec (hspace : Space file loaded (.loop .tag) ip)
    (hcache : loaded.designTarget = .cache) {g : Nat} :
    Triple (In I ip .entered) (exploreTag w ip g)
      (fun _ s => s.numSolution = 0 ∧ In I ip (.loop .tag) s ∨ Refining I ip .tag s)
      (Stops I) := by
  refine (stopIf_spec fun s hs => hs.stops).bind fun _ => ?_
  refine ((basicWire_spec hI).conseq (fun s hs => hs.1) (fun _ _ hs => hs) fun _ hs => hs).bind
    fun _ => ?_
  refine Triple.modify_bind (Basic I ip (.loop .tag)) ?_ ?_
  · rintro s ⟨⟨rfl, hs⟩, hwires⟩
    exact ⟨⟨rfl, hI.startTag hcache hspace hs⟩, hwires⟩
  · have hloop : Triple (Basic I ip (.loop .tag))
        ((ip.bigFor w.fuel .tag).forEach .outOfFuel (tagDesign w ip g))
        (fun _ s => Basic I ip (.loop .tag) s ∧ (ip.bigFor w.fuel .tag).finished = true)
        (Stops I) := by
      refine Triple.forEach (fun _ => Basic I ip (.loop .tag)) (fun pre p post hp => ?_)
        fun _ s hs => hs.1.stops
      exact tagDesign_spec hI hspace (by rw [hp]; simp)
    have hrefining : Space file loaded (.refining .tag) ip := ⟨hspace.settings, hspace.bounds⟩
    have hrefine : Triple (In I ip (.loop .tag)) (refine w ip .tag (pure ()))
        (fun _ s => s.numSolution = 0 ∧ In I ip (.loop .tag) s ∨ Refining I ip .tag s) (Stops I) :=
      refine_spec hI hrefining fun _ _ => Triple.pure fun _ hs => hs.1
    exact (hloop.conseq (fun _ hs => hs) (fun _ _ hs => hs.1.1) fun _ hs => hs).bind
      fun _ => hrefine

/-! ## The data phase -/

/-- The rows written after the trials of a wire. -/
theorem outputTrial_spec (hspace : Space file loaded (.refining .data) ip)
    {stage : Target → Stage} (hstage : (stage .area_optimized).isLastTrial) :
    Triple (fun s => Refining I ip .data s ∧ LastTrial w .data stage Target.all s)
      (outputDesign ip) (fun _ => Refining I ip .data) (Stops I) := by
  rw [outputDesign]
  split
  · next hwrites =>
    refine Triple.modify ?_
    rintro s ⟨⟨⟨rfl, hs⟩, hpos⟩, hlast⟩
    obtain ⟨v, hcurrent, htemp, hm, hv⟩ := hlast .area_optimized (by decide)
    have hvstage : v.stage.isLastTrial := hv ▸ hstage
    exact ⟨⟨rfl, hI.output hspace hwrites hcurrent htemp hm (Or.inr hvstage) hs⟩, hpos⟩
  · exact Triple.pure fun _ hs => hs.1

/-- The unconstrained data exploration. -/
theorem exploreData_spec (hspace : Space file loaded (.loop .data) ip) {shape : ArrayShape} :
    Triple (In I ip .ready) (exploreData w ip shape) (fun _ => In I ip .explored)
      (Stops I) := by
  have hloop : Triple (In I ip .ready) (dataLoop w ip shape)
      (fun _ => In I ip (.loop .data)) (Stops I) := by
    refine (basicWire_spec hI).bind fun _ => ?_
    refine Triple.modify_bind (Basic I ip (.loop .data)) ?_ ?_
    · rintro s ⟨⟨rfl, hs⟩, hwires⟩
      exact ⟨⟨rfl, hI.startData hspace hs⟩, hwires⟩
    · refine (Triple.forEach (fun _ => Basic I ip (.loop .data)) (fun pre p post hp => ?_)
        fun _ s hs => hs.1.stops).conseq (fun _ hs => hs) (fun _ _ hs => hs.1.1) fun _ hs => hs
      exact dataDesign_spec hI hspace (by rw [hp]; simp)
  have hrefining : Space file loaded (.refining .data) ip := ⟨hspace.settings, hspace.bounds⟩
  have hrefine := refine_spec hI hrefining fun stage hstage => outputTrial_spec hI hrefining hstage
  refine hloop.bind fun _ => hrefine.conseq (fun _ hs => hs) (fun _ s hs => ?_) fun _ hs => hs
  rcases hs with ⟨hzero, hs⟩ | ⟨hs, hpos⟩
  · exact ⟨hs.1, hI.exploreNone hzero hs.2⟩
  · exact ⟨hs.1, hI.exploreSome hpos hs.2⟩

theorem outputPruned_spec (hspace : Space file loaded .explored ip) :
    Triple (In I ip .explored) (outputPruned ip) (fun _ => In I ip .explored) (Stops I) := by
  rw [outputPruned]
  split
  · next hprune =>
    refine Triple.modify ?_
    rintro s ⟨rfl, hs⟩
    simp only [Bool.and_eq_true, beq_iff_eq] at hprune
    exact ⟨rfl, hI.prune hspace hprune.1 hprune.2 hs⟩
  · exact Triple.pure fun _ hs => hs

/-- Where a data phase ends. -/
def Ended (I : Phase → State → Prop) (ip : InputParameter) (s : State) : Prop :=
  ¬ ip.constrains ∧ I .explored s ∨ ip.constrains ∧ ∃ allowed, I (.constrained allowed) s

theorem applyDesignConstraints_spec (hspace : Space file loaded .explored ip)
    {shape : ArrayShape} :
    Triple (In I ip .explored) (applyDesignConstraints w ip shape)
      (fun _ s => s.inputParameter = ip ∧ Ended I ip s) (Stops I) := by
  refine Triple.get_bind fun s hs => ?_
  split
  · next hconstrains =>
    obtain ⟨rfl, hs⟩ := hs
    refine Triple.modify_bind (In I s.inputParameter (.constrained s.allowedData)) ?_ ?_
    · rintro _ rfl
      exact ⟨rfl, hI.limit hspace hs⟩
    · refine (basicWire_spec hI).bind fun _ => ?_
      refine (Triple.forEach (fun _ => Basic I s.inputParameter (.constrained s.allowedData))
        (fun pre p post hp => ?_) fun _ s hs => hs.1.stops).conseq (fun _ hs => hs)
        (fun _ t ht => ⟨ht.1.1.1, Or.inr ⟨hconstrains, _, ht.1.1.2⟩⟩) fun _ hs => hs
      exact constrainedDesign_spec hI ⟨hspace.settings, hspace.bounds⟩ (by rw [hp]; simp)
  · next hconstrains =>
    refine Triple.pure ?_
    rintro _ rfl
    exact ⟨hs.1, Or.inl ⟨hconstrains, hs.2⟩⟩

theorem searchData_spec {g : Nat} :
    Triple (fun s => Space file loaded .ready s.inputParameter ∧ I .ready s) (searchData w g)
      (fun _ s => Space file loaded .explored s.inputParameter ∧ Ended I s.inputParameter s)
      (Stops I) := by
  refine Triple.modify_bind
    (fun s => Space file loaded (.loop .data) s.inputParameter ∧ I .ready s) ?_ ?_
  · rintro s ⟨hspace, hs⟩
    exact ⟨hspace.adjustAccessMode, hI.setInput _ hs⟩
  · refine Triple.get_bind fun s hs => ?_
    obtain ⟨hspace, hs⟩ := hs
    have hexplored : Space file loaded .explored s.inputParameter :=
      ⟨hspace.settings, hspace.bounds⟩
    dsimp only
    refine ((exploreData_spec hI hspace).conseq ?_ (fun _ _ ht => ht) fun _ ht => ht).bind
      fun _ => (outputPruned_spec hI hexplored).bind fun _ =>
        (applyDesignConstraints_spec hI hexplored).conseq (fun _ ht => ht) (fun _ t ht => ?_)
          fun _ ht => ht
    · rintro _ rfl
      exact ⟨rfl, hs⟩
    · rw [ht.1]
      exact ⟨hexplored, ht.2⟩

end

/-! ## nvsim -/

section
variable {start : InputParameter}
variable (hI : NvsimInvariant w file (start.restore file) I)
include hI

theorem searchTag_spec (hcache : (start.restore file).designTarget = .cache) {g : Nat} :
    Triple (fun s => Space file (start.restore file) .entered s.inputParameter ∧ I .entered s)
      (searchTag w file g)
      (fun found s =>
        if found then Space file (start.restore file) .ready s.inputParameter ∧ I .ready s
        else Space file (start.restore file) (.loop .tag) s.inputParameter ∧ I (.loop .tag) s)
      (Stops I) := by
  -- reduce the space, explore it, then restore it when a tag was found
  refine Triple.modify_bind (fun s =>
    Space file (start.restore file) (.loop .tag) s.inputParameter ∧ I .entered s) ?_ ?_
  · rintro s ⟨hspace, hs⟩
    exact ⟨hspace.reduce, hI.setInput _ hs⟩
  · refine Triple.get_bind fun s hs => ?_
    obtain ⟨hspace, hs⟩ := hs
    refine ((exploreTag_spec hI hspace hcache).conseq ?_ (fun _ _ ht => ht) fun _ ht => ht).bind
      fun _ => ?_
    · rintro _ rfl
      exact ⟨rfl, hs⟩
    · refine Triple.get_bind fun t ht => ?_
      split
      · next hzero =>
        refine Triple.pure ?_
        rintro _ rfl
        rcases ht with ⟨-, hip, ht⟩ | ⟨-, hpos⟩
        · exact ⟨hip ▸ hspace, ht⟩
        · exact absurd hzero hpos.ne'
      · next hpos =>
        obtain ⟨⟨hip, ht⟩, hsome⟩ := ht.resolve_left fun h => hpos h.1
        refine Triple.modify_bind (fun t =>
          Space file (start.restore file) .ready t.inputParameter ∧ I .ready t) ?_ ?_
        · rintro u rfl
          have hrefining : Space file (start.restore file) (.refining .tag) u.inputParameter :=
            hip ▸ ⟨hspace.settings, hspace.bounds⟩
          exact ⟨hrefining.restore hcache, hI.setInput _ (hI.restore hsome ht)⟩
        · exact (applyConstraint_spec hI).bind fun _ => Triple.pure fun _ ht => ht

/-- A run of `nvsim` keeps its invariant: it stops in some phase, fails in the
    tag loop, or ends after the data explorations. -/
theorem nvsim_spec :
    Triple (fun s => Space file (start.restore file) .entered s.inputParameter ∧ I .entered s)
      (nvsim w file)
      (fun failed s => Space file (start.restore file) .entered s.inputParameter ∧
        if failed then I (.loop .tag) s else Ended I (start.restore file) s)
      (Stops I) := by
  -- with or without tags the data phase ends the cell
  have hdata : ∀ {g : Nat}, Triple
      (fun s => Space file (start.restore file) .ready s.inputParameter ∧ I .ready s)
      (do searchData w g; pure false)
      (fun failed s => Space file (start.restore file) .entered s.inputParameter ∧
        if failed then I (.loop .tag) s else Ended I (start.restore file) s) (Stops I) := by
    intro g
    refine (searchData_spec hI).bind fun _ => Triple.pure fun s hs => ⟨hs.1.reenter, ?_⟩
    have hconstrains : s.inputParameter.constrains ↔ (start.restore file).constrains := by
      rw [InputParameter.constrains, InputParameter.constrains,
        hs.1.settings.optimizationTarget, hs.1.settings.isConstraintApplied]
    rw [if_neg Bool.false_ne_true, Ended, ← hconstrains]
    exact hs.2
  refine (applyConstraint_spec hI).bind fun _ => Triple.get_bind fun s hs => ?_
  dsimp only
  split
  · next hcache =>
    have hcache' : (start.restore file).designTarget = .cache :=
      hs.1.settings.designTarget.symm.trans hcache
    refine ((searchTag_spec hI hcache').conseq ?_ (fun _ _ ht => ht) fun _ ht => ht).bind
      fun found => ?_
    · rintro _ rfl
      exact hs
    · cases found with
      | true => exact hdata
      | false => exact Triple.pure fun t ht => ⟨ht.1.reenter_of_tag hcache', ht.2⟩
  · next hram =>
    have hram' : (start.restore file).designTarget ≠ .cache :=
      fun h => hram (hs.1.settings.designTarget.trans h)
    refine hdata.conseq ?_ (fun _ _ ht => ht) fun _ ht => ht
    rintro _ rfl
    exact ⟨hs.1.skipTag hram', hI.skipTag hram' hs.2⟩

end

end NvsimInvariant

end Destiny
