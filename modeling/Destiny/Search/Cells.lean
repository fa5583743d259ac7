/-
  Destiny.Search.Cells

  What `nvsim` has done to a cell when it returns.

  The tag phase leaves the data records alone and adds tag events only
  (`State.TagsOnly`).  The data phase then runs from there (`nvsim_eq`).  So the
  states its exploration starts and ends in are functions of the state the cell
  is entered with (`State.Explores`), and a run of `nvsim` that does not fail goes
  on from them (`nvsim_explores`).
-/

import Destiny.Search.Explore
import Destiny.Search.Main

namespace Destiny

open Lib

/-! ## The tag phase -/

/-- The event belongs to the exploration of tags. -/
def Event.ofTags : Event → Bool
  | .loopStart m _ => m = .tag
  | .evaluated v | .compared v _ _ => v.memoryType = .tag
  | _ => false

/-- Between `start` and `s` only tags were explored. -/
structure State.TagsOnly (start s : State) : Prop where
  cell : s.cell = start.cell
  cellFile : s.cellFile = start.cellFile
  data : ∀ t, s.best .data t = start.best .data t
  trace : ∃ es, s.trace = start.trace ++ es ∧ ∀ e ∈ es, e.ofTags = true

section
variable {w : World} {start s : State}

theorem State.TagsOnly.refl (s : State) : s.TagsOnly s :=
  ⟨rfl, rfl, fun _ => rfl, [], by simp, fun e he => (by cases he)⟩

theorem State.TagsOnly.emitAll (h : start.TagsOnly s) {es : List Event}
    (hes : ∀ e ∈ es, e.ofTags = true) : start.TagsOnly (s.emitAll es) := by
  obtain ⟨before, htrace, hbefore⟩ := h.trace
  refine ⟨h.cell, h.cellFile, h.data, before ++ es, ?_, fun e he => ?_⟩
  · show s.trace ++ es = _
    rw [htrace, List.append_assoc]
  · exact (List.mem_append.mp he).elim (hbefore e) (hes e)

theorem State.TagsOnly.record (h : start.TagsOnly s) {v : Visit} (hv : v.memoryType = .tag) :
    start.TagsOnly (s.record v) := by
  have hes : ∀ e ∈ Target.all.map fun t => Event.compared v t (s.best v.memoryType t),
      e.ofTags = true := by
    intro e he
    obtain ⟨t, -, rfl⟩ := List.mem_map.mp he
    simp [Event.ofTags, hv]
  have hall := h.emitAll hes
  rw [State.record_eq]
  refine ⟨hall.cell, hall.cellFile, fun t => ?_, hall.trace⟩
  show (if MemoryType.data = v.memoryType then _ else s.best .data t) = _
  rw [if_neg (by rw [hv]; decide)]
  exact hall.data t

theorem State.TagsOnly.TRY_AND_UPDATE (h : start.TagsOnly s) (w : World) (stage : Stage)
    (t : Target) : start.TagsOnly (s.TRY_AND_UPDATE w stage .tag t) := by
  let v := s.visit w stage .tag (s.best .tag t).stored.bank.geometry
  have hall : start.TagsOnly (s.emitAll [.evaluated v, .compared v t (s.best .tag t)]) := by
    apply h.emitAll
    intro e he
    rcases List.mem_pair.mp he with rfl | rfl <;> rfl
  refine ⟨hall.cell, hall.cellFile, fun u => ?_, ?_⟩
  · exact (State.compare_best_of_ne _ v fun hm => by cases hm.1).trans (hall.data u)
  · have htrace : (s.TRY_AND_UPDATE w stage .tag t).trace =
        (s.emitAll [.evaluated v, .compared v t (s.best .tag t)]).trace := by
      show s.trace ++ [_] ++ [_] = s.trace ++ [_, _]
      rw [List.append_assoc]
      rfl
    rw [htrace]
    exact hall.trace

theorem State.TagsOnly.tryDesign (h : start.TagsOnly s) (w : World) (stage : Stage)
    (keep : EvaluatedBank → Bool) (g : Geometry) :
    start.TagsOnly (s.tryDesign w stage .tag keep id g) := by
  have hevaluated : start.TagsOnly (s.emitAll [.evaluated (s.visit w stage .tag g)]) := by
    apply h.emitAll
    intro e he
    rw [List.mem_singleton.mp he]
    rfl
  by_cases hkeep : keep (s.design w .tag g).bank = true
  · rw [State.tryDesign_of_keep hkeep]
    exact hevaluated.record rfl
  · rw [State.tryDesign_of_not_keep hkeep]
    exact hevaluated

theorem State.TagsOnly.foldl {α : Type} {f : State → α → State}
    (hstep : ∀ s x, start.TagsOnly s → start.TagsOnly (f s x)) (xs : List α)
    (h : start.TagsOnly s) : start.TagsOnly (xs.foldl f s) :=
  List.foldlRecOn xs f h fun s hs x _ => hstep s x hs

theorem State.TagsOnly.setWires (h : start.TagsOnly s) (x y : Wire) :
    start.TagsOnly { s with localWire := x, globalWire := y } :=
  ⟨h.cell, h.cellFile, h.data, h.trace⟩

/-- All trials of one wire. -/
theorem State.TagsOnly.tryWire {set : State → Wire → State}
    {load : State → MemoryType → Target → State} {stage : Target → Stage}
    (hset : ∀ s x, start.TagsOnly s → start.TagsOnly (set s x))
    (hload : ∀ s m t, start.TagsOnly s → start.TagsOnly (load s m t))
    (h : start.TagsOnly s) (x : Wire) : start.TagsOnly (s.tryWire w .tag set load stage id x) :=
  .foldl (fun s t hs => (hload s .tag t hs).TRY_AND_UPDATE w (stage t) t) _ (hset s x h)

theorem State.TagsOnly.refined (h : start.TagsOnly s) (w : World) (ip : InputParameter) :
    start.TagsOnly (s.refined w ip .tag id) := by
  have hlocal : ∀ (s : State) x, start.TagsOnly s → start.TagsOnly (s.setLocalWire x) :=
    fun s x hs => hs.setWires x s.globalWire
  have hglobal : ∀ (s : State) x, start.TagsOnly s → start.TagsOnly (s.setGlobalWire x) :=
    fun s x hs => hs.setWires s.localWire x
  rw [State.refined]
  split
  · apply State.TagsOnly.foldl
    · exact fun s x hs => hs.tryWire hglobal (fun s _ _ hs => hlocal s _ hs) x
    · apply State.TagsOnly.foldl _ _ h
      exact fun s x hs => hs.tryWire hlocal (fun s _ _ hs => hglobal s _ hs) x
  · exact h

/-- A design of the tag nest, with its die count. -/
def State.tagDesign (w : World) (ip : InputParameter) (g : Nat) (s : State) (p : DesignPoint) :
    State :=
  let s := s.setLayers w p.stackedDieCount
  if ip.tagBits.tdiv p.activeProduct = 0 then s
  else s.tryDesign w .basic .tag (fun b => !b.invalid) id (p.geometry (ip.tagShape g p))

theorem returns_exploreTag (ip : InputParameter) (g : Nat) :
    Returns (fun s => ((ip.bigFor w.fuel .tag).visited.foldl (State.tagDesign w ip g)
        ((s.withBasicWires ip).emit (.loopStart .tag ip.toSearchBounds))).refined w ip .tag id)
      (exploreTag w ip g) := by
  have hdesign : ∀ p, Returns (fun s => s.tagDesign w ip g p) (tagDesign w ip g p) := by
    intro p
    have hlayers : Returns (fun s => s.setLayers w p.stackedDieCount)
        (modify fun s => { s with
          tech := s.tech.SetLayerCount w.tsvTable s.inputParameter p.stackedDieCount } :
          Search Unit) := Returns.modify
    have hbody : Returns
        (fun s => if ip.tagBits.tdiv p.activeProduct = 0 then s
          else s.tryDesign w .basic .tag (fun b => !b.invalid) id (p.geometry (ip.tagShape g p)))
        (partitioned ip.tagBits p (tryDesign w .basic .tag (fun b => !b.invalid) (pure ())
          (p.geometry (ip.tagShape g p)))) :=
      returns_stopIf.check_bind fun _ => Returns.pure.cond (returns_tryDesign Returns.pure _)
    intro s u t hrun
    have hdone := (hlayers.bind fun _ => hbody) s u t hrun
    exact hdone
  have hemit : Returns (fun s => s.emit (.loopStart .tag ip.toSearchBounds))
      (modify fun s => s.emit (.loopStart .tag ip.toSearchBounds) : Search Unit) := Returns.modify
  exact returns_stopIf.check_bind fun _ => returns_basicWire.bind fun _ =>
    hemit.bind fun _ => (Returns.forEach hdesign).bind fun _ => returns_refine Returns.pure

theorem returns_applyConstraint : Returns
    (fun s => { s with inputParameter := s.inputParameter.ignoreAssociativity } : State → State)
    (applyConstraint w) := by
  have hignore : Returns
      (fun s => { s with inputParameter := s.inputParameter.ignoreAssociativity } : State → State)
      (modify fun s => { s with inputParameter := s.inputParameter.ignoreAssociativity } :
        Search Unit) := Returns.modify
  intro s u t hrun
  exact (returns_stopIf.check_bind fun _ => hignore.bind fun _ => returns_stopIf) s u t hrun

/-- The tag exploration explores tags only. -/
theorem exploreTag_tagsOnly {ip : InputParameter} {g : Nat} :
    Triple start.TagsOnly (exploreTag w ip g) (fun _ => start.TagsOnly) (fun _ => True) := by
  refine (returns_exploreTag ip g).triple fun s hs => State.TagsOnly.refined (.foldl ?_ _ ?_) w ip
  · intro s p hs
    have hlayers : start.TagsOnly (s.setLayers w p.stackedDieCount) := { hs with }
    unfold State.tagDesign
    split
    · exact hlayers
    · exact hlayers.tryDesign w _ _ _
  · have hwires : start.TagsOnly (s.withBasicWires ip) := { hs with }
    have hes : ∀ e ∈ [Event.loopStart .tag ip.toSearchBounds], e.ofTags = true := by
      intro e he
      rw [List.mem_singleton.mp he]
      rfl
    exact hwires.emitAll hes

theorem searchTag_tagsOnly {file : List OptionLine} {g : Nat} :
    Triple start.TagsOnly (searchTag w file g)
      (fun found s => start.TagsOnly s ∧ (found = true → s.numSolution = 0)) (fun _ => True) := by
  refine Triple.modify_bind start.TagsOnly (fun s hs => { hs with }) ?_
  refine Triple.get_bind fun s hs => ?_
  refine (exploreTag_tagsOnly.conseq (fun t ht => ht ▸ hs) (fun _ _ ht => ht) fun _ ht => ht).bind
    fun _ => Triple.get_bind fun t ht => ?_
  split
  · refine Triple.pure ?_
    rintro _ rfl
    exact ⟨ht, nofun⟩
  · refine Triple.modify_bind (fun u => start.TagsOnly u ∧ u.numSolution = 0) ?_ ?_
    · rintro _ rfl
      exact ⟨{ ht with }, rfl⟩
    · have hconstraint : Triple (fun u => start.TagsOnly u ∧ u.numSolution = 0) (applyConstraint w)
          (fun _ u => start.TagsOnly u ∧ u.numSolution = 0) (fun _ => True) :=
        returns_applyConstraint.triple fun u hu => ⟨{ hu.1 with }, hu.2⟩
      exact hconstraint.bind fun _ => Triple.pure fun u hu => ⟨hu.1, fun _ => hu.2⟩

/-! ## nvsim -/

/-- `nvsim` up to the data phase: the granularity it goes on with, if there are tags. -/
def beforeData (w : World) (file : List OptionLine) : Search (Option Nat) := do
  applyConstraint w
  let s ← get
  let partitionGranularity := s.inputParameter.partitionGranularity
  if s.inputParameter.designTarget = .cache then do
    let found ← searchTag w file partitionGranularity
    pure (if found then some partitionGranularity else none)
  else pure (some partitionGranularity)

/-- The data phase, which a failed tag phase leaves out. -/
def dataPhase (w : World) : Option Nat → Search Bool
  | none => pure true
  | some partitionGranularity => do
      searchData w partitionGranularity
      pure false

/-- `nvsim` is these two phases. -/
theorem nvsim_eq (w : World) (file : List OptionLine) :
    nvsim w file = beforeData w file >>= dataPhase w := by
  rw [nvsim, beforeData, bind_assoc]
  congr 1
  funext _
  rw [bind_assoc]
  congr 1
  funext s
  by_cases hcache : s.inputParameter.designTarget = .cache
  · simp only [if_pos hcache, bind_assoc, pure_bind]
    congr 1
    funext found
    cases found <;> rfl
  · simp only [if_neg hcache, pure_bind, dataPhase]

/-- The tag phase finds tags to go on with or fails; without a cache there is none. -/
theorem beforeData_rule {file : List OptionLine} {P Q F : State → Prop}
    (hconstraint : Triple P (applyConstraint w) (fun _ => P) (fun _ => True))
    (htag : ∀ g, Triple (fun s => P s ∧ s.inputParameter.designTarget = .cache) (searchTag w file g)
      (fun found s => if found then Q s else F s) (fun _ => True))
    (hskip : ∀ s, P s → s.inputParameter.designTarget ≠ .cache → Q s) :
    Triple P (beforeData w file) (fun g s => if g.isSome then Q s else F s) (fun _ => True) := by
  refine hconstraint.bind fun _ => Triple.get_bind fun s hs => ?_
  split
  · next hcache =>
    refine ((htag _).conseq ?_ (fun _ _ ht => ht) fun _ ht => ht).bind fun found => ?_
    · rintro _ rfl
      exact ⟨hs, hcache⟩
    · cases found <;> exact Triple.pure fun t ht => ht
  · next hram =>
    refine Triple.pure ?_
    rintro _ rfl
    exact hskip _ hs hram

/-- A run of `nvsim` fails after the tag phase or goes on with the data phase. -/
theorem nvsim_rule {file : List OptionLine} {P Q F : State → Prop}
    (hbefore : Triple P (beforeData w file) (fun g s => if g.isSome then Q s else F s)
      (fun _ => True)) :
    Triple P (nvsim w file)
      (fun failed u =>
        if failed then F u else ∃ ready g, Q ready ∧ searchData w g ready = .ok ⟨⟩ u)
      (fun _ => True) := by
  rw [nvsim_eq]
  refine hbefore.bind fun g => ?_
  cases g with
  | none => exact Triple.pure fun t ht => ht
  | some g =>
      refine Triple.returned.bind fun _ => Triple.pure ?_
      rintro u ⟨ready, hready, hrun⟩
      exact ⟨ready, g, hready, hrun⟩

/-- The data phase is not entered with data. -/
theorem beforeData_tagsOnly {file : List OptionLine} (hstart : start.numSolution = 0) :
    Triple (fun s => s = start) (beforeData w file)
      (fun g s => if g.isSome then start.TagsOnly s ∧ s.numSolution = 0 else start.TagsOnly s)
      (fun _ => True) := by
  refine (beforeData_rule (P := fun s => start.TagsOnly s ∧ s.numSolution = 0)
    (returns_applyConstraint.triple fun s hs => ⟨{ hs.1 with }, hs.2⟩) (fun g => ?_)
    fun s hs _ => hs).conseq ?_ (fun _ _ ht => ht) fun _ ht => ht
  · refine searchTag_tagsOnly.conseq (fun s hs => hs.1.1) (fun found s hs => ?_) fun _ ht => ht
    cases found with
    | true => exact ⟨hs.1, hs.2 rfl⟩
    | false => exact hs.1
  · rintro _ rfl
    exact ⟨State.TagsOnly.refl _, hstart⟩

theorem trivial_invariant (w : World) (file : List OptionLine) (loaded : InputParameter) :
    NvsimInvariant w file loaded fun _ _ => True where
  setInput _ _ := trivial
  setWires _ _ _ := trivial
  startTag _ _ _ := trivial
  skipTag _ _ := trivial
  startData _ _ := trivial
  setLayers _ _ _ := trivial
  visit _ _ _ _ _ _ _ := trivial
  record _ _ _ _ _ _ := trivial
  output _ _ _ _ _ _ _ := trivial
  startRefine _ _ := trivial
  tryLocal _ _ _ _ := trivial
  tryGlobal _ _ _ _ := trivial
  restore _ _ := trivial
  exploreNone _ _ := trivial
  exploreSome _ _ := trivial
  prune _ _ _ _ := trivial
  limit _ _ := trivial

/-- From the space a cell is entered with, the data phase starts in its own. -/
theorem nvsim_ready {file : List OptionLine} {ip : InputParameter} (hstart : start.numSolution = 0)
    (hspace : Space file (ip.restore file) .entered start.inputParameter) :
    Triple (fun s => s = start) (nvsim w file)
      (fun failed u =>
        if failed then start.TagsOnly u
        else ∃ ready g, (start.TagsOnly ready ∧ ready.numSolution = 0 ∧
          Space file (ip.restore file) .ready ready.inputParameter) ∧
            searchData w g ready = .ok ⟨⟩ u) (fun _ => True) := by
  refine (nvsim_rule (beforeData_rule (P := fun s => start.TagsOnly s ∧ s.numSolution = 0 ∧
    Space file (ip.restore file) .entered s.inputParameter)
    (returns_applyConstraint.triple fun s hs =>
      ⟨{ hs.1 with }, hs.2.1, hs.2.2.ignoreAssociativity⟩)
    (fun g => ?_) fun s hs hram => ?_)).conseq ?_ (fun _ _ ht => ht) fun _ ht => ht
  · by_cases hcache : (ip.restore file).designTarget = .cache
    · have hspaces := NvsimInvariant.searchTag_spec (trivial_invariant w file (ip.restore file))
        hcache (g := g)
      refine (searchTag_tagsOnly.and hspaces).conseq (fun s hs => ⟨hs.1.1, hs.1.2.2, trivial⟩)
        (fun found s hs => ?_) fun _ _ => trivial
      cases found with
      | true => exact ⟨hs.1.1, hs.1.2 rfl, hs.2.1⟩
      | false => exact hs.1.1
    · intro s hs
      exact absurd (hs.1.2.2.settings.designTarget.symm.trans hs.2) hcache
  · have hram' : (ip.restore file).designTarget ≠ .cache :=
      fun h => hram (hs.2.2.settings.designTarget.trans h)
    exact ⟨hs.1, hs.2.1, hs.2.2.skipTag hram'⟩
  · rintro _ rfl
    exact ⟨State.TagsOnly.refl _, hstart, hspace⟩

/-- The rows of a pruned exploration. -/
def State.outputPruned (ip : InputParameter) (s : State) : State :=
  if ip.optimizationTarget == .full_exploration && ip.isPruningEnabled then s.emitAll s.prunedRows
  else s

/-- Without constraints there is no second exploration. -/
theorem returns_unconstrained {ip : InputParameter} {shape : ArrayShape} (h : ¬ ip.constrains) :
    Returns id (applyDesignConstraints w ip shape) := by
  simp only [applyDesignConstraints, if_neg h]
  exact Returns.get_bind (f := fun _ => id) fun _ => Returns.pure

theorem State.outputPruned_inputParameter (ip : InputParameter) (s : State) :
    (s.outputPruned ip).inputParameter = s.inputParameter := by
  rw [State.outputPruned]
  split <;> rfl

/-- With constraints it is a nest over the same space. -/
theorem returns_constrained {ip : InputParameter} {shape : ArrayShape} (h : ip.constrains) :
    Returns (fun s => s.loopConstrained w ip shape s.allowedData)
      (applyDesignConstraints w ip shape) := by
  simp only [applyDesignConstraints, if_pos h]
  intro s a t hrun
  exact returns_exploreConstrained s.allowedData s a t hrun

/-- The second exploration counts the valid designs within the limits. -/
theorem State.loopConstrained_spec (ip : InputParameter) (shape : ArrayShape) (allowed : Limits)
    (s : State) :
    (s.withBasicWires ip).SameSetting (s.loopConstrained w ip shape allowed) ∧
      (s.loopConstrained w ip shape allowed).numSolution =
        ((s.withBasicWires ip).kept w .data (fun b => !b.invalid && b.metrics.within allowed)
          (ip.geometries w.fuel shape)).length := by
  obtain ⟨hsetting, hcount, -⟩ := @State.foldl_tryDesign w .constrained .data
    (fun b => !b.invalid && b.metrics.within allowed) _ outputs_id (ip.geometries w.fuel shape)
    (({ s.APPLY_LIMIT allowed with numSolution := 0 } : State).withBasicWires ip)
  refine ⟨⟨hsetting.cell, hsetting.cellFile, hsetting.tech, hsetting.inputParameter,
    hsetting.localWire, hsetting.globalWire⟩, hcount.trans ?_⟩
  exact Nat.zero_add _

theorem constrained_inputParameter {ip : InputParameter} {shape : ArrayShape} {s u : State}
    (hrun : applyDesignConstraints w ip shape s = .ok ⟨⟩ u) :
    u.inputParameter = s.inputParameter := by
  by_cases hconstrains : ip.constrains
  · rw [(returns_constrained hconstrains).apply hrun]
    exact (State.loopConstrained_spec ip shape s.allowedData s).1.inputParameter
  · rw [(returns_unconstrained hconstrains).apply hrun]
    rfl

/-- A data phase explores, writes the pruned rows and applies the constraints. -/
theorem searchData_returned {g : Nat} {ready u : State}
    (hrun : searchData w g ready = .ok ⟨⟩ u) :
    ∃ first explored : State, ∃ shape : ArrayShape,
      first = { ready with inputParameter := ready.inputParameter.adjustAccessMode } ∧
      shape = first.inputParameter.dataShape (w.memCellType first.cellFile) g ∧
      exploreData w first.inputParameter shape first = .ok ⟨⟩ explored ∧
      applyDesignConstraints w first.inputParameter shape
        (explored.outputPruned first.inputParameter) = .ok ⟨⟩ u := by
  let first : State := { ready with inputParameter := ready.inputParameter.adjustAccessMode }
  let shape := first.inputParameter.dataShape (w.memCellType first.cellFile) g
  have hrest : (do
      exploreData w first.inputParameter shape
      outputPruned first.inputParameter
      applyDesignConstraints w first.inputParameter shape : Search Unit) first = .ok ⟨⟩ u := hrun
  obtain ⟨_, explored, hexplore, hrest⟩ := bind_eq_ok.mp hrest
  obtain ⟨_, pruned, hprune, hconstraints⟩ := bind_eq_ok.mp hrest
  have hpruned : Returns (State.outputPruned first.inputParameter)
      (outputPruned first.inputParameter) := Returns.modify.cond Returns.pure
  rw [hpruned.apply hprune] at hconstraints
  exact ⟨first, explored, shape, rfl, rfl, hexplore, hconstraints⟩

/-- In `nvsim` from `start` the unconstrained data exploration begins in `first`
    and ends in `explored`. -/
structure State.Explores (w : World) (file : List OptionLine) (shape : ArrayShape)
    (start first explored : State) : Prop where
  before : ∃ g ready, beforeData w file start = .ok (some g) ready ∧
    first = { ready with inputParameter := ready.inputParameter.adjustAccessMode } ∧
    shape = first.inputParameter.dataShape (w.memCellType first.cellFile) g
  exploreData : exploreData w first.inputParameter shape first = .ok ⟨⟩ explored

/-- The exploration starts from records that hold no data. -/
theorem State.Explores.fresh {file : List OptionLine} {shape : ArrayShape}
    {first explored : State} (h : start.Explores w file shape first explored)
    (hstart : start.numSolution = 0) : start.TagsOnly first ∧ first.numSolution = 0 := by
  obtain ⟨g, ready, hbefore, rfl, -⟩ := h.before
  have hready := @beforeData_tagsOnly w start file hstart _ rfl
  rw [hbefore] at hready
  exact ⟨{ hready.1 with }, hready.2⟩

/-- A run of `nvsim` that does not fail goes on from the end of the exploration. -/
theorem nvsim_explores {file : List OptionLine} {start u : State}
    (hrun : nvsim w file start = .ok false u) :
    ∃ first explored : State, ∃ shape : ArrayShape,
      start.Explores w file shape first explored ∧
      applyDesignConstraints w first.inputParameter shape
        (explored.outputPruned first.inputParameter) = .ok ⟨⟩ u := by
  rw [nvsim_eq] at hrun
  obtain ⟨g, ready, hbefore, hrest⟩ := bind_eq_ok.mp hrun
  cases g with
  | none => cases hrest
  | some g =>
      obtain ⟨_, t, hsearch, hpure⟩ := bind_eq_ok.mp hrest
      cases hpure
      obtain ⟨first, explored, shape, hfirst, hshape, hexplore, hconstraints⟩ :=
        searchData_returned hsearch
      exact ⟨first, explored, shape, ⟨⟨g, ready, hbefore, hfirst, hshape⟩, hexplore⟩, hconstraints⟩

/-- There is one such exploration from a state. -/
theorem State.Explores.unique {file : List OptionLine} {shape shape' : ArrayShape}
    {first first' explored explored' : State} (h : start.Explores w file shape first explored)
    (h' : start.Explores w file shape' first' explored') :
    shape = shape' ∧ first = first' ∧ explored = explored' := by
  obtain ⟨g, ready, hbefore, hfirst, hshape⟩ := h.before
  obtain ⟨g', ready', hbefore', hfirst', hshape'⟩ := h'.before
  rw [hbefore] at hbefore'
  cases hbefore'
  obtain rfl := hfirst.trans hfirst'.symm
  obtain rfl := hshape.trans hshape'.symm
  have hexplored := h'.exploreData
  rw [h.exploreData] at hexplored
  cases hexplored
  exact ⟨rfl, rfl, rfl⟩

end

end Destiny
