/-
  Destiny.Search.Provenance

  Where the designs a run compares and writes come from.

  `Event.Lawful` says of each event of a run what the events before it
  determine: a compared design was evaluated, with the wires its stage sets, and
  outside the refinements is valid; a row shows the design just evaluated or
  what a record holds.  Every run is lawful (`run_lawful`), whatever the
  evaluation does; the properties of validity, printed results and wires reason
  about lawful traces only.
-/

import Destiny.Search.Installed

namespace Destiny

open Lib

/-! ## Lawful events -/

/-- The bounds in force while an array is explored. -/
def boundsFor (file : List OptionLine) (loaded : InputParameter) : MemoryType → SearchBounds
  | .tag => tagBounds file loaded
  | _ => dataBounds file loaded

/-- The wires of a design compared with a record. -/
def Visit.WiresFrom (v : Visit) (old : Result) : Prop :=
  match v.stage with
  | .basic | .constrained =>
      v.trial.localWire = v.inputParameter.data.basicLocalWire ∧
        v.trial.globalWire = v.inputParameter.data.basicGlobalWire
  | .refineLocal _ =>
      v.trial.localWire ∈ (v.inputParameter.array v.memoryType).localWires ∧
        v.trial.globalWire = old.stored.globalWire
  | .refineGlobal _ =>
      v.trial.globalWire ∈ (v.inputParameter.array v.memoryType).globalWires ∧
        v.trial.localWire = old.stored.localWire

/-- A comparison of `v` with the record `old` of a target. -/
structure LawfulComparison (file : List OptionLine) (loaded : InputParameter)
    (before : List Event) (v : Visit) (t : Target) (old : Result) : Prop where
  evaluated : .evaluated v ∈ before
  valid : v.stage.refines = false → v.trial.bank.invalid = false
  bounds : v.inputParameter.toSearchBounds = boundsFor file loaded v.memoryType
  wires : v.WiresFrom old
  record : ∀ x, installed v.cell v.memoryType t before = some x → old.stored = x.trial

/-- A row of the CSV file. -/
structure LawfulRow (before : List Event) (cell : Nat) (source : Option Target) (data : Trial)
    (tag : Option (Target × Trial)) : Prop where
  temp : source = none → ∃ v, .evaluated v ∈ before ∧ v.cell = cell ∧ v.memoryType = .data ∧
    v.trial = data ∧ (v.trial.bank.invalid = false ∨
      v.inputParameter.writesEveryDesign = true ∧ v.stage.isLastTrial)
  record : ∀ t, source = some t → ∀ v, installed cell .data t before = some v → data = v.trial
  tag : ∀ t x, tag = some (t, x) → ∀ v, installed cell .tag t before = some v → x = v.trial

/-! ## Outcomes -/

/-- What `main` keeps of a cell is what the trace says of it; under constraints
    the designs it holds are within limits applied in the cell. -/
structure CellOutcome.Tracked (loaded : InputParameter) (cell : Nat) (o : CellOutcome)
    (trace : List Event) : Prop where
  best : o.best.Tracked cell trace
  limited : loaded.constrains → ∀ t, (installed cell .data t trace).isSome = true →
    .limitsApplied cell (limitsIn cell .data trace) ∈ trace

theorem CellOutcome.Tracked.append_other {loaded : InputParameter} {cell : Nat} {o : CellOutcome}
    {trace es : List Event} (h : o.Tracked loaded cell trace)
    (hes : ∀ e ∈ es, e.cell? ≠ some cell) : o.Tracked loaded cell (trace ++ es) := by
  refine ⟨h.best.append_other hes, fun hconstrains t hsome => ?_⟩
  rw [installed_append_other hes] at hsome
  rw [limitsIn_append_other hes]
  exact List.mem_append_left _ (h.limited hconstrains t hsome)

/-- The outcomes of the first cells are what the trace says of these cells. -/
def Outcomes.Tracked (loaded : InputParameter) (outcomes : List CellOutcome)
    (trace : List Event) : Prop :=
  ∀ (cell : Nat) (o : CellOutcome), outcomes[cell]? = some o → o.Tracked loaded cell trace

/-- Events about no cell, or about later ones, leave the outcomes alone. -/
theorem Outcomes.Tracked.append {loaded : InputParameter} {outcomes : List CellOutcome}
    {trace es : List Event} (h : Outcomes.Tracked loaded outcomes trace)
    (hes : ∀ e ∈ es, ∀ c, e.cell? = some c → outcomes.length ≤ c) :
    Outcomes.Tracked loaded outcomes (trace ++ es) := by
  intro cell o ho
  apply (h cell o ho).append_other
  intro e he hcell
  have hlt : cell < outcomes.length := (List.getElem?_eq_some_iff.mp ho).1
  have hge := hes e he cell hcell
  omega

/-- A printed record is merged from the outcomes of all cells. -/
def LawfulPrint (loaded : InputParameter) (before : List Event) (t : Target) (data : Result) :
    Prop :=
  ∃ (first : CellOutcome) (rest : List CellOutcome) (allowDifferentTagTech : Bool),
    (first :: rest).length = loaded.fileMemCell.length ∧
      Outcomes.Tracked loaded (first :: rest) before ∧
        data = (rest.zipIdx 1).foldl (Records.merge allowDifferentTagTech) first.best .data t

def Event.Lawful (file : List OptionLine) (loaded : InputParameter) (before : List Event) :
    Event → Prop
  | .compared v t old => LawfulComparison file loaded before v t old
  | .csvRow cell source data tag => LawfulRow before cell source data tag
  | .printed t data _ => LawfulPrint loaded before t data
  | _ => True

/-- What a record holds was evaluated, and is valid unless a refinement tried it. -/
theorem evaluated_of_installed {file : List OptionLine} {loaded : InputParameter}
    {trace : List Event} (hlawful : Everywhere (Event.Lawful file loaded) trace) {cell : Nat}
    {m : MemoryType} {t : Target} {v : Visit} (h : installed cell m t trace = some v) :
    .evaluated v ∈ trace ∧ v.cell = cell ∧ v.memoryType = m ∧
      (v.stage.refines = false → v.trial.bank.invalid = false) := by
  obtain ⟨old, hmem, -, hcell, hm⟩ := exists_compared_of_installed h
  obtain ⟨before, after, hsplit, hcomparison⟩ := hlawful.of_mem hmem
  refine ⟨?_, hcell, hm, hcomparison.valid⟩
  rw [hsplit]
  exact List.mem_append_left _ hcomparison.evaluated

/-! ## Lawful states -/

/-- The trace is lawful and the outcomes are what it says. -/
structure State.Lawful (file : List OptionLine) (loaded : InputParameter) (s : State) : Prop where
  events : Everywhere (Event.Lawful file loaded) s.trace
  outcomes : Outcomes.Tracked loaded s.explored s.trace
  total : s.explored = [] → s.totalSolutions = 0

/-- The phases before the data exploration of a cell that may fail. -/
def Phase.beforeData : Phase → Prop
  | .entered | .loop .tag => True
  | _ => False

/-- So are, inside a cell, its records. -/
structure State.LawfulIn (file : List OptionLine) (loaded : InputParameter) (phase : Phase)
    (s : State) : Prop extends s.Lawful file loaded where
  tracked : s.Tracked
  cell : s.cell = s.explored.length
  allowed : ∀ limits, phase = .constrained limits →
    .limitsApplied s.cell limits ∈ s.trace ∧ ∀ t, (s.best .data t).limits = limits
  untouched : phase.beforeData → ∀ t, installed s.cell .data t s.trace = none

section
variable {file : List OptionLine} {loaded : InputParameter} {phase : Phase} {s : State}

/-- A lawful event about no cell or the present one. -/
theorem State.Lawful.emit (h : s.Lawful file loaded) {e : Event} {c : Nat}
    (hc : s.explored.length ≤ c) (hcell : ∀ d, e.cell? = some d → d = c)
    (he : e.Lawful file loaded s.trace) : (s.emit e).Lawful file loaded where
  events := everywhere_append_singleton.mpr ⟨h.events, he⟩
  outcomes := by
    apply h.outcomes.append
    intro x hx d hd
    rw [List.mem_singleton.mp hx] at hd
    rw [hcell d hd]
    exact hc
  total := h.total

/-- What is printed after the last cell is merged from all of them. -/
theorem State.Lawful.finish_events (h : s.Lawful file loaded)
    (hlength : s.explored.length = loaded.fileMemCell.length) :
    Everywhere (Event.Lawful file loaded) s.finish.trace := by
  obtain ⟨es, hes, htrace⟩ := s.finish_trace
  rw [htrace]
  clear htrace
  induction es using List.reverseRecOn with
  | nil =>
      rw [List.append_nil]
      exact h.events
  | append_singleton es e ih =>
      rw [← List.append_assoc, everywhere_append_singleton]
      refine ⟨ih fun x hx => hes x (List.mem_append_left _ hx), ?_⟩
      obtain ⟨t, tag, rfl, hpos, -⟩ := hes e (by simp)
      -- The results printed before this one are about no cell.
      have hprinted : ∀ x ∈ es, ∀ c, x.cell? = some c → s.explored.length ≤ c := by
        intro x hx c hc
        obtain ⟨u, tag', rfl, -⟩ := hes x (List.mem_append_left _ hx)
        cases hc
      have houtcomes := h.outcomes.append hprinted
      cases hexplored : s.explored with
      | nil => exact absurd (h.total hexplored) hpos.ne'
      | cons first rest =>
          rw [hexplored] at houtcomes hlength
          refine ⟨first, rest, s.inputParameter.allowDifferentTagTech, hlength, houtcomes, ?_⟩
          rw [State.mergedRecords, hexplored]

/-- A lawful event that is about no record. -/
theorem State.LawfulIn.emit (h : s.LawfulIn file loaded phase) {e : Event} (hcell : e.cell? = none)
    (he : e.Lawful file loaded s.trace) : (s.emit e).LawfulIn file loaded phase where
  toLawful := h.toLawful.emit le_rfl (fun d hd => by simp [hcell] at hd) he
  tracked := h.tracked.emit hcell
  cell := h.cell
  allowed limits hphase :=
    ⟨List.mem_append_left _ (h.allowed limits hphase).1, (h.allowed limits hphase).2⟩
  untouched hphase t := by
    show installed s.cell .data t (s.trace ++ [e]) = none
    rw [installed_append_none (installs_of_other (by simp [hcell]))]
    exact h.untouched hphase t

/-- Rows do not change what a row may show. -/
theorem LawfulRow.append {before es : List Event} {cell : Nat} {source : Option Target}
    {data : Trial} {tag : Option (Target × Trial)} (h : LawfulRow before cell source data tag)
    (hes : ∀ e ∈ es, e.cell? = none) : LawfulRow (before ++ es) cell source data tag := by
  have hother : ∀ e ∈ es, e.cell? ≠ some cell := fun e he => by simp [hes e he]
  refine ⟨fun hsource => ?_, fun t ht v hv => ?_, fun t x hx v hv => ?_⟩
  · obtain ⟨v, hv, hrest⟩ := h.temp hsource
    exact ⟨v, List.mem_append_left _ hv, hrest⟩
  · rw [installed_append_other hother] at hv
    exact h.record t ht v hv
  · rw [installed_append_other hother] at hv
    exact h.tag t x hx v hv

/-- Lawful rows, written one after the other. -/
theorem State.LawfulIn.emitRows (h : s.LawfulIn file loaded phase) {es : List Event}
    (hes : ∀ e ∈ es, ∃ source data tag, e = .csvRow s.cell source data tag ∧
      LawfulRow s.trace s.cell source data tag) : (s.emitAll es).LawfulIn file loaded phase := by
  induction es using List.reverseRecOn with
  | nil =>
      rw [State.emitAll, List.append_nil]
      exact h
  | append_singleton es e ih =>
      have hsame : s.emitAll (es ++ [e]) = (s.emitAll es).emit e := by
        simp only [State.emitAll, State.emit, List.append_assoc]
      rw [hsame]
      obtain ⟨source, data, tag, rfl, hrow⟩ := hes e (by simp)
      refine (ih fun x hx => hes x (List.mem_append_left _ hx)).emit rfl ?_
      refine hrow.append fun x hx => ?_
      obtain ⟨_, _, _, rfl, -⟩ := hes x (List.mem_append_left _ hx)
      rfl

/-- A lawful comparison with a record of the present cell. -/
theorem State.LawfulIn.compare (h : s.LawfulIn file loaded phase) {v : Visit} {t : Target}
    (hv : v.cell = s.cell) (hevaluated : .evaluated v ∈ s.trace)
    (hvalid : v.stage.refines = false → v.trial.bank.invalid = false)
    (hbounds : v.inputParameter.toSearchBounds = boundsFor file loaded v.memoryType)
    (hwires : v.WiresFrom (s.best v.memoryType t)) (htag : phase.beforeData → v.memoryType = .tag) :
    (s.compare v t).LawfulIn file loaded phase := by
  have hrecord : ∀ x, installed v.cell v.memoryType t s.trace = some x →
      (s.best v.memoryType t).stored = x.trial := by
    intro x hx
    rw [hv] at hx
    exact ((h.tracked v.memoryType t).holds x hx).1
  have hlawful : s.Lawful file loaded := h.toLawful
  have hemit := hlawful.emit (e := .compared v t (s.best v.memoryType t)) (c := s.cell)
    h.cell.ge (fun d hd => by rw [← hv]; exact (Option.some.inj hd).symm)
    ⟨hevaluated, hvalid, hbounds, hwires, hrecord⟩
  refine ⟨⟨hemit.events, hemit.outcomes, hemit.total⟩, h.tracked.compare hv t, h.cell,
    fun limits hphase => ?_, fun hphase u => ?_⟩
  · obtain ⟨hmem, hlimits⟩ := h.allowed limits hphase
    refine ⟨List.mem_append_left _ hmem, fun u => ?_⟩
    -- the limits stand in the record, and a comparison keeps them
    by_cases hu : MemoryType.data = v.memoryType ∧ u = t
    · obtain ⟨hm, rfl⟩ := hu
      have hold := hlimits u
      rw [hm] at hold ⊢
      rw [s.compare_best_self, Result.compareAndUpdate_limits]
      exact hold
    · rw [s.compare_best_of_ne v hu]
      exact hlimits u
  · have hnone : installs s.cell .data u (.compared v t (s.best v.memoryType t)) = none := by
      apply if_neg
      intro hx
      rw [htag hphase] at hx
      cases hx.2.1
    show installed s.cell .data u (s.trace ++ [_]) = none
    rw [installed_append_none hnone]
    exact h.untouched hphase u

theorem State.LawfulIn.mono {phase' : Phase} (h : s.LawfulIn file loaded phase)
    (hphase : ∀ limits, phase' ≠ .constrained limits)
    (hbefore : phase'.beforeData → phase.beforeData) :
    s.LawfulIn file loaded phase' :=
  { h with
    allowed := fun limits hc => absurd hc (hphase limits)
    untouched := fun hc => h.untouched (hbefore hc) }

end

/-! ## Every run is lawful -/

section
variable {w : World} {file : List OptionLine} {loaded : InputParameter} {s : State}

theorem Space.bounds_of_nest {phase : Phase} {stage : Stage} {m : MemoryType}
    {ip : InputParameter} (h : Space file loaded phase ip) (hnest : phase.nest = some (stage, m)) :
    ip.toSearchBounds = boundsFor file loaded m := by
  cases phase with
  | loop n =>
      obtain ⟨-, rfl⟩ : Stage.basic = stage ∧ n = m := by simpa [Phase.nest] using hnest
      cases n <;> exact h.bounds
  | constrained limits =>
      obtain ⟨-, rfl⟩ : Stage.constrained = stage ∧ MemoryType.data = m := by
        simpa [Phase.nest] using hnest
      exact h.bounds
  | _ => cases hnest

theorem Space.bounds_of_refining {m : MemoryType} {ip : InputParameter}
    (h : Space file loaded (.refining m) ip) : ip.toSearchBounds = boundsFor file loaded m := by
  cases m <;> exact h.bounds

theorem Phase.refines_of_nest {phase : Phase} {stage : Stage} {m : MemoryType}
    (h : phase.nest = some (stage, m)) :
    stage.refines = false ∧ (stage = .basic ∨ stage = .constrained) := by
  cases phase with
  | loop n =>
      obtain ⟨rfl, -⟩ : Stage.basic = stage ∧ n = m := by simpa [Phase.nest] using h
      exact ⟨rfl, Or.inl rfl⟩
  | constrained limits =>
      obtain ⟨rfl, -⟩ : Stage.constrained = stage ∧ MemoryType.data = m := by
        simpa [Phase.nest] using h
      exact ⟨rfl, Or.inr rfl⟩
  | _ => cases h

/-- Before the data exploration only tags are tried. -/
theorem Phase.tag_of_beforeData {phase : Phase} {stage : Stage} {m : MemoryType}
    (h : phase.nest = some (stage, m)) (hbefore : phase.beforeData) : m = .tag := by
  cases phase with
  | loop n =>
      obtain ⟨-, rfl⟩ : Stage.basic = stage ∧ n = m := by simpa [Phase.nest] using h
      cases n with
      | tag => rfl
      | _ => cases hbefore
  | entered => cases h
  | _ => cases hbefore

/-- The comparisons of a kept design. -/
theorem State.LawfulIn.record {phase : Phase} (h : s.LawfulIn file loaded phase) {v : Visit}
    (hnest : phase.nest = some (v.stage, v.memoryType))
    (hspace : Space file loaded phase s.inputParameter) (hwires : s.BasicWires)
    (hcurrent : s.Current w v) (hkeep : phase.keeps v.trial.bank = true) :
    (s.record v).LawfulIn file loaded phase := by
  have hip : v.inputParameter = s.inputParameter := congrArg Visit.inputParameter hcurrent.visit
  have hv : v.cell = s.cell := congrArg Visit.cell hcurrent.visit
  have hlocal : v.trial.localWire = s.localWire :=
    congrArg (fun x : Visit => x.trial.localWire) hcurrent.visit
  have hglobal : v.trial.globalWire = s.globalWire :=
    congrArg (fun x : Visit => x.trial.globalWire) hcurrent.visit
  have hbounds := hip ▸ hspace.bounds_of_nest hnest
  have hbasic : v.trial.localWire = v.inputParameter.data.basicLocalWire ∧
      v.trial.globalWire = v.inputParameter.data.basicGlobalWire := by
    rw [hlocal, hglobal, hip]
    exact hwires
  have hfrom : ∀ old, v.WiresFrom old := by
    intro old
    rw [Visit.WiresFrom]
    rcases (Phase.refines_of_nest hnest).2 with hstage | hstage <;> rw [hstage] <;> exact hbasic
  have hall : (s.record v).LawfulIn file loaded phase ∧ (s.record v).cell = s.cell ∧
      .evaluated v ∈ (s.record v).trace := by
    refine record_induct (P := fun u => u.LawfulIn file loaded phase ∧ u.cell = s.cell ∧
      .evaluated v ∈ u.trace) ⟨{ h with }, rfl, hcurrent.evaluated⟩ fun u t hu => ?_
    obtain ⟨hu, hcell, hmem⟩ := hu
    exact ⟨hu.compare (hv.trans hcell.symm) hmem (fun _ => Phase.valid_of_keeps hkeep) hbounds
      (hfrom _) (Phase.tag_of_beforeData hnest), hcell, List.mem_append_left _ hmem⟩
  exact hall.1

/-- A trial of a refinement. -/
theorem State.LawfulIn.TRY_AND_UPDATE {m : MemoryType} {t : Target} {stage : Stage}
    (h : s.LawfulIn file loaded (.refining m))
    (hspace : Space file loaded (.refining m) s.inputParameter) (hstage : stage.refines = true)
    (hwires : (s.visit w stage m (s.best m t).stored.bank.geometry).WiresFrom (s.best m t)) :
    (s.TRY_AND_UPDATE w stage m t).LawfulIn file loaded (.refining m) := by
  let v := s.visit w stage m (s.best m t).stored.bank.geometry
  have hemit : (s.emit (.evaluated v)).LawfulIn file loaded (.refining m) := h.emit rfl trivial
  have htemp : ({ s.emit (.evaluated v) with temp := v.trial } : State).LawfulIn file loaded
      (.refining m) := { hemit with }
  have hmem : .evaluated v ∈ (s.emit (.evaluated v)).trace :=
    List.mem_append_right _ (List.mem_singleton.mpr rfl)
  refine htemp.compare rfl hmem (fun hvalid => ?_) hspace.bounds_of_refining hwires
    (fun hbefore => by cases hbefore)
  rw [show v.stage = stage from rfl, hstage] at hvalid
  cases hvalid

theorem State.ShowsTag.lawful {phase : Phase} (h : s.LawfulIn file loaded phase)
    {tag : Option (Target × Trial)} (htag : s.ShowsTag tag) :
    ∀ t x, tag = some (t, x) → ∀ v, installed s.cell .tag t s.trace = some v → x = v.trial := by
  intro t x hx v hv
  rw [htag t x hx]
  exact ((h.tracked .tag t).holds v hv).1

end

theorem lawful_invariant (w : World) (file : List OptionLine) (loaded : InputParameter) :
    NvsimInvariant w file loaded fun phase s => s.LawfulIn file loaded phase where
  setInput _ h := { h with }
  setWires _ _ h := { h with }
  startTag _ _ h := (h.mono (by simp) fun _ => trivial).emit rfl trivial
  skipTag _ h := h.mono (by simp) nofun
  startData {s} _ h := by
    have hloop : s.LawfulIn file loaded (.loop .data) := h.mono (by simp) nofun
    exact hloop.emit rfl trivial
  setLayers _ _ h := { h with }
  visit _ _ _ _ _ _ h := h.emit rfl trivial
  record hnest hspace hwires hcurrent hkeep h := h.record hnest hspace hwires hcurrent hkeep
  output {phase s v} _ hwrites hcurrent htemp hm hvalid h := by
    refine h.emitRows fun e he => ?_
    obtain ⟨tag, htag, rfl⟩ := State.mem_tempRows he
    have hip : v.inputParameter = s.inputParameter := congrArg Visit.inputParameter hcurrent.visit
    have hcell : v.cell = s.cell := congrArg Visit.cell hcurrent.visit
    -- a row of the exploration names no target and comes from the design just evaluated
    refine ⟨none, s.temp, tag, rfl, fun _ => ?_, nofun, htag.lawful h⟩
    refine ⟨v, hcurrent.evaluated, hcell, hm, htemp.symm, ?_⟩
    rcases hvalid with ⟨-, hvalid⟩ | hlast
    · exact Or.inl hvalid
    · exact Or.inr ⟨hip ▸ hwrites, hlast⟩
  startRefine _ h := h.mono (by simp) nofun
  tryLocal hspace hlocal hglobal h := h.TRY_AND_UPDATE hspace rfl ⟨hlocal, hglobal⟩
  tryGlobal hspace hglobal hlocal h := h.TRY_AND_UPDATE hspace rfl ⟨hglobal, hlocal⟩
  restore {s} _ h := by
    have hready : s.LawfulIn file loaded .ready := h.mono (by simp) nofun
    exact { hready with }
  exploreNone _ h := h.mono (by simp) nofun
  exploreSome _ h := h.mono (by simp) nofun
  prune {s} _ _ _ h := by
    refine h.emitRows fun e he => ?_
    obtain ⟨t, tag, htag, rfl⟩ := State.mem_prunedRows he
    -- a row of the pruned exploration names its target, whose record it shows
    refine ⟨some t, _, tag, rfl, nofun, fun u hu v hv => ?_, htag.lawful h⟩
    obtain rfl := Option.some.inj hu
    exact ((h.tracked .data t).holds v hv).1
  limit {s} _ h := by
    have hlawful : s.Lawful file loaded := h.toLawful
    have hemit := hlawful.emit (e := .limitsApplied s.cell s.allowedData) (c := s.cell) h.cell.ge
      (fun d hd => (Option.some.inj hd).symm) trivial
    refine ⟨⟨hemit.events, hemit.outcomes, hemit.total⟩, h.tracked.limit, h.cell,
      fun limits hphase => ?_, nofun⟩
    -- the limits of every target are those just applied
    obtain rfl : s.allowedData = limits := by simpa using hphase
    refine ⟨?_, fun t => ?_⟩
    · show Event.limitsApplied s.cell s.allowedData ∈ s.trace ++ [_]
      simp
    · show (if MemoryType.data = .data then
          ({ (s.best .data t).reset with limits := s.allowedData } : Result)
        else s.best .data t).limits = s.allowedData
      rw [if_pos rfl]

/-- Leaving a cell keeps its records as the outcome. -/
theorem State.Lawful.leaveCell {file : List OptionLine} {loaded : InputParameter} {s : State}
    (h : s.Lawful file loaded) (hcell : s.cell = s.explored.length) (htracked : s.Tracked)
    (failed : Bool)
    (hlimited : loaded.constrains → ∀ t, (installed s.cell .data t s.trace).isSome = true →
      .limitsApplied s.cell (limitsIn s.cell .data s.trace) ∈ s.trace) :
    (s.leaveCell failed).Lawful file loaded where
  events := h.events
  outcomes cell o ho := by
    rcases State.leaveCell_explored_cases ho with ho | ⟨hsame, rfl⟩
    · exact h.outcomes cell o ho
    · rw [hsame, ← hcell]
      exact ⟨htracked, hlimited⟩
  total hnil := absurd hnil (List.append_ne_nil_of_right_ne_nil _ (List.cons_ne_nil _ _))

theorem lawful_runInvariant (w : World) (file : List OptionLine) :
    RunInvariant w file (fun phase s => s.LawfulIn file (w.loaded file) phase)
      (State.Lawful file (w.loaded file)) where
  toNvsimInvariant := lawful_invariant w file (w.loaded file)
  load := by
    refine ⟨?_, fun cell o ho => ?_, fun _ => rfl⟩
    · rw [State.load_initial_trace]
      exact everywhere_nil _
    · rw [State.load_initial_explored] at ho
      cases ho
  enter {s} _ _ h := by
    let name := s.inputParameter.fileMemCell.getD s.explored.length ""
    have hemit := h.emit (e := .cellFile s.explored.length name) le_rfl
      (fun d hd => (Option.some.inj hd).symm) trivial
    refine ⟨⟨hemit.events, hemit.outcomes, hemit.total⟩, State.tracked_enterCell w _ name s, rfl,
      fun limits hphase => (by cases hphase), fun _ t => ?_⟩
    exact installed_append_some (if_pos rfl)
  fail {s} hcell h := by
    apply h.toLawful.leaveCell hcell h.tracked
    -- a cell without tags has no data record to account for
    intro _ t hsome
    rw [h.untouched trivial t] at hsome
    cases hsome
  leave {s} hcell h := by
    rcases h with ⟨hunconstrained, h⟩ | ⟨-, allowed, h⟩
    · apply h.toLawful.leaveCell hcell h.tracked
      exact fun hconstrains => absurd hconstrains hunconstrained
    · apply h.toLawful.leaveCell hcell h.tracked
      intro _ t _
      obtain ⟨hmem, hlimits⟩ := h.allowed allowed rfl
      rw [← (h.tracked .data .read_latency_optimized).limits, hlimits]
      exact hmem

/-- The outcomes of every run of `main` are what its trace says. -/
theorem run_outcomes (w : World) (file : List OptionLine) :
    Outcomes.Tracked (w.loaded file) (w.run file).explored (w.run file).trace := by
  rcases (lawful_runInvariant w file).run_cases with (h | ⟨phase, h⟩) | ⟨s, hs, hrun⟩
  · exact h.outcomes
  · have hin : (w.run file).LawfulIn file (w.loaded file) phase := h
    exact hin.outcomes
  · obtain ⟨es, hes, htrace⟩ := s.finish_trace
    rw [hrun, htrace, s.finish_explored]
    apply hs.holds.outcomes.append
    intro e he c hc
    obtain ⟨t, tag, rfl, -⟩ := hes e he
    cases hc

/-- The trace of every run of `main` is lawful. -/
theorem run_lawful (w : World) (file : List OptionLine) :
    Everywhere (Event.Lawful file (w.loaded file)) (w.run file).trace := by
  rcases (lawful_runInvariant w file).run_cases with (h | ⟨phase, h⟩) | ⟨s, hs, hrun⟩
  · exact h.events
  · have hin : (w.run file).LawfulIn file (w.loaded file) phase := h
    exact hin.events
  · rw [hrun]
    exact hs.holds.finish_events hs.length

end Destiny
