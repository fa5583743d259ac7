/-
  Destiny.Search.Found

  What a count of solutions says about the records.

  When the metrics of valid designs are below `invalid_value` (`World.Finite`),
  the first design a nest counts replaces every worst-case record.  So a
  refinement starts from records that hold designs, and a cell with solutions
  ends with them (`run_found`).
-/

import Destiny.Search.Provenance

namespace Destiny

open Lib

/-! ## Finite metrics -/

/-- Metrics the initial records do not reject. -/
structure Metrics.Finite (m : Metrics) : Prop where
  within : m.within .unset = true
  lt : ∀ t, m.objective t < Metrics.worstCase.objective t

/-- Valid designs have finite metrics. -/
def World.Finite (w : World) : Prop :=
  ∀ cell tech ip m g l gl, (w.evaluate cell tech ip m g l gl).invalid = false →
    (w.evaluate cell tech ip m g l gl).metrics.Finite

theorem State.Current.finite {w : World} {s : State} {v : Visit} (h : s.Current w v)
    (hfinite : w.Finite) (hvalid : v.trial.bank.invalid = false) : v.trial.bank.metrics.Finite := by
  rw [h.visit] at hvalid ⊢
  exact hfinite _ _ _ _ _ _ _ hvalid

theorem allValid_finite : World.allValid.Finite := by
  intro cell tech ip m g l gl _
  have hfinite : (Metrics.uniform 1).Finite := by
    refine ⟨by decide +kernel, fun t => ?_⟩
    cases t <;> decide +kernel
  exact hfinite

/-! ## Comparisons fill the records -/

section
variable {s : State} {v : Visit}

/-- A comparison takes no design out of a record. -/
theorem State.isSome_compare {cell : Nat} {m : MemoryType} {u : Target} (t : Target)
    (h : (installed cell m u s.trace).isSome = true) :
    (installed cell m u (s.compare v t).trace).isSome = true := by
  show (installed cell m u (s.trace ++ [_])).isSome = true
  cases hinstalls : installs cell m u (.compared v t (s.best v.memoryType t)) with
  | none =>
      rw [installed_append_none hinstalls]
      exact h
  | some o =>
      rw [installed_append_some hinstalls]
      rw [installs] at hinstalls
      split at hinstalls
      · rw [← Option.some.inj hinstalls]
        rfl
      · cases hinstalls

/-- After a comparison with a finite design within its limits a record holds one. -/
theorem State.Tracked.isSome_compare_self (h : s.Tracked) (hv : v.cell = s.cell) {t : Target}
    (hwithin : v.trial.bank.metrics.within (s.best v.memoryType t).limits = true)
    (hlt : v.trial.bank.metrics.objective t < Metrics.worstCase.objective t) :
    (installed s.cell v.memoryType t (s.compare v t).trace).isSome = true := by
  have htracks := h v.memoryType t
  cases hheld : installed s.cell v.memoryType t s.trace with
  | some x => exact isSome_compare t (by rw [hheld]; rfl)
  | none =>
      have haccepts : (s.best v.memoryType t).accepts v.trial = true := by
        rw [Result.accepts, hwithin, Result.key, Result.key, htracks.optimizationTarget,
          htracks.empty hheld]
        simpa using hlt
      have hinstalls : installs s.cell v.memoryType t
          (.compared v t (s.best v.memoryType t)) = some (some v) := if_pos ⟨hv, rfl, rfl, haccepts⟩
      show (installed s.cell v.memoryType t (s.trace ++ [_])).isSome = true
      rw [installed_append_some hinstalls]
      rfl

/-- A counted design that is finite and within the limits leaves no record empty. -/
theorem State.Tracked.isSome_record (h : s.Tracked) (hv : v.cell = s.cell)
    (hwithin : ∀ t, v.trial.bank.metrics.within (s.best v.memoryType t).limits = true)
    (hlt : ∀ t, v.trial.bank.metrics.objective t < Metrics.worstCase.objective t) (t : Target) :
    (installed s.cell v.memoryType t (s.record v).trace).isSome = true := by
  -- The induction is on the targets still to compare; the limits never change.
  have hfold : ∀ (ts : List Target) (u : State), u.Tracked → u.cell = s.cell →
      (∀ t, v.trial.bank.metrics.within (u.best v.memoryType t).limits = true) →
        (t ∈ ts ∨ (installed s.cell v.memoryType t u.trace).isSome = true) →
          (installed s.cell v.memoryType t
            (ts.foldl (fun s t => s.compare v t) u).trace).isSome = true := by
    intro ts
    induction ts with
    | nil =>
        intro u _ _ _ hsome
        exact hsome.resolve_left (by simp)
    | cons t' ts ih =>
        intro u hu hcell hlimits hsome
        have hv' : v.cell = u.cell := hv.trans hcell.symm
        apply ih _ (hu.compare hv' t') hcell
        · intro t''
          by_cases hsame : v.memoryType = v.memoryType ∧ t'' = t'
          · obtain ⟨-, rfl⟩ := hsame
            rw [u.compare_best_self, Result.compareAndUpdate_limits]
            exact hlimits t''
          · rw [u.compare_best_of_ne v hsame]
            exact hlimits t''
        · rcases hsome with hmem | hsome
          · rcases List.mem_cons.mp hmem with rfl | hmem
            · right
              rw [← hcell]
              exact hu.isSome_compare_self hv' (hlimits t) (hlt t)
            · exact Or.inl hmem
          · exact Or.inr (isSome_compare t' hsome)
  exact hfold Target.all { s with numSolution := s.numSolution + 1, temp := v.trial } h rfl hwithin
    (Or.inl (Target.mem_all t))

end

/-! ## Phases -/

/-- The array whose designs a phase counts. -/
def Phase.counts : Phase → Option MemoryType
  | .entered | .ready => none
  | .loop m | .refining m => some m
  | .explored | .constrained _ => some .data

/-- The phases a cache enters after its tags. -/
def Phase.afterTags : Phase → Prop
  | .entered | .loop .tag | .refining .tag => False
  | _ => True

/-- The phases before `APPLY_LIMIT`. -/
def Phase.unlimited : Phase → Prop
  | .constrained _ => False
  | _ => True

/-! ## Records that hold designs -/

/-- A refinement compares with records that hold a design. -/
def Event.RefinesFound (before : List Event) : Event → Prop
  | .compared v t _ =>
      v.stage.refines = true → (installed v.cell v.memoryType t before).isSome = true
  | _ => True

/-- The records of the explored cells with solutions hold designs. -/
def Outcomes.Found (loaded : InputParameter) (outcomes : List CellOutcome) (trace : List Event) :
    Prop :=
  ∀ (cell : Nat) (o : CellOutcome), outcomes[cell]? = some o → 0 < o.solutions →
    ∀ m, (m = .data ∨ m = .tag ∧ loaded.designTarget = .cache) →
      ∀ t, (installed cell m t trace).isSome = true

/-- Between two cells. -/
structure State.Found (file : List OptionLine) (loaded : InputParameter) (s : State) : Prop
    extends s.Lawful file loaded where
  refines : Everywhere Event.RefinesFound s.trace
  outcomesFound : Outcomes.Found loaded s.explored s.trace

/-- Inside a cell. -/
structure State.FoundIn (file : List OptionLine) (loaded : InputParameter) (phase : Phase)
    (s : State) : Prop extends s.LawfulIn file loaded phase where
  refines : Everywhere Event.RefinesFound s.trace
  outcomesFound : Outcomes.Found loaded s.explored s.trace
  uncounted : phase.counts = none → s.numSolution = 0
  counted : 0 < s.numSolution → ∀ m, phase.counts = some m →
    ∀ t, (installed s.cell m t s.trace).isSome = true
  refining : ∀ m, phase = .refining m → ∀ t, (installed s.cell m t s.trace).isSome = true
  tags : phase.afterTags → loaded.designTarget = .cache →
    ∀ t, (installed s.cell .tag t s.trace).isSome = true
  unlimited : phase.unlimited → limitsIn s.cell .data s.trace = .unset

section
variable {file : List OptionLine} {loaded : InputParameter} {phase : Phase} {s : State}
variable {w : World} {v : Visit}

/-- Events about no cell or about later ones leave the outcomes alone. -/
theorem Outcomes.Found.append {outcomes : List CellOutcome} {trace es : List Event}
    (h : Outcomes.Found loaded outcomes trace)
    (hes : ∀ e ∈ es, ∀ c, e.cell? = some c → outcomes.length ≤ c) :
    Outcomes.Found loaded outcomes (trace ++ es) := by
  intro cell o ho hpos m hm t
  have hlt : cell < outcomes.length := (List.getElem?_eq_some_iff.mp ho).1
  have hother : ∀ e ∈ es, e.cell? ≠ some cell := by
    intro e he hcell
    have hge := hes e he cell hcell
    omega
  rw [installed_append_other hother]
  exact h cell o ho hpos m hm t

/-- Rows, evaluations and loop starts. -/
theorem State.FoundIn.emitAll (h : s.FoundIn file loaded phase) {es : List Event}
    (hcell : ∀ e ∈ es, e.cell? = none) (hlawful : (s.emitAll es).LawfulIn file loaded phase) :
    (s.emitAll es).FoundIn file loaded phase := by
  have hother : ∀ e ∈ es, e.cell? ≠ some s.cell := fun e he => by simp [hcell e he]
  have hsame : ∀ m t, installed (s.emitAll es).cell m t (s.emitAll es).trace =
      installed s.cell m t s.trace := fun m t => installed_append_other hother
  have hrefines : ∀ e ∈ es, ∀ before, Event.RefinesFound before e := by
    intro e he before
    have hnone := hcell e he
    cases e with
    | compared v t old => cases hnone
    | _ => trivial
  refine
    { hlawful with
      refines := h.refines.append hrefines
      outcomesFound := h.outcomesFound.append fun e he c hc => by simp [hcell e he] at hc
      uncounted := h.uncounted
      counted := fun hpos m hm t => ?_
      refining := fun m hm t => ?_
      tags := fun hafter hcache t => ?_
      unlimited := fun hunlimited => ?_ }
  · rw [hsame]
    exact h.counted hpos m hm t
  · rw [hsame]
    exact h.refining m hm t
  · rw [hsame]
    exact h.tags hafter hcache t
  · show limitsIn s.cell .data (s.trace ++ es) = .unset
    rw [limitsIn_append_other hother]
    exact h.unlimited hunlimited

theorem State.FoundIn.emit (h : s.FoundIn file loaded phase) {e : Event} (hcell : e.cell? = none)
    (he : e.Lawful file loaded s.trace) : (s.emit e).FoundIn file loaded phase := by
  apply h.emitAll
  · intro x hx
    rwa [List.mem_singleton.mp hx]
  · exact h.toLawfulIn.emit hcell he

/-- One comparison with a record that holds a design if the stage refines. -/
theorem State.FoundIn.compare (h : s.FoundIn file loaded phase) {t : Target}
    (hv : v.cell = s.cell) (hlawful : (s.compare v t).LawfulIn file loaded phase)
    (hfound : v.stage.refines = true →
      (installed v.cell v.memoryType t s.trace).isSome = true) :
    (s.compare v t).FoundIn file loaded phase where
  toLawfulIn := hlawful
  refines := everywhere_append_singleton.mpr ⟨h.refines, hfound⟩
  outcomesFound := by
    apply h.outcomesFound.append
    intro e he c hc
    rw [List.mem_singleton.mp he] at hc
    obtain rfl : v.cell = c := Option.some.inj hc
    rw [hv]
    exact h.cell.ge
  uncounted := h.uncounted
  counted hpos m hm u := isSome_compare t (h.counted hpos m hm u)
  refining m hm u := isSome_compare t (h.refining m hm u)
  tags hafter hcache u := isSome_compare t (h.tags hafter hcache u)
  unlimited hunlimited := by
    show limitsIn s.cell .data (s.trace ++ [_]) = .unset
    rw [limitsIn_append_none rfl]
    exact h.unlimited hunlimited

/-- The limits of a record while a nest counts its design. -/
theorem State.FoundIn.within (h : s.FoundIn file loaded phase)
    (hnest : phase.nest = some (v.stage, v.memoryType)) (hkeep : phase.keeps v.trial.bank = true)
    (hfinite : v.trial.bank.metrics.Finite) (t : Target) :
    v.trial.bank.metrics.within (s.best v.memoryType t).limits = true := by
  have hlimits := (h.tracked v.memoryType t).limits
  cases phase with
  | loop m =>
      obtain ⟨-, rfl⟩ : Stage.basic = v.stage ∧ m = v.memoryType := by
        simpa [Phase.nest] using hnest
      have hunset : limitsIn s.cell v.memoryType s.trace = .unset := by
        by_cases hdata : v.memoryType = .data
        · rw [hdata]
          exact h.unlimited trivial
        · exact if_neg hdata
      rw [hlimits, hunset]
      exact hfinite.within
  | constrained allowed =>
      obtain ⟨-, hdata⟩ : Stage.constrained = v.stage ∧ MemoryType.data = v.memoryType := by
        simpa [Phase.nest] using hnest
      rw [← hdata, (h.allowed allowed rfl).2 t]
      exact Phase.within_of_keeps hkeep
  | _ => cases hnest

theorem Phase.counts_of_nest {stage : Stage} {m : MemoryType}
    (h : phase.nest = some (stage, m)) : phase.counts = some m ∧ ∀ n, phase ≠ .refining n := by
  cases phase with
  | loop n =>
      obtain ⟨-, rfl⟩ : Stage.basic = stage ∧ n = m := by simpa [Phase.nest] using h
      exact ⟨rfl, fun k hk => by cases hk⟩
  | constrained limits =>
      obtain ⟨-, rfl⟩ : Stage.constrained = stage ∧ MemoryType.data = m := by
        simpa [Phase.nest] using h
      exact ⟨rfl, fun k hk => by cases hk⟩
  | _ => cases h

/-- A counted design. -/
theorem State.FoundIn.record (h : s.FoundIn file loaded phase)
    (hlawful : (s.record v).LawfulIn file loaded phase)
    (hnest : phase.nest = some (v.stage, v.memoryType)) (hv : v.cell = s.cell)
    (hkeep : phase.keeps v.trial.bank = true) (hfinite : v.trial.bank.metrics.Finite) :
    (s.record v).FoundIn file loaded phase := by
  obtain ⟨hcounts, hrefining⟩ := Phase.counts_of_nest hnest
  -- counting a design adds only comparisons to the trace
  have hcompared : ∀ e ∈ Target.all.map fun t => Event.compared v t (s.best v.memoryType t),
      ∃ t, e = .compared v t (s.best v.memoryType t) := by
    intro e he
    obtain ⟨t, -, rfl⟩ := List.mem_map.mp he
    exact ⟨t, rfl⟩
  refine
    { hlawful with
      refines := ?_
      outcomesFound := ?_
      uncounted := fun hc => by simp [hcounts] at hc
      counted := fun _ m hm t => ?_
      refining := fun m hm => absurd hm (hrefining m)
      tags := fun hafter hcache t => ?_
      unlimited := fun hunlimited => ?_ }
  · rw [record_trace]
    apply h.refines.append
    intro e he before
    obtain ⟨t, rfl⟩ := hcompared e he
    intro hstage
    rw [(Phase.refines_of_nest hnest).1] at hstage
    cases hstage
  · rw [record_trace, record_explored]
    apply h.outcomesFound.append
    intro e he c hc
    obtain ⟨t, rfl⟩ := hcompared e he
    obtain rfl : v.cell = c := Option.some.inj hc
    rw [hv]
    exact h.cell.ge
  · rw [hcounts] at hm
    obtain rfl := Option.some.inj hm
    rw [record_cell]
    exact h.tracked.isSome_record hv (h.within hnest hkeep hfinite) hfinite.lt t
  · rw [record_cell]
    exact record_induct (P := fun u => (installed s.cell .tag t u.trace).isSome = true)
      (h.tags hafter hcache t) fun u u' hu => isSome_compare u' hu
  · rw [record_cell]
    exact record_induct (P := fun u => limitsIn s.cell .data u.trace = .unset)
      (h.unlimited hunlimited) fun u u' hu => (limitsIn_append_none rfl).trans hu

/-- A refinement trial. -/
theorem State.FoundIn.TRY_AND_UPDATE {m : MemoryType} {t : Target} {stage : Stage}
    (h : s.FoundIn file loaded (.refining m))
    (hlawful : (s.TRY_AND_UPDATE w stage m t).LawfulIn file loaded (.refining m)) :
    (s.TRY_AND_UPDATE w stage m t).FoundIn file loaded (.refining m) := by
  let v := s.visit w stage m (s.best m t).stored.bank.geometry
  have hemit : (s.emit (.evaluated v)).FoundIn file loaded (.refining m) := h.emit rfl trivial
  have htemp : ({ s.emit (.evaluated v) with temp := v.trial } : State).FoundIn file loaded
      (.refining m) := { hemit with }
  exact htemp.compare rfl hlawful fun _ => hemit.refining m rfl t

/-- `APPLY_LIMIT`. -/
theorem State.FoundIn.limit (h : s.FoundIn file loaded .explored)
    (hlawful : s.limit.LawfulIn file loaded (.constrained s.allowedData)) :
    s.limit.FoundIn file loaded (.constrained s.allowedData) where
  toLawfulIn := hlawful
  refines := everywhere_append_singleton.mpr ⟨h.refines, trivial⟩
  outcomesFound := by
    apply h.outcomesFound.append
    intro e he c hc
    rw [List.mem_singleton.mp he] at hc
    obtain rfl : s.cell = c := Option.some.inj hc
    exact h.cell.ge
  uncounted hc := by cases hc
  counted hpos := absurd hpos (lt_irrefl 0)
  refining m hm := by cases hm
  tags _ hcache t := by
    have hnone : installs s.cell .tag t (.limitsApplied s.cell s.allowedData) = none :=
      if_neg (by simp)
    show (installed s.cell .tag t (s.trace ++ [_])).isSome = true
    rw [installed_append_none hnone]
    exact h.tags trivial hcache t
  unlimited hc := False.elim hc

/-! ## Between the loops -/

/-- A loop starts from a count of zero. -/
theorem State.FoundIn.startTag (h : s.FoundIn file loaded .entered) :
    s.FoundIn file loaded (.loop .tag) where
  toLawfulIn := h.toLawfulIn.mono (by simp) fun _ => trivial
  refines := h.refines
  outcomesFound := h.outcomesFound
  uncounted hc := by cases hc
  counted hpos := absurd (h.uncounted rfl) hpos.ne'
  refining m hm := by cases hm
  tags hc := False.elim hc
  unlimited _ := h.unlimited trivial

theorem State.FoundIn.skipTag (h : s.FoundIn file loaded .entered)
    (hram : loaded.designTarget ≠ .cache) : s.FoundIn file loaded .ready where
  toLawfulIn := h.toLawfulIn.mono (by simp) False.elim
  refines := h.refines
  outcomesFound := h.outcomesFound
  uncounted _ := h.uncounted rfl
  counted hpos := absurd (h.uncounted rfl) hpos.ne'
  refining m hm := by cases hm
  tags _ hcache := absurd hcache hram
  unlimited _ := h.unlimited trivial

theorem State.FoundIn.startData (h : s.FoundIn file loaded .ready) :
    s.FoundIn file loaded (.loop .data) where
  toLawfulIn := h.toLawfulIn.mono (by simp) False.elim
  refines := h.refines
  outcomesFound := h.outcomesFound
  uncounted hc := by cases hc
  counted hpos := absurd (h.uncounted rfl) hpos.ne'
  refining m hm := by cases hm
  tags _ := h.tags trivial
  unlimited _ := h.unlimited trivial

/-- A refinement starts from records that hold designs. -/
theorem State.FoundIn.startRefine {m : MemoryType} (h : s.FoundIn file loaded (.loop m))
    (hpos : 0 < s.numSolution) : s.FoundIn file loaded (.refining m) where
  toLawfulIn := h.toLawfulIn.mono (by simp) False.elim
  refines := h.refines
  outcomesFound := h.outcomesFound
  uncounted hc := by cases hc
  counted := h.counted
  refining n hn t := by
    obtain rfl := Phase.refining.inj hn
    exact h.counted hpos m rfl t
  tags hafter hcache t := by
    cases m with
    | tag => exact False.elim hafter
    | _ => exact h.tags trivial hcache t
  unlimited _ := h.unlimited trivial

/-- After the tags their records hold designs. -/
theorem State.FoundIn.restore (h : s.FoundIn file loaded (.refining .tag)) :
    ({ s with numSolution := 0 } : State).FoundIn file loaded .ready where
  toLawfulIn := { h.toLawfulIn.mono (by simp) (False.elim : Phase.ready.beforeData → _) with }
  refines := h.refines
  outcomesFound := h.outcomesFound
  uncounted _ := rfl
  counted hpos := absurd hpos (lt_irrefl 0)
  refining m hm := by cases hm
  tags _ _ := h.refining .tag rfl
  unlimited _ := h.unlimited trivial

theorem State.FoundIn.exploreNone (h : s.FoundIn file loaded (.loop .data)) :
    s.FoundIn file loaded .explored where
  toLawfulIn := h.toLawfulIn.mono (by simp) False.elim
  refines := h.refines
  outcomesFound := h.outcomesFound
  uncounted hc := by cases hc
  counted hpos m hm := h.counted hpos m hm
  refining m hm := by cases hm
  tags _ := h.tags trivial
  unlimited _ := h.unlimited trivial

theorem State.FoundIn.exploreSome (h : s.FoundIn file loaded (.refining .data)) :
    s.FoundIn file loaded .explored where
  toLawfulIn := h.toLawfulIn.mono (by simp) False.elim
  refines := h.refines
  outcomesFound := h.outcomesFound
  uncounted hc := by cases hc
  counted hpos m hm := h.counted hpos m hm
  refining m hm := by cases hm
  tags _ := h.tags trivial
  unlimited _ := h.unlimited trivial

end

/-! ## Every run -/

theorem found_invariant {w : World} (hfinite : w.Finite) (file : List OptionLine)
    (loaded : InputParameter) :
    NvsimInvariant w file loaded fun phase s => s.FoundIn file loaded phase where
  setInput _ h := { h with }
  setWires _ _ h := { h with }
  startTag _ _ h := h.startTag.emit rfl trivial
  skipTag hram h := h.skipTag hram
  startData _ h := h.startData.emit rfl trivial
  setLayers _ _ h := { h with }
  visit _ _ _ _ _ _ h := h.emit rfl trivial
  record hnest hspace hwires hcurrent hkeep h :=
    h.record ((lawful_invariant w file loaded).record hnest hspace hwires hcurrent hkeep
      h.toLawfulIn) hnest (congrArg Visit.cell hcurrent.visit) hkeep
      (hcurrent.finite hfinite (Phase.valid_of_keeps hkeep))
  output hspace hwrites hcurrent htemp hm hvalid h := by
    apply h.emitAll
    · intro e he
      obtain ⟨tag, -, rfl⟩ := State.mem_tempRows he
      rfl
    · exact (lawful_invariant w file loaded).output hspace hwrites hcurrent htemp hm hvalid
        h.toLawfulIn
  startRefine hpos h := h.startRefine hpos
  tryLocal hspace hlocal hglobal h :=
    h.TRY_AND_UPDATE ((lawful_invariant w file loaded).tryLocal hspace hlocal hglobal h.toLawfulIn)
  tryGlobal hspace hglobal hlocal h :=
    h.TRY_AND_UPDATE ((lawful_invariant w file loaded).tryGlobal hspace hglobal hlocal h.toLawfulIn)
  restore _ h := h.restore
  exploreNone _ h := h.exploreNone
  exploreSome _ h := h.exploreSome
  prune hspace hfull hprune h := by
    apply h.emitAll
    · intro e he
      obtain ⟨t, tag, -, rfl⟩ := State.mem_prunedRows he
      rfl
    · exact (lawful_invariant w file loaded).prune hspace hfull hprune h.toLawfulIn
  limit hspace h := h.limit ((lawful_invariant w file loaded).limit hspace h.toLawfulIn)

section
variable {w : World} {file : List OptionLine} {loaded : InputParameter} {s : State}

/-- A cell with solutions leaves records that hold designs. -/
theorem State.Found.leaveCell {phase : Phase} (h : s.FoundIn file loaded phase) (failed : Bool)
    (hlawful : (s.leaveCell failed).Lawful file loaded)
    (hfailed : failed = false → phase.afterTags ∧ phase.counts = some .data) :
    (s.leaveCell failed).Found file loaded where
  toLawful := hlawful
  refines := h.refines
  outcomesFound cell o ho hpos m hm t := by
    rcases State.leaveCell_explored_cases ho with ho | ⟨hcell, rfl⟩
    · exact h.outcomesFound cell o ho hpos m hm t
    · rw [hcell, ← h.cell]
      cases failed with
      | true => exact absurd hpos (lt_irrefl 0)
      | false =>
          obtain ⟨hafter, hcounts⟩ := hfailed rfl
          rcases hm with rfl | ⟨rfl, hcache⟩
          · exact h.counted hpos .data hcounts t
          · exact h.tags hafter hcache t

theorem found_runInvariant {w : World} (hfinite : w.Finite) (file : List OptionLine) :
    RunInvariant w file (fun phase s => s.FoundIn file (w.loaded file) phase)
      (State.Found file (w.loaded file)) where
  toNvsimInvariant := found_invariant hfinite file (w.loaded file)
  load := by
    refine ⟨(lawful_runInvariant w file).load, ?_, fun cell o ho => ?_⟩
    · rw [State.load_initial_trace]
      exact everywhere_nil _
    · rw [State.load_initial_explored] at ho
      cases ho
  enter {s} hspace hlt h :=
    { (lawful_runInvariant w file).enter hspace hlt h.toLawful with
      refines := everywhere_append_singleton.mpr ⟨h.refines, trivial⟩
      outcomesFound := by
        apply h.outcomesFound.append
        intro e he c hc
        rw [List.mem_singleton.mp he] at hc
        exact (Option.some.inj hc).le
      uncounted := fun _ => rfl
      counted := fun hpos => absurd hpos (lt_irrefl 0)
      refining := nofun
      tags := False.elim
      unlimited := fun _ => by
        have hlimits : setsLimits s.explored.length (.cellFile s.explored.length
            (s.inputParameter.fileMemCell.getD s.explored.length "")) = some .unset := if_pos rfl
        show limitsIn s.explored.length .data (s.trace ++ [_]) = .unset
        rw [limitsIn, if_pos rfl, lastSome_append_of_some hlimits]
        rfl }
  fail hcell h :=
    State.Found.leaveCell h true ((lawful_runInvariant w file).fail hcell h.toLawfulIn) nofun
  leave hcell h := by
    rcases h with ⟨hunconstrained, h⟩ | ⟨hconstrains, allowed, h⟩
    · apply State.Found.leaveCell h false _ fun _ => ⟨trivial, rfl⟩
      exact (lawful_runInvariant w file).leave hcell (Or.inl ⟨hunconstrained, h.toLawfulIn⟩)
    · apply State.Found.leaveCell h false _ fun _ => ⟨trivial, rfl⟩
      exact (lawful_runInvariant w file).leave hcell (Or.inr ⟨hconstrains, allowed, h.toLawfulIn⟩)

/-- In every run, refinements start from records that hold designs, and so do
    the records of the explored cells that have solutions. -/
theorem run_found {w : World} (hfinite : w.Finite) (file : List OptionLine) :
    Everywhere Event.RefinesFound (w.run file).trace ∧
      Outcomes.Found (w.loaded file) (w.run file).explored (w.run file).trace := by
  rcases (found_runInvariant hfinite file).run_cases with (h | ⟨phase, h⟩) | ⟨s, hs, hrun⟩
  · exact ⟨h.refines, h.outcomesFound⟩
  · have hin : (w.run file).FoundIn file (w.loaded file) phase := h
    exact ⟨hin.refines, hin.outcomesFound⟩
  · obtain ⟨es, hes, htrace⟩ := s.finish_trace
    have hprinted : ∀ e ∈ es, e.cell? = none ∧ ∀ before, Event.RefinesFound before e := by
      intro e he
      obtain ⟨t, tag, rfl, -⟩ := hes e he
      exact ⟨rfl, fun _ => trivial⟩
    rw [hrun, htrace, s.finish_explored]
    refine ⟨hs.holds.refines.append fun e he => (hprinted e he).2, ?_⟩
    exact hs.holds.outcomesFound.append fun e he c hc => by simp [(hprinted e he).1] at hc

end

end Destiny
