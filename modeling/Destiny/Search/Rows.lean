/-
  Destiny.Search.Rows

  Whether the CSV file of a full exploration is complete.

  The nest of a cell writes every valid design once (`State.Nest`).
  The refinements write after the loop over the targets: only the last trial of
  a wire, whether it is valid or not, and no refinement trial is counted.  So
  the file is complete, and its rows are as many as `main` reports, exactly when
  no nest finds a valid design (`rowsComplete_iff`).
-/

import Destiny.Search.Cells
import Destiny.Search.Validity
import Destiny.Search.WirePins
import Mathlib.Algebra.Group.Action.Defs

namespace Destiny

open Lib

/-! ## Rows and designs of a trace -/

/-- What a row of the CSV file shows. -/
structure CsvRow where
  cell : Nat
  data : Trial
  tag : Option (Target × Trial)
  deriving DecidableEq

def Event.row? : Event → Option CsvRow
  | .csvRow cell _ data tag => some ⟨cell, data, tag⟩
  | _ => none

/-- The evaluation of a valid data design. -/
def Event.validDesign? : Event → Option Visit
  | .evaluated v => if v.memoryType = .data ∧ v.trial.bank.invalid = false then some v else none
  | _ => none

def rowsIn (events : List Event) : List CsvRow := events.filterMap Event.row?

/-- The valid data designs evaluated. -/
def designsIn (events : List Event) : List Visit := events.filterMap Event.validDesign?

/-- Those of the nests. -/
def nestDesignsIn (events : List Event) : List Visit :=
  (designsIn events).filter fun v => !v.stage.refines

section
variable {es fs : List Event}

@[simp] theorem rowsIn_append : rowsIn (es ++ fs) = rowsIn es ++ rowsIn fs := List.filterMap_append

@[simp] theorem designsIn_append : designsIn (es ++ fs) = designsIn es ++ designsIn fs :=
  List.filterMap_append

@[simp] theorem nestDesignsIn_append :
    nestDesignsIn (es ++ fs) = nestDesignsIn es ++ nestDesignsIn fs := by
  rw [nestDesignsIn, designsIn_append, List.filter_append]
  rfl

theorem rowsIn_eq_nil (h : ∀ e ∈ es, e.row? = none) : rowsIn es = [] :=
  List.filterMap_eq_nil_iff.mpr h

theorem designsIn_eq_nil (h : ∀ e ∈ es, e.validDesign? = none) : designsIn es = [] :=
  List.filterMap_eq_nil_iff.mpr h

theorem mem_designsIn {v : Visit} :
    v ∈ designsIn es ↔ .evaluated v ∈ es ∧ v.memoryType = .data ∧ v.trial.bank.invalid = false := by
  rw [designsIn, List.mem_filterMap]
  constructor
  · rintro ⟨e, he, hv⟩
    cases e with
    | evaluated x =>
        rw [Event.validDesign?] at hv
        split at hv
        · next hx =>
          obtain rfl := Option.some.inj hv
          exact ⟨he, hx⟩
        · cases hv
    | _ => cases hv
  · rintro ⟨he, hv⟩
    exact ⟨_, he, if_pos hv⟩

/-- Events of tags are neither rows nor data designs. -/
theorem rowsIn_of_tags (h : ∀ e ∈ es, e.ofTags = true) : rowsIn es = [] := by
  apply rowsIn_eq_nil
  intro e he
  have htag := h e he
  cases e <;> first | rfl | cases htag

theorem designsIn_of_tags (h : ∀ e ∈ es, e.ofTags = true) : designsIn es = [] := by
  apply designsIn_eq_nil
  intro e he
  have htag := h e he
  cases e with
  | evaluated v =>
      apply if_neg
      rintro ⟨hdata, -⟩
      simp [Event.ofTags, hdata] at htag
  | _ => rfl

end

/-! ## What a step adds -/

/-- The rows `OUTPUT_TO_FILE` writes of a design. -/
def State.rowsOf (s : State) (x : Trial) : List CsvRow :=
  rowsIn ({ s with temp := x } : State).tempRows

/-- From `s` to `u` the trace grows by `es`; what the rows show of a cell stays. -/
structure State.Grows (s u : State) (es : List Event) : Prop where
  cell : u.cell = s.cell
  inputParameter : u.inputParameter = s.inputParameter
  tags : ∀ t, u.best .tag t = s.best .tag t
  trace : u.trace = s.trace ++ es

section
variable {w : World} {ip : InputParameter} {s u v : State} {es fs : List Event}

theorem State.Grows.trans (h : s.Grows u es) (h' : u.Grows v fs) : s.Grows v (es ++ fs) where
  cell := h'.cell.trans h.cell
  inputParameter := h'.inputParameter.trans h.inputParameter
  tags t := (h'.tags t).trans (h.tags t)
  trace := by rw [h'.trace, h.trace, List.append_assoc]

theorem State.Grows.emitAll (s : State) (es : List Event) : s.Grows (s.emitAll es) es :=
  ⟨rfl, rfl, fun _ => rfl, rfl⟩

/-- Rows depend on the cell, the design target and the tags only. -/
theorem State.Grows.rowsOf (h : s.Grows u es) (x : Trial) : u.rowsOf x = s.rowsOf x := by
  have htags : (fun t => (u.best .tag t).stored) = fun t => (s.best .tag t).stored :=
    funext fun t => congrArg Result.stored (h.tags t)
  have hrow : u.printAsCacheToCsvFile none x = s.printAsCacheToCsvFile none x := by
    funext t
    rw [State.printAsCacheToCsvFile, State.printAsCacheToCsvFile, h.cell, h.tags t]
  show rowsIn (if u.inputParameter.designTarget = .cache then
      Target.all.filterMap (u.printAsCacheToCsvFile none x) else [u.printToCsvFile none x]) =
    rowsIn (if s.inputParameter.designTarget = .cache then
      Target.all.filterMap (s.printAsCacheToCsvFile none x) else [s.printToCsvFile none x])
  rw [h.inputParameter, hrow, State.printToCsvFile, State.printToCsvFile, h.cell]

/-- A row of a design shows that design, for the present cell. -/
theorem State.of_mem_rowsOf {x : Trial} {row : CsvRow} (h : row ∈ s.rowsOf x) :
    row.cell = s.cell ∧ row.data = x := by
  obtain ⟨e, he, hrow⟩ := List.mem_filterMap.mp h
  obtain ⟨tag, -, rfl⟩ := State.mem_tempRows he
  obtain rfl := Option.some.inj hrow
  exact ⟨rfl, rfl⟩

theorem designsIn_tempRows (s : State) : designsIn s.tempRows = [] := by
  apply designsIn_eq_nil
  intro e he
  obtain ⟨tag, -, rfl⟩ := State.mem_tempRows he
  rfl

/-- Whether a design has rows at all depends on the tags, not on the design. -/
theorem State.rowsOf_eq_nil_iff {x y : Trial} (hx : x.bank.memoryType = .data)
    (hy : y.bank.memoryType = .data) : s.rowsOf x = [] ↔ s.rowsOf y = [] := by
  have hnil : ∀ z : Trial, z.bank.memoryType = .data → (s.rowsOf z = [] ↔
      s.inputParameter.designTarget = .cache ∧
        ∀ t, (s.best .tag t).stored.bank.memoryType ≠ .tag) := by
    intro z hz
    show rowsIn (if s.inputParameter.designTarget = .cache then
      Target.all.filterMap (s.printAsCacheToCsvFile none z) else [s.printToCsvFile none z]) = [] ↔ _
    split
    · next hcache =>
      rw [rowsIn, List.filterMap_eq_nil_iff]
      constructor
      · refine fun h => ⟨hcache, fun t ht => ?_⟩
        have hrow : s.printAsCacheToCsvFile none z t =
            some (.csvRow s.cell none z (some (t, (s.best .tag t).stored))) := if_pos ⟨hz, ht⟩
        have hnone := h _ (List.mem_filterMap.mpr ⟨t, Target.mem_all t, hrow⟩)
        cases hnone
      · rintro ⟨-, h⟩ e he
        obtain ⟨t, -, ht⟩ := List.mem_filterMap.mp he
        have hnone : s.printAsCacheToCsvFile none z t = none := if_neg fun hrow => h t hrow.2
        rw [hnone] at ht
        cases ht
    · next hram =>
      constructor
      · intro h
        cases h
      · exact fun h => absurd h.1 hram
  rw [hnil x hx, hnil y hy]

/-! ## The nest -/

/-- What a nest does: each valid design is counted and written once. -/
structure State.Nest (s u : State) (es : List Event) : Prop extends s.Grows u es where
  numSolution : u.numSolution = s.numSolution + (designsIn es).length
  designs : ∀ v ∈ designsIn es,
    v.cell = s.cell ∧ v.stage.refines = false ∧ v.trial.bank.memoryType = .data
  rows : rowsIn es = (designsIn es).flatMap fun v => s.rowsOf v.trial

theorem State.Nest.trans (h : s.Nest u es) (h' : u.Nest v fs) : s.Nest v (es ++ fs) where
  toGrows := h.toGrows.trans h'.toGrows
  numSolution := by
    rw [h'.numSolution, h.numSolution, designsIn_append, List.length_append]
    omega
  designs x hx := by
    rw [designsIn_append] at hx
    rcases List.mem_append.mp hx with hx | hx
    · exact h.designs x hx
    · rw [← h.cell]
      exact h'.designs x hx
  rows := by
    have hsame : (fun v : Visit => u.rowsOf v.trial) = fun v => s.rowsOf v.trial :=
      funext fun v => h.rowsOf v.trial
    rw [rowsIn_append, designsIn_append, List.flatMap_append, h.rows, h'.rows, hsame]

/-- An evaluated design with its comparisons. -/
def Visit.events (v : Visit) (s : State) : List Event :=
  .evaluated v :: Target.all.map fun t => .compared v t (s.best v.memoryType t)

theorem rowsIn_visitEvents (v : Visit) (s : State) : rowsIn (v.events s) = [] := by
  apply rowsIn_eq_nil
  intro e he
  rcases List.mem_cons.mp he with rfl | he
  · rfl
  · obtain ⟨t, -, rfl⟩ := List.mem_map.mp he
    rfl

theorem designsIn_visitEvents {v : Visit} (hm : v.memoryType = .data)
    (hvalid : v.trial.bank.invalid = false) (s : State) : designsIn (v.events s) = [v] := by
  have hevaluated : Event.validDesign? (.evaluated v) = some v := if_pos ⟨hm, hvalid⟩
  have hcompared :
      designsIn (Target.all.map fun t => .compared v t (s.best v.memoryType t)) = [] := by
    apply designsIn_eq_nil
    intro e he
    obtain ⟨t, -, rfl⟩ := List.mem_map.mp he
    rfl
  rw [Visit.events, designsIn, List.filterMap_cons_some hevaluated]
  exact congrArg _ hcompared

theorem State.grows_record {v : Visit} (hm : v.memoryType = .data) (s : State) :
    s.Grows ((s.emit (.evaluated v)).record v) (v.events s) := by
  rw [State.record_eq]
  refine ⟨rfl, rfl, fun t => ?_, ?_⟩
  · exact if_neg (by rw [hm]; decide)
  · show s.trace ++ [_] ++ _ = _
    rw [List.append_assoc]
    rfl

/-- One design. -/
theorem State.nest_tryDesign (hwrites : ip.writesEveryDesign = true) (s : State) (g : Geometry) :
    ∃ es,
      s.Nest (s.tryDesign w .basic .data (fun b => !b.invalid) (State.outputDesign ip) g) es := by
  let v := s.visit w .basic .data g
  by_cases hkeep : (fun b : EvaluatedBank => !b.invalid) (s.design w .data g).bank = true
  · -- a valid design is counted, then written with the temporary result
    let t := (s.emit (.evaluated v)).record v
    have hvalid : v.trial.bank.invalid = false := (Bool.not_eq_true' _).mp hkeep
    have hgrows : s.Grows t (v.events s) := State.grows_record rfl s
    have hdesigns : designsIn (v.events s ++ t.tempRows) = [v] := by
      rw [designsIn_append, designsIn_visitEvents rfl hvalid, designsIn_tempRows, List.append_nil]
    have hrows : rowsIn (v.events s ++ t.tempRows) = s.rowsOf v.trial := by
      rw [rowsIn_append, rowsIn_visitEvents, List.nil_append, ← hgrows.rowsOf]
      rfl
    have hdone : s.tryDesign w .basic .data (fun b => !b.invalid) (State.outputDesign ip) g =
        t.emitAll t.tempRows := by
      rw [State.tryDesign_of_keep hkeep, State.outputDesign, if_pos hwrites]
      rfl
    rw [hdone]
    refine ⟨_, hgrows.trans (State.Grows.emitAll t t.tempRows), ?_, fun x hx => ?_, ?_⟩
    · rw [hdesigns]
      show ((s.emit (.evaluated v)).record v).numSolution = _
      rw [State.record_eq]
      rfl
    · rw [hdesigns] at hx
      rw [List.mem_singleton.mp hx]
      exact ⟨rfl, rfl, rfl⟩
    · rw [hrows, hdesigns, List.flatMap_singleton]
  · -- An invalid design is neither counted nor written.
    have hdesigns : designsIn [.evaluated v] = [] := by
      apply designsIn_eq_nil
      intro e he
      rw [List.mem_singleton.mp he]
      exact if_neg fun h => hkeep ((Bool.not_eq_true' _).mpr h.2)
    rw [State.tryDesign_of_not_keep hkeep]
    refine ⟨[.evaluated v], State.Grows.emitAll s _, ?_, fun x hx => ?_, ?_⟩
    · rw [hdesigns]
      rfl
    · rw [hdesigns] at hx
      cases hx
    · rw [hdesigns]
      rfl

/-- The nest writes every valid design once, and counts it. -/
theorem State.nest_foldl (hwrites : ip.writesEveryDesign = true) (gs : List Geometry) (s : State) :
    ∃ es, s.Nest (gs.foldl
      (State.tryDesign w .basic .data (fun b => !b.invalid) (State.outputDesign ip)) s) es := by
  induction gs generalizing s with
  | nil => exact ⟨[], ⟨rfl, rfl, fun _ => rfl, by simp⟩, rfl, fun v hv => (by cases hv), rfl⟩
  | cons g gs ih =>
      obtain ⟨es, hstep⟩ := State.nest_tryDesign (w := w) hwrites s g
      obtain ⟨fs, hrest⟩ := ih (s.tryDesign w .basic .data (fun b => !b.invalid)
        (State.outputDesign ip) g)
      exact ⟨es ++ fs, hstep.trans hrest⟩

/-! ## The refinements -/

/-- What refinements do: nothing is counted, and every row shows a trial. -/
structure State.Refinement (s u : State) (es : List Event) : Prop extends s.Grows u es where
  numSolution : u.numSolution = s.numSolution
  designs : ∀ v ∈ designsIn es, v.cell = s.cell ∧ v.stage.refines = true
  rows : ∀ row ∈ rowsIn es, ∃ x : Trial, x.bank.memoryType = .data ∧ row ∈ s.rowsOf x

theorem State.Refinement.trans (h : s.Refinement u es) (h' : u.Refinement v fs) :
    s.Refinement v (es ++ fs) where
  toGrows := h.toGrows.trans h'.toGrows
  numSolution := h'.numSolution.trans h.numSolution
  designs x hx := by
    rw [designsIn_append] at hx
    rcases List.mem_append.mp hx with hx | hx
    · exact h.designs x hx
    · rw [← h.cell]
      exact h'.designs x hx
  rows row hrow := by
    rw [rowsIn_append] at hrow
    rcases List.mem_append.mp hrow with hrow | hrow
    · exact h.rows row hrow
    · obtain ⟨x, hx, hmem⟩ := h'.rows row hrow
      rw [h.rowsOf] at hmem
      exact ⟨x, hx, hmem⟩

/-- A step without events. -/
theorem State.Refinement.silent (h : s.Grows u []) (hcount : u.numSolution = s.numSolution) :
    s.Refinement u [] :=
  ⟨h, hcount, fun v hv => (by cases hv), fun row hrow => (by cases hrow)⟩

theorem State.Refinement.foldl {α : Type} {f : State → α → State}
    (hstep : ∀ (s : State) x, ∃ es, s.Refinement (f s x) es) (xs : List α) (s : State) :
    ∃ es, s.Refinement (xs.foldl f s) es := by
  induction xs generalizing s with
  | nil => exact ⟨[], .silent ⟨rfl, rfl, fun _ => rfl, by simp⟩ rfl⟩
  | cons x xs ih =>
      obtain ⟨es, hx⟩ := hstep s x
      obtain ⟨fs, hxs⟩ := ih (f s x)
      exact ⟨es ++ fs, hx.trans hxs⟩

/-- One trial; it is what `tempResult` holds afterwards. -/
theorem State.refinement_tryRecord {load : State → MemoryType → Target → State}
    {stage : Target → Stage}
    (hload : ∀ (s : State) m t, s.Refinement (load s m t) [])
    (hstage : ∀ t, (stage t).refines = true) (s : State) (t : Target) :
    ∃ v es, s.Refinement (s.tryRecord w .data load stage t) es ∧ .evaluated v ∈ es ∧
      (s.tryRecord w .data load stage t).temp = v.trial ∧ v.memoryType = .data ∧
        v.trial.bank.memoryType = .data := by
  let mid := load s .data t
  let v := mid.visit w (stage t) .data (mid.best .data t).stored.bank.geometry
  have hload := hload s .data t
  refine ⟨v, [.evaluated v, .compared v t (mid.best .data t)], ?_, by simp, rfl, rfl, rfl⟩
  refine hload.trans ⟨⟨rfl, rfl, fun u => ?_, ?_⟩, rfl, fun x hx => ?_, fun row hrow => ?_⟩
  · exact State.compare_best_of_ne _ v fun h => by cases h.1
  · show mid.trace ++ [_] ++ [_] = _
    rw [List.append_assoc]
    rfl
  · obtain ⟨hmem, -⟩ := mem_designsIn.mp hx
    obtain rfl : x = v := by simpa using hmem
    exact ⟨rfl, hstage t⟩
  · cases hrow

/-- All trials of a wire: the last one is written, whether valid or not. -/
theorem State.refinement_tryWire (hwrites : ip.writesEveryDesign = true)
    {set : State → Wire → State} {load : State → MemoryType → Target → State}
    {stage : Target → Stage} (hset : ∀ (s : State) x, s.Refinement (set s x) [])
    (hload : ∀ (s : State) m t, s.Refinement (load s m t) [])
    (hstage : ∀ t, (stage t).refines = true) (s : State) (x : Wire) :
    ∃ v es, s.Refinement (s.tryWire w .data set load stage (State.outputDesign ip) x) es ∧
      .evaluated v ∈ es ∧ v.memoryType = .data ∧ v.trial.bank.memoryType = .data ∧
        ∀ row ∈ s.rowsOf v.trial, row ∈ rowsIn es := by
  -- the last of the targets leaves the trial that the rows show
  let first := (Target.all.dropLast).foldl (State.tryRecord w .data load stage) (set s x)
  obtain ⟨es, hfirst⟩ := State.Refinement.foldl (f := State.tryRecord w .data load stage)
    (fun s t => by
      obtain ⟨v, es, h, -⟩ := State.refinement_tryRecord (w := w) hload hstage s t
      exact ⟨es, h⟩) Target.all.dropLast (set s x)
  obtain ⟨v, fs, hlast, hmem, htemp, hm, hbank⟩ :=
    State.refinement_tryRecord (w := w) hload hstage first .area_optimized
  let last := first.tryRecord w .data load stage .area_optimized
  have htrials : s.Refinement last (es ++ fs) := ((hset s x).trans hfirst).trans hlast
  have hwritten : last.Refinement (last.emitAll last.tempRows) last.tempRows := by
    refine ⟨State.Grows.emitAll _ _, rfl, fun y hy => ?_, fun row hrow => ⟨v.trial, hbank, ?_⟩⟩
    · rw [designsIn_tempRows] at hy
      cases hy
    · rw [← htemp]
      exact hrow
  have hdone : s.tryWire w .data set load stage (State.outputDesign ip) x =
      last.emitAll last.tempRows := by
    rw [State.tryWire, State.outputDesign, if_pos hwrites]
    rfl
  rw [hdone]
  refine ⟨v, es ++ fs ++ last.tempRows, htrials.trans hwritten, ?_, hm, hbank, fun row hrow => ?_⟩
  · simp [hmem]
  · rw [rowsIn_append]
    apply List.mem_append_right
    rw [← htrials.rowsOf, ← htemp] at hrow
    exact hrow

theorem State.Refinement.setWires (s : State) (x y : Wire) :
    s.Refinement { s with localWire := x, globalWire := y } [] :=
  .silent ⟨rfl, rfl, fun _ => rfl, (List.append_nil _).symm⟩ rfl

/-- Both refinements: with a local wire to try, some trial is written. -/
theorem State.refinement_refined (hwrites : ip.writesEveryDesign = true)
    (hwires : ip.data.localWires ≠ []) {s : State} (hpos : 0 < s.numSolution) :
    ∃ v es, s.Refinement (s.refined w ip .data (State.outputDesign ip)) es ∧
      .evaluated v ∈ es ∧ v.memoryType = .data ∧ v.trial.bank.memoryType = .data ∧
        ∀ row ∈ s.rowsOf v.trial, row ∈ rowsIn es := by
  have hlocal := @State.refinement_tryWire w ip hwrites .setLocalWire .loadGlobalWire .refineLocal
    (fun s x => .setWires s x s.globalWire) (fun s m t => .setWires s s.localWire _) fun _ => rfl
  have hglobal := @State.refinement_tryWire w ip hwrites .setGlobalWire .loadLocalWire .refineGlobal
    (fun s x => .setWires s s.localWire x) (fun s m t => .setWires s _ s.globalWire) fun _ => rfl
  -- the rows of one refinement are enough: that of the first local wire
  obtain ⟨x, xs, hsplit⟩ := List.exists_cons_of_ne_nil hwires
  obtain ⟨v, es, hx, hmem, hm, hbank, hrows⟩ := hlocal s x
  obtain ⟨fs, hxs⟩ := State.Refinement.foldl (fun s x => by
    obtain ⟨_, es, h, -⟩ := hlocal s x
    exact ⟨es, h⟩) xs (s.tryWire w .data .setLocalWire .loadGlobalWire .refineLocal
      (State.outputDesign ip) x)
  obtain ⟨gs, hgs⟩ := State.Refinement.foldl (fun s x => by
    obtain ⟨_, es, h, -⟩ := hglobal s x
    exact ⟨es, h⟩) ip.data.globalWires (xs.foldl (State.tryWire w .data .setLocalWire
      .loadGlobalWire .refineLocal (State.outputDesign ip)) (s.tryWire w .data .setLocalWire
      .loadGlobalWire .refineLocal (State.outputDesign ip) x))
  have hdone : s.refined w ip .data (State.outputDesign ip) =
      ip.data.globalWires.foldl
        (State.tryWire w .data .setGlobalWire .loadLocalWire .refineGlobal (State.outputDesign ip))
        ((x :: xs).foldl (State.tryWire w .data .setLocalWire .loadGlobalWire .refineLocal
          (State.outputDesign ip)) s) := by
    rw [State.refined, if_pos hpos, ← hsplit]
    rfl
  rw [hdone]
  refine ⟨v, es ++ fs ++ gs, (hx.trans hxs).trans hgs, by simp [hmem], hm, hbank,
    fun row hrow => ?_⟩
  rw [rowsIn_append, rowsIn_append]
  exact List.mem_append_left _ (List.mem_append_left _ (hrows row hrow))

/-! ## The data exploration of a cell -/

/-- What the data exploration of a cell adds to the trace.  Where a nest finds a
    valid design and no refinement trial is valid, a row shows an invalid one,
    or there are no rows at all. -/
structure State.DataPhase (s u : State) (es : List Event) : Prop extends s.Grows u es where
  numSolution : u.numSolution = s.numSolution + (nestDesignsIn es).length
  designs : ∀ v ∈ designsIn es, v.cell = s.cell
  rows : ∀ row ∈ rowsIn es, row.cell = s.cell
  none : nestDesignsIn es = [] → designsIn es = [] ∧ rowsIn es = []
  some : nestDesignsIn es ≠ [] → (∀ v ∈ designsIn es, v.stage.refines = false) →
    (∃ row ∈ rowsIn es, row.data.bank.invalid = true) ∨ rowsIn es = []

theorem State.Nest.nestDesignsIn (h : s.Nest u es) : nestDesignsIn es = designsIn es := by
  apply List.filter_eq_self.mpr
  intro v hv
  rw [(h.designs v hv).2.1]
  rfl

theorem State.Refinement.nestDesignsIn (h : s.Refinement u es) : nestDesignsIn es = [] := by
  apply List.filter_eq_nil_iff.mpr
  intro v hv
  rw [(h.designs v hv).2]
  exact Bool.false_ne_true

/-- A nest alone. -/
theorem State.Nest.dataPhase (h : s.Nest u es) (hnone : designsIn es = []) : s.DataPhase u es where
  toGrows := h.toGrows
  numSolution := by rw [h.numSolution, h.nestDesignsIn]
  designs v hv := (h.designs v hv).1
  rows row hrow := by
    rw [h.rows, hnone] at hrow
    cases hrow
  none _ := ⟨hnone, by rw [h.rows, hnone]; rfl⟩
  some hsome := absurd (h.nestDesignsIn.trans hnone) hsome

/-- A nest with solutions and the refinements after it. -/
theorem State.Nest.dataPhase_refined (h : s.Nest u es) (hsome : designsIn es ≠ [])
    (hrefine : u.Refinement v fs) {x : Visit} (hx : .evaluated x ∈ fs) (hm : x.memoryType = .data)
    (hbank : x.trial.bank.memoryType = .data)
    (hwritten : ∀ row ∈ u.rowsOf x.trial, row ∈ rowsIn fs) : s.DataPhase v (es ++ fs) := by
  -- the refinements add no design of the nest
  have hnest : Destiny.nestDesignsIn (es ++ fs) = designsIn es := by
    rw [nestDesignsIn_append, h.nestDesignsIn, hrefine.nestDesignsIn, List.append_nil]
  refine ⟨h.toGrows.trans hrefine.toGrows, ?_, fun y hy => ?_, fun row hrow => ?_,
    fun hnone => absurd (hnest.symm.trans hnone) hsome, fun _ hall => ?_⟩
  · rw [hrefine.numSolution, h.numSolution, hnest]
  · rw [designsIn_append] at hy
    rcases List.mem_append.mp hy with hy | hy
    · exact (h.designs y hy).1
    · rw [← h.cell]
      exact (hrefine.designs y hy).1
  · rw [rowsIn_append] at hrow
    rcases List.mem_append.mp hrow with hrow | hrow
    · rw [h.rows] at hrow
      obtain ⟨y, -, hy⟩ := List.mem_flatMap.mp hrow
      exact (State.of_mem_rowsOf hy).1
    · obtain ⟨y, -, hy⟩ := hrefine.rows row hrow
      rw [← h.cell]
      exact (State.of_mem_rowsOf hy).1
  · -- The trial written is no valid design, for that would be one of a refinement.
    have hinvalid : x.trial.bank.invalid = true := by
      by_contra hvalid
      have hmem : x ∈ designsIn fs :=
        mem_designsIn.mpr ⟨hx, hm, Bool.eq_false_iff.mpr hvalid⟩
      have hnot := hall x (by rw [designsIn_append]; exact List.mem_append_right _ hmem)
      rw [(hrefine.designs x hmem).2] at hnot
      cases hnot
    -- the tags decide whether a trial has rows, so all of them have some or none has
    by_cases hnil : u.rowsOf x.trial = []
    · right
      have hno : ∀ y : Trial, y.bank.memoryType = .data → u.rowsOf y = [] :=
        fun y hy => (State.rowsOf_eq_nil_iff hbank hy).mp hnil
      rw [rowsIn_append, List.append_eq_nil_iff]
      constructor
      · rw [h.rows, List.flatMap_eq_nil_iff]
        intro y hy
        rw [← h.rowsOf]
        exact hno _ (h.designs y hy).2.2
      · rw [List.eq_nil_iff_forall_not_mem]
        intro row hrow
        obtain ⟨y, hy, hmem⟩ := hrefine.rows row hrow
        rw [hno y hy] at hmem
        cases hmem
    · left
      obtain ⟨row, hrow⟩ := List.exists_mem_of_ne_nil _ hnil
      refine ⟨row, ?_, ?_⟩
      · rw [rowsIn_append]
        exact List.mem_append_right _ (hwritten row hrow)
      · rw [(State.of_mem_rowsOf hrow).2]
        exact hinvalid

/-- The run stops at a wire that is not supported. -/
theorem supported_of_basicWire (hrun : INITIAL_BASIC_WIRE ip s = .ok ⟨⟩ u) :
    ip.data.basicLocalWire.unsupported = false := by
  obtain ⟨_, t, hlocal, -⟩ := bind_eq_ok.mp hrun
  cases hsupported : ip.data.basicLocalWire.unsupported with
  | false => rfl
  | true =>
      rw [setLocalWire, hsupported] at hlocal
      cases hlocal

/-- The data exploration of a cell in a full exploration without pruning. -/
theorem exploreData_dataPhase {shape : ArrayShape} {file : List OptionLine}
    {loaded : InputParameter} (hwrites : ip.writesEveryDesign = true)
    (hspace : Space file loaded (.loop .data) ip) (hzero : s.numSolution = 0)
    (hrun : exploreData w ip shape s = .ok ⟨⟩ u) :
    ∃ es, s.DataPhase u es := by
  obtain ⟨_, mid, hloop, -⟩ := bind_eq_ok.mp hrun
  obtain ⟨_, wired, hbasic, -⟩ := bind_eq_ok.mp hloop
  -- the wires searched contain the basic one, so there is a refinement
  have hwires : ip.data.localWires ≠ [] := by
    have hdata : ip.data = (configured file
        (if loaded.designTarget = .cache then loaded.associativity else 1)).data := by
      have hbounds : ip.toSearchBounds = dataBounds file loaded := hspace.bounds
      rw [show ip.data = ip.toSearchBounds.data from rfl, hbounds]
      rcases dataBounds_cases file loaded with h | ⟨-, h⟩ <;> rw [h] <;> rfl
    have hsupported := supported_of_basicWire hbasic
    rw [hdata] at hsupported ⊢
    exact List.ne_nil_of_mem (basicWire_mem_wires file _ .localWire hsupported)
  rw [returns_exploreData.apply hrun]
  let start := (s.withBasicWires ip).emit (.loopStart .data ip.toSearchBounds)
  have hstart : s.Nest start [.loopStart .data ip.toSearchBounds] :=
    ⟨⟨rfl, rfl, fun _ => rfl, rfl⟩, rfl, fun v hv => (by cases hv), rfl⟩
  obtain ⟨es, hfold⟩ := State.nest_foldl (w := w) hwrites (ip.geometries w.fuel shape) start
  have hnest : s.Nest (s.loopData w ip shape) ([.loopStart .data ip.toSearchBounds] ++ es) :=
    hstart.trans hfold
  have hcount := hnest.numSolution
  rw [hzero, Nat.zero_add] at hcount
  by_cases hpos : 0 < (s.loopData w ip shape).numSolution
  · obtain ⟨x, fs, hrefine, hx, hm, hbank, hwritten⟩ :=
      State.refinement_refined (w := w) hwrites hwires hpos
    refine ⟨_, hnest.dataPhase_refined ?_ hrefine hx hm hbank hwritten⟩
    rw [hcount] at hpos
    exact List.length_pos_iff.mp hpos
  · refine ⟨[.loopStart .data ip.toSearchBounds] ++ es, ?_⟩
    rw [State.refined, if_neg hpos]
    apply hnest.dataPhase
    rw [hcount] at hpos
    exact List.length_eq_zero_iff.mp (Nat.eq_zero_of_not_pos hpos)

end

/-! ## Whole runs -/

/-- Between two cells: the solutions are the valid designs of the nests, and
    where there are some, rows are missing or wrong. -/
structure State.Tallied (s : State) : Prop where
  total : s.totalSolutions = (nestDesignsIn s.trace).length
  designs : ∀ v ∈ designsIn s.trace, v.cell < s.explored.length
  rows : ∀ row ∈ rowsIn s.trace, row.cell < s.explored.length
  none : nestDesignsIn s.trace = [] → designsIn s.trace = [] ∧ rowsIn s.trace = []
  some : nestDesignsIn s.trace ≠ [] → (∀ v ∈ designsIn s.trace, v.stage.refines = false) →
    (∃ row ∈ rowsIn s.trace, row.data.bank.invalid = true) ∨
      ∃ v ∈ designsIn s.trace, ∀ row ∈ rowsIn s.trace, row.cell ≠ v.cell

section
variable {w : World} {file : List OptionLine} {s u : State} {es : List Event}

/-- One more cell with what it adds to the trace. -/
theorem State.Tallied.append (h : s.Tallied) (htrace : u.trace = s.trace ++ es)
    (hexplored : u.explored.length = s.explored.length + 1)
    (htotal : u.totalSolutions = s.totalSolutions + (nestDesignsIn es).length)
    (hdesigns : ∀ v ∈ designsIn es, v.cell = s.explored.length)
    (hrows : ∀ row ∈ rowsIn es, row.cell = s.explored.length)
    (hnone : nestDesignsIn es = [] → designsIn es = [] ∧ rowsIn es = [])
    (hsome : nestDesignsIn es ≠ [] → (∀ v ∈ designsIn es, v.stage.refines = false) →
      (∃ row ∈ rowsIn es, row.data.bank.invalid = true) ∨ rowsIn es = []) : u.Tallied := by
  -- the cells are numbered in order, so the new one is above all others
  refine ⟨?_, fun v hv => ?_, fun row hrow => ?_, fun hnil => ?_, fun hne hall => ?_⟩
  · rw [htotal, h.total, htrace, nestDesignsIn_append, List.length_append]
  · rw [htrace, designsIn_append] at hv
    rw [hexplored]
    rcases List.mem_append.mp hv with hv | hv
    · exact Nat.lt_succ_of_lt (h.designs v hv)
    · rw [hdesigns v hv]
      exact Nat.lt_succ_self _
  · rw [htrace, rowsIn_append] at hrow
    rw [hexplored]
    rcases List.mem_append.mp hrow with hrow | hrow
    · exact Nat.lt_succ_of_lt (h.rows row hrow)
    · rw [hrows row hrow]
      exact Nat.lt_succ_self _
  · rw [htrace, nestDesignsIn_append, List.append_eq_nil_iff] at hnil
    obtain ⟨hfirst, hlast⟩ := hnil
    rw [htrace, designsIn_append, rowsIn_append, (h.none hfirst).1, (h.none hfirst).2,
      (hnone hlast).1, (hnone hlast).2]
    exact ⟨rfl, rfl⟩
  · rw [htrace, designsIn_append] at hall ⊢
    rw [rowsIn_append]
    by_cases hlast : nestDesignsIn es = []
    · -- The new cell adds nothing to what the earlier ones lack.
      have hfirst : nestDesignsIn s.trace ≠ [] := by
        rw [htrace, nestDesignsIn_append, hlast, List.append_nil] at hne
        exact hne
      rw [(hnone hlast).1, (hnone hlast).2, List.append_nil, List.append_nil]
      exact h.some hfirst fun v hv => hall v (List.mem_append_left _ hv)
    · rcases hsome hlast fun v hv => hall v (List.mem_append_right _ hv) with
        ⟨row, hrow, hinvalid⟩ | hnil
      · exact Or.inl ⟨row, List.mem_append_right _ hrow, hinvalid⟩
      · -- A design of the new cell has no row at all.
        obtain ⟨v, hv⟩ := List.exists_mem_of_ne_nil _ hlast
        have hmem : v ∈ designsIn es := (List.mem_filter.mp hv).1
        right
        refine ⟨v, List.mem_append_right _ hmem, fun row hrow => ?_⟩
        rw [hnil, List.append_nil] at hrow
        rw [hdesigns v hmem]
        exact (h.rows row hrow).ne

/-- A cell without data designs. -/
theorem State.Tallied.quiet (h : s.Tallied) (htrace : u.trace = s.trace ++ es)
    (hexplored : u.explored.length = s.explored.length + 1)
    (htotal : u.totalSolutions = s.totalSolutions) (hdesigns : designsIn es = [])
    (hrows : rowsIn es = []) : u.Tallied := by
  have hnest : nestDesignsIn es = [] := by
    rw [nestDesignsIn, hdesigns]
    rfl
  apply h.append htrace hexplored
  · rw [htotal, hnest]
    rfl
  · rw [hdesigns]
    exact List.forall_mem_nil _
  · rw [hrows]
    exact List.forall_mem_nil _
  · exact fun _ => ⟨hdesigns, hrows⟩
  · exact fun hne => absurd hnest hne

/-- The data phase of a cell in a full exploration without pruning. -/
theorem searchData_dataPhase {loaded : InputParameter} {g : Nat}
    (hfull : loaded.optimizationTarget = .full_exploration)
    (hprune : loaded.isPruningEnabled = false) (hspace : Space file loaded .ready s.inputParameter)
    (hzero : s.numSolution = 0) (hrun : searchData w g s = .ok ⟨⟩ u) :
    ∃ (first : State) (es : List Event), first.cell = s.cell ∧ first.trace = s.trace ∧
      u.numSolution = (nestDesignsIn es).length ∧ first.DataPhase u es := by
  obtain ⟨first, explored, shape, hfirst, -, hexplore, hconstraints⟩ := searchData_returned hrun
  have hdata : Space file loaded (.loop .data) first.inputParameter := by
    rw [hfirst]
    exact hspace.adjustAccessMode
  have htarget := hdata.settings.optimizationTarget.trans hfull
  have hpruning := hdata.settings.isPruningEnabled.trans hprune
  -- Neither pruned rows nor an exploration under constraints follow.
  have hpruned : explored.outputPruned first.inputParameter = explored := by
    rw [State.outputPruned, if_neg]
    simp [hpruning]
  rw [hpruned] at hconstraints
  have hend : u = explored := (returns_unconstrained fun h => h.1 htarget).apply hconstraints
  have hwrites : first.inputParameter.writesEveryDesign = true := by
    rw [InputParameter.writesEveryDesign, htarget, hpruning]
    rfl
  have hnone : first.numSolution = 0 := by
    rw [hfirst]
    exact hzero
  obtain ⟨es, hphase⟩ := exploreData_dataPhase hwrites hdata hnone hexplore
  rw [← hend] at hphase
  refine ⟨first, es, ?_, ?_, ?_, hphase⟩
  · rw [hfirst]
  · rw [hfirst]
  · rw [hphase.numSolution, hnone, Nat.zero_add]

/-- What `nvsim` leaves of a cell, tallied. -/
theorem State.Tallied.leaveCell {entered t : State} {opened : List Event} {failed : Bool}
    (hfull : (w.loaded file).optimizationTarget = .full_exploration)
    (hprune : (w.loaded file).isPruningEnabled = false) (h : s.Tallied)
    (hopened : entered.trace = s.trace ++ opened) (hdesigns : designsIn opened = [])
    (hrows : rowsIn opened = []) (hcell : entered.cell = s.explored.length)
    (hexplored : t.explored = s.explored) (htotal : t.totalSolutions = s.totalSolutions)
    (hdone : if failed then entered.TagsOnly t
      else ∃ ready g, (entered.TagsOnly ready ∧ ready.numSolution = 0 ∧
        Space file (w.loaded file) .ready ready.inputParameter) ∧
          searchData w g ready = .ok ⟨⟩ t) : (t.leaveCell failed).Tallied := by
  have hlength : (t.leaveCell failed).explored.length = s.explored.length + 1 := by
    show (t.explored ++ [_]).length = _
    rw [List.length_append, hexplored]
    rfl
  have hsum : (t.leaveCell failed).totalSolutions =
      s.totalSolutions + if failed then 0 else t.numSolution := by
    show t.totalSolutions + _ = _
    rw [htotal]
  cases failed with
  | true =>
      -- Without tag solutions no data design is evaluated.
      obtain ⟨tags, htrace, htags⟩ := hdone.trace
      have hall : (t.leaveCell true).trace = s.trace ++ (opened ++ tags) := by
        show t.trace = _
        rw [htrace, hopened, List.append_assoc]
      refine h.quiet hall hlength hsum ?_ ?_
      · rw [designsIn_append, hdesigns, designsIn_of_tags htags]
        rfl
      · rw [rowsIn_append, hrows, rowsIn_of_tags htags]
        rfl
  | false =>
      obtain ⟨ready, g, ⟨htags, hzero, hspace⟩, hsearch⟩ := hdone
      obtain ⟨first, es, hfirstCell, hfirstTrace, hcount, hphase⟩ :=
        searchData_dataPhase hfull hprune hspace hzero hsearch
      obtain ⟨tags, htrace, htagEvents⟩ := htags.trace
      have hsame : first.cell = s.explored.length :=
        hfirstCell.trans (htags.cell.trans hcell)
      have hdesigns : designsIn (opened ++ tags ++ es) = designsIn es := by
        rw [designsIn_append, designsIn_append, hdesigns, designsIn_of_tags htagEvents]
        rfl
      have hrows : rowsIn (opened ++ tags ++ es) = rowsIn es := by
        rw [rowsIn_append, rowsIn_append, hrows, rowsIn_of_tags htagEvents]
        rfl
      have hnest : nestDesignsIn (opened ++ tags ++ es) = nestDesignsIn es := by
        rw [nestDesignsIn, hdesigns]
        rfl
      have hall : (t.leaveCell false).trace = s.trace ++ (opened ++ tags ++ es) := by
        show t.trace = _
        rw [hphase.trace, hfirstTrace, htrace, hopened]
        simp only [List.append_assoc]
      apply h.append hall hlength
      · rw [hsum, hnest, ← hcount]
        rfl
      · rw [hdesigns, ← hsame]
        exact hphase.designs
      · rw [hrows, ← hsame]
        exact hphase.rows
      · rw [hnest, hdesigns, hrows]
        exact hphase.none
      · rw [hnest, hdesigns, hrows]
        exact hphase.some

/-- A cell of a full exploration without pruning. -/
theorem exploreCell_tallied (hfull : (w.loaded file).optimizationTarget = .full_exploration)
    (hprune : (w.loaded file).isPruningEnabled = false) (cell : Nat) :
    Triple (RunInvariant.Between w file State.Tallied cell) (exploreCell w file cell)
      (fun _ => RunInvariant.Between w file State.Tallied (cell + 1)) (fun _ => True) := by
  refine Triple.get_bind fun s hs => ?_
  dsimp only
  refine (NvsimInvariant.stopIf_spec fun _ _ => trivial).bind fun _ => ?_
  let entered := s.enterCell w cell (s.inputParameter.fileMemCell.getD cell "")
  refine Triple.modify_bind (fun t => t = entered) ?_ ?_
  · rintro _ ⟨rfl, -⟩
    rfl
  have hframe := NvsimInvariant.nvsim_spec (frame_invariant w file (w.loaded file) entered)
  have hready := @nvsim_ready w entered file (.construct w.inputMemory) rfl hs.space
  have hstart : entered.Frame entered := ⟨rfl, rfl, rfl, rfl, List.prefix_rfl⟩
  refine ((hready.and hframe).conseq ?_ (fun _ _ ht => ht) fun _ _ => trivial).bind
    fun failed => Triple.modify fun t ht => ?_
  · rintro _ rfl
    exact ⟨rfl, hs.space, hstart⟩
  obtain ⟨hdone, hspace, hkept⟩ := ht
  have hkept : entered.Frame t := by
    cases failed with
    | true => exact hkept
    | false => rcases hkept with ⟨-, h⟩ | ⟨-, -, h⟩ <;> exact h
  -- entering a cell adds its name to the trace and nothing else
  have hopened : entered.trace =
      s.trace ++ [.cellFile cell (s.inputParameter.fileMemCell.getD cell "")] := rfl
  refine ⟨hspace, ?_, hs.holds.leaveCell hfull hprune hopened rfl rfl hs.length.symm hkept.explored
    hkept.totalSolutions hdone⟩
  show (t.explored ++ [_]).length = cell + 1
  rw [List.length_append, hkept.explored]
  exact congrArg (· + 1) hs.length

/-- A full exploration without pruning ends tallied; the merge at the end is for
    the other targets. -/
theorem main_tallied (hfull : (w.loaded file).optimizationTarget = .full_exploration)
    (hprune : (w.loaded file).isPruningEnabled = false)
    (hrun : main w file (State.initial w) = .ok ⟨⟩ u) : u.Tallied := by
  have hcells : Triple (fun s => s = State.initial w) (exploreCells w file)
      (fun _ => RunInvariant.Between w file State.Tallied (w.loaded file).fileMemCell.length)
      (fun _ => True) := by
    refine Triple.modify_bind (fun s => s = (State.initial w).load w file) ?_ ?_
    · rintro _ rfl
      rfl
    · refine Triple.get_bind fun s hs => ?_
      subst hs
      refine (Triple.forM (fun pre => RunInvariant.Between w file State.Tallied pre.length)
        fun pre cell post hcells => ?_).conseq ?_ (fun _ t ht => ?_) fun _ ht => ht
      · rw [RunInvariant.eq_length_of_range_eq hcells, List.length_append]
        exact exploreCell_tallied hfull hprune pre.length
      · rintro _ rfl
        exact ⟨Space.load w, rfl, rfl, List.forall_mem_nil _, List.forall_mem_nil _,
          fun _ => ⟨rfl, rfl⟩, fun h => absurd rfl h⟩
      · rwa [List.length_range] at ht
  obtain ⟨_, s, hexplore, hfinish⟩ := bind_eq_ok.mp hrun
  have hs := hcells (State.initial w) rfl
  rw [hexplore] at hs
  obtain rfl : s.finish = u := by
    cases hfinish
    rfl
  have hsame : s.finish = s := by
    rw [State.finish, hs.space.settings.optimizationTarget, hfull]
  rw [hsame]
  exact hs.holds

end

/-! ## Complete files -/

/-- `solutionMultiplier` -/
def DesignTarget.solutionMultiplier : DesignTarget → Nat
  | .cache => 8
  | _ => 1

/-- The number of solutions `main` prints. -/
def State.solutionsInTotal (s : State) : Nat :=
  s.totalSolutions * s.inputParameter.designTarget.solutionMultiplier

/-- The rows a design should have: for a cache one with each best tag record of
    its cell. -/
def Visit.rows (v : Visit) (designTarget : DesignTarget) (outcomes : List CellOutcome) :
    List CsvRow :=
  if designTarget = .cache then
    Target.all.map fun t =>
      ⟨v.cell, v.trial, outcomes[v.cell]?.map fun o => (t, (o.best .tag t).stored)⟩
  else [⟨v.cell, v.trial, none⟩]

/-- The rows are those of the valid data designs evaluated, and as many as the
    solutions printed. -/
structure State.RowsComplete (s : State) : Prop where
  rows : (rowsIn s.trace).Perm
    ((designsIn s.trace).flatMap fun v => v.rows s.inputParameter.designTarget s.explored)
  count : s.solutionsInTotal = (rowsIn s.trace).length

theorem Visit.length_rows (v : Visit) (designTarget : DesignTarget) (outcomes : List CellOutcome) :
    (v.rows designTarget outcomes).length = designTarget.solutionMultiplier := by
  rw [Visit.rows]
  cases designTarget <;> rfl

theorem Visit.of_mem_rows {v : Visit} {designTarget : DesignTarget} {outcomes : List CellOutcome}
    {row : CsvRow} (h : row ∈ v.rows designTarget outcomes) :
    row.cell = v.cell ∧ row.data = v.trial := by
  rw [Visit.rows] at h
  split at h
  · obtain ⟨t, -, rfl⟩ := List.mem_map.mp h
    exact ⟨rfl, rfl⟩
  · rw [List.mem_singleton.mp h]
    exact ⟨rfl, rfl⟩

theorem DesignTarget.solutionMultiplier_pos (designTarget : DesignTarget) :
    0 < designTarget.solutionMultiplier := by
  cases designTarget <;> decide

/-- A tallied file with solutions is not complete. -/
theorem State.Tallied.nestDesignsIn_of_rowsComplete {s : State} (h : s.Tallied)
    (hcomplete : s.RowsComplete) : nestDesignsIn s.trace = [] := by
  let target := s.inputParameter.designTarget
  -- As many rows as solutions leave no valid trial of a refinement.
  have hlength : (designsIn s.trace).length = (nestDesignsIn s.trace).length := by
    have hrows := hcomplete.rows.length_eq
    rw [← hcomplete.count, List.length_flatMap] at hrows
    simp only [Visit.length_rows, List.map_const', List.sum_replicate, smul_eq_mul] at hrows
    rw [State.solutionsInTotal, h.total] at hrows
    exact (Nat.eq_of_mul_eq_mul_right target.solutionMultiplier_pos hrows).symm
  have hunrefined : ∀ v ∈ designsIn s.trace, v.stage.refines = false := by
    intro v hv
    have hall := List.length_filter_eq_length_iff.mp hlength.symm v hv
    simpa using hall
  by_contra hne
  rcases h.some hne hunrefined with ⟨row, hrow, hinvalid⟩ | ⟨v, hv, hmissing⟩
  · obtain ⟨v, hv, hmem⟩ := List.mem_flatMap.mp (hcomplete.rows.mem_iff.mp hrow)
    rw [(Visit.of_mem_rows hmem).2, (mem_designsIn.mp hv).2.2] at hinvalid
    cases hinvalid
  · have hpos : 0 < (v.rows target s.explored).length := by
      rw [Visit.length_rows]
      exact target.solutionMultiplier_pos
    obtain ⟨row, hrow⟩ := List.length_pos_iff_exists_mem.mp hpos
    have hmem := hcomplete.rows.mem_iff.mpr (List.mem_flatMap.mpr ⟨v, hv, hrow⟩)
    exact hmissing row hmem (Visit.of_mem_rows hrow).1

/-- The file of a full exploration without pruning is complete, and counted
    right, exactly when no nest evaluates a valid data design. -/
theorem rowsComplete_iff {w : World} {file : List OptionLine} {u : State}
    (hfull : (w.loaded file).optimizationTarget = .full_exploration)
    (hprune : (w.loaded file).isPruningEnabled = false)
    (hrun : main w file (State.initial w) = .ok ⟨⟩ u) :
    u.RowsComplete ↔ ∀ v, .evaluated v ∈ u.trace → v.memoryType = .data →
      v.stage.refines = false → v.trial.bank.invalid = true := by
  have htallied := main_tallied hfull hprune hrun
  have hnest : (∀ v, .evaluated v ∈ u.trace → v.memoryType = .data →
      v.stage.refines = false → v.trial.bank.invalid = true) ↔ nestDesignsIn u.trace = [] := by
    rw [nestDesignsIn, List.filter_eq_nil_iff]
    constructor
    · intro h v hv hstage
      obtain ⟨hmem, hm, hvalid⟩ := mem_designsIn.mp hv
      rw [h v hmem hm (by simpa using hstage)] at hvalid
      cases hvalid
    · intro h v hmem hm hstage
      by_contra hvalid
      apply h v (mem_designsIn.mpr ⟨hmem, hm, Bool.eq_false_iff.mpr hvalid⟩)
      rw [hstage]
      rfl
  rw [hnest]
  constructor
  · exact htallied.nestDesignsIn_of_rowsComplete
  · intro hnil
    obtain ⟨hdesigns, hrows⟩ := htallied.none hnil
    refine ⟨by rw [hdesigns, hrows]; exact List.Perm.refl _, ?_⟩
    rw [State.solutionsInTotal, htallied.total, hnil, hrows]
    exact Nat.zero_mul _

/-- A full exploration of a memory. -/
def unprunedExploration : List OptionLine :=
  forceOneDesign ++ forceOneWire ++ [.designTarget .RAM_chip,
    .optimizationTarget .full_exploration, .enablePruning false, .memoryCellInputFile "sram.cell"]

theorem rowsComplete_iff_all_invalid : ∃ u : State,
    main World.allInvalid unprunedExploration (State.initial World.allInvalid) = .ok ⟨⟩ u ∧
      u.RowsComplete := by
  have hreturns : World.allInvalid.returns unprunedExploration = true := by decide +kernel
  obtain ⟨u, hrun⟩ := World.exists_of_returns hreturns
  refine ⟨u, hrun, (rowsComplete_iff (by decide +kernel) (by decide +kernel) hrun).mpr ?_⟩
  have hinvalid : (World.allInvalid.run unprunedExploration).trace.all (fun e =>
      match e with
      | .evaluated v => v.trial.bank.invalid
      | _ => true) = true := by decide +kernel
  rw [World.run, hrun, List.all_eq_true] at hinvalid
  exact fun v hv _ _ => hinvalid _ hv

/-- One solution is counted; the refinements write more rows. -/
theorem rows_not_counted :
    ¬ (World.allValid.run unprunedExploration).RowsComplete := by
  intro h
  have hcount : (World.allValid.run unprunedExploration).solutionsInTotal ≠
      (rowsIn (World.allValid.run unprunedExploration).trace).length := by decide +kernel
  exact hcount h.count

end Destiny
