/-
  Destiny.Search.CellSpace

  The search space of each cell depends only on the configuration file.

  Everything a run overwrites (the reduced bounds of the tag phase, the rows per
  set of the access mode, the die counts a re-read leaves) is back in place when
  the next cell starts its loops, so the bounds logged at each loop start are
  two functions of the file, and the k-th exploration reads the k-th cell file.
-/

import Destiny.Search.Main

namespace Destiny

open Lib

/-! ## What a file says -/

/-- The design target a file ends up with. -/
def designTargetOf (file : List OptionLine) : DesignTarget :=
  (lastSome OptionLine.designTarget? file).getD .cache

/-- The associativity a file ends up with. -/
def associativityOf (file : List OptionLine) : Nat :=
  (lastSome OptionLine.associativity? file).getD 1

/-- The access mode a file ends up with. -/
def cacheAccessModeOf (file : List OptionLine) : CacheAccessMode :=
  (lastSome OptionLine.cacheAccessMode? file).getD .normal_access_mode

/-- The cell files a file names, in order. -/
def cellFilesOf (file : List OptionLine) : List String :=
  file.filterMap OptionLine.memoryCellInputFile?

theorem loaded_designTarget (w : World) (file : List OptionLine) :
    (w.loaded file).designTarget = designTargetOf file :=
  foldl_eq_lastSome (f := OptionLine.designTarget?) (fun s e => by cases e <;> rfl) file _

theorem loaded_associativity (w : World) (file : List OptionLine) :
    (w.loaded file).associativity = associativityOf file :=
  foldl_eq_lastSome (f := OptionLine.associativity?) (fun s e => by cases e <;> rfl) file _

theorem loaded_cacheAccessMode (w : World) (file : List OptionLine) :
    (w.loaded file).cacheAccessMode = cacheAccessModeOf file :=
  foldl_eq_lastSome (f := OptionLine.cacheAccessMode?) (fun s e => by cases e <;> rfl) file _

theorem loaded_fileMemCell (w : World) (file : List OptionLine) :
    (w.loaded file).fileMemCell = cellFilesOf file :=
  InputParameter.read_fileMemCell _ file

/-- The bounds of a cache's data loop: those of `RESTORE_SEARCH_SIZE` overridden
    by the options of the file, then by the access mode. -/
def cacheDataBounds (file : List OptionLine) : SearchBounds :=
  let restored := configured file (associativityOf file)
  if cacheAccessModeOf file = .normal_access_mode then { restored with numRowPerSet := .pin 1 }
  else restored

/-- The bounds of a cache's tag loop: the file's own with those of
    `REDUCE_SEARCH_SIZE`. -/
def cacheTagBounds (file : List OptionLine) : SearchBounds :=
  (configured file (associativityOf file)).reduced

theorem restoredBounds_of_cache {w : World} {file : List OptionLine}
    (hcache : designTargetOf file = .cache) :
    restoredBounds file (w.loaded file) = configured file (associativityOf file) := by
  rw [restoredBounds, loaded_designTarget, if_pos hcache, loaded_associativity]

theorem tagBounds_of_cache {w : World} {file : List OptionLine}
    (hcache : designTargetOf file = .cache) :
    tagBounds file (w.loaded file) = cacheTagBounds file := by
  rw [tagBounds, restoredBounds_of_cache hcache, cacheTagBounds]

theorem dataBounds_of_cache {w : World} {file : List OptionLine}
    (hcache : designTargetOf file = .cache) :
    dataBounds file (w.loaded file) = cacheDataBounds file := by
  rw [dataBounds, InputParameter.accessBounds, loaded_designTarget, loaded_cacheAccessMode,
    restoredBounds_of_cache hcache, cacheDataBounds]
  simp only [hcache, true_and]

/-! ## The bounds of every loop -/

/-- An event starts a loop, a cell or an evaluation as the file says. -/
def Event.FollowsFile (file : List OptionLine) (loaded : InputParameter) : Event → Prop
  | .loopStart .tag b => b = tagBounds file loaded
  | .loopStart _ b => b = dataBounds file loaded
  | .cellFile cell name => (cellFilesOf file)[cell]? = some name
  | .evaluated v => (cellFilesOf file)[v.cell]? = some v.cellFile
  | _ => True

/-- Every event of the trace follows the file. -/
def State.FollowsFile (file : List OptionLine) (loaded : InputParameter) (s : State) : Prop :=
  ∀ e ∈ s.trace, e.FollowsFile file loaded

/-- Inside a cell its file is the one the configuration names. -/
structure State.CellFollowsFile (file : List OptionLine) (loaded : InputParameter) (s : State) :
    Prop where
  events : s.FollowsFile file loaded
  name : (cellFilesOf file)[s.cell]? = some s.cellFile

section
variable {file : List OptionLine} {loaded : InputParameter} {s : State}

theorem State.CellFollowsFile.emitAll (h : s.CellFollowsFile file loaded) {es : List Event}
    (hes : ∀ e ∈ es, e.FollowsFile file loaded) : (s.emitAll es).CellFollowsFile file loaded where
  events e he := (List.mem_append.mp he).elim (h.events e) (hes e)
  name := h.name

theorem State.CellFollowsFile.emit (h : s.CellFollowsFile file loaded) {e : Event}
    (he : e.FollowsFile file loaded) : (s.emit e).CellFollowsFile file loaded :=
  h.emitAll fun x hx => by rwa [List.mem_singleton.mp hx]

theorem State.CellFollowsFile.record (h : s.CellFollowsFile file loaded) (v : Visit) :
    (s.record v).CellFollowsFile file loaded := by
  rw [State.record_eq]
  refine ⟨fun e he => (List.mem_append.mp he).elim (h.events e) fun he => ?_, h.name⟩
  obtain ⟨t, -, rfl⟩ := List.mem_map.mp he
  trivial

theorem State.CellFollowsFile.TRY_AND_UPDATE (h : s.CellFollowsFile file loaded) (w : World)
    (stage : Stage) (m : MemoryType) (t : Target) :
    (s.TRY_AND_UPDATE w stage m t).CellFollowsFile file loaded := by
  refine ⟨fun e he => ?_, h.name⟩
  let v := s.visit w stage m (s.best m t).stored.bank.geometry
  have hv : (Event.evaluated v).FollowsFile file loaded := h.name
  rcases List.mem_append.mp he with he | he
  · exact (h.emit hv).events e he
  · obtain rfl := List.mem_singleton.mp he
    trivial

theorem followsFile_csvRow {es : List Event}
    (h : ∀ e ∈ es, ∃ cell source data tag, e = .csvRow cell source data tag) :
    ∀ e ∈ es, e.FollowsFile file loaded := by
  intro e he
  obtain ⟨_, _, _, _, rfl⟩ := h e he
  trivial

end

theorem cellFollowsFile_invariant (w : World) (file : List OptionLine) (loaded : InputParameter) :
    NvsimInvariant w file loaded fun _ => State.CellFollowsFile file loaded where
  setInput _ h := { h with }
  setWires _ _ h := { h with }
  startTag _ hspace h := h.emit hspace.bounds
  skipTag _ h := h
  startData hspace h := h.emit hspace.bounds
  setLayers _ _ h := { h with }
  visit _ _ _ _ _ _ h := h.emit h.name
  record _ _ _ _ _ h := h.record _
  output _ _ _ _ _ _ h := h.emitAll <| followsFile_csvRow fun e he => by
    obtain ⟨tag, -, rfl⟩ := State.mem_tempRows he
    exact ⟨_, _, _, _, rfl⟩
  startRefine _ h := h
  tryLocal _ _ _ h := h.TRY_AND_UPDATE _ _ _ _
  tryGlobal _ _ _ h := h.TRY_AND_UPDATE _ _ _ _
  restore _ h := { h with }
  exploreNone _ h := h
  exploreSome _ h := h
  prune _ _ _ h := h.emitAll <| followsFile_csvRow fun e he => by
    obtain ⟨t, tag, -, rfl⟩ := State.mem_prunedRows he
    exact ⟨_, _, _, _, rfl⟩
  limit _ h := { h.emit (e := .limitsApplied _ _) trivial with }

theorem followsFile_runInvariant (w : World) (file : List OptionLine) :
    RunInvariant w file (fun _ => State.CellFollowsFile file (w.loaded file))
      (State.FollowsFile file (w.loaded file)) where
  toNvsimInvariant := cellFollowsFile_invariant w file (w.loaded file)
  load e he := by
    rw [State.load_initial_trace] at he
    cases he
  enter {s} hspace hlt h := by
    -- Cell files are only appended, so the k-th one is that of the first read.
    have hname : (cellFilesOf file)[s.explored.length]? =
        some (s.inputParameter.fileMemCell.getD s.explored.length "") := by
      obtain ⟨later, hlater⟩ := hspace.settings.fileMemCell
      rw [List.getD_eq_getElem?_getD, ← hlater, List.getElem?_append_left hlt,
        ← loaded_fileMemCell w file, List.getElem?_eq_getElem hlt, Option.getD_some]
    refine ⟨fun e he => ?_, hname⟩
    rcases List.mem_append.mp he with he | he
    · exact h e he
    · obtain rfl := List.mem_singleton.mp he
      exact hname
  fail _ h := h.events
  leave _ h := by
    rcases h with ⟨-, h⟩ | ⟨-, -, h⟩ <;> exact h.events

/-- Every event of a run follows the file. -/
theorem run_followsFile (w : World) (file : List OptionLine) :
    (w.run file).FollowsFile file (w.loaded file) := by
  rcases (followsFile_runInvariant w file).run_cases with (h | ⟨-, h⟩) | ⟨s, hs, hrun⟩
  · exact h
  · exact h.events
  · rw [hrun]
    intro e he
    obtain ⟨es, hes, htrace⟩ := s.finish_trace
    rw [htrace] at he
    rcases List.mem_append.mp he with he | he
    · exact hs.holds e he
    · obtain ⟨t, tag, rfl, -⟩ := hes e he
      trivial

/-- For a cache, the bounds in force when a tag loop starts and those in force
    when a data loop starts are the same in every cell, and functions of the
    file; the k-th exploration uses the k-th cell file. -/
theorem cell_space_of_file (w : World) (file : List OptionLine)
    (hcache : designTargetOf file = .cache) :
    (∀ b, .loopStart .tag b ∈ (w.run file).trace → b = cacheTagBounds file) ∧
      (∀ b, .loopStart .data b ∈ (w.run file).trace → b = cacheDataBounds file) ∧
      (∀ cell name, .cellFile cell name ∈ (w.run file).trace →
        (cellFilesOf file)[cell]? = some name) ∧
      ∀ v, .evaluated v ∈ (w.run file).trace → (cellFilesOf file)[v.cell]? = some v.cellFile := by
  have h := run_followsFile w file
  refine ⟨fun b hb => ?_, fun b hb => ?_, fun cell name hcell => h _ hcell, fun v hv => h _ hv⟩
  · rw [← tagBounds_of_cache hcache]
    exact h _ hb
  · rw [← dataBounds_of_cache hcache]
    exact h _ hb

/-- A cache with two cell files. -/
def twoCells : List OptionLine :=
  forceOneDesign ++ forceOneWire ++
    [.memoryCellInputFile "first.cell", .memoryCellInputFile "second.cell"]

/-- The loop an event starts, with its bounds. -/
def Event.loopStart? : Event → Option (MemoryType × SearchBounds)
  | .loopStart m b => some (m, b)
  | _ => none

/-- The cell and file an event begins with. -/
def Event.cellFile? : Event → Option (Nat × String)
  | .cellFile cell file => some (cell, file)
  | _ => none

/-- Both cells start a tag and a data loop. -/
theorem cell_space_of_file_two_cells :
    let trace := (World.allValid.run twoCells).trace
    trace.filterMap Event.cellFile? = [(0, "first.cell"), (1, "second.cell")] ∧
      trace.filterMap Event.loopStart? =
        [(.tag, cacheTagBounds twoCells), (.data, cacheDataBounds twoCells),
          (.tag, cacheTagBounds twoCells), (.data, cacheDataBounds twoCells)] := by
  intro trace
  obtain ⟨htag, hdata, -⟩ := cell_space_of_file World.allValid twoCells (by decide)
  -- the run gives the kinds of the loops, and the theorem their bounds
  let bounds : MemoryType → SearchBounds := fun m =>
    if m = .tag then cacheTagBounds twoCells else cacheDataBounds twoCells
  have hkinds : (trace.filterMap Event.loopStart?).map Prod.fst = [.tag, .data, .tag, .data] := by
    decide +kernel
  have hbounds : ∀ p ∈ trace.filterMap Event.loopStart?, p = (p.1, bounds p.1) := by
    rintro ⟨m, b⟩ hp
    obtain ⟨e, he, hstart⟩ := List.mem_filterMap.mp hp
    cases e with
    | loopStart m' b' =>
        obtain ⟨rfl, rfl⟩ := Prod.mk.inj (Option.some.inj hstart)
        cases m' with
        | tag => exact congrArg (Prod.mk _) (htag b' he)
        | data => exact congrArg (Prod.mk _) (hdata b' he)
        | CAM =>
            have hkind := List.mem_map_of_mem (f := Prod.fst) hp
            rw [hkinds] at hkind
            simp at hkind
    | _ => cases hstart
  refine ⟨by decide +kernel, ?_⟩
  calc trace.filterMap Event.loopStart?
      = ((trace.filterMap Event.loopStart?).map Prod.fst).map fun m => (m, bounds m) := by
        rw [List.map_map]
        exact ((List.map_congr_left hbounds).symm.trans (List.map_id _)).symm
    _ = _ := by
        rw [hkinds]
        rfl

end Destiny
