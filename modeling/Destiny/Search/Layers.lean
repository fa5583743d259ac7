/-
  Destiny.Search.Layers

  Whether the TSV parameters are those of the design being evaluated.

  `SetLayerCount` is called when `Technology` is initialised, for two layers, and
  in the tag nest, and returns early when the layer count is unchanged although
  the wire types may have changed.  The data nests and the refinements never call
  it.  So a stacked design finds its own values when the file pins the die count
  and what was set last was set for that count under the same kinds of TSV:
  `TsvAligned` says when that is so (`run_tsvMatches`).
-/

import Destiny.Search.Found

namespace Destiny

open Lib

/-! ## The property and the condition -/

def Visit.stackedDieCount (v : Visit) : Int := v.trial.bank.geometry.stackedDieCount

/-- A stacked design is evaluated with the layer count and the TSV values of its
    own die count, under the bounds in force. -/
def Visit.TsvMatches (w : World) (v : Visit) : Prop :=
  1 < v.stackedDieCount →
    v.tech = w.tsvTable.values v.inputParameter v.stackedDieCount

/-- Both TSVs are coarse under the wire types of an array. -/
structure ArrayBounds.CoarseTsv (b : ArrayBounds) : Prop where
  localWire : WireTypeToTSVType b.localWireType.max = .Coarse
  globalWire : WireTypeToTSVType b.globalWireType.max = .Coarse

/-- The file pins the die count to `n`, and there is no stack, or it is the
    initial one of a memory without tags, or the data wires of a cache use the
    same TSVs as the reduced search of the tags. -/
structure TsvAligned (file : List OptionLine) (loaded : InputParameter) (n : Int) : Prop where
  pinned : lastSome OptionLine.stackLayer file = some (.pin n)
  aligned : n ≤ 1 ∨ (loaded.designTarget ≠ .cache ∧ n = 2) ∨
    loaded.designTarget = .cache ∧ loaded.data.CoarseTsv

/-! ## Values that agree -/

/-- The TSV values depend on the kinds of TSV and the projections only. -/
theorem TsvTable.values_congr (table : TsvTable) {ip loaded : InputParameter} (layers : Int)
    (hlocal : WireTypeToTSVType ip.data.localWireType.max =
      WireTypeToTSVType loaded.data.localWireType.max)
    (hglobal : WireTypeToTSVType ip.data.globalWireType.max =
      WireTypeToTSVType loaded.data.globalWireType.max)
    (hsettings : SameSettings loaded ip) : table.values ip layers = table.values loaded layers := by
  rw [values, values, hlocal, hglobal, hsettings.localTsvProjection, hsettings.globalTsvProjection]

/-- The data bounds `main` loads are those restored later. -/
theorem loaded_data (w : World) (file : List OptionLine) :
    (w.loaded file).data = (restoredBounds file (w.loaded file)).data := by
  have hloaded : (w.loaded file).toSearchBounds = configured file 1 :=
    toSearchBounds_restore file (.construct w.inputMemory)
  rw [hloaded, restoredBounds, configured_data, configured_data]

theorem Technology.SetLayerCount_layerCount (table : TsvTable) (ip : InputParameter)
    (layers : Int) (tech : Technology) :
    (tech.SetLayerCount table ip layers).layerCount = layers := by
  rw [SetLayerCount]
  split
  · next h => exact h.symm
  · rfl

section
variable {w : World} {file : List OptionLine} {n : Int} {m : MemoryType} {ip : InputParameter}

/-- While an array is explored the values are those under what `main` loaded. -/
theorem TsvAligned.values_eq (h : TsvAligned file (w.loaded file) n) (hn : 1 < n)
    (hsettings : SameSettings (w.loaded file) ip)
    (hbounds : ip.toSearchBounds = boundsFor file (w.loaded file) m)
    (hcache : m = .tag → (w.loaded file).designTarget = .cache) :
    w.tsvTable.values ip n = w.tsvTable.values (w.loaded file) n := by
  by_cases hm : m = .tag
  · subst hm
    have hreduced : ip.data = reducedData := by
      rw [hbounds]
      rfl
    have hcoarse : (w.loaded file).data.CoarseTsv := by
      rcases h.aligned with hone | ⟨hram, -⟩ | ⟨-, hcoarse⟩
      · omega
      · exact absurd (hcache rfl) hram
      · exact hcoarse
    apply w.tsvTable.values_congr n _ _ hsettings
    · rw [hcoarse.localWire, hreduced]
      rfl
    · rw [hcoarse.globalWire, hreduced]
      rfl
  · have hdata : ip.data = (w.loaded file).data := by
      have hsame : boundsFor file (w.loaded file) m = dataBounds file (w.loaded file) := by
        cases m with
        | tag => exact absurd rfl hm
        | _ => rfl
      rw [hbounds, hsame, loaded_data]
      rcases dataBounds_cases file (w.loaded file) with hd | ⟨-, hd⟩ <;> rw [hd]
    apply w.tsvTable.values_congr n _ _ hsettings <;> rw [hdata]

/-- The die counts of the nests are the pinned one. -/
theorem TsvAligned.stackedDieCount_of_mem (h : TsvAligned file (w.loaded file) n)
    (hbounds : ip.toSearchBounds = boundsFor file (w.loaded file) m) {p : DesignPoint}
    (hp : p ∈ (ip.bigFor w.fuel m).visited) :
    (1 < n → p.stackedDieCount = n) ∧ (n ≤ 1 → p.stackedDieCount ≤ 1) := by
  have hstack : ip.stackLayer = .pin n := by
    have hpinned : (restoredBounds file (w.loaded file)).stackLayer = .pin n := by
      rw [restoredBounds, configured_stackLayer, h.pinned]
      rfl
    rw [hbounds, ← hpinned]
    cases m with
    | tag => rfl
    | _ =>
        show (dataBounds file (w.loaded file)).stackLayer = _
        rcases dataBounds_cases file (w.loaded file) with hd | ⟨-, hd⟩ <;> rw [hd]
  have hdie := stackedDieCount_of_mem_bigFor p hp
  rw [hstack] at hdie
  have hle : p.stackedDieCount ≤ n := Enumeration.le_of_mem_doublings hdie
  refine ⟨fun hn => ?_, fun hn => by omega⟩
  have hge : n ≤ p.stackedDieCount :=
    Enumeration.ge_of_mem_doublings (show (0 : Int) < (Range.pin n).min from by
      show 0 < n
      omega) hdie
  omega

end

/-! ## The values along a run -/

/-- What every evaluation of a trace saw. -/
def Layered (w : World) (n : Int) (trace : List Event) : Prop :=
  ∀ v, .evaluated v ∈ trace →
    ((1 < n → v.stackedDieCount = n) ∧ (n ≤ 1 → v.stackedDieCount ≤ 1)) ∧ v.TsvMatches w

/-- The states in which the values are those of the pinned die count: not at the
    start of a cell, where they may still be the initial ones. -/
def Phase.settled (phase : Phase) (s : State) : Prop :=
  match phase with
  | .entered => False
  | .loop .tag => 0 < s.numSolution
  | _ => True

/-- Inside a cell. -/
structure State.LayeredIn (w : World) (file : List OptionLine) (n : Int) (phase : Phase)
    (s : State) : Prop extends s.FoundIn file (w.loaded file) phase where
  layered : Layered w n s.trace
  cache : phase.nest = some (.basic, .tag) ∨ phase = .refining .tag →
    (w.loaded file).designTarget = .cache
  tech : 1 < n → s.tech = w.tsvTable.values (w.loaded file) 2 ∨
    s.tech = w.tsvTable.values (w.loaded file) n
  settled : 1 < n → phase.settled s → s.tech = w.tsvTable.values (w.loaded file) n

/-- Between two cells. -/
structure State.LayeredOut (w : World) (file : List OptionLine) (n : Int) (s : State) : Prop
    extends s.Found file (w.loaded file) where
  layered : Layered w n s.trace
  tech : 1 < n → s.tech = w.tsvTable.values (w.loaded file) 2 ∨
    s.tech = w.tsvTable.values (w.loaded file) n

section
variable {w : World} {file : List OptionLine} {n : Int} {phase : Phase} {s : State}

/-- Events other than evaluations. -/
theorem Layered.append {trace es : List Event} (h : Layered w n trace)
    (hes : ∀ e ∈ es, ∀ v, e ≠ .evaluated v) : Layered w n (trace ++ es) := by
  intro v hv
  rcases List.mem_append.mp hv with hv | hv
  · exact h v hv
  · exact absurd rfl (hes _ hv v)

/-- One more evaluation. -/
theorem Layered.evaluated {trace : List Event} (h : Layered w n trace) {v : Visit}
    (hdie : (1 < n → v.stackedDieCount = n) ∧ (n ≤ 1 → v.stackedDieCount ≤ 1))
    (htech : 1 < n → v.tech = w.tsvTable.values v.inputParameter n) :
    Layered w n (trace ++ [.evaluated v]) := by
  intro x hx
  rcases List.mem_append.mp hx with hx | hx
  · exact h x hx
  · obtain rfl : x = v := by simpa using hx
    refine ⟨hdie, fun hstacked => ?_⟩
    by_cases hn : 1 < n
    · rw [hdie.1 hn]
      exact htech hn
    · have hone := hdie.2 (not_lt.mp hn)
      omega

/-- The tag nest has just set the values of its die count. -/
theorem State.LayeredIn.tech_of_layersSet (h : s.LayeredIn w file n phase) (hn : 1 < n)
    {p : DesignPoint} (hp : p.stackedDieCount = n) (hset : s.LayersSet w p.stackedDieCount) :
    s.tech = w.tsvTable.values (w.loaded file) n := by
  obtain ⟨before, hbefore⟩ := hset
  have hcount : s.tech.layerCount = n := by
    rw [hbefore, Technology.SetLayerCount_layerCount, hp]
  rcases h.tech hn with htwo | hsettled
  · have hsame : (2 : Int) = n := by
      rw [htwo] at hcount
      exact hcount
    rw [htwo, hsame]
  · exact hsettled

/-- An evaluation of a nest. -/
theorem State.LayeredIn.visit (haligned : TsvAligned file (w.loaded file) n)
    (h : s.LayeredIn w file n phase) {stage : Stage} {m : MemoryType} {p : DesignPoint}
    {g : Geometry} (hnest : phase.nest = some (stage, m))
    (hspace : Space file (w.loaded file) phase s.inputParameter)
    (hp : p ∈ (s.inputParameter.bigFor w.fuel m).visited) (hg : g.toDesignPoint = p)
    (hset : m = .tag → s.LayersSet w p.stackedDieCount) :
    (s.emit (.evaluated (s.visit w stage m g))).LayeredIn w file n phase := by
  have hbounds := hspace.bounds_of_nest hnest
  have hdie := haligned.stackedDieCount_of_mem hbounds hp
  have hvdie : (s.visit w stage m g).stackedDieCount = p.stackedDieCount := by
    rw [← hg]
    rfl
  have hcache : m = .tag → (w.loaded file).designTarget = .cache := by
    rintro rfl
    apply h.cache
    left
    rcases (Phase.refines_of_nest hnest).2 with rfl | rfl
    · exact hnest
    · -- The constrained nest is a data nest.
      cases phase with
      | constrained allowed => cases hnest
      | _ => cases hnest
  -- in a tag nest the layers have just been set; in a data nest the values are settled
  have htech : 1 < n → s.tech = w.tsvTable.values s.inputParameter n := by
    intro hn
    rw [haligned.values_eq hn hspace.settings hbounds hcache]
    by_cases hm : m = .tag
    · exact h.tech_of_layersSet hn (hdie.1 hn) (hset hm)
    · apply h.settled hn
      cases phase with
      | loop k =>
          obtain ⟨-, rfl⟩ : Stage.basic = stage ∧ k = m := by simpa [Phase.nest] using hnest
          cases k with
          | tag => exact absurd rfl hm
          | _ => trivial
      | entered => cases hnest
      | _ => trivial
  exact
    { h.toFoundIn.emit (e := .evaluated (s.visit w stage m g)) rfl trivial with
      layered := h.layered.evaluated (hvdie ▸ hdie) htech
      cache := h.cache
      tech := h.tech
      settled := h.settled }

/-- An evaluation of a refinement rebuilds a design evaluated before. -/
theorem State.LayeredIn.TRY_AND_UPDATE (haligned : TsvAligned file (w.loaded file) n)
    {m : MemoryType} (h : s.LayeredIn w file n (.refining m)) {t : Target} {stage : Stage}
    (hspace : Space file (w.loaded file) (.refining m) s.inputParameter)
    (hfound : (s.TRY_AND_UPDATE w stage m t).FoundIn file (w.loaded file) (.refining m)) :
    (s.TRY_AND_UPDATE w stage m t).LayeredIn w file n (.refining m) := by
  -- the design rebuilt was evaluated before, with the die count of every evaluation
  let v := s.visit w stage m (s.best m t).stored.bank.geometry
  obtain ⟨x, hx⟩ := Option.isSome_iff_exists.mp (h.refining m rfl t)
  have hstored := ((h.tracked m t).holds x hx).1
  obtain ⟨hmem, -⟩ := evaluated_of_installed h.events hx
  have hdie : v.stackedDieCount = x.stackedDieCount := by
    show (s.best m t).stored.bank.geometry.stackedDieCount = _
    rw [hstored]
    rfl
  have htech : s.tech = v.tech := rfl
  have hcache : m = .tag → (w.loaded file).designTarget = .cache := by
    rintro rfl
    exact h.cache (Or.inr rfl)
  have hvalues : 1 < n → v.tech = w.tsvTable.values v.inputParameter n := by
    intro hn
    rw [show v.inputParameter = s.inputParameter from rfl,
      haligned.values_eq hn hspace.settings hspace.bounds_of_refining hcache]
    exact h.settled hn trivial
  have hevaluated := h.layered.evaluated (hdie ▸ (h.layered x hmem).1) hvalues
  have hlayered : Layered w n (s.TRY_AND_UPDATE w stage m t).trace := by
    apply hevaluated.append
    intro e he y hy
    rw [List.mem_singleton.mp he] at hy
    cases hy
  exact ⟨hfound, hlayered, h.cache, h.tech, fun hn _ => h.settled hn trivial⟩

/-- A counted design was evaluated with the values in force. -/
theorem State.LayeredIn.record (haligned : TsvAligned file (w.loaded file) n)
    (h : s.LayeredIn w file n phase) {v : Visit}
    (hnest : phase.nest = some (v.stage, v.memoryType))
    (hspace : Space file (w.loaded file) phase s.inputParameter) (hcurrent : s.Current w v)
    (hfound : (s.record v).FoundIn file (w.loaded file) phase) :
    (s.record v).LayeredIn w file n phase := by
  have htech : v.tech = s.tech := congrArg Visit.tech hcurrent.visit
  have hip : v.inputParameter = s.inputParameter := congrArg Visit.inputParameter hcurrent.visit
  have hcache : v.memoryType = .tag → (w.loaded file).designTarget = .cache := by
    intro hm
    apply h.cache
    left
    cases phase with
    | loop k =>
        obtain ⟨-, rfl⟩ : Stage.basic = v.stage ∧ k = v.memoryType := by
          simpa [Phase.nest] using hnest
        rw [hm]
        rfl
    | constrained allowed =>
        obtain ⟨-, hdata⟩ : Stage.constrained = v.stage ∧ MemoryType.data = v.memoryType := by
          simpa [Phase.nest] using hnest
        rw [hm] at hdata
        cases hdata
    | _ => cases hnest
  -- the design counted was evaluated, so the values it met are the ones in force
  obtain ⟨⟨hdie, -⟩, hmatches⟩ := h.layered v hcurrent.evaluated
  have hsettled : 1 < n → s.tech = w.tsvTable.values (w.loaded file) n := by
    intro hn
    have hvalues := hmatches (by rw [hdie hn]; exact hn)
    rw [hdie hn, htech, hip] at hvalues
    rw [hvalues]
    exact haligned.values_eq hn hspace.settings (hspace.bounds_of_nest hnest) hcache
  refine
    { hfound with
      layered := ?_
      cache := h.cache
      tech := fun hn => ?_
      settled := fun hn _ => ?_ }
  · rw [record_trace]
    apply h.layered.append
    intro e he x hx
    obtain ⟨t, -, rfl⟩ := List.mem_map.mp he
    cases hx
  · rw [record_eq]
    exact h.tech hn
  · rw [record_eq]
    exact hsettled hn

/-- Rows, loop starts and limits. -/
theorem State.LayeredIn.emitAll (h : s.LayeredIn w file n phase) {es : List Event}
    (hes : ∀ e ∈ es, ∀ v, e ≠ .evaluated v)
    (hfound : (s.emitAll es).FoundIn file (w.loaded file) phase) :
    (s.emitAll es).LayeredIn w file n phase :=
  { hfound with
    layered := h.layered.append hes
    cache := h.cache
    tech := h.tech
    settled := h.settled }

/-- `SetLayerCount` in the tag nest. -/
theorem State.LayeredIn.setLayers (haligned : TsvAligned file (w.loaded file) n)
    (h : s.LayeredIn w file n (.loop .tag))
    (hspace : Space file (w.loaded file) (.loop .tag) s.inputParameter) {p : DesignPoint}
    (hp : p ∈ (s.inputParameter.bigFor w.fuel .tag).visited) :
    (s.setLayers w p.stackedDieCount).LayeredIn w file n (.loop .tag) := by
  have hbounds : s.inputParameter.toSearchBounds = boundsFor file (w.loaded file) .tag :=
    hspace.bounds
  have hdie := (haligned.stackedDieCount_of_mem hbounds hp).1
  have hcache : (w.loaded file).designTarget = .cache := h.cache (Or.inl rfl)
  -- The values are either left alone or set for the pinned die count.
  have hset : 1 < n → (s.setLayers w p.stackedDieCount).tech = s.tech ∨
      (s.setLayers w p.stackedDieCount).tech = w.tsvTable.values (w.loaded file) n := by
    intro hn
    show s.tech.SetLayerCount w.tsvTable s.inputParameter p.stackedDieCount = _ ∨
      s.tech.SetLayerCount w.tsvTable s.inputParameter p.stackedDieCount = _
    rw [Technology.SetLayerCount, hdie hn,
      haligned.values_eq hn hspace.settings hbounds fun _ => hcache]
    split
    · exact Or.inl rfl
    · exact Or.inr rfl
  refine
    { h.toFoundIn with
      layered := h.layered
      cache := h.cache
      tech := fun hn => ?_
      settled := fun hn hpos => ?_ }
  · rcases hset hn with hsame | hset
    · rw [hsame]
      exact h.tech hn
    · exact Or.inr hset
  · rcases hset hn with hsame | hset
    · rw [hsame]
      exact h.settled hn hpos
    · exact hset

/-- A change of phase between the loops. -/
theorem State.LayeredIn.rephase {phase' : Phase} (h : s.LayeredIn w file n phase)
    (hfound : s.FoundIn file (w.loaded file) phase')
    (hcache : phase'.nest = some (.basic, .tag) ∨ phase' = .refining .tag →
      (w.loaded file).designTarget = .cache)
    (hsettled : 1 < n → phase'.settled s → s.tech = w.tsvTable.values (w.loaded file) n) :
    s.LayeredIn w file n phase' :=
  { hfound with
    layered := h.layered
    cache := hcache
    tech := h.tech
    settled := hsettled }

/-- A memory without tags starts its data nest with the initial values, set for
    the pinned die count. -/
theorem State.LayeredIn.skipTag (haligned : TsvAligned file (w.loaded file) n)
    (h : s.LayeredIn w file n .entered) (hram : (w.loaded file).designTarget ≠ .cache) :
    s.LayeredIn w file n .ready := by
  apply h.rephase (h.toFoundIn.skipTag hram)
  · rintro (hnest | hphase)
    · cases hnest
    · cases hphase
  · intro hn _
    have htwo : n = 2 := by
      rcases haligned.aligned with hone | ⟨-, htwo⟩ | ⟨hcache, -⟩
      · omega
      · exact htwo
      · exact absurd hcache hram
    rcases h.tech hn with htech | htech
    · rw [htech, htwo]
    · exact htech

end

/-! ## Every run -/

theorem layered_invariant {w : World} (hfinite : w.Finite) {file : List OptionLine} {n : Int}
    (haligned : TsvAligned file (w.loaded file) n) :
    NvsimInvariant w file (w.loaded file) fun phase s => s.LayeredIn w file n phase where
  setInput _ h := { h with }
  setWires _ _ h := { h with }
  startTag {s} hcache hspace h := by
    have hloop : s.LayeredIn w file n (.loop .tag) := by
      apply h.rephase h.toFoundIn.startTag fun _ => hcache
      -- nothing is counted at the start of a cell
      intro _ hpos
      exact absurd (h.uncounted rfl) (Nat.pos_iff_ne_zero.mp hpos)
    apply hloop.emitAll
    · intro e he v hv
      rw [List.mem_singleton.mp he] at hv
      cases hv
    · exact hloop.toFoundIn.emit rfl trivial
  skipTag hram h := h.skipTag haligned hram
  startData {s} hspace h := by
    have hloop : s.LayeredIn w file n (.loop .data) := by
      apply h.rephase h.toFoundIn.startData
      · rintro (hnest | hphase)
        · cases hnest
        · cases hphase
      · exact fun hn _ => h.settled hn trivial
    apply hloop.emitAll
    · intro e he v hv
      rw [List.mem_singleton.mp he] at hv
      cases hv
    · exact hloop.toFoundIn.emit rfl trivial
  setLayers hspace hp h := h.setLayers haligned hspace hp
  visit hnest hspace _ hp hg hset h := h.visit haligned hnest hspace hp hg hset
  record hnest hspace hwires hcurrent hkeep h :=
    h.record haligned hnest hspace hcurrent
      ((found_invariant hfinite file _).record hnest hspace hwires hcurrent hkeep h.toFoundIn)
  output hspace hwrites hcurrent htemp hm hvalid h := by
    apply h.emitAll
    · intro e he v hv
      obtain ⟨tag, -, rfl⟩ := State.mem_tempRows he
      cases hv
    · exact (found_invariant hfinite file _).output hspace hwrites hcurrent htemp hm hvalid
        h.toFoundIn
  startRefine {m s} hpos h := by
    apply h.rephase (h.toFoundIn.startRefine hpos)
    · rintro (hnest | hphase)
      · cases hnest
      · obtain rfl := Phase.refining.inj hphase
        exact h.cache (Or.inl rfl)
    · -- a refinement of the tags needs a tag design, which settled the values
      intro hn _
      apply h.settled hn
      cases m with
      | tag => exact hpos
      | _ => trivial
  tryLocal hspace hlocal hglobal h :=
    h.TRY_AND_UPDATE haligned hspace
      ((found_invariant hfinite file _).tryLocal hspace hlocal hglobal h.toFoundIn)
  tryGlobal hspace hglobal hlocal h :=
    h.TRY_AND_UPDATE haligned hspace
      ((found_invariant hfinite file _).tryGlobal hspace hglobal hlocal h.toFoundIn)
  restore _ h :=
    { h.toFoundIn.restore with
      layered := h.layered
      cache := fun hphase => by rcases hphase with hnest | hphase <;> contradiction
      tech := h.tech
      settled := fun hn _ => h.settled hn trivial }
  exploreNone _ h := by
    apply h.rephase h.toFoundIn.exploreNone
    · rintro (hnest | hphase)
      · cases hnest
      · cases hphase
    · exact fun hn _ => h.settled hn trivial
  exploreSome _ h := by
    apply h.rephase h.toFoundIn.exploreSome
    · rintro (hnest | hphase)
      · cases hnest
      · cases hphase
    · exact fun hn _ => h.settled hn trivial
  prune hspace hfull hprune h := by
    apply h.emitAll
    · intro e he v hv
      obtain ⟨t, tag, -, rfl⟩ := State.mem_prunedRows he
      cases hv
    · exact (found_invariant hfinite file _).prune hspace hfull hprune h.toFoundIn
  limit {s} hspace h :=
    { (found_invariant hfinite file _).limit hspace h.toFoundIn with
      layered := h.layered.append fun e he v hv => by
        rw [List.mem_singleton.mp he] at hv
        cases hv
      cache := fun hphase => by
        rcases hphase with hnest | hphase
        · cases hnest
        · cases hphase
      tech := h.tech
      settled := fun hn _ => h.settled hn trivial }

theorem layered_runInvariant {w : World} (hfinite : w.Finite) {file : List OptionLine} {n : Int}
    (haligned : TsvAligned file (w.loaded file) n) :
    RunInvariant w file (fun phase s => s.LayeredIn w file n phase)
      (State.LayeredOut w file n) where
  toNvsimInvariant := layered_invariant hfinite haligned
  load := by
    refine ⟨(found_runInvariant hfinite file).load, fun v hv => ?_, fun _ => Or.inl rfl⟩
    rw [State.load_initial_trace] at hv
    cases hv
  enter {s} hspace hlt h :=
    { (found_runInvariant hfinite file).enter hspace hlt h.toFound with
      layered := h.layered.append fun e he v hv => by
        rw [List.mem_singleton.mp he] at hv
        cases hv
      cache := fun hphase => by
        rcases hphase with hnest | hphase
        · cases hnest
        · cases hphase
      tech := h.tech
      settled := fun _ hsettled => False.elim hsettled }
  fail hcell h := ⟨(found_runInvariant hfinite file).fail hcell h.toFoundIn, h.layered, h.tech⟩
  leave hcell h := by
    rcases h with ⟨hunconstrained, h⟩ | ⟨hconstrains, allowed, h⟩
    · exact ⟨(found_runInvariant hfinite file).leave hcell (Or.inl ⟨hunconstrained, h.toFoundIn⟩),
        h.layered, h.tech⟩
    · exact ⟨(found_runInvariant hfinite file).leave hcell
        (Or.inr ⟨hconstrains, allowed, h.toFoundIn⟩), h.layered, h.tech⟩

/-- When the file aligns the die count with the values set for it, every stacked
    design of a run is evaluated with the values of its own layer count. -/
theorem run_tsvMatches {w : World} (hfinite : w.Finite) {file : List OptionLine} {n : Int}
    (haligned : TsvAligned file (w.loaded file) n) :
    ∀ v, .evaluated v ∈ (w.run file).trace → v.TsvMatches w := by
  have hrun : Layered w n (w.run file).trace := by
    rcases (layered_runInvariant hfinite haligned).run_cases with (h | ⟨phase, h⟩) | ⟨s, hs, hrun⟩
    · exact h.layered
    · have hin : (w.run file).LayeredIn w file n phase := h
      exact hin.layered
    · obtain ⟨es, hes, htrace⟩ := s.finish_trace
      rw [hrun, htrace]
      apply hs.holds.layered.append
      intro e he v hv
      obtain ⟨t, tag, rfl, -⟩ := hes e he
      cases hv
  exact fun v hv => (hrun v hv).2

/-- A cache of four dies with conservative data wires. -/
def stackedCache : List OptionLine :=
  forceOneDesign ++ forceOneWire ++
    [.stackedDieCount 4, .localWireType .local_conservative, .globalWireType .global_conservative,
     .memoryCellInputFile "sram.cell"]

theorem run_tsvMatches_stacked_cache :
    (World.allValid.run stackedCache).trace ≠ [] ∧
      ∀ v, .evaluated v ∈ (World.allValid.run stackedCache).trace →
        v.TsvMatches World.allValid := by
  have hcoarse : (World.allValid.loaded stackedCache).data.CoarseTsv := ⟨by decide, by decide⟩
  have haligned : TsvAligned stackedCache (World.allValid.loaded stackedCache) 4 :=
    ⟨by decide, Or.inr (Or.inr ⟨by decide, hcoarse⟩)⟩
  have hnonempty : (World.allValid.run stackedCache).trace.isEmpty = false := by decide +kernel
  exact ⟨List.isEmpty_eq_false_iff.mp hnonempty, run_tsvMatches allValid_finite haligned⟩

/-- A memory of four dies. -/
def stackedMemory : List OptionLine :=
  forceOneDesign ++ forceOneWire ++
    [.designTarget .RAM_chip, .capacityB 4, .stackedDieCount 4, .memoryCellInputFile "sram.cell"]

/-- The data nest evaluates four dies with the values of the initial two layers. -/
theorem stacked_memory_mismatch :
    ¬ ∀ v, .evaluated v ∈ (World.allValid.run stackedMemory).trace →
      v.TsvMatches World.allValid := by
  intro h
  have hsome : (World.allValid.run stackedMemory).trace.any
      (fun e => match e with
        | .evaluated v => 1 < v.stackedDieCount && v.tech.layerCount ≠ v.stackedDieCount
        | _ => false) = true := by decide +kernel
  obtain ⟨e, he, hmismatch⟩ := List.any_eq_true.mp hsome
  cases e with
  | evaluated v =>
      simp only [Bool.and_eq_true, decide_eq_true_eq] at hmismatch
      obtain ⟨hstacked, hcount⟩ := hmismatch
      apply hcount
      rw [h v he hstacked]
      rfl
  | _ => cases hmismatch

end Destiny
