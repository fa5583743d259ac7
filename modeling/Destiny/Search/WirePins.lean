/-
  Destiny.Search.WirePins

  Whether the wire attributes a configuration file pins are honoured.

  A pinned attribute is a `min`/`max` pair with equal ends.  The data nests and
  all refinements respect the pairs of their own array.  The tag nest does not:
  `INITIAL_BASIC_WIRE` reads the data pairs, which `REDUCE_SEARCH_SIZE` has just
  overwritten, so the tag nest always uses `tagBasicWire`, and a tag record
  keeps it until it takes over a refinement trial of that wire.
-/

import Destiny.Search.CellSpace
import Destiny.Search.Found

namespace Destiny

open Lib

/-! ## Pins -/

inductive WireKind
  | localWire | globalWire
  deriving DecidableEq

/-- The attributes a file pins for a wire. -/
structure WirePins where
  wireType : Option WireType
  wireRepeaterType : Option WireRepeaterType
  isLowSwing : Option Bool

/-- The wire has the pinned attributes. -/
structure WirePins.Honoured (p : WirePins) (x : Wire) : Prop where
  wireType : ∀ t ∈ p.wireType, x.wireType = t
  wireRepeaterType : ∀ r ∈ p.wireRepeaterType, x.wireRepeaterType = r
  isLowSwing : ∀ l ∈ p.isLowSwing, x.isLowSwing = l

def OptionLine.wireType? : MemoryType → WireKind → OptionLine → Option WireType
  | .data, .localWire, .localWireType t | .data, .globalWire, .globalWireType t
  | .tag, .localWire, .tagLocalWireType t | .tag, .globalWire, .tagGlobalWireType t => some t
  | _, _, _ => none

def OptionLine.wireRepeaterType? : MemoryType → WireKind → OptionLine → Option WireRepeaterType
  | .data, .localWire, .localWireRepeaterType t | .data, .globalWire, .globalWireRepeaterType t
  | .tag, .localWire, .tagLocalWireRepeaterType t
  | .tag, .globalWire, .tagGlobalWireRepeaterType t => some t
  | _, _, _ => none

def OptionLine.isLowSwing? : MemoryType → WireKind → OptionLine → Option Bool
  | .data, .localWire, .localWireUseLowSwing yes | .data, .globalWire, .globalWireUseLowSwing yes
  | .tag, .localWire, .tagLocalWireUseLowSwing yes
  | .tag, .globalWire, .tagGlobalWireUseLowSwing yes => some yes
  | _, _, _ => none

/-- What the last option line for each attribute says. -/
def pinsOf (file : List OptionLine) (m : MemoryType) (k : WireKind) : WirePins where
  wireType := lastSome (OptionLine.wireType? m k) file
  wireRepeaterType := lastSome (OptionLine.wireRepeaterType? m k) file
  isLowSwing := lastSome (OptionLine.isLowSwing? m k) file

/-! ## Ranges of one kind of wire -/

def ArrayBounds.wireType (b : ArrayBounds) : WireKind → Range WireType
  | .localWire => b.localWireType
  | .globalWire => b.globalWireType

def ArrayBounds.wireRepeaterType (b : ArrayBounds) : WireKind → Range WireRepeaterType
  | .localWire => b.localWireRepeaterType
  | .globalWire => b.globalWireRepeaterType

def ArrayBounds.isLowSwing (b : ArrayBounds) : WireKind → Range Bool
  | .localWire => b.isLocalWireLowSwing
  | .globalWire => b.isGlobalWireLowSwing

def ArrayBounds.basicWire (b : ArrayBounds) : WireKind → Wire
  | .localWire => b.basicLocalWire
  | .globalWire => b.basicGlobalWire

def ArrayBounds.wires (b : ArrayBounds) : WireKind → List Wire
  | .localWire => b.localWires
  | .globalWire => b.globalWires

def Trial.wire (x : Trial) : WireKind → Wire
  | .localWire => x.localWire
  | .globalWire => x.globalWire

/-- The bounds have a pinned attribute where the pins have one. -/
structure ArrayBounds.Pinned (b : ArrayBounds) (p : WirePins) (k : WireKind) : Prop where
  wireType : ∀ t ∈ p.wireType, b.wireType k = .pin t
  wireRepeaterType : ∀ r ∈ p.wireRepeaterType, b.wireRepeaterType k = .pin r
  isLowSwing : ∀ l ∈ p.isLowSwing, b.isLowSwing k = .pin l

section
variable {b : ArrayBounds} {p : WirePins} {k : WireKind}

/-- The wires a refinement tries have the pinned attributes. -/
theorem ArrayBounds.Pinned.honoured_wires (h : b.Pinned p k) {x : Wire} (hx : x ∈ b.wires k) :
    p.Honoured x := by
  have hmem : x ∈ wireLoop (b.wireType k) (b.wireRepeaterType k) (b.isLowSwing k) := by
    cases k <;> exact hx
  obtain ⟨htype, hrepeater, hswing, -⟩ := mem_wireLoop hmem
  refine ⟨fun t ht => ?_, fun r hr => ?_, fun l hl => ?_⟩
  · rw [h.wireType t ht] at htype
    exact eq_of_mem_between_pin htype
  · rw [h.wireRepeaterType r hr] at hrepeater
    exact eq_of_mem_between_pin_repeater hrepeater
  · rw [h.isLowSwing l hl] at hswing
    exact eq_of_mem_between_pin_lowSwing hswing

/-- So has the wire the nests start from. -/
theorem ArrayBounds.Pinned.honoured_basicWire (h : b.Pinned p k) : p.Honoured (b.basicWire k) := by
  refine ⟨fun t ht => ?_, fun r hr => ?_, fun l hl => ?_⟩
  · have hpin := h.wireType t ht
    cases k <;> exact (congrArg (Range.orDefault · _) hpin).trans (Range.orDefault_pin t _)
  · have hpin := h.wireRepeaterType r hr
    cases k <;> exact (congrArg (Range.orDefault · _) hpin).trans (Range.orDefault_pin r _)
  · have hpin := h.isLowSwing l hl
    cases k <;> exact (congrArg (Range.orDefault · _) hpin).trans (Range.orDefault_pin l _)

end

/-- The wire ranges of an array after one line: only its own options set them. -/
structure WireStep (m : MemoryType) (k : WireKind) (b after : ArrayBounds) (line : OptionLine) :
    Prop where
  wireType : after.wireType k = ((line.wireType? m k).map Range.pin).getD (b.wireType k)
  wireRepeaterType : after.wireRepeaterType k =
    ((line.wireRepeaterType? m k).map Range.pin).getD (b.wireRepeaterType k)
  isLowSwing : after.isLowSwing k = ((line.isLowSwing? m k).map Range.pin).getD (b.isLowSwing k)

theorem wireStep_data (k : WireKind) (b : ArrayBounds) (line : OptionLine) :
    WireStep .data k b (b.applyDataLine line) line := by
  cases line with
  | useCactiAssumption yes => cases yes <;> cases k <;> exact ⟨rfl, rfl, rfl⟩
  | _ => cases k <;> exact ⟨rfl, rfl, rfl⟩

theorem wireStep_tag (k : WireKind) (b : ArrayBounds) (line : OptionLine) :
    WireStep .tag k b (b.applyTagLine line) line := by
  cases line <;> cases k <;> exact ⟨rfl, rfl, rfl⟩

/-- Bounds read from a file are pinned where it pins them. -/
theorem pinned_foldl {m : MemoryType} {k : WireKind}
    {step : ArrayBounds → OptionLine → ArrayBounds}
    (hstep : ∀ b line, WireStep m k b (step b line) line) (file : List OptionLine)
    (b : ArrayBounds) : (file.foldl step b).Pinned (pinsOf file m k) k where
  wireType t ht := by
    have hlast := @foldl_eq_lastSome _ _ _ _ step (·.wireType k)
      (fun b e => (hstep b e).wireType) file b
    rw [lastSome_map, show lastSome (OptionLine.wireType? m k) file = some t from ht] at hlast
    exact hlast
  wireRepeaterType r hr := by
    have hlast := @foldl_eq_lastSome _ _ _ _ step (·.wireRepeaterType k)
      (fun b e => (hstep b e).wireRepeaterType) file b
    have hfile : lastSome (OptionLine.wireRepeaterType? m k) file = some r := hr
    rw [lastSome_map, hfile] at hlast
    exact hlast
  isLowSwing l hl := by
    have hlast := @foldl_eq_lastSome _ _ _ _ step (·.isLowSwing k)
      (fun b e => (hstep b e).isLowSwing) file b
    rw [lastSome_map, show lastSome (OptionLine.isLowSwing? m k) file = some l from hl] at hlast
    exact hlast

/-- A range read from a file is the restored one or a single value. -/
theorem configured_range {α : Type} {read : ArrayBounds → Range α} {f : OptionLine → Option α}
    (hread : ∀ b line, read (b.applyDataLine line) = ((f line).map Range.pin).getD (read b))
    (file : List OptionLine) (a : Nat) :
    read (configured file a).data = read restoredData ∨
      ∃ x, read (configured file a).data = .pin x := by
  rw [configured_data, @foldl_eq_lastSome _ _ _ _ ArrayBounds.applyDataLine read hread,
    lastSome_map]
  cases lastSome f file with
  | none => exact Or.inl rfl
  | some x => exact Or.inr ⟨x, rfl⟩

/-- The wire the nests start from is one of the refinement, unless the run stops
    because it is not supported. -/
theorem basicWire_mem_wires (file : List OptionLine) (a : Nat) (k : WireKind)
    (hsupported : ((configured file a).data.basicWire k).unsupported = false) :
    (configured file a).data.basicWire k ∈ (configured file a).data.wires k := by
  have htype := @configured_range _ (·.wireType k) _
    (fun b line => (wireStep_data k b line).wireType) file a
  have hrepeater := @configured_range _ (·.wireRepeaterType k) _
    (fun b line => (wireStep_data k b line).wireRepeaterType) file a
  have hswing := @configured_range _ (·.isLowSwing k) _
    (fun b line => (wireStep_data k b line).isLowSwing) file a
  cases k
  all_goals
    exact mem_wireLoop_of
      (orDefault_mem_between (fun t => by cases t <;> decide) htype (by decide))
      (orDefault_mem_between (fun r => by cases r <;> decide) hrepeater (by decide))
      (orDefault_mem_between (fun l => by cases l <;> decide) hswing (by decide)) hsupported

/-- The bounds in force while an array is explored are pinned for that array. -/
theorem boundsFor_pinned (file : List OptionLine) (loaded : InputParameter) {m : MemoryType}
    (hm : m = .data ∨ m = .tag) (k : WireKind) :
    ((boundsFor file loaded m).array m).Pinned (pinsOf file m k) k := by
  rcases hm with rfl | rfl
  · have hdata : (dataBounds file loaded).data = (restoredBounds file loaded).data := by
      rcases dataBounds_cases file loaded with h | ⟨-, h⟩ <;> rw [h]
    show (dataBounds file loaded).data.Pinned _ k
    rw [hdata, restoredBounds, configured_data]
    exact pinned_foldl (wireStep_data k) file _
  · show (restoredBounds file loaded).tag.Pinned _ k
    rw [restoredBounds, configured_tag]
    exact pinned_foldl (wireStep_tag k) file _

/-! ## Where the wire of a record comes from -/

/-- What a stage does with a wire: the basic one, one of the refinement, or the
    one of the record. -/
inductive WireSource
  | basic | tried | kept
  deriving DecidableEq

def Stage.source : WireKind → Stage → WireSource
  | _, .basic | _, .constrained => .basic
  | .localWire, .refineLocal _ | .globalWire, .refineGlobal _ => .tried
  | .localWire, .refineGlobal _ | .globalWire, .refineLocal _ => .kept

theorem Visit.WiresFrom.wire {v : Visit} {old : Result} (h : v.WiresFrom old) (k : WireKind) :
    (v.stage.source k = .basic → v.trial.wire k = v.inputParameter.data.basicWire k) ∧
      (v.stage.source k = .tried →
        v.trial.wire k ∈ (v.inputParameter.array v.memoryType).wires k) ∧
      (v.stage.source k = .kept → v.stage.refines = true ∧
        v.trial.wire k = old.stored.wire k) := by
  rw [Visit.WiresFrom] at h
  cases hstage : v.stage <;> rw [hstage] at h <;> cases k <;>
    simp_all [Stage.source, Stage.refines, Trial.wire, ArrayBounds.wires, ArrayBounds.basicWire]

/-- What an event says about a wire of a record: whether it was refined. -/
def refinesWire (cell : Nat) (m : MemoryType) (t : Target) (k : WireKind) : Event → Option Bool
  | .compared v u old =>
      if v.cell = cell ∧ v.memoryType = m ∧ u = t ∧ old.accepts v.trial = true then
        match v.stage.source k with
        | .basic => some false
        | .tried => some true
        | .kept => none
      else none
  | _ => none

/-- The record took over a refinement trial of the wire, after the last design
    of a nest it took over. -/
def wireRefined (cell : Nat) (m : MemoryType) (t : Target) (k : WireKind) (trace : List Event) :
    Bool :=
  (lastSome (refinesWire cell m t k) trace).getD false

section
variable {cell : Nat} {m : MemoryType} {t : Target} {k : WireKind} {e : Event} {trace : List Event}

theorem wireRefined_append_some {b : Bool} (h : refinesWire cell m t k e = some b) :
    wireRefined cell m t k (trace ++ [e]) = b := by
  rw [wireRefined, lastSome_append_of_some h]
  rfl

theorem wireRefined_append_none (h : refinesWire cell m t k e = none) :
    wireRefined cell m t k (trace ++ [e]) = wireRefined cell m t k trace := by
  rw [wireRefined, lastSome_append_of_none h, wireRefined]

/-- Events that install nothing say nothing about the wires. -/
theorem refinesWire_of_installs_none (h : installs cell m t e = none) :
    refinesWire cell m t k e = none := by
  cases e with
  | compared v u old =>
      apply if_neg
      intro hv
      rw [installs, if_pos hv] at h
      cases h
  | _ => rfl

/-- The wire of a design a record holds: a wire of the refinement when it was
    refined, the basic wire when it was not. -/
theorem wire_of_installed {file : List OptionLine} {loaded : InputParameter}
    (hlawful : Everywhere (Event.Lawful file loaded) trace)
    (hfound : Everywhere Event.RefinesFound trace) {v : Visit}
    (h : installed cell m t trace = some v) :
    if wireRefined cell m t k trace = true then
      v.trial.wire k ∈ ((boundsFor file loaded m).array m).wires k
    else v.trial.wire k = (boundsFor file loaded m).data.basicWire k := by
  -- The induction is on the history; only an accepted comparison says anything.
  induction trace using List.reverseRecOn generalizing v with
  | nil => cases h
  | append_singleton trace e ih =>
      obtain ⟨hlawful', hevent⟩ := everywhere_append_singleton.mp hlawful
      obtain ⟨hfound', hholds⟩ := everywhere_append_singleton.mp hfound
      cases hinstalls : installs cell m t e with
      | none =>
          rw [installed_append_none hinstalls] at h
          rw [wireRefined_append_none (refinesWire_of_installs_none hinstalls)]
          exact ih hlawful' hfound' h
      | some o =>
          rw [installed_append_some hinstalls] at h
          subst h
          obtain ⟨old, rfl, hcell, hm, haccepts⟩ := eq_compared_of_installs hinstalls
          have hbounds : v.inputParameter.toSearchBounds = boundsFor file loaded m := by
            rw [← hm]
            exact hevent.bounds
          have hsays : refinesWire cell m t k (.compared v t old) =
              match v.stage.source k with
              | .basic => some false
              | .tried => some true
              | .kept => none := if_pos ⟨hcell, hm, rfl, haccepts⟩
          obtain ⟨hbasic, htried, hkept⟩ := hevent.wires.wire k
          cases hsource : v.stage.source k with
          | basic =>
              rw [hsource] at hsays
              rw [wireRefined_append_some hsays, if_neg Bool.false_ne_true, ← hbounds]
              exact hbasic hsource
          | tried =>
              rw [hsource] at hsays
              rw [wireRefined_append_some hsays, if_pos rfl, ← hbounds, ← hm]
              exact htried hsource
          | kept =>
              -- The wire is that of the design the record held before.
              rw [hsource] at hsays
              obtain ⟨hstage, hwire⟩ := hkept hsource
              have hsome := hholds hstage
              rw [hcell, hm] at hsome
              obtain ⟨x, hx⟩ := Option.isSome_iff_exists.mp hsome
              have hold : old.stored = x.trial := by
                apply hevent.record
                rw [hcell, hm]
                exact hx
              rw [wireRefined_append_none hsays, hwire, hold]
              exact ih hlawful' hfound' hx

end

/-! ## Pins and records -/

/-- The wires of every best record of a cell have the attributes pinned for its
    array; only a cache has tag records. -/
def CellOutcome.HonoursPins (o : CellOutcome) (file : List OptionLine) (loaded : InputParameter) :
    Prop :=
  ∀ m, (m = .data ∨ m = .tag ∧ loaded.designTarget = .cache) →
    ∀ t k, (pinsOf file m k).Honoured ((o.best m t).stored.wire k)

/-- The wires of the tag nest, whatever the file pins. -/
def tagBasicWire : WireKind → Wire
  | .localWire => ⟨.local_aggressive, .repeated_none, false⟩
  | .globalWire => ⟨.global_aggressive, .repeated_none, false⟩

theorem boundsFor_tag_basicWire (file : List OptionLine) (loaded : InputParameter) (k : WireKind) :
    (boundsFor file loaded .tag).data.basicWire k = tagBasicWire k := by
  cases k <;> rfl

/-- In every cell with solutions the best records have the pinned attributes if
    and only if each wire of each tag record either was refined or has them from
    the start. -/
theorem honoursPins_iff {w : World} (hfinite : w.Finite) {file : List OptionLine} {cell : Nat}
    {o : CellOutcome} (ho : (w.run file).explored[cell]? = some o) (hpos : 0 < o.solutions) :
    o.HonoursPins file (w.loaded file) ↔
      ((w.loaded file).designTarget = .cache → ∀ t k,
        wireRefined cell .tag t k (w.run file).trace = true ∨
          (pinsOf file .tag k).Honoured (tagBasicWire k)) := by
  obtain ⟨hrefines, hfound⟩ := run_found hfinite file
  have houtcome := run_outcomes w file cell o ho
  -- Every record holds a design, with its wires as the history says.
  have hwire : ∀ m, (m = .data ∨ m = .tag ∧ (w.loaded file).designTarget = .cache) → ∀ t k,
      if wireRefined cell m t k (w.run file).trace = true then
        (o.best m t).stored.wire k ∈ ((boundsFor file (w.loaded file) m).array m).wires k
      else (o.best m t).stored.wire k = (boundsFor file (w.loaded file) m).data.basicWire k := by
    intro m hm t k
    obtain ⟨v, hv⟩ := Option.isSome_iff_exists.mp (hfound cell o ho hpos m hm t)
    rw [((houtcome.best m t).holds v hv).1]
    exact wire_of_installed (run_lawful w file) hrefines hv
  constructor
  · intro hhonours hcache t k
    by_cases hrefined : wireRefined cell .tag t k (w.run file).trace = true
    · exact Or.inl hrefined
    · have hbasic := hwire .tag (Or.inr ⟨rfl, hcache⟩) t k
      rw [if_neg hrefined, boundsFor_tag_basicWire] at hbasic
      right
      rw [← hbasic]
      exact hhonours .tag (Or.inr ⟨rfl, hcache⟩) t k
  · intro hreached m hm t k
    have hpinned := boundsFor_pinned file (w.loaded file) (hm.imp_right And.left) k
    have hkind := hwire m hm t k
    by_cases hrefined : wireRefined cell m t k (w.run file).trace = true
    · rw [if_pos hrefined] at hkind
      exact hpinned.honoured_wires hkind
    · rw [if_neg hrefined] at hkind
      rw [hkind]
      rcases hm with rfl | ⟨rfl, hcache⟩
      · exact hpinned.honoured_basicWire
      · have hstart := (hreached hcache t k).resolve_left hrefined
        rw [boundsFor_tag_basicWire]
        exact hstart

theorem twoCells_explored : 0 < (World.allValid.run twoCells).explored.length := by
  decide +kernel

/-- The tag wires are pinned to those the nest starts with. -/
theorem honoursPins_iff_two_cells :
    ((World.allValid.run twoCells).explored.get ⟨0, twoCells_explored⟩).HonoursPins twoCells
      (World.allValid.loaded twoCells) := by
  refine (honoursPins_iff allValid_finite (List.getElem?_eq_getElem twoCells_explored)
    (by decide +kernel)).mpr fun _ _ k => .inr ?_
  cases k <;> constructor <;> decide

/-- A cache that pins the tag's local wires to conservative ones. -/
def conservativeTag : List OptionLine :=
  forceOneDesign ++ forceOneWire ++
    [.tagLocalWireType .local_conservative, .memoryCellInputFile "sram.cell"]

/-- Where conservative wires are no better, the tag records keep aggressive ones. -/
theorem pin_not_honoured :
    ¬ ∀ (cell : Nat) (o : CellOutcome),
      (World.allValid.run conservativeTag).explored[cell]? = some o → 0 < o.solutions →
        o.HonoursPins conservativeTag (World.allValid.loaded conservativeTag) := by
  intro h
  have hrun : (World.allValid.run conservativeTag).explored[0]?.map (fun o =>
      ((o.best .tag .area_optimized).stored.localWire.wireType, o.solutions)) =
        some (.local_aggressive, 1) := by decide +kernel
  obtain ⟨o, ho, hvalues⟩ := Option.map_eq_some_iff.mp hrun
  obtain ⟨htype, hsolutions⟩ := Prod.mk.inj hvalues
  have hcache : (World.allValid.loaded conservativeTag).designTarget = .cache := by decide
  have hpins := (h 0 o ho (by omega) .tag (Or.inr ⟨rfl, hcache⟩) .area_optimized
    .localWire).wireType .local_conservative (by decide)
  rw [show ((o.best .tag .area_optimized).stored.wire .localWire).wireType = .local_aggressive
    from htype] at hpins
  cases hpins

end Destiny
