/-
  Destiny.Search.Bounds

  The search space in force in each phase of a run.

  `InputParameter` is one object that `REDUCE_SEARCH_SIZE`,
  `RESTORE_SEARCH_SIZE`, the re-read of the configuration file and the access
  mode overwrite in turn.  `Space file loaded phase ip` says what `ip` has to be
  in a phase, given the object `loaded` that `main` starts with; the lemmas
  below lead it from phase to phase.
-/

import Destiny.Lib.History
import Destiny.Search.Nvsim

namespace Destiny

open Lib

/-! ## Phases -/

/-- Where a run of `nvsim` stands. -/
inductive Phase
  | entered
  | loop (m : MemoryType)
  | refining (m : MemoryType)
  /-- the tags are done, or there are none -/
  | ready
  /-- the unconstrained data exploration is done -/
  | explored
  | constrained (allowed : Limits)

/-! ## Bounds read from a file -/

/-- The bounds of `RESTORE_SEARCH_SIZE` overridden by the options of a file; the
    die counts are those of the constructor. -/
def configured (file : List OptionLine) (associativity : Nat) : SearchBounds :=
  file.foldl SearchBounds.applyLine
    { data := restoredData
      tag := restoredTag
      numRowPerSet := ⟨1, associativity⟩
      stackLayer := ⟨1, 16⟩ }

theorem foldl_applyLine (file : List OptionLine) (b : SearchBounds) :
    file.foldl SearchBounds.applyLine b =
      { data := file.foldl ArrayBounds.applyDataLine b.data
        tag := file.foldl ArrayBounds.applyTagLine b.tag
        numRowPerSet := file.foldl applyRowPerSetLine b.numRowPerSet
        stackLayer := file.foldl applyStackLayerLine b.stackLayer } := by
  induction file generalizing b with
  | nil => rfl
  | cons line file ih => rw [List.foldl_cons, ih]; rfl

/-- What an option says about the die counts. -/
def OptionLine.stackLayer : OptionLine → Option (Range Int)
  | .forceBank3DA _ _ n => some (.pin n)
  | .forceBank3D _ _ n _ _ => some (.pin n)
  | .stackedDieCount n => some (.pin n)
  | _ => none

theorem applyStackLayerLine_eq (r : Range Int) (line : OptionLine) :
    applyStackLayerLine r line = line.stackLayer.getD r := by cases line <;> rfl

theorem configured_data (file : List OptionLine) (a : Nat) :
    (configured file a).data = file.foldl ArrayBounds.applyDataLine restoredData := by
  rw [configured, foldl_applyLine]

theorem configured_tag (file : List OptionLine) (a : Nat) :
    (configured file a).tag = file.foldl ArrayBounds.applyTagLine restoredTag := by
  rw [configured, foldl_applyLine]

theorem configured_stackLayer (file : List OptionLine) (a : Nat) :
    (configured file a).stackLayer = (lastSome OptionLine.stackLayer file).getD ⟨1, 16⟩ := by
  rw [configured, foldl_applyLine]
  exact @foldl_eq_lastSome _ _ _ _ _ id applyStackLayerLine_eq file ⟨1, 16⟩

/-! ## Settings read from a file -/

def OptionLine.designTarget? : OptionLine → Option DesignTarget
  | .designTarget t => some t
  | _ => none

def OptionLine.optimizationTarget? : OptionLine → Option OptimizationTarget
  | .optimizationTarget t => some t
  | _ => none

def OptionLine.cacheAccessMode? : OptionLine → Option CacheAccessMode
  | .cacheAccessMode m => some m
  | _ => none

def OptionLine.associativity? : OptionLine → Option Nat
  | .associativity ways => some ways
  | _ => none

def OptionLine.localTsvProjection? : OptionLine → Option Nat
  | .localTSVProjection n => some n
  | _ => none

def OptionLine.globalTsvProjection? : OptionLine → Option Nat
  | .globalTSVProjection n => some n
  | _ => none

def OptionLine.isConstraintApplied? : OptionLine → Option Bool
  | .applyReadLatencyConstraint _ | .applyWriteLatencyConstraint _
  | .applyReadDynamicEnergyConstraint _ | .applyWriteDynamicEnergyConstraint _
  | .applyLeakageConstraint _ | .applyAreaConstraint _ | .applyReadEdpConstraint _
  | .applyWriteEdpConstraint _ => some true
  | _ => none

def OptionLine.isPruningEnabled? : OptionLine → Option Bool
  | .enablePruning yes => some yes
  | _ => none

def OptionLine.memoryCellInputFile? : OptionLine → Option String
  | .memoryCellInputFile name => some name
  | _ => none

theorem InputParameter.applyLine_fileMemCell (ip : InputParameter) (line : OptionLine) :
    (ip.applyLine line).fileMemCell = ip.fileMemCell ++ line.memoryCellInputFile?.toList := by
  cases line <;> first | rfl | exact (List.append_nil _).symm

/-- Reading a file appends the cell files it names. -/
theorem InputParameter.read_fileMemCell (ip : InputParameter) (file : List OptionLine) :
    (ip.ReadInputParameterFromFile file).fileMemCell =
      ip.fileMemCell ++ file.filterMap OptionLine.memoryCellInputFile? := by
  rw [ReadInputParameterFromFile]
  induction file generalizing ip with
  | nil => exact (List.append_nil _).symm
  | cons line file ih =>
      rw [List.foldl_cons, ih, applyLine_fileMemCell, List.append_assoc]
      cases h : line.memoryCellInputFile? with
      | none => rw [List.filterMap_cons_none h]; rfl
      | some name => rw [List.filterMap_cons_some h]; rfl

/-- `ip` has the settings of `loaded` that later steps read; ways are ignored
    for non-cache designs, and cell files are only ever appended. -/
structure SameSettings (loaded ip : InputParameter) : Prop where
  designTarget : ip.designTarget = loaded.designTarget
  optimizationTarget : ip.optimizationTarget = loaded.optimizationTarget
  cacheAccessMode : ip.cacheAccessMode = loaded.cacheAccessMode
  associativity : loaded.designTarget = .cache → ip.associativity = loaded.associativity
  localTsvProjection : ip.localTsvProjection = loaded.localTsvProjection
  globalTsvProjection : ip.globalTsvProjection = loaded.globalTsvProjection
  isConstraintApplied : ip.isConstraintApplied = loaded.isConstraintApplied
  isPruningEnabled : ip.isPruningEnabled = loaded.isPruningEnabled
  fileMemCell : loaded.fileMemCell <+: ip.fileMemCell

theorem SameSettings.refl (ip : InputParameter) : SameSettings ip ip :=
  ⟨rfl, rfl, rfl, fun _ => rfl, rfl, rfl, rfl, rfl, List.prefix_rfl⟩

/-- Settings are not bounds. -/
theorem SameSettings.setBounds {loaded ip : InputParameter} (h : SameSettings loaded ip)
    (b : SearchBounds) : SameSettings loaded { ip with toSearchBounds := b } := { h with }

/-- Re-reading the file a cache was loaded from keeps its settings. -/
theorem SameSettings.restore {file : List OptionLine} {start ip : InputParameter}
    (h : SameSettings (start.restore file) ip)
    (hcache : (start.restore file).designTarget = .cache) :
    SameSettings (start.restore file) (ip.restore file) where
  designTarget := read_foldl_again (f := OptionLine.designTarget?)
    (fun s e => by cases e <;> rfl) h.designTarget
  optimizationTarget := read_foldl_again (f := OptionLine.optimizationTarget?)
    (fun s e => by cases e <;> rfl) h.optimizationTarget
  cacheAccessMode := read_foldl_again (f := OptionLine.cacheAccessMode?)
    (fun s e => by cases e <;> rfl) h.cacheAccessMode
  associativity := fun _ => read_foldl_again (f := OptionLine.associativity?)
    (fun s e => by cases e <;> rfl) (h.associativity hcache)
  localTsvProjection := read_foldl_again (f := OptionLine.localTsvProjection?)
    (fun s e => by cases e <;> rfl) h.localTsvProjection
  globalTsvProjection := read_foldl_again (f := OptionLine.globalTsvProjection?)
    (fun s e => by cases e <;> rfl) h.globalTsvProjection
  isConstraintApplied := read_foldl_again (f := OptionLine.isConstraintApplied?)
    (fun s e => by cases e <;> rfl) h.isConstraintApplied
  isPruningEnabled := read_foldl_again (f := OptionLine.isPruningEnabled?)
    (fun s e => by cases e <;> rfl) h.isPruningEnabled
  fileMemCell := by
    rw [InputParameter.restore.eq_def file ip, InputParameter.read_fileMemCell]
    exact h.fileMemCell.trans (List.prefix_append _ _)

/-! ## The space of each phase -/

/-- `REDUCE_SEARCH_SIZE` on the bounds. -/
def SearchBounds.reduced (b : SearchBounds) : SearchBounds :=
  { b with data := reducedData, numRowPerSet := ⟨1, 1⟩ }

/-- What the access mode does to the bounds. -/
def InputParameter.accessBounds (ip : InputParameter) (b : SearchBounds) : SearchBounds :=
  if ip.designTarget = .cache ∧ ip.cacheAccessMode = .normal_access_mode then
    { b with numRowPerSet := .pin 1 }
  else b

section
variable (file : List OptionLine) (loaded : InputParameter)

/-- The bounds of a file before the access mode is looked at.  Only a cache
    restores its rows per set after the ways are known. -/
def restoredBounds : SearchBounds :=
  configured file (if loaded.designTarget = .cache then loaded.associativity else 1)

/-- The bounds of the tag exploration. -/
def tagBounds : SearchBounds := (restoredBounds file loaded).reduced

/-- The bounds of the data explorations. -/
def dataBounds : SearchBounds := loaded.accessBounds (restoredBounds file loaded)

/-- The bounds in force in a phase. -/
def InSpace : Phase → SearchBounds → Prop
  | .entered, b =>
      b.tag = (restoredBounds file loaded).tag ∧
        b.stackLayer = (restoredBounds file loaded).stackLayer ∧
          (loaded.designTarget ≠ .cache → b = restoredBounds file loaded)
  | .loop .tag, b | .refining .tag, b => b = tagBounds file loaded
  | .ready, b => b = restoredBounds file loaded
  | _, b => b = dataBounds file loaded

/-- The search space and the settings in force in a phase. -/
structure Space (phase : Phase) (ip : InputParameter) : Prop where
  settings : SameSettings loaded ip
  bounds : InSpace file loaded phase ip.toSearchBounds

end

theorem toSearchBounds_restore (file : List OptionLine) (ip : InputParameter) :
    (ip.restore file).toSearchBounds =
      file.foldl SearchBounds.applyLine
        { data := restoredData
          tag := restoredTag
          numRowPerSet := ⟨1, ip.associativity⟩
          stackLayer := ip.stackLayer } := by
  rw [InputParameter.restore, InputParameter.read_toSearchBounds]
  rfl

/-- Restoring from die counts a file has set gives the bounds of that file. -/
theorem toSearchBounds_restore_of_stackLayer {file : List OptionLine} {ip : InputParameter}
    {a : Nat} (h : ip.stackLayer = (configured file a).stackLayer) :
    (ip.restore file).toSearchBounds = configured file ip.associativity := by
  have hstack : file.foldl applyStackLayerLine ip.stackLayer =
      file.foldl applyStackLayerLine ⟨1, 16⟩ := by
    apply @read_foldl_again _ _ _ _ _ id applyStackLayerLine_eq
    rw [id, h, configured, foldl_applyLine]
    rfl
  rw [toSearchBounds_restore, configured, foldl_applyLine, foldl_applyLine]
  simp only [hstack]

section
variable {file : List OptionLine} {start ip : InputParameter}

/-- What `main` loads is the space a run of `nvsim` is entered with. -/
theorem Space.load (w : World) :
    Space file ((InputParameter.construct w.inputMemory).restore file) .entered
      ((InputParameter.construct w.inputMemory).restore file) where
  settings := .refl _
  bounds := by
    have hrestore : ((InputParameter.construct w.inputMemory).restore file).toSearchBounds =
        configured file 1 := toSearchBounds_restore file (.construct w.inputMemory)
    generalize (InputParameter.construct w.inputMemory).restore file = loaded at hrestore ⊢
    refine ⟨?_, ?_, fun hram => ?_⟩
    · rw [hrestore, restoredBounds, configured_tag, configured_tag]
    · rw [hrestore, restoredBounds, configured_stackLayer, configured_stackLayer]
    · rw [hrestore, restoredBounds, if_neg hram]

theorem Space.ignoreAssociativity {loaded : InputParameter} {phase : Phase}
    (h : Space file loaded phase ip) : Space file loaded phase ip.ignoreAssociativity := by
  rw [InputParameter.ignoreAssociativity]
  split
  · next hram =>
    refine ⟨{ h.settings with associativity := fun hcache => ?_ }, h.bounds⟩
    exact absurd (h.settings.designTarget.trans hcache) hram.1
  · exact h

/-- `REDUCE_SEARCH_SIZE` enters the tag exploration. -/
theorem Space.reduce {loaded : InputParameter} (h : Space file loaded .entered ip) :
    Space file loaded (.loop .tag) (REDUCE_SEARCH_SIZE ip) where
  settings := h.settings.setBounds _
  bounds := by
    obtain ⟨htag, hstack, -⟩ := h.bounds
    show ip.toSearchBounds.reduced = tagBounds file loaded
    rw [tagBounds, SearchBounds.reduced, SearchBounds.reduced, htag, hstack]

/-- After the tags the file's own bounds are in force again. -/
theorem Space.restore (h : Space file (start.restore file) (.refining .tag) ip)
    (hcache : (start.restore file).designTarget = .cache) :
    Space file (start.restore file) .ready (ip.restore file) where
  settings := h.settings.restore hcache
  bounds := by
    have hbounds : ip.toSearchBounds = tagBounds file (start.restore file) := h.bounds
    show (ip.restore file).toSearchBounds = restoredBounds file (start.restore file)
    rw [restoredBounds, if_pos hcache, ← h.settings.associativity hcache]
    exact toSearchBounds_restore_of_stackLayer (by rw [hbounds]; rfl)

/-- Without tags the bounds are the file's own from the start. -/
theorem Space.skipTag {loaded : InputParameter} (h : Space file loaded .entered ip)
    (hram : loaded.designTarget ≠ .cache) : Space file loaded .ready ip where
  settings := h.settings
  bounds := h.bounds.2.2 hram

/-- The access mode enters the data exploration. -/
theorem Space.adjustAccessMode {loaded : InputParameter} (h : Space file loaded .ready ip) :
    Space file loaded (.loop .data) ip.adjustAccessMode := by
  have hbounds : ip.toSearchBounds = restoredBounds file loaded := h.bounds
  have hmode : (ip.designTarget = .cache ∧ ip.cacheAccessMode = .normal_access_mode) ↔
      loaded.designTarget = .cache ∧ loaded.cacheAccessMode = .normal_access_mode := by
    rw [h.settings.designTarget, h.settings.cacheAccessMode]
  rw [InputParameter.adjustAccessMode]
  split
  · next hnormal =>
    refine ⟨h.settings.setBounds _, ?_⟩
    show ({ ip.toSearchBounds with numRowPerSet := .pin 1 } : SearchBounds) = dataBounds file loaded
    rw [dataBounds, InputParameter.accessBounds, if_pos (hmode.mp hnormal), hbounds]
  · next hother =>
    refine ⟨h.settings, ?_⟩
    show ip.toSearchBounds = dataBounds file loaded
    rw [dataBounds, InputParameter.accessBounds, if_neg (hother ∘ hmode.mpr), hbounds]

/-- The access mode overwrites the rows per set only, and only for a cache. -/
theorem dataBounds_cases (file : List OptionLine) (loaded : InputParameter) :
    dataBounds file loaded = restoredBounds file loaded ∨
      loaded.designTarget = .cache ∧
        dataBounds file loaded = { restoredBounds file loaded with numRowPerSet := .pin 1 } := by
  rw [dataBounds, InputParameter.accessBounds]
  split
  · next hnormal => exact Or.inr ⟨hnormal.1, rfl⟩
  · exact Or.inl rfl

/-- The next cell is entered after a data exploration, -/
theorem Space.reenter {loaded : InputParameter} (h : Space file loaded .explored ip) :
    Space file loaded .entered ip := by
  refine ⟨h.settings, ?_⟩
  have hbounds : ip.toSearchBounds = dataBounds file loaded := h.bounds
  rw [hbounds]
  rcases dataBounds_cases file loaded with hdata | ⟨hcache, hdata⟩
  · rw [hdata]
    exact ⟨rfl, rfl, fun _ => rfl⟩
  · rw [hdata]
    exact ⟨rfl, rfl, fun hram => absurd hcache hram⟩

/-- or after a tag exploration without solutions. -/
theorem Space.reenter_of_tag {loaded : InputParameter} (h : Space file loaded (.loop .tag) ip)
    (hcache : loaded.designTarget = .cache) : Space file loaded .entered ip := by
  refine ⟨h.settings, ?_⟩
  have hbounds : ip.toSearchBounds = tagBounds file loaded := h.bounds
  rw [hbounds]
  exact ⟨rfl, rfl, fun hram => absurd hcache hram⟩

end

end Destiny
