/-
  Destiny.Search.Installed

  The best records against the history of a run.

  `installed cell m t trace` is the evaluation the trace says the record of a
  target holds: the last one a comparison accepted since the cell was entered,
  and for data since `APPLY_LIMIT`.  `State.Tracked` says that the records are
  what the trace says; it is kept by every transition.
-/

import Destiny.Search.Main

namespace Destiny

open Lib

/-! ## The history of a record -/

/-- What an event says about the design in the record of a target. -/
def installs (cell : Nat) (m : MemoryType) (t : Target) : Event → Option (Option Visit)
  | .cellFile c _ => if c = cell then some none else none
  | .limitsApplied c _ => if c = cell ∧ m = .data then some none else none
  | .compared v u old =>
      if v.cell = cell ∧ v.memoryType = m ∧ u = t ∧ old.accepts v.trial = true then
        some (some v)
      else none
  | _ => none

/-- The evaluation a record holds, none while it is the worst case. -/
def installed (cell : Nat) (m : MemoryType) (t : Target) (trace : List Event) : Option Visit :=
  (lastSome (installs cell m t) trace).join

/-- What an event says about the limits of the data records of a cell. -/
def setsLimits (cell : Nat) : Event → Option Limits
  | .cellFile c _ => if c = cell then some .unset else none
  | .limitsApplied c limits => if c = cell then some limits else none
  | _ => none

/-- The limits of the records of a cell; tags are never limited. -/
def limitsIn (cell : Nat) (m : MemoryType) (trace : List Event) : Limits :=
  if m = .data then (lastSome (setsLimits cell) trace).getD .unset else .unset

/-- The cell whose records an event is about. -/
def Event.cell? : Event → Option Nat
  | .cellFile c _ | .limitsApplied c _ => some c
  | .compared v _ _ => some v.cell
  | _ => none

section
variable {cell : Nat} {m : MemoryType} {t : Target} {e : Event} {trace : List Event}

theorem installed_append_some {o : Option Visit} (h : installs cell m t e = some o) :
    installed cell m t (trace ++ [e]) = o := by
  rw [installed, lastSome_append_of_some h]
  rfl

theorem installed_append_none (h : installs cell m t e = none) :
    installed cell m t (trace ++ [e]) = installed cell m t trace := by
  rw [installed, lastSome_append_of_none h, installed]

theorem limitsIn_append_none (h : setsLimits cell e = none) :
    limitsIn cell m (trace ++ [e]) = limitsIn cell m trace := by
  rw [limitsIn, lastSome_append_of_none h, limitsIn]

theorem installs_of_other (h : e.cell? ≠ some cell) : installs cell m t e = none := by
  cases e with
  | cellFile c name => exact if_neg fun hc => h (congrArg some hc)
  | limitsApplied c limits => exact if_neg fun hc => h (congrArg some hc.1)
  | compared v u old => exact if_neg fun hc => h (congrArg some hc.1)
  | _ => rfl

theorem setsLimits_of_other (h : e.cell? ≠ some cell) : setsLimits cell e = none := by
  cases e with
  | cellFile c name => exact if_neg fun hc => h (congrArg some hc)
  | limitsApplied c limits => exact if_neg fun hc => h (congrArg some hc)
  | _ => rfl

/-- Events about other cells leave a history alone. -/
theorem installed_append_other {es : List Event} (h : ∀ e ∈ es, e.cell? ≠ some cell) :
    installed cell m t (trace ++ es) = installed cell m t trace := by
  induction es using List.reverseRecOn with
  | nil => rw [List.append_nil]
  | append_singleton es e ih =>
      rw [← List.append_assoc, installed_append_none (installs_of_other (h e (by simp)))]
      exact ih fun x hx => h x (List.mem_append_left _ hx)

theorem limitsIn_append_other {es : List Event} (h : ∀ e ∈ es, e.cell? ≠ some cell) :
    limitsIn cell m (trace ++ es) = limitsIn cell m trace := by
  induction es using List.reverseRecOn with
  | nil => rw [List.append_nil]
  | append_singleton es e ih =>
      rw [← List.append_assoc, limitsIn_append_none (setsLimits_of_other (h e (by simp)))]
      exact ih fun x hx => h x (List.mem_append_left _ hx)

/-- Only an accepted comparison installs a design. -/
theorem eq_compared_of_installs {v : Visit} (h : installs cell m t e = some (some v)) :
    ∃ old, e = .compared v t old ∧ v.cell = cell ∧ v.memoryType = m ∧
      old.accepts v.trial = true := by
  cases e with
  | compared x u old =>
      rw [installs] at h
      split at h
      · next hx =>
        obtain rfl : x = v := by simpa using h
        obtain ⟨hcell, hm, rfl, haccepts⟩ := hx
        exact ⟨old, rfl, hcell, hm, haccepts⟩
      · cases h
  | cellFile c name =>
      rw [installs] at h
      split at h <;> simp at h
  | limitsApplied c limits =>
      rw [installs] at h
      split at h <;> simp at h
  | _ => cases h

/-- What a record holds was installed by a comparison of the trace. -/
theorem exists_compared_of_installed {v : Visit} (h : installed cell m t trace = some v) :
    ∃ old, .compared v t old ∈ trace ∧ old.accepts v.trial = true ∧ v.cell = cell ∧
      v.memoryType = m := by
  rw [installed] at h
  cases hlast : lastSome (installs cell m t) trace with
  | none =>
      rw [hlast] at h
      cases h
  | some o =>
      rw [hlast] at h
      obtain rfl : o = some v := h
      obtain ⟨e, he, hinstalls⟩ := exists_of_lastSome hlast
      obtain ⟨old, rfl, hcell, hm, haccepts⟩ := eq_compared_of_installs hinstalls
      exact ⟨old, he, haccepts, hcell, hm⟩

end

/-! ## Records that follow their history -/

/-- A record is what the trace says: the worst case, or an evaluation that was
    within its limits and better than the worst case. -/
structure Result.Tracks (r : Result) (cell : Nat) (t : Target) (allowed : Limits)
    (held : Option Visit) : Prop where
  optimizationTarget : r.optimizationTarget = t
  cellTech : r.cellTech = cell
  limits : r.limits = allowed
  holds : ∀ v, held = some v → r.stored = v.trial ∧ v.trial.bank.metrics.within allowed = true ∧
    v.trial.bank.metrics.objective t < Metrics.worstCase.objective t
  empty : held = none → r.stored.bank.metrics = .worstCase

section
variable {r : Result} {cell : Nat} {t : Target} {allowed : Limits} {held : Option Visit}

/-- No record is worse than the worst case. -/
theorem Result.Tracks.key_le (h : r.Tracks cell t allowed held) :
    r.key r.stored ≤ Metrics.worstCase.objective t := by
  rw [Result.key, h.optimizationTarget]
  cases held with
  | none => rw [h.empty rfl]
  | some v =>
      obtain ⟨hstored, -, hlt⟩ := h.holds v rfl
      rw [hstored]
      exact hlt.le

/-- A comparison that accepts installs the new design. -/
theorem Result.Tracks.compareAndUpdate_of_accepts (h : r.Tracks cell t allowed held) {v : Visit}
    (haccepts : r.accepts v.trial = true) :
    (r.compareAndUpdate v.trial).Tracks cell t allowed (some v) := by
  rw [Result.compareAndUpdate_of_accepts haccepts]
  rw [Result.accepts, Bool.and_eq_true, decide_eq_true_eq, h.limits] at haccepts
  refine ⟨h.optimizationTarget, h.cellTech, h.limits, fun x hx => ?_, fun hx => by cases hx⟩
  obtain rfl := Option.some.inj hx
  have hlt := haccepts.2.trans_le h.key_le
  rw [Result.key, h.optimizationTarget] at hlt
  exact ⟨rfl, haccepts.1, hlt⟩

/-- A newly allocated record. -/
theorem Result.tracks_new (memory : Trial) (t : Target) (cell : Nat) :
    (Result.new memory t cell).Tracks cell t .unset none :=
  ⟨rfl, rfl, rfl, fun v hv => (by cases hv), fun _ => rfl⟩

/-- `APPLY_LIMIT` leaves the worst case under the new limits. -/
theorem Result.Tracks.reset (h : r.Tracks cell t allowed held) (limits : Limits) :
    ({ r.reset with limits := limits } : Result).Tracks cell t limits none :=
  ⟨h.optimizationTarget, h.cellTech, rfl, fun v hv => (by cases hv), fun _ => rfl⟩

end

/-- The records of a cell are what the trace says. -/
def Records.Tracked (best : Records) (cell : Nat) (trace : List Event) : Prop :=
  ∀ m t, (best m t).Tracks cell t (limitsIn cell m trace) (installed cell m t trace)

def State.Tracked (s : State) : Prop := s.best.Tracked s.cell s.trace

/-! ## Every transition keeps the records tracked -/

section
variable {s : State}

/-- Events about other things, or about other cells. -/
theorem Records.Tracked.append_other {best : Records} {cell : Nat} {trace es : List Event}
    (h : best.Tracked cell trace) (hes : ∀ e ∈ es, e.cell? ≠ some cell) :
    best.Tracked cell (trace ++ es) := by
  intro m t
  rw [limitsIn_append_other hes, installed_append_other hes]
  exact h m t

theorem State.Tracked.emitAll (h : s.Tracked) {es : List Event} (hes : ∀ e ∈ es, e.cell? = none) :
    (s.emitAll es).Tracked :=
  Records.Tracked.append_other h fun e he => by simp [hes e he]

theorem State.Tracked.emit (h : s.Tracked) {e : Event} (he : e.cell? = none) :
    (s.emit e).Tracked :=
  h.emitAll fun x hx => by rwa [List.mem_singleton.mp hx]

/-- One comparison changes one record, and the trace says so. -/
theorem State.Tracked.compare (h : s.Tracked) {v : Visit} (hv : v.cell = s.cell) (t : Target) :
    (s.compare v t).Tracked := by
  intro m u
  show ((s.compare v t).best m u).Tracks s.cell u (limitsIn s.cell m (s.trace ++ [_]))
    (installed s.cell m u (s.trace ++ [_]))
  rw [limitsIn_append_none rfl]
  by_cases hmu : m = v.memoryType ∧ u = t
  · obtain ⟨rfl, rfl⟩ := hmu
    rw [s.compare_best_self v u]
    by_cases haccepts : (s.best v.memoryType u).accepts v.trial = true
    · have hinstalls : installs s.cell v.memoryType u
          (.compared v u (s.best v.memoryType u)) = some (some v) := if_pos ⟨hv, rfl, rfl, haccepts⟩
      rw [installed_append_some hinstalls]
      exact (h v.memoryType u).compareAndUpdate_of_accepts haccepts
    · have hinstalls : installs s.cell v.memoryType u
          (.compared v u (s.best v.memoryType u)) = none := if_neg fun hx => haccepts hx.2.2.2
      rw [installed_append_none hinstalls,
        Result.compareAndUpdate_of_not_accepts (by simpa using haccepts)]
      exact h v.memoryType u
  · have hinstalls : installs s.cell m u (.compared v t (s.best v.memoryType t)) = none :=
      if_neg fun hx => hmu ⟨hx.2.1.symm, hx.2.2.1.symm⟩
    rw [s.compare_best_of_ne v hmu, installed_append_none hinstalls]
    exact h m u

/-- What every comparison keeps, `record` keeps. -/
theorem State.record_induct {P : State → Prop} {v : Visit}
    (hstart : P { s with numSolution := s.numSolution + 1, temp := v.trial })
    (hstep : ∀ u t, P u → P (u.compare v t)) : P (s.record v) := by
  rw [record, UPDATE_BEST]
  exact List.foldlRecOn Target.all _ hstart fun u hu t _ => hstep u t hu

theorem State.Tracked.limit (h : s.Tracked) : s.limit.Tracked := by
  intro m t
  show (if m = .data then { (s.best m t).reset with limits := s.allowedData }
    else s.best m t).Tracks s.cell t (limitsIn s.cell m (s.trace ++ [_]))
      (installed s.cell m t (s.trace ++ [_]))
  by_cases hm : m = .data
  · have hinstalls : installs s.cell m t (.limitsApplied s.cell s.allowedData) = some none :=
      if_pos ⟨rfl, hm⟩
    have hlimits : setsLimits s.cell (.limitsApplied s.cell s.allowedData) = some s.allowedData :=
      if_pos rfl
    rw [if_pos hm, installed_append_some hinstalls, limitsIn, if_pos hm,
      lastSome_append_of_some hlimits]
    exact (h m t).reset s.allowedData
  · have hinstalls : installs s.cell m t (.limitsApplied s.cell s.allowedData) = none :=
      if_neg fun hx => hm hx.2
    have htag := h m t
    rw [limitsIn, if_neg hm] at htag
    rw [if_neg hm, installed_append_none hinstalls, limitsIn, if_neg hm]
    exact htag

theorem State.tracked_enterCell (w : World) (cell : Nat) (name : String) (s : State) :
    (s.enterCell w cell name).Tracked := by
  intro m t
  show (Result.new w.recordMemory t cell).Tracks cell t
    (limitsIn cell m (s.trace ++ [.cellFile cell name]))
    (installed cell m t (s.trace ++ [.cellFile cell name]))
  have hinstalls : installs cell m t (.cellFile cell name) = some none := if_pos rfl
  have hlimits : setsLimits cell (.cellFile cell name) = some .unset := if_pos rfl
  have hunset : limitsIn cell m (s.trace ++ [.cellFile cell name]) = .unset := by
    rw [limitsIn, lastSome_append_of_some hlimits, Option.getD_some, ite_self]
  rw [installed_append_some hinstalls, hunset]
  exact Result.tracks_new _ t cell

end

end Destiny
