/-
  Destiny.Sweep.Resume

  The sweep as a whole: `execute_simulations` runs every job of the list in some
  worker, any number of them at once, and a sweep that was killed is started
  again with the same jobs (`run_single_simulation`, `_save_failure`).

  * A job has files of its own (`JobState`), by which a later run sees what has
    become of it: the result, or the marker of a failure.  The list of failed
    designs is shared.
  * `JobState.advance` is the next step of the worker of a job.  A restart
    forgets where every worker stood and leaves the files as they are.
  * `Sound` is what the files and the worker of a job tell about its simulation.

  DESTINY always gives the same for a job.  A row of the list of failed designs is
  appended in one step here; `Destiny.Sweep.AppendRow` looks into that step.
-/

import Destiny.Lib.Interleaving
import Mathlib.Algebra.Field.Rat
import Mathlib.Algebra.Order.Field.Rat

namespace Destiny.Sweep

open Lib

/-! ## What DESTINY gives for a job -/

/-- The two columns the silent failure check reads, none where a value is missing. -/
structure SimulatedRow where
  cache_area_mm2 : Option ℚ
  data_num_row_per_set : Option ℤ
  deriving DecidableEq, Repr

/-- The exit status of DESTINY and the CSV file it leaves, if it gets to open it; a
    file pandas cannot use has no rows to speak of. -/
structure Simulation where
  returncode : ℤ
  csv : Option (Option (List SimulatedRow))
  deriving DecidableEq, Repr

/-- `(df["cache_area_mm2"] > 1e10).any() or (df["data_num_row_per_set"] == 0).all()` -/
def silentFailure (df : List SimulatedRow) : Bool :=
  (df.any fun row => row.cache_area_mm2.any fun area => 10 ^ 10 < area) ||
    df.all fun row => row.data_num_row_per_set = some 0

/-- What `run_single_simulation` makes of a job: a result, a failure, or an exception. -/
inductive Verdict where
  | success (df : List SimulatedRow)
  | failure
  | raises
  deriving DecidableEq, Repr

/-- The tests between the call of DESTINY and the success path. -/
def Simulation.verdict (sim : Simulation) : Verdict :=
  if sim.returncode ≠ 0 then .failure
  else
    match sim.csv with
    | none => .failure
    | some none => .raises
    | some (some df) => if df.isEmpty || silentFailure df then .failure else .success df

/-! ## A job and its worker -/

/-- What is in a file: part of what is being written, or all of it. -/
inductive Content (α : Type) where
  | part
  | whole (x : α)
  deriving DecidableEq, Repr

/-- How a call of `run_single_simulation` ends. -/
inductive Answer where
  | success
  | failure
  | raised
  deriving DecidableEq, Repr

/-- Where the worker of a job stands. -/
inductive WorkerPc where
  | queued
  /-- neither a result nor a marker was there -/
  | building
  /-- the temporary config is written -/
  | configured
  /-- DESTINY is running -/
  | simulating
  /-- DESTINY has returned -/
  | simulated
  /-- in `_save_failure`, before the row is appended -/
  | failing
  /-- the row of the failed design is appended, the marker is not there yet -/
  | recorded
  /-- in `to_csv` -/
  | storing (df : List SimulatedRow)
  /-- the result is written, the CSV file of DESTINY is still there -/
  | stored
  /-- in the `finally` block -/
  | leaving (a : Answer)
  | returned (a : Answer)
  deriving DecidableEq, Repr

/-- The files of a job and its worker. -/
structure JobState where
  /-- `cfg_filepath` exists -/
  cfg : Bool
  expected_csv : Option (Content (Option (List SimulatedRow)))
  final_csv : Option (Content (List SimulatedRow))
  /-- `failed_marker` exists -/
  marker : Bool
  pc : WorkerPc
  deriving DecidableEq, Repr

/-- No file, and the job in the queue. -/
def JobState.fresh : JobState := ⟨false, none, none, false, .queued⟩

/-- The next step of the worker of a job. -/
def JobState.advance (sim : Simulation) (x : JobState) : Option JobState :=
  match x.pc with
  | .queued =>
      if x.final_csv.isSome then some { x with pc := .returned .success }
      else if x.marker then some { x with pc := .returned .failure }
      else some { x with pc := .building }
  | .building => some { x with cfg := true, pc := .configured }
  -- DESTINY truncates the CSV file when it gets to open it
  | .configured =>
      some { x with
        expected_csv := if sim.csv.isSome then some .part else x.expected_csv
        pc := .simulating }
  | .simulating =>
      some { x with
        expected_csv := (sim.csv.map Content.whole).or x.expected_csv
        pc := .simulated }
  | .simulated =>
      if sim.returncode ≠ 0 then some { x with pc := .failing }
      else
        match x.expected_csv with
        | none => some { x with pc := .failing }
        | some .part | some (.whole none) => some { x with pc := .leaving .raised }
        | some (.whole (some df)) =>
            if df.isEmpty || silentFailure df then
              some { x with expected_csv := none, pc := .failing }
            else some { x with final_csv := some .part, pc := .storing df }
  | .failing => some { x with pc := .recorded }
  | .recorded => some { x with marker := true, pc := .leaving .failure }
  | .storing df => some { x with final_csv := some (.whole df), pc := .stored }
  | .stored => some { x with expected_csv := none, pc := .leaving .success }
  | .leaving a => some { x with cfg := false, pc := .returned a }
  | .returned _ => none

/-! ## What the files of a job tell -/

/-- Neither a result nor a marker. -/
def JobState.Unsettled (x : JobState) : Prop := x.final_csv = none ∧ x.marker = false

/-- What a worker knows where it stands. -/
def JobState.Stands (sim : Simulation) (x : JobState) : Prop :=
  match x.pc with
  | .queued => True
  | .building | .configured | .simulating => x.Unsettled
  | .simulated => x.Unsettled ∧ x.expected_csv = sim.csv.map .whole
  | .failing | .recorded => x.Unsettled ∧ sim.verdict = .failure
  | .storing df => sim.verdict = .success df ∧ x.final_csv = some .part
  | .stored => ∃ df, sim.verdict = .success df ∧ x.final_csv = some (.whole df)
  | .leaving .success | .returned .success => x.final_csv.isSome = true
  | .leaving .failure | .returned .failure => x.marker = true
  | .leaving .raised | .returned .raised => x.Unsettled ∧ sim.verdict = .raises

/-- A marker stands for a failure, a result for a success, and DESTINY alone makes the
    CSV file it leaves. -/
structure JobState.Sound (sim : Simulation) (x : JobState) : Prop where
  marker : x.marker = true → sim.verdict = .failure ∧ x.final_csv = none
  final : ∀ c, x.final_csv = some c → ∃ df, sim.verdict = .success df ∧ (c = .part ∨ c = .whole df)
  expected : sim.csv = none → x.expected_csv = none
  stands : x.Stands sim

/-- What a step of the worker of a job does. -/
inductive JobStep (sim : Simulation) (x : JobState) : JobState → Prop
  | found (hpc : x.pc = .queued) (hfinal : x.final_csv.isSome = true) :
      JobStep sim x { x with pc := .returned .success }
  | marked (hpc : x.pc = .queued) (hmarker : x.marker = true) :
      JobStep sim x { x with pc := .returned .failure }
  | begins (hpc : x.pc = .queued) (hopen : x.Unsettled) : JobStep sim x { x with pc := .building }
  | configures (hpc : x.pc = .building) : JobStep sim x { x with cfg := true, pc := .configured }
  | starts (hpc : x.pc = .configured) (csv : Option (Content (Option (List SimulatedRow))))
      (hcsv : sim.csv = none → csv = none) :
      JobStep sim x { x with expected_csv := csv, pc := .simulating }
  | finishes (hpc : x.pc = .simulating) :
      JobStep sim x { x with expected_csv := sim.csv.map .whole, pc := .simulated }
  | fails (hpc : x.pc = .simulated) (hverdict : sim.verdict = .failure)
      (csv : Option (Content (Option (List SimulatedRow)))) (hcsv : sim.csv = none → csv = none) :
      JobStep sim x { x with expected_csv := csv, pc := .failing }
  | raises (hpc : x.pc = .simulated) (hverdict : sim.verdict = .raises)
      (csv : Option (Content (Option (List SimulatedRow)))) (hcsv : sim.csv = none → csv = none) :
      JobStep sim x { x with expected_csv := csv, pc := .leaving .raised }
  | succeeds (hpc : x.pc = .simulated) {df : List SimulatedRow}
      (hverdict : sim.verdict = .success df)
      (csv : Option (Content (Option (List SimulatedRow)))) (hcsv : sim.csv = none → csv = none) :
      JobStep sim x { x with expected_csv := csv, final_csv := some .part, pc := .storing df }
  | records (hpc : x.pc = .failing) : JobStep sim x { x with pc := .recorded }
  | marks (hpc : x.pc = .recorded) :
      JobStep sim x { x with marker := true, pc := .leaving .failure }
  | stores {df : List SimulatedRow} (hpc : x.pc = .storing df) :
      JobStep sim x { x with final_csv := some (.whole df), pc := .stored }
  | discards (hpc : x.pc = .stored) :
      JobStep sim x { x with expected_csv := none, pc := .leaving .success }
  | leaves {a : Answer} (hpc : x.pc = .leaving a) :
      JobStep sim x { x with cfg := false, pc := .returned a }

section
variable {sim : Simulation} {x y : JobState}

/-- The tests behind the call of DESTINY come to the verdict of its simulation. -/
theorem JobState.Sound.judge (h : x.Sound sim) (hpc : x.pc = .simulated)
    (hstep : x.advance sim = some y) : JobStep sim x y := by
  have hstands := h.stands
  simp only [JobState.Stands, hpc] at hstands
  have hcsv := hstands.2
  simp only [JobState.advance, hpc] at hstep
  -- the tests in the order of the source: exit code, file, its content, its rows
  by_cases hcode : sim.returncode ≠ 0
  · rw [if_pos hcode] at hstep
    obtain rfl := Option.some.inj hstep
    exact .fails hpc (by rw [Simulation.verdict, if_pos hcode]) x.expected_csv h.expected
  rw [if_neg hcode] at hstep
  have hverdict : sim.verdict = match sim.csv with
      | none => .failure
      | some none => .raises
      | some (some df) => if df.isEmpty || silentFailure df then .failure else .success df := by
    rw [Simulation.verdict, if_neg hcode]
  cases hsim : sim.csv with
  | none =>
      simp only [hcsv, hsim, Option.map_none] at hstep hverdict
      obtain rfl := Option.some.inj hstep
      exact .fails hpc hverdict none fun _ => rfl
  | some content =>
      have hsome {csv : Option (Content (Option (List SimulatedRow)))} :
          sim.csv = none → csv = none := by
        intro hnone
        rw [hsim] at hnone
        cases hnone
      cases content with
      | none =>
          simp only [hcsv, hsim, Option.map_some] at hstep hverdict
          obtain rfl := Option.some.inj hstep
          exact .raises hpc hverdict _ hsome
      | some df =>
          simp only [hcsv, hsim, Option.map_some] at hstep hverdict
          split at hstep
          · next hbad =>
            rw [if_pos hbad] at hverdict
            obtain rfl := Option.some.inj hstep
            exact .fails hpc hverdict none hsome
          · next hgood =>
            rw [if_neg hgood] at hverdict
            obtain rfl := Option.some.inj hstep
            exact .succeeds hpc hverdict _ hsome

theorem JobState.Sound.jobStep (h : x.Sound sim) (hstep : x.advance sim = some y) :
    JobStep sim x y := by
  cases hpc : x.pc with
  | queued =>
      simp only [JobState.advance, hpc] at hstep
      split at hstep
      · next hfinal =>
        obtain rfl := Option.some.inj hstep
        exact .found hpc hfinal
      · next hfinal =>
        split at hstep
        · next hmarker =>
          obtain rfl := Option.some.inj hstep
          exact .marked hpc hmarker
        · next hmarker =>
          obtain rfl := Option.some.inj hstep
          exact .begins hpc ⟨by simpa using hfinal, by simpa using hmarker⟩
  | building =>
      simp only [JobState.advance, hpc] at hstep
      obtain rfl := Option.some.inj hstep
      exact .configures hpc
  | configured =>
      simp only [JobState.advance, hpc] at hstep
      obtain rfl := Option.some.inj hstep
      refine .starts hpc _ fun hnone => ?_
      simpa [hnone] using h.expected hnone
  | simulating =>
      -- what an earlier run has left gives way to what this one writes
      simp only [JobState.advance, hpc] at hstep
      have hcsv : (sim.csv.map Content.whole).or x.expected_csv = sim.csv.map .whole := by
        cases hsim : sim.csv with
        | none => simpa [hsim] using h.expected hsim
        | some content => rfl
      rw [hcsv] at hstep
      obtain rfl := Option.some.inj hstep
      exact .finishes hpc
  | simulated => exact h.judge hpc hstep
  | failing =>
      simp only [JobState.advance, hpc] at hstep
      obtain rfl := Option.some.inj hstep
      exact .records hpc
  | recorded =>
      simp only [JobState.advance, hpc] at hstep
      obtain rfl := Option.some.inj hstep
      exact .marks hpc
  | storing df =>
      simp only [JobState.advance, hpc] at hstep
      obtain rfl := Option.some.inj hstep
      exact .stores hpc
  | stored =>
      simp only [JobState.advance, hpc] at hstep
      obtain rfl := Option.some.inj hstep
      exact .discards hpc
  | leaving a =>
      simp only [JobState.advance, hpc] at hstep
      obtain rfl := Option.some.inj hstep
      exact .leaves hpc
  | returned a =>
      simp only [JobState.advance, hpc] at hstep
      cases hstep

theorem JobState.sound_fresh (sim : Simulation) : JobState.fresh.Sound sim where
  marker h := by cases h
  final c h := by cases h
  expected _ := rfl
  stands := trivial

/-- The files of a job stay sound. -/
theorem JobState.Sound.step (h : x.Sound sim) (hstep : JobStep sim x y) : y.Sound sim := by
  have hstands := h.stands
  unfold JobState.Stands at hstands
  -- one case for each action; most leave the files as they are
  cases hstep with
  | found hpc hfinal => exact ⟨h.marker, h.final, h.expected, hfinal⟩
  | marked hpc hmarker => exact ⟨h.marker, h.final, h.expected, hmarker⟩
  | begins hpc hopen => exact ⟨h.marker, h.final, h.expected, hopen⟩
  | configures hpc =>
      simp only [hpc] at hstands
      exact ⟨h.marker, h.final, h.expected, hstands⟩
  | starts hpc csv hcsv =>
      simp only [hpc] at hstands
      exact ⟨h.marker, h.final, hcsv, hstands⟩
  | finishes hpc =>
      simp only [hpc] at hstands
      exact ⟨h.marker, h.final, fun hnone => by simp [hnone], hstands, rfl⟩
  | fails hpc hverdict csv hcsv =>
      simp only [hpc] at hstands
      exact ⟨h.marker, h.final, hcsv, hstands.1, hverdict⟩
  | raises hpc hverdict csv hcsv =>
      simp only [hpc] at hstands
      exact ⟨h.marker, h.final, hcsv, hstands.1, hverdict⟩
  | @succeeds hpc df hverdict csv hcsv =>
      simp only [hpc] at hstands
      -- a job that is simulated has no marker yet
      refine ⟨fun hmarker => ?_, fun c hc => ⟨df, hverdict, .inl ?_⟩, hcsv, hverdict, rfl⟩
      · rw [hstands.1.2] at hmarker
        cases hmarker
      · exact (Option.some.inj hc).symm
  | records hpc =>
      simp only [hpc] at hstands
      exact ⟨h.marker, h.final, h.expected, hstands⟩
  | marks hpc =>
      simp only [hpc] at hstands
      exact ⟨fun _ => ⟨hstands.2, hstands.1.1⟩, h.final, h.expected, rfl⟩
  | @stores df hpc =>
      simp only [hpc] at hstands
      refine ⟨fun hmarker => ?_, fun c hc => ⟨df, hstands.1, .inr ?_⟩, h.expected,
        df, hstands.1, rfl⟩
      · -- a result that is being written rules out a marker
        rw [(h.marker hmarker).2] at hstands
        cases hstands.2
      · exact (Option.some.inj hc).symm
  | discards hpc =>
      simp only [hpc] at hstands
      obtain ⟨df, -, hfinal⟩ := hstands
      exact ⟨h.marker, h.final, fun _ => rfl, by simp [JobState.Stands, hfinal]⟩
  | @leaves a hpc =>
      simp only [hpc] at hstands
      refine ⟨h.marker, h.final, h.expected, ?_⟩
      cases a <;> exact hstands

theorem JobState.Sound.queue (h : x.Sound sim) : { x with pc := .queued }.Sound sim :=
  ⟨h.marker, h.final, h.expected, trivial⟩

end

/-! ## The sweep -/

/-- The jobs, and the rows of the list of failed designs. -/
structure SweepState (J : Type) where
  jobs : J → JobState
  failed : List J

inductive SweepAction (J : Type) where
  /-- the worker of a job takes its next step -/
  | work (j : J)
  /-- the processes are gone, and the sweep is started again -/
  | restart

section
variable {J : Type} [DecidableEq J] (simulate : J → Simulation)

def sweepStep (s : SweepState J) : SweepAction J → Option (SweepState J)
  | .work j =>
      ((s.jobs j).advance (simulate j)).map fun x =>
        { jobs := Function.update s.jobs j x
          failed := if (s.jobs j).pc = .failing then s.failed ++ [j] else s.failed }
  | .restart => some { s with jobs := fun j => { s.jobs j with pc := .queued } }

def SweepState.start : SweepState J := ⟨fun _ => .fresh, []⟩

/-- Every call of the run has ended. -/
def SweepState.Done (s : SweepState J) : Prop := ∀ j, ∃ a, (s.jobs j).pc = .returned a

def SweepState.Sound (s : SweepState J) : Prop := ∀ j, (s.jobs j).Sound (simulate j)

variable {simulate} {s t : SweepState J} {as : List (SweepAction J)}

/-- The worker of a job changes its job and appends a row when it is in `_save_failure`. -/
theorem SweepState.Sound.work (h : s.Sound simulate) {j : J}
    (hstep : sweepStep simulate s (.work j) = some t) :
    ∃ x, JobStep (simulate j) (s.jobs j) x ∧ t.jobs = Function.update s.jobs j x ∧
      t.failed = if (s.jobs j).pc = .failing then s.failed ++ [j] else s.failed := by
  obtain ⟨x, hx, rfl⟩ := Option.map_eq_some_iff.mp hstep
  exact ⟨x, (h j).jobStep hx, rfl, rfl⟩

theorem SweepState.Sound.step (h : s.Sound simulate) {a : SweepAction J}
    (hstep : sweepStep simulate s a = some t) : t.Sound simulate := by
  cases a with
  | work j =>
      obtain ⟨x, hx, hjobs, -⟩ := h.work hstep
      intro i
      rw [hjobs]
      rcases eq_or_ne i j with rfl | hne
      · rw [Function.update_self]
        exact (h i).step hx
      · rw [Function.update_of_ne hne]
        exact h i
  | restart =>
      obtain rfl := Option.some.inj hstep
      exact fun j => (h j).queue

omit [DecidableEq J] in
theorem SweepState.sound_start (simulate : J → Simulation) :
    SweepState.start.Sound simulate := fun _ => JobState.sound_fresh _

theorem SweepState.sound_of_exec (hrun : exec (sweepStep simulate) as .start = some s) :
    s.Sound simulate :=
  exec_induct (fun _ _ _ h hstep => h.step hstep) (SweepState.sound_start simulate) hrun

/-! ## Answers -/

/-- The answer a job deserves. -/
def Verdict.answer : Verdict → Answer
  | .success _ => .success
  | .failure => .failure
  | .raises => .raised

/-- What a caller may rely on at any time: every answer given is the right one, no job
    has both a result and a marker, and a result is that of its job. -/
structure SweepState.Safe (simulate : J → Simulation) (s : SweepState J) : Prop where
  answers : ∀ j a, (s.jobs j).pc = .returned a → a = (simulate j).verdict.answer
  exclusive : ∀ j, (s.jobs j).marker = true → (s.jobs j).final_csv = none
  results : ∀ j df, (s.jobs j).final_csv = some (.whole df) → (simulate j).verdict = .success df

theorem JobState.Sound.answer_eq {sim : Simulation} {x : JobState} (h : x.Sound sim) {a : Answer}
    (hpc : x.pc = .returned a) : a = sim.verdict.answer := by
  have hstands := h.stands
  simp only [JobState.Stands, hpc] at hstands
  cases a with
  | success =>
      obtain ⟨c, hc⟩ := Option.isSome_iff_exists.mp hstands
      obtain ⟨df, hverdict, -⟩ := h.final c hc
      rw [hverdict]
      rfl
  | failure =>
      rw [(h.marker hstands).1]
      rfl
  | raised =>
      rw [hstands.2]
      rfl

/-- However the workers take turns, and whenever the sweep is killed and started again,
    it is safe. -/
theorem sweep_safe (hrun : exec (sweepStep simulate) as .start = some s) : s.Safe simulate := by
  have hsound := SweepState.sound_of_exec hrun
  refine ⟨fun j a ha => (hsound j).answer_eq ha, fun j hmarker => ((hsound j).marker hmarker).2,
    fun j df hdf => ?_⟩
  obtain ⟨df', hverdict, hcontent⟩ := (hsound j).final _ hdf
  rcases hcontent with h | h
  · cases h
  · rw [hverdict, Content.whole.inj h]

/-! ## Results that are cut short -/

/-- What a sweep should leave of a job. -/
def JobState.Settled (sim : Simulation) (x : JobState) : Prop :=
  match sim.verdict with
  | .success df => x.final_csv = some (.whole df) ∧ x.marker = false
  | .failure => x.final_csv = none ∧ x.marker = true
  | .raises => x.Unsettled

/-- Nobody is writing a result when the sweep is killed. -/
def SweepState.Spares (s : SweepState J) : SweepAction J → Prop
  | .work _ => True
  | .restart => ∀ j df, (s.jobs j).pc ≠ .storing df

/-- Only its writer leaves a result incomplete. -/
def JobState.Intact (x : JobState) : Prop := x.final_csv = some .part → ∃ df, x.pc = .storing df

/-- A result that was cut short, taken for a success. -/
def JobState.Torn (x : JobState) : Prop :=
  x.final_csv = some .part ∧ (x.pc = .queued ∨ x.pc = .returned .success)

section
variable {sim : Simulation} {x y : JobState}

theorem JobState.Intact.step (h : x.Intact) (hsound : x.Sound sim) (hstep : JobStep sim x y) :
    y.Intact := by
  have hstands := hsound.stands
  unfold JobState.Stands at hstands
  cases hstep with
  | @succeeds hpc df hverdict csv hcsv => exact fun _ => ⟨df, rfl⟩
  | @stores df hpc =>
      intro hpart
      cases Option.some.inj hpart
  | found hpc | marked hpc | begins hpc | configures hpc | starts hpc | finishes hpc | fails hpc
  | raises hpc | records hpc | marks hpc | discards hpc | leaves hpc =>
      intro hpart
      obtain ⟨df, hstoring⟩ := h hpart
      rw [hpc] at hstoring
      cases hstoring

theorem JobState.Torn.step (h : x.Torn) (hsound : x.Sound sim) (hstep : JobStep sim x y) :
    y.Torn := by
  obtain ⟨hpart, hpc⟩ := h
  cases hstep with
  | found => exact ⟨hpart, .inr rfl⟩
  | marked _ hmarker =>
      rw [(hsound.marker hmarker).2] at hpart
      cases hpart
  | begins _ hopen =>
      rw [hopen.1] at hpart
      cases hpart
  | configures hpc' | starts hpc' | finishes hpc' | fails hpc' | raises hpc' | succeeds hpc'
  | records hpc' | marks hpc' | stores hpc' | discards hpc' | leaves hpc' =>
      rcases hpc with hpc | hpc <;> rw [hpc] at hpc' <;> cases hpc'

/-- A call that has ended leaves its job settled, unless the result is torn. -/
theorem JobState.Sound.settled (h : x.Sound sim) (hintact : x.Intact) {a : Answer}
    (hpc : x.pc = .returned a) : x.Settled sim := by
  have hstands := h.stands
  simp only [JobState.Stands, hpc] at hstands
  unfold JobState.Settled
  cases a with
  | success =>
      obtain ⟨c, hc⟩ := Option.isSome_iff_exists.mp hstands
      obtain ⟨df, hverdict, hcontent⟩ := h.final c hc
      have hmarker : x.marker = false := by
        by_contra hmarked
        rw [(h.marker (Bool.not_eq_false _ ▸ hmarked)).2] at hc
        cases hc
      rw [hverdict]
      refine ⟨?_, hmarker⟩
      rcases hcontent with rfl | rfl
      · obtain ⟨df', hstoring⟩ := hintact hc
        rw [hpc] at hstoring
        cases hstoring
      · exact hc
  | failure =>
      obtain ⟨hverdict, hfinal⟩ := h.marker hstands
      rw [hverdict]
      exact ⟨hfinal, hstands⟩
  | raised =>
      rw [hstands.2]
      exact hstands.1

/-- A torn job is not settled. -/
theorem JobState.Torn.not_settled (h : x.Torn) : ¬ x.Settled sim := by
  intro hsettled
  unfold JobState.Settled at hsettled
  split at hsettled
  · rw [h.1] at hsettled
    cases hsettled.1
  · rw [h.1] at hsettled
    cases hsettled.1
  · rw [JobState.Unsettled, h.1] at hsettled
    cases hsettled.1

end

theorem SweepState.intact_step (hsound : s.Sound simulate) (hs : ∀ j, (s.jobs j).Intact)
    {a : SweepAction J} (hspares : s.Spares a) (hstep : sweepStep simulate s a = some t) (j : J) :
    (t.jobs j).Intact := by
  cases a with
  | work i =>
      obtain ⟨x, hx, hjobs, -⟩ := hsound.work hstep
      rw [hjobs]
      rcases eq_or_ne j i with rfl | hne
      · rw [Function.update_self]
        exact (hs j).step (hsound j) hx
      · rw [Function.update_of_ne hne]
        exact hs j
  | restart =>
      obtain rfl := Option.some.inj hstep
      intro hpart
      obtain ⟨df, hstoring⟩ := hs j hpart
      exact absurd hstoring (hspares j df)

theorem SweepState.torn_step (hsound : s.Sound simulate) {j : J} (hs : (s.jobs j).Torn)
    {a : SweepAction J} (hstep : sweepStep simulate s a = some t) : (t.jobs j).Torn := by
  cases a with
  | work i =>
      obtain ⟨x, hx, hjobs, -⟩ := hsound.work hstep
      rw [hjobs]
      rcases eq_or_ne j i with rfl | hne
      · rw [Function.update_self]
        exact hs.step (hsound j) hx
      · rwa [Function.update_of_ne hne]
  | restart =>
      obtain rfl := Option.some.inj hstep
      exact ⟨hs.1, .inl rfl⟩

/-- A run that ends leaves every job settled exactly when it was never killed while a
    result was being written. -/
theorem all_settled_iff (hrun : exec (sweepStep simulate) as .start = some s) (hdone : s.Done) :
    (∀ j, (s.jobs j).Settled (simulate j)) ↔
      Along (sweepStep simulate) SweepState.Spares as .start := by
  constructor
  · intro hsettled
    by_contra hkilled
    obtain ⟨t, a, u, rest, hsound, hbreaks, hstep, hrest⟩ := exists_of_not_along
      (fun _ _ _ h hstep => SweepState.Sound.step h hstep) (SweepState.sound_start simulate)
      hrun hkilled
    cases a with
    | work j => exact hbreaks trivial
    | restart =>
        -- the job whose result was being written stays torn to the end
        simp only [SweepState.Spares, not_forall, not_not] at hbreaks
        obtain ⟨j, df, hstoring⟩ := hbreaks
        have hstands := (hsound j).stands
        simp only [JobState.Stands, hstoring] at hstands
        have hu : u.Sound simulate := hsound.step hstep
        obtain rfl := Option.some.inj hstep
        have hend := exec_induct (I := fun s => s.Sound simulate ∧ (s.jobs j).Torn)
          (fun _ _ _ h hstep => ⟨h.1.step hstep, SweepState.torn_step h.1 h.2 hstep⟩)
          ⟨hu, hstands.2, .inl rfl⟩ hrest
        exact hend.2.not_settled (hsettled j)
  · intro hspares j
    have hend := exec_induct_along
      (I := fun s => s.Sound simulate ∧ ∀ j, (s.jobs j).Intact)
      (fun _ _ _ h hspares hstep =>
        ⟨h.1.step hstep, SweepState.intact_step h.1 h.2 hspares hstep⟩)
      ⟨SweepState.sound_start simulate, fun _ hpart => by cases hpart⟩ hspares hrun
    obtain ⟨a, ha⟩ := hdone j
    exact (hend.1 j).settled (hend.2 j) ha

end

/-! ## A sweep that was killed once -/

/-- A job that succeeds and one DESTINY gives up on. -/
def twoJobs : Bool → Simulation
  | true =>
    { returncode := 0
      csv := some (some [{ cache_area_mm2 := some 3, data_num_row_per_set := some 1 }]) }
  | false => { returncode := 255, csv := some none }

/-- The two workers take turns; the sweep is killed when the failure has its row and
    DESTINY has computed the success, and started again. -/
def killedOnce : List (SweepAction Bool) :=
  [true, false, true, false, true, false, true, false, false, false].map .work ++
    .restart :: (List.replicate 8 true ++ List.replicate 8 false).map .work

theorem sweep_safe_killed_once :
    ∃ s, exec (sweepStep twoJobs) killedOnce .start = some s ∧ s.Safe twoJobs := by
  obtain ⟨s, hrun⟩ : ∃ s, exec (sweepStep twoJobs) killedOnce .start = some s := ⟨_, rfl⟩
  exact ⟨s, hrun, sweep_safe hrun⟩

theorem killedOnce_done :
    ∃ s, exec (sweepStep twoJobs) killedOnce .start = some s ∧ s.Done := by
  refine ⟨_, rfl, fun j => ?_⟩
  cases j with
  | true => exact ⟨.success, rfl⟩
  | false => exact ⟨.failure, rfl⟩

theorem all_settled_iff_killed_once :
    ∃ s, exec (sweepStep twoJobs) killedOnce .start = some s ∧ s.Done ∧
      ((∀ j, (s.jobs j).Settled (twoJobs j)) ↔
        Along (sweepStep twoJobs) SweepState.Spares killedOnce .start) := by
  obtain ⟨s, hrun, hdone⟩ := killedOnce_done
  exact ⟨s, hrun, hdone, all_settled_iff hrun hdone⟩

end Destiny.Sweep
