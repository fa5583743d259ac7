/-
  Destiny.Sweep.ResumeCount

  How often DESTINY runs for a job, and how many rows a failed job has in the list of
  failed designs, when the sweep may be killed and started again.

  A measure of a job changes with its worker and with a restart
  (`job_balance`); the two measures here turn a run that ends into two equations
  (`work_of_job`).
-/

import Destiny.Sweep.Resume

namespace Destiny.Sweep

open Lib

section
variable {J : Type} [DecidableEq J] {simulate : J → Simulation} {s t : SweepState J}
  {as : List (SweepAction J)}

/-! ## Measures of a job -/

/-- What a step weighs when it is one of the worker of a job. -/
def workWeight (j : J) (weight : JobState → ℕ) (s : SweepState J) : SweepAction J → ℕ
  | .work i => if i = j then weight (s.jobs j) else 0
  | .restart => 0

/-- What a restart weighs that finds a job as it is. -/
def restartWeight (j : J) (weight : JobState → ℕ) (s : SweepState J) : SweepAction J → ℕ
  | .work _ => 0
  | .restart => weight (s.jobs j)

/-- A measure of one job over a run. -/
theorem job_balance {measure gain loss : JobState → ℕ} {j : J}
    (hwork : ∀ x y, x.Sound (simulate j) → JobStep (simulate j) x y →
      measure y = measure x + gain x)
    (hrestart : ∀ x, x.Sound (simulate j) → measure { x with pc := .queued } + loss x = measure x)
    (hrun : exec (sweepStep simulate) as .start = some s) :
    measure (s.jobs j) + tally (sweepStep simulate) (restartWeight j loss) as .start =
      measure .fresh + tally (sweepStep simulate) (workWeight j gain) as .start := by
  refine exec_balance (I := SweepState.Sound simulate) (f := fun s => measure (s.jobs j))
    (fun _ _ _ h hstep => h.step hstep) (fun s a t hs hstep => ?_)
    (SweepState.sound_start simulate) hrun
  cases a with
  | work i =>
      obtain ⟨x, hx, hjobs, -⟩ := hs.work hstep
      simp only [restartWeight, workWeight, hjobs]
      rcases eq_or_ne i j with rfl | hne
      · rw [Function.update_self, if_pos rfl]
        exact hwork _ _ (hs i) hx
      · rw [Function.update_of_ne hne.symm, if_neg hne]
  | restart =>
      obtain rfl := Option.some.inj hstep
      exact hrestart _ (hs j)

/-- DESTINY has run for the job, which is not settled for it. -/
def WorkerPc.simulates : WorkerPc → Bool
  | .simulating | .simulated | .failing | .recorded | .leaving .raised | .returned .raised => true
  | _ => false

@[simp] theorem simulates_queued : WorkerPc.queued.simulates = false := rfl

/-- The worker is about to call DESTINY. -/
def startsDestiny (x : JobState) : ℕ := if x.pc = .configured then 1 else 0

/-- What DESTINY has computed is lost when the sweep is killed. -/
def losesSimulation (x : JobState) : ℕ := if x.pc.simulates = true then 1 else 0

/-- The worker is about to append the row of a failed design. -/
def appendsRow (x : JobState) : ℕ := if x.pc = .failing then 1 else 0

/-- The row stands in the list and the marker is not there yet. -/
def losesRow (x : JobState) : ℕ := if x.pc = .recorded then 1 else 0

/-- DESTINY need not run for the job any more. -/
def JobState.spent (x : JobState) : ℕ :=
  if x.final_csv.isSome = true ∨ x.marker = true ∨ x.pc.simulates = true then 1 else 0

/-- The failure is on record. -/
def JobState.noted (x : JobState) : ℕ := if x.pc = .recorded ∨ x.marker = true then 1 else 0

section
variable {sim : Simulation} {x y : JobState}

theorem JobState.Sound.spent_step (h : x.Sound sim) (hstep : JobStep sim x y) :
    y.spent = x.spent + startsDestiny x := by
  have hstands := h.stands
  unfold JobState.Stands at hstands
  unfold JobState.spent startsDestiny
  cases hstep with
  | leaves hpc =>
      rename_i a
      cases a <;> simp_all [WorkerPc.simulates]
  | _ => simp_all [WorkerPc.simulates, JobState.Unsettled]

theorem JobState.Sound.noted_step (h : x.Sound sim) (hstep : JobStep sim x y) :
    y.noted = x.noted + appendsRow x := by
  have hstands := h.stands
  unfold JobState.Stands at hstands
  unfold JobState.noted appendsRow
  cases hstep with
  | _ => simp_all [JobState.Unsettled]

theorem JobState.Sound.spent_queue (h : x.Sound sim) :
    { x with pc := .queued }.spent + losesSimulation x = x.spent := by
  have hstands := h.stands
  unfold JobState.Stands at hstands
  unfold JobState.spent losesSimulation
  by_cases hpc : x.pc.simulates = true
  · -- a job that is being simulated is not settled
    have hopen : x.Unsettled := by
      revert hpc
      unfold WorkerPc.simulates
      split <;> intro hpc <;> simp_all
    simp [hpc, hopen.1, hopen.2]
  · simp [hpc]

theorem JobState.Sound.noted_queue (h : x.Sound sim) :
    { x with pc := .queued }.noted + losesRow x = x.noted := by
  have hstands := h.stands
  unfold JobState.noted losesRow
  by_cases hpc : x.pc = .recorded
  · simp only [JobState.Stands, hpc] at hstands
    simp [hpc, hstands.1.2]
  · simp [hpc]

/-- At the end of a call DESTINY need not run again, or the call has raised. -/
theorem JobState.Sound.spent_returned (h : x.Sound sim) {a : Answer} (hpc : x.pc = .returned a) :
    x.spent = 1 := by
  have hstands := h.stands
  simp only [JobState.Stands, hpc] at hstands
  unfold JobState.spent
  cases a <;> simp_all [WorkerPc.simulates]

theorem JobState.Sound.noted_returned (h : x.Sound sim) {a : Answer} (hpc : x.pc = .returned a) :
    x.noted = if sim.verdict = .failure then 1 else 0 := by
  have hanswer := h.answer_eq hpc
  have hstands := h.stands
  simp only [JobState.Stands, hpc] at hstands
  unfold JobState.noted
  cases hverdict : sim.verdict with
  | failure =>
      rw [hverdict] at hanswer
      subst hanswer
      simp only [Verdict.answer] at hstands
      simp [hstands]
  | success df =>
      have hmarker : x.marker = false := by
        by_contra hmarked
        rw [(h.marker (Bool.not_eq_false _ ▸ hmarked)).1] at hverdict
        cases hverdict
      simp [hpc, hmarker]
  | raises =>
      rw [hverdict] at hanswer
      subst hanswer
      simp [hpc, hstands.1.2]

end

/-- The rows of a job are those its workers have appended. -/
theorem count_failed (hrun : exec (sweepStep simulate) as .start = some s) (j : J) :
    s.failed.count j = tally (sweepStep simulate) (workWeight j appendsRow) as .start := by
  have hbalance : _ + tally _ (fun _ _ => 0) _ _ =
      SweepState.start.failed.count j + tally _ (workWeight j appendsRow) _ _ :=
    exec_balance (I := SweepState.Sound simulate) (f := fun s => s.failed.count j)
      (fun _ _ _ h hstep => h.step hstep) (fun s a t hs hstep => ?_)
      (SweepState.sound_start simulate) hrun
  · rw [tally_zero] at hbalance
    simpa [SweepState.start] using hbalance
  · cases a with
    | work i =>
        obtain ⟨x, -, -, hfailed⟩ := hs.work hstep
        simp only [workWeight, appendsRow, hfailed]
        by_cases hpc : (s.jobs i).pc = .failing
        · rcases eq_or_ne i j with rfl | hne
          · simp [hpc]
          · simp [hpc, hne]
        · rcases eq_or_ne i j with rfl | hne
          · simp [hpc]
          · simp [hpc, hne]
    | restart =>
        obtain rfl := Option.some.inj hstep
        rfl

/-- In a run that ends, DESTINY has run once for a job and once more for each time the
    sweep was killed before the job was settled; a failed job has one row, and one more for
    each time the sweep was killed between the row and the marker. -/
theorem work_of_job (hrun : exec (sweepStep simulate) as .start = some s) (hdone : s.Done) (j : J) :
    tally (sweepStep simulate) (workWeight j startsDestiny) as .start =
        1 + tally (sweepStep simulate) (restartWeight j losesSimulation) as .start ∧
      s.failed.count j = (if (simulate j).verdict = .failure then 1 else 0) +
        tally (sweepStep simulate) (restartWeight j losesRow) as .start := by
  have hsound := SweepState.sound_of_exec hrun
  obtain ⟨a, ha⟩ := hdone j
  constructor
  · have hspent := job_balance (fun _ _ h hstep => h.spent_step hstep)
      (fun _ h => h.spent_queue) hrun (j := j)
    rw [(hsound j).spent_returned ha] at hspent
    have hfresh : JobState.fresh.spent = 0 := rfl
    omega
  · have hnoted := job_balance (fun _ _ h hstep => h.noted_step hstep)
      (fun _ h => h.noted_queue) hrun (j := j)
    rw [(hsound j).noted_returned ha] at hnoted
    have hfresh : JobState.fresh.noted = 0 := rfl
    rw [count_failed hrun j]
    omega

end

theorem work_of_job_killed_once :
    ∃ s, exec (sweepStep twoJobs) killedOnce .start = some s ∧ s.Done ∧
      tally (sweepStep twoJobs) (workWeight false startsDestiny) killedOnce .start = 2 ∧
      s.failed.count false = 2 := by
  obtain ⟨s, hrun, hdone⟩ := killedOnce_done
  obtain ⟨hstarts, hrows⟩ := work_of_job hrun hdone false
  exact ⟨s, hrun, hdone, hstarts, hrows⟩

end Destiny.Sweep
