/-
  Destiny.Sweep.AppendRow

  Worker processes that append rows to one CSV file (`_append_row_to_csv`).

  A call decides whether to write the header before it opens the file and takes
  the lock, and its lines reach the file when the file is closed, after the lock
  is released; so the lock orders nothing that matters.  The file of a complete
  run is right exactly when every step of the run is orderly
  (`complete_iff_orderly`): no call tests for the file while another call is
  about to create it, and no row without a header is flushed to the empty file.
-/

import Destiny.Lib.Interleaving
import Mathlib.Algebra.Order.BigOperators.Group.Finset
import Mathlib.Algebra.Order.Group.Multiset

namespace Destiny

open Lib

/-! ## Calls and workers -/

/-- A line of the CSV file; all rows have the same keys, so there is one header. -/
inductive CsvLine (R : Type) where
  | header
  | row (r : R)
  deriving DecidableEq

/-- Where a worker stands in `_append_row_to_csv`. -/
inductive AppendPc where
  | idle
  /-- after `os.path.exists` -/
  | tested
  /-- after `open(csv_path, "a")` -/
  | opened
  /-- after `flock(f, LOCK_EX)` -/
  | locked
  /-- the lines are in the buffer -/
  | written
  /-- after `flock(f, LOCK_UN)` -/
  | unlocked
  deriving DecidableEq

/-- A worker process: the rows of its remaining calls, the one under way first. -/
structure Worker (R : Type) where
  pc : AppendPc
  writeHeader : Bool
  buffer : List (CsvLine R)
  calls : List R
  deriving DecidableEq

/-- The file, none before it is created, its lock and the workers. -/
structure AppendState (W R : Type) where
  file : Option (List (CsvLine R))
  lock : Option W
  workers : W → Worker R

section
variable {W R : Type} [DecidableEq W]

/-- What `csv.DictWriter` puts into the buffer. -/
def csvLines (writeHeader : Bool) (r : R) : List (CsvLine R) :=
  if writeHeader then [.header, .row r] else [.row r]

def AppendState.setWorker (s : AppendState W R) (w : W) (x : Worker R) : AppendState W R :=
  { s with workers := Function.update s.workers w x }

/-- The next atomic step of a worker; waiting for the lock is no step. -/
def appendRowToCsv (s : AppendState W R) (w : W) : Option (AppendState W R) :=
  let x := s.workers w
  match x.pc, x.calls with
  | _, [] => none
  | .idle, _ => some (s.setWorker w { x with pc := .tested, writeHeader := s.file.isNone })
  | .tested, _ =>
      some { s.setWorker w { x with pc := .opened } with file := some (s.file.getD []) }
  | .opened, _ =>
      if s.lock = none then some { s.setWorker w { x with pc := .locked } with lock := some w }
      else none
  | .locked, r :: _ =>
      some (s.setWorker w { x with pc := .written, buffer := csvLines x.writeHeader r })
  | .written, _ => some { s.setWorker w { x with pc := .unlocked } with lock := none }
  | .unlocked, _ :: rest =>
      some { s.setWorker w { x with pc := .idle, buffer := [], calls := rest } with
        file := some (s.file.getD [] ++ x.buffer) }

/-- No file, and every worker before its first call. -/
def AppendState.start (calls : W → List R) : AppendState W R where
  file := none
  lock := none
  workers w := { pc := .idle, writeHeader := false, buffer := [], calls := calls w }

/-- Every call has returned. -/
def AppendState.Done (s : AppendState W R) : Prop :=
  ∀ w, (s.workers w).pc = .idle ∧ (s.workers w).calls = []

/-- One header line, first, and one row for each call; no file without calls. -/
def FileComplete [Fintype W] (calls : W → List R) : Option (List (CsvLine R)) → Prop
  | none => ∑ w, (calls w : Multiset R) = 0
  | some lines => ∃ rows : List R, lines = .header :: rows.map .row ∧
      (rows : Multiset R) = ∑ w, (calls w : Multiset R)

/-! ## Orderly steps -/

/-- A call that has tested for the file and not yet flushed its lines. -/
def Worker.inFlight (x : Worker R) : Bool := x.pc != .idle

/-- No test for a missing file while another call is under way, and no flush of
    a row alone to the empty file. -/
def AppendState.Orderly (s : AppendState W R) (w : W) : Prop :=
  match (s.workers w).pc with
  | .idle => s.file = none → ∀ v, (s.workers v).inFlight = false
  | .unlocked => s.file = some [] → (s.workers w).writeHeader = true
  | _ => True

/-! ## One step -/

/-- What a step of a worker does. -/
inductive AppendStep (s : AppendState W R) (w : W) : AppendState W R → Prop
  | test (hpc : (s.workers w).pc = .idle) :
      AppendStep s w
        (s.setWorker w { s.workers w with pc := .tested, writeHeader := s.file.isNone })
  | create (hpc : (s.workers w).pc = .tested) :
      AppendStep s w
        { s.setWorker w { s.workers w with pc := .opened } with file := some (s.file.getD []) }
  | lock (hpc : (s.workers w).pc = .opened) :
      AppendStep s w { s.setWorker w { s.workers w with pc := .locked } with lock := some w }
  | write (hpc : (s.workers w).pc = .locked) {r : R} {rest : List R}
      (hcalls : (s.workers w).calls = r :: rest) :
      AppendStep s w (s.setWorker w
        { s.workers w with pc := .written, buffer := csvLines (s.workers w).writeHeader r })
  | unlock (hpc : (s.workers w).pc = .written) :
      AppendStep s w { s.setWorker w { s.workers w with pc := .unlocked } with lock := none }
  | flush (hpc : (s.workers w).pc = .unlocked) {r : R} {rest : List R}
      (hcalls : (s.workers w).calls = r :: rest) :
      AppendStep s w
        { s.setWorker w { s.workers w with pc := .idle, buffer := [], calls := rest } with
          file := some (s.file.getD [] ++ (s.workers w).buffer) }

theorem appendStep_of_step {s t : AppendState W R} {w : W} (h : appendRowToCsv s w = some t) :
    AppendStep s w t := by
  rw [appendRowToCsv] at h
  split at h
  · cases h
  · next hpc _ =>
    obtain rfl := Option.some.inj h
    exact .test hpc
  · next hpc _ =>
    obtain rfl := Option.some.inj h
    exact .create hpc
  · next hpc _ =>
    split at h
    · obtain rfl := Option.some.inj h
      exact .lock hpc
    · cases h
  · next hpc hcalls =>
    obtain rfl := Option.some.inj h
    exact .write hpc hcalls
  · next hpc _ =>
    obtain rfl := Option.some.inj h
    exact .unlock hpc
  · next hpc hcalls =>
    obtain rfl := Option.some.inj h
    exact .flush hpc hcalls

/-- Only the worker of a step changes. -/
theorem AppendStep.workers {s t : AppendState W R} {w : W} (h : AppendStep s w t) :
    t.workers = Function.update s.workers w (t.workers w) := by
  cases h <;> simp [AppendState.setWorker]

/-! ## Rows and headers of a run -/

def CsvLine.row? : CsvLine R → Option R
  | .header => none
  | .row r => some r

def CsvLine.isHeader : CsvLine R → Bool
  | .header => true
  | .row _ => false

def rowsOf (lines : List (CsvLine R)) : Multiset R := (lines.filterMap CsvLine.row? : List R)

def headersOf (lines : List (CsvLine R)) : Nat := lines.countP CsvLine.isHeader

theorem rowsOf_append (lines more : List (CsvLine R)) :
    rowsOf (lines ++ more) = rowsOf lines + rowsOf more := by
  rw [rowsOf, List.filterMap_append, ← Multiset.coe_add]
  rfl

theorem rowsOf_csvLines (writeHeader : Bool) (r : R) : rowsOf (csvLines writeHeader r) = {r} := by
  cases writeHeader <;> rfl

theorem headersOf_csvLines (writeHeader : Bool) (r : R) :
    headersOf (csvLines writeHeader r) = if writeHeader then 1 else 0 := by
  cases writeHeader <;> rfl

@[simp] theorem rowsOf_header_map (rows : List R) :
    rowsOf (.header :: rows.map .row) = (rows : Multiset R) := by
  have hrow : (CsvLine.row? ∘ CsvLine.row : R → Option R) = some := rfl
  rw [rowsOf, List.filterMap_cons_none rfl, List.filterMap_map, hrow, List.filterMap_some]

theorem headersOf_header_map (rows : List R) : headersOf (.header :: rows.map .row) = 1 := by
  have hnone : (rows.map CsvLine.row).countP CsvLine.isHeader = 0 := by
    rw [List.countP_eq_zero]
    intro x hx
    obtain ⟨r, -, rfl⟩ := List.mem_map.mp hx
    exact Bool.false_ne_true
  rw [headersOf, List.countP_cons_of_pos rfl, hnone]

/-- The header a worker has decided to write and not yet flushed. -/
def Worker.headers (x : Worker R) : Nat := if x.inFlight && x.writeHeader then 1 else 0

section
variable [Fintype W] {calls : W → List R} {s t : AppendState W R} {w : W}

/-- The rows of the calls that have not returned. -/
def AppendState.pending (s : AppendState W R) : Multiset R :=
  ∑ w, ((s.workers w).calls : Multiset R)

/-- The headers in the file and those to come. -/
def AppendState.headers (s : AppendState W R) : Nat :=
  headersOf (s.file.getD []) + ∑ w, (s.workers w).headers

/-- What holds in every run: the buffer of a worker that has written is that of
    its call, only calls that found no file are under way while there is none,
    and every row is in the file or pending. -/
structure AppendState.Consistent (calls : W → List R) (s : AppendState W R) : Prop where
  buffer : ∀ w, (s.workers w).pc = .written ∨ (s.workers w).pc = .unlocked →
    ∀ r rest, (s.workers w).calls = r :: rest →
      (s.workers w).buffer = csvLines (s.workers w).writeHeader r
  missing : s.file = none → ∀ w, (s.workers w).inFlight = true →
    (s.workers w).pc = .tested ∧ (s.workers w).writeHeader = true
  rows : rowsOf (s.file.getD []) + s.pending = ∑ w, (calls w : Multiset R)

omit [DecidableEq W] in
theorem AppendState.consistent_start (calls : W → List R) :
    (AppendState.start calls).Consistent calls where
  buffer w h := by
    rcases h with h | h <;> cases h
  missing _ w h := by cases h
  rows := zero_add _

/-- A step changes the sum over all workers by what it changes of one. -/
theorem AppendStep.sum {M : Type} [AddCommMonoid M] (h : AppendStep s w t) (f : Worker R → M) :
    f (s.workers w) + ∑ v, f (t.workers v) = f (t.workers w) + ∑ v, f (s.workers v) := by
  rw [h.workers, Function.update_self]
  exact sum_update f s.workers w (t.workers w)

omit [Fintype W] in
theorem AppendStep.worker (h : AppendStep s w t) {P : W → Worker R → Prop}
    (hs : ∀ v, P v (s.workers v)) (hw : P w (t.workers w)) (v : W) : P v (t.workers v) := by
  rw [h.workers]
  revert v
  rw [Function.forall_update_iff]
  exact ⟨hw, fun v _ => hs v⟩

/-- Every row is in the file or pending. -/
theorem AppendState.Consistent.rows_step (h : s.Consistent calls) (hstep : AppendStep s w t) :
    rowsOf (t.file.getD []) + t.pending = ∑ w, (calls w : Multiset R) := by
  have hsum := hstep.sum fun x => (x.calls : Multiset R)
  rw [← h.rows]
  cases hstep with
  | flush hpc hcalls =>
      have hbuffer := h.buffer w (Or.inr hpc) _ _ hcalls
      simp only [AppendState.setWorker, Function.update_self, hcalls] at hsum
      show rowsOf (s.file.getD [] ++ (s.workers w).buffer) + _ = _
      rw [rowsOf_append, hbuffer, rowsOf_csvLines, add_assoc]
      congr 1
      rw [← Multiset.cons_coe, ← Multiset.singleton_add, add_right_comm,
        add_comm _ (_ : Multiset R)] at hsum
      exact add_left_cancel hsum
  | _ =>
      simp only [AppendState.setWorker, Function.update_self] at hsum
      congr 1
      exact add_left_cancel hsum

theorem AppendState.Consistent.step (h : s.Consistent calls) (hstep : AppendStep s w t) :
    t.Consistent calls := by
  refine ⟨hstep.worker (P := fun _ x => x.pc = .written ∨ x.pc = .unlocked →
    ∀ r rest, x.calls = r :: rest → x.buffer = csvLines x.writeHeader r) h.buffer ?_, ?_,
    h.rows_step hstep⟩
  · have hold := h.buffer w
    cases hstep with
    | unlock hpc => simpa [AppendState.setWorker] using hold (Or.inl hpc)
    | write hpc hcalls => simp [AppendState.setWorker, hcalls]
    | _ => simp [AppendState.setWorker]
  · intro hnone
    have hmissing : s.file = none := by
      cases hstep <;> first | exact hnone | cases hnone
    refine hstep.worker (P := fun _ x => x.inFlight = true → x.pc = .tested ∧ x.writeHeader = true)
      (h.missing hmissing) ?_
    have hold := h.missing hmissing w
    cases hstep <;> simp_all [AppendState.setWorker, Worker.inFlight]

/-- A header is decided at the test and stays. -/
theorem AppendState.Consistent.headers_step (h : s.Consistent calls) (hstep : AppendStep s w t) :
    t.headers = s.headers +
      if (s.workers w).pc = .idle ∧ s.file.isNone = true then 1 else 0 := by
  have hsum := hstep.sum Worker.headers
  rw [AppendState.headers, AppendState.headers]
  cases hstep with
  | flush hpc hcalls =>
      -- The header moves from the worker to the file.
      have hbuffer := h.buffer w (Or.inr hpc) _ _ hcalls
      have happend : headersOf (s.file.getD [] ++ (s.workers w).buffer) =
          headersOf (s.file.getD []) + if (s.workers w).writeHeader then 1 else 0 := by
        rw [hbuffer, ← headersOf_csvLines]
        exact List.countP_append
      simp only [AppendState.setWorker, Function.update_self, Worker.headers, Worker.inFlight, hpc]
        at hsum ⊢
      show headersOf (s.file.getD [] ++ (s.workers w).buffer) + _ = _
      rw [happend]
      simp at hsum ⊢
      omega
  | test hpc =>
      simp [AppendState.setWorker, Worker.headers, Worker.inFlight, hpc] at hsum ⊢
      omega
  | create hpc | lock hpc | write hpc | unlock hpc =>
      simp [AppendState.setWorker, Worker.headers, Worker.inFlight, hpc] at hsum ⊢
      omega

/-! ## Orderly runs -/

/-- How far the header is: nobody but one call is under way and there is no
    file; one call is to write it to the empty file; it is in the file. -/
inductive HeaderStage (s : AppendState W R) : Prop
  | missing (hfile : s.file = none)
      (hone : ∀ v w, (s.workers v).inFlight = true → (s.workers w).inFlight = true → v = w)
  | empty (hfile : s.file = some []) (writer : W) (hflight : (s.workers writer).inFlight = true)
      (hwriter : (s.workers writer).writeHeader = true)
      (hothers : ∀ v, v ≠ writer → (s.workers v).inFlight = true →
        (s.workers v).writeHeader = false)
  | written (rows : List R) (hfile : s.file = some (.header :: rows.map .row))
      (hothers : ∀ v, (s.workers v).inFlight = true → (s.workers v).writeHeader = false)

omit [Fintype W] in
/-- Between its test and its flush a call keeps what it decided. -/
theorem AppendStep.flags (hstep : AppendStep s w t) (hidle : (s.workers w).pc ≠ .idle)
    (hflush : (s.workers w).pc ≠ .unlocked) (v : W) :
    (t.workers v).inFlight = (s.workers v).inFlight ∧
      (t.workers v).writeHeader = (s.workers v).writeHeader := by
  by_cases hv : v = w
  · subst hv
    cases hstep with
    | test hpc => exact absurd hpc hidle
    | flush hpc => exact absurd hpc hflush
    | create hpc | lock hpc | write hpc | unlock hpc =>
        simp [AppendState.setWorker, Worker.inFlight, hpc]
        rfl
  · rw [hstep.workers, Function.update_of_ne hv]
    exact ⟨rfl, rfl⟩

omit [Fintype W] [DecidableEq W] in
theorem HeaderStage.congr (h : HeaderStage s) (hfile : t.file = s.file)
    (hflags : ∀ v, (t.workers v).inFlight = (s.workers v).inFlight ∧
      (t.workers v).writeHeader = (s.workers v).writeHeader) : HeaderStage t := by
  cases h with
  | missing hnone hone =>
      refine .missing (hfile.trans hnone) fun v w hv hw => hone v w ?_ ?_
      · rwa [← (hflags v).1]
      · rwa [← (hflags w).1]
  | empty hempty writer hflight hwriter hothers =>
      refine .empty (hfile.trans hempty) writer ?_ ?_ fun v hv hflight => ?_
      · rwa [(hflags writer).1]
      · rwa [(hflags writer).2]
      · rw [(hflags v).1] at hflight
        rw [(hflags v).2]
        exact hothers v hv hflight
  | written rows hrows hothers =>
      refine .written rows (hfile.trans hrows) fun v hflight => ?_
      rw [(hflags v).1] at hflight
      rw [(hflags v).2]
      exact hothers v hflight

omit [Fintype W] in
/-- The test of a call. -/
theorem HeaderStage.test (h : HeaderStage s) (horderly : s.Orderly w)
    (hpc : (s.workers w).pc = .idle) :
    HeaderStage
      (s.setWorker w { s.workers w with pc := .tested, writeHeader := s.file.isNone }) := by
  let t := s.setWorker w { s.workers w with pc := .tested, writeHeader := s.file.isNone }
  have hself : (t.workers w).writeHeader = s.file.isNone := by
    simp [t, AppendState.setWorker]
  have hother : ∀ v, v ≠ w → t.workers v = s.workers v := fun v hv => Function.update_of_ne hv _ _
  have hidle : (s.workers w).inFlight = false := by simp [Worker.inFlight, hpc]
  cases h with
  | missing hnone hone =>
      -- Nobody else is under way, so the call is the only one.
      have hnobody : ∀ v, (s.workers v).inFlight = false := by
        rw [AppendState.Orderly, hpc] at horderly
        exact horderly hnone
      have honly : ∀ v, (t.workers v).inFlight = true → v = w := by
        intro v hv
        by_contra hne
        rw [hother v hne, hnobody v] at hv
        cases hv
      exact .missing hnone fun v u hv hu => (honly v hv).trans (honly u hu).symm
  | empty hempty writer hflight hwriter hothers =>
      have hne : writer ≠ w := by
        rintro rfl
        rw [hidle] at hflight
        cases hflight
      refine .empty hempty writer ?_ ?_ fun v hv hvflight => ?_
      · rwa [hother writer hne]
      · rwa [hother writer hne]
      · by_cases hvw : v = w
        · rw [hvw, hself, hempty]
          rfl
        · rw [hother v hvw] at hvflight ⊢
          exact hothers v hv hvflight
  | written rows hrows hothers =>
      refine .written rows hrows fun v hvflight => ?_
      by_cases hvw : v = w
      · rw [hvw, hself, hrows]
        rfl
      · rw [hother v hvw] at hvflight ⊢
        exact hothers v hvflight

/-- The flush of a call. -/
theorem HeaderStage.flush (h : HeaderStage s) (hs : s.Consistent calls) (horderly : s.Orderly w)
    (hpc : (s.workers w).pc = .unlocked) {r : R} {rest : List R}
    (hcalls : (s.workers w).calls = r :: rest) :
    HeaderStage { s.setWorker w { s.workers w with pc := .idle, buffer := [], calls := rest } with
      file := some (s.file.getD [] ++ (s.workers w).buffer) } := by
  let t : AppendState W R :=
    { s.setWorker w { s.workers w with pc := .idle, buffer := [], calls := rest } with
      file := some (s.file.getD [] ++ (s.workers w).buffer) }
  have hbuffer := hs.buffer w (Or.inr hpc) r rest hcalls
  have hflight : (s.workers w).inFlight = true := by simp [Worker.inFlight, hpc]
  -- The call is over; the others are as before.
  have hothers : ∀ v, (t.workers v).inFlight = true → v ≠ w ∧ t.workers v = s.workers v := by
    intro v hv
    by_cases hvw : v = w
    · subst hvw
      simp [t, AppendState.setWorker, Worker.inFlight] at hv
    · exact ⟨hvw, Function.update_of_ne hvw _ _⟩
  cases h with
  | missing hnone hone =>
      have htested := (hs.missing hnone w hflight).1
      rw [hpc] at htested
      cases htested
  | empty hempty writer hwflight hwriter hrest =>
      rw [AppendState.Orderly, hpc] at horderly
      have hheader := horderly hempty
      have hself : w = writer := by
        by_contra hne
        rw [hrest w hne hflight] at hheader
        cases hheader
      refine .written [r] ?_ fun v hv => ?_
      · show some (s.file.getD [] ++ (s.workers w).buffer) = _
        rw [hbuffer, hheader, hempty]
        rfl
      · obtain ⟨hvw, hsame⟩ := hothers v hv
        show (t.workers v).writeHeader = false
        rw [hsame] at hv ⊢
        exact hrest v (hself ▸ hvw) hv
  | written rows hrows hrest =>
      refine .written (rows ++ [r]) ?_ fun v hv => ?_
      · show some (s.file.getD [] ++ (s.workers w).buffer) = _
        rw [hbuffer, hrest w hflight, hrows]
        simp [csvLines]
      · obtain ⟨-, hsame⟩ := hothers v hv
        show (t.workers v).writeHeader = false
        rw [hsame] at hv ⊢
        exact hrest v hv

/-- An orderly step. -/
theorem HeaderStage.step (h : HeaderStage s) (hs : s.Consistent calls) (horderly : s.Orderly w)
    (hstep : AppendStep s w t) : HeaderStage t := by
  have hflags := hstep.flags
  cases hstep with
  | test hpc => exact h.test horderly hpc
  | flush hpc hcalls => exact h.flush hs horderly hpc hcalls
  | create hpc =>
      have hflags := hflags (by simp [hpc]) (by simp [hpc])
      have hflight : (s.workers w).inFlight = true := by simp [Worker.inFlight, hpc]
      cases hfile : s.file with
      | some lines => exact h.congr (by simp [hfile]) hflags
      | none =>
          -- The only call under way creates the file and is to write the header.
          have hone : ∀ v, (s.workers v).inFlight = true → v = w := by
            cases h with
            | missing _ hone => exact fun v hv => hone v w hv hflight
            | empty hempty => rw [hfile] at hempty; cases hempty
            | written _ hrows => rw [hfile] at hrows; cases hrows
          refine .empty rfl w ?_ ?_ fun v hv hvflight => ?_
          · exact (hflags w).1.trans hflight
          · exact (hflags w).2.trans (hs.missing hfile w hflight).2
          · exact absurd (hone v ((hflags v).1.symm.trans hvflight)) hv
  | lock hpc | write hpc | unlock hpc =>
      exact h.congr rfl (hflags (by simp [hpc]) (by simp [hpc]))

/-! ## Complete runs -/

omit [Fintype W] in
/-- A row alone at the top of the file stays there. -/
theorem AppendStep.startsWithRow {r : R} {rest : List (CsvLine R)} (hstep : AppendStep s w t)
    (hfile : s.file = some (.row r :: rest)) : ∃ rest', t.file = some (.row r :: rest') := by
  cases hstep with
  | test hpc | lock hpc | write hpc | unlock hpc => exact ⟨rest, hfile⟩
  | create hpc => exact ⟨rest, by simp [hfile]⟩
  | flush hpc => exact ⟨rest ++ (s.workers w).buffer, by simp [hfile]⟩

/-- A step that is not orderly spoils the file: a second header is on its way, or
    the file starts with a row. -/
theorem AppendState.Consistent.not_orderly (h : s.Consistent calls) (horderly : ¬ s.Orderly w)
    (hstep : AppendStep s w t) :
    2 ≤ t.headers ∨ ∃ r rest, t.file = some (.row r :: rest) := by
  have hheaders := h.headers_step hstep
  -- only two actions can be out of order: the test and the flush of the buffer
  cases hstep with
  | test hpc =>
      left
      rw [AppendState.Orderly, hpc] at horderly
      push Not at horderly
      obtain ⟨hnone, v, hv⟩ := horderly
      have hflight : (s.workers v).inFlight = true := by simpa using hv
      have hone : (s.workers v).headers = 1 := by
        rw [Worker.headers, hflight, (h.missing hnone v hflight).2]
        rfl
      have hle : (s.workers v).headers ≤ ∑ u, (s.workers u).headers :=
        Finset.single_le_sum (f := fun u => (s.workers u).headers) (fun _ _ => Nat.zero_le _)
          (Finset.mem_univ v)
      rw [if_pos ⟨hpc, by rw [hnone]; rfl⟩] at hheaders
      rw [hheaders, AppendState.headers]
      omega
  | @flush hpc r rest hcalls =>
      right
      rw [AppendState.Orderly, hpc] at horderly
      push Not at horderly
      obtain ⟨hempty, hheader⟩ := horderly
      have hbuffer := h.buffer w (Or.inr hpc) r rest hcalls
      rw [Bool.eq_false_iff.mpr hheader] at hbuffer
      refine ⟨r, [], ?_⟩
      show some (s.file.getD [] ++ (s.workers w).buffer) = some [.row r]
      rw [hbuffer, hempty]
      rfl
  | create hpc | lock hpc | write hpc | unlock hpc =>
      rw [AppendState.Orderly, hpc] at horderly
      exact absurd trivial horderly

omit [DecidableEq W] in
/-- When all calls have returned nothing is pending, and the headers are those
    of the file. -/
theorem AppendState.Done.pending (h : s.Done) :
    s.pending = 0 ∧ s.headers = headersOf (s.file.getD []) := by
  constructor
  · apply Finset.sum_eq_zero
    intro v _
    rw [(h v).2]
    rfl
  · have hzero : ∑ v, (s.workers v).headers = 0 := by
      apply Finset.sum_eq_zero
      intro v _
      rw [Worker.headers, Worker.inFlight, (h v).1]
      rfl
    rw [AppendState.headers, hzero, Nat.add_zero]

omit [DecidableEq W] in
/-- The file of a complete run in which every step is orderly. -/
theorem HeaderStage.fileComplete (h : HeaderStage s) (hs : s.Consistent calls) (hdone : s.Done) :
    FileComplete calls s.file := by
  have hrows := hs.rows
  rw [hdone.pending.1, add_zero] at hrows
  cases h with
  | missing hnone =>
      rw [hnone] at hrows ⊢
      exact hrows.symm
  | empty _ writer hflight =>
      rw [Worker.inFlight, (hdone writer).1] at hflight
      cases hflight
  | written rows hfile =>
      rw [hfile] at hrows ⊢
      rw [Option.getD_some, rowsOf_header_map] at hrows
      exact ⟨rows, rfl, hrows⟩

/-- A spoiled file stays spoiled. -/
theorem not_fileComplete (hs : s.Consistent calls)
    (hspoiled : 2 ≤ s.headers ∨ ∃ r rest, s.file = some (.row r :: rest)) {schedule : List W}
    (hrun : exec appendRowToCsv schedule s = some t) (hdone : t.Done) :
    ¬ FileComplete calls t.file := by
  -- what is spoiled stays spoiled: headers do not get fewer, and the first line stays
  have hend : t.Consistent calls ∧
      (2 ≤ t.headers ∨ ∃ r rest, t.file = some (.row r :: rest)) := by
    refine exec_induct (I := fun u => u.Consistent calls ∧
      (2 ≤ u.headers ∨ ∃ r rest, u.file = some (.row r :: rest))) ?_ ⟨hs, hspoiled⟩ hrun
    rintro u v u' ⟨hu, hspoiled⟩ hstep
    have hstep := appendStep_of_step hstep
    refine ⟨hu.step hstep, ?_⟩
    rcases hspoiled with hheaders | ⟨r, rest, hfile⟩
    · left
      have hgrows := hu.headers_step hstep
      omega
    · right
      exact ⟨r, hstep.startsWithRow hfile⟩
  intro hcomplete
  rcases hend.2 with hheaders | ⟨r, rest, hfile⟩
  · rw [hdone.pending.2] at hheaders
    cases hfile : t.file with
    | none =>
        rw [hfile] at hheaders
        exact absurd hheaders (by simp [headersOf])
    | some lines =>
        rw [hfile] at hheaders hcomplete
        obtain ⟨rows, rfl, -⟩ := hcomplete
        rw [Option.getD_some, headersOf_header_map] at hheaders
        omega
  · rw [hfile] at hcomplete
    obtain ⟨rows, hlines, -⟩ := hcomplete
    cases hlines

end

end

/-- For any workers and calls, and any order of the steps: when all calls have
    returned, the file has one header line, first, and one row for each call,
    exactly when every step was orderly. -/
theorem complete_iff_orderly {W R : Type} [Fintype W] [DecidableEq W] (calls : W → List R)
    {schedule : List W} {s : AppendState W R}
    (hrun : exec appendRowToCsv schedule (AppendState.start calls) = some s) (hdone : s.Done) :
    FileComplete calls s.file ↔
      Along appendRowToCsv AppendState.Orderly schedule (AppendState.start calls) := by
  have hstart := AppendState.consistent_start calls
  constructor
  · intro hcomplete
    by_contra hbreaks
    obtain ⟨t, w, u, rest, ht, hnot, hstep, hrest⟩ := exists_of_not_along
      (fun s w t hs hstep => AppendState.Consistent.step hs (appendStep_of_step hstep))
      hstart hrun hbreaks
    have hstep := appendStep_of_step hstep
    exact not_fileComplete (ht.step hstep) (ht.not_orderly hnot hstep) hrest hdone hcomplete
  · intro horderly
    have hend : s.Consistent calls ∧ HeaderStage s := by
      refine exec_induct_along (I := fun s => s.Consistent calls ∧ HeaderStage s) ?_
        ⟨hstart, .missing rfl fun v _ hv => by cases hv⟩ horderly hrun
      rintro s w t ⟨hs, hstage⟩ horderly hstep
      have hstep := appendStep_of_step hstep
      exact ⟨hs.step hstep, hstage.step hs horderly hstep⟩
    exact hend.2.fileComplete hend.1 hdone

/-- Two workers with one call each. -/
def twoWorkers : Bool → List Nat := fun w => if w then [1] else [0]

/-- One worker after the other. -/
def inTurn : List Bool := List.replicate 6 false ++ List.replicate 6 true

/-- Both workers test for the file before either creates it. -/
def bothTest : List Bool := [false, true] ++ List.replicate 5 false ++ List.replicate 5 true

instance {W R : Type} [Fintype W] (s : AppendState W R) : Decidable s.Done :=
  decidable_of_iff (∀ w, (s.workers w).pc = .idle ∧ (s.workers w).calls.isEmpty = true)
    (forall_congr' fun w => by rw [List.isEmpty_iff])

instance {W R : Type} [Fintype W] [DecidableEq R] (s : AppendState W R) (w : W) :
    Decidable (s.Orderly w) :=
  decidable_of_iff
    (((s.workers w).pc = .idle → s.file = none → ∀ v, (s.workers v).inFlight = false) ∧
      ((s.workers w).pc = .unlocked → s.file = some [] → (s.workers w).writeHeader = true))
    (by rw [AppendState.Orderly]; cases (s.workers w).pc <;> simp)

theorem complete_iff_orderly_in_turn : ∃ s : AppendState Bool Nat,
    exec appendRowToCsv inTurn (AppendState.start twoWorkers) = some s ∧ s.Done ∧
      FileComplete twoWorkers s.file := by
  have hvalues : (exec appendRowToCsv inTurn (AppendState.start twoWorkers)).map
      (fun s => decide s.Done) = some true := by decide
  obtain ⟨s, hrun, hdone⟩ := Option.map_eq_some_iff.mp hvalues
  have hdone := of_decide_eq_true hdone
  exact ⟨s, hrun, hdone, (complete_iff_orderly twoWorkers hrun hdone).mpr (by decide +kernel)⟩

/-- The second header stands among the rows. -/
theorem header_twice : ∃ s : AppendState Bool Nat,
    exec appendRowToCsv bothTest (AppendState.start twoWorkers) = some s ∧ s.Done ∧
      ¬ FileComplete twoWorkers s.file := by
  have hvalues : (exec appendRowToCsv bothTest (AppendState.start twoWorkers)).map
      (fun s => (decide s.Done, s.file)) =
        some (true, some [.header, .row 0, .header, .row 1]) := by decide
  obtain ⟨s, hrun, hs⟩ := Option.map_eq_some_iff.mp hvalues
  obtain ⟨hdone, hfile⟩ := Prod.mk.inj hs
  refine ⟨s, hrun, of_decide_eq_true hdone, ?_⟩
  rw [hfile]
  rintro ⟨rows, hlines, -⟩
  have hheaders := congrArg headersOf hlines
  rw [headersOf_header_map] at hheaders
  exact absurd hheaders (by decide)

end Destiny
