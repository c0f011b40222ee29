import SemanticMemory.Basic
import SemanticMemory.Lib.Runs

/-!
# The worker loop and its quiescence

`_run` of the delta machine, of the staging machine and of the publisher (`daemon/delta.py`,
`daemon/staging.py`, `daemon/publish.py`) is one loop over three `Event`s, and the three machines
have the same `request_stop`, `start` and `wait_idle`; the delta machine has `rebuild` besides.

* The worker stands at a `WorkerPc`; a test, a set or a clear of an event is one step.  A wait for
  the wake event also ends by its timeout, so it may end at any moment.
* `idle_at` is what the idle flag means at each place: it is down while a cycle runs, and once it is
  seen up after a stop, the only place from which a cycle can still begin is the one between the
  test of the stop flag and the clearing of the idle flag.
* `worker_quiesced` says that `wait_idle` tells the truth exactly when the worker does not stand
  there.
-/

namespace SemanticMemory
namespace Builders

/-- The machines with a worker. -/
inductive Builder where
  | delta | staging | publisher
  deriving DecidableEq

/-- The places of `_run`. -/
inductive WorkerPc where
  /-- `while not self._closed`. -/
  | top
  | testStop
  | setIdle
  | parked
  | clearParkedWake
  | clearIdle
  /-- Inside `_cycle`. -/
  | cycle
  | waiting
  | clearWake
  | exited
  deriving DecidableEq

/-- A machine's events and its worker. -/
structure Worker where
  stop : Bool := false
  idle : Bool := false
  wake : Bool := false
  closed : Bool := false
  pc : WorkerPc := .top

/-- The machine as its constructor leaves it; without a worker it counts as idle. -/
def Worker.created (startWorker : Bool) : Worker :=
  if startWorker then {} else { idle := true, pc := .exited }

/-- The worker takes one step.  However a cycle ends, its exceptions are contained. -/
def Worker.advance (w : Worker) : Worker :=
  match w.pc with
  | .top => { w with pc := if w.closed then .exited else .testStop }
  | .testStop => { w with pc := if w.stop then .setIdle else .clearIdle }
  | .setIdle => { w with idle := true, pc := .parked }
  | .parked => { w with pc := .clearParkedWake }
  | .clearParkedWake => { w with wake := false, pc := .top }
  | .clearIdle => { w with idle := false, pc := .cycle }
  | .cycle => { w with pc := .waiting }
  | .waiting => { w with pc := .clearWake }
  | .clearWake => { w with wake := false, pc := .top }
  | .exited => w

/-- The steps of the worker and of the methods that other threads call. -/
inductive WorkerAction where
  | worker
  /-- `_stop_event.set()` of `request_stop` and of `close`. -/
  | requestStop
  /-- `_stop_event.clear()` of `start`. -/
  | start
  /-- `_stop_event.clear()` of `rebuild`. -/
  | rebuild
  /-- `_wake_event.set()`. -/
  | wake
  /-- `close` sets `_closed`. -/
  | close

def Worker.step (builder : Builder) (w : Worker) : WorkerAction → Worker
  | .worker => w.advance
  | .requestStop => { w with stop := true }
  | .start => { w with stop := false }
  | .rebuild => if builder = .delta then { w with stop := false } else w
  | .wake => { w with wake := true }
  | .close => { w with closed := true }

/-- What `wait_idle` returns if it is answered now. -/
def Worker.waitIdle (w : Worker) : Bool := w.idle

/-- A call that lets a stopped worker run again. -/
def WorkerAction.resumes : WorkerAction → Bool
  | .start | .rebuild => true
  | _ => false

section Quiescence

variable {builder : Builder} {w : Worker}

/-- While a cycle runs the idle flag is down. -/
theorem idle_at (h : w.pc = .cycle → w.idle = false) (a : WorkerAction) :
    (w.step builder a).pc = .cycle → (w.step builder a).idle = false := by
  cases a with
  | worker =>
    show w.advance.pc = .cycle → w.advance.idle = false
    unfold Worker.advance
    cases hpc : w.pc with
    | clearIdle => exact fun _ => rfl
    | top => cases hclosed : w.closed <;> exact nofun
    | testStop => cases hstop : w.stop <;> exact nofun
    | exited => exact fun h => absurd (hpc ▸ h) (by decide)
    | _ => exact nofun
  | rebuild =>
    show (if builder = .delta then { w with stop := false } else w).pc = .cycle → _
    unfold Worker.step
    split <;> exact h
  | _ => exact h

theorem idle_run (startWorker : Bool) (acts : List WorkerAction) :
    (Runs.run (Worker.step builder) (.created startWorker) acts).pc = .cycle →
      (Runs.run (Worker.step builder) (.created startWorker) acts).idle = false :=
  Runs.run_invariant (I := fun w : Worker => w.pc = .cycle → w.idle = false)
    (fun _ a h => idle_at h a) (by cases startWorker <;> exact nofun) acts

/-- The worker is stopped and on its way to park, or parked. -/
def Stopped (w : Worker) : Prop :=
  w.stop = true ∧ w.pc ≠ .clearIdle ∧ w.pc ≠ .cycle

/-- A stopped worker stays stopped until it is told to run again. -/
theorem stopped_step (h : Stopped w) {a : WorkerAction} (ha : a.resumes = false) :
    Stopped (w.step builder a) := by
  obtain ⟨hstop, hclear, hcycle⟩ := h
  cases a with
  | worker =>
    show Stopped w.advance
    unfold Worker.advance
    cases hpc : w.pc with
    | clearIdle => exact absurd hpc hclear
    | cycle => exact absurd hpc hcycle
    | top => cases hclosed : w.closed <;> exact ⟨hstop, by simp, by simp⟩
    | testStop => exact ⟨hstop, by simp [hstop], by simp [hstop]⟩
    | exited => exact ⟨hstop, by simp [hpc], by simp [hpc]⟩
    | _ => exact ⟨hstop, by simp, by simp⟩
  | requestStop => exact ⟨rfl, hclear, hcycle⟩
  | start => cases ha
  | rebuild => cases ha
  | wake => exact ⟨hstop, hclear, hcycle⟩
  | close => exact ⟨hstop, hclear, hcycle⟩

theorem stopped_run (h : Stopped w) {acts : List WorkerAction}
    (hacts : ∀ a ∈ acts, a.resumes = false) : Stopped (Runs.run (Worker.step builder) w acts) :=
  Runs.run_invariant_along (I := Stopped) (fun _ _ ha h => stopped_step h ha) h
    (Runs.along_of_mem hacts w)

/-- The stop flag stays up until the worker is told to run again. -/
theorem stop_run (h : w.stop = true) {acts : List WorkerAction}
    (hacts : ∀ a ∈ acts, a.resumes = false) :
    (Runs.run (Worker.step builder) w acts).stop = true := by
  refine Runs.run_invariant_along (I := fun w : Worker => w.stop = true) (fun w a ha h => ?_) h
    (Runs.along_of_mem hacts w)
  cases a with
  | worker =>
    show w.advance.stop = true
    unfold Worker.advance
    split <;> exact h
  | requestStop => rfl
  | start => cases ha
  | rebuild => cases ha
  | wake => exact h
  | close => exact h

/-- **Quiesce means idle, but for one place.**  A stop is requested at any moment of any run, and
nobody starts the worker again.  If `wait_idle` is answered when the idle flag is up, then no cycle
runs and none begins later if and only if the worker does not stand between its test of the stop
flag and the clearing of the idle flag. -/
theorem worker_quiesced (builder : Builder) (startWorker : Bool)
    (before between : List WorkerAction) (hbetween : ∀ a ∈ between, a.resumes = false)
    (hidle : (Runs.run (Worker.step builder) (.created startWorker)
      (before ++ .requestStop :: between)).waitIdle = true) :
    (∀ later : List WorkerAction, (∀ a ∈ later, a.resumes = false) →
      (Runs.run (Worker.step builder) (.created startWorker)
        (before ++ .requestStop :: between ++ later)).pc ≠ .cycle) ↔
    (Runs.run (Worker.step builder) (.created startWorker)
      (before ++ .requestStop :: between)).pc ≠ .clearIdle := by
  have hrun : (Runs.run (Worker.step builder) (.created startWorker)
      (before ++ .requestStop :: between)).pc = .cycle → _ := idle_run startWorker _
  have hstop : (Runs.run (Worker.step builder) (.created startWorker)
      (before ++ .requestStop :: between)).stop = true := by
    rw [Runs.run_append, Runs.run_cons]
    exact stop_run rfl hbetween
  generalize hw : Runs.run (Worker.step builder) (.created startWorker)
    (before ++ .requestStop :: between) = w at hrun hstop hidle ⊢
  constructor
  · intro h hpc
    refine h [.worker] (by simp [WorkerAction.resumes]) ?_
    rw [Runs.run_append, hw]
    show w.advance.pc = .cycle
    unfold Worker.advance
    rw [hpc]
  · intro hpc later hlater
    have hcycle : w.pc ≠ .cycle := fun h => Bool.noConfusion ((hrun h).symm.trans hidle)
    rw [Runs.run_append, hw]
    exact (stopped_run ⟨hstop, hpc, hcycle⟩ hlater).2.2

/-- A stop that finds the worker waiting after its first cycle. -/
theorem worker_quiesced_sample :
    (∀ later : List WorkerAction, (∀ a ∈ later, a.resumes = false) →
      (Runs.run (Worker.step .delta) (.created true)
        (List.replicate 4 .worker ++ .requestStop :: List.replicate 5 .worker ++ later)).pc ≠
          .cycle) ↔
    (Runs.run (Worker.step .delta) (.created true)
      (List.replicate 4 .worker ++ .requestStop :: List.replicate 5 .worker)).pc ≠ .clearIdle :=
  worker_quiesced .delta true (List.replicate 4 .worker) (List.replicate 5 .worker)
    (by decide) (by decide)

/-- A worker that is parked, started, and stopped again when it has just tested its stop flag. -/
def restopped : List WorkerAction :=
  .requestStop :: List.replicate 3 .worker ++ .start :: List.replicate 4 .worker

/-- **A stop shortly after a start.**  The idle flag is left over from the previous park, so
`wait_idle` returns at once; the cycle begins afterwards. -/
theorem worker_not_quiesced :
    ¬ ∀ (builder : Builder) (startWorker : Bool) (before between : List WorkerAction),
      (∀ a ∈ between, a.resumes = false) →
      (Runs.run (Worker.step builder) (.created startWorker)
        (before ++ .requestStop :: between)).waitIdle = true →
      ∀ later : List WorkerAction, (∀ a ∈ later, a.resumes = false) →
        (Runs.run (Worker.step builder) (.created startWorker)
          (before ++ .requestStop :: between ++ later)).pc ≠ .cycle := fun h =>
  h .delta true restopped [] (by decide) (by decide) (List.replicate 1 .worker) (by decide)
    (by decide)

end Quiescence

end Builders
end SemanticMemory
