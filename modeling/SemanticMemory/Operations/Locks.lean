import SemanticMemory.Operations.Drive

/-!
# The locks of an operation

`OperationStore.mutate` and `_write_record`, `try_run_pending_steps` and `cancel_operation` of
`daemon/operations.py`, over one operation and any number of processes, down to the locks.

* A process is a runner or a canceller.  It may be anywhere between two effects on the files when
  another one goes on, and it may die there, or leave with an exception: its locks are then free,
  and what it has not yet renamed into place is lost.
* `flock` is exclusive: the run lock and the write lock of the record have at most one holder.  A
  runner that does not get the run lock returns, a writer waits for the write lock.
* The record is read without a lock.  What a transform makes of it is written under the write lock,
  if the revision is still the one that was read; the rename is one effect.
* Step functions are not modelled: a step that ends may return or raise anything.
* `returned` and `trail` are histories: what the calls of `mutate` have returned, and which phases
  were executed and left.
-/

namespace SemanticMemory
namespace Operations
namespace Locks

open Runs

variable {π ρ : Type}

/-! ## Processes -/

structure Engine (π ρ : Type) where
  fingerprint : Text → π → Text
  completed : ρ

inductive Role where
  /-- `try_run_pending_steps`. -/
  | runner (invocation : Invocation) (stepsExecuted : ℕ)
  /-- `cancel_operation`. -/
  | canceller

/-- What a `mutate` is called for. -/
inductive Job (ρ : Type) where
  | checkpoint | start | unsupported
  | persist (phase : Phase) (outcome : Outcome ρ)
  | request | blocked

def Role.does : Role → Job ρ → Prop
  | .runner .., .checkpoint | .runner .., .start | .runner .., .unsupported
  | .runner .., .persist .. | .canceller, .request | .canceller, .blocked => True
  | _, _ => False

/-- The claim that a runner writes; a canceller writes none. -/
def Role.invocation : Role → Invocation
  | .runner invocation _ => invocation
  | .canceller => { claim := ⟨0, [], 0⟩ }

def Job.transform (E : Engine π ρ) (role : Role) (now : ℕ) : Job ρ → Transform π ρ
  | .checkpoint => cancelCheckpoint now
  | .start => claimAndStart now role.invocation.claim role.invocation.retryBlocked
  | .unsupported => failUnsupported now role.invocation.claim
  | .persist phase outcome => outcome.transform E.completed now role.invocation.claim phase
  | .request => requestCancel now
  | .blocked => cancelBlocked now

/-- The places inside `mutate`. -/
inductive Mutation (π ρ : Type) where
  | load
  /-- The record that was read, and what the transform has made of it. -/
  | write (base new : Record π ρ)
  | locked (base new : Record π ρ)
  | checked (base new : Record π ρ)
  | renamed (new : Record π ρ)

inductive Place (π ρ : Type) where
  | load
  | ready (phase : Phase)
  | executing (phase : Phase)
  | mutating (job : Job ρ) (attempts : ℕ) (at_ : Mutation π ρ)

structure Proc (π ρ : Type) where
  role : Role
  place : Place π ρ

/-- `attempts` of `mutate`. -/
def mutateAttempts : ℕ := 64

/-! ## The system -/

/-- What has happened to a phase. -/
inductive Mark where
  | started (phase : Phase)
  /-- A record with the next phase was persisted. -/
  | advanced (phase : Phase)

structure Sys (π ρ : Type) where
  record : Record π ρ
  runLock : Option ℕ := none
  recordLock : Option ℕ := none
  procs : ℕ → Option (Proc π ρ) := fun _ => none
  returned : List (Record π ρ) := []
  trail : List Mark := []

inductive Action (ρ : Type) where
  /-- A call of `try_run_pending_steps` or `cancel_operation`. -/
  | arrive (id : ℕ) (role : Role)
  /-- A process goes on, at the time `now`. -/
  | goes (id now : ℕ)
  /-- A step function ends. -/
  | ends (id : ℕ) (outcome : Outcome ρ)
  /-- A process dies, or an exception ends the call. -/
  | crash (id : ℕ)

namespace Sys

/-- The process goes to a place. -/
def goto (s : Sys π ρ) (id : ℕ) (role : Role) (place : Place π ρ) : Sys π ρ :=
  { s with procs := Function.update s.procs id (some ⟨role, place⟩) }

/-- The process is gone, and its locks are free. -/
def leave (s : Sys π ρ) (id : ℕ) : Sys π ρ :=
  { s with
    procs := Function.update s.procs id none
    runLock := if s.runLock = some id then none else s.runLock
    recordLock := if s.recordLock = some id then none else s.recordLock }

/-- The write lock is let go. -/
def unlock (s : Sys π ρ) : Sys π ρ := { s with recordLock := none }

/-- The record is renamed into place. -/
def persist (s : Sys π ρ) (r : Record π ρ) : Sys π ρ :=
  { s with
    record := r
    trail :=
      if r.phase = s.record.phase then s.trail
      else s.trail ++ [Mark.advanced s.record.phase] }

/-- A `mutate` returns `r` to its caller. -/
def returns (s : Sys π ρ) (id : ℕ) (role : Role) (job : Job ρ) (r : Record π ρ) : Sys π ρ :=
  let s := { s with returned := s.returned ++ [r] }
  match job, role with
  | .checkpoint, _ | .blocked, _ =>
    if r.state = .cancelled then s.leave id else s.goto id role .load
  | .start, _ => s.goto id role .load
  | .unsupported, _ => s.leave id
  | .persist _ (.returned _), .runner invocation n => s.goto id (.runner invocation (n + 1)) .load
  | .persist _ _, _ => if r.state = .running then s.goto id role .load else s.leave id
  | .request, _ => if r.cancelRequested then s.leave id else s.goto id role .load

/-- The top of the loop of a runner. -/
def runnerLoad (s : Sys π ρ) (id : ℕ) (invocation : Invocation) (n : ℕ) : Sys π ρ :=
  match loopTop (β := Unit) invocation n s.record with
  | some .checkpoint =>
    s.goto id (.runner invocation n) (.mutating .checkpoint mutateAttempts .load)
  | some .start => s.goto id (.runner invocation n) (.mutating .start mutateAttempts .load)
  | some .unsupported =>
    s.goto id (.runner invocation n) (.mutating .unsupported mutateAttempts .load)
  | some (.ready phase _) => s.goto id (.runner invocation n) (.ready phase)
  | _ => s.leave id

/-- The top of the loop of a canceller. -/
def cancellerLoad (s : Sys π ρ) (id : ℕ) : Sys π ρ :=
  if classifyCancel s.record ≠ .requested then s.leave id
  else if s.record.state = .blocked ∧ s.record.cancelPhase = none then
    s.goto id .canceller (.mutating .blocked mutateAttempts .load)
  else s.goto id .canceller (.mutating .request mutateAttempts .load)

/-- `mutate` goes on. -/
def mutateStep (E : Engine π ρ) (s : Sys π ρ) (id now : ℕ) (role : Role) (job : Job ρ)
    (attempts : ℕ) : Mutation π ρ → Sys π ρ
  | .load =>
    match attempts with
    | 0 => s.leave id
    | attempts + 1 =>
      match job.transform E role now s.record with
      | .error _ => s.leave id
      | .ok none => s.returns id role job s.record
      | .ok (some new) =>
        if validateRecord E.fingerprint new then
          s.goto id role (.mutating job attempts (.write s.record new))
        else s.leave id
  | .write base new =>
    if s.recordLock = none then
      { s with recordLock := some id }.goto id role (.mutating job attempts (.locked base new))
    else s
  | .locked base new =>
    if s.record.rev = base.rev then s.goto id role (.mutating job attempts (.checked base new))
    else s.unlock.goto id role (.mutating job attempts .load)
  | .checked _ new =>
    (s.persist { new with updatedAt := now, rev := new.rev + 1 }).goto id role
      (.mutating job attempts (.renamed { new with updatedAt := now, rev := new.rev + 1 }))
  | .renamed new => s.unlock.returns id role job new

def goes (E : Engine π ρ) (s : Sys π ρ) (id now : ℕ) (p : Proc π ρ) : Sys π ρ :=
  match p.place, p.role with
  | .load, .runner invocation n => s.runnerLoad id invocation n
  | .load, .canceller => s.cancellerLoad id
  | .ready phase, role =>
    { s with trail := s.trail ++ [Mark.started phase] }.goto id role (.executing phase)
  | .executing _, _ => s
  | .mutating job attempts at_, role => s.mutateStep E id now role job attempts at_

/-- A runner gets the run lock or returns; a canceller needs none. -/
def arrive (s : Sys π ρ) (id : ℕ) : Role → Sys π ρ
  | .runner invocation n =>
    if s.runLock = none then
      { s with runLock := some id }.goto id (.runner invocation n) .load
    else s
  | .canceller => s.goto id .canceller .load

def step (E : Engine π ρ) (s : Sys π ρ) : Action ρ → Sys π ρ
  | .arrive id role => if (s.procs id).isSome then s else s.arrive id role
  | .goes id now =>
    match s.procs id with
    | none => s
    | some p => s.goes E id now p
  | .ends id outcome =>
    match s.procs id with
    | some ⟨role, .executing phase⟩ =>
      s.goto id role (.mutating (.persist phase outcome) mutateAttempts .load)
    | _ => s
  | .crash id => s.leave id

end Sys

/-! ## What a write changes -/

def logged (log : List Event) (unit : ProgressUnit) : ℤ :=
  (log.map fun e => (e.progress.bind fun delta => delta.lookup unit.name).getD 0).sum

def Counted (r : Record π ρ) : Prop := ∀ unit, r.progress unit = logged r.log unit

section Changes

variable {E : Engine π ρ} {r w : Record π ρ} {now : ℕ} {claim : Claim}

theorem logged_append (log : List Event) (e : Event) (unit : ProgressUnit) :
    logged (log ++ [e]) unit =
      logged log unit + (e.progress.bind fun delta => delta.lookup unit.name).getD 0 := by
  unfold logged
  rw [List.map_append, List.sum_append, List.map_singleton, List.sum_singleton]

/-- An entry without progress counts for nothing. -/
theorem Counted.appendPlain (h : Counted r) (now : ℕ) (kind : EventKind) (state : State)
    (phase : Phase) (errorCode : Option Text) (outcome : Option State) :
    Counted (r.appendEvent now kind state phase none errorCode outcome) := by
  intro unit
  refine (h unit).trans (Eq.trans ?_ (logged_append r.log _ unit).symm)
  exact (add_zero (logged r.log unit)).symm

theorem Counted.addProgress (h : Counted r) (now : ℕ) (phase : Phase) (delta : Option Delta) :
    Counted (r.addProgress now phase delta) := by
  rcases delta with _ | _ | ⟨p, delta⟩
  · exact h
  · exact h
  · intro unit
    refine Eq.trans ?_ (logged_append r.log _ unit).symm
    exact congrArg (· + (List.lookup unit.name (p :: delta)).getD 0) (h unit)

theorem counted_cancelBlocked (h : cancelBlocked now r = .ok (some w)) (hr : Counted r) :
    Counted w := by
  unfold cancelBlocked at h
  split at h
  · cases h
  · next hnot =>
    rw [not_not.mp (not_or.mp hnot).1] at h
    cases h
    exact hr.appendPlain now .terminal .cancelled r.phase none (some .cancelled)

theorem counted_requestCancel (h : requestCancel now r = .ok (some w)) (hr : Counted r) :
    Counted w := by
  unfold requestCancel at h
  split_ifs at h
  · cases h
  · cases h
  cases h
  exact hr.appendPlain now .cancelRequested r.state r.phase none none

theorem counted_claimAndStart {retryBlocked : Bool}
    (h : claimAndStart now claim retryBlocked r = .ok (some w)) (hr : Counted r) : Counted w := by
  unfold claimAndStart at h
  split_ifs at h
  · cases h
    exact hr.appendPlain now .transition .running r.phase none none
  · cases h
    exact hr.appendPlain now .transition .running r.phase none none
  · cases h

theorem counted_cancelCheckpoint (h : cancelCheckpoint now r = .ok (some w)) (hr : Counted r) :
    Counted w := by
  unfold cancelCheckpoint at h
  split at h
  · cases h
  split at h
  · next cancel hcancel =>
    split at h
    · cases h
    cases hstate : r.state with
    | queued =>
      rw [hstate] at h
      cases h
      exact hr.appendPlain now .transition .running cancel none none
    | blocked =>
      rw [hstate] at h
      cases h
      exact hr.appendPlain now .transition .running cancel none none
    | running =>
      rw [hstate] at h
      cases h
      exact hr.appendPlain now .transition .running cancel none none
    | succeeded =>
      rw [hstate] at h
      cases h
      exact hr.appendPlain now .transition .running cancel none none
    | failed =>
      rw [hstate] at h
      cases h
      exact hr.appendPlain now .transition .running cancel none none
    | cancelled =>
      rw [hstate] at h
      cases h
      exact hr.appendPlain now .transition .running cancel none none
  · cases htransition : validateStateTransition r.state .cancelled with
    | error e => rw [htransition] at h; cases h
    | ok u =>
      rw [htransition] at h
      cases h
      exact hr.appendPlain now .terminal .cancelled r.phase none (some .cancelled)

theorem counted_failUnsupported (h : failUnsupported now claim r = .ok (some w))
    (hr : Counted r) : Counted w := by
  cases h
  exact hr.appendPlain now .terminal .failed r.phase _ (some .failed)

theorem counted_markStepError {phase : Phase} {error : StepError} {state : State}
    (h : markStepError now claim phase error state r = .ok (some w)) (hr : Counted r) :
    Counted w := by
  unfold markStepError at h
  split at h
  · cases h
  simp only at h
  split at h
  · exact counted_cancelCheckpoint h hr
  · cases h
    exact hr.appendPlain now .terminal state phase _ (some state)

theorem counted_settleStep {completed : ρ} {result : StepResult ρ}
    (h : settleStep completed now result r = .ok (some w)) (hr : Counted r) : Counted w := by
  unfold settleStep at h
  split at h
  · cases h
    exact hr
  split at h
  · cases h
    exact hr
  split at h
  · cases h
    exact hr.appendPlain now .terminal .cancelled r.phase none (some .cancelled)
  split at h
  · cases h
    exact hr.appendPlain now .terminal .succeeded r.phase none (some .succeeded)
  cases hindex : r.phaseIndex r.phase with
  | error e => rw [hindex] at h; cases h
  | ok index =>
    rw [hindex] at h
    cases hnext : r.phases[index + 1]? with
    | none => simp only [bind, Except.bind, hnext] at h; cases h
    | some next =>
      cases hvalid : r.validatePhaseTransition next with
      | error e => simp only [bind, Except.bind, hnext, hvalid] at h; cases h
      | ok u =>
        simp only [bind, Except.bind, hnext, hvalid] at h
        cases h
        exact hr.appendPlain now .transition .running next none none

theorem counted_applyStepResult {completed : ρ} {phase : Phase} {result : StepResult ρ}
    (h : applyStepResult completed now claim phase result r = .ok (some w)) (hr : Counted r) :
    Counted w := by
  unfold applyStepResult at h
  split at h
  · cases h
  exact counted_settleStep h
    (Counted.addProgress (r := r.refreshClaim now claim) hr now phase result.progress)

/-- What a job relies on when it is begun. -/
def Job.Asserts (r : Record π ρ) : Job ρ → Prop
  | .unsupported => r.state = .running
  | .persist phase _ => r.phase = phase ∧ r.state = .running
  | _ => True

/-- What one write may do to the record. -/
structure Change (r r' : Record π ρ) : Prop where
  continues : r.Continues r'
  opened : r.state.terminal = false
  phase : r'.phase = r.phase ∨ r.phases[r.phases.idxOf r.phase + 1]? = some r'.phase ∨
    r.cancelPending = true ∧ r.cancelPhase = some r'.phase
  queued : r'.state = .queued → r.state = .queued ∧ r'.phase = r.phase
  counted : Counted r → Counted r'

theorem change_of_diverted (hcontinues : r.Continues w) (hpending : r.cancelPending = true)
    (hcounted : Counted r → Counted w)
    (h : (∃ cancel, r.cancelPhase = some cancel ∧ r.phase ≠ cancel ∧
        w.view = { r.view with state := .running, phase := cancel }) ∨
      r.cancelPhase = none ∧ w.view = { r.view with state := .cancelled }) : Change r w := by
  have hopen := not_terminal_of_isCancelable (Record.cancelPending_iff.mp hpending).2
  rcases h with ⟨cancel, hcancel, -, hview⟩ | ⟨-, hview⟩
  · obtain ⟨hstate, hphase, -, -⟩ := View.mk.inj hview
    refine ⟨hcontinues, hopen, Or.inr (Or.inr ⟨hpending, hphase ▸ hcancel⟩), fun hno => ?_,
      hcounted⟩
    rw [hstate] at hno
    cases hno
  · obtain ⟨hstate, hphase, -, -⟩ := View.mk.inj hview
    refine ⟨hcontinues, hopen, Or.inl hphase, fun hno => ?_, hcounted⟩
    rw [hstate] at hno
    cases hno

/-- **What a job writes.** -/
theorem change_of_transform {role : Role} {job : Job ρ} (ha : job.Asserts r)
    (h : job.transform E role now r = .ok (some w)) : Change r w := by
  cases job with
  | checkpoint =>
    obtain ⟨hcontinues, hpending, hview⟩ := cancelCheckpoint_eq_some h
    exact change_of_diverted hcontinues hpending (counted_cancelCheckpoint h) hview
  | start =>
    obtain ⟨hcontinues, hbefore, hview⟩ := claimAndStart_eq_some h
    obtain ⟨hstate, hphase, -, -⟩ := View.mk.inj hview
    refine ⟨hcontinues, ?_, Or.inl hphase, fun hno => ?_, counted_claimAndStart h⟩
    · rcases hbefore with hqueued | ⟨hblocked, -⟩
      · rw [hqueued]
        rfl
      · rw [hblocked]
        rfl
    · rw [hstate] at hno
      cases hno
  | unsupported =>
    obtain ⟨hcontinues, hview⟩ := failUnsupported_eq_some h
    obtain ⟨hstate, hphase, -, -⟩ := View.mk.inj hview
    have hrunning : r.state = .running := ha
    refine ⟨hcontinues, by rw [hrunning]; rfl, Or.inl hphase, fun hno => ?_,
      counted_failUnsupported h⟩
    rw [hstate] at hno
    cases hno
  | request =>
    obtain ⟨hcontinues, hclass, hview⟩ := requestCancel_eq_some h
    obtain ⟨hstate, hphase, -, -⟩ := View.mk.inj hview
    refine ⟨hcontinues, ?_, Or.inl hphase, fun hno => ⟨hstate.symm.trans hno, hphase⟩,
      counted_requestCancel h⟩
    exact not_terminal_of_isCancelable (isCancelable_of_requested hclass)
  | blocked =>
    obtain ⟨hcontinues, -, hcancelable, hview⟩ := cancelBlocked_eq_some h
    obtain ⟨hstate, hphase, -, -⟩ := View.mk.inj hview
    refine ⟨hcontinues, not_terminal_of_isCancelable hcancelable, Or.inl hphase, fun hno => ?_,
      counted_cancelBlocked h⟩
    rw [hstate] at hno
    cases hno
  | persist phase outcome =>
    obtain ⟨-, hrunning⟩ := (ha : r.phase = phase ∧ r.state = .running)
    have hopen : r.state.terminal = false := by
      rw [hrunning]
      rfl
    have hmarked {error : StepError} {state : State} (hstate' : state ≠ .queued)
        (hmark : markStepError now role.invocation.claim phase error state r = .ok (some w)) :
        Change r w := by
      obtain ⟨hcontinues, -, -, ⟨-, hview⟩ | ⟨hpending, hview⟩⟩ := markStepError_eq_some hmark
      · obtain ⟨hstate, hphase, -, -⟩ := View.mk.inj hview
        exact ⟨hcontinues, hopen, Or.inl hphase, fun hno => absurd (hstate ▸ hno) hstate',
          counted_markStepError hmark⟩
      · exact change_of_diverted hcontinues hpending (counted_markStepError hmark) hview
    cases outcome with
    | blocked error => exact hmarked (by decide) h
    | failed error => exact hmarked (by decide) h
    | returned result =>
      obtain ⟨hcontinues, -, hsettled⟩ := applyStepResult_eq_some h
      have hcounted := counted_applyStepResult h
      cases hsettled with
      | held quiet view =>
        obtain ⟨hstate, hphase, -, -⟩ := View.mk.inj view
        exact ⟨hcontinues, hopen, Or.inl hphase, fun hno => ⟨hstate.symm.trans hno, hphase⟩,
          hcounted⟩
      | cancelled cancel requested view =>
        obtain ⟨hstate, hphase, -, -⟩ := View.mk.inj view
        refine ⟨hcontinues, hopen, Or.inl hphase, fun hno => ?_, hcounted⟩
        rw [hstate] at hno
        cases hno
      | succeeded last free plain view =>
        obtain ⟨hstate, hphase, -, -⟩ := View.mk.inj view
        refine ⟨hcontinues, hopen, Or.inl hphase, fun hno => ?_, hcounted⟩
        rw [hstate] at hno
        cases hno
      | next next successor free plain view =>
        obtain ⟨hstate, hphase, -, -⟩ := View.mk.inj view
        refine ⟨hcontinues, hopen, Or.inr (Or.inl (hphase ▸ successor)), fun hno => ?_, hcounted⟩
        have hqueued : r.state = .queued := hstate.symm.trans hno
        rw [hrunning] at hqueued
        cases hqueued

/-- A canceller leaves a running operation running, in its phase. -/
theorem calm_of_transform {job : Job ρ} (hdoes : Role.canceller.does job)
    (h : job.transform E .canceller now r = .ok (some w)) (hrunning : r.state = .running) :
    w.phase = r.phase ∧ w.state = .running := by
  cases job with
  | request =>
    obtain ⟨-, -, hview⟩ := requestCancel_eq_some h
    obtain ⟨hstate, hphase, -, -⟩ := View.mk.inj hview
    exact ⟨hphase, hstate.trans hrunning⟩
  | blocked =>
    obtain ⟨-, hblocked, -, -⟩ := cancelBlocked_eq_some h
    rw [hrunning] at hblocked
    cases hblocked
  | checkpoint => cases hdoes
  | start => cases hdoes
  | unsupported => cases hdoes
  | persist phase outcome => cases hdoes

end Changes

/-! ## The invariant -/

/-- The role takes the run lock. -/
def Role.Runs : Role → Prop
  | .runner .. => True
  | .canceller => False

/-- A write of `new`, made from `base`. -/
structure Based (E : Engine π ρ) (role : Role) (job : Job ρ) (r base new : Record π ρ) : Prop where
  asserts : job.Asserts r
  continues : base.Continues r
  /-- The revision tells the records apart. -/
  same : base.rev = r.rev → base = r
  made : ∃ now, job.transform E role now base = .ok (some new)
  valid : Valid E.fingerprint new

/-- What holds at a place inside `mutate`. -/
def Mutation.Holds (E : Engine π ρ) (role : Role) (job : Job ρ) (r : Record π ρ) :
    Mutation π ρ → Prop
  | .load => job.Asserts r
  | .write base new | .locked base new => Based E role job r base new
  | .checked base new => Based E role job r base new ∧ base = r
  | .renamed new => new.Continues r ∧ Counted new

def Place.Holds (E : Engine π ρ) (role : Role) (r : Record π ρ) : Place π ρ → Prop
  | .load => True
  | .ready phase | .executing phase => role.Runs ∧ r.phase = phase ∧ r.state = .running
  | .mutating job _ at_ => role.does job ∧ at_.Holds E role job r

/-- The process has the write lock. -/
def Place.Writes : Place π ρ → Prop
  | .mutating _ _ (.locked ..) | .mutating _ _ (.checked ..) | .mutating _ _ (.renamed ..) => True
  | _ => False

/-- The invariant of the system. -/
structure Good (E : Engine π ρ) (s : Sys π ρ) : Prop where
  valid : Valid E.fingerprint s.record
  counted : Counted s.record
  first : s.record.state = .queued → s.record.phases.head? = some s.record.phase
  run : ∀ id p, s.procs id = some p → p.role.Runs → s.runLock = some id
  write : ∀ id p, s.procs id = some p → p.place.Writes → s.recordLock = some id
  places : ∀ id p, s.procs id = some p → p.place.Holds E p.role s.record
  returned : ∀ r ∈ s.returned, r.Continues s.record ∧ Counted r
  advanced : ∀ phase, Mark.advanced phase ∈ s.trail →
    s.record.phases.idxOf phase < s.record.phases.idxOf s.record.phase
  trail : s.trail.Pairwise fun a b => ∀ phase, a = .advanced phase → b ≠ .started phase

/-- The system without a process. -/
def Sys.without (s : Sys π ρ) (id : ℕ) : Sys π ρ :=
  { s with procs := Function.update s.procs id none }

variable {p : Proc π ρ}

section Invariant

variable {E : Engine π ρ} {s : Sys π ρ} {id : ℕ} {role : Role} {job : Job ρ}

theorem without_some {s : Sys π ρ} {id id' : ℕ} (h : (s.without id).procs id' = some p) :
    id' ≠ id ∧ s.procs id' = some p := by
  unfold Sys.without at h
  dsimp only at h
  by_cases hid : id' = id
  · subst hid
    rw [Function.update_self] at h
    cases h
  · rw [Function.update_of_ne hid] at h
    exact ⟨hid, h⟩

theorem Good.without (h : Good E s) (id : ℕ) : Good E (s.without id) where
  valid := h.valid
  counted := h.counted
  first := h.first
  run id' p hp := h.run id' p (without_some hp).2
  write id' p hp := h.write id' p (without_some hp).2
  places id' p hp := h.places id' p (without_some hp).2
  returned := h.returned
  advanced := h.advanced
  trail := h.trail

theorem goto_some {place : Place π ρ} {id' : ℕ} (h : (s.goto id role place).procs id' = some p) :
    id' = id ∧ p = ⟨role, place⟩ ∨ id' ≠ id ∧ s.procs id' = some p := by
  unfold Sys.goto at h
  dsimp only at h
  by_cases hid : id' = id
  · subst hid
    rw [Function.update_self] at h
    exact Or.inl ⟨rfl, (Option.some.inj h).symm⟩
  · rw [Function.update_of_ne hid] at h
    exact Or.inr ⟨hid, h⟩

theorem other_some {id' : ℕ} (hid : id' ≠ id) (hp : s.procs id' = some p) :
    (s.without id).procs id' = some p := by
  unfold Sys.without
  dsimp only
  rw [Function.update_of_ne hid]
  exact hp

/-- A process comes to a place. -/
theorem Good.goto (h : Good E (s.without id)) {place : Place π ρ}
    (hrun : role.Runs → s.runLock = some id) (hlock : place.Writes → s.recordLock = some id)
    (hplace : place.Holds E role s.record) : Good E (s.goto id role place) where
  valid := h.valid
  counted := h.counted
  first := h.first
  run id' p hp := by
    rcases goto_some hp with ⟨rfl, rfl⟩ | ⟨hid, hp⟩
    · exact hrun
    · exact h.run id' p (other_some hid hp)
  write id' p hp := by
    rcases goto_some hp with ⟨rfl, rfl⟩ | ⟨hid, hp⟩
    · exact hlock
    · exact h.write id' p (other_some hid hp)
  places id' p hp := by
    rcases goto_some hp with ⟨rfl, rfl⟩ | ⟨hid, hp⟩
    · exact hplace
    · exact h.places id' p (other_some hid hp)
  returned := h.returned
  advanced := h.advanced
  trail := h.trail

theorem Good.leave (h : Good E (s.without id)) : Good E (s.leave id) where
  valid := h.valid
  counted := h.counted
  first := h.first
  run id' p hp hruns := by
    have hhas : s.runLock = some id' := h.run id' p hp hruns
    unfold Sys.leave
    dsimp only
    rw [if_neg fun hno => (without_some hp).1 (Option.some.inj (hhas.symm.trans hno))]
    exact hhas
  write id' p hp hlocks := by
    have hhas : s.recordLock = some id' := h.write id' p hp hlocks
    unfold Sys.leave
    dsimp only
    rw [if_neg fun hno => (without_some hp).1 (Option.some.inj (hhas.symm.trans hno))]
    exact hhas
  places := h.places
  returned := h.returned
  advanced := h.advanced
  trail := h.trail

theorem Good.lock (h : Good E (s.without id)) (hfree : s.recordLock = none) :
    Good E (({ s with recordLock := some id } : Sys π ρ).without id) where
  valid := h.valid
  counted := h.counted
  first := h.first
  run := h.run
  write id' p hp hlocks := by
    have hhas := h.write id' p hp hlocks
    rw [show (s.without id).recordLock = none from hfree] at hhas
    cases hhas
  places := h.places
  returned := h.returned
  advanced := h.advanced
  trail := h.trail

/-- The write lock is let go. -/
theorem Good.unlock (h : Good E (s.without id)) (hlock : s.recordLock = some id) :
    Good E (s.unlock.without id) where
  valid := h.valid
  counted := h.counted
  first := h.first
  run := h.run
  write id' p hp hlocks := by
    have hhas := h.write id' p hp hlocks
    exact absurd (Option.some.inj (hhas.symm.trans hlock)) (without_some hp).1
  places := h.places
  returned := h.returned
  advanced := h.advanced
  trail := h.trail

/-- A `mutate` returns. -/
theorem Good.returns (h : Good E (s.without id)) {r : Record π ρ} (hr : r.Continues s.record)
    (hcounted : Counted r) (hrun : role.Runs → s.runLock = some id) :
    Good E (s.returns id role job r) := by
  have hmore : Good E (({ s with returned := s.returned ++ [r] } : Sys π ρ).without id) :=
    { h with
      returned := fun u hu => by
        rcases List.mem_append.mp hu with hu | hu
        · exact h.returned u hu
        · rw [List.mem_singleton.mp hu]
          exact ⟨hr, hcounted⟩ }
  have hload {role' : Role} (hrun' : role'.Runs → s.runLock = some id) :
      Good E (({ s with returned := s.returned ++ [r] } : Sys π ρ).goto id role' .load) :=
    hmore.goto hrun' (fun hno => hno.elim) trivial
  unfold Sys.returns
  dsimp only
  split
  · split_ifs
    · exact hmore.leave
    · exact hload hrun
  · split_ifs
    · exact hmore.leave
    · exact hload hrun
  · exact hload hrun
  · exact hmore.leave
  · exact hload hrun
  · split_ifs
    · exact hload hrun
    · exact hmore.leave
  · split_ifs
    · exact hmore.leave
    · exact hload hrun

theorem Change.forward {r r' : Record π ρ} (h : Change r r') (hvalid : Valid E.fingerprint r)
    (hfirst : r.state = .queued → r.phases.head? = some r.phase) (hne : r'.phase ≠ r.phase) :
    r.phases.idxOf r.phase < r.phases.idxOf r'.phase := by
  rcases h.phase with hsame | hnext | ⟨hpending, hcancel⟩
  · exact absurd hsame hne
  · obtain ⟨hlt, hget⟩ := List.getElem?_eq_some_iff.mp hnext
    rw [← hget, hvalid.nodup.idxOf_getElem _ hlt]
    exact Nat.lt_succ_self _
  · have haccepted := hvalid.machine
    unfold Machine.accepted at haccepted
    rw [hcancel] at haccepted
    simp only [Bool.and_eq_true, decide_eq_true_eq] at haccepted
    obtain ⟨-, -, hafter⟩ := haccepted
    have hcancelable := (Record.cancelPending_iff.mp hpending).2
    unfold Record.isCancelable at hcancelable
    split_ifs at hcancelable with hterminal hqueued hphase
    · have hzero : r.phases.idxOf r.phase = 0 := by
        obtain ⟨rest, hrest⟩ := List.head?_eq_some_iff.mp (hfirst hqueued)
        rw [hrest]
        exact List.idxOf_cons_self
      omega
    · have hbefore := of_decide_eq_true hcancelable
      omega

/-- What another process relies on when the record is changed. -/
theorem Good.kept (h : Good E (s.without id)) (hrun : role.Runs → s.runLock = some id)
    (hlock : s.recordLock = some id) {r : Record π ρ} (hchange : Change s.record r)
    (hrev : s.record.rev < r.rev)
    (hcalm : ¬role.Runs → s.record.state = .running → r.phase = s.record.phase ∧ r.state = .running)
    {id' : ℕ} (hp : (s.without id).procs id' = some p) : p.place.Holds E p.role r := by
  have hid := (without_some hp).1
  have hplace : p.place.Holds E p.role s.record := h.places id' p hp
  -- a runner beside the writer means that the writer is a canceller
  have hstill (hruns : p.role.Runs) (hrunning : s.record.state = .running) :
      r.phase = s.record.phase ∧ r.state = .running := by
    refine hcalm (fun hwriter => ?_) hrunning
    exact hid (Option.some.inj ((h.run id' p hp hruns).symm.trans (hrun hwriter)))
  have hfree : ¬p.place.Writes := fun hlocks =>
    hid (Option.some.inj ((h.write id' p hp hlocks).symm.trans hlock))
  have hjob {job : Job ρ} (hdoes : p.role.does job) (ha : job.Asserts s.record) :
      job.Asserts r := by
    cases job with
    | unsupported =>
      cases hrole : p.role with
      | canceller =>
        rw [hrole] at hdoes
        cases hdoes
      | runner invocation n => exact (hstill (by rw [hrole]; trivial) ha).2
    | persist phase outcome =>
      cases hrole : p.role with
      | canceller =>
        rw [hrole] at hdoes
        cases hdoes
      | runner invocation n =>
        obtain ⟨hphase, hrunning⟩ := hstill (by rw [hrole]; trivial) ha.2
        exact ⟨hphase.trans ha.1, hrunning⟩
    | checkpoint => trivial
    | start => trivial
    | request => trivial
    | blocked => trivial
  have hbased {job : Job ρ} {base new : Record π ρ} (hdoes : p.role.does job)
      (hb : Based E p.role job s.record base new) : Based E p.role job r base new := by
    refine ⟨hjob hdoes hb.asserts, hb.continues.trans hchange.continues, fun hsame => ?_, hb.made,
      hb.valid⟩
    have hle := hb.continues.rev
    omega
  obtain ⟨prole, place⟩ := p
  cases place with
  | load => trivial
  | ready phase =>
    obtain ⟨hruns, hphase, hrunning⟩ := hplace
    obtain ⟨hphase', hrunning'⟩ := hstill hruns hrunning
    exact ⟨hruns, hphase'.trans hphase, hrunning'⟩
  | executing phase =>
    obtain ⟨hruns, hphase, hrunning⟩ := hplace
    obtain ⟨hphase', hrunning'⟩ := hstill hruns hrunning
    exact ⟨hruns, hphase'.trans hphase, hrunning'⟩
  | mutating job attempts at_ =>
    obtain ⟨hdoes, hat⟩ := hplace
    cases at_ with
    | load => exact ⟨hdoes, hjob hdoes hat⟩
    | write base new => exact ⟨hdoes, hbased hdoes hat⟩
    | locked base new => exact absurd trivial hfree
    | checked base new => exact absurd trivial hfree
    | renamed new => exact absurd trivial hfree

/-- **The rename.** -/
theorem Good.persist (h : Good E (s.without id)) (hrun : role.Runs → s.runLock = some id)
    (hlock : s.recordLock = some id) {r : Record π ρ} (hvalid : Valid E.fingerprint r)
    (hchange : Change s.record r) (hrev : s.record.rev < r.rev)
    (hcalm : ¬role.Runs → s.record.state = .running →
      r.phase = s.record.phase ∧ r.state = .running) :
    Good E ((s.persist r).without id) where
  valid := hvalid
  counted := hchange.counted h.counted
  first hqueued := by
    obtain ⟨hbefore, hphase⟩ := hchange.queued hqueued
    have hfirst := h.first hbefore
    show r.phases.head? = some r.phase
    rw [hchange.continues.machine, hphase]
    exact hfirst
  run := h.run
  write := h.write
  places id' p hp := h.kept hrun hlock hchange hrev hcalm hp
  returned u hu := ⟨(h.returned u hu).1.trans hchange.continues, (h.returned u hu).2⟩
  advanced phase hphase := by
    have hforward := hchange.forward h.valid h.first
    show r.phases.idxOf phase < r.phases.idxOf r.phase
    rw [hchange.continues.machine]
    unfold Sys.persist Sys.without at hphase
    dsimp only at hphase
    by_cases hsame : r.phase = s.record.phase
    · rw [if_pos hsame] at hphase
      rw [hsame]
      exact h.advanced phase hphase
    · rw [if_neg hsame] at hphase
      rcases List.mem_append.mp hphase with hphase | hphase
      · exact (h.advanced phase hphase).trans (hforward hsame)
      · rw [Mark.advanced.inj (List.mem_singleton.mp hphase)]
        exact hforward hsame
  trail := by
    unfold Sys.persist Sys.without
    dsimp only
    by_cases hsame : r.phase = s.record.phase
    · rw [if_pos hsame]
      exact h.trail
    · rw [if_neg hsame]
      refine List.pairwise_append.mpr ⟨h.trail, List.pairwise_singleton _ _, ?_⟩
      intro a _ b hb phase _
      rw [List.mem_singleton.mp hb]
      exact Mark.noConfusion

/-- A step function is called. -/
theorem Good.started (h : Good E (s.without id)) :
    Good E
      (({ s with trail := s.trail ++ [Mark.started s.record.phase] } : Sys π ρ).without id) where
  valid := h.valid
  counted := h.counted
  first := h.first
  run := h.run
  write := h.write
  places := h.places
  returned := h.returned
  advanced phase hphase := by
    rcases List.mem_append.mp hphase with hphase | hphase
    · exact h.advanced phase hphase
    · cases List.mem_singleton.mp hphase
  trail := by
    refine List.pairwise_append.mpr ⟨h.trail, List.pairwise_singleton _ _, ?_⟩
    intro a ha b hb phase hphase
    rw [List.mem_singleton.mp hb]
    intro hno
    have hlt := h.advanced phase (hphase ▸ ha)
    rw [← Mark.started.inj hno] at hlt
    exact lt_irrefl _ hlt

end Invariant

/-! ## Steps and runs -/

/-- From one moment to the next, the record stays or one write has changed it. -/
def Stepped (r r' : Record π ρ) : Prop := r' = r ∨ Change r r' ∧ r.rev < r'.rev

section Steps

variable {E : Engine π ρ} {s : Sys π ρ} {id : ℕ} {role : Role} {job : Job ρ}

theorem returns_record (s : Sys π ρ) (id : ℕ) (role : Role) (job : Job ρ) (r : Record π ρ) :
    (s.returns id role job r).record = s.record := by
  unfold Sys.returns
  dsimp only
  split
  · split_ifs <;> rfl
  · split_ifs <;> rfl
  · rfl
  · rfl
  · rfl
  · split_ifs <;> rfl
  · split_ifs <;> rfl

/-- **What is renamed into place**, from the record that was checked. -/
theorem Based.written {base new : Record π ρ} (h : Based E role job s.record base new)
    (hbase : base = s.record) (hdoes : role.does job) (now : ℕ) :
    Valid E.fingerprint { new with updatedAt := now, rev := new.rev + 1 } ∧
      Change s.record { new with updatedAt := now, rev := new.rev + 1 } ∧
      s.record.rev < new.rev + 1 ∧
      (¬role.Runs → s.record.state = .running →
        new.phase = s.record.phase ∧ new.state = .running) := by
  obtain ⟨time, hmade⟩ := h.made
  rw [hbase] at hmade
  have hchange := change_of_transform h.asserts hmade
  have hcontinues : new.Continues { new with updatedAt := now, rev := new.rev + 1 } :=
    ⟨rfl, rfl, rfl, rfl, Nat.le_succ _, List.prefix_rfl, fun h => h⟩
  refine ⟨{ h.valid with rev := Nat.le_add_left 1 new.rev }, ?_, ?_, fun hno hrunning => ?_⟩
  · exact ⟨hchange.continues.trans hcontinues, hchange.opened, hchange.phase, hchange.queued,
      hchange.counted⟩
  · exact Nat.lt_succ_of_le hchange.continues.rev
  · cases role with
    | runner invocation n => exact absurd trivial hno
    | canceller => exact calm_of_transform hdoes hmade hrunning

/-- **One effect inside `mutate`.** -/
theorem Good.mutateStep (h : Good E s) (now : ℕ) {attempts : ℕ} {at_ : Mutation π ρ}
    (hp : s.procs id = some ⟨role, .mutating job attempts at_⟩) :
    Good E (s.mutateStep E id now role job attempts at_) ∧
      Stepped s.record (s.mutateStep E id now role job attempts at_).record := by
  have hd := h.without id
  have hrun : role.Runs → s.runLock = some id := h.run id _ hp
  obtain ⟨hdoes, hat⟩ := h.places id _ hp
  cases at_ with
  | load =>
    cases attempts with
    | zero => exact ⟨hd.leave, Or.inl rfl⟩
    | succ attempts =>
      unfold Sys.mutateStep
      dsimp only
      cases hfn : job.transform E role now s.record with
      | error e => exact ⟨hd.leave, Or.inl rfl⟩
      | ok made =>
        cases made with
        | none =>
          exact ⟨hd.returns (Record.Continues.refl _) h.counted hrun,
            Or.inl (returns_record s id role job s.record)⟩
        | some new =>
          dsimp only
          by_cases hvalid : validateRecord E.fingerprint new = true
          · rw [if_pos hvalid]
            refine ⟨hd.goto hrun (fun hno => hno.elim) ⟨hdoes, ?_⟩, Or.inl rfl⟩
            exact ⟨hat, Record.Continues.refl _, fun _ => rfl, ⟨now, hfn⟩,
              validateRecord_iff.mp hvalid⟩
          · rw [if_neg hvalid]
            exact ⟨hd.leave, Or.inl rfl⟩
  | write base new =>
    unfold Sys.mutateStep
    dsimp only
    by_cases hfree : s.recordLock = none
    · rw [if_pos hfree]
      exact ⟨(hd.lock hfree).goto hrun (fun _ => rfl) ⟨hdoes, hat⟩, Or.inl rfl⟩
    · rw [if_neg hfree]
      exact ⟨h, Or.inl rfl⟩
  | locked base new =>
    have hlock : s.recordLock = some id := h.write id _ hp trivial
    unfold Sys.mutateStep
    dsimp only
    by_cases hrev : s.record.rev = base.rev
    · rw [if_pos hrev]
      exact ⟨hd.goto hrun (fun _ => hlock) ⟨hdoes, hat, hat.same hrev.symm⟩, Or.inl rfl⟩
    · rw [if_neg hrev]
      exact ⟨(hd.unlock hlock).goto hrun (fun hno => hno.elim) ⟨hdoes, hat.asserts⟩, Or.inl rfl⟩
  | checked base new =>
    have hlock : s.recordLock = some id := h.write id _ hp trivial
    obtain ⟨hvalid, hchange, hrev, hcalm⟩ := hat.1.written hat.2 hdoes now
    refine ⟨(hd.persist hrun hlock hvalid hchange hrev hcalm).goto hrun (fun _ => hlock) ?_,
      Or.inr ⟨hchange, hrev⟩⟩
    exact ⟨hdoes, Record.Continues.refl _, hchange.counted h.counted⟩
  | renamed new =>
    have hlock : s.recordLock = some id := h.write id _ hp trivial
    exact ⟨(hd.unlock hlock).returns hat.1 hat.2 hrun,
      Or.inl (returns_record s.unlock id role job new)⟩

/-- A runner that goes on with a phase, or cannot, has loaded a running operation. -/
theorem loopTop_running {invocation : Invocation} {n : ℕ} {r : Record π ρ}
    {pc : RunnerPc π ρ Unit} (h : loopTop invocation n r = some pc)
    (hpc : pc = .unsupported ∨ ∃ phase loaded, pc = .ready phase loaded) :
    r.state = .running ∧ ∀ phase loaded, pc = .ready phase loaded → phase = r.phase := by
  unfold loopTop at h
  split_ifs at h with hterminal hpending hblocked hwaiting hmax hregistered
  · obtain rfl := Option.some.inj h
    rcases hpc with hpc | ⟨_, _, hpc⟩ <;> cases hpc
  · obtain rfl := Option.some.inj h
    rcases hpc with hpc | ⟨_, _, hpc⟩ <;> cases hpc
  all_goals
    obtain rfl := Option.some.inj h
    refine ⟨?_, fun phase loaded heq => by cases heq <;> rfl⟩
    cases hstate : r.state with
    | running => rfl
    | queued => exact absurd (Or.inl hstate) hwaiting
    | blocked => exact absurd (Or.inr hstate) hwaiting
    | succeeded =>
      rw [hstate] at hterminal
      exact absurd rfl hterminal
    | failed =>
      rw [hstate] at hterminal
      exact absurd rfl hterminal
    | cancelled =>
      rw [hstate] at hterminal
      exact absurd rfl hterminal

theorem Good.runnerLoad (h : Good E s) {invocation : Invocation} {n : ℕ}
    (hp : s.procs id = some ⟨.runner invocation n, .load⟩) :
    Good E (s.runnerLoad id invocation n) ∧ (s.runnerLoad id invocation n).record = s.record := by
  have hd := h.without id
  have hrun : (Role.runner invocation n).Runs → s.runLock = some id := h.run id _ hp
  unfold Sys.runnerLoad
  split
  · exact ⟨hd.goto hrun (fun hno => hno.elim) ⟨trivial, trivial⟩, rfl⟩
  · exact ⟨hd.goto hrun (fun hno => hno.elim) ⟨trivial, trivial⟩, rfl⟩
  · next htop =>
    have hrunning := (loopTop_running htop (Or.inl rfl)).1
    exact ⟨hd.goto hrun (fun hno => hno.elim) ⟨trivial, hrunning⟩, rfl⟩
  · next phase loaded htop =>
    obtain ⟨hrunning, hphase⟩ := loopTop_running htop (Or.inr ⟨phase, loaded, rfl⟩)
    exact ⟨hd.goto hrun (fun hno => hno.elim) ⟨trivial, (hphase phase loaded rfl).symm, hrunning⟩,
      rfl⟩
  · exact ⟨hd.leave, rfl⟩

theorem Good.cancellerLoad (h : Good E s) (id : ℕ) :
    Good E (s.cancellerLoad id) ∧ (s.cancellerLoad id).record = s.record := by
  have hd := h.without id
  unfold Sys.cancellerLoad
  split_ifs
  · exact ⟨hd.leave, rfl⟩
  · exact ⟨hd.goto (fun hno => hno.elim) (fun hno => hno.elim) ⟨trivial, trivial⟩, rfl⟩
  · exact ⟨hd.goto (fun hno => hno.elim) (fun hno => hno.elim) ⟨trivial, trivial⟩, rfl⟩

/-- **A process goes on.** -/
theorem Good.goes (h : Good E s) (now : ℕ) (hp : s.procs id = some p) :
    Good E (s.goes E id now p) ∧ Stepped s.record (s.goes E id now p).record := by
  obtain ⟨role, place⟩ := p
  cases place with
  | load =>
    cases role with
    | runner invocation n =>
      obtain ⟨hgood, hrecord⟩ := h.runnerLoad hp
      exact ⟨hgood, Or.inl hrecord⟩
    | canceller =>
      obtain ⟨hgood, hrecord⟩ := h.cancellerLoad id
      exact ⟨hgood, Or.inl hrecord⟩
  | ready phase =>
    obtain ⟨hruns, hphase, hrunning⟩ := h.places id _ hp
    subst hphase
    exact ⟨(h.without id).started.goto (fun _ => h.run id _ hp hruns) (fun hno => hno.elim)
      ⟨hruns, rfl, hrunning⟩, Or.inl rfl⟩
  | executing phase => exact ⟨h, Or.inl rfl⟩
  | mutating job attempts at_ => exact h.mutateStep now hp

/-- **One action.** -/
theorem Good.step (h : Good E s) (a : Action ρ) :
    Good E (s.step E a) ∧ Stepped s.record (s.step E a).record := by
  cases a with
  | arrive id role =>
    unfold Sys.step
    dsimp only
    cases hnone : s.procs id with
    | some p => exact ⟨h, Or.inl rfl⟩
    | none =>
      rw [if_neg (by simp)]
      have hd := h.without id
      cases role with
      | canceller => exact ⟨hd.goto (fun hno => hno.elim) (fun hno => hno.elim) trivial, Or.inl rfl⟩
      | runner invocation n =>
        unfold Sys.arrive
        dsimp only
        by_cases hfree : s.runLock = none
        · rw [if_pos hfree]
          have htaken : Good E (({ s with runLock := some id } : Sys π ρ).without id) :=
            { hd with
              run := fun id' p hp hruns => by
                have hhas : s.runLock = some id' := hd.run id' p hp hruns
                rw [hfree] at hhas
                cases hhas }
          exact ⟨htaken.goto (fun _ => rfl) (fun hno => hno.elim) trivial, Or.inl rfl⟩
        · rw [if_neg hfree]
          exact ⟨h, Or.inl rfl⟩
  | goes id now =>
    unfold Sys.step
    dsimp only
    cases hp : s.procs id with
    | none => exact ⟨h, Or.inl rfl⟩
    | some p => exact h.goes now hp
  | ends id outcome =>
    unfold Sys.step
    dsimp only
    split
    · next role phase hp =>
      obtain ⟨hruns, hphase, hrunning⟩ := h.places id _ hp
      refine ⟨(h.without id).goto (fun _ => h.run id _ hp hruns) (fun hno => hno.elim)
        ⟨?_, hphase, hrunning⟩, Or.inl rfl⟩
      cases role with
      | runner invocation n => trivial
      | canceller => exact hruns.elim
    · exact ⟨h, Or.inl rfl⟩
  | crash id => exact ⟨(h.without id).leave, Or.inl rfl⟩

/-- **Every run keeps the invariant.** -/
theorem Good.reached (h : Good E s) (acts : List (Action ρ)) :
    Good E (Runs.run (Sys.step E) s acts) :=
  run_invariant (fun _ a hs => (hs.step a).1) h acts

/-- What the record of one moment says of a later one. -/
structure Later (r r' : Record π ρ) : Prop where
  continues : r.Continues r'
  monotone : r' = r ∨ r.rev < r'.rev
  final : r.state.terminal = true → r' = r

theorem Stepped.later {r r' : Record π ρ} (h : Stepped r r') : Later r r' := by
  rcases h with rfl | ⟨hchange, hrev⟩
  · exact ⟨.refl _, Or.inl rfl, fun _ => rfl⟩
  · refine ⟨hchange.continues, Or.inr hrev, fun hno => ?_⟩
    rw [hchange.opened] at hno
    cases hno

theorem Later.trans {r r' r'' : Record π ρ} (h : Later r r') (h' : Later r' r'') : Later r r'' where
  continues := h.continues.trans h'.continues
  monotone := by
    rcases h.monotone with rfl | hrev
    · exact h'.monotone
    · rcases h'.monotone with rfl | hrev'
      · exact Or.inr hrev
      · exact Or.inr (hrev.trans hrev')
  final hterminal := by
    obtain rfl := h.final hterminal
    exact h'.final hterminal

/-- **The records of a run**, from any moment on. -/
theorem Good.later (h : Good E s) (acts : List (Action ρ)) :
    Later s.record (Runs.run (Sys.step E) s acts).record := by
  induction acts generalizing s with
  | nil => exact Stepped.later (Or.inl rfl)
  | cons a acts ih =>
    obtain ⟨hgood, hstepped⟩ := h.step a
    exact hstepped.later.trans (ih hgood)

/-- A new operation, before any process comes. -/
theorem good_start {fingerprint : Text → π → Text} {now : ℕ} {operationId type : Text}
    {parameters : π} {m : Machine} {r : Record π ρ} (completed : ρ)
    (hnew : newOperation fingerprint now operationId type parameters m = some r)
    (hvalid : validateRecord fingerprint r = true) :
    Good (⟨fingerprint, completed⟩ : Engine π ρ) { record := r } := by
  unfold newOperation at hnew
  split_ifs at hnew
  obtain ⟨first, hfirst, rfl⟩ := Option.map_eq_some_iff.mp hnew
  refine ⟨validateRecord_iff.mp hvalid, fun _ => rfl, fun _ => hfirst, ?_, ?_, ?_, ?_, ?_, ?_⟩
  · intro id p hp
    cases hp
  · intro id p hp
    cases hp
  · intro id p hp
    cases hp
  · intro u hu
    cases hu
  · intro phase hphase
    cases hphase
  · exact List.Pairwise.nil

end Steps

/-! ## The operation -/

/-- What is promised of a moment of a run, of the next action and of a later moment. -/
structure Resumable (E : Engine π ρ) (s next later : Sys π ρ) : Prop where
  /-- No two step executions overlap. -/
  exclusive : ∀ i j p q phase phase', s.procs i = some p → s.procs j = some q →
    p.place = .executing phase → q.place = .executing phase' → i = j
  valid : validateRecord E.fingerprint s.record = true
  monotone : later.record = s.record ∨ s.record.rev < later.record.rev
  final : s.record.state.terminal = true → later.record = s.record
  /-- A phase moves to its successor, or to the cancel phase after a cancel. -/
  phase : next.record.phase = s.record.phase ∨
    s.record.phases[s.record.phases.idxOf s.record.phase + 1]? = some next.record.phase ∨
    s.record.cancelRequested = true ∧ s.record.cancelPhase = some next.record.phase
  /-- No phase is executed after its advance was persisted. -/
  once : s.trail.Pairwise fun a b => ∀ phase, a = .advanced phase → b ≠ .started phase
  /-- The log, the progress and the flag of what a `mutate` has returned are never lost. -/
  kept : ∀ r ∈ s.returned, r.log <+: later.record.log ∧
    (r.cancelRequested = true → later.record.cancelRequested = true) ∧
    ∀ unit, r.progress unit = logged r.log unit ∧
      later.record.progress unit = logged later.record.log unit

/-- **Runs of an operation are exclusive, monotone and resumable**, over every interleaving of any
number of runners, cancellers, retries and crashes. -/
theorem run_resumable (fingerprint : Text → π → Text) (completed : ρ) (now : ℕ)
    (operationId type : Text) (parameters : π) (m : Machine) (r : Record π ρ)
    (hnew : newOperation fingerprint now operationId type parameters m = some r)
    (hvalid : validateRecord fingerprint r = true) (acts : List (Action ρ)) (a : Action ρ)
    (more : List (Action ρ)) :
    Resumable ⟨fingerprint, completed⟩
      (run (Sys.step ⟨fingerprint, completed⟩) { record := r } acts)
      (Sys.step ⟨fingerprint, completed⟩
        (run (Sys.step ⟨fingerprint, completed⟩) { record := r } acts) a)
      (run (Sys.step ⟨fingerprint, completed⟩) { record := r } (acts ++ more)) := by
  have hgood := (good_start completed hnew hvalid).reached acts
  rw [run_append]
  generalize run (Sys.step ⟨fingerprint, completed⟩) { record := r } acts = s at hgood
  have hlater := hgood.later more
  have hend := hgood.reached more
  refine ⟨?_, validateRecord_iff.mpr hgood.valid, hlater.monotone, hlater.final, ?_, hgood.trail,
    ?_⟩
  · intro i j p q phase phase' hi hj hp hq
    have hplaceᵢ := hgood.places i p hi
    have hplaceⱼ := hgood.places j q hj
    rw [hp] at hplaceᵢ
    rw [hq] at hplaceⱼ
    have hrunᵢ := hgood.run i p hi hplaceᵢ.1
    have hrunⱼ := hgood.run j q hj hplaceⱼ.1
    exact Option.some.inj (hrunᵢ.symm.trans hrunⱼ)
  · rcases (hgood.step a).2 with hsame | ⟨hchange, -⟩
    · exact Or.inl (congrArg Record.phase hsame)
    · refine hchange.phase.imp id (Or.imp id fun hcancel => ?_)
      exact ⟨(Record.cancelPending_iff.mp hcancel.1).1, hcancel.2⟩
  · intro u hu
    obtain ⟨hcontinues, hcounted⟩ := hgood.returned u hu
    have hlast := hcontinues.trans hlater.continues
    exact ⟨hlast.log, hlast.requested, fun unit => ⟨hcounted unit, hend.counted unit⟩⟩

/-! ### A cancel beside a step -/

def sampleFingerprint (_ : Text) (_ : Unit) : Text := List.replicate 64 48

def sampleMachine : Machine := ⟨[.preflight, .publishing, .cleanup], .publishing, none⟩

def sampleRecord : Record Unit Unit :=
  { sampleMachine with
    operationId := ascii "a"
    type := ascii "clear"
    state := .queued
    phase := .preflight
    parameters := ()
    parametersFingerprint := List.replicate 64 48
    createdAt := 0
    updatedAt := 0
    cancelRequested := false
    cancelRequestedAt := none
    progress := fun _ => 0
    result := none
    error := none
    log := []
    rev := 1
    runnerClaim := none }

/-- A runner starts the operation and is in its first step when a canceller writes its request; the
result of the step was made from the older record, and is made again. -/
def sampleActions : List (Action Unit) :=
  [.arrive 1 (.runner { claim := ⟨1, [1], 0⟩ } 0)] ++ List.replicate 8 (.goes 1 1) ++
    [.arrive 2 .canceller, .ends 1 (.returned { advance := true }), .goes 1 2] ++
    List.replicate 6 (.goes 2 3) ++ List.replicate 8 (.goes 1 4)

/-- The request is kept, and the advance is held. -/
theorem run_resumable_sample :
    Resumable ⟨sampleFingerprint, ()⟩
        (run (Sys.step ⟨sampleFingerprint, ()⟩) { record := sampleRecord } sampleActions)
        (Sys.step ⟨sampleFingerprint, ()⟩
          (run (Sys.step ⟨sampleFingerprint, ()⟩) { record := sampleRecord } sampleActions)
          (.crash 1))
        (run (Sys.step ⟨sampleFingerprint, ()⟩) { record := sampleRecord }
          (sampleActions ++ [.goes 1 5])) ∧
      (run (Sys.step ⟨sampleFingerprint, ()⟩) { record := sampleRecord }
        sampleActions).record.cancelRequested = true ∧
      (run (Sys.step ⟨sampleFingerprint, ()⟩) { record := sampleRecord }
        sampleActions).record.phase = .preflight ∧
      (run (Sys.step ⟨sampleFingerprint, ()⟩) { record := sampleRecord }
        sampleActions).record.rev = 4 :=
  ⟨run_resumable sampleFingerprint () 0 (ascii "a") (ascii "clear") () sampleMachine sampleRecord
      (by rfl) (by decide +kernel) sampleActions (.crash 1) [.goes 1 5],
    by decide +kernel, by decide +kernel, by decide +kernel⟩

end Locks
end Operations
end SemanticMemory
