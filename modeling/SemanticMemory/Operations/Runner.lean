import SemanticMemory.Lib.Runs
import SemanticMemory.Operations.Record

/-!
# Runners and cancellers

`try_run_pending_steps` and `cancel_operation` of `daemon/operations.py`, over one operation.

## What is modelled, and how

* A `Program` is what a type of operations registers: its step functions, run over a disk in pieces
  between which anything else may happen.  A piece gets an answer of the outside world, and an
  exception that is not one of the two of a step ends the runner.
* The run lock is held by at most one runner, so one runner is at work at a time; one that does not
  get the lock changes nothing.  A runner may crash at every place.
* The load of a record and the compare-and-swap that follows are two moments.  A `mutate` is one
  moment, the one of the write that wins.
* `requested` and `startedAfter` are histories: whether some `cancel_operation` has returned
  `requested`, and the phases of the steps that were started after that.
-/

namespace SemanticMemory
namespace Operations

open Runs

variable {π ρ δ ε ω β : Type}

/-! ## Steps -/

/-- How a step ends, if no other exception escapes. -/
inductive Outcome (ρ : Type) where
  | returned (result : StepResult ρ)
  | blocked (error : StepError)
  | failed (error : StepError)

/-- What a piece of a step comes to. -/
inductive Progress (ρ β : Type) where
  | goes (next : β)
  | ends (outcome : Outcome ρ)
  | raises

/-- The step functions of a type of operations, and what else may happen to the disk. -/
structure Program (π ρ δ ε ω β : Type) where
  fingerprint : Text → π → Text
  completed : ρ
  enter : Phase → Record π ρ → β
  step : ε → δ → β → δ × Progress ρ β
  weather : ω → δ → δ

/-- The transform that persists the end of a step. -/
def Outcome.transform (completed : ρ) (now : ℕ) (claim : Claim) (phase : Phase) :
    Outcome ρ → Transform π ρ
  | .returned result => applyStepResult completed now claim phase result
  | .blocked error => markStepError now claim phase error .blocked
  | .failed error => markStepError now claim phase error .failed

/-! ## Runners -/

/-- The arguments of `try_run_pending_steps`, and whether the type is registered. -/
structure Invocation where
  registered : Bool := true
  retryBlocked : Bool := false
  maxSteps : Option ℕ := none
  claim : Claim

/-- The places of the loop. -/
inductive RunnerPc (π ρ β : Type) where
  | load
  | checkpoint
  | start
  | unsupported
  | ready (phase : Phase) (loaded : Record π ρ)
  | executing (phase : Phase) (body : β)
  | persist (phase : Phase) (outcome : Outcome ρ)

structure Runner (π ρ β : Type) where
  invocation : Invocation
  stepsExecuted : ℕ := 0
  pc : RunnerPc π ρ β := .load

/-- What the loop does with the record that it has loaded; `none` returns. -/
def loopTop (i : Invocation) (stepsExecuted : ℕ) (r : Record π ρ) : Option (RunnerPc π ρ β) :=
  if r.state.terminal then none
  else if r.cancelPending then some .checkpoint
  else if r.state = .blocked ∧ i.retryBlocked = false then none
  else if r.state = .queued ∨ r.state = .blocked then some .start
  else if i.maxSteps.any (· ≤ stepsExecuted) then none
  else if i.registered = false then some .unsupported
  else some (.ready r.phase r)

/-! ## Cancellers -/

/-- The places of `cancel_operation`. -/
inductive CancelPc where
  | load
  | request
  | blocked

/-! ## The system -/

structure World (π ρ δ β : Type) where
  record : Record π ρ
  disk : δ
  runner : Option (Runner π ρ β) := none
  cancellers : ℕ → Option CancelPc := fun _ => none
  requested : Bool := false
  startedAfter : List Phase := []

inductive Action (ε ω : Type) where
  /-- A runner gets the lock. -/
  | arrive (i : Invocation)
  /-- The runner goes on, at the time `now`. -/
  | run (now : ℕ)
  /-- A step goes on, with an answer of the outside world. -/
  | work (env : ε)
  | crash
  | cancel (id : ℕ) (now : ℕ)
  | weather (w : ω)

namespace World

/-- The runner returns, or dies; the lock is free. -/
def leave (w : World π ρ δ β) : World π ρ δ β := { w with runner := none }

def goto (w : World π ρ δ β) (rn : Runner π ρ β) (pc : RunnerPc π ρ β) : World π ρ δ β :=
  { w with runner := some { rn with pc := pc } }

/-- A `mutate` of the runner; an exception ends it. -/
def mutating (P : Program π ρ δ ε ω β) (w : World π ρ δ β) (now : ℕ) (fn : Transform π ρ)
    (next : World π ρ δ β → World π ρ δ β) : World π ρ δ β :=
  match mutate P.fingerprint now fn w.record with
  | none => w.leave
  | some r => next { w with record := r }

/-- The loop, between two steps. -/
def runStep (P : Program π ρ δ ε ω β) (now : ℕ) (w : World π ρ δ β) (rn : Runner π ρ β) :
    World π ρ δ β :=
  match rn.pc with
  | .load =>
    match loopTop rn.invocation rn.stepsExecuted w.record with
    | none => w.leave
    | some pc => w.goto rn pc
  | .checkpoint =>
    w.mutating P now (cancelCheckpoint now) fun w =>
      if w.record.state = .cancelled then w.leave else w.goto rn .load
  | .start =>
    w.mutating P now (claimAndStart now rn.invocation.claim rn.invocation.retryBlocked) fun w =>
      w.goto rn .load
  | .unsupported => w.mutating P now (failUnsupported now rn.invocation.claim) leave
  | .ready phase loaded =>
    { w with
      runner := some { rn with pc := .executing phase (P.enter phase loaded) }
      startedAfter := if w.requested then w.startedAfter ++ [phase] else w.startedAfter }
  | .executing .. => w
  | .persist phase outcome =>
    w.mutating P now (outcome.transform P.completed now rn.invocation.claim phase) fun w =>
      match outcome with
      | .returned _ => w.goto { rn with stepsExecuted := rn.stepsExecuted + 1 } .load
      | _ => if w.record.state = .running then w.goto rn .load else w.leave

def workStep (P : Program π ρ δ ε ω β) (env : ε) (w : World π ρ δ β) (rn : Runner π ρ β) :
    World π ρ δ β :=
  match rn.pc with
  | .executing phase body =>
    match P.step env w.disk body with
    | (disk, .goes next) => { w with disk := disk }.goto rn (.executing phase next)
    | (disk, .ends outcome) => { w with disk := disk }.goto rn (.persist phase outcome)
    | (disk, .raises) => { w with disk := disk }.leave
  | _ => w

/-- The canceller `id` is at another place. -/
def setCanceller (w : World π ρ δ β) (id : ℕ) (pc : Option CancelPc) : World π ρ δ β :=
  { w with cancellers := Function.update w.cancellers id pc }

/-- `cancel_operation` goes on, or is called. -/
def cancelStep (P : Program π ρ δ ε ω β) (id now : ℕ) (w : World π ρ δ β) : World π ρ δ β :=
  match w.cancellers id with
  | none => w.setCanceller id (some .load)
  | some .load =>
    if classifyCancel w.record ≠ .requested then w.setCanceller id none
    else if w.record.state = .blocked ∧ w.record.cancelPhase = none then
      w.setCanceller id (some .blocked)
    else w.setCanceller id (some .request)
  | some .request =>
    match mutate P.fingerprint now (requestCancel now) w.record with
    | none => w.setCanceller id none
    | some r =>
      if r.cancelRequested then { w with record := r, requested := true }.setCanceller id none
      else { w with record := r }.setCanceller id (some .load)
  | some .blocked =>
    match mutate P.fingerprint now (cancelBlocked now) w.record with
    | none => w.setCanceller id none
    | some r =>
      if r.state = .cancelled then { w with record := r, requested := true }.setCanceller id none
      else { w with record := r }.setCanceller id (some .load)

def step (P : Program π ρ δ ε ω β) (w : World π ρ δ β) : Action ε ω → World π ρ δ β
  | .arrive i => if w.runner.isSome then w else { w with runner := some { invocation := i } }
  | .run now => match w.runner with | none => w | some rn => w.runStep P now rn
  | .work env => match w.runner with | none => w | some rn => w.workStep P env rn
  | .crash => w.leave
  | .cancel id now => w.cancelStep P id now
  | .weather weather => { w with disk := P.weather weather w.disk }

end World

/-! ## The rule of runs

What a type of operations keeps in every run is an assertion on the record and the disk, one inside
the steps and one on their ends.  `Triples` asks of each what the engine, the step functions and the
outside world can do to it, and `Holds.step` is the invariant that follows. -/

/-- A record that was loaded some time ago, since when at most a cancel was requested. -/
structure Loaded (l r : Record π ρ) : Prop where
  machine : l.toMachine = r.toMachine
  operationId : l.operationId = r.operationId
  parameters : l.parameters = r.parameters
  phase : l.phase = r.phase
  flag : l.cancelRequested = r.cancelRequested ∨ r.isCancelable = true

/-- What the engine does between two steps. -/
inductive Moves (r r' : Record π ρ) : Prop
  | started (before : r.state = .queued ∨ r.state = .blocked)
      (view : r'.view = { r.view with state := .running })
  | diverted (cancel : Phase) (pending : r.cancelPending = true)
      (cancelPhase : r.cancelPhase = some cancel) (other : r.phase ≠ cancel)
      (view : r'.view = { r.view with state := .running, phase := cancel })
  | cancelled (cancelable : r.isCancelable = true) (cancelPhase : r.cancelPhase = none)
      (view : r'.view = { r.view with state := .cancelled })

/-- What is asserted of a record and a disk, inside a step, and at the end of a step. -/
structure Assertions (π ρ δ β : Type) where
  between : Record π ρ → δ → Prop
  inside : Record π ρ → δ → β → Prop
  after : Record π ρ → δ → Outcome ρ → Prop

/-- What is asked of the outside world. -/
structure Conditions (δ ε ω β : Type) where
  work : ε → δ → β → Prop
  weather : ω → δ → Prop
  unsupported : δ → Prop

/-- What a piece of a step leaves behind. -/
def Assertions.worked (A : Assertions π ρ δ β) (r : Record π ρ) : δ × Progress ρ β → Prop
  | (d, .goes b) => A.between r d ∧ A.inside r d b
  | (d, .ends o) => A.between r d ∧ A.after r d o
  | (d, .raises) => A.between r d

structure Triples (P : Program π ρ δ ε ω β) (C : Conditions δ ε ω β) (A : Assertions π ρ δ β) :
    Prop where
  request {r r' : Record π ρ} {d : δ} : A.between r d → r.Continues r' →
    classifyCancel r = .requested → r'.view = { r.view with cancelRequested := true } →
      A.between r' d ∧ (∀ b, A.inside r d b → A.inside r' d b) ∧ ∀ o, A.after r d o → A.after r' d o
  moves {r r' : Record π ρ} {d : δ} : A.between r d → r.Continues r' → Moves r r' → A.between r' d
  unsupported {r r' : Record π ρ} {d : δ} : C.unsupported d → A.between r d → r.state = .running →
    r.Continues r' → r'.view = { r.view with state := .failed } → A.between r' d
  enter {l r : Record π ρ} {d : δ} : A.between r d → r.state = .running → Loaded l r →
    A.inside r d (P.enter r.phase l)
  work {env : ε} {r : Record π ρ} {d : δ} {b : β} : C.work env d b → A.between r d →
    r.state = .running → A.inside r d b → A.worked r (P.step env d b)
  blocks {error : StepError} {r r' : Record π ρ} {d : δ} : A.between r d → r.state = .running →
    A.after r d (.blocked error) → r.Continues r' → r.cancelPending = false →
      r'.view = { r.view with state := .blocked } → A.between r' d
  fails {error : StepError} {r r' : Record π ρ} {d : δ} : A.between r d → r.state = .running →
    A.after r d (.failed error) → r.Continues r' → r.cancelPending = false →
      r'.view = { r.view with state := .failed } → A.between r' d
  settles {result : StepResult ρ} {r r' : Record π ρ} {d : δ} : A.between r d →
    r.state = .running → A.after r d (.returned result) → r.Continues r' →
      Settled P.completed result r r' → A.between r' d
  weather {x : ω} {r : Record π ρ} {d : δ} : C.weather x d → A.between r d →
    A.between r (P.weather x d) ∧ (∀ b, A.inside r d b → A.inside r (P.weather x d) b) ∧
      ∀ o, A.after r d o → A.after r (P.weather x d) o

/-- What is asserted at a place of the runner. -/
def Assertions.pcHolds (A : Assertions π ρ δ β) (r : Record π ρ) (d : δ) :
    RunnerPc π ρ β → Prop
  | .load | .checkpoint | .start => True
  | .unsupported => r.state = .running
  | .ready phase loaded => r.phase = phase ∧ r.state = .running ∧ Loaded loaded r
  | .executing phase body => r.phase = phase ∧ r.state = .running ∧ A.inside r d body
  | .persist phase outcome => r.phase = phase ∧ r.state = .running ∧ A.after r d outcome

/-- The assertions hold.  A canceller takes a blocked operation to its end only if there is no
cancel phase. -/
structure Holds (A : Assertions π ρ δ β) (w : World π ρ δ β) : Prop where
  between : A.between w.record w.disk
  pc : ∀ rn, w.runner = some rn → A.pcHolds w.record w.disk rn.pc
  placed : ∀ id, w.cancellers id = some .blocked → w.record.cancelPhase = none

def Conditions.permit (C : Conditions δ ε ω β) (w : World π ρ δ β) (a : Action ε ω) : Prop :=
  match a, w.runner.map Runner.pc with
  | .work env, some (.executing _ body) => C.work env w.disk body
  | .run _, some .unsupported => C.unsupported w.disk
  | .weather x, _ => C.weather x w.disk
  | _, _ => True

instance decidablePermit {C : Conditions δ ε ω β} [∀ env d b, Decidable (C.work env d b)]
    [∀ x d, Decidable (C.weather x d)] [∀ d, Decidable (C.unsupported d)] (w : World π ρ δ β)
    (a : Action ε ω) : Decidable (C.permit w a) := by
  unfold Conditions.permit
  split <;> infer_instance

section Rule

variable {P : Program π ρ δ ε ω β} {C : Conditions δ ε ω β} {A : Assertions π ρ δ β}
  {w : World π ρ δ β}

theorem Holds.leave (h : Holds A w) : Holds A w.leave :=
  ⟨h.between, fun _ hrn => (by cases hrn), h.placed⟩

variable {pc : RunnerPc π ρ β} {rn : Runner π ρ β}

theorem Holds.goto (h : Holds A w) (hpc : A.pcHolds w.record w.disk pc) : Holds A (w.goto rn pc) :=
  ⟨h.between, fun _ hrn => by cases hrn; exact hpc, h.placed⟩

/-- A canceller goes to a place, which is not that of a blocked operation with a cancel phase. -/
theorem Holds.setCanceller (h : Holds A w) (id : ℕ) {pc : Option CancelPc}
    (hpc : pc = some .blocked → w.record.cancelPhase = none) : Holds A (w.setCanceller id pc) := by
  refine ⟨h.between, h.pc, fun id' hid' => ?_⟩
  by_cases hid : id' = id
  · subst hid
    refine hpc (Eq.trans ?_ hid')
    exact (Function.update_self id' pc w.cancellers).symm
  · refine h.placed id' (Eq.trans ?_ hid')
    exact (Function.update_of_ne hid pc w.cancellers).symm

/-- The record is written while no step runs. -/
theorem Holds.written (h : Holds A w) {r' : Record π ρ} (hr' : A.between r' w.disk)
    (hmachine : r'.toMachine = w.record.toMachine) : Holds A { w with record := r' }.leave :=
  ⟨hr', fun _ hrn => (by cases hrn), fun id hid =>
    (congrArg Machine.cancelPhase hmachine).trans (h.placed id hid)⟩

variable {d : δ}

theorem pcHolds_loopTop {i : Invocation} {n : ℕ} {r : Record π ρ} (h : loopTop i n r = some pc) :
    A.pcHolds r d pc := by
  unfold loopTop at h
  split_ifs at h with hterminal hpending hblocked hwaiting hsteps hregistered
  · cases h
    trivial
  · cases h
    trivial
  · cases h
    cases hstate : r.state <;> simp_all [State.terminal, Assertions.pcHolds]
  · cases h
    refine ⟨rfl, ?_, rfl, rfl, rfl, rfl, Or.inl rfl⟩
    cases hstate : r.state <;> simp_all [State.terminal]

variable {now : ℕ}

/-- A `mutate` of the runner. -/
theorem Holds.mutating (h : Holds A w) {fn : Transform π ρ}
    {next : World π ρ δ β → World π ρ δ β}
    (hwrites : ∀ u r', fn w.record = .ok (some u) → u.Continues r' → r'.view = u.view →
      A.between r' w.disk)
    (hcontinues : ∀ u, fn w.record = .ok (some u) → w.record.Continues u)
    (hnext : ∀ r', Holds A { w with record := r' }.leave → Holds A (next { w with record := r' })) :
    Holds A (w.mutating P now fn next) := by
  unfold World.mutating
  split
  · exact h.leave
  · next r' hr' =>
    rcases mutate_eq_some hr' with ⟨-, rfl⟩ | ⟨u, hu, -, hur, hview, -⟩
    · exact hnext _ h.leave
    · exact hnext _ (h.written (hwrites u r' hu hur hview)
        ((hcontinues u hu).trans hur).machine)

theorem moves_of_checkpoint {r u r' : Record π ρ} (hpending : r.cancelPending = true)
    (hwhere : (∃ cancel, r.cancelPhase = some cancel ∧ r.phase ≠ cancel ∧
        u.view = { r.view with state := .running, phase := cancel }) ∨
      r.cancelPhase = none ∧ u.view = { r.view with state := .cancelled })
    (hview : r'.view = u.view) : Moves r r' := by
  rcases hwhere with ⟨cancel, hcancel, hother, hu⟩ | ⟨hnone, hu⟩
  · exact .diverted cancel hpending hcancel hother (hview.trans hu)
  · exact .cancelled (Record.cancelPending_iff.mp hpending).2 hnone (hview.trans hu)

theorem Settled.congr {completed : ρ} {result : StepResult ρ} {r u r' : Record π ρ}
    (h : Settled completed result r u) (hview : r'.view = u.view) :
    Settled completed result r r' := by
  cases h with
  | held quiet view => exact .held quiet (hview.trans view)
  | cancelled cancel requested view => exact .cancelled cancel requested (hview.trans view)
  | succeeded last free plain view => exact .succeeded last free plain (hview.trans view)
  | next phase successor free plain view => exact .next phase successor free plain (hview.trans view)

/-- **What a persisted end of a step keeps.** -/
theorem Triples.persist (T : Triples P C A) {r u r' : Record π ρ} {claim : Claim} {phase : Phase}
    {outcome : Outcome ρ} (h : A.between r d) (hstate : r.state = .running)
    (hafter : A.after r d outcome)
    (hu : outcome.transform P.completed now claim phase r = .ok (some u))
    (hcontinues : u.Continues r') (hview : r'.view = u.view) : A.between r' d := by
  cases outcome with
  | returned result =>
    obtain ⟨hru, -, hsettled⟩ := applyStepResult_eq_some hu
    exact T.settles h hstate hafter (hru.trans hcontinues) (hsettled.congr hview)
  | blocked error =>
    obtain ⟨hru, -, -, hwhere⟩ := markStepError_eq_some hu
    rcases hwhere with ⟨hnone, hblocked⟩ | ⟨hpending, hwhere⟩
    · exact T.blocks h hstate hafter (hru.trans hcontinues) hnone (hview.trans hblocked)
    · exact T.moves h (hru.trans hcontinues) (moves_of_checkpoint hpending hwhere hview)
  | failed error =>
    obtain ⟨hru, -, -, hwhere⟩ := markStepError_eq_some hu
    rcases hwhere with ⟨hnone, hfailed⟩ | ⟨hpending, hwhere⟩
    · exact T.fails h hstate hafter (hru.trans hcontinues) hnone (hview.trans hfailed)
    · exact T.moves h (hru.trans hcontinues) (moves_of_checkpoint hpending hwhere hview)

/-- What the loop may do after a write. -/
theorem Holds.resume (h : Holds A w.leave) (hpc : A.pcHolds w.record w.disk pc) :
    Holds A (w.goto rn pc) :=
  ⟨h.between, fun _ hrn => by cases hrn; exact hpc, h.placed⟩

theorem Outcome.continues {completed : ρ} {claim : Claim} {phase : Phase} {outcome : Outcome ρ}
    {r u : Record π ρ} (h : outcome.transform completed now claim phase r = .ok (some u)) :
    r.Continues u := by
  cases outcome with
  | returned result => exact (applyStepResult_eq_some h).1
  | blocked error => exact (markStepError_eq_some h).1
  | failed error => exact (markStepError_eq_some h).1

theorem Holds.runStep (T : Triples P C A) (hrn : w.runner = some rn)
    (hunsupported : rn.pc = .unsupported → C.unsupported w.disk) (now : ℕ) (h : Holds A w) :
    Holds A (w.runStep P now rn) := by
  have hpc := h.pc rn hrn
  unfold World.runStep
  cases hat : rn.pc with
  | load =>
    cases htop : loopTop rn.invocation rn.stepsExecuted w.record with
    | none => exact h.leave
    | some pc => exact h.goto (pcHolds_loopTop htop)
  | checkpoint =>
    refine h.mutating (fun u r' hu hcontinues hview => ?_)
      (fun u hu => (cancelCheckpoint_eq_some hu).1) fun r' hr' => ?_
    · obtain ⟨hru, hpending, hwhere⟩ := cancelCheckpoint_eq_some hu
      exact T.moves h.between (hru.trans hcontinues) (moves_of_checkpoint hpending hwhere hview)
    · simp only
      split
      · exact hr'
      · exact hr'.resume trivial
  | start =>
    refine h.mutating (fun u r' hu hcontinues hview => ?_)
      (fun u hu => (claimAndStart_eq_some hu).1) fun r' hr' => hr'.resume trivial
    obtain ⟨hru, hbefore, hrunning⟩ := claimAndStart_eq_some hu
    exact T.moves h.between (hru.trans hcontinues)
      (.started (hbefore.imp_right And.left) (hview.trans hrunning))
  | unsupported =>
    rw [hat] at hpc
    refine h.mutating (fun u r' hu hcontinues hview => ?_)
      (fun u hu => (failUnsupported_eq_some hu).1) fun r' hr' => hr'
    obtain ⟨hru, hfailed⟩ := failUnsupported_eq_some hu
    exact T.unsupported (hunsupported hat) h.between hpc (hru.trans hcontinues)
      (hview.trans hfailed)
  | ready phase loaded =>
    rw [hat] at hpc
    obtain ⟨rfl, hstate, hloaded⟩ := hpc
    refine ⟨h.between, fun _ hrn => ?_, h.placed⟩
    cases hrn
    exact ⟨rfl, hstate, T.enter h.between hstate hloaded⟩
  | executing phase body => exact h
  | persist phase outcome =>
    rw [hat] at hpc
    obtain ⟨-, hstate, hafter⟩ := hpc
    refine h.mutating (fun u r' hu hcontinues hview =>
      T.persist h.between hstate hafter hu hcontinues hview)
      (fun u hu => Outcome.continues hu) fun r' hr' => ?_
    cases outcome with
    | returned result => exact hr'.resume trivial
    | _ =>
      simp only
      split
      · exact hr'.resume trivial
      · exact hr'

theorem Holds.workStep (T : Triples P C A) (hrn : w.runner = some rn) {env : ε}
    (hwork : ∀ phase body, rn.pc = .executing phase body → C.work env w.disk body) (h : Holds A w) :
    Holds A (w.workStep P env rn) := by
  have hpc := h.pc rn hrn
  unfold World.workStep
  split
  · next phase body hat =>
    rw [hat] at hpc
    obtain ⟨hphase, hstate, hinside⟩ := hpc
    have hworked := T.work (hwork phase body hat) h.between hstate hinside
    split
    · next d next hstep =>
      rw [hstep] at hworked
      refine ⟨hworked.1, fun _ hrn => ?_, h.placed⟩
      cases hrn
      exact ⟨hphase, hstate, hworked.2⟩
    · next d outcome hstep =>
      rw [hstep] at hworked
      refine ⟨hworked.1, fun _ hrn => ?_, h.placed⟩
      cases hrn
      exact ⟨hphase, hstate, hworked.2⟩
    · next d hstep =>
      rw [hstep] at hworked
      exact ⟨hworked, fun _ hrn => (by cases hrn), h.placed⟩
  · exact h

theorem isCancelable_of_requested {r : Record π ρ} (h : classifyCancel r = .requested) :
    r.isCancelable = true := by
  unfold classifyCancel at h
  split_ifs at h with h₁ h₂ h₃
  simpa using h₃

variable {r r' : Record π ρ}

/-- A request leaves the places of the runner as they are. -/
theorem Triples.request_pc (T : Triples P C A) (h : A.between r d) (hcontinues : r.Continues r')
    (hrequested : classifyCancel r = .requested)
    (hview : r'.view = { r.view with cancelRequested := true }) (hpc : A.pcHolds r d pc) :
    A.pcHolds r' d pc := by
  obtain ⟨-, hinside, hafter⟩ := T.request h hcontinues hrequested hview
  obtain ⟨hstate, hphase, -, -⟩ := View.mk.inj hview
  cases pc with
  | load => trivial
  | checkpoint => trivial
  | start => trivial
  | unsupported => exact hstate.trans hpc
  | ready phase loaded =>
    obtain ⟨hp, hs, hl⟩ := hpc
    refine ⟨hphase.trans hp, hstate.trans hs, hl.machine.trans hcontinues.machine.symm,
      hl.operationId.trans hcontinues.operationId.symm, hl.parameters.trans hcontinues.parameters.symm,
      hl.phase.trans hphase.symm, Or.inr ?_⟩
    have hopen := isCancelable_of_requested hrequested
    unfold Record.isCancelable at hopen ⊢
    rw [hcontinues.machine, hstate, hphase]
    exact hopen
  | executing phase body =>
    obtain ⟨hp, hs, hb⟩ := hpc
    exact ⟨hphase.trans hp, hstate.trans hs, hinside body hb⟩
  | persist phase outcome =>
    obtain ⟨hp, hs, ho⟩ := hpc
    exact ⟨hphase.trans hp, hstate.trans hs, hafter outcome ho⟩

/-- A blocked operation has no runner inside a step. -/
theorem pcHolds_of_blocked (hblocked : r.state = .blocked) (hpc : A.pcHolds r d pc) : A.pcHolds r' d pc := by
  cases pc with
  | load => trivial
  | checkpoint => trivial
  | start => trivial
  | unsupported => exact absurd (hblocked.symm.trans hpc) (by decide)
  | ready phase loaded => exact absurd (hblocked.symm.trans hpc.2.1) (by decide)
  | executing phase body => exact absurd (hblocked.symm.trans hpc.2.1) (by decide)
  | persist phase outcome => exact absurd (hblocked.symm.trans hpc.2.1) (by decide)

/-- What a canceller writes: nothing, a request, or the end of a blocked operation without a cancel
phase. -/
inductive Cancels (r r' : Record π ρ) : Prop
  | nothing (same : r' = r)
  | requests (continues : r.Continues r') (requested : classifyCancel r = .requested)
      (view : r'.view = { r.view with cancelRequested := true })
  | ends (continues : r.Continues r') (blocked : r.state = .blocked)
      (cancelable : r.isCancelable = true) (view : r'.view = { r.view with state := .cancelled })

theorem cancels_request {fingerprint : Text → π → Text}
    (h : mutate fingerprint now (requestCancel now) r = some r') : Cancels r r' := by
  rcases mutate_eq_some h with ⟨-, rfl⟩ | ⟨u, hu, -, hcontinues, hview, -⟩
  · exact .nothing rfl
  · obtain ⟨hru, hrequested, hu'⟩ := requestCancel_eq_some hu
    exact .requests (hru.trans hcontinues) hrequested (hview.trans hu')

theorem cancels_blocked {fingerprint : Text → π → Text}
    (h : mutate fingerprint now (cancelBlocked now) r = some r') : Cancels r r' := by
  rcases mutate_eq_some h with ⟨-, rfl⟩ | ⟨u, hu, -, hcontinues, hview, -⟩
  · exact .nothing rfl
  · obtain ⟨hru, hblocked, hcancelable, hu'⟩ := cancelBlocked_eq_some hu
    exact .ends (hru.trans hcontinues) hblocked hcancelable (hview.trans hu')

/-- **A canceller keeps the assertions.** -/
theorem Holds.cancels (T : Triples P C A) (h : Holds A w) {r' : Record π ρ}
    (hcancels : Cancels w.record r')
    (hplace : w.record.state = .blocked → r'.state = .cancelled → w.record.cancelPhase = none) :
    Holds A { w with record := r' } := by
  have hplaced (hmachine : r'.toMachine = w.record.toMachine) (id : ℕ)
      (hid : w.cancellers id = some .blocked) : r'.cancelPhase = none := by
    rw [hmachine]
    exact h.placed id hid
  cases hcancels with
  | nothing same => rw [same]; exact h
  | requests continues requested view =>
    exact ⟨(T.request h.between continues requested view).1,
      fun rn hrn => T.request_pc h.between continues requested view (h.pc rn hrn),
      hplaced continues.machine⟩
  | ends continues blocked cancelable view =>
    have hnone := hplace blocked (View.mk.inj view).1
    exact ⟨T.moves h.between continues (.cancelled cancelable hnone view),
      fun rn hrn => pcHolds_of_blocked blocked (h.pc rn hrn), hplaced continues.machine⟩

theorem Holds.cancelStep (T : Triples P C A) (h : Holds A w) (id now : ℕ) :
    Holds A (w.cancelStep P id now) := by
  unfold World.cancelStep
  split
  · exact h.setCanceller id nofun
  · split_ifs with hclass hblocked
    · exact h.setCanceller id nofun
    · exact h.setCanceller id fun _ => hblocked.2
    · exact h.setCanceller id nofun
  · split
    · exact h.setCanceller id nofun
    · next r' hr' =>
      have hkeeps := h.cancels T (cancels_request hr') fun hblocked hcancelled => by
        rcases mutate_eq_some hr' with ⟨-, rfl⟩ | ⟨u, hu, -, -, hview, -⟩
        · exact absurd (hblocked.symm.trans hcancelled) (by decide)
        · have hu' := (requestCancel_eq_some hu).2.2
          have hstate := (View.mk.inj (hview.trans hu')).1
          exact absurd (hblocked.symm.trans (hstate.symm.trans hcancelled)) (by decide)
      split_ifs
      · exact Holds.setCanceller (w := { w with record := r', requested := true })
          ⟨hkeeps.between, hkeeps.pc, hkeeps.placed⟩ id nofun
      · exact hkeeps.setCanceller id nofun
  · next hat =>
    split
    · exact h.setCanceller id nofun
    · next r' hr' =>
      have hkeeps := h.cancels T (cancels_blocked hr') fun _ _ => h.placed id hat
      split_ifs
      · exact Holds.setCanceller (w := { w with record := r', requested := true })
          ⟨hkeeps.between, hkeeps.pc, hkeeps.placed⟩ id nofun
      · exact hkeeps.setCanceller id nofun

/-- The weather leaves the places of the runner as they are. -/
theorem Triples.weather_pc (T : Triples P C A) {x : ω} {r : Record π ρ} (hx : C.weather x d)
    (h : A.between r d) (hpc : A.pcHolds r d pc) : A.pcHolds r (P.weather x d) pc := by
  obtain ⟨-, hinside, hafter⟩ := T.weather hx h
  cases pc with
  | executing phase body => exact ⟨hpc.1, hpc.2.1, hinside body hpc.2.2⟩
  | persist phase outcome => exact ⟨hpc.1, hpc.2.1, hafter outcome hpc.2.2⟩
  | _ => exact hpc

/-- **The rule of one action.** -/
theorem Holds.step (T : Triples P C A) {a : Action ε ω} (ha : C.permit w a) (h : Holds A w) :
    Holds A (w.step P a) := by
  cases a with
  | arrive i =>
    simp only [World.step]
    split
    · exact h
    · exact ⟨h.between, fun _ hrn => (by cases hrn; trivial), h.placed⟩
  | run now =>
    simp only [World.step]
    cases hrn : w.runner with
    | none => exact h
    | some rn =>
      refine h.runStep T hrn (fun hat => ?_) now
      unfold Conditions.permit at ha
      rw [hrn, Option.map_some, hat] at ha
      exact ha
  | work env =>
    simp only [World.step]
    cases hrn : w.runner with
    | none => exact h
    | some rn =>
      refine h.workStep T hrn fun phase body hat => ?_
      unfold Conditions.permit at ha
      rw [hrn, Option.map_some, hat] at ha
      exact ha
  | crash => exact h.leave
  | cancel id now => exact h.cancelStep T id now
  | weather x =>
    exact ⟨(T.weather ha h.between).1, fun rn hrn => T.weather_pc ha h.between (h.pc rn hrn),
      h.placed⟩

/-- **The rule of runs.** -/
theorem holds_run (T : Triples P C A) (h : Holds A w) {acts : List (Action ε ω)}
    (hacts : Along (World.step P) C.permit w acts) : Holds A (run (World.step P) w acts) :=
  run_invariant_along (I := Holds A) (P := C.permit) (fun _ _ ha hs => hs.step T ha) h hacts

end Rule

end Operations
end SemanticMemory
