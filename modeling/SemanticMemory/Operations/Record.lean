import SemanticMemory.Basic

/-!
# Operation records

The record of a long operation and the transforms that move it: `daemon/operations.py`.

## What is modelled, and how

* A record is a value of `Record`, so the shape of the JSON object that `validate_record` checks
  holds by its type; `validateRecord` is what remains of the check.  Times are numbers.
* A transform is the function that `OperationStore.mutate` applies to the freshest record: it raises,
  leaves the record alone (`none`), or gives the record to be written.
* `mutate` is the whole of a read-modify-write that wins its compare-and-swap.
* The parameters `π` and the result `ρ` of a type of operations, and the fingerprint of the
  parameters, are parameters.
-/

namespace SemanticMemory
namespace Operations

/-! ## States and phases -/

/-- `STATES`. -/
inductive State where
  | queued | running | blocked | succeeded | failed | cancelled
  deriving DecidableEq

/-- `TERMINAL_STATES`. -/
def State.terminal : State → Bool
  | .succeeded | .failed | .cancelled => true
  | _ => false

/-- `_STATE_TRANSITIONS`. -/
def State.transitions : State → List State
  | .queued => [.running, .cancelled]
  | .running => [.blocked, .failed, .succeeded, .cancelled]
  | .blocked => [.running, .cancelled]
  | _ => []

/-- `CANONICAL_PHASES`. -/
inductive Phase where
  | preflight | waitingForQuiesce | staging | publishing | reopening | catchingUp | cleanup
  deriving DecidableEq

/-- The position in `CANONICAL_PHASES`. -/
def Phase.canonicalIndex : Phase → ℕ
  | .preflight => 0
  | .waitingForQuiesce => 1
  | .staging => 2
  | .publishing => 3
  | .reopening => 4
  | .catchingUp => 5
  | .cleanup => 6

/-! ## The record -/

inductive CauseValue where
  | null
  | text (value : Text)
  | number (value : ℤ)
  deriving DecidableEq

/-- The error object of `make_error`. -/
structure ErrorObject where
  errorVersion : ℕ := 1
  code : Text
  message : Text
  occurredAt : ℕ
  retryable : Bool
  phase : Phase
  remediation : Text
  cause : Option (List (Text × CauseValue))

/-- An exception of a step: the arguments of `OperationBlocked` and `OperationFailed`. -/
structure StepError where
  code : Text
  phase : Phase
  retryable : Bool := false
  remediation : Option Text := none
  cause : Option (List (Text × CauseValue)) := none
  deriving DecidableEq

/-- `_STABLE_MESSAGES`, as far as an error object of a record can bear its codes. -/
def stableMessages : List (Text × Text) :=
  [(ascii "unsupported_operation_type", ascii "no executor is registered for this operation type"),
    (ascii "deterministic_step_failure",
      ascii "the operation failed deterministically and needs an explicit retry"),
    (ascii "transient_step_failure", ascii "the operation failed on a transient condition")]

def defaultRemediation (retryable : Bool) : Text :=
  if retryable then ascii "retry the operation"
  else ascii "fix the condition and explicitly retry"

def makeError (now : ℕ) (error : StepError) : ErrorObject where
  code := error.code
  message := (stableMessages.lookup error.code).getD error.code
  occurredAt := now
  retryable := error.retryable
  phase := error.phase
  remediation :=
    match error.remediation with
    | some remediation =>
      if remediation = [] then defaultRemediation error.retryable else remediation
    | none => defaultRemediation error.retryable
  cause := error.cause

/-- `PROGRESS_UNITS`. -/
inductive ProgressUnit where
  | events | bytes | chunks
  deriving DecidableEq

def ProgressUnit.name : ProgressUnit → Text
  | .events => ascii "events"
  | .bytes => ascii "bytes"
  | .chunks => ascii "chunks"

def progressUnits : List ProgressUnit := [.events, .bytes, .chunks]

/-- The progress that a step reports. -/
abbrev Delta := List (Text × ℤ)

/-- `LOG_KINDS`. -/
inductive EventKind where
  | transition | progress | cancelRequested | terminal
  deriving DecidableEq

/-- An entry of the log. -/
structure Event where
  eventVersion : ℕ := 1
  seq : ℕ
  at_ : ℕ
  kind : EventKind
  state : State
  phase : Phase
  progress : Option Delta := none
  errorCode : Option Text := none
  outcome : Option State := none

/-- `make_runner_claim`. -/
structure Claim where
  pid : ℕ
  token : Text
  claimedAt : ℕ

/-- The phase machine that an operation is created with. -/
structure Machine where
  phases : List Phase
  irreversiblePhase : Phase
  cancelPhase : Option Phase
  deriving DecidableEq

structure Record (π ρ : Type) extends Machine where
  operationVersion : ℕ := 1
  operationId : Text
  type : Text
  state : State
  phase : Phase
  parameters : π
  parametersFingerprint : Text
  createdAt : ℕ
  updatedAt : ℕ
  cancelRequested : Bool
  cancelRequestedAt : Option ℕ
  progress : ProgressUnit → ℤ
  result : Option ρ
  error : Option ErrorObject
  log : List Event
  rev : ℕ
  runnerClaim : Option Claim

variable {π ρ : Type}

def safeIdChars : Text :=
  ascii "abcdefghijklmnopqrstuvwxyzABCDEFGHIJKLMNOPQRSTUVWXYZ0123456789-_"

/-- `validate_operation_id`. -/
def validOperationId (id : Text) : Bool :=
  id ≠ [] && id.length ≤ 64 && id.all (· ∈ safeIdChars)

/-- The machines that `new_operation` accepts. -/
def Machine.accepted (m : Machine) : Bool :=
  m.phases ≠ [] && m.irreversiblePhase ∈ m.phases && m.phases.Nodup &&
    match m.cancelPhase with
    | none => true
    | some cancel =>
      cancel ∈ m.phases && m.phases.idxOf m.irreversiblePhase < m.phases.idxOf cancel

/-- `new_operation`; `none` is a `ValueError`. -/
def newOperation (fingerprint : Text → π → Text) (now : ℕ) (id type : Text) (parameters : π)
    (m : Machine) : Option (Record π ρ) :=
  if validOperationId id = false ∨ m.accepted = false then none
  else
    m.phases.head?.map fun first =>
      { m with
        operationId := id
        type := type
        state := .queued
        phase := first
        parameters := parameters
        parametersFingerprint := fingerprint type parameters
        createdAt := now
        updatedAt := now
        cancelRequested := false
        cancelRequestedAt := none
        progress := fun _ => 0
        result := none
        error := none
        log := []
        rev := 1
        runnerClaim := none }

/-! ## `validate_record` -/

def validError (error : ErrorObject) : Bool :=
  error.errorVersion = 1 && error.code ≠ [] && error.message ≠ []

def validClaim (claim : Claim) : Bool := 0 < claim.pid && claim.token ≠ []

/-- The check of one log entry. -/
def validEvent (phases : List Phase) (seq : ℕ) (e : Event) : Bool :=
  e.seq = seq && e.eventVersion = 1 && e.phase ∈ phases &&
    (e.kind ≠ .progress ||
      match e.progress with
      | none => false
      | some delta =>
        delta ≠ [] &&
          delta.all fun p => p.1 ∈ progressUnits.map ProgressUnit.name && 0 ≤ p.2) &&
    (e.kind ≠ .terminal ||
      match e.outcome with
      | none => false
      | some outcome => outcome ∈ [.succeeded, .failed, .cancelled, .blocked])

/-- The check of the log from the entry number `seq` on. -/
def validLog (phases : List Phase) : ℕ → List Event → Bool
  | _, [] => true
  | seq, e :: log => validEvent phases seq e && validLog phases (seq + 1) log

def validateRecord (fingerprint : Text → π → Text) (r : Record π ρ) : Bool :=
  r.operationVersion = 1 && validOperationId r.operationId && r.type ≠ [] &&
    (r.parametersFingerprint.length = 64 &&
      r.parametersFingerprint.all (· ∈ ascii "0123456789abcdef") &&
      r.parametersFingerprint = fingerprint r.type r.parameters) &&
    (r.cancelRequested = false || r.cancelRequestedAt.isSome) &&
    r.error.all validError && 1 ≤ r.rev && r.runnerClaim.all validClaim &&
    r.toMachine.accepted &&
    (r.phases.map Phase.canonicalIndex).Pairwise (· ≤ ·) &&
    r.phase ∈ r.phases &&
    progressUnits.all (fun unit => 0 ≤ r.progress unit) &&
    validLog r.phases 1 r.log

/-! ## The state machine -/

inductive InvalidTransition where
  | illegalState (current new : State)
  | unknownPhase (phase : Phase)
  | illegalPhase (current new : Phase)

def validateStateTransition (current new : State) : Except InvalidTransition Unit :=
  if new ∈ current.transitions then .ok () else .error (.illegalState current new)

namespace Record

def phaseIndex (r : Record π ρ) (phase : Phase) : Except InvalidTransition ℕ :=
  if phase ∈ r.phases then .ok (r.phases.idxOf phase) else .error (.unknownPhase phase)

def validatePhaseTransition (r : Record π ρ) (new : Phase) : Except InvalidTransition Unit :=
  if r.phase = new then .ok ()
  else if new ∉ r.phases then .error (.unknownPhase new)
  else if r.phase ∉ r.phases then .error (.unknownPhase r.phase)
  else if r.phases.idxOf new ≠ r.phases.idxOf r.phase + 1 then
    .error (.illegalPhase r.phase new)
  else .ok ()

def isCancelable (r : Record π ρ) : Bool :=
  if r.state.terminal then false
  else if r.state = .queued then true
  else if r.phase ∉ r.phases then false
  else r.phases.idxOf r.phase < r.phases.idxOf r.irreversiblePhase

def cancelPending (r : Record π ρ) : Bool := r.cancelRequested && r.isCancelable

def appendEvent (r : Record π ρ) (now : ℕ) (kind : EventKind) (state : State) (phase : Phase)
    (progress : Option Delta := none) (errorCode : Option Text := none)
    (outcome : Option State := none) : Record π ρ :=
  { r with
    log := r.log ++
      [{ seq := r.log.length + 1, at_ := now, kind := kind, state := state, phase := phase,
         progress := progress, errorCode := errorCode, outcome := outcome }] }

def refreshClaim (r : Record π ρ) (now : ℕ) (claim : Claim) : Record π ρ :=
  { r with runnerClaim := some { claim with claimedAt := now } }

end Record

/-! ## The transforms -/

/-- The function given to `mutate`. -/
abbrev Transform (π ρ : Type) := Record π ρ → Except InvalidTransition (Option (Record π ρ))

structure StepResult (ρ : Type) where
  progress : Option Delta := none
  advance : Bool := false
  result : Option ρ := none

/-- `_classify_cancel`. -/
inductive Disposition where
  | alreadyCancelled | terminal | uncancellable | requested
  deriving DecidableEq

def classifyCancel (r : Record π ρ) : Disposition :=
  if r.state = .cancelled then .alreadyCancelled
  else if r.state = .succeeded ∨ r.state = .failed then .terminal
  else if r.isCancelable = false then .uncancellable
  else .requested

/-- The end of a cancel: terminal `cancelled`. -/
def Record.endCancelled (r : Record π ρ) (now : ℕ) (phase : Phase) : Record π ρ :=
  { r.appendEvent now .terminal .cancelled phase none none (some .cancelled) with
    state := .cancelled }

/-- `cancel_blocked` of `cancel_operation`. -/
def cancelBlocked (now : ℕ) : Transform π ρ := fun r => do
  if r.state ≠ .blocked ∨ r.isCancelable = false then return none
  validateStateTransition r.state .cancelled
  return some (r.endCancelled now r.phase)

/-- `apply` of `cancel_operation`. -/
def requestCancel (now : ℕ) : Transform π ρ := fun r =>
  if classifyCancel r ≠ .requested then .ok none
  else if r.cancelRequested then .ok none
  else
    .ok (some
      (({ r with cancelRequested := true, cancelRequestedAt := some now } : Record π ρ).appendEvent
        now .cancelRequested r.state r.phase))

/-- `_claim_and_start_transform`. -/
def claimAndStart (now : ℕ) (claim : Claim) (retryBlocked : Bool) : Transform π ρ := fun r =>
  if r.state = .queued then
    .ok (some
      (({ r.refreshClaim now claim with state := .running } : Record π ρ).appendEvent
        now .transition .running r.phase))
  else if r.state = .blocked ∧ retryBlocked = true then
    .ok (some
      (({ r.refreshClaim now claim with state := .running, error := none } : Record π ρ).appendEvent
        now .transition .running r.phase))
  else .ok none

/-- `_cancel_checkpoint_transform`. -/
def cancelCheckpoint (now : ℕ) : Transform π ρ := fun r => do
  if r.cancelPending = false then return none
  match r.cancelPhase with
  | some cancel =>
    if r.phase = cancel then return none
    let r ← if r.state = .queued ∨ r.state = .blocked then do
        validateStateTransition r.state .running
        pure { r with state := .running, error := none }
      else pure r
    return some { r.appendEvent now .transition .running cancel with phase := cancel }
  | none =>
    validateStateTransition r.state .cancelled
    return some (r.endCancelled now r.phase)

/-- `_fail_unsupported_transform`. -/
def failUnsupported (now : ℕ) (claim : Claim) : Transform π ρ := fun r =>
  let code := ascii "unsupported_operation_type"
  .ok (some
    { (({ r.refreshClaim now claim with
          error := some (makeError now { code := code, phase := r.phase }) } : Record π ρ).appendEvent
        now .terminal .failed r.phase none (some code) (some .failed)) with
      state := .failed })

/-- `_mark_step_error_transform`. -/
def markStepError (now : ℕ) (claim : Claim) (phase : Phase) (error : StepError) (state : State) :
    Transform π ρ := fun r =>
  if r.phase ≠ phase ∨ r.state ≠ .running then .ok none
  else
    let r := r.refreshClaim now claim
    if r.cancelPending then cancelCheckpoint now r
    else
      .ok (some
        { (({ r with error := some (makeError now error) } : Record π ρ).appendEvent
            now .terminal state phase none (some error.code) (some state)) with
          state := state })

/-- The progress a step reports is added to the record, and logged. -/
def Record.addProgress (r : Record π ρ) (now : ℕ) (phase : Phase) : Option Delta → Record π ρ
  | none | some [] => r
  | some delta =>
    ({ r with
      progress := fun unit => r.progress unit + (delta.lookup unit.name).getD 0 }
        : Record π ρ).appendEvent now .progress r.state phase (some delta)

/-- The end of `_apply_step_result_transform`, after the progress is added; `completed` is the
result `{"completed": True}`. -/
def settleStep (completed : ρ) (now : ℕ) (result : StepResult ρ) : Transform π ρ := fun r => do
  if result.advance = false then return some r
  if r.cancelPending = true ∧ some r.phase ≠ r.cancelPhase then
    -- the advance is held, so that the runner's checkpoint comes first
    return some r
  else if some r.phase = r.cancelPhase ∧ r.cancelRequested = true then
    return some (({ r with error := none } : Record π ρ).endCancelled now r.phase)
  else if some r.phase = r.phases.getLast? then
    return some
      { (({ r with result := some (result.result.getD completed), error := none }
            : Record π ρ).appendEvent now .terminal .succeeded r.phase none none (some .succeeded))
        with state := .succeeded }
  else
    let index ← r.phaseIndex r.phase
    match r.phases[index + 1]? with
    | none => .error (.unknownPhase r.phase)
    | some next =>
      r.validatePhaseTransition next
      return some { r.appendEvent now .transition .running next with phase := next }

/-- `_apply_step_result_transform`. -/
def applyStepResult (completed : ρ) (now : ℕ) (claim : Claim) (phase : Phase)
    (result : StepResult ρ) : Transform π ρ := fun r =>
  if r.phase ≠ phase then .ok none
  else
    settleStep completed now result
      ((r.refreshClaim now claim).addProgress now phase result.progress)

/-- `OperationStore.mutate`, with a compare-and-swap that is not lost.  `none` is an exception: the
transform's own, or of a record that `_write_record` refuses. -/
def mutate (fingerprint : Text → π → Text) (now : ℕ) (fn : Transform π ρ) (r : Record π ρ) :
    Option (Record π ρ) :=
  match fn r with
  | .error _ => none
  | .ok none => some r
  | .ok (some r') =>
    if validateRecord fingerprint r' then some { r' with updatedAt := now, rev := r'.rev + 1 }
    else none

/-! ## What a transform writes -/

/-- What the runner and the cancellers look at. -/
structure View (ρ : Type) where
  state : State
  phase : Phase
  cancelRequested : Bool
  result : Option ρ

def Record.view (r : Record π ρ) : View ρ := ⟨r.state, r.phase, r.cancelRequested, r.result⟩

/-- What no transform touches, and what it can only extend. -/
structure Record.Continues (r w : Record π ρ) : Prop where
  machine : w.toMachine = r.toMachine
  operationId : w.operationId = r.operationId
  type : w.type = r.type
  parameters : w.parameters = r.parameters
  rev : r.rev ≤ w.rev
  log : r.log <+: w.log
  requested : r.cancelRequested = true → w.cancelRequested = true

namespace Record

variable (r : Record π ρ) (now : ℕ)

theorem view_addProgress (phase : Phase) (delta : Option Delta) :
    (r.addProgress now phase delta).view = r.view := by
  rcases delta with _ | _ | _ <;> rfl

theorem Continues.refl : r.Continues r := ⟨rfl, rfl, rfl, rfl, le_rfl, List.prefix_rfl, id⟩

/-- One more entry of the log. -/
theorem continues_of_append {w : Record π ρ} (e : Event) (machine : w.toMachine = r.toMachine)
    (operationId : w.operationId = r.operationId) (type : w.type = r.type)
    (parameters : w.parameters = r.parameters) (rev : w.rev = r.rev) (log : w.log = r.log ++ [e])
    (requested : r.cancelRequested = true → w.cancelRequested = true) : r.Continues w :=
  ⟨machine, operationId, type, parameters, rev.ge, log ▸ List.prefix_append _ _, requested⟩

variable {r}

theorem Continues.trans {w v : Record π ρ} (h : r.Continues w) (h' : w.Continues v) :
    r.Continues v where
  machine := h'.machine.trans h.machine
  operationId := h'.operationId.trans h.operationId
  type := h'.type.trans h.type
  parameters := h'.parameters.trans h.parameters
  rev := h.rev.trans h'.rev
  log := h.log.trans h'.log
  requested hr := h'.requested (h.requested hr)

theorem continues_refreshClaim (claim : Claim) : r.Continues (r.refreshClaim now claim) :=
  ⟨rfl, rfl, rfl, rfl, le_rfl, List.prefix_rfl, id⟩

theorem continues_addProgress (phase : Phase) (delta : Option Delta) :
    r.Continues (r.addProgress now phase delta) := by
  rcases delta with _ | _ | ⟨p, delta⟩
  · exact .refl r
  · exact .refl r
  · exact r.continues_of_append _ rfl rfl rfl rfl rfl rfl id

/-- Whether a cancel is pending can be seen from outside. -/
theorem cancelPending_congr {w : Record π ρ} (machine : w.toMachine = r.toMachine)
    (view : w.view = r.view) : w.cancelPending = r.cancelPending := by
  obtain ⟨hstate, hphase, hrequested, -⟩ := View.mk.inj view
  unfold cancelPending isCancelable
  rw [machine, hstate, hphase, hrequested]

theorem cancelPending_iff : r.cancelPending = true ↔ r.cancelRequested = true ∧ r.isCancelable = true :=
  Bool.and_eq_true_iff

end Record

section Transforms

variable {r w : Record π ρ} {now : ℕ} {claim : Claim}

theorem cancelBlocked_eq_some (h : cancelBlocked now r = .ok (some w)) :
    r.Continues w ∧ r.state = .blocked ∧ r.isCancelable = true ∧
      w.view = { r.view with state := .cancelled } := by
  unfold cancelBlocked at h
  split at h
  · cases h
  · next hnot =>
    obtain ⟨hblocked, hcancelable⟩ := not_or.mp hnot
    rw [not_not.mp hblocked] at h
    cases h
    exact ⟨r.continues_of_append _ rfl rfl rfl rfl rfl rfl id, not_not.mp hblocked,
      by simpa using hcancelable, rfl⟩

theorem requestCancel_eq_some (h : requestCancel now r = .ok (some w)) :
    r.Continues w ∧ classifyCancel r = .requested ∧
      w.view = { r.view with cancelRequested := true } := by
  unfold requestCancel at h
  split_ifs at h with hclass hflag
  · cases h
  · cases h
  cases h
  exact ⟨r.continues_of_append _ rfl rfl rfl rfl rfl rfl fun _ => rfl, not_not.mp hclass, rfl⟩

theorem claimAndStart_eq_some {retryBlocked : Bool}
    (h : claimAndStart now claim retryBlocked r = .ok (some w)) :
    r.Continues w ∧ (r.state = .queued ∨ r.state = .blocked ∧ retryBlocked = true) ∧
      w.view = { r.view with state := .running } := by
  unfold claimAndStart at h
  split_ifs at h with hqueued hblocked
  · cases h
    exact ⟨r.continues_of_append _ rfl rfl rfl rfl rfl rfl id, Or.inl hqueued, rfl⟩
  · cases h
    exact ⟨r.continues_of_append _ rfl rfl rfl rfl rfl rfl id, Or.inr hblocked, rfl⟩
  · cases h

/-- An operation that can be cancelled is not at its end. -/
theorem not_terminal_of_isCancelable (h : r.isCancelable = true) : r.state.terminal = false := by
  unfold Record.isCancelable at h
  split_ifs at h <;> simp_all

/-- A cancel that is honoured goes to the cancel phase, or to the end if there is none. -/
theorem cancelCheckpoint_eq_some (h : cancelCheckpoint now r = .ok (some w)) :
    r.Continues w ∧ r.cancelPending = true ∧
      ((∃ cancel, r.cancelPhase = some cancel ∧ r.phase ≠ cancel ∧
          w.view = { r.view with state := .running, phase := cancel }) ∨
        r.cancelPhase = none ∧ w.view = { r.view with state := .cancelled }) := by
  unfold cancelCheckpoint at h
  split at h
  · cases h
  next hpending =>
  have hpending : r.cancelPending = true := by simpa using hpending
  have hopen := not_terminal_of_isCancelable (Record.cancelPending_iff.mp hpending).2
  split at h
  · next cancel hcancel =>
    split at h
    · cases h
    next hphase =>
    cases hstate : r.state with
    | queued =>
      rw [hstate] at h
      cases h
      exact ⟨r.continues_of_append _ rfl rfl rfl rfl rfl rfl id, hpending,
        Or.inl ⟨cancel, hcancel, hphase, rfl⟩⟩
    | blocked =>
      rw [hstate] at h
      cases h
      exact ⟨r.continues_of_append _ rfl rfl rfl rfl rfl rfl id, hpending,
        Or.inl ⟨cancel, hcancel, hphase, rfl⟩⟩
    | running =>
      rw [hstate] at h
      cases h
      refine ⟨r.continues_of_append _ rfl rfl rfl rfl rfl rfl id, hpending,
        Or.inl ⟨cancel, hcancel, hphase, ?_⟩⟩
      show View.mk _ _ _ _ = _
      rw [← hstate]
      rfl
    | _ => rw [hstate] at hopen; cases hopen
  · next hcancel =>
    cases htransition : validateStateTransition r.state .cancelled with
    | error e => rw [htransition] at h; cases h
    | ok u =>
      rw [htransition] at h
      cases h
      exact ⟨r.continues_of_append _ rfl rfl rfl rfl rfl rfl id, hpending, Or.inr ⟨hcancel, rfl⟩⟩

theorem failUnsupported_eq_some (h : failUnsupported now claim r = .ok (some w)) :
    r.Continues w ∧ w.view = { r.view with state := .failed } := by
  cases h
  exact ⟨r.continues_of_append _ rfl rfl rfl rfl rfl rfl id, rfl⟩

/-- A failure is recorded, unless a cancel comes first. -/
theorem markStepError_eq_some {phase : Phase} {error : StepError} {state : State}
    (h : markStepError now claim phase error state r = .ok (some w)) :
    r.Continues w ∧ r.phase = phase ∧ r.state = .running ∧
      (r.cancelPending = false ∧ w.view = { r.view with state := state } ∨
        r.cancelPending = true ∧
          ((∃ cancel, r.cancelPhase = some cancel ∧ r.phase ≠ cancel ∧
              w.view = { r.view with state := .running, phase := cancel }) ∨
            r.cancelPhase = none ∧ w.view = { r.view with state := .cancelled })) := by
  unfold markStepError at h
  split at h
  · cases h
  next hnot =>
  obtain ⟨hphase, hstate⟩ := not_or.mp hnot
  simp only at h
  split at h
  · obtain ⟨hcontinues, hpending, hview⟩ := cancelCheckpoint_eq_some h
    exact ⟨(Record.continues_refreshClaim now claim).trans hcontinues, not_not.mp hphase,
      not_not.mp hstate, Or.inr ⟨hpending, hview⟩⟩
  · next hpending =>
    have hnone : r.cancelPending = false := Bool.eq_false_iff.mpr hpending
    cases h
    exact ⟨r.continues_of_append _ rfl rfl rfl rfl rfl rfl id, not_not.mp hphase,
      not_not.mp hstate, Or.inl ⟨hnone, rfl⟩⟩

/-- What a step's result makes of the place it comes to. -/
inductive Settled (completed : ρ) (result : StepResult ρ) (r w : Record π ρ) : Prop
  | held (quiet : result.advance = false ∨ r.cancelPending = true) (view : w.view = r.view)
  | cancelled (cancel : some r.phase = r.cancelPhase) (requested : r.cancelRequested = true)
      (view : w.view = { r.view with state := .cancelled })
  | succeeded (last : some r.phase = r.phases.getLast?)
      (free : r.cancelPending = false ∨ some r.phase = r.cancelPhase)
      (plain : ¬ (some r.phase = r.cancelPhase ∧ r.cancelRequested = true))
      (view : w.view =
        { r.view with state := .succeeded, result := some (result.result.getD completed) })
  | next (phase : Phase) (successor : r.phases[r.phases.idxOf r.phase + 1]? = some phase)
      (free : r.cancelPending = false ∨ some r.phase = r.cancelPhase)
      (plain : ¬ (some r.phase = r.cancelPhase ∧ r.cancelRequested = true))
      (view : w.view = { r.view with phase := phase })

/-- **The end of a step.**  It stays in its phase, or it ends a cancel, the operation or the
phase. -/
theorem settleStep_eq_some {completed : ρ} {result : StepResult ρ}
    (h : settleStep completed now result r = .ok (some w)) :
    r.Continues w ∧ Settled completed result r w := by
  unfold settleStep at h
  split at h
  · next hadvance =>
    cases h
    exact ⟨.refl r, .held (Or.inl hadvance) rfl⟩
  split at h
  · next hheld =>
    cases h
    exact ⟨.refl r, .held (Or.inr hheld.1) rfl⟩
  next hheld =>
  have hfree : r.cancelPending = false ∨ some r.phase = r.cancelPhase := by
    rcases not_and_or.mp hheld with hpending | hcancel
    · exact Or.inl (Bool.eq_false_iff.mpr hpending)
    · exact Or.inr (not_not.mp hcancel)
  split at h
  · next hcancel =>
    cases h
    exact ⟨r.continues_of_append _ rfl rfl rfl rfl rfl rfl id, .cancelled hcancel.1 hcancel.2 rfl⟩
  next hplain =>
  split at h
  · next hlast =>
    cases h
    exact ⟨r.continues_of_append _ rfl rfl rfl rfl rfl rfl id, .succeeded hlast hfree hplain rfl⟩
  next hlast =>
  cases hindex : r.phaseIndex r.phase with
  | error e => rw [hindex] at h; cases h
  | ok index =>
    have hindex' : index = r.phases.idxOf r.phase := by
      unfold Record.phaseIndex at hindex
      split at hindex <;> cases hindex
      rfl
    rw [hindex, hindex'] at h
    cases hnext : r.phases[r.phases.idxOf r.phase + 1]? with
    | none => simp only [bind, Except.bind, hnext] at h; cases h
    | some next =>
      cases hvalid : r.validatePhaseTransition next with
      | error e => simp only [bind, Except.bind, hnext, hvalid] at h; cases h
      | ok u =>
        simp only [bind, Except.bind, hnext, hvalid] at h
        cases h
        exact ⟨r.continues_of_append _ rfl rfl rfl rfl rfl rfl id, .next next hnext hfree hplain rfl⟩

/-- **What becomes of the result of a step**, counted from the record before its progress. -/
theorem applyStepResult_eq_some {completed : ρ} {phase : Phase} {result : StepResult ρ}
    (h : applyStepResult completed now claim phase result r = .ok (some w)) :
    r.Continues w ∧ r.phase = phase ∧ Settled completed result r w := by
  unfold applyStepResult at h
  split at h
  · cases h
  next hphase =>
  have hcontinues := (Record.continues_refreshClaim now claim).trans
    (Record.continues_addProgress (r := r.refreshClaim now claim) now phase result.progress)
  have hview : ((r.refreshClaim now claim).addProgress now phase result.progress).view = r.view :=
    Record.view_addProgress _ now phase result.progress
  generalize (r.refreshClaim now claim).addProgress now phase result.progress = r₁
    at h hcontinues hview
  obtain ⟨hcontinues', hsettled⟩ := settleStep_eq_some h
  have hpending := Record.cancelPending_congr hcontinues.machine hview
  obtain ⟨-, hphase₁, hrequested₁, -⟩ := View.mk.inj hview
  refine ⟨hcontinues.trans hcontinues', not_not.mp hphase, ?_⟩
  cases hsettled with
  | held quiet view => exact .held (hpending ▸ quiet) (view.trans hview)
  | cancelled cancel requested view =>
    rw [hphase₁, hcontinues.machine] at cancel
    exact .cancelled cancel (hrequested₁ ▸ requested) (hview ▸ view)
  | succeeded last free plain view =>
    rw [hphase₁, hcontinues.machine] at last free plain
    exact .succeeded last (hpending ▸ free) (hrequested₁ ▸ plain) (hview ▸ view)
  | next next successor free plain view =>
    rw [hphase₁, hcontinues.machine] at successor free plain
    exact .next next successor (hpending ▸ free) (hrequested₁ ▸ plain) (hview ▸ view)

/-- What `mutate` leaves behind when it returns: the record as it was, or what the transform has
made of it. -/
theorem mutate_eq_some {fingerprint : Text → π → Text} {fn : Transform π ρ} {r' : Record π ρ}
    (h : mutate fingerprint now fn r = some r') :
    fn r = .ok none ∧ r' = r ∨
      ∃ w, fn r = .ok (some w) ∧ validateRecord fingerprint w = true ∧ w.Continues r' ∧
        r'.view = w.view ∧ r'.rev = w.rev + 1 := by
  unfold mutate at h
  split at h
  · cases h
  · next hfn => exact Or.inl ⟨hfn, (Option.some.inj h).symm⟩
  · next w hfn =>
    split_ifs at h with hvalid
    cases h
    exact Or.inr ⟨w, hfn, hvalid, ⟨rfl, rfl, rfl, rfl, Nat.le_succ _, List.prefix_rfl, id⟩, rfl, rfl⟩

end Transforms

end Operations
end SemanticMemory
