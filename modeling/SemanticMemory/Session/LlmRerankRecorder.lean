import SemanticMemory.Session.RecorderSession

/-!
# The recorder processor

`LlmRerankRecorder` (`src/llm_rerank_recorder.cc`): the processor that turns explicit selections
into facts and an immediate BackSpace into a retraction.

## What is modelled, and how

* The key handler and the notification handlers are functions of the recorder's state; `step` runs
  the one an `Input` names, and says what it handed to the coordinator.  The rerank filter's writes
  into the shared session are inputs too.
* `RecorderCoordinator::ForRoot` returns a coordinator that other threads use as well: the handlers
  get its state at the moment of the call.
* The archive session (`archive_session_`) and the published status properties read this state and
  never write it; they are left out.
-/

namespace SemanticMemory
namespace Session

open FactStore (Event Status)
open Recorder (Coordinator SubmitResult FaultCode submitBatch submitRetraction)

/-! ## Fault codes -/

def faultCodeText : FaultCode → Text
  | .none => []
  | .noEvents => ascii "no_events"
  | .recorderStopped => ascii "recorder_stopped"
  | .bufferOverflowBatches => ascii "buffer_overflow_batches"
  | .bufferOverflowBytes => ascii "buffer_overflow_bytes"

/-- `FactStore::StatusCode`. -/
def statusCode : Status → Text
  | .ok => ascii "ok"
  | .noHome => ascii "no_home"
  | .rootCreateFailed => ascii "root_create_failed"
  | .rootNotDirectory => ascii "root_not_directory"
  | .rootSymlink => ascii "root_symlink"
  | .rootOwner => ascii "root_owner"
  | .rootPermission => ascii "root_permission"
  | .dbSymlink => ascii "db_symlink"
  | .dbNotRegular => ascii "db_not_regular"
  | .dbOwner => ascii "db_owner"
  | .dbPermission => ascii "db_permission"
  | .dbCorrupt => ascii "db_corrupt"
  | .dbUnsupportedVersion => ascii "db_unsupported_version"
  | .needsMigration => ascii "needs_migration"
  | .dbClockInvalid => ascii "db_clock_invalid"
  | .dbOpenFailed => ascii "db_open_failed"
  | .dbWriteFailed => ascii "db_write_failed"
  | .maintenanceLocked => ascii "maintenance_locked"

/-- The faults that `IsFatalRecordingFault` lists. -/
def fatalRecordingFaults : List Text :=
  [ascii "no_home", ascii "root_create_failed", ascii "root_not_directory", ascii "root_symlink",
    ascii "root_owner", ascii "root_permission", ascii "db_symlink", ascii "db_not_regular",
    ascii "db_owner", ascii "db_permission", ascii "db_corrupt", ascii "db_unsupported_version",
    ascii "db_clock_invalid"]

def isFatalRecordingFault (fault : Text) : Bool := fault ∈ fatalRecordingFaults

theorem not_isFatalRecordingFault_faultCodeText (code : FaultCode) :
    isFatalRecordingFault (faultCodeText code) = false := by
  cases code <;> decide

/-! ## The state -/

structure LlmRerankRecorder where
  session : RecorderSession
  lastKeycode : ℤ := 0
  keyInFlight : Bool := false
  retractionArmed : Bool := false
  retractionPending : Bool := false
  retractionCommitId : Text := []
  recordingEnabled : Bool := false

/-- The constructor.  `openStatus` is how the eager `Open` of the store ended. -/
def construct (schemaId : Text) (pageSize : ℤ) (selectKeys : Text) (sessionBytes : Fin 16 → Byte)
    (recordingEnabled : Bool) (openStatus : Status) : LlmRerankRecorder :=
  let session : RecorderSession :=
    { schemaId, pageSize, selectKeys, sessionId := randomUuid sessionBytes }
  if !recordingEnabled then { session }
  else
    match openStatus with
    | .ok => { session, recordingEnabled := true }
    | .maintenanceLocked =>
      { session := { session with faultCode := statusCode .maintenanceLocked }
        recordingEnabled := true }
    | status => { session := { session with faultCode := statusCode status } }

def reportGap (reason : Text) (r : LlmRerankRecorder) : LlmRerankRecorder :=
  { r with session := { r.session with
      faultCode := if reason = [] then r.session.faultCode else reason
      gapCount := r.session.gapCount + 1 } }

/-- What both submitting handlers do with a result that is a gap. -/
def noteGap (result : SubmitResult) (r : LlmRerankRecorder) : LlmRerankRecorder :=
  let r := reportGap (faultCodeText result.faultCode) r
  if isFatalRecordingFault (faultCodeText result.faultCode) then
    { r with recordingEnabled := false }
  else r

/-- What both submitting handlers do with a result that is not. -/
def noteHealthy (r : LlmRerankRecorder) : LlmRerankRecorder :=
  if r.session.gapCount = 0 then { r with session := { r.session with faultCode := [] } } else r

/-! ## The handlers -/

/-- The undo window at a key event: the part of `ProcessKeyEvent` up to the menu test. -/
def noteUndoKey (key : KeyEvent) (r : LlmRerankRecorder) : LlmRerankRecorder :=
  let r := { r with keyInFlight := false, retractionPending := false }
  if !key.release ∧ r.retractionArmed then
    if isPlainBackspace key then { r with retractionPending := true }
    else { r with retractionArmed := false }
  else r

def processKeyEvent (key : KeyEvent) (hasMenu : Bool) (r : LlmRerankRecorder) :
    LlmRerankRecorder :=
  let r := noteUndoKey key r
  if !key.release ∧ hasMenu ∧
      classifyConfirmationSource key.keycode true r.session.selectKeys ≠ .none then
    { r with lastKeycode := key.keycode, keyInFlight := true }
  else r

/-- What the outside world gives a handler: the clock and random bytes. -/
structure Env where
  nowMs : ℤ := 0
  randomBytes : Fin 16 → Byte := fun _ => 0

/-- The end of the selected span: a partially matched candidate ends before its segment. -/
def spanEnd (seg : Segment) (cand : Candidate) : ℕ :=
  if cand.end_ < seg.end_ then cand.end_ else seg.end_

/-- The word candidates of the snapshot that compete for the span. -/
def competition (snap : CompetitionSnapshot) (start spanEnd : ℕ) : List RecordedCandidate :=
  snap.candidates.filter fun rc =>
    rc.category = ascii "word" && rc.start = start && rc.end_ = spanEnd

/-- The slice of the input the event stands for. -/
def canonicalSegmentInput (input : Text) (start spanEnd : ℕ) : Text :=
  let spanLength := if spanEnd ≤ input.length then sizeSub spanEnd start else 0
  canonicalizeInput (substr input start spanLength)

/-- How the selection was confirmed: by the key in flight, or by a click. -/
def confirmation (r : LlmRerankRecorder) : ℤ × ConfirmationSource :=
  if r.keyInFlight then
    (r.lastKeycode, classifyConfirmationSource r.lastKeycode true r.session.selectKeys)
  else (-1, .explicitIndexed)

/-- The tentative event of `OnSelect`. -/
def pendingEvent (env : Env) (input : Text) (seg : Segment) (cand : Candidate)
    (snap : CompetitionSnapshot) (r : LlmRerankRecorder) : PendingEvent :=
  let pageSize := if r.session.pageSize > 0 then r.session.pageSize.toNat else 5
  let apply := r.session.latestApplyRecord seg.start
  { segmentStart := seg.start
    canonicalSegmentInput := canonicalSegmentInput input seg.start (spanEnd seg cand)
    spanStart := seg.start
    spanEnd := spanEnd seg cand
    category := ascii "word"
    precedingText := snap.precedingText
    competition := competition snap seg.start (spanEnd seg cand)
    competitionComplete := snap.complete
    finalSelectionText := cand.text
    source := (confirmation r).2
    triggerKeycode := (confirmation r).1
    displayRank := int32 (seg.selectedIndex % pageSize) + 1
    displayPage := int32 (seg.selectedIndex / pageSize) + 1
    eventId := randomUuid env.randomBytes
    sessionId := r.session.sessionId
    utcConfirmedAtMs := env.nowMs
    confirmSeq := r.session.nextConfirmSeq
    planIdentity := (apply.map WindowApplyRecord.planIdentity).getD []
    configIdentity := (apply.map WindowApplyRecord.configIdentity).getD []
    requestIds := (apply.map WindowApplyRecord.requestIds).getD []
    applyState := (apply.map WindowApplyRecord.applyState).getD kApplyStateUnknown }

/-- The candidate `OnSelect` may record, with its segment: the last segment's, when it is selected
and a word. -/
def selectedWord (ctx : Context) : Option (Segment × Candidate) :=
  match ctx.composition.getLast? with
  | none => none
  | some seg =>
    if seg.status.beforeSelected then none
    else
      match seg.selectedCandidate with
      | none => none
      | some cand => if categoryOfCandidate cand ≠ ascii "word" then none else some (seg, cand)

/-- Whether the selected candidate had competition: two word candidates of its span at least, with
the selected text among them. -/
def contested (snap : CompetitionSnapshot) (seg : Segment) (cand : Candidate) : Bool :=
  let competition := competition snap seg.start (spanEnd seg cand)
  2 ≤ competition.length && competition.any fun rc => rc.text = cand.text

def onSelect (ctx : Context) (env : Env) (r : LlmRerankRecorder) : LlmRerankRecorder :=
  if !r.recordingEnabled then r
  else
    match selectedWord ctx with
    | none => r
    | some (seg, cand) =>
      match r.session.snapshots.find? seg.start with
      | none => r
      | some snap =>
        if !contested snap seg cand ∨ (confirmation r).2 = .none then r
        else
          { r with
            keyInFlight := false
            session := { r.session with nextConfirmSeq := r.session.nextConfirmSeq + 1 }
              |>.replacePending (pendingEvent env ctx.input seg cand snap r) }

/-- Whether the commit confirms a tentative event: its segment is still selected with the same
candidate. -/
def stillSelected (ctx : Context) (pending : PendingEvent) (start : ℕ) : Bool :=
  match ctx.composition.find? fun seg => seg.start = start with
  | none => false
  | some seg =>
    !seg.status.beforeSelected &&
      seg.selectedCandidate.any fun cand => cand.text = pending.finalSelectionText

/-- The tentative events the commit confirms, in confirmation order. -/
def validPending (ctx : Context) (session : RecorderSession) : List PendingEvent :=
  ((session.pending.entries.filter fun entry => stillSelected ctx entry.2 entry.1).map
    Prod.snd).insertionSort fun a b => a.confirmSeq ≤ b.confirmSeq

/-- What a handler handed to the coordinator, and the answer. -/
inductive Submitted where
  | nothing
  | batch (events : List Event) (result : SubmitResult)
  | retraction (commitId : Text) (result : SubmitResult)

def onCommit (ctx : Context) (env : Env) (coordinator : Coordinator) (r : LlmRerankRecorder) :
    LlmRerankRecorder × Submitted :=
  if !r.recordingEnabled then (r, .nothing)
  else if r.session.pending.entries = [] then ({ r with retractionArmed := false }, .nothing)
  else
    let valid := validPending ctx r.session
    if valid = [] then
      ({ r with session := r.session.dropPending, retractionArmed := false }, .nothing)
    else
      let events := facts r.session.schemaId r.session.sessionSeq valid
      let result := (submitBatch env.nowMs events (randomUuid env.randomBytes) coordinator).2
      let r := { r with session := { r.session with
        sessionSeq := r.session.sessionSeq + valid.length } }
      if result.outcome = .gap then
        let r := noteGap result r
        ({ r with session := r.session.dropPending, retractionArmed := false },
          .batch events result)
      else
        let r := noteHealthy r
        let pending := valid.foldl (fun pending event => pending.erase event.segmentStart)
          r.session.pending
        ({ r with
            session := { r.session with pending }
            retractionCommitId := result.commitId
            retractionArmed := true },
          .batch events result)

def onAbort (r : LlmRerankRecorder) : LlmRerankRecorder :=
  { r with session := r.session.dropPending.clearSnapshots }

def onContextUpdate (ctx : Context) (r : LlmRerankRecorder) : LlmRerankRecorder :=
  if ctx.composition = [] then { r with session := r.session.dropPending.clearSnapshots } else r

def onUnhandledKey (key : KeyEvent) (env : Env) (coordinator : Coordinator)
    (r : LlmRerankRecorder) : LlmRerankRecorder × Submitted :=
  if key.release then (r, .nothing)
  else if !r.retractionPending ∨ !r.retractionArmed then (r, .nothing)
  else if !r.recordingEnabled then (r, .nothing)
  else
    let r := { r with retractionPending := false, retractionArmed := false }
    let result := (submitRetraction r.retractionCommitId env.nowMs coordinator).2
    if result.outcome = .gap then
      (noteGap result r, .retraction r.retractionCommitId result)
    else (noteHealthy r, .retraction r.retractionCommitId result)

/-! ## One recorder -/

/-- What can happen to a recorder. -/
inductive Input where
  | key (key : KeyEvent) (hasMenu : Bool)
  | select (ctx : Context) (env : Env)
  | commit (ctx : Context) (env : Env) (coordinator : Coordinator)
  | abort
  | update (ctx : Context)
  | unhandled (key : KeyEvent) (env : Env) (coordinator : Coordinator)
  | pushSnapshot (snapshot : CompetitionSnapshot)
  | pushApplyRecord (record : WindowApplyRecord)

def handle (r : LlmRerankRecorder) : Input → LlmRerankRecorder × Submitted
  | .key key hasMenu => (processKeyEvent key hasMenu r, .nothing)
  | .select ctx env => (onSelect ctx env r, .nothing)
  | .commit ctx env coordinator => onCommit ctx env coordinator r
  | .abort => (onAbort r, .nothing)
  | .update ctx => (onContextUpdate ctx r, .nothing)
  | .unhandled key env coordinator => onUnhandledKey key env coordinator r
  | .pushSnapshot snapshot => ({ r with session := r.session.pushSnapshot snapshot }, .nothing)
  | .pushApplyRecord record => ({ r with session := r.session.pushApplyRecord record }, .nothing)

/-- A recorder with everything that has happened to it, oldest first, and what each input
submitted.  No handler reads the history. -/
structure Observed where
  recorder : LlmRerankRecorder
  history : List (Input × Submitted) := []

/-- One input, noted in the history. -/
def observe (o : Observed) (input : Input) : Observed where
  recorder := (handle o.recorder input).1
  history := o.history ++ [(input, (handle o.recorder input).2)]

end Session
end SemanticMemory
