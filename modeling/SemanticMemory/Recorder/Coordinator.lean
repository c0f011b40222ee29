import SemanticMemory.Facts.Store
import SemanticMemory.Recorder.GapRecord
import SemanticMemory.Lib.Runs

/-!
# The recorder coordinator

`RecorderCoordinator` (`src/recorder_coordinator.cc`): a bounded queue between the threads that
submit commits and retractions and one worker that persists them, a gap that accumulates what the
queue refused or the store failed to take, and the process-wide registry.

## What is modelled, and how

* Everything done under one hold of `mutex_` is one step, and so is each durable function of the
  worker.  `Pc` is where the worker stands between two steps.
* A `World` is one fact root: its gap files and every coordinator one process has made for it.  A
  coordinator that left the registry can still be submitted to through an old reference.
* `ledger` records where every submitted item went.  No operation reads it.
* `processing_` and `startup_done_`, which only `FlushForTesting` reads, are left out.
-/

namespace SemanticMemory
namespace Recorder

open FactStore (Event)

def kMaxBatches : ℤ := 256
def kMaxBytes : ℤ := 16 * 1024 * 1024
def kBatchHeaderBytes : ℤ := 64
def kEventFixedBytes : ℤ := 16
def kRetractionHeaderBytes : ℤ := 64

def saturatingAdd (value delta : ℤ) : ℤ :=
  if delta < 0 ∨ value > int64Max - delta then int64Max else value + delta

theorem saturatingAdd_pos {value delta : ℤ} (h : 0 < value) : 0 < saturatingAdd value delta := by
  unfold saturatingAdd
  split
  · decide
  · omega

/-- Below saturation it is addition. -/
theorem saturatingAdd_eq {value delta : ℤ} (hd : 0 ≤ delta) (h : value + delta ≤ int64Max) :
    saturatingAdd value delta = value + delta := by
  unfold saturatingAdd
  rw [if_neg (by omega)]

/-! ## Items and gaps -/

inductive Kind where
  | batch | retraction
  deriving DecidableEq

/-- `add_size` of `BatchLogicalBytes`. -/
def addSize (total : ℤ) (size : ℕ) : ℤ :=
  if (size : ℤ) > int64Max then int64Max else saturatingAdd total size

theorem addSize_pos {total : ℤ} (h : 0 < total) (size : ℕ) : 0 < addSize total size := by
  unfold addSize
  split
  · decide
  · exact saturatingAdd_pos h

/-- The text fields that `BatchLogicalBytes` counts, in its order. -/
def countedTexts (event : Event) : List Text :=
  [event.eventId, event.commitId, event.schemaId, event.canonicalSegmentInput, event.category,
    event.precedingText, event.finalSelectionText, event.confirmationSource, event.sessionId]

def eventLogicalBytes (total : ℤ) (event : Event) : ℤ :=
  let total := saturatingAdd total (10 * 8 + 1 + kEventFixedBytes)
  let total := (countedTexts event).foldl (fun total text => addSize total text.length) total
  event.candidates.foldl
    (fun total candidate => addSize (saturatingAdd total 8) candidate.2.length) total

def batchLogicalBytes (events : List Event) : ℤ := events.foldl eventLogicalBytes kBatchHeaderBytes

theorem foldl_pos {α : Type*} {f : ℤ → α → ℤ} (hf : ∀ total a, 0 < total → 0 < f total a)
    {total : ℤ} (h : 0 < total) (l : List α) : 0 < l.foldl f total := by
  induction l generalizing total with
  | nil => exact h
  | cons a l ih => exact ih (hf total a h)

theorem batchLogicalBytes_pos (events : List Event) : 0 < batchLogicalBytes events := by
  refine foldl_pos (fun total event h => ?_) (by decide) events
  refine foldl_pos (fun total candidate h => addSize_pos (saturatingAdd_pos h) _) ?_ _
  exact foldl_pos (fun total text h => addSize_pos h _) (saturatingAdd_pos h) _

def retractionBytes (commitId : Text) : ℤ := addSize kRetractionHeaderBytes commitId.length

theorem retractionBytes_pos (commitId : Text) : 0 < retractionBytes commitId :=
  addSize_pos (by decide) _

/-- `RecorderCoordinator::Item`: a commit with its events, or a retraction of a commit. -/
structure Item where
  kind : Kind
  commitId : Text
  utcMs : ℤ
  events : List Event := []
  bytes : ℤ
  bytes_pos : 0 < bytes
  deriving DecidableEq

/-- What losing the item costs. -/
def Item.counts (item : Item) : Counts
  | .batches => if item.kind = .batch then 1 else 0
  | .events => item.events.length
  | .retractions => if item.kind = .retraction then 1 else 0
  | .bytes => item.bytes

theorem Item.counts_nonneg (item : Item) (k : Counter) : 0 ≤ item.counts k := by
  cases k with
  | batches => simp only [Item.counts]; split <;> omega
  | events => simp [Item.counts]
  | retractions => simp only [Item.counts]; split <;> omega
  | bytes => exact item.bytes_pos.le

/-- `RecorderCoordinator::Gap`.  The reason of an empty gap is the empty text, here `none`. -/
structure Gap where
  reason : GapReason := .none
  intent : Option ℕ := none
  batches : ℤ := 0
  events : ℤ := 0
  retractions : ℤ := 0
  bytes : ℤ := 0
  deriving DecidableEq

def Gap.empty (g : Gap) : Bool :=
  g.batches = 0 && g.events = 0 && g.retractions = 0 && g.bytes = 0

def Gap.counts (g : Gap) : Counts
  | .batches => g.batches
  | .events => g.events
  | .retractions => g.retractions
  | .bytes => g.bytes

/-- The gap that an `AddGapLocked(reason, …)` call builds for an item. -/
def Item.gap (reason : GapReason) (item : Item) : Gap where
  reason
  batches := if item.kind = .batch then 1 else 0
  events := item.events.length
  retractions := if item.kind = .retraction then 1 else 0
  bytes := item.bytes

/-- `AddGapLocked`: what becomes of `pending_gap_`. -/
def addGapLocked (pendingGap gap : Gap) : Gap :=
  if gap.empty then pendingGap
  else if pendingGap.empty then gap
  else
    { reason := if pendingGap.reason ≠ gap.reason then .recordingGap else pendingGap.reason
      intent := pendingGap.intent.orElse fun _ => gap.intent
      batches := saturatingAdd pendingGap.batches gap.batches
      events := saturatingAdd pendingGap.events gap.events
      retractions := saturatingAdd pendingGap.retractions gap.retractions
      bytes := saturatingAdd pendingGap.bytes gap.bytes }

/-! ## The coordinator -/

/-- What the worker holds between two steps. -/
inductive Work where
  | gap (gap : Gap)
  | item (item : Item)
  deriving DecidableEq

/-- Where the worker stands in `FlushLoop`: the step it takes next. -/
inductive Pc where
  | establishMarker | establishState
  | ready
  | retryMarker (work : Work) | retryState (work : Work)
  | markPending (gap : Gap) | createIntent (gap : Gap) | update (gap : Gap)
  | markUnknown (gap : Gap) | removeIntent (gap : Gap) | finish (persisted : Bool)
  | persist (item : Item)
  | stopped
  deriving DecidableEq

/-- Where the submitted items went. -/
structure Ledger where
  /-- Every item that reached `EnqueueOrGap`, in that order. -/
  submitted : List Item := []
  /-- Those that were queued. -/
  accepted : List Item := []
  persisted : List Item := []
  /-- Those handed to `AddGapLocked`, and the gaps built for them. -/
  dropped : List Item := []
  handed : List Gap := []
  /-- The gaps the worker took off `pending_gap_`. -/
  taken : List Gap := []
  /-- The dropped items: still in `pending_gap_`, in the gap the worker holds, in a gap that
  `UpdateGap` recorded, in a gap that it did not. -/
  pendingItems : List Item := []
  inFlight : List Item := []
  recorded : List Item := []
  unrecorded : List Item := []
  deriving DecidableEq

/-- `RecorderCoordinator`.  `processMarker` is the name of its marker while it is ready. -/
structure Coordinator where
  queue : List Item := []
  queuedBatches : ℤ := 0
  queuedBytes : ℤ := 0
  pendingGap : Gap := {}
  stopping : Bool := false
  workerStopped : Bool := false
  gapStateReady : Bool := false
  processMarker : Option ℕ := none
  processMarkerClean : Bool := false
  pc : Pc := .establishMarker
  ledger : Ledger := {}
  deriving DecidableEq

/-- `AddGapLocked(reason, …)` for an item. -/
def Coordinator.addGap (c : Coordinator) (reason : GapReason) (item : Item) : Coordinator :=
  { c with
    pendingGap := addGapLocked c.pendingGap (item.gap reason)
    ledger := { c.ledger with
      dropped := c.ledger.dropped ++ [item]
      handed := c.ledger.handed ++ [item.gap reason]
      pendingItems := c.ledger.pendingItems ++ [item] } }

def Coordinator.removeFrontLocked (c : Coordinator) : Coordinator :=
  match c.queue with
  | [] => c
  | item :: rest =>
    { c with
      queue := rest
      queuedBatches :=
        if item.kind = .batch ∧ c.queuedBatches > 0 then c.queuedBatches - 1 else c.queuedBatches
      queuedBytes := if c.queuedBytes ≥ item.bytes then c.queuedBytes - item.bytes else 0 }

/-- The loop of `MoveQueuedItemsToShutdownGapLocked`, on the items still queued. -/
def moveQueued : List Item → Coordinator → Coordinator
  | [], c => c
  | item :: rest, c => moveQueued rest (c.addGap .shutdownUnpersisted item).removeFrontLocked

def Coordinator.moveQueuedItemsToShutdownGapLocked (c : Coordinator) : Coordinator :=
  moveQueued c.queue c

/-! ## Submitting -/

inductive Outcome where
  | persisted | buffered | gap
  deriving DecidableEq

inductive FaultCode where
  | none | noEvents | recorderStopped | bufferOverflowBatches | bufferOverflowBytes

/-- `RecorderCoordinator::SubmitResult`. -/
structure SubmitResult where
  outcome : Outcome := .gap
  commitId : Text := []
  faultCode : FaultCode := .none

def enqueueOrGap (item : Item) (c : Coordinator) : Coordinator × SubmitResult :=
  let c := { c with ledger := { c.ledger with submitted := c.ledger.submitted ++ [item] } }
  if c.stopping then
    (c.addGap .shutdownUnpersisted item, { faultCode := .recorderStopped })
  else if item.kind = .batch ∧ c.queuedBatches ≥ kMaxBatches then
    (c.addGap .bufferOverflowBatches item, { faultCode := .bufferOverflowBatches })
  else if item.bytes > kMaxBytes ∨ c.queuedBytes > kMaxBytes - item.bytes then
    (c.addGap .bufferOverflowBytes item, { faultCode := .bufferOverflowBytes })
  else
    ({ c with
        queue := c.queue ++ [item]
        queuedBatches := if item.kind = .batch then c.queuedBatches + 1 else c.queuedBatches
        queuedBytes := c.queuedBytes + item.bytes
        ledger := { c.ledger with accepted := c.ledger.accepted ++ [item] } },
      { outcome := .buffered, commitId := item.commitId })

/-- The item that `SubmitBatch` builds under the identifier `randomUuid`. -/
def batchItem (utcCommittedAtMs : ℤ) (events : List Event) (randomUuid : Text) : Item :=
  let events := events.map fun event => { event with commitId := randomUuid }
  { kind := .batch, commitId := randomUuid, utcMs := utcCommittedAtMs, events
    bytes := batchLogicalBytes events
    bytes_pos := batchLogicalBytes_pos events }

def submitBatch (utcCommittedAtMs : ℤ) (events : List Event) (randomUuid : Text)
    (c : Coordinator) : Coordinator × SubmitResult :=
  if events = [] then (c, { faultCode := .noEvents })
  else enqueueOrGap (batchItem utcCommittedAtMs events randomUuid) c

/-- The item that `SubmitRetraction` builds. -/
def retractionItem (commitId : Text) (utcRetractedAtMs : ℤ) : Item where
  kind := .retraction
  commitId := commitId
  utcMs := utcRetractedAtMs
  bytes := retractionBytes commitId
  bytes_pos := retractionBytes_pos commitId

def submitRetraction (commitId : Text) (utcRetractedAtMs : ℤ) (c : Coordinator) :
    Coordinator × SubmitResult :=
  enqueueOrGap (retractionItem commitId utcRetractedAtMs) c

/-! ## The worker -/

/-- How `Persist` ends. -/
inductive PersistOutcome where
  | ok | maintenanceLocked | failed

/-- What the outside world decides in one step of the worker; a step reads the part it needs. -/
structure WorkerEnv where
  persist : PersistOutcome := .ok
  marker : MarkerEnv := {}
  ensure : EnsureEnv := {}
  markerWrite : Rewrite := .ok
  intent : IntentEnv := {}
  update : UpdateEnv := {}
  markUnknown : MarkUnknownEnv := {}
  removeIntent : Unlink := .ok
  removeMarker : Unlink := .ok

def attemptCreateProcessMarker (env : MarkerEnv) (c : Coordinator) (d : Disk) :
    Coordinator × Disk :=
  if c.processMarker.isSome then (c, d)
  else
    let opened := openProcessMarker env d
    ({ c with processMarker := opened.1, processMarkerClean := opened.1.isSome }, opened.2)

/-- `if (!gap_state_ready_) gap_state_ready_ = EnsureGapState(root_) == kOk`. -/
def attemptEnsureGapState (env : EnsureEnv) (c : Coordinator) (d : Disk) : Coordinator × Disk :=
  if c.gapStateReady then (c, d)
  else
    let ensured := ensureGapState env d
    ({ c with gapStateReady := ensured.1 }, ensured.2)

def writeProcessMarkerFromWorker (state : MarkerState) (clean : Bool) (how : Rewrite)
    (c : Coordinator) (d : Disk) : Coordinator × Disk :=
  match c.processMarker with
  | none => (c, d)
  | some name =>
    let written := writeProcessMarkerState name state how d
    ({ c with processMarkerClean := if written.1 then clean else false }, written.2)

def workerCleanup (how : Unlink) (c : Coordinator) (d : Disk) : Coordinator × Disk :=
  match c.processMarker with
  | none => ({ c with processMarkerClean := false }, d)
  | some name =>
    ({ c with processMarker := none, processMarkerClean := false },
      closeProcessMarker name (if c.processMarkerClean then removeProcessMarker name how d else d))

/-- The top of `FlushLoop`, under the mutex. -/
def takeWork (removeMarker : Unlink) (c : Coordinator) (d : Disk) : Coordinator × Disk :=
  if ¬ (c.stopping ∨ ¬ c.pendingGap.empty ∨ c.queue ≠ []) then (c, d)
  else
    let c := if c.stopping then c.moveQueuedItemsToShutdownGapLocked else c
    if ¬ c.pendingGap.empty then
      ({ c with
          pendingGap := {}
          pc := .retryMarker (.gap c.pendingGap)
          ledger := { c.ledger with
            taken := c.ledger.taken ++ [c.pendingGap]
            inFlight := c.ledger.pendingItems
            pendingItems := [] } }, d)
    else if c.stopping then
      workerCleanup removeMarker { c with workerStopped := true, pc := .stopped } d
    else
      match c.queue with
      | item :: _ => ({ c with pc := .retryMarker (.item item) }, d)
      | [] => (c, d)

/-- The gap the worker holds has been recorded by `UpdateGap`. -/
def Coordinator.recordInFlight (c : Coordinator) : Coordinator :=
  { c with ledger := { c.ledger with
      recorded := c.ledger.recorded ++ c.ledger.inFlight, inFlight := [] } }

/-- The gap the worker holds has not been recorded by `UpdateGap`. -/
def Coordinator.giveUpInFlight (c : Coordinator) : Coordinator :=
  { c with ledger := { c.ledger with
      unrecorded := c.ledger.unrecorded ++ c.ledger.inFlight, inFlight := [] } }

/-- The end of the persist branch of `FlushLoop`. -/
def afterPersist (outcome : PersistOutcome) (item : Item) (c : Coordinator) : Coordinator :=
  match outcome with
  | .ok =>
    { c.removeFrontLocked with
      pc := .ready, ledger := { c.ledger with persisted := c.ledger.persisted ++ [item] } }
  | .maintenanceLocked => { c with pc := .ready }
  | .failed => { c.removeFrontLocked.addGap .storeWriteFailed item with pc := .ready }

/-- One step of `FlushLoop`. -/
def workerStep (env : WorkerEnv) (c : Coordinator) (d : Disk) : Coordinator × Disk :=
  match c.pc with
  | .establishMarker =>
    let r := attemptCreateProcessMarker env.marker c d
    ({ r.1 with pc := .establishState }, r.2)
  | .establishState =>
    let r := attemptEnsureGapState env.ensure c d
    ({ r.1 with pc := .ready }, r.2)
  | .ready => takeWork env.removeMarker c d
  | .retryMarker work =>
    let r := attemptCreateProcessMarker env.marker c d
    ({ r.1 with pc := .retryState work }, r.2)
  | .retryState work =>
    let r := attemptEnsureGapState env.ensure c d
    match work with
    | .gap gap => ({ r.1 with pc := .markPending gap }, r.2)
    | .item item => ({ r.1 with pc := .persist item }, r.2)
  | .markPending gap =>
    let r := writeProcessMarkerFromWorker .pending false env.markerWrite c d
    ({ r.1 with pc := .createIntent gap }, r.2)
  | .createIntent gap =>
    match gap.intent with
    | some _ => ({ c with pc := .update gap }, d)
    | none =>
      let created := createGapIntent env.intent d
      match created.1 with
      | some name => ({ c with pc := .update { gap with intent := some name } }, created.2)
      | none => ({ c.giveUpInFlight with pc := .markUnknown gap }, created.2)
  | .update gap =>
    let updated := updateGap env.update gap.reason gap.counts d
    if updated.1 then ({ c.recordInFlight with pc := .removeIntent gap }, updated.2)
    else ({ c.giveUpInFlight with pc := .markUnknown gap }, updated.2)
  | .markUnknown _ => ({ c with pc := .finish false }, (markGapUnknown env.markUnknown d).2)
  | .removeIntent gap =>
    let removed := removeGapIntent gap.intent env.removeIntent d
    ({ c with pc := .finish removed.1 }, removed.2)
  | .finish persisted =>
    let r := writeProcessMarkerFromWorker (if persisted then .clean else .unknown) persisted
      env.markerWrite c d
    ({ r.1 with pc := .ready }, r.2)
  | .persist item => (afterPersist env.persist item c, d)
  | .stopped => (c, d)

/-! ## The registry -/

/-- One fact root, with the coordinators that one process has made for it, oldest first.
`shutting` is set while a `ShutdownAll` runs: it holds the coordinator taken out of the registry. -/
structure World where
  disk : Disk := {}
  coordinators : List Coordinator := []
  registered : Option ℕ := none
  shutting : Option (Option ℕ) := none
  /-- The gaps taken by the workers of processes that have died. -/
  takenBefore : List Gap := []

/-- One step of one party. -/
inductive Action where
  | forRoot
  | submitBatch (i : ℕ) (utcCommittedAtMs : ℤ) (events : List Event) (randomUuid : Text)
  | submitRetraction (i : ℕ) (commitId : Text) (utcRetractedAtMs : ℤ)
  | worker (i : ℕ) (env : WorkerEnv)
  /-- `ShutdownAll` takes the coordinators out of the registry. -/
  | shutdownAll
  /-- `Shutdown` sets `stopping_`. -/
  | shutdown
  /-- The join in `Shutdown` returns and `ShutdownAll` ends. -/
  | shutdownDone
  /-- The process dies: its locks are released and its memory is gone. -/
  | crash

/-- A step of coordinator `i`. -/
def World.onCoordinator (w : World) (i : ℕ) (f : Coordinator → Coordinator) : World :=
  match w.coordinators[i]? with
  | some c => { w with coordinators := w.coordinators.set i (f c) }
  | none => w

/-- Every gap any worker has taken off `pending_gap_` for this root. -/
def World.taken (w : World) : List Gap :=
  w.takenBefore ++ w.coordinators.flatMap fun c => c.ledger.taken

def step (w : World) : Action → World
  | .forRoot =>
    -- `ForRoot` waits while a shutdown runs
    if w.shutting.isSome ∨ w.registered.isSome then w
    else { w with coordinators := w.coordinators ++ [{}], registered := some w.coordinators.length }
  | .submitBatch i utc events uuid => w.onCoordinator i fun c => (submitBatch utc events uuid c).1
  | .submitRetraction i commitId utc =>
    w.onCoordinator i fun c => (submitRetraction commitId utc c).1
  | .worker i env =>
    match w.coordinators[i]? with
    | some c =>
      let r := workerStep env c w.disk
      { w with coordinators := w.coordinators.set i r.1, disk := r.2 }
    | none => w
  | .shutdownAll =>
    if w.shutting.isSome then w else { w with shutting := some w.registered, registered := none }
  | .shutdown =>
    match w.shutting with
    | some (some i) => w.onCoordinator i fun c => { c with stopping := true }
    | _ => w
  | .shutdownDone =>
    match w.shutting with
    | some (some i) =>
      if (w.coordinators[i]?).all fun c => c.workerStopped then { w with shutting := none } else w
    | some none => { w with shutting := none }
    | none => w
  | .crash =>
    { disk := { w.disk with markers := w.disk.markers.map fun m => { m with live := false } }
      takenBefore := w.taken }

theorem step_worker {w : World} {i : ℕ} {c : Coordinator} (env : WorkerEnv)
    (get : w.coordinators[i]? = some c) :
    step w (.worker i env) =
      { w with
        coordinators := w.coordinators.set i (workerStep env c w.disk).1
        disk := (workerStep env c w.disk).2 } := by
  simp only [step]
  rw [get]

end Recorder
end SemanticMemory
