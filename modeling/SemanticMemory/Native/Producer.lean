import SemanticMemory.Lib.Json
import SemanticMemory.Lib.Runs
import SemanticMemory.Basic

/-!
# The native producer of the input archive

The plugin admits observations from the input path and sends them from a thread of its own.  The
input path stamps an observation with the binding generation, asks the policy and pushes it under a
`try_lock`; the worker takes the losses and a batch off the queue, resolves the retractions among it
against the receipts of their commits, and exchanges frames with the collector.

* `State` is what the producer holds; `Call` is where a `TryAdmit` is, and `Worker` where the worker
  is.  The reads of the generation and of the socket, the lock and the exchange are steps of their
  own, so that `AbandonQueue`, a retarget and a poll fall between any two of them.
* The trace of a state says what has happened so far: `Event`.
* A session numbers what it admits: an observation's `update_id` is made of its sequence number, and
  a retraction names an update that has been issued.
-/

namespace SemanticMemory
namespace Native

/-! ## Observations -/

/-- `observation_kind`. -/
inductive Kind where
  | pluginObservation
  | exclusionNotice
  | lossNotice
  deriving DecidableEq

/-- `plugin_stage`; a notice has none. -/
inductive Stage where
  | none
  | competition
  | emission
  | temporarySelection
  | commit
  | cancellation
  | retraction
  | loss
  | exclusion
  deriving DecidableEq

def Kind.name : Kind → Text
  | .pluginObservation => ascii "plugin_observation"
  | .exclusionNotice => ascii "exclusion_notice"
  | .lossNotice => ascii "loss_notice"

def Stage.name : Stage → Text
  | .none => []
  | .competition => ascii "competition"
  | .emission => ascii "emission"
  | .temporarySelection => ascii "temporary_selection"
  | .commit => ascii "commit"
  | .cancellation => ascii "cancellation"
  | .retraction => ascii "retraction"
  | .loss => ascii "loss"
  | .exclusion => ascii "exclusion"

/-- `HighStage`. -/
def Stage.isHigh : Stage → Bool
  | .commit | .cancellation | .retraction | .loss | .exclusion => true
  | _ => false

/-- What the budget counts of a candidate. -/
structure Candidate where
  text : Text
  category : Text
  deriving DecidableEq

/-- What the budget counts of a group. -/
structure Group where
  identity : Text
  category : Text
  deriving DecidableEq

/-- What a plugin observation carries besides its texts: nothing of it changes on the way. -/
structure Detail where
  planIdentity : Text := []
  lmRequestId : Text := []
  candidates : List Candidate := []
  groups : List Group := []
  /-- The fields that are only copied to the frame. -/
  copied : List (Text × Text) := []
  deriving DecidableEq

/-- `InputArchiveObservation`. -/
structure Observation where
  kind : Kind := .pluginObservation
  stage : Stage := .none
  schemaId : Text := []
  sourceInstanceId : Text := []
  sequence : ℕ := 0
  processId : Text := []
  /-- The number in `update_id`, if there is one. -/
  updateId : Option ℕ := none
  outcome : Text := ascii "observed_attempt"
  reason : Text := []
  eligibility : Text := ascii "included"
  payloadText : Text := []
  precedingText : Text := []
  inputText : Text := []
  detail : Detail := {}
  bindingGeneration : ℕ := 0
  retries : ℕ := 0
  budgetBytes : ℤ := 0
  retractableCommit : Bool := false
  /-- The number in `dependency_update_id`, if there is one. -/
  dependency : Option ℕ := none
  deriving DecidableEq

/-- The length of `pupd-<source>-<number>`. -/
def updateIdSize (source : Text) : Option ℕ → ℕ
  | none => 0
  | some n => 6 + source.length + (Nat.toDigits 10 n).length

/-- `InputArchiveBudgetBytes`. -/
def Observation.budget (o : Observation) : ℕ :=
  64 + o.kind.name.length + o.stage.name.length + o.schemaId.length + o.sourceInstanceId.length +
    o.processId.length + o.payloadText.length + o.precedingText.length + o.inputText.length +
    o.detail.planIdentity.length + o.detail.lmRequestId.length +
    updateIdSize o.sourceInstanceId o.updateId + updateIdSize o.sourceInstanceId o.dependency +
    (o.detail.candidates.map fun x => x.text.length + x.category.length + 32).sum +
    (o.detail.groups.map fun x => x.identity.length + x.category.length + 16).sum

def Observation.isHigh (o : Observation) : Bool :=
  o.kind = .lossNotice || o.kind = .exclusionNotice || o.stage.isHigh

/-- What `SerializeObservation` writes of the texts of a plugin observation. -/
structure Payload where
  stage : Stage
  payloadText : Text
  precedingText : Text
  inputText : Text
  detail : Detail
  deriving DecidableEq

/-- What `SerializeObservation` writes: the envelope, and the payload of a plugin observation. -/
structure Serialized where
  kind : Kind
  schemaId : Text
  sourceInstanceId : Text
  sequence : ℕ
  processId : Text
  updateId : Option ℕ
  outcome : Text
  reason : Text
  eligibility : Text
  payload : Option Payload
  deriving DecidableEq

/-- `SerializeObservation`. -/
def Observation.serialized (o : Observation) : Serialized where
  kind := o.kind
  schemaId := if o.schemaId = [] then ascii "unknown" else o.schemaId
  sourceInstanceId := o.sourceInstanceId
  sequence := o.sequence
  processId := o.processId
  updateId := o.updateId
  outcome := if o.outcome = [] then ascii "unknown" else o.outcome
  reason := o.reason
  eligibility := o.eligibility
  payload :=
    if o.kind = .pluginObservation then
      some ⟨o.stage, o.payloadText, o.precedingText, o.inputText, o.detail⟩
    else none

/-- An observation as the session hands it over.  A commit that is marked as retractable has a
schema and is no retraction; a retraction is a plugin observation. -/
structure Draft where
  observation : Observation
  retractable : observation.retractableCommit = true →
    observation.schemaId ≠ [] ∧ observation.dependency = none
  retraction : observation.dependency ≠ none → observation.kind = .pluginObservation

/-! ## The state -/

structure Limits where
  count : ℕ := 256
  bytes : ℕ := 1048576

def maxEventBytes : ℕ := 65536
def freshnessNs : ℕ := 2000000000
def maxRetries : ℕ := 3
def batchSize : ℕ := 64
def maxRetractionReceipts : ℕ := 8
def maxLosses : ℕ := 64

inductive ReceiptState where
  | pending
  | admitted
  | refused
  | unknown
  deriving DecidableEq

/-- `RetractionReceipt`. -/
structure Receipt where
  updateId : ℕ
  generation : ℕ
  state : ReceiptState := .pending
  schemaId : Text := []
  payloadText : Text := []

/-- Where a `TryAdmit` is. -/
inductive Call where
  /-- It has been called. -/
  | begun (o : Observation)
  /-- The destination was safe. -/
  | safe (o : Observation)
  /-- The observation is stamped with the generation. -/
  | stamped (o : Observation)
  /-- The policy that was read from a socket allows it. -/
  | allowed (o : Observation) (policy : Option ℕ)

/-- What `SendBatch` is called for. -/
inductive Purpose where
  /-- The losses, before the batch. -/
  | losses (batch : List Observation)
  | batch
  /-- The held notice; after the batch or, at last, after a policy exchange. -/
  | held (last : Bool)
  deriving DecidableEq

inductive Worker where
  /-- At the head of the loop. -/
  | idle
  /-- The generation has been read. -/
  | stamped (generation : ℕ)
  /-- `SendBatch` is called. -/
  | send (generation : ℕ) (purpose : Purpose) (items : List Observation)
  | current (generation : ℕ) (purpose : Purpose) (items : List Observation)
  /-- The destination has been found safe. -/
  | exchange (generation : ℕ) (purpose : Purpose) (items : List Observation)
  /-- A response has been read, with its codes if it has them. -/
  | answered (generation : ℕ) (purpose : Purpose) (items : List Observation)
      (codes : Option (List Text))
  /-- `RestoreLosses`. -/
  | restore (generation : ℕ) (losses batch : List Observation)
  | requeue (generation : ℕ) (batch : List Observation)
  /-- `MaybeDeliverHeldLoss`. -/
  | deliver (generation : ℕ) (last : Bool)
  /-- The held notice has been sent. -/
  | delivered (generation : ℕ) (notice : Observation) (last : Bool)
  /-- `policy_exchange_ok.exchange(false)`. -/
  | policy (generation : ℕ)
  deriving DecidableEq

structure Poll where
  token : ℕ
  socket : ℕ

/-- What has happened. -/
inductive Event where
  /-- A `TryAdmit` is called in a generation. -/
  | began (sequence generation : ℕ)
  /-- An observation is admitted, under the policy that was read from a socket. -/
  | admitted (o : Observation) (socket : Option ℕ)
  /-- A frame is serialized in a generation, and its exchange is tried. -/
  | tried (generation : ℕ) (items : List Observation)
  /-- The frame that is serialized in a generation is written to a socket, which the generation
  `bound` has bound. -/
  | sent (generation bound socket : ℕ) (items : List Observation)
  | answered (generation : ℕ) (o : Observation) (code : Text)
  /-- A response to a frame has been read. -/
  | replied (items : List Observation)
  /-- An observation is dropped, and its loss is remembered. -/
  | lost (o : Observation)
  deriving DecidableEq

/-- What the producer holds. -/
structure State where
  source : Text := []
  /-- `sequence_` of the session. -/
  issued : ℕ := 0
  call : Option Call := none
  queue : List Observation := []
  losses : List Observation := []
  receipts : List Receipt := []
  held : Option Observation := none
  bytes : ℤ := 0
  captureSeq : ℕ := 0
  knownDropped : ℕ := 0
  contended : ℕ := 0
  bindingGeneration : ℕ := 1
  destinationSafe : Bool := true
  socket : ℕ := 0
  policyValid : Bool := false
  /-- `observed_desired`: 2 is `enabled`. -/
  observedDesired : ℕ := 0
  observedAtNs : ℕ := 0
  policyExchangeOk : Bool := false
  pollToken : ℕ := 0
  polls : List Poll := []
  worker : Worker := .idle
  /-- The socket that `policy_valid` was last set from. -/
  policySocket : Option ℕ := none
  trace : List Event := []

variable (l : Limits)

/-- Something has happened. -/
def State.note (s : State) (e : Event) : State := { s with trace := s.trace ++ [e] }

/-! ## Receipts -/

/-- `FindReceiptLocked`. -/
def findReceipt (receipts : List Receipt) (update : ℕ) : Option Receipt :=
  receipts.find? fun r => r.updateId = update

def changeReceipt (receipts : List Receipt) (update : ℕ) (f : Receipt → Receipt) : List Receipt :=
  receipts.map fun r => if r.updateId = update then f r else r

/-- `receipts.erase(receipts.begin() + index)`. -/
def eraseReceipt (receipts : List Receipt) (update : ℕ) : List Receipt :=
  receipts.eraseP fun r => r.updateId = update

/-- `RegisterReceiptLocked`. -/
def registerReceipt (receipts : List Receipt) (o : Observation) : List Receipt :=
  match o.updateId with
  | some update =>
    if o.retractableCommit && (findReceipt receipts update).isNone then
      let all := receipts ++ [{ updateId := update, generation := o.bindingGeneration }]
      all.drop (all.length - maxRetractionReceipts)
    else receipts
  | none => receipts

/-- A receipt that is still pending becomes unknown. -/
def Receipt.forget (r : Receipt) : Receipt :=
  if r.state = .pending then { r with state := .unknown, schemaId := [], payloadText := [] } else r

/-- `MarkDependencyUnknownLocked`. -/
def markDependencyUnknown (receipts : List Receipt) (update : Option ℕ) : List Receipt :=
  match update with
  | some update => changeReceipt receipts update Receipt.forget
  | none => receipts

def knownAdmissionCode (code : Text) : Bool := code = ascii "admitted" || code = ascii "duplicate"

def knownRefusalCode (code : Text) : Bool :=
  code ∈ ["capture_disabled", "event_too_large", "invalid_request", "unsupported_version",
    "unsupported_plugin_observation", "storage_failure", "capacity_stop", "identity_conflict",
    "queue_saturated"].map ascii

/-- A code is bound to the receipt of a commit. -/
def Receipt.bind (o : Observation) (code : Text) (r : Receipt) : Receipt :=
  if knownAdmissionCode code then
    { r with
      state := .admitted
      generation := o.bindingGeneration
      schemaId := o.schemaId
      payloadText := o.payloadText }
  else if knownRefusalCode code then { r with state := .refused, schemaId := [], payloadText := [] }
  else { r with state := .unknown, schemaId := [], payloadText := [] }

/-- One round of `ApplyAdmissionCodesLocked`. -/
def applyCode (receipts : List Receipt) (p : Observation × Text) : List Receipt :=
  match p.1.updateId with
  | some update =>
    if p.1.retractableCommit then changeReceipt receipts update (Receipt.bind p.1 p.2) else receipts
  | none => receipts

/-- One round of `NoteBatchUnknownLocked`. -/
def noteUnknown (generation : ℕ) (receipts : List Receipt) (o : Observation) : List Receipt :=
  if o.retractableCommit && o.bindingGeneration = generation then
    markDependencyUnknown receipts o.updateId
  else receipts

/-- `NoteBatchUnknownLocked`. -/
def noteBatchUnknown (receipts : List Receipt) (batch : List Observation) (generation : ℕ) :
    List Receipt :=
  batch.foldl (noteUnknown generation) receipts

/-! ## Losses -/

/-- The last `n` of a list. -/
def lastOf {α : Type} (n : ℕ) (xs : List α) : List α := xs.drop (xs.length - n)

def lossNotice (o : Observation) (source : Text) (reason : Text) : Observation where
  kind := .lossNotice
  schemaId := ascii "unknown"
  sourceInstanceId := source
  sequence := o.sequence
  processId := if o.processId = [] then ascii "loss" else o.processId
  reason := reason
  eligibility := ascii "included"
  outcome := ascii "unknown"
  bindingGeneration := o.bindingGeneration
  budgetBytes := 128

/-- `RememberLossLocked`. -/
def State.rememberLoss (s : State) (o : Observation) (reason : Text) : State :=
  { s with
    receipts := markDependencyUnknown s.receipts o.updateId
    losses := lastOf maxLosses (s.losses ++ [lossNotice o s.source reason])
    knownDropped := s.knownDropped + 1
    trace := s.trace ++ [.lost o] }

/-! ## Admission -/

def State.policyAllows (s : State) (now : ℕ) : Bool :=
  s.policyValid && s.observedDesired = 2 && 0 < s.observedAtNs && now - s.observedAtNs ≤ freshnessNs

def State.fits (s : State) (size : ℤ) : Bool :=
  s.queue.length + 1 ≤ l.count && s.bytes + size ≤ l.bytes

/-- An observation is pushed, and registers its receipt. -/
def State.push (s : State) (o : Observation) (policy : Option ℕ) : State :=
  { s with
    queue := s.queue ++ [o]
    bytes := s.bytes + o.budgetBytes
    receipts := registerReceipt s.receipts o
    trace := s.trace ++ [.admitted o policy] }

def isLow (o : Observation) : Bool := !o.isHigh

/-- A queued observation gives way. -/
def State.displace (s : State) (index : ℕ) (old : Observation) : State :=
  { s.rememberLoss old (ascii "displaced_for_priority") with
    bytes := s.bytes - old.budgetBytes
    queue := s.queue.eraseIdx index }

/-- `TryAdmit` with the lock. -/
def State.enter (s : State) (o : Observation) (policy : Option ℕ) : State :=
  if s.fits l o.budgetBytes then s.push o policy
  else if o.isHigh then
    match s.queue.findIdx? isLow with
    | some index =>
      match s.queue[index]? with
      | some old => (s.displace index old).push o policy
      | none => s
    | none => s.rememberLoss o (ascii "queue_saturated")
  else s.rememberLoss o (ascii "queue_saturated")

/-- The next step of a `TryAdmit`. -/
def State.tryAdmit (s : State) (now : ℕ) (contended : Bool) : State :=
  match s.call with
  | none => s
  | some (.begun o) => { s with call := if s.destinationSafe then some (.safe o) else none }
  | some (.safe o) =>
    let stamped := { o with bindingGeneration := s.bindingGeneration, budgetBytes := o.budget }
    { s with call := if maxEventBytes < o.budget then none else some (.stamped stamped) }
  | some (.stamped o) =>
    { s with call :=
        if o.kind = .lossNotice ∨ s.policyAllows now then some (.allowed o s.policySocket) else none }
  | some (.allowed o policy) =>
    if contended then { s with contended := s.contended + 1, call := none }
    else { s with captureSeq := s.captureSeq + 1, call := none }.enter l o policy

/-! ## The worker -/

/-- A retraction takes the content of its commit. -/
def Observation.attach (o : Observation) (r : Receipt) : Observation :=
  let o' := { o with
    kind := .pluginObservation
    eligibility := ascii "included"
    schemaId := if r.schemaId = [] then ascii "luna_pinyin" else r.schemaId
    payloadText := r.payloadText }
  { o' with budgetBytes := o'.budget }

/-- A retraction leaves without content. -/
def Observation.exclude (o : Observation) (reason : Text) : Observation :=
  let o' := { o with
    reason := reason
    kind := .exclusionNotice
    eligibility := ascii "excluded"
    schemaId := ascii "unknown"
    payloadText := []
    precedingText := []
    inputText := [] }
  { o' with budgetBytes := o'.budget }

/-- `ResolveIntentLocked` for the items that name a dependency; the others are taken as they are. -/
def resolve (generation : ℕ) (receipts : List Receipt) (o : Observation) :
    Option (Observation × List Receipt) :=
  match o.dependency with
  | none => some (o, receipts)
  | some update =>
    match findReceipt receipts update with
    | none => some (o.exclude (ascii "retraction_commit_unknown"), receipts)
    | some r =>
      if r.state = .pending ∧ r.generation = generation then none
      else if r.state = .admitted ∧ r.generation = generation then
        some (o.attach r, eraseReceipt receipts update)
      else
        some (o.exclude (if r.state = .refused then ascii "retraction_commit_refused"
          else ascii "retraction_commit_unknown"), eraseReceipt receipts update)

/-- What the worker takes off the queue. -/
structure Taken where
  batch : List Observation
  queue : List Observation
  receipts : List Receipt

/-- The loop that fills a batch of at most `n`. -/
def takeBatch (generation : ℕ) : ℕ → List Observation → List Receipt → Taken
  | 0, queue, receipts => ⟨[], queue, receipts⟩
  | _ + 1, [], receipts => ⟨[], [], receipts⟩
  | n + 1, o :: queue, receipts =>
    match resolve generation receipts o with
    | none => ⟨[], o :: queue, receipts⟩
    | some (o', receipts') =>
      let t := takeBatch generation n queue receipts'
      { t with batch := o' :: t.batch }

def sizes (items : List Observation) : ℤ := (items.map Observation.budgetBytes).sum

/-- The worker takes the losses and a batch, under the lock. -/
def State.take (s : State) (generation : ℕ) : State :=
  let t := takeBatch s.bindingGeneration batchSize s.queue s.receipts
  -- the sizes that a resolution changes are counted before the batch leaves
  let resolved := s.bytes + (sizes t.batch - sizes (s.queue.take t.batch.length))
  { s with
    losses := []
    queue := t.queue
    receipts := t.receipts
    bytes := resolved - sizes t.batch
    worker := .send generation (.losses t.batch) s.losses }

/-- The response to a frame. -/
inductive Reply where
  /-- Nothing could be written. -/
  | unsent
  /-- The frame was written, and no usable response came. -/
  | lost
  /-- A response, with its list of codes if it has one. -/
  | codes (codes : Option (List Text))
  deriving DecidableEq

/-- The transport has failed. -/
def retry (generation : ℕ) (items : List Observation) : Purpose → Worker
  | .losses batch => .restore generation items batch
  | .batch => .requeue generation items
  | .held last => if last then .idle else .policy generation

/-- The items are dropped without an exchange. -/
def dropped (generation : ℕ) : Purpose → Worker
  | .losses batch => .send generation .batch batch
  | .batch => .policy generation
  | .held last => if last then .idle else .policy generation

def sent (generation : ℕ) (items : List Observation) : Purpose → Worker
  | .losses batch => .send generation .batch batch
  | .batch => .deliver generation false
  | .held last =>
    match items with
    | notice :: _ => .delivered generation notice last
    | [] => .idle

/-- One loss of `RestoreLosses`. -/
def State.restoreLoss (s : State) (o : Observation) : State :=
  if o.bindingGeneration ≠ s.bindingGeneration then s
  else if maxRetries < o.retries + 1 then
    -- `HoldExhaustedLossLocked`
    if s.held.isSome then s
    else { s with held := some { o with
      retries := 0
      reason := if o.reason = [] then ascii "transport_exhausted" else o.reason } }
  else { s with losses := { o with retries := o.retries + 1 } :: s.losses }

/-- One item of `Requeue`. -/
def State.putBack (s : State) (o : Observation) : State :=
  if o.bindingGeneration ≠ s.bindingGeneration then s
  else if maxRetries < o.retries + 1 then
    s.rememberLoss { o with retries := o.retries + 1 } (ascii "requeue_saturated")
  else if l.count < s.queue.length + 1 ∨ (l.bytes : ℤ) < s.bytes + o.budgetBytes then
    s.rememberLoss { o with retries := o.retries + 1 } (ascii "requeue_saturated")
  else { s with
    bytes := s.bytes + o.budgetBytes
    queue := { o with retries := o.retries + 1 } :: s.queue }

/-- A usable list of codes is bound to the items, any other response is unknown. -/
def State.bindCodes (s : State) (generation : ℕ) (items : List Observation)
    (codes : Option (List Text)) : State :=
  match codes with
  | some codes =>
    if codes.length = items.length then
      if generation = s.bindingGeneration then
        { s with
          receipts := (items.zip codes).foldl applyCode s.receipts
          trace := s.trace ++ (items.zip codes).map fun p => .answered generation p.1 p.2 }
      else s
    else { s with receipts := noteBatchUnknown s.receipts items generation }
  | none => { s with receipts := noteBatchUnknown s.receipts items generation }

/-- The next step of the worker.  `reply` is how an exchange comes out. -/
def State.work (s : State) (reply : Reply) : State :=
  match s.worker with
  | .idle => { s with worker := .stamped s.bindingGeneration }
  | .stamped generation => s.take generation
  | .send generation purpose items =>
    { s with worker :=
        if items = [] then dropped generation purpose
        else if generation ≠ s.bindingGeneration then dropped generation purpose
        else .current generation purpose items }
  | .current generation purpose items =>
    if s.destinationSafe then { s.note (.tried generation items) with
      worker := .exchange generation purpose items }
    else { s with
      receipts := noteBatchUnknown s.receipts items generation
      worker := dropped generation purpose }
  | .exchange generation purpose items =>
    match reply with
    | .unsent => { s with worker := retry generation items purpose }
    | .lost => { s.note (.sent generation s.bindingGeneration s.socket items) with
        worker := retry generation items purpose }
    | .codes codes => { s.note (.sent generation s.bindingGeneration s.socket items) with
        worker := .answered generation purpose items codes }
  | .answered generation purpose items codes =>
    { (s.bindCodes generation items codes).note (.replied items) with
      worker := sent generation items purpose }
  | .restore generation losses batch =>
    let s' := losses.reverse.foldl State.restoreLoss s
    { s' with losses := lastOf maxLosses s'.losses, worker := .send generation .batch batch }
  | .requeue generation batch =>
    { batch.reverse.foldl (State.putBack l) s with worker := .policy generation }
  | .deliver generation last =>
    match s.held with
    | none => { s with worker := if last then .idle else .policy generation }
    | some notice =>
      if notice.bindingGeneration ≠ generation then
        { s with held := none, worker := if last then .idle else .policy generation }
      else { s with worker := .send generation (.held last) [notice] }
  | .delivered generation notice last =>
    { s with
      held := match s.held with
        | some held =>
          if held.bindingGeneration = generation ∧ held.sequence = notice.sequence ∧
            held.reason = notice.reason then none else some held
        | none => none
      worker := if last then .idle else .policy generation }
  | .policy generation =>
    { s with
      policyExchangeOk := false
      worker := if s.policyExchangeOk then .deliver generation true else .idle }

/-! ## Runs -/

/-- What a poll comes to. -/
inductive Answer where
  /-- The destination is unsafe, or there is no usable response. -/
  | failed
  /-- A response with the code of its policy. -/
  | policy (desired : ℕ)

/-- What happens to a producer. -/
inductive Action where
  /-- The session admits an observation. -/
  | call (draft : Draft)
  /-- The session takes a number for another token. -/
  | token
  /-- The next step of the `TryAdmit`. -/
  | tryAdmit (now : ℕ) (contended : Bool)
  /-- The next step of the worker. -/
  | work (reply : Reply)
  /-- A poll reads the socket. -/
  | poll
  | polled (index : ℕ) (answer : Answer) (now : ℕ)
  /-- `RefreshDestination`. -/
  | refresh (safe : Bool)
  | abandon
  | retarget (socket : ℕ)

/-- The end of `PollPolicy`: only the latest poll counts. -/
def State.polled (s : State) (index : ℕ) (answer : Answer) (now : ℕ) : State :=
  match s.polls[index]? with
  | none => s
  | some poll =>
    let s' := { s with polls := s.polls.eraseIdx index }
    if poll.token ≠ s.pollToken then s'
    else match answer with
      | .failed => { s' with policyValid := false }
      | .policy desired => { s' with
          observedDesired := desired
          observedAtNs := now
          policyValid := desired ≠ 0
          policySocket := some poll.socket
          policyExchangeOk := desired ≠ 0 || s.policyExchangeOk }

/-- The session numbers an observation, and calls `TryAdmit`. -/
def State.begin (s : State) (draft : Draft) : State :=
  { s with
    issued := s.issued + 1
    call := some (.begun { draft.observation with
      sequence := s.issued + 1
      updateId := some (s.issued + 1)
      retries := 0 })
    trace := s.trace ++ [.began (s.issued + 1) s.bindingGeneration] }

/-- One step.  A session makes one call at a time, and a retraction names an update that has been
issued. -/
def step (s : State) : Action → State
  | .call draft =>
    if s.call.isNone ∧ ∀ u ∈ draft.observation.dependency, u ≤ s.issued then s.begin draft else s
  | .token => { s with issued := s.issued + 1 }
  | .tryAdmit now contended => s.tryAdmit l now contended
  | .work reply => s.work l reply
  | .poll => { s with
      pollToken := s.pollToken + 1
      polls := s.polls ++ [⟨s.pollToken + 1, s.socket⟩] }
  | .polled index answer now => s.polled index answer now
  | .refresh safe => { s with destinationSafe := safe }
  | .abandon => { s with
      queue := []
      losses := []
      receipts := []
      held := none
      bytes := 0
      bindingGeneration := s.bindingGeneration + 1 }
  | .retarget socket => { s with
      queue := []
      losses := []
      receipts := []
      bytes := 0
      socket := socket
      bindingGeneration := s.bindingGeneration + 1
      policyValid := false }

/-! ## Sample actions -/

/-- A commit as the session admits it. -/
def sampleCommit : Draft where
  observation := {
    stage := .commit
    schemaId := ascii "luna_pinyin"
    payloadText := ascii "ni hao"
    retractableCommit := true }
  retractable _ := ⟨by decide, rfl⟩
  retraction h := absurd rfl h

/-- The collector allows capture. -/
def polledActions : List Action := [.poll, .polled 0 (.policy 2) 1]

/-- A `TryAdmit` from its call to its entry. -/
def admittedActions (draft : Draft) : List Action :=
  [.call draft, .tryAdmit 1 false, .tryAdmit 1 false, .tryAdmit 1 false, .tryAdmit 1 false]

/-- The worker takes a batch and exchanges a frame; there are no losses. -/
def sentActions (reply : Reply) : List Action :=
  [.work .unsent, .work .unsent, .work .unsent, .work .unsent, .work .unsent, .work reply,
    .work .unsent]

/-- A retraction of the commit with a number, as the session admits it. -/
def sampleIntent (update : ℕ) : Draft where
  observation := {
    stage := .retraction
    schemaId := ascii "luna_pinyin"
    dependency := some update }
  retractable h := nomatch h
  retraction _ := rfl

/-- The worker goes on to the head of its loop, after a policy exchange; there is no held notice. -/
def restedActions : List Action := [.work .unsent, .work .unsent, .work .unsent]

end Native
end SemanticMemory
