import SemanticMemory.Delta.Publish
import SemanticMemory.Evidence.Service

/-!
# Evidence requests among everything else

The daemon while requests are served: `handle_evidence_request` (`daemon/server.py`) over the
evidence service, next to the delta machine's worker, the publisher, the maintenance of the fact
store and the writers of the facts.

* A request is a `Call` that stands somewhere in its code; `Phase` lists the places between which
  something else can happen.  `advance` is one stretch of code of one call.
* The lease of the maintenance coordinator is held from `leased` on, and the store is replaced only
  while no call holds one.  A store that does not exist yet is created by the recorder, at any time.
* `default_as_of` reads the two halves of the clock in two statements.
-/

namespace SemanticMemory
namespace Evidence

open FactStore Delta

/-! ## The state -/

/-- Where a call stands. -/
inductive Phase where
  | checked
  /-- `serve` is entered. -/
  | leased
  /-- `ensure_caught_up` is entered. -/
  | gate
  | waiting (identity : Text × Hlc)
  | fetched (snapshot : DeltaSnapshot)
  /-- `_serve_direct` is entered. -/
  | direct
  /-- The reader is open and the watermark checked. -/
  | reading (storeEpoch : Text)
  | listing (storeEpoch : Text) (physicalMs : ℤ)
  /-- `events_by_id` is filled. -/
  | listed (storeEpoch : Text) (eventIds : List Text)
  | pointing (storeEpoch : Text) (eventIds : List Text) (physicalMs : ℤ)

/-- `handle_evidence_request`, running. -/
structure Call where
  request : Request
  phase : Phase

/-- What became of a payload.  There is no request in one that does not decode. -/
structure Answer where
  service : Option Service
  request : Option Request
  response : Response
  deriving DecidableEq

/-- The daemon, its disk, and the fact store. -/
structure World where
  delta : Delta.World
  /-- `facts.sqlite3` exists. -/
  present : Bool := true
  /-- The coordinator gives leases. -/
  serving : Bool := true
  service : Option Service := none
  staged : Option Staged := none
  committed : List Publication := []
  calls : List Call := []
  answers : List Answer := []

def World.db (w : World) : Db := w.delta.db

def World.machineRuns (w : World) : Bool := w.service.any Service.machine

def noFacts : FactStore.World := FactStore.World.created 0 [] []

def noMachine : Machine := (Delta.World.created 0 [] []).machine

/-! ## A call -/

/-- The representation in `config_identity`. -/
def World.servedRepresentation (w : World) (service : Service) : Text :=
  if service.machine then w.delta.machine.snapshotRepresentationId
  else service.provider.representationId

def World.answer (w : World) (request : Option Request) (response : Response) : World :=
  { w with answers := w.answers ++ [⟨w.service, request, response⟩] }

/-- `handle_evidence_request`, up to the check of the identity.  `none` is a payload that is not
JSON, or whose fields or trial envelope are not of their types. -/
def receive (payload : Option Request) (w : World) : World :=
  match payload with
  | none => w.answer none (.error .invalidRequest)
  | some request =>
    if ¬ request.valid then w.answer request (.error .invalidRequest)
    else
      match w.service with
      | none => w.answer request (.error .evidenceUnavailable)
      | some service =>
        match service.identityOf (w.servedRepresentation service) with
        | none => w -- the exception ends the connection
        | some identity =>
          if request.configIdentity ≠ identity then
            w.answer request (.error .configIdentityMismatch)
          else { w with calls := w.calls ++ [⟨request, .checked⟩] }

/-- How a stretch of code of a call ends. -/
inductive Outcome where
  | wait
  | goto (phase : Phase)
  | answer (response : Response)

/-- A result as it goes out. -/
def Outcome.ofExcept : Except FaultCode Computation → Outcome
  | .ok computation => .answer (.ok (.computed computation))
  | .error code => .answer (.error code.onWire)

/-- The fault of the query gate as it goes out. -/
def gateCode : GateFault → FaultCode
  | .activeIdentityRefused => .activeIdentityRefused
  | .deltaError => .oracleFault
  | .notCaughtUp => .notCaughtUp
  | .representationFault => .representationFault

/-- `default_as_of`, from the physical part read before and the logical part read now. -/
def defaultAsOf (physicalMs : ℤ) (db : Db) : Option Hlc :=
  if physicalMs < 0 ∨ db.metaRows.hlcLogical < 0 then none
  else some (hlc physicalMs db.metaRows.hlcLogical)

/-- One stretch of code of a call. -/
def advance (env : ServeEnv) (w : World) (service : Service) (request : Request) :
    Phase → Outcome
  | .checked => if w.serving then .goto .leased else .answer (.error .maintenanceInProgress)
  | .leased => .goto (if service.machine ∧ w.present then .gate else .direct)
  | .gate =>
    if ¬ w.present then .answer (.error .factStoreFault)
    else
      match readGate w.delta with
      | .error fault => .answer (.error (gateCode fault))
      | .ok identity => .goto (.waiting identity)
  | .waiting identity =>
    match pollGate identity env.expired w.delta.machine with
    | none => .wait
    | some (.error fault) => .answer (.error (gateCode fault))
    | some (.ok snapshot) =>
      match checkWatermark request.factHighWater snapshot.storeEpoch snapshot.consumed with
      | .error code => .answer (.error code)
      | .ok _ => .goto (.fetched snapshot)
  | .fetched snapshot => .ofExcept (serveSnapshot service env request snapshot)
  | .direct =>
    if ¬ w.present then
      if request.factHighWater = .null then .answer (.ok .missingStore)
      else .answer (.error .factStoreFault)
    else
      match readFactsIdentity w.db with
      | none => .answer (.error .factStoreFault)
      | some (storeEpoch, point) =>
        match checkWatermark request.factHighWater storeEpoch point with
        | .error code => .answer (.error code)
        | .ok _ => .goto (.reading storeEpoch)
  | .reading storeEpoch => .goto (.listing storeEpoch w.db.metaRows.hlcPhysicalMs)
  | .listing storeEpoch physicalMs =>
    match defaultAsOf physicalMs w.db with
    | none => .answer (.error .oracleFault)
    | some asOf => .goto (.listed storeEpoch ((readActiveEvents w.db asOf).map StoredEvent.eventId))
  | .listed storeEpoch eventIds =>
    .goto (.pointing storeEpoch eventIds w.db.metaRows.hlcPhysicalMs)
  | .pointing storeEpoch eventIds physicalMs =>
    match defaultAsOf physicalMs w.db with
    | none => .answer (.error .oracleFault)
    | some asOf => .ofExcept (serveDirect service env request w.db storeEpoch eventIds asOf)

/-- One stretch of code of a call, which a fault of the outside world may end. -/
def next (env : ServeEnv) (w : World) (service : Service) (call : Call) : Outcome :=
  match env.fault with
  | some code => .answer (.error code.onWire)
  | none => advance env w service call.request call.phase

/-- The `i`-th call goes on. -/
def advanceCall (i : ℕ) (env : ServeEnv) (w : World) : World :=
  match w.service, w.calls[i]? with
  | some service, some call =>
    match next env w service call with
    | .wait => w
    | .goto phase => { w with calls := w.calls.set i { call with phase } }
    | .answer response =>
      { w with calls := w.calls.eraseIdx i }.answer (some call.request) response
  | _, _ => w

/-! ## Runs -/

/-- A call holds a lease from `leased` on. -/
def Phase.leases : Phase → Bool
  | .checked => false
  | _ => true

/-- The worker's own actions. -/
def isWorker : Delta.Action → Bool
  | .facts _ | .restart _ => false
  | _ => true

/-- A new process.  One whose machine cannot be constructed does not come up. -/
def start (service : Service) (env : StartEnv) (w : World) : World :=
  let delta := if service.machine then startMachine env w.delta else w.delta.setMachine noMachine
  let up := service.machine → ¬ delta.machine.closed
  { w with
    delta, calls := [], staged := none, committed := []
    service := if up then some service else none }

/-- What can happen next. -/
inductive Action where
  | facts (call : FactStore.Call)
  /-- The recorder creates the store where there is none. -/
  | create (facts : FactStore.World)
  /-- The maintenance stops the leases, replaces or removes the store, and resumes. -/
  | prepare
  | replace (facts : Option FactStore.World)
  | resume
  | start (service : Service) (env : StartEnv)
  | worker (action : Delta.Action)
  | invalidate (dropOk : Bool)
  | stage (env : StageEnv)
  | commit (env : CommitEnv)
  | switch (publication : Publication) (env : SwitchEnv)
  | receive (payload : Option Request)
  | advance (i : ℕ) (env : ServeEnv)

def step (w : World) : Action → World
  | .facts call =>
    if w.present then { w with delta := Delta.step w.delta (.facts call) } else w
  | .create facts =>
    if w.present then w else { w with delta := { w.delta with facts }, present := true }
  | .prepare => { w with serving := false }
  | .replace facts =>
    if w.serving = true ∨ (w.calls.any fun call => call.phase.leases) then w
    else { w with delta := { w.delta with facts := facts.getD noFacts }, present := facts.isSome }
  | .resume => { w with serving := true }
  | .start service env => start service env w
  | .worker action =>
    if w.machineRuns ∧ isWorker action then { w with delta := Delta.step w.delta action } else w
  | .invalidate dropOk =>
    if w.machineRuns then { w with delta := Delta.invalidate dropOk w.delta } else w
  | .stage env =>
    if w.machineRuns then { w with staged := stageGeneration env w.delta } else w
  | .commit env =>
    match w.staged with
    | none => w
    | some staged =>
      let (delta, publication) := commitPublication env staged w.delta
      { w with delta, committed := w.committed ++ publication.toList }
  | .switch publication env =>
    if w.machineRuns ∧ publication ∈ w.committed then
      { w with delta := performPublishSwitch env publication w.delta }
    else w
  | .receive payload => receive payload w
  | .advance i env => advanceCall i env w

/-- A store, nothing derived from it yet, and no process running. -/
def World.created (facts : FactStore.World) : World where
  delta := { facts, generations := [], checkpoints := fun _ => {}, machine := noMachine }

end Evidence
end SemanticMemory
