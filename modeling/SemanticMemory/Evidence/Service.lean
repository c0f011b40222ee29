import SemanticMemory.Delta.Machine

/-!
# The evidence service

`EvidenceService` (`daemon/evidence.py`) answers one request of the plugin for candidate evidence:
from the delta machine's snapshot, or straight from the facts.

* Floating point numbers enter a config identity only by their six-digit spelling, and are known
  here by it.  A vector is known by the representation that computed it, and an answer by what the
  oracle was called on (`Computation`).
* Which active events the oracle looks up --- those of the request's key, of a matching candidate,
  or among the neighbours of an index --- is left to the environment, and so are the faults of
  providers, engines and SQLite.  A vector that is missing is a fault decided here.
* The trace store, which only observes, and the latency figures are left out.
-/

namespace SemanticMemory
namespace Evidence

open FactStore Delta

/-! ## The service -/

/-- `OracleParams`, each double by `format_identity_double`. -/
structure OracleParams where
  tau : Text
  kEvidence : ℕ
  halfLife : Text
  saturationK : Text
  deriving DecidableEq

/-- A `NeighborIndex`: the representation whose vectors it holds, and its events. -/
structure NeighborIndex where
  representationId : Text
  eventIds : List Text
  deriving DecidableEq

/-- A number in an identity string. -/
def decimal (n : ℕ) : Text := ascii (toString n)

/-- `compose_config_identity`; `none` is the fault of an identity that cannot be composed. -/
def composeConfigIdentity (representationId : Text) (params : OracleParams) (gamma : Text)
    (overfetch querySearch : Option ℕ) : Option Text :=
  if representationId = [] then none
  else
    let identity :=
      ascii "evidence-v1" ++ ascii ":repr=" ++ representationId ++ ascii ":tau=" ++ params.tau ++
        ascii ":kev=" ++ decimal params.kEvidence ++ ascii ":H=" ++ params.halfLife ++
        ascii ":sat=" ++ params.saturationK ++ ascii ":gamma=" ++ gamma
    match overfetch, querySearch with
    | none, none => some identity
    | some overfetch, some querySearch =>
      if overfetch < 1 ∨ querySearch < 1 then none
      else some
        (identity ++ ascii ":overfetch=" ++ decimal overfetch ++ ascii ":qs=" ++ decimal querySearch)
    | _, _ => none

/-- `EvidenceService`, as its constructor accepts it. -/
structure Service where
  provider : Provider
  params : OracleParams
  gamma : Text
  /-- A delta machine is configured. -/
  machine : Bool
  retrievalBackend : RetrievalBackend := .oracle
  annIndex : Option NeighborIndex := none
  overfetch : Option ℕ := none
  querySearch : Option ℕ := none
  annConfigured : retrievalBackend.isAnn = true →
    overfetch.isSome ∧ querySearch.isSome ∧ (annIndex.isSome ∨ machine = true) := by decide
  identified : (composeConfigIdentity provider.representationId params gamma overfetch
    querySearch).isSome := by decide
  deriving DecidableEq

/-- The identity the service composes with a representation. -/
def Service.identityOf (service : Service) (representationId : Text) : Option Text :=
  composeConfigIdentity representationId service.params service.gamma service.overfetch
    service.querySearch

/-! ## Requests and answers -/

inductive FactHighWater where
  | null
  /-- Not an object, or a field of it is not of its type. -/
  | malformed
  | declared (storeEpoch : Text) (point : Hlc)
  deriving DecidableEq

/-- A request whose fields are present and of their types. -/
structure Request where
  requestId : Text
  planIdentity : Text
  schemaId : Text
  category : Text
  canonicalSegmentInput : Text
  precedingText : Text
  candidates : List Text
  configIdentity : Text
  factHighWater : FactHighWater
  deriving DecidableEq

/-- `len` of a `str`: a byte that continues a code point does not count. -/
def codePoints (t : Text) : ℕ := t.countP fun b => b < 128 ∨ 192 ≤ b

/-- The checks of `handle_evidence_request` on the fields. -/
def Request.valid (request : Request) : Bool :=
  request.requestId ≠ [] ∧ request.planIdentity ≠ [] ∧ request.schemaId ≠ [] ∧
    request.category ≠ [] ∧ codePoints request.precedingText ≤ 64 ∧ request.candidates ≠ [] ∧
    request.candidates.all (fun candidate => candidate ≠ []) ∧ request.configIdentity ≠ []

inductive FaultCode where
  | invalidRequest | evidenceUnavailable | configIdentityMismatch | maintenanceInProgress
  | activeIdentityRefused | factIdentityMismatch | notCaughtUp | factStoreFault | oracleFault
  | accelerateFault | mlxFault | representationFault | backendMismatch | annFault
  deriving DecidableEq

/-- `_EVIDENCE_FAULT_CODES`: any other code goes out as an oracle fault. -/
def FaultCode.onWire : FaultCode → FaultCode
  | .backendMismatch | .annFault => .oracleFault
  | code => code

structure QueryVector where
  representationId : Text
  precedingText : Text
  candidate : Option Text
  deriving DecidableEq

/-- What `compute_evidence` or `compute_ann_evidence` was called on. -/
structure Computation where
  storeEpoch : Text
  queryPoint : Hlc
  /-- The representation of the snapshot, or of the service's own provider. -/
  representationId : Text
  queryVectors : List QueryVector
  /-- The vectors looked up, by event id. -/
  eventVectors : List (Text × Text)
  index : Option NeighborIndex
  deriving DecidableEq

/-- The result of `serve`.  A missing store answers zero evidence without a query point. -/
inductive Result where
  | missingStore
  | computed (computation : Computation)
  deriving DecidableEq

inductive Response where
  | ok (result : Result)
  | error (code : FaultCode)
  deriving DecidableEq

/-! ## Serving -/

def checkWatermark (factHighWater : FactHighWater) (storeEpoch : Text) (point : Hlc) :
    Except FaultCode Unit :=
  match factHighWater with
  | .null => .ok ()
  | .malformed => .error .invalidRequest
  | .declared expected want =>
    if expected = [] ∨ (ofLex want).1 < 0 ∨ (ofLex want).2 < 0 then .error .invalidRequest
    else if expected ≠ storeEpoch then .error .factIdentityMismatch
    else if point < want then .error .notCaughtUp
    else .ok ()

/-- `_oracle_query`: one vector, or one for every candidate. -/
def oracleQuery (source : Provider) (request : Request) : List QueryVector :=
  if source.candidateConditioned then
    request.candidates.map fun candidate =>
      ⟨source.representationId, request.precedingText, some candidate⟩
  else [⟨source.representationId, request.precedingText, none⟩]

/-- What the outside world decides while a request is served. -/
structure ServeEnv where
  /-- The catch-up deadline has passed. -/
  expired : Bool := false
  /-- A fault of the store, a provider, an engine or an index. -/
  fault : Option FaultCode := none
  /-- The oracle looks the event's vector up. -/
  looked : StoredEvent → Bool := fun _ => true

/-- `_run_retrieval`, up to the computation: the index it uses.  `backend` is the snapshot's. -/
def retrievalIndex (service : Service) (backend : Option RetrievalBackend) :
    Except FaultCode (Option NeighborIndex) :=
  if service.retrievalBackend.isAnn then
    match service.annIndex with
    | none => .error .annFault
    | some index =>
      if backend = some .accelerate ∨ backend = some .mlx then .error .backendMismatch
      else .ok (some index)
  else
    match backend with
    | none => .ok none
    | some backend =>
      if backend ≠ service.retrievalBackend then .error .backendMismatch else .ok none

/-- The vectors the oracle looks up; a missing one is a fault. -/
def lookUp (env : ServeEnv) (events : List StoredEvent) (vectorFor : Text → Option Text) :
    Except FaultCode (List (Text × Text)) :=
  let looked := events.filter env.looked
  if looked.all fun event => (vectorFor event.eventId).isSome then
    .ok (looked.filterMap fun event => (vectorFor event.eventId).map fun v => (event.eventId, v))
  else .error .oracleFault

/-- `_serve_via_snapshot`, from the snapshot that passed the gate and the watermark. -/
def serveSnapshot (service : Service) (env : ServeEnv) (request : Request)
    (snapshot : DeltaSnapshot) : Except FaultCode Computation := do
  let index ← retrievalIndex service (some snapshot.retrievalBackend)
  let eventVectors ← lookUp env snapshot.activeEvents fun eventId =>
    (snapshot.vectors.find? fun entry => entry.1 = eventId).map Prod.snd
  return {
    storeEpoch := snapshot.storeEpoch
    queryPoint := snapshot.consumed
    representationId := snapshot.representationId
    queryVectors := oracleQuery snapshot.queryProvider request
    eventVectors
    index }

/-- `_serve_direct`, from the identity that was checked, the events it listed, and the query point
that `compute_evidence` reads. -/
def serveDirect (service : Service) (env : ServeEnv) (request : Request) (db : Db)
    (storeEpoch : Text) (listed : List Text) (queryPoint : Hlc) : Except FaultCode Computation := do
  let index ← retrievalIndex service none
  let eventVectors ← lookUp env (readActiveEvents db queryPoint) fun eventId =>
    if eventId ∈ listed then some service.provider.representationId else none
  return {
    storeEpoch
    queryPoint
    representationId := service.provider.representationId
    queryVectors := oracleQuery service.provider request
    eventVectors
    index }

end Evidence
end SemanticMemory
