import Mathlib
import SemanticMemory.Basic
import SemanticMemory.Lib.Json

/-!
# Fault traces of the evidence path

`handle_evidence_request` (`daemon/server.py`) answers an evidence request, and every fault it
answers with is to leave one trace and one count in the trace store (`daemon/tracing.py`).

* A request is the JSON document it was decoded from; a Python string is its UTF-16 code units.
* `recordRequest` writes in the order of the source, and an exception, which every caller swallows,
  keeps what was written before it: the trace file, then the index, then the aggregates that the
  fault-rate alarm reads.
* What the oracle comes to is a parameter of the service; its own faults are recorded by the
  service, `Service.recordFault`.
* The records of order changes and of unchanged successes, the apply index and the latencies are
  left out.
-/

namespace SemanticMemory.Tracing

open Json (units)

abbrev Str := List (Fin 65536)

/-! ## Codes -/

/-- The stable error codes. -/
inductive Code where
  | invalidRequest | evidenceUnavailable | configIdentityMismatch | activeIdentityRefused
  | factIdentityMismatch | notCaughtUp | factStoreFault | oracleFault | accelerateFault | mlxFault
  | representationFault | maintenanceInProgress | serverError
  /-- Any other code an evidence error may carry. -/
  | other (name : Str)
  deriving DecidableEq

def Code.name : Code → Str
  | .invalidRequest => units "invalid_request"
  | .evidenceUnavailable => units "evidence_unavailable"
  | .configIdentityMismatch => units "config_identity_mismatch"
  | .activeIdentityRefused => units "active_identity_refused"
  | .factIdentityMismatch => units "fact_identity_mismatch"
  | .notCaughtUp => units "not_caught_up"
  | .factStoreFault => units "fact_store_fault"
  | .oracleFault => units "oracle_fault"
  | .accelerateFault => units "accelerate_fault"
  | .mlxFault => units "mlx_fault"
  | .representationFault => units "representation_fault"
  | .maintenanceInProgress => units "maintenance_in_progress"
  | .serverError => units "server_error"
  | .other name => name

/-- `_EVIDENCE_FAULT_CODES`; every other code is answered as `oracle_fault`. -/
def Code.answered : Code → Code
  | .maintenanceInProgress | .serverError | .other _ => .oracleFault
  | code => code

/-- The codes of a request that fails closed before the oracle. -/
def Code.failsClosed (code : Code) : Bool :=
  code = .invalidRequest || code = .evidenceUnavailable || code = .configIdentityMismatch

/-! ## Strings and values -/

/-- A character of `_SAFE_CHARS`. -/
def isSafeUnit (u : Fin 65536) : Bool :=
  (97 ≤ u.val && u.val ≤ 122) || (65 ≤ u.val && u.val ≤ 90) || (48 ≤ u.val && u.val ≤ 57) ||
  (units "-_.:+=@,").contains u

/-- `_safe_name(value)` with its default limit. -/
def safeName : Json → Option Str
  | .str s => if s ≠ [] && s.length ≤ 200 && s.all isSafeUnit then some s else none
  | _ => none

def isHigh (u : Fin 65536) : Bool := 55296 ≤ u.val && u.val < 56320

def isLow (u : Fin 65536) : Bool := 56320 ≤ u.val && u.val < 57344

/-- `len` of a string: a pair of surrogates is one code point. -/
def codePoints : Str → ℕ
  | [] => 0
  | [_] => 1
  | u :: v :: s => if isHigh u && isLow v then codePoints s + 1 else codePoints (v :: s) + 1

/-- Encoded as UTF-8, a string has no half of a pair. -/
def encodable : Str → Bool
  | [] => true
  | [u] => !isHigh u && !isLow u
  | u :: v :: s =>
    if isHigh u && isLow v then encodable s else !isHigh u && !isLow u && encodable (v :: s)

/-- `len(value)`, which only strings, lists and dictionaries have. -/
def len : Json → Option ℕ
  | .str s => some (codePoints s)
  | .arr xs => some xs.length
  | .obj fs => some fs.length
  | _ => none

/-- `len(value or [])`. -/
def lenOrEmpty (v : Json) : Option ℕ := if v.truthy then len v else some 0

mutual

/-- `json.dumps(value, ensure_ascii=False)` is ASCII. -/
def isAscii : Json → Bool
  | .str s => s.all (· < 128)
  | .arr xs => isAsciiItems xs
  | .obj fs => isAsciiFields fs
  | _ => true

def isAsciiItems : List Json → Bool
  | [] => true
  | x :: xs => isAscii x && isAsciiItems xs

def isAsciiFields : List (Str × Json) → Bool
  | [] => true
  | f :: fs => f.1.all (· < 128) && isAscii f.2 && isAsciiFields fs

end

/-! ## The trace store -/

structure Trace where
  traceId : Str
  errorCode : Code
  factHighWater : Json
  /-- The phase that the server names and the service does not. -/
  phase : Option Str

/-- The counters of `aggregates.json`. -/
structure Aggregates where
  semanticRequests : ℕ := 0
  faults : ℕ := 0
  passthroughs : ℕ := 0
  recentOutcomes : List Code := []
  recentActionable : List Str := []
  actionableSeq : ℕ := 0

/-- The `traces/` directory. -/
structure Store where
  /-- The trace files, the oldest first. -/
  traces : List Trace := []
  /-- The kind of each request in `index.json`. -/
  index : List (Str × Code) := []
  aggregates : Aggregates := {}
  /-- `client_apply.jsonl` is absent or readable as text. -/
  clientReadable : Bool := true

def maxTraces : ℕ := 1024

def mispromotionWindow : ℕ := 100

def faultWindow : ℕ := 300

/-- The last elements of a ring. -/
def ring {α : Type} (n : ℕ) (xs : List α) : List α := xs.drop (xs.length - n)

/-- The envelope of a request, `request_meta`. -/
structure Meta where
  schemaId : Json
  category : Json
  canonicalSegmentInput : Json
  requestId : Json
  factHighWater : Json
  completeComparable : Bool := false
  candidateCount : ℕ

/-- What a fault trace is made of beside its name. -/
structure Payload where
  errorCode : Code
  factHighWater : Json
  phase : Option Str := none
  /-- `config_identity` and `retrieval_backend`, where the service gives them. -/
  identities : List Json := []
  derivedWatermark : Json := .null

def newTraceId (nowMs : ℤ) (requestId : Json) : Str :=
  units "tr-" ++ (safeName requestId).getD (units "anon") ++ units "-" ++
    (Json.showInt nowMs).map fun b => Fin.ofNat 65536 b.val

/-- An identity field is empty or safe. -/
def safeOrNull (v : Json) : Bool :=
  match v with
  | .null => true
  | v => (safeName v).isSome

/-- `_validate_trace_payload`, and the check of the name before the file is written. -/
def validPayload (traceId : Str) (payload : Payload) : Bool :=
  (safeName (.str traceId)).isSome && (safeName (.str payload.errorCode.name)).isSome &&
  payload.identities.all safeOrNull && isAscii payload.factHighWater &&
  isAscii payload.derivedWatermark

/-- The trace file is written; one of the same name is replaced. -/
def Store.write (store : Store) (trace : Trace) : Store :=
  { store with
    traces := store.traces.filter (fun t => t.traceId ≠ trace.traceId) ++ [trace] }

/-- `_enforce_trace_bound_locked`. -/
def Store.bound (store : Store) : Store := { store with traces := ring maxTraces store.traces }

/-- A field of an index entry is empty or safe. -/
def safeOrFalsy (v : Json) : Bool := !v.truthy || (safeName v).isSome

/-- The keys of `index.json` that are no requests. -/
def reserved (s : Str) : Bool := s = units "version" || s = units "updated_at"

/-- An entry of the index. -/
def upsert (index : List (Str × Code)) (requestId : Str) (code : Code) : List (Str × Code) :=
  if reserved requestId then index
  else index.filter (fun e => e.1 ≠ requestId) ++ [(requestId, code)]

/-- `_index_trace`.  The keys are sorted and written as UTF-8, so a request that is no string, or
half a pair of surrogates in it, is an exception. -/
def indexTrace (store : Store) (requestMeta : Meta) (code : Code) : Option Store :=
  if safeOrFalsy requestMeta.schemaId && safeOrFalsy requestMeta.category &&
      safeOrFalsy requestMeta.canonicalSegmentInput then
    match requestMeta.requestId with
    | .str s =>
      if encodable s then some { store with index := upsert store.index s code } else none
    | _ => none
  else none

/-- `_update_aggregates` after a fault of a request that was indexed. -/
def updateAggregates (store : Store) (requestMeta : Meta) (code : Code) : Store :=
  let a := store.aggregates
  let a :=
    match requestMeta.completeComparable, requestMeta.requestId with
    | true, .str s =>
      { a with
        actionableSeq := a.actionableSeq + 1
        recentActionable := ring mispromotionWindow (a.recentActionable ++ [s]) }
    | _, _ => a
  { store with
    aggregates :=
      { a with
        semanticRequests := a.semanticRequests + 1
        faults := a.faults + 1
        passthroughs := a.passthroughs + 1
        recentOutcomes := ring faultWindow (a.recentOutcomes ++ [code]) } }

/-- `record_request` of a fault, up to the exception that its caller swallows. -/
def recordRequest (nowMs : ℤ) (store : Store) (requestMeta : Meta) (payload : Payload) : Store :=
  let traceId := newTraceId nowMs requestMeta.requestId
  if !store.clientReadable || !validPayload traceId payload then store
  else
    let store := store.write {
      traceId, errorCode := payload.errorCode, factHighWater := payload.factHighWater
      phase := payload.phase }
    match indexTrace store requestMeta payload.errorCode with
    | none => store
    | some store => updateAggregates store.bound requestMeta payload.errorCode

/-! ## The server -/

/-- What the oracle comes to. -/
inductive Served where
  | ok
  | error (code : Code)
  | exception

/-- The configured evidence service. -/
structure Service where
  configIdentity : Str
  retrievalBackend : Str
  derivedWatermark : Json
  serve : Json → Served

/-- How the coordinator takes the request. -/
inductive Lease where
  | noCoordinator
  | refused
  | granted (completionSink : Bool)

structure State where
  store : Option Store
  service : Option Service
  lease : Lease := .noCoordinator
  nowMs : ℤ

inductive Response where
  | ok
  | error (code : Code)
  /-- An exception leaves the handler. -/
  | raised
  deriving DecidableEq

/-- The envelope of a request, unless its candidates have no length. -/
def requestMeta (req : Json) (completeComparable : Bool) : Option Meta :=
  (lenOrEmpty (req.get "candidates")).map fun candidateCount =>
    { schemaId := req.get "schema_id", category := req.get "category"
      canonicalSegmentInput := req.get "canonical_segment_input"
      requestId := req.get "request_id", factHighWater := req.get "fact_high_water"
      completeComparable, candidateCount }

/-- `_record_evidence_fault` of a dictionary. -/
def recordEvidenceFault (state : State) (req : Json) (code : Code) (phase : String) :
    Option Store :=
  state.store.map fun store =>
    match requestMeta req false with
    | none => store
    | some m => recordRequest state.nowMs store m {
        errorCode := code, factHighWater := m.factHighWater, phase := some (units phase) }

/-- The `actionable` bit of a trial. -/
def actionable (req : Json) : Bool := ((req.get "trial").get "actionable").truthy

/-- `EvidenceService._record_fault`. -/
def Service.recordFault (service : Service) (state : State) (req : Json) (code : Code) :
    Option Store :=
  state.store.map fun store =>
    match requestMeta req (actionable req) with
    | none => store
    | some m => recordRequest state.nowMs store m {
        errorCode := code, factHighWater := m.factHighWater
        identities := [.str service.configIdentity, .str service.retrievalBackend]
        derivedWatermark := service.derivedWatermark }

def evidenceFields : List String :=
  ["version", "kind", "request_id", "plan_identity", "schema_id", "category",
    "canonical_segment_input", "preceding_text", "candidates", "config_identity",
    "fact_high_water"]

def keys : Json → List Str
  | .obj fs => fs.map Prod.fst
  | _ => []

def isNonEmptyStr : Json → Bool
  | .str s => s ≠ []
  | _ => false

def isStr : Json → Bool
  | .str _ => true
  | _ => false

def areCandidates : Json → Bool
  | .arr xs => !xs.isEmpty && xs.all isNonEmptyStr
  | _ => false

def isPrecedingText : Json → Bool
  | .str s => codePoints s ≤ 64
  | _ => false

/-- `type(value) is int and value == 2`. -/
def isProtocolVersion : Json → Bool
  | .int n => n = 2
  | _ => false

/-- The string `kind` of an evidence request. -/
def isEvidenceKind : Json → Bool
  | .str s => s = units "evidence"
  | _ => false

def validFields (req : Json) : Bool :=
  evidenceFields.all (fun k => (keys req).contains (units k)) &&
  (keys req).all (fun k => ("trial" :: evidenceFields).any fun f => units f = k) &&
  isProtocolVersion (req.get "version") && isEvidenceKind (req.get "kind") &&
  isNonEmptyStr (req.get "request_id") && isNonEmptyStr (req.get "plan_identity") &&
  isNonEmptyStr (req.get "schema_id") && isNonEmptyStr (req.get "category") &&
  isStr (req.get "canonical_segment_input") && isPrecedingText (req.get "preceding_text") &&
  areCandidates (req.get "candidates") && isNonEmptyStr (req.get "config_identity")

/-- `value == identity`. -/
def declares (identity : Str) : Json → Bool
  | .str s => s = identity
  | _ => false

/-- The least integer that has no `double`. -/
def hugeInt : ℤ := 2 ^ 1024 - 2 ^ 970

/-- Whether every score is a finite number; `none` is the `OverflowError` of an integer that has no
`double`. -/
def finiteScores : List Json → Option Bool
  | [] => some true
  | .bool _ :: xs => finiteScores xs
  | .float _ :: xs => finiteScores xs
  | .int n :: xs => if |n| < hugeInt then finiteScores xs else none
  | _ :: _ => some false

def validTrial (req : Json) : Option Bool :=
  match req.get "trial" with
  | .null => some true
  | .obj fs =>
    let trial : Json := .obj fs
    if !((keys trial).all fun k => k = units "actionable" || k = units "base_scores") ||
        !(keys trial).contains (units "actionable") then some false
    else
      match trial.get "actionable", trial.get "base_scores", req.get "candidates" with
      | .bool _, .arr scores, .arr candidates =>
        if scores.length ≠ candidates.length then some false else finiteScores scores
      | _, _, _ => some false
  | _ => some false

/-- The answer once the service has been asked, and what it leaves in the store. -/
def serveRequest (state : State) (service : Service) (req : Json) : Response × Option Store :=
  match service.serve req with
  | .ok => (.ok, state.store)
  | .error code => (.error code.answered, service.recordFault state req code)
  | .exception => (.error .oracleFault, service.recordFault state req .oracleFault)

/-- `handle_evidence_request` of a decoded dictionary. -/
def handleEvidenceRequest (state : State) (req : Json) : Response × Option Store :=
  if !validFields req then
    (.error .invalidRequest, recordEvidenceFault state req .invalidRequest "validate")
  else
    match validTrial req with
    | none => (.raised, state.store)
    | some false =>
      (.error .invalidRequest, recordEvidenceFault state req .invalidRequest "validate")
    | some true =>
      match state.service with
      | none =>
        (.error .evidenceUnavailable, recordEvidenceFault state req .evidenceUnavailable "evidence")
      | some service =>
        if !declares service.configIdentity (req.get "config_identity") then
          (.error .configIdentityMismatch,
            recordEvidenceFault state req .configIdentityMismatch "evidence")
        else
          match state.lease with
          | .refused => (.error .maintenanceInProgress, state.store)
          | .granted false => (.error .serverError, state.store)
          | _ => serveRequest state service req

/-! ## What it takes to leave a trace -/

/-- The fault is recorded once: one trace file, and one count among the outcomes. -/
def Traced (code : Code) (before after : Store) : Prop :=
  ∃ trace : Trace, trace.errorCode = code ∧ after.traces = (before.write trace).bound.traces ∧
    after.aggregates.faults = before.aggregates.faults + 1 ∧
    after.aggregates.recentOutcomes =
      ring faultWindow (before.aggregates.recentOutcomes ++ [code])

/-- The request can stand in the index: a string without half a pair of surrogates. -/
def isIndexKey : Json → Bool
  | .str s => encodable s
  | _ => false

/-- The envelope can stand in the index. -/
def Meta.indexable (m : Meta) : Bool :=
  safeOrFalsy m.schemaId && safeOrFalsy m.category && safeOrFalsy m.canonicalSegmentInput &&
  isIndexKey m.requestId

/-- The service that the request is passed on to, if it passes the checks before it. -/
def reached (state : State) (req : Json) : Option Service :=
  state.service.filter fun service =>
    validFields req && validTrial req = some true &&
    declares service.configIdentity (req.get "config_identity")

/-- The identities that a service puts into its traces can be written. -/
def Service.traceable (service : Service) : Bool :=
  safeOrNull (.str service.configIdentity) && safeOrNull (.str service.retrievalBackend) &&
  isAscii service.derivedWatermark

/-- There is a trace store, and the fields of the request can be written: the candidates have a
length, the name of the trace is not too long, the watermark is ASCII, the three index fields are
empty or safe, and the request has an identity. -/
structure Recordable (state : State) (req : Json) : Prop where
  store : ∃ store, state.store = some store ∧ store.clientReadable = true
  candidates : (lenOrEmpty (req.get "candidates")).isSome = true
  traceId : (safeName (.str (newTraceId state.nowMs (req.get "request_id")))).isSome = true
  factHighWater : isAscii (req.get "fact_high_water") = true
  schemaId : safeOrFalsy (req.get "schema_id") = true
  category : safeOrFalsy (req.get "category") = true
  canonicalSegmentInput : safeOrFalsy (req.get "canonical_segment_input") = true
  requestId : isIndexKey (req.get "request_id") = true

/-- The fields of the request can be written, and so can the service's own if it is reached. -/
def Traceable (state : State) (req : Json) : Prop :=
  Recordable state req ∧ ∀ service, reached state req = some service → service.traceable = true

/-- The answer of a request is recorded once. -/
def TracedOnce (state : State) (code : Code) (after : Option Store) : Prop :=
  ∃ before store, state.store = some before ∧ after = some store ∧ Traced code before store

section Record

variable {nowMs : ℤ} {store : Store} {m : Meta} {payload : Payload} {code : Code}

theorem not_traced_of_aggregates {after : Store} (h : after.aggregates = store.aggregates) :
    ¬ Traced code store after := by
  rintro ⟨trace, -, -, hfaults, -⟩
  rw [h] at hfaults
  omega

/-- An envelope goes into the index, or it is an exception. -/
theorem indexTrace_cases (store : Store) (m : Meta) (code : Code) :
    (m.indexable = true ∧ ∃ index, indexTrace store m code = some { store with index := index }) ∨
      m.indexable = false ∧ indexTrace store m code = none := by
  unfold indexTrace Meta.indexable
  by_cases hfields : (safeOrFalsy m.schemaId && safeOrFalsy m.category &&
    safeOrFalsy m.canonicalSegmentInput) = true
  · rw [if_pos hfields, hfields, Bool.true_and]
    rcases m.requestId with - | - | - | - | - | s | - | -
    case str =>
      by_cases hs : encodable s = true
      · exact .inl ⟨hs, _, if_pos hs⟩
      · exact .inr ⟨by simpa [isIndexKey] using hs, if_neg hs⟩
    all_goals exact .inr ⟨rfl, rfl⟩
  · rw [if_neg hfields]
    rw [Bool.not_eq_true] at hfields
    rw [hfields]
    exact .inr ⟨rfl, rfl⟩

theorem updateAggregates_faults (store : Store) (m : Meta) (code : Code) :
    (updateAggregates store m code).aggregates.faults = store.aggregates.faults + 1 ∧
      (updateAggregates store m code).aggregates.recentOutcomes =
        ring faultWindow (store.aggregates.recentOutcomes ++ [code]) ∧
      (updateAggregates store m code).traces = store.traces := by
  unfold updateAggregates
  dsimp only
  split
  · exact ⟨rfl, rfl, rfl⟩
  · exact ⟨rfl, rfl, rfl⟩

/-- **A fault is recorded** exactly when its payload is valid and its envelope can be indexed. -/
theorem traced_recordRequest (nowMs : ℤ) (store : Store) (m : Meta) (payload : Payload) :
    Traced payload.errorCode store (recordRequest nowMs store m payload) ↔
    store.clientReadable = true ∧ validPayload (newTraceId nowMs m.requestId) payload = true ∧
      m.indexable = true := by
  unfold recordRequest
  dsimp only
  by_cases hvalid : (!store.clientReadable || !validPayload (newTraceId nowMs m.requestId) payload) =
    true
  · rw [if_pos hvalid]
    refine iff_of_false (not_traced_of_aggregates rfl) fun h => ?_
    rw [h.1, h.2.1] at hvalid
    exact absurd hvalid (by decide)
  rw [if_neg hvalid]
  simp only [Bool.or_eq_true, Bool.not_eq_true', not_or, Bool.not_eq_false] at hvalid
  set trace : Trace := {
    traceId := newTraceId nowMs m.requestId, errorCode := payload.errorCode
    factHighWater := payload.factHighWater, phase := payload.phase } with htrace
  rcases indexTrace_cases (store.write trace) m payload.errorCode with
    ⟨hindexable, index, heq⟩ | ⟨hindexable, heq⟩
  · rw [heq]
    obtain ⟨hfaults, houtcomes, htraces⟩ :=
      updateAggregates_faults ({ store.write trace with index := index } : Store).bound m
        payload.errorCode
    exact iff_of_true ⟨trace, rfl, htraces, hfaults, houtcomes⟩ ⟨hvalid.1, hvalid.2, hindexable⟩
  · rw [heq]
    refine iff_of_false (not_traced_of_aggregates rfl) fun h => ?_
    rw [hindexable] at h
    exact absurd h.2.2 (by decide)

variable {state : State}

/-- A fault with an envelope and a payload of the request's fields is recorded. -/
theorem tracedOnce_record {req : Json} {code : Code} {completeComparable : Bool}
    {phase : Option Str} {identities : List Json} {derivedWatermark : Json}
    (hcode : code.failsClosed = true) :
    TracedOnce state code (state.store.map fun store =>
      match requestMeta req completeComparable with
      | none => store
      | some m => recordRequest state.nowMs store m {
          errorCode := code, factHighWater := m.factHighWater, phase := phase
          identities := identities, derivedWatermark := derivedWatermark }) ↔
      Recordable state req ∧ identities.all safeOrNull = true ∧ isAscii derivedWatermark = true := by
  have hname : (safeName (.str code.name)).isSome = true := by
    unfold Code.failsClosed at hcode
    simp only [Bool.or_eq_true, decide_eq_true_eq] at hcode
    rcases hcode with (rfl | rfl) | rfl <;> decide +kernel
  rcases hstore : state.store with - | store
  · refine iff_of_false (fun h => ?_) fun h => ?_
    · obtain ⟨before, after, hbefore, -⟩ := h
      rw [hstore] at hbefore
      cases hbefore
    · obtain ⟨before, hbefore, -⟩ := h.1.store
      rw [hstore] at hbefore
      cases hbefore
  rcases hlen : lenOrEmpty (req.get "candidates") with - | count
  · have hmeta : requestMeta req completeComparable = none := by
      unfold requestMeta
      rw [hlen]
      rfl
    rw [hmeta, Option.map_some]
    refine iff_of_false (fun h => ?_) fun h => ?_
    · obtain ⟨before, after, hbefore, hafter, htraced⟩ := h
      cases Option.some.inj (hstore.symm.trans hbefore)
      cases Option.some.inj hafter
      exact not_traced_of_aggregates rfl htraced
    · have hsome := h.1.candidates
      rw [hlen] at hsome
      cases hsome
  have hmeta : ∃ m, requestMeta req completeComparable = some m ∧ m.schemaId = req.get "schema_id" ∧
      m.category = req.get "category" ∧
      m.canonicalSegmentInput = req.get "canonical_segment_input" ∧
      m.requestId = req.get "request_id" ∧ m.factHighWater = req.get "fact_high_water" := by
    unfold requestMeta
    rw [hlen]
    exact ⟨_, rfl, rfl, rfl, rfl, rfl, rfl⟩
  obtain ⟨m, hm, hschema, hcategory, hinput, hrequest, hwater⟩ := hmeta
  rw [hm, Option.map_some]
  have hiff := traced_recordRequest state.nowMs store m {
    errorCode := code, factHighWater := m.factHighWater, phase := phase
    identities := identities, derivedWatermark := derivedWatermark }
  have honce : TracedOnce state code (some (recordRequest state.nowMs store m {
      errorCode := code, factHighWater := m.factHighWater, phase := phase
      identities := identities, derivedWatermark := derivedWatermark })) ↔
      Traced code store (recordRequest state.nowMs store m {
        errorCode := code, factHighWater := m.factHighWater, phase := phase
        identities := identities, derivedWatermark := derivedWatermark }) := by
    constructor
    · rintro ⟨before, after, hbefore, hafter, htraced⟩
      cases Option.some.inj (hstore.symm.trans hbefore)
      cases Option.some.inj hafter
      exact htraced
    · exact fun htraced => ⟨store, _, hstore, rfl, htraced⟩
  rw [honce, hiff]
  unfold validPayload Meta.indexable
  rw [hname, hschema, hcategory, hinput, hrequest, hwater]
  simp only [Bool.and_eq_true, and_true]
  constructor
  · rintro ⟨hclient, ⟨⟨⟨htrace, hids⟩, hascii⟩, hderived⟩, ⟨⟨hs, hc⟩, hi⟩, hr⟩
    exact ⟨⟨⟨store, hstore, hclient⟩, by rw [hlen]; rfl, htrace, hascii, hs, hc, hi, hr⟩, hids,
      hderived⟩
  · rintro ⟨h, hids, hderived⟩
    obtain ⟨before, hbefore, hclient⟩ := h.store
    cases Option.some.inj (hstore.symm.trans hbefore)
    exact ⟨hclient, ⟨⟨⟨h.traceId, hids⟩, h.factHighWater⟩, hderived⟩,
      ⟨⟨h.schemaId, h.category⟩, h.canonicalSegmentInput⟩, h.requestId⟩

/-- What the server records, when the service is not reached. -/
theorem tracedOnce_recordEvidenceFault {req : Json} {code : Code} {phase : String}
    (hcode : code.failsClosed = true) (hreached : reached state req = none) :
    TracedOnce state code (recordEvidenceFault state req code phase) ↔ Traceable state req := by
  have hiff : TracedOnce state code (recordEvidenceFault state req code phase) ↔ _ :=
    tracedOnce_record hcode
  rw [hiff]
  exact ⟨fun h => ⟨h.1, fun service hs => absurd (hreached.symm.trans hs) (fun hc => by cases hc)⟩,
    fun h => ⟨h.1, rfl, rfl⟩⟩

theorem tracedOnce_recordFault {req : Json} {code : Code} {service : Service}
    (hcode : code.failsClosed = true) (hreached : reached state req = some service) :
    TracedOnce state code (service.recordFault state req code) ↔ Traceable state req := by
  have hiff : TracedOnce state code (service.recordFault state req code) ↔ _ :=
    tracedOnce_record hcode
  rw [hiff]
  have htraceable : service.traceable = true ↔
      [Json.str service.configIdentity, Json.str service.retrievalBackend].all safeOrNull = true ∧
        isAscii service.derivedWatermark = true := by
    unfold Service.traceable
    simp only [List.all_cons, List.all_nil, Bool.and_true, Bool.and_eq_true]
  rw [← htraceable]
  refine and_congr_right fun _ => ⟨fun h s hs => ?_, fun h => h service hreached⟩
  obtain rfl := Option.some.inj (hreached.symm.trans hs)
  exact h

theorem eq_of_answered {code code' : Code} (hcode : code.failsClosed = true)
    (h : code'.answered = code) : code' = code := by
  cases code' with
  | other name =>
    have horacle : Code.oracleFault = code := h
    rw [← horacle] at hcode
    exact absurd hcode (by decide)
  | maintenanceInProgress =>
    rw [← h] at hcode
    exact absurd hcode (by decide)
  | serverError =>
    rw [← h] at hcode
    exact absurd hcode (by decide)
  | _ => exact h

/-- **A request that fails closed is traced once** exactly when its fields can be written. -/
theorem faults_traced (state : State) (req : Json) (code : Code)
    (hanswer : (handleEvidenceRequest state req).1 = .error code)
    (hcode : code.failsClosed = true) :
    TracedOnce state code (handleEvidenceRequest state req).2 ↔ Traceable state req := by
  unfold handleEvidenceRequest at hanswer ⊢
  by_cases hfields : validFields req = true
  swap
  · have hreached : reached state req = none := by
      unfold reached
      rw [Option.filter_eq_none_iff]
      intro service _
      simp [hfields]
    rw [if_pos (by simpa using hfields)] at hanswer ⊢
    cases hanswer
    exact tracedOnce_recordEvidenceFault hcode hreached
  rw [if_neg (by simpa using hfields)] at hanswer ⊢
  rcases htrial : validTrial req with - | valid
  · rw [htrial] at hanswer
    cases hanswer
  rw [htrial] at hanswer
  rcases valid with - | -
  · have hreached : reached state req = none := by
      unfold reached
      rw [Option.filter_eq_none_iff]
      intro service _
      simp [htrial]
    cases hanswer
    exact tracedOnce_recordEvidenceFault hcode hreached
  dsimp only at hanswer ⊢
  rcases hservice : state.service with - | service
  · have hreached : reached state req = none := by
      unfold reached
      rw [hservice]
      rfl
    rw [hservice] at hanswer
    cases hanswer
    exact tracedOnce_recordEvidenceFault hcode hreached
  rw [hservice] at hanswer
  dsimp only at hanswer ⊢
  by_cases hdeclares : declares service.configIdentity (req.get "config_identity") = true
  swap
  · have hreached : reached state req = none := by
      unfold reached
      rw [Option.filter_eq_none_iff, hservice]
      intro service' hs
      cases hs
      simp [hdeclares]
    rw [if_pos (by simpa using hdeclares)] at hanswer ⊢
    cases hanswer
    exact tracedOnce_recordEvidenceFault hcode hreached
  have hreached : reached state req = some service := by
    unfold reached
    rw [hservice, Option.filter_some, if_pos]
    rw [hfields, htrial, hdeclares]
    rfl
  rw [if_neg (by simpa using hdeclares)] at hanswer ⊢
  have hserve (h : (serveRequest state service req).1 = .error code) :
      TracedOnce state code (serveRequest state service req).2 ↔ Traceable state req := by
    unfold serveRequest at h ⊢
    rcases hs : service.serve req with - | code' | - <;> rw [hs] at h
    · cases h
    · obtain rfl := eq_of_answered hcode (Response.error.inj h)
      exact tracedOnce_recordFault hcode hreached
    · cases h
      exact absurd hcode (by decide)
  rcases hlease : state.lease with - | - | sink <;> rw [hlease] at hanswer
  · exact hserve hanswer
  · cases hanswer
    exact absurd hcode (by decide)
  · cases sink
    · cases hanswer
      exact absurd hcode (by decide)
    · exact hserve hanswer

/-- A state with an empty trace store and no service. -/
def sampleState : State where
  store := some {}
  service := none
  nowMs := 1750000000000

/-- A request of kind `evidence` with one more field. -/
def sampleRequest (key : String) (value : Json) : Json :=
  .obj [(units "kind", .str (units "evidence")), (units "request_id", .str (units "r-1")),
    (units key, value)]

/-- A request without most of its fields is traced. -/
theorem faults_traced_sample : TracedOnce sampleState .invalidRequest
    (handleEvidenceRequest sampleState (sampleRequest "category" .null)).2 :=
  (faults_traced sampleState (sampleRequest "category" .null) .invalidRequest (by decide +kernel)
    (by decide)).mpr
    ⟨⟨⟨{}, rfl, rfl⟩, by decide +kernel, by decide +kernel, by decide +kernel, by decide +kernel,
      by decide +kernel, by decide +kernel, by decide +kernel⟩,
      fun service hs => by cases hs⟩

/-- **A number in place of the candidates drops the trace.** -/
theorem faults_untraced :
    ¬ ∀ (state : State) (req : Json) (code : Code), state.store.isSome = true →
      isEvidenceKind (req.get "kind") = true →
      (handleEvidenceRequest state req).1 = .error code → code.failsClosed = true →
      TracedOnce state code (handleEvidenceRequest state req).2 := by
  intro h
  have htraced := h sampleState (sampleRequest "candidates" (.int 5)) .invalidRequest rfl
    (by decide +kernel) (by decide +kernel) (by decide)
  have hfault : (handleEvidenceRequest sampleState (sampleRequest "candidates" (.int 5))).2 =
      recordEvidenceFault sampleState (sampleRequest "candidates" (.int 5)) .invalidRequest
        "validate" := by
    unfold handleEvidenceRequest
    rw [if_pos (by decide +kernel)]
  rw [hfault, tracedOnce_recordEvidenceFault (by decide) rfl] at htraced
  exact absurd htraced.1.candidates (by decide +kernel)

end Record

end SemanticMemory.Tracing
