import SemanticMemory.Facts.Readers

/-!
# The exact oracle

`compute_evidence` of `daemon/oracle.py`: the evidence of the facts for one query, plain or
conditioned on its candidates.

* The numbers and their operations are a parameter, `Numbers`, and so are NFC and the simplified
  conversion: nothing is assumed of them.
* A reader is what `compute_evidence` asks of one: the active events at a point, and the clock.
* A matched candidate is its index, and `none` is the `-1` of the source.  No cosine engine is given.
-/

namespace SemanticMemory.Oracle

open FactStore

/-- Floating-point numbers. -/
structure Numbers (F : Type) where
  zero : F
  one : F
  two : F
  ofNat : ℕ → F
  add : F → F → F
  sub : F → F → F
  mul : F → F → F
  div : F → F → F
  pow : F → F → F
  neg : F → F
  sqrt : F → F
  /-- `sum` of a list. -/
  sum : List F → F
  lt : F → F → Bool
  eq : F → F → Bool
  isFinite : F → Bool
  isInf : F → Bool

namespace Numbers

variable {F : Type} (n : Numbers F)

def max (a b : F) : F := if n.lt a b then b else a

def min (a b : F) : F := if n.lt b a then b else a

end Numbers

structure Texts where
  nfc : Text → Text
  simplify : Text → Text

def Texts.canonicalizeSegmentInput (t : Texts) (text : Text) : Text :=
  if text = [] then text
  else t.nfc (text.map fun b => if 65 ≤ b.val && b.val ≤ 90 then Fin.ofNat 256 (b.val + 32) else b)

def Texts.matchText (t : Texts) (text : Text) : Text := t.simplify (t.nfc text)

/-- A choice-problem key. -/
abbrev Key := Text × Text × Text

def Texts.choiceProblemKey (t : Texts) (schemaId category canonicalSegmentInput : Text) : Key :=
  (schemaId, category, t.canonicalizeSegmentInput canonicalSegmentInput)

/-- `StoredEvent.key`. -/
def eventKey (t : Texts) (event : StoredEvent) : Key :=
  t.choiceProblemKey event.schemaId event.category event.canonicalSegmentInput

/-! ## Queries -/

/-- The cases of an `OracleError` that a query or its evidence can meet. -/
inductive OracleError where
  | emptySchemaId | emptyCategory | noCandidates | emptyQueryVector | badAsOf
  | nonFiniteQueryVector | unalignedCandidateVectors | emptyCandidateVector
  | nonFiniteCandidateVector
  /-- `default_as_of` of a store without a clock. -/
  | clockMissing
  /-- A vector with a number that is not finite, or with none. -/
  | nonFiniteVector | emptyVector
  | lookupFailed (eventId : Text)
  | dimensionMismatch (eventId : Text) (event query : ℕ)
  | zeroVector
  deriving DecidableEq

structure OracleParams (F : Type) where
  tau : F
  kEvidence : ℕ
  halfLife : F
  saturationK : F

structure OracleQuery (F : Type) where
  schemaId : Text
  canonicalSegmentInput : Text
  candidates : List Text
  queryVector : List F
  category : Text
  asOf : Option Hlc := none
  excludeEventIds : List Text := []
  candidateQueryVectors : Option (List (List F)) := none

variable {F : Type}

/-- The checks of `__post_init__` on the candidate vectors. -/
def checkCandidateVectors (n : Numbers F) (vectors : List (List F)) : Option OracleError :=
  vectors.findSome? fun vector =>
    if vector.isEmpty then some .emptyCandidateVector
    else if vector.all n.isFinite then none
    else some .nonFiniteCandidateVector

/-- `OracleQuery.__post_init__`: the error of a query that is refused. -/
def OracleQuery.postInit (n : Numbers F) (query : OracleQuery F) : Option OracleError :=
  if query.schemaId = [] then some .emptySchemaId
  else if query.category = [] then some .emptyCategory
  else if query.candidates.isEmpty then some .noCandidates
  else if query.queryVector.isEmpty && query.candidateQueryVectors.isNone then
    some .emptyQueryVector
  else if (query.asOf.any fun p => (ofLex p).1 < 0 || (ofLex p).2 < 0) then some .badAsOf
  else if !query.queryVector.all n.isFinite then some .nonFiniteQueryVector
  else
    match query.candidateQueryVectors with
    | none => none
    | some vectors =>
      if vectors.length ≠ query.candidates.length then some .unalignedCandidateVectors
      else checkCandidateVectors n vectors

/-- `OracleQuery.key`. -/
def OracleQuery.key (t : Texts) (query : OracleQuery F) : Key :=
  t.choiceProblemKey query.schemaId query.category query.canonicalSegmentInput

/-! ## Vectors -/

def asFloatVector (n : Numbers F) (values : List F) : Except OracleError (List F) :=
  if !values.all n.isFinite then .error .nonFiniteVector
  else if values.isEmpty then .error .emptyVector
  else .ok values

def asFloatVectors (n : Numbers F) : List (List F) → Except OracleError (List (List F))
  | [] => .ok []
  | values :: rest =>
    match asFloatVector n values with
    | .error e => .error e
    | .ok vector =>
      match asFloatVectors n rest with
      | .error e => .error e
      | .ok vectors => .ok (vector :: vectors)

def cosine (n : Numbers F) (query event : List F) : Except OracleError F :=
  let pairs := query.zip event
  let dot := pairs.foldl (fun total (q, e) => n.add total (n.mul q e)) n.zero
  let queryNorm := pairs.foldl (fun total (q, _) => n.add total (n.mul q q)) n.zero
  let eventNorm := pairs.foldl (fun total (_, e) => n.add total (n.mul e e)) n.zero
  if n.eq queryNorm n.zero || n.eq eventNorm n.zero then .error .zeroVector
  else .ok (n.div dot (n.sqrt (n.mul queryNorm eventNorm)))

/-- The cosine of an event with a query vector.  `wrapped` says that a fault of its vector is
answered as a failed lookup. -/
def eventCosine (n : Numbers F) (wrapped : Bool) (vectorFor : Text → Option (List F))
    (query : List F) (event : StoredEvent) : Except OracleError F :=
  match vectorFor event.eventId with
  | none => .error (.lookupFailed event.eventId)
  | some values =>
    match asFloatVector n values with
    | .error e => .error (if wrapped then .lookupFailed event.eventId else e)
    | .ok vector =>
      if vector.length ≠ query.length then
        .error (.dimensionMismatch event.eventId vector.length query.length)
      else cosine n query vector

/-! ## Contributions -/

/-- An `EventContribution`. -/
structure Contribution (F : Type) where
  eventId : Text
  commitId : Text
  finalSelectionText : Text
  hlc : Hlc
  cosine : F
  relevance : F
  usageAge : ℕ
  ageFactor : F
  weight : F
  matchedCandidate : Option ℕ
  deriving DecidableEq

def ageFactor (n : Numbers F) (usageAge : ℕ) (halfLife : F) : F :=
  if n.isInf halfLife then n.one
  else n.pow n.two (n.div (n.neg (n.ofNat usageAge)) halfLife)

/-- The contribution of the event at `index` of the `count` events with the query's key. -/
def contribution (n : Numbers F) (params : OracleParams F) (count index : ℕ) (event : StoredEvent)
    (cosine : F) (matched : Option ℕ) : Contribution F :=
  let relevance := n.min (n.max (n.div (n.sub cosine params.tau) (n.sub n.one params.tau)) n.zero)
    n.one
  let usageAge := count - 1 - index
  let factor := ageFactor n usageAge params.halfLife
  { eventId := event.eventId
    commitId := event.commitId
    finalSelectionText := event.finalSelectionText
    hlc := event.hlc
    cosine := cosine
    relevance := relevance
    usageAge := usageAge
    ageFactor := factor
    weight := n.mul relevance factor
    matchedCandidate := matched }

def matchedCandidate (t : Texts) (candidates : List Text) (selection : Text) : Option ℕ :=
  candidates.findIdx? fun candidate => candidate = t.matchText selection

/-- The events with the key of the query, in `(hlc, event_id)` order. -/
def sameKey (t : Texts) (query : OracleQuery F) (active : List StoredEvent) : List StoredEvent :=
  sortEvents (active.filter fun event =>
    event.eventId ∉ query.excludeEventIds ∧ eventKey t event = query.key t)

/-- The contributions of a plain query, from the event at `index` on. -/
def plainContributions (n : Numbers F) (params : OracleParams F)
    (vectorFor : Text → Option (List F)) (query : List F) (count : ℕ) :
    ℕ → List StoredEvent → Except OracleError (List (Contribution F))
  | _, [] => .ok []
  | index, event :: rest =>
    match eventCosine n false vectorFor query event with
    | .error e => .error e
    | .ok cosine =>
      match plainContributions n params vectorFor query count (index + 1) rest with
      | .error e => .error e
      | .ok contributions =>
        .ok (contribution n params count index event cosine none :: contributions)

/-- The events that match a candidate, by candidate in the order these are first met. -/
def pairedEvents (t : Texts) (candidates : List Text) (events : List StoredEvent) :
    List (ℕ × StoredEvent) :=
  let matched := events.filterMap fun event =>
    (matchedCandidate t candidates event.finalSelectionText).map fun index => (index, event)
  (matched.map Prod.fst).eraseDups.flatMap fun index => matched.filter fun entry => entry.1 = index

/-- Their cosines, each with the vector of its candidate. -/
def pairedCosines (n : Numbers F) (vectorFor : Text → Option (List F)) (vectors : List (List F)) :
    List (ℕ × StoredEvent) → Except OracleError (List (Text × F))
  | [] => .ok []
  | (index, event) :: rest =>
    match eventCosine n true vectorFor (vectors.getD index []) event with
    | .error e => .error e
    | .ok cosine =>
      match pairedCosines n vectorFor vectors rest with
      | .error e => .error e
      | .ok cosines => .ok ((event.eventId, cosine) :: cosines)

/-- The contributions of a candidate-conditioned query: an event without a cosine has none. -/
def pairedContributions (n : Numbers F) (t : Texts) (params : OracleParams F)
    (candidates : List Text) (cosines : List (Text × F)) (events : List StoredEvent) :
    List (Contribution F) :=
  events.zipIdx.filterMap fun (event, index) =>
    (cosines.lookup event.eventId).map fun cosine =>
      contribution n params events.length index event cosine
        (matchedCandidate t candidates event.finalSelectionText)

/-! ## Aggregation -/

/-- An `OracleResult`. -/
structure OracleResult (F : Type) where
  queryPoint : Hlc
  sameKeyActive : ℕ
  kept : List (Contribution F)
  /-- The index, `m` and `s` of every candidate. -/
  candidates : List (ℕ × F × F)
  totalMass : F
  derivedKey : Key
  deriving DecidableEq

/-- The order of the kept contributions: by weight, the greatest first, then by `(hlc, event_id)`. -/
def heavier (n : Numbers F) (a b : Contribution F) : Bool :=
  n.lt (n.neg a.weight) (n.neg b.weight) ||
    (n.eq (n.neg a.weight) (n.neg b.weight) &&
      decide ((toLex (a.hlc, a.eventId) : Hlc ×ₗ Text) ≤ toLex (b.hlc, b.eventId)))

def keep (n : Numbers F) (params : OracleParams F) (contributions : List (Contribution F)) :
    List (Contribution F) :=
  ((contributions.filter fun entry => n.lt n.zero entry.weight).insertionSort fun a b =>
    heavier n a b = true).take params.kEvidence

/-- `m_c`. -/
def mass (n : Numbers F) (kept : List (Contribution F)) (index : ℕ) : F :=
  kept.foldl (fun total entry =>
    if entry.matchedCandidate = some index then n.add total entry.weight else total) n.zero

def aggregate (n : Numbers F) (params : OracleParams F) (asOf : Hlc) (key : Key)
    (candidates : List Text) (sameKeyActive : ℕ) (kept : List (Contribution F)) : OracleResult F :=
  let masses := (List.range candidates.length).map (mass n kept)
  let total := n.sum masses
  { queryPoint := asOf
    sameKeyActive := sameKeyActive
    kept := kept
    candidates := masses.zipIdx.map fun (m, index) =>
      (index, m, if n.lt n.zero total then
        n.mul (n.div m total) (n.div m (n.add m params.saturationK)) else n.zero)
    totalMass := total
    derivedKey := key }

/-- A kept contribution with its match, which a plain query looks for last. -/
def matchEntry (t : Texts) (candidates : List Text) (entry : Contribution F) : Contribution F :=
  { entry with matchedCandidate := matchedCandidate t candidates entry.finalSelectionText }

/-- What `compute_evidence` asks of a reader. -/
structure Reader where
  readActiveEvents : Hlc → List StoredEvent
  defaultAsOf : Option Hlc

/-- `compute_evidence(reader, params, query, vector_for)`. -/
def computeEvidence (n : Numbers F) (t : Texts) (reader : Reader) (params : OracleParams F)
    (query : OracleQuery F) (vectorFor : Text → Option (List F)) :
    Except OracleError (OracleResult F) :=
  match query.asOf <|> reader.defaultAsOf with
  | none => .error .clockMissing
  | some asOf =>
    let candidates := query.candidates.map t.matchText
    let events := sameKey t query (reader.readActiveEvents asOf)
    match query.candidateQueryVectors with
    | some values =>
      match asFloatVectors n values with
      | .error e => .error e
      | .ok vectors =>
        match pairedCosines n vectorFor vectors (pairedEvents t candidates events) with
        | .error e => .error e
        | .ok cosines =>
          .ok (aggregate n params asOf (query.key t) candidates events.length
            (keep n params (pairedContributions n t params candidates cosines events)))
    | none =>
      match asFloatVector n query.queryVector with
      | .error e => .error e
      | .ok vector =>
        match plainContributions n params vectorFor vector events.length 0 events with
        | .error e => .error e
        | .ok contributions =>
          .ok (aggregate n params asOf (query.key t) candidates events.length
            ((keep n params contributions).map (matchEntry t candidates)))

/-- A `FactReader` over a store. -/
def factReader (db : Db) : Reader where
  readActiveEvents := readActiveEvents db
  defaultAsOf :=
    if db.metaRows.hlcPhysicalMs < 0 ∨ db.metaRows.hlcLogical < 0 then none else some db.clock

/-- The evidence at a point depends on the active events at that point alone. -/
theorem computeEvidence_congr {n : Numbers F} {t : Texts} {reader other : Reader}
    {params : OracleParams F} {query : OracleQuery F} {vectorFor : Text → Option (List F)} {p : Hlc}
    (hp : query.asOf = some p) (h : reader.readActiveEvents p = other.readActiveEvents p) :
    computeEvidence n t reader params query vectorFor =
      computeEvidence n t other params query vectorFor := by
  have hfirst (other : Option Hlc) : (some p <|> other) = some p := rfl
  rw [computeEvidence, computeEvidence, hp, hfirst, hfirst]
  dsimp only
  rw [h]

end SemanticMemory.Oracle
