import SemanticMemory.Evidence.Replay
import SemanticMemory.Staging.Chunks

/-!
# Reopening a completed container

The build core of `daemon/generation.py` writes a container, and `open_generation` verifies it.

* A container is its directory name and what its three files parse to.  The serializations, the
  checksums and the two composed identities are parameters, `Kit`; file operations succeed.
* The vectors of a build are those of `_build_chunks`.  A component of a provider's vector reads back
  as it was packed: nothing is rounded.
* The build runs its probes over the raw facts, the reopening over the stored rows, whose segment
  inputs are canonical already.

## Results

* `reopens_iff`: a completed container is accepted, with the rows of the snapshot, exactly when
  canonicalizing the stored inputs once more changes no match between a probe and an event.
-/

namespace SemanticMemory.Reopen

open FactStore Oracle
open Chunks (Bytes Chunk)

variable {F : Type}

/-! ## Identities and rows -/

structure Identity where
  storeEpoch : Text
  sourceHlc : Hlc
  representationId : Text
  vectorDimension : ℕ
  vectorFormat : Text
  projectionVersion : Text
  indexFingerprint : Text
  builderVersion : Text
  retrievalBackend : Text
  rebuildTag : Option Text
  deriving DecidableEq

/-- `_metadata_row`. -/
structure Row where
  eventId : Text
  choiceProblemKey : Key
  candidate : Text
  hlc : Hlc
  deriving DecidableEq

/-- What the fingerprint of a probe's result is taken of, `_probe_results_fingerprint`. -/
structure Summary (F : Type) where
  sameKeyActive : ℕ
  totalMass : F
  candidates : List (ℕ × F × F)
  kept : List (Text × F × F × ℕ × F × F × Option ℕ)

def summary (result : OracleResult F) : Summary F where
  sameKeyActive := result.sameKeyActive
  totalMass := result.totalMass
  candidates := result.candidates
  kept := result.kept.map fun entry => (entry.eventId, entry.cosine, entry.relevance,
    entry.usageAge, entry.ageFactor, entry.weight, entry.matchedCandidate)

/-- A probe of the manifest, with the fingerprint of its result. -/
structure Probe (F : Type) where
  schemaId : Text
  category : Text
  canonicalSegmentInput : Text
  candidates : List Text
  queryVector : List F
  queryVectors : Option (List (List F))
  resultsFingerprint : Text

/-- The manifest without its own checksum. -/
structure Body (F : Type) where
  generationId : Text
  identity : Identity
  rowCount : ℕ
  rowsFingerprint : Text
  chunks : List Chunk
  params : OracleParams F
  probes : List (Probe F)
  metadataSize : ℕ
  metadataSha256 : String
  vectorsSize : ℕ
  vectorsSha256 : String

structure Container (F : Type) where
  name : Text
  body : Body F
  manifestSha256 : String
  /-- The rows of `metadata.json`, with their indexes. -/
  metadata : List (ℕ × Row)
  vectors : Bytes

/-- What the build and the reopening compute with. -/
structure Kit (F : Type) where
  n : Numbers F
  t : Texts
  nfc_ne : ∀ text, text ≠ [] → t.nfc text ≠ []
  unitNormTolerance : F
  /-- The four bytes of a component. -/
  pack : F → Bytes
  length_pack : ∀ x, (pack x).length = 4
  unpack : Bytes → F
  sha256Hex : Bytes → String
  sha256Hex_ne : ∀ bytes, sha256Hex bytes ≠ ""
  rowsFingerprint : List Row → Text
  rowsFingerprint_ne : ∀ rows, rowsFingerprint rows ≠ []
  composeGenerationId : Identity → Text → Text
  composeGenerationId_ne : ∀ identity fingerprint, composeGenerationId identity fingerprint ≠ []
  resultsFingerprint : Summary F → Text
  metadataBytes : List (ℕ × Row) → Bytes
  bodySha256 : Body F → String
  bodySha256_ne : ∀ body, bodySha256 body ≠ ""
  vectorFormat : Text
  supportedBackends : List Text

def probeCount : ℕ := 4

/-- `_validate_event`. -/
def validEvent (event : StoredEvent) : Bool :=
  event.eventId ≠ [] && event.schemaId ≠ [] && event.canonicalSegmentInput ≠ [] &&
    event.category ≠ [] && event.finalSelectionText ≠ [] &&
    0 ≤ (ofLex event.hlc).1 && 0 ≤ (ofLex event.hlc).2

/-- `_validate_vector`. -/
def validVector (kit : Kit F) (dimension : ℕ) (vector : List F) : Bool :=
  let n := kit.n
  let norm := n.sqrt (n.sum (vector.map fun x => n.mul x x))
  let off := n.sub norm n.one
  vector.length = dimension && vector.all n.isFinite && n.isFinite norm && !n.eq norm n.zero &&
    !n.lt kit.unitNormTolerance (if n.lt off n.zero then n.neg off else off)

def packVector (kit : Kit F) (vector : List F) : Bytes := vector.flatMap kit.pack

def rowVector (kit : Kit F) (dimension : ℕ) (file : Bytes) (row : ℕ) : List F :=
  (List.range dimension).map fun j => kit.unpack ((file.drop ((row * dimension + j) * 4)).take 4)

/-! ## The build -/

/-- A representation provider, as a build uses it. -/
structure Provider (F : Type) where
  representationId : Text
  representationId_ne : representationId ≠ []
  vectorDimension : ℕ
  vectorDimension_pos : 0 < vectorDimension
  isCandidateConditioned : Bool
  eventVector : StoredEvent → Option (List F)
  queryVector : Text → Option (List F)
  queryVectorForCandidate : Text → Text → Option (List F)

/-- A frozen snapshot of the facts: the active events at the point `sourceHlc`, as a reader returns
them. -/
structure Snapshot where
  storeEpoch : Text
  storeEpoch_ne : storeEpoch ≠ []
  sourceHlc : Hlc
  sourceHlc_nonneg : 0 ≤ (ofLex sourceHlc).1 ∧ 0 ≤ (ofLex sourceHlc).2
  events : List StoredEvent
  nodup : (events.map StoredEvent.eventId).Nodup
  sorted : events.Pairwise fun a b => a.orderKey ≤ b.orderKey
  /-- `_competition_candidates`. -/
  competition : Text → List Text

/-- What else a target is composed of. -/
structure Target where
  projectionVersion : Text
  projectionVersion_ne : projectionVersion ≠ []
  indexFingerprint : Text
  indexFingerprint_ne : indexFingerprint ≠ []
  builderVersion : Text
  builderVersion_ne : builderVersion ≠ []
  retrievalBackend : Text
  rebuildTag : Option Text

def metadataRow (t : Texts) (event : StoredEvent) : Row :=
  ⟨event.eventId, eventKey t event, event.finalSelectionText, event.hlc⟩

def identityOf (kit : Kit F) (provider : Provider F) (snapshot : Snapshot) (target : Target) :
    Identity where
  storeEpoch := snapshot.storeEpoch
  sourceHlc := snapshot.sourceHlc
  representationId := provider.representationId
  vectorDimension := provider.vectorDimension
  vectorFormat := kit.vectorFormat
  projectionVersion := target.projectionVersion
  indexFingerprint := target.indexFingerprint
  builderVersion := target.builderVersion
  retrievalBackend := target.retrievalBackend
  rebuildTag := target.rebuildTag

/-- `enumerate` of the rows. -/
def enumerate (rows : List Row) : List (ℕ × Row) := rows.zipIdx.map fun (row, index) => (index, row)

/-- What the chunked vector build runs with: a dirty vector is none. -/
def buildEnv (kit : Kit F) (provider : Provider F) (chunkRows : ℕ) (hrows : 0 < chunkRows) :
    Chunks.Env StoredEvent where
  dimension := provider.vectorDimension
  dimension_pos := provider.vectorDimension_pos
  chunkRows := chunkRows
  chunkRows_pos := hrows
  vector event := ((provider.eventVector event).filter
    (validVector kit provider.vectorDimension)).map (packVector kit)
  length_vector event bytes h := by
    obtain ⟨vector, hvector, rfl⟩ := Option.map_eq_some_iff.mp h
    have hvalid := (Option.filter_eq_some_iff.mp hvector).2
    simp only [validVector, Bool.and_eq_true, decide_eq_true_eq] at hvalid
    rw [packVector, List.length_flatMap, List.map_congr_left fun x _ => kit.length_pack x,
      List.map_const', List.sum_replicate, hvalid.1.1.1.1, smul_eq_mul]
  sha256Hex := kit.sha256Hex
  sha256Hex_ne := kit.sha256Hex_ne
  pieces _ bytes := [bytes]
  flatten_pieces := Chunks.flatten_whole
  temps _ := 0

/-- The chunked vector build: the records and the bytes, unless a vector is missing or dirty. -/
def buildVectors (kit : Kit F) (provider : Provider F) (chunkRows : ℕ) (hrows : 0 < chunkRows)
    (events : List StoredEvent) :
    Except StoredEvent (List Chunk × Bytes) :=
  (Chunks.buildChunks (buildEnv kit provider chunkRows hrows) events 0 none []).2

def probeQuery (probe : Probe F) (asOf : Hlc) : OracleQuery F where
  schemaId := probe.schemaId
  canonicalSegmentInput := probe.canonicalSegmentInput
  candidates := probe.candidates
  queryVector := if probe.queryVector.isEmpty then (probe.queryVectors.getD []).headD []
    else probe.queryVector
  category := probe.category
  asOf := some asOf
  candidateQueryVectors := probe.queryVectors

/-- `_compute_probe`, over the events of a container and its vectors file. -/
def computeProbe (kit : Kit F) (params : OracleParams F) (dimension : ℕ) (file : Bytes)
    (ids : List Text) (events : List StoredEvent) (asOf : Hlc) (probe : Probe F) :
    Except OracleError (OracleResult F) :=
  match (probeQuery probe asOf).postInit kit.n with
  | some e => .error e
  | none =>
    computeEvidence kit.n kit.t ⟨fun _ => events, none⟩ params (probeQuery probe asOf)
      fun eventId => if eventId ∈ ids then some (rowVector kit dimension file (ids.idxOf eventId))
        else none

def probeOf (provider : Provider F) (snapshot : Snapshot) (event : StoredEvent) :
    Option (Probe F) :=
  let competition := snapshot.competition event.eventId
  let candidates := if competition.isEmpty then [event.finalSelectionText] else competition
  if provider.isCandidateConditioned then
    match candidates.mapM (provider.queryVectorForCandidate event.precedingText) with
    | none => none
    | some vectors => some ⟨event.schemaId, event.category, event.canonicalSegmentInput, candidates,
        vectors.headD [], some vectors, []⟩
  else
    match provider.queryVector event.precedingText with
    | none => none
    | some vector => some ⟨event.schemaId, event.category, event.canonicalSegmentInput, candidates,
        vector, none, []⟩

/-- `_compute_probes`: the probes with their fingerprints. -/
def computeProbes (kit : Kit F) (provider : Provider F) (snapshot : Snapshot)
    (params : OracleParams F) (file : Bytes) : List StoredEvent → Option (List (Probe F))
  | [] => some []
  | event :: rest =>
    match probeOf provider snapshot event with
    | none => none
    | some probe =>
      match computeProbe kit params provider.vectorDimension file
        (snapshot.events.map StoredEvent.eventId) snapshot.events snapshot.sourceHlc probe with
      | .error _ => none
      | .ok result =>
        match computeProbes kit provider snapshot params file rest with
        | none => none
        | some probes =>
          some ({ probe with resultsFingerprint := kit.resultsFingerprint (summary result) } ::
            probes)

/-- `_compose_manifest`, with the other files. -/
def composeContainer (kit : Kit F) (identity : Identity) (rows : List Row) (chunks : List Chunk)
    (params : OracleParams F) (probes : List (Probe F)) (vectors : Bytes) : Container F :=
  let fingerprint := kit.rowsFingerprint rows
  let body : Body F :=
    { generationId := kit.composeGenerationId identity fingerprint
      identity := identity
      rowCount := rows.length
      rowsFingerprint := fingerprint
      chunks := chunks
      params := params
      probes := probes
      metadataSize := (kit.metadataBytes (enumerate rows)).length
      metadataSha256 := kit.sha256Hex (kit.metadataBytes (enumerate rows))
      vectorsSize := vectors.length
      vectorsSha256 := kit.sha256Hex vectors }
  ⟨body.generationId, body, kit.bodySha256 body, enumerate rows, vectors⟩

/-- The container that the build core writes, if nothing blocks it. -/
def buildContainer (kit : Kit F) (provider : Provider F) (chunkRows : ℕ) (hrows : 0 < chunkRows)
    (params : OracleParams F) (snapshot : Snapshot) (target : Target) : Option (Container F) :=
  if ¬kit.supportedBackends.contains target.retrievalBackend then none
  else if ¬snapshot.events.all validEvent then none
  else
    let rows := snapshot.events.map (metadataRow kit.t)
    match buildVectors kit provider chunkRows hrows snapshot.events with
    | .error _ => none
    | .ok (chunks, vectors) =>
      match computeProbes kit provider snapshot params vectors (snapshot.events.take probeCount) with
      | none => none
      | some probes =>
        some (composeContainer kit (identityOf kit provider snapshot target) rows chunks params probes
          vectors)

/-! ## The reopening -/

/-- A `GenerationRejected`, by the check that fails. -/
inductive Rejection where
  | directory | identity | files | selfChecksum | rows | chunks | vectorsSize | generationId
  | vectors | probes
  deriving DecidableEq

def verifyIdentity (kit : Kit F) (identity : Identity) : Bool :=
  identity.storeEpoch ≠ [] && identity.representationId ≠ [] && identity.builderVersion ≠ [] &&
    identity.projectionVersion ≠ [] && identity.indexFingerprint ≠ [] &&
    kit.supportedBackends.contains identity.retrievalBackend &&
    identity.vectorFormat = kit.vectorFormat && 1 ≤ identity.vectorDimension &&
    0 ≤ (ofLex identity.sourceHlc).1 && 0 ≤ (ofLex identity.sourceHlc).2

/-- The checks of `_verify_rows` on one row. -/
def validRow (row : Row) : Bool :=
  row.eventId ≠ [] && row.choiceProblemKey.1 ≠ [] && row.choiceProblemKey.2.1 ≠ [] &&
    row.choiceProblemKey.2.2 ≠ [] && row.candidate ≠ [] &&
    0 ≤ (ofLex row.hlc).1 && 0 ≤ (ofLex row.hlc).2

def verifyRows (kit : Kit F) (body : Body F) (metadata : List (ℕ × Row)) : Bool :=
  let rows := metadata.map Prod.snd
  body.rowsFingerprint ≠ [] && metadata.length = body.rowCount &&
    metadata.map Prod.fst = List.range metadata.length &&
    decide (rows.map Row.eventId).Nodup && rows.all validRow &&
    kit.rowsFingerprint rows = body.rowsFingerprint

/-- `_verify_chunks`, from the row `expected` on. -/
def verifyChunks (kit : Kit F) (rows rowBytes : ℕ) (file : Bytes) : ℕ → List Chunk → Bool
  | expected, [] => expected = rows
  | expected, chunk :: rest =>
    chunk.startRow < chunk.endRow && chunk.endRow ≤ rows && chunk.startRow = expected &&
      chunk.bytes = (chunk.endRow - chunk.startRow) * rowBytes && chunk.sha256 ≠ "" &&
      kit.sha256Hex ((file.drop (chunk.startRow * rowBytes)).take
        ((chunk.endRow - chunk.startRow) * rowBytes)) = chunk.sha256 &&
      verifyChunks kit rows rowBytes file chunk.endRow rest

def rowEvent (row : Row) : StoredEvent where
  eventId := row.eventId
  commitId := []
  schemaId := row.choiceProblemKey.1
  canonicalSegmentInput := row.choiceProblemKey.2.2
  category := row.choiceProblemKey.2.1
  finalSelectionText := row.candidate
  hlc := row.hlc

def verifyProbes (kit : Kit F) (body : Body F) (rows : List Row) (file : Bytes) : Bool :=
  body.probes.length ≤ min probeCount rows.length &&
    body.probes.all fun probe =>
      match computeProbe kit body.params body.identity.vectorDimension file (rows.map Row.eventId)
        (rows.map rowEvent) body.identity.sourceHlc probe with
      | .error _ => false
      | .ok result => kit.resultsFingerprint (summary result) = probe.resultsFingerprint

structure Opened where
  generationId : Text
  identity : Identity
  rows : List Row
  deriving DecidableEq

def openGeneration (kit : Kit F) (c : Container F) : Except Rejection Opened :=
  let rows := c.metadata.map Prod.snd
  let dimension := c.body.identity.vectorDimension
  if ¬(c.body.generationId ≠ [] ∧ c.name = c.body.generationId) then .error .directory
  else if ¬verifyIdentity kit c.body.identity then .error .identity
  else if ¬(c.manifestSha256 ≠ "" ∧ c.body.metadataSha256 ≠ "" ∧ c.body.vectorsSha256 ≠ "" ∧
      c.body.metadataSize = (kit.metadataBytes c.metadata).length ∧
      c.body.metadataSha256 = kit.sha256Hex (kit.metadataBytes c.metadata) ∧
      c.body.vectorsSize = c.vectors.length ∧
      c.body.vectorsSha256 = kit.sha256Hex c.vectors) then .error .files
  else if c.manifestSha256 ≠ kit.bodySha256 c.body then .error .selfChecksum
  else if ¬verifyRows kit c.body c.metadata then .error .rows
  else if ¬verifyChunks kit c.body.rowCount (dimension * 4) c.vectors 0 c.body.chunks then
    .error .chunks
  else if c.vectors.length ≠ c.body.rowCount * dimension * 4 then .error .vectorsSize
  else if kit.composeGenerationId c.body.identity c.body.rowsFingerprint ≠ c.body.generationId then
    .error .generationId
  else if ¬(List.range c.body.rowCount).all fun row =>
      validVector kit dimension (rowVector kit dimension c.vectors row) then .error .vectors
  else if ¬verifyProbes kit c.body rows c.vectors then .error .probes
  else .ok ⟨c.body.generationId, c.body.identity, rows⟩

/-! ## Evidence without the commits -/

def stored (t : Texts) (event : StoredEvent) : StoredEvent := rowEvent (metadataRow t event)

def erase (entry : Contribution F) : Contribution F := { entry with commitId := [] }

variable {events : List StoredEvent} {asOf : Hlc}

section Erase

variable {n : Numbers F} {t : Texts} {params : OracleParams F} {vectorFor : Text → Option (List F)}

theorem plainContributions_stored (vector : List F) (count index : ℕ) (events : List StoredEvent) :
    plainContributions n params vectorFor vector count index (events.map (stored t)) =
      (plainContributions n params vectorFor vector count index events).map (List.map erase) := by
  induction events generalizing index with
  | nil => rfl
  | cons event rest ih =>
    rw [List.map_cons, plainContributions, plainContributions, ih (index + 1)]
    have hcosine : eventCosine n false vectorFor vector (stored t event) =
        eventCosine n false vectorFor vector event := rfl
    rw [hcosine]
    cases eventCosine n false vectorFor vector event with
    | error e => rfl
    | ok cosine =>
      dsimp only
      cases plainContributions n params vectorFor vector count (index + 1) rest with
      | error e => rfl
      | ok contributions => rfl

theorem pairedEvents_stored (candidates : List Text) (events : List StoredEvent) :
    pairedEvents t candidates (events.map (stored t)) =
      (pairedEvents t candidates events).map fun entry => (entry.1, stored t entry.2) := by
  have hmatched : ((events.map (stored t)).filterMap fun event =>
      (matchedCandidate t candidates event.finalSelectionText).map fun index => (index, event)) =
      (events.filterMap fun event =>
        (matchedCandidate t candidates event.finalSelectionText).map fun index =>
          (index, event)).map fun entry => (entry.1, stored t entry.2) := by
    rw [List.filterMap_map, List.map_filterMap]
    refine List.filterMap_congr fun event _ => ?_
    rw [Option.map_map]
    rfl
  dsimp only [pairedEvents]
  rw [hmatched, List.map_map, List.map_flatMap]
  have hfst : (Prod.fst ∘ fun entry : ℕ × StoredEvent => (entry.1, stored t entry.2)) = Prod.fst :=
    rfl
  rw [hfst]
  refine List.flatMap_congr fun index _ => ?_
  rw [List.filter_map]
  rfl

theorem pairedCosines_stored (vectors : List (List F)) (entries : List (ℕ × StoredEvent)) :
    pairedCosines n vectorFor vectors (entries.map fun entry => (entry.1, stored t entry.2)) =
      pairedCosines n vectorFor vectors entries := by
  induction entries with
  | nil => rfl
  | cons entry rest ih =>
    rw [List.map_cons, pairedCosines, pairedCosines, ih]
    rfl

theorem pairedContributions_stored (candidates : List Text) (cosines : List (Text × F))
    (events : List StoredEvent) :
    pairedContributions n t params candidates cosines (events.map (stored t)) =
      (pairedContributions n t params candidates cosines events).map erase := by
  rw [pairedContributions, pairedContributions, List.zipIdx_map, List.filterMap_map,
    List.map_filterMap, List.length_map]
  refine List.filterMap_congr fun entry _ => ?_
  rw [Option.map_map]
  rfl

theorem keep_erase (contributions : List (Contribution F)) :
    keep n params (contributions.map erase) = (keep n params contributions).map erase := by
  have hsort (entries : List (Contribution F)) :
      (entries.insertionSort fun a b => heavier n a b = true).map erase =
        (entries.map erase).insertionSort fun a b => heavier n a b = true :=
    List.map_insertionSort (fun a b => heavier n a b = true) (fun a b => heavier n a b = true) erase
      entries fun _ _ _ _ => Iff.rfl
  rw [keep, keep, List.filter_map, List.map_take, hsort]
  rfl

theorem mass_erase (kept : List (Contribution F)) : mass n (kept.map erase) = mass n kept := by
  funext index
  rw [mass, mass, List.foldl_map]
  rfl

theorem summary_aggregate_erase (asOf : Hlc) (key : Key) (candidates : List Text) (count : ℕ)
    (kept : List (Contribution F)) :
    summary (aggregate n params asOf key candidates count (kept.map erase)) =
      summary (aggregate n params asOf key candidates count kept) := by
  dsimp only [summary, aggregate]
  rw [mass_erase, List.map_map]
  rfl

/-- **The evidence of stored events**: where the events with the key of a query are the same, the
evidence is, up to the commits. -/
theorem computeEvidence_stored {query : OracleQuery F} (hasOf : query.asOf = some asOf) {clock clock' : Option Hlc}
    (hkeys : ∀ e ∈ events, eventKey t (stored t e) = query.key t ↔ eventKey t e = query.key t) :
    (computeEvidence n t ⟨fun _ => events.map (stored t), clock'⟩ params query vectorFor).map summary =
      (computeEvidence n t ⟨fun _ => events, clock⟩ params query vectorFor).map summary := by
  have hfirst (other : Option Hlc) : (some asOf <|> other) = some asOf := rfl
  have hsame : sameKey t query (events.map (stored t)) = (sameKey t query events).map (stored t) := by
    have hfilter : (events.map (stored t)).filter (fun event =>
        event.eventId ∉ query.excludeEventIds ∧ eventKey t event = query.key t) =
        (events.filter fun event => event.eventId ∉ query.excludeEventIds ∧
          eventKey t event = query.key t).map (stored t) := by
      rw [List.filter_map]
      congr 1
      refine List.filter_congr fun e he => decide_eq_decide.mpr ?_
      exact and_congr_right fun _ => hkeys e he
    rw [sameKey, sameKey, hfilter, sortEvents, sortEvents]
    exact (List.map_insertionSort (fun a b : StoredEvent => a.orderKey ≤ b.orderKey)
      (fun a b : StoredEvent => a.orderKey ≤ b.orderKey) (stored t) _ fun _ _ _ _ => Iff.rfl).symm
  rw [computeEvidence, computeEvidence, hasOf, hfirst, hfirst]
  dsimp only
  rw [hsame, List.length_map]
  cases query.candidateQueryVectors with
  | some values =>
    dsimp only
    cases asFloatVectors n values with
    | error e => rfl
    | ok vectors =>
      dsimp only
      rw [pairedEvents_stored, pairedCosines_stored]
      cases pairedCosines n vectorFor vectors
        (pairedEvents t (query.candidates.map t.matchText) (sameKey t query events)) with
      | error e => rfl
      | ok cosines =>
        dsimp only
        rw [pairedContributions_stored, keep_erase]
        exact congrArg Except.ok (summary_aggregate_erase ..)
  | none =>
    dsimp only
    cases asFloatVector n query.queryVector with
    | error e => rfl
    | ok vector =>
      dsimp only
      rw [plainContributions_stored]
      cases plainContributions n params vectorFor vector (sameKey t query events).length 0
        (sameKey t query events) with
      | error e => rfl
      | ok contributions =>
        have hmatched (candidates : List Text) (kept : List (Contribution F)) :
            (kept.map erase).map (matchEntry t candidates) =
              (kept.map (matchEntry t candidates)).map erase := by
          rw [List.map_map, List.map_map]
          rfl
        dsimp only [Except.map]
        rw [keep_erase, hmatched]
        exact congrArg Except.ok (summary_aggregate_erase ..)

end Erase

/-! ## The vectors of a build -/

variable {E : Type}

theorem packRows_append {env : Chunks.Env E} {xs ys : List E} {a b : Bytes}
    (ha : Chunks.packRows env xs = .ok a) (hb : Chunks.packRows env ys = .ok b) :
    Chunks.packRows env (xs ++ ys) = .ok (a ++ b) := by
  induction xs generalizing a with
  | nil =>
    obtain rfl := Except.ok.inj ha
    exact hb
  | cons x rest ih =>
    rw [Chunks.packRows] at ha
    rw [List.cons_append, Chunks.packRows]
    cases hx : env.vector x with
    | none =>
      rw [hx] at ha
      cases ha
    | some bytes =>
      rw [hx] at ha
      dsimp only at ha ⊢
      cases hrest : Chunks.packRows env rest with
      | error e =>
        rw [hrest] at ha
        cases ha
      | ok packed =>
        rw [hrest] at ha
        obtain rfl := Except.ok.inj ha
        rw [ih hrest]
        exact congrArg Except.ok (List.append_assoc _ _ _).symm

variable {written : Bytes}

/-- What a finished loop of `_build_chunks` has written: the packed rows, in chunks whose records are
verified. -/
theorem buildFrom_ok {env : Chunks.Env E} {fuel start : ℕ} {events : List E}
    {chunks news : List Chunk} (hfuel : events.length ≤ fuel)
    (h : (Chunks.buildFrom env fuel start events none chunks).2 = .ok (news, written)) :
    Chunks.packRows env events = .ok written ∧
      ∀ before digest : Bytes, before.length = start * env.rowBytes →
        ∃ d, Chunks.verifyChunks env (before ++ written) start digest news =
          .ok (start + events.length, d) := by
  induction fuel generalizing start events chunks news written with
  | zero =>
    obtain rfl := List.length_eq_zero_iff.mp (Nat.le_zero.mp hfuel)
    obtain ⟨rfl, rfl⟩ := Prod.mk.inj (Except.ok.inj h)
    exact ⟨rfl, fun before digest _ => ⟨digest, rfl⟩⟩
  | succ fuel ih =>
    by_cases hne : events = []
    · subst hne
      obtain ⟨rfl, rfl⟩ := Prod.mk.inj (Except.ok.inj h)
      exact ⟨rfl, fun before digest _ => ⟨digest, rfl⟩⟩
    · have hdone : ¬(events.isEmpty || decide ((none : Option ℕ) = some 0)) = true := by simp [hne]
      rw [Chunks.buildFrom, if_neg hdone] at h
      have hchunk := env.chunkRows_pos
      have hpos := List.length_pos_iff.mpr hne
      dsimp only at h
      cases hpack : Chunks.packRows env (events.take env.chunkRows) with
      | error e =>
        rw [hpack] at h
        cases h
      | ok bytes =>
        rw [hpack] at h
        dsimp only at h
        cases hrest : (Chunks.buildFrom env fuel (start + (events.take env.chunkRows).length)
            (events.drop env.chunkRows) (Option.map (· - 1) none) (chunks ++ [Chunks.record env start
              (events.take env.chunkRows).length bytes])).2 with
        | error e =>
          rw [hrest] at h
          cases h
        | ok rest =>
          rw [hrest] at h
          obtain ⟨rfl, rfl⟩ := Prod.mk.inj (Except.ok.inj h)
          have hlength := Chunks.length_packRows hpack
          have hrows : 0 < (events.take env.chunkRows).length := by
            rw [List.length_take]
            omega
          obtain ⟨hpacked, hverified⟩ := ih (by rw [List.length_drop]; omega) hrest
          refine ⟨?_, fun before digest hbefore => ?_⟩
          · have happend := packRows_append hpack hpacked
            rwa [List.take_append_drop] at happend
          · have hall : (before ++ bytes).length =
                (start + (events.take env.chunkRows).length) * env.rowBytes := by
              rw [List.length_append, hbefore, hlength, Nat.add_mul]
            have hone : Chunks.verifyChunks env (before ++ bytes) start digest
                [Chunks.record env start (events.take env.chunkRows).length bytes] =
                  .ok (start + (events.take env.chunkRows).length, _) :=
              Chunks.verifyChunks_cons.mpr ⟨Chunks.verified_record hrows hbefore hlength, rfl⟩
            have hsame : (before ++ bytes).take ((start + (events.take env.chunkRows).length) *
                env.rowBytes) = (before ++ (bytes ++ rest.2)).take
                  ((start + (events.take env.chunkRows).length) * env.rowBytes) := by
              rw [← List.append_assoc, List.take_append_of_le_length hall.ge]
            obtain ⟨hfirst, -⟩ := Chunks.verifyChunks_cons.mp
              (Chunks.verifyChunks_congr hone hsame).2
            obtain ⟨d, hd⟩ := hverified (before ++ bytes) (digest ++ Chunks.piece env
              (before ++ (bytes ++ rest.2)) (Chunks.record env start
                (events.take env.chunkRows).length bytes)) hall
            refine ⟨d, Chunks.verifyChunks_cons.mpr ⟨hfirst, ?_⟩⟩
            rw [List.append_assoc] at hd
            refine hd.trans ?_
            rw [Nat.add_assoc, ← List.length_append, List.take_append_drop]

/-- The records of a finished build pass the check of the container. -/
theorem verifyChunks_of_build {kit : Kit F} {env : Chunks.Env E}
    (hsha : env.sha256Hex = kit.sha256Hex) {file digest : Bytes} {start : ℕ} {chunks : List Chunk}
    {r : ℕ × Bytes} (h : Chunks.verifyChunks env file start digest chunks = .ok r) :
    verifyChunks kit r.1 env.rowBytes file start chunks = true := by
  induction chunks generalizing start digest with
  | nil =>
    obtain rfl := Except.ok.inj h
    exact decide_eq_true rfl
  | cons chunk rest ih =>
    obtain ⟨hchunk, hrest⟩ := Chunks.verifyChunks_cons.mp h
    have hle := (Chunks.verifyChunks_congr hrest rfl).1
    have hsum : kit.sha256Hex ((file.drop (chunk.startRow * env.rowBytes)).take
        ((chunk.endRow - chunk.startRow) * env.rowBytes)) = chunk.sha256 := hsha ▸ hchunk.sha256
    simp only [verifyChunks, Bool.and_eq_true, decide_eq_true_eq]
    exact ⟨⟨⟨⟨⟨⟨hchunk.lt, hle⟩, hchunk.start⟩, hchunk.bytes⟩, hchunk.checksum⟩, hsum⟩, ih hrest⟩

theorem packRows_row {env : Chunks.Env E} {events : List E}
    (h : Chunks.packRows env events = .ok written) {i : ℕ} {event : E}
    (hi : events[i]? = some event) :
    env.vector event = some ((written.drop (i * env.rowBytes)).take env.rowBytes) := by
  induction events generalizing i written with
  | nil => cases hi
  | cons first rest ih =>
    rw [Chunks.packRows] at h
    split at h
    · cases h
    · next bytes hbytes =>
      split at h
      · cases h
      · next packed hpacked =>
        obtain rfl := Except.ok.inj h
        have hlength : bytes.length = env.rowBytes := env.length_vector first bytes hbytes
        cases i with
        | zero =>
          obtain rfl := Option.some.inj hi
          rw [Nat.zero_mul, List.drop_zero, List.take_left' hlength, hbytes]
        | succ i =>
          have hdrop : (bytes ++ packed).drop ((i + 1) * env.rowBytes) =
              packed.drop (i * env.rowBytes) := by
            rw [Nat.add_mul, Nat.one_mul, Nat.add_comm, ← List.drop_drop, List.drop_left' hlength]
          rw [hdrop]
          exact ih hpacked hi

theorem packVector_component {kit : Kit F} {vector : List F} {j : ℕ} {x : F}
    (hj : vector[j]? = some x) : ((packVector kit vector).drop (j * 4)).take 4 = kit.pack x := by
  induction vector generalizing j with
  | nil => cases hj
  | cons first rest ih =>
    have hlength := kit.length_pack first
    cases j with
    | zero =>
      obtain rfl := Option.some.inj hj
      rw [Nat.zero_mul, List.drop_zero, packVector, List.flatMap_cons, List.take_left' hlength]
    | succ j =>
      have hdrop : (packVector kit (first :: rest)).drop ((j + 1) * 4) =
          (packVector kit rest).drop (j * 4) := by
        rw [Nat.add_mul, Nat.one_mul, Nat.add_comm, ← List.drop_drop, packVector, List.flatMap_cons,
          List.drop_left' hlength, packVector]
      rw [hdrop]
      exact ih hj

variable {event : StoredEvent}

/-- **A row reads back**: the vector of a row is the provider's for its event. -/
theorem rowVector_of_build {kit : Kit F} {provider : Provider F} {chunkRows : ℕ}
    {hrows : 0 < chunkRows}
    (hexact : ∀ event vector, provider.eventVector event = some vector → ∀ x ∈ vector,
      kit.unpack (kit.pack x) = x)
    (h : Chunks.packRows (buildEnv kit provider chunkRows hrows) events = .ok written) {i : ℕ} (hi : events[i]? = some event) :
    validVector kit provider.vectorDimension
      (rowVector kit provider.vectorDimension written i) = true := by
  obtain ⟨vector, hvector, hbytes⟩ := Option.map_eq_some_iff.mp (packRows_row h hi)
  obtain ⟨hvector, hvalid⟩ := Option.filter_eq_some_iff.mp hvector
  have hlength : vector.length = provider.vectorDimension := by
    simp only [validVector, Bool.and_eq_true, decide_eq_true_eq] at hvalid
    exact hvalid.1.1.1.1
  have hrow : rowVector kit provider.vectorDimension written i = vector := by
    refine List.ext_getElem (by rw [rowVector, List.length_map, List.length_range, hlength])
      fun j hj hj' => ?_
    have hx : vector[j]? = some vector[j] := List.getElem?_eq_getElem hj'
    have hcomponent : ((packVector kit vector).drop (j * 4)).take 4 = kit.pack vector[j] :=
      packVector_component hx
    have hle : j * 4 + 4 ≤ provider.vectorDimension * 4 := by omega
    have hbytes' : packVector kit vector = (written.drop (i * (provider.vectorDimension * 4))).take
        (provider.vectorDimension * 4) := hbytes
    rw [hbytes', List.drop_take, List.take_take, List.drop_drop,
      Nat.min_eq_left (by omega)] at hcomponent
    have hindex : (i * provider.vectorDimension + j) * 4 =
        i * (provider.vectorDimension * 4) + j * 4 := by ring
    simp only [rowVector, List.getElem_map, List.getElem_range]
    rw [hindex, hcomponent]
    exact hexact event vector hvector _ (List.getElem_mem hj')
  rw [hrow]
  exact hvalid

/-! ## Keys apart -/

/-- Canonicalizing the stored segment inputs once more changes no match with a probe of an event. -/
def ApartFrom (t : Texts) (events : List StoredEvent) (probe : StoredEvent) : Prop :=
  let canonicalize := t.canonicalizeSegmentInput
  ∀ event ∈ events, event.schemaId = probe.schemaId → event.category = probe.category →
    (canonicalize (canonicalize event.canonicalSegmentInput) =
        canonicalize probe.canonicalSegmentInput ↔
      canonicalize event.canonicalSegmentInput = canonicalize probe.canonicalSegmentInput)

/-- So it is for every event that the build probes. -/
def Apart (t : Texts) (events : List StoredEvent) : Prop :=
  ∀ probe ∈ events.take probeCount, ApartFrom t events probe

/-- The key of an event matches that of a probe after the reopening as it does in the build. -/
theorem apartFrom_iff {t : Texts} {probe : StoredEvent} :
    ApartFrom t events probe ↔ ∀ event ∈ events,
      (eventKey t (stored t event) = eventKey t probe ↔ eventKey t event = eventKey t probe) := by
  refine forall₂_congr fun event _ => ?_
  have hstored : eventKey t (stored t event) = (event.schemaId, event.category,
    t.canonicalizeSegmentInput (t.canonicalizeSegmentInput event.canonicalSegmentInput)) := rfl
  have hraw (e : StoredEvent) : eventKey t e =
    (e.schemaId, e.category, t.canonicalizeSegmentInput e.canonicalSegmentInput) := rfl
  rw [hstored, hraw event, hraw probe, Prod.mk.injEq, Prod.mk.injEq, Prod.mk.injEq, Prod.mk.injEq]
  constructor
  · intro h
    exact and_congr_right fun hschema => and_congr_right fun hcategory => h hschema hcategory
  · intro h hschema hcategory
    exact ⟨fun heq => (h.mp ⟨hschema, hcategory, heq⟩).2.2,
      fun heq => (h.mpr ⟨hschema, hcategory, heq⟩).2.2⟩

/-- Where canonicalizing twice is stable, as many matches are the same matches. -/
theorem apartFrom_of_length {t : Texts} {probe : StoredEvent}
    (hstable : ∀ text, t.canonicalizeSegmentInput (t.canonicalizeSegmentInput
      (t.canonicalizeSegmentInput text)) =
        t.canonicalizeSegmentInput (t.canonicalizeSegmentInput text))
    (hprobe : probe ∈ events)
    (hlength : (events.filter fun event => eventKey t (stored t event) = eventKey t probe).length =
      (events.filter fun event => eventKey t event = eventKey t probe).length) :
    ApartFrom t events probe := by
  -- storing once more brings a match to a match of the stored probe
  have hstep {a b : StoredEvent} (h : eventKey t a = eventKey t b) :
      eventKey t (stored t a) = eventKey t (stored t b) := by
    obtain ⟨hschema, hrest⟩ := Prod.mk.inj h
    obtain ⟨hcategory, hinput⟩ := Prod.mk.inj hrest
    exact Prod.ext hschema (Prod.ext hcategory (congrArg t.canonicalizeSegmentInput hinput))
  have htwice (a : StoredEvent) :
      eventKey t (stored t (stored t a)) = eventKey t (stored t a) :=
    Prod.ext rfl (Prod.ext rfl (hstable a.canonicalSegmentInput))
  refine apartFrom_iff.mpr fun event hevent => ?_
  by_cases hfixed : eventKey t (stored t probe) = eventKey t probe
  · have hsub : (events.filter fun event => eventKey t event = eventKey t probe).Sublist
        (events.filter fun event => eventKey t (stored t event) = eventKey t probe) :=
      List.monotone_filter_right events fun e he =>
        decide_eq_true ((hstep (of_decide_eq_true he)).trans hfixed)
    have hsame := hsub.eq_of_length hlength.symm
    constructor
    · intro h
      have hmem : event ∈ events.filter fun e => eventKey t (stored t e) = eventKey t probe :=
        List.mem_filter.mpr ⟨hevent, decide_eq_true h⟩
      rw [← hsame] at hmem
      exact of_decide_eq_true (List.mem_filter.mp hmem).2
    · intro h
      exact (hstep h).trans hfixed
  · -- no stored event matches the probe, which matches itself in the build
    have hnone : (events.filter fun event => eventKey t (stored t event) = eventKey t probe) = [] :=
      List.filter_eq_nil_iff.mpr fun e _ he => by
        have heq := of_decide_eq_true he
        exact hfixed ((hstep heq).symm.trans ((htwice e).trans heq))
    have hmem : probe ∈ events.filter fun event => eventKey t event = eventKey t probe :=
      List.mem_filter.mpr ⟨hprobe, decide_eq_true rfl⟩
    rw [hnone, List.length_nil] at hlength
    rw [List.length_eq_zero_iff.mp hlength.symm] at hmem
    cases hmem

/-! ## The probes of a build -/

section Probes

variable {kit : Kit F} {provider : Provider F} {snapshot : Snapshot} {params : OracleParams F}
  {file : Bytes}

/-- What `_compute_probes` records of an event. -/
def Records (kit : Kit F) (provider : Provider F) (snapshot : Snapshot) (params : OracleParams F)
    (file : Bytes) (event : StoredEvent) (probe : Probe F) : Prop :=
  ∃ base result, probeOf provider snapshot event = some base ∧
    computeProbe kit params provider.vectorDimension file
      (snapshot.events.map StoredEvent.eventId) snapshot.events snapshot.sourceHlc base = .ok result ∧
    probe = { base with resultsFingerprint := kit.resultsFingerprint (summary result) }

theorem computeProbes_records {probes : List (Probe F)}
    (h : computeProbes kit provider snapshot params file events = some probes) :
    List.Forall₂ (Records kit provider snapshot params file) events probes := by
  induction events generalizing probes with
  | nil =>
    obtain rfl := Option.some.inj h
    exact .nil
  | cons event rest ih =>
    rw [computeProbes] at h
    split at h
    · cases h
    · next base hbase =>
      split at h
      · cases h
      · next result hresult =>
        split at h
        · cases h
        · next others hothers =>
          obtain rfl := Option.some.inj h
          exact .cons ⟨base, result, hbase, hresult, rfl⟩ (ih hothers)

theorem key_probeOf {base : Probe F} (t : Texts) (asOf : Hlc)
    (h : probeOf provider snapshot event = some base) :
    (probeQuery base asOf).key t = eventKey t event := by
  rw [probeOf] at h
  split at h <;> split at h
  · cases h
  · obtain rfl := Option.some.inj h
    rfl
  · cases h
  · obtain rfl := Option.some.inj h
    rfl

theorem sameKeyActive_computeEvidence {n : Numbers F} {t : Texts} {reader : Reader}
    {query : OracleQuery F} {vectorFor : Text → Option (List F)} {result : OracleResult F}
    (hasOf : query.asOf = some asOf)
    (h : computeEvidence n t reader params query vectorFor = .ok result) :
    result.sameKeyActive = (sameKey t query (reader.readActiveEvents asOf)).length := by
  have hfirst (other : Option Hlc) : (some asOf <|> other) = some asOf := rfl
  rw [computeEvidence, hasOf, hfirst] at h
  dsimp only at h
  split at h <;> split at h
  · cases h
  · split at h
    · cases h
    · obtain rfl := Except.ok.inj h
      rfl
  · cases h
  · split at h
    · cases h
    · obtain rfl := Except.ok.inj h
      rfl

variable {probe : Probe F}

theorem sameKeyActive_computeProbe {dimension : ℕ} {ids : List Text} {result : OracleResult F}
    (h : computeProbe kit params dimension file ids events asOf probe = .ok result) :
    result.sameKeyActive = (events.filter fun event =>
      eventKey kit.t event = (probeQuery probe asOf).key kit.t).length := by
  rw [computeProbe] at h
  split at h
  · cases h
  · rw [sameKeyActive_computeEvidence rfl h, sameKey, sortEvents, List.length_insertionSort]
    refine congrArg List.length (List.filter_congr fun event _ => decide_eq_decide.mpr ?_)
    exact and_iff_right (List.not_mem_nil)

theorem computeProbe_stored {dimension : ℕ} {ids : List Text}
    (hkeys : ∀ e ∈ events, eventKey kit.t (stored kit.t e) = (probeQuery probe asOf).key kit.t ↔
      eventKey kit.t e = (probeQuery probe asOf).key kit.t) :
    (computeProbe kit params dimension file ids (events.map (stored kit.t)) asOf probe).map summary =
      (computeProbe kit params dimension file ids events asOf probe).map summary := by
  rw [computeProbe, computeProbe]
  split
  · rfl
  · exact computeEvidence_stored rfl hkeys

/-- The check of `_verify_probes` on one probe. -/
def Reproduced (kit : Kit F) (params : OracleParams F) (dimension : ℕ) (file : Bytes)
    (ids : List Text) (events : List StoredEvent) (asOf : Hlc) (probe : Probe F) : Prop :=
  ∃ result, computeProbe kit params dimension file ids events asOf probe = .ok result ∧
    kit.resultsFingerprint (summary result) = probe.resultsFingerprint

/-- **A probe is reproduced where its event is apart**, and nowhere else. -/
theorem reproduced_iff
    (hstable : ∀ text, kit.t.canonicalizeSegmentInput (kit.t.canonicalizeSegmentInput
      (kit.t.canonicalizeSegmentInput text)) =
        kit.t.canonicalizeSegmentInput (kit.t.canonicalizeSegmentInput text))
    (hprint : ∀ a b : Summary F, kit.resultsFingerprint a = kit.resultsFingerprint b →
      a.sameKeyActive = b.sameKeyActive)
    (hevent : event ∈ snapshot.events)
    (h : Records kit provider snapshot params file event probe) :
    Reproduced kit params provider.vectorDimension file (snapshot.events.map StoredEvent.eventId)
        (snapshot.events.map (stored kit.t)) snapshot.sourceHlc probe ↔
      ApartFrom kit.t snapshot.events event := by
  obtain ⟨base, result, hbase, hresult, rfl⟩ := h
  have hkey := key_probeOf kit.t snapshot.sourceHlc hbase
  constructor
  · rintro ⟨again, hagain, hsame⟩
    refine apartFrom_of_length hstable hevent ?_
    have hcount := hprint _ _ hsame
    have hbefore := sameKeyActive_computeProbe hresult
    have hafter : again.sameKeyActive = ((snapshot.events.map (stored kit.t)).filter fun e =>
        eventKey kit.t e = (probeQuery base snapshot.sourceHlc).key kit.t).length :=
      sameKeyActive_computeProbe hagain
    rw [hkey, List.filter_map, List.length_map] at hafter
    rw [hkey] at hbefore
    exact hafter.symm.trans (hcount.trans hbefore)
  · intro hapart
    have hstored : (computeProbe kit params provider.vectorDimension file
        (snapshot.events.map StoredEvent.eventId) (snapshot.events.map (stored kit.t))
        snapshot.sourceHlc base).map summary = (computeProbe kit params provider.vectorDimension file
          (snapshot.events.map StoredEvent.eventId) snapshot.events snapshot.sourceHlc base).map
            summary :=
      computeProbe_stored (by rw [hkey]; exact apartFrom_iff.mp hapart)
    rw [hresult] at hstored
    cases hagain : computeProbe kit params provider.vectorDimension file
      (snapshot.events.map StoredEvent.eventId) (snapshot.events.map (stored kit.t))
      snapshot.sourceHlc base with
    | error e =>
      rw [hagain] at hstored
      cases hstored
    | ok again =>
      rw [hagain] at hstored
      exact ⟨again, hagain, congrArg kit.resultsFingerprint (Except.ok.inj hstored)⟩

end Probes

/-! ## The reopening of a build -/

theorem map_snd_enumerate (rows : List Row) : (enumerate rows).map Prod.snd = rows := by
  rw [enumerate, List.map_map]
  exact List.zipIdx_map_fst 0 rows

theorem map_fst_enumerate (rows : List Row) :
    (enumerate rows).map Prod.fst = List.range rows.length := by
  rw [enumerate, List.map_map, List.range_eq_range']
  exact List.zipIdx_map_snd 0 rows

section Reopening

variable {kit : Kit F} {provider : Provider F} {chunkRows : ℕ} {hrows : 0 < chunkRows}
  {params : OracleParams F} {snapshot : Snapshot} {target : Target}

theorem canonicalizeSegmentInput_ne {text : Text} (h : text ≠ []) :
    kit.t.canonicalizeSegmentInput text ≠ [] := by
  rw [Texts.canonicalizeSegmentInput, if_neg h]
  exact kit.nfc_ne _ fun hnil => h (List.map_eq_nil_iff.mp hnil)

theorem validRow_metadataRow (h : validEvent event = true) :
    validRow (metadataRow kit.t event) = true := by
  simp only [validEvent, Bool.and_eq_true, decide_eq_true_eq] at h
  obtain ⟨⟨⟨⟨⟨⟨hid, hschema⟩, hinput⟩, hcategory⟩, hselection⟩, hphysical⟩, hlogical⟩ := h
  simp only [validRow, Bool.and_eq_true, decide_eq_true_eq]
  exact ⟨⟨⟨⟨⟨⟨hid, hschema⟩, hcategory⟩, canonicalizeSegmentInput_ne hinput⟩, hselection⟩, hphysical⟩,
    hlogical⟩

theorem verifyIdentity_identityOf
    (hbackend : kit.supportedBackends.contains target.retrievalBackend = true) :
    verifyIdentity kit (identityOf kit provider snapshot target) = true := by
  simp only [verifyIdentity, Bool.and_eq_true, decide_eq_true_eq]
  exact ⟨⟨⟨⟨⟨⟨⟨⟨⟨snapshot.storeEpoch_ne, provider.representationId_ne⟩, target.builderVersion_ne⟩,
    target.projectionVersion_ne⟩, target.indexFingerprint_ne⟩, hbackend⟩, rfl⟩,
    provider.vectorDimension_pos⟩, snapshot.sourceHlc_nonneg.1⟩, snapshot.sourceHlc_nonneg.2⟩

variable {rows : List Row}

theorem verifyRows_composeContainer {identity : Identity} {chunks : List Chunk}
    {probes : List (Probe F)} {vectors : Bytes} (hnodup : (rows.map Row.eventId).Nodup)
    (hvalid : rows.all validRow = true) :
    let c := composeContainer kit identity rows chunks params probes vectors
    verifyRows kit c.body c.metadata = true := by
  have hlength : (enumerate rows).length = rows.length := by
    rw [enumerate, List.length_map, List.length_zipIdx]
  simp only [composeContainer, verifyRows, map_snd_enumerate, map_fst_enumerate, hlength,
    Bool.and_eq_true, decide_eq_true_eq]
  exact ⟨⟨⟨⟨⟨decide_eq_true (kit.rowsFingerprint_ne rows), trivial⟩, trivial⟩, hnodup⟩, hvalid⟩,
    trivial⟩

/-- Statements about paired elements, of all the ones and of all the others. -/
theorem forall_mem_iff_of_forall₂ {α β : Type} {R : α → β → Prop} {P : α → Prop} {Q : β → Prop}
    {xs : List α} {ys : List β} (h : List.Forall₂ R xs ys)
    (hiff : ∀ x ∈ xs, ∀ y, R x y → (Q y ↔ P x)) : (∀ y ∈ ys, Q y) ↔ ∀ x ∈ xs, P x := by
  induction h with
  | nil => exact iff_of_true (List.forall_mem_nil _) (List.forall_mem_nil _)
  | @cons x y xs ys hxy _ ih =>
    rw [List.forall_mem_cons, List.forall_mem_cons, hiff x List.mem_cons_self y hxy,
      ih fun x hx => hiff x (List.mem_cons_of_mem _ hx)]

theorem verifyProbes_iff {body : Body F} {file : Bytes}
    (hlength : body.probes.length ≤ min probeCount rows.length) :
    verifyProbes kit body rows file = true ↔ ∀ probe ∈ body.probes,
      Reproduced kit body.params body.identity.vectorDimension file (rows.map Row.eventId)
        (rows.map rowEvent) body.identity.sourceHlc probe := by
  rw [verifyProbes, Bool.and_eq_true, decide_eq_true_eq, and_iff_right hlength, List.all_eq_true]
  refine forall₂_congr fun probe _ => ?_
  constructor
  · intro h
    split at h
    · cases h
    · next result hresult => exact ⟨result, hresult, of_decide_eq_true h⟩
  · rintro ⟨result, hresult, hprint⟩
    rw [hresult]
    exact decide_eq_true hprint

variable {c : Container F}

/-- What a build that nothing blocks has gone through. -/
theorem buildContainer_eq_some
    (h : buildContainer kit provider chunkRows hrows params snapshot target = some c) :
    kit.supportedBackends.contains target.retrievalBackend = true ∧
      snapshot.events.all validEvent = true ∧
      ∃ chunks vectors probes,
        buildVectors kit provider chunkRows hrows snapshot.events = .ok (chunks, vectors) ∧
        computeProbes kit provider snapshot params vectors (snapshot.events.take probeCount) =
          some probes ∧
        c = composeContainer kit (identityOf kit provider snapshot target)
          (snapshot.events.map (metadataRow kit.t)) chunks params probes vectors := by
  rw [buildContainer] at h
  split at h
  · cases h
  · next hbackend =>
    split at h
    · cases h
    · next hvalid =>
      dsimp only at h
      split at h
      · cases h
      · next chunks vectors hvectors =>
        split at h
        · cases h
        · next probes hprobes =>
          exact ⟨not_not.mp hbackend, not_not.mp hvalid, chunks, vectors, probes, hvectors, hprobes,
            (Option.some.inj h).symm⟩

/-- What is left of a reopening when every check before the probes passes. -/
theorem openGeneration_passed
    (hmetadata : c.metadata.map Prod.snd = rows)
    (hname : c.body.generationId ≠ [] ∧ c.name = c.body.generationId)
    (hidentity : verifyIdentity kit c.body.identity = true)
    (hfiles : c.manifestSha256 ≠ "" ∧ c.body.metadataSha256 ≠ "" ∧ c.body.vectorsSha256 ≠ "" ∧
      c.body.metadataSize = (kit.metadataBytes c.metadata).length ∧
      c.body.metadataSha256 = kit.sha256Hex (kit.metadataBytes c.metadata) ∧
      c.body.vectorsSize = c.vectors.length ∧ c.body.vectorsSha256 = kit.sha256Hex c.vectors)
    (hself : c.manifestSha256 = kit.bodySha256 c.body)
    (hmetadataRows : verifyRows kit c.body c.metadata = true)
    (hchunks : verifyChunks kit c.body.rowCount (c.body.identity.vectorDimension * 4) c.vectors 0
      c.body.chunks = true)
    (hsize : c.vectors.length = c.body.rowCount * c.body.identity.vectorDimension * 4)
    (hid : kit.composeGenerationId c.body.identity c.body.rowsFingerprint = c.body.generationId)
    (hvectors : ((List.range c.body.rowCount).all fun row =>
      validVector kit c.body.identity.vectorDimension
        (rowVector kit c.body.identity.vectorDimension c.vectors row)) = true) :
    openGeneration kit c = if ¬verifyProbes kit c.body rows c.vectors then .error .probes
      else .ok ⟨c.body.generationId, c.body.identity, rows⟩ := by
  subst hmetadata
  rw [openGeneration, if_neg (not_not.mpr hname), if_neg (not_not.mpr hidentity),
    if_neg (not_not.mpr hfiles), if_neg (not_not.mpr hself), if_neg (not_not.mpr hmetadataRows),
    if_neg (not_not.mpr hchunks), if_neg (not_not.mpr hsize), if_neg (not_not.mpr hid),
    if_neg (not_not.mpr hvectors)]

/-- **A completed container passes every check before its probes.** -/
theorem openGeneration_built
    (hexact : ∀ event vector, provider.eventVector event = some vector → ∀ x ∈ vector,
      kit.unpack (kit.pack x) = x)
    (h : buildContainer kit provider chunkRows hrows params snapshot target = some c) :
    openGeneration kit c =
      if ¬verifyProbes kit c.body (snapshot.events.map (metadataRow kit.t)) c.vectors then
        .error .probes
      else .ok ⟨c.name, identityOf kit provider snapshot target,
        snapshot.events.map (metadataRow kit.t)⟩ := by
  obtain ⟨hbackend, hvalid, chunks, vectors, probes, hvectors, -, rfl⟩ := buildContainer_eq_some h
  obtain ⟨hpacked, hchunks⟩ := buildFrom_ok le_rfl hvectors
  have hsize := Chunks.length_packRows hpacked
  have hrowBytes : (buildEnv kit provider chunkRows hrows).rowBytes = provider.vectorDimension * 4 :=
    rfl
  have hrowsValid : (snapshot.events.map (metadataRow kit.t)).all validRow = true := by
    rw [List.all_map]
    exact List.all_eq_true.mpr fun event he =>
      validRow_metadataRow (List.all_eq_true.mp hvalid event he)
  have hnodup : ((snapshot.events.map (metadataRow kit.t)).map Row.eventId).Nodup := by
    rw [List.map_map]
    exact snapshot.nodup
  have hverified : verifyChunks kit (snapshot.events.map (metadataRow kit.t)).length
      (provider.vectorDimension * 4) vectors 0 chunks = true := by
    obtain ⟨d, hd⟩ := hchunks [] [] (Nat.zero_mul _).symm
    rw [Nat.zero_add] at hd
    rw [List.length_map]
    exact verifyChunks_of_build rfl hd
  have hall : ((List.range (snapshot.events.map (metadataRow kit.t)).length).all fun row =>
      validVector kit provider.vectorDimension
        (rowVector kit provider.vectorDimension vectors row)) = true := by
    refine List.all_eq_true.mpr fun row hrow => ?_
    rw [List.mem_range, List.length_map] at hrow
    exact rowVector_of_build hexact hpacked (List.getElem?_eq_getElem hrow)
  have hvectorsSize : vectors.length =
      (snapshot.events.map (metadataRow kit.t)).length * provider.vectorDimension * 4 := by
    rw [hsize, hrowBytes, List.length_map, Nat.mul_assoc]
  exact openGeneration_passed (map_snd_enumerate _) ⟨kit.composeGenerationId_ne _ _, rfl⟩
    (verifyIdentity_identityOf hbackend)
    ⟨kit.bodySha256_ne _, kit.sha256Hex_ne _, kit.sha256Hex_ne _, rfl, rfl, rfl, rfl⟩ rfl
    (verifyRows_composeContainer hnodup hrowsValid) hverified hvectorsSize rfl hall

/-- **A completed container reopens where its probes are apart**, and nowhere else: its rows are then
those of the events of the snapshot, in their order. -/
theorem reopens_iff
    (hexact : ∀ event vector, provider.eventVector event = some vector → ∀ x ∈ vector,
      kit.unpack (kit.pack x) = x)
    (hstable : ∀ text, kit.t.canonicalizeSegmentInput (kit.t.canonicalizeSegmentInput
      (kit.t.canonicalizeSegmentInput text)) =
        kit.t.canonicalizeSegmentInput (kit.t.canonicalizeSegmentInput text))
    (hprint : ∀ a b : Summary F, kit.resultsFingerprint a = kit.resultsFingerprint b →
      a.sameKeyActive = b.sameKeyActive) {c : Container F}
    (h : buildContainer kit provider chunkRows hrows params snapshot target = some c) :
    openGeneration kit c = .ok ⟨c.name, identityOf kit provider snapshot target,
        snapshot.events.map (metadataRow kit.t)⟩ ↔ Apart kit.t snapshot.events := by
  obtain ⟨-, -, chunks, vectors, probes, -, hprobes, hc⟩ := buildContainer_eq_some h
  have hrecords := computeProbes_records hprobes
  have hlength : probes.length ≤
      min probeCount (snapshot.events.map (metadataRow kit.t)).length := by
    rw [← hrecords.length_eq, List.length_take, List.length_map]
  have hverify : verifyProbes kit c.body (snapshot.events.map (metadataRow kit.t)) c.vectors = true ↔
      Apart kit.t snapshot.events := by
    subst hc
    refine (verifyProbes_iff hlength).trans ?_
    rw [List.map_map, List.map_map]
    exact forall_mem_iff_of_forall₂ hrecords fun event he probe hprobe =>
      reproduced_iff hstable hprint (List.mem_of_mem_take he) hprobe
  rw [openGeneration_built hexact h]
  by_cases hpass : verifyProbes kit c.body (snapshot.events.map (metadataRow kit.t)) c.vectors = true
  · rw [if_neg (not_not.mpr hpass)]
    exact iff_of_true rfl (hverify.mp hpass)
  · rw [if_pos hpass]
    refine iff_of_false ?_ fun hapart => hpass (hverify.mpr hapart)
    intro heq
    cases heq

end Reopening

/-! ## The Kelvin sign -/

/-- NFC on the texts below: the sign for kelvin is the letter K. -/
def kelvinTexts : Texts where
  nfc text := if text = [226, 132, 170] then [75] else text
  simplify := id

theorem lower_lower : ∀ b : Fin 256,
    ((fun b : Fin 256 => if 65 ≤ b.val && b.val ≤ 90 then Fin.ofNat 256 (b.val + 32) else b) ∘
      fun b => if 65 ≤ b.val && b.val ≤ 90 then Fin.ofNat 256 (b.val + 32) else b) b =
      if 65 ≤ b.val && b.val ≤ 90 then Fin.ofNat 256 (b.val + 32) else b := by
  decide +kernel

/-- The lower case of ASCII letters. -/
def lowered (text : Text) : Text :=
  text.map fun b => if 65 ≤ b.val && b.val ≤ 90 then Fin.ofNat 256 (b.val + 32) else b

theorem lowered_lowered (text : Text) : lowered (lowered text) = lowered text := by
  rw [lowered, lowered, List.map_map]
  exact List.map_congr_left fun b _ => lower_lower b

theorem canonicalize_kelvinTexts {text : Text} (h : lowered text ≠ [226, 132, 170]) :
    kelvinTexts.canonicalizeSegmentInput text = lowered text := by
  rw [Texts.canonicalizeSegmentInput]
  split
  · next hnil => rw [hnil]; rfl
  · exact if_neg h

theorem kelvinTexts_stable (text : Text) :
    kelvinTexts.canonicalizeSegmentInput (kelvinTexts.canonicalizeSegmentInput
      (kelvinTexts.canonicalizeSegmentInput text)) =
        kelvinTexts.canonicalizeSegmentInput (kelvinTexts.canonicalizeSegmentInput text) := by
  by_cases h : lowered text = [226, 132, 170]
  · have hne : text ≠ [] := by
      rintro rfl
      cases h
    have hletter : kelvinTexts.canonicalizeSegmentInput text = [75] := by
      rw [Texts.canonicalizeSegmentInput, if_neg hne]
      exact if_pos h
    rw [hletter]
    decide +kernel
  · have htwice : lowered (lowered text) ≠ [226, 132, 170] := by rwa [lowered_lowered]
    rw [canonicalize_kelvinTexts h, canonicalize_kelvinTexts htwice, lowered_lowered,
      canonicalize_kelvinTexts htwice, lowered_lowered]

def sampleKit : Kit ℚ where
  n := Oracle.sampleNumbers
  t := kelvinTexts
  nfc_ne text h := by
    dsimp only [kelvinTexts]
    split_ifs
    · decide
    · exact h
  unitNormTolerance := 0
  pack x := if x = 1 then [0, 0, 128, 63] else [0, 0, 0, 0]
  length_pack x := by
    split_ifs
    · rfl
    · rfl
  unpack bytes := if bytes = [0, 0, 128, 63] then 1 else 0
  sha256Hex bytes := if bytes = [0, 0, 128, 63] then
    "e00e5eb9444182f352323374ef4e08ebcb784725fdd4fd612d7730540b3e0c8c" else "other"
  sha256Hex_ne bytes := by
    split_ifs
    · decide
    · decide
  rowsFingerprint rows := 1 :: rows.flatMap Row.eventId
  rowsFingerprint_ne _ := List.cons_ne_nil _ _
  composeGenerationId identity fingerprint := 103 :: (identity.storeEpoch ++ fingerprint)
  composeGenerationId_ne _ _ := List.cons_ne_nil _ _
  resultsFingerprint result := List.replicate result.sameKeyActive 1
  metadataBytes rows := rows.flatMap fun row => row.2.eventId
  bodySha256 _ := "body"
  bodySha256_ne _ := by decide
  vectorFormat := [102]
  supportedBackends := [[101]]

def sampleProvider : Provider ℚ where
  representationId := [114]
  representationId_ne := List.cons_ne_nil _ _
  vectorDimension := 1
  vectorDimension_pos := Nat.one_pos
  isCandidateConditioned := false
  eventVector _ := some [1]
  queryVector _ := some [1]
  queryVectorForCandidate _ _ := some [1]

/-- The snapshot of one event, with the given segment input. -/
def sampleSnapshot (input : Text) : Snapshot where
  storeEpoch := [5]
  storeEpoch_ne := List.cons_ne_nil _ _
  sourceHlc := hlc 10 0
  sourceHlc_nonneg := by decide
  events := [⟨[7], [8], [115], input, [99], [65], hlc 10 0, []⟩]
  nodup := List.nodup_singleton _
  sorted := List.pairwise_singleton _ _
  competition _ := []

def sampleTarget : Target where
  projectionVersion := [112]
  projectionVersion_ne := List.cons_ne_nil _ _
  indexFingerprint := [105]
  indexFingerprint_ne := List.cons_ne_nil _ _
  builderVersion := [98]
  builderVersion_ne := List.cons_ne_nil _ _
  retrievalBackend := [101]
  rebuildTag := none

def sampleContainer (input : Text) : Option (Container ℚ) :=
  buildContainer sampleKit sampleProvider 1 Nat.one_pos Oracle.sampleParams (sampleSnapshot input)
    sampleTarget

theorem sampleProvider_exact (event : StoredEvent) (vector : List ℚ)
    (h : sampleProvider.eventVector event = some vector) (x : ℚ) (hx : x ∈ vector) :
    sampleKit.unpack (sampleKit.pack x) = x := by
  obtain rfl := Option.some.inj h
  obtain rfl := List.mem_singleton.mp hx
  rfl

theorem sampleKit_print (a b : Summary ℚ)
    (h : sampleKit.resultsFingerprint a = sampleKit.resultsFingerprint b) :
    a.sameKeyActive = b.sameKeyActive := by
  have hlength := congrArg List.length h
  dsimp only [sampleKit] at hlength
  rwa [List.length_replicate, List.length_replicate] at hlength

/-- The letter `a` reopens. -/
theorem reopens_iff_sample : (sampleContainer [97]).map (openGeneration sampleKit) =
    some (.ok ⟨[103, 5, 1, 7], identityOf sampleKit sampleProvider (sampleSnapshot [97]) sampleTarget,
      [⟨[7], ([115], [99], [97]), [65], hlc 10 0⟩]⟩) := by
  have hbuilt : (sampleContainer [97]).isSome = true := by decide +kernel
  obtain ⟨c, hc⟩ := Option.isSome_iff_exists.mp hbuilt
  have hopen := (reopens_iff sampleProvider_exact kelvinTexts_stable sampleKit_print hc).mpr
    (by unfold Apart ApartFrom; decide +kernel)
  have hname : c.name = [103, 5, 1, 7] := by
    have hnames : (sampleContainer [97]).map Container.name = some [103, 5, 1, 7] := by decide +kernel
    rw [hc] at hnames
    exact Option.some.inj hnames
  rw [hc, Option.map_some, hopen, hname]
  rfl

/-- The sign for kelvin does not: its stored input is K, and K once more is k. -/
theorem reopens_iff_kelvin : (sampleContainer [226, 132, 170]).map (openGeneration sampleKit) =
    some (.error .probes) := by decide +kernel

end SemanticMemory.Reopen
