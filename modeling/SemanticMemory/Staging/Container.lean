import SemanticMemory.Delta.Machine
import SemanticMemory.Staging.Compat

/-!
# The build core

`daemon/generation.py`: the target of a build, its chunks of vectors, the files of a container and
their verification, and the one-shot build.

## What is modelled, and how

* `Kit` is what the build rests on: the hashes, the arithmetic on vectors, and the provider, which is
  deterministic.  A vector is known by its packed row.
* A file that is written once is `whole` or, after a crash, `torn`: a strict prefix of a JSON text is
  no JSON text.  The bytes of a whole file are a function of its content, so two files with the same
  content have the same bytes.
* The vector file is its bytes.
* `built k` is the state of the chunk loop after `k` rounds, which a resumed build goes through as
  the one-shot build does.
-/

namespace SemanticMemory
namespace Staging

open FactStore Delta

/-! ## What a build rests on -/

inductive File (α : Type) where
  | torn
  | whole (content : α)

def File.content {α : Type} : File α → Option α
  | .torn => none
  | .whole content => some content

structure Chunk where
  startRow : ℕ
  endRow : ℕ
  bytes : ℕ
  sha256 : Text
  deriving DecidableEq

/-- A probe, its query vectors by the text they were packed to. -/
structure Probe where
  schemaId : Text
  category : Text
  canonicalSegmentInput : Text
  candidates : List Text
  query : Text

/-- `manifest.json`. -/
structure Manifest where
  generationId : Text
  identity : Dict
  rowCount : ℕ
  rowsFingerprint : Text
  chunks : List Chunk
  /-- The probes with their results' fingerprints. -/
  probes : List (Probe × Text)
  /-- Size and checksum of `metadata.json` and of `vectors.fp32`. -/
  metadataFile : ℕ × Text
  vectorsFile : ℕ × Text
  selfSha256 : Text

/-- The hashes, the arithmetic on vectors, and the provider. -/
structure Kit where
  sha256 : List Byte → Text
  metadataFile : File (List GenerationRow) → ℕ × Text
  rowsFingerprint : List GenerationRow → Text
  composeGenerationId : Dict → Text → Text
  /-- The checksum of a manifest without its own entry. -/
  selfSha256 : Manifest → Text
  /-- `_validate_vector` of a stored row. -/
  validVector : List Byte → Bool
  /-- `_compute_probe` and the fingerprint of its result. -/
  computeProbe : Probe → List GenerationRow → List Byte → Hlc → Text
  representationId : Text
  dimension : ℕ
  /-- `event_vector`, packed. -/
  eventVector : StoredEvent → List Byte
  /-- `query_vector` or `query_vector_for_candidate` of a preceding text. -/
  query : Text → List Text → Text
  sha256_ne : ∀ bytes, sha256 bytes ≠ []
  rowsFingerprint_ne : ∀ rows, rowsFingerprint rows ≠ []
  composeGenerationId_ne : ∀ identity fingerprint, composeGenerationId identity fingerprint ≠ []
  dimension_pos : 0 < dimension
  representationId_ne : representationId ≠ []
  length_eventVector : ∀ event, (eventVector event).length = dimension * 4
  validVector_eventVector : ∀ event, validVector (eventVector event) = true

/-- What the configuration decides about a target. -/
structure TargetConfig where
  projectionVersion : Text
  /-- The configured index fingerprint, or the composed one. -/
  indexFingerprint : Text
  rebuildTag : Option Text := none
  projectionVersion_ne : projectionVersion ≠ []
  indexFingerprint_ne : indexFingerprint ≠ []

/-! ## The target -/

def buildVersion : Text := ascii "shadow-generation-builder-v1"

/-- What `_prepare_target` returns. -/
structure Target where
  rows : List GenerationRow
  rowsFingerprint : Text
  identity : Dict
  generationId : Text
  deriving DecidableEq

/-- The identity that `_prepare_target` binds. -/
def targetIdentity (kit : Kit) (config : TargetConfig) (storeEpoch : Text) (sourceHlc : Hlc) :
    Dict :=
  [(ascii "store_epoch", .text storeEpoch), (ascii "source_hlc", .hlc sourceHlc),
    (ascii "representation_id", .text kit.representationId),
    (ascii "vector_dimension", .number kit.dimension),
    (ascii "vector_format", .text fp32RowMajorLe),
    (ascii "projection_version", .text config.projectionVersion),
    (ascii "index_fingerprint", .text config.indexFingerprint),
    (ascii "builder_version", .text buildVersion),
    (ascii "retrieval_backend", .text (ascii "exact")),
    (ascii "retrieval_params", .params (ascii "{}"))] ++
  (config.rebuildTag.map fun tag => (ascii "rebuild_tag", Value.text tag)).toList

/-- `_prepare_target`, when every event validates. -/
def prepareTarget (kit : Kit) (config : TargetConfig) (storeEpoch : Text) (sourceHlc : Hlc)
    (events : List StoredEvent) : Target :=
  let rows := events.map metadataRow
  let identity := targetIdentity kit config storeEpoch sourceHlc
  ⟨rows, kit.rowsFingerprint rows, identity,
    kit.composeGenerationId identity (kit.rowsFingerprint rows)⟩

/-- The event that blocks `_prepare_target`. -/
def invalidEvent (events : List StoredEvent) : Option StoredEvent :=
  events.find? fun event => (validateBuildEvent event).isSome

def competitionCandidates (db : Db) (eventId : Text) : List Text :=
  ((db.selectionCandidates.filter fun row => row.eventId = eventId).insertionSort
    fun a b => a.mergeOrder ≤ b.mergeOrder).map CandidateRow.text

/-! ## The chunks -/

section Chunks

variable (kit : Kit) (chunkRows : ℕ) (events : List StoredEvent)

def packed (events : List StoredEvent) : List Byte := events.flatMap kit.eventVector

/-- What the chunk loop has got so far. -/
structure Built where
  startRow : ℕ
  chunks : List Chunk
  bytes : List Byte

/-- The chunk of `_build_chunks` that starts at a row, and its bytes. -/
def buildChunk (start : ℕ) : Chunk × List Byte :=
  let stop := min (start + chunkRows) events.length
  let bytes := packed kit ((events.drop start).take (stop - start))
  (⟨start, stop, bytes.length, kit.sha256 bytes⟩, bytes)

/-- One round of the loop. -/
def Built.next (b : Built) : Built :=
  if b.startRow < events.length then
    let chunk := buildChunk kit chunkRows events b.startRow
    ⟨chunk.1.endRow, b.chunks ++ [chunk.1], b.bytes ++ chunk.2⟩
  else b

/-- The loop of `_build_chunks` after so many rounds. -/
def built : ℕ → Built
  | 0 => ⟨0, [], []⟩
  | rounds + 1 => (built rounds).next kit chunkRows events

end Chunks

/-- `_verify_progress_chunks`: the first row without a verified chunk, and the verified prefix. -/
def verifyProgressChunks (kit : Kit) (vectors : List Byte) :
    ℕ → List Chunk → Option (ℕ × List Byte)
  | next, [] => some (next, vectors.take (next * (kit.dimension * 4)))
  | next, chunk :: rest =>
    let size := (chunk.endRow - chunk.startRow) * (kit.dimension * 4)
    let data := (vectors.drop (chunk.startRow * (kit.dimension * 4))).take size
    if chunk.startRow < chunk.endRow ∧ chunk.startRow = next ∧ chunk.bytes = size ∧
        chunk.sha256 ≠ [] ∧ data.length = size ∧ kit.sha256 data = chunk.sha256 then
      verifyProgressChunks kit vectors chunk.endRow rest
    else none

/-! ## The container -/

/-- `_compute_probes`, when no probe fails. -/
def computeProbes (kit : Kit) (db : Db) (events : List StoredEvent) (vectors : List Byte)
    (sourceHlc : Hlc) : List (Probe × Text) :=
  (events.take 4).map fun stored =>
    let found := competitionCandidates db stored.eventId
    let candidates := if found = [] then [stored.finalSelectionText] else found
    let probe : Probe :=
      ⟨stored.schemaId, stored.category, stored.canonicalSegmentInput, candidates,
        kit.query stored.precedingText candidates⟩
    (probe, kit.computeProbe probe (events.map metadataRow) vectors sourceHlc)

def composeManifest (kit : Kit) (target : Target) (chunks : List Chunk)
    (probes : List (Probe × Text)) (metadata : File (List GenerationRow)) (vectors : List Byte)
    (vectorsSha256 : Text) : Manifest :=
  let body : Manifest :=
    { generationId := target.generationId, identity := target.identity
      rowCount := target.rows.length, rowsFingerprint := target.rowsFingerprint, chunks, probes
      metadataFile := kit.metadataFile metadata
      vectorsFile := (vectors.length, vectorsSha256), selfSha256 := [] }
  { body with selfSha256 := kit.selfSha256 body }

/-- The three files of a container. -/
structure Container where
  vectors : List Byte
  metadata : File (List GenerationRow)
  manifest : File Manifest

def verifyIdentity (identity : Dict) : Bool :=
  ([ascii "store_epoch", ascii "representation_id", ascii "builder_version",
      ascii "projection_version", ascii "index_fingerprint"].all fun key =>
    match identity.get key with
    | some (.text (_ :: _)) => true
    | _ => false) &&
  identity.get (ascii "retrieval_backend") = some (.text (ascii "exact")) &&
  identity.get (ascii "vector_format") = some (.text fp32RowMajorLe) &&
  (match identity.get (ascii "source_hlc") with
  | some (.hlc point) => (ofLex point).1 ≥ 0 && (ofLex point).2 ≥ 0
  | _ => false) &&
  match identity.get (ascii "retrieval_params") with
  | some (.params _) => true
  | _ => false

/-- `_verify_rows`, on one row. -/
def verifyRow (row : GenerationRow) : Bool :=
  row.eventId ≠ [] && row.schemaId ≠ [] && row.category ≠ [] && row.canonicalSegmentInput ≠ [] &&
    row.candidate ≠ [] && (ofLex row.hlc).1 ≥ 0 && (ofLex row.hlc).2 ≥ 0

/-- Every stored row is finite and of unit norm. -/
def verifyVectors (kit : Kit) (vectors : List Byte) (rows : ℕ) : Bool :=
  (List.range rows).all fun row =>
    kit.validVector ((vectors.drop (row * (kit.dimension * 4))).take (kit.dimension * 4))

/-- `open_generation`, on a directory's name and its three files. -/
def verifyContainer (kit : Kit) (name : Text) (c : Container) : Bool :=
  match c.manifest.content, c.metadata.content with
  | some m, some rows =>
    m.generationId ≠ [] && m.generationId = name && verifyIdentity m.identity &&
    m.identity.get (ascii "vector_dimension") = some (.number kit.dimension) &&
    m.metadataFile = kit.metadataFile c.metadata &&
    m.vectorsFile = (c.vectors.length, kit.sha256 c.vectors) &&
    m.selfSha256 = kit.selfSha256 { m with selfSha256 := [] } &&
    rows.length = m.rowCount && rows.all verifyRow && decide (rows.map GenerationRow.eventId).Nodup &&
    m.rowsFingerprint ≠ [] && kit.rowsFingerprint rows = m.rowsFingerprint &&
    (verifyProgressChunks kit c.vectors 0 m.chunks).map Prod.fst = some m.rowCount &&
    c.vectors.length = m.rowCount * (kit.dimension * 4) &&
    kit.composeGenerationId m.identity m.rowsFingerprint = m.generationId &&
    verifyVectors kit c.vectors m.rowCount &&
    m.probes.length ≤ min 4 rows.length &&
    (match m.identity.get (ascii "source_hlc") with
    | some (.hlc point) => m.probes.all fun p => kit.computeProbe p.1 rows c.vectors point = p.2
    | _ => false)
  | _, _ => false

/-- The container that `build_generation` writes for the facts at a point. -/
def oneShot (kit : Kit) (config : TargetConfig) (chunkRows : ℕ) (db : Db) (storeEpoch : Text)
    (sourceHlc : Hlc) : Container :=
  let events := readActiveEvents db sourceHlc
  let target := prepareTarget kit config storeEpoch sourceHlc events
  let b := built kit chunkRows events events.length
  let metadata : File (List GenerationRow) := .whole target.rows
  let probes := computeProbes kit db events b.bytes sourceHlc
  ⟨b.bytes, metadata,
    .whole (composeManifest kit target b.chunks probes metadata b.bytes (kit.sha256 b.bytes))⟩

/-- A kit that can be computed: hashes that tell everything, vectors of one number. -/
def sampleKit : Kit where
  sha256 bytes := 1 :: bytes
  metadataFile := fun
    | .torn => (0, [])
    | .whole rows => (rows.length, rows.flatMap GenerationRow.eventId)
  rowsFingerprint rows := 1 :: rows.flatMap GenerationRow.eventId
  composeGenerationId _ fingerprint := 2 :: fingerprint
  selfSha256 m := m.generationId
  validVector _ := true
  computeProbe probe _ _ _ := probe.query
  representationId := ascii "model"
  dimension := 1
  eventVector _ := [0, 0, 128, 63]
  query precedingText _ := precedingText
  sha256_ne _ := List.cons_ne_nil _ _
  rowsFingerprint_ne _ := List.cons_ne_nil _ _
  composeGenerationId_ne _ _ := List.cons_ne_nil _ _
  dimension_pos := Nat.one_pos
  representationId_ne := by decide
  length_eventVector _ := rfl
  validVector_eventVector _ := rfl

/-! ## What the chunk loop leaves -/

theorem length_packed (kit : Kit) (events : List StoredEvent) :
    (packed kit events).length = events.length * (kit.dimension * 4) := by
  induction events with
  | nil => exact (Nat.zero_mul _).symm
  | cons event events ih =>
    rw [packed, List.flatMap_cons, List.length_append, kit.length_eventVector, ← packed, ih,
      List.length_cons, Nat.succ_mul, Nat.add_comm]

theorem verifyProgressChunks_concat (kit : Kit) (vectors : List Byte) (next : ℕ)
    (chunks : List Chunk) (chunk : Chunk) :
    verifyProgressChunks kit vectors next (chunks ++ [chunk]) =
      (verifyProgressChunks kit vectors next chunks).bind fun p =>
        verifyProgressChunks kit vectors p.1 [chunk] := by
  induction chunks generalizing next with
  | nil => rfl
  | cons c chunks ih =>
    rw [List.cons_append, verifyProgressChunks, verifyProgressChunks]
    split_ifs
    · exact ih _
    · rfl

/-- **Every resting state of the chunk loop verifies**, whatever bytes a crash has left behind it: its
bytes are the rows so far, however they are cut into chunks. -/
theorem built_verified (kit : Kit) {chunkRows : ℕ} (hrows : 0 < chunkRows)
    (events : List StoredEvent) (rounds : ℕ) (later : List Byte) :
    let b := built kit chunkRows events rounds
    b.startRow = min (rounds * chunkRows) events.length ∧
      b.bytes = packed kit (events.take b.startRow) ∧
      verifyProgressChunks kit (b.bytes ++ later) 0 b.chunks = some (b.startRow, b.bytes) := by
  induction rounds generalizing later with
  | zero =>
    refine ⟨by rw [Nat.zero_mul, Nat.zero_min]; rfl, rfl, ?_⟩
    rw [built, verifyProgressChunks, Nat.zero_mul, List.take_zero]
  | succ rounds ih =>
    rw [built]
    generalize built kit chunkRows events rounds = b at ih
    obtain ⟨hstart, hbytes, -⟩ := ih later
    unfold Built.next
    by_cases hlt : b.startRow < events.length
    · obtain ⟨-, -, hverified⟩ := ih ((buildChunk kit chunkRows events b.startRow).2 ++ later)
      rw [if_pos hlt]
      have hlength : b.bytes.length = b.startRow * (kit.dimension * 4) := by
        rw [hbytes, length_packed, List.length_take, Nat.min_eq_left hlt.le]
      dsimp only [buildChunk] at hverified ⊢
      obtain ⟨stop, hstop⟩ : ∃ n, b.startRow + n = min (b.startRow + chunkRows) events.length :=
        ⟨_, Nat.add_sub_of_le (by omega)⟩
      rw [← hstop, Nat.add_sub_cancel_left] at hverified ⊢
      have hsize : (packed kit ((events.drop b.startRow).take stop)).length =
          stop * (kit.dimension * 4) := by
        rw [length_packed, List.length_take, List.length_drop, Nat.min_eq_left (by omega)]
      have hpos : b.startRow < b.startRow + stop := by omega
      refine ⟨by rw [Nat.succ_mul]; omega, ?_, ?_⟩
      · rw [hbytes, List.take_add]
        exact List.flatMap_append.symm
      · rw [List.append_assoc, verifyProgressChunks_concat, hverified, Option.bind_some,
          verifyProgressChunks, Nat.add_sub_cancel_left, ← hlength, List.drop_left, ← hsize,
          List.take_left, if_pos ⟨hpos, rfl, rfl, kit.sha256_ne _, rfl, rfl⟩,
          verifyProgressChunks, Nat.add_mul, ← hlength, ← hsize, ← List.append_assoc,
          ← List.length_append, List.take_left]
    · rw [if_neg hlt]
      exact ⟨by rw [Nat.succ_mul]; omega, hbytes, (ih later).2.2⟩

/-- `built_verified` of three rows in chunks of two, before a torn chunk. -/
theorem built_verified_sample :
    let b := built sampleKit 2 (List.replicate 3 ⟨[1], [2], [3], [4], [5], [6], toLex (7, 8), []⟩) 1
    b.startRow = 2 ∧ verifyProgressChunks sampleKit (b.bytes ++ [1, 2, 3]) 0 b.chunks =
      some (2, b.bytes) :=
  ⟨by decide, (built_verified sampleKit Nat.two_pos _ 1 [1, 2, 3]).2.2⟩

end Staging
end SemanticMemory
