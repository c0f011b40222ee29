import SemanticMemory.Basic
import SemanticMemory.Lib.Json

/-!
# Observations of the input archive

What the collector keeps of one observation, and the lines it writes.

* A `Token` is a string that `safe_token` lets through.
* A `Semantic` is the dictionary `_prepare` builds of an admitted observation; `Semantic.json` lists
  its items in key order, and `canonicalBytes` is what is hashed, measured and written.
* `record` is the dictionary of a published observation: the semantic content, the durable sequence
  number, the content hash and the capture identity.  `recordLine` is its line in
  `observations.jsonl` and `quarantineLine` the line of a payload that lost an identity conflict.
* `Entry` is the row of the in-memory index for one record.

`sha256` stands for `hashlib.sha256(…).hexdigest()`.
-/

namespace SemanticMemory
namespace Archive

/-- A Python string, by its UTF-16 code units. -/
abbrev Str := List (Fin 65536)

/-- The characters of `_SAFE_TOKEN`. -/
def isSafeChar (u : Fin 65536) : Bool :=
  (65 ≤ u && u ≤ 90) || (97 ≤ u && u ≤ 122) || (48 ≤ u && u ≤ 57) || u = 95 || u = 46 || u = 58 ||
    u = 45

/-- `safe_token(value) is not None`. -/
def safeToken (s : Str) : Bool := !s.isEmpty && s.length ≤ 128 && s.all isSafeChar

/-- A string that `safe_token` returns. -/
abbrev Token := {s : Str // safeToken s = true}

/-- `_KINDS`. -/
inductive Kind where
  | start
  | inputChange
  | replacement
  | temporarySelection
  | commitAttempt
  | cancellation
  | rawFinalization
  | unavailableClient
  | unknownOutcome
  | lossNotice
  | exclusionNotice
  | provenance
  | pluginObservation
  | daemonObservation
  deriving DecidableEq

namespace Kind

def name : Kind → String
  | start => "start"
  | inputChange => "input_change"
  | replacement => "replacement"
  | temporarySelection => "temporary_selection"
  | commitAttempt => "commit_attempt"
  | cancellation => "cancellation"
  | rawFinalization => "raw_finalization"
  | unavailableClient => "unavailable_client"
  | unknownOutcome => "unknown_outcome"
  | lossNotice => "loss_notice"
  | exclusionNotice => "exclusion_notice"
  | provenance => "provenance"
  | pluginObservation => "plugin_observation"
  | daemonObservation => "daemon_observation"

/-- `kind in _HIGH`. -/
def isHigh : Kind → Bool
  | start | commitAttempt | rawFinalization | cancellation | unavailableClient | unknownOutcome
  | lossNotice | exclusionNotice | provenance => true
  | _ => false

/-- `kind in _CONTENT_FREE_KINDS`. -/
def isContentFree : Kind → Bool
  | lossNotice | exclusionNotice => true
  | _ => false

def json (k : Kind) : Json := .str (Json.units k.name)

end Kind

/-- `source_instance_id` and `source_local_sequence`. -/
structure Identity where
  source : Token
  sequence : ℕ
  deriving DecidableEq

/-- What `_prepare` keeps of an observation. -/
structure Semantic where
  identity : Identity
  kind : Kind
  processId : Token
  updateId : Option Token := none
  commitId : Option Token := none
  parentUpdateId : Option Token := none
  continuitySegmentId : Option Token := none
  schemaId : Str := Json.units "unknown"
  schemaInterpretation : Str := Json.units "unknown"
  clocks : Json := .null
  stage : Str := Json.units "unknown"
  outcome : Str := Json.units "unknown"
  reason : Json := .null
  eligibility : Str := Json.units "included"
  payload : Json := .null
  clientSuppliedHostClaim : Json := .null
  frontendTiming : Option Json := none
  plugin : Option Json := none
  daemon : Option Json := none
  deriving DecidableEq

def item (key : String) (value : Json) : Str × Json := (Json.units key, value)

/-- A string or `None`. -/
def optionalToken : Option Token → Json
  | none => .null
  | some t => .str t

/-- An item that is there only when the value is. -/
def optionalItem (key : String) : Option Json → List (Str × Json)
  | none => []
  | some v => [item key v]

namespace Semantic

/-- The dictionary `semantic`. -/
def json (s : Semantic) : Json :=
  .obj ([item "client_supplied_host_claim" s.clientSuppliedHostClaim, item "clocks" s.clocks,
      item "commit_id" (optionalToken s.commitId),
      item "continuity_segment_id" (optionalToken s.continuitySegmentId)] ++
    optionalItem "daemon" s.daemon ++ [item "eligibility" (.str s.eligibility)] ++
    optionalItem "frontend_timing" s.frontendTiming ++
    [item "observation_kind" s.kind.json, item "outcome" (.str s.outcome),
      item "parent_update_id" (optionalToken s.parentUpdateId), item "payload" s.payload] ++
    optionalItem "plugin" s.plugin ++
    [item "process_id" (.str s.processId), item "reason" s.reason,
      item "schema_id" (.str s.schemaId), item "schema_interpretation" (.str s.schemaInterpretation),
      item "source_instance_id" (.str s.identity.source),
      item "source_local_sequence" (.int s.identity.sequence), item "stage" (.str s.stage),
      item "update_id" (optionalToken s.updateId)])

/-- `priority == "high"`. -/
def isHigh (s : Semantic) : Bool :=
  s.kind.isHigh || match s.plugin with
    | none => false
    | some plugin => plugin.get "plugin_stage" ∈
        ["commit", "cancellation", "retraction", "loss", "exclusion"].map
          fun stage => Json.str (Json.units stage)

end Semantic

/-- `canonical_bytes`, of a value whose dictionaries are in key order. -/
def canonicalBytes (v : Json) : Text := v.dumps

/-- `len(canonical_bytes(prepared["semantic"]))`. -/
def Semantic.size (s : Semantic) : ℕ := (canonicalBytes s.json).length

variable (sha256 : Text → Str)

/-- `_hash(semantic)`. -/
def Semantic.contentHash (s : Semantic) : Str := sha256 (canonicalBytes s.json)

def Identity.json (i : Identity) : Json := .arr [.str i.source, .int i.sequence]

/-- The record of an observation, published under a durable sequence number. -/
def record (s : Semantic) (seq : ℕ) : Json :=
  .obj ([item "client_supplied_host_claim" s.clientSuppliedHostClaim, item "clocks" s.clocks,
      item "commit_id" (optionalToken s.commitId),
      item "content_hash" (.str (s.contentHash sha256)),
      item "continuity_segment_id" (optionalToken s.continuitySegmentId)] ++
    optionalItem "daemon" s.daemon ++
    [item "durable_seq" (.int seq), item "eligibility" (.str s.eligibility)] ++
    optionalItem "frontend_timing" s.frontendTiming ++
    [item "host_persistence" (.str (Json.units "unknown")),
      item "host_persistence_proof" (.bool false), item "identity" s.identity.json,
      item "observation_kind" s.kind.json, item "outcome" (.str s.outcome),
      item "parent_update_id" (optionalToken s.parentUpdateId), item "payload" s.payload] ++
    optionalItem "plugin" s.plugin ++
    [item "process_id" (.str s.processId), item "reason" s.reason, item "record_version" (.int 1),
      item "schema_id" (.str s.schemaId), item "schema_interpretation" (.str s.schemaInterpretation),
      item "source_instance_id" (.str s.identity.source),
      item "source_local_sequence" (.int s.identity.sequence), item "stage" (.str s.stage),
      item "update_id" (optionalToken s.updateId)])

def recordLine (s : Semantic) (seq : ℕ) : Text := (record sha256 s seq).line

def quarantineLine (s : Semantic) : Text :=
  Json.line (.obj [item "content_hash" (.str (s.contentHash sha256)), item "payload" s.payload])

/-! ## The index -/

/-- `value if isinstance(value, dict) else None`. -/
def dictOrNone : Json → Json
  | .obj fs => .obj fs
  | _ => .null

/-- `int(record.get("durable_seq") or 0)`. -/
def seqOf (r : Json) : ℕ :=
  match r.get "durable_seq" with
  | .int n => n.toNat
  | _ => 0

/-- The fields of a record that its index row repeats. -/
def rowKeys : List String :=
  ["process_id", "observation_kind", "update_id", "parent_update_id", "commit_id",
    "source_instance_id", "source_local_sequence", "schema_id", "stage", "outcome", "reason",
    "client_supplied_host_claim", "clocks", "continuity_segment_id"]

/-- A row of `_index`. -/
structure Entry where
  durableSeq : ℕ
  recordDigest : Str
  offset : ℕ
  length : ℕ
  /-- The fields of the record but for its payload. -/
  row : Json

/-- The row `_remember` appends. -/
def entryOf (r : Json) (offset length : ℕ) : Entry where
  durableSeq := seqOf r
  recordDigest := sha256 (canonicalBytes r)
  offset := offset
  length := length
  row := .obj (rowKeys.map (fun key => item key (r.get key)) ++
    [item "frontend_timing" (dictOrNone (r.get "frontend_timing")),
      item "plugin" (dictOrNone (r.get "plugin")), item "daemon" (dictOrNone (r.get "daemon"))])

/-- The identity a record has: a list of two. -/
def identityOf (r : Json) : Option Identity :=
  match r.get "identity" with
  | .arr [.str source, .int (.ofNat sequence)] =>
    if h : safeToken source = true then some ⟨⟨source, h⟩, sequence⟩ else none
  | _ => none

/-- The identity and content hash by which `_remember` knows a record, if it does. -/
def remembered (r : Json) : Option (Identity × Str) :=
  match identityOf r, r.get "content_hash" with
  | some identity, .str hash =>
    if hash ≠ [] ∧ r.get "observation_kind" ≠ Kind.lossNotice.json then some (identity, hash)
    else none
  | _, _ => none

/-! ## Reading a dictionary -/

theorem get_item_self (key : String) (value : Json) (fields : List (Str × Json)) :
    (Json.obj (item key value :: fields)).get key = value := by
  simp [Json.get, item]

theorem get_item_of_ne {key other : String} (h : Json.units other ≠ Json.units key) (value : Json)
    (fields : List (Str × Json)) :
    (Json.obj (item other value :: fields)).get key = (Json.obj fields).get key := by
  simp [Json.get, item, h]

theorem get_optionalItem_of_ne {key other : String} (h : Json.units other ≠ Json.units key)
    (value : Option Json) (fields : List (Str × Json)) :
    (Json.obj (optionalItem other value ++ fields)).get key = (Json.obj fields).get key := by
  cases value with
  | none => rfl
  | some value => exact get_item_of_ne h value fields

end Archive
end SemanticMemory
