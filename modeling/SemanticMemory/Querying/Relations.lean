import Mathlib.Data.List.Sort
import Mathlib.Order.Fin.Basic
import SemanticMemory.Archive.Record
import SemanticMemory.Lib.Runs
import SemanticMemory.Lib.Witness

/-!
# Identity relations

`RelationContext` of `archive/querying.py` resolves the tokens of an index row against the durable
rows of a prefix.  The collector keeps an incremental join state next to its index, and a query
projects it at the watermark it reads; the context may also be built from the rows themselves.

* `Record` is what the relations read of a durable record, and `Row` its index row, numbered by the
  durable sequence.  `Collector` remembers records one by one, and anew at a restart.
* A dictionary is a function of its keys, and a set lists its members in the order they came.  The
  order shows nowhere: what a relation renders is sorted.

## Results

* `relations_incremental`: at every watermark of every run, both ways lead to the same context, and
  with it to the same relation blocks of every row.
-/

namespace SemanticMemory
namespace Querying

open Archive (Str Kind)
open Json (units)
open Witness (Edges addEdge)

/-! ## Rows -/

/-- What the relations read of a durable record. -/
structure Record where
  observationKind : Kind
  sourceInstanceId : Option Str
  processId : Option Str
  updateId : Option Str := none
  parentUpdateId : Option Str := none
  commitId : Option Str := none
  continuitySegmentId : Option Str := none
  /-- `plugin` and `daemon`, where they are dictionaries. -/
  plugin : Option Json := none
  daemon : Option Json := none

structure Row extends Record where
  durableSeq : ℕ

/-- A source instance and a process. -/
abbrev Owner := Option Str × Option Str

namespace Record

variable (r : Record)

/-- A row of the plugin or the daemon only refers to tokens. -/
def observer : Bool :=
  match r.observationKind with
  | .pluginObservation | .daemonObservation => true
  | _ => false

def owner : Owner := (r.sourceInstanceId, r.processId)

/-- The token of a row that is no observer, with what it belongs to. -/
def declares {κ : Type} (token : Option Str) (k : κ) : Option (Str × κ) :=
  if r.observer then none else token.map fun t => (t, k)

/-- `value if isinstance(value, str)`. -/
def text : Json → Option Str
  | .str s => some s
  | _ => none

/-- `request_id` of a request that the daemon observed. -/
def requestId : Option Str :=
  r.daemon.bind fun daemon =>
    if text (daemon.get "daemon_stage") = some (units "request") then
      text (daemon.get "request_id")
    else none

/-- The request with its `plan_identity`. -/
def requestPlan : Option (Str × Str) :=
  r.requestId.bind fun request =>
    (r.daemon.bind fun daemon => text (daemon.get "plan_identity")).map fun plan => (request, plan)

end Record

/-! ## The join state -/

/-- `_join_state`: every edge with its first witness. -/
structure JoinState where
  updates : Str → Option ℕ := fun _ => none
  updateOwners : Edges Str Owner := fun _ => []
  processSources : Edges Str (Option Str) := fun _ => []
  commitOwners : Edges Str Owner := fun _ => []
  segmentOwners : Edges Str Owner := fun _ => []
  requestRows : Str → List ℕ := fun _ => []
  planOwners : Edges Str Str := fun _ => []
  requestPlans : Edges Str Str := fun _ => []

def noteRequest (rows : Str → List ℕ) (request : Option Str) (seq : ℕ) : Str → List ℕ :=
  match request with
  | none => rows
  | some request => Function.update rows request (rows request ++ [seq])

/-- `_remember_join_state`. -/
def JoinState.remember (s : JoinState) (r : Row) : JoinState where
  updates :=
    match r.declares r.updateId () with
    | none => s.updates
    | some (update, _) =>
      match s.updates update with
      | none => Function.update s.updates update (some r.durableSeq)
      | some previous =>
        if r.durableSeq < previous then Function.update s.updates update (some r.durableSeq)
        else s.updates
  updateOwners := s.updateOwners.note (r.declares r.updateId r.owner) r.durableSeq
  processSources := s.processSources.note (r.declares r.processId r.sourceInstanceId) r.durableSeq
  commitOwners := s.commitOwners.note (r.declares r.commitId r.owner) r.durableSeq
  segmentOwners := s.segmentOwners.note (r.declares r.continuitySegmentId r.owner) r.durableSeq
  requestRows := noteRequest s.requestRows r.requestId r.durableSeq
  planOwners := s.planOwners.note (r.requestPlan.map Prod.swap) r.durableSeq
  requestPlans := s.requestPlans.note r.requestPlan r.durableSeq

/-! ## Contexts -/

structure RelationContext where
  rows : List Row
  ownerEvidenceMax : Option ℕ
  updates : Str → Option ℕ := fun _ => none
  updateWitnesses : Str → Owner → Option ℕ := fun _ _ => none
  updateOwners : Str → List Owner := fun _ => []
  processSources : Str → List (Option Str) := fun _ => []
  commitOwners : Str → List Owner := fun _ => []
  segmentOwners : Str → List Owner := fun _ => []
  requestRows : Str → List ℕ := fun _ => []
  planOwners : Str → List Str := fun _ => []
  requestPlans : Str → List Str := fun _ => []

namespace RelationContext

/-- The maps of `_snapshot_join_state_locked`, in a context of the given rows. -/
def ofJoinState (rows : List Row) (ownerEvidenceMax : Option ℕ) (state : JoinState)
    (watermark : ℕ) : RelationContext where
  rows := rows
  ownerEvidenceMax := ownerEvidenceMax
  updates := fun update => (state.updates update).filter fun seq => seq ≤ watermark
  updateWitnesses := fun update owner => Witness.witness watermark (state.updateOwners update) owner
  updateOwners := state.updateOwners.seenAt watermark
  processSources := state.processSources.seenAt watermark
  commitOwners := state.commitOwners.seenAt watermark
  segmentOwners := state.segmentOwners.seenAt watermark
  requestRows := fun request => (state.requestRows request).filter fun seq => seq ≤ watermark
  planOwners := state.planOwners.seenAt watermark
  requestPlans := state.requestPlans.seenAt watermark

/-- What one row adds to the maps. -/
def addRow (x : RelationContext) (r : Row) : RelationContext where
  rows := x.rows
  ownerEvidenceMax := x.ownerEvidenceMax
  updates :=
    match r.declares r.updateId () with
    | none => x.updates
    | some (update, _) => Function.update x.updates update
        (some (min ((x.updates update).getD r.durableSeq) r.durableSeq))
  updateWitnesses :=
    match r.declares r.updateId r.owner with
    | none => x.updateWitnesses
    | some (update, owner) => Function.update x.updateWitnesses update
        (Function.update (x.updateWitnesses update) owner
          (some ((x.updateWitnesses update owner).getD r.durableSeq)))
  updateOwners := addEdge x.updateOwners (r.declares r.updateId r.owner)
  processSources := addEdge x.processSources (r.declares r.processId r.sourceInstanceId)
  commitOwners := addEdge x.commitOwners (r.declares r.commitId r.owner)
  segmentOwners := addEdge x.segmentOwners (r.declares r.continuitySegmentId r.owner)
  requestRows := noteRequest x.requestRows r.requestId r.durableSeq
  planOwners := addEdge x.planOwners (r.requestPlan.map Prod.swap)
  requestPlans := addEdge x.requestPlans r.requestPlan

/-- The context built from the rows. -/
def ofRows (rows : List Row) (ownerEvidenceMax : Option ℕ) : RelationContext :=
  rows.foldl addRow { rows, ownerEvidenceMax }

end RelationContext

/-! ## Relation blocks -/

/-- The list of `owners_evidence`. -/
structure OwnersEvidence where
  owners : List Str
  ownersTotal : ℕ
  ownersTruncated : Bool
  deriving DecidableEq

/-- The evidence of `association`. -/
structure AssociationEvidence where
  declaredRole : Json
  associationRead : Json
  /-- `reference`: the source, process and update tokens, once they are read. -/
  reference : Option (Json × Json × Json) := none
  witnessDurableSeq : Option ℕ := none
  deriving DecidableEq

inductive Evidence where
  | owners (o : OwnersEvidence)
  | durableSeq (seq : ℕ)
  | durableSeqs (seqs : List ℕ)
  | tokens (tokens : List Str)
  | association (a : AssociationEvidence)
  /-- `lm_request_state`, and `daemon_request_rows` once it is counted. -/
  | request (lmRequestState : Json) (daemonRequestRows : Option ℕ)
  deriving DecidableEq

structure Block where
  relation : String
  status : String
  basis : String
  evidence : Option Evidence := none
  deriving DecidableEq

namespace RelationContext

variable (x : RelationContext)

def bySeq (seq : ℕ) : Option Row := (x.rows.reverse.find? fun r => r.durableSeq = seq)

def sortedTexts (texts : List Str) : List Str := texts.insertionSort fun a b => a ≤ b

def boundedOwners (rendered : List Str) : OwnersEvidence :=
  let rendered := sortedTexts rendered
  match x.ownerEvidenceMax with
  | none => ⟨rendered, rendered.length, false⟩
  | some limit =>
    if rendered.length > limit then ⟨rendered.take limit, rendered.length, true⟩
    else ⟨rendered, rendered.length, false⟩

/-- `source or "unknown"`. -/
def orUnknown (token : Option Str) : Str :=
  match token with
  | none | some [] => units "unknown"
  | some t => t

/-- `owners_evidence` of sources with their processes. -/
def ownersEvidence (owners : List Owner) : OwnersEvidence :=
  x.boundedOwners (owners.map fun o => orUnknown o.1 ++ units "/" ++ orUnknown o.2)

/-- `update_relation` of a parent. -/
def parentRelation : Option Str → Block
  | none => ⟨"parent_update_id", "absent", "no_declared_parent_update_id", none⟩
  | some value =>
    match x.updates value with
    | some seq => ⟨"parent_update_id", "valid", "exact_token_match_durable_record",
        some (.durableSeq seq)⟩
    | none => ⟨"parent_update_id", "unmatched", "no_durable_record_with_this_token_at_prefix", none⟩

def tokenRelation (name : String) (value : Option Str) (owners : Str → List Owner) : Block :=
  match value with
  | none => ⟨name, "absent", "no_declared_" ++ name, none⟩
  | some value =>
    let owners := if (owners value).isEmpty then [(none, none)] else owners value
    if owners.length > 1 then
      ⟨name, "conflicting", "multiple_recorded_owners_for_this_token",
        some (.owners (x.ownersEvidence owners))⟩
    else if owners.any fun o => o = (none, none) then
      ⟨name, "unmatched", "no_durable_record_with_this_token", none⟩
    else ⟨name, "valid", "exact_token_match_durable_record", none⟩

def processRelation (r : Row) : Block :=
  match r.processId with
  | none => ⟨"process_identity", "absent", "no_process_declared", none⟩
  | some value =>
    match (x.processSources value).filter fun o => o ≠ none && o ≠ some [] with
    | [] => ⟨"process_identity", "not_observed", "no_durable_process_record", none⟩
    | [owner] =>
      if r.observer || r.sourceInstanceId = owner then
        ⟨"process_identity", "valid", "exact_source_and_process_match", none⟩
      else ⟨"process_identity", "unmatched", "process_owner_is_a_different_source", none⟩
    | owners =>
      ⟨"process_identity", "conflicting",
        "process_token_recorded_under_multiple_source_incarnations",
        some (.owners (x.boundedOwners (owners.map orUnknown)))⟩

/-- `value == text`. -/
def isText (text : String) : Json → Bool
  | .str s => s = units text
  | _ => false

/-- `None` or a string: a token that may be compared. -/
def isToken : Json → Bool
  | .null | .str _ => true
  | _ => false

def resolveAssociation (source process : Option Str) (update : Str) (e : AssociationEvidence) :
    Block :=
  match (x.updateWitnesses update (source, process)).orElse fun _ => x.updates update with
  | none =>
    ⟨"association", "unmatched", "no_durable_record_with_referenced_update_token",
      some (.association e)⟩
  | some witness =>
    let row := x.bySeq witness
    let evidence := some (Evidence.association { e with witnessDurableSeq := some witness })
    if source ≠ none && source ≠ row.bind fun r => r.sourceInstanceId then
      ⟨"association", "stale", "referenced_update_belongs_to_a_different_source", evidence⟩
    else if process ≠ none && process ≠ row.bind fun r => r.processId then
      ⟨"association", "stale", "referenced_update_belongs_to_a_different_process", evidence⟩
    else if source = none || process = none then
      ⟨"association", "unknown_owner", "reference_omits_source_or_process_token", evidence⟩
    else ⟨"association", "valid", "exact_source_process_update_match", evidence⟩

def association (plugin : Json) : Block :=
  let role := plugin.get "association_role"
  let read := plugin.get "association_read"
  let evidence : AssociationEvidence := { declaredRole := role, associationRead := read }
  let block (status basis : String) (e : AssociationEvidence) : Block :=
    ⟨"association", status, basis, some (.association e)⟩
  let source := plugin.get "referenced_source_id"
  let process := plugin.get "referenced_process_id"
  let update := plugin.get "referenced_update_id"
  let referring := { evidence with reference := some (source, process, update) }
  match role with
  | .null => block "absent" "no_association_declared" evidence
  | role =>
    if isText "absent" role then block "absent" "no_association_declared" evidence
    else if isText "invalid" role || isText "invalid" read then
      block "invalid" "association_marked_invalid" evidence
    else if isText "malformed" read then
      block "malformed" "association_read_malformed" evidence
    else if isText "unknown" role || isText "unknown" read then
      block "unknown" "association_not_read" evidence
    else
      match source, process, update with
      | .null, .null, .null => block "absent" "no_reference_tokens" referring
      | source, process, update =>
        if !(isToken source && isToken process && isToken update) then
          block "malformed" "reference_token_not_text" referring
        else
          match Record.text update with
          | none => block "unmatched" "no_owned_update_token_to_resolve" referring
          | some update =>
            x.resolveAssociation (Record.text source) (Record.text process) update referring

/-- The plan of a plugin row: `plan_relation`. -/
def planRelation (plan : Json) (absent : Evidence) : Block :=
  match plan with
  | .null => ⟨"plan_identity", "absent", "no_plan_declared", some absent⟩
  | .str plan =>
    match x.planOwners plan with
    | [] => ⟨"plan_identity", "unmatched", "no_daemon_request_with_this_digest", none⟩
    | [_] => ⟨"plan_identity", "valid", "exact_digest_match_with_daemon_request", none⟩
    | owners => ⟨"plan_identity", "conflicting", "plan_digest_claimed_by_multiple_requests",
        some (.tokens (sortedTexts owners))⟩
  | _ => ⟨"plan_identity", "unmatched", "no_daemon_request_with_this_digest", none⟩

/-- The request of a plugin row by its native id: `request_relation`. -/
def requestRelation (request : Str) (plan : Json) : Block :=
  let plans := x.requestPlans request
  match x.requestRows request with
  | [] => ⟨"request", "unmatched", "no_durable_daemon_request_with_this_token", none⟩
  | record :: records =>
    if plans.length > 1 then
      ⟨"request", "conflicting", "daemon_requests_with_this_token_disagree_on_plan_identity",
        some (.tokens (sortedTexts plans))⟩
    else if (match plan with | .null => false | _ => true) && !plans.isEmpty &&
        plans.all fun p => Record.text plan ≠ some p then
      ⟨"request", "conflicting", "plugin_plan_identity_differs_from_daemon_request_plan", none⟩
    else if records ≠ [] then
      ⟨"request", "ambiguous", "multiple_daemon_requests_with_this_token",
        some (.durableSeqs (record :: records))⟩
    else
      ⟨"request", "linked", "native_request_id_matches_one_durable_daemon_request",
        some (.durableSeq record)⟩

/-- `request_link`: the request and the plan of a plugin row.  The evidence of an absent plan is the
dictionary into which the rows of the request are counted afterwards. -/
def requestLink (plugin : Json) : Block × Block :=
  let state := plugin.get "lm_request_state"
  let plan := plugin.get "plan_identity"
  if isText "no_request" state then
    let absent := Evidence.request state none
    if (plugin.get "lm_request_id").truthy then
      (⟨"request", "invalid", "request_id_present_without_a_request", none⟩,
        x.planRelation plan absent)
    else (⟨"request", "not_issued", "no_lm_request_was_issued", none⟩, x.planRelation plan absent)
  else
    match Record.text (plugin.get "lm_request_id") with
    | none | some [] =>
      (⟨"request_identity", "unknown", "issued_request_without_a_request_token", none⟩,
        x.planRelation plan (.request state none))
    | some request =>
      let counted := if (x.requestRows request).isEmpty then none
        else some (x.requestRows request).length
      (x.requestRelation request plan, x.planRelation plan (.request state counted))

/-- The blocks of a request that the daemon observed itself. -/
def daemonRelations (daemon : Json) : List (String × Block) :=
  let request : Block :=
    match Record.text (daemon.get "request_id") with
    | none => ⟨"request_identity", "absent", "daemon_request_without_a_request_token", none⟩
    | some request =>
      if (x.requestPlans request).length > 1 then
        ⟨"request_identity", "conflicting",
          "daemon_requests_with_this_token_disagree_on_plan_identity",
          some (.tokens (sortedTexts (x.requestPlans request)))⟩
      else ⟨"request_identity", "valid", "durable_daemon_request", none⟩
  let plan : Block :=
    match daemon.get "plan_identity" with
    | .null => ⟨"plan_identity", "absent", "no_plan_declared", none⟩
    | plan =>
      let owners := ((Record.text plan).map x.planOwners).getD []
      if owners.length > 1 then
        ⟨"plan_identity", "conflicting", "plan_digest_claimed_by_multiple_requests",
          some (.tokens (sortedTexts owners))⟩
      else ⟨"plan_identity", "valid", "durable_daemon_request_plan", none⟩
  [("request_identity", request), ("plan_identity", plan)]

def rowRelations (r : Row) : List (String × Block) :=
  [("update_identity",
      match r.updateId with
      | none => ⟨"update_identity", "absent", "no_update_declared", none⟩
      | some update => x.tokenRelation "update_identity" (some update) x.updateOwners),
    ("process_identity", x.processRelation r),
    ("parent_reference", x.parentRelation r.parentUpdateId),
    ("commit_identity", x.tokenRelation "commit_identity" r.commitId x.commitOwners),
    ("segment_identity",
      x.tokenRelation "segment_identity" r.continuitySegmentId x.segmentOwners)] ++
  match r.plugin, r.daemon with
  | some plugin, _ =>
    [("association", x.association plugin), ("request_identity", (x.requestLink plugin).1),
      ("plan_identity", (x.requestLink plugin).2)]
  | none, some daemon =>
    if isText "request" (daemon.get "daemon_stage") then x.daemonRelations daemon else []
  | none, none => []

end RelationContext

/-! ## The collector -/

/-- The durable records, numbered from one. -/
def rowsFrom : ℕ → List Record → List Row
  | _, [] => []
  | n, r :: rs => ⟨r, n⟩ :: rowsFrom (n + 1) rs

/-- The durable records with the join state that is kept of them. -/
structure Collector where
  durable : List Record := []
  joinState : JoinState := {}

inductive Action where
  | remember (r : Record)
  /-- A new process reads the records again: `_rebuild_index`. -/
  | restart

namespace Collector

def index (c : Collector) : List Row := rowsFrom 1 c.durable

def step (c : Collector) : Action → Collector
  | .remember r =>
    { durable := c.durable ++ [r]
      joinState := c.joinState.remember ⟨r, c.durable.length + 1⟩ }
  | .restart => { c with joinState := c.index.foldl JoinState.remember {} }

def published (c : Collector) (watermark : ℕ) : List Row :=
  c.index.filter fun r => r.durableSeq ≤ watermark

end Collector

/-! ## One row -/

variable {n w : ℕ}

/-- Every witness of the join state stands below `n`. -/
structure JoinState.Below (n : ℕ) (s : JoinState) : Prop where
  updates : ∀ update seq, s.updates update = some seq → seq < n
  updateOwners : s.updateOwners.Below n
  processSources : s.processSources.Below n
  commitOwners : s.commitOwners.Below n
  segmentOwners : s.segmentOwners.Below n
  requestRows : ∀ request, ∀ seq ∈ s.requestRows request, seq < n
  planOwners : s.planOwners.Below n
  requestPlans : s.requestPlans.Below n

theorem joinState_below_empty : JoinState.Below 1 {} where
  updates _ _ h := nomatch h
  updateOwners _ _ h := nomatch h
  processSources _ _ h := nomatch h
  commitOwners _ _ h := nomatch h
  segmentOwners _ _ h := nomatch h
  requestRows _ _ h := nomatch h
  planOwners _ _ h := nomatch h
  requestPlans _ _ h := nomatch h

/-- A row in its order is the first witness of its update, or changes nothing. -/
theorem remember_updates {s : JoinState} (hs : s.Below n) (r : Record) :
    (s.remember ⟨r, n⟩).updates =
      match r.declares r.updateId () with
      | none => s.updates
      | some (update, _) =>
        Function.update s.updates update (some ((s.updates update).getD n)) := by
  unfold JoinState.remember
  dsimp only
  rcases r.declares r.updateId () with - | ⟨update, -⟩
  · rfl
  dsimp only
  rcases hprev : s.updates update with - | previous
  · rfl
  · rw [Option.getD_some, ← hprev, Function.update_eq_self, hprev]
    exact if_neg (not_lt.mpr (hs.updates update previous hprev).le)

theorem JoinState.Below.remember {s : JoinState} (hs : s.Below n) (r : Record) :
    (s.remember ⟨r, n⟩).Below (n + 1) where
  updates update seq h := by
    rw [remember_updates hs] at h
    rcases hedge : r.declares r.updateId () with _ | ⟨declared, _⟩
    · rw [hedge] at h
      exact (hs.updates update seq h).trans n.lt_succ_self
    · rw [hedge] at h
      dsimp only at h
      rw [Function.update_apply] at h
      split_ifs at h
      · rcases hprev : s.updates declared with - | previous
        · rw [hprev] at h
          cases h
          exact n.lt_succ_self
        · rw [hprev] at h
          cases h
          exact (hs.updates declared previous hprev).trans n.lt_succ_self
      · exact (hs.updates update seq h).trans n.lt_succ_self
  updateOwners := hs.updateOwners.note _
  processSources := hs.processSources.note _
  commitOwners := hs.commitOwners.note _
  segmentOwners := hs.segmentOwners.note _
  requestRows request seq h := by
    change seq ∈ noteRequest s.requestRows r.requestId n request at h
    rcases hreq : r.requestId with - | declared
    · rw [hreq] at h
      exact (hs.requestRows request seq h).trans n.lt_succ_self
    · rw [hreq, noteRequest, Function.update_apply] at h
      split_ifs at h
      · rcases List.mem_append.mp h with h | h
        · exact (hs.requestRows declared seq h).trans n.lt_succ_self
        · rw [List.mem_singleton.mp h]
          exact n.lt_succ_self
      · exact (hs.requestRows request seq h).trans n.lt_succ_self
  planOwners := hs.planOwners.note _
  requestPlans := hs.requestPlans.note _

namespace RelationContext

variable {rows : List Row} {limit : Option ℕ} {s : JoinState}

/-- **A row above the watermark** leaves the projection as it is. -/
theorem ofJoinState_remember_of_lt (hs : s.Below n) (h : w < n) (r : Record) :
    ofJoinState rows limit (s.remember ⟨r, n⟩) w = ofJoinState rows limit s w := by
  unfold ofJoinState
  congr 1
  · funext update
    rw [remember_updates hs]
    rcases r.declares r.updateId () with - | ⟨declared, -⟩
    · rfl
    · dsimp only
      rw [Function.update_apply]
      split_ifs with hu
      · rw [hu]
        rcases hprev : s.updates declared with - | previous
        · simp [Option.filter, not_le.mpr h]
        · rfl
      · rfl
  · funext update owner
    change
      Witness.witness w (s.updateOwners.note (r.declares r.updateId r.owner) n update) owner = _
    rcases r.declares r.updateId r.owner with - | ⟨declared, k⟩
    · rfl
    · rw [Edges.note, Function.update_apply]
      split_ifs with hu
      · rw [Witness.witness_first_of_lt h, hu]
      · rfl
  · exact Edges.seenAt_note_of_lt h ..
  · exact Edges.seenAt_note_of_lt h ..
  · exact Edges.seenAt_note_of_lt h ..
  · exact Edges.seenAt_note_of_lt h ..
  · funext request
    change (noteRequest s.requestRows r.requestId n request).filter _ = _
    rcases r.requestId with - | declared
    · rfl
    · rw [noteRequest, Function.update_apply]
      split_ifs with hr
      · simp [hr, not_le.mpr h]
      · rfl
  · exact Edges.seenAt_note_of_lt h ..
  · exact Edges.seenAt_note_of_lt h ..

/-- **A row of the prefix** is added to the projection as it is to a context. -/
theorem ofJoinState_remember_of_le (hs : s.Below n) (h : n ≤ w) (r : Record) :
    ofJoinState rows limit (s.remember ⟨r, n⟩) w =
      (ofJoinState rows limit s w).addRow ⟨r, n⟩ := by
  unfold ofJoinState addRow
  congr 1
  · funext update
    rw [remember_updates hs]
    rcases r.declares r.updateId () with - | ⟨declared, -⟩
    · rfl
    · dsimp only
      rw [Function.update_apply, Function.update_apply]
      split_ifs
      · rcases hprev : s.updates declared with - | previous
        · simp [Option.filter, h]
        · have hlt := hs.updates declared previous hprev
          simp [Option.filter, hlt.le.trans h, hlt.le]
      · rfl
  · funext update owner
    change
      Witness.witness w (s.updateOwners.note (r.declares r.updateId r.owner) n update) owner = _
    rcases r.declares r.updateId r.owner with - | ⟨declared, k⟩
    · rfl
    · dsimp only
      rw [Edges.note, Function.update_apply, Function.update_apply]
      split_ifs with hu
      · rw [Witness.witness_first_of_le h (hs.updateOwners declared), Function.update_apply]
      · rfl
  · exact Edges.seenAt_note_of_le h hs.updateOwners _
  · exact Edges.seenAt_note_of_le h hs.processSources _
  · exact Edges.seenAt_note_of_le h hs.commitOwners _
  · exact Edges.seenAt_note_of_le h hs.segmentOwners _
  · funext request
    change (noteRequest s.requestRows r.requestId n request).filter _ = _
    rcases r.requestId with - | declared
    · rfl
    · rw [noteRequest, noteRequest, Function.update_apply, Function.update_apply]
      split_ifs with hr
      · simp [h]
      · rfl
  · exact Edges.seenAt_note_of_le h hs.planOwners _
  · exact Edges.seenAt_note_of_le h hs.requestPlans _

/-! ## All rows -/

/-- The rows that follow are remembered and added alike. -/
theorem ofJoinState_foldl (records : List Record) (hs : s.Below n) :
    ofJoinState rows limit ((rowsFrom n records).foldl JoinState.remember s) w =
      ((rowsFrom n records).filter fun r => r.durableSeq ≤ w).foldl addRow
        (ofJoinState rows limit s w) := by
  induction records generalizing n s with
  | nil => rfl
  | cons r records ih =>
    rw [rowsFrom, List.foldl_cons, ih (hs.remember r)]
    by_cases h : n ≤ w
    · rw [ofJoinState_remember_of_le hs h, List.filter_cons, if_pos (decide_eq_true h),
        List.foldl_cons]
    · rw [ofJoinState_remember_of_lt hs (not_le.mp h), List.filter_cons,
        if_neg fun hd => h (of_decide_eq_true hd)]

end RelationContext

theorem rowsFrom_append (n : ℕ) (rs rs' : List Record) :
    rowsFrom n (rs ++ rs') = rowsFrom n rs ++ rowsFrom (n + rs.length) rs' := by
  induction rs generalizing n with
  | nil => rfl
  | cons r rs ih =>
    rw [List.cons_append, rowsFrom, ih, rowsFrom, List.cons_append, List.length_cons,
      Nat.add_right_comm, Nat.add_assoc]

theorem joinState_run (acts : List Action) :
    (Runs.run Collector.step {} acts).joinState =
      (Runs.run Collector.step {} acts).index.foldl JoinState.remember {} := by
  refine Runs.run_invariant (I := fun c : Collector =>
    c.joinState = c.index.foldl JoinState.remember {}) (fun c a h => ?_) rfl acts
  cases a with
  | remember r =>
    change c.joinState.remember ⟨r, c.durable.length + 1⟩ =
      (rowsFrom 1 (c.durable ++ [r])).foldl JoinState.remember {}
    rw [rowsFrom_append, List.foldl_append, h, Nat.add_comm]
    rfl
  | restart => rfl

/-- **The incremental index is a rebuild at every prefix**: in every state of every run and at every
watermark, the projected join state gives the context that the rows give, and every row the same
relation blocks. -/
theorem relations_incremental (acts : List Action) (watermark : ℕ) (limit : Option ℕ) :
    let c := Runs.run Collector.step {} acts
    let projected := RelationContext.ofJoinState (c.published watermark) limit c.joinState watermark
    let rebuilt := RelationContext.ofRows (c.published watermark) limit
    projected = rebuilt ∧
      ∀ r ∈ c.published watermark, projected.rowRelations r = rebuilt.rowRelations r := by
  have heq : RelationContext.ofJoinState
      ((Runs.run Collector.step {} acts).published watermark) limit
      (Runs.run Collector.step {} acts).joinState watermark =
      RelationContext.ofRows ((Runs.run Collector.step {} acts).published watermark) limit := by
    rw [joinState_run]
    exact RelationContext.ofJoinState_foldl _ joinState_below_empty
  exact ⟨heq, fun r _ => congrArg (fun x => RelationContext.rowRelations x r) heq⟩

end Querying
end SemanticMemory
