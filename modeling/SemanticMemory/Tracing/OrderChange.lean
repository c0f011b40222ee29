import Mathlib
import SemanticMemory.Delta.Snapshot
import SemanticMemory.Evidence.Oracle
import SemanticMemory.Lib.Ranking
import SemanticMemory.Rerank.Plan
import SemanticMemory.Tracing.Faults

/-!
# Order changes on both sides of the wire

The daemon (`daemon/evidence.py`) is to record an order change when the plugin emits a group in
another order for the evidence: it sorts the group twice, with the base scores that came over the
wire, and compares.

* Scores are exact.  A base score is formatted with six significant digits for the wire
  (`identityDouble`), and the daemon sorts by what it reads there.
* A trace is what the store takes of an order change: the names in it are to be safe.
* `_derived_watermark` calls the two identities of a snapshot, which are properties; the error is
  passed over, and so a watermark names nothing (`derivedWatermark_ne`).

Two keys sort a group alike when they compare every pair alike.  From this, `traceAgrees_iff` tells
the exchanges whose trace agrees with what the plugin emits.
-/

namespace SemanticMemory.Tracing.OrderChanges

open Delta FactStore Oracle Ranking
open Json (units)

/-! ## The wire -/

/-- The nearest integer, the even one of two. -/
def roundHalfEven (x : ℚ) : ℤ :=
  if x - x.floor < 1 / 2 then x.floor
  else if 1 / 2 < x - x.floor then x.floor + 1
  else if x.floor % 2 = 0 then x.floor
  else x.floor + 1

/-- The place of the sixth significant digit, as a power of ten that is multiplied with. -/
def sixthDigit (x : ℚ) : ℚ := 10 ^ (5 - Int.log 10 |x|)

/-- `IdentityDouble`, as the daemon reads it: six significant digits. -/
def identityDouble (x : ℚ) : ℚ :=
  if x = 0 then 0 else roundHalfEven (x * sixthDigit x) / sixthDigit x

/-! ## The plugin -/

def comparisonScore (baseScore retrievalEvidence gamma : ℚ) : ℚ :=
  baseScore + gamma * retrievalEvidence

/-- `std::stable_sort` of the members of a group, by descending score. -/
def stableSortBy {κ : Type} (lt : κ → κ → Bool) (score : ℕ → κ) (members : List ℕ) : List ℕ :=
  members.insertionSort fun left right => !lt (score left) (score right)

/-- A complete group: its members are indexes of the plan, in merge order. -/
structure Group where
  candidateIndexes : List ℕ
  ascending : candidateIndexes.Pairwise (· < ·)
  baseScore : ℕ → ℚ

/-- The evidence of a candidate of the plan, from the evidence served for the group. -/
def Group.retrievalEvidence (group : Group) (groupEvidence : List ℚ) (index : ℕ) : ℚ :=
  groupEvidence.getD (group.candidateIndexes.idxOf index) 0

/-- The order in which `ReplayRerankPlan` emits the group. -/
def Group.emissionOrder (group : Group) (groupEvidence : List ℚ) (gamma : ℚ) : List ℕ :=
  stableSortBy (fun a b => decide (a < b)) (fun index =>
    comparisonScore (group.baseScore index) (group.retrievalEvidence groupEvidence index) gamma)
    group.candidateIndexes

/-! ## The request -/

structure Trial where
  actionable : Bool
  baseScores : List ℚ

structure Request where
  schemaId : Json
  category : Json
  canonicalSegmentInput : Json
  requestId : Json
  planIdentity : Json
  factHighWater : Json
  candidateCount : ℕ := 0
  trial : Option Trial := none

/-- `BuildEvidenceRequest`, for a group: the trial is present when the group has a candidate. -/
def Group.buildEvidenceRequest (group : Group) (request : Request) : Request :=
  { request with
    candidateCount := group.candidateIndexes.length
    trial :=
      if group.candidateIndexes = [] then none
      else some ⟨true, group.candidateIndexes.map fun index =>
        identityDouble (group.baseScore index)⟩ }

/-! ## The daemon -/

/-- `s_by_index.get(index, 0.0)`: the last entry of an index is the one that stays. -/
def sByIndex (result : OracleResult ℚ) (index : ℕ) : ℚ :=
  ((result.candidates.reverse.find? fun entry => entry.1 = index).map fun entry =>
    entry.2.2).getD 0

/-- The evidence of a response; without a store, there is no result and no evidence. -/
def responseEvidence (result : Option (OracleResult ℚ)) (count : ℕ) : List ℚ :=
  (List.range count).map fun index => result.elim 0 fun result => sByIndex result index

/-- `sorted(indexes, key, reverse=True)`, which is stable. -/
def sortedDescending (key : ℕ → ℚ) (indexes : List ℕ) : List ℕ :=
  indexes.insertionSort fun a b => key b ≤ key a

/-- `_emit_orders`: the shadow order and the final order. -/
def emitOrders (gamma : ℚ) (request : Request) (result : Option (OracleResult ℚ)) :
    Option (List ℕ × List ℕ) :=
  match request.trial with
  | none => none
  | some trial =>
    if trial.baseScores.length ≠ request.candidateCount then none
    else
      match result with
      | none => none
      | some result =>
        let indexes := List.range trial.baseScores.length
        some (sortedDescending (fun i => trial.baseScores.getD i 0) indexes,
          sortedDescending (fun i => trial.baseScores.getD i 0 + gamma * sByIndex result i) indexes)

def ranks (order : List ℕ) : List ℕ := (List.range order.length).map fun i => order.idxOf i

/-- `snapshot.representation_id()`, and likewise for the generation: the attribute is a property and
so a string, and a string that is called is an error, which is passed over. -/
def called (_ : Text) : Option Text := none

structure DerivedWatermark where
  representationId : Option Text
  generationId : Option Text
  deriving DecidableEq

/-- `_derived_watermark`; `machine` is the published snapshot of the delta machine, if there is a
machine. -/
def derivedWatermark (machine : Option (Option DeltaSnapshot)) : Option DerivedWatermark :=
  match machine with
  | none => none
  | some none => none
  | some (some snapshot) =>
    some ⟨called snapshot.representationId, called snapshot.baseGenerationId⟩

/-- The evidence service when it attaches a trace, and its trace store. -/
structure Service where
  gamma : ℚ
  configIdentity : Str
  retrievalBackend : Str
  machine : Option (Option DeltaSnapshot) := none
  clientReadable : Bool := true
  nowMs : ℤ := 0

structure TracePayload where
  schemaId : Json
  category : Json
  canonicalSegmentInput : Json
  planIdentity : Json
  configIdentity : Str
  retrievalBackend : Str
  factHighWater : Json
  requestId : Json
  baseScores : List ℚ
  shadowOrder : List ℕ
  finalOrder : List ℕ
  baseRanks : List ℕ
  finalRanks : List ℕ
  candidateCount : ℕ
  factsWatermark : Hlc
  derivedWatermark : Option DerivedWatermark
  neighbors : List (Contribution ℚ)
  aggregateSc : List (ℕ × ℚ)

def tracePayload (service : Service) (request : Request) (result : OracleResult ℚ) (trial : Trial)
    (shadow final : List ℕ) : TracePayload where
  schemaId := request.schemaId
  category := request.category
  canonicalSegmentInput := request.canonicalSegmentInput
  planIdentity := request.planIdentity
  configIdentity := service.configIdentity
  retrievalBackend := service.retrievalBackend
  factHighWater := request.factHighWater
  requestId := request.requestId
  baseScores := trial.baseScores
  shadowOrder := shadow
  finalOrder := final
  baseRanks := ranks shadow
  finalRanks := ranks final
  candidateCount := request.candidateCount
  factsWatermark := result.queryPoint
  derivedWatermark := derivedWatermark service.machine
  neighbors := result.kept
  aggregateSc := result.candidates.map fun entry => (entry.1, entry.2.2)

/-- A text as a Python string; beyond ASCII it matters only that it is not safe. -/
def asStr (text : Text) : Str := text.map fun b => Fin.ofNat 65536 b.val

/-- The store takes the payload: the client's lines are readable, and `_validate_trace_payload` and
the check of the trace's name pass. -/
def takes (service : Service) (request : Request) (kept : List (Contribution ℚ)) : Bool :=
  service.clientReadable &&
  (safeName (.str (newTraceId service.nowMs request.requestId))).isSome &&
  [request.schemaId, request.category, request.canonicalSegmentInput, request.planIdentity,
    .str service.configIdentity, request.requestId, .str service.retrievalBackend].all safeOrNull &&
  kept.all (fun contribution => (safeName (.str (asStr contribution.eventId))).isSome &&
    (safeName (.str (asStr contribution.commitId))).isSome) &&
  isAscii request.factHighWater

/-- The order change that `_attach_trace` leaves in the store; an error is passed over. -/
def attachTrace (service : Service) (request : Request) (result : Option (OracleResult ℚ)) :
    Option TracePayload :=
  match request.trial, result, emitOrders service.gamma request result with
  | some trial, some result, some (shadow, final) =>
    if final = shadow then none
    else if !takes service request result.kept then none
    else some (tracePayload service request result trial shadow final)
  | _, _, _ => none

/-! ## An exchange -/

/-- A complete group, the request that carries it, what the daemon comes to, and the snapshot that
served, if one did. -/
structure Exchange where
  group : Group
  envelope : Request
  service : Service
  result : Option (OracleResult ℚ)
  served : Option DeltaSnapshot := none

namespace Exchange

def request (x : Exchange) : Request := x.group.buildEvidenceRequest x.envelope

/-- The evidence that the plugin applies. -/
def groupEvidence (x : Exchange) : List ℚ :=
  responseEvidence x.result x.group.candidateIndexes.length

def trace (x : Exchange) : Option TracePayload := attachTrace x.service x.request x.result

/-- The order in which the plugin emits the group. -/
def emission (x : Exchange) (gamma : ℚ) : List ℕ := x.group.emissionOrder x.groupEvidence gamma

/-- An order of positions in the group, as indexes of the plan. -/
def placed (x : Exchange) (order : List ℕ) : List ℕ :=
  order.map fun i => x.group.candidateIndexes.getD i 0

/-- **The trace agrees with the plugin**: there is one when the evidence changes the order, its
orders are the two orders of the plugin, and its watermark names the snapshot that served. -/
def Agrees (x : Exchange) : Prop :=
  (x.trace ≠ none ↔ x.emission x.service.gamma ≠ x.emission 0) ∧
  ∀ payload, x.trace = some payload →
    x.placed payload.shadowOrder = x.emission 0 ∧
    x.placed payload.finalOrder = x.emission x.service.gamma ∧
    ∀ snapshot, x.served = some snapshot → payload.derivedWatermark =
      some ⟨some snapshot.representationId, some snapshot.baseGenerationId⟩

/-- The comparison score of a candidate, for its base score or for what the wire has of it. -/
def score (x : Exchange) (base : ℕ → ℚ) (index : ℕ) : ℚ :=
  comparisonScore (base index) (x.group.retrievalEvidence x.groupEvidence index) x.service.gamma

def wireScore (x : Exchange) (index : ℕ) : ℚ := identityDouble (x.group.baseScore index)

/-- Two scores compare every pair of the group alike. -/
def Alike (x : Exchange) (key key' : ℕ → ℚ) : Prop :=
  ∀ a ∈ x.group.candidateIndexes, ∀ b ∈ x.group.candidateIndexes, a < b →
    (key a < key b ↔ key' a < key' b)

/-- The store takes the names of the exchange. -/
def Taken (x : Exchange) : Prop :=
  ∀ result, x.result = some result → takes x.service x.request result.kept = true

/-- **The condition.**  Either the evidence changes no comparison of the base scores and none of
those on the wire, unless the store refuses the names; or no snapshot served, the store takes the
names, the evidence changes a comparison, and the wire keeps every comparison, of the base scores
and of the comparison scores. -/
def Meets (x : Exchange) : Prop :=
  (x.Alike x.group.baseScore (x.score x.group.baseScore) ∧
    (x.Alike x.wireScore (x.score x.wireScore) ∨ ¬ x.Taken)) ∨
  (x.served = none ∧ x.Taken ∧ ¬ x.Alike x.group.baseScore (x.score x.group.baseScore) ∧
    x.Alike x.group.baseScore x.wireScore ∧
    x.Alike (x.score x.group.baseScore) (x.score x.wireScore))

/-! ### Positions and indexes -/

variable (x : Exchange)

/-- Two relations that agree on a list sort it alike. -/
theorem insertionSort_congr_on {α : Type} {r s : α → α → Prop} [DecidableRel r] [DecidableRel s]
    {l : List α} (h : ∀ a ∈ l, ∀ b ∈ l, r a b ↔ s a b) : l.insertionSort r = l.insertionSort s := by
  have hmap := List.map_insertionSort r s id l h
  rwa [List.map_id, List.map_id] at hmap

/-- The members of the group by score. -/
def sorted (key : ℕ → ℚ) : List ℕ := sortedDescending key x.group.candidateIndexes

theorem nodup_candidateIndexes : x.group.candidateIndexes.Nodup :=
  x.group.ascending.imp fun h => h.ne

theorem sorted_eq_iff (key key' : ℕ → ℚ) : x.sorted key = x.sorted key' ↔ x.Alike key key' :=
  stableSort_eq_iff x.group.ascending key key'

theorem emission_eq (gamma : ℚ) : x.emission gamma = x.sorted fun index =>
    comparisonScore (x.group.baseScore index) (x.group.retrievalEvidence x.groupEvidence index)
      gamma := by
  refine insertionSort_congr_on fun a _ b _ => ?_
  rw [Bool.not_eq_true', decide_eq_false_iff_not, not_lt]

theorem emission_gamma : x.emission x.service.gamma = x.sorted (x.score x.group.baseScore) :=
  x.emission_eq _

/-- Without evidence the plugin emits by base score. -/
theorem emission_zero : x.emission 0 = x.sorted x.group.baseScore := by
  rw [emission_eq]
  simp only [comparisonScore, zero_mul, add_zero]

def member (i : ℕ) : ℕ := x.group.candidateIndexes.getD i 0

theorem map_member :
    (List.range x.group.candidateIndexes.length).map x.member = x.group.candidateIndexes := by
  refine List.ext_getElem (by simp) fun i h₁ h₂ => ?_
  rw [List.getElem_map, List.getElem_range, member, List.getD_eq_getElem _ _ h₂]

theorem idxOf_member {i : ℕ} (hi : i < x.group.candidateIndexes.length) :
    x.group.candidateIndexes.idxOf (x.member i) = i := by
  rw [member, List.getD_eq_getElem _ _ hi]
  exact x.nodup_candidateIndexes.idxOf_getElem i hi

/-- A sort of positions by the scores of the members is the sort of the members. -/
theorem placed_sortedDescending {key : ℕ → ℚ} {key' : ℕ → ℚ}
    (h : ∀ i < x.group.candidateIndexes.length, key i = key' (x.member i)) :
    x.placed (sortedDescending key (List.range x.group.candidateIndexes.length)) =
      x.sorted key' := by
  have hmap := List.map_insertionSort (fun a b => key b ≤ key a) (fun a b => key' b ≤ key' a)
    x.member (List.range x.group.candidateIndexes.length) fun a ha b hb => by
      rw [h a (List.mem_range.mp ha), h b (List.mem_range.mp hb)]
  rw [map_member] at hmap
  exact hmap

/-- Positions are read back from indexes. -/
theorem placed_injective {order order' : List ℕ}
    (h : order.Perm (List.range x.group.candidateIndexes.length))
    (h' : order'.Perm (List.range x.group.candidateIndexes.length))
    (heq : x.placed order = x.placed order') : order = order' := by
  have hback {l : List ℕ} (hl : l.Perm (List.range x.group.candidateIndexes.length)) :
      (x.placed l).map x.group.candidateIndexes.idxOf = l := by
    rw [placed, List.map_map]
    conv_rhs => rw [← List.map_id l]
    exact List.map_congr_left fun i hi => x.idxOf_member (List.mem_range.mp (hl.mem_iff.mp hi))
  rw [← hback h, heq, hback h']

/-! ### The orders of the daemon -/

theorem retrievalEvidence_member {result : OracleResult ℚ} (hresult : x.result = some result)
    {i : ℕ} (hi : i < x.group.candidateIndexes.length) :
    x.group.retrievalEvidence x.groupEvidence (x.member i) = sByIndex result i := by
  rw [Group.retrievalEvidence, idxOf_member x hi, groupEvidence, responseEvidence, hresult,
    List.getD_eq_getElem _ _ (by simpa using hi), List.getElem_map, List.getElem_range]
  rfl

/-- **The two orders of the daemon are sorts by what is on the wire.** -/
theorem emitOrders_eq {result : OracleResult ℚ} (hresult : x.result = some result)
    (hne : x.group.candidateIndexes ≠ []) : ∃ trial shadow final,
      x.request.trial = some trial ∧
      emitOrders x.service.gamma x.request (some result) = some (shadow, final) ∧
      x.placed shadow = x.sorted x.wireScore ∧
      x.placed final = x.sorted (x.score x.wireScore) ∧
      (final = shadow ↔ x.Alike x.wireScore (x.score x.wireScore)) := by
  have htrial : x.request.trial = some ⟨true, x.group.candidateIndexes.map fun index =>
      identityDouble (x.group.baseScore index)⟩ := if_neg hne
  have hbase : ∀ i < x.group.candidateIndexes.length,
      (x.group.candidateIndexes.map fun index =>
        identityDouble (x.group.baseScore index)).getD i 0 = x.wireScore (x.member i) := by
    intro i hi
    rw [List.getD_eq_getElem _ _ (by simpa using hi), List.getElem_map, wireScore, member,
      List.getD_eq_getElem _ _ hi]
  have hlength : (x.group.candidateIndexes.map fun index =>
      identityDouble (x.group.baseScore index)).length = x.group.candidateIndexes.length :=
    List.length_map _
  have hshadow := x.placed_sortedDescending hbase
  have hcomparison : ∀ i < x.group.candidateIndexes.length,
      (x.group.candidateIndexes.map fun index =>
        identityDouble (x.group.baseScore index)).getD i 0 +
        x.service.gamma * sByIndex result i = x.score x.wireScore (x.member i) := by
    intro i hi
    rw [hbase i hi, score, comparisonScore, x.retrievalEvidence_member hresult hi]
  have hfinal := x.placed_sortedDescending hcomparison
  refine ⟨_, _, _, htrial, ?_, hshadow, hfinal, ?_⟩
  · rw [emitOrders, htrial]
    dsimp only
    rw [hlength, if_neg fun h => h rfl]
  · rw [← sorted_eq_iff, ← hshadow, ← hfinal]
    refine ⟨fun h => by rw [h], fun h => (x.placed_injective (List.perm_insertionSort _ _)
      (List.perm_insertionSort _ _) h).symm⟩

/-- A group without a candidate, and a response without a result, change nothing. -/
theorem alike_of_unserved (h : x.group.candidateIndexes = [] ∨ x.result = none) (base : ℕ → ℚ) :
    x.Alike base (x.score base) := by
  intro a ha b hb hab
  rcases h with hnil | hnone
  · rw [hnil] at ha
    exact absurd ha List.not_mem_nil
  · have hzero (index : ℕ) : x.group.retrievalEvidence x.groupEvidence index = 0 := by
      rw [Group.retrievalEvidence, groupEvidence, responseEvidence, hnone]
      by_cases hi : x.group.candidateIndexes.idxOf index < x.group.candidateIndexes.length
      · rw [List.getD_eq_getElem _ _ (by simpa using hi), List.getElem_map]
        rfl
      · rw [List.getD_eq_default _ _ (by simpa using hi)]
    simp only [score, comparisonScore, hzero, mul_zero, add_zero]

theorem trace_of_unserved (h : x.group.candidateIndexes = [] ∨ x.result = none) :
    x.trace = none := by
  unfold trace attachTrace
  split
  · rename_i trial result shadow final htrial hresult horders
    rcases h with hnil | hnone
    · have hnone : x.request.trial = none := if_pos hnil
      rw [hnone] at htrial
      cases htrial
    · rw [hnone] at hresult
      cases hresult
  · rfl

end Exchange

/-! ## When the trace agrees -/

/-- **A watermark names nothing.** -/
theorem derivedWatermark_ne (machine : Option (Option DeltaSnapshot)) (snapshot : DeltaSnapshot) :
    derivedWatermark machine ≠ some ⟨some snapshot.representationId,
      some snapshot.baseGenerationId⟩ := by
  rcases machine with _ | _ | published
  · exact fun h => by cases h
  · exact fun h => by cases h
  · intro h
    cases congrArg DerivedWatermark.representationId (Option.some.inj h)

theorem Exchange.trace_eq (x : Exchange) {result : OracleResult ℚ}
    (hresult : x.result = some result) (hne : x.group.candidateIndexes ≠ []) :
    (x.trace = none ↔ x.Alike x.wireScore (x.score x.wireScore) ∨ ¬ x.Taken) ∧
    ∀ payload, x.trace = some payload →
      x.placed payload.shadowOrder = x.sorted x.wireScore ∧
      x.placed payload.finalOrder = x.sorted (x.score x.wireScore) ∧
      payload.derivedWatermark = derivedWatermark x.service.machine := by
  obtain ⟨trial, shadow, final, htrial, horders, hshadow, hfinal, hsame⟩ :=
    x.emitOrders_eq hresult hne
  have htaken : x.Taken ↔ takes x.service x.request result.kept = true :=
    ⟨fun h => h result hresult, fun h other hother =>
      Option.some.inj (hresult.symm.trans hother) ▸ h⟩
  rw [← hsame, htaken]
  unfold Exchange.trace attachTrace
  rw [htrial, hresult, horders]
  dsimp only
  by_cases heq : final = shadow
  · rw [if_pos heq]
    exact ⟨⟨fun _ => .inl heq, fun _ => rfl⟩, (by intro payload h; cases h)⟩
  rw [if_neg heq]
  by_cases htakes : takes x.service x.request result.kept = true
  · rw [if_neg (by rw [htakes]; exact Bool.false_ne_true)]
    refine ⟨⟨(by intro h; cases h), fun h => ?_⟩, fun payload h => ?_⟩
    · rcases h with h | h
      · exact absurd h heq
      · exact absurd htakes h
    · cases h
      exact ⟨hshadow, hfinal, rfl⟩
  · rw [if_pos (by rw [Bool.eq_false_iff.mpr htakes]; rfl)]
    exact ⟨⟨fun _ => .inr htakes, fun _ => rfl⟩, (by intro payload h; cases h)⟩

/-- **When the trace agrees with what the plugin emits.**  Where a snapshot served, it agrees only
if nothing changes, on either side, or the store refuses a change that only the wire shows: a
watermark names no snapshot.  Where none served, it agrees also on a change that the wire keeps and
the store takes. -/
theorem traceAgrees_iff (x : Exchange) : x.Agrees ↔ x.Meets := by
  have hmoves : (x.emission x.service.gamma ≠ x.emission 0 ↔
      ¬ x.Alike x.group.baseScore (x.score x.group.baseScore)) := by
    rw [x.emission_gamma, x.emission_zero, ← x.sorted_eq_iff]
    exact not_congr eq_comm
  by_cases hunserved : x.group.candidateIndexes = [] ∨ x.result = none
  · have htrace := x.trace_of_unserved hunserved
    have halike := x.alike_of_unserved hunserved
    refine ⟨fun _ => .inl ⟨halike _, .inl (halike _)⟩, fun _ => ⟨?_, fun payload h => ?_⟩⟩
    · rw [htrace, hmoves]
      exact ⟨fun h => absurd rfl h, fun h => absurd (halike _) h⟩
    · rw [htrace] at h
      cases h
  rw [not_or] at hunserved
  obtain ⟨result, hresult⟩ := Option.ne_none_iff_exists'.mp hunserved.2
  obtain ⟨hnone, hpayload⟩ := x.trace_eq hresult hunserved.1
  unfold Exchange.Agrees
  rw [hmoves, Ne, hnone]
  by_cases hquiet : x.Alike x.wireScore (x.score x.wireScore) ∨ ¬ x.Taken
  · -- no trace: nothing is to have changed
    have htrace := hnone.mpr hquiet
    constructor
    · rintro ⟨hiff, -⟩
      exact .inl ⟨by_contra fun h => hiff.mpr h hquiet, hquiet⟩
    · rintro (⟨halike, -⟩ | ⟨-, htaken, hmove, hbase, hcomparison⟩)
      · exact ⟨⟨fun h => absurd hquiet h, fun h => absurd halike h⟩,
          fun payload h => by rw [htrace] at h; cases h⟩
      · -- the wire keeps every comparison, so it would show the change
        rcases hquiet with hwire | hrefused
        · exact absurd (fun a ha b hb hab => (hbase a ha b hb hab).trans
            ((hwire a ha b hb hab).trans (hcomparison a ha b hb hab).symm)) hmove
        · exact absurd htaken hrefused
  · obtain ⟨hwire, htaken⟩ := not_or.mp hquiet
    rw [not_not] at htaken
    rcases htrace : x.trace with _ | payload
    · exact absurd (hnone.mp htrace) hquiet
    obtain ⟨hshadow, hfinal, hwatermark⟩ := hpayload payload htrace
    constructor
    · rintro ⟨hiff, hall⟩
      obtain ⟨hshadow', hfinal', hserved⟩ := hall payload rfl
      refine .inr ⟨?_, htaken, hiff.mp hquiet, ?_, ?_⟩
      · rcases hsnapshot : x.served with _ | snapshot
        · rfl
        · exact absurd (hwatermark ▸ hserved snapshot hsnapshot) (derivedWatermark_ne _ snapshot)
      · rw [← x.sorted_eq_iff, ← x.emission_zero, ← hshadow', hshadow]
      · rw [← x.sorted_eq_iff, ← x.emission_gamma, ← hfinal', hfinal]
    · rintro (⟨-, h⟩ | ⟨hserved, -, hmove, hbase, hcomparison⟩)
      · exact absurd h hquiet
      · refine ⟨⟨fun _ => hmove, fun _ => hquiet⟩, fun other hother => ?_⟩
        cases hother
        refine ⟨?_, ?_, fun snapshot h => by rw [hserved] at h; cases h⟩
        · rw [hshadow, x.emission_zero, x.sorted_eq_iff]
          exact fun a ha b hb hab => (hbase a ha b hb hab).symm
        · rw [hfinal, x.emission_gamma, x.sorted_eq_iff]
          exact fun a ha b hb hab => (hcomparison a ha b hb hab).symm

/-! ### Two exchanges -/

def twoMembers (first second : ℚ) : Group where
  candidateIndexes := [0, 1]
  ascending := by decide
  baseScore := fun index => if index = 0 then first else second

def sampleRequest : Request where
  schemaId := .str (units "luna_pinyin")
  category := .str (units "semantic")
  canonicalSegmentInput := .str (units "nihao")
  requestId := .str (units "req-1")
  planIdentity := .str (units "plan-1")
  factHighWater := .null

def sampleResult (secondEvidence : ℚ) : OracleResult ℚ where
  queryPoint := ⟨1, 0⟩
  sameKeyActive := 1
  kept := []
  candidates := [(0, 0, 0), (1, secondEvidence, secondEvidence)]
  totalMass := secondEvidence
  derivedKey := (ascii "luna_pinyin", ascii "semantic", ascii "nihao")

def sampleSnapshot : DeltaSnapshot where
  storeEpoch := ascii "epoch"
  baseGenerationId := ascii "generation-1"
  representationId := ascii "representation-1"
  vectorDimension := 0
  retrievalBackend := .oracle
  consumed := ⟨1, 0⟩
  changeSeq := 1
  activeEvents := []
  vectors := []
  queryProvider := ⟨ascii "representation-1", 0, false⟩

/-- A snapshot serves, and the evidence moves the second candidate to the front. -/
def servedBySnapshot : Exchange where
  group := twoMembers 2 1
  envelope := sampleRequest
  service := ⟨2, units "config-1", units "oracle", some (some sampleSnapshot), true, 0⟩
  result := some (sampleResult (3 / 4))
  served := some sampleSnapshot

/-- Two base scores that are one on the wire; the greater is the second, with and without evidence.
-/
def oneOnTheWire : Exchange where
  group := twoMembers (10000001 / 10000000) (10000002 / 10000000)
  envelope := sampleRequest
  service := ⟨1, units "config-1", units "oracle", none, true, 0⟩
  result := some (sampleResult (1 / 2))

/-- **Two traces that do not agree.**  The one names no snapshot, though one served; the other
records a change of the order where the plugin emits none. -/
theorem not_agrees : ¬ servedBySnapshot.Agrees ∧ ¬ oneOnTheWire.Agrees := by
  constructor
  · rintro ⟨-, hall⟩
    have htrace : servedBySnapshot.trace.isSome = true := by decide +kernel
    obtain ⟨payload, hpayload⟩ := Option.isSome_iff_exists.mp htrace
    obtain ⟨-, -, hserved⟩ := hall payload hpayload
    have hwatermark : servedBySnapshot.trace.map TracePayload.derivedWatermark =
        some (some ⟨none, none⟩) := by decide +kernel
    rw [hpayload, Option.map_some, hserved sampleSnapshot rfl] at hwatermark
    cases hwatermark
  · rintro ⟨hiff, -⟩
    have hsame : oneOnTheWire.emission oneOnTheWire.service.gamma = oneOnTheWire.emission 0 := by
      decide +kernel
    have htrace : oneOnTheWire.trace.isSome = true := by decide +kernel
    exact hiff.mp (Option.isSome_iff_ne_none.mp htrace) hsame

end SemanticMemory.Tracing.OrderChanges
