import SemanticMemory.Evidence.Oracle

/-!
# The exact replay of a generation

`replay_exact` of `daemon/generation.py`: the oracle over the facts, at the source watermark of a
verified generation and with the vectors that the generation stores.

* A `Generation` is what the replay reads of one.  `BuiltFrom` says that it was built from a store: it
  has the store's epoch, the clock of the build, and a row for every event active then.
* The replay builds its query anew, field by field, and leaves out the candidate vectors; the probes
  of the same module carry them (`_compute_probe`).

## Results

* `replay_eq`: a plain query, a query without a query vector, and a query without an event of its key
  are answered as the oracle answers them, whatever the store records later.
* `replay_eq_conditioned`: a candidate-conditioned query is answered as a plain one.
-/

namespace SemanticMemory.Oracle

open FactStore Runs

variable {F : Type}

structure Generation (F : Type) where
  storeEpoch : Text
  sourceHlc : Hlc
  rows : List (Text × List F)

def Generation.eventIds (g : Generation F) : List Text := g.rows.map Prod.fst

/-- `event_vector`; `none` is a `GenerationError`. -/
def Generation.eventVector (g : Generation F) (eventId : Text) : Option (List F) :=
  g.rows.lookup eventId

/-- The generation was built from a store as it was then. -/
structure BuiltFrom (g : Generation F) (db : Db) : Prop where
  storeEpoch : g.storeEpoch = db.metaRows.storeEpoch
  sourceHlc : g.sourceHlc = db.clock
  eventIds : g.eventIds = (readActiveEvents db g.sourceHlc).map StoredEvent.eventId

/-- The codes of an `EvidenceError` of a replay. -/
inductive ReplayError where
  | factIdentityMismatch | notCaughtUp | invalidRequest | eventSetMismatch
  | oracleFault (e : Option OracleError)
  deriving DecidableEq

/-- The declared watermark of a request. -/
inductive Watermark where
  | absent | malformed
  | declared (storeEpoch : Text) (point : Hlc)

def checkReplayWatermark (watermark : Watermark) (storeEpoch : Text) (sourceHlc : Hlc) :
    Option ReplayError :=
  match watermark with
  | .absent => none
  | .malformed => some .invalidRequest
  | .declared expected point =>
    if expected = [] ∨ (ofLex point).1 < 0 ∨ (ofLex point).2 < 0 then some .invalidRequest
    else if expected ≠ storeEpoch then some .factIdentityMismatch
    else if sourceHlc < point then some .notCaughtUp
    else none

/-- The query that the replay builds. -/
def pinned (query : OracleQuery F) (asOf : Hlc) : OracleQuery F :=
  { schemaId := query.schemaId
    canonicalSegmentInput := query.canonicalSegmentInput
    candidates := query.candidates
    queryVector := query.queryVector
    category := query.category
    asOf := some asOf
    excludeEventIds := query.excludeEventIds }

/-- `replay_exact(generation, facts_root, params, query, request_watermark)`. -/
def replayExact (n : Numbers F) (t : Texts) (g : Generation F) (db : Db) (params : OracleParams F)
    (query : OracleQuery F) (watermark : Watermark) : Except ReplayError (OracleResult F) :=
  match readFactsIdentity db with
  | none => .error (.oracleFault none)
  | some (storeEpoch, clock) =>
    if storeEpoch ≠ g.storeEpoch then .error .factIdentityMismatch
    else if clock < g.sourceHlc then .error .notCaughtUp
    else
      match checkReplayWatermark watermark storeEpoch g.sourceHlc with
      | some e => .error e
      | none =>
        let actual := (readActiveEvents db g.sourceHlc).map StoredEvent.eventId
        if ¬(actual.all (g.eventIds.contains ·) && g.eventIds.all (actual.contains ·)) then
          .error .eventSetMismatch
        else
          match (pinned query g.sourceHlc).postInit n with
          | some e => .error (.oracleFault e)
          | none =>
            match computeEvidence n t (factReader db) params (pinned query g.sourceHlc)
              g.eventVector with
            | .error e => .error (.oracleFault e)
            | .ok result => .ok result

variable {query : OracleQuery F} {n : Numbers F} {params : OracleParams F}

/-- A result of the replay is the oracle's for the query that the replay builds. -/
theorem replayExact_eq_ok {t : Texts} {g : Generation F} {db : Db} {watermark : Watermark}
    {result : OracleResult F} (h : replayExact n t g db params query watermark = .ok result) :
    (pinned query g.sourceHlc).postInit n = none ∧
      computeEvidence n t (factReader db) params (pinned query g.sourceHlc) g.eventVector =
        .ok result := by
  unfold replayExact at h
  split at h
  · cases h
  · split_ifs at h
    split at h
    · cases h
    · dsimp only at h
      split_ifs at h
      split at h
      · cases h
      · next hcheck =>
        split at h
        · cases h
        · next hresult =>
          obtain rfl := Except.ok.inj h
          exact ⟨hcheck, hresult⟩

/-! ## Plain queries -/

/-- A query that is not conditioned is the one the replay builds. -/
theorem pinned_of_plain (h : query.candidateQueryVectors = none) (asOf : Hlc) :
    pinned query asOf = { query with asOf := some asOf } := by
  cases query
  cases h
  rfl

/-- A query without a vector is refused when it is built again. -/
theorem postInit_pinned_of_nil (h : query.queryVector = []) (asOf : Hlc) :
    (pinned query asOf).postInit n ≠ none := by
  have hempty : ((pinned query asOf).queryVector.isEmpty &&
      (pinned query asOf).candidateQueryVectors.isNone) = true := by
    change (query.queryVector.isEmpty && true) = true
    rw [h]
    rfl
  rw [OracleQuery.postInit]
  split_ifs
  all_goals exact Option.some_ne_none _

/-! ## Queries without events -/

theorem asFloatVectors_of_check {vectors : List (List F)}
    (h : checkCandidateVectors n vectors = none) : asFloatVectors n vectors = .ok vectors := by
  induction vectors with
  | nil => rfl
  | cons values rest ih =>
    rw [checkCandidateVectors, List.findSome?_cons] at h
    split at h
    · cases h
    · next hvalues =>
      split_ifs at hvalues with hempty hfinite
      have hvector : asFloatVector n values = .ok values := by
        rw [asFloatVector, hfinite, if_neg (by simp), if_neg hempty]
      rw [asFloatVectors, hvector, ih h]

theorem checkCandidateVectors_of_postInit (h : query.postInit n = none) {values : List (List F)}
    (hvalues : query.candidateQueryVectors = some values) :
    checkCandidateVectors n values = none := by
  rw [OracleQuery.postInit] at h
  split_ifs at h
  rw [hvalues] at h
  dsimp only at h
  split_ifs at h
  exact h

theorem asFloatVector_of_postInit (h : query.postInit n = none)
    (hplain : query.candidateQueryVectors = none) :
    asFloatVector n query.queryVector = .ok query.queryVector := by
  rw [OracleQuery.postInit] at h
  split_ifs at h with _ _ _ hvector _ hfinite
  rw [hplain, Option.isNone_none, Bool.and_true] at hvector
  rw [asFloatVector, if_neg hfinite, if_neg hvector]

def noEvidence (n : Numbers F) (t : Texts) (params : OracleParams F) (query : OracleQuery F)
    (p : Hlc) : OracleResult F :=
  aggregate n params p (query.key t) (query.candidates.map t.matchText) 0 []

theorem computeEvidence_of_nil {t : Texts} {reader : Reader} {vectorFor : Text → Option (List F)} {p : Hlc}
    (hp : query.asOf = some p) (hnil : sameKey t query (reader.readActiveEvents p) = [])
    (hvalues : ∀ values, query.candidateQueryVectors = some values →
      checkCandidateVectors n values = none)
    (hvector : query.candidateQueryVectors = none →
      asFloatVector n query.queryVector = .ok query.queryVector) :
    computeEvidence n t reader params query vectorFor = .ok (noEvidence n t params query p) := by
  have hfirst (other : Option Hlc) : (some p <|> other) = some p := rfl
  have hkeep : keep n params [] = [] := by
    rw [keep, List.filter_nil, List.insertionSort_nil, List.take_nil]
  rw [computeEvidence, hp, hfirst]
  dsimp only
  rw [hnil]
  cases hcond : query.candidateQueryVectors with
  | some values =>
    dsimp only
    rw [asFloatVectors_of_check (hvalues values hcond)]
    have hpaired : pairedEvents t (query.candidates.map t.matchText) [] = [] := rfl
    have hnone (cosines : List (Text × F)) : pairedContributions n t params
        (query.candidates.map t.matchText) cosines [] = [] := rfl
    rw [hpaired]
    dsimp only [pairedCosines]
    rw [hnone, hkeep]
    rfl
  | none =>
    dsimp only
    rw [hvector hcond]
    dsimp only [plainContributions]
    rw [hkeep]
    rfl

/-! ## The replay -/

/-- What a query must be for the replay to answer it as the oracle does: plain, or without a query
vector, so that it is refused, or without an active event of its key. -/
def Replayable (t : Texts) (db : Db) (query : OracleQuery F) (asOf : Hlc) : Prop :=
  query.candidateQueryVectors = none ∨ query.queryVector = [] ∨
    sameKey t query (readActiveEvents db asOf) = []

/-- The replay at one state of a store. -/
theorem replay_here {t : Texts} {g : Generation F} {db : Db} (hquery : query.postInit n = none)
    (hplain : Replayable t db query g.sourceHlc) {watermark : Watermark} {result : OracleResult F}
    (h : replayExact n t g db params query watermark = .ok result) :
    computeEvidence n t (factReader db) params { query with asOf := some g.sourceHlc }
      g.eventVector = .ok result := by
  obtain ⟨hcheck, hresult⟩ := replayExact_eq_ok h
  rcases hplain with hplain | hvector | hnil
  · rw [← pinned_of_plain hplain]
    exact hresult
  · exact absurd hcheck (postInit_pinned_of_nil hvector g.sourceHlc)
  · have hevents : sameKey t query ((factReader db).readActiveEvents g.sourceHlc) = [] := hnil
    have hpinned : computeEvidence n t (factReader db) params (pinned query g.sourceHlc)
        g.eventVector = .ok (noEvidence n t params (pinned query g.sourceHlc) g.sourceHlc) :=
      computeEvidence_of_nil rfl hevents (by rintro _ ⟨⟩) fun _ => asFloatVector_of_postInit hcheck rfl
    have hasked : computeEvidence n t (factReader db) params
        { query with asOf := some g.sourceHlc } g.eventVector =
          .ok (noEvidence n t params { query with asOf := some g.sourceHlc } g.sourceHlc) :=
      computeEvidence_of_nil rfl hevents
        (fun _ hvalues => checkCandidateVectors_of_postInit hquery hvalues)
        fun hnone => show asFloatVector n query.queryVector = .ok query.queryVector from
          asFloatVector_of_postInit hquery hnone
    rw [hasked, ← hresult, hpinned]
    rfl

/-- **The replay is the oracle**: let a generation be built at any moment of a store's life, and the
store go on in any way.  A result that the replay then returns for a plain query is what the oracle
computes from the stored vectors at the source watermark: on the facts as they are, and on the facts
as they were. -/
theorem replay_eq (n : Numbers F) (t : Texts) (now : ℤ) (historyId storeEpoch : Text)
    (before later : List Call) (g : Generation F)
    (hg : BuiltFrom g (run step (World.created now historyId storeEpoch) before).db)
    (params : OracleParams F) (query : OracleQuery F) (hquery : query.postInit n = none)
    (hplain : Replayable t (run step (World.created now historyId storeEpoch) before).db query
      g.sourceHlc) (watermark : Watermark) (result : OracleResult F)
    (h : replayExact n t g (run step (World.created now historyId storeEpoch)
      (before ++ later)).db params query watermark = .ok result) :
    computeEvidence n t (factReader (run step (World.created now historyId storeEpoch)
        (before ++ later)).db) params { query with asOf := some g.sourceHlc } g.eventVector =
          .ok result ∧
      computeEvidence n t (factReader (run step (World.created now historyId storeEpoch) before).db)
        params { query with asOf := some g.sourceHlc } g.eventVector = .ok result := by
  have hlater := later_run (run step (World.created now historyId storeEpoch) before) later
  rw [← run_append] at hlater
  have hactive := hlater.answer (ofLex g.sourceHlc).1 (ofLex g.sourceHlc).2 hg.sourceHlc.le
  have hread : (factReader (run step (World.created now historyId storeEpoch)
      (before ++ later)).db).readActiveEvents g.sourceHlc =
        (factReader (run step (World.created now historyId storeEpoch) before).db).readActiveEvents
          g.sourceHlc := congrArg (List.map EventRow.stored) hactive
  have hnow : Replayable t (run step (World.created now historyId storeEpoch)
      (before ++ later)).db query g.sourceHlc := by
    refine hplain.imp_right (Or.imp_right fun hnil => ?_)
    exact (congrArg (sameKey t query) hread).trans hnil
  have hhere := replay_here hquery hnow h
  exact ⟨hhere, (computeEvidence_congr rfl hread).symm.trans hhere⟩

/-! ## A conditioned query -/

/-- Numbers that are as the real ones on the numbers 0 and 1. -/
def sampleNumbers : Numbers ℚ where
  zero := 0
  one := 1
  two := 2
  ofNat k := k
  add := (· + ·)
  sub := (· - ·)
  mul := (· * ·)
  div := (· / ·)
  pow _ _ := 1
  neg := (- ·)
  sqrt := id
  sum := List.sum
  lt a b := decide (a < b)
  eq a b := decide (a = b)
  isFinite _ := true
  isInf _ := false

def sampleTexts : Texts := ⟨id, id⟩

def sampleParams : OracleParams ℚ := ⟨0, 1, 1, 1⟩

/-- The store of one event, which selected the text 5. -/
def sampleStore : Db := (run step (World.created 5 [] [7]) sampleBefore).db

def sampleGeneration : Generation ℚ := ⟨[7], hlc 10 0, [([1], [1])]⟩

theorem sampleGeneration_builtFrom : BuiltFrom sampleGeneration sampleStore :=
  ⟨by decide, by decide, by decide⟩

/-- The key of the event, and another candidate. -/
def sampleQuery : OracleQuery ℚ where
  schemaId := [2]
  canonicalSegmentInput := [3]
  candidates := [[6]]
  queryVector := [1]
  category := [4]

def conditionedQuery : OracleQuery ℚ := { sampleQuery with candidateQueryVectors := some [[1]] }

def sampleResult : OracleResult ℚ where
  queryPoint := hlc 10 0
  sameKeyActive := 1
  kept := [⟨[1], [8], [5], hlc 10 0, 1, 1, 0, 1, 1, none⟩]
  candidates := [(0, 0, 0)]
  totalMass := 0
  derivedKey := ([2], [4], [3])

/-- The plain query, after the event has been retracted. -/
theorem replay_eq_sample :
    computeEvidence sampleNumbers sampleTexts (factReader (run step (World.created 5 [] [7])
        (sampleBefore ++ [.appendRetraction 0 [8] 20 { nowMs := 20, randomUuid := [9] }])).db)
      sampleParams { sampleQuery with asOf := some sampleGeneration.sourceHlc }
      sampleGeneration.eventVector = .ok sampleResult ∧
    computeEvidence sampleNumbers sampleTexts (factReader sampleStore) sampleParams
      { sampleQuery with asOf := some sampleGeneration.sourceHlc } sampleGeneration.eventVector =
        .ok sampleResult :=
  replay_eq sampleNumbers sampleTexts 5 [] [7] sampleBefore
    [.appendRetraction 0 [8] 20 { nowMs := 20, randomUuid := [9] }] sampleGeneration
    sampleGeneration_builtFrom sampleParams sampleQuery (by decide +kernel) (.inl rfl) .absent
    sampleResult (by decide +kernel)

/-- The conditioned query has no evidence: the one event did not select its candidate.  The replay
answers with the event. -/
theorem replay_eq_conditioned : conditionedQuery.postInit sampleNumbers = none ∧
    ¬ ∀ result, replayExact sampleNumbers sampleTexts sampleGeneration sampleStore sampleParams
        conditionedQuery .absent = .ok result →
      computeEvidence sampleNumbers sampleTexts (factReader sampleStore) sampleParams
        { conditionedQuery with asOf := some sampleGeneration.sourceHlc }
        sampleGeneration.eventVector = .ok result := by
  refine ⟨by decide +kernel, fun h => ?_⟩
  have hreplay := h sampleResult (by decide +kernel)
  have horacle : computeEvidence sampleNumbers sampleTexts (factReader sampleStore) sampleParams
      { conditionedQuery with asOf := some sampleGeneration.sourceHlc }
      sampleGeneration.eventVector = .ok { sampleResult with kept := [] } := by decide +kernel
  have hkept := congrArg OracleResult.kept (Except.ok.inj (horacle.symm.trans hreplay))
  cases hkept

end SemanticMemory.Oracle
