import SemanticMemory.Evidence.Contributions

/-!
# Evidence by neighbour search

`compute_ann_evidence` of `daemon/ann.py` against `compute_evidence` of `daemon/oracle.py`: only the
events that a search hits, and those of the delta, receive a cosine.

* A neighbour index is its ids and its search, which may raise; nothing else is assumed of it.
* The two branches are one loop, over the vector that an event is compared with and its match
  (`annContributions`).
* A call that succeeds gives the evidence of the exact cosines, restricted to the ids that are
  allowed: `computeAnnEvidence_eq_ok`.  What is kept of a part that holds everything kept of all is
  the same (`keep_filter`), and each contribution is that of the oracle.
-/

namespace SemanticMemory.Oracle

open FactStore Ranking

variable {F : Type}

/-! ## The search -/

/-- What `compute_ann_evidence` raises: an `AnnError`, or an `OracleError`. -/
inductive AnnError where
  /-- `ann_index`: no index is loaded. -/
  | indexMissing
  /-- `ann_config`. -/
  | overfetch
  /-- `ann_index`: the search fails. -/
  | searchFailed
  | dimensionMismatch (eventId : Text)
  | oracle (error : OracleError)

/-- A `NeighborIndex`: a search takes the vector, the number of hits and the search parameter. -/
structure NeighborIndex (F : Type) where
  eventIds : List Text
  search : List F → ℕ → Option ℕ → Option (List Text)

def OracleQuery.searched (query : OracleQuery F) : List (List F) :=
  query.candidateQueryVectors.getD [query.queryVector]

def NeighborIndex.hits (index : NeighborIndex F) (overfetch : ℕ) (querySearch : Option ℕ) :
    List (List F) → Option (List Text)
  | [] => some []
  | vector :: rest =>
    match index.search vector overfetch querySearch with
    | none => none
    | some found =>
      match index.hits overfetch querySearch rest with
      | none => none
      | some others => some (found ++ others)

/-- `allowed`: the hits that are not of the delta, and the ids of the delta, among the ids with the
key. -/
def allowedIds (hits deltaIds sameKeyIds : List Text) : List Text :=
  (hits.filter (fun id => !deltaIds.contains id) ++ deltaIds.filter fun id =>
    sameKeyIds.contains id).filter fun id => sameKeyIds.contains id

/-- Duplicates and unknown ids do not matter, nor which side an id came from. -/
theorem mem_allowedIds {hits deltaIds sameKeyIds : List Text} {id : Text} :
    id ∈ allowedIds hits deltaIds sameKeyIds ↔ id ∈ sameKeyIds ∧ (id ∈ hits ∨ id ∈ deltaIds) := by
  simp only [allowedIds, List.mem_filter, List.mem_append, Bool.not_eq_true',
    List.contains_eq_mem, decide_eq_false_iff_not, decide_eq_true_eq]
  by_cases hdelta : id ∈ deltaIds
  · simp [hdelta]
  · simp [hdelta, and_comm]

/-! ## Contributions -/

/-- The cosine of an event, by the searching path. -/
def annCosine (n : Numbers F) (vectorFor : Text → Option (List F)) (query : List F)
    (event : StoredEvent) : Except AnnError F :=
  match eventCosine n true vectorFor query event with
  | .error (.dimensionMismatch eventId _ _) => .error (.dimensionMismatch eventId)
  | .error e => .error (.oracle e)
  | .ok cosine => .ok cosine

/-- The contributions of the events that are allowed, from the event at `index` on.  `paired` is the
match of an event and the vector it is compared with; an event without one is passed over. -/
def annContributions (n : Numbers F) (params : OracleParams F) (vectorFor : Text → Option (List F))
    (allowed : List Text) (paired : StoredEvent → Option (Option ℕ × List F)) (count : ℕ) :
    ℕ → List StoredEvent → Except AnnError (List (Contribution F))
  | _, [] => .ok []
  | index, event :: rest =>
    if !allowed.contains event.eventId then
      annContributions n params vectorFor allowed paired count (index + 1) rest
    else
      match paired event with
      | none => annContributions n params vectorFor allowed paired count (index + 1) rest
      | some (matched, query) =>
        match annCosine n vectorFor query event with
        | .error e => .error e
        | .ok cosine =>
          match annContributions n params vectorFor allowed paired count (index + 1) rest with
          | .error e => .error e
          | .ok contributions =>
            .ok (contribution n params count index event cosine matched :: contributions)

def computeAnnEvidence (n : Numbers F) (t : Texts) (reader : Reader) (params : OracleParams F)
    (query : OracleQuery F) (vectorFor : Text → Option (List F))
    (neighborIndex : Option (NeighborIndex F)) (overfetch : ℕ) (querySearch : Option ℕ)
    (deltaIds : List Text) : Except AnnError (OracleResult F) :=
  match neighborIndex with
  | none => .error .indexMissing
  | some index =>
    if overfetch < 1 then .error .overfetch
    else
      match query.asOf <|> reader.defaultAsOf with
      | none => .error (.oracle .clockMissing)
      | some asOf =>
        let candidates := query.candidates.map t.matchText
        let events := sameKey t query (reader.readActiveEvents asOf)
        match query.candidateQueryVectors with
        | some values =>
          match asFloatVectors n values with
          | .error e => .error (.oracle e)
          | .ok vectors =>
            match index.hits overfetch querySearch vectors with
            | none => .error .searchFailed
            | some hits =>
              match annContributions n params vectorFor
                  (allowedIds hits deltaIds (events.map StoredEvent.eventId))
                  (fun event => (matchedCandidate t candidates event.finalSelectionText).map
                    fun matched => (some matched, vectors.getD matched []))
                  events.length 0 events with
              | .error e => .error e
              | .ok contributions =>
                .ok (aggregate n params asOf (query.key t) candidates events.length
                  (keep n params contributions))
        | none =>
          match asFloatVector n query.queryVector with
          | .error e => .error (.oracle e)
          | .ok vector =>
            match index.hits overfetch querySearch [vector] with
            | none => .error .searchFailed
            | some hits =>
              match annContributions n params vectorFor
                  (allowedIds hits deltaIds (events.map StoredEvent.eventId))
                  (fun _ => some (none, vector)) events.length 0 events with
              | .error e => .error e
              | .ok contributions =>
                .ok (aggregate n params asOf (query.key t) candidates events.length
                  ((keep n params contributions).map (matchEntry t candidates)))

/-! ## The loop -/

/-- How a fault is answered does not change the cosine. -/
theorem eventCosine_toOption (n : Numbers F) (vectorFor : Text → Option (List F)) (query : List F)
    (event : StoredEvent) (wrapped : Bool) :
    (eventCosine n wrapped vectorFor query event).toOption =
      (eventCosine n true vectorFor query event).toOption := by
  unfold eventCosine
  rcases vectorFor event.eventId with _ | values
  · rfl
  dsimp only
  rcases asFloatVector n values with e | vector
  · rfl
  · rfl

theorem annCosine_toOption (n : Numbers F) (vectorFor : Text → Option (List F)) (query : List F)
    (event : StoredEvent) : (annCosine n vectorFor query event).toOption =
      (eventCosine n true vectorFor query event).toOption := by
  unfold annCosine
  rcases eventCosine n true vectorFor query event with e | cosine
  · cases e <;> rfl
  · rfl

def allowedCosine (n : Numbers F) (vectorFor : Text → Option (List F)) (allowed : List Text)
    (paired : StoredEvent → Option (Option ℕ × List F)) (event : StoredEvent) : Option F :=
  if allowed.contains event.eventId then
    (paired event).bind fun entry => (annCosine n vectorFor entry.2 event).toOption
  else none

variable {n : Numbers F} {t : Texts} {params : OracleParams F} {query : OracleQuery F}
  {vectorFor : Text → Option (List F)} {allowed : List Text}
  {paired : StoredEvent → Option (Option ℕ × List F)} {count : ℕ}

/-- A loop that succeeds has the contributions of the events that are allowed and have a cosine. -/
theorem annContributions_eq_ok : ∀ {events : List StoredEvent} {index : ℕ}
    {contributions : List (Contribution F)},
    annContributions n params vectorFor allowed paired count index events = .ok contributions →
    contributions = (events.zipIdx index).filterMap fun (event, index) =>
      (allowedCosine n vectorFor allowed paired event).map fun cosine =>
        contribution n params count index event cosine ((paired event).bind Prod.fst)
  | [], index, contributions, h => by
    cases h
    rfl
  | event :: rest, index, contributions, h => by
    rw [annContributions] at h
    rw [List.zipIdx_cons, List.filterMap_cons]
    dsimp only
    by_cases hallowed : allowed.contains event.eventId = true
    · rw [if_neg (by rw [hallowed]; exact Bool.false_ne_true)] at h
      rw [allowedCosine, if_pos hallowed]
      rcases hpaired : paired event with _ | ⟨matched, vector⟩
      · rw [hpaired] at h
        exact annContributions_eq_ok h
      rw [hpaired] at h
      dsimp only at h
      rcases hcosine : annCosine n vectorFor vector event with e | cosine
      · rw [hcosine] at h
        cases h
      rcases hrest : annContributions n params vectorFor allowed paired count (index + 1) rest with
        e | entries
      · rw [hcosine, hrest] at h
        cases h
      rw [hcosine, hrest] at h
      cases h
      rw [annContributions_eq_ok hrest]
      dsimp only [Option.bind_some]
      rw [hcosine]
      rfl
    · have hallowed' : (!allowed.contains event.eventId) = true := by simpa using hallowed
      rw [if_pos hallowed'] at h
      rw [allowedCosine, if_neg hallowed]
      exact annContributions_eq_ok h

/-- The loop succeeds when every event that is allowed and paired has a cosine. -/
theorem annContributions_ok : ∀ {events : List StoredEvent} {index : ℕ},
    (∀ event ∈ events, ∀ entry ∈ paired event,
      ∃ cosine, annCosine n vectorFor entry.2 event = .ok cosine) →
    ∃ contributions,
      annContributions n params vectorFor allowed paired count index events = .ok contributions
  | [], _, _ => ⟨[], rfl⟩
  | event :: rest, index, h => by
    obtain ⟨entries, hrest⟩ : ∃ contributions, annContributions n params vectorFor allowed paired
        count (index + 1) rest = .ok contributions :=
      annContributions_ok fun other hother => h other (List.mem_cons_of_mem event hother)
    rw [annContributions, hrest]
    split_ifs
    · exact ⟨entries, rfl⟩
    · rcases hpaired : paired event with _ | ⟨matched, vector⟩
      · exact ⟨entries, rfl⟩
      · obtain ⟨cosine, hcosine⟩ := h event List.mem_cons_self (matched, vector) hpaired
        have hcosine' : annCosine n vectorFor vector event = .ok cosine := hcosine
        dsimp only
        rw [hcosine']
        exact ⟨_, rfl⟩

/-! ## Against the oracle -/

/-- The contributions of allowed events are those of all, less the others. -/
theorem scores_filter (n : Numbers F) (params : OracleParams F) (allowed : List Text)
    (c : StoredEvent → Option F) (m : StoredEvent → Option ℕ) (events : List StoredEvent) :
    scores n params (fun event => if allowed.contains event.eventId then c event else none) m
        events =
      (scores n params c m events).filter fun entry => allowed.contains entry.eventId := by
  rw [scores, scores, List.filter_filterMap]
  refine List.filterMap_congr fun entry _ => ?_
  dsimp only
  rcases hc : c entry.1 with _ | cosine
  · simp
  · simp [Option.filter, contribution]

def restrictedCosine (n : Numbers F) (t : Texts) (query : OracleQuery F)
    (vectorFor : Text → Option (List F)) (allowed : List Text) (event : StoredEvent) : Option F :=
  if allowed.contains event.eventId then exactCosine n t query vectorFor event else none

/-- The loop has the contributions with the exact cosines. -/
theorem annContributions_scores
    (hpaired : ∀ event, ((paired event).bind fun entry =>
      (eventCosine n true vectorFor entry.2 event).toOption) =
        exactCosine n t query vectorFor event)
    {events : List StoredEvent} {contributions : List (Contribution F)}
    (h : annContributions n params vectorFor allowed paired events.length 0 events =
      .ok contributions) :
    contributions = scores n params (restrictedCosine n t query vectorFor allowed)
      (fun event => (paired event).bind Prod.fst) events := by
  have hcosine (event : StoredEvent) : allowedCosine n vectorFor allowed paired event =
      restrictedCosine n t query vectorFor allowed event := by
    rw [allowedCosine, restrictedCosine, ← hpaired event]
    simp only [annCosine_toOption]
  rw [annContributions_eq_ok h, scores_congr fun event _ => (hcosine event).symm]
  rfl

theorem exactCosine_plain (hvectors : query.candidateQueryVectors = none) (event : StoredEvent) :
    ((some ((none : Option ℕ), query.queryVector)).bind fun entry =>
      (eventCosine n true vectorFor entry.2 event).toOption) =
        exactCosine n t query vectorFor event := by
  rw [exactCosine, hvectors, Option.bind_some, eventCosine_toOption n vectorFor _ event false]

theorem exactCosine_conditioned {vectors : List (List F)}
    (hvectors : query.candidateQueryVectors = some vectors) (event : StoredEvent) :
    (((matchOf t query event).map fun matched => (some matched, vectors.getD matched [])).bind
      fun entry => (eventCosine n true vectorFor entry.2 event).toOption) =
        exactCosine n t query vectorFor event := by
  rw [exactCosine, hvectors, Option.bind_map]
  rfl

/-- The evidence of the events allowed, for the hits of a search. -/
def annEvidence (n : Numbers F) (t : Texts) (params : OracleParams F) (query : OracleQuery F)
    (vectorFor : Text → Option (List F)) (hits deltaIds : List Text) (asOf : Hlc)
    (events : List StoredEvent) : OracleResult F :=
  evidenceOf n t params query asOf events (restrictedCosine n t query vectorFor
    (allowedIds hits deltaIds (events.map StoredEvent.eventId)))

variable {result : OracleResult F}

/-- **A successful call gives the evidence of the exact cosines of the events allowed.** -/
theorem computeAnnEvidence_eq_ok {reader : Reader} {index : NeighborIndex F} {overfetch : ℕ}
    {querySearch : Option ℕ} {deltaIds : List Text} {asOf : Hlc}
    (hasOf : (query.asOf <|> reader.defaultAsOf) = some asOf)
    (h : computeAnnEvidence n t reader params query vectorFor (some index) overfetch querySearch
      deltaIds = .ok result) :
    ∃ hits, index.hits overfetch querySearch query.searched = some hits ∧
      result = annEvidence n t params query vectorFor hits deltaIds asOf
        (sameKey t query (reader.readActiveEvents asOf)) := by
  rw [computeAnnEvidence, hasOf] at h
  dsimp only at h
  by_cases hover : overfetch < 1
  · rw [if_pos hover] at h
    cases h
  rw [if_neg hover] at h
  rcases hvectors : query.candidateQueryVectors with _ | values
  · rw [hvectors] at h
    dsimp only at h
    rcases hvector : asFloatVector n query.queryVector with e | vector
    · rw [hvector] at h
      cases h
    rw [hvector] at h
    dsimp only at h
    obtain rfl := asFloatVector_eq_ok hvector
    have hsearched : query.searched = [query.queryVector] := by
      rw [OracleQuery.searched, hvectors]
      rfl
    rw [hsearched]
    rcases hhits : index.hits overfetch querySearch [query.queryVector] with _ | hits
    · rw [hhits] at h
      cases h
    rw [hhits] at h
    dsimp only at h
    split at h
    · cases h
    · rename_i contributions hcontributions
      cases h
      refine ⟨hits, rfl, ?_⟩
      rw [annContributions_scores (exactCosine_plain hvectors) hcontributions, annEvidence,
        evidenceOf, ← keep_plain]
      rfl
  · rw [hvectors] at h
    dsimp only at h
    rcases hvalues : asFloatVectors n values with e | vectors
    · rw [hvalues] at h
      cases h
    rw [hvalues] at h
    dsimp only at h
    obtain rfl := asFloatVectors_eq_ok hvalues
    have hsearched : query.searched = vectors := by
      rw [OracleQuery.searched, hvectors]
      rfl
    rw [hsearched]
    rcases hhits : index.hits overfetch querySearch vectors with _ | hits
    · rw [hhits] at h
      cases h
    rw [hhits] at h
    dsimp only at h
    split at h
    · cases h
    · rename_i contributions hcontributions
      cases h
      refine ⟨hits, rfl, ?_⟩
      have hmatch (event : StoredEvent) : (((matchOf t query event).map fun matched =>
          (some matched, vectors.getD matched [])).bind Prod.fst) = matchOf t query event := by
        rw [Option.bind_map]
        exact Option.bind_fun_some _
      have hscores := annContributions_scores (exactCosine_conditioned hvectors) hcontributions
      simp only [hmatch] at hscores
      rw [hscores]
      rfl

theorem plainContributions_cosine {vector : List F} :
    ∀ {events : List StoredEvent} {index : ℕ} {contributions : List (Contribution F)},
      plainContributions n params vectorFor vector count index events = .ok contributions →
      ∀ event ∈ events, ∃ cosine, eventCosine n false vectorFor vector event = .ok cosine
  | [], _, _, _ => List.forall_mem_nil _
  | event :: rest, index, contributions, h => by
    rw [plainContributions] at h
    rcases hcosine : eventCosine n false vectorFor vector event with e | cosine
    · rw [hcosine] at h
      cases h
    rcases hrest : plainContributions n params vectorFor vector count (index + 1) rest with
      e | entries
    · rw [hcosine, hrest] at h
      cases h
    intro other hother
    rcases List.mem_cons.mp hother with rfl | hother
    · exact ⟨cosine, hcosine⟩
    · exact plainContributions_cosine hrest other hother

/-- A cosine that the oracle finds is found by the searching path. -/
theorem annCosine_ok {vector : List F} {event : StoredEvent} {wrapped : Bool} {cosine : F}
    (h : eventCosine n wrapped vectorFor vector event = .ok cosine) :
    annCosine n vectorFor vector event = .ok cosine := by
  have hoption := (annCosine_toOption n vectorFor vector event).trans
    (eventCosine_toOption n vectorFor vector event wrapped).symm
  rw [h] at hoption
  rcases hann : annCosine n vectorFor vector event with e | c
  · rw [hann] at hoption
    cases hoption
  · rw [hann] at hoption
    exact congrArg Except.ok (Option.some.inj hoption)

/-- Where the oracle succeeds and the search does not fail, the searching path succeeds. -/
theorem computeAnnEvidence_ok {reader : Reader} {index : NeighborIndex F} {overfetch : ℕ}
    {querySearch : Option ℕ} (deltaIds : List Text) {asOf : Hlc}
    (hasOf : (query.asOf <|> reader.defaultAsOf) = some asOf) (hoverfetch : 1 ≤ overfetch)
    {hits : List Text} (hhits : index.hits overfetch querySearch query.searched = some hits) (h : computeEvidence n t reader params query vectorFor = .ok result) :
    ∃ result, computeAnnEvidence n t reader params query vectorFor (some index) overfetch
      querySearch deltaIds = .ok result := by
  rw [computeEvidence, hasOf] at h
  rw [computeAnnEvidence, hasOf]
  dsimp only at h ⊢
  set events := sameKey t query (reader.readActiveEvents asOf)
  rw [if_neg (by omega)]
  rcases hvectors : query.candidateQueryVectors with _ | values
  · have hsearched : query.searched = [query.queryVector] := by
      rw [OracleQuery.searched, hvectors]
      rfl
    rw [hsearched] at hhits
    rw [hvectors] at h
    dsimp only at h ⊢
    rcases hvector : asFloatVector n query.queryVector with e | vector
    · rw [hvector] at h
      cases h
    rw [hvector] at h
    dsimp only at h ⊢
    obtain rfl := asFloatVector_eq_ok hvector
    split at h
    · cases h
    · rename_i contributions hcontributions
      rw [hhits]
      dsimp only
      obtain ⟨entries, hentries⟩ : ∃ entries, annContributions n params vectorFor
          (allowedIds hits deltaIds (events.map StoredEvent.eventId))
          (fun _ => some (none, query.queryVector)) events.length 0 events = .ok entries := by
        refine annContributions_ok ?_
        rintro event hevent _ ⟨⟩
        obtain ⟨cosine, hcosine⟩ := plainContributions_cosine hcontributions event hevent
        exact ⟨cosine, annCosine_ok hcosine⟩
      rw [hentries]
      exact ⟨_, rfl⟩
  · have hsearched : query.searched = values := by
      rw [OracleQuery.searched, hvectors]
      rfl
    rw [hsearched] at hhits
    rw [hvectors] at h
    dsimp only at h ⊢
    rcases hvalues : asFloatVectors n values with e | vectors
    · rw [hvalues] at h
      cases h
    rw [hvalues] at h
    dsimp only at h ⊢
    obtain rfl := asFloatVectors_eq_ok hvalues
    split at h
    · cases h
    · rename_i cosines hcosines
      rw [hhits]
      dsimp only
      obtain ⟨entries, hentries⟩ : ∃ entries, annContributions n params vectorFor
          (allowedIds hits deltaIds (events.map StoredEvent.eventId))
          (fun event => (matchedCandidate t (query.candidates.map t.matchText)
            event.finalSelectionText).map fun matched => (some matched, vectors.getD matched []))
          events.length 0 events = .ok entries := by
        refine annContributions_ok fun event hevent entry hentry => ?_
        obtain ⟨index, hindex, rfl⟩ := Option.map_eq_some_iff.mp hentry
        obtain ⟨cosine, hcosine⟩ := (pairedCosines_eq_ok hcosines).2.2 (index, event)
          (mem_pairedEvents.mpr ⟨hevent, hindex⟩)
        exact ⟨cosine, annCosine_ok hcosine⟩
      rw [hentries]
      exact ⟨_, rfl⟩

section

variable {reader : Reader} {asOf : Hlc} {index : NeighborIndex F} {overfetch : ℕ}
  {querySearch : Option ℕ} {deltaIds : List Text}

/-- A search that covers what the oracle keeps gives the oracle's evidence. -/
theorem computeAnnEvidence_of_covers (hn : n.Ranks)
    (hasOf : (query.asOf <|> reader.defaultAsOf) = some asOf)
    (hids : ((reader.readActiveEvents asOf).map StoredEvent.eventId).Nodup)
    (hoverfetch : 1 ≤ overfetch) {hits : List Text}
    (hhits : index.hits overfetch querySearch query.searched = some hits)
    (hresult : computeEvidence n t reader params query vectorFor = .ok result)
    (hcovers : ∀ entry ∈ result.kept, entry.eventId ∈ hits ∨ entry.eventId ∈ deltaIds) :
    computeAnnEvidence n t reader params query vectorFor (some index) overfetch querySearch
      deltaIds = .ok result := by
  set events := sameKey t query (reader.readActiveEvents asOf) with hevents
  obtain rfl := computeEvidence_eq_ok hasOf hids hresult
  obtain ⟨other, hother⟩ := computeAnnEvidence_ok deltaIds hasOf hoverfetch hhits hresult
  obtain ⟨hits', hhits', rfl⟩ := computeAnnEvidence_eq_ok hasOf hother
  obtain rfl := Option.some.inj (hhits'.symm.trans hhits)
  rw [hother, annEvidence, evidenceOf, evidenceOf]
  refine congrArg (fun kept => Except.ok (aggregate n params asOf (query.key t)
    (query.candidates.map t.matchText) events.length kept)) ?_
  have hfilter := scores_filter n params (allowedIds hits' deltaIds
    (events.map StoredEvent.eventId)) (exactCosine n t query vectorFor) (matchOf t query) events
  have hnodup : ((scores n params (exactCosine n t query vectorFor) (matchOf t query) events).map
      Contribution.eventId).Nodup := nodup_scores (nodup_sameKey t query hids)
  refine (congrArg (keep n params) hfilter).trans (keep_filter hn hnodup _ fun entry hentry => ?_)
  obtain ⟨event, hevent, cosine, -, rfl⟩ := mem_keep_scores hids hentry
  rw [List.contains_iff_mem]
  exact mem_allowedIds.mpr ⟨List.mem_map_of_mem hevent, hcovers _ hentry⟩

/-- Whatever a search hits, what is kept is of the oracle. -/
theorem kept_computeAnnEvidence (hasOf : (query.asOf <|> reader.defaultAsOf) = some asOf)
    (hids : ((reader.readActiveEvents asOf).map StoredEvent.eventId).Nodup)
    (hresult : computeAnnEvidence n t reader params query vectorFor (some index) overfetch
      querySearch deltaIds = .ok result) {entry : Contribution F} (hentry : entry ∈ result.kept) :
    ∃ event ∈ reader.readActiveEvents asOf,
      event.eventId ∉ query.excludeEventIds ∧ eventKey t event = query.key t ∧
      ∃ cosine, exactCosine n t query vectorFor event = some cosine ∧
        entry = exactContribution n t params query (reader.readActiveEvents asOf) event cosine := by
  obtain ⟨hits', -, rfl⟩ := computeAnnEvidence_eq_ok hasOf hresult
  obtain ⟨event, hevent, cosine, hcosine, rfl⟩ := mem_keep_scores hids hentry
  obtain ⟨hactive, hexclude, hkey⟩ := mem_sameKey.mp hevent
  refine ⟨event, hactive, hexclude, hkey, cosine, ?_, rfl⟩
  unfold restrictedCosine at hcosine
  split_ifs at hcosine
  exact hcosine

end

/-! ## The service -/

/-- `_run_ann`, over the ids of the snapshot served, if there is one: the ids of the delta are those
that the index does not hold. -/
def runAnn (n : Numbers F) (t : Texts) (reader : Reader) (params : OracleParams F)
    (query : OracleQuery F) (vectorFor : Text → Option (List F))
    (annIndex : Option (NeighborIndex F)) (overfetch : ℕ) (querySearch : Option ℕ)
    (snapshotIds : Option (List Text)) :
    Except AnnError (OracleResult F) :=
  match annIndex with
  | none => .error .indexMissing
  | some index =>
    computeAnnEvidence n t reader params query vectorFor (some index) overfetch querySearch
      ((snapshotIds.getD []).filter fun eventId => !index.eventIds.contains eventId)

/-- **A search that covers what the oracle keeps gives the oracle's evidence; and whatever a search
hits, each contribution kept is the oracle's**: of an active event with the key, at its exact cosine
and its age among all events with the key. -/
theorem computeAnnEvidence_exact (hn : n.Ranks) (t : Texts) (params : OracleParams F)
    (query : OracleQuery F) (vectorFor : Text → Option (List F)) (reader : Reader) {asOf : Hlc}
    (hasOf : (query.asOf <|> reader.defaultAsOf) = some asOf)
    (hids : ((reader.readActiveEvents asOf).map StoredEvent.eventId).Nodup)
    (index : NeighborIndex F) {overfetch : ℕ} (hoverfetch : 1 ≤ overfetch) (querySearch : Option ℕ)
    (deltaIds : List Text) {hits : List Text}
    (hhits : index.hits overfetch querySearch query.searched = some hits) :
    (∀ result, computeEvidence n t reader params query vectorFor = .ok result →
      (∀ entry ∈ result.kept, entry.eventId ∈ hits ∨ entry.eventId ∈ deltaIds) →
      computeAnnEvidence n t reader params query vectorFor (some index) overfetch querySearch
        deltaIds = .ok result) ∧
    ∀ result, computeAnnEvidence n t reader params query vectorFor (some index) overfetch
        querySearch deltaIds = .ok result →
      ∀ entry ∈ result.kept, ∃ event ∈ reader.readActiveEvents asOf,
        event.eventId ∉ query.excludeEventIds ∧ eventKey t event = query.key t ∧
        ∃ cosine, exactCosine n t query vectorFor event = some cosine ∧
          entry = exactContribution n t params query (reader.readActiveEvents asOf) event cosine :=
  ⟨fun _ hresult hcovers =>
    computeAnnEvidence_of_covers hn hasOf hids hoverfetch hhits hresult hcovers,
    fun _ hresult _ hentry => kept_computeAnnEvidence hasOf hids hresult hentry⟩

/-! ## A search with overfetch -/

/-- An index that answers with the later event twice, and with two ids that do not belong. -/
def sampleIndex : NeighborIndex ℚ := ⟨[[2], [3], [7]], fun _ _ _ => some [[2], [2], [3], [7]]⟩

theorem computeAnnEvidence_exact_sample :
    (∃ result, computeEvidence rationals ⟨id, id⟩ sampleReader rankedParams rankedQuery
        (fun _ => some [1]) = .ok result ∧ result.kept.map Contribution.eventId = [[2]] ∧
      computeAnnEvidence rationals ⟨id, id⟩ sampleReader rankedParams rankedQuery
        (fun _ => some [1]) (some sampleIndex) 4 none [[2]] = .ok result) := by
  have hkept : (computeEvidence rationals ⟨id, id⟩ sampleReader rankedParams rankedQuery
      fun _ => some [1]).toOption.map (fun result => result.kept.map Contribution.eventId) =
        some [[2]] := by
    decide +kernel
  obtain ⟨result, hresult, hids⟩ := Option.map_eq_some_iff.mp hkept
  have hok : computeEvidence rationals ⟨id, id⟩ sampleReader rankedParams rankedQuery
      (fun _ => some [1]) = .ok result := by
    rcases h : computeEvidence rationals ⟨id, id⟩ sampleReader rankedParams rankedQuery
      (fun _ => some [1]) with e | r
    · rw [h] at hresult
      cases hresult
    · rw [h] at hresult
      exact congrArg Except.ok (Option.some.inj hresult)
  have hhits : sampleIndex.hits 4 none rankedQuery.searched =
      some [[2], [2], [3], [7], [2], [2], [3], [7]] := by
    decide +kernel
  have hasOf : (rankedQuery.asOf <|> sampleReader.defaultAsOf) = some (hlc 5 0) := rfl
  refine ⟨result, hok, hids, (computeAnnEvidence_exact rationals_exact.ranks ⟨id, id⟩ rankedParams
    rankedQuery (fun _ => some [1]) sampleReader hasOf (by decide +kernel) sampleIndex (by decide)
    none [[2]] hhits).1 result hok fun entry hentry => .inr ?_⟩
  have hmem : entry.eventId ∈ result.kept.map Contribution.eventId := List.mem_map_of_mem hentry
  rw [hids] at hmem
  exact hmem

end SemanticMemory.Oracle
