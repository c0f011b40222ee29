import SemanticMemory.Evidence.Contributions
import SemanticMemory.Evidence.Replay

/-!
# Evidence is bounded and exact

`compute_evidence` of `daemon/oracle.py`, with or without a cosine engine, in exact arithmetic.

* What is kept is the at most `K_evidence` events of the largest weight, among the events with the
  key of the query that have a positive weight; the age of an event counts all later events with the
  key (`IsEvidence`).
* A share times a saturation is a bounded number, and all shares together stay below one
  (`sum_shareOf_lt_one`).
* A result depends on the events with the key alone, not on their order (`computeEvidenceBy_congr`).

An excluded event is not visible to its query: it neither provides evidence nor counts for an age.
-/

namespace SemanticMemory.Oracle

open FactStore Ranking

variable {F : Type}

/-! ## Parameters -/

/-- What `OracleParams.__post_init__` refuses. -/
inductive ParamsError where
  | tau | kEvidence | halfLife | negativeHalfLife | saturationK

/-- `OracleParams.__post_init__`: the error of parameters that are refused. -/
def OracleParams.postInit (n : Numbers F) (params : OracleParams F) : Option ParamsError :=
  if !((n.lt n.zero params.tau || n.eq n.zero params.tau) && n.lt params.tau n.one) then some .tau
  else if params.kEvidence < 1 then some .kEvidence
  else if !(n.isInf params.halfLife || n.lt n.zero params.halfLife) then some .halfLife
  else if n.isInf params.halfLife && n.lt params.halfLife n.zero then some .negativeHalfLife
  else if !(n.isFinite params.saturationK && n.lt n.zero params.saturationK) then some .saturationK
  else none

/-! ## Cosine engines -/

/-- A `CosineEngine`.  `batch_cosines` takes the query vector, the ids and the vectors; `none` is an
engine that raises or returns no mapping, and `none` in the mapping is a value that is no number. -/
structure CosineEngine (F : Type) where
  batchCosines : List F → List Text → (Text → Option (List F)) → Option (List (Text × Option F))

/-- What `compute_evidence` raises. -/
inductive EvidenceError where
  | oracle (error : OracleError)
  | engineFailed
  | noCosine (eventId : Text)
  | nonNumericCosine (eventId : Text)
  | nonFiniteCosine (eventId : Text)

/-- The cosines of a mapping, each checked.  `missing` is the error of an id without one. -/
def checkedCosines (n : Numbers F) (missing : Text → EvidenceError)
    (batch : List (Text × Option F)) : List Text → Except EvidenceError (List (Text × F))
  | [] => .ok []
  | eventId :: rest =>
    match batch.lookup eventId with
    | none => .error (missing eventId)
    | some none => .error (.nonNumericCosine eventId)
    | some (some cosine) =>
      if !n.isFinite cosine then .error (.nonFiniteCosine eventId)
      else
        match checkedCosines n missing batch rest with
        | .error e => .error e
        | .ok cosines => .ok ((eventId, cosine) :: cosines)

/-- The cosines of an engine, one call for every group of ids. -/
def engineCosines (n : Numbers F) (engine : CosineEngine F) (vectorFor : Text → Option (List F))
    (missing : Text → EvidenceError) :
    List (List F × List Text) → Except EvidenceError (List (Text × F))
  | [] => .ok []
  | (vector, eventIds) :: rest =>
    match engine.batchCosines vector eventIds vectorFor with
    | none => .error .engineFailed
    | some batch =>
      match checkedCosines n missing batch eventIds with
      | .error e => .error e
      | .ok cosines =>
        match engineCosines n engine vectorFor missing rest with
        | .error e => .error e
        | .ok others => .ok (cosines ++ others)

def matchedIds (t : Texts) (query : OracleQuery F) (events : List StoredEvent) (index : ℕ) :
    List Text :=
  (events.filter fun event => matchOf t query event = some index).map StoredEvent.eventId

/-- `events_by_candidate`: the candidates that are matched, in the order they are first met, each
with its vector and the ids of its events. -/
def candidateGroups (t : Texts) (query : OracleQuery F) (vectors : List (List F))
    (events : List StoredEvent) : List (List F × List Text) :=
  (events.filterMap (matchOf t query)).eraseDups.map fun index =>
    (vectors.getD index [], matchedIds t query events index)

/-- `compute_evidence(reader, params, query, vector_for, cosine_engine)`. -/
def computeEvidenceBy (n : Numbers F) (t : Texts) (reader : Reader) (params : OracleParams F)
    (query : OracleQuery F) (vectorFor : Text → Option (List F))
    (cosineEngine : Option (CosineEngine F)) : Except EvidenceError (OracleResult F) :=
  match cosineEngine with
  | none => (computeEvidence n t reader params query vectorFor).mapError .oracle
  | some engine =>
    match query.asOf <|> reader.defaultAsOf with
    | none => .error (.oracle .clockMissing)
    | some asOf =>
      let candidates := query.candidates.map t.matchText
      let events := sameKey t query (reader.readActiveEvents asOf)
      match query.candidateQueryVectors with
      | some values =>
        match asFloatVectors n values with
        | .error e => .error (.oracle e)
        | .ok vectors =>
          match engineCosines n engine vectorFor .nonNumericCosine
              (candidateGroups t query vectors events) with
          | .error e => .error e
          | .ok cosines =>
            .ok (aggregate n params asOf (query.key t) candidates events.length
              (keep n params (pairedContributions n t params candidates cosines events)))
      | none =>
        match asFloatVector n query.queryVector with
        | .error e => .error (.oracle e)
        | .ok vector =>
          match engineCosines n engine vectorFor .noCosine
              [(vector, events.map StoredEvent.eventId)] with
          | .error e => .error e
          | .ok cosines =>
            .ok (aggregate n params asOf (query.key t) candidates events.length
              ((keep n params (scores n params (fun event => cosines.lookup event.eventId)
                (fun _ => none) events)).map (matchEntry t candidates)))

/-! ## The cosines -/

def CosineEngine.served (engine : CosineEngine F) (vectorFor : Text → Option (List F))
    (vector : List F) (eventIds : List Text) (eventId : Text) : Option F :=
  ((engine.batchCosines vector eventIds vectorFor).bind fun batch => batch.lookup eventId).join

/-- The cosine of an event among the events with the key. -/
def cosineBy (n : Numbers F) (t : Texts) (query : OracleQuery F)
    (vectorFor : Text → Option (List F)) (cosineEngine : Option (CosineEngine F))
    (events : List StoredEvent) (event : StoredEvent) : Option F :=
  match cosineEngine with
  | none => exactCosine n t query vectorFor event
  | some engine =>
    match query.candidateQueryVectors with
    | none =>
      engine.served vectorFor query.queryVector (events.map StoredEvent.eventId) event.eventId
    | some vectors => (matchOf t query event).bind fun index =>
        engine.served vectorFor (vectors.getD index []) (matchedIds t query events index)
          event.eventId

variable {n : Numbers F} {t : Texts} {params : OracleParams F} {query : OracleQuery F}
  {vectorFor : Text → Option (List F)} {engine : CosineEngine F} {missing : Text → EvidenceError}

theorem checkedCosines_eq_ok {batch : List (Text × Option F)} : ∀ {eventIds : List Text}
    {cosines : List (Text × F)}, checkedCosines n missing batch eventIds = .ok cosines →
      cosines.map Prod.fst = eventIds ∧
      ∀ found ∈ cosines, batch.lookup found.1 = some (some found.2)
  | [], cosines, h => by
    cases h
    exact ⟨rfl, List.forall_mem_nil _⟩
  | eventId :: rest, cosines, h => by
    rw [checkedCosines] at h
    rcases hlookup : batch.lookup eventId with _ | _ | cosine
    · rw [hlookup] at h
      cases h
    · rw [hlookup] at h
      cases h
    rw [hlookup] at h
    dsimp only at h
    by_cases hfinite : (!n.isFinite cosine) = true
    · rw [if_pos hfinite] at h
      cases h
    rw [if_neg hfinite] at h
    rcases hrest : checkedCosines n missing batch rest with e | others
    · rw [hrest] at h
      cases h
    rw [hrest] at h
    cases h
    obtain ⟨hids, hfound⟩ := checkedCosines_eq_ok hrest
    refine ⟨by rw [List.map_cons, hids], fun found hmem => ?_⟩
    rcases List.mem_cons.mp hmem with rfl | hmem
    · exact hlookup
    · exact hfound found hmem

theorem engineCosines_eq_ok : ∀ {groups : List (List F × List Text)} {cosines : List (Text × F)},
    engineCosines n engine vectorFor missing groups = .ok cosines →
      cosines.map Prod.fst = groups.flatMap Prod.snd ∧
      ∀ found ∈ cosines, ∃ group ∈ groups, found.1 ∈ group.2 ∧
        engine.served vectorFor group.1 group.2 found.1 = some found.2
  | [], cosines, h => by
    cases h
    exact ⟨rfl, List.forall_mem_nil _⟩
  | (vector, eventIds) :: rest, cosines, h => by
    rw [engineCosines] at h
    rcases hbatch : engine.batchCosines vector eventIds vectorFor with _ | batch
    · rw [hbatch] at h
      cases h
    rw [hbatch] at h
    dsimp only at h
    rcases hchecked : checkedCosines n missing batch eventIds with e | checked
    · rw [hchecked] at h
      cases h
    rcases hrest : engineCosines n engine vectorFor missing rest with e | others
    · rw [hchecked, hrest] at h
      cases h
    rw [hchecked, hrest] at h
    cases h
    obtain ⟨hids, hfound⟩ := checkedCosines_eq_ok hchecked
    obtain ⟨hothers, hrestFound⟩ := engineCosines_eq_ok hrest
    refine ⟨by rw [List.map_append, List.flatMap_cons, hids, hothers], fun found hmem => ?_⟩
    rcases List.mem_append.mp hmem with hmem | hmem
    · refine ⟨(vector, eventIds), List.mem_cons_self, hids ▸ List.mem_map_of_mem hmem, ?_⟩
      rw [CosineEngine.served, hbatch, Option.bind_some, hfound found hmem]
      rfl
    · obtain ⟨group, hgroup, hserved⟩ := hrestFound found hmem
      exact ⟨group, List.mem_cons_of_mem _ hgroup, hserved⟩

variable {events : List StoredEvent} {eventId : Text}

theorem mem_matchedIds {index : ℕ} :
    eventId ∈ matchedIds t query events index ↔
      ∃ event ∈ events, matchOf t query event = some index ∧ event.eventId = eventId := by
  simp only [matchedIds, List.mem_map, List.mem_filter, decide_eq_true_eq, and_assoc]

variable {event : StoredEvent} {vector : List F}

/-- A plain query reads the cosine of an event off the mapping. -/
theorem lookup_engineCosines_plain
    {cosines : List (Text × F)} (h : engineCosines n engine vectorFor missing
      [(vector, events.map StoredEvent.eventId)] = .ok cosines)
    (hevent : event ∈ events) : cosines.lookup event.eventId =
      engine.served vectorFor vector (events.map StoredEvent.eventId) event.eventId := by
  obtain ⟨hids, hfound⟩ := engineCosines_eq_ok h
  refine lookup_eq_of_agree (fun _ => ?_) fun found hmem hid => ?_
  · rw [hids, List.flatMap_singleton]
    exact List.mem_map_of_mem hevent
  · obtain ⟨group, hgroup, -, hserved⟩ := hfound found hmem
    obtain rfl := List.mem_singleton.mp hgroup
    exact hid ▸ hserved

/-- A conditioned query reads it off the mapping of the event's candidate. -/
theorem lookup_engineCosines_conditioned {vectors : List (List F)}
    {cosines : List (Text × F)} (hids : (events.map StoredEvent.eventId).Nodup)
    (h : engineCosines n engine vectorFor missing (candidateGroups t query vectors events) =
      .ok cosines) (hevent : event ∈ events) :
    cosines.lookup event.eventId = (matchOf t query event).bind fun index =>
      engine.served vectorFor (vectors.getD index []) (matchedIds t query events index)
        event.eventId := by
  obtain ⟨hkeys, hfound⟩ := engineCosines_eq_ok h
  refine lookup_eq_of_agree (fun hne => ?_) fun found hmem hid => ?_
  · rcases hmatch : matchOf t query event with _ | index
    · rw [hmatch] at hne
      exact absurd rfl hne
    · rw [hkeys]
      refine List.mem_flatMap.mpr ⟨(vectors.getD index [], matchedIds t query events index),
        List.mem_map.mpr ⟨index, ?_, rfl⟩, mem_matchedIds.mpr ⟨event, hevent, hmatch, rfl⟩⟩
      exact List.mem_eraseDups.mpr (List.mem_filterMap.mpr ⟨event, hevent, hmatch⟩)
  · obtain ⟨group, hgroup, hmatched, hserved⟩ := hfound found hmem
    obtain ⟨index, -, rfl⟩ := List.mem_map.mp hgroup
    obtain ⟨other, hother, hmatch, hid'⟩ := mem_matchedIds.mp hmatched
    obtain rfl : other = event :=
      List.inj_on_of_nodup_map hids hother hevent (hid'.trans hid)
    rw [hmatch, Option.bind_some, ← hid]
    exact hserved

variable {asOf : Hlc}

/-- **A successful call gives the evidence of its cosines.** -/
theorem computeEvidenceBy_eq_ok {reader : Reader} {cosineEngine : Option (CosineEngine F)} (hasOf : (query.asOf <|> reader.defaultAsOf) = some asOf)
    (hids : ((reader.readActiveEvents asOf).map StoredEvent.eventId).Nodup)
    {result : OracleResult F}
    (h : computeEvidenceBy n t reader params query vectorFor cosineEngine = .ok result) :
    result = evidenceOf n t params query asOf (sameKey t query (reader.readActiveEvents asOf))
      (cosineBy n t query vectorFor cosineEngine
        (sameKey t query (reader.readActiveEvents asOf))) := by
  rcases cosineEngine with _ | engine
  · rcases hscalar : computeEvidence n t reader params query vectorFor with e | scalar
    · rw [computeEvidenceBy, hscalar] at h
      cases h
    · rw [computeEvidenceBy, hscalar] at h
      cases h
      exact computeEvidence_eq_ok hasOf hids hscalar
  have hsame := nodup_sameKey t query hids
  rw [computeEvidenceBy, hasOf] at h
  dsimp only at h
  rcases hvectors : query.candidateQueryVectors with _ | values
  · rw [hvectors] at h
    dsimp only at h
    rcases hvector : asFloatVector n query.queryVector with e | vector
    · rw [hvector] at h
      cases h
    rw [hvector] at h
    dsimp only at h
    obtain rfl := asFloatVector_eq_ok hvector
    split at h
    · cases h
    · rename_i cosines hcosines
      cases h
      rw [keep_plain, evidenceOf]
      refine congrArg (fun entries => aggregate n params asOf (query.key t)
        (query.candidates.map t.matchText) _ (keep n params entries)) ?_
      refine scores_congr fun event hevent => ?_
      rw [lookup_engineCosines_plain hcosines hevent, cosineBy, hvectors]
  · rw [hvectors] at h
    dsimp only at h
    rcases hvalues : asFloatVectors n values with e | vectors
    · rw [hvalues] at h
      cases h
    rw [hvalues] at h
    dsimp only at h
    obtain rfl := asFloatVectors_eq_ok hvalues
    split at h
    · cases h
    · rename_i cosines hcosines
      cases h
      refine congrArg (fun entries => aggregate n params asOf (query.key t)
        (query.candidates.map t.matchText) _ (keep n params entries)) ?_
      change scores n params (fun event => cosines.lookup event.eventId) (matchOf t query) _ = _
      refine scores_congr fun event hevent => ?_
      rw [lookup_engineCosines_conditioned hsame hcosines hevent, cosineBy, hvectors]

/-! ## Assigned cosines -/

def CosineEngine.assigning (assigned : List F → Text → F) : CosineEngine F where
  batchCosines vector eventIds _ := some (eventIds.map fun eventId =>
    (eventId, some (assigned vector eventId)))

/-- The cosine that an assignment gives an event: with the vector of the query, or with that of the
candidate which it selected. -/
def assignedCosine (t : Texts) (query : OracleQuery F) (assigned : List F → Text → F)
    (event : StoredEvent) : Option F :=
  match query.candidateQueryVectors with
  | none => some (assigned query.queryVector event.eventId)
  | some vectors => (matchOf t query event).map fun index =>
      assigned (vectors.getD index []) event.eventId

variable {assigned : List F → Text → F}

theorem lookup_assigning {eventIds : List Text} (h : eventId ∈ eventIds) :
    (eventIds.map fun eventId => (eventId, some (assigned vector eventId))).lookup eventId =
      some (some (assigned vector eventId)) := by
  induction eventIds with
  | nil => exact absurd h List.not_mem_nil
  | cons other rest ih =>
    rw [List.map_cons, List.lookup_cons]
    by_cases heq : eventId = other
    · subst heq
      rw [beq_self_eq_true]
    · rw [beq_eq_false_iff_ne.mpr heq]
      exact ih ((List.mem_cons.mp h).resolve_left heq)

theorem served_assigning {eventIds : List Text} (h : eventId ∈ eventIds) :
    (CosineEngine.assigning assigned).served vectorFor vector eventIds eventId =
      some (assigned vector eventId) := by
  rw [CosineEngine.served, CosineEngine.assigning, Option.bind_some, lookup_assigning h]
  rfl

/-- An engine that serves finite cosines for all ids is never refused. -/
theorem engineCosines_assigning
    (hfinite : ∀ vector eventId, n.isFinite (assigned vector eventId) = true) :
    ∀ groups : List (List F × List Text), ∃ cosines,
      engineCosines n (.assigning assigned) vectorFor missing groups = .ok cosines
  | [] => ⟨[], rfl⟩
  | (vector, eventIds) :: rest => by
    have hchecked : ∀ ids : List Text, ids ⊆ eventIds → ∃ cosines, checkedCosines n missing
        (eventIds.map fun eventId => (eventId, some (assigned vector eventId))) ids =
          .ok cosines := by
      intro ids
      induction ids with
      | nil => exact fun _ => ⟨[], rfl⟩
      | cons eventId ids ih =>
        intro hids
        obtain ⟨cosines, hcosines⟩ := ih fun id hid => hids (List.mem_cons_of_mem _ hid)
        rw [checkedCosines, lookup_assigning (hids List.mem_cons_self), hcosines]
        dsimp only
        rw [hfinite]
        exact ⟨_, rfl⟩
    obtain ⟨cosines, hcosines⟩ := hchecked eventIds fun id hid => hid
    obtain ⟨others, hothers⟩ := engineCosines_assigning hfinite rest
    refine ⟨cosines ++ others, ?_⟩
    rw [engineCosines, CosineEngine.assigning]
    dsimp only
    rw [hcosines]
    dsimp only
    rw [← CosineEngine.assigning, hothers]

/-- **Every assignment is served**: a query that is accepted has its evidence. -/
theorem computeEvidenceBy_assigning {reader : Reader}
    (hasOf : (query.asOf <|> reader.defaultAsOf) = some asOf) (hquery : query.postInit n = none)
    (hfinite : ∀ vector eventId, n.isFinite (assigned vector eventId) = true) :
    ∃ result, computeEvidenceBy n t reader params query vectorFor (some (.assigning assigned)) =
      .ok result := by
  rw [computeEvidenceBy, hasOf]
  dsimp only
  rcases hvectors : query.candidateQueryVectors with _ | values
  · obtain ⟨cosines, hcosines⟩ : ∃ cosines, engineCosines n (.assigning assigned) vectorFor
        .noCosine [(query.queryVector, (sameKey t query (reader.readActiveEvents asOf)).map
          StoredEvent.eventId)] = .ok cosines := engineCosines_assigning hfinite _
    dsimp only
    rw [asFloatVector_of_postInit hquery hvectors]
    dsimp only
    rw [hcosines]
    exact ⟨_, rfl⟩
  · obtain ⟨cosines, hcosines⟩ : ∃ cosines, engineCosines n (.assigning assigned) vectorFor
        .nonNumericCosine (candidateGroups t query values (sameKey t query
          (reader.readActiveEvents asOf))) = .ok cosines := engineCosines_assigning hfinite _
    dsimp only
    rw [asFloatVectors_of_check (checkCandidateVectors_of_postInit hquery hvectors)]
    dsimp only
    rw [hcosines]
    exact ⟨_, rfl⟩

theorem cosineBy_assigning (hevent : event ∈ events) :
    cosineBy n t query vectorFor (some (.assigning assigned)) events event =
      assignedCosine t query assigned event := by
  rw [cosineBy, assignedCosine]
  rcases query.candidateQueryVectors with _ | vectors
  · exact served_assigning (List.mem_map_of_mem hevent)
  · dsimp only
    rcases hmatch : matchOf t query event with _ | index
    · rfl
    · exact served_assigning (mem_matchedIds.mpr ⟨event, hevent, hmatch, rfl⟩)

/-! ## What a result depends on -/

/-- A result depends on the events with the key alone, whatever their order. -/
theorem sameKey_congr {active other : List StoredEvent}
    (hids : (active.map StoredEvent.eventId).Nodup)
    (hperm : (other.filter fun event => eventKey t event = query.key t).Perm
      (active.filter fun event => eventKey t event = query.key t)) :
    sameKey t query other = sameKey t query active := by
  have hfilter (l : List StoredEvent) : (l.filter fun event =>
      event.eventId ∉ query.excludeEventIds ∧ eventKey t event = query.key t) =
        (l.filter fun event => eventKey t event = query.key t).filter fun event =>
          event.eventId ∉ query.excludeEventIds := by
    rw [List.filter_filter]
    exact List.filter_congr fun event _ => Bool.decide_and _ _
  have hP : LinearOn (fun _ => True) fun a b : StoredEvent => a.orderKey ≤ b.orderKey :=
    ⟨fun a b _ _ => le_total _ _, fun a b c _ _ _ => le_trans⟩
  refine hP.insertionSort_congr (fun _ _ => trivial) (fun a ha b hb hab hba => ?_) ?_
  · have hmem {x : StoredEvent} (hx : x ∈ other.filter fun event =>
        event.eventId ∉ query.excludeEventIds ∧ eventKey t event = query.key t) : x ∈ active := by
      rw [hfilter] at hx
      exact List.mem_of_mem_filter (hperm.mem_iff.mp (List.mem_of_mem_filter hx))
    exact List.inj_on_of_nodup_map hids (hmem ha) (hmem hb)
      (Prod.mk.inj (toLex.injective (le_antisymm hab hba))).2
  · rw [hfilter, hfilter]
    exact hperm.filter _

theorem computeEvidenceBy_congr {reader other : Reader} {cosineEngine : Option (CosineEngine F)} (hasOf : (query.asOf <|> reader.defaultAsOf) = some asOf)
    (hasOf' : (query.asOf <|> other.defaultAsOf) = some asOf)
    (h : sameKey t query (other.readActiveEvents asOf) =
      sameKey t query (reader.readActiveEvents asOf)) :
    computeEvidenceBy n t other params query vectorFor cosineEngine =
      computeEvidenceBy n t reader params query vectorFor cosineEngine := by
  rcases cosineEngine with _ | engine
  · rw [computeEvidenceBy, computeEvidenceBy, computeEvidence, computeEvidence, hasOf, hasOf']
    dsimp only
    rw [h]
  · rw [computeEvidenceBy, computeEvidenceBy, hasOf, hasOf']
    dsimp only
    rw [h]

/-- A contribution that matches a candidate selected its text. -/
theorem matchOf_eq_some {index : ℕ} (h : matchOf t query event = some index) :
    some (t.matchText event.finalSelectionText) = query.candidates[index]?.map t.matchText := by
  obtain ⟨hlt, heq, -⟩ := List.findIdx?_eq_some_iff_getElem.mp h
  rw [List.length_map] at hlt
  rw [List.getElem_map, decide_eq_true_eq] at heq
  rw [List.getElem?_eq_getElem hlt, Option.map_some, heq]

/-! ## Shares -/

section Shares

variable [Field F] [LinearOrder F]

/-- A share of the total times a saturation. -/
def shareOf (k total m : F) : F := if 0 < total then m / total * (m / (m + k)) else 0

variable [IsStrictOrderedRing F]

theorem shareOf_nonneg {k total m : F} (hk : 0 < k) (hm : 0 ≤ m) : 0 ≤ shareOf k total m := by
  rw [shareOf]
  split_ifs with htotal
  · have := add_pos_of_nonneg_of_pos hm hk
    positivity
  · exact le_rfl

theorem shareOf_le {k total m : F} (hk : 0 < k) (hm : 0 ≤ m) (hle : m ≤ total)
    (htotal : 0 < total) : shareOf k total m ≤ m * (total / (total + k) / total) := by
  have hmk : 0 < m + k := add_pos_of_nonneg_of_pos hm hk
  have hsat : m / (m + k) ≤ total / (total + k) := by
    rw [div_le_div_iff₀ hmk (add_pos htotal hk)]
    nlinarith
  calc shareOf k total m = m / total * (m / (m + k)) := if_pos htotal
    _ ≤ m / total * (total / (total + k)) :=
      mul_le_mul_of_nonneg_left hsat (div_nonneg hm htotal.le)
    _ = m * (total / (total + k) / total) := by ring

/-- **All shares together stay below one.** -/
theorem sum_shareOf_lt_one {k : F} (hk : 0 < k) {masses : List F} (h : ∀ m ∈ masses, 0 ≤ m) :
    (masses.map (shareOf k masses.sum)).sum < 1 := by
  by_cases htotal : 0 < masses.sum
  · have hle : (masses.map (shareOf k masses.sum)).sum ≤
        (masses.map fun m => m * (masses.sum / (masses.sum + k) / masses.sum)).sum :=
      List.sum_le_sum fun m hm =>
        shareOf_le hk (h m hm) (List.single_le_sum h m hm) htotal
    refine hle.trans_lt ?_
    rw [List.sum_map_mul_right, List.map_id', mul_div_cancel₀ _ htotal.ne',
      div_lt_one (add_pos htotal hk)]
    exact lt_add_of_pos_right _ hk
  · have hzero : masses.map (shareOf k masses.sum) = masses.map fun _ => 0 :=
      List.map_congr_left fun m _ => if_neg htotal
    rw [hzero]
    simp

/-- Each share stays below one. -/
theorem shareOf_lt_one {k : F} (hk : 0 < k) {masses : List F} (h : ∀ m ∈ masses, 0 ≤ m) {m : F}
    (hm : m ∈ masses) : shareOf k masses.sum m < 1 := by
  refine lt_of_le_of_lt (List.single_le_sum (fun s hs => ?_) _ (List.mem_map_of_mem hm))
    (sum_shareOf_lt_one hk h)
  obtain ⟨m', hm', rfl⟩ := List.mem_map.mp hs
  exact shareOf_nonneg hk (h m' hm')

end Shares

/-! ## The evidence of exact numbers -/

section Evidence

variable [Field F] [LinearOrder F]

def InKey (t : Texts) (query : OracleQuery F) (event : StoredEvent) : Prop :=
  event.eventId ∉ query.excludeEventIds ∧ eventKey t event = query.key t

instance (t : Texts) (query : OracleQuery F) : DecidablePred (InKey t query) :=
  fun _ => inferInstanceAs (Decidable (_ ∧ _))

/-- `r_i`. -/
def relevanceOf (tau cosine : F) : F := min (max ((cosine - tau) / (1 - tau)) 0) 1

/-- `a_i = r_i * d_i`, at the age among all events with the key; an event without a cosine has no
weight. -/
def eventWeight (n : Numbers F) (t : Texts) (params : OracleParams F) (query : OracleQuery F)
    (active : List StoredEvent) (c : StoredEvent → Option F) (event : StoredEvent) : F :=
  (c event).elim 0 fun cosine => relevanceOf params.tau cosine *
    ageFactor n (usageAge t query active event) params.halfLife

/-- An event of greater weight, or of the same weight and earlier. -/
def Ahead (weight : StoredEvent → F) (a b : StoredEvent) : Prop :=
  weight b < weight a ∨ weight a = weight b ∧ a.orderKey < b.orderKey

instance (weight : StoredEvent → F) : DecidableRel (Ahead weight) :=
  fun _ _ => inferInstanceAs (Decidable (_ ∨ _))

/-- `m_c`, for the candidate of an index. -/
def massOf (kept : List (Contribution F)) (index : ℕ) : F :=
  ((kept.filter fun entry => entry.matchedCandidate = some index).map Contribution.weight).sum

/-- What a result is to be, for the active events and their cosines. -/
structure IsEvidence (n : Numbers F) (t : Texts) (params : OracleParams F) (query : OracleQuery F)
    (active : List StoredEvent) (c : StoredEvent → Option F) (result : OracleResult F) : Prop where
  sameKeyActive : result.sameKeyActive = active.countP (InKey t query)
  /-- An event is kept when it has a positive weight and fewer than `K_evidence` events stand ahead
  of it; those that are kept stand in order. -/
  kept : ∃ events : List StoredEvent,
    result.kept = events.map (fun event =>
      exactContribution n t params query active event ((c event).getD 0)) ∧
    events.Pairwise (Ahead (eventWeight n t params query active c)) ∧
    ∀ event, event ∈ events ↔ event ∈ active ∧ InKey t query event ∧
      0 < eventWeight n t params query active c event ∧
      (active.countP fun other => InKey t query other ∧
        0 < eventWeight n t params query active c other ∧
        Ahead (eventWeight n t params query active c) other event) < params.kEvidence
  atMost : result.kept.length ≤ params.kEvidence
  numbers : ∀ entry ∈ result.kept, entry.relevance = relevanceOf params.tau entry.cosine ∧
    entry.ageFactor = ageFactor n entry.usageAge params.halfLife ∧
    entry.weight = entry.relevance * entry.ageFactor ∧ 0 < entry.weight ∧ entry.weight ≤ 1
  totalMass : result.totalMass =
    ((List.range query.candidates.length).map (massOf result.kept)).sum
  candidates : result.candidates = (List.range query.candidates.length).map fun index =>
    (index, massOf result.kept index,
      shareOf params.saturationK result.totalMass (massOf result.kept index))
  bounded : ∀ entry ∈ result.candidates, 0 ≤ entry.2.2 ∧ entry.2.2 < 1
  together : (result.candidates.map fun entry => entry.2.2).sum < 1
  /-- A candidate that no kept event selected has no evidence. -/
  unselected : ∀ entry ∈ result.candidates,
    (∀ contribution ∈ result.kept, some (t.matchText contribution.finalSelectionText) ≠
      query.candidates[entry.1]?.map t.matchText) → entry.2.2 = 0

theorem Numbers.Exact.max (hn : n.Exact) (a b : F) : n.max a b = Max.max a b := by
  rw [Numbers.max, max_def]
  rcases lt_trichotomy a b with h | rfl | h
  · rw [if_pos ((hn.lt_iff _ _).mpr h), if_pos h.le]
  · rw [if_neg (by rw [hn.lt_iff]; exact lt_irrefl _), if_pos le_rfl]
  · rw [if_neg (by rw [hn.lt_iff]; exact h.not_gt), if_neg h.not_ge]

theorem Numbers.Exact.min (hn : n.Exact) (a b : F) : n.min a b = Min.min a b := by
  rw [Numbers.min, min_def]
  rcases lt_trichotomy a b with h | rfl | h
  · rw [if_neg (by rw [hn.lt_iff]; exact h.not_gt), if_pos h.le]
  · rw [if_neg (by rw [hn.lt_iff]; exact lt_irrefl _), if_pos le_rfl]
  · rw [if_pos ((hn.lt_iff _ _).mpr h), if_neg h.not_ge]

variable {active : List StoredEvent} {c : StoredEvent → Option F}

theorem exactContribution_exact (hn : n.Exact) (t : Texts) (params : OracleParams F)
    (query : OracleQuery F) (active : List StoredEvent) (event : StoredEvent) (cosine : F) :
    (exactContribution n t params query active event cosine).relevance =
      relevanceOf params.tau cosine ∧
    (exactContribution n t params query active event cosine).weight =
      relevanceOf params.tau cosine *
        ageFactor n (usageAge t query active event) params.halfLife := by
  simp only [exactContribution, relevanceOf, hn.min, hn.max, hn.div, hn.sub, hn.mul, hn.zero,
    hn.one, and_self]

/-- The contribution of an event, which has a cosine when it has a weight. -/
def entryOf (n : Numbers F) (t : Texts) (params : OracleParams F) (query : OracleQuery F)
    (active : List StoredEvent) (c : StoredEvent → Option F) (event : StoredEvent) :
    Contribution F :=
  exactContribution n t params query active event ((c event).getD 0)

theorem entryOf_weight (hn : n.Exact) (h : 0 < eventWeight n t params query active c event) :
    (entryOf n t params query active c event).weight =
      eventWeight n t params query active c event := by
  rw [entryOf, (exactContribution_exact hn t params query active event _).2]
  rw [eventWeight] at h ⊢
  rcases hc : c event with _ | cosine
  · rw [hc] at h
    exact absurd h (lt_irrefl _)
  · rfl

/-- The contributions that pass are those of the events with a positive weight. -/
theorem filter_contributions (hn : n.Exact) (events : List StoredEvent) :
    ((events.filterMap fun event =>
      (c event).map (exactContribution n t params query active event)).filter fun entry =>
        n.lt n.zero entry.weight) =
      (events.filter fun event => 0 < eventWeight n t params query active c event).map
        (entryOf n t params query active c) := by
  induction events with
  | nil => rfl
  | cons event events ih =>
    rcases hc : c event with _ | cosine
    · have hweight : ¬ 0 < eventWeight n t params query active c event := by
        rw [eventWeight, hc]
        exact lt_irrefl _
      rw [List.filterMap_cons, hc, List.filter_cons_of_neg (by simpa using hweight)]
      exact ih
    · have hweight : eventWeight n t params query active c event =
          (exactContribution n t params query active event cosine).weight := by
        rw [eventWeight, hc, (exactContribution_exact hn t params query active event cosine).2]
        rfl
      have hentry : entryOf n t params query active c event =
          exactContribution n t params query active event cosine := by
        rw [entryOf, hc]
        rfl
      rw [List.filterMap_cons, hc]
      dsimp only [Option.map_some]
      by_cases hpos : 0 < eventWeight n t params query active c event
      · rw [List.filter_cons_of_pos (by rw [hn.lt_iff, hn.zero, ← hweight]; exact hpos),
          List.filter_cons_of_pos (by simpa using hpos), List.map_cons, ih, hentry]
      · rw [List.filter_cons_of_neg (by rw [hn.lt_iff, hn.zero, ← hweight]; exact hpos),
          List.filter_cons_of_neg (by simpa using hpos), ih]

/-- The order of the kept events: ahead, or of the same weight and key. -/
def AheadOrTied (weight : StoredEvent → F) (a b : StoredEvent) : Prop :=
  weight b < weight a ∨ weight a = weight b ∧ a.orderKey ≤ b.orderKey

instance (weight : StoredEvent → F) : DecidableRel (AheadOrTied weight) :=
  fun _ _ => inferInstanceAs (Decidable (_ ∨ _))

omit [Field F] in
theorem linearOn_aheadOrTied (weight : StoredEvent → F) :
    LinearOn (fun _ => True) (AheadOrTied weight) where
  total a b _ _ := by
    rcases lt_trichotomy (weight a) (weight b) with h | h | h
    · exact .inr (.inl h)
    · rcases le_total a.orderKey b.orderKey with hle | hle
      · exact .inl (.inr ⟨h, hle⟩)
      · exact .inr (.inr ⟨h.symm, hle⟩)
    · exact .inl (.inl h)
  trans a b d _ _ _ := by
    rintro (hab | ⟨hab, hle⟩) (hbd | ⟨hbd, hle'⟩)
    · exact .inl (hbd.trans hab)
    · exact .inl (hbd ▸ hab)
    · exact .inl (hab ▸ hbd)
    · exact .inr ⟨hab.trans hbd, hle.trans hle'⟩

def keptEvents (n : Numbers F) (t : Texts) (params : OracleParams F) (query : OracleQuery F)
    (active : List StoredEvent) (c : StoredEvent → Option F) : List StoredEvent :=
  (((sameKey t query active).filter fun event =>
    0 < eventWeight n t params query active c event).insertionSort
      (AheadOrTied (eventWeight n t params query active c))).take params.kEvidence

/-- **What is kept are the contributions of the kept events.** -/
theorem keep_eq_keptEvents [IsStrictOrderedRing F] (hn : n.Exact)
    (hids : (active.map StoredEvent.eventId).Nodup) :
    keep n params (scores n params c (matchOf t query) (sameKey t query active)) =
      (keptEvents n t params query active c).map (entryOf n t params query active c) := by
  rw [keep, scores_sameKey n t params query hids, filter_contributions hn, keptEvents,
    List.map_take]
  refine congrArg (List.take params.kEvidence) (List.map_insertionSort _ _ _ _ ?_).symm
  intro a ha b hb
  have hwa := entryOf_weight (t := t) (c := c) hn (of_decide_eq_true (List.mem_filter.mp ha).2)
  have hwb := entryOf_weight (t := t) (c := c) hn (of_decide_eq_true (List.mem_filter.mp hb).2)
  rw [heavier, hwa, hwb, Bool.or_eq_true, Bool.and_eq_true, decide_eq_true_eq, hn.lt_iff, hn.eq_iff,
    hn.neg, hn.neg, neg_lt_neg_iff, neg_inj]
  rfl

theorem mem_keptEvents_pos (h : event ∈ keptEvents n t params query active c) :
    event ∈ sameKey t query active ∧
      0 < eventWeight n t params query active c event := by
  have hmem := (List.perm_insertionSort _ _).mem_iff.mp (List.mem_of_mem_take h)
  exact ⟨List.mem_of_mem_filter hmem, of_decide_eq_true (List.mem_filter.mp hmem).2⟩

/-- The events that pass stand in strict order. -/
theorem pairwise_ahead (hids : (active.map StoredEvent.eventId).Nodup) (w : StoredEvent → F) :
    (((sameKey t query active).filter fun event => 0 < w event).insertionSort
      (AheadOrTied w)).Pairwise (Ahead w) := by
  have hle := (linearOn_aheadOrTied w).pairwise_insertionSort
    ((sameKey t query active).filter fun event => 0 < w event) fun _ _ => trivial
  have hne : (((sameKey t query active).filter fun event => 0 < w event).insertionSort
      (AheadOrTied w)).Pairwise fun a b => a.orderKey ≠ b.orderKey := by
    refine ((List.perm_insertionSort _ _).pairwise_iff fun h => h.symm).mpr ?_
    exact ((sameKey_pairwise t query hids).filter _).imp fun {a b} h => h.ne
  refine (hle.and hne).imp fun {a b} h => ?_
  rcases h.1 with hlt | ⟨heq, hkey⟩
  · exact .inl hlt
  · exact .inr ⟨heq, lt_of_le_of_ne hkey h.2⟩

omit [Field F] in
theorem Ahead.asymm {w : StoredEvent → F} {a b : StoredEvent} (h : Ahead w a b) :
    ¬ Ahead w b a := by
  rcases h with h | ⟨heq, hkey⟩
  · rintro (h' | ⟨heq, -⟩)
    · exact lt_asymm h h'
    · exact h.ne heq
  · rintro (h' | ⟨-, hkey'⟩)
    · exact h'.ne heq
    · exact lt_asymm hkey hkey'

/-- **The kept events are those with fewer than `K_evidence` ahead of them.** -/
theorem mem_keptEvents (hids : (active.map StoredEvent.eventId).Nodup) :
    event ∈ keptEvents n t params query active c ↔ event ∈ active ∧ InKey t query event ∧
      0 < eventWeight n t params query active c event ∧
      (active.countP fun other => InKey t query other ∧
        0 < eventWeight n t params query active c other ∧
        Ahead (eventWeight n t params query active c) other event) < params.kEvidence := by
  set w := eventWeight n t params query active c
  rw [keptEvents, mem_take_iff_countP (pairwise_ahead hids w) fun a _ b _ h => h.asymm,
    (List.perm_insertionSort _ _).mem_iff, (List.perm_insertionSort _ _).countP_eq,
    List.mem_filter, List.countP_filter, mem_sameKey, decide_eq_true_eq, sameKey,
    (perm_sortEvents _).countP_eq, List.countP_filter]
  have hcount : (active.countP fun other =>
      ((decide (Ahead w other event) && decide (0 < w other)) &&
        decide (other.eventId ∉ query.excludeEventIds ∧ eventKey t other = query.key t))) =
      active.countP fun other => InKey t query other ∧ 0 < w other ∧ Ahead w other event := by
    refine List.countP_congr fun other _ => ?_
    simp only [Bool.and_eq_true, decide_eq_true_eq]
    rw [InKey]
    tauto
  rw [hcount]
  simp only [InKey]
  tauto

theorem mass_exact (hn : n.Exact) (kept : List (Contribution F)) (index : ℕ) :
    mass n kept index = massOf kept index := by
  have hfold : ∀ (entries : List (Contribution F)) (total : F),
      entries.foldl (fun total entry => if entry.matchedCandidate = some index then
        n.add total entry.weight else total) total = total + massOf entries index := by
    intro entries
    induction entries with
    | nil => intro total; simp [massOf]
    | cons entry entries ih =>
      intro total
      rw [List.foldl_cons, ih]
      by_cases hmatch : entry.matchedCandidate = some index
      · simp [massOf, hmatch, hn.add, add_assoc]
      · simp [massOf, hmatch]
  rw [mass, hfold, hn.zero, zero_add]

theorem aggregate_exact (hn : n.Exact) (params : OracleParams F) (asOf : Hlc) (key : Key)
    (candidates : List Text) (count : ℕ) (kept : List (Contribution F)) :
    (aggregate n params asOf key candidates count kept).totalMass =
        ((List.range candidates.length).map (massOf kept)).sum ∧
      (aggregate n params asOf key candidates count kept).candidates =
        (List.range candidates.length).map fun index => (index, massOf kept index,
          shareOf params.saturationK (aggregate n params asOf key candidates count kept).totalMass
            (massOf kept index)) := by
  have hmasses : (List.range candidates.length).map (mass n kept) =
      (List.range candidates.length).map (massOf kept) :=
    List.map_congr_left fun index _ => mass_exact hn kept index
  refine ⟨by rw [aggregate, hmasses, hn.sum], ?_⟩
  rw [aggregate]
  dsimp only
  rw [hmasses, hn.sum]
  refine List.ext_getElem (by simp) fun i h₁ h₂ => ?_
  simp [shareOf, hn.lt_iff, hn.zero, hn.mul, hn.div, hn.add]

theorem eventWeight_le_one [IsStrictOrderedRing F]
    (hdecay : ∀ age, 0 < ageFactor n age params.halfLife ∧ ageFactor n age params.halfLife ≤ 1)
    (event : StoredEvent) : eventWeight n t params query active c event ≤ 1 := by
  rw [eventWeight]
  rcases c event with _ | cosine
  · exact zero_le_one
  · obtain ⟨hpos, hle⟩ := hdecay (usageAge t query active event)
    exact mul_le_one₀ (min_le_right _ _) hpos.le hle

/-- **The evidence of a list of events is what it is to be.** -/
theorem isEvidence_evidenceOf [IsStrictOrderedRing F] (hn : n.Exact)
    (hparams : params.postInit n = none)
    (hdecay : ∀ age, 0 < ageFactor n age params.halfLife ∧ ageFactor n age params.halfLife ≤ 1)
    (hids : (active.map StoredEvent.eventId).Nodup) (asOf : Hlc) :
    IsEvidence n t params query active c
      (evidenceOf n t params query asOf (sameKey t query active) c) := by
  have hk : 0 < params.saturationK := by
    rw [OracleParams.postInit] at hparams
    split_ifs at hparams with _ _ _ _ hsaturation
    simp only [Bool.not_eq_true', Bool.not_eq_false, Bool.and_eq_true] at hsaturation
    have hpos := (hn.lt_iff _ _).mp hsaturation.2
    rwa [hn.zero] at hpos
  set kept := (keptEvents n t params query active c).map (entryOf n t params query active c)
    with hkept
  have hevidence : evidenceOf n t params query asOf (sameKey t query active) c =
      aggregate n params asOf (query.key t) (query.candidates.map t.matchText)
        (sameKey t query active).length kept := by
    rw [evidenceOf, keep_eq_keptEvents hn hids]
  obtain ⟨htotal, hcandidates⟩ := aggregate_exact hn params asOf (query.key t)
    (query.candidates.map t.matchText) (sameKey t query active).length kept
  rw [List.length_map] at htotal hcandidates
  have hentry : ∀ entry ∈ kept, ∃ event ∈ keptEvents n t params query active c,
      entryOf n t params query active c event = entry := fun entry hentry => List.mem_map.mp hentry
  have hpos : ∀ entry ∈ kept, 0 < entry.weight ∧ entry.weight ≤ 1 := by
    intro entry hmem
    obtain ⟨event, hevent, rfl⟩ := hentry entry hmem
    obtain ⟨-, hweight⟩ := mem_keptEvents_pos hevent
    rw [entryOf_weight hn hweight]
    exact ⟨hweight, eventWeight_le_one hdecay event⟩
  have hmasses : ∀ m ∈ (List.range query.candidates.length).map (massOf kept), 0 ≤ m := by
    intro m hm
    obtain ⟨index, -, rfl⟩ := List.mem_map.mp hm
    refine List.sum_nonneg fun weight hweight => ?_
    obtain ⟨entry, hmem, rfl⟩ := List.mem_map.mp hweight
    exact (hpos entry (List.mem_of_mem_filter hmem)).1.le
  rw [hevidence]
  refine ⟨?_, ⟨keptEvents n t params query active c, rfl, ?_, fun event => mem_keptEvents hids⟩, ?_,
    ?_, htotal, hcandidates, ?_, ?_, ?_⟩
  · change (sameKey t query active).length = _
    rw [sameKey, (perm_sortEvents _).length_eq, ← List.countP_eq_length_filter]
    rfl
  · exact (pairwise_ahead hids _).sublist (List.take_sublist _ _)
  · change kept.length ≤ _
    rw [hkept, List.length_map]
    exact List.length_take_le _ _
  · intro entry hmem
    obtain ⟨event, -, heq⟩ := hentry entry hmem
    have hexact := exactContribution_exact hn t params query active event ((c event).getD 0)
    refine ⟨?_, ?_, ?_, hpos entry hmem⟩
    · rw [← heq]
      exact hexact.1
    · rw [← heq]
      rfl
    · rw [← heq, entryOf, hexact.2, hexact.1]
      rfl
  · intro entry hmem
    rw [hcandidates, htotal] at hmem
    obtain ⟨index, hindex, rfl⟩ := List.mem_map.mp hmem
    have hmass := List.mem_map_of_mem (f := massOf kept) hindex
    exact ⟨shareOf_nonneg hk (hmasses _ hmass), shareOf_lt_one hk hmasses hmass⟩
  · rw [hcandidates, htotal, List.map_map]
    have htogether := sum_shareOf_lt_one hk hmasses
    rw [List.map_map] at htogether
    exact htogether
  · intro entry hmem hnone
    rw [hcandidates] at hmem
    obtain ⟨index, -, rfl⟩ := List.mem_map.mp hmem
    have hempty : kept.filter (fun entry => entry.matchedCandidate = some index) = [] := by
      refine List.filter_eq_nil_iff.mpr fun entry hkeptEntry hmatch => ?_
      obtain ⟨event, -, heq⟩ := hentry entry hkeptEntry
      refine hnone entry hkeptEntry ?_
      rw [← heq] at hmatch ⊢
      exact matchOf_eq_some (of_decide_eq_true hmatch)
    have hzero : massOf kept index = 0 := by
      rw [massOf, hempty]
      rfl
    dsimp only
    rw [hzero, shareOf]
    split_ifs
    · rw [zero_div, zero_mul]
    · rfl

end Evidence

/-- The evidence of events depends on the cosines of the events with the key. -/
theorem evidenceOf_congr {c c' : StoredEvent → Option F}
    (h : ∀ event ∈ events, c event = c' event) :
    evidenceOf n t params query asOf events c = evidenceOf n t params query asOf events c' := by
  rw [evidenceOf, evidenceOf, scores_congr h]

/-- **Evidence is bounded, positive only and exact.**  In exact arithmetic, with any decay whose
values lie in `(0, 1]`, every result is the evidence of its cosines; another reader whose events
with the key are the same, in any order and among any other events, gives the same; and every
assignment of finite cosines has its evidence. -/
theorem computeEvidence_bounded_exact [Field F] [LinearOrder F] [IsStrictOrderedRing F]
    (hn : n.Exact) (t : Texts) (hparams : params.postInit n = none)
    (hdecay : ∀ age, 0 < ageFactor n age params.halfLife ∧ ageFactor n age params.halfLife ≤ 1)
    (hquery : query.postInit n = none) (vectorFor : Text → Option (List F)) (reader : Reader)
    {asOf : Hlc} (hasOf : (query.asOf <|> reader.defaultAsOf) = some asOf)
    (hids : ((reader.readActiveEvents asOf).map StoredEvent.eventId).Nodup) :
    (∀ (cosineEngine : Option (CosineEngine F)) (result : OracleResult F),
      computeEvidenceBy n t reader params query vectorFor cosineEngine = .ok result →
      IsEvidence n t params query (reader.readActiveEvents asOf) (cosineBy n t query vectorFor
        cosineEngine (sameKey t query (reader.readActiveEvents asOf))) result) ∧
    (∀ (cosineEngine : Option (CosineEngine F)) (other : Reader),
      (query.asOf <|> other.defaultAsOf) = some asOf →
      ((other.readActiveEvents asOf).filter fun event => eventKey t event = query.key t).Perm
        ((reader.readActiveEvents asOf).filter fun event => eventKey t event = query.key t) →
      computeEvidenceBy n t other params query vectorFor cosineEngine =
        computeEvidenceBy n t reader params query vectorFor cosineEngine) ∧
    ∀ assigned : List F → Text → F,
      (∀ vector eventId, n.isFinite (assigned vector eventId) = true) →
      ∃ result, computeEvidenceBy n t reader params query vectorFor (some (.assigning assigned)) =
          .ok result ∧
        IsEvidence n t params query (reader.readActiveEvents asOf)
          (assignedCosine t query assigned) result := by
  refine ⟨fun cosineEngine result h => ?_, fun cosineEngine other hasOf' hperm => ?_,
    fun assigned hfinite => ?_⟩
  · rw [computeEvidenceBy_eq_ok hasOf hids h]
    exact isEvidence_evidenceOf hn hparams hdecay hids asOf
  · exact computeEvidenceBy_congr hasOf hasOf' (sameKey_congr hids hperm)
  · obtain ⟨result, hresult⟩ := computeEvidenceBy_assigning hasOf hquery hfinite
    refine ⟨result, hresult, ?_⟩
    rw [computeEvidenceBy_eq_ok hasOf hids hresult,
      evidenceOf_congr fun event hevent => cosineBy_assigning hevent]
    exact isEvidence_evidenceOf hn hparams hdecay hids asOf

theorem ageFactor_rationals (age : ℕ) : 0 < ageFactor rationals age 1 ∧
    ageFactor rationals age 1 ≤ 1 := by
  have hpower : ageFactor rationals age 1 = (2 : ℚ) ^ (-(age : ℤ)) := by
    change (2 : ℚ) ^ ((-(age : ℚ)) / 1).floor = _
    rw [div_one]
    congr 1
  rw [hpower]
  exact ⟨by positivity, zpow_le_one_of_nonpos₀ (by norm_num) (by omega)⟩

/-- Two events with the key, one of them of the age one. -/
theorem computeEvidence_bounded_exact_sample : ∃ result,
    computeEvidenceBy rationals ⟨id, id⟩ sampleReader rankedParams rankedQuery (fun _ => none)
      (some (.assigning fun _ _ => 1)) = .ok result ∧
    IsEvidence rationals ⟨id, id⟩ rankedParams rankedQuery
      (sampleReader.readActiveEvents (hlc 5 0)) (assignedCosine ⟨id, id⟩ rankedQuery fun _ _ => 1)
      result := by
  have hasOf : (rankedQuery.asOf <|> sampleReader.defaultAsOf) = some (hlc 5 0) := rfl
  have hparams : rankedParams.postInit rationals = none := by decide +kernel
  have hquery : rankedQuery.postInit rationals = none := by decide +kernel
  exact (computeEvidence_bounded_exact rationals_exact ⟨id, id⟩ hparams ageFactor_rationals hquery
    (fun _ => none) sampleReader hasOf (by decide +kernel)).2.2 (fun _ _ => 1) fun _ _ => rfl

end SemanticMemory.Oracle
