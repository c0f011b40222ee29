import Mathlib
import SemanticMemory.Evidence.Oracle
import SemanticMemory.Lib.Ranking

/-!
# The contributions of events with a cosine

What the two branches of `compute_evidence` share: every event that has a cosine contributes, at its
place among all events with the key (`scores`).  The evidence is the aggregate of what is kept of
these (`evidenceOf`).

* `computeEvidence_eq_ok`: a successful call gives the evidence of the cosines of the branch.
* `Numbers.Ranks`: what is used of the comparison of numbers, on those greater than zero.
* `Numbers.Exact`: exact arithmetic, which ranks.
* `keep_filter`: keeping a part of the contributions that holds everything kept of them all.
-/

namespace SemanticMemory.Oracle

open FactStore Ranking

variable {F : Type}

/-! ## Contributions -/

/-- The contributions of the events with a cosine, in order. -/
def scores (n : Numbers F) (params : OracleParams F) (cosineOf : StoredEvent → Option F)
    (matchOf : StoredEvent → Option ℕ) (events : List StoredEvent) : List (Contribution F) :=
  events.zipIdx.filterMap fun (event, index) =>
    (cosineOf event).map fun cosine =>
      contribution n params events.length index event cosine (matchOf event)

/-- The match of an event's selection in the candidates of a query. -/
def matchOf (t : Texts) (query : OracleQuery F) (event : StoredEvent) : Option ℕ :=
  matchedCandidate t (query.candidates.map t.matchText) event.finalSelectionText

/-- The evidence of the events at a point, for the cosines that they have. -/
def evidenceOf (n : Numbers F) (t : Texts) (params : OracleParams F) (query : OracleQuery F)
    (asOf : Hlc) (events : List StoredEvent) (cosineOf : StoredEvent → Option F) : OracleResult F :=
  aggregate n params asOf (query.key t) (query.candidates.map t.matchText) events.length
    (keep n params (scores n params cosineOf (matchOf t query) events))

/-- The number of events with the key of the query that are later than an event, whatever their
weight. -/
def usageAge (t : Texts) (query : OracleQuery F) (active : List StoredEvent) (event : StoredEvent) :
    ℕ :=
  active.countP fun other => event.orderKey < other.orderKey ∧
    other.eventId ∉ query.excludeEventIds ∧ eventKey t other = query.key t

def exactContribution (n : Numbers F) (t : Texts) (params : OracleParams F) (query : OracleQuery F)
    (active : List StoredEvent) (event : StoredEvent) (cosine : F) : Contribution F :=
  let relevance := n.min (n.max (n.div (n.sub cosine params.tau) (n.sub n.one params.tau)) n.zero)
    n.one
  let factor := ageFactor n (usageAge t query active event) params.halfLife
  { eventId := event.eventId
    commitId := event.commitId
    finalSelectionText := event.finalSelectionText
    hlc := event.hlc
    cosine := cosine
    relevance := relevance
    usageAge := usageAge t query active event
    ageFactor := factor
    weight := n.mul relevance factor
    matchedCandidate := matchOf t query event }

variable {n : Numbers F} {params : OracleParams F} {events : List StoredEvent}

theorem scores_congr {c c' : StoredEvent → Option F} {m : StoredEvent → Option ℕ}
    (h : ∀ e ∈ events, c e = c' e) : scores n params c m events = scores n params c' m events := by
  refine List.filterMap_congr fun entry hentry => ?_
  have hevent := h entry.1 (List.fst_mem_of_mem_zipIdx hentry)
  dsimp only
  rw [hevent]

variable {active : List StoredEvent}

/-- The events with the key keep distinct ids. -/
theorem nodup_sameKey (t : Texts) (query : OracleQuery F)
    (h : (active.map StoredEvent.eventId).Nodup) :
    ((sameKey t query active).map StoredEvent.eventId).Nodup :=
  ((perm_sortEvents _).map _).nodup_iff.mpr (h.sublist (List.filter_sublist.map _))

variable {query : OracleQuery F} {event : StoredEvent} {t : Texts}

theorem mem_sameKey : event ∈ sameKey t query active ↔ event ∈ active ∧
      event.eventId ∉ query.excludeEventIds ∧ eventKey t event = query.key t := by
  rw [sameKey, (perm_sortEvents _).mem_iff, List.mem_filter, decide_eq_true_eq]

/-- The events with the key stand in strict order. -/
theorem sameKey_pairwise (t : Texts) (query : OracleQuery F)
    (h : (active.map StoredEvent.eventId).Nodup) :
    (sameKey t query active).Pairwise fun a b => a.orderKey < b.orderKey := by
  have : IsTrans StoredEvent (fun a b => a.orderKey ≤ b.orderKey) :=
    ⟨fun _ _ _ h h' => le_trans h h'⟩
  have : Std.Total (fun a b : StoredEvent => a.orderKey ≤ b.orderKey) := ⟨fun a b => le_total _ _⟩
  have hle : (sameKey t query active).Pairwise fun a b => a.orderKey ≤ b.orderKey :=
    List.pairwise_insertionSort _ _
  have hne := List.pairwise_map.mp (nodup_sameKey t query h)
  refine (hle.and hne).imp fun {a b} hab => lt_of_le_of_ne hab.1 fun heq => hab.2 ?_
  exact (Prod.mk.inj (toLex.injective heq)).2

/-- The usage age counts along the events with the key. -/
theorem countP_sameKey (t : Texts) (query : OracleQuery F) (active : List StoredEvent)
    (event : StoredEvent) :
    ((sameKey t query active).countP fun other => event.orderKey < other.orderKey) =
      usageAge t query active event := by
  rw [sameKey, (perm_sortEvents _).countP_eq, List.countP_filter, usageAge]
  refine List.countP_congr fun other _ => ?_
  rw [Bool.and_eq_true, decide_eq_true_eq, decide_eq_true_eq, decide_eq_true_eq]

/-- **Each contribution is at the age of its event.** -/
theorem scores_sameKey (n : Numbers F) (t : Texts) (params : OracleParams F) (query : OracleQuery F) (h : (active.map StoredEvent.eventId).Nodup)
    (c : StoredEvent → Option F) :
    scores n params c (matchOf t query) (sameKey t query active) =
      (sameKey t query active).filterMap fun event =>
        (c event).map (exactContribution n t params query active event) := by
  have hages := filterMap_zipIdx_of_sorted StoredEvent.orderKey (fun event age =>
    (c event).map fun cosine =>
      contribution n params (age + 1) 0 event cosine (matchOf t query event))
    (sameKey_pairwise t query h) 0
  simp only [countP_sameKey, Nat.zero_add] at hages
  refine Eq.trans (List.filterMap_congr fun entry _ => ?_) hages
  rfl

/-- No event contributes twice. -/
theorem nodup_scores {c : StoredEvent → Option F} {m : StoredEvent → Option ℕ}
    (h : (events.map StoredEvent.eventId).Nodup) :
    ((scores n params c m events).map Contribution.eventId).Nodup := by
  refine h.sublist ?_
  have hids (entries : List (StoredEvent × ℕ)) (count : ℕ) :
      List.Sublist ((entries.filterMap fun (event, index) => (c event).map fun cosine =>
        contribution n params count index event cosine (m event)).map Contribution.eventId)
        (entries.map fun entry => entry.1.eventId) := by
    induction entries with
    | nil => exact List.Sublist.slnil
    | cons entry entries ih =>
      rcases hc : c entry.1 with _ | cosine
      · simpa [hc] using ih.cons entry.1.eventId
      · simpa [hc, contribution] using ih
  have hevents : (events.zipIdx.map fun entry => entry.1.eventId) =
      events.map StoredEvent.eventId := by
    have hmap := List.map_map (g := StoredEvent.eventId) (f := Prod.fst) (l := events.zipIdx)
    rw [List.zipIdx_map_fst] at hmap
    exact hmap.symm
  exact hevents ▸ hids events.zipIdx events.length

/-! ## The plain branch -/

variable {vectorFor : Text → Option (List F)}

/-- A successful loop has a cosine for every event. -/
theorem plainContributions_eq_ok {query : List F} {count : ℕ} :
    ∀ {events : List StoredEvent} {index : ℕ} {contributions : List (Contribution F)},
      plainContributions n params vectorFor query count index events = .ok contributions →
      contributions = (events.zipIdx index).filterMap fun (event, index) =>
        ((eventCosine n false vectorFor query event).toOption).map fun cosine =>
          contribution n params count index event cosine none
  | [], index, contributions, h => by
    cases h
    rfl
  | event :: rest, index, contributions, h => by
    rw [plainContributions] at h
    rcases hcosine : eventCosine n false vectorFor query event with e | cosine
    · rw [hcosine] at h
      cases h
    rcases hrest : plainContributions n params vectorFor query count (index + 1) rest with
      e | entries
    · rw [hcosine, hrest] at h
      cases h
    rw [hcosine, hrest] at h
    cases h
    rw [plainContributions_eq_ok hrest, List.zipIdx_cons, List.filterMap_cons]
    dsimp only
    rw [hcosine]
    rfl

/-- Sorting looks neither at the match nor changes it. -/
theorem map_keep (f : Contribution F → Contribution F) (hweight : ∀ a, (f a).weight = a.weight)
    (hhlc : ∀ a, (f a).hlc = a.hlc) (hid : ∀ a, (f a).eventId = a.eventId)
    (contributions : List (Contribution F)) :
    (keep n params contributions).map f = keep n params (contributions.map f) := by
  have hfilter : ((contributions.filter fun a => n.lt n.zero a.weight).map f) =
      (contributions.map f).filter fun a => n.lt n.zero a.weight := by
    rw [List.filter_map]
    simp only [Function.comp_def, hweight]
  rw [keep, keep, ← hfilter, List.map_take]
  refine congrArg (List.take params.kEvidence) (List.map_insertionSort _ _ f _ fun a _ b _ => ?_)
  rw [heavier, heavier, hweight, hweight, hhlc, hhlc, hid, hid]

/-- The matches of a plain query, which are looked for last. -/
theorem keep_plain (n : Numbers F) (t : Texts) (params : OracleParams F) (query : OracleQuery F)
    (c : StoredEvent → Option F) (events : List StoredEvent) :
    (keep n params (scores n params c (fun _ => none) events)).map
        (matchEntry t (query.candidates.map t.matchText)) =
      keep n params (scores n params c (matchOf t query) events) := by
  rw [map_keep (matchEntry t (query.candidates.map t.matchText)) (fun _ => rfl) (fun _ => rfl)
    fun _ => rfl, scores, scores, List.map_filterMap]
  refine congrArg (keep n params) (List.filterMap_congr fun entry _ => ?_)
  rw [Option.map_map]
  rfl

/-! ## The cosines -/

theorem asFloatVector_eq_ok {values vector : List F} (h : asFloatVector n values = .ok vector) :
    vector = values := by
  unfold asFloatVector at h
  split_ifs at h
  cases h
  rfl

theorem asFloatVectors_eq_ok : ∀ {values vectors : List (List F)},
    asFloatVectors n values = .ok vectors → vectors = values
  | [], vectors, h => by
    cases h
    rfl
  | value :: values, vectors, h => by
    rw [asFloatVectors] at h
    rcases hvalue : asFloatVector n value with e | vector
    · rw [hvalue] at h
      cases h
    rcases hrest : asFloatVectors n values with e | rest
    · rw [hvalue, hrest] at h
      cases h
    rw [hvalue, hrest] at h
    cases h
    rw [asFloatVector_eq_ok hvalue, asFloatVectors_eq_ok hrest]

/-- The cosine of an event for a query: with the vector of the query, or with that of the candidate
which it selected. -/
def exactCosine (n : Numbers F) (t : Texts) (query : OracleQuery F)
    (vectorFor : Text → Option (List F)) (event : StoredEvent) : Option F :=
  match query.candidateQueryVectors with
  | none => (eventCosine n false vectorFor query.queryVector event).toOption
  | some vectors => (matchOf t query event).bind fun index =>
      (eventCosine n true vectorFor (vectors.getD index []) event).toOption

/-- The cosines found are those of the entries, and every entry has one. -/
theorem pairedCosines_eq_ok {vectors : List (List F)} :
    ∀ {entries : List (ℕ × StoredEvent)} {cosines : List (Text × F)},
      pairedCosines n vectorFor vectors entries = .ok cosines →
      cosines.map Prod.fst = entries.map (fun entry => entry.2.eventId) ∧
      (∀ found ∈ cosines, ∃ entry ∈ entries, entry.2.eventId = found.1 ∧
        eventCosine n true vectorFor (vectors.getD entry.1 []) entry.2 = .ok found.2) ∧
      ∀ entry ∈ entries, ∃ cosine,
        eventCosine n true vectorFor (vectors.getD entry.1 []) entry.2 = .ok cosine
  | [], cosines, h => by
    cases h
    exact ⟨rfl, List.forall_mem_nil _,
      List.forall_mem_nil _⟩
  | (index, event) :: rest, cosines, h => by
    rw [pairedCosines] at h
    rcases hcosine : eventCosine n true vectorFor (vectors.getD index []) event with e | cosine
    · rw [hcosine] at h
      cases h
    rcases hrest : pairedCosines n vectorFor vectors rest with e | others
    · rw [hcosine, hrest] at h
      cases h
    rw [hcosine, hrest] at h
    cases h
    obtain ⟨hids, hfound, hall⟩ := pairedCosines_eq_ok hrest
    refine ⟨by rw [List.map_cons, List.map_cons, hids], fun found hmem => ?_, fun entry hmem => ?_⟩
    · rcases List.mem_cons.mp hmem with rfl | hmem
      · exact ⟨(index, event), List.mem_cons_self, rfl, hcosine⟩
      · obtain ⟨entry, hentry, hcosine⟩ := hfound found hmem
        exact ⟨entry, List.mem_cons_of_mem _ hentry, hcosine⟩
    · rcases List.mem_cons.mp hmem with rfl | hmem
      · exact ⟨cosine, hcosine⟩
      · exact hall entry hmem

theorem mem_pairedEvents {candidates : List Text} {index : ℕ} :
    (index, event) ∈ pairedEvents t candidates events ↔
      event ∈ events ∧ matchedCandidate t candidates event.finalSelectionText = some index := by
  simp only [pairedEvents, List.mem_flatMap, List.mem_eraseDups, List.mem_map, List.mem_filter,
    List.mem_filterMap, Option.map_eq_some_iff, decide_eq_true_eq, Prod.mk.injEq]
  constructor
  · rintro ⟨i, -, ⟨e, he, j, hj, hji, hee⟩, -⟩
    exact hji ▸ hee ▸ ⟨he, hj⟩
  · rintro ⟨he, hindex⟩
    exact ⟨index, ⟨(index, event), ⟨event, he, index, hindex, rfl⟩, rfl⟩,
      ⟨event, he, index, hindex, rfl, rfl⟩, rfl⟩

/-- A mapping whose entries for an id agree. -/
theorem lookup_eq_of_agree {F : Type} {cosines : List (Text × F)} {eventId : Text}
    {value : Option F} (hkeys : value ≠ none → eventId ∈ cosines.map Prod.fst)
    (hvalue : ∀ found ∈ cosines, found.1 = eventId → value = some found.2) :
    cosines.lookup eventId = value := by
  rcases hlookup : cosines.lookup eventId with _ | cosine
  · by_contra hne
    obtain ⟨found, hfound, hid⟩ := List.mem_map.mp (hkeys (Ne.symm hne))
    exact bne_iff_ne.mp (List.lookup_eq_none_iff.mp hlookup found hfound) hid.symm
  · obtain ⟨before, after, hsplit, -⟩ := List.lookup_eq_some_iff.mp hlookup
    have hmem : (eventId, cosine) ∈ cosines := by
      rw [hsplit]
      exact List.mem_append_right before List.mem_cons_self
    exact (hvalue _ hmem rfl).symm

/-- The cosine that a conditioned query finds for an event is that with its candidate's vector. -/
theorem lookup_pairedCosines {vectors : List (List F)}
    {cosines : List (Text × F)} (hvectors : query.candidateQueryVectors = some vectors)
    (hids : (events.map StoredEvent.eventId).Nodup)
    (h : pairedCosines n vectorFor vectors
      (pairedEvents t (query.candidates.map t.matchText) events) = .ok cosines) (hevent : event ∈ events) :
    cosines.lookup event.eventId = exactCosine n t query vectorFor event := by
  obtain ⟨hkeys, hfound, -⟩ := pairedCosines_eq_ok h
  rw [exactCosine, hvectors]
  dsimp only
  refine lookup_eq_of_agree (fun hne => ?_) fun found hmem hid => ?_
  · obtain ⟨index, hmatch⟩ : ∃ index, matchOf t query event = some index := by
      refine Option.ne_none_iff_exists'.mp fun hnone => hne ?_
      rw [hnone, Option.bind_none]
    rw [hkeys]
    exact List.mem_map.mpr ⟨(index, event), mem_pairedEvents.mpr ⟨hevent, hmatch⟩, rfl⟩
  · obtain ⟨⟨index, other⟩, hentry, hid', hcosine⟩ := hfound found hmem
    obtain ⟨hother, hmatch⟩ := mem_pairedEvents.mp hentry
    obtain rfl : other = event := List.inj_on_of_nodup_map hids hother hevent (hid'.trans hid)
    have hmatch' : matchOf t query other = some index := hmatch
    rw [hmatch', Option.bind_some, hcosine]
    rfl

/-- **A successful call gives the evidence of its cosines.** -/
theorem computeEvidence_eq_ok {reader : Reader} {asOf : Hlc}
    (hasOf : (query.asOf <|> reader.defaultAsOf) = some asOf)
    (hids : ((reader.readActiveEvents asOf).map StoredEvent.eventId).Nodup)
    {result : OracleResult F} (h : computeEvidence n t reader params query vectorFor = .ok result) :
    result = evidenceOf n t params query asOf (sameKey t query (reader.readActiveEvents asOf))
      (exactCosine n t query vectorFor) := by
  have hsame := nodup_sameKey t query hids
  rw [computeEvidence, hasOf] at h
  dsimp only at h
  rcases hvectors : query.candidateQueryVectors with _ | values
  · rw [hvectors] at h
    dsimp only at h
    rcases hvector : asFloatVector n query.queryVector with e | vector
    · rw [hvector] at h
      cases h
    rw [hvector] at h
    dsimp only at h
    obtain rfl := asFloatVector_eq_ok hvector
    split at h
    · cases h
    · rename_i contributions hcontributions
      cases h
      rw [plainContributions_eq_ok hcontributions, evidenceOf, ← keep_plain]
      have hcosine : exactCosine n t query vectorFor = fun event =>
          (eventCosine n false vectorFor query.queryVector event).toOption := by
        funext event
        rw [exactCosine, hvectors]
      rw [hcosine]
      rfl
  · rw [hvectors] at h
    dsimp only at h
    rcases hvalues : asFloatVectors n values with e | vectors
    · rw [hvalues] at h
      cases h
    rw [hvalues] at h
    dsimp only at h
    obtain rfl := asFloatVectors_eq_ok hvalues
    split at h
    · cases h
    · rename_i cosines hcosines
      cases h
      rw [evidenceOf, scores_congr fun event hevent =>
        (lookup_pairedCosines hvectors hsame hcosines hevent).symm]
      rfl

/-! ## What is kept -/

/-- What is used of the comparison of numbers: that it orders those greater than zero. -/
structure Numbers.Ranks (n : Numbers F) : Prop where
  irrefl : ∀ a, n.lt n.zero a = true → n.lt (n.neg a) (n.neg a) = false
  trans : ∀ a b c, n.lt n.zero a = true → n.lt n.zero b = true → n.lt n.zero c = true →
    n.lt (n.neg a) (n.neg b) = true → n.lt (n.neg b) (n.neg c) = true →
      n.lt (n.neg a) (n.neg c) = true
  trichotomy : ∀ a b, n.lt n.zero a = true → n.lt n.zero b = true →
    n.lt (n.neg a) (n.neg b) = true ∨ a = b ∨ n.lt (n.neg b) (n.neg a) = true
  eq_iff : ∀ a b, n.lt n.zero a = true → n.lt n.zero b = true →
    (n.eq (n.neg a) (n.neg b) = true ↔ a = b)

/-- The contributions that pass the threshold. -/
def Passed (n : Numbers F) (entry : Contribution F) : Prop := n.lt n.zero entry.weight = true

theorem Numbers.Ranks.heavier_iff (hn : n.Ranks) {a b : Contribution F} (ha : Passed n a)
    (hb : Passed n b) : heavier n a b = true ↔
      n.lt (n.neg a.weight) (n.neg b.weight) = true ∨ (a.weight = b.weight ∧
        (toLex (a.hlc, a.eventId) : Hlc ×ₗ Text) ≤ toLex (b.hlc, b.eventId)) := by
  rw [heavier, Bool.or_eq_true, Bool.and_eq_true, decide_eq_true_eq, hn.eq_iff _ _ ha hb]

/-- No number lies below itself by way of another. -/
theorem Numbers.Ranks.asymm (hn : n.Ranks) {a b : F} (ha : n.lt n.zero a = true)
    (hb : n.lt n.zero b = true) (h : n.lt (n.neg a) (n.neg b) = true) :
    n.lt (n.neg b) (n.neg a) ≠ true := by
  intro h'
  have hself := hn.trans a b a ha hb ha h h'
  rw [hn.irrefl a ha] at hself
  exact Bool.false_ne_true hself

/-- The order of the kept contributions is linear. -/
theorem Numbers.Ranks.linearOn (hn : n.Ranks) :
    LinearOn (Passed n) (fun a b => heavier n a b = true) where
  total a b ha hb := by
    rw [hn.heavier_iff ha hb, hn.heavier_iff hb ha]
    rcases hn.trichotomy a.weight b.weight ha hb with h | h | h
    · exact .inl (.inl h)
    · rcases le_total (toLex (a.hlc, a.eventId) : Hlc ×ₗ Text) (toLex (b.hlc, b.eventId)) with
        hle | hle
      · exact .inl (.inr ⟨h, hle⟩)
      · exact .inr (.inr ⟨h.symm, hle⟩)
    · exact .inr (.inl h)
  trans a b c ha hb hc := by
    rw [hn.heavier_iff ha hb, hn.heavier_iff hb hc, hn.heavier_iff ha hc]
    rintro (hab | ⟨hab, hle⟩) (hbc | ⟨hbc, hle'⟩)
    · exact .inl (hn.trans _ _ _ ha hb hc hab hbc)
    · exact .inl (hbc ▸ hab)
    · exact .inl (hab ▸ hbc)
    · exact .inr ⟨hab.trans hbc, hle.trans hle'⟩

/-- Two contributions that stand before each other are of one event. -/
theorem Numbers.Ranks.eventId_eq (hn : n.Ranks) {a b : Contribution F} (ha : Passed n a)
    (hb : Passed n b) (hab : heavier n a b = true) (hba : heavier n b a = true) :
    a.eventId = b.eventId := by
  have hirrefl {x : F} (hx : n.lt n.zero x = true) : n.lt (n.neg x) (n.neg x) ≠ true := by
    rw [hn.irrefl x hx]
    exact Bool.false_ne_true
  rcases (hn.heavier_iff ha hb).mp hab with h | ⟨heq, hle⟩
  · rcases (hn.heavier_iff hb ha).mp hba with h' | ⟨heq, -⟩
    · exact absurd h' (hn.asymm ha hb h)
    · exact absurd (heq ▸ h) (hirrefl ha)
  · rcases (hn.heavier_iff hb ha).mp hba with h' | ⟨-, hle'⟩
    · exact absurd (heq ▸ h') (hirrefl hb)
    · exact (Prod.mk.inj (toLex.injective (le_antisymm hle hle'))).2

/-- **A part that holds what is kept of all keeps the same.** -/
theorem keep_filter (hn : n.Ranks) {contributions : List (Contribution F)}
    (hids : (contributions.map Contribution.eventId).Nodup) (p : Contribution F → Bool)
    (hkept : ∀ entry ∈ keep n params contributions, p entry = true) :
    keep n params (contributions.filter p) = keep n params contributions := by
  have hpassed : ∀ a ∈ contributions.filter (fun a => n.lt n.zero a.weight), Passed n a :=
    fun a ha => (List.mem_filter.mp ha).2
  have hanti : ∀ a ∈ contributions.filter (fun a => n.lt n.zero a.weight),
      ∀ b ∈ contributions.filter (fun a => n.lt n.zero a.weight),
        heavier n a b = true → heavier n b a = true → a = b := by
    intro a ha b hb hab hba
    exact List.inj_on_of_nodup_map hids (List.mem_of_mem_filter ha) (List.mem_of_mem_filter hb)
      (hn.eventId_eq (hpassed a ha) (hpassed b hb) hab hba)
  have hnodup := (List.Nodup.of_map _ hids).filter fun a => n.lt n.zero a.weight
  have hcomm : (contributions.filter p).filter (fun a => n.lt n.zero a.weight) =
      (contributions.filter fun a => n.lt n.zero a.weight).filter p :=
    List.filter_comm _ _ _
  rw [keep, keep, hcomm]
  exact hn.linearOn.take_insertionSort_filter hpassed hanti hnodup p hkept

/-- What is kept of the contributions at a point is the contribution of an event with the key. -/
theorem mem_keep_scores (h : (active.map StoredEvent.eventId).Nodup)
    {c : StoredEvent → Option F} {entry : Contribution F}
    (hentry : entry ∈ keep n params
      (scores n params c (matchOf t query) (sameKey t query active))) :
    ∃ event ∈ sameKey t query active, ∃ cosine, c event = some cosine ∧
      entry = exactContribution n t params query active event cosine := by
  have hmem : entry ∈ scores n params c (matchOf t query) (sameKey t query active) :=
    List.mem_of_mem_filter ((List.perm_insertionSort _ _).mem_iff.mp (List.mem_of_mem_take hentry))
  rw [scores_sameKey n t params query h] at hmem
  obtain ⟨event, hevent, hsome⟩ := List.mem_filterMap.mp hmem
  obtain ⟨cosine, hcosine, rfl⟩ := Option.map_eq_some_iff.mp hsome
  exact ⟨event, hevent, cosine, hcosine, rfl⟩

/-! ## Exact numbers -/

/-- Numbers whose arithmetic and comparison are those of an ordered field.  Nothing is said of
powers and roots. -/
structure Numbers.Exact [Field F] [LinearOrder F] (n : Numbers F) : Prop where
  zero : n.zero = 0
  one : n.one = 1
  add : ∀ a b, n.add a b = a + b
  sub : ∀ a b, n.sub a b = a - b
  mul : ∀ a b, n.mul a b = a * b
  div : ∀ a b, n.div a b = a / b
  neg : ∀ a, n.neg a = -a
  sum : ∀ l, n.sum l = l.sum
  lt_iff : ∀ a b, n.lt a b = true ↔ a < b
  eq_iff : ∀ a b, n.eq a b = true ↔ a = b

theorem Numbers.Exact.ranks [Field F] [LinearOrder F] [IsStrictOrderedRing F] (hn : n.Exact) :
    n.Ranks where
  irrefl a _ := by
    rw [Bool.eq_false_iff, Ne, hn.lt_iff]
    exact lt_irrefl _
  trans a b c _ _ _ := by
    rw [hn.lt_iff, hn.lt_iff, hn.lt_iff]
    exact lt_trans
  trichotomy a b _ _ := by
    rw [hn.lt_iff, hn.lt_iff, hn.neg, hn.neg, neg_lt_neg_iff, neg_lt_neg_iff]
    rcases lt_trichotomy b a with h | h | h
    · exact .inl h
    · exact .inr (.inl h.symm)
    · exact .inr (.inr h)
  eq_iff a b _ _ := by
    rw [hn.eq_iff, hn.neg, hn.neg, neg_inj]

/-- Rational numbers, with the powers of two and the roots of 0 and 1. -/
def rationals : Numbers ℚ where
  zero := 0
  one := 1
  two := 2
  ofNat k := k
  add := (· + ·)
  sub := (· - ·)
  mul := (· * ·)
  div := (· / ·)
  pow a b := a ^ b.floor
  neg := (- ·)
  sqrt := id
  sum := List.sum
  lt a b := decide (a < b)
  eq a b := decide (a = b)
  isFinite _ := true
  isInf _ := false

theorem rationals_exact : rationals.Exact where
  zero := rfl
  one := rfl
  add _ _ := rfl
  sub _ _ := rfl
  mul _ _ := rfl
  div _ _ := rfl
  neg _ := rfl
  sum _ := rfl
  lt_iff _ _ := decide_eq_true_iff
  eq_iff _ _ := decide_eq_true_iff

/-- Two events that selected the texts 5 and 6, and one with another key. -/
def sampleReader : Reader where
  readActiveEvents _ :=
    [ { eventId := [2], commitId := [9], schemaId := [2], canonicalSegmentInput := [3],
        category := [4], finalSelectionText := [6], hlc := hlc 2 0 },
      { eventId := [3], commitId := [9], schemaId := [7], canonicalSegmentInput := [3],
        category := [4], finalSelectionText := [5], hlc := hlc 3 0 },
      { eventId := [1], commitId := [8], schemaId := [2], canonicalSegmentInput := [3],
        category := [4], finalSelectionText := [5], hlc := hlc 1 0 } ]
  defaultAsOf := some (hlc 5 0)

/-- The query of their key, conditioned on its two candidates. -/
def rankedQuery : OracleQuery ℚ where
  schemaId := [2]
  canonicalSegmentInput := [3]
  candidates := [[5], [6]]
  queryVector := []
  category := [4]
  candidateQueryVectors := some [[1], [1]]

/-- One event is kept. -/
def rankedParams : OracleParams ℚ := ⟨0, 1, 1, 1⟩

end SemanticMemory.Oracle
