import SemanticMemory.Facts.Readers

/-!
# Snapshots of the delta machine

A snapshot (`daemon/delta.py`) is projected from a base generation, frozen at its source watermark,
and the changes absorbed since.  Base rows carry no commit; a separate map read from the facts gives
it, so that a tombstone reaches them.

* `buildSnapshot` is `_build_snapshot`, `projectActive` is `_project_active`.
* A vector is known by the representation that computed it: `vectors` gives it by event id.  Its
  numbers, and the engines built on them, are left out.
* `buildSnapshot_serves`: over a generation of the facts and a mirror of them, the snapshot holds
  exactly the events active at the consumed watermark, in the order of the fact readers.
-/

namespace SemanticMemory
namespace Delta

open FactStore

/-- The identity of a `RepresentationProvider`, and whether it embeds a query once for every
candidate. -/
structure Provider where
  representationId : Text
  vectorDimension : ℕ
  candidateConditioned : Bool := false
  deriving DecidableEq

inductive RetrievalBackend where
  | oracle | accelerate | mlx | usearch | hnswlib
  deriving DecidableEq

/-- `ANN_BACKENDS`. -/
def RetrievalBackend.isAnn : RetrievalBackend → Bool
  | .usearch | .hnswlib => true
  | .oracle | .accelerate | .mlx => false

/-- A row of `metadata.json`, its choice problem key spelled out. -/
structure GenerationRow where
  eventId : Text
  schemaId : Text
  category : Text
  canonicalSegmentInput : Text
  candidate : Text
  hlc : Hlc
  deriving DecidableEq

/-- `_metadata_row` of an event. -/
def metadataRow (event : StoredEvent) : GenerationRow where
  eventId := event.eventId
  schemaId := event.schemaId
  category := event.category
  canonicalSegmentInput := event.canonicalSegmentInput
  candidate := event.finalSelectionText
  hlc := event.hlc

/-- `Generation`: an immutable container over the facts at `sourceHlc`, with a vector of its
representation for every row. -/
structure Generation where
  generationId : Text
  storeEpoch : Text
  representationId : Text
  vectorDimension : ℕ
  retrievalBackend : RetrievalBackend := .oracle
  sourceHlc : Hlc
  rows : List GenerationRow

/-- The rows `build_generation` derives at a watermark. -/
def generationRows (db : Db) (sourceHlc : Hlc) : List GenerationRow :=
  (readActiveEvents db sourceHlc).map metadataRow

/-- The `checkpoint` argument of `_build_snapshot`: the absorbed changes and how far they reach. -/
structure Changes where
  events : List StoredEvent
  retractions : List Tombstone
  consumed : Hlc
  changeSeq : ℤ

structure DeltaSnapshot where
  storeEpoch : Text
  baseGenerationId : Text
  representationId : Text
  vectorDimension : ℕ
  retrievalBackend : RetrievalBackend
  consumed : Hlc
  changeSeq : ℤ
  activeEvents : List StoredEvent
  /-- `vector_for`, on the active events. -/
  vectors : List (Text × Text)
  queryProvider : Provider
  deriving DecidableEq

def projectActive (items : List StoredEvent) (retractions : List Tombstone) : List StoredEvent :=
  sortEvents (items.filter fun item => item.commitId ∉ retractions.map Prod.fst)

/-- `base_commits.get(event_id)`. -/
def commitOf (baseCommits : List (Text × Text)) (eventId : Text) : Option Text :=
  (baseCommits.find? fun entry => entry.1 = eventId).map Prod.snd

/-- The base items; `none` is the `DeltaRejected` of a row without a fact commit. -/
def baseItems (baseCommits : List (Text × Text)) : List GenerationRow → Option (List StoredEvent)
  | [] => some []
  | row :: rows =>
    match commitOf baseCommits row.eventId, baseItems baseCommits rows with
    | some commitId, some items =>
      some ({ eventId := row.eventId, commitId
              schemaId := row.schemaId
              canonicalSegmentInput := row.canonicalSegmentInput
              category := row.category
              finalSelectionText := row.candidate
              hlc := row.hlc } :: items)
    | _, _ => none

/-- `vector_for`: a row of the mirror has its own vector, a base row the generation's. -/
def sourceVector (generation : Generation) (deltaVectors : List (Text × Text)) (eventId : Text) :
    Option Text :=
  match deltaVectors.find? fun entry => entry.1 = eventId with
  | some entry => some entry.2
  | none =>
    if generation.rows.any fun row => row.eventId = eventId then some generation.representationId
    else none

/-- `_build_snapshot`; `deltaVectors` are the vectors of the checkpoint's events. -/
def buildSnapshot (generation : Generation) (provider : Provider)
    (baseCommits : List (Text × Text)) (checkpoint : Changes) (deltaVectors : List (Text × Text)) :
    Option DeltaSnapshot :=
  (baseItems baseCommits generation.rows).map fun items =>
    let activeEvents := projectActive (items ++ checkpoint.events) checkpoint.retractions
    { storeEpoch := generation.storeEpoch
      baseGenerationId := generation.generationId
      representationId := generation.representationId
      vectorDimension := generation.vectorDimension
      retrievalBackend := generation.retrievalBackend
      consumed := checkpoint.consumed
      changeSeq := checkpoint.changeSeq
      activeEvents
      vectors := activeEvents.filterMap fun event =>
        (sourceVector generation deltaVectors event.eventId).map fun vector =>
          (event.eventId, vector)
      queryProvider := provider }

/-! ## What a snapshot serves -/

/-- The generation holds the facts of its watermark, which the clock has reached. -/
structure Generation.Of (db : Db) (generation : Generation) : Prop where
  rows : generation.rows = generationRows db generation.sourceHlc
  le_clock : generation.sourceHlc ≤ db.clock

theorem Generation.Of.extend {db db' : Db} {generation : Generation} (h : generation.Of db)
    (hext : Extends db db') : generation.Of db' where
  rows := by
    have hsame : (readActiveEvents db' generation.sourceHlc).map StoredEvent.served =
        (readActiveEvents db generation.sourceHlc).map StoredEvent.served := by
      rw [served_readActiveEvents, served_readActiveEvents, hext.activeAsOf h.le_clock]
    have hrow : metadataRow = metadataRow ∘ StoredEvent.served := rfl
    rw [h.rows, generationRows, generationRows, hrow, ← List.map_map, ← List.map_map, hsame]
  le_clock := h.le_clock.trans hext.clock

/-- The changes mirror the facts after the watermark. -/
def Changes.Of (db : Db) (sourceHlc : Hlc) (changes : Changes) : Prop :=
  AsOf.Mirror shown (seen db) (seenRetractions db) sourceHlc changes.consumed changes.events
      changes.retractions ∧ changes.consumed ≤ db.clock

theorem Changes.Of.extend {db db' : Db} {sourceHlc : Hlc} {changes : Changes}
    (h : changes.Of db sourceHlc) (hext : Extends db db') : changes.Of db' sourceHlc :=
  ⟨hext.mirror h.2 h.1, h.2.trans hext.clock⟩

/-- The snapshot is what the fact readers see at its watermark. -/
def DeltaSnapshot.Serves (db : Db) (snapshot : DeltaSnapshot) : Prop :=
  snapshot.activeEvents = (readActiveEvents db snapshot.consumed).map StoredEvent.served ∧
    snapshot.consumed ≤ db.clock

theorem DeltaSnapshot.Serves.extend {db db' : Db} {snapshot : DeltaSnapshot}
    (h : snapshot.Serves db) (hext : Extends db db') : snapshot.Serves db' := by
  refine ⟨?_, h.2.trans hext.clock⟩
  rw [h.1, served_readActiveEvents, served_readActiveEvents, hext.activeAsOf h.2]

/-- The commit map knows every event up to its point. -/
theorem commitOf_readBaseCommitIds {db : Db} (h : Settled db) {p : Hlc} {x : StoredEvent}
    (hx : x ∈ seen db) (hp : x.hlc ≤ p) :
    commitOf (readBaseCommitIds db p) x.eventId = some x.commitId := by
  have hmem : (x.eventId, x.commitId) ∈ readBaseCommitIds db p := by
    rw [readBaseCommitIds_eq]
    exact List.mem_map.mpr ⟨x, List.mem_filter.mpr ⟨hx, by simpa using hp⟩, rfl⟩
  unfold commitOf
  cases hfind : (readBaseCommitIds db p).find? fun entry => entry.1 = x.eventId with
  | none => simpa using List.find?_eq_none.mp hfind _ hmem
  | some entry =>
    have hid : entry.1 = x.eventId := by simpa using List.find?_some hfind
    have hentry := List.mem_of_find?_eq_some hfind
    rw [readBaseCommitIds_eq] at hentry
    obtain ⟨y, hy, rfl⟩ := List.mem_map.mp hentry
    obtain rfl := h.eq_of_eventId (List.mem_filter.mp hy).1 hx hid
    rfl

theorem baseItems_metadataRow {db : Db} (h : Settled db) {p : Hlc} {events : List StoredEvent}
    (hmem : ∀ x ∈ events, x.served ∈ seen db ∧ x.hlc ≤ p) :
    baseItems (readBaseCommitIds db p) (events.map metadataRow) =
      some (events.map StoredEvent.served) := by
  induction events with
  | nil => rfl
  | cons x events ih =>
    obtain ⟨hx, hp⟩ := hmem x List.mem_cons_self
    have hcommit : commitOf (readBaseCommitIds db p) (metadataRow x).eventId = some x.commitId :=
      commitOf_readBaseCommitIds h (x := x.served) hx hp
    rw [List.map_cons, baseItems, hcommit, ih fun y hy => hmem y (List.mem_cons_of_mem _ hy)]
    rfl

/-- Two lists of shown events with the same members sort alike. -/
theorem sortEvents_congr {db : Db} (h : Settled db) {l₁ l₂ : List StoredEvent}
    (hseen : ∀ x ∈ l₁, x ∈ seen db) (hnd₁ : l₁.Nodup) (hnd₂ : l₂.Nodup)
    (hmem : ∀ x, x ∈ l₁ ↔ x ∈ l₂) : sortEvents l₁ = sortEvents l₂ := by
  refine AsOf.sort_congr (fun a ha b hb hkey => ?_) hnd₁ hnd₂ hmem
  have hid : a.eventId = b.eventId := (Prod.mk.inj (toLex.injective hkey)).2
  exact h.eq_of_eventId (hseen a ha) (hseen b hb) hid

/-- **A snapshot serves the facts.** -/
theorem buildSnapshot_serves {db : Db} (h : Settled db) {generation : Generation}
    (hgen : generation.Of db) {changes : Changes} (hchanges : changes.Of db generation.sourceHlc)
    (provider : Provider) (deltaVectors : List (Text × Text)) :
    ∃ snapshot, buildSnapshot generation provider (readBaseCommitIds db generation.sourceHlc)
        changes deltaVectors = some snapshot ∧ snapshot.Serves db ∧ snapshot.consumed = changes.consumed ∧
        snapshot.changeSeq = changes.changeSeq := by
  set p := generation.sourceHlc with hp
  obtain ⟨hmirror, hclock⟩ := hchanges
  have hactive : (readActiveEvents db p).map StoredEvent.served =
      sortEvents (AsOf.activeAsOf shown (seen db) (seenRetractions db) p) :=
    served_readActiveEvents db p
  have hbase : ∀ x ∈ readActiveEvents db p, x.served ∈ seen db ∧ x.hlc ≤ p := by
    intro x hx
    have hx' : x.served ∈ AsOf.activeAsOf shown (seen db) (seenRetractions db) p := by
      rw [← (perm_sortEvents _).mem_iff, ← hactive]
      exact List.mem_map_of_mem hx
    exact ⟨(AsOf.mem_activeAsOf.mp hx').1, (AsOf.mem_activeAsOf.mp hx').2.1⟩
  have hitems := baseItems_metadataRow h hbase
  refine ⟨_, by rw [buildSnapshot, hgen.rows, generationRows, hitems]; rfl, ⟨?_, hclock⟩, rfl, rfl⟩
  show projectActive ((readActiveEvents db p).map StoredEvent.served ++ changes.events)
    changes.retractions = (readActiveEvents db changes.consumed).map StoredEvent.served
  rw [hactive, served_readActiveEvents, projectActive]
  refine sortEvents_congr h (fun x hx => ?_) ?_ ?_ fun x => ?_
  · rcases List.mem_append.mp (List.mem_filter.mp hx).1 with hx | hx
    · exact (AsOf.mem_activeAsOf.mp ((perm_sortEvents _).mem_iff.mp hx)).1
    · exact (AsOf.mem_entriesIn.mp (hmirror.sound x hx)).1
  · refine List.Nodup.filter _ (List.nodup_append.mpr
      ⟨(perm_sortEvents _).nodup_iff.mpr (h.nodup_seen.filter _), hmirror.nodup, ?_⟩)
    rintro x hx y hy rfl
    have hle := (AsOf.mem_activeAsOf.mp ((perm_sortEvents _).mem_iff.mp hx)).2.1
    exact absurd (AsOf.mem_entriesIn.mp (hmirror.sound x hy)).2.1 (not_lt.mpr hle)
  · exact h.nodup_seen.filter _
  · rw [hmirror.mem_activeAsOf h.tombsAfter, List.mem_filter, List.mem_append,
      (perm_sortEvents _).mem_iff]
    refine and_congr Iff.rfl ?_
    simp only [List.mem_map, not_exists, not_and, decide_eq_true_eq]
    rfl

end Delta
end SemanticMemory
