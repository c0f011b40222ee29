import SemanticMemory.Delta.Snapshot

/-!
# The delta checkpoint

The SQLite file that lets a restart skip the replay (`daemon/delta.py`): the rows and tombstones
absorbed since the base watermark, each under its change sequence number, and a meta table with the
identity they belong to and the consumed watermark.

* A missing file is the empty one: both are rejected at load and both are filled by the next write.
* `openDeltaCheckpoint`, `writeBatch` and `recordBlocked` are the three uses of the file.  A
  transaction that fails leaves it alone; that a `COMMIT` reports a failure although it is durable,
  or that the process dies right after it, is an outcome of its own (`CheckpointCommit`).
* `Inserted` says what a batch of inserts that meets no conflict does to the file, and
  `insertChanges_inserted` proves it of the loop.
-/

namespace SemanticMemory
namespace Delta

open FactStore

/-- The identity keys of the meta table. -/
structure CheckpointMeta where
  baseGenerationId : Text
  storeEpoch : Text
  representationId : Text
  vectorDimension : ℕ
  baseHlc : Hlc
  consumed : Hlc
  changeSeq : ℤ

/-- A row of `delta_events`, its vector known by its representation. -/
structure EventEntry where
  event : StoredEvent
  changeSeq : ℤ
  vector : Text

/-- A row of `retractions`. -/
structure RetractionEntry where
  tombstone : Tombstone
  changeSeq : ℤ

structure CheckpointFile where
  metaRows : Option CheckpointMeta := none
  deltaEvents : List EventEntry := []
  retractions : List RetractionEntry := []
  blocked : Bool := false

/-- The events, `ORDER BY change_seq`. -/
def CheckpointFile.events (f : CheckpointFile) : List StoredEvent :=
  (f.deltaEvents.insertionSort fun a b => a.changeSeq ≤ b.changeSeq).map EventEntry.event

/-- Their vectors, by event id. -/
def CheckpointFile.vectors (f : CheckpointFile) : List (Text × Text) :=
  (f.deltaEvents.insertionSort fun a b => a.changeSeq ≤ b.changeSeq).map fun r =>
    (r.event.eventId, r.vector)

/-- The tombstones, `ORDER BY change_seq`. -/
def CheckpointFile.tombstones (f : CheckpointFile) : List Tombstone :=
  (f.retractions.insertionSort fun a b => a.changeSeq ≤ b.changeSeq).map RetractionEntry.tombstone

variable {f : CheckpointFile}

@[simp] theorem CheckpointFile.mem_events {x : StoredEvent} :
    x ∈ f.events ↔ ∃ r ∈ f.deltaEvents, r.event = x := by
  rw [CheckpointFile.events, List.mem_map]
  exact exists_congr fun r => and_congr_left' (List.perm_insertionSort _ _).mem_iff

@[simp] theorem CheckpointFile.mem_tombstones {t : Tombstone} :
    t ∈ f.tombstones ↔ ∃ r ∈ f.retractions, r.tombstone = t := by
  rw [CheckpointFile.tombstones, List.mem_map]
  exact exists_congr fun r => and_congr_left' (List.perm_insertionSort _ _).mem_iff

/-- The sequence numbers of all rows. -/
def CheckpointFile.rowSeqs (f : CheckpointFile) : List ℤ :=
  f.deltaEvents.map EventEntry.changeSeq ++ f.retractions.map RetractionEntry.changeSeq

def CheckpointFile.maxRowSeq (f : CheckpointFile) : ℤ := f.rowSeqs.foldl max (-1)

theorem le_foldl_max {l : List ℤ} {a x : ℤ} (hx : x ∈ l) : x ≤ l.foldl max a := by
  induction l generalizing a with
  | nil => simp at hx
  | cons y l ih =>
    rcases List.mem_cons.mp hx with rfl | hx
    · have hle (m : List ℤ) (b : ℤ) : b ≤ m.foldl max b := by
        induction m generalizing b with
        | nil => exact le_refl b
        | cons c m ihm => exact (le_max_left b c).trans (ihm (max b c))
      exact (le_max_right a x).trans (hle l (max a x))
    · exact ih hx

/-- A row's number is at most the largest. -/
theorem CheckpointFile.le_maxRowSeq {s : ℤ} (hs : s ∈ f.rowSeqs) : s ≤ f.maxRowSeq :=
  le_foldl_max hs

/-! ## Loading -/

/-- What the loader finds in a file: changes, and whether a block is recorded. -/
structure Loaded where
  changes : Changes
  vectors : List (Text × Text)
  blocked : Bool

/-- `open_delta_checkpoint`; `none` is `DeltaRejected`.  `readable` stands for everything SQLite and
the stored vectors decide: the file checks, the pragmas, `quick_check`, every read and every
vector. -/
def openDeltaCheckpoint (readable : Bool) (f : CheckpointFile) (generation : Generation)
    (representationId : Text) (db : Db) : Option Loaded :=
  match f.metaRows, readFactsIdentity db with
  | some row, some (factsEpoch, factsMax) =>
    if readable = true ∧ row.baseGenerationId = generation.generationId ∧
        row.storeEpoch = generation.storeEpoch ∧ row.representationId = representationId ∧
        row.vectorDimension = generation.vectorDimension ∧
        row.baseHlc = generation.sourceHlc ∧ factsEpoch = generation.storeEpoch ∧
        row.baseHlc ≤ row.consumed ∧ row.consumed ≤ factsMax ∧ -1 ≤ row.changeSeq ∧
        f.maxRowSeq = row.changeSeq ∧ ∀ r ∈ f.deltaEvents, row.baseHlc < r.event.hlc then
      some
        { changes :=
            { events := f.events, retractions := f.tombstones, consumed := row.consumed
              changeSeq := row.changeSeq }
          vectors := f.vectors
          blocked := f.blocked }
    else none
  | _, _ => none

variable {representationId : Text}

theorem openDeltaCheckpoint_eq_some {readable : Bool} {generation : Generation} {db : Db}
    {loaded : Loaded}
    (h : openDeltaCheckpoint readable f generation representationId db = some loaded) :
    ∃ row, f.metaRows = some row ∧ row.baseHlc = generation.sourceHlc ∧ -1 ≤ row.changeSeq ∧
      f.maxRowSeq = row.changeSeq ∧ (∀ r ∈ f.deltaEvents, row.baseHlc < r.event.hlc) ∧
      loaded.changes = ⟨f.events, f.tombstones, row.consumed, row.changeSeq⟩ := by
  unfold openDeltaCheckpoint at h
  split at h
  · rename_i row factsEpoch factsMax hrow hid
    split at h
    · rename_i hchecks
      obtain ⟨-, -, -, -, -, hbase, -, -, -, hseq, hmax, hrows⟩ := hchecks
      cases h
      exact ⟨row, hrow, hbase, hseq, hmax, hrows, rfl⟩
    · cases h
  · cases h

/-! ## Writing -/

/-- One entry of `merged`. -/
inductive Change where
  | event (event : StoredEvent)
  | retraction (tombstone : Tombstone)

/-- The sort key `(hlc, event_id or commit_id, kind)`. -/
def Change.key : Change → Hlc ×ₗ Text ×ₗ ℕ
  | .event x => toLex (x.hlc, toLex (x.eventId, 0))
  | .retraction t => toLex (t.2, toLex (t.1, 1))

/-- The events of a batch whose commit the batch does not retract. -/
def survivors (events : List StoredEvent) (retractions : List Tombstone) : List StoredEvent :=
  events.filter fun event => event.commitId ∉ retractions.map Prod.fst

/-- The merged changes of a batch, in the order they are numbered. -/
def mergedChanges (events : List StoredEvent) (retractions : List Tombstone) : List Change :=
  ((survivors events retractions).map Change.event ++ retractions.map Change.retraction)
    |>.insertionSort fun a b => a.key ≤ b.key

def Change.event? : Change → Option StoredEvent
  | .event x => some x.served
  | .retraction _ => none

def Change.tombstone? : Change → Option Tombstone
  | .event _ => none
  | .retraction t => some t

theorem mem_mergedChanges_event {events : List StoredEvent} {retractions : List Tombstone}
    {x : StoredEvent} :
    x ∈ (mergedChanges events retractions).filterMap Change.event? ↔
      x ∈ (survivors events retractions).map StoredEvent.served := by
  rw [mergedChanges, ((List.perm_insertionSort _ _).filterMap _).mem_iff]
  simp [Change.event?]

theorem mem_mergedChanges_tombstone {events : List StoredEvent} {retractions : List Tombstone}
    {t : Tombstone} :
    t ∈ (mergedChanges events retractions).filterMap Change.tombstone? ↔ t ∈ retractions := by
  rw [mergedChanges, ((List.perm_insertionSort _ _).filterMap _).mem_iff]
  simp [Change.tombstone?]

/-- One `INSERT`; `none` is a primary key or uniqueness conflict. -/
def insertChange (representationId : Text) (seq : ℤ) (f : CheckpointFile) :
    Change → Option CheckpointFile
  | .event event =>
    if f.deltaEvents.any fun r => r.event.eventId = event.eventId ∨ r.changeSeq = seq then none
    else some { f with deltaEvents := f.deltaEvents ++ [⟨event.served, seq, representationId⟩] }
  | .retraction tombstone =>
    if f.retractions.any fun r => r.tombstone.1 = tombstone.1 ∨ r.changeSeq = seq then none
    else some { f with retractions := f.retractions ++ [⟨tombstone, seq⟩] }

/-- The loop over `merged`, whose events a provider of the representation embedded; also the
sequence number it ends at. -/
def insertChanges (representationId : Text) :
    ℤ → List Change → CheckpointFile → Option (CheckpointFile × ℤ)
  | seq, [], f => some (f, seq)
  | seq, change :: rest, f =>
    match insertChange representationId (seq + 1) f change with
    | none => none
    | some f => insertChanges representationId (seq + 1) rest f

/-- What inserts without a conflict do. -/
structure Inserted (seq : ℤ) (merged : List Change) (f f' : CheckpointFile) (seq' : ℤ) : Prop where
  events : ∀ x, x ∈ f'.events ↔ x ∈ f.events ∨ x ∈ merged.filterMap Change.event?
  tombstones : ∀ t, t ∈ f'.tombstones ↔ t ∈ f.tombstones ∨ t ∈ merged.filterMap Change.tombstone?
  eventIds : (f.deltaEvents.map fun r => r.event.eventId).Nodup →
    (f'.deltaEvents.map fun r => r.event.eventId).Nodup
  rowSeqs : ∀ s ∈ f'.rowSeqs, s ∈ f.rowSeqs ∨ seq < s
  count : seq' = seq + merged.length
  last : merged ≠ [] → seq' ∈ f'.rowSeqs
  keeps : ∀ s ∈ f.rowSeqs, s ∈ f'.rowSeqs
  blocked : f'.blocked = f.blocked

theorem insertChange_inserted {seq : ℤ} {change : Change}
    {f f' : CheckpointFile} (h : insertChange representationId (seq + 1) f change = some f') : Inserted seq [change] f f' (seq + 1) := by
  cases change with
  | event event =>
    rw [insertChange] at h
    split at h
    · cases h
    · rename_i hfresh
      cases h
      refine ⟨fun x => ?_, fun t => by simp [Change.tombstone?], fun hnodup => ?_, fun s hs => ?_,
        rfl, fun _ => ?_, fun s hs => ?_, rfl⟩
      · simp only [CheckpointFile.mem_events, List.mem_append, List.mem_singleton]
        simp [Change.event?, or_and_right, exists_or, eq_comm]
      · rw [List.map_append, List.nodup_append]
        refine ⟨hnodup, List.nodup_singleton _, ?_⟩
        rintro a ha b hb rfl
        obtain ⟨r, hr, rfl⟩ := List.mem_map.mp ha
        refine hfresh (List.any_eq_true.mpr ⟨r, hr, ?_⟩)
        have : r.event.eventId = event.served.eventId := by simpa using hb
        exact decide_eq_true (Or.inl this)
      · simp only [CheckpointFile.rowSeqs, List.map_append, List.mem_append, List.map_cons,
          List.map_nil, List.mem_singleton] at hs ⊢
        rcases hs with (hs | rfl) | hs
        · exact Or.inl (Or.inl hs)
        · exact Or.inr (by omega)
        · exact Or.inl (Or.inr hs)
      · simp [CheckpointFile.rowSeqs]
      · simp only [CheckpointFile.rowSeqs, List.map_append, List.mem_append] at hs ⊢
        exact hs.imp_left Or.inl
  | retraction tombstone =>
    rw [insertChange] at h
    split at h
    · cases h
    · cases h
      refine ⟨fun x => by simp [Change.event?], fun t => ?_, fun hnodup => hnodup, fun s hs => ?_,
        rfl, fun _ => ?_, fun s hs => ?_, rfl⟩
      · simp only [CheckpointFile.mem_tombstones, List.mem_append, List.mem_singleton]
        simp [Change.tombstone?, or_and_right, exists_or, eq_comm]
      · simp only [CheckpointFile.rowSeqs, List.map_append, List.mem_append, List.map_cons,
          List.map_nil, List.mem_singleton] at hs ⊢
        rcases hs with hs | hs | rfl
        · exact Or.inl (Or.inl hs)
        · exact Or.inl (Or.inr hs)
        · exact Or.inr (by omega)
      · simp [CheckpointFile.rowSeqs]
      · simp only [CheckpointFile.rowSeqs, List.map_append, List.mem_append] at hs ⊢
        exact hs.imp_right Or.inl

/-- One batch after another. -/
theorem Inserted.trans {seq seq' seq'' : ℤ} {m m' : List Change} {f f' f'' : CheckpointFile}
    (h : Inserted seq m f f' seq') (h' : Inserted seq' m' f' f'' seq'') :
    Inserted seq (m ++ m') f f'' seq'' where
  events x := by rw [h'.events, h.events, List.filterMap_append, List.mem_append, or_assoc]
  tombstones t := by
    rw [h'.tombstones, h.tombstones, List.filterMap_append, List.mem_append, or_assoc]
  eventIds hnodup := h'.eventIds (h.eventIds hnodup)
  rowSeqs s hs := by
    rcases h'.rowSeqs s hs with hs | hs
    · exact h.rowSeqs s hs
    · have := h.count
      exact Or.inr (by omega)
  count := by rw [h'.count, h.count, List.length_append, Nat.cast_add, add_assoc]
  last hne := by
    by_cases hm' : m' = []
    · have hm : m ≠ [] := fun hm => hne (by rw [hm, hm']; rfl)
      have hsame : seq'' = seq' := by simpa [hm'] using h'.count
      exact hsame ▸ h'.keeps _ (h.last hm)
    · exact h'.last hm'
  keeps s hs := h'.keeps s (h.keeps s hs)
  blocked := h'.blocked.trans h.blocked

theorem insertChanges_inserted {seq seq' : ℤ} {merged : List Change}
    {f f' : CheckpointFile} (h : insertChanges representationId seq merged f = some (f', seq')) : Inserted seq merged f f' seq' := by
  induction merged generalizing seq f with
  | nil =>
    cases h
    exact ⟨by simp, by simp, id, fun s hs => Or.inl hs, by simp, by simp, fun s hs => hs, rfl⟩
  | cons change merged ih =>
    rw [insertChanges] at h
    split at h
    · cases h
    · rename_i f₁ hone
      exact (insertChange_inserted hone).trans (ih h)

/-- How the transaction ends once its statements are through. -/
inductive CheckpointCommit where
  | committed
  /-- `COMMIT` fails and nothing is written. -/
  | failed
  /-- The transaction is durable, but the worker does not get to know it. -/
  | unreported

/-- The identity that every write of the meta table records. -/
def metaRow (generation : Generation) (storeEpoch : Text) (consumed : Hlc) (changeSeq : ℤ) :
    CheckpointMeta where
  baseGenerationId := generation.generationId
  storeEpoch := storeEpoch
  representationId := generation.representationId
  vectorDimension := generation.vectorDimension
  baseHlc := generation.sourceHlc
  consumed := consumed
  changeSeq := changeSeq

/-- The transaction of `_write_batch`: what it would make of the file, with the number it ends
at. -/
def writeBatch (generation : Generation) (representationId factsEpoch : Text) (upper : Hlc)
    (changeSeq : ℤ) (merged : List Change) (f : CheckpointFile) : Option (CheckpointFile × ℤ) :=
  (insertChanges representationId changeSeq merged f).map fun inserted =>
    ({ inserted.1 with metaRows := some (metaRow generation factsEpoch upper inserted.2) },
      inserted.2)

def recordBlocked (generation : Generation) (consumed : Hlc) (changeSeq : ℤ)
    (f : CheckpointFile) : CheckpointFile :=
  { f with
    metaRows := some (metaRow generation generation.storeEpoch consumed changeSeq)
    blocked := true }

end Delta
end SemanticMemory
