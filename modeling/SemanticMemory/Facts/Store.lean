import SemanticMemory.Basic
import SemanticMemory.Lib.AsOf
import SemanticMemory.Lib.Runs

/-!
# The fact store

The tables of `facts.sqlite3` and the operations of `FactStore` (`src/fact_store.cc`) on them:
`giveTick`, `recordMetaClock`, `initializeMeta`, `persistBatch`, `appendRetraction` and
`queryActiveEventsAsOf`.

## What is modelled, and how

* `Db` is the committed content.  A meta value is kept as the number or text it stands for: the
  store writes a number with `std::to_string` and reads it back with `strtoll`.
* A `World` is one database file with its connections.  `writer` is the write transaction that holds
  the lock, with its uncommitted copy of the tables: `BEGIN IMMEDIATE` succeeds on no connection
  while it is set.  It outlives a call only when a `COMMIT` or `ROLLBACK` fails and SQLite keeps the
  transaction open; the code never retries either, so the next `BEGIN` of that connection fails.
* What the outside world decides in a call --- each reading of `NowMs`, each statement that SQLite
  refuses, how a `COMMIT` ends --- is the `env` argument of that call.  Constraint failures (a
  duplicate `event_id`, a taken `commit_id`) are decided by the tables.
* `journal` lists the facts of each committed transaction, oldest first.  No operation reads it.
-/

namespace SemanticMemory
namespace FactStore

def kFactSchemaVersion : ℤ := 1
def kEventFormatVersion : ℤ := 1

/-- `FactStore::Status`. -/
inductive Status where
  | ok | noHome | rootCreateFailed | rootNotDirectory | rootSymlink | rootOwner | rootPermission
  | dbSymlink | dbNotRegular | dbOwner | dbPermission | dbCorrupt | dbUnsupportedVersion
  | needsMigration | dbClockInvalid | dbOpenFailed | dbWriteFailed | maintenanceLocked
  deriving DecidableEq

/-- `FactStore::Event`: one selection event on its way into, or out of, the store. -/
structure Event where
  eventId : Text
  commitId : Text := []
  schemaId : Text
  canonicalSegmentInput : Text
  spanStart : ℕ := 0
  spanEnd : ℕ := 0
  category : Text
  precedingText : Text
  competitionComplete : Bool := false
  finalSelectionText : Text
  confirmationSource : Text
  /-- `-1` when no key event triggered the selection. -/
  triggerKeycode : ℤ := -1
  displayRank : ℤ := 0
  displayPage : ℤ := 0
  sessionId : Text
  sessionSeq : ℤ := 0
  utcConfirmedAtMs : ℤ := 0
  hlcPhysicalMs : ℤ := 0
  hlcLogical : ℤ := 0
  candidates : List (ℤ × Text) := []
  deriving DecidableEq

/-! ## The tables -/

/-- The rows of `meta`. -/
structure Meta where
  factSchemaVersion : ℤ
  eventFormatVersion : ℤ
  historyId : Text
  storeEpoch : Text
  hlcPhysicalMs : ℤ
  hlcLogical : ℤ
  createdAtMs : ℤ

/-- A row of `commits`. -/
structure CommitRow where
  commitId : Text
  utcCommittedAtMs : ℤ

/-- A row of `selection_events`. -/
structure EventRow where
  eventId : Text
  commitId : Text
  eventFormatVersion : ℤ
  schemaId : Text
  canonicalSegmentInput : Text
  spanStart : ℤ
  spanEnd : ℤ
  category : Text
  precedingText : Text
  competitionComplete : Bool
  finalSelectionText : Text
  confirmationSource : Text
  triggerKeycode : Option ℤ
  displayRank : ℤ
  displayPage : ℤ
  sessionId : Text
  sessionSeq : ℤ
  hlcPhysicalMs : ℤ
  hlcLogical : ℤ
  utcConfirmedAtMs : ℤ
  utcCommittedAtMs : ℤ

/-- A row of `selection_candidates`. -/
structure CandidateRow where
  eventId : Text
  mergeOrder : ℤ
  text : Text

/-- A row of `retractions`. -/
structure RetractionRow where
  retractionId : Text
  commitId : Text
  hlcPhysicalMs : ℤ
  hlcLogical : ℤ
  utcRetractedAtMs : ℤ

/-- The clock point an event was given. -/
def EventRow.hlc (r : EventRow) : Hlc := SemanticMemory.hlc r.hlcPhysicalMs r.hlcLogical

/-- The clock point a retraction was given. -/
def RetractionRow.hlc (r : RetractionRow) : Hlc := SemanticMemory.hlc r.hlcPhysicalMs r.hlcLogical

/-- The content of the database file. -/
structure Db where
  metaRows : Meta
  commits : List CommitRow
  selectionEvents : List EventRow
  selectionCandidates : List CandidateRow
  retractions : List RetractionRow

def Db.clock (db : Db) : Hlc := hlc db.metaRows.hlcPhysicalMs db.metaRows.hlcLogical

/-- A fact with a clock point, as a committed transaction left it. -/
inductive Fact where
  | event (row : EventRow)
  | retraction (row : RetractionRow)

def Fact.hlc : Fact → Hlc
  | .event row => row.hlc
  | .retraction row => row.hlc

def Fact.event? : Fact → Option EventRow
  | .event row => some row
  | .retraction _ => none

def Fact.retraction? : Fact → Option RetractionRow
  | .event _ => none
  | .retraction row => some row

/-! ## The clock -/

/-- `GiveTick`: one tick against the wall clock reading `now`. -/
def giveTick (now physicalMs logical : ℤ) : ℤ × ℤ :=
  if now > physicalMs then (now, 0) else (physicalMs, logical + 1)

/-- **A tick moves the clock strictly forward**, whatever the wall clock says. -/
theorem lt_giveTick (now p l : ℤ) :
    hlc p l < hlc (giveTick now p l).1 (giveTick now p l).2 := by
  unfold giveTick
  split
  · rename_i h
    exact hlc_lt_iff.mpr (Or.inl h)
  · exact hlc_lt_iff.mpr (Or.inr ⟨rfl, by omega⟩)

/-- `RecordMetaClock`: the two updates, and the tables as they are when one of them is refused. -/
def recordMetaClock (physicalOk logicalOk : Bool) (physicalMs logical : ℤ) (db : Db) : Bool × Db :=
  if physicalOk then
    let db := { db with metaRows := { db.metaRows with hlcPhysicalMs := physicalMs } }
    if logicalOk then
      (true, { db with metaRows := { db.metaRows with hlcLogical := logical } })
    else (false, db)
  else (false, db)

/-- `InitializeMeta` at the reading `now` of the wall clock, on freshly created tables. -/
def initializeMeta (now : ℤ) (historyId storeEpoch : Text) : Db where
  metaRows :=
    { factSchemaVersion := kFactSchemaVersion
      eventFormatVersion := kEventFormatVersion
      historyId, storeEpoch
      hlcPhysicalMs := now
      hlcLogical := 0
      createdAtMs := now }
  commits := []
  selectionEvents := []
  selectionCandidates := []
  retractions := []

/-! ## Connections -/

abbrev ConnId := ℕ

/-- A `FactStore` object: its handle and the clock it read when it was opened or last wrote. -/
structure Conn where
  isOpen : Bool := false
  status : Status := .ok
  clockPhysicalMs : ℤ := 0
  clockLogical : ℤ := 0
  metaInitialized : Bool := false

/-- One database file and the connections of any number of processes to it. -/
structure World where
  db : Db
  writer : Option (ConnId × Db) := none
  conns : ConnId → Conn := fun _ => {}
  journal : List (List Fact) := []

def World.setConn (w : World) (c : ConnId) (conn : Conn) : World :=
  { w with conns := Function.update w.conns c conn }

def World.setStatus (w : World) (c : ConnId) (status : Status) : World :=
  w.setConn c { w.conns c with status }

/-- How a `COMMIT` ends: it commits, or it fails and SQLite rolls back, or it fails and the
transaction stays open. -/
inductive CommitEnd where
  | committed | rolledBack | stillOpen
  deriving DecidableEq

/-- What the tables of connection `c` look like to a statement on `c`. -/
def World.visible (w : World) (c : ConnId) : Db :=
  match w.writer with
  | some (owner, db) => if owner = c then db else w.db
  | none => w.db

/-- `Exec(db_, "COMMIT;")` of a transaction whose copy of the tables is `db` and whose facts are
`facts`. -/
def World.commit (w : World) (c : ConnId) (db : Db) (facts : List Fact) : CommitEnd → World
  | .committed => { w with db, writer := none, journal := w.journal ++ [facts] }
  | .rolledBack => { w with writer := none }
  | .stillOpen => { w with writer := some (c, db) }

/-- `Exec(db_, "ROLLBACK;")` of a transaction whose copy of the tables is `db`. -/
def World.rollback (w : World) (c : ConnId) (db : Db) (ok : Bool) : World :=
  if ok then { w with writer := none } else { w with writer := some (c, db) }

/-! ## Persisting a batch -/

/-- What the outside world decides in one `PersistBatch` call. -/
structure BatchEnv where
  beginOk : Bool := true
  readClockOk : Bool := true
  prepareOk : Bool := true
  insertCommitOk : Bool := true
  /-- The `i`-th event insert. -/
  insertEventOk : ℕ → Bool := fun _ => true
  /-- The `j`-th candidate insert of the `i`-th event. -/
  insertCandidateOk : ℕ → ℕ → Bool := fun _ _ => true
  recordPhysicalOk : Bool := true
  recordLogicalOk : Bool := true
  commitEnd : CommitEnd := .committed
  rollbackOk : Bool := true
  ensureFileModes : Bool := true
  /-- The reading of the wall clock for the `i`-th event. -/
  nowMs : ℕ → ℤ
  randomUuid : Text := []

def eventRow (commitId : Text) (utcCommittedAtMs : ℤ) (event : Event) : EventRow where
  eventId := cString event.eventId
  commitId := cString commitId
  eventFormatVersion := kEventFormatVersion
  schemaId := cString event.schemaId
  canonicalSegmentInput := cString event.canonicalSegmentInput
  spanStart := event.spanStart
  spanEnd := event.spanEnd
  category := cString event.category
  precedingText := cString event.precedingText
  competitionComplete := event.competitionComplete
  finalSelectionText := cString event.finalSelectionText
  confirmationSource := cString event.confirmationSource
  triggerKeycode := if event.triggerKeycode ≥ 0 then some event.triggerKeycode else none
  displayRank := event.displayRank
  displayPage := event.displayPage
  sessionId := cString event.sessionId
  sessionSeq := event.sessionSeq
  hlcPhysicalMs := event.hlcPhysicalMs
  hlcLogical := event.hlcLogical
  utcConfirmedAtMs := event.utcConfirmedAtMs
  utcCommittedAtMs := utcCommittedAtMs

/-- The candidate inserts of one event, stopping at the first refusal. -/
def insertCandidates (insertOk : ℕ → Bool) (eventId : Text) :
    ℕ → List (ℤ × Text) → Db → Bool × Db
  | _, [], db => (true, db)
  | j, candidate :: rest, db =>
    if insertOk j ∧
        ¬ db.selectionCandidates.any fun r =>
          r.eventId = cString eventId ∧ r.mergeOrder = candidate.1 then
      insertCandidates insertOk eventId (j + 1) rest
        { db with selectionCandidates := db.selectionCandidates ++
            [⟨cString eventId, candidate.1, cString candidate.2⟩] }
    else (false, db)

/-- Where the event loop of `PersistBatch` stands: whether every statement so far succeeded, the
uncommitted tables, the running clock, and the caller's events with what was written into them. -/
structure Progress where
  ok : Bool
  db : Db
  physical : ℤ
  logical : ℤ
  events : List Event

/-- The event loop of `PersistBatch`, from the `i`-th event on. -/
def insertEvents (env : BatchEnv) (commitId : Text) (utcCommittedAtMs : ℤ) :
    ℕ → List Event → Db → ℤ → ℤ → Progress
  | _, [], db, physical, logical => ⟨true, db, physical, logical, []⟩
  | i, e :: rest, db, physical, logical =>
    let tick := giveTick (env.nowMs i) physical logical
    let event := { e with hlcPhysicalMs := tick.1, hlcLogical := tick.2, commitId := commitId }
    if env.insertEventOk i ∧
        ¬ db.selectionEvents.any fun r => r.eventId = cString event.eventId then
      let db := { db with selectionEvents :=
        db.selectionEvents ++ [eventRow commitId utcCommittedAtMs event] }
      let inserted := insertCandidates (env.insertCandidateOk i) event.eventId 0 event.candidates db
      if inserted.1 then
        let p := insertEvents env commitId utcCommittedAtMs (i + 1) rest inserted.2 tick.1 tick.2
        { p with events := event :: p.events }
      else ⟨false, inserted.2, tick.1, tick.2, event :: rest⟩
    else ⟨false, db, tick.1, tick.2, event :: rest⟩

/-- The body of the `PersistBatch` transaction, from the clock read to the clock write. -/
def batchBody (env : BatchEnv) (commitId : Text) (utcCommittedAtMs : ℤ) (events : List Event)
    (db : Db) : Progress :=
  let physical := db.metaRows.hlcPhysicalMs
  let logical := db.metaRows.hlcLogical
  if env.readClockOk ∧ physical ≥ 0 ∧ logical ≥ 0 ∧ env.prepareOk ∧ env.insertCommitOk ∧
      ¬ db.commits.any (fun r => r.commitId = cString commitId) then
    let db := { db with commits := db.commits ++ [⟨cString commitId, utcCommittedAtMs⟩] }
    let p := insertEvents env commitId utcCommittedAtMs 0 events db physical logical
    if p.ok then
      let recorded :=
        recordMetaClock env.recordPhysicalOk env.recordLogicalOk p.physical p.logical p.db
      { p with ok := recorded.1, db := recorded.2 }
    else p
  else ⟨false, db, physical, logical, events⟩

/-- What `PersistBatch` hands back: its result, the caller's events, and `*commit_id_out`. -/
structure BatchReply where
  ok : Bool
  events : List Event
  commitIdOut : Option Text

/-- `FactStore::PersistBatch` on connection `c`. -/
def persistBatch (w : World) (c : ConnId) (utcCommittedAtMs : ℤ) (events : List Event)
    (assignedCommitId : Option Text) (env : BatchEnv) : World × BatchReply :=
  if ¬ (w.conns c).isOpen ∨ events = [] then
    (w.setStatus c .dbWriteFailed, ⟨false, events, none⟩)
  else if ¬ env.beginOk ∨ w.writer.isSome then
    (w.setStatus c .dbWriteFailed, ⟨false, events, none⟩)
  else
    let commitId := assignedCommitId.getD env.randomUuid
    let p := batchBody env commitId utcCommittedAtMs events w.db
    if p.ok then
      -- `p.events` is the caller's vector after the loop, so these are the rows just inserted.
      let facts := p.events.map fun e => Fact.event (eventRow commitId utcCommittedAtMs e)
      let w := w.commit c p.db facts env.commitEnd
      if env.commitEnd = .committed then
        let conn := w.conns c
        let conn := if env.ensureFileModes then conn else { conn with status := .dbPermission }
        (w.setConn c { conn with clockPhysicalMs := p.physical, clockLogical := p.logical },
          ⟨true, p.events, some commitId⟩)
      else (w.setStatus c .dbWriteFailed, ⟨false, p.events, none⟩)
    else
      ((w.rollback c p.db env.rollbackOk).setStatus c .dbWriteFailed, ⟨false, p.events, none⟩)

/-! ## Appending a retraction -/

/-- What the outside world decides in one `AppendRetraction` call. -/
structure RetractionEnv where
  beginOk : Bool := true
  readClockOk : Bool := true
  checkOk : Bool := true
  insertOk : Bool := true
  recordPhysicalOk : Bool := true
  recordLogicalOk : Bool := true
  commitEnd : CommitEnd := .committed
  rollbackOk : Bool := true
  ensureFileModes : Bool := true
  nowMs : ℤ
  randomUuid : Text := []

/-- `kCheckRetractable`: a known commit without a retraction. -/
def retractable (db : Db) (commitId : Text) : Bool :=
  (db.commits.any fun r => r.commitId = cString commitId) &&
    !(db.retractions.any fun r => r.commitId = cString commitId)

/-- Where the insert and the clock write of `AppendRetraction` stand. -/
structure RetractionProgress where
  ok : Bool
  db : Db
  row : RetractionRow

/-- The insert and the clock write of `AppendRetraction`. -/
def retractionBody (env : RetractionEnv) (commitId : Text) (utcRetractedAtMs : ℤ) (db : Db) :
    RetractionProgress :=
  let tick := giveTick env.nowMs db.metaRows.hlcPhysicalMs db.metaRows.hlcLogical
  let row : RetractionRow :=
    ⟨cString env.randomUuid, cString commitId, tick.1, tick.2, utcRetractedAtMs⟩
  if env.insertOk ∧ ¬ db.retractions.any (fun r => r.retractionId = row.retractionId) then
    let db := { db with retractions := db.retractions ++ [row] }
    let recorded := recordMetaClock env.recordPhysicalOk env.recordLogicalOk tick.1 tick.2 db
    ⟨recorded.1, recorded.2, row⟩
  else ⟨false, db, row⟩

/-- What `AppendRetraction` hands back: its result and `*retraction_id_out`. -/
structure RetractionReply where
  ok : Bool
  retractionIdOut : Option Text

/-- `FactStore::AppendRetraction` on connection `c`. -/
def appendRetraction (w : World) (c : ConnId) (commitId : Text) (utcRetractedAtMs : ℤ)
    (env : RetractionEnv) : World × RetractionReply :=
  if ¬ (w.conns c).isOpen then (w.setStatus c .dbWriteFailed, ⟨false, none⟩)
  else if ¬ env.beginOk ∨ w.writer.isSome then (w.setStatus c .dbWriteFailed, ⟨false, none⟩)
  else if ¬ (env.readClockOk ∧ w.db.metaRows.hlcPhysicalMs ≥ 0 ∧ w.db.metaRows.hlcLogical ≥ 0 ∧
      env.checkOk) then
    ((w.rollback c w.db env.rollbackOk).setStatus c .dbWriteFailed, ⟨false, none⟩)
  else if ¬ retractable w.db commitId then
    -- the result of this `COMMIT` is not looked at
    (w.commit c w.db [] env.commitEnd, ⟨true, none⟩)
  else
    let p := retractionBody env commitId utcRetractedAtMs w.db
    if p.ok then
      let w := w.commit c p.db [.retraction p.row] env.commitEnd
      if env.commitEnd = .committed then
        let conn := w.conns c
        let conn := if env.ensureFileModes then conn else { conn with status := .dbPermission }
        (w.setConn c { conn with
            clockPhysicalMs := p.row.hlcPhysicalMs, clockLogical := p.row.hlcLogical },
          ⟨true, some p.row.retractionId⟩)
      else (w.setStatus c .dbWriteFailed, ⟨false, none⟩)
    else ((w.rollback c p.db env.rollbackOk).setStatus c .dbWriteFailed, ⟨false, none⟩)

/-! ## Reading as of a point -/

/-- The event that a result row of `kQueryActiveAsOf` is read into: `trigger_keycode` and the
candidates are not among its columns. -/
def EventRow.toEvent (r : EventRow) : Event where
  eventId := r.eventId
  commitId := r.commitId
  schemaId := r.schemaId
  canonicalSegmentInput := r.canonicalSegmentInput
  spanStart := r.spanStart.toNat
  spanEnd := r.spanEnd.toNat
  category := r.category
  precedingText := r.precedingText
  competitionComplete := r.competitionComplete
  finalSelectionText := r.finalSelectionText
  confirmationSource := r.confirmationSource
  displayRank := r.displayRank
  displayPage := r.displayPage
  sessionId := r.sessionId
  sessionSeq := r.sessionSeq
  hlcPhysicalMs := r.hlcPhysicalMs
  hlcLogical := r.hlcLogical
  utcConfirmedAtMs := r.utcConfirmedAtMs

/-- The key of `ORDER BY e.hlc_physical_ms, e.hlc_logical, e.event_id`. -/
def EventRow.orderKey (r : EventRow) : Hlc ×ₗ Text := toLex (r.hlc, r.eventId)

/-- `kQueryActiveAsOf`. -/
def activeAsOfRows (db : Db) (hlcPhysicalMs hlcLogical : ℤ) : List EventRow :=
  (db.selectionEvents.filter fun e =>
      atOrBefore e.hlc hlcPhysicalMs hlcLogical ∧
        ¬ ∃ r ∈ db.retractions,
          r.commitId = e.commitId ∧ atOrBefore r.hlc hlcPhysicalMs hlcLogical).insertionSort
    fun a b => a.orderKey ≤ b.orderKey

/-- `FactStore::QueryActiveEventsAsOf` on connection `c`; `none` is the result `false`.  `stepOk`
says that every step of the statement succeeds. -/
def queryActiveEventsAsOf (w : World) (c : ConnId) (hlcPhysicalMs hlcLogical : ℤ) (stepOk : Bool) :
    Option (List Event) :=
  if (w.conns c).isOpen ∧ stepOk then
    some ((activeAsOfRows (w.visible c) hlcPhysicalMs hlcLogical).map EventRow.toEvent)
  else none

/-! ## Runs -/

/-- What the outside world decides in `Open`: the outcome of every check on files, leases, schema
and pragmas before its transaction, and how the transaction goes. -/
structure OpenEnv where
  checks : Status := .ok
  beginOk : Bool := true
  commitEnd : CommitEnd := .committed
  ensureFileModes : Bool := true

/-- `FactStore::Open` on a store that `InitializeMeta` created: the checks, then a transaction that
re-reads the meta clock into the connection.  `Open` closes a handle it already holds. -/
def openStore (w : World) (c : ConnId) (env : OpenEnv) : World :=
  let w := { w with writer := w.writer.filter fun t => t.1 ≠ c }
  let failed (status : Status) : World := w.setConn c { w.conns c with isOpen := false, status }
  if env.checks ≠ .ok then failed env.checks
  else if ¬ env.beginOk ∨ w.writer.isSome then failed .dbOpenFailed
  else if ¬ (w.db.metaRows.hlcPhysicalMs ≥ 0 ∧ w.db.metaRows.hlcLogical ≥ 0) then
    failed .dbClockInvalid
  else if env.commitEnd ≠ .committed then failed .dbOpenFailed
  else if ¬ env.ensureFileModes then failed .dbPermission
  else w.setConn c
    { isOpen := true, status := .ok, clockPhysicalMs := w.db.metaRows.hlcPhysicalMs,
      clockLogical := w.db.metaRows.hlcLogical, metaInitialized := true }

/-- The destructor: closing the handle rolls back a transaction left open. -/
def closeStore (w : World) (c : ConnId) : World :=
  { w with writer := w.writer.filter fun t => t.1 ≠ c }.setConn c
    { w.conns c with isOpen := false }

inductive Call where
  | openStore (c : ConnId) (env : OpenEnv)
  | closeStore (c : ConnId)
  | persistBatch (c : ConnId) (utcCommittedAtMs : ℤ) (events : List Event)
      (assignedCommitId : Option Text) (env : BatchEnv)
  | appendRetraction (c : ConnId) (commitId : Text) (utcRetractedAtMs : ℤ) (env : RetractionEnv)

def step (w : World) : Call → World
  | .openStore c env => openStore w c env
  | .closeStore c => closeStore w c
  | .persistBatch c utc events assigned env => (persistBatch w c utc events assigned env).1
  | .appendRetraction c commitId utc env => (appendRetraction w c commitId utc env).1

/-- The file that `InitializeMeta` leaves, with no connection yet. -/
def World.created (now : ℤ) (historyId storeEpoch : Text) : World where
  db := initializeMeta now historyId storeEpoch

end FactStore
end SemanticMemory
