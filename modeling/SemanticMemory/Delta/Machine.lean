import SemanticMemory.Delta.Checkpoint

/-!
# The delta state machine

`DeltaStateMachine` (`daemon/delta.py`): one worker absorbs the facts in batches into a checkpoint
and an in-memory mirror and publishes snapshots; requests wait in `ensure_caught_up` until the
published snapshot covers the facts.

## What is modelled, and how

* A `World` is the fact store with its writers, the generations and checkpoint files on disk, and
  the machine of the running process.  `Action` lists what can happen next, in any order.
* A catch-up runs in steps: the cycle reads the clock, the batch reads the changes and writes the
  checkpoint, then the snapshot is published, and published again if that failed.  Facts, requests
  and a restart may come between any two of them.
* A startup and a rebuild are one step each.  All they read from the facts is the current clock or
  lies at or below a watermark, where it does not change, and a generation build rechecks the clock.
* The epoch is the one the store was created with.  Publish switches, the maintenance seams
  `invalidate` and `rebuild`, and the recovery from a rollback generation are left out: the last
  appears as its failure, the refused machine.
* Whether an event embeds is an outcome of the environment.
-/

namespace SemanticMemory
namespace Delta

open FactStore

/-! ## Validation -/

/-- The checks that both `_validate_event` functions make, on their own labelled fields. -/
def validateStored (labelled : List (String × Text)) (stored : StoredEvent) : Option String :=
  if stored.eventId = [] then some "empty event_id"
  else
    match labelled.find? fun entry => entry.2 = [] with
    | some entry => some ("empty or non-string " ++ entry.1)
    | none =>
      if (ofLex stored.hlc).1 ≥ 0 ∧ (ofLex stored.hlc).2 ≥ 0 then none else some "invalid HLC"

/-- `_validate_event` of `delta.py`. -/
def validateEvent (stored : StoredEvent) : Option String :=
  validateStored [("commit_id", stored.commitId), ("schema_id", stored.schemaId),
    ("canonical_segment_input", stored.canonicalSegmentInput), ("category", stored.category),
    ("final_selection_text", stored.finalSelectionText)] stored

/-- `_validate_event` of `generation.py`: the commit is not looked at. -/
def validateBuildEvent (stored : StoredEvent) : Option String :=
  validateStored [("schema_id", stored.schemaId),
    ("canonical_segment_input", stored.canonicalSegmentInput), ("category", stored.category),
    ("final_selection_text", stored.finalSelectionText)] stored

/-! ## The state -/

/-- Where the worker stands in `_cycle`. -/
inductive Pc where
  | idle
  | batch (factsEpoch : Text) (upper : Hlc)
  | publish
  | republish
  deriving DecidableEq

/-- `DeltaStateMachine`.  A constructor that raised leaves a closed machine.  `deltaPath` is the
generation id in the checkpoint's path. -/
structure Machine where
  provider : Provider
  declaredGenerationId : Text
  deltaPath : Text
  closed : Bool := false
  refused : Bool := false
  stopped : Bool := false
  blocked : Bool := false
  generation : Option Generation := none
  baseCommits : List (Text × Text) := []
  deltaEvents : List StoredEvent := []
  /-- The vectors of `deltaEvents`, by event id. -/
  deltaVectors : List (Text × Text) := []
  retractions : List Tombstone := []
  deltaConsumed : Option Hlc := none
  deltaChangeSeq : ℤ := -1
  snapshot : Option DeltaSnapshot := none
  pc : Pc := .idle

/-- The mirror, with how far it reaches. -/
def Machine.mirror (m : Machine) (consumed : Hlc) : Changes where
  events := m.deltaEvents
  retractions := m.retractions
  consumed := consumed
  changeSeq := m.deltaChangeSeq

def Machine.setMirror (m : Machine) (changes : Changes) (vectors : List (Text × Text)) : Machine :=
  { m with
    deltaEvents := changes.events
    deltaVectors := vectors
    retractions := changes.retractions
    deltaConsumed := some changes.consumed
    deltaChangeSeq := changes.changeSeq }

/-- The fact store, the disk, and the machine of the running process. -/
structure World where
  facts : FactStore.World
  generations : List Generation
  checkpoints : Text → CheckpointFile
  machine : Machine

def World.db (w : World) : Db := w.facts.db

def World.checkpoint (w : World) : CheckpointFile := w.checkpoints w.machine.deltaPath

def World.setCheckpoint (w : World) (f : CheckpointFile) : World :=
  { w with checkpoints := Function.update w.checkpoints w.machine.deltaPath f }

def World.setMachine (w : World) (m : Machine) : World := { w with machine := m }

def World.goto (w : World) (pc : Pc) : World := { w with machine := { w.machine with pc } }

/-- `_drop_delta_checkpoint`: best effort. -/
def World.dropCheckpoint (w : World) (ok : Bool) : World :=
  if ok then w.setCheckpoint {} else w

@[simp] theorem dropCheckpoint_facts (w : World) (ok : Bool) :
    (w.dropCheckpoint ok).facts = w.facts := by
  unfold World.dropCheckpoint
  split <;> rfl

@[simp] theorem dropCheckpoint_db (w : World) (ok : Bool) : (w.dropCheckpoint ok).db = w.db :=
  congrArg FactStore.World.db (dropCheckpoint_facts w ok)

theorem dropCheckpoint_machine (w : World) (ok : Bool) :
    (w.dropCheckpoint ok).machine = w.machine := by
  unfold World.dropCheckpoint
  split <;> rfl

/-- The snapshot that `_publish_snapshot_locked` projects. -/
def Machine.project (m : Machine) : Option DeltaSnapshot :=
  match m.generation, m.deltaConsumed with
  | some generation, some consumed =>
    buildSnapshot generation m.provider m.baseCommits (m.mirror consumed) m.deltaVectors
  | _, _ => none

/-- A publication in the constructor, which a fault of the projection ends. -/
def Machine.publishOrClose (m : Machine) : Machine :=
  match m.project with
  | some snapshot => { m with snapshot := some snapshot }
  | none => { m with closed := true }

/-! ## Generations -/

/-- How a generation build ends when its events are well formed. -/
inductive BuildEnd where
  | built | blocked | failed
  deriving DecidableEq

/-- What the outside world decides while a generation is opened or built. -/
structure GenerationEnv where
  /-- The declared generation's directory exists and verifies. -/
  intact : Bool := true
  /-- The content hash of a new generation. -/
  newId : Text := []
  build : BuildEnd := .built

/-- `open_generation` on the declared generation. -/
def openDeclared (env : GenerationEnv) (w : World) (declaredGenerationId : Text) :
    Option Generation :=
  if env.intact then w.generations.find? fun g => g.generationId = declaredGenerationId else none

/-- `build_generation` over the facts at the current clock. -/
def buildGeneration (env : GenerationEnv) (provider : Provider) (w : World) :
    World × Except BuildEnd Generation :=
  match readFactsIdentity w.db with
  | none => (w, .error .failed)
  | some (storeEpoch, sourceHlc) =>
    if (readActiveEvents w.db sourceHlc).any fun e => (validateBuildEvent e).isSome then
      (w, .error .blocked)
    else if env.build ≠ .built then (w, .error env.build)
    else if w.generations.any fun g => g.generationId = env.newId then (w, .error .failed)
    else
      let generation : Generation :=
        { generationId := env.newId, storeEpoch, sourceHlc
          representationId := provider.representationId
          vectorDimension := provider.vectorDimension
          rows := generationRows w.db sourceHlc }
      ({ w with generations := w.generations ++ [generation] }, .ok generation)

/-- The declared generation when it opens and is of the epoch, else a new one. -/
def openOrBuild (env : GenerationEnv) (provider : Provider) (declaredGenerationId : Text)
    (w : World) : World × Except BuildEnd Generation :=
  match openDeclared env w declaredGenerationId, readFactsIdentity w.db with
  | some generation, some (factsEpoch, _) =>
    if generation.storeEpoch = factsEpoch then (w, .ok generation)
    else buildGeneration env provider w
  | some _, none => (w, .error .failed)
  | none, _ => buildGeneration env provider w

/-! ## Startup -/

/-- What the outside world decides when a process starts. -/
structure StartEnv where
  provider : Provider
  declaredGenerationId : Text
  /-- The published identity is broken and cannot be recovered. -/
  refused : Bool := false
  generation : GenerationEnv := {}
  checkpointReadable : Bool := true
  dropOk : Bool := true
  verifyReadOk : Bool := true

/-- `_verify_snapshot_vs_facts`: the event sets agree. -/
def verifySnapshot (db : Db) (snapshot : DeltaSnapshot) : Bool :=
  let actual := snapshot.activeEvents.map StoredEvent.eventId
  let expected := (readActiveEvents db snapshot.consumed).map StoredEvent.eventId
  (actual.all fun id => id ∈ expected) && expected.all fun id => id ∈ actual

/-- The end of the constructor: the machine over a verified generation, with its checkpoint or
from `H0`. -/
def loadCheckpoint (env : StartEnv) (generation : Generation) (m : Machine) (w : World) : World :=
  let base : Changes := ⟨[], [], generation.sourceHlc, -1⟩
  let m :=
    { m with
      generation := some generation
      baseCommits := readBaseCommitIds w.db generation.sourceHlc }
  let w := w.setMachine m
  match openDeltaCheckpoint env.checkpointReadable w.checkpoint generation
      env.provider.representationId w.db with
  | none => (w.dropCheckpoint env.dropOk).setMachine (m.setMirror base []).publishOrClose
  | some loaded =>
    let served := (m.setMirror loaded.changes loaded.vectors).publishOrClose
    if loaded.blocked then w.setMachine { served with blocked := true }
    else
      match served.snapshot with
      | none => w.setMachine served
      | some snapshot =>
        if ¬ env.verifyReadOk then w.setMachine { served with closed := true }
        else if verifySnapshot w.db snapshot then w.setMachine served
        else (w.dropCheckpoint env.dropOk).setMachine (m.setMirror base []).publishOrClose

/-- The constructor, up to the checkpoint. -/
def startMachine (env : StartEnv) (w : World) : World :=
  let m : Machine :=
    { provider := env.provider, declaredGenerationId := env.declaredGenerationId
      deltaPath := env.declaredGenerationId }
  if env.refused then w.setMachine { m with refused := true }
  else
    match openOrBuild env.generation env.provider env.declaredGenerationId w with
    | (w, .error .blocked) => w.setMachine { m with blocked := true }
    | (w, .error _) => w.setMachine { m with closed := true }
    | (w, .ok generation) =>
      if generation.representationId ≠ env.provider.representationId ∨
          generation.vectorDimension ≠ env.provider.vectorDimension ∨
          (generation.rows.any fun row =>
            (commitOf (readBaseCommitIds w.db generation.sourceHlc) row.eventId).isNone) then
        w.setMachine { m with closed := true }
      else loadCheckpoint env generation m w

/-! ## The worker -/

/-- What the outside world decides in a rebuild. -/
structure RebuildEnv where
  generation : GenerationEnv := {}
  dropOk : Bool := true

def performRebuild (env : RebuildEnv) (w : World) : World :=
  let w := w.dropCheckpoint env.dropOk
  let m :=
    { w.machine with
      snapshot := none, blocked := false, deltaEvents := [], deltaVectors := [], retractions := []
      deltaConsumed := none, deltaChangeSeq := -1, pc := .idle }
  match openOrBuild env.generation m.provider m.declaredGenerationId w with
  | (w, .error .blocked) => w.setMachine { m with blocked := true }
  | (w, .error _) => w.setMachine m
  | (w, .ok generation) =>
    let m :=
      { m with
        generation := some generation
        baseCommits := readBaseCommitIds w.db generation.sourceHlc
        deltaConsumed := some generation.sourceHlc
        deltaPath := generation.generationId }
    w.setMachine { m with snapshot := m.project }

/-- The start of `_cycle`. -/
def cycle (env : RebuildEnv) (w : World) : World :=
  let m := w.machine
  if m.closed ∨ m.stopped ∨ m.pc ≠ .idle then w
  else if m.refused ∨ m.blocked then w
  else
    match readFactsIdentity w.db with
    | none => w
    | some (factsEpoch, factsMax) =>
      match m.snapshot with
      | none => performRebuild env w
      | some snapshot =>
        if snapshot.storeEpoch ≠ factsEpoch then performRebuild env w
        else w.goto (.batch factsEpoch factsMax)

/-- What the outside world decides in a batch. -/
structure BatchEnv where
  readOk : Bool := true
  embeds : StoredEvent → Bool := fun _ => true
  recordOk : Bool := true
  commit : CheckpointCommit := .committed

/-- `_enter_blocked`, with `_record_blocked`. -/
def enterBlocked (recordOk : Bool) (generation : Generation) (consumed : Hlc) (w : World) : World :=
  let w :=
    if recordOk then
      w.setCheckpoint (recordBlocked generation consumed w.machine.deltaChangeSeq w.checkpoint)
    else w
  w.setMachine { w.machine with blocked := true, pc := .idle }

/-- Whether an event of the batch does not parse, or does not embed. -/
def blocksBatch (env : BatchEnv) (events : List StoredEvent) (retractions : List Tombstone) :
    Bool :=
  (events.any fun e => (validateEvent e).isSome) ||
    (survivors events retractions).any fun e => !env.embeds e

/-- `_catch_up_batch` and `_write_batch`, up to the publication. -/
def catchUpBatch (env : BatchEnv) (w : World) : World :=
  match w.machine.pc, w.machine.generation, w.machine.deltaConsumed with
  | .batch factsEpoch upper, some generation, some consumed =>
    if upper ≤ consumed then w.goto .republish
    else
      match if env.readOk then readFactChanges w.db consumed upper else none with
      | none => w.goto .idle
      | some (events, retractions) =>
        if events = [] ∧ retractions = [] then w.goto .republish
        else if blocksBatch env events retractions then
          enterBlocked env.recordOk generation consumed w
        else
          let merged := mergedChanges events retractions
          let representationId := w.machine.provider.representationId
          match writeBatch generation representationId factsEpoch upper w.machine.deltaChangeSeq
              merged w.checkpoint with
          | none => w.goto .idle
          | some (f, seq) =>
            match env.commit with
            | .failed => w.goto .idle
            | .unreported => (w.setCheckpoint f).goto .idle
            | .committed =>
              ((w.setCheckpoint f).setMachine (w.machine.setMirror
                { events := w.machine.deltaEvents ++ merged.filterMap Change.event?
                  retractions := w.machine.retractions ++ merged.filterMap Change.tombstone?
                  consumed := upper
                  changeSeq := seq }
                (w.machine.deltaVectors ++ (merged.filterMap Change.event?).map fun e =>
                  (e.eventId, representationId)))).goto .publish
  | .batch .., _, none => w.goto .republish
  | .batch .., none, some _ => w.goto .idle
  | _, _, _ => w

/-- `_publish_snapshot_locked`; `ok` says that the projection meets no fault of its own. -/
def publishSnapshot (ok : Bool) (next : Pc) (w : World) : World :=
  match if ok then w.machine.project else none with
  | some snapshot => w.setMachine { w.machine with snapshot := some snapshot, pc := next }
  | none => w.goto .idle

/-- The publication after a batch. -/
def publishStep (ok : Bool) (w : World) : World :=
  if w.machine.pc = .publish then publishSnapshot ok .republish w else w

/-- The end of `_cycle`: publish again what a failed publication left behind. -/
def republishStep (ok : Bool) (w : World) : World :=
  if w.machine.pc = .republish then
    match w.machine.snapshot with
    | some current =>
      if some current.consumed ≠ w.machine.deltaConsumed ∨
          current.changeSeq ≠ w.machine.deltaChangeSeq then publishSnapshot ok .idle w
      else w.goto .idle
    | none => publishSnapshot ok .idle w
  else w

def retry (cleanupOk : Bool) (w : World) : World :=
  let w := if cleanupOk then w.setCheckpoint { w.checkpoint with blocked := false } else w
  if w.machine.closed then w else w.setMachine { w.machine with blocked := false }

/-! ## Runs -/

/-- What can happen next. -/
inductive Action where
  | facts (call : FactStore.Call)
  /-- The process dies, wherever it is, and the next one starts. -/
  | restart (env : StartEnv)
  | cycle (env : RebuildEnv)
  | batch (env : BatchEnv)
  | publish (ok : Bool)
  | republish (ok : Bool)
  | retry (cleanupOk : Bool)
  | requestStop
  | start
  | close

def step (w : World) : Action → World
  | .facts call => { w with facts := FactStore.step w.facts call }
  | .restart env => startMachine env w
  | .cycle env => cycle env w
  | .batch env => catchUpBatch env w
  | .publish ok => publishStep ok w
  | .republish ok => republishStep ok w
  | .retry cleanupOk => retry cleanupOk w
  | .requestStop => w.setMachine { w.machine with stopped := true }
  | .start => w.setMachine { w.machine with stopped := false }
  | .close => w.setMachine { w.machine with closed := true, stopped := true, snapshot := none }

/-- A store just created, nothing derived from it yet, and no process running. -/
def World.created (now : ℤ) (historyId storeEpoch : Text) : World where
  facts := FactStore.World.created now historyId storeEpoch
  generations := []
  checkpoints := fun _ => {}
  machine :=
    { provider := ⟨[], 0, false⟩, declaredGenerationId := [], deltaPath := [], closed := true }

/-! ## The query gate -/

/-- The fault codes of `ensure_caught_up`. -/
inductive GateFault where
  | activeIdentityRefused | deltaError | notCaughtUp | representationFault
  deriving DecidableEq

/-- The start of `ensure_caught_up`: the facts identity at the start of the call. -/
def readGate (w : World) : Except GateFault (Text × Hlc) :=
  if w.machine.refused then .error .activeIdentityRefused
  else
    match readFactsIdentity w.db with
    | none => .error .deltaError
    | some identity => .ok identity

/-- `snapshot_representation_id`: the snapshot's, or the provider's while there is none. -/
def Machine.snapshotRepresentationId (m : Machine) : Text :=
  match m.snapshot with
  | some snapshot => snapshot.representationId
  | none => m.provider.representationId

/-- One turn of the waiting loop of `ensure_caught_up`; `none` waits on. -/
def pollGate (identity : Text × Hlc) (expired : Bool) (m : Machine) :
    Option (Except GateFault DeltaSnapshot) :=
  if m.closed then some (.error .notCaughtUp)
  else if m.blocked then some (.error .representationFault)
  else
    match m.snapshot.filter fun s => s.storeEpoch = identity.1 ∧ s.consumed ≥ identity.2 with
    | some snapshot => some (.ok snapshot)
    | none =>
      if m.stopped then some (.error .notCaughtUp)
      else if expired then some (.error .notCaughtUp)
      else none

end Delta
end SemanticMemory
