import SemanticMemory.Derived.Publish
import SemanticMemory.Staging.Container

/-!
# The staging machine

`StagingBuildMachine` (`daemon/staging.py`): one worker builds the desired generation chunk by chunk
into `staging/<generation_id>/` and leaves it ready for the publisher.

## What is modelled, and how

* A cycle begins with one step, `beginCycle`: the reads of the facts, the matrix, the search for the
  machine's own record and the marking of all others.  What is built is then done in small steps, one
  change of the disk each, so a crash may fall between any two changes.
* A failing system call leaves what it may leave: a chunk written in part, an immutable file cut
  short, the temporary file of an atomic replacement, a directory taken away in part.  A crash in the
  middle of a call leaves the same, so `crash` need only forget the process.
* A publication is one step that takes the ready container out of `staging/`; `Derived.Publish` has
  its own steps.  What it does to the machine's forced-build flags depends on how its switch goes.
* The reuse of an older generation's vectors is left out, and so are the texts that only the status
  shows.  The store epoch is the one the store was created with.
-/

namespace SemanticMemory
namespace Staging

open FactStore hiding Status World step
open Delta hiding World step
open Derived (Status WriteResult)

/-! ## The disk -/

structure Record where
  /-- The record is readable, of the machine's version, and has its keys. -/
  versionOk : Bool := true
  generationId : Text
  status : Status
  totalRows : ℕ
  rowsFingerprint : Text
  identity : Dict
  chunks : List Chunk
  deriving DecidableEq

/-- A directory of `staging/`. -/
structure Dir where
  record : Option Record := none
  /-- A temporary file of an atomic replacement is left. -/
  litter : Bool := false
  vectors : Option (List Byte) := none
  metadata : Option (File (List GenerationRow)) := none
  manifest : Option (File Manifest) := none

/-- The derived root, as far as the machine sees it. -/
structure Disk where
  staging : KeyedMap Text Dir := .empty
  /-- `staging/.verify-<id>.tmp`. -/
  parked : KeyedMap Text Record := .empty
  /-- The directories of `generations/`. -/
  generations : List Text := []

def loadProgress (staging : KeyedMap Text Dir) (name : Text) : Option Record :=
  (staging.find? name).bind fun d =>
    d.record.filter fun r => r.versionOk && r.generationId = name

/-- The container in a directory, if it has exactly the three files. -/
def Dir.container (d : Dir) : Option Container :=
  if d.record = none ∧ d.litter = false then
    match d.vectors, d.metadata, d.manifest with
    | some vectors, some metadata, some manifest => some ⟨vectors, metadata, manifest⟩
    | _, _, _ => none
  else none

/-! ## The machine -/

/-- The constructor's arguments. -/
structure Config where
  kit : Kit
  target : TargetConfig
  chunkRows : ℕ
  vectorFormatVersion : Text
  activeRepresentationId : Text
  activeGenerationId : Text
  /-- The identity that the active manifest declares, if there is one. -/
  activeIdentity : Option Dict := none
  refuseReason : Option Text := none
  forceRebuild : Bool := false
  converters : List (Text × Text) := [(fp32RowMajorLe, fp32RowMajorLe)]
  chunkRows_pos : 0 < chunkRows
  vectorFormatVersion_ne : vectorFormatVersion ≠ []

/-- A running build: its directory, its record, and the target of the cycle. -/
structure Job where
  dir : Text
  record : Record
  target : Target
  /-- A ready staging that is kept although no build is asked for. -/
  pending : Bool := false
  deriving DecidableEq

/-- The target at the recorded watermark, with its events. -/
structure Pinned where
  events : List StoredEvent
  target : Target
  deriving DecidableEq

/-- The places of `_start_build`. -/
inductive StartPc where
  | clear | create | write
  deriving DecidableEq

/-- The places of `_resume_build`, `_finalize_build`, `_reverify_ready` and what they call. -/
inductive WorkPc where
  | gate
  | verifyChunks (pinned : Pinned)
  | openVectors (pinned : Pinned) (next : ℕ)
  | embed (pinned : Pinned) (next : ℕ)
  | mark
  | block
  | empty (pinned : Pinned) (sha256 : Text)
  | metadata (pinned : Pinned) (sha256 : Text)
  | manifest (pinned : Pinned) (sha256 : Text)
  | gateReady
  | park (again : Bool)
  | reopen (again : Bool)
  | unpark (again accepted : Bool)
  | ready
  | discard
  /-- The end of the cycle: the record is read again. -/
  | settle
  deriving DecidableEq

inductive Pc where
  | idle
  | start (dir : Text) (target : Target) (pc : StartPc)
  | work (job : Job) (pc : WorkPc)
  deriving DecidableEq

/-- The machine's memory. -/
structure Machine where
  /-- `_blocked`, `_blocked_epoch`. -/
  blocked : Bool := false
  blockedEpoch : Option Text := none
  /-- `_current_dir`, `_current_progress`. -/
  currentDir : Option Text := none
  currentProgress : Option Record := none
  readyGenerationId : Option Text := none
  readyStagingDir : Option Text := none
  readyVerified : Bool := false
  compactionRequested : Bool := false
  forceRebuild : Bool := false
  pc : Pc := .idle

def Machine.created (forceRebuild : Bool) : Machine :=
  { compactionRequested := forceRebuild, forceRebuild }

structure World where
  config : Config
  facts : FactStore.World
  disk : Disk
  machine : Machine

def World.db (w : World) : Db := w.facts.db

def World.setMachine (w : World) (m : Machine) : World := { w with machine := m }

def World.goto (w : World) (pc : Pc) : World := w.setMachine { w.machine with pc := pc }

def World.setStaging (w : World) (staging : KeyedMap Text Dir) : World :=
  { w with disk := { w.disk with staging := staging } }

def World.setDir (w : World) (name : Text) (d : Dir) : World :=
  w.setStaging (w.disk.staging.insert name d)

/-! ## What a step may meet -/

/-- What a removal that fails leaves of a directory. -/
structure Left where
  record : Bool := true
  litter : Bool := true
  vectors : Bool := true
  metadata : Bool := true
  manifest : Bool := true

/-- What the outside world decides in one step. -/
structure Env where
  /-- The fact store can be read. -/
  readOk : Bool := true
  /-- The step's system call goes through. -/
  ioOk : Bool := true
  /-- How an atomic replacement ends. -/
  write : WriteResult := .done
  /-- The temporary file of a failed replacement is taken away. -/
  unlinkOk : Bool := true
  /-- Which records can be marked. -/
  marks : Text → Bool := fun _ => true
  /-- How much of a chunk is written before the failure. -/
  written : ℕ := 0
  /-- A failed write of an immutable file leaves it behind, cut short or whole. -/
  leaves : Option Bool := none
  left : Left := {}
  faults : StoredEvent → Bool := fun _ => false
  /-- The space estimate allows the build. -/
  spaceOk : Bool := true

/-- `_write_atomic` of a record. -/
def Dir.writeRecord (env : Env) (r : Record) (d : Dir) : Dir :=
  match env.write with
  | .failed => { d with litter := d.litter || !env.unlinkOk }
  | .committed | .done => { d with record := some r }

/-- `_write_file` of an immutable file. -/
def writeFile {α : Type} (env : Env) (content : α) : Option (File α) :=
  if env.ioOk then some (.whole content)
  else env.leaves.map fun whole => if whole then .whole content else .torn

/-- What `shutil.rmtree` leaves when it fails. -/
def Dir.strip (left : Left) (d : Dir) : Dir where
  record := if left.record then d.record else none
  litter := left.litter && d.litter
  vectors := if left.vectors then d.vectors else none
  metadata := if left.metadata then d.metadata else none
  manifest := if left.manifest then d.manifest else none

/-! ## The facts and the identities -/

def readFactsSchemaVersion (db : Db) : Text := ascii (toString db.metaRows.factSchemaVersion)

def desiredIdentity (config : Config) (factsEpoch factSchemaVersion : Text) : Dict :=
  [(Layer.storeEpoch.key, .text factsEpoch), (Layer.factSchema.key, .text factSchemaVersion),
    (Layer.representation.key, .text config.kit.representationId),
    (Layer.vectorFormat.key, .text config.vectorFormatVersion),
    (Layer.projection.key, .text config.target.projectionVersion),
    (Layer.index.key, .text config.target.indexFingerprint)]

def activeIdentityValue (config : Config) (factsEpoch factSchemaVersion : Text) : Dict :=
  config.activeIdentity.getD
    [(Layer.storeEpoch.key, .text factsEpoch), (Layer.factSchema.key, .text factSchemaVersion),
      (Layer.representation.key, .text config.activeRepresentationId),
      (Layer.vectorFormat.key, .text config.vectorFormatVersion),
      (Layer.projection.key, .text config.target.projectionVersion),
      (Layer.index.key, .text config.target.indexFingerprint)]

def cyclePlan (config : Config) (factsEpoch factSchemaVersion : Text) : Plan :=
  planActions config.converters (desiredIdentity config factsEpoch factSchemaVersion)
    (some (activeIdentityValue config factsEpoch factSchemaVersion)) (some factSchemaVersion)

/-- `_compute_target` on facts that validate. -/
def computeTarget (config : Config) (db : Db) (factsEpoch : Text) (clock : Hlc) : Target :=
  prepareTarget config.kit config.target factsEpoch clock (readActiveEvents db clock)

/-! ## Records -/

/-- The machine's own record, by its identity. -/
def Record.matches (config : Config) (factsEpoch : Text) (r : Record) : Bool :=
  r.identity.get (ascii "store_epoch") = some (.text factsEpoch) &&
    r.identity.get (ascii "representation_id") = some (.text config.kit.representationId) &&
    r.identity.get (ascii "builder_version") = some (.text buildVersion)

def sameFingerprint (config : Config) (factsEpoch factSchemaVersion : Text) (r : Record) : Bool :=
  identityLayers.all fun layer =>
    r.identity.get layer.key = (desiredIdentity config factsEpoch factSchemaVersion).get layer.key

/-- The first usable record, by the name of its directory, that meets a condition. -/
def findRecord (p : Record → Bool) (staging : KeyedMap Text Dir) : Option (Text × Record) :=
  staging.keys.findSome? fun name =>
    ((loadProgress staging name).filter p).map fun r => (name, r)

def findOwnRecord (config : Config) (factsEpoch : Text) (staging : KeyedMap Text Dir) :
    Option (Text × Record) :=
  findRecord (fun r => r.status ≠ .discarded && r.matches config factsEpoch) staging

def findReadyPending (config : Config) (factsEpoch factSchemaVersion : Text)
    (staging : KeyedMap Text Dir) : Option (Text × Record) :=
  findRecord (fun r => r.status = .ready && r.matches config factsEpoch &&
    sameFingerprint config factsEpoch factSchemaVersion r) staging

/-- `_mark_stale_records_discarded`. -/
def markStale (env : Env) (keep : Option Text) (staging : KeyedMap Text Dir) : KeyedMap Text Dir :=
  staging.mapValues fun name d =>
    if some name ≠ keep ∧ env.marks name = true ∧ (loadProgress staging name).isSome then
      { d with record := d.record.map fun r => { r with status := .discarded } }
    else d

/-! ## The beginning of a cycle -/

/-- `_sync_state`. -/
def World.sync (w : World) (target : Option Target) (progress : Option Record) : World :=
  w.setMachine
    { w.machine with
      currentDir := target.map Target.generationId, currentProgress := progress, pc := .idle }

def Machine.clearForced (m : Machine) : Machine :=
  { m with compactionRequested := false, forceRebuild := false }

/-- The memory after `_discard` of the machine's own staging. -/
def Machine.discarded (m : Machine) : Machine :=
  { m with
    readyVerified := false, blocked := false, blockedEpoch := none, readyGenerationId := none
    readyStagingDir := none }

/-- `_discard` of the machine's own staging. -/
def discardOwn (env : Env) (name : Text) (w : World) : World :=
  let w := w.setMachine w.machine.discarded
  match w.disk.staging.find? name, loadProgress w.disk.staging name with
  | some d, some r =>
    if r.status = .discarded then w
    else w.setDir name (d.writeRecord env { r with status := .discarded })
  | _, _ => w

/-- The machine's own record has been found. -/
def continueOwn (env : Env) (name : Text) (record : Record) (target : Target) (w : World) : World :=
  let job : Job := { dir := name, record, target }
  let w := (w.setStaging (markStale env (some name) w.disk.staging)).setMachine
    { w.machine with currentDir := some name, currentProgress := some record }
  if record.generationId ∈ w.disk.generations ∨ record.generationId = w.config.activeGenerationId then
    let w := discardOwn env name w
    (w.setMachine w.machine.clearForced).sync (some target) none
  else
    match record.status with
    | .blocked => w.sync (some target) (some record)
    | .ready =>
      if w.machine.readyVerified then w.goto (.work job .settle) else w.goto (.work job .gateReady)
    | _ => w.goto (.work job .gate)

/-- No build is asked for: at most a ready staging of the same fingerprint is kept. -/
def keepPending (env : Env) (factsEpoch factSchemaVersion : Text) (target : Target) (w : World) :
    World :=
  match findReadyPending w.config factsEpoch factSchemaVersion w.disk.staging with
  | none => (w.setStaging (markStale env none w.disk.staging)).sync (some target) none
  | some (name, record) =>
    let w := w.setStaging (markStale env (some name) w.disk.staging)
    if record.generationId = w.config.activeGenerationId ∨
        record.generationId ∈ w.disk.generations then
      let w := discardOwn env name w
      (w.setMachine w.machine.clearForced).sync (some target) none
    else if w.machine.readyVerified then w.sync (some target) (some record)
    else w.goto (.work ⟨name, record, target, true⟩ .gateReady)

def buildOrContinue (env : Env) (factsEpoch : Text) (target : Target) (w : World) : World :=
  match findOwnRecord w.config factsEpoch w.disk.staging with
  | some (name, record) => continueOwn env name record target w
  | none =>
    let w := w.setStaging (markStale env none w.disk.staging)
    if target.generationId ∈ w.disk.generations then w.sync (some target) none
    else w.goto (.start target.generationId target .clear)

/-- The machine waits for a retry, unless the epoch has changed. -/
def Machine.parked (m : Machine) (factsEpoch : Text) : Bool :=
  m.blocked && !(m.currentProgress.any fun r => r.status = .blocked) &&
    m.blockedEpoch = some factsEpoch

/-- The memory once the block without a record is dropped. -/
def Machine.unparked (m : Machine) : Machine :=
  if m.blocked && !(m.currentProgress.any fun r => r.status = .blocked) then
    { m with blocked := false, blockedEpoch := none }
  else m

/-- The forced-build flags. -/
def Machine.forced (m : Machine) : Bool := m.compactionRequested || m.forceRebuild

/-- `_cycle`, up to the first step of a build. -/
def beginCycle (env : Env) (w : World) : World :=
  if w.machine.pc ≠ .idle then w
  else
    match if env.readOk then readFactsIdentity w.db else none with
    | none => w
    | some (factsEpoch, clock) =>
      if w.config.refuseReason ≠ none then w.sync none none
      else if w.machine.parked factsEpoch then w
      else
        let w := w.setMachine w.machine.unparked
        match invalidEvent (readActiveEvents w.db clock) with
        | some _ =>
          w.setMachine { w.machine with blocked := true, blockedEpoch := some factsEpoch }
        | none =>
          let target := computeTarget w.config w.db factsEpoch clock
          let schema := readFactsSchemaVersion w.db
          let plan := cyclePlan w.config factsEpoch schema
          if plan.refuseReason ≠ none then
            (w.setStaging (markStale env none w.disk.staging)).sync (some target) none
          else if plan.idles = true ∧ w.machine.forced = false then
            keepPending env factsEpoch schema target w
          else buildOrContinue env factsEpoch target w

/-! ## The start of a build -/

def endStart (dir : Text) (target : Target) (w : World) : World :=
  w.sync (some target) (loadProgress w.disk.staging dir)

/-- The first record of a build. -/
def Target.record (target : Target) : Record where
  generationId := target.generationId
  status := .running
  totalRows := target.rows.length
  rowsFingerprint := target.rowsFingerprint
  identity := target.identity
  chunks := []

/-- `_start_build`. -/
def startStep (env : Env) (dir : Text) (target : Target) (w : World) : StartPc → World
  | .clear =>
    if env.spaceOk = false then endStart dir target w
    else
      match w.disk.staging.find? dir with
      | none => w.goto (.start dir target .create)
      | some d =>
        if env.ioOk then
          (w.setStaging (w.disk.staging.erase dir)).goto (.start dir target .create)
        else endStart dir target (w.setDir dir (d.strip env.left))
  | .create =>
    if env.ioOk then (w.setDir dir {}).goto (.start dir target .write) else endStart dir target w
  | .write =>
    match w.disk.staging.find? dir with
    | none => endStart dir target w
    | some d =>
      let w := w.setDir dir (d.writeRecord env target.record)
      match env.write with
      | .failed => endStart dir target w
      | .committed => w.goto .idle
      | .done =>
        endStart dir target
          (w.setMachine
            { w.machine with blocked := false, blockedEpoch := none, readyVerified := false })

/-! ## The steps of a build -/

/-- What `_resume_gate` comes to. -/
inductive Gate where
  | raised | unread | stale
  | passes (pinned : Pinned)

def resumeGate (env : Env) (config : Config) (db : Db) (record : Record) : Gate :=
  match record.identity.get (ascii "source_hlc") with
  | some (.hlc point) =>
    match if env.readOk then readFactsIdentity db else none with
    | none => .unread
    | some (storeEpoch, _) =>
      let events := readActiveEvents db point
      let target := prepareTarget config.kit config.target storeEpoch point events
      if record.identity.get (ascii "store_epoch") ≠ some (.text storeEpoch) ∨
          invalidEvent events ≠ none ∨ target.generationId ≠ record.generationId ∨
          target.rowsFingerprint ≠ record.rowsFingerprint then .stale
      else .passes ⟨events, target⟩
  | _ => .raised

/-- The cycle ends by an exception. -/
def World.fault (w : World) : World := w.goto .idle

/-- The build goes on at another place. -/
def World.work (w : World) (job : Job) (pc : WorkPc) : World := w.goto (.work job pc)

/-- `_verify_progress_chunks`, and what follows it. -/
def stepVerifyChunks (env : Env) (job : Job) (d : Dir) (pinned : Pinned) (w : World) : World :=
  let verified : Option (ℕ × List Byte) :=
    if job.record.chunks = [] then some (0, [])
    else
      match d.vectors with
      | some vectors =>
        if env.ioOk then verifyProgressChunks w.config.kit vectors 0 job.record.chunks else none
      | none => none
  match verified with
  | none => w.work job .discard
  | some (next, digest) =>
    if next < job.record.totalRows then w.work job (.openVectors pinned next)
    else if d.vectors = none then w.work job (.empty pinned (w.config.kit.sha256 digest))
    else w.work job (.metadata pinned (w.config.kit.sha256 digest))

/-- The vector file is created, or cut back to the verified rows. -/
def stepOpenVectors (env : Env) (job : Job) (d : Dir) (pinned : Pinned) (next : ℕ) (w : World) :
    World :=
  if env.ioOk = false then w.fault
  else
    match next, d.vectors with
    | 0, none => (w.setDir job.dir { d with vectors := some [] }).work job (.embed pinned 0)
    | 0, some _ => w.fault
    | _ + 1, none => w.fault
    | next + 1, some vectors =>
      (w.setDir job.dir
        { d with vectors := some (vectors.take ((next + 1) * (w.config.kit.dimension * 4))) }).work
        job (.embed pinned (next + 1))

/-- One chunk is embedded and written. -/
def stepEmbed (env : Env) (job : Job) (d : Dir) (pinned : Pinned) (next : ℕ) (w : World) : World :=
  let chunk := buildChunk w.config.kit w.config.chunkRows pinned.events next
  let part := (pinned.events.drop next).take (chunk.1.endRow - next)
  if part.any env.faults then w.work job .block
  else
    match d.vectors with
    | none => w.fault
    | some vectors =>
      if env.ioOk then
        (w.setDir job.dir { d with vectors := some (vectors ++ chunk.2) }).work
          { job with record := { job.record with chunks := job.record.chunks ++ [chunk.1] } } .mark
      else
        (w.setDir job.dir { d with vectors := some (vectors ++ chunk.2.take env.written) }).fault

/-- `_enter_blocked`. -/
def stepBlock (env : Env) (job : Job) (d : Dir) (w : World) : World :=
  let w := w.setDir job.dir (d.writeRecord env { job.record with status := .blocked })
  if env.write = .committed ∨ env.readOk = false then w.fault
  else
    (w.setMachine
      { w.machine with
        blocked := true, blockedEpoch := (readFactsIdentity w.db).map Prod.fst }).work job .settle

/-- `metadata.json`. -/
def stepMetadata (env : Env) (job : Job) (d : Dir) (pinned : Pinned) (sha256 : Text) (w : World) :
    World :=
  if d.metadata ≠ none then w.work job (.manifest pinned sha256)
  else
    let w := w.setDir job.dir { d with metadata := writeFile env pinned.target.rows }
    if env.ioOk then w.work job (.manifest pinned sha256) else w.work job .settle

/-- The probes and `manifest.json`. -/
def stepManifest (env : Env) (job : Job) (d : Dir) (pinned : Pinned) (sha256 : Text) (w : World) :
    World :=
  if d.manifest ≠ none then w.work job (.park false)
  else
    match d.vectors, d.metadata, pinned.target.identity.get (ascii "source_hlc") with
    | some vectors, some metadata, some (.hlc sourceHlc) =>
      if env.readOk = false ∨ (pinned.events ≠ [] ∧
          vectors.length ≠ pinned.events.length * (w.config.kit.dimension * 4)) then w.fault
      else if (pinned.events.take 4).any env.faults then w.work job .block
      else
        let manifest := composeManifest w.config.kit pinned.target job.record.chunks
          (computeProbes w.config.kit w.db pinned.events vectors sourceHlc) metadata vectors sha256
        let w := w.setDir job.dir { d with manifest := writeFile env manifest }
        if env.ioOk then w.work job (.park false) else w.work job .settle
    | _, _, _ => w.fault

/-- The progress record is renamed out of the container. -/
def stepPark (env : Env) (again : Bool) (job : Job) (d : Dir) (w : World) : World :=
  match d.record with
  | some r =>
    if env.ioOk then
      ({ w with
        disk :=
          { w.disk with
            staging := w.disk.staging.insert job.dir { d with record := none }
            parked := w.disk.parked.insert job.dir r } }).work job (.reopen again)
    else
      { w with
        disk :=
          { w.disk with
            parked := if env.unlinkOk then w.disk.parked.erase job.dir else w.disk.parked } }.fault
  | none =>
    { w with
      disk :=
        { w.disk with
          parked := if env.unlinkOk then w.disk.parked.erase job.dir else w.disk.parked } }.fault

/-- The progress record is renamed back. -/
def stepUnpark (env : Env) (again accepted : Bool) (job : Job) (d : Dir) (w : World) : World :=
  let w : World :=
    match w.disk.parked.find? job.dir with
    | some r =>
      if env.ioOk then
        { w with
          disk :=
            { w.disk with
              staging := w.disk.staging.insert job.dir { d with record := some r }
              parked := w.disk.parked.erase job.dir } }
      else w
    | none => w
  if accepted = false then w.work job .discard
  else if again then
    (w.setMachine
      { w.machine with
        readyVerified := true, readyGenerationId := some job.record.generationId
        readyStagingDir := some job.dir }).work job .settle
  else w.work job .ready

/-- The record is put back, or it stays where it is. -/
theorem stepUnpark_cases (env : Env) (again accepted : Bool) (job : Job) (d : Dir) (w : World) :
    ∃ w', (w' = w ∨ ∃ r, w.disk.parked.find? job.dir = some r ∧ w' =
        { w with
          disk :=
            { w.disk with
              staging := w.disk.staging.insert job.dir { d with record := some r }
              parked := w.disk.parked.erase job.dir } }) ∧
      stepUnpark env again accepted job d w =
        if accepted = false then w'.work job .discard
        else if again then
          (w'.setMachine
            { w'.machine with
              readyVerified := true, readyGenerationId := some job.record.generationId
              readyStagingDir := some job.dir }).work job .settle
        else w'.work job .ready := by
  refine ⟨_, ?_, rfl⟩
  split
  · next r hr =>
    split
    · exact Or.inr ⟨r, hr, rfl⟩
    · exact Or.inl rfl
  · exact Or.inl rfl

/-- The record is marked ready. -/
def stepReady (env : Env) (job : Job) (d : Dir) (w : World) : World :=
  let w := w.setDir job.dir (d.writeRecord env { job.record with status := .ready })
  match env.write with
  | .failed => w.work job .settle
  | .committed => w.fault
  | .done =>
    (w.setMachine
      { w.machine with
        readyGenerationId := some job.record.generationId, readyStagingDir := some job.dir }).work
      job .settle

/-- The end of a cycle: a staging that was discarded in it is started afresh. -/
def stepSettle (job : Job) (w : World) : World :=
  if job.pending then w.sync (some job.target) (some job.record)
  else
  match loadProgress w.disk.staging job.dir with
  | some r =>
    if r.status = .discarded then w.goto (.start job.dir job.target .clear)
    else w.sync (some job.target) (some r)
  | none => w.sync (some job.target) none

def workStep (env : Env) (job : Job) (w : World) (pc : WorkPc) : World :=
  match w.disk.staging.find? job.dir with
  | none => w.fault
  | some d =>
    match pc with
    | .gate =>
      match resumeGate env w.config w.db job.record with
      | .raised => w.fault
      | .unread => w.work job .settle
      | .stale => w.work job .discard
      | .passes pinned => w.work job (.verifyChunks pinned)
    | .verifyChunks pinned => stepVerifyChunks env job d pinned w
    | .openVectors pinned next => stepOpenVectors env job d pinned next w
    | .embed pinned next => stepEmbed env job d pinned next w
    | .mark =>
      let w := w.setDir job.dir (d.writeRecord env job.record)
      if env.write = .done ∧ env.ioOk = true then w.work job .settle else w.fault
    | .block => stepBlock env job d w
    | .empty pinned sha256 =>
      if env.ioOk then
        (w.setDir job.dir { d with vectors := some [] }).work job (.metadata pinned sha256)
      else w.work job .settle
    | .metadata pinned sha256 => stepMetadata env job d pinned sha256 w
    | .manifest pinned sha256 => stepManifest env job d pinned sha256 w
    | .gateReady =>
      match resumeGate env w.config w.db job.record with
      | .raised => w.fault
      | .unread => w.work job .settle
      | .stale => w.work job .discard
      | .passes _ => w.work job (.park true)
    | .park again => stepPark env again job d w
    | .reopen again =>
      w.work job (.unpark again (env.ioOk && d.container.any (verifyContainer w.config.kit job.dir)))
    | .unpark again accepted => stepUnpark env again accepted job d w
    | .ready => stepReady env job d w
    | .discard => (discardOwn env job.dir w).work job .settle
    | .settle => stepSettle job w

/-! ## Runs -/

def retry (env : Env) (w : World) : World :=
  let w := w.setMachine
    { w.machine with blocked := false, blockedEpoch := none, readyVerified := false }
  match w.machine.currentDir, w.machine.currentProgress with
  | some name, some r =>
    if r.status = .blocked then
      match w.disk.staging.find? name with
      | some d => w.setDir name (d.writeRecord env { r with status := .running })
      | none => w
    else w
  | _, _ => w

/-- What the publisher does with the ready staging. -/
inductive Publication where
  /-- The container is published; `hooked` says that the success hook runs. -/
  | published (hooked : Bool)
  /-- `publish_reject`. -/
  | rejected (env : Env)
  /-- `publish_block`. -/
  | blocked (env : Env)

/-- The publisher takes up the ready staging, between two cycles. -/
def publish (publication : Publication) (w : World) : World :=
  match w.machine.pc, w.machine.readyStagingDir with
  | .idle, some name =>
    match w.disk.staging.find? name, loadProgress w.disk.staging name with
    | some d, some r =>
      if r.status ≠ .ready ∨ w.machine.readyGenerationId ≠ some r.generationId ∨
          (w.machine.currentProgress.any fun p =>
            p.status = .ready && p.generationId = r.generationId) = false then w
      else
        match publication with
        | .published hooked =>
          { w with
            disk :=
              { w.disk with
                staging := w.disk.staging.erase name
                generations := r.generationId :: w.disk.generations }
            machine := if hooked then w.machine.clearForced else w.machine }
        | .rejected env => discardOwn env name w
        | .blocked env =>
          (w.setDir name (d.writeRecord env { r with status := .blocked })).setMachine
            { w.machine with
              readyVerified := false, readyGenerationId := none, readyStagingDir := none }
    | _, _ => w
  | _, _ => w

inductive Action where
  | facts (call : FactStore.Call)
  | cycle (env : Env)
  /-- The running cycle goes on. -/
  | work (env : Env)
  | retry (env : Env)
  /-- `request_compaction` or `force_rebuild_from_facts`. -/
  | requestCompaction
  | forceRebuild
  | publish (publication : Publication)
  | crash

def step (w : World) : Action → World
  | .facts call => { w with facts := FactStore.step w.facts call }
  | .cycle env => beginCycle env w
  | .work env =>
    match w.machine.pc with
    | .idle => w
    | .start dir target pc => startStep env dir target w pc
    | .work job pc => workStep env job w pc
  | .retry env => retry env w
  | .requestCompaction => w.setMachine { w.machine with compactionRequested := true }
  | .forceRebuild => w.setMachine { w.machine with forceRebuild := true }
  | .publish publication => publish publication w
  | .crash => w.setMachine (Machine.created w.config.forceRebuild)

/-- A store just created, nothing derived from it, and the machine of its first process. -/
def World.created (config : Config) (now : ℤ) (historyId storeEpoch : Text) : World where
  config := config
  facts := FactStore.World.created now historyId storeEpoch
  disk := {}
  machine := Machine.created config.forceRebuild

end Staging
end SemanticMemory
