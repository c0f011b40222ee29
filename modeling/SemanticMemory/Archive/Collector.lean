import SemanticMemory.Archive.Record
import SemanticMemory.Lib.Runs

/-!
# The collector of the input archive

One process owns the archive's directory.  Connections admit observations to a bounded queue under
the state lock; one publication thread takes batches off the queue and publishes them: it appends
the lines of the batch to `quarantine.jsonl` and `observations.jsonl`, writes the new watermark to
`state.json`, and only then installs the watermark and the index rows in memory.

* `Memory` is what the process holds under its lock, and `Thread` where its publication thread is.
  Every place is a piece of the loop between two acquisitions of the lock or two effects on the disk,
  so admissions, checkpoints and a shutdown fall between any two pieces.
* `Disk` is the two files and `state.json`.  `Append` and `Write` are the ways an append and an
  `atomic_write` come out; a process may end at any moment (`Action.crash`), also inside `prepare`.
* `acceptOne` is `_accept_one` from the prepared observation on.  Whether a restore is under way, the
  source is registered and capture is enabled is up to the `Gate` of the call.
-/

namespace SemanticMemory
namespace Archive

/-- The limits that admission and publication read. -/
structure Limits where
  collectorQueueCount : ℕ := 256
  collectorQueueBytes : ℕ := 1048576
  maxEventBytes : ℕ := 65536
  archiveCapacityBytes : ℕ := 67108864
  batchSize : ℕ := 64
  batchSize_pos : 0 < batchSize := by decide

/-- What a collector is started with. -/
structure Config where
  sha256 : Text → Str
  limits : Limits := {}
  autoCheckpoint : Bool := true
  phaseHold : Bool := false

/-! ## The disk -/

/-- `state.json`. -/
structure State where
  durableSeq : ℕ := 0
  durableOffset : ℕ := 0
  durableBytes : ℕ := 0
  maxPublishedSeq : ℕ := 0
  knownDroppedUnits : ℕ := 0
  storageFailedUnits : ℕ := 0
  capacityRefusedUnits : ℕ := 0
  identityConflicts : ℕ := 0
  capacityStop : Bool := false
  storageFailure : Bool := false
  /-- `crash_tail == "unknown"`. -/
  crashTail : Bool := false
  discardedUnpublishedBytes : ℕ := 0
  cleanStop : Bool := false
  quarantineBytes : ℕ := 0
  admissionRefusedUnits : ℕ := 0
  discardedQuarantineBytes : ℕ := 0
  deriving DecidableEq

/-- The file `state.json`: absent, no JSON, or a state. -/
inductive StateFile where
  | absent
  | damaged
  | holds (state : State)
  deriving DecidableEq

/-- The files of the archive. -/
structure Disk where
  observations : Option Text := none
  quarantine : Option Text := none
  state : StateFile := .absent

/-- How `_append` comes out: `os.write` takes the first `n` bytes and says so, or an error is raised
once `n` bytes are in the file. -/
inductive Append where
  | ok
  | short (n : ℕ)
  | failed (n : ℕ)
  deriving DecidableEq

/-- How `atomic_write` comes out: the target is replaced, replaced by the head of the data, left
alone with an error, or replaced with an error. -/
inductive Write where
  | ok
  | short
  | failed
  | late
  deriving DecidableEq

def Append.bytes (data : Text) : Append → Text
  | .ok => data
  | .short n | .failed n => data.take n

def Append.raises : Append → Bool
  | .ok | .short _ => false
  | .failed _ => true

/-- `atomic_write(self.state_path, payload)`. -/
def Write.file (old : StateFile) (payload : State) : Write → StateFile
  | .ok | .late => .holds payload
  | .short => .damaged
  | .failed => old

/-- An `atomic_write` raises. -/
def Write.raises : Write → Bool
  | .ok | .short => false
  | .failed | .late => true

/-- The bytes of a file, if it is there. -/
def content (file : Option Text) : Text := file.getD []

def regularSize (file : Option Text) : ℕ := (content file).length

/-- `os.open` with `O_CREAT | O_APPEND`, and the bytes written. -/
def appended (file : Option Text) (bytes : Text) : Option Text := some (content file ++ bytes)

/-- `_truncate_file`. -/
def truncated (file : Option Text) (offset : ℕ) : Option Text := file.map fun t => t.take offset

/-! ## The process -/

structure Item where
  semantic : Semantic
  size : ℕ
  quarantine : Bool
  deriving DecidableEq

/-- One of `observation_lines`, with its record of `metas` and the item it comes from. -/
structure ObservationLine where
  item : Item
  record : Json
  line : Text
  deriving DecidableEq

/-- One of `quarantine_lines`, with the item it comes from. -/
structure QuarantineLine where
  item : Item
  line : Text
  deriving DecidableEq

/-- The variables of `_publish_inner`. -/
structure Laid where
  observations : List ObservationLine := []
  quarantine : List QuarantineLine := []
  used : ℕ
  nextSeq : ℕ
  deriving DecidableEq

/-- `b"".join(observation_lines)`. -/
def Laid.observationBytes (l : Laid) : Text := l.observations.flatMap ObservationLine.line

/-- `b"".join(quarantine_lines)`. -/
def Laid.quarantineBytes (l : Laid) : Text := l.quarantine.flatMap QuarantineLine.line

/-- `before_offset` and `before_quarantine`. -/
structure Sizes where
  offset : ℕ
  quarantine : ℕ
  deriving DecidableEq

inductive Thread where
  /-- At the head of the loop. -/
  | idle
  /-- `_persist_state`, before it reads the state. -/
  | persistState
  /-- `_persist_state`, before it writes. -/
  | writeState (payload : State)
  /-- `_publish_inner`: the items without a line yet. -/
  | lay (todo : List Item) (laid : Laid)
  /-- Before the sizes of the files are read. -/
  | measure (laid : Laid)
  | appendQuarantine (laid : Laid) (before : Sizes)
  | appendObservations (laid : Laid) (before : Sizes)
  | failed (laid : Laid)
  /-- Both appends are done. -/
  | stage (laid : Laid) (before : Sizes)
  /-- The watermark is pending. -/
  | hold (laid : Laid) (before : Sizes) (pending : State)
  | publish (laid : Laid) (pending : State)
  | install (laid : Laid) (pending : State)
  | done
  /-- An exception has ended the loop. -/
  | dead
  deriving DecidableEq

/-- The collector's memory. -/
structure Memory where
  state : State
  queue : List Item := []
  queueBytes : ℕ := 0
  publishingUnits : ℕ := 0
  index : List Entry := []
  identities : Identity → Option Str := fun _ => none
  checkpointRequested : Bool := false
  waiters : Bool := false
  stop : Bool := false
  thread : Thread := .idle

namespace Memory

variable (c : Config)

def updateState (m : Memory) (f : State → State) : Memory := { m with state := f m.state }

/-- `identity_conflicts` goes up. -/
def countConflict (m : Memory) : Memory :=
  m.updateState fun s => { s with identityConflicts := s.identityConflicts + 1 }

/-- `known_dropped_units` goes up. -/
def countDrop (m : Memory) : Memory :=
  m.updateState fun s => { s with knownDroppedUnits := s.knownDroppedUnits + 1 }

/-- The capacity is exhausted, and an item is refused for it. -/
def refuseForCapacity (m : Memory) : Memory :=
  m.updateState fun s =>
    { s with capacityStop := true, capacityRefusedUnits := s.capacityRefusedUnits + 1 }

/-- `self._identities.pop(identity, None)`. -/
def forget (m : Memory) (i : Identity) : Memory :=
  { m with identities := Function.update m.identities i none }

/-- `self._identities[identity] = content_hash`. -/
def know (m : Memory) (i : Identity) (hash : Str) : Memory :=
  { m with identities := Function.update m.identities i (some hash) }

def remember (m : Memory) (r : Json) (offset length : ℕ) : Memory :=
  let m' := { m with index := m.index ++ [entryOf c.sha256 r offset length] }
  match remembered r with
  | some (identity, hash) => m'.know identity hash
  | none => m'

/-! ### Admission -/

/-- `_fits_locked`. -/
def fits (m : Memory) (size : ℕ) : Bool :=
  m.queue.length + 1 ≤ c.limits.collectorQueueCount &&
    m.queueBytes + size ≤ c.limits.collectorQueueBytes

/-- The item is put at the end of the queue. -/
def enqueue (m : Memory) (i : Item) : Memory :=
  { m with queue := m.queue ++ [i], queueBytes := m.queueBytes + i.size }

/-- `_displace_locked`. -/
def displace (m : Memory) (index : ℕ) : Memory :=
  match m.queue[index]? with
  | none => m
  | some item =>
    let m' := { m with queue := m.queue.eraseIdx index, queueBytes := m.queueBytes - item.size }
    let m'' := if item.quarantine then m' else m'.forget item.semantic.identity
    m''.countDrop

def displaceable (i : Item) : Bool := !i.semantic.isHigh && !i.quarantine

def queueLocked (m : Memory) (i : Item) : Memory × Bool :=
  if m.fits c i.size then (m.enqueue i, true)
  else if i.semantic.isHigh then
    match m.queue.findIdx? displaceable with
    | some index => ((m.displace index).enqueue i, true)
    | none => (m, false)
  else (m, false)

end Memory

/-- An answer of `_accept_one`. -/
inductive Code where
  | eventTooLarge
  | storageFailure
  | invalidRequest
  | capacityStop
  | captureDisabled
  | duplicate
  | identityConflict
  | queueSaturated
  | admitted
  deriving DecidableEq

/-- What an admission asks of the rest of the collector. -/
structure Gate where
  /-- A restore is under way, or the management authority is not available. -/
  unavailable : Bool := false
  /-- The source is registered with the serving generation. -/
  allowed : Bool := true
  /-- `self._policy["desired"] == "enabled"`. -/
  enabled : Bool := true

/-- `_accept_one`, once the observation is prepared. -/
def acceptOne (c : Config) (g : Gate) (m : Memory) (s : Semantic) : Memory × Code :=
  if c.limits.maxEventBytes < s.size then
    (m.updateState fun t => { t with admissionRefusedUnits := t.admissionRefusedUnits + 1 },
      .eventTooLarge)
  else if g.unavailable then (m, .storageFailure)
  else if !g.allowed then (m, .invalidRequest)
  else if m.state.storageFailure then (m, .storageFailure)
  else if m.state.capacityStop then
    (m.updateState fun t => { t with capacityRefusedUnits := t.capacityRefusedUnits + 1 },
      .capacityStop)
  else if !s.kind.isContentFree && !g.enabled then (m, .captureDisabled)
  else match m.identities s.identity with
    | some previous =>
      if previous = s.contentHash c.sha256 then (m, .duplicate)
      else
        let p := m.countConflict.queueLocked c ⟨s, s.size, true⟩
        (p.1, if p.2 then .identityConflict else .queueSaturated)
    | none =>
      let p := m.queueLocked c ⟨s, s.size, false⟩
      if p.2 then (p.1.know s.identity (s.contentHash c.sha256), .admitted)
      else (p.1.countDrop, .queueSaturated)

/-! ### Publication -/

namespace Memory

variable (c : Config)

/-- `count` of `_take_batch`. -/
def count (m : Memory) : ℕ :=
  if m.checkpointRequested || c.autoCheckpoint || m.stop then m.queue.length else 0

/-- The first `take` items leave the queue. -/
def taken (m : Memory) (take : ℕ) : Memory :=
  { m with
    queue := m.queue.drop take
    queueBytes := m.queueBytes - ((m.queue.take take).map Item.size).sum
    publishingUnits := (m.queue.take take).length
    waiters := if m.queue.drop take = [] then false else m.waiters
    checkpointRequested := if m.queue.drop take = [] then false else m.checkpointRequested
    thread := .lay (m.queue.take take)
      { used := m.state.durableBytes + m.state.quarantineBytes, nextSeq := m.state.durableSeq } }

/-- There is nothing to publish, and whoever waits is answered. -/
def answered (m : Memory) : Memory :=
  { m with
    waiters := false
    checkpointRequested := false
    thread := if m.waiters then .persistState else .idle }

/-- The head of the loop: `_take_batch`, and where its answer leads. -/
def takeBatch (m : Memory) : Memory :=
  if m.stop ∧ m.queue = [] then { m with thread := .done }
  else if m.count c = 0 ∧ m.checkpointRequested = false then m
  else if min m.queue.length c.limits.batchSize = 0 then m.answered
  else m.taken (min m.queue.length c.limits.batchSize)

/-- One round of the loop over the batch. -/
def layItem (m : Memory) (i : Item) (todo : List Item) (laid : Laid) : Memory :=
  if i.quarantine then
    let line := quarantineLine c.sha256 i.semantic
    if c.limits.archiveCapacityBytes < laid.used + line.length then
      { m.refuseForCapacity with thread := .lay todo laid }
    else
      { m with
        thread := .lay todo { laid with
          quarantine := laid.quarantine ++ [⟨i, line⟩]
          used := laid.used + line.length } }
  else
    let r := record c.sha256 i.semantic (laid.nextSeq + 1)
    let line := r.line
    if c.limits.archiveCapacityBytes < laid.used + line.length then
      { m.refuseForCapacity.forget i.semantic.identity with thread := .lay todo laid }
    else
      { m with
        thread := .lay todo { laid with
          observations := laid.observations ++ [⟨i, r, line⟩]
          used := laid.used + line.length
          nextSeq := laid.nextSeq + 1 } }

/-- An append has raised: the batch is given up. -/
def giveUp (m : Memory) (laid : Laid) : Memory :=
  let m' := m.updateState fun s => { s with
    storageFailure := true
    storageFailedUnits := s.storageFailedUnits + (laid.observations.length + laid.quarantine.length) }
  let m'' := { m' with publishingUnits := 0, thread := .persistState }
  laid.observations.foldl (fun m l =>
    match identityOf l.record with
    | some identity => m.forget identity
    | none => m) m''

/-- The watermark to come. -/
def pending (s : State) (laid : Laid) : State :=
  let s' := { s with
    durableOffset := s.durableOffset + laid.observationBytes.length
    durableBytes := s.durableBytes + laid.observationBytes.length
    quarantineBytes := s.quarantineBytes + laid.quarantineBytes.length }
  let s'' := match laid.observations.getLast? with
    | none => s'
    | some l => { s' with
        durableSeq := seqOf l.record
        maxPublishedSeq := max s'.maxPublishedSeq (seqOf l.record) }
  { s'' with
    capacityStop := s''.capacityStop ||
      decide (c.limits.archiveCapacityBytes ≤ s''.durableBytes + s''.quarantineBytes) }

/-- The loop around the publication ends by an exception. -/
def die (m : Memory) : Memory :=
  { m.updateState fun s => { s with storageFailure := true } with thread := .dead }

/-- The records of a batch are remembered one after the other, from the byte `offset` on. -/
def rememberAll (m : Memory) : List ObservationLine → ℕ → Memory
  | [], _ => m
  | l :: lines, offset =>
    (m.remember c l.record offset l.line.length).rememberAll lines (offset + l.line.length)

/-- The watermark is durable: it is installed together with the rows. -/
def installed (m : Memory) (laid : Laid) (pending : State) : Memory :=
  let m' := m.rememberAll c laid.observations m.state.durableOffset
  { m'.updateState fun s => { s with
      durableSeq := pending.durableSeq
      durableOffset := pending.durableOffset
      durableBytes := pending.durableBytes
      quarantineBytes := pending.quarantineBytes
      maxPublishedSeq := pending.maxPublishedSeq
      capacityStop := s.capacityStop || pending.capacityStop } with
    publishingUnits := 0
    thread := .idle }

end Memory

/-- How the effects of one piece come out. -/
structure Env where
  append : Append := .ok
  write : Write := .ok
  /-- A managed path turns out to be an alias. -/
  unsafePath : Bool := false
  deriving DecidableEq

/-- One piece of the publication thread. -/
def work (c : Config) (env : Env) (d : Disk) (m : Memory) : Disk × Memory :=
  match m.thread with
  | .idle => (d, m.takeBatch c)
  | .persistState => (d, { m with thread := .writeState m.state })
  | .writeState payload =>
    ({ d with state := env.write.file d.state payload },
      if env.write.raises then m.die else { m with thread := .idle })
  | .lay [] laid => (d, { m with thread := .measure laid })
  | .lay (i :: todo) laid => (d, m.layItem c i todo laid)
  | .measure laid =>
    if env.unsafePath then (d, m.die)
    else (d, { m with
      thread := .appendQuarantine laid ⟨regularSize d.observations, regularSize d.quarantine⟩ })
  | .appendQuarantine laid before =>
    if laid.quarantine = [] then (d, { m with thread := .appendObservations laid before })
    else if env.unsafePath then (d, { m with thread := .failed laid })
    else
      ({ d with quarantine := appended d.quarantine (env.append.bytes laid.quarantineBytes) },
        { m with thread :=
            if env.append.raises then .failed laid else .appendObservations laid before })
  | .appendObservations laid before =>
    if laid.observations = [] then (d, { m with thread := .stage laid before })
    else if env.unsafePath then (d, { m with thread := .failed laid })
    else
      ({ d with observations := appended d.observations (env.append.bytes laid.observationBytes) },
        { m with thread := if env.append.raises then .failed laid else .stage laid before })
  | .failed laid => (d, m.giveUp laid)
  | .stage laid before => (d, { m with thread := .hold laid before (Memory.pending c m.state laid) })
  | .hold laid before pending =>
    if c.phaseHold ∧ (laid.observations ≠ [] ∨ laid.quarantine ≠ []) ∧ m.stop then
      if env.unsafePath then (d, m.die)
      else ({ d with
          observations := truncated d.observations before.offset
          quarantine := truncated d.quarantine before.quarantine },
        { m with publishingUnits := 0, thread := .idle })
    else (d, { m with thread := .publish laid pending })
  | .publish laid pending =>
    if env.write.raises then
      ({ d with state := env.write.file d.state pending },
        (m.updateState fun s => { s with crashTail := true }).die)
    else
      ({ d with state := env.write.file d.state pending }, { m with thread := .install laid pending })
  | .install laid pending => (d, m.installed c laid pending)
  | .done => (d, m)
  | .dead => (d, m)

/-- The memory that knows whether the stop is clean. -/
def Memory.cleaned (m : Memory) (d : Disk) : Memory :=
  m.updateState fun s => { s with
    cleanStop := !s.storageFailure && decide (regularSize d.observations = s.durableOffset) &&
      decide (regularSize d.quarantine = s.quarantineBytes) }

/-- `_mark_clean`, once the publication thread has ended. -/
def markClean (write : Write) (d : Disk) (m : Memory) : Disk × Memory :=
  if m.stop ∧ (m.thread = .done ∨ m.thread = .dead) then
    ({ d with state := write.file d.state (m.cleaned d).state }, m.cleaned d)
  else (d, m)

/-! ## The start -/

/-- `_reconcile_file`: the file, the bytes cut off, and whether it is shorter than its watermark. -/
def reconcile (file : Option Text) (watermark : ℕ) : Option Text × ℕ × Bool :=
  match file with
  | none => (none, 0, decide (watermark ≠ 0))
  | some t =>
    if watermark < t.length then (some (t.take watermark), t.length - watermark, false)
    else (some t, 0, decide (t.length < watermark))

/-- The state that `_load_state` makes of the previous one, after both files are reconciled. -/
def loadedState (previous : State) (extra quarantineExtra : ℕ) (short : Bool) : State :=
  { previous with
    maxPublishedSeq := max previous.maxPublishedSeq previous.durableSeq
    discardedUnpublishedBytes := extra
    discardedQuarantineBytes := quarantineExtra
    storageFailure := previous.storageFailure || short
    crashTail := !previous.cleanStop || decide (extra ≠ 0) || decide (quarantineExtra ≠ 0) || short
    cleanStop := false }

/-- The loop of `_rebuild_index` at the byte `start`, before the bytes `text`. -/
def rebuildFrom (c : Config) (limit : ℕ) : ℕ → Text → ℕ → Memory → Memory
  | 0, _, _, m => m
  | fuel + 1, text, start, m =>
    if start < limit then
      let p := Json.readLine text
      if p.1 = [] then m
      else if limit < start + p.1.length then
        m.updateState fun s => { s with storageFailure := true }
      else match Json.loads p.1 with
        | some (.obj fs) =>
          rebuildFrom c limit fuel p.2 (start + p.1.length) (m.remember c (.obj fs) start p.1.length)
        | _ => m.updateState fun s => { s with storageFailure := true }
    else m

def rebuildIndex (c : Config) (observations : Option Text) (s : State) : Memory :=
  let text := content observations
  rebuildFrom c s.durableOffset text.length text 0 { state := s }

/-- Where a start may end before it is served. -/
inductive Halt where
  | state
  | observations
  | quarantine
  | files
  deriving DecidableEq

def prepareFiles (d : Disk) : Disk :=
  { d with observations := some (content d.observations), quarantine := some (content d.quarantine) }

/-- `prepare` from the loaded state on: the files are made, the index is rebuilt and the state is
written. -/
def prepareServing (c : Config) (d : Disk) (s : State) (halt : Option Halt) (write : Write) :
    Disk × Option Memory :=
  let d' := prepareFiles d
  if halt = some .files then (d', none)
  else
    let m := rebuildIndex c d'.observations s
    ({ d' with state := write.file d'.state m.state }, if write.raises then none else some m)

/-- `prepare` of an archive that has a state: both files are cut to their watermarks. -/
def prepareLoaded (c : Config) (d : Disk) (previous : State) (halt : Option Halt) (write : Write) :
    Disk × Option Memory :=
  let o := reconcile d.observations previous.durableOffset
  let q := reconcile d.quarantine previous.quarantineBytes
  if halt = some .observations then ({ d with observations := o.1 }, none)
  else if halt = some .quarantine then
    ({ d with observations := o.1, quarantine := q.1 }, none)
  else prepareServing c { d with observations := o.1, quarantine := q.1 }
    (loadedState previous o.2.1 q.2.1 (o.2.2 || q.2.2)) halt write

/-- `prepare`, up to the moment the publication thread starts. -/
def prepare (c : Config) (d : Disk) (halt : Option Halt) (write : Write) : Disk × Option Memory :=
  if halt = some .state then (d, none)
  else match d.state with
    | .damaged => (d, none)
    | .absent => prepareServing c d {} halt write
    | .holds previous => prepareLoaded c d previous halt write

/-! ## Runs -/

/-- The archive's directory and the process that owns it, if one runs. -/
structure World where
  disk : Disk := {}
  process : Option Memory := none

/-- One step of the outside world or of the publication thread. -/
inductive Action where
  /-- A collector is started; it may end inside `prepare`. -/
  | start (halt : Option Halt) (write : Write)
  /-- The process ends. -/
  | crash
  /-- An item of an `admit_batch`. -/
  | admitItem (gate : Gate) (s : Semantic)
  /-- An item that is refused before it is prepared. -/
  | refuse
  /-- A checkpoint, with or without a client that waits for it. -/
  | checkpoint (waiter : Bool)
  /-- The policy cannot be written. -/
  | policyFailure
  /-- A shutdown. -/
  | stop
  /-- One piece of the publication thread. -/
  | work (env : Env)
  /-- The end of a shutdown. -/
  | markClean (write : Write)

/-- A step of the process, if one runs. -/
def World.serve (w : World) (f : Disk → Memory → Disk × Memory) : World :=
  match w.process with
  | none => w
  | some m => ⟨(f w.disk m).1, some (f w.disk m).2⟩

def step (c : Config) (w : World) : Action → World
  | .start halt write =>
    match w.process with
    | some _ => w
    | none => ⟨(prepare c w.disk halt write).1, (prepare c w.disk halt write).2⟩
  | .crash => { w with process := none }
  | .admitItem gate s => w.serve fun d m => (d, (acceptOne c gate m s).1)
  | .refuse => w.serve fun d m =>
      (d, m.updateState fun t => { t with admissionRefusedUnits := t.admissionRefusedUnits + 1 })
  | .checkpoint waiter => w.serve fun d m =>
      (d, { m with checkpointRequested := true, waiters := m.waiters || waiter })
  | .policyFailure => w.serve fun d m =>
      (d, m.updateState fun t => { t with storageFailure := true })
  | .stop => w.serve fun d m => (d, { m with stop := true })
  | .work env => w.serve (work c env)
  | .markClean write => w.serve (markClean write)

end Archive
end SemanticMemory
