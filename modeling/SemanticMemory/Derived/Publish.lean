import SemanticMemory.Derived.Root
import SemanticMemory.Lib.Runs

/-!
# The publish transaction

`_publish_locked` (`daemon/publish.py`) with what it calls of the staging machine
(`verify_publishable`, `publish_reject`, `publish_block` of `daemon/staging.py`) and of retention.

## What is modelled, and how

* A running call is a `PublishPc`: the place where it stands, its locals being fields of `Call`.
  From one place to the next the call changes at most one directory entry or file, so a crash may
  fall between any two changes.
* `os.rename`, `os.unlink`, `fsync`, `_write_atomic`, `shutil.rmtree`, the opening of a generation,
  the reads of the fact store and the delta build come out as the environment says; an atomic write
  can fail before the replacement or, in its last `fsync`, after it.
* Reads of the manifests see what the file holds.
* The delta machine is the generation it serves and the name under which it keeps its checkpoint.
-/

namespace SemanticMemory
namespace Derived

/-! ## The environment -/

/-- What `_write_atomic` comes to; `committed` is a fault after the replacement. -/
inductive WriteResult where
  | failed | committed | done
  deriving DecidableEq

/-- What `read_facts_identity` comes to. -/
inductive FactsRead where
  | failed
  | missing
  | found (storeEpoch : Text) (upper : Hlc)
  deriving DecidableEq

/-- What `_build_staging_delta` comes to.  A build that fails may have begun the checkpoint. -/
inductive DeltaBuild where
  | absorbed
  | blocked (message : Text) (events : List Text) (phase : Text)
  | failed (begun : Bool)
  | raised (begun : Bool)

/-- What the outside world answers in one stretch of code. -/
structure Env where
  renameOk : Bool := true
  unlinkOk : Bool := true
  fsyncOk : Bool := true
  openOk : Bool := true
  write : WriteResult := .done
  /-- The resume gate of the staging machine passes. -/
  gateOk : Bool := true
  facts : FactsRead := .found [] (hlc 0 0)
  delta : DeltaBuild := .absorbed
  /-- The fact store's schema version, empty when it is missing. -/
  schema : Option Text := some (ascii "1")
  switchOk : Bool := true
  /-- What a build from the facts comes to, if it gets as far as its directory. -/
  build : Option (Text × Identity) := none
  /-- Every row of the opened generation has its commit in the fact store. -/
  commitsOk : Bool := true
  removal : Removal := .removed
  nowMs : ℕ := 0
  /-- The text of the exception, where one is raised. -/
  fault : Text := []

/-! ## The call -/

/-- The result of `publish_ready_staging`. -/
structure Result where
  ok : Bool
  committed : Bool
  error : Option Text
  deriving DecidableEq

/-- Where `reconcile_active_manifest_commit` is called. -/
inductive Recovering where
  | retry
  | failure (postRename : Bool) (reason : Text)
  deriving DecidableEq

/-- The places of `_publish_locked`. -/
inductive PublishPc where
  | reconcile (at_ : Recovering)
  | restore (at_ : Recovering)
  | settle (at_ : Recovering)
  | alreadyFacts
  | verify
  | dancePark
  | danceOpen
  | danceUnpark (rejected : Option Text)
  | reject (reason : Text)
  | readFacts
  | buildDelta (upper : Hlc)
  | block (message : Text) (events : List Text) (phase : Text)
  | park
  | rename
  | sync
  | readSchema
  | register
  | openNew
  | writeManifest (generation : Generation)
  | unlink
  | syncStaging
  | undoRename (reason : Text)
  | undoSync (reason : Text)
  | undoProgress (reason : Text)
  | switch
  | sweepRead
  | sweep (keep : Keep) (sweep : Sweep)
  /-- The call is over; nothing when it has raised. -/
  | returned (result : Option Result)
  deriving DecidableEq

/-- `_publish_locked` with its arguments and locals. -/
structure Call where
  /-- The name of `staging_dir`. -/
  stagingDir : Text
  generationId : Text
  /-- The staging machine's `_ready_staging_dir`. -/
  ready : Option Text
  epoch : Text := []
  schema : Text := []
  /-- `tmp_progress` is set. -/
  parked : Bool := false
  pc : PublishPc := .reconcile .retry

/-- The delta machine, as far as a publication sees it. -/
structure DeltaMachine where
  /-- The name in `delta/` of the checkpoint it writes. -/
  checkpoint : Text
  /-- The base generation of its snapshot. -/
  served : Option Text

/-- A publication under way. -/
structure Publishing where
  root : Root
  machine : DeltaMachine
  call : Call

/-- `publish_ready_staging` is called. -/
def startPublish (root : Root) (machine : DeltaMachine) (stagingDir generationId : Text)
    (ready : Option Text) : Publishing :=
  ⟨root, machine, { stagingDir, generationId, ready }⟩

namespace Publishing

def goto (p : Publishing) (pc : PublishPc) : Publishing := { p with call := { p.call with pc := pc } }

/-- `return {"ok": False, "committed": committed, "error": error}`. -/
def refuse (p : Publishing) (committed : Bool) (error : Text) : Publishing :=
  p.goto (.returned (some ⟨false, committed, some error⟩))

/-- The handler of the transaction's `except`. -/
def failed (p : Publishing) (postRename : Bool) (reason : Text) : Publishing :=
  p.goto (.reconcile (.failure postRename reason))

@[simp] theorem goto_root (p : Publishing) (pc : PublishPc) : (p.goto pc).root = p.root := rfl
@[simp] theorem goto_machine (p : Publishing) (pc : PublishPc) : (p.goto pc).machine = p.machine :=
  rfl
@[simp] theorem goto_pc (p : Publishing) (pc : PublishPc) : (p.goto pc).call.pc = pc := rfl
@[simp] theorem goto_generationId (p : Publishing) (pc : PublishPc) :
    (p.goto pc).call.generationId = p.call.generationId := rfl
@[simp] theorem goto_stagingDir (p : Publishing) (pc : PublishPc) :
    (p.goto pc).call.stagingDir = p.call.stagingDir := rfl
@[simp] theorem goto_parked (p : Publishing) (pc : PublishPc) :
    (p.goto pc).call.parked = p.call.parked := rfl

end Publishing

/-- `"active manifest write failed: %s" % reason`. -/
def writeFailed (reason : Text) : Text := ascii "active manifest write failed: " ++ reason

/-- `"publish preconditions failed: %s" % reason`. -/
def preconditionsFailed (reason : Text) : Text := ascii "publish preconditions failed: " ++ reason

/-- `repr` of a status. -/
def Status.repr : Status → Text
  | .running => ascii "'running'"
  | .blocked => ascii "'blocked'"
  | .ready => ascii "'ready'"
  | .discarded => ascii "'discarded'"

/-! ## Renames and records -/

/-- `os.rename` of a directory to a name of the other namespace. -/
def moveDir (src dst : KeyedMap Text Dir) (name name' : Text) :
    Option (KeyedMap Text Dir × KeyedMap Text Dir) :=
  match src.find? name, dst.find? name' with
  | some d, none => some (src.erase name, dst.insert name' d)
  | _, _ => none

/-- A directory that moves was there, and its new name was free. -/
theorem moveDir_eq_some {src dst src' dst' : KeyedMap Text Dir} {name name' : Text}
    (h : moveDir src dst name name' = some (src', dst')) :
    ∃ d, src.find? name = some d ∧ dst.find? name' = none ∧ src' = src.erase name ∧
      dst' = dst.insert name' d := by
  unfold moveDir at h
  split at h
  · next d hsrc hdst =>
    cases h
    exact ⟨d, hsrc, hdst, rfl, rfl⟩
  · cases h

/-- `_park_progress`, and the same renames in the verification dance. -/
def parkProgress (env : Env) (name : Text) (root : Root) : Root × Bool :=
  match (root.staging.find? name).bind fun d => d.progress.map fun p => (d, p) with
  | some (d, p) =>
    if env.renameOk then
      ({ root with
        staging := root.staging.insert name { d with progress := none }
        parked := root.parked.insert name p }, true)
    else (if env.unlinkOk then { root with parked := root.parked.erase name } else root, false)
  | none => (if env.unlinkOk then { root with parked := root.parked.erase name } else root, false)

/-- `_restore_progress`, and the same rename in the verification dance. -/
def restoreProgress (env : Env) (name : Text) (root : Root) : Root :=
  match root.staging.find? name, root.parked.find? name with
  | some d, some p =>
    if env.renameOk then
      { root with
        staging := root.staging.insert name { d with progress := some p }
        parked := root.parked.erase name }
    else root
  | _, _ => root

/-- A record marked discarded. -/
def Progress.discarded (p : Progress) (reason : Text) : Progress :=
  { p with status := .discarded, reason := reason }

/-- A record marked blocked. -/
def Progress.blocked (p : Progress) (events : List Text) (reason phase : Text) : Progress :=
  { p with status := .blocked, blockedEvents := events, reason := reason, phase := phase }

/-- `_discard`, as `publish_reject` calls it. -/
def discard (env : Env) (name reason : Text) (root : Root) : Root :=
  match loadProgress root.staging name with
  | none => root
  | some p =>
    if p.status = .discarded ∨ env.write = .failed then root
    else
      { root with
        staging := writeProgress root.staging name (p.discarded reason) }

/-- `publish_block`, on the staging machine's ready staging. -/
def publishBlock (env : Env) (ready : Option Text) (reason : Text) (events : List Text)
    (phase : Text) (root : Root) : Root :=
  match ready with
  | none => root
  | some name =>
    match loadProgress root.staging name with
    | none => root
    | some p =>
      if p.status ≠ .ready ∨ env.write = .failed then root
      else
        { root with
          staging := writeProgress root.staging name (p.blocked events reason phase) }

/-- `delta_machine.publish_switch`: the worker reopens the generation and its checkpoint. -/
def publishSwitch (env : Env) (id : Text) (root : Root) : Option DeltaMachine :=
  if env.switchOk = true ∧ openGeneration root.generations id ≠ none ∧
      root.delta.find? id ≠ none then
    some ⟨id, some id⟩
  else none

/-- The registration of the retired generation as the rollback. -/
def registerRollback (env : Env) (c : Call) (machine : DeltaMachine) (root : Root) : Root :=
  match machine.served with
  | none => root
  | some retired =>
    if retired = [] ∨ retired = c.generationId ∨ env.openOk = false ∨ env.write = .failed then root
    else
      match openGeneration root.generations retired with
      | none => root
      | some generation =>
        { root with rollback := .valid (composeManifest generation retired c.schema env.nowMs) }

/-- The renaming of the verified container into `generations/`. -/
def renameContainer (env : Env) (c : Call) (root : Root) : Option Root :=
  if env.renameOk then
    (moveDir root.staging root.generations c.stagingDir c.generationId).map fun (src, dst) =>
      { root with staging := src, generations := dst }
  else none

/-- The renaming back of the container, in the `except` block. -/
def renameBack (env : Env) (c : Call) (root : Root) : Option Root :=
  if env.renameOk then
    (moveDir root.generations root.staging c.generationId c.stagingDir).map fun (src, dst) =>
      { root with staging := dst, generations := src }
  else none

/-- The rename of `_restore_published_generation`. -/
def restorePublished (env : Env) (c : Call) (root : Root) : Option Root :=
  if env.renameOk then
    (moveDir root.staging root.generations c.generationId c.generationId).map fun (src, dst) =>
      { root with staging := src, generations := dst }
  else none

/-! ### What these leave alone -/

/-- The two roots have the active manifest, the generations and the checkpoints in common. -/
structure Frame (root root' : Root) : Prop where
  active : root'.active = root.active
  generations : root'.generations = root.generations
  delta : root'.delta = root.delta

theorem Frame.refl (root : Root) : Frame root root := ⟨rfl, rfl, rfl⟩

theorem frame_parkProgress (env : Env) (name : Text) (root : Root) :
    Frame root (parkProgress env name root).1 := by
  have hunlink : Frame root
      (if env.unlinkOk = true then { root with parked := root.parked.erase name } else root) := by
    split <;> exact ⟨rfl, rfl, rfl⟩
  unfold parkProgress
  split
  · split
    · exact ⟨rfl, rfl, rfl⟩
    · exact hunlink
  · exact hunlink

/-- Parking a record either succeeds or leaves the directories alone. -/
theorem parkProgress_spec (env : Env) (name : Text) (root : Root) :
    (parkProgress env name root).1.active = root.active ∧
      (parkProgress env name root).1.rollback = root.rollback ∧
      (parkProgress env name root).1.generations = root.generations ∧
      if (parkProgress env name root).2 = true then
        ∃ d r, root.staging.find? name = some d ∧ d.progress = some r ∧
          (parkProgress env name root).1.staging =
            root.staging.insert name { d with progress := none } ∧
          (parkProgress env name root).1.parked.find? name = some r
      else (parkProgress env name root).1.staging = root.staging := by
  unfold parkProgress
  split
  · next d r hd =>
    obtain ⟨d', hd', hr⟩ := Option.bind_eq_some_iff.mp hd
    obtain ⟨r', hr', he⟩ := Option.map_eq_some_iff.mp hr
    cases he
    split
    · exact ⟨rfl, rfl, rfl, d, r, hd', hr', rfl, by simp⟩
    · split <;> exact ⟨rfl, rfl, rfl, rfl⟩
  · split <;> exact ⟨rfl, rfl, rfl, rfl⟩

theorem frame_restoreProgress (env : Env) (name : Text) (root : Root) :
    Frame root (restoreProgress env name root) := by
  unfold restoreProgress
  split
  · split <;> exact ⟨rfl, rfl, rfl⟩
  · exact .refl root

theorem frame_discard (env : Env) (name reason : Text) (root : Root) :
    Frame root (discard env name reason root) := by
  unfold discard
  split
  · exact .refl root
  · split <;> exact ⟨rfl, rfl, rfl⟩

theorem frame_publishBlock (env : Env) (ready : Option Text) (reason : Text) (events : List Text)
    (phase : Text) (root : Root) :
    Frame root (publishBlock env ready reason events phase root) := by
  unfold publishBlock
  split
  · exact .refl root
  · split
    · exact .refl root
    · split <;> exact ⟨rfl, rfl, rfl⟩

theorem frame_registerRollback (env : Env) (c : Call) (machine : DeltaMachine) (root : Root) :
    Frame root (registerRollback env c machine root) := by
  unfold registerRollback
  split
  · exact .refl root
  · split
    · exact .refl root
    · split <;> exact ⟨rfl, rfl, rfl⟩

/-! ## The transaction -/

/-- `reconcile_active_manifest_commit` reads the manifest. -/
def stepReconcile (env : Env) (at_ : Recovering) (p : Publishing) : Publishing :=
  let gid := p.call.generationId
  if p.root.active.generationId = some gid then
    if p.root.generations.find? gid = none ∧ p.root.staging.find? gid ≠ none then
      p.goto (.restore at_)
    else p.goto (.settle at_)
  else
    match at_ with
    | .retry => p.goto .verify
    | .failure false reason => p.goto (.undoRename reason)
    | .failure true reason =>
      if env.fsyncOk then p.goto .switch else p.refuse true (writeFailed reason)

/-- What an exception out of `reconcile_active_manifest_commit` comes to. -/
def reconcileRaised (at_ : Recovering) (p : Publishing) : Publishing :=
  match at_ with
  | .retry => p.goto (.returned none)
  | .failure _ reason => p.refuse true (writeFailed reason)

/-- `_restore_published_generation`. -/
def stepRestore (env : Env) (at_ : Recovering) (p : Publishing) : Publishing :=
  match restorePublished env p.call p.root with
  | none => reconcileRaised at_ p
  | some root =>
    let p := { p with root := root }
    if env.fsyncOk then p.goto (.settle at_) else reconcileRaised at_ p

/-- The end of `reconcile_active_manifest_commit` for a manifest that names the generation. -/
def stepSettle (env : Env) (at_ : Recovering) (p : Publishing) : Publishing :=
  let gid := p.call.generationId
  let root := p.root
  let p : Publishing :=
    if p.call.parked = true ∧ env.unlinkOk = true then
      { p with root := { root with parked := root.parked.erase gid } }
    else p
  match at_ with
  | .retry =>
    if root.generations.find? gid = none then p.goto .verify
    else if env.fsyncOk then p.goto .alreadyFacts
    else p.refuse true (ascii "active manifest parent fsync still failing")
  | .failure _ reason =>
    if root.generations.find? gid ≠ none ∧ env.fsyncOk = true then p.goto .switch
    else p.refuse true (writeFailed reason)

/-- The reads of the fact store, with or without a commit behind them. -/
def stepFacts (env : Env) (committed : Bool) (p : Publishing) : Publishing :=
  match env.facts with
  | .failed => p.refuse committed (ascii "fact store read failed: " ++ env.fault)
  | .missing => p.refuse committed (ascii "fact store is missing")
  | .found epoch upper =>
    let p := { p with call := { p.call with epoch := epoch } }
    if committed then p.goto .switch else p.goto (.buildDelta upper)

/-- `verify_publishable`, up to the dance. -/
def stepVerify (env : Env) (p : Publishing) : Publishing :=
  match loadProgress p.root.staging p.call.stagingDir with
  | none => p.goto (.reject (ascii "staging record missing or unusable"))
  | some record =>
    if record.status ≠ .ready then
      p.goto (.reject (ascii "staging status is " ++ record.status.repr ++ ascii ", need ready"))
    else if env.gateOk then p.goto .dancePark
    else p.goto (.reject (ascii "staging resume gate failed: " ++ env.fault))

/-- The container is reopened while its record is parked. -/
def stepDanceOpen (env : Env) (p : Publishing) : Publishing :=
  if env.openOk = true ∧ openGeneration p.root.staging p.call.stagingDir ≠ none then
    p.goto (.danceUnpark none)
  else p.goto (.danceUnpark (some (ascii "staging reopen verification failed: " ++ env.fault)))

/-- The end of the dance; a verified record is named as its directory. -/
def stepDanceUnpark (env : Env) (rejected : Option Text) (p : Publishing) : Publishing :=
  let p := { p with root := restoreProgress env p.call.stagingDir p.root }
  match rejected with
  | some reason => p.goto (.reject reason)
  | none =>
    if p.call.stagingDir = p.call.generationId then p.goto .readFacts
    else
      p.refuse false
        (ascii "staging record generation '" ++ p.call.stagingDir ++ ascii "' does not match '" ++
          p.call.generationId ++ ascii "'")

/-- `_build_staging_delta`. -/
def stepDelta (env : Env) (upper : Hlc) (p : Publishing) : Publishing :=
  let gid := p.call.generationId
  let set (value : Option Hlc) : Publishing :=
    { p with root := { p.root with delta := p.root.delta.insert gid value } }
  match env.delta with
  | .absorbed => (set (some upper)).goto .park
  | .blocked message events phase => p.goto (.block message events phase)
  | .failed begun => (if begun then set none else p).refuse false env.fault
  | .raised begun => (if begun then set none else p).goto (.returned none)

/-- `_read_fact_schema_version`. -/
def stepSchema (env : Env) (p : Publishing) : Publishing :=
  match env.schema with
  | none => p.failed false env.fault
  | some [] => p.failed false (ascii "fact store schema version missing")
  | some (b :: version) =>
    { p with call := { p.call with schema := b :: version } }.goto .register

/-- `write_active_manifest`, the commit point. -/
def stepManifest (env : Env) (generation : Generation) (p : Publishing) : Publishing :=
  let manifest :=
    composeManifest generation p.call.generationId p.call.schema env.nowMs
  let written : Publishing := { p with root := { p.root with active := .valid manifest } }
  match env.write with
  | .failed => p.failed false env.fault
  | .committed => written.failed true env.fault
  | .done => written.goto .unlink

def stepUndoRename (env : Env) (reason : Text) (p : Publishing) : Publishing :=
  if p.root.generations.find? p.call.generationId = none then p.goto (.undoProgress reason)
  else
    match renameBack env p.call p.root with
    | none => p.refuse false (writeFailed reason)
    | some root => { p with root := root }.goto (.undoSync reason)

/-- One place of `_publish_locked` to the next. -/
def publishStep (env : Env) (p : Publishing) : Publishing :=
  let gid := p.call.generationId
  let root := p.root
  match p.call.pc with
  | .reconcile at_ => stepReconcile env at_ p
  | .restore at_ => stepRestore env at_ p
  | .settle at_ => stepSettle env at_ p
  | .alreadyFacts => stepFacts env true p
  | .verify => stepVerify env p
  | .dancePark =>
    let parked := parkProgress env p.call.stagingDir root
    let p := { p with root := parked.1 }
    if parked.2 then p.goto .danceOpen else p.goto (.reject env.fault)
  | .danceOpen => stepDanceOpen env p
  | .danceUnpark rejected => stepDanceUnpark env rejected p
  | .reject reason =>
    { p with root := discard env p.call.stagingDir (preconditionsFailed reason) root }.refuse false
      (preconditionsFailed reason)
  | .readFacts => stepFacts env false p
  | .buildDelta upper => stepDelta env upper p
  | .block message events phase =>
    { p with
      root := publishBlock env p.call.ready (ascii "publish delta blocked: " ++ message) events phase
        root }.refuse false message
  | .park =>
    let parked := parkProgress env gid root
    let p := { p with root := parked.1, call := { p.call with parked := parked.2 } }
    if parked.2 then p.goto .rename else p.failed false env.fault
  | .rename =>
    match renameContainer env p.call root with
    | none => p.failed false env.fault
    | some root => { p with root := root }.goto .sync
  | .sync => if env.fsyncOk then p.goto .readSchema else p.failed false env.fault
  | .readSchema => stepSchema env p
  | .register => { p with root := registerRollback env p.call p.machine root }.goto .openNew
  | .openNew =>
    match if env.openOk then openGeneration root.generations gid else none with
    | none => p.failed false env.fault
    | some generation => p.goto (.writeManifest generation)
  | .writeManifest generation => stepManifest env generation p
  | .unlink =>
    (if env.unlinkOk then { p with root := { root with parked := root.parked.erase gid } }
      else p).goto .syncStaging
  | .syncStaging => if env.fsyncOk then p.goto .switch else p.failed false env.fault
  | .undoRename reason => stepUndoRename env reason p
  | .undoSync reason =>
    if env.fsyncOk then p.goto (.undoProgress reason) else p.refuse false (writeFailed reason)
  | .undoProgress reason =>
    (if p.call.parked then { p with root := restoreProgress env gid root } else p).refuse false
      (writeFailed reason)
  | .switch =>
    match publishSwitch env gid root with
    | none => p.refuse true env.fault
    | some machine => { p with machine := machine }.goto .sweepRead
  | .sweepRead => p.goto (.sweep (readKeep (some gid) root) .begin)
  | .sweep keep sweep =>
    let swept := sweepStep env.removal keep root sweep
    let p := { p with root := swept.1 }
    match swept.2 with
    | some sweep => p.goto (.sweep keep sweep)
    | none => p.goto (.returned (some ⟨true, true, none⟩))
  | .returned _ => p

end Derived
end SemanticMemory
