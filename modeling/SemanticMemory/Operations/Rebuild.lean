import SemanticMemory.Operations.Runner
import SemanticMemory.Staging.Machine

/-!
# The rebuild operation

`RebuildSpec` of `daemon/rebuild_operation.py`: the four steps of a manual rebuild, which drive one
staging machine, with a crash between any two effects on the disk.

## What is modelled, and how

* `Shared` is the disk: the facts, what the staging machine works on, `active_manifest.json`, which
  published generations do not reopen, and the sidecars.  Others may do anything to it, `weather`.
* The process of the executor has a memory, the cached staging machine.  A step that is taken up by a
  new process, `Env.fresh`, finds it empty; one that is taken up again in the same process, after an
  exception or a block, finds it as it was left.
* The staging machine is the one of `Staging.Machine`, one effect on the disk a piece.
* `_verify_container_dance` and the publish seam, which is `publish_ready_staging`, are pieces too.  How
  the seam's own preconditions, its checkpoint and its switch go comes from outside.
* `committed` is a history: the generations that the operation's publication has put into the
  manifest.  `named` is what the manifest named when the cleanup last read it.
* Generations have the exact backend, so `--index-only` has nothing to write.
-/

namespace SemanticMemory
namespace Operations
namespace Rebuild

open FactStore (readFactsIdentity readActiveEvents)
open Staging (Dict Layer Plan Kit TargetConfig Config)

/-! ## Parameters and results -/

/-- `MODES`. -/
inductive Mode where
  | auto | full | indexOnly
  deriving DecidableEq

/-- What `_normalize` returns. -/
structure Parameters where
  mode : Mode
  derivedRoot : Text
  buildId : Option Text
  rebuildTag : Option Text
  restart : Bool

/-- The `outcome` of a result. -/
inductive Reported where
  | alreadyCurrent | indexRebuilt | rebuilt

structure Report where
  outcome : Reported
  buildId : Option Text
  generationId : Option Text := none
  published : Bool

/-- The `result` of a record; `completed` is the engine's `{"completed": True}`. -/
inductive Result where
  | completed
  | report (report : Report)

/-! ## The executor -/

/-- The seams, and the constants of the code that a target depends on. -/
structure Setup where
  /-- `provider_factory`. -/
  kits : Text → Kit
  converters : List (Text × Text) := [(Staging.fp32RowMajorLe, Staging.fp32RowMajorLe)]
  projectionVersion : Text
  /-- `_compose_index_fingerprint`. -/
  indexFingerprint : Text
  /-- A publish seam is wired. -/
  publish : Bool := true
  projectionVersion_ne : projectionVersion ≠ []
  indexFingerprint_ne : indexFingerprint ≠ []

/-- What is configured about the target of `_target`. -/
def Setup.target (s : Setup) (rebuildTag : Option Text) : TargetConfig where
  projectionVersion := s.projectionVersion
  indexFingerprint := s.indexFingerprint
  rebuildTag := rebuildTag
  projectionVersion_ne := s.projectionVersion_ne
  indexFingerprint_ne := s.indexFingerprint_ne

theorem fp32RowMajorLe_ne : Staging.fp32RowMajorLe ≠ [] := by decide

theorem chunkRows_pos : 0 < 64 := by decide

/-- `_default_machine_builder`. -/
def Setup.config (s : Setup) (kit : Kit) (rebuildTag : Option Text)
    (activeRepresentationId activeGenerationId : Text) (forceRebuild : Bool) : Config where
  kit := kit
  target := s.target rebuildTag
  chunkRows := 64
  vectorFormatVersion := Staging.fp32RowMajorLe
  activeRepresentationId := activeRepresentationId
  activeGenerationId := activeGenerationId
  forceRebuild := forceRebuild
  converters := s.converters
  chunkRows_pos := chunkRows_pos
  vectorFormatVersion_ne := fp32RowMajorLe_ne

/-! ## The disk and the memory -/

/-- What `read_active_manifest` finds; a manifest that it accepts names every layer. -/
inductive Pointer where
  | absent
  | invalid (reason : Text)
  | names (generationId : Text) (identity : Dict)

/-- The disk. -/
structure Shared where
  facts : Option FactStore.World
  disk : Staging.Disk := {}
  active : Pointer := .absent
  /-- The published generations that `open_generation` refuses. -/
  damaged : List Text := []
  /-- `index/<generation_id>/index.ann`, and whether it has content. -/
  sidecars : List (Text × Bool) := []

structure Root where
  shared : Shared
  machine : Option (Config × Staging.Machine) := none
  restartDone : Bool := false
  committed : List Text := []
  named : Option Text := none

/-- The memory of a new process. -/
def Root.entered (d : Root) (fresh : Bool) : Root :=
  if fresh then { d with machine := none, restartDone := false } else d

/-- What the machine works on; facts that are missing read as an incomplete identity. -/
def Root.world (d : Root) (c : Config) (m : Staging.Machine) : Staging.World where
  config := c
  facts := d.shared.facts.getD (FactStore.World.created 0 [] [])
  disk := d.shared.disk
  machine := m

/-- What the machine leaves. -/
def Root.adopt (d : Root) (w : Staging.World) : Root :=
  { d with shared := { d.shared with disk := w.disk }, machine := some (w.config, w.machine) }

def Root.setDisk (d : Root) (disk : Staging.Disk) : Root :=
  { d with shared := { d.shared with disk := disk } }

/-! ## The outside world -/

/-- How the publish seam fares before its first effect on the container. -/
inductive Seam where
  | goes
  /-- An answer that is not `ok`. -/
  | refused
  /-- `publish_reject`. -/
  | rejected
  /-- `publish_block`. -/
  | blocked
  | raises

/-- The answers for one piece of a step. -/
structure Env extends Staging.Env where
  /-- The step is taken up by a new process. -/
  fresh : Bool := false
  /-- `read_facts_schema_version` does not raise. -/
  schemaOk : Bool := true
  seam : Seam := .goes
  /-- The switch of the seam completes. -/
  switchOk : Bool := true
  /-- What another component says about its failure. -/
  diagnosis : Text := []

/-! ## The places -/

inductive Place where
  | preflight
  | target (representationId : Text) (current : Option Text)
  | staging
  | machineForStaging
  | restart
  | retry
  | cycle
  | cycling
  | report
  | publishing
  | locate
  | verify (stagingDir generationId : Text)
  | park (stagingDir generationId : Text)
  | reopen (stagingDir generationId : Text)
  | unpark (stagingDir generationId : Text) (accepted : Bool)
  | seam (stagingDir generationId : Text)
  | rename (stagingDir generationId : Text)
  | commit (stagingDir generationId : Text) (dir : Staging.Dir) (identity : Dict)
  | switch
  | cleanup
  | outcome
  | unknownPhase

/-- A step at work. -/
structure Body where
  parameters : Parameters
  progress : ProgressUnit → ℤ
  place : Place

abbrev Ends := Progress Result Body

def advance : Outcome Result := .returned { advance := true }

def blocks (code : Text) (phase : Phase) (remediation : Text)
    (cause : Option (List (Text × CauseValue)) := none) : Ends :=
  .ends (.blocked
    { code := code, phase := phase, remediation := some remediation, cause := cause })

def causeText : Option Text → CauseValue
  | none => .null
  | some value => .text value

/-! ## The gates -/

/-- `_active_identity`; the error is the reason of a refusal. -/
def activeIdentity (active : Pointer) (schema : Option Text) :
    Except Text (Option (Dict × Text)) :=
  match active with
  | .absent => .ok none
  | .invalid reason => .error reason
  | .names generationId identity =>
    match Staging.refuseLoadReason (some identity) schema with
    | some reason => .error reason
    | none => .ok (some (identity, generationId))

/-- What `_facts_and_active` returns. -/
structure Gate where
  factsEpoch : Text
  schema : Option Text
  active : Option (Dict × Text)

def factsAndActive (env : Env) (d : Shared) (phase : Phase) : Except Ends Gate :=
  match d.facts with
  | none =>
    .error (blocks (ascii "fact_store_missing") phase
      (ascii "create facts first (recording) before rebuilding"))
  | some facts =>
    match if env.readOk then readFactsIdentity facts.db else none with
    | none => .error .raises
    | some (factsEpoch, _) =>
      let schema :=
        if env.schemaOk then some (Staging.readFactsSchemaVersion facts.db) else none
      match activeIdentity d.active schema with
      | .error reason =>
        .error (blocks (ascii "refuse_load") phase
          (ascii "inspect the active manifest and the derived state before rebuilding")
          (some [(ascii "refuse_reason", .text reason)]))
      | .ok active => .ok ⟨factsEpoch, schema, active⟩

/-- The representation that `_desired_provider` asks for. -/
def desiredRepresentation (active : Option (Dict × Text)) : Text :=
  match active with
  | none => ascii "fixture-rebuild-repr-v1"
  | some (identity, _) =>
    match identity.get Layer.representation.key with
    | some (.text representationId) => representationId
    | _ => []

def Setup.desiredIdentity (s : Setup) (gate : Gate) : Dict :=
  [(Layer.storeEpoch.key, .text gate.factsEpoch)] ++
    (gate.schema.map fun schema => (Layer.factSchema.key, Staging.Value.text schema)).toList ++
    [(Layer.representation.key,
        .text (s.kits (desiredRepresentation gate.active)).representationId),
      (Layer.vectorFormat.key, .text Staging.fp32RowMajorLe),
      (Layer.projection.key, .text s.projectionVersion),
      (Layer.index.key, .text s.indexFingerprint)]

def Setup.matrixPlan (s : Setup) (gate : Gate) : Plan :=
  Staging.planActions s.converters (s.desiredIdentity gate) (gate.active.map Prod.fst) gate.schema

/-- `_active_generation_healthy`. -/
def Shared.healthy (d : Shared) (generationId : Text) : Bool :=
  generationId ∈ d.disk.generations && !(generationId ∈ d.damaged)

def Setup.isAlreadyCurrent (s : Setup) (mode : Mode) (d : Shared) (gate : Gate) : Bool :=
  match gate.active with
  | none => false
  | some (_, generationId) =>
    let plan := s.matrixPlan gate
    mode = .auto && plan.idles && plan.refuseReason = none && d.healthy generationId

def isAutoAlreadyCurrent (s : Setup) (env : Env) (d : Shared) (mode : Mode) : Except Ends Bool :=
  if mode ≠ .auto then .ok false
  else (factsAndActive env d .preflight).map (s.isAlreadyCurrent .auto d)

/-- What a step does once it knows whether the active generation is current. -/
def unlessCurrent (s : Setup) (env : Env) (d : Root) (b : Body) (current other : Ends) :
    Root × Ends :=
  match isAutoAlreadyCurrent s env d.shared b.parameters.mode with
  | .error ends => (d, ends)
  | .ok true => (d, current)
  | .ok false => (d, other)

/-! ## Preflight -/

def indexOnlyRefusal (d : Shared) (generationId : Text) : Option (Text × Text × Text) :=
  if d.healthy generationId = false then
    some (ascii "index_only_unhealthy_base",
      ascii "the active FP32 / metadata / projection are not healthy-compatible",
      ascii ("fix or rebuild the base derived state first; " ++
        "--index-only never silently upgrades to full"))
  else if (d.sidecars.lookup generationId).isNone then
    some (ascii "no_ann_sidecar",
      ascii "the exact-only envelope has no ANN sidecar to rebuild",
      ascii ("there is no ANN index in this envelope; --index-only refuses instead of " ++
        "fabricating one (revisit with #78/#79)"))
  else none

/-- `_step_preflight`, up to the target. -/
def preflightStart (s : Setup) (env : Env) (d : Root) (b : Body) : Root × Ends :=
  match factsAndActive env d.shared .preflight with
  | .error ends => (d, ends)
  | .ok gate =>
    match gate.active with
    | none =>
      (d, blocks (ascii "no_active_generation") .preflight
        (ascii "let the daemon build the first generation, then re-run rebuild"))
    | some (_, generationId) =>
      let refusal :=
        if b.parameters.mode = .indexOnly then indexOnlyRefusal d.shared generationId else none
      match refusal with
      | some (code, message, remediation) =>
        (d, blocks code .preflight remediation (some [(ascii "message", .text message)]))
      | none =>
        let current :=
          if s.isAlreadyCurrent b.parameters.mode d.shared gate then some generationId else none
        (d, .goes { b with place := .target (desiredRepresentation gate.active) current })

/-- `_target`, and the comparison with the recorded build. -/
def preflightTarget (s : Setup) (env : Env) (d : Root) (b : Body) (representationId : Text)
    (current : Option Text) : Root × Ends :=
  match d.shared.facts with
  | none => (d, .raises)
  | some facts =>
    match if env.readOk then readFactsIdentity facts.db else none with
    | none => (d, .raises)
    | some (storeEpoch, clock) =>
      let events := readActiveEvents facts.db clock
      if (Staging.invalidEvent events).isSome then (d, .raises)
      else
        let target := Staging.prepareTarget (s.kits representationId)
          (s.target b.parameters.rebuildTag) storeEpoch clock events
        let expected := current.getD target.generationId
        match b.parameters.buildId with
        | none => (d, .ends advance)
        | some recorded =>
          if recorded ≠ expected then
            (d, blocks (ascii "build_target_changed") .preflight
              (ascii "re-run rebuild; the target changed since the request was created")
              (some [(ascii "recorded", .text recorded), (ascii "current", .text expected)]))
          else (d, .ends advance)

/-! ## The machine -/

def stagingRepresentation (disk : Staging.Disk) (buildId : Option Text) : Option Text :=
  buildId.bind fun buildId =>
    (Staging.loadProgress disk.staging buildId).bind fun record =>
      match record.identity.get (ascii "representation_id") with
      | some (.text []) => none
      | some (.text representationId) => some representationId
      | _ => none

/-- What `_machine_for` builds the machine with. -/
def Setup.machineConfig (s : Setup) (disk : Staging.Disk) (p : Parameters) (gate : Gate) : Config :=
  let kit := s.kits ((stagingRepresentation disk p.buildId).getD (desiredRepresentation gate.active))
  match gate.active with
  | some (_, generationId) =>
    s.config kit p.rebuildTag (desiredRepresentation gate.active) generationId
      (decide (p.mode = .full))
  | none =>
    s.config kit p.rebuildTag kit.representationId
      (ascii "shadow-gen-v1:no-active-yet-0000000000000000000000000000") (decide (p.mode = .full))

/-- `_machine_for`, and what follows with the machine in the cache. -/
def machineFor (s : Setup) (env : Env) (d : Root) (b : Body) (next : Root → Root × Ends) :
    Root × Ends :=
  match d.machine with
  | some _ => next d
  | none =>
    match factsAndActive env d.shared .staging with
    | .error ends => (d, ends)
    | .ok gate =>
      next { d with
        machine := some (s.machineConfig d.shared.disk b.parameters gate,
          Staging.Machine.created (decide (b.parameters.mode = .full))) }

/-- The cached machine does something. -/
def withMachine (d : Root) (f : Staging.World → Root × Ends) : Root × Ends :=
  match d.machine with
  | none => (d, .raises)
  | some (config, machine) => f (d.world config machine)

/-! ## Staging -/

/-- `_rebuild_usearch_sidecar`, and the end of the step; an exact generation has nothing to do. -/
def indexOnlyStaging (d : Root) : Root × Ends :=
  let unhealthy (remediation : String) : Root × Ends :=
    (d, blocks (ascii "index_only_unhealthy_base") .staging (ascii remediation))
  match d.shared.active with
  | .names generationId _ =>
    if d.shared.sidecars.lookup generationId = some true then
      if d.shared.healthy generationId then (d, .ends advance)
      else
        unhealthy "the active FP32 / metadata / projection are not healthy-compatible"
    else
      (d, blocks (ascii "index_only_sidecar_missing") .staging
        (ascii ("the ANN sidecar is not a readable, non-empty file; " ++
          "there is no index to rebuild")))
  | _ =>
    (d, blocks (ascii "index_only_sidecar_missing") .staging
      (ascii ("the ANN sidecar is not a readable, non-empty file; " ++
        "there is no index to rebuild")))

/-- `--restart` discards every other staging, once a process. -/
def restartDiscards (env : Env) (d : Root) (b : Body) : Root :=
  if b.parameters.restart = true ∧ d.restartDone = false then
    { d.setDisk { d.shared.disk with
        staging := Staging.markStale env.toEnv b.parameters.buildId d.shared.disk.staging } with
      restartDone := true }
  else d

def retryBlocked (env : Env) (d : Root) (b : Body) : Root × Ends :=
  withMachine d fun w =>
    match w.machine.currentProgress with
    | some record =>
      if record.status = .blocked ∧ some record.generationId = b.parameters.buildId then
        (d.adopt (Staging.retry env.toEnv w), .goes { b with place := .cycle })
      else (d, .goes { b with place := .cycle })
    | none => (d, .goes { b with place := .cycle })

/-- `_cycle` begins; an exception has left the one before. -/
def cycleBegin (env : Env) (d : Root) (b : Body) : Root × Ends :=
  withMachine d fun w =>
    let w := w.goto .idle
    if d.shared.facts.isSome ∧ (env.readOk = false ∨ readFactsIdentity w.db = none) then
      (d.adopt w, .raises)
    else
      let w := Staging.beginCycle env.toEnv w
      if w.machine.pc = .idle then (d.adopt w, .goes { b with place := .report })
      else (d.adopt w, .goes { b with place := .cycling })

/-- The step that has ended the cycle has ended it by an exception. -/
def faulted (env : Env) : Staging.Pc → Bool
  | .idle => false
  | .start _ _ .write => env.write = .committed
  | .start .. => false
  | .work _ .settle => false
  | .work .. => true

/-- `_cycle` goes on. -/
def cycleStep (env : Env) (d : Root) (b : Body) : Root × Ends :=
  withMachine d fun w =>
    let w' := Staging.step w (.work env.toEnv)
    if w'.machine.pc ≠ .idle then (d.adopt w', .goes b)
    else if faulted env w.machine.pc then (d.adopt w', .raises)
    else (d.adopt w', .goes { b with place := .report })

def progressDelta (progress : ProgressUnit → ℤ) (record : Staging.Record) : Delta :=
  let current : ProgressUnit → ℤ
    | .events => record.totalRows
    | .bytes => (record.chunks.map Staging.Chunk.bytes).sum
    | .chunks => record.chunks.length
  (progressUnits.filter fun unit => 0 < current unit - progress unit).map fun unit =>
    (unit.name, current unit - progress unit)

/-- What the step makes of the machine after a cycle; the causes quote the machine. -/
def reportCycle (d : Root) (b : Body) : Root × Ends :=
  withMachine d fun w =>
    match w.machine.currentProgress with
    | none =>
      (d, blocks (ascii "rebuild_refused") .staging
        (ascii "inspect the staging machine status and re-run rebuild"))
    | some record =>
      let delta := progressDelta b.progress record
      match record.status with
      | .blocked =>
        (d, blocks (ascii "staging_blocked") .staging
          (ascii "fix the cause and re-run rebuild --retry <build_id>"))
      | .ready => (d, .ends (.returned { progress := some delta, advance := true }))
      | .discarded => (d, .ends (.returned {}))
      | .running => (d, .ends (.returned { progress := if delta = [] then none else some delta }))

/-! ## Publishing -/

/-- The ready staging is looked up in the machine's status. -/
def locate (s : Setup) (env : Env) (d : Root) (b : Body) : Root × Ends :=
  machineFor s env d b fun d =>
    withMachine d fun w =>
      let generationId := w.machine.currentProgress.map Staging.Record.generationId
      let stagingDir := w.machine.readyStagingDir <|> generationId
      match generationId, stagingDir.filter fun name => (w.disk.staging.find? name).isSome with
      | some generationId, some stagingDir =>
        (d, .goes { b with place := .verify stagingDir generationId })
      | _, _ =>
        (d, blocks (ascii "ready_staging_missing") .publishing
          (ascii "re-run rebuild --retry <build_id>")
          (some [(ascii "generation_id", causeText generationId)]))

/-- `publish_precondition_failed`. -/
def preconditionFailed (env : Env) : Ends :=
  blocks (ascii "publish_precondition_failed") .publishing
    (ascii "inspect and re-run rebuild --retry <build_id>")
    (some [(ascii "reason", .text env.diagnosis)])

def publishFailed (env : Env) : Ends :=
  blocks (ascii "publish_failed") .publishing
    (ascii "the publish transaction failed; the ready staging is preserved for a retry")
    (some [(ascii "error", .text env.diagnosis)])

/-- `verify_publishable`, up to `_verify_container_dance`. -/
def verifyPublishable (env : Env) (d : Root) (b : Body) (stagingDir generationId : Text) :
    Root × Ends :=
  withMachine d fun w =>
    match Staging.loadProgress w.disk.staging stagingDir with
    | none => (d, preconditionFailed env)
    | some record =>
      if record.status ≠ .ready then (d, preconditionFailed env)
      else
        match Staging.resumeGate env.toEnv w.config w.db record with
        | .passes _ => (d, .goes { b with place := .park stagingDir generationId })
        | _ => (d, preconditionFailed env)

/-- The progress record is renamed out of the container. -/
def parkProgress (env : Env) (d : Root) (b : Body) (stagingDir generationId : Text) : Root × Ends :=
  let disk := d.shared.disk
  let cleared := if env.unlinkOk then disk.parked.erase stagingDir else disk.parked
  match disk.staging.find? stagingDir with
  | some dir =>
    match dir.record, env.ioOk with
    | some record, true =>
      (d.setDisk { disk with
          staging := disk.staging.insert stagingDir { dir with record := none }
          parked := disk.parked.insert stagingDir record },
        .goes { b with place := .reopen stagingDir generationId })
    | _, _ => (d.setDisk { disk with parked := cleared }, preconditionFailed env)
  | none => (d.setDisk { disk with parked := cleared }, preconditionFailed env)

/-- `open_generation` on the container. -/
def reopenContainer (env : Env) (d : Root) (b : Body) (stagingDir generationId : Text) :
    Root × Ends :=
  withMachine d fun w =>
    let accepted := env.ioOk && ((w.disk.staging.find? stagingDir).bind Staging.Dir.container).any
      (Staging.verifyContainer w.config.kit stagingDir)
    (d, .goes { b with place := .unpark stagingDir generationId accepted })

/-- The progress record is renamed back. -/
def unparkProgress (env : Env) (d : Root) (b : Body) (stagingDir generationId : Text)
    (accepted : Bool) : Root × Ends :=
  let disk := d.shared.disk
  let d' :=
    match disk.parked.find? stagingDir, disk.staging.find? stagingDir, env.ioOk with
    | some record, some dir, true =>
      d.setDisk { disk with
        staging := disk.staging.insert stagingDir { dir with record := some record }
        parked := disk.parked.erase stagingDir }
    | _, _, _ => d
  if accepted then (d', .goes { b with place := .seam stagingDir generationId })
  else (d', preconditionFailed env)

/-- `_restore_published_generation`. -/
def Shared.restorePublished (d : Shared) (generationId : Text) : Shared :=
  if generationId ∈ d.disk.generations ∨ (d.disk.staging.find? generationId).isNone then d
  else
    { d with
      disk :=
        { d.disk with
          staging := d.disk.staging.erase generationId
          generations := generationId :: d.disk.generations } }

/-- The publish seam, up to the rename of the container. -/
def publishSeam (s : Setup) (env : Env) (d : Root) (b : Body) (stagingDir generationId : Text) :
    Root × Ends :=
  if s.publish = false then (d, .ends advance)
  else
    match d.shared.active with
    | .names active _ =>
      if active = generationId then
        -- `_finish_already_committed`
        ({ d with shared := d.shared.restorePublished generationId },
          if env.ioOk then .goes { b with place := .switch } else publishFailed env)
      else goOn
    | _ => goOn
where
  /-- The preconditions of the transaction, and its checkpoint. -/
  goOn : Root × Ends :=
    withMachine d fun w =>
      match env.seam with
      | .goes => (d, .goes { b with place := .rename stagingDir generationId })
      | .refused => (d, publishFailed env)
      | .rejected =>
        (d.adopt (Staging.discardOwn env.toEnv stagingDir w), publishFailed env)
      | .blocked =>
        let w := w.setMachine
          { w.machine with
            readyVerified := false, readyGenerationId := none, readyStagingDir := none }
        match w.disk.staging.find? stagingDir, Staging.loadProgress w.disk.staging stagingDir with
        | some dir, some record =>
          (d.adopt (w.setDir stagingDir
            (dir.writeRecord env.toEnv { record with status := .blocked })), publishFailed env)
        | _, _ => (d.adopt w, publishFailed env)
      | .raises => (d, .raises)

/-- The container is renamed into `generations/`. -/
def renameContainer (env : Env) (d : Root) (b : Body) (stagingDir generationId : Text) :
    Root × Ends :=
  let disk := d.shared.disk
  match disk.staging.find? stagingDir with
  | none => (d, publishFailed env)
  | some dir =>
    match dir.record, ({ dir with record := none } : Staging.Dir).container.bind
        fun c => c.manifest.content with
    | some record, some manifest =>
      if env.ioOk = false ∨ generationId ∈ disk.generations then (d, publishFailed env)
      else
        (d.setDisk
          { disk with
            staging := disk.staging.erase stagingDir
            parked := disk.parked.insert generationId record
            generations := generationId :: disk.generations },
          .goes { b with place := .commit stagingDir generationId dir manifest.identity })
    | _, _ => (d, publishFailed env)

/-- `_compose_active_manifest`, as `active_identity_from_manifest` reads it back. -/
def layeredIdentity (identity : Dict) (schema : Text) : Dict :=
  let entry (layer : Layer) (key : Text) : List (Text × Staging.Value) :=
    ((identity.get key).map fun value => (layer.key, value)).toList
  entry .storeEpoch (ascii "store_epoch") ++ [(Layer.factSchema.key, .text schema)] ++
    entry .representation (ascii "representation_id") ++
    entry .vectorFormat (ascii "vector_format") ++
    entry .projection (ascii "projection_version") ++
    entry .index (ascii "index_fingerprint")

/-- The rename of the container is undone. -/
def Root.rollBack (env : Env) (d : Root) (stagingDir generationId : Text) (dir : Staging.Dir) :
    Root :=
  let disk := d.shared.disk
  if env.unlinkOk then
    d.setDisk
      { disk with
        staging := disk.staging.insert stagingDir dir
        parked := disk.parked.erase generationId
        generations := disk.generations.erase generationId }
  else d

def commitManifest (env : Env) (d : Root) (b : Body) (stagingDir generationId : Text)
    (dir : Staging.Dir) (identity : Dict) : Root × Ends :=
  match d.shared.facts, env.write with
  | none, _ | _, .failed => (d.rollBack env stagingDir generationId dir, publishFailed env)
  | some facts, write =>
    let d' : Root :=
      { d with
        shared := { d.shared with
          active := .names generationId
            (layeredIdentity identity (Staging.readFactsSchemaVersion facts.db))
          disk := { d.shared.disk with parked := d.shared.disk.parked.erase generationId } }
        committed := d.committed ++ [generationId] }
    if write = .done ∨ env.ioOk = true then (d', .goes { b with place := .switch })
    else (d', publishFailed env)

/-! ## Cleanup -/

/-- The end of the last step. -/
def finishes (d : Root) (report : Report) : Root × Ends :=
  (d, .ends (.returned
    { progress := some [(ascii "chunks", 1)], advance := true, result := some (.report report) }))

/-- `_step_cleanup`, up to the reading of the manifest; the machine is dropped. -/
def cleanupStart (s : Setup) (env : Env) (d : Root) (b : Body) : Root × Ends :=
  let d := { d with machine := none }
  match isAutoAlreadyCurrent s env d.shared b.parameters.mode with
  | .error ends => (d, ends)
  | .ok true =>
    finishes d
      { outcome := .alreadyCurrent, buildId := b.parameters.buildId, published := false }
  | .ok false =>
    if b.parameters.mode = .indexOnly then
      finishes d { outcome := .indexRebuilt, buildId := b.parameters.buildId, published := false }
    else (d, .goes { b with place := .outcome })

/-- What the manifest names, if it can be read. -/
def Pointer.generationId : Pointer → Option Text
  | .names generationId _ => some generationId
  | _ => none

/-- The published generation is read off the manifest, or a ready staging off its record. -/
def cleanupOutcome (env : Env) (d : Root) (b : Body) : Root × Ends :=
  let named := if env.readOk then d.shared.active.generationId else none
  let d := { d with named := named }
  if named.isSome ∧ named = b.parameters.buildId then
    finishes d
      { outcome := .rebuilt, buildId := b.parameters.buildId, generationId := named,
        published := true }
  else
    let ready := b.parameters.buildId.bind fun buildId =>
      ((d.shared.disk.staging.find? buildId).bind Staging.Dir.record).bind fun record =>
        if record.versionOk = true ∧ record.status = .ready then some record.generationId else none
    finishes d
      { outcome := .rebuilt, buildId := b.parameters.buildId, generationId := ready,
        published := false }

/-! ## The program -/

/-- The steps, from one place to the next. -/
def rebuildStep (s : Setup) (env : Env) (d : Root) (b : Body) : Root × Ends :=
  match b.place with
  | .preflight => preflightStart s env (d.entered env.fresh) b
  | .target representationId current => preflightTarget s env d b representationId current
  | .staging =>
    let d := d.entered env.fresh
    if b.parameters.mode = .indexOnly then indexOnlyStaging d
    else unlessCurrent s env d b (.ends advance) (.goes { b with place := .machineForStaging })
  | .machineForStaging => machineFor s env d b fun d => (d, .goes { b with place := .restart })
  | .restart => (restartDiscards env d b, .goes { b with place := .retry })
  | .retry => retryBlocked env d b
  | .cycle => cycleBegin env d b
  | .cycling => cycleStep env d b
  | .report => reportCycle d b
  | .publishing =>
    let d := d.entered env.fresh
    unlessCurrent s env d b (.ends advance)
      (if b.parameters.mode = .indexOnly then .ends advance else .goes { b with place := .locate })
  | .locate => locate s env d b
  | .verify stagingDir generationId => verifyPublishable env d b stagingDir generationId
  | .park stagingDir generationId => parkProgress env d b stagingDir generationId
  | .reopen stagingDir generationId => reopenContainer env d b stagingDir generationId
  | .unpark stagingDir generationId accepted =>
    unparkProgress env d b stagingDir generationId accepted
  | .seam stagingDir generationId => publishSeam s env d b stagingDir generationId
  | .rename stagingDir generationId => renameContainer env d b stagingDir generationId
  | .commit stagingDir generationId dir identity =>
    commitManifest env d b stagingDir generationId dir identity
  | .switch => (d, if env.switchOk then .ends advance else publishFailed env)
  | .cleanup => cleanupStart s env (d.entered env.fresh) b
  | .outcome => cleanupOutcome env d b
  | .unknownPhase => (d, .raises)

def enter (phase : Phase) (r : Record Parameters Result) : Body where
  parameters := r.parameters
  progress := r.progress
  place :=
    match phase with
    | .preflight => .preflight
    | .staging => .staging
    | .publishing => .publishing
    | .cleanup => .cleanup
    | _ => .unknownPhase

/-- Others change the disk. -/
def weather (shared : Shared) (d : Root) : Root := { d with shared := shared }

/-- `RebuildSpec.build`. -/
def program (s : Setup) (fingerprint : Text → Parameters → Text) :
    Program Parameters Result Root Env Shared Body where
  fingerprint := fingerprint
  completed := .completed
  enter := enter
  step := rebuildStep s
  weather := weather

/-- `REBUILD_PHASES`, `REBUILD_IRREVERSIBLE_PHASE`. -/
def machine : Machine where
  phases := [.preflight, .staging, .publishing, .cleanup]
  irreversiblePhase := .publishing
  cancelPhase := none

end Rebuild
end Operations
end SemanticMemory
