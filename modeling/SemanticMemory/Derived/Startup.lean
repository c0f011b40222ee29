import SemanticMemory.Derived.Publish

/-!
# The daemon over its derived root

The start of the daemon (`run_server` of `daemon/server.py`, the constructor of the delta machine in
`daemon/delta.py`), its publisher and its staging builder, and what a crash leaves of them.

## What is modelled, and how

* The thread of `run_server` is a `MainPc`.  It resolves the active identity, loads, builds or
  recovers the generation to be served, creates the staging machine and the publisher, whose workers
  run from then on, and at last sweeps.
* The publisher has at most one call of `_publish_locked` running.  The staging builder's cycles take
  the same lock; a cycle is one change of one staging.
* A crash takes the process and leaves the root.  An exception out of the constructor ends the
  process too.
* A generation that the start opens opens if and only if it is intact.
* The space estimate, the evidence service, the trace store and the compatibility report are left
  out.
-/

namespace SemanticMemory
namespace Derived

/-! ## The process -/

/-- What the evidence configuration declares. -/
structure Config where
  generationId : Text
  representationId : Text
  vectorDimension : ℕ

/-- The places of the start. -/
inductive MainPc where
  | resolve
  | load
  | build
  | buildRename (id : Text) (identity : Identity)
  | isolate (reason : Text)
  | pointer (reason : Text)
  | openRollback (manifest : Manifest)
  | catchUp (generation : Generation)
  | activate (generation : Generation)
  | clearRollback (generation : Generation)
  | recoverRead (generation : Generation)
  | recoverSweep (generation : Generation) (keep : Keep) (sweep : Sweep)
  | serve (generation : Option Generation)
  | sweepRead
  | sweep (keep : Keep) (sweep : Sweep)
  | serving
  deriving DecidableEq

/-- The publisher's and the builder's workers run. -/
def MainPc.wired : MainPc → Bool
  | .sweepRead | .sweep _ _ | .serving => true
  | _ => false

/-- A running daemon. -/
structure Process where
  config : Config
  /-- `_declared_generation_id`. -/
  declared : Text
  /-- The provider's representation. -/
  representationId : Text
  machine : DeltaMachine
  /-- `_refuse_reason`. -/
  refused : Option Text := none
  main : MainPc := .resolve
  call : Option Call := none
  /-- The publisher's `_committed_generation_id` and `_switched_generation_id`. -/
  committed : Option Text := none
  switched : Option Text := none

/-- The derived root and the process, if one is running. -/
structure World where
  root : Root
  process : Option Process := none

/-- The process is over. -/
def World.exit (root : Root) : World := ⟨root, none⟩

/-- The start goes on at another place. -/
def World.goto (root : Root) (p : Process) (main : MainPc) : World :=
  ⟨root, some { p with main := main }⟩

/-! ## The start -/

/-- `resolve_active_identity`, and the constructor up to the load. -/
def stepResolve (env : Env) (root : Root) (p : Process) : World :=
  let declare (id representationId : Text) (main : MainPc) : World :=
    World.goto (root.makeDelta id)
      { p with
        declared := id, representationId := representationId, machine := ⟨id, none⟩ } main
  let configured := declare p.config.generationId p.config.representationId
  match root.active with
  | .absent => configured .load
  | .broken reason => configured (.pointer reason)
  | .valid manifest =>
    match refuseLoadReason env.schema manifest with
    | some reason => configured (.pointer reason)
    | none => declare manifest.generationId manifest.identity.representationId .load

/-- `_load_or_build_generation`. -/
def stepLoad (env : Env) (root : Root) (p : Process) : World :=
  match root.active with
  | .broken reason => World.goto root p (.pointer reason)
  | _ =>
    match openGeneration root.generations p.declared with
    | none =>
      if root.active.generationId = some p.declared then World.goto root p (.isolate env.fault)
      else World.goto root p .build
    | some generation =>
      match env.facts with
      | .failed | .missing => World.exit root
      | .found epoch _ =>
        if epoch = generation.identity.storeEpoch then
          World.goto root p (.serve (some generation))
        else World.goto root p .build

/-- `_build_generation_now`, up to the finished container.  Its record is not the staging
machine's. -/
def stepBuild (env : Env) (root : Root) (p : Process) : World :=
  match env.build with
  | none => World.exit root
  | some (id, identity) =>
    if root.generations.find? id ≠ none ∨ root.staging.find? id ≠ none then World.exit root
    else
      World.goto
        { root with
          staging := root.staging.insert id
            ⟨id, identity, false,
              some { versionOk := false, generationId := id, status := .running,
                     identity := identity }⟩ }
        p (.buildRename id identity)

/-- The end of `build_generation`; a blocked build leaves its record. -/
def stepBuildRename (env : Env) (root : Root) (p : Process) (id : Text) (identity : Identity) :
    World :=
  if env.gateOk = false then World.goto root p (.serve none)
  else if env.renameOk = false ∨ root.generations.find? id ≠ none then World.exit root
  else
    let root : Root :=
      { root with
        staging := root.staging.erase id
        generations := root.generations.insert id ⟨id, identity, true, none⟩ }
    match openGeneration root.generations id with
    | none => World.exit root
    | some generation => World.goto root p (.serve (some generation))

def refuseRecovery (env : Env) (root : Root) (p : Process) (clearPointer : Bool) (reason : Text) :
    World :=
  World.goto (if clearPointer = true ∧ env.unlinkOk = true then { root with rollback := .absent }
    else root) { p with refused := some reason } (.serve none)

/-- `_recover_via_rollback` reads the pointer. -/
def stepPointer (env : Env) (root : Root) (p : Process) (reason : Text) : World :=
  match root.rollback with
  | .absent => refuseRecovery env root p false reason
  | .broken problem =>
    refuseRecovery env root p false (reason ++ ascii "; unusable rollback pointer: " ++ problem)
  | .valid manifest =>
    if manifest.generationId = p.declared then
      refuseRecovery env root p true
        (ascii "rollback pointer names the damaged active " ++ manifest.generationId)
    else World.goto root p (.openRollback manifest)

/-- `_recover_via_rollback` verifies the rollback. -/
def stepOpenRollback (env : Env) (root : Root) (p : Process) (manifest : Manifest) : World :=
  match openGeneration root.generations manifest.generationId with
  | none =>
    refuseRecovery env root p true
      (ascii "rollback " ++ manifest.generationId ++ ascii " is damaged: " ++ env.fault)
  | some generation =>
    match env.facts with
    | .failed => World.exit root
    | .missing => refuseRecovery env root p false (ascii "fact store is missing")
    | .found epoch _ =>
      if generation.identity.storeEpoch ≠ epoch then
        refuseRecovery env root p true
          (ascii "rollback " ++ manifest.generationId ++ ascii " belongs to store epoch '" ++
            generation.identity.storeEpoch ++ ascii "', facts are '" ++ epoch ++ ascii "'")
      else if generation.identity.representationId ≠ p.representationId ∨
          generation.identity.vectorDimension ≠ p.config.vectorDimension then
        refuseRecovery env root p false
          (ascii "rollback " ++ manifest.generationId ++
            ascii " identity does not match the runtime (representation/dimension)")
      else World.goto root p (.catchUp generation)

/-- The catch-up of the rollback's checkpoint, by `_build_staging_delta`. -/
def stepCatchUp (env : Env) (root : Root) (p : Process) (generation : Generation) : World :=
  let set (value : Option Hlc) : Root :=
    { root with delta := root.delta.insert generation.generationId value }
  let refuse (root : Root) : World :=
    refuseRecovery env root p false (ascii "rollback catch-up failed: " ++ env.fault)
  match env.delta with
  | .absorbed =>
    World.goto (set (some (match env.facts with | .found _ upper => upper | _ => hlc 0 0))) p
      (.activate generation)
  | .blocked _ _ _ => refuse root
  | .failed begun | .raised begun => refuse (if begun then set none else root)

/-- The recovered rollback is made the active. -/
def stepActivate (env : Env) (root : Root) (p : Process) (generation : Generation) : World :=
  let refuse (root : Root) : World :=
    refuseRecovery env root p false (ascii "rollback activation failed: " ++ env.fault)
  let written (version : Text) : Root :=
    { root with
      active :=
        .valid (composeManifest generation generation.generationId version env.nowMs) }
  match env.schema with
  | none | some [] => refuse root
  | some (b :: version) =>
    match env.write with
    | .failed => refuse root
    | .committed => refuse (written (b :: version))
    | .done => World.goto (written (b :: version)) p (.clearRollback generation)

/-- The rest of the constructor: the checks against the facts, and the snapshot. -/
def stepServe (env : Env) (root : Root) (p : Process) (generation : Option Generation) : World :=
  match generation with
  | none => World.goto root p .sweepRead
  | some generation =>
    if generation.identity.representationId ≠ p.representationId ∨
        generation.identity.vectorDimension ≠ p.config.vectorDimension then World.exit root
    else
      match env.facts with
      | .failed | .missing => World.exit root
      | .found epoch _ =>
        if epoch ≠ generation.identity.storeEpoch ∨ env.commitsOk = false then World.exit root
        else
          World.goto root
            { p with
              machine := { p.machine with served := some generation.generationId } } .sweepRead

/-- One place of the start to the next. -/
def mainStep (env : Env) (root : Root) (p : Process) : World :=
  match p.main with
  | .resolve => stepResolve env root p
  | .load => stepLoad env root p
  | .build => stepBuild env root p
  | .buildRename id identity => stepBuildRename env root p id identity
  | .isolate reason =>
    World.goto (isolateGeneration env.renameOk env.nowMs p.declared root) p (.pointer reason)
  | .pointer reason => stepPointer env root p reason
  | .openRollback manifest => stepOpenRollback env root p manifest
  | .catchUp generation => stepCatchUp env root p generation
  | .activate generation => stepActivate env root p generation
  | .clearRollback generation =>
    World.goto (if env.unlinkOk then { root with rollback := .absent } else root) p
      (.recoverRead generation)
  | .recoverRead generation =>
    World.goto root p
      (.recoverSweep generation
        ⟨some generation.generationId, none, liveStagingGenerationIds root⟩ .begin)
  | .recoverSweep generation keep sweep =>
    let swept := sweepStep env.removal keep root sweep
    match swept.2 with
    | some sweep => World.goto swept.1 p (.recoverSweep generation keep sweep)
    | none =>
      World.goto swept.1
        { p with
          declared := generation.generationId
          machine := { p.machine with checkpoint := generation.generationId }
          refused := none }
        (.serve (some generation))
  | .serve generation => stepServe env root p generation
  | .sweepRead => World.goto root p (.sweep (readKeep none root) .begin)
  | .sweep keep sweep =>
    let swept := sweepStep env.removal keep root sweep
    match swept.2 with
    | some sweep => World.goto swept.1 p (.sweep keep sweep)
    | none => World.goto swept.1 p .serving
  | .serving => ⟨root, some p⟩

theorem mainStep_publisher (env : Env) {root : Root} {p p' : Process}
    (h : (mainStep env root p).process = some p') :
    p'.call = p.call ∧ p'.committed = p.committed ∧ p'.switched = p.switched := by
  have hrefuse : ∀ (root : Root) (clearPointer : Bool) (reason : Text) (p' : Process),
      (refuseRecovery env root p clearPointer reason).process = some p' →
        p'.call = p.call ∧ p'.committed = p.committed ∧ p'.switched = p.switched :=
    fun _ _ _ _ hp' => by
      cases hp'
      exact ⟨rfl, rfl, rfl⟩
  unfold mainStep at h
  split at h
  · unfold stepResolve at h
    simp only at h
    split at h
    · cases h
      exact ⟨rfl, rfl, rfl⟩
    · cases h
      exact ⟨rfl, rfl, rfl⟩
    · split at h <;> (cases h; exact ⟨rfl, rfl, rfl⟩)
  · unfold stepLoad at h
    split at h
    · cases h
      exact ⟨rfl, rfl, rfl⟩
    · split at h
      · split at h <;> (cases h; exact ⟨rfl, rfl, rfl⟩)
      · split at h
        · cases h
        · cases h
        · split at h <;> (cases h; exact ⟨rfl, rfl, rfl⟩)
  · unfold stepBuild at h
    split at h
    · cases h
    · split at h <;> (cases h; try exact ⟨rfl, rfl, rfl⟩)
  · unfold stepBuildRename at h
    split at h
    · cases h
      exact ⟨rfl, rfl, rfl⟩
    · split at h
      · cases h
      · simp only at h
        split at h <;> (cases h; try exact ⟨rfl, rfl, rfl⟩)
  · cases h
    exact ⟨rfl, rfl, rfl⟩
  · unfold stepPointer at h
    split at h
    · exact hrefuse _ _ _ _ h
    · exact hrefuse _ _ _ _ h
    · split at h
      · exact hrefuse _ _ _ _ h
      · cases h
        exact ⟨rfl, rfl, rfl⟩
  · unfold stepOpenRollback at h
    split at h
    · exact hrefuse _ _ _ _ h
    · split at h
      · cases h
      · exact hrefuse _ _ _ _ h
      · split at h
        · exact hrefuse _ _ _ _ h
        · split at h
          · exact hrefuse _ _ _ _ h
          · cases h
            exact ⟨rfl, rfl, rfl⟩
  · unfold stepCatchUp at h
    simp only at h
    split at h
    · cases h
      exact ⟨rfl, rfl, rfl⟩
    all_goals exact hrefuse _ _ _ _ h
  · unfold stepActivate at h
    simp only at h
    split at h
    · exact hrefuse _ _ _ _ h
    · exact hrefuse _ _ _ _ h
    · split at h
      · exact hrefuse _ _ _ _ h
      · exact hrefuse _ _ _ _ h
      · cases h
        exact ⟨rfl, rfl, rfl⟩
  · cases h
    exact ⟨rfl, rfl, rfl⟩
  · cases h
    exact ⟨rfl, rfl, rfl⟩
  · simp only at h
    split at h <;> (cases h; exact ⟨rfl, rfl, rfl⟩)
  · unfold stepServe at h
    split at h
    · cases h
      exact ⟨rfl, rfl, rfl⟩
    · split at h
      · cases h
      · split at h
        · cases h
        · cases h
        · split at h <;> (cases h; try exact ⟨rfl, rfl, rfl⟩)
  · cases h
    exact ⟨rfl, rfl, rfl⟩
  · simp only at h
    split at h <;> (cases h; exact ⟨rfl, rfl, rfl⟩)
  · cases h
    exact ⟨rfl, rfl, rfl⟩

/-! ## The publisher -/

/-- The end of a publisher's cycle. -/
def finishPublish (c : Call) (result : Option Result) (p : Process) : Process :=
  let p := { p with call := none }
  match result with
  | some res =>
    if res.committed then
      { p with
        committed := some c.generationId
        switched := if res.ok then some c.generationId else p.switched }
    else p
  | none => p

/-- One step of the running call, or the end of its cycle. -/
def publisherStep (env : Env) (root : Root) (p : Process) (c : Call) : World :=
  match c.pc with
  | .returned result => ⟨root, some (finishPublish c result p)⟩
  | _ =>
    let q := publishStep env ⟨root, p.machine, c⟩
    ⟨q.root, some { p with machine := q.machine, call := some q.call }⟩

/-- The publisher hands a committed publication to the delta machine again. -/
def retrySwitch (env : Env) (root : Root) (p : Process) : World :=
  match p.committed with
  | some id =>
    if p.call = none ∧ p.switched ≠ some id then
      match publishSwitch env id root with
      | some machine => ⟨root, some { p with machine := machine, switched := some id }⟩
      | none => ⟨root, some p⟩
    else ⟨root, some p⟩
  | none => ⟨root, some p⟩

/-! ## The actions -/

inductive Action where
  | start (config : Config)
  /-- The thread of `run_server` goes on. -/
  | main (env : Env)
  | publish (stagingDir generationId : Text) (ready : Option Text)
  | publisher (env : Env)
  /-- The publisher's next cycle after a commit that is not switched to. -/
  | retrySwitch (env : Env)
  /-- A cycle of the staging builder: a staging is changed, or a leftover taken away. -/
  | stage (name : Text) (dir : Option Dir)
  | crash

/-- A cycle of the staging builder. -/
def Root.stage (root : Root) (name : Text) (dir : Option Dir) : Root :=
  { root with
    staging :=
      match dir with
      | some d => root.staging.insert name d
      | none => root.staging.erase name }

def step (w : World) (a : Action) : World :=
  match a, w.process with
  | .start config, none =>
    ⟨w.root, some ⟨config, config.generationId, config.representationId,
      ⟨config.generationId, none⟩, none, .resolve, none, none, none⟩⟩
  | .main env, some p => mainStep env w.root p
  | .publish stagingDir generationId ready, some p =>
    if p.main.wired = true ∧ p.call = none ∧ p.committed = p.switched then
      ⟨w.root, some { p with call := some { stagingDir, generationId, ready } }⟩
    else w
  | .publisher env, some p =>
    match p.call with
    | some c => publisherStep env w.root p c
    | none => w
  | .retrySwitch env, some p => if p.main.wired then retrySwitch env w.root p else w
  | .stage name dir, some p =>
    if p.main.wired = true ∧ p.call = none then { w with root := w.root.stage name dir } else w
  | .crash, some _ => World.exit w.root
  | _, _ => w

end Derived
end SemanticMemory
