import SemanticMemory.Operations.Runner

/-!
# The clear operation

`ClearSpec` of `daemon/clear_operation.py`: the six steps of a clear over the semantic root, with a
crash between any two effects on the disk.

## What is modelled, and how

* The root is the live store, the directory `.clear` with the staging directory of this operation,
  and what else `_derived_leftovers` looks at.  Staging directories of other clears, the records of
  other operations and the vector of removed sizes are left out.
* A store is its identity and whether it is empty.  The answers of the fact-store helper, of the
  control socket and of the file system come from outside, as does the identity that a new store
  draws; it has not been drawn before.
* `run_maintenance` is its places: before the lease, under it, and the reopening.  An exception from
  under the lease is on its way (`unwind`) while the daemon reopens, and one of the reopening takes
  its place.  The lease itself is not modelled: what it excludes may happen here all the same.
* Meanwhile recorders append facts or create the missing store, derived entries come and go, and the
  cleanup of another clear may remove what is under `.clear`.
* `replacements` is a history: the stores that have replaced the live one.
-/

namespace SemanticMemory
namespace Operations
namespace Clear

/-! ## The root -/

structure Identity where
  historyId : Text
  storeEpoch : Text
  hlcPhysicalMs : ℤ
  hlcLogical : ℤ
  deriving DecidableEq

structure Store where
  identity : Identity
  empty : Bool
  deriving DecidableEq

/-- `.clear/<operation_id>`: the store, `identity.json` and `published.marker`. -/
structure Staging where
  store : Option Store := none
  identity : Option Identity := none
  marker : Option Identity := none
  deriving DecidableEq

/-- The `state` of the recording gap. -/
inductive Gap where
  | none
  | present (storeEpoch : Text)
  | unknown
  deriving DecidableEq

structure Root where
  live : Option Store
  clear : Option (Option Staging) := none
  derivedDirs : List Text := []
  derivedFiles : List Text := []
  gapFiles : List Text := []
  gap : Gap := .none
  drawn : List Text := []
  replacements : List Store := []

/-- The staging directory of the operation. -/
def Root.staging (d : Root) : Option Staging := d.clear.join

/-- `_derived_leftovers` finds something. -/
def Root.leftovers (d : Root) : Bool :=
  d.clear.isSome || d.derivedDirs ≠ [] || d.derivedFiles ≠ [] || d.gapFiles ≠ [] || d.gap ≠ .none

/-! ## The outside world -/

/-- What `verify` and `create_empty` of the fact-store helper answer. -/
inductive Helper where
  | ok
  /-- `_HelperFailed`, with another status than `no_store`. -/
  | broken (status : Text)
  /-- `OperationFailed`. -/
  | failed (error : StepError)
  deriving DecidableEq

/-- How a part of `run_maintenance` goes. -/
inductive Maintenance where
  | ok
  /-- `MaintenanceError`. -/
  | error (code : Text)
  /-- An answer of the control socket that is not `ok`. -/
  | refused (code : Text)
  | raises
  deriving DecidableEq

/-- How an operation on files goes. -/
inductive Fault where
  | ok
  | failed (error : StepError)
  | raises
  deriving DecidableEq

/-- A file or directory of the staging directory. -/
inductive Part where
  | store | identity | marker

/-- The answers for one piece of a step. -/
structure Env where
  helper : Helper := .ok
  fault : Fault := .ok
  maintenance : Maintenance := .ok
  /-- `_read_json` can read. -/
  readable : Bool := true
  /-- The control socket takes connections. -/
  daemon : Bool := true
  fresh : Identity := ⟨[], [], 0, 0⟩
  /-- The store epoch that the daemon reports. -/
  reported : Option Text := none
  /-- What is removed next. -/
  part : Part := .store
  recorderLive : Bool := false
  servingReady : Option Bool := none
  bytes : ℤ := 0

/-! ## What a clear reports -/

inductive ClearOutcome where
  | cleared | alreadyClear
  deriving DecidableEq

/-- The `old` of a result: an identity, or the expected epoch alone. -/
inductive OldIdentity where
  | full (identity : Identity)
  | epoch (storeEpoch : Text)
  deriving DecidableEq

structure Report where
  outcome : ClearOutcome
  cleanupComplete : Bool := true
  old : Option OldIdentity
  new : Option Identity
  servingReady : Option Bool
  applicationLevelDeletion : Bool := true
  deriving DecidableEq

/-- The `result` of a record; `completed` is the engine's `{"completed": True}`. -/
inductive Result where
  | completed
  | report (report : Report)

structure Parameters where
  expectStoreEpoch : Text

/-! ## The places -/

/-- An exception that has left the replacement and waits for the reopening. -/
inductive Pending where
  | maintenance (code : Text)
  | failed (error : StepError)
  deriving DecidableEq

inductive Place where
  | preflight
  | waitingForQuiesce
  | staging
  | stagingRemove (old : Option Identity)
  | stagingEnsure (old : Option Identity)
  | stagingMkdir (old : Option Identity)
  | stagingCreate (old : Option Identity)
  | stagingWrite (identity : Identity)
  | publishing
  | prepare (staged : Identity)
  | gate (staged : Identity)
  | replace (staged : Identity)
  | replaced (staged : Identity)
  | marker (staged : Identity)
  | prime (staged : Identity)
  | reopen (staged : Identity)
  | unwind (pending : Pending)
  | reopening (cancelRequested : Bool)
  | compensate
  | cleanup
  | sweepDirs (todo : List Text)
  | sweepClear
  | sweepFiles (todo : List Text)
  | sweepGap (todo : List Text)
  | outcome
  | unknownPhase
  deriving DecidableEq

/-- A step at work, with the epoch that the operation expects. -/
structure Body where
  expected : Text
  place : Place

abbrev Ends := Progress Result Body

/-! ## Reads -/

/-- `_valid_identity_token`. -/
def validToken (token : Text) : Bool := validOperationId token

def liveIdentity (env : Env) (d : Root) : Except (Outcome Result) (Option Store) :=
  match env.helper with
  | .ok => .ok d.live
  | .broken status =>
    .error (.blocked
      { code := ascii "fact_store_unverifiable", phase := .preflight,
        remediation := some (ascii
          "the fact store failed closed validation; inspect and fix it before clearing"),
        cause := some [(ascii "fault_code", .text status)] })
  | .failed error => .error (.failed error)

def CauseValue.ofOption : Option Text → CauseValue
  | none => .null
  | some value => .text value

def epochMismatch (expected : Text) (actual : Option Text) (phase : Phase) : Outcome Result :=
  .blocked
    { code := ascii "store_epoch_mismatch", phase := phase,
      remediation := some (ascii "re-run clear with the current store epoch"),
      cause := some
        [(ascii "expected", .text expected), (ascii "actual", CauseValue.ofOption actual)] }

/-- `_current_disposition`: whether the system is already clear, and its identity. -/
def currentDisposition (env : Env) (d : Root) (expected : Text) (phase : Phase) :
    Except (Outcome Result) (Bool × Option Identity) :=
  match liveIdentity env d with
  | .error o => .error o
  | .ok (some store) =>
    if store.empty ∧ d.leftovers = false then .ok (true, some store.identity)
    else if store.identity.storeEpoch ≠ expected then
      .error (epochMismatch expected (some store.identity.storeEpoch) phase)
    else .ok (false, some store.identity)
  | .ok none =>
    if expected ≠ [] then .error (epochMismatch expected none phase)
    else .ok (!d.leftovers, none)

/-- `_load_staged_identity`. -/
def stagedIdentity (env : Env) (d : Root) : Option Identity :=
  if env.readable then d.staging.bind Staging.identity else none

/-! ## Errors -/

/-- The end of a step that goes on to the next phase. -/
def advance : Outcome Result := .returned { advance := true }

def fails (code : Text) (phase : Phase) (retryable : Bool) (remediation : Option Text := none)
    (cause : Option (List (Text × CauseValue)) := none) : Outcome Result :=
  .failed
    { code := code, phase := phase, retryable := retryable, remediation := remediation,
      cause := cause }

def blocks (code : Text) (phase : Phase) (remediation : Text)
    (cause : Option (List (Text × CauseValue)) := none) : Outcome Result :=
  .blocked { code := code, phase := phase, remediation := some remediation, cause := cause }

/-- What a `MaintenanceError` of the publication becomes. -/
def publishError (expected code : Text) : Outcome Result :=
  if code = ascii "epoch_mismatch" then
    blocks (ascii "store_epoch_mismatch") .publishing
      (ascii "re-run clear with the current store epoch") (some [(ascii "expected", .text expected)])
  else if code = ascii "staging_invalid" then
    blocks (ascii "staging_invalid") .publishing
      (ascii "restore or re-create the staging directory for this operation, then retry")
  else if code = ascii "publish_state_inconsistent" then
    blocks (ascii "publish_state_inconsistent") .publishing
      (ascii
        "the staged publication marker disagrees with the store on disk; inspect before retrying")
  else if code = ascii "publish_prime_failed" then
    fails (ascii "publish_failed") .publishing true
      (some (ascii "retry; the published store re-primes on the next attempt"))
      (some [(ascii "fault_code", .text code)])
  else if code = ascii "quiesce_timeout" then
    fails (ascii "quiesce_timeout") .publishing true
      (some (ascii "retry when the daemon and recorders are less busy"))
  else if code = ascii "maintenance_in_progress" then
    fails (ascii "maintenance_in_progress") .publishing true
      (some (ascii "retry after the concurrent maintenance operation finishes"))
  else
    fails (ascii "publish_failed") .publishing true none (some [(ascii "fault_code", .text code)])

/-- What an answer of the control socket that is not `ok` becomes. -/
def recoveryError (code : Text) : Outcome Result :=
  if code = ascii "maintenance_in_progress" then
    fails (ascii "maintenance_in_progress") .publishing true
  else
    fails (ascii "publish_failed") .publishing true none (some [(ascii "fault_code", .text code)])

/-- `staging_write_failed` of `_write_json_atomic`. -/
def writeFailed : StepError where
  code := ascii "staging_write_failed"
  phase := .staging
  retryable := true

/-! ## Effects -/

def Staging.erase (s : Staging) : Part → Staging
  | .store => { s with store := none }
  | .identity => { s with identity := none }
  | .marker => { s with marker := none }

def Root.setStaging (d : Root) (s : Staging) : Root := { d with clear := some (some s) }

/-- `_remove_entry` on the staging directory: what is removed next, and whether that was all. -/
def Root.removeStaging (d : Root) (part : Part) : Root × Bool :=
  match d.clear with
  | some (some s) =>
    if s = {} then ({ d with clear := some none }, true) else (d.setStaging (s.erase part), false)
  | _ => (d, true)

/-! ## The steps -/

/-- The step stays where it is, or goes on, after a removal. -/
def removing (env : Env) (d : Root) (b : Body) (next : Place) : Root × Ends :=
  match env.fault with
  | .failed error => (d, .ends (.failed error))
  | .raises => (d, .raises)
  | .ok =>
    match d.removeStaging env.part with
    | (d', true) => (d', .goes { b with place := next })
    | (d', false) => (d', .goes b)

/-- A list of entries is swept. -/
def sweeping (env : Env) (d : Root) (b : Body) (todo : List Text) (next : Place)
    (remaining : List Text → Place) (remove : Text → Root) : Root × Ends :=
  match env.fault with
  | .failed error => (d, .ends (.failed error))
  | .raises => (d, .raises)
  | .ok =>
    match todo with
    | [] => (d, .goes { b with place := next })
    | name :: todo => (remove name, .goes { b with place := remaining todo })

/-- `_step_staging`, up to its first effect. -/
def stagingStart (env : Env) (d : Root) (b : Body) : Root × Ends :=
  match currentDisposition env d b.expected .staging with
  | .error o => (d, .ends o)
  | .ok (true, _) => (d, .ends advance)
  | .ok (false, old) =>
    match d.staging with
    | none => (d, .goes { b with place := .stagingEnsure old })
    | some s =>
      match stagedIdentity env d with
      | none => (d, .goes { b with place := .stagingRemove old })
      | some staged =>
        -- `_staging_is_valid`: a failure of the helper is not caught
        match env.helper, s.store with
        | .failed error, _ => (d, .ends (.failed error))
        | .broken _, _ => (d, .raises)
        | .ok, none => (d, .raises)
        | .ok, some store =>
          if store.empty ∧ store.identity = staged then (d, .ends advance)
          else (d, .goes { b with place := .stagingRemove old })

/-- `create_empty`, and the check for a collision. -/
def stagingCreate (env : Env) (d : Root) (b : Body) (old : Option Identity) : Root × Ends :=
  match env.helper with
  | .failed error => (d, .ends (.failed error))
  | .broken _ => (d, .raises)
  | .ok =>
    match d.staging with
    | none => (d, .raises)
    | some s =>
      if env.fresh.storeEpoch ∈ d.drawn then (d, .goes b)
      else
        let d' : Root :=
          { d.setStaging { s with store := some ⟨env.fresh, true⟩ } with
            drawn := env.fresh.storeEpoch :: d.drawn }
        if validToken env.fresh.historyId = false ∨ validToken env.fresh.storeEpoch = false ∨
            env.fresh.hlcLogical ≠ 0 then
          (d', .ends (fails (ascii "fact_store_helper_invalid") .staging false))
        else if env.fresh.storeEpoch = b.expected ∨
            ∃ o ∈ old, env.fresh.historyId = o.historyId ∨ env.fresh.storeEpoch = o.storeEpoch then
          (d', .ends (fails (ascii "staging_identity_collision") .staging false))
        else (d', .goes { b with place := .stagingWrite env.fresh })

def stagingWrite (env : Env) (d : Root) (identity : Identity) : Root × Ends :=
  match env.fault, d.staging with
  | .ok, some s =>
    (d.setStaging { s with identity := some identity },
      .ends (.returned
        { progress := some [(ascii "bytes", env.bytes), (ascii "chunks", 1)], advance := true }))
  | _, _ => (d, .ends (.failed writeFailed))

/-- `_step_publishing`, up to `run_maintenance`. -/
def publishingStart (env : Env) (d : Root) (b : Body) : Root × Ends :=
  match stagedIdentity env d with
  | some staged => (d, .goes { b with place := .prepare staged })
  | none =>
    match currentDisposition env d b.expected .publishing with
    | .error o => (d, .ends o)
    | .ok (true, _) => (d, .ends advance)
    | .ok (false, _) =>
      (d, .ends (blocks (ascii "staging_identity_missing") .publishing
        (ascii "restore or re-create the staging directory for this operation, then retry")))

/-- The end of `run_maintenance` where nothing is under way. -/
def maintained (env : Env) (d : Root) (b : Body) (ok : Ends) : Root × Ends :=
  match env.maintenance with
  | .ok => (d, ok)
  | .error code => (d, .ends (publishError b.expected code))
  | .refused code => (d, .ends (recoveryError code))
  | .raises => (d, .raises)

def unwinds (d : Root) (b : Body) (pending : Pending) : Root × Ends :=
  (d, .goes { b with place := .unwind pending })

def verifyStaged (env : Env) (d : Root) (b : Body) (staged : Identity) : Root × Ends :=
  match env.helper, d.staging.bind Staging.store with
  | .failed error, _ => unwinds d b (.failed error)
  | .ok, some store =>
    if store.empty = false ∨ store.identity ≠ staged then
      unwinds d b (.maintenance (ascii "staging_invalid"))
    else (d, .goes { b with place := .replace staged })
  | _, _ => unwinds d b (.maintenance (ascii "staging_invalid"))

/-- `replacement`, up to the replacement. -/
def gate (env : Env) (d : Root) (b : Body) (staged : Identity) : Root × Ends :=
  match env.maintenance with
  | .error code => unwinds d b (.maintenance code)
  | .refused code => unwinds d b (.maintenance code)
  | .raises => (d, .raises)
  | .ok =>
    let markerExists := env.readable && (d.staging.bind Staging.marker).isSome
    match d.live with
    | some store =>
      if store.identity.storeEpoch = staged.storeEpoch then
        (d, .goes { b with place := .marker staged })
      else if markerExists then unwinds d b (.maintenance (ascii "publish_state_inconsistent"))
      else if store.identity.storeEpoch ≠ b.expected then
        unwinds d b (.maintenance (ascii "epoch_mismatch"))
      else verifyStaged env d b staged
    | none =>
      if markerExists then unwinds d b (.maintenance (ascii "publish_state_inconsistent"))
      else if b.expected ≠ [] then unwinds d b (.maintenance (ascii "epoch_mismatch"))
      else verifyStaged env d b staged

/-- The rename of `replace_fact_database`. -/
def replaceStore (env : Env) (d : Root) (b : Body) (staged : Identity) : Root × Ends :=
  match env.fault, d.staging with
  | .ok, some s =>
    match s.store with
    | some store =>
      ({ d.setStaging { s with store := none } with
          live := some store, replacements := d.replacements ++ [store] },
        .goes { b with place := .replaced staged })
    | none => unwinds d b (.maintenance (ascii "replacement_failed"))
  | _, _ => unwinds d b (.maintenance (ascii "replacement_failed"))

/-- A piece under the lease that changes nothing and may fail. -/
def underLease (env : Env) (d : Root) (b : Body) (code : Text) (next : Place) : Root × Ends :=
  match env.fault with
  | .ok => (d, .goes { b with place := next })
  | _ => unwinds d b (.maintenance code)

def writeMarker (env : Env) (d : Root) (b : Body) (staged : Identity) : Root × Ends :=
  match env.fault, d.staging with
  | .ok, some s =>
    (d.setStaging { s with marker := some staged }, .goes { b with place := .prime staged })
  | _, _ => unwinds d b (.failed writeFailed)

def reopened (env : Env) (staged : Identity) : Outcome Result :=
  match env.reported with
  | none => advance
  | some reported =>
    if reported = staged.storeEpoch then advance
    else
      blocks (ascii "reopen_epoch_mismatch") .publishing
        (ascii
          "the daemon reports a different store epoch than the published store; inspect before retrying")
        (some [(ascii "published", .text staged.storeEpoch), (ascii "reported", .text reported)])

/-- The reopening under an exception. -/
def unwind (env : Env) (d : Root) (b : Body) (pending : Pending) : Root × Ends :=
  match env.maintenance with
  | .error code => (d, .ends (publishError b.expected code))
  | .raises => (d, .raises)
  | _ =>
    match pending with
    | .maintenance code => (d, .ends (publishError b.expected code))
    | .failed error => (d, .ends (.failed error))

def reopenUnverifiable : Outcome Result := fails (ascii "reopen_unverifiable") .reopening true

/-- `_step_reopening`, up to its first effect. -/
def reopening (env : Env) (d : Root) (b : Body) (cancelRequested : Bool) : Root × Ends :=
  if cancelRequested then
    match liveIdentity env d with
    | .error o => (d, .ends o)
    | .ok live =>
      if ∃ store ∈ live, ∃ staged ∈ stagedIdentity env d,
          store.identity.storeEpoch = staged.storeEpoch then
        (d, .ends (blocks (ascii "clear_published_during_cancel") .reopening
          (ascii
            "the clear had already published when the cancel was honored; inspect the store and finish cleanup explicitly")))
      else (d, .goes { b with place := .compensate })
  else
    match stagedIdentity env d with
    | none =>
      match currentDisposition env d b.expected .reopening with
      | .error o => (d, .ends o)
      | .ok (true, _) => (d, .ends advance)
      | .ok (false, _) => (d, .ends reopenUnverifiable)
    | some staged =>
      match liveIdentity env d with
      | .error o => (d, .ends o)
      | .ok none => (d, .ends reopenUnverifiable)
      | .ok (some store) =>
        if store.identity.storeEpoch ≠ staged.storeEpoch then
          (d, .ends (blocks (ascii "store_epoch_unexpected") .reopening
            (ascii
              "the published store epoch does not match the staged identity; inspect before retrying")
            (some [(ascii "published", .text staged.storeEpoch),
              (ascii "disk", .text store.identity.storeEpoch)])))
        else (d, .ends advance)

/-- `_gap_belongs_to_old_history`. -/
def Gap.belongsTo (expected : Text) : Gap → Bool
  | .none => true
  | .present epoch => expected ≠ [] && epoch = expected
  | .unknown => false

/-- The outcome, from what is on the disk after the sweep. -/
def report (expected : Text) (live : Option Store) (servingReady : Option Bool) : Report :=
  match live with
  | some store =>
    if expected = [] ∨ store.identity.storeEpoch ≠ expected then
      { outcome := .cleared, old := if expected = [] then none else some (.epoch expected),
        new := some store.identity, servingReady := servingReady }
    else
      { outcome := .alreadyClear, old := some (.full store.identity), new := some store.identity,
        servingReady := servingReady }
  | none => { outcome := .alreadyClear, old := none, new := none, servingReady := servingReady }

/-- The end of `_step_cleanup`. -/
def cleanupOutcome (env : Env) (d : Root) (b : Body) : Root × Ends :=
  match liveIdentity env d with
  | .error o => (d, .ends o)
  | .ok live =>
    (d, .ends (.returned
      { progress := some [(ascii "bytes", env.bytes), (ascii "chunks", 1)], advance := true,
        result := some (.report (report b.expected live env.servingReady)) }))

def clearStep (env : Env) (d : Root) (b : Body) : Root × Ends :=
  match b.place with
  | .preflight =>
    match currentDisposition env d b.expected .preflight with
    | .error o => (d, .ends o)
    | .ok _ => (d, .ends advance)
  | .waitingForQuiesce =>
    match currentDisposition env d b.expected .waitingForQuiesce with
    | .error o => (d, .ends o)
    | .ok (alreadyClear, _) =>
      if alreadyClear ∨ env.daemon then (d, .ends advance)
      else
        (d, .ends (fails (ascii "daemon_unavailable") .waitingForQuiesce true
          (some (ascii "start the semantic memory daemon and retry"))))
  | .staging => stagingStart env d b
  | .stagingRemove old => removing env d b (.stagingEnsure old)
  | .stagingEnsure old =>
    match env.fault with
    | .failed error => (d, .ends (.failed error))
    | .raises => (d, .raises)
    | .ok => ({ d with clear := some d.staging }, .goes { b with place := .stagingMkdir old })
  | .stagingMkdir old =>
    match env.fault, d.staging with
    | .ok, none => (d.setStaging {}, .goes { b with place := .stagingCreate old })
    | _, _ => (d, .raises)
  | .stagingCreate old => stagingCreate env d b old
  | .stagingWrite identity => stagingWrite env d identity
  | .publishing => publishingStart env d b
  | .prepare staged => maintained env d b (.goes { b with place := .gate staged })
  | .gate staged => gate env d b staged
  | .replace staged => replaceStore env d b staged
  | .replaced staged => underLease env d b (ascii "replacement_failed") (.marker staged)
  | .marker staged => writeMarker env d b staged
  | .prime staged => underLease env d b (ascii "publish_prime_failed") (.reopen staged)
  | .reopen staged => maintained env d b (.ends (reopened env staged))
  | .unwind pending => unwind env d b pending
  | .reopening cancelRequested => reopening env d b cancelRequested
  | .compensate =>
    match env.fault with
    | .failed error => (d, .ends (.failed error))
    | .raises => (d, .raises)
    | .ok =>
      match d.removeStaging env.part with
      | (d', true) => (d', .ends advance)
      | (d', false) => (d', .goes b)
  | .cleanup =>
    match env.fault with
    | .failed error => (d, .ends (.failed error))
    | .raises => (d, .raises)
    | .ok => (d, .goes { b with place := .sweepDirs d.derivedDirs })
  | .sweepDirs todo =>
    sweeping env d b todo .sweepClear .sweepDirs fun name =>
      { d with derivedDirs := d.derivedDirs.erase name }
  | .sweepClear =>
    match env.fault with
    | .failed error => (d, .ends (.failed error))
    | .raises => (d, .raises)
    | .ok =>
      match d.removeStaging env.part with
      | (d', true) => ({ d' with clear := none }, .goes { b with place := .sweepFiles d.derivedFiles })
      | (d', false) => (d', .goes b)
  | .sweepFiles todo =>
    sweeping env d b todo
      (if d.gap.belongsTo b.expected ∧ env.recorderLive = false then .sweepGap d.gapFiles
        else .outcome)
      .sweepFiles fun name => { d with derivedFiles := d.derivedFiles.erase name }
  | .sweepGap todo =>
    sweeping env d b todo .outcome .sweepGap fun name =>
      { d with gapFiles := d.gapFiles.erase name, gap := .none }
  | .outcome => cleanupOutcome env d b
  | .unknownPhase => (d, .raises)

/-! ## The weather -/

/-- What else happens to the root. -/
inductive Weather where
  | append (hlcPhysicalMs hlcLogical : ℤ)
  /-- A recorder creates the missing store. -/
  | create (identity : Identity) (empty : Bool)
  | derived (dirs files gapFiles : List Text) (gap : Gap)
  /-- Another clear removes what is under `.clear`. -/
  | sweep (part : Part)

def weather : Weather → Root → Root
  | .append physicalMs logical, d =>
    { d with
      live := d.live.map fun store =>
        ⟨{ store.identity with hlcPhysicalMs := physicalMs, hlcLogical := logical }, false⟩ }
  | .create identity empty, d =>
    if d.live = none ∧ identity.storeEpoch ∉ d.drawn then
      { d with live := some ⟨identity, empty⟩, drawn := identity.storeEpoch :: d.drawn }
    else d
  | .derived dirs files gapFiles gap, d =>
    { d with derivedDirs := dirs, derivedFiles := files, gapFiles := gapFiles, gap := gap }
  | .sweep part, d =>
    match d.removeStaging part with
    | (d', true) => { d' with clear := none }
    | (d', false) => d'

/-! ## The type of operations -/

/-- The phases of a clear. -/
def machine : Machine where
  phases := [.preflight, .waitingForQuiesce, .staging, .publishing, .reopening, .cleanup]
  irreversiblePhase := .publishing
  cancelPhase := some .reopening

def enter (phase : Phase) (record : Record Parameters Result) : Body where
  expected := record.parameters.expectStoreEpoch
  place :=
    match phase with
    | .preflight => .preflight
    | .waitingForQuiesce => .waitingForQuiesce
    | .staging => .staging
    | .publishing => .publishing
    | .reopening => .reopening record.cancelRequested
    | .cleanup => .cleanup
    | .catchingUp => .unknownPhase

/-- `ClearSpec.build`. -/
def program (fingerprint : Text → Parameters → Text) :
    Program Parameters Result Root Env Weather Body where
  fingerprint := fingerprint
  completed := .completed
  enter := enter
  step := clearStep
  weather := weather

end Clear
end Operations
end SemanticMemory
