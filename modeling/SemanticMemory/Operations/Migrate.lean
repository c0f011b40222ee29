import SemanticMemory.Facts.Store
import SemanticMemory.Operations.Clear

/-!
# The migrate operation

`MigrateSpec` of `daemon/migrate_operation.py`: the five steps of a migration over the semantic root,
with a crash between any two effects on the disk.

## What is modelled, and how

* The root is the live store and `.migrate/<operation_id>`, which nobody else touches.  A store is
  its identity, its two versions and its events and retractions.  `MigrateFile` and `DispositionFor`
  of `src/fact_migrator.cc` are over the table of steps; the projection of a row, which keeps its
  identity, is left out, and a file that does not migrate is an answer of the helper.
* The answers of the fact-store helper, of the control socket and of the file system come from
  outside, as for the clear operation.
* What is done under the lease up to the replacement is one piece: the lease excludes everybody else,
  and a crash inside it leaves what a crash before it leaves.
* Meanwhile recorders append to a current store or create the missing one, and other restores, clears
  and migrations replace the live store by a current one.  A store that needs a migration is not
  appended to.
* `origin` and `replacements` are histories: the live store that a file was copied from, and the live
  stores that the operation has replaced, each with the file that has replaced it.
-/

namespace SemanticMemory
namespace Operations
namespace Migrate

open Clear (Helper Maintenance Fault Pending validToken)

/-! ## Stores and their migration -/

structure Store where
  historyId : Text
  storeEpoch : Text
  factSchemaVersion : ℤ
  eventFormatVersion : ℤ
  /-- The events and retractions. -/
  facts : List Text
  deriving DecidableEq

/-- `g_steps`: the version that a step starts from, and whether it changes the interpretation. -/
structure Table where
  steps : List (ℤ × Bool) := []

inductive Disposition where
  | current | needsMigration | unsupported | missingStep | notCreated
  deriving DecidableEq

namespace Table

/-- `CurrentSchemaHead`. -/
def head (t : Table) : ℤ := (t.steps.map fun s => s.1 + 1).foldl max FactStore.kFactSchemaVersion

/-- The versions from one up to the head. -/
def chain (t : Table) (version : ℤ) : List ℤ :=
  (List.range (t.head - version).toNat).map fun n => version + n

/-- There is a step for each of them. -/
def covers (t : Table) (version : ℤ) : Bool :=
  (t.chain version).all fun v => (t.steps.lookup v).isSome

def dispositionFor (t : Table) (version : ℤ) : Disposition :=
  if version = t.head then .current
  else if t.head < version ∨ version < 0 then .unsupported
  else if t.covers version then .needsMigration
  else .missingStep

/-- The `disposition` of `RunSchema`. -/
def disposition (t : Table) (s : Store) : Disposition :=
  if FactStore.kEventFormatVersion < s.eventFormatVersion then .unsupported
  else t.dispositionFor s.factSchemaVersion

/-- The `status` of a migration. -/
inductive Status where
  | migrated | noMigration

/-- `MigrateFile`; the error is the status of a failure. -/
def migrateFile (t : Table) (fresh : Text) (s : Store) : Except Text (Store × Status) :=
  if s.factSchemaVersion < 0 then .error (ascii "db_error")
  else if s.factSchemaVersion = t.head then .ok (s, .noMigration)
  else if t.head < s.factSchemaVersion then .error (ascii "unsupported_version")
  else if t.covers s.factSchemaVersion = false then .error (ascii "missing_step")
  else
    let changes := (t.chain s.factSchemaVersion).any fun v => t.steps.lookup v = some true
    .ok ({ s with
      storeEpoch := if changes then fresh else s.storeEpoch
      factSchemaVersion := t.head
      eventFormatVersion := FactStore.kEventFormatVersion }, .migrated)

end Table

/-! ## The root -/

/-- A file copied from the live store. -/
structure Copy where
  store : Store
  origin : Store
  deriving DecidableEq

/-- `.migrate/<operation_id>`. -/
structure Staging where
  snapshot : Option Copy := none
  migrated : Option Copy := none
  manifest : Bool := false
  marker : Bool := false
  deriving DecidableEq

structure Root where
  live : Option Store
  staging : Option Staging := none
  replacements : List (Store × Copy) := []

/-- `migrated.sqlite3`. -/
def Root.staged (d : Root) : Option Copy := d.staging.bind Staging.migrated

/-- `published.marker`. -/
def Root.marked (d : Root) : Bool := d.staging.any Staging.marker

def Root.setStaging (d : Root) (s : Staging) : Root := { d with staging := some s }

/-- The staged file has another content. -/
def Root.setStaged (d : Root) (copy : Option Copy) : Root :=
  { d with staging := d.staging.map fun s => { s with migrated := copy } }

/-! ## The outside world -/

/-- A file of the staging directory. -/
inductive Part where
  | snapshot | migrated | manifest | marker

/-- The answers for one piece of a step. -/
structure Env where
  /-- `schema` and `snapshot` of the fact-store helper. -/
  helper : Helper := .ok
  /-- `migrate` of the fact-store helper. -/
  migrator : Helper := .ok
  /-- A `migrate` that is reported to have failed has committed. -/
  applied : Bool := false
  fault : Fault := .ok
  maintenance : Maintenance := .ok
  /-- The control socket is known and takes connections. -/
  daemon : Bool := true
  /-- The root can be opened for a removal. -/
  rootOk : Bool := true
  part : Part := .snapshot
  /-- The epoch that a migration draws. -/
  fresh : Text := []
  bytes : ℤ := 0

/-! ## Parameters and results -/

/-- A migration has no parameters. -/
structure Parameters where

structure Report where
  factSchemaVersion : ℤ
  eventFormatVersion : ℤ
  historyId : Text
  storeEpoch : Text

/-- The `result` of a record, of the `outcome` `migrated`; `completed` is the engine's. -/
inductive Result where
  | completed
  | migrated (report : Report)

/-! ## The places -/

/-- What follows a removal of the staging directory. -/
inductive Next where
  | rebuild
  | advance
  | blocked (error : StepError)
  | failed (error : StepError)
  deriving DecidableEq

inductive Place where
  | preflight
  | waitingForQuiesce
  | staging
  | reuse
  | remove (next : Next)
  | mkdir
  | snapshot
  | rename
  | migrate
  | manifest
  | publishing
  | prepare
  | exclusive
  | replaced
  | prime
  | marker
  | reopen
  | unwind (pending : Pending)
  | reopening (cancelRequested : Bool)
  | unknownPhase
  deriving DecidableEq

abbrev Ends := Progress Result Place

def advance : Outcome Result := .returned { advance := true }

def stepError (code : Text) (phase : Phase) (remediation : Option Text)
    (cause : Option (List (Text × CauseValue)) := none) (retryable : Bool := false) : StepError where
  code := code
  phase := phase
  retryable := retryable
  remediation := remediation
  cause := cause

/-! ## Reads -/

/-- `_live_disposition`, with the store that `schema` describes. -/
def liveDisposition (t : Table) (env : Env) (d : Root) (phase : Phase) :
    Except (Outcome Result) (Disposition × Option Store) :=
  match env.helper with
  | .failed error => .error (.failed error)
  | .broken status =>
    if status = ascii "no_store" then .ok (.notCreated, none)
    else if status = ascii "db_unsupported_version" then .ok (.unsupported, none)
    else
      .error (.blocked (stepError (ascii "fact_store_unverifiable") phase
        (some (ascii
          "the fact store failed closed validation; inspect and fix it before migrating"))
        (some [(ascii "fault_code", .text status)])))
  | .ok =>
    match d.live with
    | none => .ok (.notCreated, none)
    | some store => .ok (t.disposition store, some store)

/-- How a `migrate` of the helper ends. -/
inductive Answer where
  | done (status : Table.Status)
  | broken (status : Text)
  | failed (error : StepError)

/-- `migrate` of the helper on a file. -/
def migrateCopy (t : Table) (env : Env) (copy : Copy) : Copy × Answer :=
  let committed : Copy :=
    match t.migrateFile env.fresh copy.store with
    | .ok (store, _) => { copy with store := store }
    | .error _ => copy
  match env.migrator with
  | .ok =>
    match t.migrateFile env.fresh copy.store with
    | .ok (_, status) => (committed, .done status)
    | .error status => (copy, .broken status)
  | .broken status => (if env.applied then committed else copy, .broken status)
  | .failed error => (if env.applied then committed else copy, .failed error)

/-! ## Errors -/

/-- What a `MaintenanceError` of the publication becomes. -/
def publishError (code : Text) : Outcome Result :=
  if code = ascii "epoch_mismatch" then
    .blocked (stepError (ascii "store_epoch_mismatch") .publishing
      (some (ascii "the live store changed during the operation; re-run migrate")))
  else if code = ascii "staging_invalid" then
    .blocked (stepError (ascii "staging_invalid") .publishing
      (some (ascii
        "the staged migration artifact no longer validates; re-run migrate to rebuild it")))
  else if code = ascii "epoch_unverifiable" then
    .blocked (stepError (ascii "fact_store_unverifiable") .publishing
      (some (ascii "the fact store failed closed validation; inspect and fix it before migrating")))
  else if code = ascii "publish_prime_failed" then
    .failed (stepError (ascii "publish_failed") .publishing
      (some (ascii "retry; the published store re-primes on the next attempt"))
      (some [(ascii "fault_code", .text code)]) true)
  else if code = ascii "quiesce_timeout" then
    .failed (stepError (ascii "quiesce_timeout") .publishing
      (some (ascii "retry when the daemon and recorders are less busy")) none true)
  else if code = ascii "maintenance_in_progress" then
    .failed (stepError (ascii "maintenance_in_progress") .publishing
      (some (ascii "retry after the concurrent maintenance operation finishes")) none true)
  else
    .failed (stepError (ascii "publish_failed") .publishing none
      (some [(ascii "fault_code", .text code)]) true)

/-- What an answer of the control socket that is not `ok` becomes. -/
def recoveryError (code : Text) : Outcome Result :=
  if code = ascii "maintenance_in_progress" then
    .failed (stepError (ascii "maintenance_in_progress") .publishing none none true)
  else
    .failed (stepError (ascii "publish_failed") .publishing none
      (some [(ascii "fault_code", .text code)]) true)

def daemonUnavailable : StepError :=
  stepError (ascii "daemon_unavailable") .waitingForQuiesce
    (some (ascii "start the semantic memory daemon and retry")) none true

def snapshotFailed (status : Text) : StepError :=
  stepError (ascii "safety_snapshot_failed") .staging
    (some (ascii ("the safety snapshot could not be created and verified; the live store is " ++
      "unchanged. Fix the cause and retry migrate")))
    (some [(ascii "fault_code", .text status)])

/-- What a migration that fails closed becomes. -/
def migrationBlocked (status : Text) : StepError :=
  stepError (ascii "migration_blocked") .staging
    (some (ascii ("the migration of the safety snapshot failed closed; the live store is " ++
      "unchanged. Fix the cause (e.g. an event that cannot be projected) and retry migrate")))
    (some [(ascii "fault_code", .text status)])

/-! ## Preflight and waiting -/

/-- `_step_preflight`. -/
def preflight (t : Table) (env : Env) (d : Root) : Outcome Result :=
  match liveDisposition t env d .preflight with
  | .error o => o
  | .ok (disposition, schema) =>
    let version : Option (List (Text × CauseValue)) :=
      some [(ascii "schema_version",
        (schema.map fun s => CauseValue.number s.factSchemaVersion).getD .null)]
    match disposition with
    | .unsupported =>
      .blocked (stepError (ascii "schema_unsupported") .preflight
        (some (ascii ("this build cannot migrate the store: the schema is newer than the program " ++
          "supports (recording stays stopped)"))) version)
    | .missingStep =>
      .blocked (stepError (ascii "schema_missing_step") .preflight
        (some (ascii ("no migration step covers the store's schema version; upgrade the build to a " ++
          "version that can migrate it (recording stays stopped)"))) version)
    | .notCreated =>
      .blocked (stepError (ascii "store_missing") .preflight
        (some (ascii ("no facts database exists; there is nothing to migrate (create one with " ++
          "normal use or a clear operation)"))))
    | .current | .needsMigration => advance

/-- `_step_waiting_for_quiesce`. -/
def waitingForQuiesce (t : Table) (env : Env) (d : Root) : Outcome Result :=
  match liveDisposition t env d .waitingForQuiesce with
  | .error o => o
  | .ok (disposition, _) =>
    if disposition = .current ∨ env.daemon then advance else .failed daemonUnavailable

/-! ## Staging -/

/-- One file of the staging directory is removed. -/
def Staging.erase (s : Staging) : Part → Staging
  | .snapshot => { s with snapshot := none }
  | .migrated => { s with migrated := none }
  | .manifest => { s with manifest := false }
  | .marker => { s with marker := false }

/-- What follows a removal. -/
def Next.ends : Next → Ends
  | .rebuild => .goes .mkdir
  | .advance => .ends Migrate.advance
  | .blocked error => .ends (.blocked error)
  | .failed error => .ends (.failed error)

/-- `_remove_staging`, file by file; a root that cannot be opened is left alone. -/
def removeStaging (env : Env) (d : Root) (next : Next) : Root × Ends :=
  if env.rootOk = false then (d, next.ends)
  else
    match env.fault with
    | .failed error => (d, .ends (.failed error))
    | .raises => (d, .raises)
    | .ok =>
      match d.staging with
      | none => (d, next.ends)
      | some s =>
        if s = {} then ({ d with staging := none }, next.ends)
        else (d.setStaging (s.erase env.part), .goes (.remove next))

/-- `_step_staging`, up to its first effect. -/
def stagingStart (t : Table) (env : Env) (d : Root) : Ends :=
  match liveDisposition t env d .staging with
  | .error o => .ends o
  | .ok (disposition, _) =>
    if disposition = .current then .ends advance
    else
      match d.staging with
      | none => .goes .mkdir
      | some s => if s.migrated.isSome then .goes .reuse else .goes (.remove .rebuild)

/-- What a previous attempt has left is used if it is at the head already. -/
def stagingReuse (t : Table) (env : Env) (d : Root) : Root × Ends :=
  match d.staged with
  | none => (d, .goes (.remove .rebuild))
  | some copy =>
    match migrateCopy t env copy with
    | (copy', .done .noMigration) => (d.setStaged (some copy'), .ends advance)
    | (copy', _) => (d.setStaged (some copy'), .goes (.remove .rebuild))

def stagingSnapshot (env : Env) (d : Root) : Root × Ends :=
  match env.helper, d.live, d.staging with
  | .ok, some store, some s =>
    (d.setStaging { s with snapshot := some ⟨store, store⟩ }, .goes .rename)
  | .ok, _, _ => (d, .goes (.remove (.blocked (snapshotFailed (ascii "no_store")))))
  | .broken status, _, _ => (d, .goes (.remove (.blocked (snapshotFailed status))))
  | .failed error, _, _ => (d, .goes (.remove (.failed error)))

def stagingMigrate (t : Table) (env : Env) (d : Root) : Root × Ends :=
  match d.staged with
  | none => (d, .goes (.remove (.blocked (migrationBlocked (ascii "no_store")))))
  | some copy =>
    match migrateCopy t env copy with
    | (copy', .done _) => (d.setStaged (some copy'), .goes .manifest)
    | (copy', .broken status) =>
      (d.setStaged (some copy'), .goes (.remove (.blocked (migrationBlocked status))))
    | (copy', .failed error) => (d.setStaged (some copy'), .goes (.remove (.failed error)))

/-! ## Publishing -/

/-- `_step_publishing`, up to `run_maintenance`. -/
def publishingStart (t : Table) (env : Env) (d : Root) : Ends :=
  match liveDisposition t env d .publishing with
  | .error o => .ends o
  | .ok (disposition, _) =>
    if disposition = .current then .ends advance
    else if d.staged.isSome then .goes .prepare
    else
      .ends (.blocked (stepError (ascii "staging_artifact_missing") .publishing
        (some (ascii "the staged migration artifact was lost; re-run migrate to rebuild it"))))

/-- The end of `run_maintenance` where nothing is under way. -/
def maintained (env : Env) (ok : Ends) : Ends :=
  match env.maintenance with
  | .ok => ok
  | .error code => .ends (publishError code)
  | .refused code => .ends (recoveryError code)
  | .raises => .raises

/-- The staged file is migrated again, compared with the live store, and published. -/
def publishStaged (t : Table) (env : Env) (d : Root) (live : Store) : Root × Ends :=
  let unwinds (d : Root) (code : String) : Root × Ends :=
    (d, .goes (.unwind (.maintenance (ascii code))))
  match d.staged with
  | none => unwinds d "staging_invalid"
  | some copy =>
    match migrateCopy t env copy with
    | (copy', .done _) =>
      if copy'.store.historyId ≠ live.historyId then unwinds (d.setStaged (some copy')) "epoch_mismatch"
      else
        match env.fault with
        | .ok =>
          ({ d.setStaged none with
              live := some copy'.store, replacements := d.replacements ++ [(live, copy')] },
            .goes .replaced)
        | _ => unwinds (d.setStaged (some copy')) "replacement_failed"
    | (copy', _) => unwinds (d.setStaged (some copy')) "staging_invalid"

/-- `replacement`, up to the replacement. -/
def exclusive (t : Table) (env : Env) (d : Root) : Root × Ends :=
  let unwinds (code : Text) : Root × Ends := (d, .goes (.unwind (.maintenance code)))
  match env.maintenance, d.live with
  | .error code, _ | .refused code, _ => unwinds code
  | .raises, _ => (d, .raises)
  | .ok, none => unwinds (ascii "db_unavailable")
  | .ok, some live =>
    match liveDisposition t env d .publishing with
    | .error (.failed error) => (d, .goes (.unwind (.failed error)))
    | .error _ => unwinds (ascii "epoch_unverifiable")
    | .ok (.current, _) => if d.marked then (d, .goes .prime) else unwinds (ascii "epoch_mismatch")
    | .ok (.needsMigration, _) => publishStaged t env d live
    | .ok _ => unwinds (ascii "epoch_mismatch")

/-- A piece under the lease that changes nothing and may fail. -/
def underLease (env : Env) (code : Text) (next : Place) : Ends :=
  match env.fault with
  | .ok => .goes next
  | _ => .goes (.unwind (.maintenance code))

/-- `published.marker` is written. -/
def writeMarker (env : Env) (d : Root) : Root × Ends :=
  match env.fault, d.staging with
  | .ok, some s => (d.setStaging { s with marker := true }, .goes .reopen)
  | _, _ => (d, .goes (.unwind (.failed Clear.writeFailed)))

/-- The reopening under an exception. -/
def unwind (env : Env) (pending : Pending) : Ends :=
  match env.maintenance with
  | .error code => .ends (publishError code)
  | .raises => .raises
  | _ =>
    match pending with
    | .maintenance code => .ends (publishError code)
    | .failed error => .ends (.failed error)

/-! ## Reopening -/

def Disposition.name : Disposition → Text
  | .current => ascii "current"
  | .needsMigration => ascii "needs_migration"
  | .unsupported => ascii "unsupported"
  | .missingStep => ascii "missing_step"
  | .notCreated => ascii "not_created"

/-- `_step_reopening`. -/
def reopening (t : Table) (env : Env) (d : Root) (cancelRequested : Bool) : Ends :=
  if cancelRequested then .goes (.remove .advance)
  else
    match liveDisposition t env d .reopening with
    | .error o => .ends o
    | .ok (.current, some schema) =>
      .ends (.returned
        { advance := true
          result := some (.migrated
            ⟨schema.factSchemaVersion, schema.eventFormatVersion, schema.historyId,
              schema.storeEpoch⟩) })
    | .ok (disposition, _) =>
      .ends (.blocked (stepError (ascii "migrate_incomplete") .reopening
        (some (ascii "the store did not reach the current schema; re-run migrate"))
        (some [(ascii "disposition", .text disposition.name)])))

/-! ## The program -/

def migrateStep (t : Table) (env : Env) (d : Root) : Place → Root × Ends
  | .preflight => (d, .ends (preflight t env d))
  | .waitingForQuiesce => (d, .ends (waitingForQuiesce t env d))
  | .staging => (d, stagingStart t env d)
  | .reuse => stagingReuse t env d
  | .remove next => removeStaging env d next
  | .mkdir =>
    match env.fault, d.staging with
    | .ok, none => (d.setStaging {}, .goes .snapshot)
    | _, _ => (d, .raises)
  | .snapshot => stagingSnapshot env d
  | .rename =>
    match env.fault, d.staging with
    | .ok, some s =>
      match s.snapshot with
      | some copy => (d.setStaging { s with snapshot := none, migrated := some copy }, .goes .migrate)
      | none => (d, .raises)
    | _, _ => (d, .raises)
  | .migrate => stagingMigrate t env d
  | .manifest =>
    match env.fault, d.staging with
    | .ok, some s =>
      (d.setStaging { s with manifest := true },
        .ends (.returned
          { progress := some [(ascii "bytes", env.bytes), (ascii "chunks", 1)], advance := true }))
    | _, _ => (d, .ends (.failed Clear.writeFailed))
  | .publishing => (d, publishingStart t env d)
  | .prepare => (d, maintained env (.goes .exclusive))
  | .exclusive => exclusive t env d
  | .replaced => (d, underLease env (ascii "replacement_failed") .prime)
  | .prime => (d, underLease env (ascii "publish_prime_failed") .marker)
  | .marker => writeMarker env d
  | .reopen => (d, maintained env (.ends advance))
  | .unwind pending => (d, unwind env pending)
  | .reopening cancelRequested => (d, reopening t env d cancelRequested)
  | .unknownPhase => (d, .raises)

/-! ## The weather -/

/-- What else happens to the live store. -/
inductive Weather where
  | append (fact : Text)
  | create (store : Store)
  /-- Another operation publishes. -/
  | replace (store : Store)

def weather (t : Table) : Weather → Root → Root
  | .append fact, d =>
    { d with
      live := d.live.map fun s =>
        if t.disposition s = .current then { s with facts := s.facts ++ [fact] } else s }
  | .create store, d =>
    if d.live = none ∧ t.disposition store = .current then { d with live := some store } else d
  | .replace store, d =>
    if t.disposition store = .current then { d with live := some store } else d

/-- The phases of a migration. -/
def machine : Machine where
  phases := [.preflight, .waitingForQuiesce, .staging, .publishing, .reopening]
  irreversiblePhase := .publishing
  cancelPhase := some .reopening

def enter (phase : Phase) (record : Record Parameters Result) : Place :=
  match phase with
  | .preflight => .preflight
  | .waitingForQuiesce => .waitingForQuiesce
  | .staging => .staging
  | .publishing => .publishing
  | .reopening => .reopening record.cancelRequested
  | _ => .unknownPhase

/-- `MigrateSpec.build`. -/
def program (t : Table) (fingerprint : Text → Parameters → Text) :
    Program Parameters Result Root Env Weather Place where
  fingerprint := fingerprint
  completed := .completed
  enter := enter
  step := migrateStep t
  weather := weather t

end Migrate
end Operations
end SemanticMemory
