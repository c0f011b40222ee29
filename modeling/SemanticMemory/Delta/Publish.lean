import SemanticMemory.Delta.Machine

/-!
# Publication

The blue-green switch of the served generation (`daemon/publish.py`, `publish_switch` of
`daemon/delta.py`).  A generation is staged with the desired provider, the publisher writes it a
checkpoint up to the current clock and commits it to disk, and the delta machine's worker reopens
both and swaps them in.

* The publisher hands a committed publication to the worker again until the switch is through, so
  every committed publication may be switched to whenever the worker is idle.
* The active manifest and the rollback pointer, which matter to the next process, are left out.
-/

namespace SemanticMemory
namespace Delta

open FactStore

/-- A ready staging: a generation and the provider that embedded it. -/
structure Staged where
  generation : Generation
  provider : Provider

/-- A committed publication, as the publisher hands it to the worker. -/
structure Publication where
  generationId : Text
  provider : Provider
  storeEpoch : Text
  deriving DecidableEq

/-- What the outside world decides while a generation is staged. -/
structure StageEnv where
  provider : Provider
  retrievalBackend : RetrievalBackend := .oracle
  generation : GenerationEnv := {}

/-- The staging build, whose container stays outside `generations/`. -/
def stageGeneration (env : StageEnv) (w : World) : Option Staged :=
  match (buildGeneration env.generation env.provider w).2 with
  | .ok generation =>
    some ⟨{ generation with retrievalBackend := env.retrievalBackend }, env.provider⟩
  | .error _ => none

/-- What the outside world decides in a publish transaction. -/
structure CommitEnv where
  batch : BatchEnv := {}
  /-- The renames and the manifest write go through. -/
  renameOk : Bool := true

/-- `_build_staging_delta`: a new checkpoint from the staging's watermark to the clock. -/
def buildStagingDelta (env : BatchEnv) (staged : Staged) (w : World) : Option CheckpointFile :=
  match readFactsIdentity w.db with
  | none => none
  | some (factsEpoch, upper) =>
    if staged.generation.storeEpoch ≠ factsEpoch then none
    else
      match if env.readOk then readFactChanges w.db staged.generation.sourceHlc upper else none with
      | none => none
      | some (events, retractions) =>
        if blocksBatch env events retractions then none
        else
          (writeBatch staged.generation staged.provider.representationId factsEpoch upper (-1)
            (mergedChanges events retractions) {}).map Prod.fst

/-- `_publish_locked`, up to the commit; the publication when it is durable. -/
def commitPublication (env : CommitEnv) (staged : Staged) (w : World) :
    World × Option Publication :=
  match buildStagingDelta env.batch staged w with
  | none => (w, none)
  | some f =>
    let id := staged.generation.generationId
    let w := { w with checkpoints := Function.update w.checkpoints id f }
    if env.renameOk = true ∧ ¬ w.generations.any fun g => g.generationId = id then
      ({ w with generations := w.generations ++ [staged.generation] },
        some ⟨id, staged.provider, staged.generation.storeEpoch⟩)
    else (w, none)

/-- What the outside world decides in a switch. -/
structure SwitchEnv where
  generation : GenerationEnv := {}
  checkpointReadable : Bool := true

/-- The switch, once everything is verified. -/
def Machine.switchTo (m : Machine) (publication : Publication) (generation : Generation)
    (baseCommits : List (Text × Text)) (loaded : Loaded) (snapshot : DeltaSnapshot) : Machine :=
  { m.setMirror loaded.changes loaded.vectors with
    generation := some generation
    provider := publication.provider
    baseCommits := baseCommits
    deltaPath := publication.generationId
    declaredGenerationId := publication.generationId
    blocked := false
    refused := false
    snapshot := some snapshot }

def performPublishSwitch (env : SwitchEnv) (publication : Publication) (w : World) : World :=
  let m := w.machine
  if m.closed ∨ m.stopped ∨ m.pc ≠ .idle then w
  else
    match readFactsIdentity w.db, openDeclared env.generation w publication.generationId with
    | some (factsEpoch, _), some generation =>
      if factsEpoch ≠ publication.storeEpoch then w
      else
        match openDeltaCheckpoint env.checkpointReadable (w.checkpoints publication.generationId)
            generation publication.provider.representationId w.db with
        | none => w
        | some loaded =>
          let baseCommits := readBaseCommitIds w.db generation.sourceHlc
          match buildSnapshot generation publication.provider baseCommits loaded.changes
              loaded.vectors with
          | none => w
          | some snapshot =>
            if verifySnapshot w.db snapshot then
              w.setMachine (m.switchTo publication generation baseCommits loaded snapshot)
            else w
    | _, _ => w

/-- `invalidate`, which the maintenance calls on an idle worker. -/
def invalidate (dropOk : Bool) (w : World) : World :=
  if w.machine.pc ≠ .idle then w
  else
    let w := w.dropCheckpoint dropOk
    w.setMachine
      { w.machine with
        snapshot := none, blocked := false, deltaEvents := [], deltaVectors := [], retractions := []
        deltaConsumed := none, deltaChangeSeq := -1 }

end Delta
end SemanticMemory
