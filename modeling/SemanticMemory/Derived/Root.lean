import SemanticMemory.Basic
import SemanticMemory.Lib.KeyedMap

/-!
# The derived root

The directory under which the daemon keeps what it derives from the facts: the generations it has
published, the stagings it builds, their delta checkpoints, and the two pointers `active_manifest`
and `rollback_manifest` (`daemon/publish.py`, `daemon/retention.py`, `daemon/generation.py`).

## What is modelled, and how

* A namespace (`generations/`, `staging/`, `delta/`) is a map from names to directories.  Renaming a
  directory takes it out under one name and puts it in under another, and fails on a name in use.
* A generation's files are told apart from a damaged or an unfinished set by `intact`; the progress
  record is a file of the same directory, so a directory that still holds one is no container.
* A pointer file is absent, or its content is refused, or it is a manifest.  Progress records that
  the verification parks outside their directory are kept apart, in `parked`, and no directory of
  `staging/` is taken to have a name in `.tmp`.
* `Sweep` is a place in `retention_sweep`: the entries a loop has listed and not yet looked at.
-/

namespace SemanticMemory
namespace Derived

/-! ## Generations and their identity -/

/-- The identity that a generation's own manifest binds. -/
structure Identity where
  storeEpoch : Text
  sourceHlc : Hlc
  representationId : Text
  vectorDimension : ℕ
  vectorFormat : Text
  projectionVersion : Text
  indexFingerprint : Text
  builderVersion : Text
  deriving DecidableEq

/-- The states of a staging record. -/
inductive Status where
  | running | blocked | ready | discarded
  deriving DecidableEq

/-- A staging's progress record. -/
structure Progress where
  /-- The record is readable and its version is the staging machine's. -/
  versionOk : Bool := true
  generationId : Text
  status : Status
  /-- The build's own keys (rows, fingerprint, chunks) are there. -/
  complete : Bool := true
  identity : Identity
  reason : Text := []
  blockedEvents : List Text := []
  phase : Text := []

/-- A directory of `generations/` or `staging/`. -/
structure Dir where
  /-- What the container's manifest says it is. -/
  generationId : Text
  identity : Identity
  /-- The three immutable files are there and pass their checks. -/
  intact : Bool
  progress : Option Progress := none

/-- An opened generation; its id is not empty. -/
structure Generation where
  generationId : Text
  identity : Identity
  named : generationId ≠ []
  deriving DecidableEq

/-- `open_generation` of a directory under its name. -/
def Dir.open (name : Text) (d : Dir) : Option Generation :=
  if h : d.progress = none ∧ d.intact = true ∧ d.generationId = name ∧ d.generationId ≠ [] then
    some ⟨d.generationId, d.identity, h.2.2.2⟩
  else none

def openGeneration (dirs : KeyedMap Text Dir) (name : Text) : Option Generation :=
  (dirs.find? name).bind (Dir.open name)

variable {dirs : KeyedMap Text Dir} {name : Text}

theorem generationId_of_open {g : Generation} (h : openGeneration dirs name = some g) :
    g.generationId = name := by
  obtain ⟨d, -, hd⟩ := Option.bind_eq_some_iff.mp h
  unfold Dir.open at hd
  split at hd
  · rename_i hopen
    cases hd
    exact hopen.2.2.1
  · cases hd

/-- `open_generation` looks at its own directory only. -/
theorem openGeneration_congr {dirs dirs' : KeyedMap Text Dir}
    (h : dirs'.find? name = dirs.find? name) :
    openGeneration dirs' name = openGeneration dirs name := by
  rw [openGeneration, h, openGeneration]

theorem find?_ne_none_of_open (h : openGeneration dirs name ≠ none) :
    dirs.find? name ≠ none := fun hnone =>
  h (by rw [openGeneration, hnone, Option.bind_none])

/-! ## Manifests -/

/-- The content of an active or rollback manifest that passes its validation. -/
structure Manifest where
  generationId : Text
  identity : Identity
  factSchemaVersion : Text
  /-- The generation under whose name `delta/` has the checkpoint. -/
  deltaCheckpoint : Text
  /-- `published_at_ms` or `registered_at_ms`. -/
  writtenAtMs : ℕ
  named : generationId ≠ []
  deriving DecidableEq

/-- `_compose_active_manifest` and `compose_rollback_manifest`. -/
def composeManifest (generation : Generation) (deltaCheckpoint factSchemaVersion : Text)
    (nowMs : ℕ) : Manifest :=
  ⟨generation.generationId, generation.identity, factSchemaVersion, deltaCheckpoint, nowMs,
    generation.named⟩

inductive Pointer where
  | absent
  | broken (reason : Text)
  | valid (manifest : Manifest)
  deriving DecidableEq

def Pointer.generationId : Pointer → Option Text
  | .valid manifest => some manifest.generationId
  | _ => none

def fp32RowMajorLe : Text := ascii "fp32-row-major-little-endian"

/-- `INDEX_FINGERPRINT_PREFIX`, with the colon that follows it. -/
def indexFingerprintPrefix : Text := ascii "index-fingerprint-v1:"

/-- `compat.refuse_load_reason` of an active manifest's identity. -/
def refuseLoadReason (factsSchemaVersion : Option Text) (manifest : Manifest) : Option Text :=
  let identity := manifest.identity
  if identity.storeEpoch = [] ∨ manifest.factSchemaVersion = [] ∨ identity.representationId = [] ∨
      identity.vectorFormat = [] ∨ identity.projectionVersion = [] ∨
      identity.indexFingerprint = [] then
    some (ascii "missing_compat_declaration")
  else if ∃ version ∈ factsSchemaVersion, manifest.factSchemaVersion ≠ version then
    some (ascii "fact_schema_changed")
  else if identity.vectorFormat ≠ fp32RowMajorLe then some (ascii "unsupported_vector_format")
  else if ¬ indexFingerprintPrefix <+: identity.indexFingerprint then
    some (ascii "unknown_identity")
  else none

/-! ## The root -/

structure Root where
  active : Pointer := .absent
  rollback : Pointer := .absent
  generations : KeyedMap Text Dir := .empty
  staging : KeyedMap Text Dir := .empty
  /-- `staging/.verify-<id>.tmp`. -/
  parked : KeyedMap Text Progress := .empty
  /-- The directories of `delta/`, with the clock point their checkpoint has consumed if it is
  there. -/
  delta : KeyedMap Text (Option Hlc) := .empty
  /-- `isolated/`: the moment, the generation's name and its directory. -/
  isolated : List (ℕ × Text × Dir) := []

/-- `os.makedirs` of a checkpoint directory. -/
def Root.makeDelta (root : Root) (id : Text) : Root :=
  match root.delta.find? id with
  | some _ => root
  | none => { root with delta := root.delta.insert id none }

def isolateGeneration (renameOk : Bool) (nowMs : ℕ) (id : Text) (root : Root) : Root :=
  match root.generations.find? id with
  | none => root
  | some d =>
    if renameOk then
      { root with
        generations := root.generations.erase id
        isolated := root.isolated ++ [(nowMs, id, d)] }
    else root

/-! ## Progress records -/

/-- `_staging_progress`: a record as retention reads it. -/
def stagingProgress (name : Text) (d : Dir) : Option Progress :=
  d.progress.filter fun p => p.versionOk && p.generationId = name

/-- `_load_progress`: a record as the staging machine reads it. -/
def loadProgress (dirs : KeyedMap Text Dir) (name : Text) : Option Progress :=
  (dirs.find? name).bind fun d => (stagingProgress name d).filter fun p => p.complete

/-- A loaded record is the one in its directory. -/
theorem loadProgress_eq_some {r : Progress} (h : loadProgress dirs name = some r) :
    ∃ d, dirs.find? name = some d ∧ d.progress = some r := by
  obtain ⟨d, hd, hr⟩ := Option.bind_eq_some_iff.mp h
  obtain ⟨hr, -⟩ := Option.filter_eq_some_iff.mp hr
  obtain ⟨hr, -⟩ := Option.filter_eq_some_iff.mp hr
  exact ⟨d, hd, hr⟩

def writeProgress (dirs : KeyedMap Text Dir) (name : Text) (p : Progress) : KeyedMap Text Dir :=
  match dirs.find? name with
  | none => dirs
  | some d => dirs.insert name { d with progress := some p }

def liveStagingGenerationIds (root : Root) : List Text :=
  root.staging.entries.filterMap fun (name, d) =>
    match stagingProgress name d with
    | some p => if p.status = .discarded then none else some p.generationId
    | none => none

/-- A staging with a record that is running, blocked or ready is live. -/
theorem mem_liveStaging {root : Root} {d : Dir} {p : Progress}
    (hd : root.staging.find? name = some d) (hp : stagingProgress name d = some p)
    (hstatus : p.status ≠ .discarded) : name ∈ liveStagingGenerationIds root := by
  refine List.mem_filterMap.mpr ⟨(name, d), KeyedMap.find?_eq_some_iff.mp hd, ?_⟩
  have hname : p.generationId = name := by
    obtain ⟨-, h⟩ := Option.filter_eq_some_iff.mp hp
    simp only [Bool.and_eq_true, decide_eq_true_eq] at h
    exact h.2
  simp only [hp]
  rw [if_neg hstatus, hname]

/-! ## The retention sweep -/

/-- What a sweep keeps: `active_id`, `rollback_id` and `live_staging_ids`. -/
structure Keep where
  active : Option Text
  rollback : Option Text
  live : List Text
  deriving DecidableEq

/-- The set `keep` of `retention_sweep`. -/
def Keep.generations (keep : Keep) : List Text :=
  (keep.active.toList ++ keep.rollback.toList).filter (· ≠ [])

/-- What `sweep_from_manifests` reads. -/
def readKeep (activeId : Option Text) (root : Root) : Keep where
  active := activeId.or root.active.generationId
  rollback := root.rollback.generationId
  live := liveStagingGenerationIds root

/-- A place in `retention_sweep`. -/
inductive Sweep where
  | begin
  | generations (entries : List Text)
  | delta (entries : List Text)
  | staging (entries : List Text)
  deriving DecidableEq

/-- What `shutil.rmtree` comes to. -/
inductive Removal where
  | removed | damaged | untouched

/-- `shutil.rmtree` of a container's directory. -/
def removeTree (removal : Removal) (dirs : KeyedMap Text Dir) (name : Text) : KeyedMap Text Dir :=
  match removal, dirs.find? name with
  | .removed, _ => dirs.erase name
  | .damaged, some d => dirs.insert name { d with intact := false }
  | _, _ => dirs

/-- `shutil.rmtree` of a checkpoint's directory. -/
def removeDelta (removal : Removal) (dirs : KeyedMap Text (Option Hlc)) (name : Text) :
    KeyedMap Text (Option Hlc) :=
  match removal, dirs.find? name with
  | .removed, _ => dirs.erase name
  | .damaged, some _ => dirs.insert name none
  | _, _ => dirs

def stagingDiscarded (root : Root) (name : Text) : Bool :=
  ((root.staging.find? name).bind (stagingProgress name)).any fun p => p.status = .discarded

/-- One round of a loop of `retention_sweep`, or the next listing. -/
def sweepStep (removal : Removal) (keep : Keep) (root : Root) : Sweep → Root × Option Sweep
  | .begin => (root, some (.generations root.generations.keys))
  | .generations [] => (root, some (.delta root.delta.keys))
  | .generations (entry :: rest) =>
    if entry ∈ keep.generations then (root, some (.generations rest))
    else
      ({ root with generations := removeTree removal root.generations entry },
        some (.generations rest))
  | .delta [] => (root, some (.staging root.staging.keys))
  | .delta (entry :: rest) =>
    if entry ∈ keep.generations ∨ entry ∈ keep.live then (root, some (.delta rest))
    else ({ root with delta := removeDelta removal root.delta entry }, some (.delta rest))
  | .staging [] => (root, none)
  | .staging (entry :: rest) =>
    if entry ∉ keep.live ∧ stagingDiscarded root entry = true then
      ({ root with staging := removeTree removal root.staging entry }, some (.staging rest))
    else (root, some (.staging rest))

/-! ### What a sweep touches -/

section SweepStep

variable (removal : Removal) (keep : Keep) (root : Root) (sweep : Sweep)

theorem sweepStep_pointers :
    (sweepStep removal keep root sweep).1.active = root.active ∧
      (sweepStep removal keep root sweep).1.rollback = root.rollback := by
  unfold sweepStep
  split <;> try split
  all_goals exact ⟨rfl, rfl⟩

theorem find?_removeTree_of_ne {name id : Text} (h : id ≠ name) :
    (removeTree removal dirs name).find? id = dirs.find? id := by
  unfold removeTree
  split
  · rw [KeyedMap.find?_erase, if_neg h]
  · rw [KeyedMap.find?_insert, if_neg h]
  · rfl

theorem find?_removeDelta_of_ne {dirs : KeyedMap Text (Option Hlc)} {name id : Text}
    (h : id ≠ name) : (removeDelta removal dirs name).find? id = dirs.find? id := by
  unfold removeDelta
  split
  · rw [KeyedMap.find?_erase, if_neg h]
  · rw [KeyedMap.find?_insert, if_neg h]
  · rfl

/-- The only generation a step touches is a listed one that is not kept. -/
theorem sweepStep_generations (id : Text) :
    (sweepStep removal keep root sweep).1.generations.find? id = root.generations.find? id ∨
      (∃ rest, sweep = .generations (id :: rest)) ∧ id ∉ keep.generations := by
  unfold sweepStep
  split
  case h_3 entry rest =>
    split
    · exact Or.inl rfl
    · next hkeep =>
      by_cases hid : id = entry
      · subst hid
        exact Or.inr ⟨⟨rest, rfl⟩, hkeep⟩
      · exact Or.inl (find?_removeTree_of_ne removal hid)
  all_goals first | exact Or.inl rfl | (split <;> exact Or.inl rfl)

/-- The only checkpoint a step touches is a listed one that is neither kept nor of a live
staging. -/
theorem sweepStep_delta (id : Text) :
    (sweepStep removal keep root sweep).1.delta.find? id = root.delta.find? id ∨
      (∃ rest, sweep = .delta (id :: rest)) ∧ id ∉ keep.generations ∧ id ∉ keep.live := by
  unfold sweepStep
  split
  case h_5 entry rest =>
    split
    · exact Or.inl rfl
    · next hkeep =>
      by_cases hid : id = entry
      · subst hid
        exact Or.inr ⟨⟨rest, rfl⟩, not_or.mp hkeep⟩
      · exact Or.inl (find?_removeDelta_of_ne removal hid)
  all_goals first | exact Or.inl rfl | (split <;> exact Or.inl rfl)

/-- The only staging a step touches is a listed one that is discarded and not live. -/
theorem sweepStep_staging (id : Text) :
    (sweepStep removal keep root sweep).1.staging.find? id = root.staging.find? id ∨
      id ∉ keep.live ∧ stagingDiscarded root id = true := by
  unfold sweepStep
  split
  case h_7 entry rest =>
    split
    · next hkeep =>
      by_cases hid : id = entry
      · subst hid
        exact Or.inr hkeep
      · exact Or.inl (find?_removeTree_of_ne removal hid)
    · exact Or.inl rfl
  all_goals first | exact Or.inl rfl | (split <;> exact Or.inl rfl)

end SweepStep

/-- The names that a sweep keeps under `generations/`. -/
theorem mem_keep_generations {keep : Keep} {id : Text} (hid : id ≠ []) :
    id ∈ keep.generations ↔ keep.active = some id ∨ keep.rollback = some id := by
  unfold Keep.generations
  rw [List.mem_filter, List.mem_append, Option.mem_toList, Option.mem_toList]
  simp [hid]

/-- A manifest names a generation by a name that is not empty. -/
theorem Pointer.ne_nil {pointer : Pointer} {id : Text} (h : pointer.generationId = some id) :
    id ≠ [] := by
  cases pointer with
  | valid manifest =>
    cases h
    exact manifest.named
  | _ => cases h

/-! ## A root -/

/-- An identity to try things on. -/
def sampleIdentity : Identity :=
  ⟨ascii "epoch", hlc 1 0, ascii "model", 2, fp32RowMajorLe, ascii "p1",
    indexFingerprintPrefix ++ ascii "x", ascii "b1"⟩

/-- A complete container. -/
def sampleDir (id : Text) : Dir := ⟨id, sampleIdentity, true, none⟩

def sampleManifest (id : Text) (named : id ≠ []) : Manifest :=
  ⟨id, sampleIdentity, ascii "1", id, 0, named⟩

/-- `a` is active, `r` is its rollback and `n` is ready to be published. -/
def sampleRoot : Root where
  active := .valid (sampleManifest (ascii "a") (by decide))
  rollback := .valid (sampleManifest (ascii "r") (by decide))
  generations := (KeyedMap.empty.insert (ascii "a") (sampleDir (ascii "a"))).insert
    (ascii "r") (sampleDir (ascii "r"))
  staging := KeyedMap.empty.insert (ascii "n")
    { sampleDir (ascii "n") with
      progress :=
        some { generationId := ascii "n", status := .ready, identity := sampleIdentity } }
  delta := KeyedMap.empty.insert (ascii "a") (some (hlc 2 0))

end Derived
end SemanticMemory
