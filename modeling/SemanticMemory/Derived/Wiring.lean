import SemanticMemory.Derived.Startup

/-!
# What the start wires

`run_server` (`daemon/server.py`) resolves the active identity, starts the delta machine, which may
recover the rollback or build a generation, and hands what is active to the staging machine, to its
matrix gate and to the compatibility report.

* The start is the one of `Startup`, up to the wiring, which comes before the last sweep.  A place is
  met at most once, so that the environments of a start are a function of the place.
* `wire` are the values handed over: the manifest is read again after a recovery, and the layered
  identity that was resolved first is handed on with what is read then.
* The staging machine composes an identity of its own from the facts that its cycle reads and from its
  configuration where it has been handed none.

## Results

* `agrees_iff`: where the delta machine serves and a valid manifest is on the disk, all values are
  those of the manifest exactly when the start leaves alone what is active, or the rollback it
  recovers has the layers that are handed on.
-/

namespace SemanticMemory
namespace Derived

/-! ## Layered identities -/

/-- `IDENTITY_LAYERS`. -/
structure Layers where
  storeEpoch : Text
  factSchema : Option Text
  representationId : Text
  vectorFormat : Text
  projectionVersion : Text
  indexFingerprint : Text

/-- The layers of a generation over facts of a schema version. -/
def Identity.layers (identity : Identity) (version : Option Text) : Layers where
  storeEpoch := identity.storeEpoch
  factSchema := version
  representationId := identity.representationId
  vectorFormat := identity.vectorFormat
  projectionVersion := identity.projectionVersion
  indexFingerprint := identity.indexFingerprint

/-- `active_identity_from_manifest`. -/
def Manifest.layers (manifest : Manifest) : Layers :=
  manifest.identity.layers (some manifest.factSchemaVersion)

/-- The manifest that `resolve_active_identity` accepts. -/
def acceptedManifest (version : Option Text) (root : Root) : Option Manifest :=
  match root.active with
  | .valid manifest => if refuseLoadReason version manifest = none then some manifest else none
  | _ => none

/-! ## The wiring -/

/-- What the configuration desires of the layers. -/
structure Desired where
  vectorFormat : Text
  projectionVersion : Text
  indexFingerprint : Text

/-- What the staging machine is constructed with. -/
structure StagingSeam where
  activeGenerationId : Text
  activeRepresentationId : Text
  activeIdentity : Option Layers
  desired : Desired

def Desired.layers (desired : Desired) (epoch : Text) (version : Option Text)
    (representationId : Text) : Layers :=
  ⟨epoch, version, representationId, desired.vectorFormat, desired.projectionVersion,
    desired.indexFingerprint⟩

/-- `_active_identity_value`, over the facts that a cycle reads. -/
def StagingSeam.activeIdentityValue (seam : StagingSeam) (epoch : Text) (version : Option Text) :
    Layers :=
  seam.activeIdentity.getD (seam.desired.layers epoch version seam.activeRepresentationId)

/-- What the machines and the report are handed. -/
structure Wiring where
  staging : StagingSeam
  /-- The active identity of the compatibility report. -/
  report : Option Layers

/-- The wiring after the delta machine is constructed; `resolved` is the manifest whose identity was
resolved first.  A machine that asks for a rebuild is one that refuses. -/
def wire (desired : Desired) (resolved : Option Manifest) (root : Root) (p : Process) : Wiring :=
  let current :=
    if p.refused = none then
      match root.active with
      | .valid manifest => some manifest
      | _ => resolved
    else resolved
  { staging :=
      { activeGenerationId := (current.map Manifest.generationId).getD p.config.generationId
        activeRepresentationId :=
          (current.map fun m => m.identity.representationId).getD p.config.representationId
        activeIdentity := resolved.map Manifest.layers
        desired := desired }
    report := current.map Manifest.layers }

/-- All that is wired describes the generation of a manifest. -/
structure Agrees (wiring : Wiring) (p : Process) (manifest : Manifest) (epoch : Text)
    (version : Option Text) : Prop where
  served : p.machine.served = some manifest.generationId
  generationId : wiring.staging.activeGenerationId = manifest.generationId
  representationId : wiring.staging.activeRepresentationId = manifest.identity.representationId
  gate : wiring.staging.activeIdentityValue epoch version = manifest.layers
  report : wiring.report = some manifest.layers

/-! ## The start -/

/-- A place of the start with its environment. -/
def place (env : MainPc → Env) (w : World) : World :=
  match w.process with
  | some p => step w (.main (env p.main))
  | none => w

def startup (env : MainPc → Env) (config : Config) (root : Root) (places : ℕ) : World :=
  (place env)^[places] (step ⟨root, none⟩ (.start config))

/-- The generation that the rollback pointer names, if it opens. -/
def rollbackGeneration (root : Root) : Option Generation :=
  match root.rollback with
  | .valid manifest => openGeneration root.generations manifest.generationId
  | _ => none

/-- The facts that the load reads have the epoch of a generation. -/
def EpochHolds (env : MainPc → Env) (g : Generation) : Prop :=
  ∃ upper, (env .load).facts = .found g.identity.storeEpoch upper

/-- The active generation is kept, or the recovered rollback has the layers that are handed on. -/
def Keeps (env : MainPc → Env) (root : Root) (desired : Desired) (epoch : Text)
    (version : Option Text) : Prop :=
  match acceptedManifest (env .resolve).schema root with
  | some manifest =>
    match openGeneration root.generations manifest.generationId with
    | some g => EpochHolds env g
    | none => ∀ g ∈ rollbackGeneration root,
        manifest.layers = g.identity.layers (env (.activate g)).schema
  | none => ∀ g ∈ rollbackGeneration root,
      desired.layers epoch version g.identity.representationId =
        g.identity.layers (env (.activate g)).schema

/-! ## What is known at a place -/

section Known

variable {env : MainPc → Env} {root₀ root : Root} {p : Process}

/-- The generation of the manifest that was accepted, if any was, does not open. -/
def Damaged (env : MainPc → Env) (root₀ : Root) : Prop :=
  ∀ manifest, acceptedManifest (env .resolve).schema root₀ = some manifest →
    openGeneration root₀.generations manifest.generationId = none

/-- The accepted manifest names a generation of another epoch. -/
structure Outdated (env : MainPc → Env) (root₀ root : Root) (manifest : Manifest) : Prop where
  accepted : acceptedManifest (env .resolve).schema root₀ = some manifest
  active : root.active = .valid manifest
  other : ∃ g, openGeneration root₀.generations manifest.generationId = some g ∧ ¬EpochHolds env g

/-- How a generation comes to be served. -/
inductive ServedBy (env : MainPc → Env) (root₀ root : Root) (g : Generation) : Prop where
  | kept (manifest : Manifest)
      (accepted : acceptedManifest (env .resolve).schema root₀ = some manifest)
      (active : root.active = .valid manifest)
      (opens : openGeneration root₀.generations manifest.generationId = some g)
      (holds : EpochHolds env g)
  | recovered (damaged : Damaged env root₀) (rollback : rollbackGeneration root₀ = some g)
      (version : Text) (nowMs : ℕ) (schema : (env (.activate g)).schema = some version)
      (active : root.active = .valid (composeManifest g g.generationId version nowMs))
  | unpublished (absent : root.active = .absent)
  | rebuilt (manifest : Manifest) (outdated : Outdated env root₀ root manifest)
      (other : g.generationId ≠ manifest.generationId)

/-- A build from the facts: nothing is published, or what is stays in its place. -/
def Rebuilds (env : MainPc → Env) (root₀ root : Root) : Prop :=
  root.active = .absent ∨ ∃ manifest, Outdated env root₀ root manifest ∧
    root.generations.find? manifest.generationId ≠ none

/-- Nothing is served or refused so far. -/
def Process.Idle (p : Process) : Prop := p.machine.served = none ∧ p.refused = none

/-- What is known at a place of a start over `root₀`. -/
def Known (env : MainPc → Env) (root₀ root : Root) (p : Process) : Prop :=
  match p.main with
  | .resolve => p.Idle ∧ root = root₀
  | .load => p.Idle ∧ root.generations = root₀.generations ∧ root.rollback = root₀.rollback ∧
      (root.active = .absent ∨ ∃ manifest,
        acceptedManifest (env .resolve).schema root₀ = some manifest ∧
          root.active = .valid manifest ∧ p.declared = manifest.generationId)
  | .build | .buildRename _ _ => p.Idle ∧ Rebuilds env root₀ root
  | .isolate _ => p.Idle ∧ root.generations = root₀.generations ∧
      root.rollback = root₀.rollback ∧ Damaged env root₀
  | .pointer _ => p.Idle ∧ root.rollback = root₀.rollback ∧ Damaged env root₀ ∧
      ∀ id, id ≠ p.declared →
        openGeneration root.generations id = openGeneration root₀.generations id
  | .openRollback manifest => p.Idle ∧ Damaged env root₀ ∧
      openGeneration root.generations manifest.generationId = rollbackGeneration root₀
  | .catchUp g | .activate g => p.Idle ∧ Damaged env root₀ ∧ rollbackGeneration root₀ = some g
  | .clearRollback g | .recoverRead g | .recoverSweep g _ _ =>
      p.machine.served = none ∧ ServedBy env root₀ root g
  | .serve (some g) => p.Idle ∧ ServedBy env root₀ root g
  | .serve none => p.machine.served = none
  | .sweepRead => p.machine.served = none ∨
      p.refused = none ∧ ∃ g, p.machine.served = some g.generationId ∧ ServedBy env root₀ root g
  | .sweep _ _ | .serving => True

/-- So it is of the process that runs, if there is one. -/
def KnownOf (env : MainPc → Env) (root₀ : Root) (w : World) : Prop :=
  ∀ p, w.process = some p → Known env root₀ w.root p

theorem knownOf_exit : KnownOf env root₀ (World.exit root) := by
  intro p h
  cases h

theorem knownOf_goto {main : MainPc} (h : Known env root₀ root { p with main := main }) :
    KnownOf env root₀ (World.goto root p main) := by
  intro p' hp
  obtain rfl := Option.some.inj hp
  exact h

theorem Outdated.congr {other : Root} {manifest : Manifest} (h : Outdated env root₀ root manifest)
    (hactive : other.active = root.active) : Outdated env root₀ other manifest :=
  ⟨h.accepted, hactive.trans h.active, h.other⟩

/-- The way a generation comes to be served depends on the active manifest alone. -/
theorem ServedBy.congr {other : Root} {g : Generation} (h : ServedBy env root₀ root g)
    (hactive : other.active = root.active) : ServedBy env root₀ other g := by
  cases h with
  | kept manifest accepted active opens holds =>
    exact .kept manifest accepted (hactive.trans active) opens holds
  | recovered damaged rollback version nowMs schema active =>
    exact .recovered damaged rollback version nowMs schema (hactive.trans active)
  | unpublished absent => exact .unpublished (hactive.trans absent)
  | rebuilt manifest outdated other =>
    exact .rebuilt manifest (outdated.congr hactive) other

theorem knownOf_refuseRecovery (e : Env) (hserved : p.machine.served = none) (clearPointer : Bool)
    (reason : Text) : KnownOf env root₀ (refuseRecovery e root p clearPointer reason) :=
  knownOf_goto hserved

theorem damaged_of_active (h : acceptedManifest (env .resolve).schema root₀ = none) :
    Damaged env root₀ := by
  intro manifest haccepted
  rw [h] at haccepted
  cases haccepted

@[simp] theorem makeDelta_active (id : Text) : (root.makeDelta id).active = root.active := by
  rw [Root.makeDelta]
  split <;> rfl

@[simp] theorem makeDelta_generations (id : Text) :
    (root.makeDelta id).generations = root.generations := by
  rw [Root.makeDelta]
  split <;> rfl

@[simp] theorem makeDelta_rollback (id : Text) : (root.makeDelta id).rollback = root.rollback := by
  rw [Root.makeDelta]
  split <;> rfl

theorem knownOf_stepResolve (hidle : p.Idle) (hroot : root = root₀) :
    KnownOf env root₀ (stepResolve (env .resolve) root p) := by
  subst hroot
  have hpointer (reason : Text) (h : acceptedManifest (env .resolve).schema root = none) :
      KnownOf env root (World.goto (root.makeDelta p.config.generationId)
        { p with
          declared := p.config.generationId, representationId := p.config.representationId,
          machine := ⟨p.config.generationId, none⟩ } (.pointer reason)) :=
    knownOf_goto ⟨⟨rfl, hidle.2⟩, makeDelta_rollback _, damaged_of_active h,
      fun id _ => by rw [makeDelta_generations]⟩
  rw [stepResolve]
  cases hactive : root.active with
  | absent =>
    exact knownOf_goto ⟨⟨rfl, hidle.2⟩, makeDelta_generations _, makeDelta_rollback _,
      Or.inl ((makeDelta_active _).trans hactive)⟩
  | broken reason =>
    exact hpointer reason (by rw [acceptedManifest, hactive])
  | valid manifest =>
    dsimp only
    cases hrefuse : refuseLoadReason (env .resolve).schema manifest with
    | some reason =>
      refine hpointer reason ?_
      rw [acceptedManifest, hactive]
      dsimp only
      rw [if_neg]
      rw [hrefuse]
      exact Option.some_ne_none reason
    | none =>
      refine knownOf_goto ⟨⟨rfl, hidle.2⟩, makeDelta_generations _, makeDelta_rollback _,
        Or.inr ⟨manifest, ?_, (makeDelta_active _).trans hactive, rfl⟩⟩
      rw [acceptedManifest, hactive]
      dsimp only
      rw [if_pos hrefuse]

theorem knownOf_stepLoad (hidle : p.Idle) (hgenerations : root.generations = root₀.generations)
    (hrollback : root.rollback = root₀.rollback)
    (hactive : root.active = .absent ∨ ∃ manifest,
      acceptedManifest (env .resolve).schema root₀ = some manifest ∧
        root.active = .valid manifest ∧ p.declared = manifest.generationId) :
    KnownOf env root₀ (stepLoad (env .load) root p) := by
  rcases hactive with habsent | ⟨manifest, haccepted, hvalid, hdeclared⟩
  · rw [stepLoad, habsent]
    dsimp only
    cases openGeneration root.generations p.declared with
    | none =>
      dsimp only
      rw [if_neg]
      · exact knownOf_goto ⟨hidle, Or.inl habsent⟩
      · intro hnone
        cases hnone
    | some g =>
      dsimp only
      cases (env .load).facts with
      | failed => exact knownOf_exit
      | missing => exact knownOf_exit
      | found epoch upper =>
        dsimp only
        split_ifs
        · exact knownOf_goto ⟨hidle, .unpublished habsent⟩
        · exact knownOf_goto ⟨hidle, Or.inl habsent⟩
  · rw [stepLoad, hvalid]
    dsimp only
    cases hopen : openGeneration root.generations p.declared with
    | none =>
      dsimp only
      have hnamed : (Pointer.valid manifest).generationId = some p.declared :=
        congrArg some hdeclared.symm
      rw [if_pos hnamed]
      refine knownOf_goto ⟨hidle, hgenerations, hrollback, fun other hother => ?_⟩
      obtain rfl := Option.some.inj (haccepted.symm.trans hother)
      rw [← hgenerations, ← hdeclared]
      exact hopen
    | some g =>
      have hopens : openGeneration root₀.generations manifest.generationId = some g := by
        rw [← hgenerations, ← hdeclared]
        exact hopen
      dsimp only
      cases hfacts : (env .load).facts with
      | failed => exact knownOf_exit
      | missing => exact knownOf_exit
      | found epoch upper =>
        dsimp only
        split_ifs with hepoch
        · exact knownOf_goto ⟨hidle, .kept manifest haccepted hvalid hopens
            ⟨upper, hepoch ▸ hfacts⟩⟩
        · refine knownOf_goto ⟨hidle, Or.inr ⟨manifest, ⟨haccepted, hvalid, g, hopens, ?_⟩, ?_⟩⟩
          · rintro ⟨upper', hfound⟩
            obtain ⟨hsame, -⟩ := FactsRead.found.inj (hfacts.symm.trans hfound)
            exact hepoch hsame
          · rw [← hdeclared]
            exact find?_ne_none_of_open (by rw [hopen]; exact Option.some_ne_none g)

theorem knownOf_stepBuild (e : Env) (hidle : p.Idle) (hbuilds : Rebuilds env root₀ root) :
    KnownOf env root₀ (stepBuild e root p) := by
  rw [stepBuild]
  cases e.build with
  | none => exact knownOf_exit
  | some target =>
    dsimp only
    split_ifs
    · exact knownOf_exit
    · refine knownOf_goto ⟨hidle, hbuilds.imp id ?_⟩
      rintro ⟨manifest, houtdated, hthere⟩
      exact ⟨manifest, houtdated.congr rfl, hthere⟩

theorem knownOf_stepBuildRename (e : Env) (id : Text) (identity : Identity) (hidle : p.Idle)
    (hbuilds : Rebuilds env root₀ root) :
    KnownOf env root₀ (stepBuildRename e root p id identity) := by
  rw [stepBuildRename]
  split_ifs with hgate hrename
  · exact knownOf_goto hidle.1
  · exact knownOf_exit
  · obtain ⟨-, hfree⟩ := not_or.mp hrename
    dsimp only
    split
    · exact knownOf_exit
    · next g hopen =>
      refine knownOf_goto ⟨hidle, ?_⟩
      rcases hbuilds with habsent | ⟨manifest, houtdated, hthere⟩
      · exact .unpublished habsent
      · refine .rebuilt manifest (houtdated.congr rfl) ?_
        intro hname
        rw [generationId_of_open hopen] at hname
        exact hthere (hname ▸ not_not.mp hfree)

@[simp] theorem isolateGeneration_rollback (renameOk : Bool) (nowMs : ℕ) (id : Text) :
    (isolateGeneration renameOk nowMs id root).rollback = root.rollback := by
  rw [isolateGeneration]
  split
  · rfl
  · split_ifs
    · rfl
    · rfl

theorem open_isolateGeneration (renameOk : Bool) (nowMs : ℕ) {id other : Text} (h : other ≠ id) :
    openGeneration (isolateGeneration renameOk nowMs id root).generations other =
      openGeneration root.generations other := by
  rw [isolateGeneration]
  split
  · rfl
  · split_ifs
    · exact openGeneration_congr (by rw [KeyedMap.find?_erase, if_neg h])
    · rfl

theorem knownOf_stepPointer (e : Env) (reason : Text) (hidle : p.Idle)
    (hrollback : root.rollback = root₀.rollback) (hdamaged : Damaged env root₀)
    (hopen : ∀ id, id ≠ p.declared →
      openGeneration root.generations id = openGeneration root₀.generations id) :
    KnownOf env root₀ (stepPointer e root p reason) := by
  rw [stepPointer]
  split
  · exact knownOf_refuseRecovery e hidle.1 _ _
  · exact knownOf_refuseRecovery e hidle.1 _ _
  · next manifest hpointer =>
    split_ifs with hdeclared
    · exact knownOf_refuseRecovery e hidle.1 _ _
    · refine knownOf_goto ⟨hidle, hdamaged, ?_⟩
      rw [rollbackGeneration, ← hrollback, hpointer]
      exact hopen manifest.generationId hdeclared

theorem knownOf_stepOpenRollback (e : Env) (manifest : Manifest) (hidle : p.Idle)
    (hdamaged : Damaged env root₀)
    (hopen : openGeneration root.generations manifest.generationId = rollbackGeneration root₀) :
    KnownOf env root₀ (stepOpenRollback e root p manifest) := by
  rw [stepOpenRollback]
  split
  · exact knownOf_refuseRecovery e hidle.1 _ _
  · next g hg =>
    split
    · exact knownOf_exit
    · exact knownOf_refuseRecovery e hidle.1 _ _
    · split_ifs
      · exact knownOf_refuseRecovery e hidle.1 _ _
      · exact knownOf_refuseRecovery e hidle.1 _ _
      · exact knownOf_goto ⟨hidle, hdamaged, hopen.symm.trans hg⟩

theorem knownOf_stepCatchUp (e : Env) (g : Generation) (hidle : p.Idle)
    (hdamaged : Damaged env root₀) (hrollback : rollbackGeneration root₀ = some g) :
    KnownOf env root₀ (stepCatchUp e root p g) := by
  rw [stepCatchUp]
  dsimp only
  split
  · exact knownOf_goto ⟨hidle, hdamaged, hrollback⟩
  · exact knownOf_refuseRecovery e hidle.1 _ _
  · exact knownOf_refuseRecovery e hidle.1 _ _
  · exact knownOf_refuseRecovery e hidle.1 _ _

theorem knownOf_stepActivate (g : Generation) (hidle : p.Idle) (hdamaged : Damaged env root₀)
    (hrollback : rollbackGeneration root₀ = some g) :
    KnownOf env root₀ (stepActivate (env (.activate g)) root p g) := by
  rw [stepActivate]
  dsimp only
  split
  · exact knownOf_refuseRecovery _ hidle.1 _ _
  · exact knownOf_refuseRecovery _ hidle.1 _ _
  · next b version hschema =>
    split
    · exact knownOf_refuseRecovery _ hidle.1 _ _
    · exact knownOf_refuseRecovery _ hidle.1 _ _
    · exact knownOf_goto ⟨hidle.1,
        .recovered hdamaged hrollback (b :: version) (env (.activate g)).nowMs hschema rfl⟩

theorem knownOf_stepServe (e : Env) (generation : Option Generation)
    (h : Known env root₀ root { p with main := .serve generation }) :
    KnownOf env root₀ (stepServe e root p generation) := by
  cases generation with
  | none => exact knownOf_goto (Or.inl h)
  | some g =>
    obtain ⟨hidle, hserves⟩ := h
    rw [stepServe]
    split_ifs
    · exact knownOf_exit
    · split
      · exact knownOf_exit
      · exact knownOf_exit
      · split_ifs
        · exact knownOf_exit
        · exact knownOf_goto (Or.inr ⟨hidle.2, g, rfl, hserves⟩)

/-- **A place hands on what is known.** -/
theorem knownOf_mainStep (h : Known env root₀ root p) :
    KnownOf env root₀ (mainStep (env p.main) root p) := by
  rw [mainStep]
  cases hmain : p.main with rw [Known, hmain] at h
  | resolve => exact knownOf_stepResolve h.1 h.2
  | load => exact knownOf_stepLoad h.1 h.2.1 h.2.2.1 h.2.2.2
  | build => exact knownOf_stepBuild _ h.1 h.2
  | buildRename id identity => exact knownOf_stepBuildRename _ id identity h.1 h.2
  | isolate reason =>
    obtain ⟨hidle, hgenerations, hrollback, hdamaged⟩ := h
    refine knownOf_goto ⟨hidle, (isolateGeneration_rollback ..).trans hrollback, hdamaged,
      fun id hid => ?_⟩
    rw [open_isolateGeneration _ _ hid, hgenerations]
  | pointer reason => exact knownOf_stepPointer _ reason h.1 h.2.1 h.2.2.1 h.2.2.2
  | openRollback manifest => exact knownOf_stepOpenRollback _ manifest h.1 h.2.1 h.2.2
  | catchUp g => exact knownOf_stepCatchUp _ g h.1 h.2.1 h.2.2
  | activate g => exact knownOf_stepActivate g h.1 h.2.1 h.2.2
  | clearRollback g =>
    refine knownOf_goto ⟨h.1, h.2.congr ?_⟩
    split_ifs
    · rfl
    · rfl
  | recoverRead g => exact knownOf_goto ⟨h.1, h.2⟩
  | recoverSweep g keep sweep =>
    have hactive := (sweepStep_pointers (env (.recoverSweep g keep sweep)).removal keep root sweep).1
    dsimp only
    split
    · exact knownOf_goto ⟨h.1, h.2.congr hactive⟩
    · exact knownOf_goto ⟨⟨h.1, rfl⟩, h.2.congr hactive⟩
  | serve generation => exact knownOf_stepServe _ generation h
  | sweepRead => exact knownOf_goto trivial
  | sweep keep sweep =>
    dsimp only
    split
    · exact knownOf_goto trivial
    · exact knownOf_goto trivial
  | serving =>
    intro p' hp
    obtain rfl := Option.some.inj hp
    rw [Known, hmain]
    trivial

/-- **What is known along a start.** -/
theorem knownOf_startup (config : Config) (places : ℕ) :
    KnownOf env root₀ (startup env config root₀ places) := by
  induction places with
  | zero =>
    intro p hp
    obtain rfl := Option.some.inj hp
    exact ⟨⟨rfl, rfl⟩, rfl⟩
  | succ places ih =>
    have hnext : startup env config root₀ (places + 1) =
        place env (startup env config root₀ places) := Function.iterate_succ_apply' _ _ _
    rw [hnext, place]
    split
    · next p hp =>
      have hstep : step (startup env config root₀ places) (.main (env p.main)) =
          mainStep (env p.main) (startup env config root₀ places).root p := by
        unfold step
        rw [hp]
      rw [hstep]
      exact knownOf_mainStep (ih p hp)
    · next hp => exact ih

end Known

/-! ## What is wired -/

/-- **The start agrees on what is active** exactly when it keeps it, or recovers a rollback with the
layers that are handed on: over every root, configuration, environment and cycle of the staging
machine, where the delta machine serves and a valid manifest is on the disk. -/
theorem agrees_iff (env : MainPc → Env) (config : Config) (root : Root) (places : ℕ)
    (desired : Desired) (epoch : Text) (version : Option Text) {p : Process} {id : Text}
    {manifest : Manifest} (hprocess : (startup env config root places).process = some p)
    (hmain : p.main = .sweepRead) (hserved : p.machine.served = some id)
    (hactive : (startup env config root places).root.active = .valid manifest) :
    Agrees (wire desired (acceptedManifest (env .resolve).schema root)
        (startup env config root places).root p) p manifest epoch version ↔
      Keeps env root desired epoch version := by
  have hknown : Known env root (startup env config root places).root p :=
    knownOf_startup config places p hprocess
  rw [Known, hmain] at hknown
  generalize (startup env config root places).root = root' at hknown hactive ⊢
  rcases hknown with hnone | ⟨hrefused, g, hg, hserves⟩
  · rw [hnone] at hserved
    cases hserved
  -- the machine serves, so that the manifest is read again
  have hcurrent (resolved : Option Manifest) : wire desired resolved root' p =
      ⟨⟨manifest.generationId, manifest.identity.representationId, resolved.map Manifest.layers,
        desired⟩, some manifest.layers⟩ := by
    rw [wire, if_pos hrefused, hactive]
    rfl
  rw [hcurrent]
  cases hserves with
  | kept m accepted active opens holds =>
    obtain rfl := Pointer.valid.inj (hactive.symm.trans active)
    have hname := generationId_of_open opens
    refine iff_of_true ⟨hg.trans (congrArg some hname), rfl, rfl, ?_, rfl⟩ ?_
    · rw [accepted]
      rfl
    · rw [Keeps, accepted]
      dsimp only
      rw [opens]
      exact holds
  | recovered damaged rollback v nowMs schema active =>
    obtain rfl := Pointer.valid.inj (hactive.symm.trans active)
    have hlayers : (composeManifest g g.generationId v nowMs).layers =
        g.identity.layers (env (.activate g)).schema := by
      rw [schema]
      rfl
    have hgate (gate : Layers) (resolved : Option Manifest)
        (h : (resolved.map Manifest.layers).getD
          (desired.layers epoch version g.identity.representationId) = gate) :
        Agrees ⟨⟨g.generationId, g.identity.representationId, resolved.map Manifest.layers, desired⟩,
            some (composeManifest g g.generationId v nowMs).layers⟩ p
          (composeManifest g g.generationId v nowMs) epoch version ↔
            gate = g.identity.layers (env (.activate g)).schema := by
      constructor
      · intro hagrees
        exact h.symm.trans (hagrees.gate.trans hlayers)
      · intro hsame
        exact ⟨hg, rfl, rfl, h.trans (hsame.trans hlayers.symm), rfl⟩
    cases haccepted : acceptedManifest (env .resolve).schema root with
    | some m =>
      rw [Keeps, haccepted]
      dsimp only
      rw [damaged m haccepted, rollback]
      refine (hgate m.layers (some m) rfl).trans ?_
      simp only [Option.mem_def, Option.some.injEq, forall_eq']
    | none =>
      rw [Keeps, haccepted]
      dsimp only
      rw [rollback]
      refine (hgate (desired.layers epoch version g.identity.representationId) none rfl).trans ?_
      simp only [Option.mem_def, Option.some.injEq, forall_eq']
  | unpublished absent =>
    rw [absent] at hactive
    cases hactive
  | rebuilt m outdated other =>
    obtain rfl := Pointer.valid.inj (hactive.symm.trans outdated.active)
    obtain ⟨g₀, hopens, hepoch⟩ := outdated.other
    refine iff_of_false ?_ ?_
    · intro hagrees
      exact other (Option.some.inj (hg.symm.trans hagrees.served))
    · rw [Keeps, outdated.accepted]
      dsimp only
      rw [hopens]
      exact hepoch

/-! ## A recovery -/

def projected (projectionVersion : Text) : Identity :=
  ⟨[5], hlc 10 0, [114], 1, fp32RowMajorLe, projectionVersion, indexFingerprintPrefix ++ [1], [98]⟩

def wiredConfig : Config := ⟨[1], [114], 1⟩

def wiredDesired : Desired := ⟨fp32RowMajorLe, [2], indexFingerprintPrefix ++ [1]⟩

/-- The generation 1 is published, over a rollback of an older projection. -/
def wiredRoot (intact : Bool) : Root where
  active := .valid ⟨[1], projected [2], ascii "1", [1], 0, List.cons_ne_nil _ _⟩
  rollback := .valid ⟨[2], projected [1], ascii "1", [2], 0, List.cons_ne_nil _ _⟩
  generations := (KeyedMap.empty.insert [1] ⟨[1], projected [2], intact, none⟩).insert [2]
    ⟨[2], projected [1], true, none⟩

def wiredEnv : MainPc → Env := fun _ => { facts := .found [5] (hlc 10 0) }

theorem agrees_iff_kept : ∃ p, (startup wiredEnv wiredConfig (wiredRoot true) 3).process = some p ∧
    Agrees (wire wiredDesired (acceptedManifest (some (ascii "1")) (wiredRoot true))
      (startup wiredEnv wiredConfig (wiredRoot true) 3).root p) p
      ⟨[1], projected [2], ascii "1", [1], 0, List.cons_ne_nil _ _⟩ [5] (some (ascii "1")) := by
  have hruns : (startup wiredEnv wiredConfig (wiredRoot true) 3).process.isSome = true := by
    decide +kernel
  obtain ⟨p, hp⟩ := Option.isSome_iff_exists.mp hruns
  have hplace : (startup wiredEnv wiredConfig (wiredRoot true) 3).process.map
      (fun p => (p.main, p.machine.served)) = some (.sweepRead, some [1]) := by decide +kernel
  rw [hp] at hplace
  obtain ⟨hmain, hserved⟩ := Prod.mk.inj (Option.some.inj hplace)
  refine ⟨p, hp, (agrees_iff wiredEnv wiredConfig (wiredRoot true) 3 wiredDesired [5]
    (some (ascii "1")) hp hmain hserved (by decide +kernel)).mpr ?_⟩
  have hopens : openGeneration (wiredRoot true).generations [1] =
      some ⟨[1], projected [2], List.cons_ne_nil _ _⟩ := by decide +kernel
  exact ⟨hlc 10 0, rfl⟩

/-- A damaged generation is not: the rollback is recovered, and the staging machine is handed the
projection that was active before. -/
theorem agrees_iff_recovered :
    ∃ p manifest, (startup wiredEnv wiredConfig (wiredRoot false) 17).process = some p ∧
      p.main = .sweepRead ∧ p.machine.served = some [2] ∧
      (startup wiredEnv wiredConfig (wiredRoot false) 17).root.active = .valid manifest ∧
      ¬Agrees (wire wiredDesired (acceptedManifest (some (ascii "1")) (wiredRoot false))
        (startup wiredEnv wiredConfig (wiredRoot false) 17).root p) p manifest [5]
        (some (ascii "1")) := by
  have hruns : (startup wiredEnv wiredConfig (wiredRoot false) 17).process.isSome = true := by
    decide +kernel
  obtain ⟨p, hp⟩ := Option.isSome_iff_exists.mp hruns
  have hplace : (startup wiredEnv wiredConfig (wiredRoot false) 17).process.map
      (fun p => (p.main, p.machine.served)) = some (.sweepRead, some [2]) := by decide +kernel
  rw [hp] at hplace
  obtain ⟨hmain, hserved⟩ := Prod.mk.inj (Option.some.inj hplace)
  refine ⟨p, ⟨[2], projected [1], ascii "1", [2], 0, List.cons_ne_nil _ _⟩, hp, hmain, hserved,
    by decide +kernel, fun h => ?_⟩
  have hgate := congrArg Layers.projectionVersion h.gate
  have hold : acceptedManifest (some (ascii "1")) (wiredRoot false) =
      some ⟨[1], projected [2], ascii "1", [1], 0, List.cons_ne_nil _ _⟩ := by decide +kernel
  rw [hold] at hgate
  have hprojections : ([2] : Text) = [1] := hgate
  exact absurd hprojections (by decide)

end Derived
end SemanticMemory
