import SemanticMemory.Derived.Commit

/-!
# The rebuild of an epoch change

`_perform_rebuild` of `daemon/delta.py` in the running daemon, and the start of a daemon over the
root that it leaves.

## What is modelled, and how

* The rebuild runs in the delta machine's worker, beside the start's sweep, the publisher and the
  staging builder.  It does not take the publisher's lock.  Between two places it changes at most one
  directory entry or file, and a crash may fall between any two.
* An exception ends the worker's cycle and leaves what was done.  When the cycle finds another epoch,
  or a rebuild that the coordinator has queued, is left open; the completion callback is left out.
* While the rebuild runs no publication is switched to: the handshake waits for the worker, or its
  deadline ends it.
* A start is the run of one environment, the same at every place.
-/

namespace SemanticMemory
namespace Derived

open Runs

/-! ## The build -/

/-- `build_generation`, up to the finished container. -/
def beginBuild (env : Env) (root : Root) : Option (Root × Text × Identity) :=
  match env.build with
  | none => none
  | some (id, identity) =>
    if root.generations.find? id ≠ none ∨ root.staging.find? id ≠ none then none
    else
      some
        ({ root with
          staging := root.staging.insert id
            ⟨id, identity, false,
              some { versionOk := false, generationId := id, status := .running,
                     identity := identity }⟩ }, id, identity)

/-- The end of `build_generation`. -/
def endBuild (env : Env) (root : Root) (id : Text) (identity : Identity) :
    Root × Option Generation :=
  if env.gateOk = false ∨ env.renameOk = false ∨ root.generations.find? id ≠ none then (root, none)
  else
    let root : Root :=
      { root with
        staging := root.staging.erase id
        generations := root.generations.insert id ⟨id, identity, true, none⟩ }
    (root, openGeneration root.generations id)

/-- The start builds in the same way. -/
theorem stepBuild_eq (env : Env) (root : Root) (p : Process) :
    stepBuild env root p =
      match beginBuild env root with
      | none => World.exit root
      | some (root', id, identity) => World.goto root' p (.buildRename id identity) := by
  unfold stepBuild beginBuild
  cases env.build with
  | none => rfl
  | some built =>
    obtain ⟨id, identity⟩ := built
    simp only
    split <;> rfl

variable {identity : Identity}

theorem beginBuild_eq_some {env : Env} {root root' : Root} {id : Text}
    (h : beginBuild env root = some (root', id, identity)) :
    env.build = some (id, identity) ∧ root.generations.find? id = none ∧
      root.staging.find? id = none ∧ root'.active = root.active ∧
      root'.rollback = root.rollback ∧ root'.generations = root.generations := by
  unfold beginBuild at h
  split at h
  · cases h
  · next hbuild =>
    split at h
    · cases h
    · next hfree =>
      cases h
      obtain ⟨hgenerations, hstaging⟩ := not_or.mp hfree
      exact ⟨hbuild, not_not.mp hgenerations, not_not.mp hstaging, rfl, rfl, rfl⟩

/-! ## The rebuild -/

/-- The places of `_perform_rebuild`. -/
inductive RebuildPc where
  /-- It is entered, with the epoch that the coordinator asks for. -/
  | drop (pending : Option Text)
  | openDeclared (target : Option Text)
  | build
  | buildRename (id : Text) (identity : Identity)
  | publish (generation : Generation)
  | clearRollback (generation : Generation)
  | sweepRead (generation : Generation)
  | sweep (generation : Generation) (keep : Keep) (sweep : Sweep)

/-- The daemon, and the rebuild that its delta machine is in. -/
structure Rebuilding where
  world : World
  rebuild : Option RebuildPc := none

/-- The rebuild goes on at another place. -/
def Rebuilding.goto (root : Root) (p : Process) (pc : RebuildPc) : Rebuilding :=
  ⟨⟨root, some p⟩, some pc⟩

/-- The worker's cycle is over. -/
def Rebuilding.leave (root : Root) (p : Process) : Rebuilding := ⟨⟨root, some p⟩, none⟩

/-- `_drop_delta_checkpoint`. -/
def Root.dropDelta (unlinkOk : Bool) (root : Root) (id : Text) : Root :=
  match unlinkOk, root.delta.find? id with
  | true, some _ => { root with delta := root.delta.insert id none }
  | _, _ => root

/-- `_perform_rebuild`, from one place to the next. -/
def rebuildStep (env : Env) (root : Root) (p : Process) : RebuildPc → Rebuilding
  | .drop pending =>
    let dropped := root.dropDelta env.unlinkOk p.machine.checkpoint
    match pending, env.facts with
    | some target, _ => .goto dropped p (.openDeclared (some target))
    | none, .found epoch _ => .goto dropped p (.openDeclared (some epoch))
    | none, .missing => .goto dropped p (.openDeclared none)
    | none, .failed => .leave root p
  | .openDeclared target =>
    match openGeneration root.generations p.declared with
    | none => .goto root p .build
    | some generation =>
      if ∃ epoch ∈ target, generation.identity.storeEpoch ≠ epoch then .goto root p .build
      else .goto root p (.publish generation)
  | .build =>
    match beginBuild env root with
    | none => .leave root p
    | some (root', id, identity) => .goto root' p (.buildRename id identity)
  | .buildRename id identity =>
    match endBuild env root id identity with
    | (root', none) => .leave root' p
    | (root', some generation) => .goto root' p (.publish generation)
  | .publish generation =>
    if env.facts = .failed then .leave root p
    else
      let id := generation.generationId
      if env.commitsOk then
        .goto (root.makeDelta id) { p with machine := ⟨id, some id⟩ } (.clearRollback generation)
      else .leave (root.makeDelta id) { p with machine := { p.machine with checkpoint := id } }
  | .clearRollback generation =>
    .goto (if env.unlinkOk then { root with rollback := .absent } else root) p
      (.sweepRead generation)
  | .sweepRead generation =>
    .goto root p
      (.sweep generation ⟨some generation.generationId, none, liveStagingGenerationIds root⟩ .begin)
  | .sweep generation keep sweep =>
    let swept := sweepStep env.removal keep root sweep
    match swept.2 with
    | some sweep => .goto swept.1 p (.sweep generation keep sweep)
    | none => .leave swept.1 p

/-- An action of the daemon while its worker rebuilds. -/
def Action.unswitched : Action → Action
  | .publisher env => .publisher { env with switchOk := false }
  | .retrySwitch env => .retrySwitch { env with switchOk := false }
  | a => a

/-- The generation that an action of the publisher has switched to, if it has. -/
def Action.switchedTo (a : Action) (p p' : Process) : Option Text :=
  match a with
  | .publisher _ =>
    if (p.call.any fun c => c.pc = .switch) = true ∧ (p'.call.any fun c => c.pc = .sweepRead) = true
    then p'.machine.served
    else none
  | .retrySwitch _ => if p'.switched = p.switched then none else p'.machine.served
  | _ => none

/-- A switch makes the generation the declared one and ends a refusal. -/
def Process.declare (p : Process) : Option Text → Process
  | some id => { p with declared := id, refused := none }
  | none => p

inductive RebuildAction where
  | daemon (a : Action)
  | enter (pending : Option Text)
  | rebuild (env : Env)

def Rebuilding.step (s : Rebuilding) : RebuildAction → Rebuilding
  | .daemon a =>
    let w := Derived.step s.world (if s.rebuild = none then a else a.unswitched)
    match s.world.process, w.process with
    | _, none => ⟨w, none⟩
    | none, some _ => ⟨w, s.rebuild⟩
    | some p, some p' => ⟨⟨w.root, some (p'.declare (a.switchedTo p p'))⟩, s.rebuild⟩
  | .enter pending =>
    match s.world.process with
    | some p =>
      if p.main.wired = true ∧ p.refused = none ∧ s.rebuild = none then
        .goto s.world.root { p with machine := { p.machine with served := none } } (.drop pending)
      else s
    | none => s
  | .rebuild env =>
    match s.world.process, s.rebuild with
    | some p, some pc => rebuildStep env s.world.root p pc
    | _, _ => s

/-! ## The start over a root -/

/-- A daemon is started and found to serve an opened generation of this epoch, not refusing. -/
def Answers (epoch : Text) (w : World) : Prop :=
  ∃ (p : Process) (g : Generation), w.process = some p ∧ p.refused = none ∧
    p.machine.served = some g.generationId ∧
    openGeneration w.root.generations g.generationId = some g ∧ g.identity.storeEpoch = epoch

/-- The daemon's start over a root comes to serve an epoch. -/
def Restarts (config : Config) (env : Env) (epoch : Text) (root : Root) : Prop :=
  Reaches Derived.step (.main env) (Answers epoch) (Derived.step (World.exit root) (.start config))

/-- What the runtime takes. -/
def Identity.Suits (identity : Identity) (epoch representationId : Text) (vectorDimension : ℕ) :
    Prop :=
  identity.storeEpoch = epoch ∧ identity.representationId = representationId ∧
    identity.vectorDimension = vectorDimension

/-- A start that meets no fault, over facts that stay as they are.  What it builds from the facts,
if it gets to that, is theirs and of the runtime. -/
structure Undisturbed (env : Env) (epoch representationId : Text) (vectorDimension : ℕ) : Prop where
  rename : env.renameOk = true
  gate : env.gateOk = true
  commits : env.commitsOk = true
  write : env.write = .done
  delta : env.delta = .absorbed
  schema : ∃ b version, env.schema = some (b :: version)
  facts : ∃ upper, env.facts = .found epoch upper
  build : ∃ id identity, env.build = some (id, identity) ∧ id ≠ [] ∧
    identity.Suits epoch representationId vectorDimension

/-- The rollback pointer names another generation, which opens and suits. -/
def RollsBack (root : Root) (declared epoch representationId : Text) (vectorDimension : ℕ) : Prop :=
  ∃ manifest g, root.rollback = .valid manifest ∧ manifest.generationId ≠ declared ∧
    openGeneration root.generations manifest.generationId = some g ∧
    g.identity.Suits epoch representationId vectorDimension

/-- Nothing has the id under which the facts would be built. -/
def Unbuilt (env : Env) (root : Root) : Prop :=
  ∃ id identity, env.build = some (id, identity) ∧ root.generations.find? id = none ∧
    root.staging.find? id = none

/-- What a root has to have for a daemon to start over it: the published generation opens and suits;
or it opens, is of another epoch and nothing is built of the facts; or it does not open and the
rollback can take its place. -/
def Survives (config : Config) (env : Env) (epoch : Text) (root : Root) (manifest : Manifest) :
    Prop :=
  match refuseLoadReason env.schema manifest with
  | some _ =>
    RollsBack root config.generationId epoch config.representationId config.vectorDimension
  | none =>
    match openGeneration root.generations manifest.generationId with
    | some g =>
      if g.identity.storeEpoch = epoch then
        g.identity.Suits epoch manifest.identity.representationId config.vectorDimension
      else Unbuilt env root
    | none =>
      RollsBack root manifest.generationId epoch manifest.identity.representationId
        config.vectorDimension

variable {g : Generation} {removal : Removal} {keep : Keep} {sweep : Sweep}

theorem open_of_kept {root : Root} (hkeep : keep.active = some g.generationId)
    (hopen : openGeneration root.generations g.generationId = some g) :
    openGeneration (sweepStep removal keep root sweep).1.generations g.generationId = some g := by
  rcases sweepStep_generations removal keep root sweep g.generationId with hsame | ⟨-, hout⟩
  · rw [openGeneration_congr hsame]
    exact hopen
  · exact absurd ((mem_keep_generations g.named).mpr (Or.inl hkeep)) hout

/-! ### From place to place -/

variable {main : MainPc}

section Start

variable {config : Config} {env : Env} {epoch : Text} {root : Root} {p : Process}

/-- The start, from one of its places, comes to serve the epoch. -/
def ReachesFrom (env : Env) (epoch : Text) (root : Root) (p : Process) (main : MainPc) : Prop :=
  Reaches Derived.step (.main env) (Answers epoch) (World.goto root p main)

/-- A process that has ended serves nothing. -/
theorem not_reaches_exit : ¬ Reaches Derived.step (.main env) (Answers epoch) (World.exit root) := by
  refine not_reaches (I := fun w : World => w.process = none) (fun w hw => ?_) (fun w hw => ?_) rfl
  · unfold Derived.step
    rw [hw]
    exact hw
  · rintro ⟨p, g, hp, -⟩
    rw [hw] at hp
    cases hp

/-- A start that is over without a snapshot gets none. -/
theorem not_reaches_unserved (hnone : p.machine.served = none)
    (hmain : main = .serve none ∨ main.wired = true) : ¬ ReachesFrom env epoch root p main := by
  refine not_reaches
    (I := fun w : World => ∀ p, w.process = some p →
      p.machine.served = none ∧ (p.main = .serve none ∨ p.main.wired = true))
    (fun w hw => ?_) (fun w hw => ?_) (fun p' hp' => by cases hp'; exact ⟨hnone, hmain⟩)
  · obtain ⟨root, process⟩ := w
    cases process with
    | none => exact hw
    | some p =>
      obtain ⟨hserved, hat⟩ := hw p rfl
      intro p' hp'
      change (mainStep env root p).process = some p' at hp'
      unfold mainStep at hp'
      rcases hat with hat | hat
      · rw [hat] at hp'
        cases hp'
        exact ⟨hserved, Or.inr rfl⟩
      · cases hpc : p.main with
        | sweepRead =>
          rw [hpc] at hp'
          cases hp'
          exact ⟨hserved, Or.inr rfl⟩
        | sweep keep sweep =>
          rw [hpc] at hp'
          simp only at hp'
          split at hp' <;> (cases hp'; exact ⟨hserved, Or.inr rfl⟩)
        | serving =>
          rw [hpc] at hp'
          cases hp'
          exact ⟨hserved, Or.inr (by rw [hpc]; rfl)⟩
        | _ =>
          rw [hpc] at hat
          cases hat
  · rintro ⟨p, g, hp, -, hserved, -⟩
    rw [(hw p hp).1] at hserved
    cases hserved

/-- A place of the start without a snapshot leads where its step leads. -/
theorem reachesFrom_step (hnone : p.machine.served = none) :
    ReachesFrom env epoch root p main ↔
      Reaches Derived.step (.main env) (Answers epoch)
        (mainStep env root { p with main := main }) := by
  refine reaches_step ?_
  rintro ⟨p', g, hp', -, hserved, -⟩
  cases hp'
  rw [hnone] at hserved
  cases hserved

theorem not_reaches_refuse (hnone : p.machine.served = none) (clearPointer : Bool)
    (reason : Text) :
    ¬ Reaches Derived.step (.main env) (Answers epoch)
      (refuseRecovery env root p clearPointer reason) :=
  not_reaches_unserved (p := { p with refused := some reason }) hnone (Or.inl rfl)

variable {representationId : Text} {vectorDimension : ℕ}
  (hsteady : Undisturbed env epoch representationId vectorDimension)
  (hnone : p.machine.served = none)
include hsteady hnone

theorem reachesFrom_serve (hrefused : p.refused = none)
    (hopen : openGeneration root.generations g.generationId = some g) :
    ReachesFrom env epoch root p (.serve (some g)) ↔
      g.identity.Suits epoch p.representationId p.config.vectorDimension := by
  obtain ⟨upper, hfacts⟩ := hsteady.facts
  rw [reachesFrom_step hnone]
  show Reaches _ _ _ (stepServe env root { p with main := .serve (some g) } (some g)) ↔ _
  unfold stepServe
  simp only [hfacts, hsteady.commits, reduceCtorEq, or_false]
  constructor
  · intro hreach
    split at hreach
    · exact absurd hreach not_reaches_exit
    · next hrepresentation =>
      split at hreach
      · exact absurd hreach not_reaches_exit
      · next hepoch =>
        obtain ⟨hid, hdim⟩ := not_or.mp hrepresentation
        exact ⟨(not_not.mp hepoch).symm, not_not.mp hid, not_not.mp hdim⟩
  · rintro ⟨hepoch, hid, hdim⟩
    rw [if_neg (not_or.mpr ⟨not_not.mpr hid, not_not.mpr hdim⟩), if_neg (not_not.mpr hepoch.symm)]
    exact reaches_here ⟨_, g, rfl, hrefused, rfl, hopen, hepoch⟩

theorem reachesFrom_round
    (hrounds : ∀ next, (sweepStep env.removal keep root sweep).2 = some next →
      (ReachesFrom env epoch (sweepStep env.removal keep root sweep).1 p
          (.recoverSweep g keep next) ↔
        g.identity.Suits epoch p.representationId p.config.vectorDimension))
    (hkeep : keep.active = some g.generationId)
    (hopen : openGeneration root.generations g.generationId = some g) :
    ReachesFrom env epoch root p (.recoverSweep g keep sweep) ↔
      g.identity.Suits epoch p.representationId p.config.vectorDimension := by
  have hopen' : openGeneration (sweepStep env.removal keep root sweep).1.generations
      g.generationId = some g := open_of_kept hkeep hopen
  rw [reachesFrom_step hnone]
  simp only [mainStep]
  cases hnext : (sweepStep env.removal keep root sweep).2 with
  | some next => exact hrounds next hnext
  | none =>
    exact reachesFrom_serve (p := { p with
      declared := g.generationId
      machine := { p.machine with checkpoint := g.generationId }
      refused := none }) hsteady hnone rfl hopen'

/-- A pass of the recovery's sweep over a list of entries leads where its end leads. -/
theorem reachesFrom_pass (hkeep : keep.active = some g.generationId) (at_ : List Text → Sweep)
    (hcons : ∀ root entry rest,
      (sweepStep env.removal keep root (at_ (entry :: rest))).2 = some (at_ rest))
    (hnil : ∀ root, openGeneration root.generations g.generationId = some g →
      (ReachesFrom env epoch root p (.recoverSweep g keep (at_ [])) ↔
        g.identity.Suits epoch p.representationId p.config.vectorDimension))
    (entries : List Text) : ∀ root, openGeneration root.generations g.generationId = some g →
      (ReachesFrom env epoch root p (.recoverSweep g keep (at_ entries)) ↔
        g.identity.Suits epoch p.representationId p.config.vectorDimension) := by
  induction entries with
  | nil => exact hnil
  | cons entry rest ih =>
    refine fun root hopen => reachesFrom_round hsteady hnone (fun next hnext => ?_) hkeep hopen
    obtain rfl := Option.some.inj ((hcons root entry rest).symm.trans hnext)
    exact ih _ (open_of_kept hkeep hopen)

/-- The recovery's sweep comes to its end, and what was recovered is served if it suits. -/
theorem reachesFrom_recoverSweep (hkeep : keep.active = some g.generationId) (sweep : Sweep)
    (hopen : openGeneration root.generations g.generationId = some g) :
    ReachesFrom env epoch root p (.recoverSweep g keep sweep) ↔
      g.identity.Suits epoch p.representationId p.config.vectorDimension := by
  have hstaging := reachesFrom_pass hsteady hnone hkeep .staging
    (fun root entry rest => by simp only [sweepStep]; split <;> rfl)
    (fun root hopen => reachesFrom_round hsteady hnone nofun hkeep hopen)
  have hdelta := reachesFrom_pass hsteady hnone hkeep .delta
    (fun root entry rest => by simp only [sweepStep]; split <;> rfl)
    (fun root hopen => reachesFrom_round hsteady hnone
      (fun next hnext => by cases hnext; exact hstaging _ _ hopen) hkeep hopen)
  have hgenerations := reachesFrom_pass hsteady hnone hkeep .generations
    (fun root entry rest => by simp only [sweepStep]; split <;> rfl)
    (fun root hopen => reachesFrom_round hsteady hnone
      (fun next hnext => by cases hnext; exact hdelta _ _ hopen) hkeep hopen)
  cases sweep with
  | begin =>
    refine reachesFrom_round hsteady hnone (fun next hnext => ?_) hkeep hopen
    cases hnext
    exact hgenerations _ _ hopen
  | generations entries => exact hgenerations entries root hopen
  | delta entries => exact hdelta entries root hopen
  | staging entries => exact hstaging entries root hopen

/-- The rollback, opened, is caught up, made the active and served if it suits. -/
theorem reachesFrom_openRollback {manifest : Manifest} :
    ReachesFrom env epoch root p (.openRollback manifest) ↔
      ∃ g, openGeneration root.generations manifest.generationId = some g ∧
        g.identity.Suits epoch p.representationId p.config.vectorDimension := by
  obtain ⟨upper, hfacts⟩ := hsteady.facts
  obtain ⟨b, version, hschema⟩ := hsteady.schema
  rw [reachesFrom_step hnone]
  show Reaches _ _ _ (stepOpenRollback env root { p with main := .openRollback manifest }
    manifest) ↔ _
  unfold stepOpenRollback
  cases hopen : openGeneration root.generations manifest.generationId with
  | none =>
    refine iff_of_false ?_ nofun
    exact not_reaches_refuse (p := { p with main := .openRollback manifest }) hnone true _
  | some g =>
    have hname : g.generationId = manifest.generationId := generationId_of_open hopen
    rw [← hname] at hopen
    have hsuits : (∃ g', some g = some g' ∧
        g'.identity.Suits epoch p.representationId p.config.vectorDimension) ↔
        g.identity.Suits epoch p.representationId p.config.vectorDimension :=
      ⟨fun ⟨g', hg', hs⟩ => by cases hg'; exact hs, fun hs => ⟨g, rfl, hs⟩⟩
    rw [hsuits]
    simp only [hfacts]
    split
    · next hepoch =>
      exact iff_of_false (not_reaches_refuse (p := { p with main := .openRollback manifest }) hnone
        true _) fun hs => hepoch hs.1
    · split
      · next hepoch hruntime =>
        exact iff_of_false (not_reaches_refuse (p := { p with main := .openRollback manifest })
          hnone false _) fun hs =>
          hruntime.elim (fun h => h hs.2.1) fun h => h hs.2.2
      · -- the four steps from the catch-up to the sweep
        show ReachesFrom env epoch root p (.catchUp g) ↔ _
        rw [reachesFrom_step hnone]
        simp only [mainStep, stepCatchUp, hsteady.delta]
        show ReachesFrom env epoch _ p (.activate g) ↔ _
        rw [reachesFrom_step hnone]
        simp only [mainStep, stepActivate, hschema, hsteady.write]
        show ReachesFrom env epoch _ p (.clearRollback g) ↔ _
        rw [reachesFrom_step hnone]
        simp only [mainStep]
        show ReachesFrom env epoch _ p (.recoverRead g) ↔ _
        rw [reachesFrom_step hnone]
        simp only [mainStep]
        refine reachesFrom_recoverSweep hsteady hnone rfl _ ?_
        split <;> exact hopen

/-- The recovery by the rollback pointer. -/
theorem reachesFrom_pointer {reason : Text} :
    ReachesFrom env epoch root p (.pointer reason) ↔
      RollsBack root p.declared epoch p.representationId p.config.vectorDimension := by
  rw [reachesFrom_step hnone]
  show Reaches _ _ _ (stepPointer env root { p with main := .pointer reason } reason) ↔ _
  have hrefuse (clearPointer : Bool) (why : Text) :
      ¬ Reaches Derived.step (.main env) (Answers epoch)
        (refuseRecovery env root { p with main := .pointer reason } clearPointer why) :=
    not_reaches_refuse hnone clearPointer why
  unfold stepPointer RollsBack
  cases hrollback : root.rollback with
  | absent => exact iff_of_false (hrefuse _ _) nofun
  | broken problem => exact iff_of_false (hrefuse _ _) nofun
  | valid manifest =>
    simp only
    split
    · next hsame =>
      refine iff_of_false (hrefuse _ _) ?_
      rintro ⟨manifest', g, hmanifest, hne, -⟩
      cases hmanifest
      exact hne hsame
    · next hother =>
      show ReachesFrom env epoch root p (.openRollback manifest) ↔ _
      rw [reachesFrom_openRollback hsteady hnone]
      constructor
      · rintro ⟨g, hopen, hsuits⟩
        exact ⟨manifest, g, rfl, hother, hopen, hsuits⟩
      · rintro ⟨manifest', g, hmanifest, -, hopen, hsuits⟩
        cases hmanifest
        exact ⟨g, hopen, hsuits⟩

/-- The damaged generation goes out of the way; the rollback is another one. -/
theorem reachesFrom_isolate {reason : Text} :
    ReachesFrom env epoch root p (.isolate reason) ↔
      RollsBack root p.declared epoch p.representationId p.config.vectorDimension := by
  rw [reachesFrom_step hnone]
  simp only [mainStep]
  show ReachesFrom env epoch _ p (.pointer reason) ↔ _
  rw [reachesFrom_pointer hsteady hnone]
  have hrollback :
      (isolateGeneration env.renameOk env.nowMs p.declared root).rollback = root.rollback := by
    unfold isolateGeneration
    split
    · rfl
    · split <;> rfl
  have hopen : ∀ id, id ≠ p.declared →
      openGeneration (isolateGeneration env.renameOk env.nowMs p.declared root).generations id =
        openGeneration root.generations id := by
    intro id hid
    refine openGeneration_congr ?_
    unfold isolateGeneration
    split
    · rfl
    · split
      · rw [KeyedMap.find?_erase, if_neg hid]
      · rfl
  unfold RollsBack
  rw [hrollback]
  refine exists_congr fun manifest => exists_congr fun g => and_congr_right fun _ =>
    and_congr_right fun hne => ?_
  rw [hopen _ hne]

/-- A build from the facts is served. -/
theorem reachesFrom_build (hrefused : p.refused = none)
    (hruntime : p.representationId = representationId)
    (hdimension : p.config.vectorDimension = vectorDimension) :
    ReachesFrom env epoch root p .build ↔ Unbuilt env root := by
  obtain ⟨id, identity, hbuild, hid, hsuits⟩ := hsteady.build
  rw [reachesFrom_step hnone]
  show Reaches _ _ _ (stepBuild env root { p with main := .build }) ↔ _
  have hunbuilt : Unbuilt env root ↔
      root.generations.find? id = none ∧ root.staging.find? id = none := by
    constructor
    · rintro ⟨id', identity', hbuild', hfree⟩
      rw [hbuild] at hbuild'
      cases hbuild'
      exact hfree
    · exact fun hfree => ⟨id, identity, hbuild, hfree⟩
  rw [hunbuilt]
  unfold stepBuild
  simp only [hbuild]
  by_cases hfree : root.generations.find? id = none ∧ root.staging.find? id = none
  · rw [if_neg (not_or.mpr ⟨not_not.mpr hfree.1, not_not.mpr hfree.2⟩)]
    refine iff_of_true ?_ hfree
    show ReachesFrom env epoch _ p (.buildRename id identity)
    rw [reachesFrom_step hnone]
    simp only [mainStep, stepBuildRename, hsteady.gate, hsteady.rename, hfree.1, reduceCtorEq,
      ne_eq, not_true_eq_false, or_self, if_false]
    have hopen : openGeneration (root.generations.insert id ⟨id, identity, true, none⟩) id =
        some ⟨id, identity, hid⟩ := by
      rw [openGeneration, KeyedMap.find?_insert, if_pos rfl, Option.bind_some, Dir.open,
        dif_pos ⟨rfl, rfl, rfl, hid⟩]
    rw [hopen]
    refine (reachesFrom_serve hsteady hnone hrefused hopen).mpr ?_
    rw [hruntime, hdimension]
    exact hsuits
  · rw [if_pos ?_]
    · exact iff_of_false not_reaches_exit hfree
    · by_contra hnot
      obtain ⟨hgenerations, hstaging⟩ := not_or.mp hnot
      exact hfree ⟨not_not.mp hgenerations, not_not.mp hstaging⟩

theorem reachesFrom_load {manifest : Manifest} (hactive : root.active = .valid manifest)
    (hdeclared : p.declared = manifest.generationId) (hrefused : p.refused = none)
    (hruntime : p.representationId = representationId)
    (hdimension : p.config.vectorDimension = vectorDimension) :
    ReachesFrom env epoch root p .load ↔
      match openGeneration root.generations manifest.generationId with
      | some g =>
        if g.identity.storeEpoch = epoch then
          g.identity.Suits epoch representationId vectorDimension
        else Unbuilt env root
      | none => RollsBack root manifest.generationId epoch representationId vectorDimension := by
  obtain ⟨upper, hfacts⟩ := hsteady.facts
  rw [reachesFrom_step hnone, ← hdeclared, ← hruntime, ← hdimension]
  show Reaches _ _ _ (stepLoad env root { p with main := .load }) ↔ _
  unfold stepLoad
  simp only [hactive]
  cases hopen : openGeneration root.generations p.declared with
  | none =>
    simp only
    rw [if_pos (show (Pointer.valid manifest).generationId = some p.declared from
      congrArg some hdeclared.symm)]
    show ReachesFrom env epoch root p (.isolate env.fault) ↔ _
    exact reachesFrom_isolate hsteady hnone
  | some g =>
    have hname : g.generationId = p.declared := generationId_of_open hopen
    rw [← hname] at hopen
    simp only [hfacts]
    by_cases hepoch : g.identity.storeEpoch = epoch
    · rw [if_pos hepoch.symm, if_pos hepoch]
      show ReachesFrom env epoch root p (.serve (some g)) ↔ _
      exact reachesFrom_serve hsteady hnone hrefused hopen
    · rw [if_neg fun h => hepoch h.symm, if_neg hepoch]
      show ReachesFrom env epoch root p .build ↔ _
      exact reachesFrom_build hsteady hnone hrefused hruntime hdimension

end Start

/-- `os.makedirs` makes a checkpoint directory and nothing else. -/
theorem makeDelta_rest (root : Root) (id : Text) :
    (root.makeDelta id).active = root.active ∧ (root.makeDelta id).rollback = root.rollback ∧
      (root.makeDelta id).generations = root.generations ∧
      (root.makeDelta id).staging = root.staging := by
  unfold Root.makeDelta
  split <;> exact ⟨rfl, rfl, rfl, rfl⟩

/-- **The start over a root with a valid manifest.**  The daemon comes to serve the epoch of the
facts if and only if the root has what it takes. -/
theorem restarts_iff {config : Config} {env : Env} {epoch : Text} {root : Root}
    {manifest : Manifest} (hactive : root.active = .valid manifest)
    (hsteady : Undisturbed env epoch manifest.identity.representationId config.vectorDimension) :
    Restarts config env epoch root ↔ Survives config env epoch root manifest := by
  let p : Process := ⟨config, config.generationId, config.representationId,
    ⟨config.generationId, none⟩, none, .resolve, none, none, none⟩
  have hstart : Restarts config env epoch root ↔ ReachesFrom env epoch root p .resolve := Iff.rfl
  rw [hstart, reachesFrom_step rfl]
  show Reaches _ _ _ (stepResolve env root p) ↔ _
  unfold stepResolve Survives
  simp only [hactive]
  cases hrefuse : refuseLoadReason env.schema manifest with
  | some reason =>
    obtain ⟨-, hrollback, hgenerations, -⟩ := makeDelta_rest root config.generationId
    refine (reachesFrom_pointer hsteady (p := p) rfl).trans ?_
    unfold RollsBack
    rw [hrollback, hgenerations]
  | none =>
    obtain ⟨hactive', hrollback, hgenerations, hstaging⟩ :=
      makeDelta_rest root manifest.generationId
    refine (reachesFrom_load (p := { p with
      declared := manifest.generationId
      representationId := manifest.identity.representationId
      machine := ⟨manifest.generationId, none⟩ }) hsteady rfl (hactive'.trans hactive) rfl rfl rfl
      rfl).trans ?_
    unfold RollsBack Unbuilt
    rw [hrollback, hgenerations, hstaging]

/-! ## Runs with a valid manifest -/

/-- The active manifest is left as it is or replaced by a valid one. -/
def Renews (root root' : Root) : Prop :=
  root'.active = root.active ∨ ∃ manifest, root'.active = .valid manifest

theorem renews_goto {root root' : Root} {p : Process} (h : Renews root root') :
    Renews root (World.goto root' p main).root := h

/-- A refused recovery writes no manifest. -/
theorem renews_refuse (env : Env) (root : Root) (p : Process) (clearPointer : Bool)
    (reason : Text) : Renews root (refuseRecovery env root p clearPointer reason).root := by
  unfold refuseRecovery
  refine renews_goto (Or.inl ?_)
  split <;> rfl

/-- The start writes an active manifest only when it has recovered the rollback. -/
theorem renews_mainStep (env : Env) (root : Root) (p : Process) :
    Renews root (mainStep env root p).root := by
  have hsame : ∀ {root' : Root}, root'.active = root.active → Renews root root' := Or.inl
  unfold mainStep
  split
  · have hmake : ∀ id, (root.makeDelta id).active = root.active := fun id =>
      (makeDelta_rest root id).1
    unfold stepResolve
    simp only
    split
    · exact hsame (hmake _)
    · exact hsame (hmake _)
    · split <;> exact hsame (hmake _)
  · unfold stepLoad
    split
    · exact hsame rfl
    · split
      · split <;> exact hsame rfl
      · split
        · exact hsame rfl
        · exact hsame rfl
        · split <;> exact hsame rfl
  · rw [stepBuild_eq]
    split
    · exact hsame rfl
    · next hbegun => exact hsame (beginBuild_eq_some hbegun).2.2.2.1
  · unfold stepBuildRename
    split
    · exact hsame rfl
    · split
      · exact hsame rfl
      · simp only
        split <;> exact hsame rfl
  · refine renews_goto (hsame ?_)
    unfold isolateGeneration
    split
    · rfl
    · split <;> rfl
  · unfold stepPointer
    split
    · exact renews_refuse ..
    · exact renews_refuse ..
    · split
      · exact renews_refuse ..
      · exact hsame rfl
  · unfold stepOpenRollback
    split
    · exact renews_refuse ..
    · split
      · exact hsame rfl
      · exact renews_refuse ..
      · split
        · exact renews_refuse ..
        · split
          · exact renews_refuse ..
          · exact hsame rfl
  · next generation _ =>
    have hrefuse : ∀ root' : Root, root'.active = root.active →
        Renews root (refuseRecovery env root' p false
          (ascii "rollback catch-up failed: " ++ env.fault)).root := fun _ h => hsame h
    unfold stepCatchUp
    simp only
    split
    · exact hsame rfl
    · exact hrefuse root rfl
    all_goals
      refine hrefuse _ ?_
      split <;> rfl
  · unfold stepActivate
    simp only
    split
    · exact renews_refuse ..
    · exact renews_refuse ..
    · split
      · exact renews_refuse ..
      · exact Or.inr ⟨_, rfl⟩
      · exact Or.inr ⟨_, rfl⟩
  · refine renews_goto (hsame ?_)
    split <;> rfl
  · exact hsame rfl
  · next keep sweep _ =>
    have hswept := (sweepStep_pointers env.removal keep root sweep).1
    simp only
    split <;> exact hsame hswept
  · unfold stepServe
    split
    · exact hsame rfl
    · split
      · exact hsame rfl
      · split
        · exact hsame rfl
        · exact hsame rfl
        · split <;> exact hsame rfl
  · exact hsame rfl
  · next keep sweep _ =>
    have hswept := (sweepStep_pointers env.removal keep root sweep).1
    simp only
    split <;> exact hsame hswept
  · exact hsame rfl

/-- A publication writes an active manifest only at its commit point. -/
theorem renews_publishStep (env : Env) (p : Publishing) :
    Renews p.root (publishStep env p).root := by
  have hsame : ∀ {root' : Root}, root'.active = p.root.active → Renews p.root root' := Or.inl
  have hraised : ∀ at_, (reconcileRaised at_ p).root = p.root := fun at_ => by
    cases at_ <;> rfl
  unfold publishStep
  simp only
  split
  · unfold stepReconcile
    simp only
    split
    · split <;> exact hsame rfl
    · split
      · exact hsame rfl
      · exact hsame rfl
      · split <;> exact hsame rfl
  · unfold stepRestore
    split
    · exact hsame (congrArg Root.active (hraised _))
    · next root' hrestored =>
      have hactive : root'.active = p.root.active := by
        unfold restorePublished at hrestored
        split at hrestored
        · obtain ⟨moved, -, rfl⟩ := Option.map_eq_some_iff.mp hrestored
          rfl
        · cases hrestored
      simp only
      split
      · exact hsame hactive
      · next at_ _ _ _ =>
        cases at_ <;> exact hsame hactive
  · unfold stepSettle
    have hparked : (if p.call.parked = true ∧ env.unlinkOk = true then
        { p with root := { p.root with parked := p.root.parked.erase p.call.generationId } }
        else p).root.active = p.root.active := by
      split <;> rfl
    simp only
    split
    · split
      · exact hsame hparked
      · split <;> exact hsame hparked
    · split <;> exact hsame hparked
  · unfold stepFacts
    split <;> exact hsame rfl
  · unfold stepVerify
    split
    · exact hsame rfl
    · split
      · exact hsame rfl
      · split <;> exact hsame rfl
  · have hactive := (frame_parkProgress env p.call.stagingDir p.root).active
    split <;> exact hsame hactive
  · unfold stepDanceOpen
    split <;> exact hsame rfl
  · have hactive := (frame_restoreProgress env p.call.stagingDir p.root).active
    unfold stepDanceUnpark
    simp only
    split
    · exact hsame hactive
    · split <;> exact hsame hactive
  · exact hsame (frame_discard env ..).active
  · unfold stepFacts
    split <;> exact hsame rfl
  · unfold stepDelta
    simp only
    split
    · exact hsame rfl
    · exact hsame rfl
    all_goals split <;> exact hsame rfl
  · exact hsame (frame_publishBlock env ..).active
  · have hactive := (frame_parkProgress env p.call.generationId p.root).active
    split <;> exact hsame hactive
  · split
    · exact hsame rfl
    · next root' hrenamed =>
      refine hsame (?_ : root'.active = p.root.active)
      unfold renameContainer at hrenamed
      split at hrenamed
      · obtain ⟨moved, -, rfl⟩ := Option.map_eq_some_iff.mp hrenamed
        rfl
      · cases hrenamed
  · split <;> exact hsame rfl
  · unfold stepSchema
    split <;> exact hsame rfl
  · exact hsame (frame_registerRollback env ..).active
  · split <;> exact hsame rfl
  · unfold stepManifest
    simp only
    split
    · exact hsame rfl
    · exact Or.inr ⟨_, rfl⟩
    · exact Or.inr ⟨_, rfl⟩
  · split <;> exact hsame rfl
  · split <;> exact hsame rfl
  · unfold stepUndoRename
    split
    · exact hsame rfl
    · split
      · exact hsame rfl
      · next root' hrenamed =>
        refine hsame (?_ : root'.active = p.root.active)
        unfold renameBack at hrenamed
        split at hrenamed
        · obtain ⟨moved, -, rfl⟩ := Option.map_eq_some_iff.mp hrenamed
          rfl
        · cases hrenamed
  · split <;> exact hsame rfl
  · split
    · exact hsame (frame_restoreProgress env ..).active
    · exact hsame rfl
  · split <;> exact hsame rfl
  · exact hsame rfl
  · next keep sweep _ =>
    have hswept := (sweepStep_pointers env.removal keep p.root sweep).1
    split <;> exact hsame hswept
  · exact hsame rfl

/-- No step of the daemon takes the validity of the active manifest away. -/
theorem renews_step (w : World) (a : Action) : Renews w.root (Derived.step w a).root := by
  obtain ⟨root, process⟩ := w
  have hstay : Renews root root := Or.inl rfl
  cases process with
  | none => cases a <;> exact hstay
  | some p =>
    cases a with
    | start config => exact hstay
    | main env => exact renews_mainStep env root p
    | publish stagingDir generationId ready =>
      simp only [Derived.step]
      split <;> exact hstay
    | publisher env =>
      simp only [Derived.step]
      split
      · next c hc =>
        unfold publisherStep
        split
        · exact hstay
        · exact renews_publishStep env ⟨root, p.machine, c⟩
      · exact hstay
    | retrySwitch env =>
      simp only [Derived.step]
      split
      · unfold retrySwitch
        split
        · split
          · split <;> exact hstay
          · exact hstay
        · exact hstay
      · exact hstay
    | stage name dir =>
      simp only [Derived.step]
      split <;> exact hstay
    | crash => exact hstay

theorem active_rebuildStep (env : Env) (root : Root) (p : Process) (pc : RebuildPc) :
    (rebuildStep env root p pc).world.root.active = root.active := by
  cases pc with
  | drop pending =>
    have hdropped : ∀ ok id, (root.dropDelta ok id).active = root.active := fun ok id => by
      unfold Root.dropDelta
      split <;> rfl
    simp only [rebuildStep]
    split
    · exact hdropped _ _
    · exact hdropped _ _
    · exact hdropped _ _
    · rfl
  | openDeclared target =>
    simp only [rebuildStep]
    split
    · rfl
    · split <;> rfl
  | build =>
    simp only [rebuildStep]
    split
    · rfl
    · next hbegun => exact (beginBuild_eq_some hbegun).2.2.2.1
  | buildRename id identity =>
    have hend : (endBuild env root id identity).1.active = root.active := by
      unfold endBuild
      split <;> rfl
    simp only [rebuildStep]
    split
    · next hbuilt => exact (congrArg (fun built => Root.active built.1) hbuilt).symm.trans hend
    · next hbuilt => exact (congrArg (fun built => Root.active built.1) hbuilt).symm.trans hend
  | publish generation =>
    have hmake := (makeDelta_rest root generation.generationId).1
    simp only [rebuildStep]
    split
    · rfl
    · split <;> exact hmake
  | clearRollback generation =>
    simp only [rebuildStep, Rebuilding.goto]
    split <;> rfl
  | sweepRead generation => rfl
  | sweep generation keep sweep =>
    have hswept := (sweepStep_pointers env.removal keep root sweep).1
    simp only [rebuildStep]
    split <;> exact hswept

/-- **A valid active manifest stays one.**  Over every run of the daemon and its rebuilds the active
manifest is valid at the end if it was at the beginning. -/
theorem valid_run {s : Rebuilding} (h : ∃ manifest, s.world.root.active = .valid manifest)
    (acts : List RebuildAction) :
    ∃ manifest, (run Rebuilding.step s acts).world.root.active = .valid manifest := by
  refine run_invariant (I := fun s : Rebuilding =>
    ∃ manifest, s.world.root.active = .valid manifest) (fun s a hvalid => ?_) h acts
  have hrenews : Renews s.world.root (s.step a).world.root := by
    cases a with
    | daemon a =>
      have hroot : (s.step (.daemon a)).world.root =
          (Derived.step s.world (if s.rebuild = none then a else a.unswitched)).root := by
        simp only [Rebuilding.step]
        split <;> rfl
      rw [hroot]
      exact renews_step _ _
    | enter pending =>
      simp only [Rebuilding.step]
      split
      · split <;> exact Or.inl rfl
      · exact Or.inl rfl
    | rebuild env =>
      simp only [Rebuilding.step]
      split
      · exact Or.inl (active_rebuildStep ..)
      · exact Or.inl rfl
  rcases hrenews with hsame | hnew
  · rw [hsame]
    exact hvalid
  · exact hnew

/-! ## What the rebuild leaves -/

/-- What the rebuild of the generation `id` knows at its places, when nothing else is at work. -/
def SupersededAt (epoch id : Text) (root : Root) (p : Process) : Option RebuildPc → Prop
  | some (.drop pending) => pending = none ∧ p.machine.served = none
  | some (.openDeclared target) => target = some epoch ∧ p.machine.served = none
  | some .build => p.machine.served = none
  | some (.buildRename built _) => built = id ∧ p.machine.served = none
  | some (.publish g) =>
    g.generationId = id ∧ p.machine.served = none ∧ root.generations.find? id ≠ none
  | some (.clearRollback g) => g.generationId = id ∧ root.generations.find? id ≠ none
  | some (.sweepRead g) =>
    g.generationId = id ∧ root.generations.find? id ≠ none ∧ root.rollback = .absent
  | some (.sweep _ keep _) =>
    keep.active = some id ∧ root.generations.find? id ≠ none ∧ root.rollback = .absent
  | none =>
    p.machine.served ≠ none → root.generations.find? id ≠ none ∧ root.rollback = .absent

/-- The root after a rebuild of the generation `id` that superseded what the manifest names. -/
structure Superseded (manifest : Manifest) (epoch id : Text) (s : Rebuilding) : Prop where
  active : s.world.root.active = .valid manifest
  old : ∀ g, openGeneration s.world.root.generations manifest.generationId = some g →
    g.identity.storeEpoch ≠ epoch
  process : ∀ p, s.world.process = some p →
    p.declared = manifest.generationId ∧ SupersededAt epoch id s.world.root p s.rebuild

/-- Taking a directory away or damaging one opens nothing. -/
theorem open_of_removeTree {dirs : KeyedMap Text Dir} {name id : Text} (h : openGeneration (removeTree removal dirs name) id = some g) :
    openGeneration dirs id = some g := by
  by_cases hid : id = name
  · subst hid
    unfold removeTree at h
    split at h
    · rw [openGeneration, KeyedMap.find?_erase, if_pos rfl] at h
      cases h
    · next d hd =>
      rw [openGeneration, KeyedMap.find?_insert, if_pos rfl, Option.bind_some, Dir.open,
        dif_neg fun hopen => by cases hopen.2.1] at h
      cases h
    · exact h
  · rwa [openGeneration_congr (find?_removeTree_of_ne removal hid)] at h

theorem open_of_sweepStep {root : Root} {id : Text}
    (h : openGeneration (sweepStep removal keep root sweep).1.generations id = some g) :
    openGeneration root.generations id = some g := by
  unfold sweepStep at h
  split at h <;> try split at h
  all_goals first | exact h | exact open_of_removeTree h

/-- A sweep leaves a kept generation's directory alone. -/
theorem find?_of_kept {root : Root} {id : Text} (hid : id ≠ []) (hkeep : keep.active = some id) :
    (sweepStep removal keep root sweep).1.generations.find? id = root.generations.find? id := by
  rcases sweepStep_generations removal keep root sweep id with hsame | ⟨-, hout⟩
  · exact hsame
  · exact absurd ((mem_keep_generations hid).mpr (Or.inl hkeep)) hout

section Alone

variable {manifest : Manifest} {epoch id : Text} {s : Rebuilding} {env : Env} {root : Root}
  {p : Process}

/-- The rebuild goes on, or its cycle is over. -/
theorem Superseded.next {s' : Rebuilding} (h : Superseded manifest epoch id s)
    (hprocess : s'.world.process = some p) (hdeclared : p.declared = manifest.generationId)
    (hactive : s'.world.root.active = s.world.root.active)
    (hopen : ∀ g, openGeneration s'.world.root.generations manifest.generationId = some g →
      openGeneration s.world.root.generations manifest.generationId = some g)
    (hat : SupersededAt epoch id s'.world.root p s'.rebuild) : Superseded manifest epoch id s' where
  active := hactive.trans h.active
  old := fun g hg => h.old g (hopen g hg)
  process := fun p' hp' => by
    rw [hprocess] at hp'
    cases hp'
    exact ⟨hdeclared, hat⟩

/-- One place of a rebuild that nothing disturbs, over facts of another epoch. -/
theorem superseded_step (h : Superseded manifest epoch id s) (hid : id ≠ [])
    (hother : id ≠ manifest.generationId) (hfacts : ∃ upper, env.facts = .found epoch upper)
    (hbuild : env.build = some (id, identity)) (hunlink : env.unlinkOk = true) :
    Superseded manifest epoch id (s.step (.rebuild env)) := by
  obtain ⟨upper, hfacts⟩ := hfacts
  obtain ⟨⟨root, process⟩, rebuild⟩ := s
  cases process with
  | none => exact h
  | some p =>
    obtain ⟨hdeclared, hat⟩ := h.process p rfl
    cases rebuild with
    | none => exact h
    | some pc =>
      show Superseded manifest epoch id (rebuildStep env root p pc)
      cases pc with
      | drop pending =>
        obtain ⟨rfl, hnone⟩ := hat
        have hdropped : (root.dropDelta env.unlinkOk p.machine.checkpoint).active = root.active ∧
            (root.dropDelta env.unlinkOk p.machine.checkpoint).generations =
              root.generations := by
          unfold Root.dropDelta
          split <;> exact ⟨rfl, rfl⟩
        simp only [rebuildStep, hfacts]
        refine h.next rfl hdeclared hdropped.1 (fun g hg => ?_) ⟨rfl, hnone⟩
        exact (congrArg (openGeneration · manifest.generationId) hdropped.2).symm.trans hg
      | openDeclared target =>
        obtain ⟨rfl, hnone⟩ := hat
        simp only [rebuildStep, hdeclared]
        split
        · exact h.next rfl hdeclared rfl (fun _ hg => hg) hnone
        · next g hg =>
          rw [if_pos ⟨epoch, rfl, h.old g hg⟩]
          exact h.next rfl hdeclared rfl (fun _ hg => hg) hnone
      | build =>
        simp only [rebuildStep]
        split
        · exact h.next rfl hdeclared rfl (fun _ hg => hg) fun hserved => absurd hat hserved
        · next hbegun =>
          obtain ⟨hbuilt, -, -, hactive, -, hgenerations⟩ := beginBuild_eq_some hbegun
          rw [hbuild] at hbuilt
          cases hbuilt
          refine h.next rfl hdeclared hactive (fun g hg => ?_) ⟨rfl, hat⟩
          exact (congrArg (openGeneration · manifest.generationId) hgenerations).symm.trans hg
      | buildRename built identity' =>
        obtain ⟨rfl, hnone⟩ := hat
        simp only [rebuildStep, endBuild]
        split
        · next hended =>
          split at hended
          · cases hended
            exact h.next rfl hdeclared rfl (fun _ hg => hg) fun hserved => absurd hnone hserved
          · obtain ⟨hroot, hclosed⟩ := Prod.mk.inj hended
            rw [openGeneration, KeyedMap.find?_insert, if_pos rfl, Option.bind_some, Dir.open,
              dif_pos ⟨rfl, rfl, rfl, hid⟩] at hclosed
            cases hclosed
        · next g hended =>
          split at hended
          · cases hended
          · obtain ⟨hroot, hopened⟩ := Prod.mk.inj hended
            subst hroot
            refine h.next rfl hdeclared rfl (fun g hg => ?_)
              ⟨generationId_of_open hopened, hnone, ?_⟩
            · refine (openGeneration_congr ?_).symm.trans hg
              exact (KeyedMap.find?_insert ..).trans (if_neg hother.symm)
            · show KeyedMap.find? (root.generations.insert built _) built ≠ none
              rw [KeyedMap.find?_insert, if_pos rfl]
              exact Option.some_ne_none _
      | publish g =>
        obtain ⟨hg, hnone, hthere⟩ := hat
        obtain ⟨hactive, -, hgenerations, -⟩ := makeDelta_rest root g.generationId
        have hopen : ∀ g',
            openGeneration (root.makeDelta g.generationId).generations manifest.generationId =
                some g' →
              openGeneration root.generations manifest.generationId = some g' := fun g' hg' => by
          rwa [hgenerations] at hg'
        have hthere' : (root.makeDelta g.generationId).generations.find? id ≠ none := by
          rwa [hgenerations]
        simp only [rebuildStep, hfacts, reduceCtorEq, if_false]
        split
        · exact h.next rfl hdeclared hactive hopen ⟨hg, hthere'⟩
        · exact h.next rfl hdeclared hactive hopen fun hserved => absurd hnone hserved
      | clearRollback g =>
        obtain ⟨hg, hthere⟩ := hat
        simp only [rebuildStep, hunlink, if_true]
        exact h.next rfl hdeclared rfl (fun _ hg => hg) ⟨hg, hthere, rfl⟩
      | sweepRead g =>
        obtain ⟨hg, hthere, hrollback⟩ := hat
        exact h.next rfl hdeclared rfl (fun _ hg => hg) ⟨congrArg some hg, hthere, hrollback⟩
      | sweep g keep sweep =>
        obtain ⟨hkeep, hthere, hrollback⟩ := hat
        have hpointers := sweepStep_pointers env.removal keep root sweep
        have hthere' :
            (sweepStep env.removal keep root sweep).1.generations.find? id ≠ none := by
          rwa [find?_of_kept hid hkeep]
        have hrollback' : (sweepStep env.removal keep root sweep).1.rollback = .absent :=
          hpointers.2.trans hrollback
        simp only [rebuildStep]
        split
        · exact h.next rfl hdeclared hpointers.1 (fun _ hg => open_of_sweepStep hg)
            ⟨hkeep, hthere', hrollback'⟩
        · exact h.next rfl hdeclared hpointers.1 (fun _ hg => open_of_sweepStep hg)
            fun _ => ⟨hthere', hrollback'⟩

end Alone

/-- **A rebuild forgets what the manifest names.**  The delta machine rebuilds after an epoch
change, beside nothing else, and serves the new generation.  No daemon that is started then over the
same facts comes to serve them. -/
theorem rebuild_forgets {root root' : Root} {p p' : Process} {manifest : Manifest}
    {epoch id : Text} {envs : List Env}
    (hactive : root.active = .valid manifest) (hdeclared : p.declared = manifest.generationId)
    (hold : ∀ g, openGeneration root.generations manifest.generationId = some g →
      g.identity.storeEpoch ≠ epoch)
    (hid : id ≠ []) (hother : id ≠ manifest.generationId)
    (henvs : ∀ env ∈ envs, (∃ upper, env.facts = .found epoch upper) ∧
      env.build = some (id, identity) ∧ env.unlinkOk = true)
    (hrun : run Rebuilding.step
      (.goto root { p with machine := { p.machine with served := none } } (.drop none))
      (envs.map .rebuild) = .leave root' p')
    (hserved : p'.machine.served ≠ none) {config : Config} {env : Env}
    (hsteady : Undisturbed env epoch manifest.identity.representationId config.vectorDimension)
    (hbuild : env.build = some (id, identity)) (hvalid : refuseLoadReason env.schema manifest = none) :
    ¬ Restarts config env epoch root' := by
  have hbegin : Superseded manifest epoch id
      (.goto root { p with machine := { p.machine with served := none } } (.drop none)) :=
    ⟨hactive, hold, fun p' hp' => by cases hp'; exact ⟨hdeclared, rfl, rfl⟩⟩
  have hend := run_invariant_along (I := Superseded manifest epoch id)
    (P := fun (_ : Rebuilding) a => ∃ env ∈ envs, a = RebuildAction.rebuild env)
    (fun s a ha hs => by
      obtain ⟨e, he, rfl⟩ := ha
      obtain ⟨hfacts, hbuild, hunlink⟩ := henvs e he
      exact superseded_step hs hid hother hfacts hbuild hunlink)
    hbegin
    (along_of_mem (Q := fun a => ∃ env ∈ envs, a = RebuildAction.rebuild env) (fun a ha => by
      obtain ⟨e, he, ha⟩ := List.mem_map.mp ha
      exact ⟨e, he, ha.symm⟩) _)
  rw [hrun] at hend
  obtain ⟨-, hat⟩ := hend.process p' rfl
  obtain ⟨hthere, hrollback⟩ := hat hserved
  have hactive' : root'.active = .valid manifest := hend.active
  rw [restarts_iff hactive' hsteady]
  unfold Survives
  rw [hvalid]
  simp only
  split
  · next g hg =>
    rw [if_neg (hend.old g hg)]
    rintro ⟨id', identity', hbuild', hfree, -⟩
    rw [hbuild] at hbuild'
    cases hbuild'
    exact hthere hfree
  · rintro ⟨rollback, g, hvalid, -⟩
    cases hrollback.symm.trans hvalid

/-! ## Restarts -/

/-- **When an epoch rebuild survives a restart.**  Over every run of the daemon and its rebuilds from
a state with a valid active manifest the manifest is valid at the end, and a start over the root
comes to serve the epoch of the facts if and only if the root has what it takes. -/
theorem rebuild_restart {s : Rebuilding}
    (hactive : ∃ manifest, s.world.root.active = .valid manifest) (acts : List RebuildAction) :
    let root := (run Rebuilding.step s acts).world.root
    ∃ manifest, root.active = .valid manifest ∧ ∀ config env epoch,
      Undisturbed env epoch manifest.identity.representationId config.vectorDimension →
        (Restarts config env epoch root ↔ Survives config env epoch root manifest) := by
  obtain ⟨manifest, hvalid⟩ := valid_run hactive acts
  exact ⟨manifest, hvalid, fun config env epoch hsteady => restarts_iff hvalid hsteady⟩

/-! ### A rebuild -/

/-- The identity of the sample root's facts after the change of their epoch. -/
def rebuiltIdentity : Identity := { sampleIdentity with storeEpoch := ascii "later" }

/-- The facts of the later epoch, and what is built of them. -/
def laterEnv : Env where
  facts := .found (ascii "later") (hlc 3 0)
  build := some (ascii "m", rebuiltIdentity)

/-- The start over the sample root, and a rebuild. -/
def sampleRebuild : List RebuildAction :=
  (sampleStart ++ List.replicate 10 (Action.main sampleEnv)).map RebuildAction.daemon ++
    .enter none :: List.replicate 20 (.rebuild laterEnv)

theorem undisturbed_laterEnv :
    Undisturbed laterEnv (ascii "later") (ascii "model") sampleConfig.vectorDimension where
  rename := rfl
  gate := rfl
  commits := rfl
  write := rfl
  delta := rfl
  schema := ⟨_, _, rfl⟩
  facts := ⟨_, rfl⟩
  build := ⟨_, _, rfl, by decide, rfl, rfl, rfl⟩

theorem rebuild_restart_sample :
    let root := (run Rebuilding.step ⟨⟨sampleRoot, none⟩, none⟩ sampleRebuild).world.root
    ∃ manifest, root.active = .valid manifest ∧ ∀ config env epoch,
      Undisturbed env epoch manifest.identity.representationId config.vectorDimension →
        (Restarts config env epoch root ↔ Survives config env epoch root manifest) :=
  rebuild_restart ⟨_, rfl⟩ sampleRebuild

/-- A process over the sample root that serves nothing. -/
def sampleProcess : Process where
  config := sampleConfig
  declared := ascii "a"
  representationId := ascii "model"
  machine := ⟨ascii "a", none⟩

/-- `rebuild_forgets` of a rebuild over the sample root. -/
theorem rebuild_forgets_sample :
    ¬ Restarts sampleConfig laterEnv (ascii "later") (run Rebuilding.step
      (.goto sampleRoot sampleProcess (.drop none))
      ((List.replicate 20 laterEnv).map .rebuild)).world.root := by
  generalize hr : run Rebuilding.step (.goto sampleRoot sampleProcess (.drop none))
    ((List.replicate 20 laterEnv).map .rebuild) = r
  have hend : r.rebuild = none ∧
      r.world.process.map (·.machine.served) = some (some (ascii "m")) := by
    rw [← hr]
    exact ⟨rfl, rfl⟩
  obtain ⟨p, hp, hserved⟩ := Option.map_eq_some_iff.mp hend.2
  have hleave : r = .leave r.world.root p := by
    rw [Rebuilding.leave, ← hp, ← hend.1]
  refine @rebuild_forgets _ sampleRoot _ sampleProcess p _ _ (ascii "m") _ rfl rfl
    (fun g hg => ?_) (by decide) (by decide) (fun env henv => ?_) (hr.trans hleave) ?_ _ _
    undisturbed_laterEnv rfl (by decide +kernel)
  · cases hg.symm.trans (rfl : _ = some (⟨ascii "a", sampleIdentity, by decide⟩ : Generation))
    decide
  · rw [List.eq_of_mem_replicate henv]
    exact ⟨⟨_, rfl⟩, rfl, rfl⟩
  · rw [hserved]
    exact Option.some_ne_none _

/-- **A rebuild that has been served and is refused by the next start.**  The manifest names the
generation of the earlier epoch, which the rebuild's sweep has taken away with the rollback
pointer. -/
theorem rebuild_refused :
    ¬ ∀ (s : Rebuilding) (acts : List RebuildAction) (epoch : Text),
      (∃ manifest, s.world.root.active = .valid manifest) →
      (run Rebuilding.step s acts).rebuild = none →
      Answers epoch (run Rebuilding.step s acts).world →
      ∀ manifest config env, (run Rebuilding.step s acts).world.root.active = .valid manifest →
        Undisturbed env epoch manifest.identity.representationId config.vectorDimension →
          Restarts config env epoch (run Rebuilding.step s acts).world.root := fun h => by
  let s : Rebuilding := ⟨⟨sampleRoot, none⟩, none⟩
  let built : Generation := ⟨ascii "m", rebuiltIdentity, by decide⟩
  have hserves : Answers (ascii "later") (run Rebuilding.step s sampleRebuild).world := by
    have hprocess : (run Rebuilding.step s sampleRebuild).world.process.map
        (fun p => (p.refused, p.machine.served)) = some (none, some (ascii "m")) := by
      decide +kernel
    obtain ⟨p, hp, hpair⟩ := Option.map_eq_some_iff.mp hprocess
    obtain ⟨hrefused, hserved⟩ := Prod.mk.inj hpair
    exact ⟨p, built, hp, hrefused, hserved, by decide +kernel, rfl⟩
  have hactive : (run Rebuilding.step s sampleRebuild).world.root.active =
      .valid (sampleManifest (ascii "a") (by decide)) := by decide +kernel
  have hrestarts := h s sampleRebuild (ascii "later") ⟨_, rfl⟩ (by decide +kernel) hserves _
    sampleConfig laterEnv hactive undisturbed_laterEnv
  rw [restarts_iff hactive undisturbed_laterEnv] at hrestarts
  have hgone : openGeneration (run Rebuilding.step s sampleRebuild).world.root.generations
      (ascii "a") = none := by decide +kernel
  have hrollback : (run Rebuilding.step s sampleRebuild).world.root.rollback = .absent := by
    decide +kernel
  have hvalid : refuseLoadReason laterEnv.schema (sampleManifest (ascii "a") (by decide)) = none :=
    by decide +kernel
  unfold Survives at hrestarts
  rw [hvalid] at hrestarts
  simp only [sampleManifest] at hrestarts
  rw [hgone] at hrestarts
  obtain ⟨rollback, g, hpointer, -⟩ := hrestarts
  cases hrollback.symm.trans hpointer

end Derived
end SemanticMemory
