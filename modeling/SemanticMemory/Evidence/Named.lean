import SemanticMemory.Evidence.System

/-!
# One representation for a generation id

A generation id is a hash of the identity it is built for, the representation among it.  `ρ` gives
the representation of an id.  Whatever the worker, the publisher and restarts do, the generations on
disk, the rows of the checkpoint at their path, and the machine that serves them are of the
representation their id names (`DiskNamed`, `MachineNamed`), and so is every vector of a snapshot
(`SnapshotOf`).

The parts follow the delta machine: snapshots, generations, the checkpoint, startup, the worker, the
publisher.
-/

namespace SemanticMemory
namespace Evidence

open FactStore Delta

/-- Everything a snapshot computes with is of one representation. -/
structure SnapshotOf (R : Text) (s : DeltaSnapshot) : Prop where
  representation : s.representationId = R
  provider : s.queryProvider.representationId = R
  vectors : ∀ v ∈ s.vectors, v.2 = R

/-- The disk, as the ids name it. -/
structure DiskNamed (ρ : Text → Text) (w : Delta.World) : Prop where
  generations : ∀ g ∈ w.generations, g.representationId = ρ g.generationId
  files : ∀ path, ∀ v ∈ (w.checkpoints path).vectors, v.2 = ρ path

/-- A machine that serves one representation. -/
structure MachineNamed (ρ : Text → Text) (m : Machine) : Prop where
  declared : ρ m.declaredGenerationId = m.provider.representationId
  path : ρ m.deltaPath = m.provider.representationId
  generation : ∀ g, m.generation = some g → g.representationId = m.provider.representationId
  vectors : ∀ v ∈ m.deltaVectors, v.2 = m.provider.representationId
  snapshot : ∀ s, m.snapshot = some s → SnapshotOf m.provider.representationId s

variable {ρ : Text → Text} {w : Delta.World}

/-! ## Snapshots -/

variable {generation : Generation}

theorem buildSnapshot_of {R : Text} {provider : Provider} {baseCommits : List (Text × Text)}
    {changes : Changes} {deltaVectors : List (Text × Text)} {s : DeltaSnapshot}
    (h : buildSnapshot generation provider baseCommits changes deltaVectors = some s)
    (hg : generation.representationId = R) (hp : provider.representationId = R)
    (hv : ∀ v ∈ deltaVectors, v.2 = R) : SnapshotOf R s := by
  obtain ⟨items, -, rfl⟩ := Option.map_eq_some_iff.mp h
  refine ⟨hg, hp, fun v hmem => ?_⟩
  obtain ⟨event, -, hevent⟩ := List.mem_filterMap.mp hmem
  obtain ⟨vector, hvector, rfl⟩ := Option.map_eq_some_iff.mp hevent
  unfold sourceVector at hvector
  split at hvector
  · rename_i entry hfind
    obtain rfl := Option.some.inj hvector
    exact hv entry (List.mem_of_find?_eq_some hfind)
  · split at hvector
    · obtain rfl := Option.some.inj hvector
      exact hg
    · cases hvector

variable {m : Machine}

theorem MachineNamed.project (h : MachineNamed ρ m) {s : DeltaSnapshot} (hs : m.project = some s) :
    SnapshotOf m.provider.representationId s := by
  unfold Machine.project at hs
  split at hs
  · rename_i g c hg hc
    exact buildSnapshot_of hs (h.generation g hg) rfl h.vectors
  · cases hs

/-- Fields that the names do not look at. -/
theorem MachineNamed.congr {m m' : Machine} (h : MachineNamed ρ m)
    (hdeclared : m'.declaredGenerationId = m.declaredGenerationId)
    (hprovider : m'.provider = m.provider) (hpath : m'.deltaPath = m.deltaPath)
    (hgen : m'.generation = m.generation) (hvectors : ∀ v ∈ m'.deltaVectors, v ∈ m.deltaVectors)
    (hsnap : ∀ s, m'.snapshot = some s → SnapshotOf m.provider.representationId s) :
    MachineNamed ρ m' where
  declared := by rw [hdeclared, hprovider]; exact h.declared
  path := by rw [hpath, hprovider]; exact h.path
  generation g hg := by rw [hprovider]; exact h.generation g (hgen ▸ hg)
  vectors v hv := by rw [hprovider]; exact h.vectors v (hvectors v hv)
  snapshot s hs := by rw [hprovider]; exact hsnap s hs

theorem MachineNamed.publishOrClose (h : MachineNamed ρ m) : MachineNamed ρ m.publishOrClose := by
  unfold Machine.publishOrClose
  split
  · rename_i s hs
    exact h.congr rfl rfl rfl rfl (fun _ hv => hv)
      fun s' hs' => Option.some.inj hs' ▸ h.project hs
  · exact h.congr rfl rfl rfl rfl (fun _ hv => hv) h.snapshot

/-! ## The disk -/

theorem DiskNamed.setMachine (h : DiskNamed ρ w) (m : Machine) : DiskNamed ρ (w.setMachine m) :=
  ⟨h.generations, h.files⟩

variable {f : CheckpointFile}

theorem DiskNamed.update (h : DiskNamed ρ w) {path : Text} (hf : ∀ v ∈ f.vectors, v.2 = ρ path) :
    DiskNamed ρ { w with checkpoints := Function.update w.checkpoints path f } where
  generations := h.generations
  files p := by
    show ∀ v ∈ (Function.update w.checkpoints path f p).vectors, v.2 = ρ p
    by_cases hp : p = path
    · rw [hp, Function.update_self]
      exact hf
    · rw [Function.update_of_ne hp]
      exact h.files p

theorem DiskNamed.setCheckpoint (h : DiskNamed ρ w)
    (hf : ∀ v ∈ f.vectors, v.2 = ρ w.machine.deltaPath) : DiskNamed ρ (w.setCheckpoint f) :=
  h.update hf

theorem DiskNamed.dropCheckpoint (h : DiskNamed ρ w) (ok : Bool) :
    DiskNamed ρ (w.dropCheckpoint ok) := by
  unfold Delta.World.dropCheckpoint
  split
  · exact h.setCheckpoint (by simp [CheckpointFile.vectors])
  · exact h

/-- The rows a batch adds to a file. -/
theorem insertChanges_vectors {representationId : Text} {seq seq' : ℤ} {merged : List Change}
    {f f' : CheckpointFile} (h : insertChanges representationId seq merged f = some (f', seq'))
    {R : Text} (hr : representationId = R) (hf : ∀ v ∈ f.vectors, v.2 = R) :
    ∀ v ∈ f'.vectors, v.2 = R := by
  have hiff : ∀ g : CheckpointFile, (∀ v ∈ g.vectors, v.2 = R) ↔
      ∀ r ∈ g.deltaEvents, r.vector = R := fun g => by
    simp only [CheckpointFile.vectors, List.forall_mem_map]
    exact forall_congr' fun r => imp_congr_left (List.perm_insertionSort _ _).mem_iff
  rw [hiff] at hf ⊢
  induction merged generalizing seq f with
  | nil =>
    cases h
    exact hf
  | cons change merged ih =>
    rw [insertChanges] at h
    split at h
    · cases h
    · rename_i f₁ hone
      refine ih h fun r hmem => ?_
      cases change with
      | event event =>
        rw [insertChange] at hone
        split at hone
        · cases hone
        · cases hone
          rcases List.mem_append.mp hmem with hmem | hmem
          · exact hf r hmem
          · obtain rfl := List.mem_singleton.mp hmem
            exact hr
      | retraction tombstone =>
        rw [insertChange] at hone
        split at hone
        · cases hone
        · cases hone
          exact hf r hmem

theorem writeBatch_vectors {representationId factsEpoch : Text} {upper : Hlc} {seq seq' : ℤ}
    {merged : List Change} {f f' : CheckpointFile}
    (h : writeBatch generation representationId factsEpoch upper seq merged f = some (f', seq'))
    {R : Text} (hr : representationId = R) (hf : ∀ v ∈ f.vectors, v.2 = R) :
    ∀ v ∈ f'.vectors, v.2 = R := by
  obtain ⟨⟨f₁, seq₁⟩, hins, heq⟩ := Option.map_eq_some_iff.mp h
  obtain ⟨rfl, -⟩ := Prod.mk.inj heq
  exact insertChanges_vectors hins hr hf

theorem openDeltaCheckpoint_vectors {readable : Bool} {representationId : Text} {db : Db} {loaded : Loaded}
    (h : openDeltaCheckpoint readable f generation representationId db = some loaded) :
    loaded.vectors = f.vectors := by
  unfold openDeltaCheckpoint at h
  split at h
  · split at h
    · cases h
      rfl
    · cases h
  · cases h

/-! ## Generations -/

/-- What opening or building a generation leaves alone, and whose it is. -/
structure OpenedNamed (ρ : Text → Text) (provider : Provider) (w w' : Delta.World)
    (result : Except BuildEnd Generation) : Prop where
  disk : DiskNamed ρ w'
  facts : w'.facts = w.facts
  checkpoints : w'.checkpoints = w.checkpoints
  result : ∀ g, result = .ok g → g.representationId = provider.representationId ∧
    ρ g.generationId = provider.representationId

theorem buildGeneration_named (h : DiskNamed ρ w) (env : GenerationEnv) (provider : Provider)
    (hnew : ρ env.newId = provider.representationId) :
    OpenedNamed ρ provider w (buildGeneration env provider w).1
      (buildGeneration env provider w).2 := by
  unfold buildGeneration
  split
  · exact ⟨h, rfl, rfl, nofun⟩
  · split
    · exact ⟨h, rfl, rfl, nofun⟩
    · split
      · exact ⟨h, rfl, rfl, nofun⟩
      · split
        · exact ⟨h, rfl, rfl, nofun⟩
        · refine ⟨⟨fun g hg => ?_, h.files⟩, rfl, rfl, fun g hg => Except.ok.inj hg ▸ ⟨rfl, hnew⟩⟩
          rcases List.mem_append.mp hg with hg | hg
          · exact h.generations g hg
          · obtain rfl := List.mem_singleton.mp hg
            exact hnew.symm

theorem openDeclared_mem {env : GenerationEnv} {id : Text} {g : Generation}
    (h : openDeclared env w id = some g) : g ∈ w.generations ∧ g.generationId = id := by
  unfold openDeclared at h
  split at h
  · exact ⟨List.mem_of_find?_eq_some h, by simpa using List.find?_some h⟩
  · cases h

theorem openOrBuild_named (h : DiskNamed ρ w) (env : GenerationEnv) (provider : Provider)
    {declared : Text} (hdeclared : ρ declared = provider.representationId)
    (hnew : ρ env.newId = provider.representationId) :
    OpenedNamed ρ provider w (openOrBuild env provider declared w).1
      (openOrBuild env provider declared w).2 := by
  unfold openOrBuild
  split
  · rename_i g factsEpoch factsMax hopen hid
    split
    · refine ⟨h, rfl, rfl, fun g' hg' => ?_⟩
      obtain rfl := Except.ok.inj hg'
      obtain ⟨hmem, hid⟩ := openDeclared_mem hopen
      rw [h.generations g hmem, hid]
      exact ⟨hdeclared, hdeclared⟩
    · exact buildGeneration_named h env provider hnew
  · exact ⟨h, rfl, rfl, nofun⟩
  · exact buildGeneration_named h env provider hnew

/-! ## Startup -/

theorem machineNamed_bare (hdeclared : ρ m.declaredGenerationId = m.provider.representationId)
    (hpath : ρ m.deltaPath = m.provider.representationId)
    (hgen : ∀ g, m.generation = some g → g.representationId = m.provider.representationId)
    (hvectors : m.deltaVectors = []) (hsnap : m.snapshot = none) : MachineNamed ρ m :=
  ⟨hdeclared, hpath, hgen, by simp [hvectors], by simp [hsnap]⟩

theorem MachineNamed.setMirror (h : MachineNamed ρ m) (changes : Changes)
    {vectors : List (Text × Text)} (hv : ∀ v ∈ vectors, v.2 = m.provider.representationId) :
    MachineNamed ρ (m.setMirror changes vectors) :=
  ⟨h.declared, h.path, h.generation, hv, h.snapshot⟩

theorem loadCheckpoint_named (h : DiskNamed ρ w) (env : StartEnv)
    (hgen : generation.representationId = m.provider.representationId) (hm : MachineNamed ρ m) :
    DiskNamed ρ (loadCheckpoint env generation m w) ∧
      MachineNamed ρ (loadCheckpoint env generation m w).machine ∧
      (loadCheckpoint env generation m w).facts = w.facts := by
  set m' : Machine :=
    { m with
      generation := some generation
      baseCommits := readBaseCommitIds w.db generation.sourceHlc } with hm'
  have hnamed : MachineNamed ρ m' :=
    ⟨hm.declared, hm.path, fun g hg => Option.some.inj hg ▸ hgen, hm.vectors, hm.snapshot⟩
  have hdisk : DiskNamed ρ (w.setMachine m') := h.setMachine m'
  have hbase : ∀ changes : Changes, DiskNamed ρ (((w.setMachine m').dropCheckpoint
      env.dropOk).setMachine (m'.setMirror changes []).publishOrClose) ∧
      MachineNamed ρ (m'.setMirror changes []).publishOrClose ∧
      ((w.setMachine m').dropCheckpoint env.dropOk).facts = w.facts := fun changes =>
    ⟨(hdisk.dropCheckpoint env.dropOk).setMachine _,
      (hnamed.setMirror changes (by simp)).publishOrClose, dropCheckpoint_facts _ _⟩
  unfold loadCheckpoint
  simp only
  split
  · exact hbase _
  · rename_i loaded hload
    have hv : ∀ v ∈ loaded.vectors, v.2 = m'.provider.representationId := by
      rw [openDeltaCheckpoint_vectors hload]
      exact fun v hv => (h.files m'.deltaPath v hv).trans hnamed.path
    have hserved := (hnamed.setMirror loaded.changes hv).publishOrClose
    split
    · exact ⟨hdisk.setMachine _,
        hserved.congr rfl rfl rfl rfl (fun _ hv => hv) hserved.snapshot, rfl⟩
    · split
      · exact ⟨hdisk.setMachine _, hserved, rfl⟩
      · split
        · exact ⟨hdisk.setMachine _,
            hserved.congr rfl rfl rfl rfl (fun _ hv => hv) hserved.snapshot, rfl⟩
        · split
          · exact ⟨hdisk.setMachine _, hserved, rfl⟩
          · exact hbase _

/-- **A process that starts on a named disk serves its own representation.** -/
theorem startMachine_named (h : DiskNamed ρ w) (env : StartEnv)
    (hdeclared : ρ env.declaredGenerationId = env.provider.representationId)
    (hnew : ρ env.generation.newId = env.provider.representationId) :
    DiskNamed ρ (startMachine env w) ∧ MachineNamed ρ (startMachine env w).machine ∧
      (startMachine env w).facts = w.facts := by
  have ho := openOrBuild_named h env.generation env.provider hdeclared hnew
  unfold startMachine
  simp only
  split
  · exact ⟨h.setMachine _, machineNamed_bare hdeclared hdeclared nofun rfl rfl, rfl⟩
  · split
    · rename_i w' heq
      rw [heq] at ho
      exact ⟨ho.disk.setMachine _, machineNamed_bare hdeclared hdeclared nofun rfl rfl,
        ho.facts⟩
    · rename_i w' _ _ heq
      rw [heq] at ho
      exact ⟨ho.disk.setMachine _, machineNamed_bare hdeclared hdeclared nofun rfl rfl,
        ho.facts⟩
    · rename_i w' generation heq
      rw [heq] at ho
      split
      · exact ⟨ho.disk.setMachine _, machineNamed_bare hdeclared hdeclared nofun rfl rfl,
          ho.facts⟩
      · obtain ⟨hdisk, hmachine, hfacts⟩ := loadCheckpoint_named ho.disk env
          (ho.result generation rfl).1
          (machineNamed_bare (m := { provider := env.provider
                                     declaredGenerationId := env.declaredGenerationId
                                     deltaPath := env.declaredGenerationId })
            hdeclared hdeclared nofun rfl rfl)
        exact ⟨hdisk, hmachine, hfacts.trans ho.facts⟩

/-! ## The worker -/

/-- What a step of the worker, or of the maintenance, keeps. -/
structure KeepsNamed (ρ : Text → Text) (w w' : Delta.World) : Prop where
  disk : DiskNamed ρ w'
  machine : MachineNamed ρ w'.machine
  provider : w'.machine.provider = w.machine.provider
  facts : w'.facts = w.facts

theorem KeepsNamed.refl (h : DiskNamed ρ w) (hm : MachineNamed ρ w.machine) : KeepsNamed ρ w w :=
  ⟨h, hm, rfl, rfl⟩

theorem keepsNamed_goto (h : DiskNamed ρ w) (hm : MachineNamed ρ w.machine) (pc : Pc) :
    KeepsNamed ρ w (w.goto pc) :=
  ⟨h.setMachine _, hm.congr rfl rfl rfl rfl (fun _ hv => hv) hm.snapshot, rfl, rfl⟩

theorem performRebuild_named (h : DiskNamed ρ w) (hm : MachineNamed ρ w.machine)
    (env : RebuildEnv) (hnew : ρ env.generation.newId = w.machine.provider.representationId) :
    KeepsNamed ρ w (performRebuild env w) := by
  have hdrop := h.dropCheckpoint env.dropOk
  unfold performRebuild
  simp only [dropCheckpoint_machine]
  have ho := openOrBuild_named hdrop env.generation w.machine.provider hm.declared hnew
  split
  · rename_i w' heq
    rw [heq] at ho
    exact ⟨ho.disk.setMachine _, machineNamed_bare hm.declared hm.path hm.generation rfl rfl, rfl,
      ho.facts.trans (dropCheckpoint_facts _ _)⟩
  · rename_i w' _ _ heq
    rw [heq] at ho
    exact ⟨ho.disk.setMachine _, machineNamed_bare hm.declared hm.path hm.generation rfl rfl, rfl,
      ho.facts.trans (dropCheckpoint_facts _ _)⟩
  · rename_i w' generation heq
    rw [heq] at ho
    obtain ⟨hrep, hid⟩ := ho.result generation rfl
    refine ⟨ho.disk.setMachine _, ?_, rfl, ho.facts.trans (dropCheckpoint_facts _ _)⟩
    have hbase : MachineNamed ρ
        { w.machine with
          snapshot := none, blocked := false, deltaEvents := [], deltaVectors := []
          retractions := [], deltaChangeSeq := -1, pc := .idle
          generation := some generation
          baseCommits := readBaseCommitIds w'.db generation.sourceHlc
          deltaConsumed := some generation.sourceHlc
          deltaPath := generation.generationId } :=
      machineNamed_bare hm.declared hid (fun g hg => Option.some.inj hg ▸ hrep) rfl rfl
    exact hbase.congr rfl rfl rfl rfl (fun _ hv => hv) fun s hs => hbase.project hs

theorem cycle_named (h : DiskNamed ρ w) (hm : MachineNamed ρ w.machine) (env : RebuildEnv)
    (hnew : ρ env.generation.newId = w.machine.provider.representationId) :
    KeepsNamed ρ w (cycle env w) := by
  unfold cycle
  simp only
  split
  · exact .refl h hm
  · split
    · exact .refl h hm
    · split
      · exact .refl h hm
      · split
        · exact performRebuild_named h hm env hnew
        · split
          · exact performRebuild_named h hm env hnew
          · exact keepsNamed_goto h hm _

theorem catchUpBatch_named (h : DiskNamed ρ w) (hm : MachineNamed ρ w.machine)
    (env : Delta.BatchEnv) :
    KeepsNamed ρ w (catchUpBatch env w) := by
  have hfile : ∀ v ∈ w.checkpoint.vectors, v.2 = ρ w.machine.deltaPath := h.files _
  unfold catchUpBatch
  split
  · rename_i factsEpoch upper generation consumed hpc hg hc
    split
    · exact keepsNamed_goto h hm _
    · split
      · exact keepsNamed_goto h hm _
      · rename_i events retractions hread
        split
        · exact keepsNamed_goto h hm _
        · split
          · unfold enterBlocked
            simp only
            split
            · exact ⟨(h.setCheckpoint (f := recordBlocked _ _ _ _) hfile).setMachine _,
                hm.congr rfl rfl rfl rfl (fun _ hv => hv) hm.snapshot, rfl, rfl⟩
            · exact ⟨h.setMachine _, hm.congr rfl rfl rfl rfl (fun _ hv => hv) hm.snapshot,
                rfl, rfl⟩
          · simp only
            split
            · exact keepsNamed_goto h hm _
            · rename_i f seq hwrite
              have hf := writeBatch_vectors hwrite hm.path.symm hfile
              split
              · exact keepsNamed_goto h hm _
              · exact ⟨(h.setCheckpoint hf).setMachine _,
                  hm.congr rfl rfl rfl rfl (fun _ hv => hv) hm.snapshot, rfl, rfl⟩
              · refine ⟨((h.setCheckpoint hf).setMachine _).setMachine _,
                  ⟨hm.declared, hm.path, hm.generation, fun v hv => ?_, hm.snapshot⟩, rfl, rfl⟩
                rcases List.mem_append.mp hv with hv | hv
                · exact hm.vectors v hv
                · obtain ⟨e, -, rfl⟩ := List.mem_map.mp hv
                  rfl
  · exact keepsNamed_goto h hm _
  · exact keepsNamed_goto h hm _
  · exact .refl h hm

theorem publishSnapshot_named (h : DiskNamed ρ w) (hm : MachineNamed ρ w.machine) (ok : Bool)
    (next : Pc) : KeepsNamed ρ w (publishSnapshot ok next w) := by
  unfold publishSnapshot
  split
  · rename_i s hs
    refine ⟨h.setMachine _, hm.congr rfl rfl rfl rfl (fun _ hv => hv) fun s' hs' => ?_, rfl, rfl⟩
    obtain rfl := Option.some.inj hs'
    split at hs
    · exact hm.project hs
    · cases hs
  · exact keepsNamed_goto h hm _

theorem retry_named (h : DiskNamed ρ w) (hm : MachineNamed ρ w.machine) (cleanupOk : Bool) :
    KeepsNamed ρ w (retry cleanupOk w) := by
  have hunblock : ∀ w' : Delta.World, KeepsNamed ρ w w' →
      KeepsNamed ρ w (if w'.machine.closed then w'
        else w'.setMachine { w'.machine with blocked := false }) := fun w' hw' => by
    split
    · exact hw'
    · exact ⟨hw'.disk.setMachine _,
        hw'.machine.congr rfl rfl rfl rfl (fun _ hv => hv) hw'.machine.snapshot, hw'.provider,
        hw'.facts⟩
  refine hunblock _ ?_
  split
  · exact ⟨h.setCheckpoint (f := { w.checkpoint with blocked := false }) (h.files _), hm, rfl, rfl⟩
  · exact .refl h hm

/-- **A step of the worker keeps the names, the provider and the facts.** -/
theorem worker_named (h : DiskNamed ρ w) (hm : MachineNamed ρ w.machine) {action : Delta.Action}
    (hworker : isWorker action = true)
    (hnew : ∀ env, action = .cycle env →
      ρ env.generation.newId = w.machine.provider.representationId) :
    KeepsNamed ρ w (Delta.step w action) := by
  cases action with
  | facts call => cases hworker
  | restart env => cases hworker
  | cycle env => exact cycle_named h hm env (hnew env rfl)
  | batch env => exact catchUpBatch_named h hm env
  | publish ok =>
    show KeepsNamed ρ w (publishStep ok w)
    unfold publishStep
    split
    · exact publishSnapshot_named h hm ok _
    · exact .refl h hm
  | republish ok =>
    show KeepsNamed ρ w (republishStep ok w)
    unfold republishStep
    split
    · split
      · split
        · exact publishSnapshot_named h hm ok _
        · exact keepsNamed_goto h hm _
      · exact publishSnapshot_named h hm ok _
    · exact .refl h hm
  | retry cleanupOk => exact retry_named h hm cleanupOk
  | requestStop =>
    exact ⟨h.setMachine _, hm.congr rfl rfl rfl rfl (fun _ hv => hv) hm.snapshot, rfl, rfl⟩
  | start =>
    exact ⟨h.setMachine _, hm.congr rfl rfl rfl rfl (fun _ hv => hv) hm.snapshot, rfl, rfl⟩
  | close =>
    exact ⟨h.setMachine _, hm.congr rfl rfl rfl rfl (fun _ hv => hv) nofun, rfl, rfl⟩

theorem invalidate_named (h : DiskNamed ρ w) (hm : MachineNamed ρ w.machine) (dropOk : Bool) :
    KeepsNamed ρ w (invalidate dropOk w) := by
  unfold invalidate
  split
  · exact .refl h hm
  · simp only [dropCheckpoint_machine]
    exact ⟨(h.dropCheckpoint dropOk).setMachine _,
      machineNamed_bare hm.declared hm.path hm.generation rfl rfl, rfl, dropCheckpoint_facts _ _⟩

/-! ## The publisher -/

/-- A ready staging is of its provider's representation, and so named. -/
def Staged.Named (ρ : Text → Text) (staged : Staged) : Prop :=
  staged.generation.representationId = staged.provider.representationId ∧
    ρ staged.generation.generationId = staged.provider.representationId

theorem stageGeneration_named {env : StageEnv} {staged : Staged}
    (h : stageGeneration env w = some staged)
    (hnew : ρ env.generation.newId = env.provider.representationId) :
    Staged.Named ρ staged := by
  unfold stageGeneration at h
  split at h
  · rename_i generation hbuilt
    obtain rfl := Option.some.inj h
    unfold buildGeneration at hbuilt
    split at hbuilt
    · cases hbuilt
    · split at hbuilt
      · cases hbuilt
      · split at hbuilt
        · cases hbuilt
        · split at hbuilt
          · cases hbuilt
          · obtain rfl := Except.ok.inj hbuilt
            exact ⟨rfl, hnew⟩
  · cases h

/-- What the publish transaction leaves alone, and the publication it returns. -/
structure CommitNamed (ρ : Text → Text) (w : Delta.World) (r : Delta.World × Option Publication) :
    Prop where
  disk : DiskNamed ρ r.1
  machine : r.1.machine = w.machine
  facts : r.1.facts = w.facts
  publication : ∀ p, r.2 = some p → ρ p.generationId = p.provider.representationId

theorem commitPublication_named (h : DiskNamed ρ w) (env : CommitEnv) {staged : Staged}
    (hs : Staged.Named ρ staged) : CommitNamed ρ w (commitPublication env staged w) := by
  unfold commitPublication
  split
  · exact ⟨h, rfl, rfl, nofun⟩
  · rename_i f hf
    have hvectors : ∀ v ∈ f.vectors, v.2 = ρ staged.generation.generationId := by
      unfold buildStagingDelta at hf
      split at hf
      · cases hf
      · split at hf
        · cases hf
        · split at hf
          · cases hf
          · split at hf
            · cases hf
            · obtain ⟨⟨f', seq⟩, hwrite, rfl⟩ := Option.map_eq_some_iff.mp hf
              exact writeBatch_vectors hwrite hs.2.symm (by simp [CheckpointFile.vectors])
    have hdisk := h.update hvectors
    simp only
    split
    · refine ⟨⟨fun g hg => ?_, hdisk.files⟩, rfl, rfl, fun p hp => ?_⟩
      · rcases List.mem_append.mp hg with hg | hg
        · exact h.generations g hg
        · obtain rfl := List.mem_singleton.mp hg
          exact hs.1.trans hs.2.symm
      · obtain rfl := Option.some.inj hp
        exact hs.2
    · exact ⟨hdisk, rfl, rfl, nofun⟩

/-- **A switch takes the machine to the publication's representation, or leaves it alone.** -/
theorem performPublishSwitch_named (h : DiskNamed ρ w) (hm : MachineNamed ρ w.machine)
    (env : SwitchEnv) {publication : Publication}
    (hp : ρ publication.generationId = publication.provider.representationId) :
    DiskNamed ρ (performPublishSwitch env publication w) ∧
      MachineNamed ρ (performPublishSwitch env publication w).machine ∧
      ((performPublishSwitch env publication w).machine.provider = w.machine.provider ∨
        (performPublishSwitch env publication w).machine.provider = publication.provider) ∧
      (performPublishSwitch env publication w).facts = w.facts := by
  have hsame : DiskNamed ρ w ∧ MachineNamed ρ w.machine ∧
      (w.machine.provider = w.machine.provider ∨ w.machine.provider = publication.provider) ∧
      w.facts = w.facts := ⟨h, hm, Or.inl rfl, rfl⟩
  unfold performPublishSwitch
  simp only
  split
  · exact hsame
  · split
    · rename_i factsEpoch _ generation hid hopen
      split
      · exact hsame
      · split
        · exact hsame
        · rename_i loaded hload
          have hv : ∀ v ∈ loaded.vectors, v.2 = publication.provider.representationId := by
            rw [openDeltaCheckpoint_vectors hload]
            exact fun v hv => (h.files _ v hv).trans hp
          obtain ⟨hmem, hgid⟩ := openDeclared_mem hopen
          have hrep : generation.representationId = publication.provider.representationId := by
            rw [h.generations _ hmem, hgid, hp]
          split
          · exact hsame
          · rename_i s hs
            split
            · refine ⟨h.setMachine _, ⟨hp, hp, fun g hg => Option.some.inj hg ▸ hrep, hv,
                fun s' hs' => Option.some.inj hs' ▸ buildSnapshot_of hs hrep rfl hv⟩,
                Or.inr rfl, rfl⟩
            · exact hsame
    · exact hsame

end Evidence
end SemanticMemory
