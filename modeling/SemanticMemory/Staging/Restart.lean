import SemanticMemory.Staging.Records

/-!
# A finished compaction and a restart

A forced build of the active fingerprint leaves a ready record.  In the process that built it the
forced-build flags keep the record; after a restart the flags are gone, and only
`_find_ready_pending` keeps it, which compares the record's identity with the desired one layer by
layer.

The two dictionaries have different keys.  `targetIdentity` binds no `fact_schema_version` and no
`vector_format_version`, and `desiredIdentity` always has them, so no record is ever of the same
fingerprint: `sameFingerprint_eq_false`.

* `cyclePlan_of_aligned`: where desired equals active, a cycle is refused or asked for no build;
* `forgotten_step`: what every unforced step of the restarted process keeps;
* `compaction_lost`: it never reports the record, and the first cycle that gets through discards it.
-/

namespace SemanticMemory
namespace Staging

open Runs
open FactStore hiding Status World step
open Delta hiding World step
open Derived (Status WriteResult)

/-! ## The two dictionaries -/

/-- A heading without the fact schema's layer. -/
def Heading.Unlayered (h : Heading) : Prop := h.identity.get Layer.factSchema.key = none

theorem targetIdentity_unlayered (kit : Kit) (config : TargetConfig) (storeEpoch : Text)
    (sourceHlc : Hlc) :
    (targetIdentity kit config storeEpoch sourceHlc).get Layer.factSchema.key = none := by
  unfold targetIdentity
  simp only [List.cons_append, List.nil_append, get_cons]
  have hkeys : ∀ key ∈ [ascii "store_epoch", ascii "source_hlc", ascii "representation_id",
      ascii "vector_dimension", ascii "vector_format", ascii "projection_version",
      ascii "index_fingerprint", ascii "builder_version", ascii "retrieval_backend",
      ascii "retrieval_params", ascii "rebuild_tag"], Layer.factSchema.key ≠ key := by decide
  simp only [List.forall_mem_cons] at hkeys
  obtain ⟨h₁, h₂, h₃, h₄, h₅, h₆, h₇, h₈, h₉, h₁₀, h₁₁, -⟩ := hkeys
  rw [if_neg h₁, if_neg h₂, if_neg h₃, if_neg h₄, if_neg h₅, if_neg h₆, if_neg h₇, if_neg h₈,
    if_neg h₉, if_neg h₁₀]
  cases config.rebuildTag with
  | none => rfl
  | some tag =>
    show Dict.get [(ascii "rebuild_tag", Value.text tag)] _ = none
    rw [get_cons, if_neg h₁₁]
    rfl

/-- **No record is of the desired fingerprint.** -/
theorem sameFingerprint_eq_false (config : Config) (factsEpoch schema : Text) {r : Record}
    (hr : r.heading.Unlayered) : sameFingerprint config factsEpoch schema r = false := by
  refine List.all_eq_false.mpr ⟨.factSchema, by decide, ?_⟩
  have hrecord : r.identity.get Layer.factSchema.key = none := hr
  have hdesired : (desiredIdentity config factsEpoch schema).get Layer.factSchema.key =
      some (.text schema) := by
    unfold desiredIdentity
    rw [get_cons, if_neg (by decide), get_cons, if_pos rfl]
  rw [hrecord, hdesired]
  simp

/-- So no ready record is kept for the publisher. -/
theorem findReadyPending_eq_none {w : World} (h : Headed Heading.Unlayered w)
    (factsEpoch schema : Text) :
    findReadyPending w.config factsEpoch schema w.disk.staging = none := by
  refine Option.eq_none_iff_forall_not_mem.mpr fun ⟨name, r⟩ hfound => ?_
  obtain ⟨hload, hp⟩ := findRecord_eq hfound
  rw [sameFingerprint_eq_false _ _ _ (h.load hload), Bool.and_false] at hp
  cases hp

/-! ## The matrix -/

/-- Desired equals active, layer by layer. -/
def Aligned (config : Config) (factsEpoch schema : Text) : Prop :=
  ∀ layer ∈ identityLayers,
    (desiredIdentity config factsEpoch schema).get layer.key =
      (activeIdentityValue config factsEpoch schema).get layer.key

instance (config : Config) (factsEpoch schema : Text) :
    Decidable (Aligned config factsEpoch schema) :=
  inferInstanceAs (Decidable (∀ layer ∈ identityLayers, _))

/-- The fact schema of the facts decides only whether the active identity loads. -/
theorem cyclePlan_of_aligned {config : Config} {factsEpoch schema : Text}
    (h : Aligned config factsEpoch schema) (schema' : Text) :
    (cyclePlan config factsEpoch schema').refuseReason ≠ none ∨
      (cyclePlan config factsEpoch schema').idles = true := by
  by_cases hloads : refuseLoadReason (some (activeIdentityValue config factsEpoch schema'))
      (some schema') = none
  · right
    have h' : Aligned config factsEpoch schema' := by
      cases hactive : config.activeIdentity with
      | none =>
        have hrepresentation := h .representation (by decide)
        simp only [desiredIdentity, activeIdentityValue, hactive, Option.getD_none] at hrepresentation
        have hid : config.kit.representationId = config.activeRepresentationId := by
          have hne : ∀ layer ∈ [Layer.storeEpoch, .factSchema],
              Layer.representation.key ≠ layer.key := by decide
          rw [get_cons, if_neg (hne .storeEpoch (by decide)), get_cons,
            if_neg (hne .factSchema (by decide)), get_cons, if_pos rfl, get_cons,
            if_neg (hne .storeEpoch (by decide)), get_cons, if_neg (hne .factSchema (by decide)),
            get_cons, if_pos rfl] at hrepresentation
          exact Value.text.inj (Option.some.inj hrepresentation)
        intro layer _
        simp only [desiredIdentity, activeIdentityValue, hactive, Option.getD_none, hid]
      | some active =>
        have hschema := h .factSchema (by decide)
        simp only [activeIdentityValue, hactive, Option.getD_some] at hschema
        have hdeclared : active.get Layer.factSchema.key = some (.text schema) := by
          rw [← hschema, desiredIdentity, get_cons, if_neg (by decide), get_cons, if_pos rfl]
        have hsame : schema' = schema := by
          by_contra hne
          refine absurd hloads ?_
          simp only [activeIdentityValue, hactive, Option.getD_some, refuseLoadReason]
          split
          · exact nofun
          · rw [if_pos]
            · exact nofun
            · simp only [Option.any_some, decide_eq_true_eq, hdeclared]
              exact fun heq => hne (Value.text.inj (Option.some.inj heq)).symm
        rw [hsame]
        exact h
    unfold cyclePlan
    rw [planActions_of_eq h' hloads]
    rfl
  · left
    unfold cyclePlan planActions
    split
    · exact nofun
    · rename_i hnone
      cases hnone
    · rename_i hnone _
      exact absurd hnone hloads

/-! ## The restarted process -/

/-- A cycle that comes to the matrix. -/
def cycles (env : Env) (w : World) : Bool :=
  env.readOk && w.config.refuseReason = none && !w.machine.blocked &&
    match readFactsIdentity w.db with
    | none => false
    | some (_, clock) => invalidEvent (readActiveEvents w.db clock) = none

/-- Nobody asks for a build. -/
def Action.unforced : Action → Bool
  | .requestCompaction | .forceRebuild => false
  | _ => true

/-- Marking changes the status of a record, or nothing. -/
theorem loadProgress_markStale (env : Env) (keep : Option Text) (staging : KeyedMap Text Dir)
    (name : Text) :
    loadProgress (markStale env keep staging) name =
      (loadProgress staging name).map fun r =>
        if some name ≠ keep ∧ env.marks name = true then { r with status := .discarded } else r := by
  unfold loadProgress markStale
  rw [KeyedMap.find?_mapValues]
  cases hd : staging.find? name with
  | none => rfl
  | some d =>
    simp only [Option.map_some, Option.bind_some, loadProgress, hd]
    cases hr : d.record with
    | none => simp [hr]
    | some r =>
      by_cases hok : (r.versionOk && decide (r.generationId = name)) = true
      · by_cases hmark : some name ≠ keep ∧ env.marks name = true
        · simp [hok, hmark, Option.filter]
        · simp [hok, hmark, hr, Option.filter]
      · simp [hok, hr, Option.filter]

/-- The restarted process holds the record, ready or discarded, and nothing in its memory. -/
structure Forgotten (config : Config) (storeEpoch name : Text) (r : Record) (w : World) : Prop where
  config : w.config = config
  storeEpoch : w.db.metaRows.storeEpoch = storeEpoch
  headed : Headed Heading.Unlayered w
  record : loadProgress w.disk.staging name = some r ∨
    loadProgress w.disk.staging name = some { r with status := .discarded }
  forced : w.machine.forced = false
  pc : w.machine.pc = .idle
  progress : w.machine.currentProgress = none
  ready : w.machine.readyGenerationId = none ∧ w.machine.readyStagingDir = none

section Forgotten

variable {config : Config} {storeEpoch name : Text} {r : Record} {w : World}

/-- What an unforced cycle does where desired equals active. -/
theorem Forgotten.beginCycle (h : Forgotten config storeEpoch name r w) {schema : Text}
    (haligned : Aligned config storeEpoch schema) (env : Env) :
    ∃ staging m, beginCycle env w = (w.setStaging staging).setMachine m ∧
      (staging = w.disk.staging ∨ staging = markStale env none w.disk.staging) ∧
      (cycles env w = true → staging = markStale env none w.disk.staging) ∧
      m.forced = false ∧ m.pc = .idle ∧ m.currentProgress = none ∧ m.readyGenerationId = none ∧
      m.readyStagingDir = none := by
  have hprogress := h.progress
  have hready := h.ready.1
  have hdir := h.ready.2
  have hforced := h.forced
  have hun : w.machine.unparked.forced = false ∧ w.machine.unparked.currentProgress = none ∧
      w.machine.unparked.readyGenerationId = none ∧ w.machine.unparked.readyStagingDir = none ∧
      w.machine.unparked.pc = .idle := by
    unfold Machine.unparked
    split
    · exact ⟨hforced, hprogress, hready, hdir, h.pc⟩
    · exact ⟨hforced, hprogress, hready, hdir, h.pc⟩
  obtain ⟨huf, hup, hur, hud, hupc⟩ := hun
  have hsame : (w.setStaging w.disk.staging).setMachine w.machine = w := rfl
  unfold Staging.beginCycle
  rw [if_neg (not_not_intro h.pc)]
  split
  · rename_i hread
    refine ⟨_, _, hsame.symm, Or.inl rfl, fun hcycles => ?_, hforced, h.pc, hprogress, hready, hdir⟩
    unfold cycles at hcycles
    split at hread
    · simp [hread] at hcycles
    · rename_i hok
      simp [hok] at hcycles
  rename_i factsEpoch clock hread
  obtain ⟨hok, hread⟩ : env.readOk = true ∧ readFactsIdentity w.db = some (factsEpoch, clock) := by
    split at hread
    · rename_i hok
      exact ⟨hok, hread⟩
    · cases hread
  have hepoch : factsEpoch = storeEpoch :=
    (readFactsIdentity_eq_some hread).1.trans h.storeEpoch
  split
  · rename_i hrefused
    refine ⟨w.disk.staging, { w.machine with currentDir := none, currentProgress := none, pc := .idle },
      rfl, Or.inl rfl, fun hcycles => ?_, hforced, rfl, rfl, hready, hdir⟩
    simp [cycles, hrefused] at hcycles
  split
  · rename_i hparked
    refine ⟨_, _, hsame.symm, Or.inl rfl, fun hcycles => ?_, hforced, h.pc, hprogress, hready, hdir⟩
    simp only [Machine.parked, Bool.and_eq_true] at hparked
    simp [cycles, hparked.1.1] at hcycles
  simp only
  split
  · rename_i hinvalid
    refine ⟨w.disk.staging, { w.machine.unparked with blocked := true, blockedEpoch := some factsEpoch },
      rfl, Or.inl rfl, fun hcycles => ?_, huf, hupc, hup, hur, hud⟩
    have hinvalid' : invalidEvent (readActiveEvents w.db clock) = some _ := hinvalid
    simp [cycles, hread, hinvalid'] at hcycles
  · have hstale : ∀ target : Target, ((w.setMachine w.machine.unparked).setStaging
        (markStale env none w.disk.staging)).sync (some target) none =
        (w.setStaging (markStale env none w.disk.staging)).setMachine
          { w.machine.unparked with
            currentDir := some target.generationId, currentProgress := none, pc := .idle } :=
      fun _ => rfl
    have hlost : ∀ target : Target, ∃ staging m,
        ((w.setMachine w.machine.unparked).setStaging
          (markStale env none w.disk.staging)).sync (some target) none =
          (w.setStaging staging).setMachine m ∧
        (staging = w.disk.staging ∨ staging = markStale env none w.disk.staging) ∧
        (cycles env w = true → staging = markStale env none w.disk.staging) ∧
        m.forced = false ∧ m.pc = .idle ∧ m.currentProgress = none ∧
        m.readyGenerationId = none ∧ m.readyStagingDir = none := fun target =>
      ⟨_, _, hstale target, Or.inr rfl, fun _ => rfl, huf, rfl, rfl, hur, hud⟩
    split
    · exact hlost _
    · rename_i hloads
      have hidles := (cyclePlan_of_aligned haligned (readFactsSchemaVersion w.db)).resolve_left
        (by rw [← h.config, ← hepoch]; exact hloads)
      have hidles' : (cyclePlan (w.setMachine w.machine.unparked).config factsEpoch
          (readFactsSchemaVersion (w.setMachine w.machine.unparked).db)).idles = true := by
        rw [hepoch]
        exact h.config ▸ hidles
      rw [if_pos ⟨hidles', huf⟩]
      unfold keepPending
      have hnone : findReadyPending (w.setMachine w.machine.unparked).config factsEpoch
          (readFactsSchemaVersion (w.setMachine w.machine.unparked).db)
          (w.setMachine w.machine.unparked).disk.staging = none :=
        findReadyPending_eq_none (h.headed.remember (m := w.machine.unparked)
          (hup.trans hprogress.symm) (hupc.trans h.pc.symm)) _ _
      rw [hnone]
      exact hlost _

/-- Every unforced step of the restarted process. -/
theorem forgotten_step (h : Forgotten config storeEpoch name r w) {schema : Text}
    (haligned : Aligned config storeEpoch schema) (hflag : config.forceRebuild = false) {a : Action}
    (ha : a.unforced = true) : Forgotten config storeEpoch name r (step w a) := by
  have hheaded : Headed Heading.Unlayered (step w a) :=
    headed_step h.headed (fun _ _ _ _ => targetIdentity_unlayered _ _ _ _) a
  cases a with
  | facts call =>
    exact ⟨h.config, (storeEpoch_facts w.facts call).trans h.storeEpoch, hheaded, h.record, h.forced,
      h.pc, h.progress, h.ready⟩
  | cycle env =>
    obtain ⟨staging, m, heq, hstaging, -, hforced, hpc, hprogress, hready⟩ :=
      h.beginCycle haligned env
    have heq' : step w (.cycle env) = (w.setStaging staging).setMachine m := heq
    rw [heq'] at hheaded ⊢
    refine ⟨h.config, h.storeEpoch, hheaded, ?_, hforced, hpc, hprogress, hready⟩
    rcases hstaging with rfl | rfl
    · exact h.record
    · show loadProgress (markStale env none w.disk.staging) name = some r ∨
        loadProgress (markStale env none w.disk.staging) name =
          some { r with status := .discarded }
      rw [loadProgress_markStale]
      rcases h.record with hrec | hrec
      · rw [hrec]
        by_cases hmark : some name ≠ none ∧ env.marks name = true
        · right
          rw [Option.map_some, if_pos hmark]
        · left
          rw [Option.map_some, if_neg hmark]
      · right
        rw [hrec]
        split_ifs <;> rfl
  | work env =>
    have hstays : step w (.work env) = w := by
      simp only [step, h.pc]
    rw [hstays]
    exact h
  | retry env =>
    have hstays : step w (.retry env) = w.setMachine { w.machine with
        blocked := false, blockedEpoch := none, readyVerified := false } := by
      simp only [step, retry, setMachine_machine, h.progress]
      split
      · rename_i heq
        cases heq
      · rfl
    rw [hstays] at hheaded ⊢
    exact ⟨h.config, h.storeEpoch, hheaded, h.record, h.forced, h.pc, h.progress, h.ready⟩
  | requestCompaction => cases ha
  | forceRebuild => cases ha
  | publish publication =>
    have hstays : step w (.publish publication) = w := by
      simp only [step, publish, h.ready.2]
      split
      · rename_i heq
        cases heq
      · rfl
    rw [hstays]
    exact h
  | crash =>
    refine ⟨h.config, h.storeEpoch, hheaded, h.record, ?_, rfl, rfl, rfl, rfl⟩
    simp [step, Machine.created, Machine.forced, h.config, hflag]

end Forgotten

/-- **A finished compaction does not survive a restart.**  Let desired equal active, let any history
of the machine leave a ready record, and let the process crash and start again without the
forced-build flags.  Whatever follows, as long as nobody asks for a build, the machine reports
nothing to the publisher, and every cycle that comes to the matrix and can write the record marks it
discarded. -/
theorem compaction_lost (config : Config) (now : ℤ) (historyId storeEpoch name : Text)
    (before after : List Action)
    (hflag : config.forceRebuild = false)
    (haligned : Aligned config
      (run step (World.created config now historyId storeEpoch) before).db.metaRows.storeEpoch
      (readFactsSchemaVersion (run step (World.created config now historyId storeEpoch) before).db))
    (hready : (loadProgress (run step (World.created config now historyId storeEpoch)
      before).disk.staging name).map Record.status = some .ready)
    (hafter : ∀ a ∈ after, a.unforced = true) :
    let w := run step (World.created config now historyId storeEpoch) (before ++ .crash :: after)
    w.machine.readyGenerationId = none ∧ w.machine.readyStagingDir = none ∧
    ∀ env, cycles env w = true → env.marks name = true →
      (loadProgress (step w (.cycle env)).disk.staging name).map Record.status =
        some .discarded := by
  have hheaded : Headed Heading.Unlayered
      (run step (World.created config now historyId storeEpoch) before) :=
    run_invariant (I := fun w : World => Headed Heading.Unlayered w)
      (fun _ a h => headed_step h (fun _ _ _ _ => targetIdentity_unlayered _ _ _ _) a)
      (headed_created config now historyId storeEpoch) before
  have hconfig : (run step (World.created config now historyId storeEpoch) before).config = config :=
    config_run _ _
  rw [run_append, run_cons]
  generalize run step (World.created config now historyId storeEpoch) before = v at *
  obtain ⟨r, hr, hstatus⟩ := Option.map_eq_some_iff.mp hready
  have hcrashed : Forgotten config v.db.metaRows.storeEpoch name r (step v .crash) :=
    ⟨hconfig, rfl, hheaded.setMachine (fun _ hr => (by cases hr)) trivial, Or.inl hr,
      by simp [step, Machine.created, Machine.forced, hconfig, hflag], rfl, rfl, rfl, rfl⟩
  have h : Forgotten config v.db.metaRows.storeEpoch name r (run step (step v .crash) after) :=
    run_invariant_along (I := Forgotten config v.db.metaRows.storeEpoch name r)
      (fun _ _ ha h => forgotten_step h haligned hflag ha) hcrashed (along_of_mem hafter _)
  intro w
  refine ⟨h.ready.1, h.ready.2, fun env hcycles hmark => ?_⟩
  obtain ⟨staging, m, heq, -, hstale, -⟩ := h.beginCycle haligned env
  have heq' : step w (.cycle env) = (w.setStaging staging).setMachine m := heq
  rw [heq', setMachine_disk, setStaging_staging, hstale hcycles, loadProgress_markStale]
  rcases h.record with hrec | hrec
  · rw [hrec, Option.map_some, if_pos ⟨by rintro ⟨⟩, hmark⟩]
    rfl
  · rw [hrec, Option.map_some, if_pos ⟨by rintro ⟨⟩, hmark⟩]
    rfl

/-! ### A run -/

def sampleTarget : TargetConfig where
  projectionVersion := ascii "projection"
  indexFingerprint := indexFingerprintPrefix ++ ascii "exact"
  projectionVersion_ne := by decide
  indexFingerprint_ne := by decide

/-- A machine whose representation is the active one. -/
def alignedConfig : Config where
  kit := sampleKit
  target := sampleTarget
  chunkRows := 1
  vectorFormatVersion := fp32RowMajorLe
  activeRepresentationId := ascii "model"
  activeGenerationId := ascii "a"
  chunkRows_pos := Nat.one_pos
  vectorFormatVersion_ne := by decide

/-- A committed event. -/
def sampleFacts (id : Byte) : List Action :=
  [.facts (.openStore 0 {}),
    .facts (.persistBatch 0 10
      [{ eventId := [id], schemaId := [2], canonicalSegmentInput := [3], category := [4],
         precedingText := [], finalSelectionText := [5], confirmationSource := [6],
         sessionId := [7] }] (some [8, id]) { nowMs := fun _ => 10 })]

/-- One cycle, with as many steps as it needs. -/
def sampleCycle : List Action := .cycle {} :: List.replicate 9 (.work {})

/-- A compaction of one event is asked for and built. -/
def compacted : List Action :=
  sampleFacts 1 ++ .requestCompaction :: (List.replicate 3 sampleCycle).flatten

theorem compaction_lost_sample :
    let w := run step (World.created alignedConfig 5 [9] (ascii "e"))
      (compacted ++ .crash :: sampleFacts 2)
    w.machine.readyGenerationId = none ∧ w.machine.readyStagingDir = none ∧
    ∀ env, cycles env w = true → env.marks [2, 1, 1] = true →
      (loadProgress (step w (.cycle env)).disk.staging [2, 1, 1]).map Record.status =
        some .discarded :=
  compaction_lost alignedConfig 5 [9] (ascii "e") [2, 1, 1] compacted (sampleFacts 2) rfl
    (by decide +kernel) (by decide +kernel) (by decide +kernel)

/-- The claim that a ready compaction is kept and reported fails. -/
theorem compaction_not_kept :
    ¬ ∀ (config : Config) (now : ℤ) (historyId storeEpoch name : Text) (before : List Action),
      config.forceRebuild = false →
      Aligned config
        (run step (World.created config now historyId storeEpoch) before).db.metaRows.storeEpoch
        (readFactsSchemaVersion
          (run step (World.created config now historyId storeEpoch) before).db) →
      (loadProgress (run step (World.created config now historyId storeEpoch)
        before).disk.staging name).map Record.status = some .ready →
      ∀ after : List Action, (∀ a ∈ after, a.unforced = true) →
        (loadProgress (run step (World.created config now historyId storeEpoch)
          (before ++ .crash :: after)).disk.staging name).map Record.status ≠ some .discarded :=
    fun h =>
  h alignedConfig 5 [9] (ascii "e") [2, 1, 1] compacted rfl (by decide +kernel) (by decide +kernel)
    sampleCycle (by decide +kernel) (by decide +kernel)

end Staging
end SemanticMemory
