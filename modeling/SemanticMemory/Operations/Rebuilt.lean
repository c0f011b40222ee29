import SemanticMemory.Operations.Cancel
import SemanticMemory.Operations.Rebuild
import SemanticMemory.Staging.Restart

/-!
# What a finished rebuild reports

The cleanup of a rebuild asks again whether the active generation is current, and then whether the
manifest names the recorded build.  Both answers depend on what the operation itself has published:
`rebuild_reports` proves that the report is true in the runs where, at that time, a rebuild that has
published something is no automatic one that finds its own work current, and the manifest names the
build that was recorded.
-/

namespace SemanticMemory
namespace Operations
namespace Rebuild

open Runs
open Staging (Layer)

/-! ## Places and phases -/

def Place.phase : Place → Option Phase
  | .preflight | .target .. => some .preflight
  | .staging | .machineForStaging | .restart | .retry | .cycle | .cycling | .report => some .staging
  | .publishing | .locate | .verify .. | .park .. | .reopen .. | .unpark .. | .seam .. | .rename ..
  | .commit .. | .switch => some .publishing
  | .cleanup | .outcome => some .cleanup
  | .unknownPhase => none

/-- A piece leaves the step in its phase, and the manifest's history alone outside of the commit. -/
def Stays (b : Body) (x : Root × Ends) : Prop :=
  match x.2 with
  | .goes b' => b'.parameters = b.parameters ∧ b'.place.phase = b.place.phase
  | _ => True

variable {d' : Root}

section Stays

variable {s : Setup} {env : Env} {d : Root} {b : Body}

theorem stays_withMachine {f : Staging.World → Root × Ends} (hf : ∀ w, Stays b (f w)) :
    Stays b (withMachine d f) := by
  unfold withMachine
  split
  · trivial
  · exact hf _

/-- A gate ends the step, if it does not let it through. -/
theorem factsAndActive_ne_goes {phase : Phase} {b' : Body} {gate : Shared} :
    factsAndActive env gate phase ≠ .error (.goes b') := by
  unfold factsAndActive
  split
  · exact fun h => by cases h
  · split
    · exact fun h => by cases h
    · simp only
      split <;> exact fun h => by cases h

theorem stays_of_gate {phase : Phase} {ends : Ends}
    (h : factsAndActive env d.shared phase = .error ends) : Stays b (d', ends) := by
  cases ends with
  | goes b' => exact absurd h factsAndActive_ne_goes
  | _ => trivial

theorem stays_of_auto {mode : Mode} {ends : Ends} {shared : Shared}
    (h : isAutoAlreadyCurrent s env shared mode = .error ends) : Stays b (d', ends) := by
  unfold isAutoAlreadyCurrent at h
  split at h
  · cases h
  · cases hgate : factsAndActive env shared .preflight with
    | error ends' =>
      rw [hgate] at h
      cases h
      cases ends with
      | goes b' => exact absurd hgate factsAndActive_ne_goes
      | _ => trivial
    | ok gate =>
      rw [hgate] at h
      cases h

theorem stays_machineFor {next : Root → Root × Ends} (hnext : ∀ d, Stays b (next d)) :
    Stays b (machineFor s env d b next) := by
  unfold machineFor
  split
  · exact hnext d
  · split
    · next h => exact stays_of_gate h
    · exact hnext _

/-- **A piece of a rebuild stays in its phase.** -/
theorem stays_rebuildStep : Stays b (rebuildStep s env d b) := by
  obtain ⟨parameters, progress, place⟩ := b
  cases place with
  | preflight =>
    simp only [rebuildStep, preflightStart]
    split
    · next h => exact stays_of_gate h
    · split
      · trivial
      · split
        · trivial
        · exact ⟨rfl, rfl⟩
  | target representationId current =>
    simp only [rebuildStep, preflightTarget]
    repeat' split
    all_goals trivial
  | staging =>
    simp only [rebuildStep, indexOnlyStaging, unlessCurrent]
    split
    · repeat' split
      all_goals trivial
    · split
      · next h => exact stays_of_auto h
      · trivial
      · exact ⟨rfl, rfl⟩
  | machineForStaging => exact stays_machineFor fun _ => ⟨rfl, rfl⟩
  | restart => exact ⟨rfl, rfl⟩
  | retry =>
    refine stays_withMachine fun w => ?_
    split
    · split <;> exact ⟨rfl, rfl⟩
    · exact ⟨rfl, rfl⟩
  | cycle =>
    refine stays_withMachine fun w => ?_
    simp only
    split
    · trivial
    · split <;> exact ⟨rfl, rfl⟩
  | cycling =>
    refine stays_withMachine fun w => ?_
    simp only
    split
    · exact ⟨rfl, rfl⟩
    · split
      · trivial
      · exact ⟨rfl, rfl⟩
  | report =>
    refine stays_withMachine fun w => ?_
    split
    · trivial
    · simp only
      split <;> trivial
  | publishing =>
    simp only [rebuildStep, unlessCurrent]
    split
    · next h => exact stays_of_auto h
    · trivial
    · split
      · trivial
      · exact ⟨rfl, rfl⟩
  | locate =>
    refine stays_machineFor fun d => stays_withMachine fun w => ?_
    simp only
    split
    · exact ⟨rfl, rfl⟩
    · trivial
  | verify stagingDir generationId =>
    refine stays_withMachine fun w => ?_
    split
    · trivial
    · split
      · trivial
      · split
        · exact ⟨rfl, rfl⟩
        · trivial
  | park stagingDir generationId =>
    simp only [rebuildStep, parkProgress]
    split
    · split
      · exact ⟨rfl, rfl⟩
      · trivial
    · trivial
  | reopen stagingDir generationId => exact stays_withMachine fun w => ⟨rfl, rfl⟩
  | unpark stagingDir generationId accepted =>
    simp only [rebuildStep, unparkProgress]
    split
    · exact ⟨rfl, rfl⟩
    · trivial
  | seam stagingDir generationId =>
    have hon {d : Root} {b : Body} (hb : b.place.phase = some .publishing) :
        Stays b (publishSeam.goOn env d b stagingDir generationId) := by
      refine stays_withMachine fun w => ?_
      split
      · exact ⟨rfl, hb.symm⟩
      · trivial
      · trivial
      · simp only
        split <;> trivial
      · trivial
    simp only [rebuildStep, publishSeam]
    split
    · trivial
    · split
      · split
        · unfold Stays
          simp only
          split
          · next h =>
            split at h
            · cases h
              exact ⟨rfl, rfl⟩
            · cases h
          · trivial
        · exact hon rfl
      · exact hon rfl
  | rename stagingDir generationId =>
    simp only [rebuildStep, renameContainer]
    split
    · trivial
    · split
      · split
        · trivial
        · exact ⟨rfl, rfl⟩
      · trivial
  | commit stagingDir generationId dir identity =>
    simp only [rebuildStep, commitManifest]
    split
    · trivial
    · trivial
    · split
      · exact ⟨rfl, rfl⟩
      · trivial
  | switch =>
    simp only [rebuildStep]
    unfold Stays
    split
    · next h =>
      simp only at h
      split at h <;> cases h
    · trivial
  | cleanup =>
    simp only [rebuildStep, cleanupStart, finishes]
    split
    · next h => exact stays_of_auto h
    · trivial
    · split
      · trivial
      · exact ⟨rfl, rfl⟩
  | outcome =>
    simp only [rebuildStep, cleanupOutcome, finishes]
    repeat' split
    all_goals trivial
  | unknownPhase => trivial

end Stays

/-! ## What a report says -/

/-- A report is true: it says that nothing was published only then, and it names the generation that
the manifest names if something was. -/
structure Truthful (d : Root) (rep : Report) : Prop where
  current : rep.outcome = .alreadyCurrent → rep.published = false → d.committed = []
  rebuilt : d.committed ≠ [] →
    rep.outcome = .rebuilt ∧ rep.published = true ∧ rep.generationId.isSome = true ∧
      rep.generationId = d.named

/-- What is asserted between two steps. -/
structure Between (r : Record Parameters Result) (d : Root) : Prop where
  machine : r.toMachine = machine
  mode : r.parameters.mode ≠ .indexOnly
  succeeded : r.state = .succeeded → ∃ rep, r.result = some (.report rep) ∧ Truthful d rep

/-- What is asserted of the end of a step: the last one returns a true report. -/
def After (r : Record Parameters Result) (d : Root) : Outcome Result → Prop
  | .returned result =>
    r.phase = .cleanup → ∃ rep, result.result = some (.report rep) ∧ Truthful d rep
  | _ => True

def assertions : Assertions Parameters Result Root Body where
  between := Between
  inside r _ b := b.parameters = r.parameters ∧ b.place.phase ∈ [some r.phase, none]
  after := After

def foundCurrent (s : Setup) (env : Env) (d : Shared) (mode : Mode) : Bool :=
  match isAutoAlreadyCurrent s env d mode with
  | .ok current => current
  | .error _ => false

/-- A cleanup of a rebuild that has published something does not find an automatic rebuild current,
and the manifest names the recorded build. -/
def conditions (s : Setup) : Conditions Root Env Shared Body where
  work env d b :=
    d.committed = [] ∨
      match b.place with
      | .cleanup => foundCurrent s env d.shared b.parameters.mode = false
      | .outcome =>
        env.readOk = true ∧ b.parameters.buildId.isSome = true ∧
          d.shared.active.generationId = b.parameters.buildId
      | _ => True
  weather _ _ := True
  unsupported _ := True

instance (s : Setup) (env : Env) (d : Root) (b : Body) : Decidable ((conditions s).work env d b) := by
  unfold conditions
  simp only
  split <;> infer_instance

instance (s : Setup) (x : Shared) (d : Root) : Decidable ((conditions s).weather x d) :=
  inferInstanceAs (Decidable True)

instance (s : Setup) (d : Root) : Decidable ((conditions s).unsupported d) :=
  inferInstanceAs (Decidable True)

section Engine

variable {s : Setup} {env : Env} {r r' : Record Parameters Result} {d : Root} {b : Body}

/-- Nothing was published, so a report of anything but a publication is true. -/
theorem truthful_of_nothing {rep : Report} (h : d.committed = []) : Truthful d rep :=
  ⟨fun _ _ => h, fun hsome => absurd h hsome⟩

/-- What the first piece of the cleanup returns. -/
theorem after_cleanupStart (hmode : b.parameters.mode ≠ .indexOnly)
    (hcond : d.committed = [] ∨ foundCurrent s env d.shared b.parameters.mode = false)
    {o : Outcome Result} (h : cleanupStart s env d b = (d', .ends o)) : After r d' o := by
  unfold cleanupStart at h
  simp only at h
  split at h
  · next ends hauto =>
    cases ends with
    | ends o' =>
      cases h
      cases o with
      | returned result =>
        -- a gate ends a step by a block
        unfold isAutoAlreadyCurrent at hauto
        split at hauto
        · cases hauto
        · unfold factsAndActive at hauto
          split at hauto
          · cases hauto
          · split at hauto
            · cases hauto
            · simp only at hauto
              split at hauto <;> cases hauto
      | _ => trivial
    | _ => cases h
  · next hauto =>
    cases h
    intro _
    refine ⟨_, rfl, truthful_of_nothing ?_⟩
    refine hcond.resolve_right fun hnot => ?_
    unfold foundCurrent at hnot
    rw [hauto] at hnot
    cases hnot
  · rw [if_neg hmode] at h
    cases h

/-- What the second piece of the cleanup returns. -/
theorem after_cleanupOutcome
    (hcond : d.committed = [] ∨ env.readOk = true ∧ b.parameters.buildId.isSome = true ∧
      d.shared.active.generationId = b.parameters.buildId) {o : Outcome Result} (h : cleanupOutcome env d b = (d', .ends o)) :
    After r d' o := by
  unfold cleanupOutcome at h
  simp only at h
  by_cases hnamed : (if env.readOk = true then d.shared.active.generationId else none).isSome = true ∧
      (if env.readOk = true then d.shared.active.generationId else none) = b.parameters.buildId
  · rw [if_pos hnamed] at h
    cases h
    exact fun _ => ⟨_, rfl, ⟨fun ho => (by cases ho), fun _ => ⟨rfl, rfl, hnamed.1, rfl⟩⟩⟩
  · rw [if_neg hnamed] at h
    cases h
    refine fun _ => ⟨_, rfl, truthful_of_nothing (hcond.resolve_right fun hcond => hnamed ?_)⟩
    obtain ⟨hread, hsome, heq⟩ := hcond
    rw [if_pos hread, heq]
    exact ⟨hsome, rfl⟩

/-- **What a piece leaves behind.** -/
theorem worked (h : Between r d) (hstate : r.state = .running) (hin : assertions.inside r d b)
    (hcond : (conditions s).work env d b) : assertions.worked r (rebuildStep s env d b) := by
  obtain ⟨hparameters, hphase⟩ := hin
  have hbetween (d' : Root) : Between r d' :=
    ⟨h.machine, h.mode, fun hs => absurd (hs.symm.trans hstate) (by decide)⟩
  have hstays : Stays b (rebuildStep s env d b) := stays_rebuildStep
  cases hstep : rebuildStep s env d b with
  | mk d' progress =>
    rw [hstep] at hstays
    cases progress with
    | raises => exact hbetween d'
    | goes next =>
      obtain ⟨hnext, hplace⟩ := hstays
      refine ⟨hbetween d', hnext.trans hparameters, ?_⟩
      rwa [hplace]
    | ends o =>
      refine ⟨hbetween d', ?_⟩
      by_cases hcleanup : r.phase = .cleanup
      · rw [hcleanup] at hphase
        have hmode : b.parameters.mode ≠ .indexOnly := hparameters ▸ h.mode
        obtain ⟨parameters, progress, place⟩ := b
        cases place with
        | cleanup =>
          unfold conditions at hcond
          refine after_cleanupStart (d := d.entered env.fresh) hmode ?_ hstep
          unfold Root.entered
          split <;> exact hcond
        | outcome => exact after_cleanupOutcome hcond hstep
        | unknownPhase => cases hstep
        | _ => simp [Place.phase] at hphase
      · cases o with
        | returned result => exact fun hc => absurd hc hcleanup
        | _ => trivial

/-- The record goes on to another state than the end, or stays as it is. -/
theorem Between.continues (h : Between r d) (hcontinues : r.Continues r')
    (hsucceeded : r'.state = .succeeded → r.state = .succeeded ∧ r'.result = r.result) :
    Between r' d := by
  refine ⟨hcontinues.machine.trans h.machine, hcontinues.parameters ▸ h.mode, fun hs => ?_⟩
  obtain ⟨hs', hresult⟩ := hsucceeded hs
  rw [hresult]
  exact h.succeeded hs'

theorem Between.settles (h : Between r d) (hstate : r.state = .running) {result : StepResult Result}
    (hafter : After r d (.returned result)) (hcontinues : r.Continues r')
    (hsettled : Settled .completed result r r') : Between r' d := by
  cases hsettled with
  | held quiet view =>
    refine h.continues hcontinues fun hs => ?_
    exact absurd ((View.mk.inj view).1.symm.trans hs |>.symm.trans hstate) (by decide)
  | cancelled cancel requested view =>
    rw [h.machine] at cancel
    cases cancel
  | succeeded last free plain view =>
    rw [h.machine] at last
    obtain ⟨rep, hrep, htruth⟩ := hafter (Option.some.inj last)
    refine ⟨hcontinues.machine.trans h.machine, hcontinues.parameters ▸ h.mode, fun _ => ?_⟩
    refine ⟨rep, ?_, htruth⟩
    rw [(View.mk.inj view).2.2.2, hrep]
    rfl
  | next next successor free plain view =>
    refine h.continues hcontinues fun hs => ?_
    exact absurd ((View.mk.inj view).1.symm.trans hs |>.symm.trans hstate) (by decide)

end Engine

/-- **What every action keeps.** -/
theorem triples (s : Setup) (fingerprint : Text → Parameters → Text) :
    Triples (program s fingerprint) (conditions s) assertions where
  request {r r' d} h hcontinues hrequested hview := by
    obtain ⟨hstate', hphase', -, hresult'⟩ := View.mk.inj hview
    refine ⟨Between.continues h hcontinues fun hs => ⟨hstate'.symm.trans hs, hresult'⟩,
      fun b hb => ⟨hb.1.trans hcontinues.parameters.symm, ?_⟩, fun o ho => ?_⟩
    · have hphase : r'.phase = r.phase := hphase'
      rw [hphase]
      exact hb.2
    · cases o with
      | returned result => exact fun hc => ho (hphase'.symm.trans hc)
      | _ => trivial
  moves {r r' d} h hcontinues hmoves := by
    refine Between.continues h hcontinues fun hs => ?_
    cases hmoves with
    | started before view => exact absurd ((View.mk.inj view).1.symm.trans hs) (by decide)
    | diverted cancel pending cancelPhase other view =>
      exact absurd ((View.mk.inj view).1.symm.trans hs) (by decide)
    | cancelled cancelable cancelPhase view =>
      exact absurd ((View.mk.inj view).1.symm.trans hs) (by decide)
  unsupported _ h _ hcontinues hview :=
    Between.continues h hcontinues fun hs =>
      absurd ((View.mk.inj hview).1.symm.trans hs) (by decide)
  enter {l r d} _ _ hloaded := by
    refine ⟨hloaded.parameters, ?_⟩
    cases r.phase <;> simp [program, enter, Place.phase]
  work hcond h hstate hin := worked h hstate hin hcond
  blocks h _ _ hcontinues _ hview :=
    Between.continues h hcontinues fun hs =>
      absurd ((View.mk.inj hview).1.symm.trans hs) (by decide)
  fails h _ _ hcontinues _ hview :=
    Between.continues h hcontinues fun hs =>
      absurd ((View.mk.inj hview).1.symm.trans hs) (by decide)
  settles h hstate hafter hcontinues hsettled := Between.settles h hstate hafter hcontinues hsettled
  weather {x r d} _ h := by
    refine ⟨⟨h.machine, h.mode, fun hs => ?_⟩, fun b hb => hb, fun o ho => ?_⟩
    · obtain ⟨rep, hrep, htruth⟩ := h.succeeded hs
      exact ⟨rep, hrep, ⟨htruth.current, htruth.rebuilt⟩⟩
    · cases o with
      | returned result =>
        intro hc
        obtain ⟨rep, hrep, htruth⟩ := ho hc
        exact ⟨rep, hrep, ⟨htruth.current, htruth.rebuilt⟩⟩
      | _ => trivial

/-! ## Reports -/

/-- A rebuild that has succeeded reports what it did. -/
def Reports (w : World Parameters Result Root Body) : Prop :=
  w.record.state = .succeeded → ∃ rep, w.record.result = some (.report rep) ∧ Truthful w.disk rep

/-- **What a finished rebuild reports.**  Over every automatic and full rebuild, with whatever facts
are appended and whatever else becomes of the disk, and over every crash and restart: the report is
true, if at the time of the cleanup a rebuild that has published something is not an automatic one
that finds the active generation current, and the manifest names the recorded build. -/
theorem rebuild_reports (s : Setup) (fingerprint : Text → Parameters → Text) {now : ℕ} {id : Text}
    {parameters : Parameters} (hmode : parameters.mode ≠ .indexOnly)
    {r : Record Parameters Result}
    (hnew : newOperation fingerprint now id (ascii "rebuild") parameters machine = some r) {d : Root}
    {acts : List (Action Env Shared)}
    (hacts : Along (World.step (program s fingerprint)) (conditions s).permit
      { record := r, disk := d } acts) :
    Reports (run (World.step (program s fingerprint)) { record := r, disk := d } acts) := by
  obtain ⟨-, hmachine, -, hqueued, -, -, -, hparameters, -⟩ := newOperation_eq_some hnew
  have hbetween : Between r d :=
    ⟨hmachine, hparameters ▸ hmode, fun hs => absurd (hqueued.symm.trans hs) (by decide)⟩
  exact (holds_run (triples s fingerprint) (w := { record := r, disk := d })
    ⟨hbetween, fun _ hrn => (by cases hrn), fun _ hid => (by cases hid)⟩ hacts).between.succeeded

/-! ### A full rebuild -/

def sampleFingerprint (_ : Text) (_ : Parameters) : Text :=
  ascii (String.ofList (List.replicate 64 '0'))

def sampleSetup : Setup where
  kits _ := Staging.sampleKit
  projectionVersion := ascii "projection"
  indexFingerprint := Staging.indexFingerprintPrefix ++ ascii "exact"
  projectionVersion_ne := Staging.sampleTarget.projectionVersion_ne
  indexFingerprint_ne := Staging.sampleTarget.indexFingerprint_ne

/-- An empty store, and an active generation of it. -/
def sampleRoot : Root where
  shared :=
    { facts := some (FactStore.World.created 5 [9] (ascii "e"))
      disk := { generations := [ascii "old"] }
      active := .names (ascii "old")
        [(Layer.storeEpoch.key, .text (ascii "e")), (Layer.factSchema.key, .text (ascii "1")),
          (Layer.representation.key, .text (ascii "model")),
          (Layer.vectorFormat.key, .text Staging.fp32RowMajorLe),
          (Layer.projection.key, .text (ascii "projection")),
          (Layer.index.key, .text (Staging.indexFingerprintPrefix ++ ascii "exact"))] }

/-- A full rebuild of the generation that the empty store gives. -/
def sampleParameters : Parameters where
  mode := .full
  derivedRoot := ascii "/derived"
  buildId := some [2, 1]
  rebuildTag := some (ascii "tag")
  restart := false

/-- A run of the loop through one step of so many pieces. -/
def stepActions (pieces : ℕ) : List (Action Env Shared) :=
  [.run 0, .run 0] ++ List.replicate pieces (.work {}) ++ [.run 0]

/-- The whole rebuild, without a fault. -/
def sampleActions : List (Action Env Shared) :=
  [.arrive { claim := raceClaim }, .run 0, .run 0] ++ stepActions 2 ++ stepActions 9 ++
    stepActions 16 ++ stepActions 10 ++ stepActions 2

theorem rebuild_reports_sample : ∃ r : Record Parameters Result,
    newOperation sampleFingerprint 0 (ascii "a") (ascii "rebuild") sampleParameters machine =
        some r ∧
      (run (World.step (program sampleSetup sampleFingerprint)) { record := r, disk := sampleRoot }
        sampleActions).record.state = .succeeded ∧
      Reports (run (World.step (program sampleSetup sampleFingerprint))
        { record := r, disk := sampleRoot } sampleActions) :=
  ⟨_, rfl, by decide +kernel, @rebuild_reports sampleSetup sampleFingerprint 0 (ascii "a")
    sampleParameters (by decide) _ rfl sampleRoot sampleActions (by decide +kernel)⟩

/-- The disk once an event has been recorded. -/
def laterShared : Shared :=
  { sampleRoot.shared with
    facts := some (run Staging.step (Staging.World.created Staging.alignedConfig 5 [9] (ascii "e"))
      (Staging.sampleFacts 1)).facts }

/-- The rebuild, with an event that is recorded between the preflight and the staging. -/
def laterActions : List (Action Env Shared) :=
  [.arrive { claim := raceClaim }, .run 0, .run 0] ++ stepActions 2 ++
    .weather laterShared :: stepActions 9 ++ stepActions 12 ++ stepActions 15 ++ stepActions 10 ++
    stepActions 2

def saysUnpublished : Result → Bool
  | .report rep => !rep.published
  | .completed => false

/-- **A rebuild that denies its publication.**  An event is recorded after the preflight, so another
generation is built and published than the recorded one, and the report says that nothing was. -/
theorem rebuild_reports_unpublished :
    ¬ ∀ (s : Setup) (fingerprint : Text → Parameters → Text) (now : ℕ) (id : Text)
      (parameters : Parameters) (r : Record Parameters Result), parameters.mode ≠ .indexOnly →
      newOperation fingerprint now id (ascii "rebuild") parameters machine = some r →
      ∀ d : Root, d.committed = [] → ∀ acts : List (Action Env Shared),
        Reports (run (World.step (program s fingerprint)) { record := r, disk := d } acts) := by
  intro h
  obtain ⟨rep, hrep, htruth⟩ := h sampleSetup sampleFingerprint 0 (ascii "a") sampleParameters _
    (by decide) rfl sampleRoot rfl laterActions (by decide +kernel)
  have hdenied {x : Option Result} (hx : x = some (.report rep))
      (hany : x.any saysUnpublished = true) : rep.published = false := by
    subst hx
    simpa [saysUnpublished] using hany
  have hpublished := (htruth.rebuilt (by decide +kernel)).2.1
  rw [hdenied hrep (by decide +kernel)] at hpublished
  cases hpublished

end Rebuild
end Operations
end SemanticMemory
