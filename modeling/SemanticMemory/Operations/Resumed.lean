import SemanticMemory.Operations.Drive
import SemanticMemory.Operations.Rebuilt
import SemanticMemory.Staging.Ready

/-!
# A rebuild that a new process takes up

The phases of a rebuild communicate through the memory of the machine.  A new process that takes up
the publication has no such memory, and looks nowhere else: `rebuild_resumes` proves that it comes to
the end if and only if the rebuild is automatic and the active generation is current by itself, while
a staging that is taken up again with its ready container, and a cleanup, always come to the end.
-/

namespace SemanticMemory
namespace Operations
namespace Rebuild

open Runs
open Staging (Config Dict)

/-- Nothing fails. -/
def Calm (env : Env) : Prop := env = {}

/-- The version of the fact schema can be read, whatever else fails. -/
def Legible (env : Env) : Prop := env.schemaOk = true

/-- Executors that nothing else disturbs bring the operation to `succeeded`. -/
def Resumes (s : Setup) (fingerprint : Text → Parameters → Text)
    (w : World Parameters Result Root Body) : Prop :=
  ∃ acts : List (Action Env Shared), (∀ a ∈ acts, a.quiet Calm) ∧
    (run (World.step (program s fingerprint)) w acts).record.state = .succeeded

/-! ## The publication of a new process -/

variable {w : World Parameters Result Root Body} {acts : List (Action Env Shared)}

section Stuck

variable {s : Setup} {env : Env} {d : Root} {b : Body}

/-- The memory of a process that has run no cycle. -/
def Idle (d : Root) : Prop :=
  ∀ c m, d.machine = some (c, m) → m.currentProgress = none

theorem idle_entered (h : Idle d) (fresh : Bool) : Idle (d.entered fresh) := by
  unfold Root.entered
  split
  · exact fun c m hm => by cases hm
  · exact h

variable {phase : Phase}

theorem gate_not_returned {shared : Shared} {result : StepResult Result} :
    factsAndActive env shared phase ≠ .error (.ends (.returned result)) := by
  unfold factsAndActive
  split
  · exact fun h => by cases h
  · split
    · exact fun h => by cases h
    · simp only
      split <;> exact fun h => by cases h

/-- What a gate that lets through has read. -/
theorem factsAndActive_eq_ok {shared : Shared} {gate : Gate} :
    factsAndActive env shared phase = .ok gate ↔
      ∃ facts clock, shared.facts = some facts ∧ env.readOk = true ∧
        FactStore.readFactsIdentity facts.db = some (gate.factsEpoch, clock) ∧
        gate.schema =
          (if env.schemaOk then some (Staging.readFactsSchemaVersion facts.db) else none) ∧
        activeIdentity shared.active gate.schema = .ok gate.active := by
  unfold factsAndActive
  constructor
  · intro h
    split at h
    · cases h
    · next facts hfacts =>
      split at h
      · cases h
      · next factsEpoch clock hread =>
        simp only at h
        split at h
        · cases h
        · next active hactive =>
          cases h
          split at hread
          · next hok => exact ⟨facts, clock, hfacts, hok, hread, rfl, hactive⟩
          · cases hread
  · rintro ⟨facts, clock, hfacts, hok, hread, hschema, hactive⟩
    obtain ⟨factsEpoch, schema, active⟩ := gate
    simp only at hread hschema hactive
    rw [hfacts]
    simp only [hok, if_true, hread, ← hschema, hactive]

/-- What is read does not depend on faults, if the schema can be read and the gate is passed. -/
theorem factsAndActive_calm {shared : Shared} {phase phase' : Phase} {gate : Gate}
    (hschema : Legible env) (h : factsAndActive env shared phase = .ok gate) :
    factsAndActive {} shared phase' = .ok gate := by
  obtain ⟨facts, clock, hfacts, -, hread, hgate, hactive⟩ := factsAndActive_eq_ok.mp h
  rw [show env.schemaOk = true from hschema] at hgate
  exact factsAndActive_eq_ok.mpr ⟨facts, clock, hfacts, rfl, hread, hgate, hactive⟩

theorem isAutoAlreadyCurrent_calm {shared : Shared} {mode : Mode} (hschema : Legible env)
    (h : isAutoAlreadyCurrent s env shared mode = .ok true) :
    foundCurrent s {} shared mode = true := by
  unfold isAutoAlreadyCurrent at h
  split at h
  · cases h
  next hmode =>
  cases hgate : factsAndActive env shared .preflight with
  | error ends => rw [hgate] at h; cases h
  | ok gate =>
    rw [hgate] at h
    unfold foundCurrent isAutoAlreadyCurrent
    rw [if_neg hmode, factsAndActive_calm hschema hgate]
    exact Except.ok.inj h

/-- What is asserted of a rebuild that is stuck in its publication. -/
def stuck (shared : Shared) (mode : Mode) : Assertions Parameters Result Root Body where
  between r d :=
    r.toMachine = machine ∧ r.phase = .publishing ∧ r.state ≠ .succeeded ∧
      r.parameters.mode = mode ∧ d.shared = shared ∧ Idle d
  inside _ _ b := b.parameters.mode = mode ∧ (b.place = .publishing ∨ b.place = .locate)
  after _ _ o := ∀ result, o ≠ .returned result

/-- The disk is left alone. -/
def undisturbed : Conditions Root Env Shared Body where
  work env _ _ := Legible env
  weather _ _ := False
  unsupported _ := True

section Keeps

variable {r r' : Record Parameters Result} {shared : Shared} {mode : Mode}

/-- The record goes on in its phase. -/
theorem stuck_continues (h : (stuck shared mode).between r d) (hcontinues : r.Continues r')
    (hphase : r'.phase = r.phase) (hstate : r'.state ≠ .succeeded) :
    (stuck shared mode).between r' d := by
  obtain ⟨hmachine, hp, -, hparameters, hrest⟩ := h
  exact ⟨hcontinues.machine.trans hmachine, hphase.trans hp, hstate,
    hcontinues.parameters ▸ hparameters, hrest⟩

/-- A gate that does not let through. -/
theorem stuck_gate (h : (stuck shared mode).between r d) {gated : Shared} {ends : Ends}
    (hgate : factsAndActive env gated phase = .error ends) :
    (stuck shared mode).worked r (d, ends) := by
  cases ends with
  | goes b' => exact absurd hgate factsAndActive_ne_goes
  | raises => exact h
  | ends o =>
    refine ⟨h, fun result hresult => ?_⟩
    subst hresult
    exact gate_not_returned hgate

/-- The machine of the process has no staging to tell of. -/
theorem stuck_withMachine (h : (stuck shared mode).between r d) {f : Staging.World → Root × Ends}
    (hf : ∀ w : Staging.World, w.machine.currentProgress = none →
      (stuck shared mode).worked r (f w)) :
    (stuck shared mode).worked r (withMachine d f) := by
  unfold withMachine
  split
  · exact h
  · next c m hm => exact hf _ (h.2.2.2.2.2 c m hm)

/-- A piece that needs a machine has one without progress, or the gate blocks it. -/
theorem stuck_machineFor (h : (stuck shared mode).between r d) {f : Root → Root × Ends}
    (hf : ∀ d, (stuck shared mode).between r d → (stuck shared mode).worked r (f d)) :
    (stuck shared mode).worked r (machineFor s env d b f) := by
  unfold machineFor
  split
  · exact hf d h
  · split
    · next hgate => exact stuck_gate h hgate
    · obtain ⟨hmachine, hphase, hstate, hmode, hshared, -⟩ := h
      refine hf _ ⟨hmachine, hphase, hstate, hmode, hshared, fun c m hm => ?_⟩
      cases hm
      rfl

/-- The lookup of a machine without progress blocks the step. -/
theorem locate_stuck (h : (stuck shared mode).between r d) :
    (stuck shared mode).worked r (locate s env d b) := by
  refine stuck_machineFor h fun d h => stuck_withMachine h fun w hnone => ?_
  simp only [hnone, Option.map_none]
  exact ⟨h, fun result hresult => by cases hresult⟩

/-- The first piece finds that the active generation is not current. -/
theorem publishing_stuck (hmode : mode ≠ .indexOnly) (hlegible : Legible env)
    (hcurrent : foundCurrent s {} shared mode = false) (h : (stuck shared mode).between r d)
    (hb : b.parameters.mode = mode) (hplace : b.place = .publishing) :
    (stuck shared mode).worked r (rebuildStep s env d b) := by
  obtain ⟨hmachine, hphase, hopen, hmode', hshared, hidle⟩ := h
  have hentered : (stuck shared mode).between r (d.entered env.fresh) := by
    refine ⟨hmachine, hphase, hopen, hmode', ?_, idle_entered hidle env.fresh⟩
    unfold Root.entered
    split <;> exact hshared
  unfold rebuildStep unlessCurrent
  rw [hplace]
  simp only [hb, hentered.2.2.2.2.1]
  split
  · next ends hends =>
    unfold isAutoAlreadyCurrent at hends
    split at hends
    · cases hends
    · cases hgate : factsAndActive env shared .preflight with
      | ok gate => rw [hgate] at hends; cases hends
      | error ends' =>
        rw [hgate] at hends
        cases hends
        exact stuck_gate hentered hgate
  · next htrue =>
    rw [isAutoAlreadyCurrent_calm hlegible htrue] at hcurrent
    cases hcurrent
  · rw [if_neg hmode]
    exact ⟨hentered, hb, Or.inr rfl⟩

end Keeps

/-- **What every action keeps of a stuck rebuild.** -/
theorem triples_stuck (fingerprint : Text → Parameters → Text) {shared : Shared} {mode : Mode}
    (hmode : mode ≠ .indexOnly) (hcurrent : foundCurrent s {} shared mode = false) :
    Triples (program s fingerprint) undisturbed (stuck shared mode) where
  request h hcontinues _ hview := by
    obtain ⟨hstate, hphase, -, -⟩ := View.mk.inj hview
    exact ⟨stuck_continues h hcontinues hphase fun hs => h.2.2.1 (hstate.symm.trans hs),
      fun _ hb => hb, fun _ ho => ho⟩
  moves {r r' d} h hcontinues hmoves := by
    cases hmoves with
    | started before view =>
      obtain ⟨hstate, hphase, -, -⟩ := View.mk.inj view
      exact stuck_continues h hcontinues hphase fun hs => by cases hstate.symm.trans hs
    | diverted cancel pending cancelPhase other view =>
      rw [h.1] at cancelPhase
      cases cancelPhase
    | cancelled cancelable cancelPhase view =>
      obtain ⟨hstate, hphase, -, -⟩ := View.mk.inj view
      exact stuck_continues h hcontinues hphase fun hs => by cases hstate.symm.trans hs
  unsupported _ h _ hcontinues hview := by
    obtain ⟨hstate, hphase, -, -⟩ := View.mk.inj hview
    exact stuck_continues h hcontinues hphase fun hs => by cases hstate.symm.trans hs
  enter {l r d} h _ hloaded := by
    obtain ⟨-, hphase, -, hparameters, -⟩ := h
    refine ⟨(congrArg Parameters.mode hloaded.parameters).trans hparameters, Or.inl ?_⟩
    rw [hphase]
    rfl
  work hlegible h _ hin := by
    obtain ⟨hb, hplace⟩ := hin
    rcases hplace with hplace | hplace
    · exact publishing_stuck hmode hlegible hcurrent h hb hplace
    · simp only [program, rebuildStep, hplace]
      exact locate_stuck h
  blocks h _ _ hcontinues _ hview := by
    obtain ⟨hstate, hphase, -, -⟩ := View.mk.inj hview
    exact stuck_continues h hcontinues hphase fun hs => by cases hstate.symm.trans hs
  fails h _ _ hcontinues _ hview := by
    obtain ⟨hstate, hphase, -, -⟩ := View.mk.inj hview
    exact stuck_continues h hcontinues hphase fun hs => by cases hstate.symm.trans hs
  settles {result r r' d} _ _ hafter _ _ := absurd rfl (hafter result)
  weather hx _ := hx.elim

/-- What executors do is permitted, if the schema can be read. -/
theorem along_quiet {fingerprint : Text → Parameters → Text} (hacts : ∀ a ∈ acts, a.quiet Legible)
    (w : World Parameters Result Root Body) :
    Along (World.step (program s fingerprint)) undisturbed.permit w acts := by
  induction acts generalizing w with
  | nil => trivial
  | cons a acts ih =>
    refine ⟨?_, ih (fun a' ha' => hacts a' (List.mem_cons_of_mem _ ha')) _⟩
    have ha := hacts a List.mem_cons_self
    unfold Conditions.permit
    split
    · exact ha
    · trivial
    · exact ha.elim
    · trivial

/-- **A publication that a new process takes up is stuck**, whatever fails, and however often it is
retried. -/
theorem publishing_never {fingerprint : Text → Parameters → Text} (hrunner : w.runner = none)
    (hmachine : w.record.toMachine = machine) (hphase : w.record.phase = .publishing)
    (hopen : w.record.state.terminal = false) (hmode : w.record.parameters.mode ≠ .indexOnly)
    (hnew : w.disk.machine = none)
    (hcurrent : foundCurrent s {} w.disk.shared w.record.parameters.mode = false) (hacts : ∀ a ∈ acts, a.quiet Legible) :
    (run (World.step (program s fingerprint)) w acts).record.state ≠ .succeeded := by
  have hbetween : (stuck w.disk.shared w.record.parameters.mode).between w.record w.disk := by
    refine ⟨hmachine, hphase, fun hs => ?_, rfl, rfl, fun c m hm => ?_⟩
    · rw [hs] at hopen
      cases hopen
    · cases hnew.symm.trans hm
  have hholds : Holds (stuck w.disk.shared w.record.parameters.mode) w :=
    ⟨hbetween, fun rn hrn => (by cases hrunner.symm.trans hrn), fun _ _ => by rw [hmachine]; rfl⟩
  exact (holds_run (triples_stuck fingerprint hmode hcurrent) hholds
    (along_quiet hacts w)).between.2.2.1

end Stuck

/-! ## The ends that are reached -/

section Ends

variable {s : Setup} {fingerprint : Text → Parameters → Text} {d : Root} {p : Parameters}

theorem calm_empty : Calm {} := rfl

/-- What the cleanup of an operation returns. -/
def reported (rep : Report) : StepResult Result where
  progress := some [(ascii "chunks", 1)]
  advance := true
  result := some (.report rep)

theorem cleanupOutcome_ends (d : Root) (p : Parameters) : ∃ d' rep, ∀ progress,
    cleanupOutcome {} d ⟨p, progress, .outcome⟩ = (d', .ends (.returned (reported rep))) := by
  let d' : Root := { d with named := d.shared.active.generationId }
  by_cases hnamed : d.shared.active.generationId.isSome = true ∧
      d.shared.active.generationId = p.buildId
  · refine ⟨d', ⟨.rebuilt, p.buildId, d.shared.active.generationId, true⟩, fun progress => ?_⟩
    unfold cleanupOutcome
    simp only [if_true]
    rw [if_pos hnamed]
    rfl
  · let ready := p.buildId.bind fun buildId =>
      ((d.shared.disk.staging.find? buildId).bind Staging.Dir.record).bind fun record =>
        if record.versionOk = true ∧ record.status = .ready then some record.generationId else none
    refine ⟨d', ⟨.rebuilt, p.buildId, ready, false⟩, fun progress => ?_⟩
    unfold cleanupOutcome
    simp only [if_true]
    rw [if_neg hnamed]
    rfl

variable (s fingerprint) in
/-- **The cleanup comes to its end**, if the gate of an automatic rebuild can be read. -/
theorem takes_cleanup (hmode : p.mode ≠ .indexOnly)
    (hgate : p.mode = .auto → ∃ gate, factsAndActive {} d.shared .preflight = .ok gate) :
    ∃ d' rep, ∀ progress, Takes (program s fingerprint) Calm d ⟨p, progress, .cleanup⟩ d'
      (.returned (reported rep)) := by
  have hauto : ∃ current, isAutoAlreadyCurrent s {} d.shared p.mode = .ok current := by
    unfold isAutoAlreadyCurrent
    by_cases hm : p.mode = .auto
    · obtain ⟨gate, hgate⟩ := hgate hm
      rw [if_neg (not_not.mpr hm), hgate]
      exact ⟨_, rfl⟩
    · rw [if_pos hm]
      exact ⟨_, rfl⟩
  obtain ⟨current, hcurrent⟩ := hauto
  cases current with
  | true =>
    refine ⟨{ d with machine := none }, ⟨.alreadyCurrent, p.buildId, none, false⟩,
      fun progress => .ends calm_empty ?_⟩
    show cleanupStart s {} (d.entered false) ⟨p, progress, .cleanup⟩ = _
    unfold cleanupStart Root.entered
    simp only [Bool.false_eq_true, if_false, hcurrent]
    rfl
  | false =>
    obtain ⟨d', rep, hends⟩ := cleanupOutcome_ends { d with machine := none } p
    refine ⟨d', rep, fun progress => ?_⟩
    have hrest : Takes (program s fingerprint) Calm { d with machine := none }
        ⟨p, progress, .outcome⟩ d' (.returned (reported rep)) := .ends calm_empty (hends progress)
    refine .goes calm_empty ?_ hrest
    show cleanupStart s {} (d.entered false) ⟨p, progress, .cleanup⟩ = _
    unfold cleanupStart Root.entered
    simp only [Bool.false_eq_true, if_false, hcurrent]
    rw [if_neg hmode]

/-- Actions of executors, one run after another. -/
theorem Resumes.of_run (hacts : ∀ a ∈ acts, a.quiet Calm)
    (h : Resumes s fingerprint (run (World.step (program s fingerprint)) w acts)) :
    Resumes s fingerprint w := by
  obtain ⟨acts', hacts', hsucceeded⟩ := h
  refine ⟨acts ++ acts', fun a ha => ?_, by rwa [run_append]⟩
  exact (List.mem_append.mp ha).elim (hacts a) (hacts' a)

/-- An operation that a runner can take up. -/
structure Open (fingerprint : Text → Parameters → Text) (w : World Parameters Result Root Body) :
    Prop where
  runner : w.runner = none
  machine : w.record.toMachine = machine
  state : w.record.state.terminal = false
  pending : w.record.cancelPending = false
  valid : Valid fingerprint w.record

/-- **A step that nothing disturbs** takes the operation to its next phase, or to its end. -/
theorem Open.takes (h : Open fingerprint w) {place : Place}
    (hplace : ∀ r, (enter w.record.phase r).place = place) {d' : Root}
    (htakes : ∀ progress, ∃ result, Takes (program s fingerprint) Calm w.disk
      ⟨w.record.parameters, progress, place⟩ d' (.returned result) ∧ validDelta result.progress ∧
        result.advance = true) :
    ∃ acts : List (Action Env Shared), (∀ a ∈ acts, a.quiet Calm) ∧
      (w.record.phase = .cleanup ∧
          (run (World.step (program s fingerprint)) w acts).record.state = .succeeded ∨
        Open fingerprint (run (World.step (program s fingerprint)) w acts) ∧
          (run (World.step (program s fingerprint)) w acts).disk = d' ∧
          (run (World.step (program s fingerprint)) w acts).record.parameters =
            w.record.parameters ∧
          Rebuild.machine.phases[Rebuild.machine.phases.idxOf w.record.phase + 1]? =
            some (run (World.step (program s fingerprint)) w acts).record.phase) := by
  have hbody (r : Record Parameters Result) (hr : w.record.Continues r)
      (hphase : r.phase = w.record.phase) : ∃ result, Takes (program s fingerprint) Calm w.disk
        ((program s fingerprint).enter r.phase r) d' (.returned result) ∧
          validDelta result.progress ∧ result.advance = true ∧ True := by
    have henter : (program s fingerprint).enter r.phase r =
        ⟨w.record.parameters, r.progress, place⟩ := by
      rw [hphase]
      show Body.mk r.parameters r.progress _ = _
      rw [hr.parameters]
      exact congrArg _ (hplace r)
    rw [henter]
    obtain ⟨result, hresult, hdelta, hadvance⟩ := htakes r.progress
    exact ⟨result, hresult, hdelta, hadvance, trivial⟩
  obtain ⟨acts, r, result, hacts, hcontinues, hvalid, hpending, -, hwhere, hrun⟩ :=
    World.takes h.runner h.state h.pending h.valid (show validClaim raceClaim = true by decide)
      hbody (by rw [h.machine]; exact fun hc => by cases hc.1)
  refine ⟨acts, hacts, ?_⟩
  rw [hrun]
  rw [h.machine] at hwhere
  rcases hwhere with ⟨hlast, hview⟩ | ⟨next, hnext, hview⟩
  · exact Or.inl ⟨Option.some.inj hlast, (View.mk.inj hview).1⟩
  · refine Or.inr ⟨⟨rfl, hcontinues.machine.trans h.machine, ?_, hpending, hvalid⟩, rfl,
      hcontinues.parameters, ?_⟩
    · show r.state.terminal = false
      rw [(View.mk.inj hview).1]
      rfl
    · rw [hnext]
      exact congrArg some (View.mk.inj hview).2.1.symm

/-- **A cleanup is resumed.** -/
theorem resumes_cleanup (h : Open fingerprint w)
    (hphase : w.record.phase = .cleanup) (hmode : w.record.parameters.mode ≠ .indexOnly)
    (hgate : w.record.parameters.mode = .auto →
      ∃ gate, factsAndActive {} w.disk.shared .preflight = .ok gate) :
    Resumes s fingerprint w := by
  obtain ⟨d', rep, htakes⟩ := takes_cleanup s fingerprint hmode hgate
  have hdelta : validDelta (reported rep).progress := fun q hq => by
    rcases List.mem_singleton.mp hq with rfl
    exact ⟨by decide, by decide⟩
  obtain ⟨acts, hacts, hends⟩ := h.takes (fun r => by rw [hphase]; rfl)
    fun progress => ⟨_, htakes progress, hdelta, rfl⟩
  rcases hends with ⟨-, hsucceeded⟩ | ⟨-, -, -, hnext⟩
  · exact ⟨acts, hacts, hsucceeded⟩
  · rw [hphase] at hnext
    cases hnext

/-- A step that finds the active generation current. -/
theorem takes_current {place : Place} (hplace : place = .staging ∨ place = .publishing)
    (hcurrent : isAutoAlreadyCurrent s {} d.shared p.mode = .ok true)
    (progress : ProgressUnit → ℤ) :
    Takes (program s fingerprint) Calm d ⟨p, progress, place⟩ d (.returned { advance := true }) := by
  have hmode : p.mode ≠ .indexOnly := by
    intro hmode
    rw [hmode] at hcurrent
    cases hcurrent
  refine .ends calm_empty ?_
  rcases hplace with rfl | rfl
  · show (if p.mode = .indexOnly then indexOnlyStaging (d.entered false) else _) = _
    rw [if_neg hmode]
    unfold unlessCurrent Root.entered
    simp only [Bool.false_eq_true, if_false, hcurrent]
    rfl
  · show unlessCurrent s {} (d.entered false) ⟨p, progress, .publishing⟩ _ _ = _
    unfold unlessCurrent Root.entered
    simp only [Bool.false_eq_true, if_false, hcurrent]
    rfl

theorem isAuto_of_foundCurrent {shared : Shared} {mode : Mode}
    (h : foundCurrent s {} shared mode = true) :
    isAutoAlreadyCurrent s {} shared mode = .ok true ∧
      ∃ gate, factsAndActive {} shared .preflight = .ok gate := by
  unfold foundCurrent at h
  cases hauto : isAutoAlreadyCurrent s {} shared mode with
  | error ends => rw [hauto] at h; cases h
  | ok current =>
    rw [hauto] at h
    simp only at h
    refine ⟨by rw [h], ?_⟩
    unfold isAutoAlreadyCurrent at hauto
    split at hauto
    · cases hauto
      cases h
    · cases hgate : factsAndActive {} shared .preflight with
      | error ends => rw [hgate] at hauto; cases hauto
      | ok gate => exact ⟨gate, rfl⟩

/-- **A publication is resumed**, if the active generation is found current. -/
theorem resumes_publishing (h : Open fingerprint w) (hphase : w.record.phase = .publishing)
    (hmode : w.record.parameters.mode ≠ .indexOnly)
    (hcurrent : foundCurrent s {} w.disk.shared w.record.parameters.mode = true) :
    Resumes s fingerprint w := by
  obtain ⟨hauto, hgate⟩ := isAuto_of_foundCurrent hcurrent
  obtain ⟨acts, hacts, hends⟩ := h.takes (fun r => by rw [hphase]; rfl)
    fun progress => ⟨_, takes_current (s := s) (Or.inr rfl) hauto progress, trivial, rfl⟩
  rcases hends with ⟨hcleanup, -⟩ | ⟨hopen, hdisk, hparameters, hnext⟩
  · rw [hphase] at hcleanup
    cases hcleanup
  · rw [hphase] at hnext
    refine .of_run hacts (resumes_cleanup hopen (Option.some.inj hnext).symm ?_ fun _ => ?_)
    · rw [hparameters]
      exact hmode
    · rw [hdisk]
      exact hgate

end Ends

/-! ## The staging of a new process -/

/-- The disk once `--restart` has discarded what it discards. -/
def Root.restarted (d : Root) (p : Parameters) : Staging.Disk :=
  if p.restart then
    { d.shared.disk with staging := Staging.markStale {} p.buildId d.shared.disk.staging }
  else d.shared.disk

/-- The build of the operation is ready on the disk: the machine of a new process comes to its record,
its gate is passed and its container is accepted. -/
structure ReadyStaging (s : Setup) (d : Root) (p : Parameters) (facts : FactStore.World)
    (gate : Gate) (name : Text) (record : Staging.Record) (dir : Staging.Dir) : Prop where
  stored : d.shared.facts = some facts
  passes : factsAndActive {} d.shared .staging = .ok gate
  events : ∀ clock, FactStore.readFactsIdentity facts.db = some (gate.factsEpoch, clock) →
    Staging.invalidEvent (FactStore.readActiveEvents facts.db clock) = none
  plan : (Staging.cyclePlan (s.machineConfig d.shared.disk p gate) gate.factsEpoch
    (Staging.readFactsSchemaVersion facts.db)).refuseReason = none
  own : Staging.findOwnRecord (s.machineConfig d.shared.disk p gate) gate.factsEpoch
    (d.restarted p).staging = some (name, record)
  ready : record.status = .ready
  unpublished : record.generationId ∉ d.shared.disk.generations
  other : record.generationId ≠ (s.machineConfig d.shared.disk p gate).activeGenerationId
  located : (d.restarted p).staging.find? name = some dir
  pinned : ∃ pinned, Staging.resumeGate {} (s.machineConfig d.shared.disk p gate) facts.db record =
    .passes pinned
  container : dir.bare.container.any
    (Staging.verifyContainer (s.machineConfig d.shared.disk p gate).kit name) = true

def isReadyStaging (s : Setup) (d : Root) (p : Parameters) : Bool :=
  match d.shared.facts, factsAndActive {} d.shared .staging with
  | some facts, .ok gate =>
    let c := s.machineConfig d.shared.disk p gate
    match FactStore.readFactsIdentity facts.db,
      Staging.findOwnRecord c gate.factsEpoch (d.restarted p).staging with
    | some (_, clock), some (name, record) =>
      match (d.restarted p).staging.find? name, Staging.resumeGate {} c facts.db record with
      | some dir, .passes _ =>
        decide (Staging.invalidEvent (FactStore.readActiveEvents facts.db clock) = none) &&
          decide ((Staging.cyclePlan c gate.factsEpoch
            (Staging.readFactsSchemaVersion facts.db)).refuseReason = none) &&
          decide (record.status = .ready) &&
          decide (record.generationId ∉ d.shared.disk.generations) &&
          decide (record.generationId ≠ c.activeGenerationId) &&
          dir.bare.container.any (Staging.verifyContainer c.kit name)
      | _, _ => false
    | _, _ => false
  | _, _ => false

theorem readyStaging_of_isReadyStaging {s : Setup} {d : Root} {p : Parameters}
    (h : isReadyStaging s d p = true) :
    ∃ facts gate name record dir, ReadyStaging s d p facts gate name record dir := by
  unfold isReadyStaging at h
  split at h
  · next facts gate hstored hpasses =>
    simp only at h
    split at h
    · next clock name record hidentity hown =>
      split at h
      · next dir pinned hlocated hpinned =>
        simp only [Bool.and_eq_true, decide_eq_true_eq] at h
        obtain ⟨⟨⟨⟨⟨hevents, hplan⟩, hready⟩, hunpublished⟩, hother⟩, hcontainer⟩ := h
        refine ⟨facts, gate, name, record, dir, hstored, hpasses, fun clock' hclock => ?_, hplan,
          hown, hready, hunpublished, hother, hlocated, ⟨pinned, hpinned⟩, hcontainer⟩
        cases hidentity.symm.trans hclock
        exact hevents
      · cases h
    · cases h
  · cases h

/-- The machine of the process has the ready staging for its progress. -/
structure Publishable (d : Root) (c : Config) (facts : FactStore.World) (name : Text)
    (record : Staging.Record) (dir : Staging.Dir) : Prop where
  stored : d.shared.facts = some facts
  machine : ∃ m, d.machine = some (c, m) ∧ m.currentProgress = some record ∧
    m.readyStagingDir = some name
  located : d.shared.disk.staging.find? name = some dir
  loaded : Staging.loadProgress d.shared.disk.staging name = some record
  ready : record.status = .ready
  unpublished : record.generationId ∉ d.shared.disk.generations
  pinned : ∃ pinned, Staging.resumeGate {} c facts.db record = .passes pinned
  container : dir.bare.container.any (Staging.verifyContainer c.kit name) = true

section Restaged

variable {s : Setup} {fingerprint : Text → Parameters → Text} {d d' : Root} {p : Parameters}
  {facts : FactStore.World} {gate : Gate} {name : Text} {record : Staging.Record}
  {dir : Staging.Dir} {c : Config} {progress : ProgressUnit → ℤ} {o : Outcome Result}

/-- The machine works on what it has left. -/
theorem world_adopt {w : Staging.World} (hfacts : d.shared.facts = some w.facts) :
    (d.adopt w).world w.config w.machine = w := by
  unfold Root.world Root.adopt
  simp only [hfacts, Option.getD_some]

theorem takes_cycling {w w' : Staging.World} (h : Staging.Cycles w w')
    (hbusy : w.machine.pc ≠ .idle) (hfacts : d.shared.facts = some w.facts)
    (hrest : Takes (program s fingerprint) Calm (d.adopt w') ⟨p, progress, .report⟩ d' o) :
    Takes (program s fingerprint) Calm (d.adopt w) ⟨p, progress, .cycling⟩ d' o := by
  have hstep (w : Staging.World) (hfacts : d.shared.facts = some w.facts) :
      rebuildStep s {} (d.adopt w) ⟨p, progress, .cycling⟩ =
        if (Staging.step w (.work {})).machine.pc ≠ .idle then
          (d.adopt (Staging.step w (.work {})), .goes ⟨p, progress, .cycling⟩)
        else if faulted {} w.machine.pc then (d.adopt (Staging.step w (.work {})), .raises)
        else (d.adopt (Staging.step w (.work {})), .goes ⟨p, progress, .report⟩) := by
    show (let w' := Staging.step ((d.adopt w).world w.config w.machine) (.work {})
      if w'.machine.pc ≠ .idle then ((d.adopt w).adopt w', Progress.goes _)
      else if faulted {} ((d.adopt w).world w.config w.machine).machine.pc then
        ((d.adopt w).adopt w', .raises)
      else ((d.adopt w).adopt w', .goes _)) = _
    rw [world_adopt hfacts]
    rfl
  induction h with
  | @last w idle ends =>
    refine .goes calm_empty ?_ hrest
    obtain ⟨job, hjob⟩ := ends
    refine (hstep w hfacts).trans ?_
    rw [if_neg (not_not.mpr idle), hjob]
    rfl
  | @next w w' busy rest ih =>
    have hframe := Staging.frame_step w (a := .work {}) fun _ hcall => by cases hcall
    refine .goes calm_empty ((hstep w hfacts).trans (if_pos busy)) (ih busy ?_ hrest)
    rw [hframe.facts]
    exact hfacts

theorem validDelta_progressDelta (progress : ProgressUnit → ℤ) (record : Staging.Record) :
    validDelta (some (progressDelta progress record)) := by
  intro q hq
  obtain ⟨unit, hunit, rfl⟩ := List.mem_map.mp hq
  obtain ⟨hmem, hpos⟩ := List.mem_filter.mp hunit
  refine ⟨List.mem_map.mpr ⟨unit, hmem, rfl⟩, ?_⟩
  exact le_of_lt (of_decide_eq_true hpos)

/-- The root once the machine is made and the restart is done. -/
theorem restartDiscards_eq (hrestart : d.restartDone = false) (p : Parameters)
    (progress : ProgressUnit → ℤ) (cached : Config × Staging.Machine) :
    ∃ done, restartDiscards {} { d with machine := some cached } ⟨p, progress, .restart⟩ =
      { d.setDisk (d.restarted p) with machine := some cached, restartDone := done } := by
  unfold restartDiscards Root.restarted
  by_cases hp : p.restart = true
  · refine ⟨true, ?_⟩
    rw [if_pos ⟨hp, hrestart⟩, if_pos hp]
    rfl
  · refine ⟨d.restartDone, ?_⟩
    rw [if_neg fun h => hp h.1, if_neg hp]
    rfl

theorem restarted_generations (d : Root) (p : Parameters) :
    (d.restarted p).generations = d.shared.disk.generations := by
  unfold Root.restarted
  split <;> rfl

theorem unlessCurrent_full {env : Env} {b : Body} (hmode : b.parameters.mode = .full)
    (current other : Ends) : unlessCurrent s env d b current other = (d, other) := by
  unfold unlessCurrent isAutoAlreadyCurrent
  rw [if_pos (show b.parameters.mode ≠ .auto by rw [hmode]; exact nofun)]

/-- A process without a machine makes one. -/
theorem machineFor_new {env : Env} {b : Body} {next : Root → Root × Ends} (hnew : d.machine = none)
    (hgate : factsAndActive env d.shared .staging = .ok gate) :
    machineFor s env d b next = next { d with
      machine := some (s.machineConfig d.shared.disk b.parameters gate,
        Staging.Machine.created (decide (b.parameters.mode = .full))) } := by
  unfold machineFor
  simp only [hnew, hgate]

variable {m : Staging.Machine}

theorem withMachine_some (hm : d.machine = some (c, m)) (f : Staging.World → Root × Ends) :
    withMachine d f = f (d.world c m) := by
  unfold withMachine
  rw [hm]

theorem cycleBegin_eq {b : Body} {w w' : Staging.World} (hm : d.machine = some (c, m))
    (hworld : (d.world c m).goto .idle = w) (hidentity : FactStore.readFactsIdentity w.db ≠ none)
    (hbegin : Staging.beginCycle {} w = w') (hbusy : w'.machine.pc ≠ .idle) :
    cycleBegin {} d b = (d.adopt w', .goes { b with place := .cycling }) := by
  unfold cycleBegin
  rw [withMachine_some hm]
  simp only [hworld]
  rw [if_neg, hbegin, if_neg hbusy]
  rintro ⟨-, hraises | hraises⟩
  · cases hraises
  · exact hidentity hraises

theorem reportCycle_ready {b : Body} (hm : d.machine = some (c, m))
    (hprogress : m.currentProgress = some record) (hready : record.status = .ready) :
    reportCycle d b = (d, .ends (.returned
      { progress := some (progressDelta b.progress record), advance := true })) := by
  unfold reportCycle
  rw [withMachine_some hm]
  simp only [Root.world, hprogress, hready]

variable (fingerprint) in
/-- **A ready staging is taken up by a new process.** -/
theorem takes_staging (h : ReadyStaging s d p facts gate name record dir) (hmode : p.mode = .full)
    (hnew : d.machine = none) (hrestart : d.restartDone = false) :
    ∃ d', Publishable d' (s.machineConfig d.shared.disk p gate) facts name record dir ∧
      ∀ progress, ∃ result, Takes (program s fingerprint) Calm d ⟨p, progress, .staging⟩ d'
        (.returned result) ∧ validDelta result.progress ∧ result.advance = true := by
  let c := s.machineConfig d.shared.disk p gate
  obtain ⟨facts', clock, hfacts', -, hidentity, -, -⟩ := factsAndActive_eq_ok.mp h.passes
  cases h.stored.symm.trans hfacts'
  obtain ⟨pinned, hpinned⟩ := h.pinned
  -- the machine is forced to build
  have hforce : decide (p.mode = .full) = true := decide_eq_true hmode
  let m : Staging.Machine := Staging.Machine.created true
  obtain ⟨done, hdone⟩ := restartDiscards_eq hrestart p (fun _ => 0) (c, m)
  let d₂ : Root := { d.setDisk (d.restarted p) with machine := some (c, m), restartDone := done }
  let disk : Staging.Disk :=
    { d.restarted p with staging := Staging.markStale {} (some name) (d.restarted p).staging }
  let job : Staging.Job :=
    ⟨name, record, Staging.computeTarget c facts.db gate.factsEpoch clock, false⟩
  let m₁ : Staging.Machine :=
    { m with currentDir := some name, currentProgress := some record, pc := .work job .gateReady }
  have hrefuse : c.refuseReason = none := by
    show (s.machineConfig d.shared.disk p gate).refuseReason = none
    unfold Setup.machineConfig
    split <;> rfl
  have hbegin : Staging.beginCycle {} ⟨c, facts, d.restarted p, m⟩ = ⟨c, facts, disk, m₁⟩ :=
    Staging.beginCycle_ready hidentity hrefuse rfl rfl rfl rfl (h.events clock hidentity) h.plan
      h.own h.ready (restarted_generations d p ▸ h.unpublished) h.other
  -- the cycle finds the record as it was
  have hload : Staging.loadProgress disk.staging name = some record :=
    (Staging.loadProgress_markStale_keep {} _ name).trans (Staging.findRecord_eq h.own).1
  have hlocated : disk.staging.find? name = some dir := by
    show (Staging.markStale {} (some name) (d.restarted p).staging).find? name = some dir
    unfold Staging.markStale
    rw [KeyedMap.find?_mapValues, h.located, Option.map_some, if_neg fun hne => hne.1 rfl]
  obtain ⟨m', hcycles, hprogress, hdir⟩ := Staging.cycles_ready (m := m₁) rfl hlocated hload h.ready
    hpinned h.container
  let d' : Root := d₂.adopt ⟨c, facts, (disk.parking name dir record).unparked name dir, m'⟩
  have hfound : d'.shared.disk.staging.find? name = some dir := Staging.Disk.find?_unparked_parking
  refine ⟨d', ⟨h.stored, ⟨m', rfl, hprogress, hdir⟩, hfound, ?_, h.ready, ?_, h.pinned,
    h.container⟩, fun progress => ⟨{ progress := some (progressDelta progress record), advance := true },
    ?_, validDelta_progressDelta progress record, rfl⟩⟩
  · unfold Staging.loadProgress at hload ⊢
    rw [hfound]
    rwa [hlocated] at hload
  · show record.generationId ∉ (d.restarted p).generations
    rw [restarted_generations]
    exact h.unpublished
  -- the pieces, one after another
  have hmade : Takes (program s fingerprint) Calm { d with machine := some (c, m) }
      ⟨p, progress, .restart⟩ d'
      (.returned { progress := some (progressDelta progress record), advance := true }) := by
    refine .via d₂ ⟨p, progress, .retry⟩ calm_empty (congrArg (·, _) hdone) ?_
    refine .via d₂ ⟨p, progress, .cycle⟩ calm_empty rfl ?_
    refine .via (d₂.adopt ⟨c, facts, disk, m₁⟩) ⟨p, progress, .cycling⟩ calm_empty ?_ ?_
    · show cycleBegin {} d₂ ⟨p, progress, .cycle⟩ = _
      refine cycleBegin_eq rfl (w := ⟨c, facts, d.restarted p, m⟩) ?_ ?_ hbegin (by exact nofun)
      · show Staging.World.mk c (d.shared.facts.getD _) _ m = _
        rw [h.stored]
        rfl
      · exact fun hnone => by cases hidentity.symm.trans hnone
    · refine takes_cycling hcycles (by exact nofun) h.stored (.ends calm_empty ?_)
      show reportCycle d' ⟨p, progress, .report⟩ = _
      exact reportCycle_ready rfl hprogress h.ready
  refine .via d ⟨p, progress, .machineForStaging⟩ calm_empty ?_
    (.via { d with machine := some (c, m) } ⟨p, progress, .restart⟩ calm_empty ?_
      hmade)
  · show (if p.mode = .indexOnly then _ else unlessCurrent s {} d _ _ _) = _
    rw [if_neg (by rw [hmode]; exact nofun), unlessCurrent_full hmode]
  · show machineFor s {} d ⟨p, progress, .machineForStaging⟩
      (fun d => (d, .goes ⟨p, progress, .restart⟩)) = _
    rw [machineFor_new hnew h.passes]
    simp only [hforce]
    rfl

/-- A container that is accepted has a whole manifest. -/
theorem content_of_verifyContainer {kit : Staging.Kit} {container : Option Staging.Container}
    (h : container.any (Staging.verifyContainer kit name) = true) :
    ∃ manifest, (container.bind fun c => c.manifest.content) = some manifest := by
  cases container with
  | none => cases h
  | some c =>
    rw [Option.any_some] at h
    unfold Staging.verifyContainer at h
    split at h
    · next m _ hm _ => exact ⟨m, hm⟩
    · cases h

theorem takes_switch (d : Root) (progress : ProgressUnit → ℤ) :
    Takes (program s fingerprint) Calm d ⟨p, progress, .switch⟩ d (.returned { advance := true }) :=
  .ends calm_empty rfl

theorem commitManifest_done {b : Body} {stagingDir generationId : Text} {identity : Dict}
    (hfacts : d.shared.facts = some facts) :
    commitManifest {} d b stagingDir generationId dir identity =
      ({ d with
        shared := { d.shared with
          active := .names generationId
            (layeredIdentity identity (Staging.readFactsSchemaVersion facts.db))
          disk := { d.shared.disk with parked := d.shared.disk.parked.erase generationId } }
        committed := d.committed ++ [generationId] }, .goes { b with place := .switch }) := by
  obtain ⟨⟨facts', disk, active, damaged, sidecars⟩, machine, restartDone, committed, named⟩ := d
  cases (show facts' = some facts from hfacts)
  unfold commitManifest
  simp only [true_or, if_true]

variable (s fingerprint p) in
/-- The seam, from its first piece to its end. -/
theorem takes_seam (disk : Staging.Disk) (h : Publishable d c facts name record dir)
    (hlocated : disk.staging.find? name = some dir)
    (hgenerations : disk.generations = d.shared.disk.generations) :
    ∃ d', ∀ progress, Takes (program s fingerprint) Calm (d.setDisk disk)
      ⟨p, progress, .seam name record.generationId⟩ d' (.returned { advance := true }) := by
  obtain ⟨dir', hdir', hrec, -, -⟩ := Staging.loadProgress_eq h.loaded
  cases h.located.symm.trans hdir'
  obtain ⟨manifest, hmanifest⟩ := content_of_verifyContainer h.container
  obtain ⟨m, hm, -, -⟩ := h.machine
  by_cases hpublish : s.publish = false
  · refine ⟨d.setDisk disk, fun progress => .ends calm_empty ?_⟩
    show publishSeam s {} (d.setDisk disk) ⟨p, progress, .seam name record.generationId⟩ name _ = _
    unfold publishSeam
    rw [if_pos hpublish]
    rfl
  by_cases hactive : ∃ identity, d.shared.active = .names record.generationId identity
  · -- the publication has been committed before
    obtain ⟨identity, hactive⟩ := hactive
    let d₁ : Root := { d.setDisk disk with
      shared := (d.setDisk disk).shared.restorePublished record.generationId }
    refine ⟨d₁, fun progress =>
      .via d₁ ⟨p, progress, .switch⟩ calm_empty ?_ (takes_switch d₁ progress)⟩
    show publishSeam s {} (d.setDisk disk) ⟨p, progress, .seam name record.generationId⟩ name _ = _
    unfold publishSeam
    rw [if_neg hpublish]
    simp only [show (d.setDisk disk).shared.active = _ from hactive, if_true]
    rfl
  · -- the container is renamed, and the manifest replaced
    let d₁ := (d.setDisk disk).setDisk
      { disk with
        staging := disk.staging.erase name
        parked := disk.parked.insert record.generationId record
        generations := record.generationId :: disk.generations }
    let d₂ : Root :=
      { d₁ with
        shared := { d₁.shared with
          active := .names record.generationId
            (layeredIdentity manifest.identity (Staging.readFactsSchemaVersion facts.db))
          disk := { d₁.shared.disk with
            parked := d₁.shared.disk.parked.erase record.generationId } }
        committed := d₁.committed ++ [record.generationId] }
    refine ⟨d₂, fun progress => ?_⟩
    refine .via (d.setDisk disk)
      ⟨p, progress, .rename name record.generationId⟩ calm_empty ?_ ?_
    · show publishSeam s {} (d.setDisk disk) ⟨p, progress, .seam name record.generationId⟩ name _ = _
      unfold publishSeam publishSeam.goOn
      rw [if_neg hpublish, withMachine_some (d := d.setDisk disk) hm]
      split
      · next active identity hnames =>
        rw [if_neg]
        rintro rfl
        exact hactive ⟨identity, hnames⟩
      · rfl
    refine .via d₁
      ⟨p, progress, .commit name record.generationId dir manifest.identity⟩ calm_empty ?_ ?_
    · show renameContainer {} (d.setDisk disk) ⟨p, progress, .rename name record.generationId⟩
        name record.generationId = _
      unfold renameContainer
      have hbare : ({ dir with record := none } : Staging.Dir).container.bind
          (fun c => c.manifest.content) = some manifest := hmanifest
      have hfresh : ¬ ((true : Bool) = false ∨ record.generationId ∈ disk.generations) := by
        rw [hgenerations]
        exact not_or.mpr ⟨nofun, h.unpublished⟩
      simp only [show (d.setDisk disk).shared.disk = disk from rfl, hlocated, hrec, hbare]
      rw [if_neg hfresh]
    refine .via d₂ ⟨p, progress, .switch⟩ calm_empty ?_ (takes_switch d₂ progress)
    show commitManifest {} d₁ ⟨p, progress, .commit name record.generationId dir _⟩ name _ dir _ = _
    exact commitManifest_done (d := d₁) h.stored

variable (s fingerprint) in
/-- **The ready staging is published.** -/
theorem takes_publishing (h : Publishable d c facts name record dir) (hmode : p.mode = .full) :
    ∃ d', ∀ progress, Takes (program s fingerprint) Calm d ⟨p, progress, .publishing⟩ d'
      (.returned { advance := true }) := by
  obtain ⟨dir', hdir', hrec, -, -⟩ := Staging.loadProgress_eq h.loaded
  cases h.located.symm.trans hdir'
  obtain ⟨m, hm, hprogress, hready⟩ := h.machine
  obtain ⟨pinned, hpinned⟩ := h.pinned
  let parking := d.shared.disk.parking name dir record
  let gid := record.generationId
  have hparking : parking.staging.find? name = some dir.bare := by
    show (d.shared.disk.staging.insert name dir.bare).find? name = some dir.bare
    rw [KeyedMap.find?_insert, if_pos rfl]
  obtain ⟨d', hseam⟩ := takes_seam s fingerprint p (parking.unparked name dir) h
    Staging.Disk.find?_unparked_parking rfl
  refine ⟨d', fun progress => ?_⟩
  refine .via d ⟨p, progress, .locate⟩ calm_empty ?_ ?_
  · show unlessCurrent s {} d ⟨p, progress, .publishing⟩ _ _ = _
    rw [unlessCurrent_full hmode, if_neg (by rw [hmode]; exact nofun)]
  refine .via d ⟨p, progress, .verify name gid⟩ calm_empty ?_ ?_
  · show locate s {} d ⟨p, progress, .locate⟩ = _
    unfold locate machineFor
    simp only [hm]
    rw [withMachine_some hm]
    have hfound : (some name).filter (fun n => (d.shared.disk.staging.find? n).isSome) =
        some name := by
      simp [Option.filter, h.located]
    have hdir : (some name <|> some record.generationId) = some name := rfl
    simp only [Root.world, hprogress, hready, Option.map_some, hdir, hfound]
    rfl
  refine .via d ⟨p, progress, .park name gid⟩ calm_empty ?_ ?_
  · show verifyPublishable {} d ⟨p, progress, .verify name gid⟩ name gid = _
    unfold verifyPublishable
    rw [withMachine_some hm]
    have hworld : (d.world c m).db = facts.db := by
      show (d.shared.facts.getD _).db = _
      rw [h.stored]
      rfl
    simp only [show (d.world c m).disk = d.shared.disk from rfl, h.loaded, hworld]
    rw [if_neg (not_not.mpr h.ready), show (d.world c m).config = c from rfl, hpinned]
  refine .via (d.setDisk parking) ⟨p, progress, .reopen name gid⟩ calm_empty ?_ ?_
  · show parkProgress {} d ⟨p, progress, .park name gid⟩ name gid = _
    unfold parkProgress
    simp only [h.located, hrec]
    rfl
  refine .via (d.setDisk parking) ⟨p, progress, .unpark name gid true⟩ calm_empty
    ?_ ?_
  · show reopenContainer {} (d.setDisk parking) ⟨p, progress, .reopen name gid⟩ name gid = _
    unfold reopenContainer
    rw [withMachine_some (d := d.setDisk parking) hm]
    simp only [show ((d.setDisk parking).world c m).disk = parking from rfl, hparking,
      Option.bind_some, show ((d.setDisk parking).world c m).config = c from rfl, h.container,
      Bool.and_self]
  refine .via (d.setDisk (parking.unparked name dir))
    ⟨p, progress, .seam name gid⟩ calm_empty ?_ (hseam progress)
  show unparkProgress {} (d.setDisk parking) ⟨p, progress, .unpark name gid true⟩ name gid true = _
  have hback : ({ dir.bare with record := some record } : Staging.Dir) = dir := by
    rw [← hrec]
    rfl
  have hstored : parking.parked.find? name = some record := by
    show (d.shared.disk.parked.insert name record).find? name = some record
    rw [KeyedMap.find?_insert, if_pos rfl]
  unfold unparkProgress
  simp only [show (d.setDisk parking).shared.disk = parking from rfl, hstored, hparking, hback,
    if_true]
  rfl

end Restaged

/-! ## A new process -/

/-- A new process takes the operation up. -/
def takenOver (w : World Parameters Result Root Body) : World Parameters Result Root Body :=
  { w with disk := w.disk.entered true }

section TakenOver

variable {s : Setup} {fingerprint : Text → Parameters → Text}
  {w : World Parameters Result Root Body}

theorem Open.takenOver (h : Open fingerprint w) : Open fingerprint (takenOver w) :=
  ⟨h.runner, h.machine, h.state, h.pending, h.valid⟩

/-- **A ready staging is resumed.** -/
theorem resumes_staging (h : Open fingerprint w) (hphase : w.record.phase = .staging)
    (hmode : w.record.parameters.mode = .full) (hnew : w.disk.machine = none)
    (hrestart : w.disk.restartDone = false) {facts : FactStore.World} {gate : Gate} {name : Text}
    {record : Staging.Record} {dir : Staging.Dir}
    (hstaging : ReadyStaging s w.disk w.record.parameters facts gate name record dir) :
    Resumes s fingerprint w := by
  obtain ⟨d', hpublishable, hstages⟩ := takes_staging fingerprint hstaging hmode
    hnew hrestart
  obtain ⟨acts, hacts, hends⟩ := h.takes (fun r => by rw [hphase]; rfl) hstages
  rcases hends with ⟨hcleanup, -⟩ | ⟨hopen, hdisk, hparameters, hnext⟩
  · rw [hphase] at hcleanup
    cases hcleanup
  rw [hphase] at hnext
  refine .of_run hacts ?_
  set w₁ := run (World.step (program s fingerprint)) w acts
  -- the publication, with the machine of the same process
  have hphase₁ : w₁.record.phase = .publishing := (Option.some.inj hnext).symm
  rw [← hdisk] at hpublishable
  obtain ⟨d'', hpublishes⟩ := takes_publishing s fingerprint
    (p := w₁.record.parameters) hpublishable (hparameters ▸ hmode)
  obtain ⟨acts₁, hacts₁, hends₁⟩ := hopen.takes (fun r => by rw [hphase₁]; rfl)
    fun progress => ⟨_, hpublishes progress, trivial, rfl⟩
  rcases hends₁ with ⟨hcleanup, -⟩ | ⟨hopen₂, -, hparameters₂, hnext₂⟩
  · rw [hphase₁] at hcleanup
    cases hcleanup
  rw [hphase₁] at hnext₂
  have hmode₂ := hparameters₂.trans hparameters
  refine .of_run hacts₁ (resumes_cleanup hopen₂ (Option.some.inj hnext₂).symm ?_ fun hauto => ?_)
  · rw [hmode₂, hmode]
    exact nofun
  · rw [hmode₂, hmode] at hauto
    cases hauto

/-- A staging is resumed if the active generation is found current. -/
theorem resumes_current (h : Open fingerprint w) (hphase : w.record.phase = .staging)
    (hmode : w.record.parameters.mode ≠ .indexOnly)
    (hcurrent : foundCurrent s {} w.disk.shared w.record.parameters.mode = true) :
    Resumes s fingerprint w := by
  obtain ⟨hauto, -⟩ := isAuto_of_foundCurrent hcurrent
  obtain ⟨acts, hacts, hends⟩ := h.takes (fun r => by rw [hphase]; rfl)
    fun progress => ⟨_, takes_current (s := s) (Or.inl rfl) hauto progress, trivial, rfl⟩
  rcases hends with ⟨hcleanup, -⟩ | ⟨hopen, hdisk, hparameters, hnext⟩
  · rw [hphase] at hcleanup
    cases hcleanup
  · rw [hphase] at hnext
    refine .of_run hacts (resumes_publishing hopen (Option.some.inj hnext).symm ?_ ?_)
    · rw [hparameters]
      exact hmode
    · rw [hdisk, hparameters]
      exact hcurrent

/-- **A publication that a new process takes up is not resumed**, if the active generation is not
found current. -/
theorem not_resumes_publishing (h : Open fingerprint w) (hphase : w.record.phase = .publishing)
    (hmode : w.record.parameters.mode ≠ .indexOnly)
    (hcurrent : foundCurrent s {} w.disk.shared w.record.parameters.mode = false) :
    ¬ Resumes s fingerprint (Rebuild.takenOver w) := by
  rintro ⟨acts, hacts, hsucceeded⟩
  have hlegible (a : Action Env Shared) (ha : a ∈ acts) : a.quiet Legible :=
    Action.quiet_mono (fun env henv => by rw [show env = {} from henv]; rfl) (hacts a ha)
  exact publishing_never (w := Rebuild.takenOver w) h.runner h.machine hphase h.state hmode rfl
    hcurrent hlegible hsucceeded

end TakenOver

/-! ### Two crashes of a full rebuild -/

/-- The full rebuild that has just been requested. -/
def sampleRecord : Record Parameters Result :=
  (newOperation sampleFingerprint 0 (ascii "a") (ascii "rebuild") sampleParameters machine).get
    (by decide)

theorem newOperation_sampleRecord :
    newOperation sampleFingerprint 0 (ascii "a") (ascii "rebuild") sampleParameters machine =
      some sampleRecord := by
  unfold sampleRecord
  rw [Option.some_get]

/-- The full rebuild after some actions. -/
def sampleAfter (acts : List (Action Env Shared)) : World Parameters Result Root Body :=
  run (World.step (program sampleSetup sampleFingerprint))
    { record := sampleRecord, disk := sampleRoot } acts

/-- The process ends when the container is ready, before the step is recorded. -/
def stagedActions : List (Action Env Shared) :=
  [.arrive { claim := raceClaim }, .run 0, .run 0] ++ stepActions 2 ++ stepActions 9 ++
    [.run 0, .run 0] ++ List.replicate 15 (.work {}) ++ [.crash]

/-- The process ends when the manifest is replaced, before the step is recorded. -/
def committedActions : List (Action Env Shared) :=
  [.arrive { claim := raceClaim }, .run 0, .run 0] ++ stepActions 2 ++ stepActions 9 ++
    stepActions 16 ++ [.run 0, .run 0] ++ List.replicate 9 (.work {}) ++ [.crash]

/-- What can be computed of an operation that can be taken up. -/
def isOpen (w : World Parameters Result Root Body) : Bool :=
  w.runner.isNone && decide (w.record.toMachine = machine) && !w.record.state.terminal &&
    !w.record.cancelPending && validateRecord sampleFingerprint w.record

theorem open_of_isOpen (h : isOpen w = true) : Open sampleFingerprint w := by
  unfold isOpen at h
  simp only [Bool.and_eq_true, Option.isNone_iff_eq_none, decide_eq_true_eq,
    Bool.not_eq_true'] at h
  obtain ⟨⟨⟨⟨hrunner, hmachine⟩, hstate⟩, hpending⟩, hvalid⟩ := h
  exact ⟨hrunner, hmachine, hstate, hpending, validateRecord_iff.mp hvalid⟩

theorem sampleAfter_committed : let w := sampleAfter committedActions
    isOpen w = true ∧ w.record.parameters.mode ≠ .indexOnly ∧ w.record.phase = .publishing ∧
      foundCurrent sampleSetup {} w.disk.shared w.record.parameters.mode = false ∧
      ∃ g ∈ w.disk.committed, w.disk.shared.active.generationId = some g ∧
        g ∈ w.disk.shared.disk.generations := by
  decide +kernel

end Rebuild
end Operations
end SemanticMemory
