import SemanticMemory.Operations.Cancel
import SemanticMemory.Operations.Migrate

/-!
# What a migration publishes

Whenever a migration replaces the live store, the live store is the one that its file was copied from,
so nothing is lost, and it does so at most once: `migrate_publishes`, over every run.  A migration that
is cancelled has replaced nothing.  One that is blocked or fails has replaced nothing in the runs in
which nothing fails once the store has been replaced; otherwise it may have, `migrate_publishes_failed`.

The history and the epoch that the gate does not compare are the live ones because every store that
replaces another is current, and a current store is not migrated.
-/

namespace SemanticMemory
namespace Operations
namespace Migrate

open Runs

variable {t : Table}

/-! ## Copies -/

/-- What is known of a file that was copied from the live store, and perhaps migrated. -/
structure Copy.Derives (c : Copy) : Prop where
  historyId : c.store.historyId = c.origin.historyId
  facts : c.store.facts = c.origin.facts
  format : c.store.eventFormatVersion ≤ max c.origin.eventFormatVersion FactStore.kEventFormatVersion

theorem derives_copy (s : Store) : Copy.Derives ⟨s, s⟩ := ⟨rfl, rfl, le_max_left _ _⟩

variable {c : Copy}

/-- A migration keeps the history and the facts. -/
theorem derives_migrateFile {fresh : Text} {store : Store} {status : Table.Status} (h : c.Derives)
    (hfile : t.migrateFile fresh c.store = .ok (store, status)) :
    Copy.Derives ⟨store, c.origin⟩ ∧ store.factSchemaVersion = t.head := by
  unfold Table.migrateFile at hfile
  split_ifs at hfile with hnegative hhead hnewer hcovers
  · obtain ⟨rfl, -⟩ := Prod.mk.inj (Except.ok.inj hfile)
    exact ⟨h, hhead⟩
  · obtain ⟨rfl, -⟩ := Prod.mk.inj (Except.ok.inj hfile)
    exact ⟨⟨h.historyId, h.facts, le_max_right _ _⟩, rfl⟩

/-- Whatever the helper answers, the file is a copy of the same store. -/
theorem derives_migrateCopy (env : Env) (h : c.Derives) :
    (migrateCopy t env c).1.Derives ∧ (migrateCopy t env c).1.origin = c.origin := by
  unfold migrateCopy
  cases hfile : t.migrateFile env.fresh c.store with
  | error status => cases env.migrator <;> simp [h]
  | ok result =>
    have hcommitted : Copy.Derives ⟨result.1, c.origin⟩ := (derives_migrateFile h hfile).1
    cases env.migrator <;> simp only
    · exact ⟨hcommitted, trivial⟩
    all_goals
      split_ifs
      · exact ⟨hcommitted, rfl⟩
      · exact ⟨h, rfl⟩

theorem head_of_done {env : Env} {c c' : Copy} {status : Table.Status} (h : c.Derives)
    (hdone : migrateCopy t env c = (c', .done status)) : c'.store.factSchemaVersion = t.head := by
  unfold migrateCopy at hdone
  simp only at hdone
  split at hdone
  · cases hfile : t.migrateFile env.fresh c.store with
    | error status => rw [hfile] at hdone; cases hdone
    | ok result =>
      obtain ⟨store, status'⟩ := result
      rw [hfile] at hdone
      cases hdone
      exact (derives_migrateFile h hfile).2
  · cases hdone
  · cases hdone

/-! ## The assertion on the root -/

/-- A file of the staging directory. -/
def Root.holds (d : Root) (c : Copy) : Prop :=
  d.staged = some c ∨ d.staging.bind Staging.snapshot = some c

/-- A live store that needs a migration is the one that was copied. -/
def Fresh (t : Table) (d : Root) (c : Copy) : Prop :=
  ∀ s, d.live = some s → t.disposition s = .needsMigration → s = c.origin

/-- A replacement by a migrated copy of the live store. -/
structure Faithful (t : Table) (p : Store × Copy) : Prop where
  origin : p.1 = p.2.origin
  derives : p.2.Derives
  current : t.disposition p.2.store = .current

structure Kept (t : Table) (d : Root) : Prop where
  once : d.replacements.length ≤ 1
  copies : ∀ c, d.holds c → c.Derives ∧ Fresh t d c
  faithful : ∀ p ∈ d.replacements, Faithful t p
  current : d.replacements ≠ [] → ∃ s, d.live = some s ∧ t.disposition s = .current

/-- A change of the staging directory. -/
structure Stages (d d' : Root) : Prop where
  live : d'.live = d.live
  replacements : d'.replacements = d.replacements
  copies : ∀ c', d'.holds c' →
    (∃ c, d.holds c ∧ c'.origin = c.origin ∧ (c.Derives → c'.Derives)) ∨
      ∃ s, d.live = some s ∧ c' = ⟨s, s⟩

section Roots

variable {d d' : Root}

/-- Files are removed or renamed. -/
theorem Stages.of_holds (live : d'.live = d.live) (replacements : d'.replacements = d.replacements)
    (holds : ∀ c, d'.holds c → d.holds c) : Stages d d' :=
  ⟨live, replacements, fun c hc => Or.inl ⟨c, holds c hc, rfl, id⟩⟩

theorem Kept.stages (h : Kept t d) (hs : Stages d d') : Kept t d' where
  once := hs.replacements ▸ h.once
  copies c' hc' := by
    rcases hs.copies c' hc' with ⟨c, hc, horigin, hderives⟩ | ⟨s, hlive, rfl⟩
    · obtain ⟨hc₁, hfresh⟩ := h.copies c hc
      refine ⟨hderives hc₁, fun s hs' hneeds => ?_⟩
      rw [horigin]
      exact hfresh s (hs.live ▸ hs') hneeds
    · refine ⟨derives_copy s, fun s' hs' _ => ?_⟩
      rw [hs.live, hlive] at hs'
      exact (Option.some.inj hs').symm
  faithful := hs.replacements ▸ h.faithful
  current hsome := by
    rw [hs.live]
    exact h.current (hs.replacements ▸ hsome)

theorem stages_erase {s : Staging} (h : d.staging = some s) (part : Part) :
    Stages d (d.setStaging (s.erase part)) := by
  refine .of_holds rfl rfl fun c hc => ?_
  unfold Root.holds Root.staged at *
  rw [h]
  cases part with
  | snapshot => exact hc.imp id fun hc => by cases hc
  | migrated => exact hc.imp (fun hc => by cases hc) id
  | manifest => exact hc
  | marker => exact hc

theorem stages_migrated {env : Env} (hc : d.staged = some c) :
    Stages d (d.setStaged (some (migrateCopy t env c).1)) := by
  obtain ⟨s, hs, hmigrated⟩ := Option.bind_eq_some_iff.mp hc
  refine ⟨rfl, rfl, fun c' hc' => Or.inl ?_⟩
  have hstaging : (d.setStaged (some (migrateCopy t env c).1)).staging =
      some { s with migrated := some (migrateCopy t env c).1 } := by
    unfold Root.setStaged
    rw [hs]
    rfl
  unfold Root.holds Root.staged at hc'
  rw [hstaging] at hc'
  rcases hc' with hc' | hc'
  · cases hc'
    refine ⟨c, Or.inl hc, ?_, fun hderives => (derives_migrateCopy _ hderives).1⟩
    unfold migrateCopy
    simp only
    repeat' split
    all_goals rfl
  · refine ⟨c', Or.inr ?_, rfl, id⟩
    rw [hs]
    exact hc'

/-- The live store stays current, and keeps what it has. -/
theorem Kept.weather (h : Kept t d) (x : Weather) : Kept t (weather t x d) := by
  cases x with
  | append fact =>
    have hback : ∀ s', (Migrate.weather t (.append fact) d).live = some s' →
        ∃ s, d.live = some s ∧ (t.disposition s = .current ∧ t.disposition s' = .current ∨
          s' = s) := by
      intro s' hs'
      obtain ⟨s, hs, rfl⟩ := Option.map_eq_some_iff.mp hs'
      refine ⟨s, hs, ?_⟩
      split_ifs with hcurrent
      · exact Or.inl ⟨hcurrent, hcurrent⟩
      · exact Or.inr rfl
    refine ⟨h.once, fun c hc => ⟨(h.copies c hc).1, fun s' hs' hneeds => ?_⟩, h.faithful,
      fun hsome => ?_⟩
    · obtain ⟨s, hs, ⟨-, hcurrent⟩ | rfl⟩ := hback s' hs'
      · cases hcurrent.symm.trans hneeds
      · exact (h.copies c hc).2 s' hs hneeds
    · obtain ⟨s, hs, hcurrent⟩ := h.current hsome
      refine ⟨_, Option.map_eq_some_iff.mpr ⟨s, hs, rfl⟩, ?_⟩
      rw [if_pos hcurrent]
      exact hcurrent
  | create store =>
    simp only [Migrate.weather]
    split_ifs with hcreate
    · refine ⟨h.once, fun c hc => ⟨(h.copies c hc).1, fun s hs hneeds => ?_⟩, h.faithful,
        fun hsome => ⟨store, rfl, hcreate.2⟩⟩
      cases hs
      cases hcreate.2.symm.trans hneeds
    · exact h
  | replace store =>
    simp only [Migrate.weather]
    split_ifs with hcurrent
    · refine ⟨h.once, fun c hc => ⟨(h.copies c hc).1, fun s hs hneeds => ?_⟩, h.faithful,
        fun hsome => ⟨store, rfl, hcurrent⟩⟩
      cases hs
      cases hcurrent.symm.trans hneeds
    · exact h

theorem weather_replacements (x : Weather) (d : Root) :
    (Migrate.weather t x d).replacements = d.replacements ∧
      (Migrate.weather t x d).staging = d.staging := by
  cases x with
  | append fact => exact ⟨rfl, rfl⟩
  | create store =>
    simp only [Migrate.weather]
    split_ifs <;> exact ⟨rfl, rfl⟩
  | replace store =>
    simp only [Migrate.weather]
    split_ifs <;> exact ⟨rfl, rfl⟩

end Roots

/-! ## The assertion on the record -/

/-- What the record says of the root; `strict` stands for the runs in which nothing fails after the
replacement. -/
structure Between (t : Table) (strict : Prop) (r : Record Parameters Result) (d : Root) : Prop where
  machine : r.toMachine = machine
  kept : Kept t d
  queued : r.state = .queued → r.phase = .preflight
  early : r.phase = .preflight ∨ r.phase = .waitingForQuiesce ∨ r.phase = .staging →
    d.replacements = []
  cancel : r.cancelRequested = true → d.replacements = [] ∧ r.phase ≠ .publishing
  cancelled : r.state = .cancelled → d.replacements = []
  ended : strict → r.state = .failed ∨ r.state = .blocked → d.replacements = []

def Place.phase : Place → Phase
  | .preflight => .preflight
  | .waitingForQuiesce => .waitingForQuiesce
  | .remove .advance | .reopening _ => .reopening
  | .staging | .reuse | .remove _ | .mkdir | .snapshot | .rename | .migrate | .manifest => .staging
  | .publishing | .prepare | .exclusive | .replaced | .prime | .marker | .reopen
  | .unwind _ => .publishing
  | .unknownPhase => .catchingUp

def At (strict : Prop) (r : Record Parameters Result) (d : Root) : Place → Prop
  | .prepare | .exclusive | .unwind _ => strict → d.replacements = []
  | .replaced | .prime | .marker => d.staging.isSome
  | .reopening cancelRequested => cancelRequested = r.cancelRequested
  | .remove .advance => r.cancelRequested = true
  | _ => True

/-- What holds inside a step. -/
structure Inside (strict : Prop) (r : Record Parameters Result) (d : Root) (b : Place) : Prop where
  phase : b = .unknownPhase ∨ b.phase = r.phase
  at_ : At strict r d b

/-- What holds at the end of a step. -/
def After (strict : Prop) (d : Root) : Outcome Result → Prop
  | .returned _ => True
  | .blocked _ | .failed _ => strict → d.replacements = []

/-- What every run keeps. -/
def assertions (t : Table) (strict : Prop) : Assertions Parameters Result Root Place where
  between := Between t strict
  inside := Inside strict
  after _ := After strict

/-- Nothing fails at a place. -/
def quiet (env : Env) : Place → Prop
  | .publishing | .reopening _ => env.helper = .ok
  | .replaced | .prime | .marker => env.fault = .ok
  | .reopen => env.maintenance = .ok ∨ env.maintenance = .raises
  | _ => True

/-- The condition: once the operation has replaced the store, nothing fails, and no runner without the
type of operations comes. -/
def conditions (strict : Prop) : Conditions Root Env Weather Place where
  work env d b := strict → d.replacements = [] ∨ quiet env b
  weather _ _ := True
  unsupported d := strict → d.replacements = []

instance (env : Env) (b : Place) : Decidable (quiet env b) := by
  unfold quiet
  split <;> infer_instance

instance (env : Env) (d : Root) (b : Place) : Decidable ((conditions True).work env d b) :=
  inferInstanceAs (Decidable (True → _))

instance (x : Weather) (d : Root) : Decidable ((conditions True).weather x d) :=
  inferInstanceAs (Decidable True)

instance (d : Root) : Decidable ((conditions True).unsupported d) :=
  inferInstanceAs (Decidable (True → d.replacements = []))

section Between

variable {strict : Prop} {r r' : Record Parameters Result} {d d' : Root}

theorem Between.stages (h : Between t strict r d) (hs : Stages d d') : Between t strict r d' where
  machine := h.machine
  kept := h.kept.stages hs
  queued := h.queued
  early he := hs.replacements.trans (h.early he)
  cancel hc := ⟨hs.replacements.trans (h.cancel hc).1, (h.cancel hc).2⟩
  cancelled hc := hs.replacements.trans (h.cancelled hc)
  ended hstrict he := hs.replacements.trans (h.ended hstrict he)

/-- A migration can be cancelled before it publishes. -/
theorem early_of_isCancelable (h : Between t strict r d) (hcancelable : r.isCancelable = true) :
    r.phase = .preflight ∨ r.phase = .waitingForQuiesce ∨ r.phase = .staging := by
  unfold Record.isCancelable at hcancelable
  split_ifs at hcancelable with hterminal hqueued hmem
  · exact Or.inl (h.queued hqueued)
  · rw [h.machine] at hcancelable
    have hbefore : Migrate.machine.phases.idxOf r.phase <
        Migrate.machine.phases.idxOf Migrate.machine.irreversiblePhase := by
      simpa using hcancelable
    cases hphase : r.phase <;> rw [hphase] at hbefore
    · exact Or.inl rfl
    · exact Or.inr (Or.inl rfl)
    · exact Or.inr (Or.inr rfl)
    all_goals exact absurd hbefore (by decide)

/-- The record goes on in its phase, to another state. -/
theorem Between.stays (h : Between t strict r d) (hcontinues : r.Continues r') {state : State}
    (hview : r'.view = { r.view with state := state }) (hqueued : state ≠ .queued)
    (hcancelled : state = .cancelled → d.replacements = [])
    (hended : strict → state = .failed ∨ state = .blocked → d.replacements = []) :
    Between t strict r' d := by
  obtain ⟨hstate', hphase', hrequested', -⟩ := View.mk.inj hview
  refine ⟨hcontinues.machine.trans h.machine, h.kept, fun hq => absurd (hstate'.symm.trans hq) hqueued,
    fun hearly => h.early ?_, fun hrequested => ?_, fun hc => hcancelled (hstate'.symm.trans hc),
    fun hstrict he => hended hstrict ?_⟩
  · rwa [hphase'] at hearly
  · rw [hphase']
    exact h.cancel (hrequested'.symm.trans hrequested)
  · rwa [hstate'] at he

theorem Between.request (h : Between t strict r d) (hcontinues : r.Continues r')
    (hrequested : classifyCancel r = .requested)
    (hview : r'.view = { r.view with cancelRequested := true }) : Between t strict r' d := by
  have hearly := early_of_isCancelable h (isCancelable_of_requested hrequested)
  obtain ⟨hstate', hphase', -, -⟩ := View.mk.inj hview
  have hstate : r'.state = r.state := hstate'
  have hphase : r'.phase = r.phase := hphase'
  refine ⟨hcontinues.machine.trans h.machine, h.kept, fun hq => ?_, fun _ => h.early hearly,
    fun _ => ⟨h.early hearly, ?_⟩, fun _ => h.early hearly, fun _ _ => h.early hearly⟩
  · rw [hphase]
    exact h.queued (hstate.symm.trans hq)
  · rw [hphase]
    rcases hearly with hp | hp | hp <;> rw [hp] <;> decide

theorem Between.moves (h : Between t strict r d) (hcontinues : r.Continues r') (hmoves : Moves r r') :
    Between t strict r' d := by
  cases hmoves with
  | started before view =>
    exact h.stays hcontinues view (by decide) (fun hc => by cases hc)
      fun _ he => by rcases he with he | he <;> cases he
  | diverted cancel pending cancelPhase other view =>
    obtain ⟨hrequested, -⟩ := Record.cancelPending_iff.mp pending
    obtain ⟨hnone, -⟩ := h.cancel hrequested
    obtain ⟨hstate', hphase', -, -⟩ := View.mk.inj view
    have hcancel : cancel = .reopening := by
      rw [h.machine] at cancelPhase
      exact (Option.some.inj cancelPhase).symm
    have hphase : r'.phase = .reopening := hphase'.trans hcancel
    refine ⟨hcontinues.machine.trans h.machine, h.kept, fun hq => ?_, fun _ => hnone,
      fun _ => ⟨hnone, ?_⟩, fun _ => hnone, fun _ _ => hnone⟩
    · exact absurd (hstate'.symm.trans hq) (by decide)
    · rw [hphase]
      decide
  | cancelled cancelable cancelPhase view =>
    rw [h.machine] at cancelPhase
    cases cancelPhase

/-- The phase that comes after another. -/
theorem successor_cases {phase next : Phase}
    (h : Migrate.machine.phases[Migrate.machine.phases.idxOf phase + 1]? = some next) :
    (phase = .preflight ∧ next = .waitingForQuiesce) ∨ (phase = .waitingForQuiesce ∧ next = .staging) ∨
      (phase = .staging ∧ next = .publishing) ∨ (phase = .publishing ∧ next = .reopening) := by
  cases phase <;> simp [Migrate.machine] at h <;> simp [h]

theorem Between.settles (h : Between t strict r d) (hstate : r.state = .running)
    {result : StepResult Result} (hcontinues : r.Continues r')
    (hsettled : Settled .completed result r r') : Between t strict r' d := by
  cases hsettled with
  | held quiet view =>
    refine Between.stays h hcontinues (show _ = { r.view with state := r.state } from view)
      (by rw [hstate]; decide) (fun hc => by cases hstate.symm.trans hc) fun _ he => ?_
    rw [hstate] at he
    rcases he with he | he <;> cases he
  | cancelled cancel requested view =>
    exact h.stays hcontinues view (by decide) (fun _ => (h.cancel requested).1)
      fun _ he => by rcases he with he | he <;> cases he
  | succeeded last free plain view =>
    obtain ⟨hstate', hphase', hrequested', -⟩ := View.mk.inj view
    have hphase : r'.phase = r.phase := hphase'
    have hsucceeded : r'.state = .succeeded := hstate'
    refine ⟨hcontinues.machine.trans h.machine, h.kept, fun hq => ?_, fun he => h.early (hphase ▸ he),
      fun hr => ?_, fun hc => ?_, fun _ he => ?_⟩
    · cases hsucceeded.symm.trans hq
    · rw [hphase]
      exact h.cancel (hrequested'.symm.trans hr)
    · cases hsucceeded.symm.trans hc
    · rw [hsucceeded] at he
      rcases he with he | he <;> cases he
  | next next successor free plain view =>
    obtain ⟨hstate', hphase', hrequested', -⟩ := View.mk.inj view
    have hrunning : r'.state = .running := hstate'.trans hstate
    have hphase : r'.phase = next := hphase'
    rw [h.machine] at successor
    have hcases := successor_cases successor
    refine ⟨hcontinues.machine.trans h.machine, h.kept, fun hq => ?_, fun he => h.early ?_,
      fun hr => ?_, fun hc => ?_, fun _ he => ?_⟩
    · cases hrunning.symm.trans hq
    · rw [hphase] at he
      rcases hcases with ⟨hp, hn⟩ | ⟨hp, hn⟩ | ⟨hp, hn⟩ | ⟨hp, hn⟩ <;>
        simp only [hp, hn] at he ⊢ <;> simp at he ⊢
    · have hr : r.cancelRequested = true := hrequested'.symm.trans hr
      refine ⟨(h.cancel hr).1, ?_⟩
      rw [hphase]
      rcases hcases with ⟨hp, hn⟩ | ⟨hp, hn⟩ | ⟨hp, hn⟩ | ⟨hp, hn⟩ <;> rw [hn]
      · decide
      · decide
      · -- an advance into the publication is held for the cancel
        exfalso
        have hpending := Mindful.pending hstate hr (by rw [h.machine, hp]; decide)
          (by rw [h.machine, hp]; decide)
        rcases free with hfree | hfree
        · rw [hpending] at hfree
          cases hfree
        · rw [h.machine, hp] at hfree
          cases hfree
      · decide
    · cases hrunning.symm.trans hc
    · rw [hrunning] at he
      rcases he with he | he <;> cases he

end Between

/-! ## The pieces -/

section Pieces

variable {strict : Prop} {r : Record Parameters Result} {d d' : Root} {env : Env}

abbrev Worked (t : Table) (strict : Prop) (r : Record Parameters Result) :
    Root × Ends → Prop :=
  (assertions t strict).worked r

/-- A piece leaves the root, and goes on. -/
theorem worked_goes (h : Between t strict r d) {b : Place} (hphase : b.phase = r.phase)
    (hat : At strict r d b) : Worked t strict r (d, .goes b) :=
  ⟨h, Or.inr hphase, hat⟩

/-- A piece leaves the root, and the step is at its end. -/
theorem worked_ends (h : Between t strict r d) {o : Outcome Result} (hafter : After strict d o) :
    Worked t strict r (d, .ends o) :=
  ⟨h, hafter⟩

/-- An end with nothing replaced. -/
theorem after_of_none (hnone : strict → d.replacements = []) (o : Outcome Result) :
    After strict d o := by
  cases o with
  | returned result => trivial
  | blocked error => exact hnone
  | failed error => exact hnone

theorem liveDisposition_ok {phase : Phase} (hhelper : env.helper = .ok) :
    liveDisposition t env d phase = .ok
      (match d.live with
        | none => (.notCreated, none)
        | some store => (t.disposition store, some store)) := by
  unfold liveDisposition
  rw [hhelper]
  cases d.live <;> rfl

/-- Only an answer of the helper says that the store needs a migration. -/
theorem live_of_needsMigration {phase : Phase} {schema : Option Store}
    (h : liveDisposition t env d phase = .ok (.needsMigration, schema)) :
    ∃ s, d.live = some s ∧ t.disposition s = .needsMigration := by
  unfold liveDisposition at h
  split at h
  · cases h
  · split_ifs at h <;> cases h
  · split at h
    · cases h
    · next store hlive => exact ⟨store, hlive, (Prod.mk.inj (Except.ok.inj h)).1⟩

/-- After the replacement the store is found current, if the helper does not fail. -/
theorem current_of_replaced (h : Kept t d) (phase : Phase) (hsome : d.replacements ≠ [])
    (hhelper : env.helper = .ok) :
    ∃ s, liveDisposition t env d phase = .ok (.current, some s) := by
  obtain ⟨s, hs, hcurrent⟩ := h.current hsome
  refine ⟨s, ?_⟩
  rw [liveDisposition_ok hhelper, hs]
  simp only [hcurrent]

/-- A migrated copy of a store that needs a migration is current. -/
theorem current_of_published (hneeds : t.disposition c.origin = .needsMigration)
    (hderives : c.Derives) (hhead : c.store.factSchemaVersion = t.head) :
    t.disposition c.store = .current := by
  have hformat : c.origin.eventFormatVersion ≤ FactStore.kEventFormatVersion := by
    by_contra hlt
    unfold Table.disposition at hneeds
    rw [if_pos (lt_of_not_ge hlt)] at hneeds
    cases hneeds
  have hle := hderives.format
  rw [max_eq_right hformat] at hle
  unfold Table.disposition Table.dispositionFor
  rw [if_neg (not_lt.mpr hle), if_pos hhead]

theorem worked_next (h : Between t strict r d) (hnone : strict → d.replacements = []) {next : Next}
    (hphase : (Place.remove next).phase = r.phase) : Worked t strict r (d, next.ends) := by
  cases next with
  | rebuild => exact worked_goes h hphase trivial
  | advance => exact worked_ends h trivial
  | blocked error => exact worked_ends h hnone
  | failed error => exact worked_ends h hnone

/-- A removal is made while nothing is replaced. -/
theorem worked_removeStaging (h : Between t strict r d) {next : Next}
    (hphase : (Place.remove next).phase = r.phase) (hat : At strict r d (.remove next)) :
    Worked t strict r (removeStaging env d next) := by
  have hnone : d.replacements = [] := by
    cases next with
    | advance => exact (h.cancel hat).1
    | rebuild => exact h.early (Or.inr (Or.inr hphase.symm))
    | blocked error => exact h.early (Or.inr (Or.inr hphase.symm))
    | failed error => exact h.early (Or.inr (Or.inr hphase.symm))
  unfold removeStaging
  split_ifs
  · exact worked_next h (fun _ => hnone) hphase
  · split
    · exact worked_ends h fun _ => hnone
    · exact h
    · split
      · exact worked_next h (fun _ => hnone) hphase
      · next s hs =>
        split_ifs
        · have hstages : Stages d { d with staging := none } :=
            .of_holds rfl rfl fun c hc => by rcases hc with hc | hc <;> cases hc
          exact worked_next (h.stages hstages) (fun _ => hnone) hphase
        · have herased := h.stages (stages_erase hs env.part)
          refine worked_goes herased hphase ?_
          cases next with
          | advance => exact hat
          | _ => trivial

variable (env) in
theorem worked_migrated (h : Between t strict r d) (hc : d.staged = some c) :
    Between t strict r (d.setStaged (some (migrateCopy t env c).1)) :=
  h.stages (stages_migrated hc)

theorem worked_stagingReuse (h : Between t strict r d) (hphase : r.phase = .staging) :
    Worked t strict r (stagingReuse t env d) := by
  unfold stagingReuse
  split
  · exact worked_goes (b := .remove .rebuild) h hphase.symm trivial
  · next c hc =>
    have hmigrated := worked_migrated env h hc
    rcases hanswer : migrateCopy t env c with ⟨c', answer⟩
    rw [hanswer] at hmigrated
    have hremoved : Worked t strict r (d.setStaged (some c'), .goes (.remove .rebuild)) :=
      worked_goes (b := .remove .rebuild) hmigrated hphase.symm trivial
    cases answer with
    | done status =>
      cases status with
      | noMigration => exact worked_ends hmigrated trivial
      | migrated => exact hremoved
    | broken status => exact hremoved
    | failed error => exact hremoved

theorem worked_stagingMigrate (h : Between t strict r d) (hphase : r.phase = .staging) :
    Worked t strict r (stagingMigrate t env d) := by
  unfold stagingMigrate
  split
  · exact worked_goes (b := .remove (.blocked _)) h hphase.symm trivial
  · next c hc =>
    have hmigrated := worked_migrated env h hc
    rcases hanswer : migrateCopy t env c with ⟨c', answer⟩
    rw [hanswer] at hmigrated
    cases answer with
    | done status => exact worked_goes (b := .manifest) hmigrated hphase.symm trivial
    | broken status => exact worked_goes (b := .remove (.blocked _)) hmigrated hphase.symm trivial
    | failed error => exact worked_goes (b := .remove (.failed _)) hmigrated hphase.symm trivial

theorem worked_stagingSnapshot (h : Between t strict r d) (hphase : r.phase = .staging) :
    Worked t strict r (stagingSnapshot env d) := by
  unfold stagingSnapshot
  split
  · next store s _ hlive hs =>
    have hstages : Stages d (d.setStaging { s with snapshot := some ⟨store, store⟩ }) := by
      refine ⟨rfl, rfl, fun c hc => ?_⟩
      rcases hc with hc | hc
      · have hstaged : d.staged = some c := (congrArg (·.bind Staging.migrated) hs).trans hc
        exact Or.inl ⟨c, Or.inl hstaged, rfl, id⟩
      · cases hc
        exact Or.inr ⟨store, hlive, rfl⟩
    exact worked_goes (b := .rename) (h.stages hstages) hphase.symm trivial
  · exact worked_goes (b := .remove (.blocked _)) h hphase.symm trivial
  · exact worked_goes (b := .remove (.blocked _)) h hphase.symm trivial
  · exact worked_goes (b := .remove (.failed _)) h hphase.symm trivial

/-- **The publication**: what is published is a migrated copy of the live store. -/
theorem worked_publishStaged (h : Between t strict r d) (hstate : r.state = .running)
    (hphase : r.phase = .publishing) (hnone : strict → d.replacements = []) {live : Store}
    (hlive : d.live = some live) (hneeds : t.disposition live = .needsMigration) :
    Worked t strict r (publishStaged t env d live) := by
  have hunwinds {d' : Root} (h' : Between t strict r d') (hd' : d'.replacements = d.replacements)
      (code : Text) : Worked t strict r (d', .goes (.unwind (.maintenance code))) :=
    worked_goes h' hphase.symm fun hstrict => hd'.trans (hnone hstrict)
  unfold publishStaged
  split
  · exact hunwinds h rfl _
  next c hc =>
  have hmigrated := worked_migrated env h hc
  obtain ⟨hderives, hfresh⟩ := h.kept.copies c (Or.inl hc)
  obtain ⟨hderives', horigin⟩ := derives_migrateCopy (t := t) env hderives
  rcases hanswer : migrateCopy t env c with ⟨c', answer⟩
  rw [hanswer] at hmigrated hderives' horigin
  cases answer with
  | broken status => exact hunwinds hmigrated rfl _
  | failed error => exact hunwinds hmigrated rfl _
  | done status =>
    simp only
    split_ifs with hhistory
    · exact hunwinds hmigrated rfl _
    split
    · -- the live store is the one that was copied
      have hempty : d.replacements = [] := by
        by_contra hsome
        obtain ⟨s, hs, hcurrent⟩ := h.kept.current hsome
        cases hlive.symm.trans hs
        cases hcurrent.symm.trans hneeds
      have hsame : live = c'.origin := (hfresh live hlive hneeds).trans horigin.symm
      have hcurrent := current_of_published (hsame ▸ hneeds) hderives' (head_of_done hderives hanswer)
      obtain ⟨s, hs, -⟩ := Option.bind_eq_some_iff.mp hc
      have hholds (c₁ : Copy) (hc₁ : (d.setStaged none).holds c₁) : d.holds c₁ := by
        unfold Root.holds Root.staged Root.setStaged at *
        rw [hs] at hc₁ ⊢
        exact hc₁.imp (fun hc₁ => by cases hc₁) id
      refine ⟨⟨h.machine, ⟨?_, fun c₁ hc₁ => ?_, fun p hp => ?_, fun _ => ⟨_, rfl, hcurrent⟩⟩,
        h.queued, fun he => ?_, fun hr => absurd hphase (h.cancel hr).2,
        fun hs => (by cases hstate.symm.trans hs), fun _ he => ?_⟩, Or.inr hphase.symm, ?_⟩
      · show (d.replacements ++ [_]).length ≤ 1
        rw [hempty]
        exact le_refl _
      · refine ⟨(h.kept.copies c₁ (hholds c₁ hc₁)).1, fun s hs hneeds' => ?_⟩
        cases hs
        cases hcurrent.symm.trans hneeds'
      · change p ∈ d.replacements ++ [_] at hp
        rw [hempty] at hp
        rcases List.mem_singleton.mp hp with rfl
        exact ⟨hsame, hderives', hcurrent⟩
      · rw [hphase] at he
        rcases he with he | he | he <;> cases he
      · rw [hstate] at he
        rcases he with he | he <;> cases he
      · show (d.staging.map _).isSome
        rw [hs]
        rfl
    · exact hunwinds hmigrated rfl _

/-- Under the lease, up to the replacement. -/
theorem worked_exclusive (h : Between t strict r d) (hstate : r.state = .running)
    (hphase : r.phase = .publishing) (hnone : strict → d.replacements = []) :
    Worked t strict r (exclusive t env d) := by
  have hunwinds (pending : Clear.Pending) : Worked t strict r (d, .goes (.unwind pending)) :=
    worked_goes h hphase.symm hnone
  unfold exclusive
  split
  · exact hunwinds _
  · exact hunwinds _
  · exact h
  · exact hunwinds _
  · next live _ hlive =>
    split
    · exact hunwinds _
    · exact hunwinds _
    · split_ifs with hmarked
      · refine worked_goes (b := .prime) h hphase.symm ?_
        obtain ⟨s, hs, -⟩ := (Option.any_eq_true _ _).mp hmarked
        exact Option.isSome_iff_exists.mpr ⟨s, hs⟩
      · exact hunwinds _
    · next schema hread =>
      obtain ⟨s, hs, hneeds⟩ := live_of_needsMigration hread
      cases hlive.symm.trans hs
      exact worked_publishStaged h hstate hphase hnone hlive hneeds
    · exact hunwinds _

/-- A store that is not found current has not been replaced, if the helper does not fail. -/
theorem none_of_not_current (h : Kept t d) (phase : Phase)
    (hcond : strict → d.replacements = [] ∨ env.helper = .ok)
    (hread : ∀ s, liveDisposition t env d phase ≠ .ok (.current, some s)) (hstrict : strict) :
    d.replacements = [] := by
  by_contra hsome
  obtain ⟨s, hs⟩ := current_of_replaced h phase hsome
    ((hcond hstrict).resolve_left hsome)
  exact hread s hs

theorem worked_publishing (h : Between t strict r d) (hphase : r.phase = .publishing)
    (hcond : strict → d.replacements = [] ∨ env.helper = .ok) :
    Worked t strict r (d, publishingStart t env d) := by
  have hnone := none_of_not_current h.kept .publishing hcond
  unfold publishingStart
  cases hread : liveDisposition t env d .publishing with
  | error o =>
    exact worked_ends h (after_of_none (hnone fun s hs => by cases hread.symm.trans hs) o)
  | ok result =>
    obtain ⟨disposition, schema⟩ := result
    simp only
    split_ifs with hcurrent hstaged
    · exact worked_ends h trivial
    all_goals
      have hnone := hnone fun s hs => by
        cases hread.symm.trans hs
        exact hcurrent rfl
    · exact worked_goes (b := .prepare) h hphase.symm hnone
    · exact worked_ends h hnone

theorem worked_reopening (h : Between t strict r d) (hphase : r.phase = .reopening)
    {cancelRequested : Bool} (hrequested : cancelRequested = r.cancelRequested)
    (hcond : strict → d.replacements = [] ∨ env.helper = .ok) :
    Worked t strict r (d, reopening t env d cancelRequested) := by
  have hnone := none_of_not_current h.kept .reopening hcond
  unfold reopening
  split_ifs with hcancel
  · exact worked_goes (b := .remove .advance) h hphase.symm (hrequested.symm.trans hcancel)
  · split
    · next o hread =>
      exact worked_ends h (after_of_none (hnone fun s hs => by cases hread.symm.trans hs) o)
    · exact worked_ends h trivial
    · next disposition schema hother hread =>
      refine worked_ends h (hnone fun s hs => ?_)
      cases hread.symm.trans hs
      exact hother s rfl rfl

theorem worked_staging (h : Between t strict r d) (hphase : r.phase = .staging) :
    Worked t strict r (d, stagingStart t env d) := by
  have hnone := h.early (Or.inr (Or.inr hphase))
  unfold stagingStart
  split
  · exact worked_ends h (after_of_none (fun _ => hnone) _)
  · split_ifs
    · exact worked_ends h trivial
    · split
      · exact worked_goes (b := .mkdir) h hphase.symm trivial
      · split_ifs
        · exact worked_goes (b := .reuse) h hphase.symm trivial
        · exact worked_goes (b := .remove .rebuild) h hphase.symm trivial

/-- The files are there under the same names, or under others. -/
theorem worked_rename (h : Between t strict r d) (hphase : r.phase = .staging) :
    Worked t strict r (migrateStep t env d .rename) := by
  simp only [migrateStep]
  split
  · next s _ hs =>
    split
    · next c hc =>
      have hstages : Stages d (d.setStaging { s with snapshot := none, migrated := some c }) := by
        refine .of_holds rfl rfl fun c' hc' => Or.inr ?_
        rcases hc' with hc' | hc'
        · cases hc'
          rw [hs]
          exact hc
        · cases hc'
      exact worked_goes (b := .migrate) (h.stages hstages) hphase.symm trivial
    · exact h
  · exact h

/-- The files are as they were. -/
theorem stages_setStaging {s s' : Staging} (hs : d.staging = some s)
    (hsnapshot : s'.snapshot = s.snapshot) (hmigrated : s'.migrated = s.migrated) :
    Stages d (d.setStaging s') := by
  refine .of_holds rfl rfl fun c hc => ?_
  unfold Root.holds Root.staged at *
  rw [hs]
  exact hc.imp (fun hc => hmigrated.symm.trans hc) fun hc => hsnapshot.symm.trans hc

/-- A piece under the lease that changes nothing. -/
theorem worked_underLease (h : Between t strict r d) (hphase : r.phase = .publishing)
    (hcond : strict → d.replacements = [] ∨ env.fault = .ok) (next : Place)
    (hnext : next.phase = .publishing) (hat : At strict r d next) (code : Text) :
    Worked t strict r (d, underLease env code next) := by
  unfold underLease
  split
  · exact worked_goes h (hnext.trans hphase.symm) hat
  · next hfault =>
    exact worked_goes (b := .unwind _) h hphase.symm fun hstrict =>
      (hcond hstrict).resolve_right hfault

/-- **What every piece keeps.** -/
theorem worked_migrateStep (h : Between t strict r d) (hstate : r.state = .running) {b : Place}
    (hin : Inside strict r d b) (hcond : strict → d.replacements = [] ∨ quiet env b) :
    Worked t strict r (migrateStep t env d b) := by
  by_cases hunknown : b = .unknownPhase
  · subst hunknown
    exact h
  have hphase := hin.phase.resolve_left hunknown
  have hat := hin.at_
  cases b with
  | preflight =>
    exact worked_ends h (after_of_none (fun _ => h.early (Or.inl hphase.symm)) _)
  | waitingForQuiesce =>
    exact worked_ends h (after_of_none (fun _ => h.early (Or.inr (Or.inl hphase.symm))) _)
  | staging => exact worked_staging h hphase.symm
  | reuse => exact worked_stagingReuse h hphase.symm
  | remove next => exact worked_removeStaging h hphase hat
  | mkdir =>
    simp only [migrateStep]
    split
    · have hstages : Stages d (d.setStaging {}) :=
        .of_holds rfl rfl fun c hc => by rcases hc with hc | hc <;> cases hc
      exact worked_goes (b := .snapshot) (h.stages hstages) hphase trivial
    · exact h
  | snapshot => exact worked_stagingSnapshot h hphase.symm
  | rename => exact worked_rename h hphase.symm
  | migrate => exact worked_stagingMigrate h hphase.symm
  | manifest =>
    simp only [migrateStep]
    split
    · next s _ hs =>
      have hstages : Stages d (d.setStaging { s with manifest := true }) :=
        stages_setStaging hs rfl rfl
      exact worked_ends (h.stages hstages) trivial
    · exact worked_ends h fun _ => h.early (Or.inr (Or.inr hphase.symm))
  | publishing => exact worked_publishing h hphase.symm hcond
  | prepare =>
    simp only [migrateStep, maintained]
    split
    · exact worked_goes (b := .exclusive) h hphase hat
    · exact worked_ends h (after_of_none hat _)
    · exact worked_ends h (after_of_none hat _)
    · exact h
  | exclusive => exact worked_exclusive h hstate hphase.symm hat
  | replaced =>
    exact worked_underLease h hphase.symm hcond .prime rfl hat (ascii "replacement_failed")
  | prime =>
    exact worked_underLease h hphase.symm hcond .marker rfl hat
      (ascii "publish_prime_failed")
  | marker =>
    simp only [migrateStep, writeMarker]
    split
    · next s _ hs =>
      have hstages : Stages d (d.setStaging { s with marker := true }) :=
        stages_setStaging hs rfl rfl
      exact worked_goes (b := .reopen) (h.stages hstages) hphase trivial
    · next hfails =>
      refine worked_goes (b := .unwind _) h hphase fun hstrict => (hcond hstrict).resolve_right ?_
      intro hfault
      obtain ⟨s, hs⟩ := Option.isSome_iff_exists.mp hat
      exact hfails s hfault hs
  | reopen =>
    simp only [migrateStep, maintained]
    have hnone (hok : env.maintenance ≠ .ok) (hraises : env.maintenance ≠ .raises)
        (hstrict : strict) : d.replacements = [] :=
      (hcond hstrict).resolve_right fun hquiet => hquiet.elim hok hraises
    split
    · exact worked_ends h trivial
    · next code hcode =>
      exact worked_ends h (after_of_none (hnone (by rw [hcode]; nofun) (by rw [hcode]; nofun)) _)
    · next code hcode =>
      exact worked_ends h (after_of_none (hnone (by rw [hcode]; nofun) (by rw [hcode]; nofun)) _)
    · exact h
  | unwind pending =>
    simp only [migrateStep, Migrate.unwind]
    split
    · exact worked_ends h (after_of_none hat _)
    · exact h
    · split
      · exact worked_ends h (after_of_none hat _)
      · exact worked_ends h hat
  | reopening cancelRequested => exact worked_reopening h hphase.symm hat hcond
  | unknownPhase => exact h

end Pieces

/-- **What every action keeps.** -/
theorem triples (t : Table) (strict : Prop) (fingerprint : Text → Parameters → Text) :
    Triples (program t fingerprint) (conditions strict) (assertions t strict) where
  request {r r' d} h hcontinues hrequested hview := by
    have hearly := early_of_isCancelable h (isCancelable_of_requested hrequested)
    obtain ⟨-, hphase', -, -⟩ := View.mk.inj hview
    refine ⟨Between.request h hcontinues hrequested hview, fun b hb => ?_, fun o ho => ho⟩
    obtain ⟨hphase, hat⟩ := hb
    refine ⟨hphase.imp_right fun hp => hp.trans hphase'.symm, ?_⟩
    have hnot (hp : Phase.reopening = r.phase) : False := by
      rw [← hp] at hearly
      rcases hearly with he | he | he <;> cases he
    cases b with
    | reopening cancelRequested => exact (hnot (hphase.resolve_left nofun)).elim
    | remove next =>
      cases next with
      | advance => exact (hnot (hphase.resolve_left nofun)).elim
      | _ => exact hat
    | _ => exact hat
  moves h hcontinues hmoves := Between.moves h hcontinues hmoves
  unsupported hd h hstate hcontinues hview :=
    Between.stays h hcontinues hview (by decide) (fun hc => by cases hc) fun hstrict _ => hd hstrict
  enter {l r d} h hstate hloaded := by
    refine ⟨?_, ?_⟩
    · cases r.phase with
      | catchingUp => exact Or.inl rfl
      | cleanup => exact Or.inl rfl
      | _ => exact Or.inr rfl
    · cases hphase : r.phase with
      | reopening =>
        show l.cancelRequested = r.cancelRequested
        rcases hloaded.flag with hflag | hcancelable
        · exact hflag
        · have hearly := early_of_isCancelable h hcancelable
          rw [hphase] at hearly
          rcases hearly with hp | hp | hp <;> cases hp
      | _ => trivial
  work hcond h hstate hinside := worked_migrateStep h hstate hinside hcond
  blocks h hstate hafter hcontinues _ hview :=
    Between.stays h hcontinues hview (by decide) (fun hc => by cases hc) fun hstrict _ =>
      hafter hstrict
  fails h hstate hafter hcontinues _ hview :=
    Between.stays h hcontinues hview (by decide) (fun hc => by cases hc) fun hstrict _ =>
      hafter hstrict
  settles h hstate _ hcontinues hsettled := Between.settles h hstate hcontinues hsettled
  weather {x r d} _ h := by
    obtain ⟨hreplacements, hstaging⟩ := weather_replacements (t := t) x d
    have hreplaced : ((program t fingerprint).weather x d).replacements = d.replacements :=
      hreplacements
    refine ⟨⟨h.machine, Kept.weather h.kept x, h.queued, fun he => hreplaced.trans (h.early he),
      fun hr => ⟨hreplaced.trans (h.cancel hr).1, (h.cancel hr).2⟩,
      fun hc => hreplaced.trans (h.cancelled hc), fun hstrict he =>
        hreplaced.trans (h.ended hstrict he)⟩, fun b hb => ⟨hb.phase, ?_⟩, fun o ho => ?_⟩
    · have hat : At strict r d b := hb.at_
      have hsome (hd : d.staging.isSome) : ((program t fingerprint).weather x d).staging.isSome := by
        rw [show ((program t fingerprint).weather x d).staging = d.staging from hstaging]
        exact hd
      cases b with
      | prepare => exact fun hstrict => hreplaced.trans (hat hstrict)
      | exclusive => exact fun hstrict => hreplaced.trans (hat hstrict)
      | unwind pending => exact fun hstrict => hreplaced.trans (hat hstrict)
      | replaced => exact hsome hat
      | prime => exact hsome hat
      | marker => exact hsome hat
      | reopening cancelRequested => exact hat
      | remove next =>
        cases next with
        | advance => exact hat
        | _ => trivial
      | _ => trivial
    · cases o with
      | returned result => trivial
      | blocked error => exact fun hstrict => hreplaced.trans (ho hstrict)
      | failed error => exact fun hstrict => hreplaced.trans (ho hstrict)

/-! ## What a migration has published -/

/-- A replacement that loses nothing: the live store is of the history and the epoch that the file was
copied from, and everything in it is in the file. -/
structure Lossless (p : Store × Copy) : Prop where
  historyId : p.1.historyId = p.2.origin.historyId
  storeEpoch : p.1.storeEpoch = p.2.origin.storeEpoch
  facts : ∀ fact ∈ p.1.facts, fact ∈ p.2.store.facts

theorem Faithful.lossless {p : Store × Copy} (h : Faithful t p) : Lossless p where
  historyId := congrArg Store.historyId h.origin
  storeEpoch := congrArg Store.storeEpoch h.origin
  facts fact hfact := by
    rw [h.derives.facts, ← h.origin]
    exact hfact

/-- A migration that is cancelled, blocked or failed has replaced nothing. -/
def Leaves (w : World Parameters Result Root Place) : Prop :=
  w.record.state = .cancelled ∨ w.record.state = .failed ∨ w.record.state = .blocked →
    w.disk.replacements = []

/-- Nothing is asked of a run that need not be strict. -/
theorem permits (w : World Parameters Result Root Place) (a : Action Env Weather) :
    (conditions False).permit w a := by
  unfold Conditions.permit
  split
  · exact fun hf => hf.elim
  · exact fun hf => hf.elim
  · trivial
  · trivial

/-- **What a migration publishes.**  Over every run of it, with whatever other operations publish in
between: it replaces the live store at most once, every replacement loses nothing, and one that is
cancelled has replaced nothing.  In the runs in which nothing fails once the store has been replaced,
one that is blocked or failed has replaced nothing either. -/
theorem migrate_publishes (t : Table) (fingerprint : Text → Parameters → Text) {now : ℕ} {id : Text}
    {parameters : Parameters} {r : Record Parameters Result}
    (hnew : newOperation fingerprint now id (ascii "migrate") parameters machine = some r) {d : Root}
    (hnone : d.replacements = []) (hstaging : d.staging = none) (acts : List (Action Env Weather)) :
    let w := run (World.step (program t fingerprint)) { record := r, disk := d } acts
    (w.disk.replacements.length ≤ 1 ∧ (∀ p ∈ w.disk.replacements, Lossless p) ∧
      (w.record.state = .cancelled → w.disk.replacements = [])) ∧
    (Along (World.step (program t fingerprint)) (conditions True).permit
      { record := r, disk := d } acts → Leaves w) := by
  obtain ⟨-, hmachine, hhead, hqueued, hflag, -⟩ := newOperation_eq_some hnew
  have hphase : r.phase = .preflight := (Option.some.inj hhead).symm
  have hholds (c : Copy) : ¬ d.holds c := by
    unfold Root.holds Root.staged
    rw [hstaging]
    rintro (hc | hc) <;> cases hc
  have hbetween (strict : Prop) : Between t strict r d := by
    refine ⟨hmachine, ⟨by rw [hnone]; exact Nat.zero_le _, fun c hc => (hholds c hc).elim,
      fun p hp => ?_, fun hsome => absurd hnone hsome⟩, fun _ => hphase, fun _ => hnone,
      fun hr => ?_, fun _ => hnone, fun _ _ => hnone⟩
    · rw [hnone] at hp
      cases hp
    · rw [hflag] at hr
      cases hr
  have hrun (strict : Prop) (hacts : Along (World.step (program t fingerprint))
      (conditions strict).permit { record := r, disk := d } acts) :=
    (holds_run (triples t strict fingerprint) (w := { record := r, disk := d })
      ⟨hbetween strict, fun _ hrn => (by cases hrn), fun _ hid => (by cases hid)⟩ hacts).between
  constructor
  · have hend := hrun False (along_of_forall permits _ acts)
    exact ⟨hend.kept.once, fun p hp => (hend.kept.faithful p hp).lossless, hend.cancelled⟩
  · intro hacts hended
    have hend := hrun True hacts
    rcases hended with hcancelled | hended
    · exact hend.cancelled hcancelled
    · exact hend.ended trivial hended

/-! ### A migration -/

def sampleFingerprint (_ : Text) (_ : Parameters) : Text :=
  ascii (String.ofList (List.replicate 64 '0'))

/-- One step, from version one to version two, that changes the interpretation. -/
def sampleTable : Table where
  steps := [(1, true)]

def sampleRoot : Root where
  live := some ⟨ascii "h", ascii "e", 1, 1, [ascii "event"]⟩

def sampleEnv : Env where
  fresh := ascii "e2"

/-- A run of the loop through one step of so many pieces. -/
def stepActions (pieces : List Env) : List (Action Env Weather) :=
  [.run 0, .run 0] ++ pieces.map .work ++ [.run 0]

/-- The migration, up to the replacement of the store. -/
def replacedActions : List (Action Env Weather) :=
  [.arrive { claim := raceClaim }, .run 0, .run 0] ++ stepActions [sampleEnv] ++
    stepActions [sampleEnv] ++ stepActions (List.replicate 6 sampleEnv) ++
    [.run 0, .run 0] ++ List.replicate 4 (.work sampleEnv)

/-- The whole migration, without a fault. -/
def sampleActions : List (Action Env Weather) :=
  replacedActions ++ List.replicate 3 (.work sampleEnv) ++ .run 0 :: stepActions [sampleEnv]

theorem migrate_publishes_sample : ∃ r : Record Parameters Result,
    newOperation sampleFingerprint 0 (ascii "a") (ascii "migrate") ⟨⟩ machine = some r ∧
      let w := run (World.step (program sampleTable sampleFingerprint))
        { record := r, disk := sampleRoot } sampleActions
      w.record.state = .succeeded ∧ w.disk.replacements.length = 1 ∧
        (∀ p ∈ w.disk.replacements, Lossless p) ∧ Leaves w := by
  refine ⟨_, rfl, by decide +kernel, by decide +kernel, ?_⟩
  have hpublishes := @migrate_publishes sampleTable sampleFingerprint 0 (ascii "a") ⟨⟩ _ rfl
    sampleRoot rfl rfl sampleActions
  exact ⟨hpublishes.1.2.1, hpublishes.2 (by decide +kernel)⟩

/-- The store is replaced, and the priming of the new one fails. -/
def unprimedActions : List (Action Env Weather) :=
  replacedActions ++ [.work { sampleEnv with fault := .raises }, .work sampleEnv, .run 0]

/-- **A migration that fails after it has published.**  The operation ends as `failed`, and the live
store is the migrated one. -/
theorem migrate_publishes_failed :
    ¬ ∀ (t : Table) (fingerprint : Text → Parameters → Text) (now : ℕ) (id : Text)
      (parameters : Parameters) (r : Record Parameters Result),
      newOperation fingerprint now id (ascii "migrate") parameters machine = some r →
      ∀ d : Root, d.replacements = [] → d.staging = none → ∀ acts : List (Action Env Weather),
        Leaves (run (World.step (program t fingerprint)) { record := r, disk := d } acts) := by
  intro h
  have hleaves := h sampleTable sampleFingerprint 0 (ascii "a") ⟨⟩ _ rfl sampleRoot rfl rfl
    unprimedActions (Or.inr (Or.inl (by decide +kernel)))
  exact absurd hleaves (by decide +kernel)

end Migrate
end Operations
end SemanticMemory
