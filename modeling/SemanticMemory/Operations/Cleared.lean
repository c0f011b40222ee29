import SemanticMemory.Operations.Cancel
import SemanticMemory.Operations.Clear

/-!
# What a finished clear reports

A clear that succeeds says `cleared` if its own empty store has replaced the live one and
`already_clear` otherwise, it replaces at most once, and one that fails or is cancelled has replaced
nothing: `clear_reports` proves this of the runs in which nothing fails after the replacement and
the outcome is not read off a store that the clear has neither made nor been told of.
-/

namespace SemanticMemory
namespace Operations
namespace Clear

open Runs

/-! ## The assertion on the root -/

/-- The identity that the operation's own `identity.json` holds. -/
def Root.file (d : Root) : Option Identity := d.staging.bind Staging.identity

def Root.staged (d : Root) : Option Store := d.staging.bind Staging.store

/-- An identity of the operation's own: nobody else has its epoch, and the live store has it from the
replacement on. -/
structure Own (d : Root) (expected : Text) (i : Identity) : Prop where
  expected : i.storeEpoch ≠ expected
  named : i.storeEpoch ≠ []
  drawn : i.storeEpoch ∈ d.drawn
  before : d.replacements = [] → ∀ s ∈ d.live, s.identity.storeEpoch ≠ i.storeEpoch
  after : d.replacements ≠ [] → ∃ s ∈ d.live, s.identity.storeEpoch = i.storeEpoch

/-- What the root keeps. -/
structure Kept (d : Root) (expected : Text) : Prop where
  once : d.replacements.length ≤ 1
  empty : ∀ s ∈ d.replacements, s.empty = true
  file : ∀ i, d.file = some i → Own d expected i
  staged : ∀ s, d.staged = some s → s.empty = true
  live : ∀ s ∈ d.live, s.identity.storeEpoch ∈ d.drawn
  replaced : d.replacements ≠ [] →
    ∃ s ∈ d.live, s.identity.storeEpoch ≠ expected ∧ s.identity.storeEpoch ≠ []

/-- A change that is no replacement: the live store keeps its epoch, or it is created with one that
nobody has, and nothing is added to the staging directory but an empty store. -/
structure Shrinks (d d' : Root) : Prop where
  back : ∀ s' ∈ d'.live, (∃ s ∈ d.live, s.identity.storeEpoch = s'.identity.storeEpoch) ∨
    s'.identity.storeEpoch ∉ d.drawn ∧ s'.identity.storeEpoch ∈ d'.drawn
  on : ∀ s ∈ d.live, ∃ s' ∈ d'.live, s'.identity.storeEpoch = s.identity.storeEpoch
  replacements : d'.replacements = d.replacements
  drawn : ∀ t ∈ d.drawn, t ∈ d'.drawn
  file : ∀ i, d'.file = some i → d.file = some i
  staged : ∀ s, d'.staged = some s → d.staged = some s ∨ s.empty = true

/-- A change that adds no store either. -/
structure Erases (d d' : Root) : Prop extends Shrinks d d' where
  staged_only : ∀ s, d'.staged = some s → d.staged = some s

section Shrinks

variable {d d' : Root} {expected : Text}

/-- The live store stays as it is. -/
theorem Shrinks.steady (live : d'.live = d.live) (replacements : d'.replacements = d.replacements)
    (drawn : ∀ t ∈ d.drawn, t ∈ d'.drawn) (file : ∀ i, d'.file = some i → d.file = some i)
    (staged : ∀ s, d'.staged = some s → d.staged = some s ∨ s.empty = true) : Shrinks d d' :=
  ⟨fun s' hs' => Or.inl ⟨s', live ▸ hs', rfl⟩, fun s hs => ⟨s, live ▸ hs, rfl⟩, replacements, drawn,
    file, staged⟩

theorem Shrinks.refl (d : Root) : Shrinks d d :=
  .steady rfl rfl (fun _ => id) (fun _ => id) fun _ => Or.inl

theorem Erases.refl (d : Root) : Erases d d := ⟨.refl d, fun _ => id⟩

/-- Entries beside `.clear` come and go. -/
theorem Erases.beside (live : d'.live = d.live) (replacements : d'.replacements = d.replacements)
    (drawn : d'.drawn = d.drawn) (clear : d'.clear = d.clear) : Erases d d' := by
  have hstaged : d'.staged = d.staged := by
    unfold Root.staged Root.staging
    rw [clear]
  refine ⟨.steady live replacements (fun _ ht => drawn ▸ ht) (fun i hi => ?_) fun s hs => ?_,
    fun s hs => ?_⟩
  · unfold Root.file Root.staging at *
    rwa [clear] at hi
  · exact Or.inl (hstaged ▸ hs)
  · exact hstaged ▸ hs

theorem Own.shrinks {i : Identity} (h : Own d expected i) (hs : Shrinks d d') :
    Own d' expected i where
  expected := h.expected
  named := h.named
  drawn := hs.drawn _ h.drawn
  before hnone s' hs' := by
    rcases hs.back s' hs' with ⟨s, hlive, heq⟩ | ⟨hfresh, -⟩
    · rw [← heq]
      exact h.before (hs.replacements ▸ hnone) s hlive
    · exact fun heq => hfresh (heq ▸ h.drawn)
  after hsome := by
    obtain ⟨s, hlive, heq⟩ := h.after (hs.replacements ▸ hsome)
    obtain ⟨s', hs', heq'⟩ := hs.on s hlive
    exact ⟨s', hs', heq'.trans heq⟩

theorem Kept.shrinks (h : Kept d expected) (hs : Shrinks d d') : Kept d' expected where
  once := hs.replacements ▸ h.once
  empty := hs.replacements ▸ h.empty
  file i hi := (h.file i (hs.file i hi)).shrinks hs
  staged s hs' := (hs.staged s hs').elim (h.staged s) id
  live s' hs' := by
    rcases hs.back s' hs' with ⟨s, hlive, heq⟩ | ⟨-, hdrawn⟩
    · rw [← heq]
      exact hs.drawn _ (h.live s hlive)
    · exact hdrawn
  replaced hsome := by
    obtain ⟨s, hlive, hother, hnamed⟩ := h.replaced (hs.replacements ▸ hsome)
    obtain ⟨s', hs', heq⟩ := hs.on s hlive
    rw [← heq] at hother hnamed
    exact ⟨s', hs', hother, hnamed⟩

theorem erases_erase {s : Staging} (h : d.clear = some (some s)) (part : Part) :
    Erases d (d.setStaging (s.erase part)) := by
  have hstaged (st : Store) (hst : (d.setStaging (s.erase part)).staged = some st) :
      d.staged = some st := by
    unfold Root.staged Root.staging
    rw [h]
    cases part with
    | store => cases hst
    | _ => exact hst
  refine ⟨.steady rfl rfl (fun _ => id) (fun i hi => ?_) fun st hst => Or.inl (hstaged st hst),
    hstaged⟩
  unfold Root.file Root.staging
  rw [h]
  cases part with
  | identity => cases hi
  | _ => exact hi

/-- The staging directory and `.clear` can be removed. -/
theorem erases_clear {c : Option (Option Staging)} (hc : c.join = none) :
    Erases d { d with clear := c } := by
  have hstaged (st : Store) (hst : Root.staged { d with clear := c } = some st) :
      d.staged = some st := by
    unfold Root.staged Root.staging at hst
    rw [hc] at hst
    cases hst
  refine ⟨.steady rfl rfl (fun _ => id) (fun i hi => ?_) fun st hst => Or.inl (hstaged st hst),
    hstaged⟩
  unfold Root.file Root.staging at hi
  rw [hc] at hi
  cases hi

/-- A removal takes one thing away, and says whether that was all. -/
theorem erases_removeStaging (part : Part) :
    Erases d (d.removeStaging part).1 ∧
      ((d.removeStaging part).2 = true → (d.removeStaging part).1.staging = none) := by
  unfold Root.removeStaging
  split
  · next s hclear =>
    split_ifs
    · exact ⟨erases_clear rfl, fun _ => rfl⟩
    · exact ⟨erases_erase hclear part, fun h => by cases h⟩
  · next hclear =>
    refine ⟨.refl d, fun _ => ?_⟩
    unfold Root.staging
    cases hc : d.clear with
    | none => rfl
    | some c =>
      cases c with
      | none => rfl
      | some s => exact absurd hc (hclear s)

end Shrinks

/-! ## The assertion on the record -/

/-- A report that says what was done. -/
def Honest (d : Root) (rep : Report) : Prop :=
  (rep.outcome = .cleared ↔ d.replacements ≠ []) ∧
    (rep.outcome = .alreadyClear → rep.old = rep.new.map OldIdentity.full)

/-- What the record says of the root. -/
structure Between (r : Record Parameters Result) (d : Root) : Prop where
  machine : r.toMachine = machine
  kept : Kept d r.parameters.expectStoreEpoch
  queued : r.state = .queued → r.phase = .preflight
  early : r.phase = .preflight ∨ r.phase = .waitingForQuiesce ∨ r.phase = .staging →
    d.replacements = []
  cancel : r.cancelRequested = true →
    d.replacements = [] ∧ r.phase ≠ .publishing ∧ r.phase ≠ .cleanup
  ended : r.state = .failed ∨ r.state = .cancelled → d.replacements = []
  succeeded : r.state = .succeeded → ∃ rep, r.result = some (.report rep) ∧ Honest d rep

def Place.phase : Place → Phase
  | .preflight => .preflight
  | .waitingForQuiesce => .waitingForQuiesce
  | .staging | .stagingRemove _ | .stagingEnsure _ | .stagingMkdir _ | .stagingCreate _
  | .stagingWrite _ => .staging
  | .publishing | .prepare _ | .gate _ | .replace _ | .replaced _ | .marker _ | .prime _ | .reopen _
  | .unwind _ => .publishing
  | .reopening _ | .compensate => .reopening
  | .cleanup | .sweepDirs _ | .sweepClear | .sweepFiles _ | .sweepGap _ | .outcome => .cleanup
  | .unknownPhase => .catchingUp

/-- The identity that a place of the publication works with. -/
structure Works (d : Root) (expected : Text) (i : Identity) : Prop where
  own : Own d expected i
  file : ∀ j, d.file = some j → j = i

def At (r : Record Parameters Result) (d : Root) (expected : Text) : Place → Prop
  | .stagingWrite i => Own d expected i
  | .prepare i | .gate i => Works d expected i
  | .replace i => Works d expected i ∧ d.replacements = [] ∧
      ∀ s, d.staged = some s → s.identity = i
  | .replaced i | .marker i | .prime i | .reopen i => Works d expected i ∧ d.replacements ≠ []
  | .reopening cancelRequested => cancelRequested = r.cancelRequested
  | .compensate => r.cancelRequested = true
  | _ => True

/-- What holds inside a step. -/
structure Inside (r : Record Parameters Result) (d : Root) (b : Body) : Prop where
  expected : b.expected = r.parameters.expectStoreEpoch
  phase : b.place.phase = r.phase
  at_ : At r d b.expected b.place

/-- What holds at the end of a step. -/
def After (r : Record Parameters Result) (d : Root) : Outcome Result → Prop
  | .returned result => r.phase = .cleanup →
      ∃ rep, result.result = some (.report rep) ∧ Honest d rep
  | .blocked _ => True
  | .failed _ => d.replacements = []

/-- What every run keeps. -/
def assertions : Assertions Parameters Result Root Body where
  between := Between
  inside := Inside
  after := After

/-- The outcome is read off a store that the clear has made, or that the caller has named. -/
def Told (d : Root) (expected : Text) : Prop :=
  d.replacements = [] → ∀ s ∈ d.live, expected ≠ [] ∧ s.identity.storeEpoch = expected

/-- The codes that `publishError` blocks on. -/
def blocking (code : Text) : Bool :=
  code = ascii "epoch_mismatch" || code = ascii "staging_invalid" ||
    code = ascii "publish_state_inconsistent"

def Helper.fails : Helper → Bool
  | .failed _ => true
  | _ => false

def Fault.fails : Fault → Bool
  | .failed _ => true
  | _ => false

def Maintenance.fails : Maintenance → Bool
  | .error code => !blocking code
  | .refused _ => true
  | _ => false

def Pending.fails : Pending → Bool
  | .maintenance code => !blocking code
  | .failed _ => true

/-- The answer at a place is a failure, and not one to retry after. -/
def failing (env : Env) : Place → Bool
  | .publishing | .reopening _ | .outcome => env.helper.fails
  | .prepare _ | .reopen _ => env.maintenance.fails
  | .unwind pending =>
    match env.maintenance with
    | .error code => !blocking code
    | .raises => false
    | _ => pending.fails
  | .cleanup | .sweepDirs _ | .sweepClear | .sweepFiles _ | .sweepGap _ => env.fault.fails
  | _ => false

/-- The condition: no answer after the replacement is a failure, no runner without the type of
operations comes after it, and the outcome is read where it tells the two cases apart. -/
def conditions : Conditions Root Env Weather Body where
  work env d b :=
    (d.replacements = [] ∨ failing env b.place = false) ∧ (b.place = .outcome → Told d b.expected)
  weather _ _ := True
  unsupported d := d.replacements = []

instance (d : Root) (expected : Text) : Decidable (Told d expected) := by
  unfold Told
  infer_instance

instance (env : Env) (d : Root) (b : Body) : Decidable (conditions.work env d b) := by
  unfold conditions
  infer_instance

instance (x : Weather) (d : Root) : Decidable (conditions.weather x d) :=
  inferInstanceAs (Decidable True)

instance (d : Root) : Decidable (conditions.unsupported d) :=
  inferInstanceAs (Decidable (d.replacements = []))

/-! ## Places under changes of the root -/

section Places

variable {r r' : Record Parameters Result} {d d' : Root} {expected : Text} {b : Body}

theorem Works.shrinks {i : Identity} (h : Works d expected i) (hs : Shrinks d d') :
    Works d' expected i :=
  ⟨h.own.shrinks hs, fun j hj => h.file j (hs.file j hj)⟩

theorem At.erases {place : Place} (h : At r d expected place) (hs : Erases d d') :
    At r d' expected place := by
  cases place with
  | stagingWrite i => exact Own.shrinks h hs.toShrinks
  | prepare i => exact Works.shrinks h hs.toShrinks
  | gate i => exact Works.shrinks h hs.toShrinks
  | replace i =>
    exact ⟨h.1.shrinks hs.toShrinks, hs.replacements.trans h.2.1, fun s hst =>
      h.2.2 s (hs.staged_only s hst)⟩
  | replaced i => exact ⟨h.1.shrinks hs.toShrinks, hs.replacements ▸ h.2⟩
  | marker i => exact ⟨h.1.shrinks hs.toShrinks, hs.replacements ▸ h.2⟩
  | prime i => exact ⟨h.1.shrinks hs.toShrinks, hs.replacements ▸ h.2⟩
  | reopen i => exact ⟨h.1.shrinks hs.toShrinks, hs.replacements ▸ h.2⟩
  | reopening cancelRequested => exact h
  | compensate => exact h
  | _ => trivial

theorem Between.shrinks (h : Between r d) (hs : Shrinks d d') : Between r d' where
  machine := h.machine
  kept := h.kept.shrinks hs
  queued := h.queued
  early hphase := hs.replacements.trans (h.early hphase)
  cancel hrequested := ⟨hs.replacements.trans (h.cancel hrequested).1, (h.cancel hrequested).2⟩
  ended hstate := hs.replacements.trans (h.ended hstate)
  succeeded hstate := by
    obtain ⟨rep, hrep, hhonest⟩ := h.succeeded hstate
    exact ⟨rep, hrep, by unfold Honest; rwa [hs.replacements]⟩

end Places

/-! ## The pieces of the steps -/

/-- What a piece that begins over `d₀` leaves behind. -/
def Worked (r : Record Parameters Result) (d₀ : Root) : Root × Ends → Prop
  | (d, .goes b) => Between r d ∧ Inside r d b
  | (d, .ends (.returned result)) => Between r d ∧ After r d (.returned result)
  | (d, .ends (.blocked _)) => Between r d
  | (d, .ends (.failed _)) => Between r d ∧ d.replacements = d₀.replacements
  | (d, .raises) => Between r d

def Stops : Outcome Result → Prop
  | .returned _ => False
  | _ => True

section Pieces

variable {env : Env} {r : Record Parameters Result} {d d' : Root} {b : Body}

variable {next : Place}

theorem worked_goes (h : Between r d) (hi : Inside r d b) (hs : Shrinks d d')
    (hphase : next.phase = r.phase) (hat : At r d' b.expected next) :
    Worked r d (d', .goes { b with place := next }) :=
  ⟨h.shrinks hs, hi.expected, hphase, hat⟩

theorem worked_stays (h : Between r d) (hi : Inside r d b) (hs : Erases d d') :
    Worked r d (d', .goes b) :=
  ⟨h.shrinks hs.toShrinks, hi.expected, hi.phase, hi.at_.erases hs⟩

variable {o : Outcome Result}

theorem worked_stops (h : Between r d) (hs : Shrinks d d') (ho : Stops o) :
    Worked r d (d', .ends o) := by
  cases o with
  | returned result => exact ho.elim
  | blocked error => exact h.shrinks hs
  | failed error => exact ⟨h.shrinks hs, hs.replacements⟩

theorem worked_returns (h : Between r d) (hs : Shrinks d d') {result : StepResult Result}
    (hphase : r.phase ≠ .cleanup) : Worked r d (d', .ends (.returned result)) :=
  ⟨h.shrinks hs, fun hc => absurd hc hphase⟩

theorem worked_raises (h : Between r d) (hs : Shrinks d d') : Worked r d (d', .raises) := h.shrinks hs

theorem stops_liveIdentity (h : liveIdentity env d = .error o) : Stops o := by
  unfold liveIdentity at h
  split at h <;> cases h <;> trivial

theorem stops_currentDisposition {expected : Text} {phase : Phase}
    (h : currentDisposition env d expected phase = .error o) : Stops o := by
  unfold currentDisposition at h
  split at h
  · next hlive =>
    cases h
    exact stops_liveIdentity hlive
  · split_ifs at h
    cases h
    trivial
  · split_ifs at h
    cases h
    trivial

theorem stops_publishError (expected code : Text) : Stops (publishError expected code) := by
  unfold publishError
  split_ifs <;> trivial

theorem stops_recoveryError (code : Text) : Stops (recoveryError code) := by
  unfold recoveryError
  split_ifs <;> trivial

theorem worked_unwinds (h : Between r d) (hi : Inside r d b) (hphase : r.phase = .publishing)
    (pending : Pending) : Worked r d (unwinds d b pending) :=
  worked_goes h hi (.refl d) hphase.symm trivial

theorem worked_removing (h : Between r d) (hi : Inside r d b) (hphase : next.phase = r.phase)
    (hat : ∀ d', At r d' b.expected next) : Worked r d (removing env d b next) := by
  unfold removing
  split
  · exact worked_stops h (.refl d) trivial
  · exact worked_raises h (.refl d)
  · obtain ⟨herases, -⟩ := erases_removeStaging (d := d) env.part
    split
    · next d' heq =>
      rw [heq] at herases
      exact worked_goes h hi herases.toShrinks hphase (hat d')
    · next d' heq =>
      rw [heq] at herases
      exact worked_stays h hi herases

theorem worked_sweeping (h : Between r d) (hi : Inside r d b) {todo : List Text}
    {remaining : List Text → Place} {remove : Text → Root} (hnext : next.phase = r.phase)
    (hremaining : ∀ todo, (remaining todo).phase = r.phase) (hat : At r d b.expected next)
    (hat' : ∀ d' todo, At r d' b.expected (remaining todo))
    (hremove : ∀ name, Shrinks d (remove name)) :
    Worked r d (sweeping env d b todo next remaining remove) := by
  unfold sweeping
  split
  · exact worked_stops h (.refl d) trivial
  · exact worked_raises h (.refl d)
  · split
    · exact worked_goes h hi (.refl d) hnext hat
    · exact worked_goes h hi (hremove _) (hremaining _) (hat' _ _)

theorem worked_stagingStart (h : Between r d) (hi : Inside r d b) (hphase : r.phase = .staging) :
    Worked r d (stagingStart env d b) := by
  have hlast : r.phase ≠ .cleanup := by rw [hphase]; decide
  unfold stagingStart
  split
  · next o ho => exact worked_stops h (.refl d) (stops_currentDisposition ho)
  · exact worked_returns h (.refl d) hlast
  split
  · exact worked_goes h hi (.refl d) hphase.symm trivial
  split
  · exact worked_goes h hi (.refl d) hphase.symm trivial
  split
  · exact worked_stops h (.refl d) trivial
  · exact worked_raises h (.refl d)
  · exact worked_raises h (.refl d)
  · split_ifs
    · exact worked_returns h (.refl d) hlast
    · exact worked_goes h hi (.refl d) hphase.symm trivial

/-- A new store is drawn into the staging directory. -/
theorem shrinks_draw {s : Staging} (h : d.staging = some s) (identity : Identity) :
    Shrinks d
      { d.setStaging { s with store := some ⟨identity, true⟩ } with
        drawn := identity.storeEpoch :: d.drawn } := by
  refine .steady rfl rfl (fun _ ht => List.mem_cons_of_mem _ ht) (fun i hi => ?_) fun st hst => ?_
  · unfold Root.file
    rw [h]
    exact hi
  · cases hst
    exact Or.inr rfl

theorem worked_stagingCreate (h : Between r d) (hi : Inside r d b) (hphase : r.phase = .staging)
    (old : Option Identity) : Worked r d (stagingCreate env d b old) := by
  unfold stagingCreate
  split
  · exact worked_stops h (.refl d) trivial
  · exact worked_raises h (.refl d)
  split
  · exact worked_raises h (.refl d)
  next s hstaging =>
  split
  · exact worked_stays h hi (.refl d)
  next hfresh =>
  have hshrinks := shrinks_draw hstaging env.fresh
  simp only
  split_ifs with hvalid hcollision
  · exact worked_stops h hshrinks trivial
  · exact worked_stops h hshrinks trivial
  · refine worked_goes h hi hshrinks hphase.symm ?_
    obtain ⟨hexpected, -⟩ := not_or.mp hcollision
    obtain ⟨-, htoken, -⟩ := not_or.mp hvalid |>.imp_right not_or.mp
    have hnone := h.early (Or.inr (Or.inr hphase))
    refine ⟨hexpected, fun hempty => ?_, List.mem_cons_self, fun _ st hst heq => ?_, fun hsome =>
      absurd hnone hsome⟩
    · rw [hempty] at htoken
      exact htoken rfl
    · exact hfresh (heq ▸ h.kept.live st hst)

theorem worked_stagingWrite {identity : Identity} (h : Between r d)
    (hown : Own d r.parameters.expectStoreEpoch identity) (hphase : r.phase = .staging) :
    Worked r d (stagingWrite env d identity) := by
  unfold stagingWrite
  split
  · next s hfault hstaging =>
    have hnone := h.early (Or.inr (Or.inr hphase))
    refine ⟨⟨h.machine, ?_, h.queued, h.early, h.cancel, h.ended, h.succeeded⟩, fun hc => ?_⟩
    · refine ⟨h.kept.once, h.kept.empty, fun i hi => ?_, fun st hst => h.kept.staged st ?_,
        h.kept.live, h.kept.replaced⟩
      · cases hi
        exact ⟨hown.expected, hown.named, hown.drawn, hown.before, hown.after⟩
      · unfold Root.staged
        rw [hstaging]
        exact hst
    · rw [hphase] at hc
      cases hc
  · exact worked_stops h (.refl d) trivial

theorem stagedIdentity_eq_some {i : Identity} (h : stagedIdentity env d = some i) :
    d.file = some i := by
  unfold stagedIdentity at h
  split_ifs at h
  exact h

theorem worked_publishingStart (h : Between r d) (hi : Inside r d b)
    (hphase : r.phase = .publishing) : Worked r d (publishingStart env d b) := by
  unfold publishingStart
  split
  · next staged hstaged =>
    have hfile := stagedIdentity_eq_some hstaged
    refine worked_goes h hi (.refl d) hphase.symm ⟨?_, fun j hj => ?_⟩
    · rw [hi.expected]
      exact h.kept.file staged hfile
    · exact Option.some.inj (hj.symm.trans hfile)
  split
  · next o ho => exact worked_stops h (.refl d) (stops_currentDisposition ho)
  · exact worked_returns h (.refl d) (by rw [hphase]; decide)
  · exact worked_stops h (.refl d) trivial

theorem worked_maintained (h : Between r d) {ok : Ends} (hok : Worked r d (d, ok)) :
    Worked r d (maintained env d b ok) := by
  unfold maintained
  split
  · exact hok
  · exact worked_stops h (.refl d) (stops_publishError _ _)
  · exact worked_stops h (.refl d) (stops_recoveryError _)
  · exact worked_raises h (.refl d)

variable {staged : Identity}

theorem worked_verifyStaged (h : Between r d) (hi : Inside r d b) (hphase : r.phase = .publishing)
    (hworks : Works d b.expected staged) (hnone : d.replacements = []) :
    Worked r d (verifyStaged env d b staged) := by
  unfold verifyStaged
  split
  · exact worked_unwinds h hi hphase _
  · next store hhelper hstore =>
    split_ifs with hbad
    · exact worked_unwinds h hi hphase _
    · refine worked_goes h hi (.refl d) hphase.symm ⟨hworks, hnone, fun s hs => ?_⟩
      cases hstore.symm.trans hs
      exact not_not.mp (not_or.mp hbad).2
  · exact worked_unwinds h hi hphase _

/-- **The gate.**  A store with another epoch than the staged one has not been replaced. -/
theorem worked_gate (h : Between r d) (hi : Inside r d b) (hphase : r.phase = .publishing)
    (hworks : Works d b.expected staged) : Worked r d (gate env d b staged) := by
  unfold gate
  split
  · exact worked_unwinds h hi hphase _
  · exact worked_unwinds h hi hphase _
  · exact worked_raises h (.refl d)
  simp only
  split
  · next store hlive =>
    split_ifs with hsame hmarker hexpected
    · refine worked_goes h hi (.refl d) hphase.symm ⟨hworks, fun hnone => ?_⟩
      exact hworks.own.before hnone store hlive hsame
    · exact worked_unwinds h hi hphase _
    · exact worked_unwinds h hi hphase _
    · refine worked_verifyStaged h hi hphase hworks ?_
      by_contra hsome
      obtain ⟨st, hst, heq⟩ := hworks.own.after hsome
      cases hlive.symm.trans hst
      exact hsame heq
  · next hlive =>
    split_ifs with hmarker hexpected
    · exact worked_unwinds h hi hphase _
    · exact worked_unwinds h hi hphase _
    · refine worked_verifyStaged h hi hphase hworks ?_
      by_contra hsome
      obtain ⟨st, hst, -⟩ := hworks.own.after hsome
      cases hlive.symm.trans hst

/-- **The replacement.**  The store that comes is the empty one that was staged. -/
theorem worked_replaceStore (h : Between r d) (hi : Inside r d b) (hstate : r.state = .running)
    (hphase : r.phase = .publishing) (hworks : Works d b.expected staged)
    (hnone : d.replacements = []) (hstore : ∀ s, d.staged = some s → s.identity = staged) :
    Worked r d (replaceStore env d b staged) := by
  unfold replaceStore
  split
  · next s hfault hstaging =>
    split
    · next store hst =>
      have hstaged : d.staged = some store := by
        unfold Root.staged
        rw [hstaging]
        exact hst
      have hsame := hstore store hstaged
      have hfile (j : Identity) (hj : s.identity = some j) : j = staged := by
        refine hworks.file j ?_
        unfold Root.file
        rw [hstaging]
        exact hj
      have hepoch : store.identity.storeEpoch = staged.storeEpoch := by rw [hsame]
      have hnot : d.replacements ++ [store] ≠ [] := by simp
      have hown : Own
          { d.setStaging { s with store := none } with
            live := some store, replacements := d.replacements ++ [store] } b.expected staged :=
        ⟨hworks.own.expected, hworks.own.named, hworks.own.drawn, fun hnone => absurd hnone hnot,
          fun _ => ⟨store, rfl, hepoch⟩⟩
      have hlate : ¬ (r.phase = .preflight ∨ r.phase = .waitingForQuiesce ∨ r.phase = .staging) := by
        rw [hphase]
        decide
      refine ⟨⟨h.machine, ⟨?_, fun st hmem => ?_, fun i hi' => ?_, fun st hst => (by cases hst),
        fun st hlive => ?_, fun _ => ⟨store, rfl, ?_, ?_⟩⟩, h.queued, fun hearly =>
        absurd hearly hlate, fun hcancel => absurd hphase (h.cancel hcancel).2.1, fun hended => ?_,
        fun hsucceeded => ?_⟩, hi.expected, hphase.symm, ⟨hown, fun j hj => hfile j hj⟩, hnot⟩
      · show (d.replacements ++ [store]).length ≤ 1
        rw [hnone]
        exact le_rfl
      · rw [show d.replacements ++ [store] = [store] by rw [hnone]; rfl] at hmem
        rw [List.mem_singleton.mp hmem]
        exact h.kept.staged store hstaged
      · have : i = staged := hfile i hi'
        rw [this, ← hi.expected]
        exact hown
      · cases hlive
        show store.identity.storeEpoch ∈ d.drawn
        rw [hepoch]
        exact hworks.own.drawn
      · rw [hepoch, ← hi.expected]
        exact hworks.own.expected
      · rw [hepoch]
        exact hworks.own.named
      · rcases hended with hended | hended <;> exact absurd (hstate.symm.trans hended) (by decide)
      · exact absurd (hstate.symm.trans hsucceeded) (by decide)
    · exact worked_unwinds h hi hphase _
  · exact worked_unwinds h hi hphase _

theorem worked_underLease {code : Text} (h : Between r d) (hi : Inside r d b)
    (hphase : r.phase = .publishing) (hnext : next.phase = .publishing)
    (hat : At r d b.expected next) : Worked r d (underLease env d b code next) := by
  unfold underLease
  split
  · exact worked_goes h hi (.refl d) (hnext.trans hphase.symm) hat
  · exact worked_unwinds h hi hphase _

theorem shrinks_marker {s : Staging} (h : d.staging = some s) (staged : Identity) :
    Shrinks d (d.setStaging { s with marker := some staged }) := by
  refine .steady rfl rfl (fun _ => id) (fun i hi => ?_) fun st hst => Or.inl ?_
  · unfold Root.file
    rw [h]
    exact hi
  · unfold Root.staged
    rw [h]
    exact hst

theorem worked_writeMarker (h : Between r d) (hi : Inside r d b) (hphase : r.phase = .publishing)
    (hworks : Works d b.expected staged) (hsome : d.replacements ≠ []) :
    Worked r d (writeMarker env d b staged) := by
  unfold writeMarker
  split
  · next s hfault hstaging =>
    have hs := shrinks_marker hstaging staged
    exact worked_goes h hi hs hphase.symm ⟨hworks.shrinks hs, hs.replacements ▸ hsome⟩
  · exact worked_unwinds h hi hphase _

theorem worked_reopened (h : Between r d) (hphase : r.phase = .publishing) :
    Worked r d (d, .ends (reopened env staged)) := by
  have hlast : r.phase ≠ .cleanup := by rw [hphase]; decide
  unfold reopened
  split
  · exact worked_returns h (.refl d) hlast
  · split_ifs
    · exact worked_returns h (.refl d) hlast
    · exact worked_stops h (.refl d) trivial

theorem worked_unwind {pending : Pending} (h : Between r d) :
    Worked r d (unwind env d b pending) := by
  unfold unwind
  split
  · exact worked_stops h (.refl d) (stops_publishError _ _)
  · exact worked_raises h (.refl d)
  · split
    · exact worked_stops h (.refl d) (stops_publishError _ _)
    · exact worked_stops h (.refl d) trivial

theorem worked_reopening {cancelRequested : Bool} (h : Between r d) (hi : Inside r d b)
    (hphase : r.phase = .reopening) (hcancel : cancelRequested = r.cancelRequested) :
    Worked r d (reopening env d b cancelRequested) := by
  have hlast : r.phase ≠ .cleanup := by rw [hphase]; decide
  unfold reopening
  split
  · next hc =>
    split
    · next o ho => exact worked_stops h (.refl d) (stops_liveIdentity ho)
    · split_ifs
      · exact worked_stops h (.refl d) trivial
      · exact worked_goes h hi (.refl d) hphase.symm (hcancel.symm.trans hc)
  split
  · split
    · next o ho => exact worked_stops h (.refl d) (stops_currentDisposition ho)
    · exact worked_returns h (.refl d) hlast
    · exact worked_stops h (.refl d) trivial
  · split
    · next o ho => exact worked_stops h (.refl d) (stops_liveIdentity ho)
    · exact worked_stops h (.refl d) trivial
    · split_ifs
      · exact worked_stops h (.refl d) trivial
      · exact worked_returns h (.refl d) hlast

/-- **What the report says** of a store that the clear has made, or that it was told of. -/
theorem honest_report (h : Kept d b.expected) (htold : Told d b.expected)
    (servingReady : Option Bool) : Honest d (report b.expected d.live servingReady) := by
  unfold report
  cases hlive : d.live with
  | none =>
    refine ⟨⟨fun hc => (by cases hc), fun hsome => ?_⟩, fun _ => rfl⟩
    obtain ⟨s, hs, -⟩ := h.replaced hsome
    rw [hlive] at hs
    cases hs
  | some store =>
    by_cases hexpected : b.expected = [] ∨ store.identity.storeEpoch ≠ b.expected
    · simp only
      rw [if_pos hexpected]
      refine ⟨⟨fun _ hnone => ?_, fun _ => rfl⟩, fun ha => (by cases ha)⟩
      obtain ⟨hnamed, hsame⟩ := htold hnone store hlive
      exact hexpected.elim hnamed fun hother => hother hsame
    · simp only
      rw [if_neg hexpected]
      refine ⟨⟨fun hc => (by cases hc), fun hsome => ?_⟩, fun _ => rfl⟩
      obtain ⟨s, hs, hother, -⟩ := h.replaced hsome
      cases hlive.symm.trans hs
      exact absurd (Or.inr hother) hexpected

theorem worked_cleanupOutcome (h : Between r d) (hi : Inside r d b) (htold : Told d b.expected) :
    Worked r d (cleanupOutcome env d b) := by
  unfold cleanupOutcome
  split
  · next o ho => exact worked_stops h (.refl d) (stops_liveIdentity ho)
  · next live hlive =>
    unfold liveIdentity at hlive
    split at hlive <;> cases hlive
    have hkept : Kept d b.expected := hi.expected ▸ h.kept
    exact ⟨h, fun _ => ⟨_, rfl, honest_report hkept htold env.servingReady⟩⟩

variable {error : StepError}

theorem failed_liveIdentity (h : liveIdentity env d = .error (.failed error)) :
    env.helper.fails = true := by
  unfold liveIdentity at h
  split at h <;> cases h
  next hhelper => rw [hhelper]; rfl

theorem failed_currentDisposition {expected : Text} {phase : Phase}
    (h : currentDisposition env d expected phase = .error (.failed error)) :
    env.helper.fails = true := by
  unfold currentDisposition at h
  split at h
  · next hlive =>
    cases h
    exact failed_liveIdentity hlive
  · split_ifs at h
    cases h
  · split_ifs at h
    cases h

theorem failed_publishError {expected code : Text}
    (h : publishError expected code = .failed error) : blocking code = false := by
  unfold publishError blocks at h
  split_ifs at h with h₁ h₂ h₃ <;> simp [blocking, h₁, h₂, h₃]

theorem failed_maintained {ok : Ends} (h : maintained env d b ok = (d', .ends (.failed error)))
    (hok : ∀ error, ok ≠ .ends (.failed error)) : env.maintenance.fails = true := by
  unfold maintained at h
  split at h
  · exact absurd (Prod.mk.inj h).2 (hok error)
  · next code hcode =>
    have hblocking := failed_publishError (Progress.ends.inj (Prod.mk.inj h).2)
    rw [hcode, Maintenance.fails, hblocking]
    rfl
  · next hcode => rw [hcode]; rfl
  · cases h

/-- The replacement under the lease ends no step. -/
theorem gate_ne_ends (o : Outcome Result) : (gate env d b staged).2 ≠ .ends o := by
  have hverify : (verifyStaged env d b staged).2 ≠ .ends o := by
    unfold verifyStaged unwinds
    split
    · nofun
    · split_ifs <;> nofun
    · nofun
  unfold gate unwinds
  split
  · nofun
  · nofun
  · nofun
  · simp only
    split <;> split_ifs <;> first | exact hverify | nofun

theorem failed_removal {x : Root × Ends}
    (h : (match env.fault with
      | .failed error => (d, .ends (.failed error))
      | .raises => (d, .raises)
      | .ok => x) = (d', .ends (.failed error)))
    (hx : ∀ d' error, x ≠ (d', .ends (.failed error))) : env.fault.fails = true := by
  split at h
  · next hfault => rw [hfault]; rfl
  · cases h
  · exact absurd h (hx d' error)

/-- **A piece of a step.** -/
theorem worked_clearStep (h : Between r d) (hi : Inside r d b) (hstate : r.state = .running)
    (htold : b.place = .outcome → Told d b.expected) : Worked r d (clearStep env d b) := by
  have hphase := hi.phase
  have hat := hi.at_
  unfold clearStep
  cases hplace : b.place <;> rw [hplace] at hphase hat <;> simp only [Place.phase] at hphase <;>
    simp only
  case preflight =>
    split
    · next o ho => exact worked_stops h (.refl d) (stops_currentDisposition ho)
    · exact worked_returns h (.refl d) (by rw [← hphase]; decide)
  case waitingForQuiesce =>
    split
    · next o ho => exact worked_stops h (.refl d) (stops_currentDisposition ho)
    · split_ifs
      · exact worked_returns h (.refl d) (by rw [← hphase]; decide)
      · exact worked_stops h (.refl d) trivial
  case staging => exact worked_stagingStart h hi hphase.symm
  case stagingRemove old => exact worked_removing h hi hphase fun _ => trivial
  case stagingEnsure old =>
    split
    · exact worked_stops h (.refl d) trivial
    · exact worked_raises h (.refl d)
    · refine worked_goes h hi ?_ hphase trivial
      have hsame : (some d.staging : Option (Option Staging)).join = d.staging := rfl
      refine .steady rfl rfl (fun _ => id) (fun i hi => ?_) fun st hst => Or.inl ?_
      · unfold Root.file Root.staging at hi ⊢
        exact hi
      · unfold Root.staged Root.staging at hst ⊢
        exact hst
  case stagingMkdir old =>
    split
    · next hfault hstaging =>
      refine worked_goes h hi ?_ hphase trivial
      exact .steady rfl rfl (fun _ => id) (fun i hi => (by cases hi)) fun st hst => (by cases hst)
    · exact worked_raises h (.refl d)
  case stagingCreate old => exact worked_stagingCreate h hi hphase.symm old
  case stagingWrite identity =>
    exact worked_stagingWrite h (hi.expected ▸ hat) hphase.symm
  case publishing => exact worked_publishingStart h hi hphase.symm
  case prepare staged => exact worked_maintained h (worked_goes h hi (.refl d) hphase hat)
  case gate staged => exact worked_gate h hi hphase.symm hat
  case replace staged => exact worked_replaceStore h hi hstate hphase.symm hat.1 hat.2.1 hat.2.2
  case replaced staged => exact worked_underLease h hi hphase.symm rfl hat
  case marker staged => exact worked_writeMarker h hi hphase.symm hat.1 hat.2
  case prime staged => exact worked_underLease h hi hphase.symm rfl hat
  case reopen staged => exact worked_maintained h (worked_reopened h hphase.symm)
  case unwind pending => exact worked_unwind h
  case reopening cancelRequested => exact worked_reopening h hi hphase.symm hat
  case compensate =>
    split
    · exact worked_stops h (.refl d) trivial
    · exact worked_raises h (.refl d)
    · obtain ⟨herases, -⟩ := erases_removeStaging (d := d) env.part
      split
      · next d' heq =>
        rw [heq] at herases
        exact worked_returns h herases.toShrinks (by rw [← hphase]; decide)
      · next d' heq =>
        rw [heq] at herases
        exact worked_stays h hi herases
  case cleanup =>
    split
    · exact worked_stops h (.refl d) trivial
    · exact worked_raises h (.refl d)
    · exact worked_goes h hi (.refl d) hphase trivial
  case sweepDirs todo =>
    exact worked_sweeping h hi hphase (fun _ => hphase) trivial (fun _ _ => trivial) fun name =>
      (Erases.beside (by rfl) (by rfl) (by rfl) (by rfl)).toShrinks
  case sweepClear =>
    split
    · exact worked_stops h (.refl d) trivial
    · exact worked_raises h (.refl d)
    · obtain ⟨herases, hgone⟩ := erases_removeStaging (d := d) env.part
      split
      · next d' heq =>
        rw [heq] at herases hgone
        refine ⟨(h.shrinks herases.toShrinks).shrinks (erases_clear rfl).toShrinks, hi.expected,
          hphase, trivial⟩
      · next d' heq =>
        rw [heq] at herases
        exact worked_stays h hi herases
  case sweepFiles todo =>
    refine worked_sweeping h hi ?_ (fun _ => hphase) ?_ (fun _ _ => trivial) fun name =>
      (Erases.beside (by rfl) (by rfl) (by rfl) (by rfl)).toShrinks
    · split_ifs <;> exact hphase
    · split_ifs <;> trivial
  case sweepGap todo =>
    exact worked_sweeping h hi hphase (fun _ => hphase) trivial (fun _ _ => trivial) fun name =>
      (Erases.beside (by rfl) (by rfl) (by rfl) (by rfl)).toShrinks
  case outcome => exact worked_cleanupOutcome h hi (htold hplace)
  case unknownPhase => exact worked_raises h (.refl d)

theorem failed_reopening {cancelRequested : Bool} (h : Between r d) (hi : Inside r d b)
    (hsome : d.replacements ≠ [])
    (hstep : reopening env d b cancelRequested = (d', .ends (.failed error))) :
    env.helper.fails = true := by
  obtain ⟨s, hs, hother, -⟩ := h.kept.replaced hsome
  have hlive : ∀ {live}, liveIdentity env d = .ok live → live = some s := by
    intro live hlive
    unfold liveIdentity at hlive
    split at hlive <;> cases hlive
    exact hs
  unfold reopening at hstep
  split at hstep
  · split at hstep
    · next o ho =>
      cases hstep
      exact failed_liveIdentity ho
    · split_ifs at hstep <;> cases hstep
  split at hstep
  · split at hstep
    · next o ho =>
      cases hstep
      exact failed_currentDisposition ho
    · cases hstep
    · next hdisposition =>
      exfalso
      unfold currentDisposition at hdisposition
      split at hdisposition
      · cases hdisposition
      · next store hstore =>
        cases hlive hstore
        split_ifs at hdisposition with h₁ h₂
        · cases hdisposition
        · exact h₂ (hi.expected ▸ hother)
      · next hstore => cases hlive hstore
  · split at hstep
    · next o ho =>
      cases hstep
      exact failed_liveIdentity ho
    · next hstore => cases hlive hstore
    · split_ifs at hstep <;> cases hstep

/-- **What fails a step after the replacement.** -/
theorem failing_of_failed (h : Between r d) (hi : Inside r d b) (hsome : d.replacements ≠ [])
    (hstep : clearStep env d b = (d', .ends (.failed error))) : failing env b.place = true := by
  have hlate : r.phase ≠ .preflight ∧ r.phase ≠ .waitingForQuiesce ∧ r.phase ≠ .staging :=
    ⟨fun hp => hsome (h.early (Or.inl hp)), fun hp => hsome (h.early (Or.inr (Or.inl hp))),
      fun hp => hsome (h.early (Or.inr (Or.inr hp)))⟩
  have hphase := hi.phase
  have hat := hi.at_
  unfold clearStep at hstep
  cases hplace : b.place <;> rw [hplace] at hphase hat hstep <;> simp only at hstep
  case publishing =>
    unfold publishingStart at hstep
    split at hstep
    · cases hstep
    · split at hstep
      · next o ho =>
        cases hstep
        exact failed_currentDisposition ho
      · cases hstep
      · cases hstep
  case prepare staged => exact failed_maintained hstep nofun
  case gate staged => exact absurd (congrArg Prod.snd hstep) (gate_ne_ends _)
  case replace staged =>
    unfold replaceStore unwinds at hstep
    split at hstep
    · split at hstep <;> cases hstep
    · cases hstep
  case replaced staged =>
    unfold underLease unwinds at hstep
    split at hstep <;> cases hstep
  case marker staged =>
    unfold writeMarker unwinds at hstep
    split at hstep <;> cases hstep
  case prime staged =>
    unfold underLease unwinds at hstep
    split at hstep <;> cases hstep
  case reopen staged =>
    refine failed_maintained hstep fun error herror => ?_
    unfold reopened advance blocks at herror
    split at herror
    · cases herror
    · split_ifs at herror <;> cases herror
  case unwind pending =>
    unfold unwind at hstep
    unfold failing
    split at hstep
    · next code hcode =>
      have hblocking := failed_publishError (Progress.ends.inj (Prod.mk.inj hstep).2)
      simp only [hcode, hblocking, Bool.not_false]
    · cases hstep
    · next h₁ h₂ =>
      have hpending : pending.fails = true := by
        cases pending with
        | maintenance code =>
          have hblocking := failed_publishError (Progress.ends.inj (Prod.mk.inj hstep).2)
          rw [Pending.fails, hblocking]
          rfl
        | failed error => rfl
      cases hm : env.maintenance with
      | error code => exact absurd hm (h₁ code)
      | raises => exact absurd hm h₂
      | _ => exact hpending
  case reopening cancelRequested => exact failed_reopening h hi hsome hstep
  case compensate => exact absurd (h.cancel hat).1 hsome
  case cleanup => exact failed_removal hstep fun d' error hx => by cases hx
  case sweepDirs todo =>
    unfold sweeping at hstep
    refine failed_removal hstep fun d' error hx => ?_
    split at hx <;> cases hx
  case sweepClear =>
    refine failed_removal hstep fun d' error hx => ?_
    split at hx <;> cases hx
  case sweepFiles todo =>
    unfold sweeping at hstep
    refine failed_removal hstep fun d' error hx => ?_
    split at hx <;> cases hx
  case sweepGap todo =>
    unfold sweeping at hstep
    refine failed_removal hstep fun d' error hx => ?_
    split at hx <;> cases hx
  case outcome =>
    unfold cleanupOutcome at hstep
    split at hstep
    · next o ho =>
      cases hstep
      exact failed_liveIdentity ho
    · cases hstep
  case unknownPhase => cases hstep
  all_goals first
    | exact absurd hphase.symm hlate.1
    | exact absurd hphase.symm hlate.2.1
    | exact absurd hphase.symm hlate.2.2

end Pieces

/-! ## The engine and the outside world -/

section Engine

variable {r r' : Record Parameters Result} {d : Root}

/-- A clear can be cancelled before it publishes. -/
theorem early_of_isCancelable (h : Between r d) (hcancelable : r.isCancelable = true) :
    r.phase = .preflight ∨ r.phase = .waitingForQuiesce ∨ r.phase = .staging := by
  unfold Record.isCancelable at hcancelable
  split_ifs at hcancelable with hterminal hqueued hmem
  · exact Or.inl (h.queued hqueued)
  · rw [h.machine] at hcancelable
    have hbefore : machine.phases.idxOf r.phase <
        machine.phases.idxOf machine.irreversiblePhase := by
      simpa using hcancelable
    cases hphase : r.phase <;> rw [hphase] at hbefore
    · exact Or.inl rfl
    · exact Or.inr (Or.inl rfl)
    · exact Or.inr (Or.inr rfl)
    all_goals exact absurd hbefore (by decide)

/-- The record goes on in its phase, to another state. -/
theorem Between.stays (h : Between r d) (hcontinues : r.Continues r') {state : State}
    (hview : r'.view = { r.view with state := state }) (hqueued : state ≠ .queued)
    (hended : state = .failed ∨ state = .cancelled → d.replacements = [])
    (hsucceeded : state ≠ .succeeded) : Between r' d := by
  obtain ⟨hstate', hphase', hrequested', -⟩ := View.mk.inj hview
  refine ⟨hcontinues.machine.trans h.machine, hcontinues.parameters ▸ h.kept,
    fun hq => absurd (hstate'.symm.trans hq) hqueued, fun hearly => h.early ?_, fun hrequested => ?_,
    fun he => hended ?_, fun hs => absurd (hstate'.symm.trans hs) hsucceeded⟩
  · rwa [hphase'] at hearly
  · rw [hphase']
    exact h.cancel (hrequested'.symm.trans hrequested)
  · rwa [hstate'] at he

theorem Between.request (h : Between r d) (hcontinues : r.Continues r')
    (hrequested : classifyCancel r = .requested)
    (hview : r'.view = { r.view with cancelRequested := true }) : Between r' d := by
  have hcancelable := isCancelable_of_requested hrequested
  have hearly := early_of_isCancelable h hcancelable
  have hopen := not_terminal_of_isCancelable hcancelable
  obtain ⟨hstate', hphase', -, -⟩ := View.mk.inj hview
  have hstate : r'.state = r.state := hstate'
  have hphase : r'.phase = r.phase := hphase'
  refine ⟨hcontinues.machine.trans h.machine, hcontinues.parameters ▸ h.kept, fun hq => ?_,
    fun _ => h.early hearly, fun _ => ⟨h.early hearly, ?_⟩, fun he => h.early hearly, fun hs => ?_⟩
  · rw [hphase]
    exact h.queued (hstate.symm.trans hq)
  · rw [hphase]
    rcases hearly with hp | hp | hp <;> rw [hp] <;> decide
  · rw [← hstate, hs] at hopen
    cases hopen

theorem Between.moves (h : Between r d) (hcontinues : r.Continues r') (hmoves : Moves r r') :
    Between r' d := by
  cases hmoves with
  | started before view =>
    exact h.stays hcontinues view (by decide) (fun he => by rcases he with he | he <;> cases he)
      (by decide)
  | diverted cancel pending cancelPhase other view =>
    obtain ⟨hrequested, hcancelable⟩ := Record.cancelPending_iff.mp pending
    obtain ⟨hnone, -⟩ := h.cancel hrequested
    obtain ⟨hstate', hphase', -, -⟩ := View.mk.inj view
    have hcancel : cancel = .reopening := by
      rw [h.machine] at cancelPhase
      exact (Option.some.inj cancelPhase).symm
    have hphase : r'.phase = .reopening := hphase'.trans hcancel
    refine ⟨hcontinues.machine.trans h.machine, hcontinues.parameters ▸ h.kept, fun hq => ?_,
      fun _ => hnone, fun _ => ⟨hnone, ?_⟩, fun _ => hnone, fun hs => ?_⟩
    · exact absurd (hstate'.symm.trans hq) (by decide)
    · rw [hphase]
      decide
    · exact absurd (hstate'.symm.trans hs) (by decide)
  | cancelled cancelable cancelPhase view =>
    rw [h.machine] at cancelPhase
    cases cancelPhase

/-- The phase that comes after another. -/
theorem successor_cases {phase next : Phase}
    (h : machine.phases[machine.phases.idxOf phase + 1]? = some next) :
    (phase = .preflight ∧ next = .waitingForQuiesce) ∨ (phase = .waitingForQuiesce ∧ next = .staging) ∨
      (phase = .staging ∧ next = .publishing) ∨ (phase = .publishing ∧ next = .reopening) ∨
        (phase = .reopening ∧ next = .cleanup) := by
  cases phase <;> simp [machine] at h <;> simp [h]

theorem Between.settles (h : Between r d) (hstate : r.state = .running)
    {result : StepResult Result} (hafter : After r d (.returned result))
    (hcontinues : r.Continues r') (hsettled : Settled .completed result r r') : Between r' d := by
  cases hsettled with
  | held quiet view =>
    refine Between.stays h hcontinues (show _ = { r.view with state := r.state } from view)
      (by rw [hstate]; decide) (fun he => ?_)
      (by rw [hstate]; decide)
    rw [hstate] at he
    rcases he with he | he <;> cases he
  | cancelled cancel requested view =>
    exact h.stays hcontinues view (by decide) (fun _ => (h.cancel requested).1) (by decide)
  | succeeded last free plain view =>
    obtain ⟨hstate', hphase', hrequested', hresult'⟩ := View.mk.inj view
    rw [h.machine] at last
    have hphase : r.phase = .cleanup := Option.some.inj last
    obtain ⟨rep, hrep, hhonest⟩ := hafter hphase
    rw [hrep] at hresult'
    have hnot : r.cancelRequested ≠ true := fun hr => (h.cancel hr).2.2 hphase
    refine ⟨hcontinues.machine.trans h.machine, hcontinues.parameters ▸ h.kept, fun hq => ?_,
      fun he => h.early ?_, fun hr => absurd (hrequested'.symm.trans hr) hnot, fun he => ?_,
      fun _ => ⟨rep, hresult', hhonest⟩⟩
    · exact absurd (hstate'.symm.trans hq) (by decide)
    · rwa [hphase'] at he
    · rw [hstate'] at he
      rcases he with he | he <;> cases he
  | next next successor free plain view =>
    obtain ⟨hstate', hphase', hrequested', -⟩ := View.mk.inj view
    have hstate'' : r'.state = .running := hstate'.trans hstate
    have hphase'' : r'.phase = next := hphase'
    rw [h.machine] at successor
    have hcases := successor_cases successor
    refine ⟨hcontinues.machine.trans h.machine, hcontinues.parameters ▸ h.kept, fun hq => ?_,
      fun he => h.early ?_, fun hr => ?_, fun he => ?_, fun hs => ?_⟩
    · exact absurd (hstate''.symm.trans hq) (by decide)
    · rw [hphase''] at he
      rcases hcases with ⟨hp, hn⟩ | ⟨hp, hn⟩ | ⟨hp, hn⟩ | ⟨hp, hn⟩ | ⟨hp, hn⟩ <;>
        simp only [hp, hn] at he ⊢ <;> simp at he ⊢
    · have hr : r.cancelRequested = true := hrequested'.symm.trans hr
      obtain ⟨hnone, hpublishing, hcleanup⟩ := h.cancel hr
      refine ⟨hnone, ?_⟩
      rw [hphase'']
      rcases hcases with ⟨hp, hn⟩ | ⟨hp, hn⟩ | ⟨hp, hn⟩ | ⟨hp, hn⟩ | ⟨hp, hn⟩ <;> rw [hn]
      · decide
      · decide
      · -- an advance into the publication is held for the cancel
        exfalso
        have hpending := Mindful.pending hstate hr (by rw [h.machine, hp]; decide)
          (by rw [h.machine, hp]; decide)
        rcases free with hfree | hfree
        · rw [hpending] at hfree
          cases hfree
        · rw [h.machine, hp] at hfree
          cases hfree
      · decide
      · exfalso
        refine plain ⟨?_, hr⟩
        rw [h.machine, hp]
        rfl
    · rw [hstate''] at he
      rcases he with he | he <;> cases he
    · exact absurd (hstate''.symm.trans hs) (by decide)

theorem erases_weather (x : Weather) : Erases d (weather x d) := by
  cases x with
  | append physicalMs logical =>
    refine ⟨⟨fun s' hs' => Or.inl ?_, fun s hs => ?_, rfl, fun _ => id, fun _ => id, fun _ => Or.inl⟩,
      fun _ => id⟩
    · obtain ⟨s, hs, rfl⟩ := Option.map_eq_some_iff.mp hs'
      exact ⟨s, hs, rfl⟩
    · exact ⟨_, Option.map_eq_some_iff.mpr ⟨s, hs, rfl⟩, rfl⟩
  | create identity empty =>
    unfold weather
    simp only
    split
    · next hcreate =>
      refine ⟨⟨fun s' hs' => Or.inr ?_, fun s hs => ?_, rfl, fun _ ht => List.mem_cons_of_mem _ ht,
        fun _ => id, fun _ => Or.inl⟩, fun _ => id⟩
      · cases hs'
        exact ⟨hcreate.2, List.mem_cons_self⟩
      · cases hcreate.1.symm.trans hs
    · exact .refl d
  | derived dirs files gapFiles gap => exact .beside rfl rfl rfl rfl
  | sweep part =>
    obtain ⟨herases, -⟩ := erases_removeStaging (d := d) part
    unfold weather
    simp only
    split
    · next d' heq =>
      rw [heq] at herases
      have hclear := erases_clear (d := d') (c := none) rfl
      refine ⟨⟨fun s' hs' => ?_, fun s hs => ?_, ?_, fun t ht => ?_, fun i hi => ?_, fun s hs => ?_⟩,
        fun s hs => ?_⟩
      · exact herases.back s' hs'
      · exact herases.on s hs
      · exact herases.replacements
      · exact herases.drawn t ht
      · exact herases.file i (hclear.file i hi)
      · exact Or.inl (herases.staged_only s (hclear.staged_only s hs))
      · exact herases.staged_only s (hclear.staged_only s hs)
    · next d' heq =>
      rw [heq] at herases
      exact herases

end Engine

/-- **What every action keeps.** -/
theorem triples (fingerprint : Text → Parameters → Text) :
    Triples (program fingerprint) conditions assertions where
  request {r r' d} h hcontinues hrequested hview := by
    have hcancelable := isCancelable_of_requested hrequested
    have hearly := early_of_isCancelable h hcancelable
    obtain ⟨-, hphase', -, -⟩ := View.mk.inj hview
    refine ⟨Between.request h hcontinues hrequested hview, fun b hb => ?_, fun o ho => ?_⟩
    · refine ⟨hb.expected.trans (by rw [hcontinues.parameters]), hb.phase.trans hphase'.symm, ?_⟩
      have hphase := hb.phase
      have hat := hb.at_
      cases hplace : b.place <;> rw [hplace] at hphase hat <;>
        first
        | exact hat
        | (rcases hearly with hp | hp | hp <;> rw [hp] at hphase <;> cases hphase)
    · cases o with
      | returned result =>
        intro hc
        exact ho (hphase'.symm.trans hc)
      | blocked error => trivial
      | failed error => exact ho
  moves h hcontinues hmoves := Between.moves h hcontinues hmoves
  unsupported hd h hstate hcontinues hview :=
    Between.stays h hcontinues hview (by decide) (fun _ => hd) (by decide)
  enter {l r d} h hstate hloaded := by
    refine ⟨congrArg Parameters.expectStoreEpoch hloaded.parameters, ?_, ?_⟩
    · cases r.phase <;> rfl
    · cases hphase : r.phase with
      | reopening =>
        show l.cancelRequested = r.cancelRequested
        rcases hloaded.flag with hflag | hcancelable
        · exact hflag
        · have := early_of_isCancelable h hcancelable
          rw [hphase] at this
          rcases this with hp | hp | hp <;> cases hp
      | _ => trivial
  work {env r d b} hwork h hstate hinside := by
    obtain ⟨hfails, htold⟩ := hwork
    have hworked : Worked r d (clearStep env d b) := worked_clearStep h hinside hstate htold
    show assertions.worked r (clearStep env d b)
    cases hstep : clearStep env d b with
    | mk d' progress =>
      rw [hstep] at hworked
      cases progress with
      | goes next => exact hworked
      | raises => exact hworked
      | ends outcome =>
        cases outcome with
        | returned result => exact hworked
        | blocked error => exact ⟨hworked, trivial⟩
        | failed error =>
          refine ⟨hworked.1, hworked.2.trans (by_contra fun hsome => ?_)⟩
          have hfailing := failing_of_failed h hinside hsome hstep
          rw [hfails.resolve_left hsome] at hfailing
          cases hfailing
  blocks h hstate _ hcontinues _ hview :=
    Between.stays h hcontinues hview (by decide) (fun he => by rcases he with he | he <;> cases he)
      (by decide)
  fails h hstate hafter hcontinues _ hview :=
    Between.stays h hcontinues hview (by decide) (fun _ => hafter) (by decide)
  settles h hstate hafter hcontinues hsettled := Between.settles h hstate hafter hcontinues hsettled
  weather {x r d} _ h := by
    have herases : Erases d (weather x d) := erases_weather x
    refine ⟨Between.shrinks h herases.toShrinks, fun b hb =>
      ⟨hb.expected, hb.phase, hb.at_.erases herases⟩, fun o ho => ?_⟩
    cases o with
    | returned result =>
      intro hc
      obtain ⟨rep, hrep, hhonest⟩ := ho hc
      refine ⟨rep, hrep, ?_⟩
      unfold Honest
      rw [show ((program fingerprint).weather x d).replacements = d.replacements from
        herases.replacements]
      exact hhonest
    | blocked error => trivial
    | failed error => exact herases.replacements.trans ho

/-! ## Reports -/

/-- A clear that succeeds reports what it did, replaces at most once, by an empty store, and has
replaced nothing if it fails or is cancelled. -/
structure Reports (w : World Parameters Result Root Body) : Prop where
  once : w.disk.replacements.length ≤ 1
  empty : ∀ s ∈ w.disk.replacements, s.empty = true
  succeeded : w.record.state = .succeeded →
    ∃ rep, w.record.result = some (.report rep) ∧ Honest w.disk rep
  ended : w.record.state = .failed ∨ w.record.state = .cancelled → w.disk.replacements = []

/-- **What a finished clear reports.**  Over every store, expectation and run in which nothing fails
after the replacement, and the outcome is read off no other store than the clear's own or the one
that it was told of. -/
theorem clear_reports (fingerprint : Text → Parameters → Text) {now : ℕ} {id : Text}
    {parameters : Parameters} {r : Record Parameters Result}
    (hnew : newOperation fingerprint now id (ascii "clear") parameters machine = some r) {d : Root}
    (hnone : d.replacements = []) (hstaging : d.staging = none)
    (hlive : ∀ s ∈ d.live, s.identity.storeEpoch ∈ d.drawn) {acts : List (Action Env Weather)}
    (hacts : Along (World.step (program fingerprint)) conditions.permit
      { record := r, disk := d } acts) :
    Reports (run (World.step (program fingerprint)) { record := r, disk := d } acts) := by
  obtain ⟨-, hmachine, hhead, hqueued, hflag, -⟩ := newOperation_eq_some hnew
  have hphase : r.phase = .preflight := (Option.some.inj hhead).symm
  have hbetween : Between r d := by
    refine ⟨hmachine, ⟨by rw [hnone]; exact Nat.zero_le _, fun s hs => ?_, fun i hi => ?_,
      fun s hs => ?_, hlive, fun hsome => absurd hnone hsome⟩, fun _ => hphase, fun _ => hnone,
      fun hr => ?_, fun _ => hnone, fun hs => ?_⟩
    · rw [hnone] at hs
      cases hs
    · unfold Root.file at hi
      rw [hstaging] at hi
      cases hi
    · unfold Root.staged at hs
      rw [hstaging] at hs
      cases hs
    · rw [hflag] at hr
      cases hr
    · rw [hqueued] at hs
      cases hs
  have hholds := holds_run (triples fingerprint)
    (w := { record := r, disk := d }) ⟨hbetween, fun _ hrn => (by cases hrn), fun _ hid =>
      (by cases hid)⟩ hacts
  exact ⟨hholds.between.kept.once, hholds.between.kept.empty, hholds.between.succeeded,
    hholds.between.ended⟩

/-! ### A clear -/

def sampleFingerprint (_ : Text) (_ : Parameters) : Text :=
  ascii (String.ofList (List.replicate 64 '0'))

/-- A store with facts. -/
def sampleRoot : Root where
  live := some ⟨⟨ascii "h", ascii "e", 5, 1⟩, false⟩
  drawn := [ascii "e"]

/-- The answers of the sample run: a store that is drawn anew. -/
def sampleEnv : Env where
  fresh := ⟨ascii "h2", ascii "e2", 7, 0⟩

/-- A run of the loop through one step. -/
def stepActions (pieces : List Env) : List (Action Env Weather) :=
  [.run 0, .run 0] ++ pieces.map .work ++ [.run 0]

/-- The pieces of the sweep of the staging directory, which holds two files. -/
def sampleSweep : List Env :=
  [sampleEnv, sampleEnv, { sampleEnv with part := .identity }, { sampleEnv with part := .marker }] ++
    List.replicate 4 sampleEnv

/-- The whole clear, without a fault. -/
def sampleActions : List (Action Env Weather) :=
  [.arrive { claim := raceClaim }, .run 0, .run 0] ++ stepActions [sampleEnv] ++
    stepActions [sampleEnv] ++ stepActions (List.replicate 5 sampleEnv) ++
    stepActions (List.replicate 8 sampleEnv) ++ stepActions [sampleEnv] ++ stepActions sampleSweep

theorem clear_reports_sample : ∃ r : Record Parameters Result,
    newOperation sampleFingerprint 0 (ascii "a") (ascii "clear") ⟨ascii "e"⟩ machine = some r ∧
      (run (World.step (program sampleFingerprint)) { record := r, disk := sampleRoot }
        sampleActions).record.state = .succeeded ∧
      Reports (run (World.step (program sampleFingerprint)) { record := r, disk := sampleRoot }
        sampleActions) :=
  ⟨_, rfl, by decide +kernel, @clear_reports sampleFingerprint 0 (ascii "a") ⟨ascii "e"⟩ _ rfl
    sampleRoot rfl rfl (by decide) sampleActions (by decide +kernel)⟩

/-- A store that is already clear. -/
def emptyRoot : Root where
  live := some ⟨⟨ascii "h", ascii "e", 5, 1⟩, true⟩
  drawn := [ascii "e"]

def saysCleared : Result → Bool
  | .report rep => rep.outcome = .cleared
  | .completed => false

/-- A clear of an empty store. -/
def emptyActions : List (Action Env Weather) :=
  [.arrive { claim := raceClaim }, .run 0, .run 0] ++ stepActions [sampleEnv] ++
    stepActions [sampleEnv] ++ stepActions [sampleEnv] ++ stepActions [sampleEnv] ++
    stepActions [sampleEnv] ++ stepActions (List.replicate 6 sampleEnv)

/-- **A clear that reports what it has not done.**  The store is empty and nothing is left over, the
clear expects no epoch, replaces nothing, and says `cleared`. -/
theorem clear_reports_cleared :
    ¬ ∀ (fingerprint : Text → Parameters → Text) (now : ℕ) (id : Text) (parameters : Parameters)
      (r : Record Parameters Result),
      newOperation fingerprint now id (ascii "clear") parameters machine = some r →
      ∀ d : Root, d.replacements = [] → d.staging = none →
      (∀ s ∈ d.live, s.identity.storeEpoch ∈ d.drawn) → ∀ acts : List (Action Env Weather),
        Reports (run (World.step (program fingerprint)) { record := r, disk := d } acts) :=
  fun h => by
  obtain ⟨rep, hrep, hhonest, -⟩ := (h sampleFingerprint 0 (ascii "a") ⟨[]⟩ _ rfl emptyRoot rfl rfl
    (by decide) emptyActions).succeeded (by decide +kernel)
  have hcleared {x : Option Result} (hx : x = some (.report rep))
      (hany : x.any saysCleared = true) : rep.outcome = .cleared := by
    subst hx
    exact of_decide_eq_true hany
  exact hhonest.mp (hcleared hrep (by decide +kernel)) (by decide +kernel)

end Clear
end Operations
end SemanticMemory
