import SemanticMemory.Derived.Publish

/-!
# What a failed publication leaves behind

A call of `_publish_locked` that returns `committed = False`.

* A place of the call is in one of three phases: the staging is whole, its record is parked, or its
  container stands under `generations/` and its record is parked.  `Phase` says which, against the
  root with which the call began, and `phase_step` that every step that goes on keeps it.
* The undo leads from the third phase over the second to the first, as far as its renames and its
  `fsync` go through (`undoGoes`).
* Two failures mark the staging on purpose: refused preconditions discard it, and a delta that
  cannot be embedded blocks it.  The retired generation is registered as the rollback before the
  manifest is written, and stays so.
-/

namespace SemanticMemory
namespace Derived

/-- The undo goes through: the renames back succeed, onto a free name, and so does its `fsync`. -/
def undoGoes (p : Publishing) (env : Env) : Bool :=
  match p.call.pc with
  | .danceUnpark _ => env.renameOk
  | .undoRename _ =>
    p.root.generations.find? p.call.generationId = none ||
      env.renameOk && p.root.staging.find? p.call.stagingDir = none
  | .undoSync _ => env.fsyncOk
  | .undoProgress _ => env.renameOk
  | _ => true

/-! ## The phases -/

/-- The rollback pointer is as the call found it, or names the healthy generation that the delta
machine served, which the call has registered. -/
def Registered (b p : Publishing) : Prop :=
  p.root.rollback = b.root.rollback ∨
    ∃ (generation : Generation) (schema : Text) (nowMs : ℕ),
      b.machine.served = some generation.generationId ∧
      openGeneration b.root.generations generation.generationId = some generation ∧
      p.root.rollback = .valid (composeManifest generation generation.generationId schema nowMs)

/-- What the call has in common with its beginning until the manifest is written. -/
structure Begun (b p : Publishing) : Prop where
  stagingDir : p.call.stagingDir = b.call.stagingDir
  generationId : p.call.generationId = b.call.generationId
  ready : p.call.ready = b.call.ready
  machine : p.machine = b.machine
  active : p.root.active = b.root.active
  registered : Registered b p

/-- The directories are as the call found them. -/
structure Whole (b p : Publishing) : Prop extends Begun b p where
  generations : p.root.generations = b.root.generations
  staging : p.root.staging = b.root.staging

/-- The staging's record is parked. -/
structure Parked (b p : Publishing) : Prop extends Begun b p where
  generations : p.root.generations = b.root.generations
  record : ∃ d r, b.root.staging.find? b.call.stagingDir = some d ∧ d.progress = some r ∧
    p.root.staging = b.root.staging.insert b.call.stagingDir { d with progress := none } ∧
    p.root.parked.find? b.call.stagingDir = some r

/-- The container is renamed and the staging's record is parked. -/
structure Renamed (b p : Publishing) : Prop extends Begun b p where
  free : b.root.generations.find? b.call.generationId = none
  record : ∃ d r, b.root.staging.find? b.call.stagingDir = some d ∧ d.progress = some r ∧
    p.root.generations = b.root.generations.insert b.call.generationId { d with progress := none } ∧
    p.root.staging = b.root.staging.erase b.call.stagingDir ∧
    p.root.parked.find? b.call.stagingDir = some r

/-- The staging has passed its verification under the name that is to be published. -/
structure Verified (b : Publishing) : Prop where
  name : b.call.stagingDir = b.call.generationId
  there : b.root.staging.find? b.call.stagingDir ≠ none

/-- Where the undo may have to begin. -/
inductive Undoable (b p : Publishing) : Prop
  | whole (h : Whole b p) (parked : p.call.parked = false)
  | parked (h : Parked b p) (parked : p.call.parked = true)
  | renamed (h : Renamed b p) (parked : p.call.parked = true)

/-! ## What a failure leaves -/

/-- The staging record is as it was, or marked as the failure's contract says. -/
inductive Marked (b p : Publishing) (res : Result) : Prop
  | same (h : p.root.staging = b.root.staging)
  | discarded (d : Dir) (r : Progress) (reason : Text)
      (hd : b.root.staging.find? b.call.stagingDir = some d) (hr : d.progress = some r)
      (hp : p.root.staging = b.root.staging.insert b.call.stagingDir
        { d with progress := some (r.discarded (preconditionsFailed reason)) })
      (hres : res.error = some (preconditionsFailed reason))
  | blocked (name : Text) (d : Dir) (r : Progress) (message : Text) (events : List Text)
      (phase : Text) (hname : b.call.ready = some name)
      (hd : b.root.staging.find? name = some d) (hr : d.progress = some r)
      (hready : r.status = .ready)
      (hp : p.root.staging = b.root.staging.insert name
        { d with
          progress :=
            some (r.blocked events (ascii "publish delta blocked: " ++ message) phase) })
      (hres : res.error = some message)

/-- What is left of a publication that has failed before the commit. -/
structure Undone (b p : Publishing) (res : Result) : Prop where
  active : p.root.active = b.root.active
  rollback : Registered b p
  generations : p.root.generations = b.root.generations
  staging : Marked b p res

/-- What holds at a place of a call that began in `b`. -/
def PhaseAt (b p : Publishing) : PublishPc → Prop
  | .reconcile .retry | .verify | .dancePark | .reject _ => Whole b p ∧ p.call.parked = false
  | .restore .retry => p.call.parked = false
  | .settle .retry =>
    p.call.parked = false ∧ (p.root.generations.find? p.call.generationId = none → Whole b p)
  | .danceOpen | .danceUnpark _ => Parked b p ∧ p.call.parked = false
  | .readFacts | .buildDelta _ | .block _ _ _ | .park =>
    Whole b p ∧ Verified b ∧ p.call.parked = false
  | .rename => Parked b p ∧ Verified b ∧ p.call.parked = true
  | .sync | .readSchema | .register | .openNew =>
    Renamed b p ∧ Verified b ∧ p.call.parked = true
  | .writeManifest generation =>
    (Renamed b p ∧ Verified b ∧ p.call.parked = true) ∧
      generation.generationId = p.call.generationId
  | .unlink | .syncStaging => p.root.active.generationId = some p.call.generationId
  | .reconcile (.failure false _) =>
    p.root.active.generationId = some p.call.generationId ∨ Undoable b p ∧ Verified b
  | .undoRename _ => Undoable b p ∧ Verified b
  | .undoSync _ => Parked b p ∧ Verified b ∧ p.call.parked = true
  | .undoProgress _ =>
    Verified b ∧ (Whole b p ∧ p.call.parked = false ∨ Parked b p ∧ p.call.parked = true)
  | .returned (some res) => res.committed = false → Undone b p res
  | _ => True

/-- What holds where the call stands. -/
def Phase (b p : Publishing) : Prop := PhaseAt b p p.call.pc

/-! ## The phases as the call goes on -/

section Steps

variable {b p p' : Publishing}

/-- The two states differ in neither the call's arguments nor the pointers nor the machine. -/
structure Alike (p p' : Publishing) : Prop where
  stagingDir : p'.call.stagingDir = p.call.stagingDir
  generationId : p'.call.generationId = p.call.generationId
  ready : p'.call.ready = p.call.ready
  machine : p'.machine = p.machine
  active : p'.root.active = p.root.active
  rollback : p'.root.rollback = p.root.rollback

theorem Registered.congr (h : Registered b p) (hrollback : p'.root.rollback = p.root.rollback) :
    Registered b p' := by
  unfold Registered at h ⊢
  rw [hrollback]
  exact h

theorem Begun.congr (h : Begun b p) (ha : Alike p p') : Begun b p' where
  stagingDir := ha.stagingDir.trans h.stagingDir
  generationId := ha.generationId.trans h.generationId
  ready := ha.ready.trans h.ready
  machine := ha.machine.trans h.machine
  active := ha.active.trans h.active
  registered := h.registered.congr ha.rollback

theorem Whole.congr (h : Whole b p) (ha : Alike p p')
    (hgenerations : p'.root.generations = p.root.generations)
    (hstaging : p'.root.staging = p.root.staging) : Whole b p' where
  toBegun := h.toBegun.congr ha
  generations := hgenerations.trans h.generations
  staging := hstaging.trans h.staging

theorem Parked.congr (h : Parked b p) (ha : Alike p p')
    (hgenerations : p'.root.generations = p.root.generations)
    (hstaging : p'.root.staging = p.root.staging)
    (hparked : p'.root.parked = p.root.parked) : Parked b p' where
  toBegun := h.toBegun.congr ha
  generations := hgenerations.trans h.generations
  record := by
    rw [hstaging, hparked]
    exact h.record

theorem Renamed.congr (h : Renamed b p) (ha : Alike p p')
    (hgenerations : p'.root.generations = p.root.generations)
    (hstaging : p'.root.staging = p.root.staging)
    (hparked : p'.root.parked = p.root.parked) : Renamed b p' where
  toBegun := h.toBegun.congr ha
  free := h.free
  record := by
    rw [hgenerations, hstaging, hparked]
    exact h.record

/-- A place is left for another one. -/
theorem alike_goto (p : Publishing) (pc : PublishPc) : Alike p (p.goto pc) :=
  ⟨rfl, rfl, rfl, rfl, rfl, rfl⟩

theorem Whole.goto (h : Whole b p) (pc : PublishPc) : Whole b (p.goto pc) :=
  h.congr (alike_goto p pc) rfl rfl

theorem Parked.goto (h : Parked b p) (pc : PublishPc) : Parked b (p.goto pc) :=
  h.congr (alike_goto p pc) rfl rfl rfl

theorem Renamed.goto (h : Renamed b p) (pc : PublishPc) : Renamed b (p.goto pc) :=
  h.congr (alike_goto p pc) rfl rfl rfl

theorem Undoable.goto (h : Undoable b p) (pc : PublishPc) : Undoable b (p.goto pc) := by
  cases h with
  | whole h hparked => exact .whole (h.goto pc) hparked
  | parked h hparked => exact .parked (h.goto pc) hparked
  | renamed h hparked => exact .renamed (h.goto pc) hparked

theorem Whole.undone (h : Whole b p) (committed : Bool) (error : Text) (res : Result) :
    Undone b (p.refuse committed error) res :=
  ⟨h.active, h.registered.congr rfl, h.generations, .same h.staging⟩

/-! ### Parking and restoring -/

variable {env : Env}

/-- A parked record that is renamed back makes the directories whole. -/
theorem Parked.restore (h : Parked b p) (hname : p.call.stagingDir = b.call.stagingDir)
    (hok : env.renameOk = true) :
    Whole b { p with root := restoreProgress env p.call.stagingDir p.root } := by
  obtain ⟨d, r, hd, hr, hstaging, hparked⟩ := h.record
  have hfind : p.root.staging.find? b.call.stagingDir = some { d with progress := none } := by
    rw [hstaging]
    simp
  have hroot : restoreProgress env p.call.stagingDir p.root =
      { p.root with
        staging := p.root.staging.insert b.call.stagingDir { d with progress := some r }
        parked := p.root.parked.erase b.call.stagingDir } := by
    rw [hname]
    unfold restoreProgress
    rw [hfind, hparked]
    exact if_pos hok
  refine ⟨h.toBegun.congr ⟨rfl, rfl, rfl, rfl, ?_, ?_⟩, ?_, ?_⟩
  · show (restoreProgress env p.call.stagingDir p.root).active = _
    rw [hroot]
  · show (restoreProgress env p.call.stagingDir p.root).rollback = _
    rw [hroot]
  · show (restoreProgress env p.call.stagingDir p.root).generations = _
    rw [hroot]
    exact h.generations
  · show (restoreProgress env p.call.stagingDir p.root).staging = _
    rw [hroot]
    refine KeyedMap.ext_find? fun name => ?_
    show (p.root.staging.insert _ _).find? name = _
    rw [KeyedMap.find?_insert, hstaging, KeyedMap.find?_insert]
    split
    · next hn =>
      rw [hn, hd, ← hr]
    · rfl

/-! ### Renaming -/

/-- A container that is renamed back makes its staging one with a parked record. -/
theorem Renamed.back {root : Root} (h : Renamed b p)
    (hroot : renameBack env p.call p.root = some root) : Parked b { p with root := root } := by
  obtain ⟨d, r, hd, hr, hgenerations, hstaging, hparked⟩ := h.record
  unfold renameBack at hroot
  split at hroot
  swap
  · cases hroot
  obtain ⟨⟨src, dst⟩, hmove, rfl⟩ := Option.map_eq_some_iff.mp hroot
  obtain ⟨d', hd', -, rfl, rfl⟩ := moveDir_eq_some hmove
  rw [h.generationId, hgenerations, KeyedMap.find?_insert, if_pos rfl] at hd'
  cases hd'
  refine ⟨h.toBegun.congr ⟨rfl, rfl, rfl, rfl, rfl, rfl⟩, ?_, d, r, hd, hr, ?_, hparked⟩
  · show p.root.generations.erase p.call.generationId = _
    refine KeyedMap.ext_find? fun name => ?_
    rw [KeyedMap.find?_erase, hgenerations, KeyedMap.find?_insert, h.generationId]
    split
    · next hn =>
      rw [hn, h.free]
    · rfl
  · show p.root.staging.insert p.call.stagingDir _ = _
    refine KeyedMap.ext_find? fun name => ?_
    rw [KeyedMap.find?_insert, KeyedMap.find?_insert, hstaging, KeyedMap.find?_erase, h.stagingDir]
    split <;> rfl

/-! ### One step from each place -/

variable {at_ : Recovering}

theorem phase_reconcile (env : Env) (h : PhaseAt b p (.reconcile at_)) :
    Phase b (stepReconcile env at_ p) := by
  unfold stepReconcile
  by_cases hactive : p.root.active.generationId = some p.call.generationId
  · simp only [if_pos hactive]
    split
    · cases at_ with
      | retry => exact h.2
      | failure postRename reason => trivial
    · cases at_ with
      | retry => exact ⟨h.2, fun _ => h.1.goto _⟩
      | failure postRename reason => trivial
  · simp only [if_neg hactive]
    match at_, h with
    | .retry, h => exact ⟨h.1.goto _, h.2⟩
    | .failure false _, h =>
      obtain ⟨hundo, hv⟩ := h.resolve_left hactive
      exact ⟨hundo.goto _, hv⟩
    | .failure true _, _ =>
      show Phase b (if env.fsyncOk = true then _ else _)
      split
      · trivial
      · exact nofun

theorem phase_reconcileRaised (at_ : Recovering) : Phase b (reconcileRaised at_ p) := by
  cases at_ with
  | retry => trivial
  | failure postRename reason => exact nofun

theorem phase_restore (env : Env) (h : PhaseAt b p (.restore at_)) :
    Phase b (stepRestore env at_ p) := by
  unfold stepRestore
  split
  · exact phase_reconcileRaised at_
  · next root hroot =>
    simp only
    split
    swap
    · exact phase_reconcileRaised at_
    cases at_ with
    | failure postRename reason => trivial
    | retry =>
      refine ⟨h, fun hnone => ?_⟩
      unfold restorePublished at hroot
      split at hroot
      · obtain ⟨⟨src, dst⟩, hmove, rfl⟩ := Option.map_eq_some_iff.mp hroot
        obtain ⟨d, -, -, rfl, rfl⟩ := moveDir_eq_some hmove
        simp at hnone
      · cases hroot

theorem phase_settle (env : Env) (h : PhaseAt b p (.settle at_)) :
    Phase b (stepSettle env at_ p) := by
  unfold stepSettle
  cases at_ with
  | retry =>
    obtain ⟨hparked, hwhole⟩ := h
    have hskip : ¬ (p.call.parked = true ∧ env.unlinkOk = true) := by
      rw [hparked]
      exact fun h => Bool.false_ne_true h.1
    simp only [if_neg hskip]
    split
    · next hnone => exact ⟨(hwhole hnone).goto _, hparked⟩
    · split
      · trivial
      · exact nofun
  | failure postRename reason =>
    simp only
    split
    · trivial
    · exact nofun

theorem phase_alreadyFacts (env : Env) : Phase b (stepFacts env true p) := by
  unfold stepFacts
  split
  · exact nofun
  · exact nofun
  · trivial

theorem phase_readFacts (env : Env) (h : PhaseAt b p .readFacts) :
    Phase b (stepFacts env false p) := by
  obtain ⟨hwhole, hv, hparked⟩ := h
  unfold stepFacts
  split
  · exact fun _ => hwhole.undone _ _ _
  · exact fun _ => hwhole.undone _ _ _
  · exact ⟨hwhole.congr ⟨rfl, rfl, rfl, rfl, rfl, rfl⟩ rfl rfl, hv, hparked⟩

theorem phase_verify (env : Env) (h : PhaseAt b p .verify) : Phase b (stepVerify env p) := by
  obtain ⟨hwhole, hparked⟩ := h
  unfold stepVerify
  split
  · exact ⟨hwhole.goto _, hparked⟩
  · split
    · exact ⟨hwhole.goto _, hparked⟩
    · split <;> exact ⟨hwhole.goto _, hparked⟩

theorem Whole.park (env : Env) (h : Whole b p) :
    if (parkProgress env b.call.stagingDir p.root).2 = true then
      Parked b { p with root := (parkProgress env b.call.stagingDir p.root).1 }
    else Whole b { p with root := (parkProgress env b.call.stagingDir p.root).1 } := by
  obtain ⟨hactive, hrollback, hgenerations, hstaging⟩ :=
    parkProgress_spec env b.call.stagingDir p.root
  have hbegun : Begun b { p with root := (parkProgress env b.call.stagingDir p.root).1 } :=
    h.toBegun.congr ⟨rfl, rfl, rfl, rfl, hactive, hrollback⟩
  split
  · next hok =>
    rw [if_pos hok, h.staging] at hstaging
    exact ⟨hbegun, hgenerations.trans h.generations, hstaging⟩
  · next hok =>
    rw [if_neg hok] at hstaging
    exact ⟨hbegun, hgenerations.trans h.generations, hstaging.trans h.staging⟩

theorem phase_dancePark (env : Env) (hpc : p.call.pc = .dancePark) (h : PhaseAt b p .dancePark) :
    Phase b (publishStep env p) := by
  obtain ⟨hwhole, hparked⟩ := h
  have hpark := hwhole.park env
  rw [← hwhole.stagingDir] at hpark
  unfold publishStep
  simp only [hpc]
  split
  · next hok =>
    rw [if_pos hok] at hpark
    exact ⟨hpark.goto _, hparked⟩
  · next hok =>
    rw [if_neg hok] at hpark
    exact ⟨hpark.goto _, hparked⟩

theorem phase_danceOpen (env : Env) (h : PhaseAt b p .danceOpen) :
    Phase b (stepDanceOpen env p) := by
  unfold stepDanceOpen
  split <;> exact ⟨h.1.goto _, h.2⟩

theorem phase_danceUnpark {rejected : Option Text} (h : PhaseAt b p (.danceUnpark rejected))
    (hok : env.renameOk = true) : Phase b (stepDanceUnpark env rejected p) := by
  obtain ⟨hpark, hparked⟩ := h
  have hwhole := hpark.restore hpark.stagingDir hok
  unfold stepDanceUnpark
  cases rejected with
  | some reason => exact ⟨hwhole.goto _, hparked⟩
  | none =>
    simp only
    split
    · next hname =>
      have hv : Verified b := by
        refine ⟨by rw [← hpark.stagingDir, ← hpark.generationId]; exact hname, ?_⟩
        obtain ⟨d, r, hd, -⟩ := hpark.record
        rw [hd]
        exact nofun
      exact ⟨hwhole.goto _, hv, hparked⟩
    · exact fun _ => hwhole.undone _ _ _

theorem writeProgress_eq {dirs : KeyedMap Text Dir} {name : Text} {d : Dir} (r : Progress)
    (hd : dirs.find? name = some d) :
    writeProgress dirs name r = dirs.insert name { d with progress := some r } := by
  unfold writeProgress
  rw [hd]

variable {reason : Text}

theorem phase_reject (env : Env) (hpc : p.call.pc = .reject reason)
    (h : PhaseAt b p (.reject reason)) : Phase b (publishStep env p) := by
  obtain ⟨hwhole, -⟩ := h
  unfold publishStep
  simp only [hpc]
  intro _
  unfold discard
  split
  · exact hwhole.undone _ _ _
  · next r hr =>
    split
    · exact hwhole.undone _ _ _
    · obtain ⟨d, hd, hprogress⟩ := loadProgress_eq_some hr
      refine ⟨hwhole.active, hwhole.registered.congr rfl, hwhole.generations, ?_⟩
      rw [hwhole.staging, hwhole.stagingDir] at hd
      refine .discarded d r reason hd hprogress ?_ rfl
      show writeProgress p.root.staging p.call.stagingDir _ = _
      rw [hwhole.staging, hwhole.stagingDir, writeProgress_eq _ hd]

theorem phase_buildDelta (env : Env) {upper : Hlc} (h : PhaseAt b p (.buildDelta upper)) :
    Phase b (stepDelta env upper p) := by
  obtain ⟨hwhole, hv, hparked⟩ := h
  have hset : ∀ value, Whole b
      { p with root := { p.root with delta := p.root.delta.insert p.call.generationId value } } :=
    fun _ => hwhole.congr ⟨rfl, rfl, rfl, rfl, rfl, rfl⟩ rfl rfl
  unfold stepDelta
  split
  · exact ⟨(hset _).goto _, hv, hparked⟩
  · exact ⟨hwhole.goto _, hv, hparked⟩
  · next begun _ =>
    cases begun with
    | false => exact fun _ => hwhole.undone _ _ _
    | true => exact fun _ => (hset none).undone _ _ _
  · trivial

theorem phase_block (env : Env) {message phase : Text} {events : List Text}
    (hpc : p.call.pc = .block message events phase)
    (h : PhaseAt b p (.block message events phase)) : Phase b (publishStep env p) := by
  obtain ⟨hwhole, -, -⟩ := h
  unfold publishStep
  simp only [hpc]
  intro _
  unfold publishBlock
  split
  · exact hwhole.undone _ _ _
  · next name hname =>
    split
    · exact hwhole.undone _ _ _
    · next r hr =>
      split
      · exact hwhole.undone _ _ _
      · next hgo =>
        obtain ⟨d, hd, hprogress⟩ := loadProgress_eq_some hr
        refine ⟨hwhole.active, hwhole.registered.congr rfl, hwhole.generations, ?_⟩
        rw [hwhole.staging] at hd
        have hready : r.status = .ready := not_not.mp fun hne => hgo (Or.inl hne)
        refine .blocked name d r message events phase (hwhole.ready ▸ hname) hd hprogress hready ?_
          rfl
        show writeProgress p.root.staging name _ = _
        rw [hwhole.staging, writeProgress_eq _ hd]

theorem phase_park (env : Env) (hpc : p.call.pc = .park) (h : PhaseAt b p .park) :
    Phase b (publishStep env p) := by
  obtain ⟨hwhole, hv, -⟩ := h
  have hpark := hwhole.park env
  have hname : p.call.generationId = b.call.stagingDir := hwhole.generationId.trans hv.name.symm
  rw [← hname] at hpark
  unfold publishStep
  simp only [hpc]
  split
  · next hok =>
    rw [if_pos hok] at hpark
    exact ⟨hpark.congr ⟨rfl, rfl, rfl, rfl, rfl, rfl⟩ rfl rfl rfl, hv, hok⟩
  · next hok =>
    rw [if_neg hok] at hpark
    exact Or.inr ⟨.whole (hpark.congr ⟨rfl, rfl, rfl, rfl, rfl, rfl⟩ rfl rfl)
      (Bool.eq_false_iff.mpr hok), hv⟩

/-- The handler is entered with the staging in a phase that the undo knows. -/
theorem phase_failed (reason : Text) (hundo : Undoable b p) (hv : Verified b) :
    Phase b (p.failed false reason) :=
  Or.inr ⟨hundo.goto _, hv⟩

theorem phase_rename (env : Env) (hpc : p.call.pc = .rename) (h : PhaseAt b p .rename) :
    Phase b (publishStep env p) := by
  obtain ⟨hpark, hv, hparked⟩ := h
  unfold publishStep
  simp only [hpc]
  split
  · exact phase_failed _ (.parked hpark hparked) hv
  · next root hroot =>
    obtain ⟨d, r, hd, hr, hstaging, hparkedRecord⟩ := hpark.record
    unfold renameContainer at hroot
    split at hroot
    swap
    · cases hroot
    obtain ⟨⟨src, dst⟩, hmove, rfl⟩ := Option.map_eq_some_iff.mp hroot
    obtain ⟨d', hd', hfree, rfl, rfl⟩ := moveDir_eq_some hmove
    rw [hpark.stagingDir, hstaging, KeyedMap.find?_insert, if_pos rfl] at hd'
    cases hd'
    rw [hpark.generations, hpark.generationId] at hfree
    refine ⟨⟨hpark.toBegun.congr ⟨rfl, rfl, rfl, rfl, rfl, rfl⟩, hfree, d, r, hd, hr, ?_, ?_,
      hparkedRecord⟩, hv, hparked⟩
    · show p.root.generations.insert p.call.generationId _ = _
      rw [hpark.generations, hpark.generationId]
    · show p.root.staging.erase p.call.stagingDir = _
      refine KeyedMap.ext_find? fun name => ?_
      rw [KeyedMap.find?_erase, KeyedMap.find?_erase, hpark.stagingDir, hstaging,
        KeyedMap.find?_insert]
      split <;> rfl

theorem phase_sync (env : Env) (hpc : p.call.pc = .sync) (h : PhaseAt b p .sync) :
    Phase b (publishStep env p) := by
  obtain ⟨hrenamed, hv, hparked⟩ := h
  unfold publishStep
  simp only [hpc]
  split
  · exact ⟨hrenamed.goto _, hv, hparked⟩
  · exact phase_failed _ (.renamed hrenamed hparked) hv

theorem phase_readSchema (env : Env) (h : PhaseAt b p .readSchema) :
    Phase b (stepSchema env p) := by
  obtain ⟨hrenamed, hv, hparked⟩ := h
  unfold stepSchema
  split
  · exact phase_failed _ (.renamed hrenamed hparked) hv
  · exact phase_failed _ (.renamed hrenamed hparked) hv
  · exact ⟨hrenamed.congr ⟨rfl, rfl, rfl, rfl, rfl, rfl⟩ rfl rfl rfl, hv, hparked⟩

/-- The registration changes nothing but the rollback pointer, to the healthy generation that the
delta machine serves. -/
theorem registerRollback_spec (env : Env) (c : Call) (machine : DeltaMachine) (root : Root) :
    registerRollback env c machine root = root ∨
      ∃ generation schema nowMs,
        machine.served = some generation.generationId ∧
        generation.generationId ≠ c.generationId ∧
        openGeneration root.generations generation.generationId = some generation ∧
        registerRollback env c machine root =
          { root with
            rollback :=
              .valid (composeManifest generation generation.generationId schema nowMs) } := by
  unfold registerRollback
  split
  · exact Or.inl rfl
  · next retired hserved =>
    split
    · exact Or.inl rfl
    · next hgo =>
      push Not at hgo
      split
      · exact Or.inl rfl
      · next generation hopen =>
        have hid := generationId_of_open hopen
        subst hid
        exact Or.inr ⟨generation, c.schema, env.nowMs, hserved, hgo.2.1, hopen, rfl⟩

theorem phase_register (env : Env) (hpc : p.call.pc = .register) (h : PhaseAt b p .register) :
    Phase b (publishStep env p) := by
  obtain ⟨hrenamed, hv, hparked⟩ := h
  unfold publishStep
  simp only [hpc]
  rcases registerRollback_spec env p.call p.machine p.root with
    heq | ⟨generation, schema, nowMs, hserved, hne, hopen, heq⟩
  · rw [heq]
    exact ⟨hrenamed.goto _, hv, hparked⟩
  · rw [heq]
    obtain ⟨d, r, hd, hr, hgenerations, hstaging, hparkedRecord⟩ := hrenamed.record
    refine ⟨⟨⟨hrenamed.stagingDir, hrenamed.generationId, hrenamed.ready, hrenamed.machine,
      hrenamed.active, Or.inr ⟨generation, schema, nowMs, ?_, ?_, rfl⟩⟩, hrenamed.free, d, r, hd,
      hr, hgenerations, hstaging, hparkedRecord⟩, hv, hparked⟩
    · rw [← hrenamed.machine]
      exact hserved
    · -- the retired generation is not the one that has just been renamed
      rw [hrenamed.generationId] at hne
      rw [← hopen]
      refine openGeneration_congr ?_
      rw [hgenerations, KeyedMap.find?_insert, if_neg hne]

theorem phase_openNew (env : Env) (hpc : p.call.pc = .openNew) (h : PhaseAt b p .openNew) :
    Phase b (publishStep env p) := by
  obtain ⟨hrenamed, hv, hparked⟩ := h
  unfold publishStep
  simp only [hpc]
  split
  · exact phase_failed _ (.renamed hrenamed hparked) hv
  · next generation hopen =>
    refine ⟨⟨hrenamed.goto _, hv, hparked⟩, ?_⟩
    split at hopen
    · exact generationId_of_open hopen
    · cases hopen

theorem phase_writeManifest (env : Env) {generation : Generation}
    (h : PhaseAt b p (.writeManifest generation)) : Phase b (stepManifest env generation p) := by
  obtain ⟨⟨hrenamed, hv, hparked⟩, hname⟩ := h
  unfold stepManifest
  simp only
  split
  · exact phase_failed _ (.renamed hrenamed hparked) hv
  · trivial
  · exact congrArg some hname

theorem phase_unlink (env : Env) (hpc : p.call.pc = .unlink) (h : PhaseAt b p .unlink) :
    Phase b (publishStep env p) := by
  unfold publishStep
  simp only [hpc]
  split <;> exact h

theorem phase_syncStaging (env : Env) (hpc : p.call.pc = .syncStaging)
    (h : PhaseAt b p .syncStaging) : Phase b (publishStep env p) := by
  unfold publishStep
  simp only [hpc]
  split
  · trivial
  · exact Or.inl h

/-- A staging that is still under its name stands in the way of a rename back. -/
theorem Verified.occupied (hv : Verified b) (h : Undoable b p)
    (hfree : p.root.staging.find? p.call.stagingDir = none) :
    Renamed b p ∧ p.call.parked = true := by
  cases h with
  | whole h hparked =>
    rw [h.stagingDir, h.staging] at hfree
    exact absurd hfree hv.there
  | parked h hparked =>
    obtain ⟨d, r, -, -, hstaging, -⟩ := h.record
    rw [h.stagingDir, hstaging, KeyedMap.find?_insert, if_pos rfl] at hfree
    cases hfree
  | renamed h hparked => exact ⟨h, hparked⟩

theorem phase_undoRename (h : PhaseAt b p (.undoRename reason))
    (hgoes : p.root.generations.find? p.call.generationId = none ∨
      env.renameOk = true ∧ p.root.staging.find? p.call.stagingDir = none) :
    Phase b (stepUndoRename env reason p) := by
  obtain ⟨hundo, hv⟩ := h
  unfold stepUndoRename
  split
  · next hnone =>
    refine ⟨hv, ?_⟩
    cases hundo with
    | whole h hparked => exact Or.inl ⟨h.goto _, hparked⟩
    | parked h hparked => exact Or.inr ⟨h.goto _, hparked⟩
    | renamed h hparked =>
      -- a renamed container is under `generations/`
      obtain ⟨d, r, -, -, hgenerations, -⟩ := h.record
      rw [hgenerations, h.generationId, KeyedMap.find?_insert, if_pos rfl] at hnone
      cases hnone
  · next hsome =>
    obtain ⟨hok, hfree⟩ := hgoes.resolve_left hsome
    obtain ⟨hrenamed, hparked⟩ := hv.occupied hundo hfree
    split
    · next hback =>
      unfold renameBack at hback
      rw [if_pos hok, Option.map_eq_none_iff] at hback
      unfold moveDir at hback
      split at hback
      · cases hback
      · next hnot =>
        obtain ⟨d, hd⟩ := Option.ne_none_iff_exists'.mp hsome
        exact absurd hfree (hnot d hd)
    · next root hback => exact ⟨(hrenamed.back hback).goto _, hv, hparked⟩

theorem phase_undoSync (hpc : p.call.pc = .undoSync reason) (h : PhaseAt b p (.undoSync reason))
    (hok : env.fsyncOk = true) : Phase b (publishStep env p) := by
  obtain ⟨hpark, hv, hparked⟩ := h
  unfold publishStep
  simp only [hpc]
  rw [if_pos hok]
  exact ⟨hv, Or.inr ⟨hpark.goto _, hparked⟩⟩

theorem phase_undoProgress (hpc : p.call.pc = .undoProgress reason)
    (h : PhaseAt b p (.undoProgress reason)) (hok : env.renameOk = true) :
    Phase b (publishStep env p) := by
  obtain ⟨hv, h⟩ := h
  unfold publishStep
  simp only [hpc]
  intro _
  rcases h with ⟨hwhole, hparked⟩ | ⟨hpark, hparked⟩
  · rw [if_neg (Bool.eq_false_iff.mp hparked)]
    exact hwhole.undone _ _ _
  · rw [if_pos hparked]
    have hname : p.call.generationId = p.call.stagingDir := by
      rw [hpark.generationId, hpark.stagingDir, hv.name]
    rw [hname]
    exact (hpark.restore hpark.stagingDir hok).undone _ _ _

/-- **The step.**  Every step of a call keeps the phase of its place. -/
theorem phase_step (h : Phase b p) (hgoes : undoGoes p env = true) :
    Phase b (publishStep env p) := by
  unfold Phase at h
  unfold undoGoes at hgoes
  cases hpc : p.call.pc with rw [hpc] at h
  | reconcile at_ =>
    rw [publishStep, hpc]
    exact phase_reconcile env h
  | restore at_ =>
    rw [publishStep, hpc]
    exact phase_restore env h
  | settle at_ =>
    rw [publishStep, hpc]
    exact phase_settle env h
  | alreadyFacts =>
    rw [publishStep, hpc]
    exact phase_alreadyFacts env
  | verify =>
    rw [publishStep, hpc]
    exact phase_verify env h
  | danceOpen =>
    rw [publishStep, hpc]
    exact phase_danceOpen env h
  | readFacts =>
    rw [publishStep, hpc]
    exact phase_readFacts env h
  | buildDelta upper =>
    rw [publishStep, hpc]
    exact phase_buildDelta env h
  | readSchema =>
    rw [publishStep, hpc]
    exact phase_readSchema env h
  | writeManifest generation =>
    rw [publishStep, hpc]
    exact phase_writeManifest env h
  | danceUnpark rejected =>
    rw [hpc] at hgoes
    rw [publishStep, hpc]
    exact phase_danceUnpark h hgoes
  | undoRename reason =>
    simp only [hpc, Bool.or_eq_true, Bool.and_eq_true, decide_eq_true_eq] at hgoes
    rw [publishStep, hpc]
    exact phase_undoRename h hgoes
  | dancePark => exact phase_dancePark env hpc h
  | reject reason => exact phase_reject env hpc h
  | block message events phase => exact phase_block env hpc h
  | park => exact phase_park env hpc h
  | rename => exact phase_rename env hpc h
  | sync => exact phase_sync env hpc h
  | register => exact phase_register env hpc h
  | openNew => exact phase_openNew env hpc h
  | unlink => exact phase_unlink env hpc h
  | syncStaging => exact phase_syncStaging env hpc h
  | undoSync reason =>
    rw [hpc] at hgoes
    exact phase_undoSync hpc h hgoes
  | undoProgress reason =>
    rw [hpc] at hgoes
    exact phase_undoProgress hpc h hgoes
  | switch =>
    rw [publishStep, hpc]
    simp only
    split
    · exact nofun
    · trivial
  | sweepRead =>
    rw [publishStep, hpc]
    trivial
  | sweep keep sweep =>
    rw [publishStep, hpc]
    simp only
    split
    · trivial
    · exact nofun
  | returned result =>
    rw [publishStep, hpc]
    show PhaseAt b p p.call.pc
    exact hpc ▸ h

/-- What a whole call keeps. -/
theorem phase_run (h : Phase b p) {envs : List Env}
    (hgoes : Runs.Along (fun p env => publishStep env p)
      (fun p env => undoGoes p env = true) p envs) :
    Phase b (Runs.run (fun p env => publishStep env p) p envs) :=
  Runs.run_invariant_along (fun _ _ hgoes h => phase_step h hgoes) h hgoes

end Steps

/-- A call begins with everything as it finds it. -/
theorem phase_start (root : Root) (machine : DeltaMachine) (stagingDir generationId : Text)
    (ready : Option Text) :
    Phase (startPublish root machine stagingDir generationId ready)
      (startPublish root machine stagingDir generationId ready) :=
  ⟨⟨⟨rfl, rfl, rfl, rfl, rfl, Or.inl rfl⟩, rfl, rfl⟩, rfl⟩

/-! ## The result -/

/-- **A publication that fails before the commit is undone.**  From every root, with whatever fault
at whatever place, a call that returns `committed = False` and whose undo goes through leaves the
active manifest and the set of generations as they were, and the staging too, except that refused
preconditions mark its record discarded and a delta fault marks the ready one blocked.  The rollback
pointer is as it was, or names the healthy generation the delta machine served. -/
theorem publish_undone (root : Root) (machine : DeltaMachine) (stagingDir generationId : Text)
    (ready : Option Text) (envs : List Env) (res : Result)
    (hgoes : Runs.Along (fun p env => publishStep env p)
      (fun p env => undoGoes p env = true)
      (startPublish root machine stagingDir generationId ready) envs)
    (hreturned : (Runs.run (fun p env => publishStep env p)
      (startPublish root machine stagingDir generationId ready) envs).call.pc =
        .returned (some res))
    (hcommitted : res.committed = false) :
    Undone (startPublish root machine stagingDir generationId ready)
      (Runs.run (fun p env => publishStep env p)
        (startPublish root machine stagingDir generationId ready) envs) res := by
  have h := phase_run (phase_start root machine stagingDir generationId ready) hgoes
  unfold Phase at h
  rw [hreturned] at h
  exact h hcommitted

/-! ### A run -/

/-- The publication of `n` while `a` is served. -/
def samplePublish : Publishing :=
  startPublish sampleRoot ⟨ascii "a", some (ascii "a")⟩ (ascii "n") (ascii "n") (some (ascii "n"))

/-- A disk that is full when the manifest is written. -/
def sampleFault : List Env :=
  List.replicate 13 ({} : Env) ++
    ({ write := .failed, fault := ascii "disk full" } : Env) :: List.replicate 4 ({} : Env)

/-- The container goes back to `staging/` with its record when the manifest cannot be written. -/
theorem publish_undone_sample :
    Undone samplePublish (Runs.run (fun p env => publishStep env p) samplePublish sampleFault)
      ⟨false, false, some (writeFailed (ascii "disk full"))⟩ :=
  publish_undone sampleRoot ⟨ascii "a", some (ascii "a")⟩ (ascii "n") (ascii "n")
    (some (ascii "n")) sampleFault ⟨false, false, some (writeFailed (ascii "disk full"))⟩
    (by decide +kernel) (by decide +kernel) rfl

/-- **The rollback pointer is not undone.**  The failed publication has registered the active
generation as its own rollback; the generation that was registered before is named no more. -/
theorem publish_not_undone :
    ¬ ∀ (root : Root) (machine : DeltaMachine) (stagingDir generationId : Text)
      (ready : Option Text) (envs : List Env) (res : Result),
      Runs.Along (fun p env => publishStep env p) (fun p env => undoGoes p env = true)
        (startPublish root machine stagingDir generationId ready) envs →
      let p := Runs.run (fun p env => publishStep env p)
        (startPublish root machine stagingDir generationId ready) envs
      p.call.pc = .returned (some res) → res.committed = false →
      p.root.active = root.active ∧ p.root.rollback = root.rollback ∧
        p.root.generations = root.generations ∧ p.root.staging = root.staging := fun h => by
  have hrollback := (h sampleRoot ⟨ascii "a", some (ascii "a")⟩ (ascii "n") (ascii "n")
    (some (ascii "n")) sampleFault ⟨false, false, some (writeFailed (ascii "disk full"))⟩
    (by decide +kernel) (by decide +kernel) rfl).2.1
  exact absurd hrollback (by decide +kernel)

end Derived
end SemanticMemory
