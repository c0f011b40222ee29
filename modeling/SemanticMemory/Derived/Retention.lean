import SemanticMemory.Derived.Commit

/-!
# What retention keeps

The three places that sweep the derived root: the end of a recovery, the end of a publication, and
the end of the start.

* `Retains` says what a step may not delete: what a readable pointer names, anything while the active
  manifest is unreadable, and a live staging with its checkpoint.  `Guarded` says that what the delta
  machine serves is there.
* `Covers` is what a sweep has to know of its keep set, and `Covers.retains` that it is enough.  A
  recovery and a publication know it: the one has just made its generation the active, the other has
  just published and holds the lock.
* The start does not know it.  It reads the pointers whatever generation it serves and whatever state
  the active manifest is in, and it sweeps beside the publisher; `careful` is the condition under
  which that does no harm.
-/

namespace SemanticMemory
namespace Derived

/-! ## The property -/

/-- A staging whose record is running, blocked or ready. -/
def Live (root : Root) (name : Text) : Prop :=
  ∃ d r, root.staging.find? name = some d ∧ stagingProgress name d = some r ∧
    r.status ≠ .discarded

/-- What retention leaves alone from `root` to `root'`. -/
structure Retains (root root' : Root) : Prop where
  named : ∀ id, root.active.generationId = some id ∨ root.rollback.generationId = some id →
    root'.generations.find? id = root.generations.find? id
  unreadable : ∀ reason, root.active = .broken reason → ∀ id,
    root'.generations.find? id = root.generations.find? id
  live : ∀ name, Live root name → root'.staging.find? name = root.staging.find? name ∧
    root'.delta.find? name = root.delta.find? name

/-- The generation and the checkpoint that the delta machine serves are there. -/
def Guarded (root : Root) (machine : DeltaMachine) : Prop :=
  ∀ id, machine.served = some id →
    root.generations.find? id ≠ none ∧ root.delta.find? machine.checkpoint ≠ none

variable {machine : DeltaMachine}

theorem guarded_of_none {root : Root} (h : machine.served = none) :
    Guarded root machine := fun id hid => by
  rw [h] at hid
  cases hid

/-- What is served stays there while nothing goes. -/
theorem Guarded.mono {root root' : Root} (h : Guarded root machine)
    (hgenerations : ∀ id, machine.served = some id → root.generations.find? id ≠ none →
      root'.generations.find? id ≠ none)
    (hdelta : root.delta.find? machine.checkpoint ≠ none →
      root'.delta.find? machine.checkpoint ≠ none) : Guarded root' machine := fun id hid =>
  ⟨hgenerations id hid (h id hid).1, hdelta (h id hid).2⟩

theorem Guarded.frame {root root' : Root} (h : Guarded root machine) (hframe : Frame root root') :
    Guarded root' machine :=
  h.mono (fun _ _ hthere => by rw [hframe.generations]; exact hthere)
    fun hthere => by rw [hframe.delta]; exact hthere

/-! ## The keep set -/

/-- The keep set covers what may not be deleted. -/
structure Covers (root : Root) (keep : Keep) : Prop where
  named : ∀ id, root.active.generationId = some id ∨ root.rollback.generationId = some id →
    id ∈ keep.generations
  unreadable : ∀ reason, root.active = .broken reason → ∀ id,
    root.generations.find? id ≠ none → id ∈ keep.generations
  live : ∀ name, Live root name → name ∈ keep.live

variable {id : Text}

section Sweeps

variable {root : Root} {keep : Keep} (removal : Removal) (sweep : Sweep)

/-- A step that touches a generation touches one that is there. -/
theorem find?_sweepStep_of_none (h : root.generations.find? id = none) :
    (sweepStep removal keep root sweep).1.generations.find? id = none := by
  unfold sweepStep
  split
  case h_3 entry rest =>
    split
    · exact h
    · show (removeTree removal root.generations entry).find? id = none
      by_cases hid : id = entry
      · subst hid
        unfold removeTree
        split
        · simp
        · next d hd =>
          rw [h] at hd
          cases hd
        · exact h
      · rw [find?_removeTree_of_ne removal hid]
        exact h
  all_goals first | exact h | (split <;> exact h)

/-- **A covering keep set.**  A sweep that goes by it keeps what retention has to keep. -/
theorem Covers.retains (h : Covers root keep) :
    Retains root (sweepStep removal keep root sweep).1 where
  named := fun id hid => by
    rcases sweepStep_generations removal keep root sweep id with hsame | ⟨-, hnot⟩
    · exact hsame
    · exact absurd (h.named id hid) hnot
  unreadable := fun reason hbroken id => by
    rcases sweepStep_generations removal keep root sweep id with hsame | ⟨-, hnot⟩
    · exact hsame
    · have hnone : root.generations.find? id = none :=
        not_not.mp fun hthere => hnot (h.unreadable reason hbroken id hthere)
      rw [hnone, find?_sweepStep_of_none removal sweep hnone]
  live := fun name hlive => by
    constructor
    · rcases sweepStep_staging removal keep root sweep name with hsame | ⟨hnot, -⟩
      · exact hsame
      · exact absurd (h.live name hlive) hnot
    · rcases sweepStep_delta removal keep root sweep name with hsame | ⟨-, -, hnot⟩
      · exact hsame
      · exact absurd (h.live name hlive) hnot

/-- A directory that is left after a removal has its record. -/
theorem progress_of_removeTree {dirs : KeyedMap Text Dir} {name id : Text} {d' : Dir}
    (h : (removeTree removal dirs name).find? id = some d') :
    ∃ d, dirs.find? id = some d ∧ d'.progress = d.progress := by
  by_cases hid : id = name
  · subst hid
    unfold removeTree at h
    split at h
    · simp at h
    · next d hd =>
      rw [KeyedMap.find?_insert, if_pos rfl] at h
      cases h
      exact ⟨d, hd, rfl⟩
    · exact ⟨d', h, rfl⟩
  · rw [find?_removeTree_of_ne removal hid] at h
    exact ⟨d', h, rfl⟩

theorem progress_of_sweepStep {d' : Dir}
    (h : (sweepStep removal keep root sweep).1.staging.find? id = some d') :
    ∃ d, root.staging.find? id = some d ∧ d'.progress = d.progress := by
  unfold sweepStep at h
  split at h
  case h_7 entry rest =>
    split at h
    · exact progress_of_removeTree removal h
    · exact ⟨d', h, rfl⟩
  all_goals first | exact ⟨d', h, rfl⟩ | (split at h <;> exact ⟨d', h, rfl⟩)

theorem live_of_sweepStep {name : Text}
    (h : Live (sweepStep removal keep root sweep).1 name) : Live root name := by
  obtain ⟨d', r, hd', hr, hstatus⟩ := h
  obtain ⟨d, hd, hprogress⟩ := progress_of_sweepStep removal sweep hd'
  refine ⟨d, r, hd, ?_, hstatus⟩
  unfold stagingProgress at hr ⊢
  rw [← hprogress]
  exact hr

theorem Covers.sweepStep (h : Covers root keep) :
    Covers (sweepStep removal keep root sweep).1 keep where
  named := fun id hid => by
    obtain ⟨hactive, hrollback⟩ := sweepStep_pointers removal keep root sweep
    rw [hactive, hrollback] at hid
    exact h.named id hid
  unreadable := fun reason hbroken id hthere => by
    rw [(sweepStep_pointers removal keep root sweep).1] at hbroken
    exact h.unreadable reason hbroken id fun hnone =>
      hthere (find?_sweepStep_of_none removal sweep hnone)
  live := fun name hlive => h.live name (live_of_sweepStep removal sweep hlive)

/-- What is served stays there if it is kept. -/
theorem Guarded.sweepStep (h : Guarded root machine)
    (hserved : ∀ id, machine.served = some id → id ∈ keep.generations ∧
      (machine.checkpoint ∈ keep.generations ∨ machine.checkpoint ∈ keep.live)) :
    Guarded (sweepStep removal keep root sweep).1 machine := fun id hid => by
  obtain ⟨hkeep, hcheckpoint⟩ := hserved id hid
  constructor
  · rcases sweepStep_generations removal keep root sweep id with hsame | ⟨-, hnot⟩
    · rw [hsame]
      exact (h id hid).1
    · exact absurd hkeep hnot
  · rcases sweepStep_delta removal keep root sweep machine.checkpoint with
      hsame | ⟨-, hnot, hnot'⟩
    · rw [hsame]
      exact (h id hid).2
    · exact absurd hcheckpoint (not_or.mpr ⟨hnot, hnot'⟩)

theorem mem_live {name : Text} (h : Live root name) : name ∈ liveStagingGenerationIds root := by
  obtain ⟨d, r, hd, hr, hstatus⟩ := h
  exact mem_liveStaging hd hr hstatus

end Sweeps

/-! ## The publication -/

/-- What a place of a publication of `gid` out of `staging/s` knows of what is served. -/
def ServesAt (root : Root) (machine : DeltaMachine) (s gid : Text) : PublishPc → Prop
  | .dancePark | .danceOpen | .danceUnpark _ => root.staging.find? s ≠ none
  | .readFacts | .buildDelta _ | .block _ _ _ | .park | .rename =>
    root.staging.find? s ≠ none ∧ s = gid
  | .sync | .readSchema | .register | .openNew => machine.served ≠ some gid
  | .writeManifest generation => machine.served ≠ some gid ∧ generation.generationId = gid
  | .reconcile (.failure true _) | .restore _ | .settle _ | .alreadyFacts | .unlink
  | .syncStaging | .switch => root.active.generationId = some gid
  | .reconcile (.failure false _) =>
    root.active.generationId = some gid ∨ root.staging.find? s ≠ none ∨ machine.served ≠ some gid
  | .undoRename _ => root.staging.find? s ≠ none ∨ machine.served ≠ some gid
  | .sweepRead =>
    root.active.generationId = some gid ∧ machine.served = some gid ∧ machine.checkpoint = gid
  | .sweep keep _ =>
    Covers root keep ∧ gid ∈ keep.generations ∧ machine.served = some gid ∧
      machine.checkpoint = gid
  | _ => True

/-- A publication stands where what is served is safe. -/
def Serves (p : Publishing) : Prop :=
  Guarded p.root p.machine ∧
    ServesAt p.root p.machine p.call.stagingDir p.call.generationId p.call.pc

section Publication

variable {p : Publishing} (env : Env)

variable {at_ : Recovering}

theorem serves_reconcile (hg : Guarded p.root p.machine)
    (h : ServesAt p.root p.machine p.call.stagingDir p.call.generationId (.reconcile at_)) :
    Serves (stepReconcile env at_ p) := by
  unfold stepReconcile
  by_cases hactive : p.root.active.generationId = some p.call.generationId
  · simp only [if_pos hactive]
    split <;> exact ⟨hg, hactive⟩
  · simp only [if_neg hactive]
    match at_, h with
    | .retry, _ => exact ⟨hg, trivial⟩
    | .failure false _, h => exact ⟨hg, h.resolve_left hactive⟩
    | .failure true _, h => exact absurd h hactive

theorem serves_restore (hg : Guarded p.root p.machine)
    (h : p.root.active.generationId = some p.call.generationId) :
    Serves (stepRestore env at_ p) := by
  have hraised : ∀ q : Publishing, Guarded q.root q.machine → Serves (reconcileRaised at_ q) :=
    fun q hq => by
      cases at_ with
      | retry => exact ⟨hq, trivial⟩
      | failure postRename reason => exact ⟨hq, trivial⟩
  unfold stepRestore
  split
  · exact hraised p hg
  · next root hroot =>
    have hrestored : Guarded root p.machine ∧ root.active = p.root.active := by
      unfold restorePublished at hroot
      split at hroot
      · obtain ⟨⟨src, dst⟩, hmove, rfl⟩ := Option.map_eq_some_iff.mp hroot
        obtain ⟨d, -, -, rfl, rfl⟩ := moveDir_eq_some hmove
        refine ⟨hg.mono (fun id _ hthere => ?_) (fun hthere => hthere), rfl⟩
        show (p.root.generations.insert _ _).find? id ≠ none
        rw [KeyedMap.find?_insert]
        split
        · exact nofun
        · exact hthere
      · cases hroot
    simp only
    split
    · refine ⟨hrestored.1, ?_⟩
      show root.active.generationId = _
      rw [hrestored.2]
      exact h
    · exact hraised _ hrestored.1

theorem serves_settle (hg : Guarded p.root p.machine)
    (h : p.root.active.generationId = some p.call.generationId) :
    Serves (stepSettle env at_ p) := by
  -- only the parked record is taken away
  have hparked : ∀ parked, Guarded { p.root with parked := parked } p.machine := fun _ => hg
  unfold stepSettle
  cases at_ with
  | retry =>
    simp only
    split <;> split <;> try split
    all_goals first | exact ⟨hg, h⟩ | exact ⟨hparked _, h⟩ | exact ⟨hg, trivial⟩
  | failure postRename reason =>
    simp only
    split <;> split
    all_goals first | exact ⟨hg, h⟩ | exact ⟨hparked _, h⟩ | exact ⟨hg, trivial⟩

/-- The directories are renamed back only onto a free name. -/
theorem serves_undoRename (hg : Guarded p.root p.machine) {reason : Text}
    (h : p.root.staging.find? p.call.stagingDir ≠ none ∨
      p.machine.served ≠ some p.call.generationId) : Serves (stepUndoRename env reason p) := by
  unfold stepUndoRename
  split
  · exact ⟨hg, trivial⟩
  · split
    · exact ⟨hg, trivial⟩
    · next root hroot =>
      refine ⟨?_, trivial⟩
      unfold renameBack at hroot
      split at hroot
      · obtain ⟨⟨src, dst⟩, hmove, rfl⟩ := Option.map_eq_some_iff.mp hroot
        obtain ⟨d, -, hfree, rfl, rfl⟩ := moveDir_eq_some hmove
        have hserved := h.resolve_left (not_not.mpr hfree)
        refine hg.mono (fun id hid hthere => ?_) fun hthere => hthere
        show (p.root.generations.erase p.call.generationId).find? id ≠ none
        have hne : id ≠ p.call.generationId := fun he => hserved (he ▸ hid)
        rw [KeyedMap.find?_erase, if_neg hne]
        exact hthere
      · cases hroot

/-- A container comes to `generations/` under a name that is not served. -/
theorem serves_rename (hg : Guarded p.root p.machine)
    (h : p.root.staging.find? p.call.stagingDir ≠ none) (hpc : p.call.pc = .rename) :
    Serves (publishStep env p) := by
  simp only [publishStep, hpc]
  split
  · exact ⟨hg, Or.inr (Or.inl h)⟩
  · next root hroot =>
    unfold renameContainer at hroot
    split at hroot
    · obtain ⟨⟨src, dst⟩, hmove, rfl⟩ := Option.map_eq_some_iff.mp hroot
      obtain ⟨d, -, hfree, rfl, rfl⟩ := moveDir_eq_some hmove
      refine ⟨hg.mono (fun id hid hthere => ?_) fun hthere => hthere, fun hserved => ?_⟩
      · show (p.root.generations.insert p.call.generationId d).find? id ≠ none
        rw [KeyedMap.find?_insert]
        split
        · exact Option.some_ne_none _
        · exact hthere
      · exact (hg _ hserved).1 hfree
    · cases hroot

/-- Parking a record leaves the staging's directory in its place. -/
theorem parkProgress_there (name : Text) (root : Root) (h : root.staging.find? id ≠ none) :
    (parkProgress env name root).1.staging.find? id ≠ none := by
  obtain ⟨-, -, -, hstaging⟩ := parkProgress_spec env name root
  split at hstaging
  · obtain ⟨d, r, -, -, hstaging, -⟩ := hstaging
    rw [hstaging, KeyedMap.find?_insert]
    split
    · exact nofun
    · exact h
  · rw [hstaging]
    exact h

theorem restoreProgress_there (name : Text) (root : Root) (h : root.staging.find? id ≠ none) :
    (restoreProgress env name root).staging.find? id ≠ none := by
  unfold restoreProgress
  split
  · split
    · show (root.staging.insert name _).find? id ≠ none
      rw [KeyedMap.find?_insert]
      split
      · exact nofun
      · exact h
    · exact h
  · exact h

theorem serves_buildDelta (hg : Guarded p.root p.machine) {upper : Hlc}
    (h : p.root.staging.find? p.call.stagingDir ≠ none ∧
      p.call.stagingDir = p.call.generationId) : Serves (stepDelta env upper p) := by
  have hset : ∀ value, Guarded
      { p.root with delta := p.root.delta.insert p.call.generationId value } p.machine :=
    fun value => hg.mono (fun _ _ hthere => hthere) fun hthere => by
      show (p.root.delta.insert p.call.generationId value).find? _ ≠ none
      rw [KeyedMap.find?_insert]
      split
      · exact nofun
      · exact hthere
  unfold stepDelta
  split
  · exact ⟨hset _, h⟩
  · exact ⟨hg, h⟩
  all_goals
    next begun _ =>
    cases begun with
    | false => exact ⟨hg, trivial⟩
    | true => exact ⟨hset _, trivial⟩

theorem publishSwitch_eq_some {root : Root} (h : publishSwitch env id root = some machine) :
    machine = ⟨id, some id⟩ ∧ Guarded root machine := by
  unfold publishSwitch at h
  split at h
  · next hgo =>
    cases h
    refine ⟨rfl, fun id' hid' => ?_⟩
    cases hid'
    exact ⟨find?_ne_none_of_open hgo.2.1, hgo.2.2⟩
  · cases h

/-- What a publication has switched to is in the keep set of its sweep. -/
theorem serves_sweep (hg : Guarded p.root p.machine) {keep : Keep} {sweep : Sweep}
    (hpc : p.call.pc = .sweep keep sweep)
    (h : Covers p.root keep ∧ p.call.generationId ∈ keep.generations ∧
      p.machine.served = some p.call.generationId ∧
      p.machine.checkpoint = p.call.generationId) : Serves (publishStep env p) := by
  obtain ⟨hcovers, hkeep, hserved, hcheckpoint⟩ := h
  have hguarded : Guarded (sweepStep env.removal keep p.root sweep).1 p.machine :=
    hg.sweepStep env.removal sweep fun id hid => by
      rw [hserved] at hid
      cases hid
      exact ⟨hkeep, Or.inl (hcheckpoint ▸ hkeep)⟩
  simp only [publishStep, hpc]
  split
  · exact ⟨hguarded, hcovers.sweepStep env.removal sweep, hkeep, hserved, hcheckpoint⟩
  · exact ⟨hguarded, trivial⟩

theorem covers_readKeep {root : Root} {gid : Text}
    (hactive : root.active.generationId = some gid) : Covers root (readKeep (some gid) root) where
  named := fun id hid => by
    rw [mem_keep_generations (hid.elim Pointer.ne_nil Pointer.ne_nil)]
    exact hid.imp_left fun h => hactive.symm.trans h
  unreadable := fun reason hbroken => by
    rw [hbroken] at hactive
    cases hactive
  live := fun _ hlive => mem_live hlive

/-- **The publication.**  A step keeps what is served. -/
theorem serves_publishStep (h : Serves p) : Serves (publishStep env p) := by
  obtain ⟨hg, h⟩ := h
  cases hpc : p.call.pc with (rw [hpc] at h; simp only [publishStep, hpc])
  | reconcile at_ => exact serves_reconcile env hg h
  | restore at_ => exact serves_restore env hg h
  | settle at_ => exact serves_settle env hg h
  | alreadyFacts =>
    unfold stepFacts
    split
    · exact ⟨hg, trivial⟩
    · exact ⟨hg, trivial⟩
    · exact ⟨hg, h⟩
  | verify =>
    unfold stepVerify
    split
    · exact ⟨hg, trivial⟩
    · next r hr =>
      obtain ⟨d, hd, -⟩ := loadProgress_eq_some hr
      have hthere : p.root.staging.find? p.call.stagingDir ≠ none := by
        rw [hd]
        exact Option.some_ne_none _
      split
      · exact ⟨hg, trivial⟩
      · split
        · exact ⟨hg, hthere⟩
        · exact ⟨hg, trivial⟩
  | dancePark =>
    have hguarded := hg.frame (frame_parkProgress env p.call.stagingDir p.root)
    split
    · exact ⟨hguarded, parkProgress_there env _ _ h⟩
    · exact ⟨hguarded, trivial⟩
  | danceOpen =>
    unfold stepDanceOpen
    split <;> exact ⟨hg, h⟩
  | danceUnpark rejected =>
    have hguarded := hg.frame (frame_restoreProgress env p.call.stagingDir p.root)
    unfold stepDanceUnpark
    cases rejected with
    | some reason => exact ⟨hguarded, trivial⟩
    | none =>
      simp only
      split
      · next hname => exact ⟨hguarded, restoreProgress_there env _ _ h, hname⟩
      · exact ⟨hguarded, trivial⟩
  | reject reason => exact ⟨hg.frame (frame_discard env _ _ _), trivial⟩
  | readFacts =>
    unfold stepFacts
    split
    · exact ⟨hg, trivial⟩
    · exact ⟨hg, trivial⟩
    · exact ⟨hg, h⟩
  | buildDelta upper => exact serves_buildDelta env hg h
  | block message events phase => exact ⟨hg.frame (frame_publishBlock env _ _ _ _ _), trivial⟩
  | park =>
    have hguarded := hg.frame (frame_parkProgress env p.call.generationId p.root)
    have hthere := parkProgress_there env p.call.generationId p.root h.1
    split
    · exact ⟨hguarded, hthere, h.2⟩
    · exact ⟨hguarded, Or.inr (Or.inl hthere)⟩
  | rename =>
    simpa only [publishStep, hpc] using serves_rename env hg h.1 hpc
  | sync =>
    split
    · exact ⟨hg, h⟩
    · exact ⟨hg, Or.inr (Or.inr h)⟩
  | readSchema =>
    unfold stepSchema
    split
    · exact ⟨hg, Or.inr (Or.inr h)⟩
    · exact ⟨hg, Or.inr (Or.inr h)⟩
    · exact ⟨hg, h⟩
  | register => exact ⟨hg.frame (frame_registerRollback env _ _ _), h⟩
  | openNew =>
    split
    · exact ⟨hg, Or.inr (Or.inr h)⟩
    · next generation hopen =>
      split at hopen
      · exact ⟨hg, h, generationId_of_open hopen⟩
      · cases hopen
  | writeManifest generation =>
    unfold stepManifest
    simp only
    split
    · exact ⟨hg, Or.inr (Or.inr h.1)⟩
    · exact ⟨hg, congrArg some h.2⟩
    · exact ⟨hg, congrArg some h.2⟩
  | unlink =>
    split <;> exact ⟨hg, h⟩
  | syncStaging =>
    split
    · exact ⟨hg, h⟩
    · exact ⟨hg, Or.inl h⟩
  | undoRename reason => exact serves_undoRename env hg h
  | undoSync reason =>
    split <;> exact ⟨hg, trivial⟩
  | undoProgress reason =>
    split
    · exact ⟨hg.frame (frame_restoreProgress env _ _), trivial⟩
    · exact ⟨hg, trivial⟩
  | switch =>
    split
    · exact ⟨hg, trivial⟩
    · next machine hswitch =>
      obtain ⟨rfl, hguarded⟩ := publishSwitch_eq_some env hswitch
      exact ⟨hguarded, h, rfl, rfl⟩
  | sweepRead =>
    obtain ⟨hactive, hserved, hcheckpoint⟩ := h
    have hcovers := covers_readKeep hactive
    exact ⟨hg, hcovers, hcovers.named _ (Or.inl hactive), hserved, hcheckpoint⟩
  | sweep keep sweep =>
    simpa only [publishStep, hpc] using serves_sweep env hg hpc h
  | returned result =>
    exact ⟨hg, by rw [hpc]; trivial⟩

end Publication

/-! ## The start -/

/-- What a place of the start knows of what is served. -/
def LeadsAt (root : Root) (machine : DeltaMachine) : MainPc → Prop
  | .resolve | .isolate _ | .pointer _ | .serve none => machine.served = none
  | .load | .build | .buildRename _ _ =>
    machine.served = none ∧ root.delta.find? machine.checkpoint ≠ none
  | .openRollback manifest =>
    machine.served = none ∧ root.rollback.generationId = some manifest.generationId
  | .catchUp generation =>
    machine.served = none ∧ root.rollback.generationId = some generation.generationId ∧
      root.generations.find? generation.generationId ≠ none
  | .activate generation =>
    machine.served = none ∧ root.rollback.generationId = some generation.generationId ∧
      root.generations.find? generation.generationId ≠ none ∧
      root.delta.find? generation.generationId ≠ none
  | .clearRollback generation | .recoverRead generation =>
    machine.served = none ∧ root.active.generationId = some generation.generationId ∧
      (∀ id, root.rollback.generationId = some id → id = generation.generationId) ∧
      root.generations.find? generation.generationId ≠ none ∧
      root.delta.find? generation.generationId ≠ none
  | .recoverSweep generation keep _ =>
    machine.served = none ∧ Covers root keep ∧ generation.generationId ∈ keep.generations ∧
      root.generations.find? generation.generationId ≠ none ∧
      root.delta.find? generation.generationId ≠ none
  | .serve (some generation) =>
    machine.served = none ∧ root.generations.find? generation.generationId ≠ none ∧
      root.delta.find? machine.checkpoint ≠ none
  | .sweep keep _ =>
    Covers root keep ∧ ∀ id, machine.served = some id → id ∈ keep.generations ∧
      (machine.checkpoint ∈ keep.generations ∨ machine.checkpoint ∈ keep.live)
  | _ => True

/-- The start stands where what is served is safe. -/
def Leads (root : Root) (p : Process) : Prop :=
  Guarded root p.machine ∧ LeadsAt root p.machine p.main

/-- What a step of the start comes to. -/
def LeadsOn (w : World) : Prop := ∀ p, w.process = some p → Leads w.root p

theorem leadsOn_exit (root : Root) : LeadsOn (World.exit root) := fun _ hp => by cases hp

theorem LeadsOn.goto {root : Root} {p : Process} {main : MainPc} (hg : Guarded root p.machine)
    (hmain : LeadsAt root p.machine main) : LeadsOn (World.goto root p main) := fun _ hp => by
  cases hp
  exact ⟨hg, hmain⟩

section Start

variable {root : Root} {p : Process} (env : Env)

theorem leads_refuse (hnone : p.machine.served = none) (clearPointer : Bool) (reason : Text) :
    LeadsOn (refuseRecovery env root p clearPointer reason) :=
  .goto (guarded_of_none hnone) hnone

theorem makeDelta_there (root : Root) (id : Text) : (root.makeDelta id).delta.find? id ≠ none := by
  unfold Root.makeDelta
  split
  · next c hc =>
    rw [hc]
    exact nofun
  · show (root.delta.insert id none).find? id ≠ none
    rw [KeyedMap.find?_insert, if_pos rfl]
    exact nofun

theorem leads_resolve : LeadsOn (stepResolve env root p) := by
  unfold stepResolve
  simp only
  split
  · exact .goto (guarded_of_none rfl) ⟨rfl, makeDelta_there _ _⟩
  · exact .goto (guarded_of_none rfl) rfl
  · split
    · exact .goto (guarded_of_none rfl) rfl
    · exact .goto (guarded_of_none rfl) ⟨rfl, makeDelta_there _ _⟩

theorem leads_load (h : LeadsAt root p.machine .load) : LeadsOn (stepLoad env root p) := by
  obtain ⟨hnone, hdelta⟩ := h
  unfold stepLoad
  split
  · exact .goto (guarded_of_none hnone) hnone
  · split
    · split
      · exact .goto (guarded_of_none hnone) hnone
      · exact .goto (guarded_of_none hnone) ⟨hnone, hdelta⟩
    · next generation hopen =>
      have hid := generationId_of_open hopen
      have hthere : root.generations.find? generation.generationId ≠ none := by
        rw [hid]
        exact find?_ne_none_of_open (by rw [hopen]; exact nofun)
      split
      · exact leadsOn_exit root
      · exact leadsOn_exit root
      · split
        · exact .goto (guarded_of_none hnone) ⟨hnone, hthere, hdelta⟩
        · exact .goto (guarded_of_none hnone) ⟨hnone, hdelta⟩

theorem leads_build (h : LeadsAt root p.machine .build) : LeadsOn (stepBuild env root p) := by
  obtain ⟨hnone, hdelta⟩ := h
  unfold stepBuild
  split
  · exact leadsOn_exit root
  · split
    · exact leadsOn_exit root
    · exact .goto (guarded_of_none hnone) ⟨hnone, hdelta⟩

theorem leads_buildRename {identity : Identity}
    (h : LeadsAt root p.machine (.buildRename id identity)) :
    LeadsOn (stepBuildRename env root p id identity) := by
  obtain ⟨hnone, hdelta⟩ := h
  unfold stepBuildRename
  split
  · exact .goto (guarded_of_none hnone) hnone
  · split
    · exact leadsOn_exit root
    · simp only
      split
      · exact leadsOn_exit _
      · next generation hopen =>
        refine .goto (guarded_of_none hnone) ⟨hnone, ?_, hdelta⟩
        rw [generationId_of_open hopen]
        exact find?_ne_none_of_open (by rw [hopen]; exact nofun)

theorem leads_pointer {reason : Text} (hnone : p.machine.served = none) :
    LeadsOn (stepPointer env root p reason) := by
  unfold stepPointer
  split
  · exact leads_refuse env hnone _ _
  · exact leads_refuse env hnone _ _
  · next manifest hrollback =>
    split
    · exact leads_refuse env hnone _ _
    · exact .goto (guarded_of_none hnone) ⟨hnone, by rw [hrollback]; rfl⟩

theorem leads_openRollback {manifest : Manifest}
    (h : LeadsAt root p.machine (.openRollback manifest)) :
    LeadsOn (stepOpenRollback env root p manifest) := by
  obtain ⟨hnone, hrollback⟩ := h
  unfold stepOpenRollback
  split
  · exact leads_refuse env hnone _ _
  · next generation hopen =>
    split
    · exact leadsOn_exit root
    · exact leads_refuse env hnone _ _
    · split
      · exact leads_refuse env hnone _ _
      · split
        · exact leads_refuse env hnone _ _
        · refine .goto (guarded_of_none hnone) ⟨hnone, ?_, ?_⟩ <;> rw [generationId_of_open hopen]
          · exact hrollback
          · exact find?_ne_none_of_open (by rw [hopen]; exact nofun)

variable {generation : Generation}

theorem leads_catchUp (h : LeadsAt root p.machine (.catchUp generation)) :
    LeadsOn (stepCatchUp env root p generation) := by
  obtain ⟨hnone, hrollback, hthere⟩ := h
  unfold stepCatchUp
  simp only
  split
  · refine .goto (guarded_of_none hnone) ⟨hnone, hrollback, hthere, ?_⟩
    show (root.delta.insert generation.generationId _).find? generation.generationId ≠ none
    rw [KeyedMap.find?_insert, if_pos rfl]
    exact nofun
  · exact leads_refuse env hnone _ _
  · exact leads_refuse env hnone _ _
  · exact leads_refuse env hnone _ _

theorem leads_activate (h : LeadsAt root p.machine (.activate generation)) :
    LeadsOn (stepActivate env root p generation) := by
  obtain ⟨hnone, hrollback, hthere, hdelta⟩ := h
  unfold stepActivate
  simp only
  split
  · exact leads_refuse env hnone _ _
  · exact leads_refuse env hnone _ _
  · split
    · exact leads_refuse env hnone _ _
    · exact leads_refuse env hnone _ _
    · refine .goto (guarded_of_none hnone) ⟨hnone, rfl, fun id hid => ?_, hthere, hdelta⟩
      exact Option.some.inj (hid.symm.trans hrollback)

theorem leads_serve {generation : Option Generation}
    (h : LeadsAt root p.machine (.serve generation)) :
    LeadsOn (stepServe env root p generation) := by
  cases generation with
  | none => exact .goto (guarded_of_none h) trivial
  | some generation =>
    obtain ⟨hnone, hthere, hdelta⟩ := h
    unfold stepServe
    simp only
    split
    · exact leadsOn_exit root
    · split
      · exact leadsOn_exit root
      · exact leadsOn_exit root
      · split
        · exact leadsOn_exit root
        · refine .goto (fun id hid => ?_) trivial
          cases hid
          exact ⟨hthere, hdelta⟩

theorem leads_recoverSweep {keep : Keep} {sweep : Sweep}
    (hmain : p.main = .recoverSweep generation keep sweep)
    (h : LeadsAt root p.machine (.recoverSweep generation keep sweep)) :
    LeadsOn (mainStep env root p) := by
  obtain ⟨hnone, hcovers, hkeep, hthere, hdelta⟩ := h
  -- as if the machine already served the recovered generation
  have hguarded : Guarded (sweepStep env.removal keep root sweep).1
      ⟨generation.generationId, some generation.generationId⟩ := by
    refine Guarded.sweepStep env.removal sweep (fun id hid => ?_) fun id hid => ?_
    · cases hid
      exact ⟨hthere, hdelta⟩
    · cases hid
      exact ⟨hkeep, Or.inl hkeep⟩
  obtain ⟨hthere', hdelta'⟩ := hguarded generation.generationId rfl
  simp only [mainStep, hmain]
  split
  · exact .goto (guarded_of_none hnone)
      ⟨hnone, hcovers.sweepStep env.removal sweep, hkeep, hthere', hdelta'⟩
  · exact .goto (guarded_of_none hnone) ⟨hnone, hthere', hdelta'⟩

theorem leads_sweep (hg : Guarded root p.machine) {keep : Keep} {sweep : Sweep}
    (hmain : p.main = .sweep keep sweep) (h : LeadsAt root p.machine (.sweep keep sweep)) :
    LeadsOn (mainStep env root p) := by
  obtain ⟨hcovers, hserved⟩ := h
  simp only [mainStep, hmain]
  split
  · exact .goto (hg.sweepStep env.removal sweep hserved)
      ⟨hcovers.sweepStep env.removal sweep, hserved⟩
  · exact .goto (hg.sweepStep env.removal sweep hserved) trivial

/-- **The start.**  A step keeps what is served, if the sweep at its end reads a keep set that
covers it. -/
theorem leads_mainStep (h : Leads root p)
    (hread : p.main = .sweepRead → Covers root (readKeep none root) ∧
      ∀ id, p.machine.served = some id → id ∈ (readKeep none root).generations ∧
        (p.machine.checkpoint ∈ (readKeep none root).generations ∨
          p.machine.checkpoint ∈ (readKeep none root).live)) :
    LeadsOn (mainStep env root p) := by
  obtain ⟨hg, h⟩ := h
  cases hmain : p.main with (rw [hmain] at h; simp only [mainStep, hmain])
  | resolve => exact leads_resolve env
  | load => exact leads_load env h
  | build => exact leads_build env h
  | buildRename id identity => exact leads_buildRename env h
  | isolate reason => exact .goto (guarded_of_none h) h
  | pointer reason => exact leads_pointer env h
  | openRollback manifest => exact leads_openRollback env h
  | catchUp generation => exact leads_catchUp env h
  | activate generation => exact leads_activate env h
  | clearRollback generation =>
    obtain ⟨hnone, hactive, hrollback, hthere, hdelta⟩ := h
    refine .goto (guarded_of_none hnone) ?_
    split
    · exact ⟨hnone, hactive, fun id hid => (by cases hid), hthere, hdelta⟩
    · exact ⟨hnone, hactive, hrollback, hthere, hdelta⟩
  | recoverRead generation =>
    obtain ⟨hnone, hactive, hrollback, hthere, hdelta⟩ := h
    have hkeep : ∀ live, generation.generationId ∈
        Keep.generations ⟨some generation.generationId, none, live⟩ := fun live =>
      (mem_keep_generations generation.named).mpr (Or.inl rfl)
    refine .goto hg ⟨hnone, ⟨fun id hid => ?_, fun reason hbroken => ?_, fun _ => mem_live⟩,
      hkeep _, hthere, hdelta⟩
    · have hid' : id = generation.generationId :=
        hid.elim (fun h => Option.some.inj (h.symm.trans hactive)) (hrollback id)
      rw [hid']
      exact hkeep _
    · rw [hbroken] at hactive
      cases hactive
  | recoverSweep generation keep sweep =>
    simpa only [mainStep, hmain] using leads_recoverSweep env hmain h
  | serve generation => exact leads_serve env h
  | sweepRead => exact .goto hg (hread hmain)
  | sweep keep sweep => simpa only [mainStep, hmain] using leads_sweep env hg hmain h
  | serving =>
    intro p' hp'
    cases hp'
    exact ⟨hg, by rw [hmain]; trivial⟩

end Start

/-! ## The daemon -/

/-- The keep set that the start would read covers the generations if the active manifest is
unreadable, and what is served. -/
def readsEnough (root : Root) (machine : DeltaMachine) : Bool :=
  let keep := readKeep none root
  (match root.active with
    | .broken _ => root.generations.keys.all fun id => id ∈ keep.generations
    | _ => true) &&
  machine.served.all fun id =>
    id ∈ keep.generations &&
      (machine.checkpoint ∈ keep.generations || machine.checkpoint ∈ keep.live)

/-- The sweep at the end of the start is under way. -/
def MainPc.sweeps : MainPc → Bool
  | .sweep _ _ => true
  | _ => false

def Action.works : Action → Bool
  | .publish _ _ _ | .publisher _ | .retrySwitch _ | .stage _ _ => true
  | _ => false

/-- The sweep at the start does no harm: when it reads its keep set, the active manifest is readable
(or names nothing that the rollback pointer does not keep), the pointers name what is served, and no
publication is under way; and neither the publisher nor the staging builder works until it is
done. -/
def careful (w : World) (a : Action) : Bool :=
  match w.process with
  | none => true
  | some p =>
    if a.works then !p.main.sweeps
    else
      match a, p.main with
      | .main _, .sweepRead => p.call = none && readsEnough w.root p.machine
      | _, _ => true

/-- A place of the start inside `retention_sweep`. -/
def MainPc.inSweep : MainPc → Bool
  | .recoverSweep _ _ _ | .sweep _ _ => true
  | _ => false

/-- A place of a publication inside `retention_sweep`. -/
def PublishPc.inSweep : PublishPc → Bool
  | .sweep _ _ => true
  | _ => false

def sweeping (w : World) (a : Action) : Bool :=
  match a, w.process with
  | .main _, some p => p.main.inSweep
  | .publisher _, some p => p.call.any fun c => c.pc.inSweep
  | _, _ => false

theorem covers_of_readsEnough {root : Root} (h : readsEnough root machine = true) :
    Covers root (readKeep none root) ∧
      ∀ id, machine.served = some id → id ∈ (readKeep none root).generations ∧
        (machine.checkpoint ∈ (readKeep none root).generations ∨
          machine.checkpoint ∈ (readKeep none root).live) := by
  unfold readsEnough at h
  obtain ⟨hactive, hserved⟩ := Bool.and_eq_true_iff.mp h
  refine ⟨⟨fun id hid => ?_, fun reason hbroken id hthere => ?_, fun _ => mem_live⟩, ?_⟩
  · rw [mem_keep_generations (hid.elim Pointer.ne_nil Pointer.ne_nil)]
    exact hid
  · rw [hbroken] at hactive
    obtain ⟨d, hd⟩ := Option.ne_none_iff_exists'.mp hthere
    have hmem : id ∈ root.generations.keys :=
      List.mem_map.mpr ⟨(id, d), KeyedMap.find?_eq_some_iff.mp hd, rfl⟩
    exact of_decide_eq_true (List.all_eq_true.mp hactive id hmem)
  · intro id hid
    rw [hid] at hserved
    simpa using hserved

/-- What holds in every state. -/
structure Safe (w : World) : Prop where
  leads : LeadsOn w
  call : ∀ p c, w.process = some p → p.call = some c →
    p.main.wired = true ∧ (∀ keep sweep, p.main ≠ .sweep keep sweep) ∧
      ServesAt w.root p.machine c.stagingDir c.generationId c.pc

/-- Beside a publication the start is waiting to sweep, or is over. -/
theorem leadsAt_of_wired {main : MainPc} (h : main.wired = true)
    (hnot : ∀ keep sweep, main ≠ .sweep keep sweep) (root : Root) (machine : DeltaMachine) :
    LeadsAt root machine main := by
  cases main with
  | sweepRead | serving => trivial
  | sweep keep sweep => exact absurd rfl (hnot keep sweep)
  | _ => cases h

variable {w : World}

/-- The thread of `run_server` goes on. -/
theorem Safe.main_step (h : Safe w) {p : Process} (hp : w.process = some p) (env : Env)
    (hcareful : careful w (.main env) = true) : Safe (mainStep env w.root p) := by
  have hread : p.main = .sweepRead → p.call = none ∧ readsEnough w.root p.machine = true :=
    fun hmain => by
      simpa [careful, hp, hmain, Action.works] using hcareful
  refine ⟨leads_mainStep env (h.leads p hp) fun hmain => covers_of_readsEnough (hread hmain).2,
    fun p' c hp' hc => ?_⟩
  rw [(mainStep_publisher env hp').1] at hc
  obtain ⟨hwired, hnot, hserves⟩ := h.call p c hp hc
  -- with a call under way the start can only be over
  cases hmain : p.main with
  | serving =>
    have hstep : mainStep env w.root p = ⟨w.root, some p⟩ := by simp only [mainStep, hmain]
    rw [hstep] at hp' ⊢
    cases hp'
    exact ⟨hwired, hnot, hserves⟩
  | sweepRead =>
    rw [(hread hmain).1] at hc
    cases hc
  | sweep keep sweep => exact absurd hmain (hnot keep sweep)
  | _ =>
    rw [hmain] at hwired
    cases hwired

theorem Safe.publisher_step (h : Safe w) {p : Process} {c : Call} (hp : w.process = some p)
    (hc : p.call = some c) (env : Env) : Safe (publisherStep env w.root p c) := by
  obtain ⟨hwired, hnot, hserves⟩ := h.call p c hp hc
  obtain ⟨hguarded, -⟩ := h.leads p hp
  unfold publisherStep
  split
  · next result _ =>
    have hsame : ∀ p', some (finishPublish c result p) = some p' →
        p'.main = p.main ∧ p'.machine = p.machine ∧ p'.call = none := fun p' hp' => by
      cases hp'
      unfold finishPublish
      cases result with
      | none => exact ⟨rfl, rfl, rfl⟩
      | some res =>
        simp only
        split <;> exact ⟨rfl, rfl, rfl⟩
    refine ⟨fun p' hp' => ?_, fun p' c' hp' hc' => ?_⟩
    · obtain ⟨hmain, hmachine, -⟩ := hsame p' hp'
      exact ⟨hmachine ▸ hguarded, leadsAt_of_wired (hmain ▸ hwired) (hmain ▸ hnot) _ _⟩
    · rw [(hsame p' hp').2.2] at hc'
      cases hc'
  · obtain ⟨hguarded', hserves'⟩ :=
      serves_publishStep env (p := ⟨w.root, p.machine, c⟩) ⟨hguarded, hserves⟩
    refine ⟨fun p' hp' => ?_, fun p' c' hp' hc' => ?_⟩
    · cases hp'
      exact ⟨hguarded', leadsAt_of_wired hwired hnot _ _⟩
    · cases hp'
      cases hc'
      exact ⟨hwired, hnot, hserves'⟩

/-- The same process goes on with another machine, while no call is under way and nothing is
swept. -/
theorem safe_switched {p : Process} {env : Env} (hcall : p.call = none)
    (hwired : p.main.wired = true)
    (hnot : ∀ keep sweep, p.main ≠ .sweep keep sweep)
    (hswitch : publishSwitch env id w.root = some machine) :
    Safe ⟨w.root, some { p with machine := machine, switched := some id }⟩ := by
  refine ⟨fun p' hp' => ?_, fun p' c hp' hc => ?_⟩
  · cases hp'
    exact ⟨(publishSwitch_eq_some env hswitch).2, leadsAt_of_wired hwired hnot _ _⟩
  · cases hp'
    rw [show p.call = some c from hc] at hcall
    cases hcall

/-- The publisher and the builder rest while the start sweeps. -/
theorem not_sweep_of_careful {p : Process} (hp : w.process = some p) {a : Action}
    (ha : a.works = true) (hcareful : careful w a = true) (keep : Keep) (sweep : Sweep) :
    p.main ≠ .sweep keep sweep := by
  intro hmain
  unfold careful at hcareful
  simp only [hp, ha, if_true, hmain] at hcareful
  cases hcareful

/-- **The step.**  Under the condition every step of the daemon keeps what is served. -/
theorem safe_step {a : Action} (h : Safe w) (hcareful : careful w a = true) : Safe (step w a) := by
  cases hp : w.process with
  | none =>
    cases a with simp only [step, hp]
    | start config =>
      refine ⟨fun p' hp' => ?_, fun p' c hp' hc => ?_⟩
      · cases hp'
        exact ⟨guarded_of_none rfl, rfl⟩
      · cases hp'
        cases hc
    | _ => exact h
  | some p =>
    have hsame : (⟨w.root, some p⟩ : World) = w := by
      rw [← hp]
    cases a with simp only [step, hp]
    | start config => exact h
    | main env => exact h.main_step hp env hcareful
    | publish stagingDir generationId ready =>
      have hnot := not_sweep_of_careful hp rfl hcareful
      split
      · next hgo =>
        refine ⟨fun p' hp' => ?_, fun p' c hp' hc => ?_⟩
        · cases hp'
          exact ⟨(h.leads p hp).1, (h.leads p hp).2⟩
        · cases hp'
          cases hc
          exact ⟨hgo.1, hnot, trivial⟩
      · exact h
    | publisher env =>
      split
      · next c hc => exact h.publisher_step hp hc env
      · exact h
    | retrySwitch env =>
      have hnot := not_sweep_of_careful hp rfl hcareful
      split
      swap
      · exact h
      next hwired =>
      unfold retrySwitch
      split
      swap
      · rw [hsame]
        exact h
      split
      swap
      · rw [hsame]
        exact h
      next hgo =>
      split
      · next machine hswitch => exact safe_switched hgo.1 hwired hnot hswitch
      · rw [hsame]
        exact h
    | stage name dir =>
      have hnot := not_sweep_of_careful hp rfl hcareful
      split
      · next hgo =>
        refine ⟨fun p' hp' => ?_, fun p' c hp' hc => ?_⟩
        · cases hp'
          exact ⟨(h.leads p hp).1, leadsAt_of_wired hgo.1 hnot _ _⟩
        · cases hp'
          rw [hgo.2] at hc
          cases hc
      · exact h
    | crash =>
      exact ⟨leadsOn_exit _, fun _ _ hp' => by cases hp'⟩

/-- A step of the start inside a sweep. -/
theorem Leads.retains {root : Root} {p : Process} (h : Leads root p)
    (hsweep : p.main.inSweep = true) (env : Env) :
    Retains root (mainStep env root p).root := by
  obtain ⟨-, hleads⟩ := h
  cases hmain : p.main with
  | recoverSweep generation keep sweep =>
    rw [hmain] at hleads
    have hretains := hleads.2.1.retains env.removal sweep
    simp only [mainStep, hmain]
    split <;> exact hretains
  | sweep keep sweep =>
    rw [hmain] at hleads
    have hretains := hleads.1.retains env.removal sweep
    simp only [mainStep, hmain]
    split <;> exact hretains
  | _ =>
    rw [hmain] at hsweep
    cases hsweep

theorem Serves.retains {p : Publishing} (h : Serves p) (hsweep : p.call.pc.inSweep = true)
    (env : Env) : Retains p.root (publishStep env p).root := by
  obtain ⟨-, hserves⟩ := h
  cases hpc : p.call.pc with
  | sweep keep sweep =>
    rw [hpc] at hserves
    have hretains := hserves.1.retains env.removal sweep
    simp only [publishStep, hpc]
    split <;> exact hretains
  | _ =>
    rw [hpc] at hsweep
    cases hsweep

/-- A step of a sweep deletes nothing that retention has to keep. -/
theorem Safe.retains {a : Action} (h : Safe w) (hsweep : sweeping w a = true) :
    Retains w.root (step w a).root := by
  cases hp : w.process with
  | none => cases a <;> simp only [sweeping, hp] at hsweep <;> cases hsweep
  | some p =>
    cases a with
    | main env =>
      simp only [sweeping, hp] at hsweep
      simp only [step, hp]
      exact (h.leads p hp).retains hsweep env
    | publisher env =>
      simp only [sweeping, hp] at hsweep
      obtain ⟨c, hc, hpc⟩ := (Option.any_eq_true _ _).mp hsweep
      have hserves : Serves ⟨w.root, p.machine, c⟩ :=
        ⟨(h.leads p hp).1, (h.call p c hp hc).2.2⟩
      have hretains := hserves.retains hpc env
      simp only [step, hp, hc, publisherStep]
      split
      · next result hreturned =>
        rw [hreturned] at hpc
        cases hpc
      · exact hretains
    | _ =>
      simp only [sweeping] at hsweep
      cases hsweep

/-- **What retention keeps.**  Over every content of the derived root and every run of starts,
recoveries, publications and crashes in which the sweep at the start is careful: the generation and
the checkpoint that the delta machine serves are there, and no step of a sweep deletes what a
readable pointer names, anything while the active manifest is unreadable, or a live staging or its
checkpoint. -/
theorem retention_safe (root : Root) (acts : List Action)
    (hcareful : Runs.Along step (fun w a => careful w a = true) ⟨root, none⟩ acts) :
    let w := Runs.run step ⟨root, none⟩ acts
    (∀ p, w.process = some p → Guarded w.root p.machine) ∧
      ∀ a, sweeping w a = true → Retains w.root (step w a).root := by
  intro w
  have hsafe : Safe w := Runs.run_invariant_along (I := Safe)
    (fun _ _ hcareful h => safe_step h hcareful)
    ⟨fun _ hp => (by cases hp), fun _ _ hp => (by cases hp)⟩ hcareful
  exact ⟨fun p hp => (hsafe.leads p hp).1, fun a ha => hsafe.retains ha⟩

/-! ### A run -/

def sampleSweeps : List Action :=
  sampleStart ++ List.replicate 12 (.main sampleEnv) ++ samplePublication ++
    List.replicate 16 (.publisher sampleEnv)

/-- After a publication its generation is served, and so is its checkpoint. -/
theorem retention_safe_sample :
    let w := Runs.run step ⟨sampleRoot, none⟩ sampleSweeps
    (∀ p, w.process = some p → Guarded w.root p.machine) ∧
      ∀ a, sweeping w a = true → Retains w.root (step w a).root :=
  retention_safe sampleRoot sampleSweeps (by decide +kernel)

/-- A root in which nothing has been published: the configuration declares the one generation. -/
def unpublishedRoot : Root where
  generations := KeyedMap.empty.insert (ascii "a") (sampleDir (ascii "a"))

/-- **The sweep at the start can delete the generation that is served.**  Without an active manifest
it keeps no generation at all. -/
theorem served_deleted :
    ¬ ∀ (root : Root) (acts : List Action) (p : Process),
      (Runs.run step ⟨root, none⟩ acts).process = some p →
        Guarded (Runs.run step ⟨root, none⟩ acts).root p.machine := fun h => by
  have hserved : (Runs.run step ⟨unpublishedRoot, none⟩
      (sampleStart ++ List.replicate 3 (.main {}))).process.map
        (fun p => p.machine.served) = some (some (ascii "a")) := by
    decide +kernel
  obtain ⟨p, hp, hserved⟩ := Option.map_eq_some_iff.mp hserved
  exact (h unpublishedRoot _ p hp _ hserved).1 (by decide +kernel)

end Derived
end SemanticMemory
