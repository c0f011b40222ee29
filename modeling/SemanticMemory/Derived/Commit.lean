import SemanticMemory.Derived.Startup

/-!
# The commit of a publication over crashes

The active manifest names a complete generation, in every state that the daemon reaches from such a
root by publications, faults, crashes and restarts.

* `Sound` is that property, and `Steady` what a step has to do with it: it holds afterwards, and the
  generation that is named afterwards is not touched if it was there.
* `PlacedAt` says what the place of a publication knows about the manifest: after the commit it names
  the generation, before the undo it does not, and before the commit the generation is open.
* The sweep at the start runs beside the publisher and without its lock.  `apart` is the condition
  under which it does no harm.
-/

namespace SemanticMemory
namespace Derived

/-! ## The property -/

/-- The generation that the active manifest names is complete. -/
def Sound (root : Root) : Prop :=
  ∀ id, root.active.generationId = some id → openGeneration root.generations id ≠ none

/-- From `root` to `root'` the named generation stays complete and in its place. -/
structure Steady (root root' : Root) : Prop where
  sound : Sound root'
  kept : ∀ id, root'.active.generationId = some id → root.generations.find? id ≠ none →
    root'.generations.find? id = root.generations.find? id

theorem Sound.steady_of_find? {root root' : Root} (hs : Sound root)
    (hactive : root'.active = root.active)
    (hkept : ∀ id, root.active.generationId = some id →
      root'.generations.find? id = root.generations.find? id) : Steady root root' where
  sound := fun id hid => by
    rw [hactive] at hid
    rw [openGeneration_congr (hkept id hid)]
    exact hs id hid
  kept := fun id hid _ => hkept id (hactive ▸ hid)

theorem Sound.steady {root root' : Root} (hs : Sound root) (hactive : root'.active = root.active)
    (hgenerations : root'.generations = root.generations) : Steady root root' :=
  hs.steady_of_find? hactive fun id _ => by rw [hgenerations]

theorem Sound.steady_frame {root root' : Root} (hs : Sound root) (h : Frame root root') :
    Steady root root' := hs.steady h.active h.generations

theorem Sound.refl {root : Root} (hs : Sound root) : Steady root root := hs.steady rfl rfl

theorem Sound.there {root : Root} (hs : Sound root) {id : Text}
    (hid : root.active.generationId = some id) : root.generations.find? id ≠ none :=
  find?_ne_none_of_open (hs id hid)

/-- A generation that comes under a free name. -/
theorem Sound.steady_insert {root root' : Root} (hs : Sound root)
    (hactive : root'.active = root.active) {id : Text} {d : Dir}
    (hfree : root.generations.find? id = none)
    (hgenerations : root'.generations = root.generations.insert id d) : Steady root root' :=
  hs.steady_of_find? hactive fun id' hid' => by
    have hne : id' ≠ id := fun he => hs.there hid' (he ▸ hfree)
    rw [hgenerations, KeyedMap.find?_insert, if_neg hne]

variable {sweep : Sweep} {keep : Keep}

theorem Sound.steady_sweep {root : Root} (hs : Sound root) (removal : Removal)
    (hkeep : ∀ rest id, sweep = .generations (id :: rest) → id ∉ keep.generations →
      root.active.generationId ≠ some id) :
    Steady root (sweepStep removal keep root sweep).1 := by
  refine hs.steady_of_find? (sweepStep_pointers removal keep root sweep).1 fun id hid => ?_
  rcases sweepStep_generations removal keep root sweep id with h | ⟨⟨rest, h⟩, hnot⟩
  · exact h
  · exact absurd hid (hkeep rest id h hnot)

theorem Sound.steady_write {root root' : Root} {manifest : Manifest}
    (hopen : openGeneration root.generations manifest.generationId ≠ none)
    (hactive : root'.active = .valid manifest)
    (hgenerations : root'.generations = root.generations) : Steady root root' where
  sound := fun id hid => by
    rw [hactive] at hid
    cases hid
    rw [hgenerations]
    exact hopen
  kept := fun id _ _ => by rw [hgenerations]

/-! ## The publication -/

/-- What a place of a publication of `gid` knows. -/
def PlacedAt (root : Root) (gid : Text) : PublishPc → Prop
  | .restore _ => False
  | .writeManifest generation =>
    generation.generationId = gid ∧ openGeneration root.generations gid ≠ none
  | .reconcile (.failure true _) | .settle _ | .alreadyFacts | .unlink | .syncStaging | .switch
  | .sweepRead => root.active.generationId = some gid
  | .sweep keep _ => root.active.generationId = some gid ∧ keep.active = some gid
  | .undoRename _ => root.active.generationId ≠ some gid
  | _ => True

/-- A publication stands where it may. -/
def Placed (root : Root) (c : Call) : Prop := PlacedAt root c.generationId c.pc

variable {generation : Generation}

section Publication

variable {p : Publishing} (env : Env)

theorem placed_reconcile (hs : Sound p.root) {at_ : Recovering}
    (h : PlacedAt p.root p.call.generationId (.reconcile at_)) :
    Steady p.root (stepReconcile env at_ p).root ∧
      Placed (stepReconcile env at_ p).root (stepReconcile env at_ p).call := by
  unfold stepReconcile
  by_cases hactive : p.root.active.generationId = some p.call.generationId
  · simp only [if_pos hactive]
    rw [if_neg fun h => hs.there hactive h.1]
    exact ⟨hs.refl, hactive⟩
  · simp only [if_neg hactive]
    match at_, h with
    | .retry, _ => exact ⟨hs.refl, trivial⟩
    | .failure false _, _ => exact ⟨hs.refl, hactive⟩
    | .failure true _, h => exact absurd h hactive

theorem placed_settle (hs : Sound p.root) {at_ : Recovering}
    (h : PlacedAt p.root p.call.generationId (.settle at_)) :
    Steady p.root (stepSettle env at_ p).root ∧
      Placed (stepSettle env at_ p).root (stepSettle env at_ p).call := by
  -- only the parked record is taken away
  have hsteady : ∀ parked, Steady p.root { p.root with parked := parked } := fun _ =>
    hs.steady rfl rfl
  unfold stepSettle
  cases at_ with
  | retry =>
    simp only
    split <;> split <;> try split
    all_goals first | exact ⟨hs.refl, h⟩ | exact ⟨hsteady _, h⟩ | exact ⟨hs.refl, trivial⟩ |
      exact ⟨hsteady _, trivial⟩
  | failure postRename reason =>
    simp only
    split <;> split
    all_goals first | exact ⟨hs.refl, h⟩ | exact ⟨hsteady _, h⟩ | exact ⟨hs.refl, trivial⟩ |
      exact ⟨hsteady _, trivial⟩

theorem placed_alreadyFacts (hs : Sound p.root)
    (h : p.root.active.generationId = some p.call.generationId) :
    Steady p.root (stepFacts env true p).root ∧
      Placed (stepFacts env true p).root (stepFacts env true p).call := by
  unfold stepFacts
  split
  · exact ⟨hs.refl, trivial⟩
  · exact ⟨hs.refl, trivial⟩
  · exact ⟨hs.refl, h⟩

theorem placed_writeManifest (hs : Sound p.root)
    (h : PlacedAt p.root p.call.generationId (.writeManifest generation)) :
    Steady p.root (stepManifest env generation p).root ∧
      Placed (stepManifest env generation p).root (stepManifest env generation p).call := by
  obtain ⟨hname, hopen⟩ := h
  have hwritten : ∀ manifest : Manifest, manifest.generationId = generation.generationId →
      Steady p.root { p.root with active := .valid manifest } := fun manifest hm =>
    Sound.steady_write (by rw [hm, hname]; exact hopen) rfl rfl
  unfold stepManifest
  simp only
  split
  · exact ⟨hs.refl, trivial⟩
  · exact ⟨hwritten _ rfl, congrArg some hname⟩
  · exact ⟨hwritten _ rfl, congrArg some hname⟩

/-- The rename into `generations/` needs a free name. -/
theorem steady_renameContainer (hs : Sound p.root) {root : Root}
    (h : renameContainer env p.call p.root = some root) : Steady p.root root := by
  unfold renameContainer at h
  split at h
  · obtain ⟨⟨src, dst⟩, hmove, rfl⟩ := Option.map_eq_some_iff.mp h
    obtain ⟨d, -, hfree, rfl, rfl⟩ := moveDir_eq_some hmove
    exact hs.steady_insert rfl hfree rfl
  · cases h

theorem steady_renameBack (hs : Sound p.root)
    (hactive : p.root.active.generationId ≠ some p.call.generationId) {root : Root}
    (h : renameBack env p.call p.root = some root) : Steady p.root root := by
  unfold renameBack at h
  split at h
  · obtain ⟨⟨src, dst⟩, hmove, rfl⟩ := Option.map_eq_some_iff.mp h
    obtain ⟨d, -, -, rfl, rfl⟩ := moveDir_eq_some hmove
    refine hs.steady_of_find? rfl fun id hid => ?_
    have hne : id ≠ p.call.generationId := fun he => hactive (he ▸ hid)
    exact (KeyedMap.find?_erase ..).trans (if_neg hne)
  · cases h

theorem placed_undoRename (hs : Sound p.root) {reason : Text}
    (h : p.root.active.generationId ≠ some p.call.generationId) :
    Steady p.root (stepUndoRename env reason p).root ∧
      Placed (stepUndoRename env reason p).root (stepUndoRename env reason p).call := by
  unfold stepUndoRename
  split
  · exact ⟨hs.refl, trivial⟩
  · split
    · exact ⟨hs.refl, trivial⟩
    · next root hroot => exact ⟨steady_renameBack env hs h hroot, trivial⟩

/-- The sweep after a publication keeps what has been published. -/
theorem placed_sweep (hs : Sound p.root) (hpc : p.call.pc = .sweep keep sweep)
    (h : PlacedAt p.root p.call.generationId (.sweep keep sweep)) :
    Steady p.root (publishStep env p).root ∧
      Placed (publishStep env p).root (publishStep env p).call := by
  obtain ⟨hactive, hkeep⟩ := h
  have hsteady : Steady p.root (sweepStep env.removal keep p.root sweep).1 :=
    hs.steady_sweep env.removal fun _ id _ hnot hid =>
      hnot ((mem_keep_generations (Pointer.ne_nil hid)).mpr
        (Or.inl (hkeep.trans (hactive.symm.trans hid))))
  have hactive' : (sweepStep env.removal keep p.root sweep).1.active.generationId =
      some p.call.generationId := by
    rw [(sweepStep_pointers env.removal keep p.root sweep).1]
    exact hactive
  simp only [publishStep, hpc]
  split
  · exact ⟨hsteady, hactive', hkeep⟩
  · exact ⟨hsteady, trivial⟩

/-- **The publication.**  A step keeps the named generation complete and in its place. -/
theorem placed_publishStep (hs : Sound p.root) (h : Placed p.root p.call) :
    Steady p.root (publishStep env p).root ∧
      Placed (publishStep env p).root (publishStep env p).call := by
  unfold Placed at h
  cases hpc : p.call.pc with (rw [hpc] at h; simp only [publishStep, hpc])
  | reconcile at_ => exact placed_reconcile env hs h
  | restore at_ => exact absurd h id
  | settle at_ => exact placed_settle env hs h
  | alreadyFacts => exact placed_alreadyFacts env hs h
  | verify =>
    unfold stepVerify
    split
    · exact ⟨hs.refl, trivial⟩
    · split
      · exact ⟨hs.refl, trivial⟩
      · split <;> exact ⟨hs.refl, trivial⟩
  | dancePark =>
    have hframe := hs.steady_frame (frame_parkProgress env p.call.stagingDir p.root)
    split <;> exact ⟨hframe, trivial⟩
  | danceOpen =>
    unfold stepDanceOpen
    split <;> exact ⟨hs.refl, trivial⟩
  | danceUnpark rejected =>
    have hframe := hs.steady_frame (frame_restoreProgress env p.call.stagingDir p.root)
    unfold stepDanceUnpark
    cases rejected with
    | some reason => exact ⟨hframe, trivial⟩
    | none =>
      simp only
      split <;> exact ⟨hframe, trivial⟩
  | reject reason => exact ⟨hs.steady_frame (frame_discard env _ _ _), trivial⟩
  | readFacts =>
    unfold stepFacts
    split <;> exact ⟨hs.refl, trivial⟩
  | buildDelta upper =>
    unfold stepDelta
    split
    · exact ⟨hs.steady rfl rfl, trivial⟩
    · exact ⟨hs.refl, trivial⟩
    · next begun _ =>
      cases begun with
      | false => exact ⟨hs.refl, trivial⟩
      | true => exact ⟨hs.steady rfl rfl, trivial⟩
    · next begun _ =>
      cases begun with
      | false => exact ⟨hs.refl, trivial⟩
      | true => exact ⟨hs.steady rfl rfl, trivial⟩
  | block message events phase => exact ⟨hs.steady_frame (frame_publishBlock env _ _ _ _ _), trivial⟩
  | park =>
    have hframe := hs.steady_frame (frame_parkProgress env p.call.generationId p.root)
    split <;> exact ⟨hframe, trivial⟩
  | rename =>
    split
    · exact ⟨hs.refl, trivial⟩
    · next root hroot => exact ⟨steady_renameContainer env hs hroot, trivial⟩
  | sync =>
    split <;> exact ⟨hs.refl, trivial⟩
  | readSchema =>
    unfold stepSchema
    split <;> exact ⟨hs.refl, trivial⟩
  | register => exact ⟨hs.steady_frame (frame_registerRollback env _ _ _), trivial⟩
  | openNew =>
    split
    · exact ⟨hs.refl, trivial⟩
    · next generation hopen =>
      split at hopen
      · refine ⟨hs.refl, generationId_of_open hopen, ?_⟩
        show openGeneration p.root.generations p.call.generationId ≠ none
        rw [hopen]
        exact nofun
      · cases hopen
  | writeManifest generation => exact placed_writeManifest env hs h
  | unlink =>
    have hunlink : Steady p.root (if env.unlinkOk = true then
        { p with
          root := { p.root with parked := p.root.parked.erase p.call.generationId } } else p).root := by
      split
      · exact hs.steady rfl rfl
      · exact hs.refl
    refine ⟨hunlink, ?_⟩
    split <;> exact h
  | syncStaging =>
    split
    · exact ⟨hs.refl, h⟩
    · exact ⟨hs.refl, trivial⟩
  | undoRename reason => exact placed_undoRename env hs h
  | undoSync reason =>
    split <;> exact ⟨hs.refl, trivial⟩
  | undoProgress reason =>
    have hframe := hs.steady_frame (frame_restoreProgress env p.call.generationId p.root)
    split
    · exact ⟨hframe, trivial⟩
    · exact ⟨hs.refl, trivial⟩
  | switch =>
    split
    · exact ⟨hs.refl, trivial⟩
    · exact ⟨hs.refl, h⟩
  | sweepRead => exact ⟨hs.refl, h, rfl⟩
  | sweep keep sweep => simpa only [publishStep, hpc] using placed_sweep env hs hpc h
  | returned result =>
    refine ⟨hs.refl, ?_⟩
    unfold Placed
    rw [hpc]
    trivial

end Publication

/-! ## The start -/

/-- What a place of the start knows. -/
def StandsAt (root : Root) : MainPc → Prop
  | .isolate _ => False
  | .catchUp generation | .activate generation =>
    openGeneration root.generations generation.generationId ≠ none
  | .clearRollback generation | .recoverRead generation =>
    root.active.generationId = some generation.generationId
  | .recoverSweep generation keep _ =>
    root.active.generationId = some generation.generationId ∧
      keep.active = some generation.generationId
  | _ => True

/-- What a step of the start comes to. -/
structure Stands (root : Root) (p : Process) (w : World) : Prop where
  steady : Steady root w.root
  process : ∀ p', w.process = some p' → StandsAt w.root p'.main ∧ p'.call = p.call

section Start

variable {root root' : Root} {p : Process} (env : Env)

theorem Steady.exit (h : Steady root root') : Stands root p (World.exit root') :=
  ⟨h, fun _ hp' => by cases hp'⟩

theorem Steady.goto (h : Steady root root') {q : Process} {main : MainPc}
    (hmain : StandsAt root' main) (hcall : q.call = p.call) :
    Stands root p (World.goto root' q main) :=
  ⟨h, fun _ hp' => by
    cases hp'
    exact ⟨hmain, hcall⟩⟩

theorem Steady.refuse (hsteady : Steady root root') (clearPointer : Bool)
    (reason : Text) : Stands root p (refuseRecovery env root' p clearPointer reason) := by
  have hclear : Steady root (if clearPointer = true ∧ env.unlinkOk = true then
      { root' with rollback := .absent } else root') := by
    split
    · exact ⟨hsteady.sound, hsteady.kept⟩
    · exact hsteady
  exact hclear.goto trivial rfl

theorem stands_resolve (hs : Sound root) : Stands root p (stepResolve env root p) := by
  have hdelta : ∀ id, Steady root (root.makeDelta id) := fun id => by
    unfold Root.makeDelta
    split <;> exact hs.steady rfl rfl
  unfold stepResolve
  simp only
  split
  · exact (hdelta _).goto trivial rfl
  · exact (hdelta _).goto trivial rfl
  · split <;> exact (hdelta _).goto trivial rfl

/-- The load never finds a named generation that it has to isolate. -/
theorem stands_load (hs : Sound root) : Stands root p (stepLoad env root p) := by
  unfold stepLoad
  split
  · exact hs.refl.goto trivial rfl
  · split
    · next hnone =>
      split
      · next hactive => exact absurd hnone (hs _ hactive)
      · exact hs.refl.goto trivial rfl
    · split
      · exact hs.refl.exit
      · exact hs.refl.exit
      · split <;> exact hs.refl.goto trivial rfl

theorem stands_build (hs : Sound root) : Stands root p (stepBuild env root p) := by
  unfold stepBuild
  split
  · exact hs.refl.exit
  · split
    · exact hs.refl.exit
    · exact Steady.goto (by exact hs.steady rfl rfl) trivial rfl

theorem stands_buildRename (hs : Sound root) (id : Text) (identity : Identity) :
    Stands root p (stepBuildRename env root p id identity) := by
  unfold stepBuildRename
  split
  · exact hs.refl.goto trivial rfl
  · split
    · exact hs.refl.exit
    · next hgo =>
      have hfree := not_not.mp (not_or.mp hgo).2
      simp only
      split
      · exact Steady.exit (by exact hs.steady_insert rfl hfree rfl)
      · exact Steady.goto (by exact hs.steady_insert rfl hfree rfl) trivial rfl

theorem stands_pointer (hs : Sound root) (reason : Text) :
    Stands root p (stepPointer env root p reason) := by
  unfold stepPointer
  split
  · exact hs.refl.refuse env _ _
  · exact hs.refl.refuse env _ _
  · split
    · exact hs.refl.refuse env _ _
    · exact hs.refl.goto trivial rfl

theorem stands_openRollback (hs : Sound root) (manifest : Manifest) :
    Stands root p (stepOpenRollback env root p manifest) := by
  unfold stepOpenRollback
  split
  · exact hs.refl.refuse env _ _
  · next generation hopen =>
    split
    · exact hs.refl.exit
    · exact hs.refl.refuse env _ _
    · split
      · exact hs.refl.refuse env _ _
      · split
        · exact hs.refl.refuse env _ _
        · refine hs.refl.goto ?_ rfl
          show openGeneration root.generations generation.generationId ≠ none
          rw [generationId_of_open hopen, hopen]
          exact nofun

theorem stands_catchUp (hs : Sound root) (h : StandsAt root (.catchUp generation)) :
    Stands root p (stepCatchUp env root p generation) := by
  unfold stepCatchUp
  simp only
  split
  · exact Steady.goto (by exact hs.steady rfl rfl) h rfl
  · exact hs.refl.refuse env _ _
  all_goals
    split
    · exact Steady.refuse env (by exact hs.steady rfl rfl) _ _
    · exact hs.refl.refuse env _ _

theorem stands_activate (hs : Sound root) (h : StandsAt root (.activate generation)) :
    Stands root p (stepActivate env root p generation) := by
  have hwritten : ∀ manifest : Manifest, manifest.generationId = generation.generationId →
      Steady root { root with active := .valid manifest } := fun manifest hm =>
    Sound.steady_write (by rw [hm]; exact h) rfl rfl
  unfold stepActivate
  simp only
  split
  · exact hs.refl.refuse env _ _
  · exact hs.refl.refuse env _ _
  · split
    · exact hs.refl.refuse env _ _
    · exact (hwritten _ rfl).refuse env _ _
    · exact (hwritten _ rfl).goto rfl rfl

theorem stands_serve (hs : Sound root) (generation : Option Generation) :
    Stands root p (stepServe env root p generation) := by
  unfold stepServe
  split
  · exact hs.refl.goto trivial rfl
  · split
    · exact hs.refl.exit
    · split
      · exact hs.refl.exit
      · exact hs.refl.exit
      · split
        · exact hs.refl.exit
        · exact hs.refl.goto trivial rfl

theorem stands_recoverSweep (hs : Sound root) (hmain : p.main = .recoverSweep generation keep sweep)
    (h : StandsAt root (.recoverSweep generation keep sweep)) :
    Stands root p (mainStep env root p) := by
  obtain ⟨hactive, hkeep⟩ := h
  have hsteady : Steady root (sweepStep env.removal keep root sweep).1 :=
    hs.steady_sweep env.removal fun _ id _ hnot hid =>
      hnot ((mem_keep_generations (Pointer.ne_nil hid)).mpr
        (Or.inl (hkeep.trans (hactive.symm.trans hid))))
  simp only [mainStep, hmain]
  split
  · refine hsteady.goto ⟨?_, hkeep⟩ rfl
    rw [(sweepStep_pointers env.removal keep root sweep).1]
    exact hactive
  · exact hsteady.goto trivial rfl

/-- The sweep at the start, while the manifest is as it was read. -/
theorem stands_sweep (hs : Sound root)
    (hmain : p.main = .sweep keep sweep)
    (hkeep : ∀ rest id, sweep = .generations (id :: rest) → id ∉ keep.generations →
      keep.active = root.active.generationId) :
    Stands root p (mainStep env root p) := by
  have hsteady : Steady root (sweepStep env.removal keep root sweep).1 :=
    hs.steady_sweep env.removal fun rest id hsweep hnot hid =>
      hnot ((mem_keep_generations (Pointer.ne_nil hid)).mpr
        (Or.inl ((hkeep rest id hsweep hnot).trans hid)))
  simp only [mainStep, hmain]
  split <;> exact hsteady.goto trivial rfl

/-- **The start.**  A step keeps the named generation complete and in its place. -/
theorem stands_mainStep (hs : Sound root) (h : StandsAt root p.main)
    (hsweep : ∀ keep id rest, p.main = .sweep keep (.generations (id :: rest)) →
      id ∉ keep.generations → keep.active = root.active.generationId) :
    Stands root p (mainStep env root p) := by
  cases hmain : p.main with (rw [hmain] at h; simp only [mainStep, hmain])
  | resolve => exact stands_resolve env hs
  | load => exact stands_load env hs
  | build => exact stands_build env hs
  | buildRename id identity => exact stands_buildRename env hs id identity
  | isolate reason => exact absurd h id
  | pointer reason => exact stands_pointer env hs reason
  | openRollback manifest => exact stands_openRollback env hs manifest
  | catchUp generation => exact stands_catchUp env hs h
  | activate generation => exact stands_activate env hs h
  | clearRollback generation =>
    have hclear : Steady root (if env.unlinkOk = true then { root with rollback := .absent }
        else root) ∧ (if env.unlinkOk = true then { root with rollback := .absent }
        else root).active = root.active := by
      split
      · exact ⟨hs.steady rfl rfl, rfl⟩
      · exact ⟨hs.refl, rfl⟩
    refine hclear.1.goto ?_ rfl
    show Pointer.generationId _ = _
    rw [hclear.2]
    exact h
  | recoverRead generation => exact hs.refl.goto ⟨h, rfl⟩ rfl
  | recoverSweep generation keep sweep =>
    simpa only [mainStep, hmain] using stands_recoverSweep env hs hmain h
  | serve generation => exact stands_serve env hs generation
  | sweepRead => exact hs.refl.goto trivial rfl
  | sweep keep sweep =>
    simpa only [mainStep, hmain] using stands_sweep env hs hmain fun rest id hs hnot =>
      hsweep keep id rest (hs ▸ hmain) hnot
  | serving =>
    refine ⟨hs.refl, fun p' hp' => ?_⟩
    cases hp'
    exact ⟨by rw [hmain]; trivial, rfl⟩

end Start

/-! ## The daemon -/

/-- The call is about to replace the manifest. -/
def PublishPc.writes : PublishPc → Bool
  | .writeManifest _ => true
  | _ => false

/-- The sweep at the start and the publisher are apart: whenever the sweep takes a generation away,
the active manifest names what it named when the sweep read it, and no publication is about to
replace it. -/
def apart (w : World) (a : Action) : Bool :=
  match a, w.process with
  | .main _, some p =>
    match p.main with
    | .sweep keep (.generations (id :: _)) =>
      id ∈ keep.generations ||
        keep.active = w.root.active.generationId && !p.call.any fun c => c.pc.writes
    | _ => true
  | _, _ => true

/-- What holds in every state. -/
structure Good (w : World) : Prop where
  sound : Sound w.root
  main : ∀ p, w.process = some p → StandsAt w.root p.main
  call : ∀ p c, w.process = some p → p.call = some c → p.main.wired = true ∧ Placed w.root c

theorem Good.exit {root : Root} (hs : Sound root) : Good (World.exit root) :=
  ⟨hs, fun _ hp => (by cases hp), fun _ _ hp => (by cases hp)⟩

/-- A place of the start beside which the workers run knows nothing of its own. -/
theorem standsAt_of_wired {main : MainPc} (h : main.wired = true) (root : Root) :
    StandsAt root main := by
  cases main with
  | sweepRead | sweep keep sweep | serving => trivial
  | _ => cases h

/-- Beside the workers the start writes no manifest and takes away what its sweep has listed. -/
theorem mainStep_wired (env : Env) {root : Root} {p : Process} (h : p.main.wired = true) :
    (mainStep env root p).root.active = root.active ∧
      (∀ p', (mainStep env root p).process = some p' → p'.main.wired = true) ∧
      ∀ id, (mainStep env root p).root.generations.find? id = root.generations.find? id ∨
        ∃ keep rest, p.main = .sweep keep (.generations (id :: rest)) ∧
          id ∉ keep.generations := by
  cases hmain : p.main with
  | sweepRead =>
    simp only [mainStep, hmain]
    exact ⟨rfl, fun _ hp' => by cases hp'; rfl, fun _ => Or.inl rfl⟩
  | serving =>
    rw [show mainStep env root p = ⟨root, some p⟩ by simp only [mainStep, hmain]]
    exact ⟨rfl, fun _ hp' => by cases hp'; exact h, fun _ => Or.inl rfl⟩
  | sweep keep sweep =>
    have hgenerations : ∀ id,
        (sweepStep env.removal keep root sweep).1.generations.find? id =
            root.generations.find? id ∨
          ∃ keep' rest, MainPc.sweep keep sweep = .sweep keep' (.generations (id :: rest)) ∧
            id ∉ keep'.generations := fun id => by
      rcases sweepStep_generations env.removal keep root sweep id with h | ⟨⟨rest, h⟩, hnot⟩
      · exact Or.inl h
      · exact Or.inr ⟨keep, rest, by rw [h], hnot⟩
    have hactive := (sweepStep_pointers env.removal keep root sweep).1
    simp only [mainStep, hmain]
    split <;> exact ⟨hactive, fun _ hp' => by cases hp'; rfl, hgenerations⟩
  | _ =>
    rw [hmain] at h
    cases h

/-- What a place knows stays true while only generations it does not write about go. -/
theorem Placed.congr {root root' : Root} {c : Call} (h : Placed root c)
    (hactive : root'.active = root.active)
    (hgenerations : c.pc.writes = true →
      root'.generations.find? c.generationId = root.generations.find? c.generationId) :
    Placed root' c := by
  unfold Placed at h ⊢
  cases hpc : c.pc with
  | writeManifest generation =>
    rw [hpc] at h hgenerations
    exact ⟨h.1, by rw [openGeneration_congr (hgenerations rfl)]; exact h.2⟩
  | reconcile at_ =>
    rw [hpc] at h
    match at_, h with
    | .retry, _ => trivial
    | .failure false _, _ => trivial
    | .failure true _, h =>
      show root'.active.generationId = _
      rw [hactive]
      exact h
  | _ =>
    rw [hpc] at h
    first | exact True.intro | simpa only [PlacedAt, hactive] using h

variable {w : World}

/-- The thread of `run_server` goes on. -/
theorem Good.main_step (h : Good w) {p : Process} (hp : w.process = some p) (env : Env)
    (hapart : apart w (.main env) = true) :
    Steady w.root (mainStep env w.root p).root ∧ Good (mainStep env w.root p) := by
  have hsweep : ∀ keep id rest, p.main = .sweep keep (.generations (id :: rest)) →
      id ∉ keep.generations → keep.active = w.root.active.generationId ∧
        ∀ c, p.call = some c → c.pc.writes = false := fun keep id rest hmain hnot => by
    simp only [apart, hp, hmain, Bool.or_eq_true, Bool.and_eq_true, decide_eq_true_eq] at hapart
    obtain ⟨hactive, hwrites⟩ := hapart.resolve_left hnot
    refine ⟨hactive, fun c hc => ?_⟩
    rw [hc] at hwrites
    simpa using hwrites
  have hstands := stands_mainStep env h.sound (h.main p hp)
    (fun keep id rest hmain hnot => (hsweep keep id rest hmain hnot).1)
  refine ⟨hstands.steady, hstands.steady.sound, fun p' hp' => (hstands.process p' hp').1,
    fun p' c hp' hc => ?_⟩
  rw [(hstands.process p' hp').2] at hc
  obtain ⟨hwired, hplaced⟩ := h.call p c hp hc
  obtain ⟨hactive, hwired', hgenerations⟩ :
      (mainStep env w.root _).root.active = w.root.active ∧ _ := mainStep_wired env hwired
  refine ⟨hwired' p' hp', hplaced.congr hactive fun hwrites => ?_⟩
  rcases hgenerations c.generationId with hsame | ⟨keep, rest, hmain, hnot⟩
  · exact hsame
  · rw [(hsweep keep _ rest hmain hnot).2 c hc] at hwrites
    cases hwrites

theorem Good.publisher_step (h : Good w) {p : Process} {c : Call} (hp : w.process = some p)
    (hc : p.call = some c) (env : Env) :
    Steady w.root (publisherStep env w.root p c).root ∧ Good (publisherStep env w.root p c) := by
  obtain ⟨hwired, hplaced⟩ := h.call p c hp hc
  unfold publisherStep
  split
  · next result _ =>
    have hmain : ∀ p', some (finishPublish c result p) = some p' →
        p'.main = p.main ∧ p'.call = none := fun p' hp' => by
      cases hp'
      unfold finishPublish
      cases result with
      | none => exact ⟨rfl, rfl⟩
      | some res =>
        simp only
        split <;> exact ⟨rfl, rfl⟩
    refine ⟨h.sound.refl, h.sound, fun p' hp' => ?_, fun p' c' hp' hc' => ?_⟩
    · rw [(hmain p' hp').1]
      exact h.main p hp
    · rw [(hmain p' hp').2] at hc'
      cases hc'
  · obtain ⟨hsteady, hplaced'⟩ :=
      placed_publishStep env (p := ⟨w.root, p.machine, c⟩) h.sound hplaced
    refine ⟨hsteady, hsteady.sound, fun p' hp' => ?_, fun p' c' hp' hc' => ?_⟩
    · cases hp'
      exact standsAt_of_wired hwired _
    · cases hp'
      cases hc'
      exact ⟨hwired, hplaced'⟩

/-- **The step.**  While the sweep at the start is apart from the publisher, every step of the
daemon keeps the named generation complete and in its place. -/
theorem good_step {a : Action} (h : Good w) (hapart : apart w a = true) :
    Steady w.root (step w a).root ∧ Good (step w a) := by
  have hstay : Steady w.root w.root ∧ Good w := ⟨h.sound.refl, h⟩
  cases hp : w.process with
  | none =>
    cases a with simp only [step, hp]
    | start config =>
      refine ⟨h.sound.refl, h.sound, fun p' hp' => ?_, fun p' c hp' hc => ?_⟩
      · cases hp'
        trivial
      · cases hp'
        cases hc
    | _ => exact hstay
  | some p =>
    cases a with simp only [step, hp]
    | start config => exact hstay
    | main env => exact h.main_step hp env hapart
    | publish stagingDir generationId ready =>
      split
      · next hgo =>
        refine ⟨h.sound.refl, h.sound, fun p' hp' => ?_, fun p' c hp' hc => ?_⟩
        · cases hp'
          exact h.main p hp
        · cases hp'
          cases hc
          exact ⟨hgo.1, trivial⟩
      · exact hstay
    | publisher env =>
      split
      · next c hc => exact h.publisher_step hp hc env
      · exact hstay
    | retrySwitch env =>
      have hsame : ⟨w.root, some p⟩ = w := by
        rw [← hp]
      split
      swap
      · exact hstay
      unfold retrySwitch
      split
      swap
      · rw [hsame]
        exact hstay
      split
      swap
      · rw [hsame]
        exact hstay
      next hcall =>
      split
      · refine ⟨h.sound.refl, h.sound, fun p' hp' => ?_, fun p' c hp' hc => ?_⟩
        · cases hp'
          exact h.main p hp
        · cases hp'
          rw [show p.call = some c from hc] at hcall
          cases hcall.1
      · rw [hsame]
        exact hstay
    | stage name dir =>
      split
      · next hgo =>
        have hsteady : Steady w.root (w.root.stage name dir) := h.sound.steady rfl rfl
        refine ⟨hsteady, hsteady.sound, fun p' hp' => ?_, fun p' c hp' hc => ?_⟩
        · cases hp'
          exact standsAt_of_wired hgo.1 _
        · cases hp'
          rw [hgo.2] at hc
          cases hc
      · exact hstay
    | crash =>
      exact ⟨h.sound.refl, .exit h.sound⟩

theorem Good.start {root : Root} (hs : Sound root) : Good ⟨root, none⟩ := .exit hs

/-- A crash, and a start up to the load. -/
def restart (config : Config) (env : Env) (w : World) : World :=
  Runs.run step w [.crash, .start config, .main env, .main env]

/-- A restart under a supported manifest loads the generation it names. -/
theorem Sound.restart_loads (hs : Sound w.root) {manifest : Manifest}
    (hactive : w.root.active = .valid manifest) {config : Config} {env : Env}
    (hsupported : refuseLoadReason env.schema manifest = none) :
    ∃ generation, openGeneration w.root.generations manifest.generationId = some generation ∧
      ∀ upper, env.facts = .found generation.identity.storeEpoch upper →
        (restart config env w).process.map Process.main = some (.serve (some generation)) := by
  have hopen := hs manifest.generationId (by rw [hactive]; rfl)
  obtain ⟨generation, hgeneration⟩ := Option.ne_none_iff_exists'.mp hopen
  refine ⟨generation, hgeneration, fun upper hfacts => ?_⟩
  have hcrash : step w .crash = ⟨w.root, none⟩ := by
    obtain ⟨root, process⟩ := w
    cases process <;> rfl
  have hdelta : (w.root.makeDelta manifest.generationId).active = w.root.active ∧
      (w.root.makeDelta manifest.generationId).generations = w.root.generations := by
    unfold Root.makeDelta
    split <;> exact ⟨rfl, rfl⟩
  have hresolve : ∀ p : Process, stepResolve env w.root p =
      World.goto (w.root.makeDelta manifest.generationId)
        { p with
          declared := manifest.generationId
          representationId := manifest.identity.representationId
          machine := ⟨manifest.generationId, none⟩ } .load := fun p => by
    unfold stepResolve
    simp only [hactive, hsupported]
  have hload : ∀ p : Process, p.declared = manifest.generationId →
      stepLoad env (w.root.makeDelta manifest.generationId) p =
        World.goto (w.root.makeDelta manifest.generationId) p (.serve (some generation)) :=
      fun p hp => by
    unfold stepLoad
    rw [hdelta.1, hdelta.2, hp, hgeneration, hactive, hfacts]
    simp
  unfold Derived.restart
  rw [Runs.run_cons, hcrash, Runs.run_cons, Runs.run_cons, Runs.run_cons, Runs.run_nil]
  show Option.map Process.main
    (step (stepResolve env w.root _) (.main env)).process = _
  rw [hresolve]
  show Option.map Process.main
    (stepLoad env (w.root.makeDelta manifest.generationId) _).process = _
  rw [hload _ rfl]
  rfl

/-- **A manifest never names a missing generation.**  From a root in which it does not, over every
run of publications, faults, crashes and restarts in which the sweep at the start is apart from the
publisher: a valid active manifest names a complete generation, no step moves the generation that is
named, and a restart loads it. -/
theorem publish_crash_atomic (root : Root) (hroot : Sound root) (acts : List Action)
    (hapart : Runs.Along step (fun w a => apart w a = true) ⟨root, none⟩ acts) :
    let w := Runs.run step ⟨root, none⟩ acts
    (∀ manifest, w.root.active = .valid manifest →
      openGeneration w.root.generations manifest.generationId ≠ none) ∧
    (∀ a, apart w a = true → ∀ manifest, (step w a).root.active = .valid manifest →
      w.root.generations.find? manifest.generationId ≠ none →
      (step w a).root.generations.find? manifest.generationId =
        w.root.generations.find? manifest.generationId) ∧
    ∀ manifest config env, w.root.active = .valid manifest →
      refuseLoadReason env.schema manifest = none →
      ∃ generation, openGeneration w.root.generations manifest.generationId = some generation ∧
        ∀ upper, env.facts = .found generation.identity.storeEpoch upper →
          (restart config env w).process.map Process.main = some (.serve (some generation)) := by
  intro w
  have hgood : Good w := Runs.run_invariant_along (I := Good)
    (fun _ _ hapart h => (good_step h hapart).2) (Good.start hroot) hapart
  refine ⟨fun manifest hactive => hgood.sound _ (by rw [hactive]; rfl), ?_, ?_⟩
  · intro a ha manifest hactive hthere
    exact (good_step hgood ha).1.kept _ (by rw [hactive]; rfl) hthere
  · intro manifest config env hactive hsupported
    exact hgood.sound.restart_loads hactive hsupported

/-! ### A run -/

def sampleConfig : Config := ⟨ascii "a", ascii "model", 2⟩

def sampleEnv : Env := { facts := .found (ascii "epoch") (hlc 3 0) }

/-- A start up to the sweep. -/
def sampleStart : List Action :=
  [.start sampleConfig, .main sampleEnv, .main sampleEnv, .main sampleEnv]

/-- The publication of `n` up to the writing of the manifest. -/
def samplePublication : List Action :=
  .publish (ascii "n") (ascii "n") (some (ascii "n")) ::
    List.replicate 13 (.publisher sampleEnv)

/-- A publication whose last `fsync` of the root fails, and a crash. -/
def sampleCommit : List Action :=
  sampleStart ++ samplePublication ++ [.publisher { sampleEnv with write := .committed }, .crash]

/-- After the crash the new generation is named, complete and loaded. -/
theorem publish_crash_atomic_sample :
    let w := Runs.run step ⟨sampleRoot, none⟩ sampleCommit
    (∀ manifest, w.root.active = .valid manifest →
      openGeneration w.root.generations manifest.generationId ≠ none) ∧
    (∀ a, apart w a = true → ∀ manifest, (step w a).root.active = .valid manifest →
      w.root.generations.find? manifest.generationId ≠ none →
      (step w a).root.generations.find? manifest.generationId =
        w.root.generations.find? manifest.generationId) ∧
    ∀ manifest config env, w.root.active = .valid manifest →
      refuseLoadReason env.schema manifest = none →
      ∃ generation, openGeneration w.root.generations manifest.generationId = some generation ∧
        ∀ upper, env.facts = .found generation.identity.storeEpoch upper →
          (restart config env w).process.map Process.main = some (.serve (some generation)) :=
  publish_crash_atomic sampleRoot
    (fun id hid => by
      obtain rfl : ascii "a" = id := Option.some.inj hid
      decide +kernel)
    sampleCommit (by decide +kernel)

/-- The sweep at the start has read the manifest and listed the generations while a publication
stood before its commit; it goes on when the manifest is written. -/
def sampleOverlap : List Action :=
  sampleStart ++ samplePublication ++ [.main {}, .main {}, .publisher sampleEnv] ++
    List.replicate 3 (.main {})

/-- **The sweep at the start can take the generation that has just been published.**  The manifest
then names a generation that is gone, and the next start has nothing to load. -/
theorem publish_lost :
    ¬ ∀ (root : Root) (acts : List Action), Sound root →
      ∀ manifest, (Runs.run step ⟨root, none⟩ acts).root.active = .valid manifest →
        openGeneration (Runs.run step ⟨root, none⟩ acts).root.generations manifest.generationId ≠
          none := fun h => by
  have hsound : Sound sampleRoot := fun id hid => by
    obtain rfl : ascii "a" = id := Option.some.inj hid
    decide +kernel
  have hactive : (Runs.run step ⟨sampleRoot, none⟩ sampleOverlap).root.active =
      .valid (sampleManifest (ascii "n") (by decide)) := by
    decide +kernel
  exact h sampleRoot sampleOverlap hsound _ hactive (by decide +kernel)

end Derived
end SemanticMemory
