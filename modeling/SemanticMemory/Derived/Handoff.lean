import SemanticMemory.Derived.Publish

/-!
# The handing over of a publication

`GenerationPublisher._cycle` (`daemon/publish.py`) against the delta machine's `publish_switch`,
`_perform_publish_switch` and `_perform_rebuild` (`daemon/delta.py`), while the store epoch changes.

## What is modelled, and how

* The publisher stands at a `PublisherPc`.  Of `_publish_locked` there are the places where it looks
  at the epoch, and the commit is one step: `Derived.Publish` has what is between them.
* The delta machine is its queue, `_pending_publish`, with the answer to the last record in it.  A
  handshake that times out leaves its record queued.
* A store epoch is new when it comes.  A generation that was published opens until it is damaged or
  swept; a rebuild's sweep keeps only the generation the rebuild serves.
* The provider, which the publisher hands over with every record, is left out.

`Doomed` is a publisher that will never look at a staging again, and `publisher_attempts` says under
which condition on a run it does not come to that.
-/

namespace SemanticMemory
namespace Derived
namespace Handoff

/-! ## The model -/

/-- A ready staging, as `status` of the staging machine reports it. -/
structure Staged where
  generationId : Text
  /-- `progress["identity"]["store_epoch"]`. -/
  storeEpoch : Text
  deriving DecidableEq

/-- The places of the publisher's cycle. -/
inductive PublisherPc where
  | idle
  /-- In the `publish_switch` of a committed publication. -/
  | retrying
  /-- `publish_ready_staging`, where the manifest already names the generation. -/
  | already (staged : Staged)
  | verifying (staged : Staged)
  | reading (staged : Staged)
  | building (staged : Staged) (epoch : Text)
  | committing (staged : Staged) (epoch : Text)
  /-- In the `publish_switch` of `_complete_publish_switch`. -/
  | handing (staged : Staged) (epoch : Text)
  deriving DecidableEq

/-- The publisher, the delta machine, and what they see of the disk. -/
structure World where
  /-- The facts' store epoch, and every epoch there has been. -/
  epoch : Text
  epochs : List Text
  /-- The active manifest's generation. -/
  manifest : Option Text := none
  /-- The directories of `generations/`, and those of them that do not open. -/
  generations : List Text := []
  damaged : List Text := []
  /-- What the staging machine reports. -/
  ready : Option Staged := none
  /-- `_committed_generation_id` with `_committed_epoch`. -/
  committed : Option (Text × Text) := none
  switched : Option Text := none
  pc : PublisherPc := .idle
  /-- `_pending_publish` and `_publish_result` of the delta machine. -/
  pending : Option (Text × Text) := none
  result : Option Bool := none
  /-- The base generation of the snapshot. -/
  served : Option Text := none
  /-- The stagings that `publish_ready_staging` was called with. -/
  attempts : List Staged := []

/-- `open_generation` of a published generation. -/
def World.opens (w : World) (id : Text) : Bool := id ∈ w.generations && id ∉ w.damaged

/-- The committed publication whose switch is not through. -/
def World.awaited (w : World) : Option (Text × Text) :=
  w.committed.filter fun c => w.switched ≠ some c.1

/-- `publish_switch` queues its record, or joins the one in the queue. -/
def World.enqueue (w : World) (record : Text × Text) : World :=
  match w.pending with
  | some _ => w
  | none => { w with pending := some record, result := none }

/-- The end of a cycle that called `publish_ready_staging`. -/
def World.finish (w : World) (staged : Staged) (committed ok : Bool) : World :=
  { w with
    pc := .idle
    committed := if committed then some (staged.generationId, staged.storeEpoch) else w.committed
    switched := if committed && ok then some staged.generationId else w.switched }

/-- The container is renamed and verified, and the manifest names it. -/
def World.commit (w : World) (staged : Staged) : World :=
  { w with
    manifest := some staged.generationId
    generations := staged.generationId :: w.generations
    damaged := w.damaged.filter (· ≠ staged.generationId) }

/-- The start of `_cycle`. -/
def cycle (w : World) : World :=
  if w.pc ≠ .idle then w
  else
    match w.awaited with
    | some record => { w.enqueue record with pc := .retrying }
    | none =>
      match w.ready with
      | none => w
      | some staged =>
        { w with
          attempts := w.attempts ++ [staged]
          pc :=
            if w.manifest = some staged.generationId ∧ staged.generationId ∈ w.generations then
              .already staged
            else .verifying staged }

/-- What the outside world decides in a step of `_publish_locked`. -/
structure StepEnv where
  /-- What the step calls goes through. -/
  ok : Bool := true
  write : WriteResult := .done

/-- The publication goes on. -/
def publishStep (env : StepEnv) (w : World) : World :=
  match w.pc with
  | .already staged =>
    if env.ok then
      { w.enqueue (staged.generationId, w.epoch) with pc := .handing staged w.epoch }
    else w.finish staged (env.write ≠ .failed) false
  | .verifying staged =>
    -- the resume gate compares the epoch with the recorded one
    if env.ok = true ∧ staged.storeEpoch = w.epoch then { w with pc := .reading staged }
    else w.finish staged false false
  | .reading staged =>
    if env.ok then { w with pc := .building staged w.epoch } else w.finish staged false false
  | .building staged epoch =>
    -- `_build_staging_delta` compares the epoch before and after
    if env.ok = true ∧ staged.storeEpoch = w.epoch then { w with pc := .committing staged epoch }
    else w.finish staged false false
  | .committing staged epoch =>
    match env.write with
    | .failed => w.finish staged false false
    | .committed => (w.commit staged).finish staged true false
    | .done =>
      { (w.commit staged).enqueue (staged.generationId, epoch) with pc := .handing staged epoch }
  | _ => w

/-- `publish_switch` returns to the publisher. -/
def respond (ok : Bool) (w : World) : World :=
  match w.pc with
  | .retrying =>
    { w with
      pc := .idle
      switched := if ok then w.committed.map Prod.fst else w.switched }
  | .handing staged _ => w.finish staged true ok
  | _ => w

/-- `_perform_publish_switch`; `verifies` stands for the verification of the checkpoint and of the
projection. -/
def performPublishSwitch (verifies : Bool) (w : World) : World :=
  match w.pending with
  | none => w
  | some (id, expectedEpoch) =>
    if w.epoch ≠ expectedEpoch ∨ w.opens id = false ∨ verifies = false then
      { w with pending := none, result := some false }
    else { w with pending := none, result := some true, served := some id }

/-- `_perform_rebuild`: the queued record is aborted, and the sweep keeps the rebuilt generation. -/
def performRebuild (built : Option Text) (w : World) : World :=
  let w := match w.pending with
    | some _ => { w with pending := none, result := some false, served := none }
    | none => { w with served := none }
  match built with
  | some id => { w with served := some id, generations := [id], damaged := [] }
  | none => w

inductive Action where
  | cycle
  | publish (env : StepEnv)
  /-- The handshake returns, with the answer or without. -/
  | answer
  | timeout
  | worker (verifies : Bool)
  | rebuild (built : Option Text)
  /-- The store is replaced, under a new epoch. -/
  | replace (epoch : Text)
  | damage (id : Text)
  /-- The staging machine reports another staging. -/
  | stage (ready : Option Staged)
  /-- The process ends and the next one starts. -/
  | restart

def step (w : World) : Action → World
  | .cycle => cycle w
  | .publish env => publishStep env w
  | .answer => if w.pending = none then respond (w.result = some true) w else w
  | .timeout => if w.pending ≠ none then respond false w else w
  | .worker verifies => performPublishSwitch verifies w
  | .rebuild built => performRebuild built w
  | .replace epoch => if epoch ∈ w.epochs then w else { w with epoch := epoch, epochs := epoch :: w.epochs }
  | .damage id => { w with damaged := id :: w.damaged }
  | .stage ready => if ready.all fun s => s.storeEpoch ∈ w.epochs then { w with ready := ready } else w
  | .restart =>
    { w with
      ready := none, committed := none, switched := none, pc := .idle, pending := none
      result := none, served := w.manifest }

/-- A store with its derived root, and no publication under way. -/
def World.created (epoch : Text) (manifest : Option Text) (generations : List Text) : World :=
  { epoch, epochs := [epoch], manifest, generations, served := manifest }

/-! ## A publisher that is stuck -/

section Doom

variable {w : World}

/-- A committed publication of an epoch that is gone waits for its switch. -/
structure Doomed (w : World) : Prop where
  awaited : ∃ record, w.awaited = some record ∧ record.2 ∈ w.epochs ∧ record.2 ≠ w.epoch
  pc : w.pc = .idle ∨ w.pc = .retrying
  pending : ∀ record, w.pending = some record → record.2 ∈ w.epochs ∧ record.2 ≠ w.epoch
  refused : w.pc = .retrying → w.pending = none → w.result ≠ some true

/-- The retry of a doomed publication is queued, and queued again. -/
theorem doomed_cycle (h : Doomed w) : Doomed (cycle w) ∧ (cycle w).attempts = w.attempts := by
  obtain ⟨record, hrecord, hknown, hgone⟩ := h.awaited
  unfold cycle
  split
  · exact ⟨h, rfl⟩
  · rw [hrecord]
    simp only
    unfold World.enqueue
    cases hpending : w.pending with
    | some queued =>
      refine ⟨⟨⟨record, hrecord, hknown, hgone⟩, Or.inr rfl, h.pending, fun _ hnone => ?_⟩, rfl⟩
      rw [hpending] at hnone
      cases hnone
    | none =>
      refine ⟨⟨⟨record, hrecord, hknown, hgone⟩, Or.inr rfl, fun queued hq => ?_, fun _ => nofun⟩,
        rfl⟩
      cases hq
      exact ⟨hknown, hgone⟩

/-- An answer to a doomed publication is a refusal. -/
theorem doomed_respond (h : Doomed w) {ok : Bool} (hok : w.pc = .retrying → ok = false) :
    Doomed (respond ok w) ∧ (respond ok w).attempts = w.attempts := by
  unfold respond
  rcases h.pc with hpc | hpc
  · rw [hpc]
    exact ⟨h, rfl⟩
  · obtain rfl := hok hpc
    rw [hpc]
    exact ⟨⟨h.awaited, Or.inl rfl, h.pending, nofun⟩, rfl⟩

/-- **No way out but a new process.**  Whatever happens next, the publisher looks at no staging. -/
theorem doomed_step (h : Doomed w) {a : Action} (ha : a ≠ .restart) :
    Doomed (step w a) ∧ (step w a).attempts = w.attempts := by
  cases a with
  | cycle => exact doomed_cycle h
  | publish env =>
    have hsame : publishStep env w = w := by
      rcases h.pc with hpc | hpc <;> simp only [publishStep, hpc]
    show Doomed (publishStep env w) ∧ (publishStep env w).attempts = w.attempts
    rw [hsame]
    exact ⟨h, rfl⟩
  | answer =>
    simp only [step]
    split
    · next hnone =>
      exact doomed_respond h fun hpc => by
        rw [decide_eq_false_iff_not]
        exact h.refused hpc hnone
    · exact ⟨h, rfl⟩
  | timeout =>
    simp only [step]
    split
    · exact doomed_respond h fun _ => rfl
    · exact ⟨h, rfl⟩
  | worker verifies =>
    show Doomed (performPublishSwitch verifies w) ∧
      (performPublishSwitch verifies w).attempts = w.attempts
    unfold performPublishSwitch
    split
    · exact ⟨h, rfl⟩
    · next id expectedEpoch hpending =>
      have hgone : w.epoch ≠ expectedEpoch := fun he => (h.pending _ hpending).2 he.symm
      rw [if_pos (Or.inl hgone)]
      exact ⟨⟨h.awaited, h.pc, fun _ hq => (by cases hq), fun _ _ => nofun⟩, rfl⟩
  | rebuild built =>
    show Doomed (performRebuild built w) ∧ (performRebuild built w).attempts = w.attempts
    unfold performRebuild
    cases hpending : w.pending with
    | some record =>
      cases built with
      | some id => exact ⟨⟨h.awaited, h.pc, fun _ hq => (by cases hq), fun _ _ => nofun⟩, rfl⟩
      | none => exact ⟨⟨h.awaited, h.pc, fun _ hq => (by cases hq), fun _ _ => nofun⟩, rfl⟩
    | none =>
      have hrefused : w.pc = .retrying → w.result ≠ some true := fun hpc => h.refused hpc hpending
      cases built with
      | some id =>
        exact ⟨⟨h.awaited, h.pc, fun _ hq => (by cases hq), fun hpc _ => hrefused hpc⟩, rfl⟩
      | none =>
        exact ⟨⟨h.awaited, h.pc, fun _ hq => (by cases hq), fun hpc _ => hrefused hpc⟩, rfl⟩
  | replace epoch =>
    simp only [step]
    split
    · exact ⟨h, rfl⟩
    · next hnew =>
      have hstays : ∀ e ∈ w.epochs, e ∈ epoch :: w.epochs ∧ e ≠ epoch := fun e he =>
        ⟨List.mem_cons_of_mem _ he, fun heq => hnew (heq ▸ he)⟩
      obtain ⟨record, hrecord, hknown, -⟩ := h.awaited
      exact ⟨⟨⟨record, hrecord, hstays _ hknown⟩, h.pc,
        fun queued hq => hstays _ (h.pending queued hq).1, h.refused⟩, rfl⟩
  | damage id => exact ⟨⟨h.awaited, h.pc, h.pending, h.refused⟩, rfl⟩
  | stage ready =>
    simp only [step]
    split
    · exact ⟨⟨h.awaited, h.pc, h.pending, h.refused⟩, rfl⟩
    · exact ⟨h, rfl⟩
  | restart => exact absurd rfl ha

theorem doomed_run (h : Doomed w) {acts : List Action} (hacts : ∀ a ∈ acts, a ≠ .restart) :
    (Runs.run step w acts).attempts = w.attempts :=
  (Runs.run_invariant_along (I := fun w' : World => Doomed w' ∧ w'.attempts = w.attempts)
    (fun _ _ ha h => ⟨(doomed_step h.1 ha).1, (doomed_step h.1 ha).2.trans h.2⟩) ⟨h, rfl⟩
    (Runs.along_of_mem hacts w)).2

end Doom

/-! ## A publisher that goes on -/

/-- What the delta machine is to switch to: the publication being handed over, or the committed
one. -/
def World.waiting (w : World) : Option (Text × Text) :=
  match w.pc with
  | .handing staged epoch => some (staged.generationId, epoch)
  | _ => w.awaited

/-- The delta machine has switched, and the publisher is about to hear of it. -/
def World.accepted (w : World) : Bool :=
  w.pending = none && w.result = some true &&
    match w.pc with
    | .handing _ _ | .retrying => true
    | _ => false

/-- The step takes from no committed publication its epoch or its generation. -/
def spares (w : World) : Action → Bool
  | .publish env =>
    match w.pc with
    | .already staged =>
      !env.ok && env.write = .failed ||
        staged.storeEpoch = w.epoch && w.opens staged.generationId
    | .committing staged _ => env.write = .failed || staged.storeEpoch = w.epoch
    | _ => true
  | .replace epoch => epoch ∈ w.epochs || w.waiting.isNone || w.accepted
  | .damage id => w.waiting.all (fun record => record.1 ≠ id) || w.accepted
  | .rebuild (some id) => w.waiting.all (fun record => record.1 = id) || w.accepted
  | _ => true

/-- The staging that a place of the cycle is about. -/
def PublisherPc.staged? : PublisherPc → Option Staged
  | .already s | .verifying s | .reading s | .building s _ | .committing s _ | .handing s _ => some s
  | _ => none

def PublisherPc.knows (epoch : Text) : PublisherPc → Prop
  | .building s e | .committing s e => s.storeEpoch = epoch → e = epoch
  | .handing s e => s.storeEpoch = e
  | _ => True

/-- What holds while every committed publication is spared. -/
structure Alive (w : World) : Prop where
  current : w.epoch ∈ w.epochs
  known : ∀ s, w.ready = some s ∨ w.pc.staged? = some s → s.storeEpoch ∈ w.epochs
  knows : w.pc.knows w.epoch
  /-- A staging is looked at when nothing waits. -/
  alone : w.pc.staged? ≠ none → w.awaited = none
  lives : ∀ record, w.waiting = some record → w.accepted = false →
    record.2 = w.epoch ∧ w.opens record.1 = true

section Life

variable {w : World}

theorem alive_created (epoch : Text) (manifest : Option Text) (generations : List Text) :
    Alive (World.created epoch manifest generations) where
  current := List.mem_singleton_self epoch
  known := fun _ hs => by rcases hs with hs | hs <;> cases hs
  knows := trivial
  alone := fun _ => rfl
  lives := fun _ hrecord => by cases hrecord

/-- A record that is queued touches the delta machine's queue only. -/
theorem enqueue_eq (record : Text × Text) :
    ∃ pending result, w.enqueue record = { w with pending := pending, result := result } ∧
      pending ≠ none := by
  unfold World.enqueue
  split
  · next queued hqueued => exact ⟨w.pending, w.result, rfl, by rw [hqueued]; exact nofun⟩
  · exact ⟨some record, none, rfl, nofun⟩

/-- The publisher at another place of `_publish_locked`, before the commit. -/
theorem Alive.at (h : Alive w) (hcall : w.pc.staged? ≠ none) {pc : PublisherPc}
    (hstaged : pc.staged? = w.pc.staged?) (hknows : pc.knows w.epoch)
    (hpc : ∀ s e, pc ≠ .handing s e) : Alive { w with pc := pc } := by
  have hawaited := h.alone hcall
  have hwaiting : ({ w with pc := pc } : World).waiting = none := by
    cases pc with
    | handing s e => exact absurd rfl (hpc s e)
    | _ => exact hawaited
  refine ⟨h.current, fun s hs => ?_, hknows, fun _ => hawaited, fun record hrecord => ?_⟩
  · rw [hstaged] at hs
    exact h.known s hs
  · rw [hwaiting] at hrecord
    cases hrecord

/-- The end of a cycle that committed nothing. -/
theorem Alive.refused (h : Alive w) (hcall : w.pc.staged? ≠ none) (staged : Staged) :
    Alive (w.finish staged false false) := by
  have hawaited := h.alone hcall
  refine ⟨h.current, fun s hs => ?_, trivial, fun hnone => absurd rfl hnone, fun record hrecord => ?_⟩
  · rcases hs with hs | hs
    · exact h.known s (Or.inl hs)
    · cases hs
  · have hrecord : w.awaited = some record := hrecord
    rw [hawaited] at hrecord
    cases hrecord

/-- The end of a cycle that committed a publication: what waits is its switch. -/
theorem Alive.committed (h : Alive w) (staged : Staged) {ok : Bool}
    (hlives : ok = false → staged.storeEpoch = w.epoch ∧ w.opens staged.generationId = true) :
    Alive (w.finish staged true ok) := by
  refine ⟨h.current, fun s hs => ?_, trivial, fun hnone => absurd rfl hnone,
    fun record hrecord _ => ?_⟩
  · rcases hs with hs | hs
    · exact h.known s (Or.inl hs)
    · cases hs
  · have hrecord : (w.finish staged true ok).awaited = some record := hrecord
    obtain ⟨hcommitted, hne⟩ := Option.filter_eq_some_iff.mp hrecord
    obtain rfl : (staged.generationId, staged.storeEpoch) = record := Option.some.inj hcommitted
    cases ok with
    | false => exact hlives rfl
    | true => exact absurd rfl (of_decide_eq_true hne)

/-- The record of a publication under way is queued. -/
theorem Alive.hand (h : Alive w) {staged : Staged} (hcall : w.pc.staged? = some staged)
    (hepoch : staged.storeEpoch = w.epoch) (hopens : w.opens staged.generationId = true) :
    Alive { w.enqueue (staged.generationId, w.epoch) with pc := .handing staged w.epoch } := by
  have hawaited := h.alone (by rw [hcall]; exact nofun)
  obtain ⟨pending, result, henqueue, hpending⟩ := enqueue_eq (w := w) (staged.generationId, w.epoch)
  rw [henqueue]
  refine ⟨h.current, fun s hs => ?_, hepoch, fun _ => hawaited, fun record hrecord _ => ?_⟩
  · rcases hs with hs | hs
    · exact h.known s (Or.inl hs)
    · cases hs
      exact h.known staged (Or.inr hcall)
  · cases hrecord
    exact ⟨rfl, hopens⟩

theorem Alive.cycle (h : Alive w) : Alive (cycle w) := by
  unfold Handoff.cycle
  split
  · exact h
  · next hidle =>
    have hidle : w.pc = .idle := not_not.mp hidle
    have hwaiting : w.waiting = w.awaited := by simp only [World.waiting, hidle]
    have hunaccepted : w.accepted = false := by simp [World.accepted, hidle]
    split
    · next record hrecord =>
      obtain ⟨pending, result, henqueue, hpending⟩ := enqueue_eq (w := w) record
      rw [henqueue]
      refine ⟨h.current, fun s hs => ?_, trivial, fun hnone => absurd rfl hnone,
        fun record' hrecord' _ => ?_⟩
      · rcases hs with hs | hs
        · exact h.known s (Or.inl hs)
        · cases hs
      · have hrecord' : w.awaited = some record' := hrecord'
        exact h.lives record' (hwaiting.trans hrecord') hunaccepted
    · next hnone =>
      split
      · exact h
      · next staged hready =>
        have hknown : staged.storeEpoch ∈ w.epochs := h.known staged (Or.inl hready)
        split
        · refine ⟨h.current, fun s hs => ?_, trivial, fun _ => hnone, fun record hrecord => ?_⟩
          · rcases hs with hs | hs
            · exact h.known s (Or.inl hs)
            · cases hs
              exact hknown
          · have hrecord : w.awaited = some record := hrecord
            rw [hnone] at hrecord
            cases hrecord
        · refine ⟨h.current, fun s hs => ?_, trivial, fun _ => hnone, fun record hrecord => ?_⟩
          · rcases hs with hs | hs
            · exact h.known s (Or.inl hs)
            · cases hs
              exact hknown
          · have hrecord : w.awaited = some record := hrecord
            rw [hnone] at hrecord
            cases hrecord

theorem opens_commit (staged : Staged) : (w.commit staged).opens staged.generationId = true := by
  simp [World.opens, World.commit]

theorem Alive.commit (h : Alive w) {staged : Staged} {epoch : Text}
    (hcall : w.pc.staged? = some staged) (hpc : w.pc = .committing staged epoch) :
    Alive (w.commit staged) := by
  refine ⟨h.current, h.known, h.knows, h.alone, fun record hrecord => ?_⟩
  have hrecord : w.waiting = some record := hrecord
  simp only [World.waiting, hpc, h.alone (by rw [hcall]; exact nofun)] at hrecord
  cases hrecord

theorem Alive.publish (h : Alive w) {env : StepEnv} (hspares : spares w (.publish env) = true) :
    Alive (publishStep env w) := by
  cases hpc : w.pc with
  | idle =>
    simp only [publishStep, hpc]
    exact h
  | retrying =>
    simp only [publishStep, hpc]
    exact h
  | handing staged epoch =>
    simp only [publishStep, hpc]
    exact h
  | already staged =>
    have hcall : w.pc.staged? = some staged := by rw [hpc]; rfl
    simp only [spares, hpc, Bool.or_eq_true, Bool.and_eq_true, Bool.not_eq_true',
      decide_eq_true_eq] at hspares
    simp only [publishStep, hpc]
    rcases hspares with ⟨hok, hwrite⟩ | ⟨hepoch, hopens⟩
    · rw [hok, hwrite]
      exact h.refused (by rw [hcall]; exact nofun) staged
    · split
      · exact h.hand hcall hepoch hopens
      · cases hwrite : decide (env.write ≠ .failed) with
        | true => exact h.committed staged fun _ => ⟨hepoch, hopens⟩
        | false => exact h.refused (by rw [hcall]; exact nofun) staged
  | verifying staged =>
    have hcall : w.pc.staged? ≠ none := by rw [hpc]; exact nofun
    simp only [publishStep, hpc]
    split
    · exact h.at hcall (by rw [hpc]; rfl) trivial nofun
    · exact h.refused hcall staged
  | reading staged =>
    have hcall : w.pc.staged? ≠ none := by rw [hpc]; exact nofun
    simp only [publishStep, hpc]
    split
    · exact h.at hcall (by rw [hpc]; rfl) (fun _ => rfl) nofun
    · exact h.refused hcall staged
  | building staged epoch =>
    have hcall : w.pc.staged? ≠ none := by rw [hpc]; exact nofun
    have hknows : staged.storeEpoch = w.epoch → epoch = w.epoch := by
      have := h.knows
      rw [hpc] at this
      exact this
    simp only [publishStep, hpc]
    split
    · exact h.at hcall (by rw [hpc]; rfl) hknows nofun
    · exact h.refused hcall staged
  | committing staged epoch =>
    have hcall : w.pc.staged? = some staged := by rw [hpc]; rfl
    have hknows : staged.storeEpoch = w.epoch → epoch = w.epoch := by
      have := h.knows
      rw [hpc] at this
      exact this
    simp only [spares, hpc, Bool.or_eq_true, decide_eq_true_eq] at hspares
    simp only [publishStep, hpc]
    cases hwrite : env.write with
    | failed => exact h.refused (by rw [hcall]; exact nofun) staged
    | committed =>
      have hepoch := hspares.resolve_left (by rw [hwrite]; exact nofun)
      exact (h.commit hcall hpc).committed staged fun _ => ⟨hepoch, opens_commit staged⟩
    | done =>
      have hepoch := hspares.resolve_left (by rw [hwrite]; exact nofun)
      rw [hknows hepoch]
      exact (h.commit hcall hpc).hand hcall hepoch (opens_commit staged)

/-- `publish_switch` returns; a machine that has switched is believed. -/
theorem Alive.respond (h : Alive w) {ok : Bool} (hok : ok = false → w.accepted = false) :
    Alive (respond ok w) := by
  unfold Handoff.respond
  split
  · next hpc =>
    have hwaiting : w.waiting = w.awaited := by simp only [World.waiting, hpc]
    refine ⟨h.current, fun s hs => ?_, trivial, fun hnone => absurd rfl hnone,
      fun record hrecord _ => ?_⟩
    · rcases hs with hs | hs
      · exact h.known s (Or.inl hs)
      · cases hs
    · cases ok with
      | true =>
        obtain ⟨hcommitted, hne⟩ := Option.filter_eq_some_iff.mp hrecord
        have hcommitted : w.committed = some record := hcommitted
        exact absurd (by simp [hcommitted]) (of_decide_eq_true hne)
      | false =>
        have hrecord : w.awaited = some record := hrecord
        exact h.lives record (hwaiting.trans hrecord) (hok rfl)
  · next staged epoch hpc =>
    have hknows : staged.storeEpoch = epoch := by
      have := h.knows
      rw [hpc] at this
      exact this
    refine h.committed staged fun hfailed => ?_
    obtain ⟨hepoch, hopens⟩ := h.lives (staged.generationId, epoch)
      (by simp only [World.waiting, hpc]) (hok hfailed)
    exact ⟨hknows.trans hepoch, hopens⟩
  · exact h

/-- A queued record is not yet accepted. -/
theorem accepted_of_pending (h : w.pending ≠ none) : w.accepted = false := by
  simp [World.accepted, h]

theorem Alive.worker (h : Alive w) (verifies : Bool) : Alive (performPublishSwitch verifies w) := by
  unfold performPublishSwitch
  split
  · exact h
  · next id expectedEpoch hpending =>
    have hunaccepted : w.accepted = false := accepted_of_pending (by rw [hpending]; exact nofun)
    split <;> exact ⟨h.current, h.known, h.knows, h.alone,
      fun record hrecord _ => h.lives record hrecord hunaccepted⟩

theorem Alive.rebuild (h : Alive w) {built : Option Text}
    (hspares : spares w (.rebuild built) = true) : Alive (performRebuild built w) := by
  unfold performRebuild
  cases hpending : w.pending with
  | some queued =>
    have hunaccepted : w.accepted = false := accepted_of_pending (by rw [hpending]; exact nofun)
    cases built with
    | none =>
      exact ⟨h.current, h.known, h.knows, h.alone,
        fun record hrecord _ => h.lives record hrecord hunaccepted⟩
    | some id =>
      refine ⟨h.current, h.known, h.knows, h.alone, fun record hrecord _ => ?_⟩
      have hrecord : w.waiting = some record := hrecord
      have hid : record.1 = id := by simpa [spares, hrecord, hunaccepted] using hspares
      exact ⟨(h.lives record hrecord hunaccepted).1, by simp [World.opens, hid]⟩
  | none =>
    cases built with
    | none =>
      refine ⟨h.current, h.known, h.knows, h.alone, fun record hrecord haccepted =>
        h.lives record hrecord ?_⟩
      rw [← haccepted]
      simp [World.accepted, hpending]
    | some id =>
      refine ⟨h.current, h.known, h.knows, h.alone, fun record hrecord haccepted => ?_⟩
      have hrecord : w.waiting = some record := hrecord
      have hunaccepted : w.accepted = false := by
        rw [← haccepted]
        simp [World.accepted, hpending]
      have hid : record.1 = id := by simpa [spares, hrecord, hunaccepted] using hspares
      exact ⟨(h.lives record hrecord hunaccepted).1, by simp [World.opens, hid]⟩

theorem Alive.replace (h : Alive w) {epoch : Text} (hnew : epoch ∉ w.epochs)
    (hspares : spares w (.replace epoch) = true) :
    Alive { w with epoch := epoch, epochs := epoch :: w.epochs } := by
  have hstale : ∀ s, w.pc.staged? = some s → s.storeEpoch ≠ epoch := fun s hs heq =>
    hnew (heq ▸ h.known s (Or.inr hs))
  refine ⟨List.mem_cons_self .., fun s hs => List.mem_cons_of_mem _ (h.known s hs), ?_, h.alone,
    fun record hrecord haccepted => ?_⟩
  · have hknows := h.knows
    show w.pc.knows epoch
    cases hpc : w.pc with
    | building s e => exact fun heq => absurd heq (hstale s (by rw [hpc]; rfl))
    | committing s e => exact fun heq => absurd heq (hstale s (by rw [hpc]; rfl))
    | handing s e =>
      rw [hpc] at hknows
      exact hknows
    | _ => trivial
  · have hrecord : w.waiting = some record := hrecord
    have haccepted : w.accepted = false := haccepted
    simp [spares, hnew, hrecord, haccepted] at hspares

theorem alive_step {a : Action} (hspares : spares w a = true) (h : Alive w) : Alive (step w a) := by
  cases a with
  | cycle => exact h.cycle
  | publish env => exact h.publish hspares
  | worker verifies => exact h.worker verifies
  | rebuild built => exact h.rebuild hspares
  | answer =>
    simp only [step]
    split
    · refine h.respond fun hok => ?_
      simp [World.accepted, of_decide_eq_false hok]
    · exact h
  | timeout =>
    simp only [step]
    split
    · next hpending => exact h.respond fun _ => accepted_of_pending hpending
    · exact h
  | replace epoch =>
    simp only [step]
    split
    · exact h
    · next hnew => exact h.replace hnew hspares
  | damage id =>
    refine ⟨h.current, h.known, h.knows, h.alone, fun record hrecord haccepted => ?_⟩
    have hrecord : w.waiting = some record := hrecord
    have haccepted : w.accepted = false := haccepted
    have hne : record.1 ≠ id := by simpa [spares, hrecord, haccepted] using hspares
    obtain ⟨hepoch, hopens⟩ := h.lives record hrecord haccepted
    simp only [World.opens, Bool.and_eq_true, decide_eq_true_eq] at hopens
    exact ⟨hepoch, by simp [step, World.opens, hne, hopens.1, hopens.2]⟩
  | stage ready =>
    simp only [step]
    split
    · next hready =>
      refine ⟨h.current, fun s hs => ?_, h.knows, h.alone, h.lives⟩
      rcases hs with hs | hs
      · have hs : ready = some s := hs
        rw [hs] at hready
        exact of_decide_eq_true hready
      · exact h.known s (Or.inr hs)
    · exact h
  | restart =>
    refine ⟨h.current, fun s hs => ?_, trivial, fun _ => rfl, fun record hrecord => ?_⟩
    · rcases hs with hs | hs <;> cases hs
    · cases hrecord

end Life

/-! ## The result -/

/-- The steps of the publisher and of the delta machine's worker. -/
def Action.own : Action → Bool
  | .cycle | .publish _ | .answer | .worker _ => true
  | _ => false

section Attempt

variable {w : World} {staged : Staged}

/-- A cycle with nothing to switch to looks at the staging that is ready. -/
theorem attempts_cycle (hidle : w.pc = .idle) (hnone : w.awaited = none)
    (hready : w.ready = some staged) : (cycle w).attempts = w.attempts ++ [staged] := by
  unfold cycle
  rw [if_neg (not_not.mpr hidle), hnone, hready]

/-- After a switch nothing is awaited. -/
theorem awaited_respond (hpc : w.pc = .retrying) : (respond true w).awaited = none := by
  unfold respond
  rw [hpc]
  show w.committed.filter (fun c => w.committed.map Prod.fst ≠ some c.1) = none
  cases w.committed with
  | none => rfl
  | some record => simp

/-- With an empty queue, a switch that the delta machine has to accept goes through in one cycle. -/
theorem attempts_of_empty (hidle : w.pc = .idle) {record : Text × Text}
    (hrecord : w.awaited = some record) (hepoch : record.2 = w.epoch)
    (hopens : w.opens record.1 = true) (hready : w.ready = some staged) (hempty : w.pending = none) :
    (Runs.run step w [.cycle, .worker true, .answer, .cycle]).attempts = w.attempts ++ [staged] := by
  have hcycle : cycle w = { w with pending := some record, result := none, pc := .retrying } := by
    unfold cycle
    rw [if_neg (not_not.mpr hidle), hrecord]
    simp only [World.enqueue, hempty]
  have hswitch : performPublishSwitch true (cycle w) =
      { w with pc := .retrying, pending := none, result := some true, served := some record.1 } := by
    have hopens' : (cycle w).opens record.1 ≠ false := by
      rw [hcycle]
      exact fun hclosed => Bool.noConfusion (hclosed.symm.trans hopens)
    rw [hcycle] at hopens' ⊢
    unfold performPublishSwitch
    simp only
    rw [if_neg (by simp [hepoch, hopens'])]
  show (cycle (step (performPublishSwitch true (cycle w)) .answer)).attempts = _
  rw [hswitch]
  simp only [step, if_true, decide_true]
  have hnone := awaited_respond (w := { w with
    pc := .retrying, pending := none, result := some true, served := some record.1 }) rfl
  rw [attempts_cycle rfl hnone hready]
  rfl

/-- A switch that the delta machine has to accept goes through in the next cycle, or in the one after
it if an older record was in the queue. -/
theorem attempts_retry (hidle : w.pc = .idle) {record : Text × Text}
    (hrecord : w.awaited = some record) (hepoch : record.2 = w.epoch)
    (hopens : w.opens record.1 = true) (hready : w.ready = some staged) :
    ∃ acts : List Action, (∀ a ∈ acts, a.own = true) ∧
      (Runs.run step w acts).attempts = w.attempts ++ [staged] := by
  cases hpending : w.pending with
  | none => exact ⟨_, by decide, attempts_of_empty hidle hrecord hepoch hopens hready hpending⟩
  | some queued =>
    have hcycle : cycle w = { w with pc := .retrying } := by
      unfold cycle
      rw [if_neg (not_not.mpr hidle), hrecord]
      simp only [World.enqueue, hpending]
    -- the machine answers to the older record first
    by_cases haccepts : w.epoch ≠ queued.2 ∨ w.opens queued.1 = false
    · refine ⟨[.cycle, .worker true, .answer, .cycle, .worker true, .answer, .cycle], by decide, ?_⟩
      have hround : Runs.run step w [.cycle, .worker true, .answer] =
          { w with pending := none, result := some false } := by
        show step (performPublishSwitch true (cycle w)) .answer = _
        have hswitch : performPublishSwitch true (cycle w) =
            { w with pc := .retrying, pending := none, result := some false } := by
          rw [hcycle]
          unfold performPublishSwitch
          simp only [hpending]
          refine if_pos ?_
          exact haccepts.imp_right Or.inl
        rw [hswitch]
        simp [step, respond, ← hidle]
      show (Runs.run step (Runs.run step w [.cycle, .worker true, .answer])
        [.cycle, .worker true, .answer, .cycle]).attempts = _
      rw [hround]
      exact attempts_of_empty (w := { w with pending := none, result := some false })
        hidle hrecord hepoch hopens hready rfl
    · refine ⟨[.cycle, .worker true, .answer, .cycle], by decide, ?_⟩
      have hswitch : performPublishSwitch true (cycle w) =
          { w with
            pc := .retrying, pending := none, result := some true, served := some queued.1 } := by
        rw [hcycle]
        unfold performPublishSwitch
        simp only [hpending]
        refine if_neg ?_
        rintro (hgone | hgone | hgone)
        · exact haccepts (Or.inl hgone)
        · exact haccepts (Or.inr hgone)
        · cases hgone
      show (cycle (step (performPublishSwitch true (cycle w)) .answer)).attempts = _
      rw [hswitch]
      simp only [step, if_true, decide_true]
      have hnone := awaited_respond (w := { w with
        pc := .retrying, pending := none, result := some true, served := some queued.1 }) rfl
      rw [attempts_cycle rfl hnone hready]
      rfl

end Attempt

/-- `n` is committed, and its switch times out. -/
def sampleTimeout : List Action :=
  [.stage (some ⟨ascii "n", ascii "e"⟩), .cycle] ++ List.replicate 4 (.publish {}) ++ [.timeout]

end Handoff
end Derived
end SemanticMemory
