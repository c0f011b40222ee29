import SemanticMemory.Maintenance.Coordinator

/-!
# The delta machine as builder and as recovery

The maintenance coordinator with the delta machine behind its two seams: the builder that `prepare`
quiesces, and the recovery object that `_recover` hands a changed epoch to (`daemon/coordinator.py`,
`daemon/delta.py`).

## What is modelled, and how

* `Worker` is the control state of `DeltaStateMachine`: its flags, what waits for its worker, and
  the place in `_cycle` or `_perform_rebuild` where the worker stands.  Of a generation and of a
  snapshot only the store epoch is kept; what a build, a batch or a switch comes to is an answer of
  the environment.
* The worker's code between two places reads or writes the machine once, under its lock, or works
  without touching what the seams touch.  The coordinator's methods may run in between.
* The completion callback is `complete_recovery`, run by the worker's thread as one of the
  coordinator's methods; the worker goes on when it has returned.
* `start` is left out: nothing calls it.  `owed` is history: the callbacks that were queued and have
  not been called.
-/

namespace SemanticMemory
namespace Maintenance

/-! ## The worker -/

inductive WorkerPc where
  /-- The top of the loop in `_run`. -/
  | top
  /-- `_cycle` has found a pending publish, of this epoch. -/
  | switch (expectedEpoch : Text)
  /-- `_cycle` has found nothing pending, and this snapshot. -/
  | identity (snapshot : Option Text)
  /-- `_perform_rebuild` is entered. -/
  | rebuild (pending : Option Text)
  /-- Everything derived is dropped. -/
  | building (pending : Option Text)
  | publish (pending : Option Text) (epoch : Text)
  /-- The snapshot is published, the callback not called yet. -/
  | callback (target : Text)
  /-- The callback runs, as this method of the coordinator. -/
  | calling (thread : ℕ)
  | batch
  | republish
  deriving DecidableEq

/-- Where `_perform_rebuild` goes on after the publication. -/
def WorkerPc.afterPublish : Option Text → WorkerPc
  | some target => .callback target
  | none => .top

/-- A queued callback that has not been called; `published` says that a snapshot of its epoch was
published since. -/
structure Debt where
  target : Text
  published : Bool
  deriving DecidableEq

/-- The control state of `DeltaStateMachine`. -/
structure Worker where
  closed : Bool := false
  /-- `_stop_event`. -/
  stopped : Bool := false
  /-- `_idle_event`. -/
  idle : Bool := false
  refused : Bool := false
  blocked : Bool := false
  generation : Option Text := none
  snapshot : Option Text := none
  pendingRebuild : Option Text := none
  pendingPublish : Option Text := none
  pc : WorkerPc := .top
  owed : List Debt := []

inductive Build where
  | built (storeEpoch : Text)
  | blocked
  | failed
  deriving DecidableEq

inductive Batch where
  | nothing
  | published
  | blocked
  | failed

/-- What the outside world answers to the worker. -/
structure WorkEnv where
  /-- The epoch of the facts, if they can be read. -/
  facts : Option Text := none
  /-- The declared generation, or a new one. -/
  build : Build := .failed
  /-- The projection of the snapshot goes through. -/
  projects : Bool := true
  batch : Batch := .nothing
  /-- The snapshot lags behind the mirror. -/
  lags : Bool := false
  /-- The published generation verifies. -/
  verifies : Bool := true

/-- A snapshot goes out. -/
def Worker.publishSnapshot (epoch : Option Text) (m : Worker) : Worker :=
  { m with
    snapshot := epoch
    owed := m.owed.map fun d => if some d.target = epoch then { d with published := true } else d }

def Worker.requestStop (m : Worker) : Worker := { m with stopped := true }

def Worker.invalidate (m : Worker) : Worker :=
  { m with snapshot := none, blocked := false, pendingPublish := none }

/-- `rebuild`, with `complete_recovery` as the callback. -/
def Worker.rebuild (target : Text) (m : Worker) : Worker :=
  if m.closed then m
  else
    { m with
      pendingRebuild := m.pendingRebuild.orElse fun _ => some target
      stopped := false
      owed := m.owed ++ [⟨target, false⟩] }

def Worker.retry (m : Worker) : Worker := if m.closed then m else { m with blocked := false }

def Worker.publishSwitch (expectedEpoch : Text) (m : Worker) : Worker :=
  if m.closed then m
  else { m with pendingPublish := m.pendingPublish.orElse fun _ => some expectedEpoch }

def Worker.close (m : Worker) : Worker :=
  { m with closed := true, stopped := true, snapshot := none }

/-- The start of `_cycle`. -/
def Worker.look (m : Worker) : WorkerPc :=
  match m.pendingPublish with
  | some expectedEpoch => .switch expectedEpoch
  | none =>
    if m.refused then .top
    else
      match m.pendingRebuild with
      | some target => .rebuild (some target)
      | none => if m.blocked then .top else .identity m.snapshot

/-- `_perform_publish_switch`. -/
def Worker.switch (env : WorkEnv) (expectedEpoch : Text) (m : Worker) : Worker :=
  let m := { m with pendingPublish := none, pc := .top }
  if env.facts ≠ some expectedEpoch ∨ env.verifies = false ∨ m.closed = true then m
  else
    { m.publishSnapshot expectedEpoch with
      generation := some expectedEpoch, blocked := false, refused := false }

/-- One stretch of code of the worker, the callback apart. -/
def Worker.work (env : WorkEnv) (m : Worker) : Worker :=
  match m.pc with
  | .top =>
    if m.closed then m
    else if m.stopped then { m with idle := true }
    else { m with idle := false, pc := m.look }
  | .switch expectedEpoch => m.switch env expectedEpoch
  | .identity snapshot =>
    match env.facts with
    | none => { m with pc := .top }
    | some epoch => { m with pc := if snapshot = some epoch then .batch else .rebuild none }
  | .rebuild pending =>
    if m.closed then { m with pc := .top }
    else
      { m with
        snapshot := none, blocked := false, pendingRebuild := none, pendingPublish := none
        pc := .building pending }
  | .building pending =>
    match env.build with
    | .built epoch => { m with pc := .publish pending epoch }
    | .blocked => { m with blocked := true, pc := .top }
    | .failed => { m with pc := .top }
  | .publish pending epoch =>
    if m.closed then { m with pc := .top }
    else if env.projects then
      { m.publishSnapshot (some epoch) with
        generation := some epoch, pc := .afterPublish pending }
    else { m with generation := some epoch, pc := .top }
  | .callback _ | .calling _ => m
  | .batch =>
    match env.batch, m.generation with
    | .published, some epoch => { m.publishSnapshot (some epoch) with pc := .republish }
    | .published, none => { m with pc := .top }
    | .nothing, _ => { m with pc := .republish }
    | .blocked, _ => { m with blocked := true, pc := .top }
    | .failed, _ => { m with pc := .top }
  | .republish =>
    match m.generation with
    | some epoch =>
      if (m.snapshot = none ∨ env.lags = true) ∧ env.projects = true then
        { m.publishSnapshot (some epoch) with pc := .top }
      else { m with pc := .top }
    | none => { m with pc := .top }

/-! ## The daemon -/

/-- The coordinator with the machine behind its seams. -/
structure Daemon where
  maintenance : World
  worker : Worker

/-- The delta machine in the registry of builders. -/
def machine : ℕ := 0

/-- What the machine answers to a method of the coordinator; nothing while `wait_idle` waits. -/
def Worker.answer (m : Worker) (env : Env) : Pc → Option Env
  | .prepare _ (.stop b _) =>
    some (if b = machine then { env with stoppable := true, raised := false } else env)
  | .prepare _ (.waitIdle b _) =>
    if b ≠ machine then some env
    else if m.idle ∨ ¬ env.idle then some { env with raised := false, idle := m.idle }
    else none
  | .recover _ (.invalidate ..) | .recover _ (.rebuild _) => some { env with raised := false }
  | _ => some env

/-- What a method of the coordinator does to the machine. -/
def Worker.seam (m : Worker) : Pc → Worker
  | .prepare _ (.stop b _) => if b = machine then m.requestStop else m
  | .recover _ (.invalidate ..) => m.invalidate
  | .recover _ (.rebuild target) => m.rebuild target
  | _ => m

def Pc.ended : Pc → Bool
  | .done | .answered _ | .returned _ | .opened _ => true
  | _ => false

namespace Daemon

/-- What can happen next. -/
inductive Action where
  | maintenance (a : Maintenance.Action)
  | work (env : WorkEnv)
  | retry
  | publishSwitch (expectedEpoch : Text)
  | closeMachine

/-- The worker calls `complete_recovery`, or comes back from it. -/
def work (env : WorkEnv) (d : Daemon) : Daemon :=
  match d.worker.pc with
  | .callback target =>
    { maintenance := d.maintenance.spawn (.complete target)
      worker :=
        { d.worker with
          pc := .calling d.maintenance.threads.length
          owed := d.worker.owed.filter fun debt => debt.target ≠ target } }
  | .calling thread =>
    if d.maintenance.threads[thread]?.any Pc.ended then
      { d with worker := { d.worker with pc := .top } }
    else d
  | _ => { d with worker := d.worker.work env }

def step (d : Daemon) : Action → Daemon
  | .maintenance (.advance i env) =>
    match d.maintenance.threads[i]? with
    | none => d
    | some pc =>
      match d.worker.answer env pc with
      | none => d
      | some env =>
        { maintenance := Maintenance.step d.maintenance (.advance i env)
          worker := d.worker.seam pc }
  | .maintenance (.complete _) => d
  | .maintenance a => { d with maintenance := Maintenance.step d.maintenance a }
  | .work env => d.work env
  | .retry => { d with worker := d.worker.retry }
  | .publishSwitch expectedEpoch => { d with worker := d.worker.publishSwitch expectedEpoch }
  | .closeMachine => { d with worker := d.worker.close }

/-- A daemon that has come up, with the machine registered as the builder. -/
def started (env : Env) (worker : Worker) : Daemon where
  maintenance :=
    Maintenance.step (Maintenance.started true env) (.registerBuilder machine)
  worker := { worker with pendingRebuild := none, pc := .top, owed := [] }

end Daemon

open Runs

/-! ## The completion callback -/

/-- The worker performs the rebuild that a callback was queued with. -/
def WorkerPc.carries (target : Text) : WorkerPc → Prop
  | .building pending | .publish pending _ => pending = some target
  | _ => False

def WorkerPc.free : WorkerPc → Bool
  | .building _ | .publish .. | .callback _ => false
  | _ => true

theorem WorkerPc.not_carries {pc : WorkerPc} (h : pc.free = true) (target : Text) :
    ¬ pc.carries target := by
  cases pc <;> first | exact id | cases h

theorem WorkerPc.ne_callback {pc : WorkerPc} (h : pc.free = true) (target : Text) :
    pc ≠ .callback target := by
  rintro rfl
  cases h

/-- Where a callback stands: it waits in `_pending_rebuild`, or the worker carries it, or the worker
has ended; only the one that is about to be called may be overdue. -/
def Worker.Owes (m : Worker) (debt : Debt) : Prop :=
  (debt.published = false ∧
    (m.pendingRebuild = some debt.target ∨ m.pc.carries debt.target ∨
      (m.closed = true ∧ m.pc = .top))) ∨
  m.pc = .callback debt.target

/-- What holds of the machine. -/
structure Worker.Inv (m : Worker) : Prop where
  owes : ∀ debt ∈ m.owed, m.Owes debt
  rebuild : ∀ target, m.pc = .rebuild (some target) → m.pendingRebuild = some target

/-- The snapshot of this epoch is not the business of a rebuild that is queued. -/
def Worker.MayPublish (m : Worker) (epoch : Option Text) : Prop :=
  ∀ target ∈ m.pendingRebuild, some target ≠ epoch

/-- The condition on a stretch of the worker's code: a queued rebuild does not fail, none is queued
behind the back of another one, and nothing else publishes a snapshot of its epoch. -/
def Worker.Sound (env : WorkEnv) (m : Worker) : Prop :=
  match m.pc with
  | .switch expectedEpoch => m.MayPublish (some expectedEpoch)
  | .rebuild none => m.closed = true ∨ m.pendingRebuild = none
  | .building (some _) => m.closed = true ∨ (env.build ≠ .blocked ∧ env.build ≠ .failed)
  | .publish pending epoch =>
    (pending = some epoch ∨ m.MayPublish (some epoch)) ∧ (pending = none ∨ env.projects = true)
  | .batch | .republish => m.MayPublish m.generation
  | _ => True

section Worker

variable {m m' : Worker}

/-- A step that publishes nothing. -/
theorem Worker.Inv.keep (hm : m.Inv) (howed : m'.owed = m.owed)
    (hpending : ∀ target, m.pendingRebuild = some target → (∃ debt ∈ m.owed, debt.target = target) →
      m'.pendingRebuild = some target ∨ m'.pc.carries target)
    (hcarries : ∀ target, m.pc.carries target → m'.pc.carries target ∨
      (m'.closed = true ∧ m'.pc = .top))
    (hended : m.closed = true → m.pc = .top → m'.closed = true ∧ m'.pc = .top)
    (hcallback : ∀ target, m.pc = .callback target → m'.pc = .callback target)
    (hrebuild : ∀ target, m'.pc = .rebuild (some target) → m'.pendingRebuild = some target) :
    m'.Inv where
  owes := by
    intro debt hdebt
    rw [howed] at hdebt
    rcases hm.owes debt hdebt with ⟨hpublished, h | h | ⟨hclosed, hpc⟩⟩ | h
    · refine Or.inl ⟨hpublished, ?_⟩
      rcases hpending _ h ⟨debt, hdebt, rfl⟩ with h | h
      · exact Or.inl h
      · exact Or.inr (Or.inl h)
    · exact Or.inl ⟨hpublished, Or.inr (hcarries _ h)⟩
    · exact Or.inl ⟨hpublished, Or.inr (Or.inr (hended hclosed hpc))⟩
    · exact Or.inr (hcallback _ h)
  rebuild := hrebuild

/-- A step that leaves the queue alone and moves the worker between places that carry nothing. -/
theorem Worker.Inv.move (hm : m.Inv) (howed : m'.owed = m.owed)
    (hpending : m'.pendingRebuild = m.pendingRebuild) (hfree : m.pc.free = true)
    (hended : m.closed = true → m.pc = .top → m'.closed = true ∧ m'.pc = .top)
    (hrebuild : ∀ target, m'.pc = .rebuild (some target) → m.pendingRebuild = some target) :
    m'.Inv :=
  hm.keep howed (fun _ h _ => Or.inl (hpending.trans h))
    (fun _ h => absurd h (WorkerPc.not_carries hfree _)) hended
    (fun _ h => absurd h (WorkerPc.ne_callback hfree _)) fun _ h => hpending.trans (hrebuild _ h)

/-- A publication of a snapshot that no queued rebuild waits for leaves the debts alone. -/
theorem Worker.Inv.owed_publishSnapshot (hm : m.Inv) {epoch : Option Text}
    (hpublish : m.MayPublish epoch) (hfree : m.pc.free = true) (htop : m.pc ≠ .top) :
    (m.publishSnapshot epoch).owed = m.owed := by
  refine (List.map_congr_left fun debt hdebt => ?_).trans (List.map_id _)
  rcases hm.owes debt hdebt with ⟨-, h | h | h⟩ | h
  · exact if_neg (hpublish _ h)
  · exact absurd h (WorkerPc.not_carries hfree _)
  · exact absurd h.2 htop
  · exact absurd h (WorkerPc.ne_callback hfree _)

/-- The rebuild publishes its snapshot, and goes on to the callback. -/
theorem Worker.Inv.published (hm : m.Inv) {pending : Option Text} {epoch : Text}
    (hpc : m.pc = .publish pending epoch)
    (hpublish : pending = some epoch ∨ m.MayPublish (some epoch)) (m' : Worker)
    (howed : m'.owed = (m.publishSnapshot (some epoch)).owed)
    (hpending : m'.pendingRebuild = m.pendingRebuild)
    (hnext : m'.pc = .afterPublish pending) :
    m'.Inv where
  owes := by
    intro debt' hdebt'
    rw [howed] at hdebt'
    obtain ⟨debt, hdebt, rfl⟩ := List.mem_map.mp hdebt'
    have htarget : (if some debt.target = some epoch then { debt with published := true }
        else debt).target = debt.target := by split_ifs <;> rfl
    rcases hm.owes debt hdebt with ⟨hpublished, h | h | h⟩ | h
    · by_cases hepoch : some debt.target = some epoch
      · rcases hpublish with hp | hp
        · refine Or.inr ?_
          rw [hnext, htarget, hp, ← hepoch]
          rfl
        · exact absurd hepoch (hp _ h)
      · rw [if_neg hepoch]
        exact Or.inl ⟨hpublished, Or.inl (hpending.trans h)⟩
    · refine Or.inr ?_
      rw [hpc] at h
      rw [hnext, htarget, show pending = some debt.target from h]
      rfl
    · rw [hpc] at h
      cases h.2
    · rw [hpc] at h
      cases h
  rebuild := by
    intro target h
    rw [hnext] at h
    cases pending <;> cases h

/-- What `_cycle` takes up is queued. -/
theorem Worker.look_rebuild {target : Text} (h : m.look = .rebuild (some target)) :
    m.pendingRebuild = some target := by
  unfold Worker.look at h
  cases hpublish : m.pendingPublish with
  | some epoch =>
    rw [hpublish] at h
    cases h
  | none =>
    rw [hpublish] at h
    by_cases hrefused : m.refused = true
    · simp only [hrefused, if_true] at h
      cases h
    · simp only [hrefused] at h
      cases hpending : m.pendingRebuild with
      | some t =>
        rw [hpending] at h
        injection h
      | none =>
        rw [hpending] at h
        simp only at h
        split_ifs at h

theorem Worker.Inv.work (hm : m.Inv) (env : WorkEnv) (hsound : m.Sound env) :
    (m.work env).Inv := by
  unfold Worker.Sound at hsound
  cases hpc : m.pc with (rw [hpc] at hsound; simp only [Worker.work, hpc])
  | top =>
    have hfree : m.pc.free = true := by rw [hpc]; rfl
    split_ifs with hclosed hstopped
    · exact hm
    · exact hm.move rfl rfl hfree (fun h _ => ⟨h, rfl⟩) nofun
    · exact hm.move rfl rfl hfree (fun h _ => absurd h hclosed) fun _ => Worker.look_rebuild
  | switch expectedEpoch =>
    have hfree : m.pc.free = true := by rw [hpc]; rfl
    have htop : m.pc ≠ .top := by rw [hpc]; exact nofun
    simp only [Worker.switch]
    split_ifs
    · exact hm.move rfl rfl hfree (fun _ h => absurd h htop) nofun
    · exact hm.move (hm.owed_publishSnapshot hsound hfree htop) rfl hfree
        (fun _ h => absurd h htop) nofun
  | identity snapshot =>
    have hfree : m.pc.free = true := by rw [hpc]; rfl
    have htop : m.pc ≠ .top := by rw [hpc]; exact nofun
    split
    · exact hm.move rfl rfl hfree (fun _ h => absurd h htop) nofun
    · refine hm.move rfl rfl hfree (fun _ h => absurd h htop) fun target h => ?_
      simp only at h
      split_ifs at h
      cases h
  | rebuild pending =>
    have hfree : m.pc.free = true := by rw [hpc]; rfl
    have htop : m.pc ≠ .top := by rw [hpc]; exact nofun
    split_ifs with hclosed
    · exact hm.move rfl rfl hfree (fun _ h => absurd h htop) nofun
    · refine hm.keep rfl (fun target h _ => Or.inr ?_)
        (fun _ h => absurd h (WorkerPc.not_carries hfree _)) (fun _ h => absurd h htop)
        (fun _ h => absurd h (WorkerPc.ne_callback hfree _)) nofun
      cases pending with
      | none => exact absurd ((hsound.resolve_left hclosed).symm.trans h) nofun
      | some t => exact (hm.rebuild t hpc).symm.trans h
  | building pending =>
    have htop : m.pc ≠ .top := by rw [hpc]; exact nofun
    have hcallback (target) : m.pc ≠ .callback target := by rw [hpc]; exact nofun
    -- a rebuild that a callback waits for fails only where the machine is closed
    have hlost (target : Text) (h : m.pc.carries target)
        (hend : env.build = .blocked ∨ env.build = .failed) : m.closed = true := by
      rw [hpc] at h
      rw [show pending = some target from h] at hsound
      exact hsound.resolve_right fun hok => hend.elim hok.1 hok.2
    cases hbuild : env.build with
    | built epoch =>
      refine hm.keep rfl (fun _ h _ => Or.inl h) (fun target h => Or.inl ?_)
        (fun _ h => absurd h htop) (fun _ h => absurd h (hcallback _)) nofun
      rw [hpc] at h
      exact h
    | blocked =>
      exact hm.keep rfl (fun _ h _ => Or.inl h)
        (fun target h => Or.inr ⟨hlost target h (Or.inl hbuild), rfl⟩)
        (fun _ h => absurd h htop) (fun _ h => absurd h (hcallback _)) nofun
    | failed =>
      exact hm.keep rfl (fun _ h _ => Or.inl h)
        (fun target h => Or.inr ⟨hlost target h (Or.inr hbuild), rfl⟩)
        (fun _ h => absurd h htop) (fun _ h => absurd h (hcallback _)) nofun
  | publish pending epoch =>
    have htop : m.pc ≠ .top := by rw [hpc]; exact nofun
    have hcallback (target) : m.pc ≠ .callback target := by rw [hpc]; exact nofun
    split_ifs with hclosed hprojects
    · exact hm.keep rfl (fun _ h _ => Or.inl h) (fun _ _ => Or.inr ⟨hclosed, rfl⟩)
        (fun _ h => absurd h htop) (fun _ h => absurd h (hcallback _)) nofun
    · exact hm.published hpc hsound.1 _ rfl rfl rfl
    · refine hm.keep rfl (fun _ h _ => Or.inl h) (fun target h => ?_) (fun _ h => absurd h htop)
        (fun _ h => absurd h (hcallback _)) nofun
      rw [hpc] at h
      rcases hsound.2 with hnone | hok
      · exact absurd (hnone.symm.trans h) nofun
      · exact absurd hok hprojects
  | callback target | calling thread => exact hm
  | batch =>
    have hfree : m.pc.free = true := by rw [hpc]; rfl
    have htop : m.pc ≠ .top := by rw [hpc]; exact nofun
    split
    · next epoch _ hgeneration =>
      rw [hgeneration] at hsound
      exact hm.move (hm.owed_publishSnapshot hsound hfree htop) rfl hfree
        (fun _ h => absurd h htop) nofun
    all_goals exact hm.move rfl rfl hfree (fun _ h => absurd h htop) nofun
  | republish =>
    have hfree : m.pc.free = true := by rw [hpc]; rfl
    have htop : m.pc ≠ .top := by rw [hpc]; exact nofun
    split
    · next epoch hgeneration =>
      rw [hgeneration] at hsound
      split_ifs
      · exact hm.move (hm.owed_publishSnapshot hsound hfree htop) rfl hfree
          (fun _ h => absurd h htop) nofun
      · exact hm.move rfl rfl hfree (fun _ h => absurd h htop) nofun
    · exact hm.move rfl rfl hfree (fun _ h => absurd h htop) nofun

/-- The epoch that a recovery is about to queue a rebuild for. -/
def Pc.queues : Pc → Option Text
  | .recover _ (.rebuild target) => some target
  | _ => none

theorem Worker.Inv.seam (hm : m.Inv) {pc : Pc}
    (hqueue : ∀ target ∈ pc.queues, m.closed = true ∨ ∀ queued ∈ m.pendingRebuild, queued = target) :
    (m.seam pc).Inv := by
  have hsame {m' : Worker} (howed : m'.owed = m.owed) (hpending : m'.pendingRebuild = m.pendingRebuild)
      (hpc : m'.pc = m.pc) (hclosed : m'.closed = m.closed) : m'.Inv :=
    hm.keep howed (fun _ h _ => Or.inl (hpending.trans h)) (fun _ h => Or.inl (hpc ▸ h))
      (fun h h' => ⟨hclosed.trans h, hpc.trans h'⟩) (fun _ h => hpc.trans h)
      fun target h => hpending.trans (hm.rebuild target (hpc.symm.trans h))
  unfold Worker.seam
  split
  · split_ifs
    · exact hsame rfl rfl rfl rfl
    · exact hm
  · exact hsame rfl rfl rfl rfl
  · next started target =>
    unfold Worker.rebuild
    split_ifs with hclosed
    · exact hm
    · have hqueued := (hqueue target rfl).resolve_left hclosed
      have hpending : (m.pendingRebuild.orElse fun _ => some target) = some target := by
        cases h : m.pendingRebuild with
        | none => rfl
        | some queued => rw [hqueued queued h]; rfl
      refine ⟨fun debt hdebt => ?_, fun t h => ?_⟩
      · rcases List.mem_append.mp hdebt with hdebt | hdebt
        · rcases hm.owes debt hdebt with ⟨hpublished, h | h | h⟩ | h
          · exact Or.inl ⟨hpublished, Or.inl (hpending.trans (by rw [hqueued _ h]))⟩
          · exact Or.inl ⟨hpublished, Or.inr (Or.inl h)⟩
          · exact absurd h.1 hclosed
          · exact Or.inr h
        · rw [List.mem_singleton.mp hdebt]
          exact Or.inl ⟨rfl, Or.inl hpending⟩
      · have := hm.rebuild t h
        exact hpending.trans (by rw [hqueued t this])
  · exact hm

end Worker

namespace Daemon

/-- Whenever a snapshot of the coordinator's target epoch has been published since a rebuild was
queued for it, the callback has been called, or the worker is just about to call it. -/
def Reported (d : Daemon) : Prop :=
  ∀ debt ∈ d.worker.owed, d.maintenance.coordinator.targetEpoch = some debt.target →
    debt.published = true → d.worker.pc = .callback debt.target

/-- The condition on a step. -/
def Sound (d : Daemon) : Action → Prop
  | .work env => d.worker.Sound env
  | .maintenance (.advance i _) =>
    ∀ pc ∈ d.maintenance.threads[i]?, ∀ target ∈ pc.queues,
      d.worker.closed = true ∨ ∀ queued ∈ d.worker.pendingRebuild, queued = target
  | _ => True

theorem inv_step {d : Daemon} (hd : d.worker.Inv) {a : Action} (ha : d.Sound a) :
    (step d a).worker.Inv := by
  have hsame {m' : Worker} (howed : m'.owed = d.worker.owed)
      (hpending : m'.pendingRebuild = d.worker.pendingRebuild) (hpc : m'.pc = d.worker.pc)
      (hclosed : d.worker.closed = true → m'.closed = true) : m'.Inv :=
    hd.keep howed (fun _ h _ => Or.inl (hpending.trans h)) (fun _ h => Or.inl (hpc ▸ h))
      (fun h h' => ⟨hclosed h, hpc.trans h'⟩) (fun _ h => hpc.trans h)
      fun target h => hpending.trans (hd.rebuild target (hpc.symm.trans h))
  cases a with
  | maintenance a =>
    cases a with
    | advance i env =>
      simp only [step]
      split
      · exact hd
      · next pc hpc =>
        split
        · exact hd
        · exact hd.seam (ha pc hpc)
    | beginRequest | openFactHandle | closeHandle | registerBuilder | unregisterBuilder | prepare
    | assertPrepared | reopen | leaseLost | complete | close => exact hd
  | work env =>
    simp only [step, work]
    split
    · next target hpc =>
      refine ⟨fun debt hdebt => ?_, nofun⟩
      obtain ⟨hdebt, hne⟩ := List.mem_filter.mp hdebt
      rcases hd.owes debt hdebt with ⟨hpublished, h | h | h⟩ | h
      · exact Or.inl ⟨hpublished, Or.inl h⟩
      · exact absurd h (by rw [hpc]; exact id)
      · exact absurd (hpc.symm.trans h.2) nofun
      · rw [hpc] at h
        injection h with h
        exact absurd h.symm (of_decide_eq_true hne)
    · next thread hpc =>
      have hfree : d.worker.pc.free = true := by rw [hpc]; rfl
      split_ifs
      · exact hd.move rfl rfl hfree (fun _ h => absurd (hpc.symm.trans h) nofun) nofun
      · exact hd
    · exact hd.work env ha
  | retry =>
    simp only [step, Worker.retry]
    split_ifs
    · exact hd
    · exact hsame rfl rfl rfl id
  | publishSwitch expectedEpoch =>
    simp only [step, Worker.publishSwitch]
    split_ifs
    · exact hd
    · exact hsame rfl rfl rfl id
  | closeMachine => exact hsame rfl rfl rfl fun _ => rfl

/-- **Epoch recovery reports its completion.**  In every run of the coordinator and the worker in
which no queued rebuild fails, none is queued behind another or in front of a rebuild the worker has
begun by itself, and only the rebuild publishes a snapshot of its epoch. -/
theorem recovery_reported (env : Env) (worker : Worker) (as : List Action)
    (has : Along step Sound (started env worker) as) :
    (run step (started env worker) as).Reported := by
  have hstart : (started env worker).worker.Inv :=
    ⟨List.forall_mem_nil _, nofun⟩
  have hrun := run_invariant_along (I := fun d => d.worker.Inv) (fun _ _ ha hd => inv_step hd ha)
    hstart has
  intro debt hdebt _ hpublished
  rcases hrun.owes debt hdebt with ⟨h, -⟩ | h
  · exact absurd (h.symm.trans hpublished) (by decide)
  · exact h

/-! ## A callback that is lost -/

/-- An identity of the store that can be read. -/
def identityOf (epoch : String) : Maintenance.Env := { identity := some ⟨ascii epoch, 1, 0⟩ }

/-- A maintenance is prepared: the worker is stopped, and unregistered. -/
def prepareRun : List Action :=
  .maintenance (.prepare (ascii "op") (some 0) false) ::
    List.replicate 4 (.maintenance (.advance 0 (identityOf "e"))) ++ [.work {}] ++
    List.replicate 12 (.maintenance (.advance 0 (identityOf "e")))

/-- It is reopened on a store of another epoch: the recovery invalidates, and queues the rebuild. -/
def changedRun : List Action :=
  prepareRun ++ .maintenance (.reopen (ascii "op") (some 0)) ::
    List.replicate 9 (.maintenance (.advance 1 (identityOf "f")))

/-- The machine before the maintenance. -/
def sampleWorker : Worker := { generation := some (ascii "e"), snapshot := some (ascii "e") }

/-- The worker rebuilds. -/
def rebuiltRun : List Action :=
  changedRun ++ List.replicate 5 (.work { build := .built (ascii "f") }) ++
    List.replicate 3 (.maintenance (.advance 2 (identityOf "f"))) ++ [.work {}]

/-- The first build fails, and the next cycle rebuilds by itself. -/
def failedRun : List Action :=
  changedRun ++ List.replicate 3 (.work { build := .failed }) ++
    List.replicate 5 (.work { facts := some (ascii "f"), build := .built (ascii "f") })

instance decidableMayPublish (m : Worker) (epoch : Option Text) : Decidable (m.MayPublish epoch) :=
  inferInstanceAs (Decidable (∀ _ ∈ _, _))

instance decidableWorkerSound (env : WorkEnv) (m : Worker) : Decidable (m.Sound env) :=
  match h : m.pc with
  | .switch _ => decidable_of_iff (m.MayPublish _) (by unfold Worker.Sound; rw [h])
  | .rebuild none =>
    decidable_of_iff (m.closed = true ∨ m.pendingRebuild = none) (by unfold Worker.Sound; rw [h])
  | .building (some _) =>
    decidable_of_iff (m.closed = true ∨ (env.build ≠ .blocked ∧ env.build ≠ .failed))
      (by unfold Worker.Sound; rw [h])
  | .publish pending epoch =>
    decidable_of_iff ((pending = some epoch ∨ m.MayPublish (some epoch)) ∧
      (pending = none ∨ env.projects = true)) (by unfold Worker.Sound; rw [h])
  | .batch => decidable_of_iff (m.MayPublish m.generation) (by unfold Worker.Sound; rw [h])
  | .republish => decidable_of_iff (m.MayPublish m.generation) (by unfold Worker.Sound; rw [h])
  | .top | .identity _ | .rebuild (some _) | .building none | .callback _ | .calling _ =>
    isTrue (by unfold Worker.Sound; rw [h]; trivial)

instance decidableSound (d : Daemon) : ∀ a : Action, Decidable (d.Sound a)
  | .work env => decidableWorkerSound env d.worker
  | .maintenance (.advance ..) => inferInstanceAs (Decidable (∀ _ ∈ _, ∀ _ ∈ _, _ ∨ ∀ _ ∈ _, _))
  | .maintenance .beginRequest | .maintenance .openFactHandle | .maintenance (.closeHandle _)
  | .maintenance (.registerBuilder _) | .maintenance (.unregisterBuilder _)
  | .maintenance (.prepare ..) | .maintenance (.assertPrepared ..) | .maintenance (.reopen ..)
  | .maintenance (.leaseLost ..) | .maintenance (.complete _) | .maintenance .close
  | .retry | .publishSwitch _ | .closeMachine => isTrue trivial

theorem recovery_reported_sample :
    (run step (started (identityOf "e") sampleWorker) rebuiltRun).maintenance.coordinator.state =
        .serving ∧
      (run step (started (identityOf "e") sampleWorker) rebuiltRun).Reported :=
  ⟨by decide +kernel,
    recovery_reported (identityOf "e") sampleWorker rebuiltRun (by decide +kernel)⟩

/-- **The callback is lost with the rebuild that failed.**  The snapshot of the new epoch is served,
and the coordinator stays in `catching_up`. -/
theorem recovery_lost :
    (run step (started (identityOf "e") sampleWorker) failedRun).maintenance.coordinator.state =
        .catchingUp ∧
      (run step (started (identityOf "e") sampleWorker) failedRun).worker.snapshot =
        some (ascii "f") ∧
      ¬ (run step (started (identityOf "e") sampleWorker) failedRun).Reported := by
  refine ⟨by decide +kernel, by decide +kernel, fun h => ?_⟩
  have := h ⟨ascii "f", true⟩ (by decide +kernel) (by decide +kernel) rfl
  exact absurd this (by decide +kernel)

end Daemon

end Maintenance
end SemanticMemory
