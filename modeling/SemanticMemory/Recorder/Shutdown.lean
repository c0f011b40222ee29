import SemanticMemory.Recorder.Counted

/-!
# Loss at shutdown

When a shutdown begins, the queue is moved into the pending gap, and the worker leaves only after it
has found the pending gap empty.  Whatever was submitted by then is persisted or recorded.  But a
submission may still arrive after that last look: `EnqueueOrGap` adds it to `pending_gap_` and wakes
nobody, the marker is gone, and the item is lost without a trace (`silent_loss`).

`no_silent_loss` proves the contract for every run without such a late submission.
-/

namespace SemanticMemory
namespace Recorder

open Runs

/-! ## The contract -/

/-- Every durable call of the step succeeds. -/
def WorkerEnv.durableOk (env : WorkerEnv) : Bool :=
  env.marker.created &&
  (env.ensure.lockOpen = .opened && env.ensure.listOk && env.ensure.readOk &&
    env.ensure.lockReadOk && env.ensure.lockWrite = .ok && env.ensure.jsonWrite = .ok) &&
  env.markerWrite = .ok && env.intent.created &&
  (env.update.lockOpen = .opened && env.update.lockUnknown = .ok && env.update.readOk &&
    env.update.jsonUnknown = .ok && env.update.jsonPresent = .ok && env.update.lockPresent = .ok) &&
  (env.markUnknown.lockOpen = .opened && env.markUnknown.lockUnknown = .ok &&
    env.markUnknown.readOk && env.markUnknown.jsonUnknown = .ok) &&
  env.removeIntent = .ok && env.removeMarker = .ok

/-- The durable gap and marker operations succeed, and the process lives.  What the fact store does
with an item is not restricted. -/
def Durable (_ : World) : Action → Prop
  | .worker _ env => env.durableOk = true
  | .crash => False
  | _ => True

instance decidableDurable (w : World) : (a : Action) → Decidable (Durable w a)
  | .worker _ env => inferInstanceAs (Decidable (env.durableOk = true))
  | .crash => isFalse id
  | .forRoot | .submitBatch .. | .submitRetraction .. | .shutdownAll | .shutdown | .shutdownDone =>
    isTrue trivial

/-- No non-empty submission reaches a coordinator whose worker has stopped. -/
def Timely (w : World) (a : Action) : Prop :=
  ∀ c ∈ a.target.bind fun i => w.coordinators[i]?, c.workerStopped = false

instance (w : World) (a : Action) : Decidable (Timely w a) :=
  inferInstanceAs (Decidable (∀ c ∈ a.target.bind fun i => w.coordinators[i]?, _))

/-- An intent, an unknown gap lock or a process marker that is not clean. -/
def Evidence (d : Disk) : Prop :=
  d.intents ≠ [] ∨ d.lock = .unknown ∨ ∃ m ∈ d.markers, m.state ≠ .clean

instance (d : Disk) : Decidable (Evidence d) := inferInstanceAs (Decidable (_ ∨ _ ∨ _))

/-- Nothing that was submitted to the coordinator is lost silently: there is evidence on disk, or
what was not persisted went through `UpdateGap`, and the record counts every gap taken. -/
def Saved (w : World) (c : Coordinator) : Prop :=
  Evidence w.disk ∨
    c.ledger.submitted.Perm (c.ledger.persisted ++ c.ledger.recorded) ∧
    (∀ k, totals c.ledger.dropped k ≤ int64Max →
      gapTotals c.ledger.taken k = totals c.ledger.recorded k) ∧
    ∀ k, w.disk.counts k = w.counted k

/-! ## A stopped worker -/

/-- A worker that has stopped left nothing behind. -/
def Quit (c : Coordinator) : Prop :=
  c.workerStopped = true → c.pc = .stopped ∧ c.queue = [] ∧ c.ledger.pendingItems = []

theorem enqueueOrGap_workerStopped (item : Item) (c : Coordinator) :
    (enqueueOrGap item c).1.workerStopped = c.workerStopped := by
  unfold enqueueOrGap
  simp only
  split
  · rfl
  split
  · rfl
  split <;> rfl

theorem moveQueued_workerStopped (items : List Item) (c : Coordinator) :
    (moveQueued items c).workerStopped = c.workerStopped := by
  induction items generalizing c with
  | nil => rfl
  | cons item rest ih =>
    unfold moveQueued
    rw [ih]
    unfold Coordinator.removeFrontLocked
    split <;> rfl

variable {c : Coordinator}

/-- The worker leaves with an empty queue and an empty pending gap. -/
theorem takeWork_quit (how : Unlink) (d : Disk) (h : Conserved c) (hpc : c.pc = .ready)
    (hrunning : c.workerStopped = false) : Quit (takeWork how c d).1 := by
  unfold takeWork
  split
  · intro hs
    rw [hrunning] at hs
    cases hs
  · rename_i hwork
    simp only
    by_cases hstopping : c.stopping = true
    · rw [if_pos hstopping]
      obtain ⟨hmoved, hqueue, -⟩ := moveQueued_spec c.queue h hpc rfl
      have hrun := (moveQueued_workerStopped c.queue c).trans hrunning
      unfold Coordinator.moveQueuedItemsToShutdownGapLocked
      generalize moveQueued c.queue c = moved at hmoved hqueue hrun ⊢
      split
      · intro hs
        simp only [hrun] at hs
        cases hs
      · rename_i hempty
        have hitems := hmoved.pendingEmpty.mp (by simpa using hempty)
        split
        · intro _
          unfold workerCleanup
          split <;> exact ⟨rfl, hqueue, hitems⟩
        · split
          · intro hs
            simp only [hrun] at hs
            cases hs
          · intro hs
            rw [hrun] at hs
            cases hs
    · rw [if_neg hstopping]
      split
      · intro hs
        simp only [hrunning] at hs
        cases hs
      · split
        · intro hs
          simp only [hrunning] at hs
          cases hs
        · intro hs
          rw [hrunning] at hs
          cases hs

theorem workerStep_workerStopped (env : WorkerEnv) (d : Disk) (hpc : c.pc ≠ .ready) :
    (workerStep env c d).1.workerStopped = c.workerStopped := by
  have hmarker := attemptCreateProcessMarker_frame env.marker c d
  have hensure := attemptEnsureGapState_frame env.ensure c d
  have hwrite := writeProcessMarkerFromWorker_frame
  have hremove : c.removeFrontLocked.workerStopped = c.workerStopped := by
    unfold Coordinator.removeFrontLocked
    split <;> rfl
  unfold workerStep
  split
  case h_1 => obtain ⟨m, clean, hm⟩ := hmarker; simp only [hm]
  case h_2 => obtain ⟨ready, hr⟩ := hensure; simp only [hr]
  case h_3 hready => exact absurd hready hpc
  case h_4 => obtain ⟨m, clean, hm⟩ := hmarker; simp only [hm]
  case h_5 work _ => obtain ⟨ready, hr⟩ := hensure; cases work <;> simp only [hr]
  case h_6 => obtain ⟨clean, hw⟩ := hwrite .pending false env.markerWrite c d; simp only [hw]
  case h_7 =>
    split
    · rfl
    · simp only
      split <;> rfl
  case h_8 =>
    simp only
    split <;> rfl
  case h_9 => rfl
  case h_10 => rfl
  case h_11 persisted _ =>
    obtain ⟨clean, hw⟩ := hwrite (if persisted then .clean else .unknown) persisted
      env.markerWrite c d
    simp only [hw]
  case h_12 item _ =>
    cases env.persist <;> simp [afterPersist, Coordinator.addGap, hremove]
  case h_13 => rfl

theorem workerStep_quit (env : WorkerEnv) (d : Disk) (h : Conserved c) (hq : Quit c) :
    Quit (workerStep env c d).1 := by
  by_cases hready : c.pc = .ready
  · have hrunning : c.workerStopped = false := by
      by_contra hs
      have := (hq (by simpa using hs)).1
      rw [hready] at this
      cases this
    have hstep : workerStep env c d = takeWork env.removeMarker c d := by
      unfold workerStep
      rw [hready]
    rw [hstep]
    exact takeWork_quit env.removeMarker d h hready hrunning
  · intro hs
    rw [workerStep_workerStopped env d hready] at hs
    obtain ⟨hpc, hqueue, hitems⟩ := hq hs
    have hstep : workerStep env c d = (c, d) := by
      unfold workerStep
      rw [hpc]
    rw [hstep]
    exact ⟨hpc, hqueue, hitems⟩

/-! ## The invariant of a timely, durable run -/

/-- Nothing was given up, and no worker is about to mark the record unknown. -/
structure Settled (w : World) : Prop where
  exact : Exact w
  nothingLost : ∀ c ∈ w.coordinators,
    c.ledger.unrecorded = [] ∧ ∀ gap, c.pc ≠ .markUnknown gap

/-- The invariant of the contract. -/
structure Calm (w : World) : Prop where
  names : Names w
  coordinators : ∀ c ∈ w.coordinators, Conserved c ∧ Quit c
  settled : Orphan w ∨ Settled w

theorem durableOk_intent {env : WorkerEnv} (h : env.durableOk = true) : env.intent.created = true := by
  simp only [WorkerEnv.durableOk, Bool.and_eq_true] at h
  exact h.1.1.1.1.2

theorem settled_step {w : World} (a : Action) (hnames : Names w) (h : Settled w)
    (hdurable : Durable w a) : Orphan (step w a) ∨ Settled (step w a) := by
  have hcrash : a ≠ .crash := by
    rintro rfl
    exact hdurable
  have hmark : ∀ i env c gap, a = .worker i env → w.coordinators[i]? = some c →
      c.pc ≠ .markUnknown gap := fun i env c gap _ hget =>
    (h.nothingLost c (List.mem_of_getElem? hget)).2 gap
  rcases exact_step a hnames h.exact hmark (fun ha => absurd ha hcrash) with hexact | horphan
  · refine or_iff_not_imp_left.mpr fun horphan => ⟨hexact, ?_⟩
    cases step_worldStep w a hnames.fresh with
    | idle coordinators disk takenBefore =>
      rw [coordinators]
      exact h.nothingLost
    | queued i c c' get coordinators disk takenBefore pc taken recorded unrecorded =>
      rw [coordinators]
      refine Components.forall_mem_set h.nothingLost ?_
      rw [pc, unrecorded]
      exact h.nothingLost c (List.mem_of_getElem? get)
    | created coordinators disk takenBefore =>
      rw [coordinators]
      intro c hc
      rcases List.mem_append.mp hc with hc | hc
      · exact h.nothingLost c hc
      · rw [List.mem_singleton.mp hc]
        exact ⟨rfl, by rintro _ ⟨⟩⟩
    | worked i env c c' action get coordinators gap takenBefore =>
      have hmem := List.mem_of_getElem? get
      obtain ⟨hlost, hcalm⟩ := h.nothingLost c hmem
      rw [coordinators]
      refine Components.forall_mem_set h.nothingLost ?_
      cases gap with
      | other files uncounted held taken recorded unrecorded calm =>
        exact ⟨unrecorded.trans hlost, calm⟩
      | took gap pc pc' disk taken recorded unrecorded =>
        exact ⟨unrecorded.trans hlost, by rw [pc']; rintro _ ⟨⟩⟩
      | intentCreated gap name pc pc' mem fresh grows below next json lock ledger =>
        exact ⟨by rw [ledger]; exact hlost, by rw [pc']; rintro _ ⟨⟩⟩
      | intentRefused gap pc intent pc' refused grows below next json lock ledger =>
        rw [action] at hdurable
        rw [durableOk_intent hdurable] at refused
        cases refused
      | updated gap pc pc' disk ok ledger =>
        exact ⟨by rw [ledger]; exact hlost, by rw [pc']; rintro _ ⟨⟩⟩
      | updateFailed gap pc pc' disk ledger =>
        -- the intent of the failed update is an orphan
        obtain ⟨name, hname⟩ := Option.isSome_iff_exists.mp
          ((hnames.fresh c hmem).held gap (Or.inl pc))
        have hheld : c.pc.held = some name := by rw [pc]; exact hname
        refine absurd (orphan_of_release hnames get coordinators hheld (by rw [pc']; rfl) ?_)
          horphan
        rw [disk, (updateGap_spec env.update gap.reason gap.counts w.disk).intents]
        exact hnames.held c hmem name hheld
      | marked gap pc pc' disk ledger => exact absurd pc (hcalm gap)
      | removed gap pc persisted pc' disk ledger =>
        exact ⟨by rw [ledger]; exact hlost, by rw [pc']; rintro _ ⟨⟩⟩
    | crashed action coordinators files takenBefore => exact absurd action hcrash
  · exact Or.inl horphan

theorem calm_step {w : World} {a : Action} (hdurable : Durable w a) (htimely : Timely w a)
    (h : Calm w) : Calm (step w a) := by
  refine ⟨names_step a h.names, ?_, ?_⟩
  · refine coordinators_step a ⟨conserved_new, nofun⟩ (fun item i c htarget hget hc => ?_)
      (fun c hc => ⟨hc.1.congr rfl rfl rfl rfl rfl rfl rfl, hc.2⟩)
      (fun env c d hc => ⟨workerStep_conserved env d hc.1, workerStep_quit env d hc.1 hc.2⟩)
      h.coordinators
    refine ⟨hc.1.enqueueOrGap item, fun hs => ?_⟩
    rw [enqueueOrGap_workerStopped, htimely c (by rw [htarget]; exact hget)] at hs
    cases hs
  · rcases h.settled with horphan | hsettled
    · exact Or.inl (orphan_step a h.names horphan)
    · exact settled_step a h.names hsettled hdurable

/-- **No silent loss without a late submission.**  In every run of `ForRoot`, submissions, workers
and `ShutdownAll` in which the durable operations succeed and no non-empty submission reaches a
coordinator whose worker has stopped: whenever a worker has stopped, everything submitted to its
coordinator is persisted or recorded through `UpdateGap`, or there is evidence on disk. -/
theorem no_silent_loss (actions : List Action) (hdurable : Along step Durable {} actions)
    (htimely : Along step Timely {} actions) (c : Coordinator)
    (hc : c ∈ (run step {} actions).coordinators) (hstopped : c.workerStopped = true) :
    Saved (run step {} actions) c := by
  have hcalm : Calm (run step {} actions) :=
    run_invariant_along (fun _ _ hp hw => calm_step hp.1 hp.2 hw)
      ⟨names_initial, by simp, Or.inr ⟨exact_initial, by simp⟩⟩
      (along_and.mpr ⟨hdurable, htimely⟩)
  obtain ⟨hconserved, hquit⟩ := hcalm.coordinators c hc
  obtain ⟨hpc, hqueue, hpending⟩ := hquit hstopped
  have hflight := hconserved.noGapInHand (by rw [hpc]; rfl)
  rcases hcalm.settled with ⟨n, hn, -⟩ | hsettled
  · exact Or.inl (Or.inl (List.ne_nil_of_mem hn))
  · obtain ⟨hlost, -⟩ := hsettled.nothingLost c hc
    refine Or.inr ⟨?_, fun k hk => ?_, hsettled.exact.counts⟩
    · have hgaps := hconserved.gaps
      rw [hlost, hflight, hpending, List.append_nil, List.append_nil, List.append_nil] at hgaps
      have hplaces := hconserved.places
      rw [hqueue, List.append_nil] at hplaces
      exact hplaces.trans (hgaps.append_left _)
    · have htaken := hconserved.takenCounts k hk
      rw [hlost, hflight, List.append_nil, List.append_nil] at htaken
      exact htaken

/-- A coordinator whose store refuses a retraction and which is shut down then. -/
def timelyRun : List Action :=
  [.forRoot, .submitRetraction 0 [8] 2] ++ List.replicate 6 (.worker 0 { persist := .failed }) ++
  List.replicate 8 (.worker 0 {}) ++ [.shutdownAll, .shutdown, .worker 0 {}]

/-- The refused retraction is in the record when the worker has stopped. -/
theorem no_silent_loss_sample :
    let w := run step {} timelyRun
    let c := (w.coordinators[0]?).getD ({} : Coordinator)
    Saved w c ∧ c.workerStopped = true ∧ w.disk.counts .retractions = 1 := by
  refine ⟨no_silent_loss timelyRun ?_ ?_
    ((((run step {} timelyRun).coordinators)[0]?).getD ({} : Coordinator)) ?_ ?_, ?_, ?_⟩ <;>
    decide

/-- A retraction submitted after the worker has stopped. -/
def lateRun : List Action :=
  [.forRoot, .worker 0 {}, .worker 0 {}, .shutdownAll, .shutdown, .worker 0 {},
    .submitRetraction 0 [8] 2]

/-- **A late submission is lost silently.**  All durable operations succeed, and the submitted item
is neither persisted nor recorded, with no evidence on disk. -/
theorem silent_loss :
    ¬ ∀ actions : List Action, Along step Durable {} actions →
      ∀ c ∈ (run step {} actions).coordinators, c.workerStopped = true →
        Saved (run step {} actions) c := by
  intro h
  have hsaved := h lateRun (by decide)
    (((run step {} lateRun).coordinators[0]?).getD ({} : Coordinator)) (by decide) (by decide)
  rcases hsaved with hevidence | ⟨hperm, -, -⟩
  · exact absurd hevidence (by decide)
  · exact absurd hperm (by decide)

end Recorder
end SemanticMemory
