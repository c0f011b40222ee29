import SemanticMemory.Recorder.Counted

/-!
# What the gap report can be trusted for

`read_recording_gap` answers `present` with totals.  The totals are complete as long as every gap
that a worker took leaves a trace until it is counted: first its intent file, and if that cannot be
created, the `unknown` state of the lock.

Two slips break this.  `MarkGapUnknown` may fail as well, and nothing is left; and `UpdateGap` does
not look at the lock state it overwrites, so the next successful update takes the `unknown` of an
earlier gap away (`report_incomplete`).  A crash marker does not help: the reader ignores it once
the record is `present`.

`report_complete` proves that the report is complete in every run without these.
-/

namespace SemanticMemory
namespace Recorder

open Runs

/-! ## Traces -/

/-- The worker holds a gap that has no intent file of its own. -/
def Coordinator.untraced (c : Coordinator) : Bool := c.pc.uncounted.isSome && c.pc.held.isNone

/-- The record says `unknown`, or an intent file was left: neither is ever taken back. -/
def Traced (w : World) : Prop := w.disk.jsonUnknown = true ∨ Orphan w

/-- The disk shows that something is missing from the record. -/
def Marked (w : World) : Prop := Traced w ∨ w.disk.lock = .unknown

instance (w : World) : Decidable (Orphan w) :=
  inferInstanceAs (Decidable (∃ n ∈ w.disk.intents, ∀ c ∈ w.coordinators, c.pc.held ≠ some n))

instance (w : World) : Decidable (Traced w) := inferInstanceAs (Decidable (_ ∨ _))

instance (w : World) : Decidable (Marked w) := inferInstanceAs (Decidable (_ ∨ _))

/-- A step of a worker at `pc` leaves no gap without a trace: no update starts on a lock that an
earlier gap left `unknown`, unless that gap has another trace; and a gap whose intent could not be
created gets the lock marked. -/
def WorkerNotes (w : World) (env : WorkerEnv) : Pc → Prop
  | .update _ => w.disk.lock = .unknown → Traced w
  | .markUnknown gap => gap.intent = none →
    Traced w ∨ env.markUnknown.lockOpen = .opened ∧ env.markUnknown.lockUnknown = .ok
  | _ => True

instance decidableWorkerNotes (w : World) (env : WorkerEnv) :
    (pc : Pc) → Decidable (WorkerNotes w env pc)
  | .update _ => inferInstanceAs (Decidable (w.disk.lock = .unknown → Traced w))
  | .markUnknown gap => inferInstanceAs (Decidable (gap.intent = none → _ ∨ _ ∧ _))
  | .establishMarker | .establishState | .ready | .retryMarker _ | .retryState _ | .markPending _
  | .createIntent _ | .removeIntent _ | .finish _ | .persist _ | .stopped => isTrue trivial

/-- The step leaves no gap without a trace: a worker notes it, and the process does not die while a
gap has no trace at all. -/
def Noted (w : World) : Action → Prop
  | .worker i env => ∀ c ∈ w.coordinators[i]?, WorkerNotes w env c.pc
  | .crash => (∃ c ∈ w.coordinators, c.untraced = true) → Marked w
  | _ => True

instance decidableNoted (w : World) : (a : Action) → Decidable (Noted w a)
  | .worker i env => inferInstanceAs (Decidable (∀ c ∈ w.coordinators[i]?, WorkerNotes w env c.pc))
  | .crash => inferInstanceAs (Decidable ((∃ c ∈ w.coordinators, c.untraced = true) → Marked w))
  | .forRoot | .submitBatch .. | .submitRetraction .. | .shutdownAll | .shutdown | .shutdownDone =>
    isTrue trivial

/-- The report is not read between the taking of a gap and its first trace, which may also be the
`pending` marker of the living process. -/
def ReadInTime (w : World) (env : ReadEnv) : Prop :=
  (∃ c ∈ w.coordinators, c.untraced = true) →
    Marked w ∨ ∃ reason, recordingProcessMarkerStatus env.listed = some reason ∧
      reason ≠ .recorderProcessCrashed

/-! ## The reader -/

theorem validateGap_eq_some {g v : GapFile} (h : validateGap g = some v) : v = g := by
  unfold validateGap at h
  split_ifs at h
  exact (Option.some.inj h).symm

/-- **What a `present` answer has seen**: the record, no intent, a lock that is not `unknown`, and
no marker that is uncertain for another reason than a crash. -/
theorem readRecordingGap_present {env : ReadEnv} {d : Disk} {value : GapFile}
    (h : readRecordingGap env d = .record value) (hpresent : value.state = .present) :
    d.json = some value ∧ d.intents = [] ∧ d.lock ≠ .unknown ∧
      ∀ reason, recordingProcessMarkerStatus env.listed = some reason →
        reason = .recorderProcessCrashed := by
  unfold readRecordingGap at h
  split at h
  · cases h
  simp only at h
  split at h
  · cases h
  rename_i hmarker
  split at h
  · cases h
  rename_i hintents
  split at h
  · cases h
  have hstatus : ∀ reason, recordingProcessMarkerStatus env.listed = some reason →
      reason = .recorderProcessCrashed := by
    intro reason hreason
    by_contra hne
    cases hfault : env.markerFault with
    | some fault =>
      simp only [hfault] at hmarker
      cases fault <;> simp [MarkerFault.reason] at hmarker
    | none =>
      simp only [hfault, hreason] at hmarker
      simp [hne] at hmarker
  have hnone : d.intents = [] := by
    by_contra hne
    exact hintents (Or.inr hne)
  split at h
  · split at h
    · split at h <;> cases h
    · cases h
  · cases h
  · rename_i value' hjson hfault
    split at h
    · cases h
    rename_i checked hchecked
    have hsame := validateGap_eq_some hchecked
    subst hsame
    split at h
    · rename_i hstate
      split at h
      · cases h
      · split at h
        · cases h
        · cases h
          rw [hpresent] at hstate
          cases hstate
    · split at h
      · rename_i hlock
        cases h
        refine ⟨hjson, hnone, fun hunknown => ?_, hstatus⟩
        rw [hunknown] at hlock
        simp at hlock
      · cases h
    · rename_i hstate
      cases h
      rw [hpresent] at hstate
      cases hstate

/-! ## The invariant -/

/-- No gap that is about to be given up has an intent file. -/
def BareMarks (w : World) : Prop :=
  ∀ c ∈ w.coordinators, ∀ gap, c.pc = .markUnknown gap → gap.intent = none

/-- The invariant of the report: a lasting trace, a marked lock, or an exact record. -/
structure Reported (w : World) : Prop where
  names : Names w
  report : Traced w ∨ BareMarks w ∧ w.disk.lock = .unknown ∨ Exact w

variable {w : World}

/-- **A lasting trace lasts.** -/
theorem traced_step (a : Action) (hnames : Names w) (h : Traced w) : Traced (step w a) := by
  rcases h with hunknown | horphan
  · left
    cases step_worldStep w a hnames.fresh with
    | idle coordinators disk takenBefore => rw [disk]; exact hunknown
    | queued i c c' get coordinators disk takenBefore pc taken recorded unrecorded =>
      rw [disk]
      exact hunknown
    | created coordinators disk takenBefore => rw [disk]; exact hunknown
    | worked i env c c' action get coordinators gap takenBefore =>
      cases gap with
      | other files uncounted held taken recorded unrecorded calm =>
        exact files.jsonUnknown.trans hunknown
      | took gap pc pc' disk taken recorded unrecorded => rw [disk]; exact hunknown
      | intentCreated gap name pc pc' mem fresh grows below next json lock ledger =>
        exact (Disk.jsonUnknown_congr json).trans hunknown
      | intentRefused gap pc intent pc' refused grows below next json lock ledger =>
        exact (Disk.jsonUnknown_congr json).trans hunknown
      | updated gap pc pc' disk ok ledger =>
        rw [disk]
        exact (updateGap_spec _ _ _ _).unknown hunknown
      | updateFailed gap pc pc' disk ledger =>
        rw [disk]
        exact (updateGap_spec _ _ _ _).unknown hunknown
      | marked gap pc pc' disk ledger =>
        rw [disk]
        exact (markGapUnknown_spec _ _).unknown hunknown
      | removed gap pc persisted pc' disk ledger =>
        rw [disk, Disk.jsonUnknown_congr (removeGapIntent_frame _ _ _).1]
        exact hunknown
    | crashed action coordinators files takenBefore => exact files.jsonUnknown.trans hunknown
  · exact Or.inr (orphan_step a hnames horphan)

/-- A marked lock stays marked along a step that leaves every gap a trace. -/
theorem marked_step {a : Action} (hnames : Names w) (hnoted : Noted w a) (hmarks : BareMarks w)
    (hlock : w.disk.lock = .unknown) :
    Traced (step w a) ∨ BareMarks (step w a) ∧ (step w a).disk.lock = .unknown := by
  by_cases htraced : Traced w
  · exact Or.inl (traced_step a hnames htraced)
  right
  cases step_worldStep w a hnames.fresh with
  | idle coordinators disk takenBefore =>
    exact ⟨by unfold BareMarks; rw [coordinators]; exact hmarks, by rw [disk]; exact hlock⟩
  | queued i c c' get coordinators disk takenBefore pc taken recorded unrecorded =>
    refine ⟨?_, by rw [disk]; exact hlock⟩
    unfold BareMarks
    rw [coordinators]
    refine Components.forall_mem_set hmarks ?_
    rw [pc]
    exact hmarks c (List.mem_of_getElem? get)
  | created coordinators disk takenBefore =>
    refine ⟨?_, by rw [disk]; exact hlock⟩
    unfold BareMarks
    rw [coordinators]
    intro c hc
    rcases List.mem_append.mp hc with hc | hc
    · exact hmarks c hc
    · rw [List.mem_singleton.mp hc]
      rintro _ ⟨⟩
  | worked i env c c' action get coordinators gap takenBefore =>
    subst action
    have hnotes : WorkerNotes w env c.pc := hnoted c get
    have hset : (∀ gap, c'.pc = .markUnknown gap → gap.intent = none) →
        BareMarks (step w (.worker i env)) := by
      intro h
      unfold BareMarks
      rw [coordinators]
      exact Components.forall_mem_set hmarks h
    cases gap with
    | other files uncounted held taken recorded unrecorded calm =>
      exact ⟨hset fun gap hgap => absurd hgap (calm gap), files.lock hlock⟩
    | took gap pc pc' disk taken recorded unrecorded =>
      exact ⟨hset (by rw [pc']; rintro _ ⟨⟩), by rw [disk]; exact hlock⟩
    | intentCreated gap name pc pc' mem fresh grows below next json lock ledger =>
      exact ⟨hset (by rw [pc']; rintro _ ⟨⟩), lock.trans hlock⟩
    | intentRefused gap pc intent pc' refused grows below next json lock ledger =>
      refine ⟨hset fun g hg => ?_, lock.trans hlock⟩
      rw [pc'] at hg
      cases hg
      exact intent
    | updated gap pc pc' disk ok ledger =>
      rw [pc] at hnotes
      exact absurd (hnotes hlock) htraced
    | updateFailed gap pc pc' disk ledger =>
      rw [pc] at hnotes
      exact absurd (hnotes hlock) htraced
    | marked gap pc pc' disk ledger =>
      refine ⟨hset (by rw [pc']; rintro _ ⟨⟩), ?_⟩
      rw [pc] at hnotes
      rcases hnotes (hmarks c (List.mem_of_getElem? get) gap pc) with ht | ⟨hopen, hwrite⟩
      · exact absurd ht htraced
      · rw [disk]
        exact (markGapUnknown_spec _ _).marked hopen hwrite
    | removed gap pc persisted pc' disk ledger =>
      refine ⟨hset (by rw [pc']; rintro _ ⟨⟩), ?_⟩
      rw [disk, (removeGapIntent_frame _ _ _).2]
      exact hlock
  | crashed action coordinators files takenBefore =>
    refine ⟨?_, files.lock hlock⟩
    unfold BareMarks
    rw [coordinators]
    simp

/-- An exact record becomes marked when a gap without an intent file is given up. -/
theorem exact_marked {i : ℕ} {env : WorkerEnv} {c : Coordinator} {gap : Gap} (hnames : Names w)
    (h : Exact w) (hnoted : Noted w (.worker i env)) (get : w.coordinators[i]? = some c)
    (hpc : c.pc = .markUnknown gap) :
    Traced (step w (.worker i env)) ∨
      BareMarks (step w (.worker i env)) ∧ (step w (.worker i env)).disk.lock = .unknown := by
  have hnotes : WorkerNotes w env c.pc := hnoted c get
  rw [hpc] at hnotes
  rcases hnotes (h.marks c (List.mem_of_getElem? get) gap hpc) with ht | ⟨hopen, hwrite⟩
  · exact Or.inl (traced_step _ hnames ht)
  · right
    have hworker : workerStep env c w.disk =
        ({ c with pc := .finish false }, (markGapUnknown env.markUnknown w.disk).2) := by
      unfold workerStep
      rw [hpc]
    rw [step_worker env get, hworker]
    exact ⟨Components.forall_mem_set h.marks (by rintro _ ⟨⟩),
      (markGapUnknown_spec _ _).marked hopen hwrite⟩

/-- A process that dies with a traced gap leaves the trace. -/
theorem exact_crash (hnames : Names w) (hnoted : Noted w .crash) {c : Coordinator}
    (hc : c ∈ w.coordinators) (hgap : c.pc.uncounted ≠ none) :
    Traced (step w .crash) ∨
      BareMarks (step w .crash) ∧ (step w .crash).disk.lock = .unknown := by
  cases hheld : c.pc.held with
  | some n =>
    left
    right
    exact ⟨n, hnames.held c hc n hheld, by simp [step]⟩
  | none =>
    have huntraced : c.untraced = true := by
      rw [Coordinator.untraced, hheld]
      simpa using Option.isSome_iff_ne_none.mpr hgap
    rcases hnoted ⟨c, hc, huntraced⟩ with ht | hlock
    · exact Or.inl (traced_step _ hnames ht)
    · exact Or.inr ⟨by simp [BareMarks, step], hlock⟩

/-- **The invariant along a step that leaves every gap a trace.** -/
theorem reported_step {a : Action} (hnoted : Noted w a) (h : Reported w) : Reported (step w a) := by
  refine ⟨names_step a h.names, ?_⟩
  rcases h.report with htraced | ⟨hmarks, hlock⟩ | hexact
  · exact Or.inl (traced_step a h.names htraced)
  · rcases marked_step h.names hnoted hmarks hlock with ht | hm
    · exact Or.inl ht
    · exact Or.inr (Or.inl hm)
  · have hweaken : (Traced (step w a) ∨ BareMarks (step w a) ∧ (step w a).disk.lock = .unknown) →
        Traced (step w a) ∨ BareMarks (step w a) ∧ (step w a).disk.lock = .unknown ∨
          Exact (step w a) := by
      rintro (ht | hm)
      · exact Or.inl ht
      · exact Or.inr (Or.inl hm)
    by_cases hmark : ∃ i env c gap, a = .worker i env ∧ w.coordinators[i]? = some c ∧
        c.pc = .markUnknown gap
    · obtain ⟨i, env, c, gap, rfl, get, hpc⟩ := hmark
      exact hweaken (exact_marked h.names hexact hnoted get hpc)
    by_cases hcrash : a = .crash ∧ ∃ c ∈ w.coordinators, c.pc.uncounted ≠ none
    · obtain ⟨rfl, c, hc, hgap⟩ := hcrash
      exact hweaken (exact_crash h.names hnoted hc hgap)
    have hstep := exact_step a h.names hexact
      (fun i env c gap ha get hpc => hmark ⟨i, env, c, gap, ha, get, hpc⟩)
      (fun ha c hc => by
        by_contra hgap
        exact hcrash ⟨ha, c, hc, hgap⟩)
    rcases hstep with he | ho
    · exact Or.inr (Or.inr he)
    · exact Or.inl (Or.inr ho)

/-- **The report is complete when every gap leaves a trace.**  In every run, over any restarts and
whatever fails, whose steps leave every gap a trace: a reader that answers `present`, not between the
taking of a gap and its first trace, gives at least the totals of every gap the workers have taken
off `pending_gap_`. -/
theorem report_complete (actions : List Action) (hnoted : Along step Noted {} actions)
    (env : ReadEnv)
    (hread : ReadInTime (run step {} actions) env) (value : GapFile)
    (hvalue : readRecordingGap env (run step {} actions).disk = .record value)
    (hpresent : value.state = .present) (k : Counter) :
    gapTotals (run step {} actions).taken k ≤ value.counts k := by
  have hreported : Reported (run step {} actions) :=
    run_invariant_along (fun _ _ hp hw => reported_step hp hw)
      ⟨names_initial, Or.inr (Or.inr exact_initial)⟩ hnoted
  obtain ⟨hjson, hintents, hlock, hstatus⟩ := readRecordingGap_present hvalue hpresent
  have hnot : ¬ Traced (run step {} actions) := by
    rintro (hunknown | ⟨n, hn, -⟩)
    · simp [Disk.jsonUnknown, hjson, hpresent] at hunknown
    · rw [hintents] at hn
      cases hn
  rcases hreported.report with ht | ⟨-, hl⟩ | hexact
  · exact absurd ht hnot
  · exact absurd hl hlock
  · have hnone : ∀ c ∈ (run step {} actions).coordinators, c.pc.uncounted = none := by
      intro c hc
      by_contra hgap
      cases hheld : c.pc.held with
      | some n =>
        have := hreported.names.held c hc n hheld
        rw [hintents] at this
        cases this
      | none =>
        have huntraced : c.untraced = true := by
          rw [Coordinator.untraced, hheld]
          simpa using Option.isSome_iff_ne_none.mpr hgap
        rcases hread ⟨c, hc, huntraced⟩ with (ht | hl) | ⟨reason, hreason, hne⟩
        · exact hnot ht
        · exact hlock hl
        · exact hne (hstatus reason hreason)
    have hcounts := hexact.counts k
    rw [counted_eq_taken hnone k] at hcounts
    rw [← hcounts, Disk.counts, hjson]

/-- A retraction is submitted and the store refuses it; the worker then takes the gap. -/
def lostRetraction (commitId : Text) : List Action :=
  [.submitRetraction 0 commitId 1, .worker 0 {}, .worker 0 {}, .worker 0 {},
    .worker 0 { persist := .failed }, .worker 0 {}, .worker 0 {}, .worker 0 {}, .worker 0 {}]

/-- Two lost retractions, both recorded. -/
def notedRun : List Action :=
  [.forRoot, .worker 0 {}, .worker 0 {}] ++ lostRetraction [8] ++ List.replicate 4 (.worker 0 {}) ++
  lostRetraction [9] ++ List.replicate 4 (.worker 0 {})

theorem report_complete_sample :
    let w := run step {} notedRun
    let value : GapFile := { state := .present, reason := .storeWriteFailed, retractions := 2,
                             bytes := 130 }
    readRecordingGap { listed := w.disk.markers } w.disk = .record value ∧
      gapTotals w.taken .retractions ≤ value.counts .retractions := by
  refine ⟨by decide, report_complete notedRun (by decide)
    { listed := (run step {} notedRun).disk.markers } (fun huntraced => ?_) _ (by decide) rfl _⟩
  exact absurd huntraced (by decide)

/-- The first gap gets neither an intent file nor the lock; the second is recorded. -/
def unnotedRun : List Action :=
  [.forRoot, .worker 0 {}, .worker 0 {}] ++ lostRetraction [8] ++
  [.worker 0 { intent := { created := false } }, .worker 0 { markUnknown := { lockOpen := .refused } },
    .worker 0 {}] ++
  lostRetraction [9] ++ List.replicate 4 (.worker 0 {})

/-- **The report is incomplete.**  The intent and the lock fail for one gap; the next update
succeeds, and the report counts one lost retraction of two. -/
theorem report_incomplete :
    ¬ ∀ (actions : List Action) (env : ReadEnv) (value : GapFile),
      env.listed.Perm (run step {} actions).disk.markers →
      readRecordingGap env (run step {} actions).disk = .record value → value.state = .present →
      ∀ k, gapTotals (run step {} actions).taken k ≤ value.counts k := by
  intro h
  have hle := h unnotedRun { listed := (run step {} unnotedRun).disk.markers }
    { state := .present, reason := .storeWriteFailed, retractions := 1, bytes := 65 }
    (List.Perm.refl _) (by decide) rfl .retractions
  exact absurd hle (by decide)

end Recorder
end SemanticMemory
