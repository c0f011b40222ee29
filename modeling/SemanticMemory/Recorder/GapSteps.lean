import SemanticMemory.Recorder.Conservation

/-!
# What the worker does to the gap files

Each durable function gets one lemma that says what it can do to the intents, the lock state and the
record.  `GapStep` puts them together: it is the list of everything one step of a worker can do to
the gap files and to the gap in its hands, and `workerStep_gapStep` proves that the list is
complete.  The invariants of the gap record are derived from it and never unfold the worker.

An intent file is *held* while a worker still means to remove it (`Pc.held`).  An intent that nobody
holds is never removed again (`orphan_step`): it is the lasting trace of a gap.
-/

namespace SemanticMemory
namespace Recorder

open Runs

/-! ## The record -/

/-- The counters of the record; a missing record counts nothing. -/
def Disk.counts (d : Disk) (k : Counter) : ℤ :=
  match d.json with
  | some gap => gap.counts k
  | none => 0

/-- The record says `unknown`. -/
def Disk.jsonUnknown (d : Disk) : Bool :=
  match d.json with
  | some gap => gap.state = .unknown
  | none => false

variable {d d' : Disk}

theorem Disk.counts_congr (h : d'.json = d.json) : d'.counts = d.counts := by
  funext k
  simp only [Disk.counts, h]

theorem Disk.jsonUnknown_congr (h : d'.json = d.json) : d'.jsonUnknown = d.jsonUnknown := by
  simp only [Disk.jsonUnknown, h]

/-- An addition that succeeds is exact. -/
theorem addWithoutOverflow_eq_some {value delta sum : ℤ}
    (h : addWithoutOverflow value delta = some sum) : sum = value + delta := by
  unfold addWithoutOverflow at h
  split at h
  · cases h
  · exact (Option.some.inj h).symm

/-- Adding to a record changes its counters only. -/
theorem GapFile.add_spec {g g' : GapFile} {delta : Counts} (h : g.add delta = some g') (k : Counter) :
    g'.counts k = g.counts k + delta k := by
  simp only [GapFile.add, Option.bind_eq_bind, Option.bind_eq_some_iff, Option.pure_def,
    Option.some.injEq] at h
  obtain ⟨b, hb, e, he, r, hr, y, hy, rfl⟩ := h
  cases k
  · exact addWithoutOverflow_eq_some hb
  · exact addWithoutOverflow_eq_some he
  · exact addWithoutOverflow_eq_some hr
  · exact addWithoutOverflow_eq_some hy

@[simp] theorem GapFile.withEpoch_counts (g : GapFile) (epochRead : Option Text) :
    (g.withEpoch epochRead).counts = g.counts := by
  funext k
  unfold GapFile.withEpoch
  split <;> cases k <;> rfl

variable {found : Option GapFile}

/-- A record that was read is the one on disk. -/
theorem readGapFile_eq_some {readOk : Bool} {d : Disk} (h : readGapFile readOk d = some found) :
    found = d.json := by
  unfold readGapFile at h
  split at h
  · split at h
    · rename_i hjson
      rw [hjson]
      exact (Option.some.inj h).symm
    · rename_i gap hjson
      split at h
      · rw [hjson]
        exact (Option.some.inj h).symm
      · cases h
  · cases h

/-- What was read has the counters of the record, and is `unknown` when the record is. -/
theorem found_counts {d : Disk} (h : found = d.json) (k : Counter) :
    (found.getD {}).counts k = d.counts k := by
  subst h
  unfold Disk.counts
  cases d.json with
  | some gap => rfl
  | none => cases k <;> rfl

theorem found_unknown {d : Disk} (h : found = d.json) :
    (found.getD {}).state = .unknown ↔ d.jsonUnknown = true := by
  subst h
  unfold Disk.jsonUnknown
  cases d.json with
  | some gap => simp
  | none => simp

/-! ## The durable functions -/

theorem openGapLock_frame (how : LockOpen) (d : Disk) :
    (openGapLock how d).2.intents = d.intents ∧ (openGapLock how d).2.json = d.json ∧
      (openGapLock how d).2.nextName = d.nextName ∧
      ((openGapLock how d).2.lock = d.lock ∨ d.lock = .absent) := by
  unfold openGapLock
  by_cases habsent : d.lock = .absent <;> cases how <;> simp [habsent]

theorem writeGapLockState_frame (state : LockFile) (how : Rewrite) (d : Disk) :
    (writeGapLockState state how d).2.intents = d.intents ∧
      (writeGapLockState state how d).2.json = d.json ∧
      (writeGapLockState state how d).2.nextName = d.nextName := by
  rcases how with _ | left
  · exact ⟨rfl, rfl, rfl⟩
  · cases left <;> exact ⟨rfl, rfl, rfl⟩

/-- Replacing the record touches the record only, which stays or becomes the new one. -/
theorem writeGapFile_frame (state : GapState) (reason : GapReason) (gap : GapFile)
    (how : Replace) (d : Disk) :
    (writeGapFile state reason gap how d).2.intents = d.intents ∧
      (writeGapFile state reason gap how d).2.lock = d.lock ∧
      (writeGapFile state reason gap how d).2.nextName = d.nextName ∧
      ((writeGapFile state reason gap how d).2.json = d.json ∨
        (writeGapFile state reason gap how d).2.json = some { gap with state, reason }) ∧
      ((writeGapFile state reason gap how d).1 = true →
        (writeGapFile state reason gap how d).2.json = some { gap with state, reason }) := by
  cases how <;> simp [writeGapFile]

/-- What `UpdateGap` does. -/
structure UpdateSpec (delta : Counts) (d : Disk) (r : Bool × Disk) : Prop where
  intents : r.2.intents = d.intents
  nextName : r.2.nextName = d.nextName
  unknown : d.jsonUnknown = true → r.2.jsonUnknown = true
  counted : r.1 = true → d.jsonUnknown = false →
    r.2.jsonUnknown = false ∧ ∀ k, r.2.counts k = d.counts k + delta k

/-- **`UpdateGap`** leaves an `unknown` record alone, and when it succeeds on any other it has added
the gap to it. -/
theorem updateGap_spec (env : UpdateEnv) (reason : GapReason) (delta : Counts) (d : Disk) :
    UpdateSpec delta d (updateGap env reason delta d) := by
  obtain ⟨hoi, hoj, hon, -⟩ := openGapLock_frame env.lockOpen d
  unfold updateGap
  simp only
  set opened := openGapLock env.lockOpen d
  obtain ⟨hli, hlj, hln⟩ := writeGapLockState_frame .unknown env.lockUnknown opened.2
  set locked := writeGapLockState .unknown env.lockUnknown opened.2
  have hlocked : locked.2.json = d.json := hlj.trans hoj
  split
  · rename_i hopen
    exact ⟨hoi, hon, fun h => by rw [Disk.jsonUnknown_congr hoj]; exact h,
      fun h => absurd h hopen⟩
  split
  · rename_i hlock
    exact ⟨hli.trans hoi, hln.trans hon,
      fun h => by rw [Disk.jsonUnknown_congr hlocked]; exact h, fun h => absurd h hlock⟩
  split
  · exact ⟨hli.trans hoi, hln.trans hon,
      fun h => by rw [Disk.jsonUnknown_congr hlocked]; exact h, fun h => absurd h (by simp)⟩
  rename_i found hfound
  have hdisk := (readGapFile_eq_some hfound).trans hlocked
  split
  · rename_i hunknown
    exact ⟨hli.trans hoi, hln.trans hon,
      fun h => by rw [Disk.jsonUnknown_congr hlocked]; exact h,
      fun _ h => absurd ((found_unknown hdisk).mp hunknown) (by simp [h])⟩
  rename_i hknown
  rw [found_unknown hdisk] at hknown
  split
  · exact ⟨hli.trans hoi, hln.trans hon, fun h => absurd h hknown, fun h => absurd h (by simp)⟩
  rename_i gap hadd
  -- the record is replaced twice, then the lock says `present`
  obtain ⟨hbi, -, hbn, -, -⟩ := writeGapFile_frame .unknown .gapUpdateInProgress
    (gap.withEpoch env.epochRead) env.jsonUnknown locked.2
  set begun := writeGapFile .unknown .gapUpdateInProgress (gap.withEpoch env.epochRead)
    env.jsonUnknown locked.2
  obtain ⟨hpi, -, hpn, -, hpj⟩ := writeGapFile_frame .present reason
    (gap.withEpoch env.epochRead) env.jsonPresent begun.2
  set published := writeGapFile .present reason (gap.withEpoch env.epochRead) env.jsonPresent
    begun.2
  split
  · rename_i hbegun
    exact ⟨hbi.trans (hli.trans hoi), hbn.trans (hln.trans hon), fun h => absurd h hknown,
      fun h => absurd h hbegun⟩
  split
  · rename_i hpublished
    exact ⟨hpi.trans (hbi.trans (hli.trans hoi)), hpn.trans (hbn.trans (hln.trans hon)),
      fun h => absurd h hknown, fun h => absurd h hpublished⟩
  · rename_i hpublished
    obtain ⟨hfi, hfj, hfn⟩ := writeGapLockState_frame .present env.lockPresent published.2
    have hjson := hpj (by simpa using hpublished)
    refine ⟨hfi.trans (hpi.trans (hbi.trans (hli.trans hoi))),
      hfn.trans (hpn.trans (hbn.trans (hln.trans hon))), fun h => absurd h hknown,
      fun _ _ => ⟨?_, fun k => ?_⟩⟩
    · simp [Disk.jsonUnknown, hfj, hjson]
    · have hcounts : ({ gap.withEpoch env.epochRead with state := .present, reason } :
          GapFile).counts k = gap.counts k := by
        rw [← GapFile.withEpoch_counts gap env.epochRead]
        cases k <;> rfl
      rw [← found_counts hdisk k, ← GapFile.add_spec hadd k]
      simp only [Disk.counts, hfj, hjson]
      exact hcounts

/-- What `MarkGapUnknown` does. -/
structure MarkSpec (env : MarkUnknownEnv) (d d' : Disk) : Prop where
  intents : d'.intents = d.intents
  nextName : d'.nextName = d.nextName
  unknown : d.jsonUnknown = true → d'.jsonUnknown = true
  json : d'.json = d.json ∨ d'.jsonUnknown = true
  marked : env.lockOpen = .opened → env.lockUnknown = .ok → d'.lock = .unknown

/-- **`MarkGapUnknown`** leaves the record alone or makes it `unknown`, and marks the lock when its
own calls succeed. -/
theorem markGapUnknown_spec (env : MarkUnknownEnv) (d : Disk) :
    MarkSpec env d (markGapUnknown env d).2 := by
  obtain ⟨hoi, hoj, hon, -⟩ := openGapLock_frame env.lockOpen d
  have hopened : env.lockOpen = .opened → (openGapLock env.lockOpen d).1 = true := by
    rintro h
    rw [h]
    rfl
  unfold markGapUnknown
  simp only
  set opened := openGapLock env.lockOpen d
  obtain ⟨hli, hlj, hln⟩ := writeGapLockState_frame .unknown env.lockUnknown opened.2
  have hok : env.lockUnknown = .ok →
      (writeGapLockState .unknown env.lockUnknown opened.2).1 = true ∧
        (writeGapLockState .unknown env.lockUnknown opened.2).2.lock = .unknown := by
    intro h
    rw [h]
    exact ⟨rfl, rfl⟩
  set locked := writeGapLockState .unknown env.lockUnknown opened.2
  have hlocked : locked.2.json = d.json := hlj.trans hoj
  have hkeep : d.jsonUnknown = true → locked.2.jsonUnknown = true := by
    rw [Disk.jsonUnknown_congr hlocked]
    exact id
  split
  · rename_i hopen
    exact ⟨hoi, hon, fun h => by rw [Disk.jsonUnknown_congr hoj]; exact h, Or.inl hoj,
      fun h => absurd (hopened h) hopen⟩
  split
  · rename_i hlock
    exact ⟨hli.trans hoi, hln.trans hon, hkeep, Or.inl hlocked,
      fun _ h => absurd (hok h).1 hlock⟩
  split
  · exact ⟨hli.trans hoi, hln.trans hon, hkeep, Or.inl hlocked, fun _ h => (hok h).2⟩
  · rename_i found hfound
    obtain ⟨hwi, hwl, hwn, hwj, -⟩ := writeGapFile_frame .unknown .gapPersistenceFailed
      ((found.getD {}).withEpoch env.epochRead) env.jsonUnknown locked.2
    have hunknown : ∀ d' : Disk, d'.json = some { (found.getD {}).withEpoch env.epochRead with
        state := .unknown, reason := .gapPersistenceFailed } → d'.jsonUnknown = true := by
      intro d' h
      simp [Disk.jsonUnknown, h]
    refine ⟨hwi.trans (hli.trans hoi), hwn.trans (hln.trans hon), fun h => ?_, ?_,
      fun _ h => hwl.trans (hok h).2⟩
    · rcases hwj with hwj | hwj
      · rw [Disk.jsonUnknown_congr hwj]
        exact hkeep h
      · exact hunknown _ hwj
    · rcases hwj with hwj | hwj
      · exact Or.inl (hwj.trans hlocked)
      · exact Or.inr (hunknown _ hwj)

/-- What a function does that is not about a particular gap: it may create the missing record, which
counts nothing, and touches the lock only while that is missing or empty. -/
structure Harmless (d d' : Disk) : Prop where
  intents : d'.intents = d.intents
  nextName : d.nextName ≤ d'.nextName
  counts : d'.counts = d.counts
  jsonUnknown : d'.jsonUnknown = d.jsonUnknown
  lock : d.lock = .unknown → d'.lock = .unknown

theorem Harmless.refl (d : Disk) : Harmless d d :=
  ⟨rfl, le_refl _, rfl, rfl, id⟩

theorem Harmless.of_markers (hintents : d'.intents = d.intents) (hlock : d'.lock = d.lock)
    (hjson : d'.json = d.json) (hname : d.nextName ≤ d'.nextName) : Harmless d d' :=
  ⟨hintents, hname, Disk.counts_congr hjson, Disk.jsonUnknown_congr hjson,
    fun h => hlock.trans h⟩

/-- `EnsureGapState` is harmless. -/
theorem ensureGapState_harmless (env : EnsureEnv) (d : Disk) :
    Harmless d (ensureGapState env d).2 := by
  obtain ⟨hoi, hoj, hon, hol⟩ := openGapLock_frame env.lockOpen d
  unfold ensureGapState
  simp only
  set opened := openGapLock env.lockOpen d
  have hunknown : d.lock = .unknown → opened.2.lock = .unknown := by
    rintro h
    rcases hol with hol | hol
    · rw [hol, h]
    · rw [h] at hol
      cases hol
  have hopened : Harmless d opened.2 :=
    ⟨hoi, hon.ge, Disk.counts_congr hoj, Disk.jsonUnknown_congr hoj, hunknown⟩
  have hempty : (if env.lockReadOk then opened.2.lock else .other) = .empty →
      d.lock ≠ .unknown := by
    intro h hd
    rw [hunknown hd] at h
    split at h <;> cases h
  generalize (if env.lockReadOk then opened.2.lock else LockFile.other) = lockState at hempty ⊢
  have hwritten : ∀ state, d.lock ≠ .unknown →
      Harmless d (writeGapLockState state env.lockWrite opened.2).2 := by
    intro state hd
    obtain ⟨hli, hlj, hln⟩ := writeGapLockState_frame state env.lockWrite opened.2
    exact ⟨hli.trans hoi, (hln.trans hon).ge, Disk.counts_congr (hlj.trans hoj),
      Disk.jsonUnknown_congr (hlj.trans hoj), fun h => absurd h hd⟩
  split
  · exact hopened
  split
  · exact hopened
  · rename_i found hfound
    have hdisk : found = d.json := by
      split at hfound
      · exact (readGapFile_eq_some hfound).trans hoj
      · cases hfound
    split
    · exact hopened
    split
    · split
      · rename_i hlock
        have hlocked := hwritten .safe (hempty hlock)
        obtain ⟨-, hlj, -⟩ := writeGapLockState_frame .safe env.lockWrite opened.2
        split
        · set locked := writeGapLockState .safe env.lockWrite opened.2
          obtain ⟨hwi, hwl, hwn, hwj, -⟩ := writeGapFile_frame .none .none
            { storeEpoch := currentStoreEpoch env.epochRead } env.jsonWrite locked.2
          refine ⟨hwi.trans hlocked.intents, hlocked.nextName.trans hwn.ge, ?_, ?_,
            fun h => hwl.trans (hlocked.lock h)⟩
          · rcases hwj with hwj | hwj
            · rw [Disk.counts_congr hwj, hlocked.counts]
            · funext k
              simp only [Disk.counts, hwj, ← hdisk]
              cases k <;> rfl
          · rcases hwj with hwj | hwj
            · rw [Disk.jsonUnknown_congr hwj, hlocked.jsonUnknown]
            · simp [Disk.jsonUnknown, hwj, ← hdisk]
        · exact hlocked
      · exact hopened
    · split
      · exact hopened
      · split
        · rename_i hlock
          exact hwritten .present (hempty hlock)
        · exact hopened
      · exact hopened

/-! ## One step of a worker -/

/-- The gap in the worker's hands before its intent file is created. -/
def Pc.beforeIntent : Pc → Option Gap
  | .retryMarker (.gap g) | .retryState (.gap g) | .markPending g | .createIntent g => some g
  | _ => none

/-- The gap in the worker's hands that the record does not count and will not count unless an
update succeeds; a gap that was given up although its intent exists has that intent as its trace. -/
def Pc.uncounted : Pc → Option Gap
  | .retryMarker (.gap g) | .retryState (.gap g) | .markPending g | .createIntent g
  | .update g => some g
  | .markUnknown g => if g.intent = none then some g else none
  | _ => none

/-- The intent file the worker still means to remove. -/
def Pc.held : Pc → Option ℕ
  | .update g | .removeIntent g => g.intent
  | _ => none

/-- A gap has no intent before its worker creates one. -/
structure FreshIntents (c : Coordinator) : Prop where
  pending : c.pendingGap.intent = none
  before : ∀ g, c.pc.beforeIntent = some g → g.intent = none
  held : ∀ g, c.pc = .update g ∨ c.pc = .removeIntent g → g.intent.isSome

theorem addGapLocked_intent {pending : Gap} (h : pending.intent = none) (reason : GapReason)
    (item : Item) : (addGapLocked pending (item.gap reason)).intent = none := by
  unfold addGapLocked
  split
  · exact h
  split
  · rfl
  · rw [h]
    rfl

variable {c : Coordinator}

theorem freshIntents_enqueueOrGap (item : Item) (h : FreshIntents c) :
    FreshIntents (enqueueOrGap item c).1 := by
  unfold enqueueOrGap
  simp only
  split
  · exact ⟨addGapLocked_intent h.pending _ item, h.before, h.held⟩
  split
  · exact ⟨addGapLocked_intent h.pending _ item, h.before, h.held⟩
  split
  · exact ⟨addGapLocked_intent h.pending _ item, h.before, h.held⟩
  · exact ⟨h.pending, h.before, h.held⟩

/-- What moving the queue into the pending gap does not touch. -/
theorem moveQueued_frame (items : List Item) (h : c.pendingGap.intent = none) :
    (moveQueued items c).pendingGap.intent = none ∧ (moveQueued items c).pc = c.pc ∧
      (moveQueued items c).ledger.taken = c.ledger.taken ∧
      (moveQueued items c).ledger.recorded = c.ledger.recorded ∧
      (moveQueued items c).ledger.unrecorded = c.ledger.unrecorded ∧
      (moveQueued items c).stopping = c.stopping := by
  induction items generalizing c with
  | nil => exact ⟨h, rfl, rfl, rfl, rfl, rfl⟩
  | cons item rest ih =>
    unfold moveQueued
    have hstep : ∀ c' : Coordinator, c'.removeFrontLocked.pendingGap = c'.pendingGap ∧
        c'.removeFrontLocked.pc = c'.pc ∧ c'.removeFrontLocked.ledger = c'.ledger ∧
        c'.removeFrontLocked.stopping = c'.stopping := by
      intro c'
      unfold Coordinator.removeFrontLocked
      split <;> exact ⟨rfl, rfl, rfl, rfl⟩
    obtain ⟨hg, hp, hl, hs⟩ := hstep (c.addGap .shutdownUnpersisted item)
    obtain ⟨hi, hpc, ht, hr, hu, hst⟩ :=
      @ih (c.addGap .shutdownUnpersisted item).removeFrontLocked
        (by rw [hg]; exact addGapLocked_intent h _ item)
    refine ⟨hi, hpc.trans hp, ht.trans ?_, hr.trans ?_, hu.trans ?_, hst.trans hs⟩ <;>
    · rw [hl]
      rfl

/-- Everything a step of a worker can do to the gap files and to the gap in its hands. -/
inductive GapStep (env : WorkerEnv) (c : Coordinator) (d : Disk) (c' : Coordinator) (d' : Disk) :
    Prop where
  | other (files : Harmless d d') (uncounted : c'.pc.uncounted = c.pc.uncounted)
      (held : c'.pc.held = c.pc.held) (taken : c'.ledger.taken = c.ledger.taken)
      (recorded : c'.ledger.recorded = c.ledger.recorded)
      (unrecorded : c'.ledger.unrecorded = c.ledger.unrecorded)
      (calm : ∀ gap, c'.pc ≠ .markUnknown gap)
  | took (gap : Gap) (pc : c.pc = .ready) (pc' : c'.pc = .retryMarker (.gap gap)) (disk : d' = d)
      (taken : c'.ledger.taken = c.ledger.taken ++ [gap])
      (recorded : c'.ledger.recorded = c.ledger.recorded)
      (unrecorded : c'.ledger.unrecorded = c.ledger.unrecorded)
  | intentCreated (gap : Gap) (name : ℕ) (pc : c.pc = .createIntent gap)
      (pc' : c'.pc = .update { gap with intent := some name }) (mem : name ∈ d'.intents)
      (fresh : d.nextName ≤ name) (grows : d.intents ⊆ d'.intents)
      (below : ∀ n ∈ d'.intents, n ∈ d.intents ∨ n < d'.nextName) (next : d.nextName ≤ d'.nextName)
      (json : d'.json = d.json) (lock : d'.lock = d.lock) (ledger : c'.ledger = c.ledger)
  | intentRefused (gap : Gap) (pc : c.pc = .createIntent gap) (intent : gap.intent = none)
      (pc' : c'.pc = .markUnknown gap) (refused : env.intent.created = false)
      (grows : d.intents ⊆ d'.intents)
      (below : ∀ n ∈ d'.intents, n ∈ d.intents ∨ n < d'.nextName) (next : d.nextName ≤ d'.nextName)
      (json : d'.json = d.json) (lock : d'.lock = d.lock)
      (ledger : c'.ledger = c.giveUpInFlight.ledger)
  | updated (gap : Gap) (pc : c.pc = .update gap) (pc' : c'.pc = .removeIntent gap)
      (disk : d' = (updateGap env.update gap.reason gap.counts d).2)
      (ok : (updateGap env.update gap.reason gap.counts d).1 = true)
      (ledger : c'.ledger = c.recordInFlight.ledger)
  | updateFailed (gap : Gap) (pc : c.pc = .update gap) (pc' : c'.pc = .markUnknown gap)
      (disk : d' = (updateGap env.update gap.reason gap.counts d).2)
      (ledger : c'.ledger = c.giveUpInFlight.ledger)
  | marked (gap : Gap) (pc : c.pc = .markUnknown gap) (pc' : c'.pc = .finish false)
      (disk : d' = (markGapUnknown env.markUnknown d).2) (ledger : c'.ledger = c.ledger)
  | removed (gap : Gap) (pc : c.pc = .removeIntent gap) (persisted : Bool)
      (pc' : c'.pc = .finish persisted)
      (disk : d' = (removeGapIntent gap.intent env.removeIntent d).2) (ledger : c'.ledger = c.ledger)

/-- The intents that `CreateGapIntent` leaves. -/
theorem createGapIntent_spec (env : IntentEnv) (d : Disk) :
    d.intents ⊆ (createGapIntent env d).2.intents ∧
      (∀ n ∈ (createGapIntent env d).2.intents,
        n ∈ d.intents ∨ n < (createGapIntent env d).2.nextName) ∧
      d.nextName ≤ (createGapIntent env d).2.nextName ∧
      (createGapIntent env d).2.json = d.json ∧ (createGapIntent env d).2.lock = d.lock ∧
      ((createGapIntent env d).1 = none → env.created = false) ∧
      ∀ name, (createGapIntent env d).1 = some name →
        name ∈ (createGapIntent env d).2.intents ∧ d.nextName ≤ name := by
  unfold createGapIntent
  simp only
  split
  · refine ⟨fun n hn => by simp [hn], fun n hn => ?_, by simp only; omega, rfl, rfl,
      fun h => by simp at h, fun name h => ?_⟩
    · simp only [List.mem_append, List.mem_map, List.mem_range, List.mem_singleton] at hn
      rcases hn with (hn | ⟨m, hm, rfl⟩) | rfl
      · exact Or.inl hn
      · right
        simp only
        omega
      · right
        simp only
        omega
    · cases h
      exact ⟨by simp, by omega⟩
  · rename_i hcreated
    refine ⟨fun n hn => by simp [hn], fun n hn => ?_, by simp only; omega, rfl, rfl,
      fun _ => by simpa using hcreated, fun name h => by cases h⟩
    simp only [List.mem_append, List.mem_map, List.mem_range] at hn
    rcases hn with hn | ⟨m, hm, rfl⟩
    · exact Or.inl hn
    · right
      simp only
      omega

theorem attemptCreateProcessMarker_harmless (env : MarkerEnv) (c : Coordinator) (d : Disk) :
    Harmless d (attemptCreateProcessMarker env c d).2 := by
  unfold attemptCreateProcessMarker
  split
  · exact Harmless.refl d
  · simp only [openProcessMarker]
    split
    · exact Harmless.of_markers rfl rfl rfl (by simp only; omega)
    · exact Harmless.of_markers rfl rfl rfl (by simp only; omega)

theorem attemptEnsureGapState_harmless (env : EnsureEnv) (c : Coordinator) (d : Disk) :
    Harmless d (attemptEnsureGapState env c d).2 := by
  unfold attemptEnsureGapState
  split
  · exact Harmless.refl d
  · exact ensureGapState_harmless env d

theorem writeProcessMarkerFromWorker_harmless (state : MarkerState) (clean : Bool) (how : Rewrite)
    (c : Coordinator) (d : Disk) :
    Harmless d (writeProcessMarkerFromWorker state clean how c d).2 := by
  unfold writeProcessMarkerFromWorker
  split
  · exact Harmless.refl d
  · exact Harmless.of_markers rfl rfl rfl (le_refl _)

theorem workerCleanup_harmless (how : Unlink) (c : Coordinator) (d : Disk) :
    Harmless d (workerCleanup how c d).2 := by
  unfold workerCleanup
  split
  · exact Harmless.refl d
  · simp only [closeProcessMarker]
    split
    · cases how <;> exact Harmless.of_markers rfl rfl rfl (le_refl _)
    · exact Harmless.of_markers rfl rfl rfl (le_refl _)

theorem workerCleanup_frame (how : Unlink) (c : Coordinator) (d : Disk) :
    (workerCleanup how c d).1.pc = c.pc ∧ (workerCleanup how c d).1.ledger = c.ledger ∧
      (workerCleanup how c d).1.pendingGap = c.pendingGap := by
  unfold workerCleanup
  split <;> exact ⟨rfl, rfl, rfl⟩

theorem takeWork_gapStep (env : WorkerEnv) (d : Disk) (h : FreshIntents c) (hpc : c.pc = .ready) :
    GapStep env c d (takeWork env.removeMarker c d).1 (takeWork env.removeMarker c d).2 ∧
      FreshIntents (takeWork env.removeMarker c d).1 := by
  unfold takeWork
  split
  · exact ⟨.other (Harmless.refl d) rfl rfl rfl rfl rfl (by rw [hpc]; rintro _ ⟨⟩), h⟩
  · have hmoved : ∃ c', (if c.stopping then c.moveQueuedItemsToShutdownGapLocked else c) = c' ∧
        c'.pendingGap.intent = none ∧ c'.pc = .ready ∧ c'.ledger.taken = c.ledger.taken ∧
        c'.ledger.recorded = c.ledger.recorded ∧ c'.ledger.unrecorded = c.ledger.unrecorded := by
      refine ⟨_, rfl, ?_⟩
      split
      · obtain ⟨hi, hp, ht, hr, hu, -⟩ := moveQueued_frame c.queue h.pending
        exact ⟨hi, hp.trans hpc, ht, hr, hu⟩
      · exact ⟨h.pending, hpc, rfl, rfl, rfl⟩
    obtain ⟨c', hc', hi, hp, ht, hr, hu⟩ := hmoved
    simp only [hc']
    split
    · refine ⟨.took c'.pendingGap hpc rfl rfl ?_ hr hu, rfl, fun g hg => ?_, fun g hg => ?_⟩
      · simp only [ht]
      · cases hg
        exact hi
      · rcases hg with hg | hg <;> cases hg
    split
    · obtain ⟨hcp, hcl, hcg⟩ := workerCleanup_frame env.removeMarker
        { c' with workerStopped := true, pc := .stopped } d
      refine ⟨.other (workerCleanup_harmless _ _ d) ?_ ?_ ?_ ?_ ?_ ?_, ?_, fun g hg => ?_,
        fun g hg => ?_⟩
      · rw [hcp, hpc]
        rfl
      · rw [hcp, hpc]
        rfl
      · rw [hcl]
        exact ht
      · rw [hcl]
        exact hr
      · rw [hcl]
        exact hu
      · rw [hcp]
        rintro _ ⟨⟩
      · rw [hcg]
        exact hi
      · rw [hcp] at hg
        cases hg
      · rw [hcp] at hg
        rcases hg with hg | hg <;> cases hg
    · split
      · refine ⟨.other (Harmless.refl d) ?_ ?_ ht hr hu (by rintro _ ⟨⟩), hi, fun g hg => ?_,
          fun g hg => ?_⟩
        · rw [hpc]
          rfl
        · rw [hpc]
          rfl
        · cases hg
        · rcases hg with hg | hg <;> cases hg
      · refine ⟨.other (Harmless.refl d) (by rw [hp, hpc]) (by rw [hp, hpc]) ht hr hu
          (by rw [hp]; rintro _ ⟨⟩), hi, fun g hg => ?_, fun g hg => ?_⟩
        · rw [hp] at hg
          cases hg
        · rw [hp] at hg
          rcases hg with hg | hg <;> cases hg

theorem FreshIntents.of_none (hpending : c.pendingGap.intent = none)
    (hbefore : c.pc.beforeIntent = none) (hheld : ∀ g, c.pc ≠ .update g ∧ c.pc ≠ .removeIntent g) :
    FreshIntents c :=
  ⟨hpending, fun _ hg => absurd (hbefore.symm.trans hg) nofun,
    fun g hg => absurd hg (not_or.mpr (hheld g))⟩

theorem freshIntents_afterPersist (outcome : PersistOutcome) (item : Item)
    (h : c.pendingGap.intent = none) : FreshIntents (afterPersist outcome item c) := by
  have hremove : c.removeFrontLocked.pendingGap = c.pendingGap := by
    unfold Coordinator.removeFrontLocked
    split <;> rfl
  cases outcome with
  | ok =>
    refine .of_none ?_ rfl fun g => ⟨by simp [afterPersist], by simp [afterPersist]⟩
    simp only [afterPersist, hremove]
    exact h
  | maintenanceLocked =>
    exact .of_none h rfl fun g => ⟨by simp [afterPersist], by simp [afterPersist]⟩
  | failed =>
    refine .of_none ?_ rfl fun g => ⟨by simp [afterPersist], by simp [afterPersist]⟩
    simp only [afterPersist, Coordinator.addGap, hremove]
    exact addGapLocked_intent h _ item

/-- The persist branch is not about the gap in the worker's hands. -/
theorem afterPersist_frame (outcome : PersistOutcome) (item : Item) (c : Coordinator) :
    (afterPersist outcome item c).pc = .ready ∧
      (afterPersist outcome item c).ledger.taken = c.ledger.taken ∧
      (afterPersist outcome item c).ledger.recorded = c.ledger.recorded ∧
      (afterPersist outcome item c).ledger.unrecorded = c.ledger.unrecorded := by
  have hremove : c.removeFrontLocked.ledger = c.ledger := by
    unfold Coordinator.removeFrontLocked
    split <;> rfl
  cases outcome <;> simp [afterPersist, Coordinator.addGap, hremove]

/-- **Every step of a worker is one of the gap steps**, and gaps keep fresh intents. -/
theorem workerStep_gapStep (env : WorkerEnv) (d : Disk) (h : FreshIntents c) :
    GapStep env c d (workerStep env c d).1 (workerStep env c d).2 ∧
      FreshIntents (workerStep env c d).1 := by
  unfold workerStep
  split
  case h_1 hpc =>
    have hd := attemptCreateProcessMarker_harmless env.marker c d
    obtain ⟨m, clean, hm⟩ := attemptCreateProcessMarker_frame env.marker c d
    simp only [hm]
    exact ⟨.other hd (by rw [hpc]; rfl) (by rw [hpc]; rfl) rfl rfl rfl (by rintro _ ⟨⟩),
      .of_none h.pending rfl fun g => ⟨by rintro ⟨⟩, by rintro ⟨⟩⟩⟩
  case h_2 hpc =>
    have hd := attemptEnsureGapState_harmless env.ensure c d
    obtain ⟨ready, hr⟩ := attemptEnsureGapState_frame env.ensure c d
    simp only [hr]
    exact ⟨.other hd (by rw [hpc]; rfl) (by rw [hpc]; rfl) rfl rfl rfl (by rintro _ ⟨⟩),
      .of_none h.pending rfl fun g => ⟨by rintro ⟨⟩, by rintro ⟨⟩⟩⟩
  case h_3 hpc => exact takeWork_gapStep env d h hpc
  case h_4 work hpc =>
    have hd := attemptCreateProcessMarker_harmless env.marker c d
    obtain ⟨m, clean, hm⟩ := attemptCreateProcessMarker_frame env.marker c d
    simp only [hm]
    cases work with
    | gap g =>
      refine ⟨.other hd (by rw [hpc]; rfl) (by rw [hpc]; rfl) rfl rfl rfl (by rintro _ ⟨⟩),
        h.pending, fun g' hg => ?_, fun g' hg => by rcases hg with hg | hg <;> cases hg⟩
      cases hg
      exact h.before g (by rw [hpc]; rfl)
    | item i =>
      exact ⟨.other hd (by rw [hpc]; rfl) (by rw [hpc]; rfl) rfl rfl rfl (by rintro _ ⟨⟩),
        .of_none h.pending rfl fun g => ⟨by rintro ⟨⟩, by rintro ⟨⟩⟩⟩
  case h_5 work hpc =>
    have hd := attemptEnsureGapState_harmless env.ensure c d
    obtain ⟨ready, hr⟩ := attemptEnsureGapState_frame env.ensure c d
    simp only [hr]
    cases work with
    | gap g =>
      refine ⟨.other hd (by rw [hpc]; rfl) (by rw [hpc]; rfl) rfl rfl rfl (by rintro _ ⟨⟩),
        h.pending, fun g' hg => ?_, fun g' hg => by rcases hg with hg | hg <;> cases hg⟩
      cases hg
      exact h.before g (by rw [hpc]; rfl)
    | item i =>
      exact ⟨.other hd (by rw [hpc]; rfl) (by rw [hpc]; rfl) rfl rfl rfl (by rintro _ ⟨⟩),
        .of_none h.pending rfl fun g => ⟨by rintro ⟨⟩, by rintro ⟨⟩⟩⟩
  case h_6 gap hpc =>
    have hd := writeProcessMarkerFromWorker_harmless .pending false env.markerWrite c d
    obtain ⟨clean, hw⟩ := writeProcessMarkerFromWorker_frame .pending false env.markerWrite c d
    simp only [hw]
    refine ⟨.other hd (by rw [hpc]; rfl) (by rw [hpc]; rfl) rfl rfl rfl (by rintro _ ⟨⟩), h.pending,
      fun g' hg => ?_, fun g' hg => by rcases hg with hg | hg <;> cases hg⟩
    cases hg
    exact h.before gap (by rw [hpc]; rfl)
  case h_7 gap hpc =>
    have hnone := h.before gap (by rw [hpc]; rfl)
    obtain ⟨hgrows, hbelow, hnext, hjson, hlock, hrefused, hcreated⟩ :=
      createGapIntent_spec env.intent d
    split
    · rename_i hsome
      rw [hnone] at hsome
      cases hsome
    · simp only
      split
      · rename_i name hname
        obtain ⟨hmem, hfresh⟩ := hcreated name hname
        refine ⟨.intentCreated gap name hpc rfl hmem hfresh hgrows hbelow hnext hjson hlock rfl,
          h.pending, by rintro _ ⟨⟩, fun g hg => ?_⟩
        rcases hg with hg | hg
        · cases hg
          rfl
        · cases hg
      · rename_i hnot
        exact ⟨.intentRefused gap hpc hnone rfl (hrefused hnot) hgrows hbelow hnext hjson hlock rfl,
          .of_none h.pending rfl fun g => ⟨by rintro ⟨⟩, by rintro ⟨⟩⟩⟩
  case h_8 gap hpc =>
    simp only
    split
    · rename_i hok
      refine ⟨.updated gap hpc rfl rfl hok rfl, h.pending, by rintro _ ⟨⟩, fun g hg => ?_⟩
      rcases hg with hg | hg
      · cases hg
      · cases hg
        exact h.held gap (Or.inl hpc)
    · exact ⟨.updateFailed gap hpc rfl rfl rfl,
        .of_none h.pending rfl fun g => ⟨by rintro ⟨⟩, by rintro ⟨⟩⟩⟩
  case h_9 gap hpc =>
    exact ⟨.marked gap hpc rfl rfl rfl,
      .of_none h.pending rfl fun g => ⟨by rintro ⟨⟩, by rintro ⟨⟩⟩⟩
  case h_10 gap hpc =>
    exact ⟨.removed gap hpc _ rfl rfl rfl,
      .of_none h.pending rfl fun g => ⟨by rintro ⟨⟩, by rintro ⟨⟩⟩⟩
  case h_11 persisted hpc =>
    have hd := writeProcessMarkerFromWorker_harmless
      (if persisted then .clean else .unknown) persisted env.markerWrite c d
    obtain ⟨clean, hw⟩ := writeProcessMarkerFromWorker_frame
      (if persisted then .clean else .unknown) persisted env.markerWrite c d
    simp only [hw]
    exact ⟨.other hd (by rw [hpc]; rfl) (by rw [hpc]; rfl) rfl rfl rfl (by rintro _ ⟨⟩),
      .of_none h.pending rfl fun g => ⟨by rintro ⟨⟩, by rintro ⟨⟩⟩⟩
  case h_12 item hpc =>
    obtain ⟨hp, ht, hr, hu⟩ := afterPersist_frame env.persist item c
    exact ⟨.other (Harmless.refl d) (by rw [hp, hpc]; rfl) (by rw [hp, hpc]; rfl) ht hr hu
      (by rw [hp]; rintro _ ⟨⟩),
      freshIntents_afterPersist env.persist item h.pending⟩
  case h_13 hpc =>
    exact ⟨.other (Harmless.refl d) rfl rfl rfl rfl rfl (by rw [hpc]; rintro _ ⟨⟩), h⟩

/-! ## One step of the world -/

/-- Everything a step can do to the gap files and to the gaps in the workers' hands. -/
inductive WorldStep (w : World) (a : Action) (w' : World) : Prop where
  | idle (coordinators : w'.coordinators = w.coordinators) (disk : w'.disk = w.disk)
      (takenBefore : w'.takenBefore = w.takenBefore)
  | queued (i : ℕ) (c c' : Coordinator) (get : w.coordinators[i]? = some c)
      (coordinators : w'.coordinators = w.coordinators.set i c') (disk : w'.disk = w.disk)
      (takenBefore : w'.takenBefore = w.takenBefore) (pc : c'.pc = c.pc)
      (taken : c'.ledger.taken = c.ledger.taken)
      (recorded : c'.ledger.recorded = c.ledger.recorded)
      (unrecorded : c'.ledger.unrecorded = c.ledger.unrecorded)
  | created (coordinators : w'.coordinators = w.coordinators ++ [({} : Coordinator)]) (disk : w'.disk = w.disk)
      (takenBefore : w'.takenBefore = w.takenBefore)
  | worked (i : ℕ) (env : WorkerEnv) (c c' : Coordinator) (action : a = .worker i env)
      (get : w.coordinators[i]? = some c) (coordinators : w'.coordinators = w.coordinators.set i c')
      (gap : GapStep env c w.disk c' w'.disk) (takenBefore : w'.takenBefore = w.takenBefore)
  | crashed (action : a = .crash) (coordinators : w'.coordinators = [])
      (files : Harmless w.disk w'.disk) (takenBefore : w'.takenBefore = w.taken)

/-- A submission is not about the gap in the worker's hands. -/
theorem enqueueOrGap_frame (item : Item) (c : Coordinator) :
    (enqueueOrGap item c).1.pc = c.pc ∧
      (enqueueOrGap item c).1.ledger.taken = c.ledger.taken ∧
      (enqueueOrGap item c).1.ledger.recorded = c.ledger.recorded ∧
      (enqueueOrGap item c).1.ledger.unrecorded = c.ledger.unrecorded := by
  unfold enqueueOrGap
  simp only
  split
  · exact ⟨rfl, rfl, rfl, rfl⟩
  split
  · exact ⟨rfl, rfl, rfl, rfl⟩
  split <;> exact ⟨rfl, rfl, rfl, rfl⟩

theorem worldStep_onCoordinator (w : World) (a : Action) (i : ℕ) {f : Coordinator → Coordinator}
    (hf : ∀ c, (f c).pc = c.pc ∧ (f c).ledger.taken = c.ledger.taken ∧
      (f c).ledger.recorded = c.ledger.recorded ∧
      (f c).ledger.unrecorded = c.ledger.unrecorded) :
    WorldStep w a (w.onCoordinator i f) := by
  unfold World.onCoordinator
  split
  · rename_i c hc
    obtain ⟨hp, ht, hr, hu⟩ := hf c
    exact .queued i c (f c) hc rfl rfl rfl hp ht hr hu
  · exact .idle rfl rfl rfl

/-- **Every step is one of the listed ones.** -/
theorem step_worldStep (w : World) (a : Action) (h : ∀ c ∈ w.coordinators, FreshIntents c) :
    WorldStep w a (step w a) := by
  cases a with
  | forRoot =>
    simp only [step]
    split
    · exact .idle rfl rfl rfl
    · exact .created rfl rfl rfl
  | submitBatch i utc events uuid =>
    refine worldStep_onCoordinator w _ i fun c => ?_
    unfold submitBatch
    split
    · exact ⟨rfl, rfl, rfl, rfl⟩
    · exact enqueueOrGap_frame _ c
  | submitRetraction i commitId utc =>
    exact worldStep_onCoordinator w _ i fun c => enqueueOrGap_frame _ c
  | worker i env =>
    simp only [step]
    split
    · rename_i c hc
      exact .worked i env c _ rfl hc rfl
        (workerStep_gapStep env w.disk (h c (List.mem_of_getElem? hc))).1 rfl
    · exact .idle rfl rfl rfl
  | shutdownAll =>
    simp only [step]
    split
    · exact .idle rfl rfl rfl
    · exact .idle rfl rfl rfl
  | shutdown =>
    simp only [step]
    split
    · exact worldStep_onCoordinator w _ _ fun c => ⟨rfl, rfl, rfl, rfl⟩
    · exact .idle rfl rfl rfl
  | shutdownDone =>
    simp only [step]
    split
    · split <;> exact .idle rfl rfl rfl
    · exact .idle rfl rfl rfl
    · exact .idle rfl rfl rfl
  | crash => exact .crashed rfl rfl (Harmless.of_markers rfl rfl rfl (le_refl _)) rfl

/-! ## Intent names -/

/-- Intent files are named once: a held intent is on disk, is held by one worker only, and every
name on disk has been used. -/
structure Names (w : World) : Prop where
  fresh : ∀ c ∈ w.coordinators, FreshIntents c
  below : ∀ n ∈ w.disk.intents, n < w.disk.nextName
  held : ∀ c ∈ w.coordinators, ∀ n, c.pc.held = some n → n ∈ w.disk.intents
  once : ∀ (i j : ℕ) (ci cj : Coordinator) (n : ℕ), w.coordinators[i]? = some ci → w.coordinators[j]? = some cj →
    ci.pc.held = some n → cj.pc.held = some n → i = j

theorem names_initial : Names {} := by
  constructor <;> simp

/-- An intent that no worker holds. -/
def Orphan (w : World) : Prop :=
  ∃ n ∈ w.disk.intents, ∀ c ∈ w.coordinators, c.pc.held ≠ some n

/-- The entry at a place of a list with one entry replaced. -/
theorem getElem?_set_cases {α : Type*} {l : List α} {i j : ℕ} {b x : α}
    (h : (l.set i b)[j]? = some x) : i = j ∧ x = b ∨ i ≠ j ∧ l[j]? = some x := by
  rw [List.getElem?_set] at h
  split at h
  · rename_i hij
    split at h
    · exact Or.inl ⟨hij, (Option.some.inj h).symm⟩
    · cases h
  · rename_i hij
    exact Or.inr ⟨hij, h⟩

/-- What a step of one worker does to the intents: those on disk are old, or of a new name; and
what the worker holds afterwards it held before, or it is a new name. -/
theorem GapStep.names {env : WorkerEnv} {c c' : Coordinator} (h : GapStep env c d c' d') :
    d.nextName ≤ d'.nextName ∧ (∀ n ∈ d'.intents, n ∈ d.intents ∨ n < d'.nextName) ∧
      (∀ n ∈ d.intents, n ∈ d'.intents ∨ c.pc.held = some n ∧ c'.pc.held = none) ∧
      ∀ n, c'.pc.held = some n → n ∈ d'.intents ∧ d.nextName ≤ n ∨ c.pc.held = some n := by
  cases h with
  | other files uncounted held taken recorded unrecorded calm =>
    refine ⟨files.nextName, fun n hn => Or.inl (files.intents ▸ hn),
      fun n hn => Or.inl (files.intents.symm ▸ hn), fun n hn => Or.inr (held ▸ hn)⟩
  | took gap pc pc' disk taken recorded unrecorded =>
    subst disk
    refine ⟨le_refl _, fun n hn => Or.inl hn, fun n hn => Or.inl hn, fun n hn => ?_⟩
    rw [pc'] at hn
    cases hn
  | intentCreated gap name pc pc' mem fresh grows below next json lock ledger =>
    refine ⟨next, below, fun n hn => Or.inl (grows hn), fun n hn => ?_⟩
    rw [pc'] at hn
    cases hn
    exact Or.inl ⟨mem, fresh⟩
  | intentRefused gap pc intent pc' refused grows below next json lock ledger =>
    refine ⟨next, below, fun n hn => Or.inl (grows hn), fun n hn => ?_⟩
    rw [pc'] at hn
    cases hn
  | updated gap pc pc' disk ok ledger =>
    subst disk
    have hspec := updateGap_spec env.update gap.reason gap.counts d
    refine ⟨hspec.nextName.ge, fun n hn => Or.inl (hspec.intents ▸ hn),
      fun n hn => Or.inl (hspec.intents.symm ▸ hn), fun n hn => Or.inr ?_⟩
    rw [pc'] at hn
    rw [pc]
    exact hn
  | updateFailed gap pc pc' disk ledger =>
    subst disk
    have hspec := updateGap_spec env.update gap.reason gap.counts d
    refine ⟨hspec.nextName.ge, fun n hn => Or.inl (hspec.intents ▸ hn),
      fun n hn => Or.inl (hspec.intents.symm ▸ hn), fun n hn => ?_⟩
    rw [pc'] at hn
    cases hn
  | marked gap pc pc' disk ledger =>
    subst disk
    have hspec := markGapUnknown_spec env.markUnknown d
    refine ⟨hspec.nextName.ge, fun n hn => Or.inl (hspec.intents ▸ hn),
      fun n hn => Or.inl (hspec.intents.symm ▸ hn), fun n hn => ?_⟩
    rw [pc'] at hn
    cases hn
  | removed gap pc persisted pc' disk ledger =>
    subst disk
    have hframe : (removeGapIntent gap.intent env.removeIntent d).2.nextName = d.nextName ∧
        (∀ n ∈ (removeGapIntent gap.intent env.removeIntent d).2.intents, n ∈ d.intents) ∧
        ∀ n ∈ d.intents, n ∈ (removeGapIntent gap.intent env.removeIntent d).2.intents ∨
          gap.intent = some n := by
      unfold removeGapIntent
      cases hgap : gap.intent with
      | none => exact ⟨rfl, fun n hn => hn, fun n hn => Or.inl hn⟩
      | some name =>
        have hcase : ∀ n ∈ d.intents, n ∈ d.intents.filter (· ≠ name) ∨ some name = some n := by
          intro n hn
          by_cases hname : n = name
          · exact Or.inr (by rw [hname])
          · exact Or.inl (by simp [hn, hname])
        cases env.removeIntent with
        | ok => exact ⟨rfl, fun n hn => (List.mem_filter.mp hn).1, hcase⟩
        | failed => exact ⟨rfl, fun n hn => hn, fun n hn => Or.inl hn⟩
        | unlinkedNotSynced => exact ⟨rfl, fun n hn => (List.mem_filter.mp hn).1, hcase⟩
    obtain ⟨hnext, hold, hkept⟩ := hframe
    refine ⟨hnext.ge, fun n hn => Or.inl (hold n hn), fun n hn => ?_, fun n hn => ?_⟩
    · rcases hkept n hn with hk | hk
      · exact Or.inl hk
      · refine Or.inr ⟨?_, ?_⟩
        · rw [pc]
          exact hk
        · rw [pc']
          rfl
    · rw [pc'] at hn
      cases hn

theorem freshIntents_step {w : World} (a : Action) (h : ∀ c ∈ w.coordinators, FreshIntents c) :
    ∀ c ∈ (step w a).coordinators, FreshIntents c :=
  coordinators_step a (.of_none rfl rfl fun _ => ⟨by rintro ⟨⟩, by rintro ⟨⟩⟩)
    (fun item _ _ _ _ hc => freshIntents_enqueueOrGap item hc)
    (fun _ hc => ⟨hc.pending, hc.before, hc.held⟩)
    (fun env _ d hc => (workerStep_gapStep env d hc).2) h

/-- **The names stay in order.** -/
theorem names_step {w : World} (a : Action) (h : Names w) : Names (step w a) := by
  have hfresh := freshIntents_step a h.fresh
  cases step_worldStep w a h.fresh with
  | idle coordinators disk takenBefore =>
    exact ⟨hfresh, by rw [disk]; exact h.below, by rw [coordinators, disk]; exact h.held,
      by rw [coordinators]; exact h.once⟩
  | queued i c c' get coordinators disk takenBefore pc taken recorded unrecorded =>
    refine ⟨hfresh, by rw [disk]; exact h.below, ?_, ?_⟩
    · rw [coordinators, disk]
      refine Components.forall_mem_set h.held fun n hn => ?_
      rw [pc] at hn
      exact h.held c (List.mem_of_getElem? get) n hn
    · have hback : ∀ (j : ℕ) (cj : Coordinator), (w.coordinators.set i c')[j]? = some cj →
          ∃ cj' : Coordinator, w.coordinators[j]? = some cj' ∧ cj'.pc = cj.pc := by
        intro j cj hj
        rcases getElem?_set_cases hj with ⟨rfl, rfl⟩ | ⟨-, hj⟩
        · exact ⟨c, get, pc.symm⟩
        · exact ⟨cj, hj, rfl⟩
      rw [coordinators]
      intro j k cj ck n hj hk hnj hnk
      obtain ⟨cj', hj', hpj⟩ := hback j cj hj
      obtain ⟨ck', hk', hpk⟩ := hback k ck hk
      exact h.once j k cj' ck' n hj' hk' (by rw [hpj]; exact hnj) (by rw [hpk]; exact hnk)
  | created coordinators disk takenBefore =>
    have hnew : ({} : Coordinator).pc.held = none := rfl
    refine ⟨hfresh, by rw [disk]; exact h.below, ?_, ?_⟩
    · rw [coordinators, disk]
      intro c hc n hn
      rcases List.mem_append.mp hc with hc | hc
      · exact h.held c hc n hn
      · rw [List.mem_singleton.mp hc, hnew] at hn
        cases hn
    · have hback : ∀ (j : ℕ) (cj : Coordinator) (n : ℕ),
          (w.coordinators ++ [({} : Coordinator)])[j]? = some cj → cj.pc.held = some n →
          w.coordinators[j]? = some cj := by
        intro j cj n hj hn
        rw [List.getElem?_append] at hj
        split at hj
        · exact hj
        · have : cj = {} := List.mem_singleton.mp (List.mem_of_getElem? hj)
          rw [this, hnew] at hn
          cases hn
      rw [coordinators]
      intro j k cj ck n hj hk hnj hnk
      exact h.once j k cj ck n (hback j cj n hj hnj) (hback k ck n hk hnk) hnj hnk
  | worked i env c c' action get coordinators gap takenBefore =>
    obtain ⟨hnext, hbelow, hkept, hheld⟩ := gap.names
    have hmem := List.mem_of_getElem? get
    refine ⟨hfresh, fun n hn => ?_, ?_, ?_⟩
    · rcases hbelow n hn with hn | hn
      · exact (h.below n hn).trans_le hnext
      · exact hn
    · -- an intent held by another worker is not the one removed
      rw [coordinators]
      intro x hx n hn
      obtain ⟨j, hj⟩ := List.getElem?_of_mem hx
      rcases getElem?_set_cases hj with ⟨rfl, rfl⟩ | ⟨hij, hj⟩
      · rcases hheld n hn with ⟨hn', -⟩ | hold
        · exact hn'
        · rcases hkept n (h.held c hmem n hold) with hk | ⟨-, hnone⟩
          · exact hk
          · rw [hnone] at hn
            cases hn
      · rcases hkept n (h.held x (List.mem_of_getElem? hj) n hn) with hk | ⟨hc, -⟩
        · exact hk
        · exact absurd (h.once i j c x n get hj hc hn) hij
    · -- a new name was held by nobody
      have hback : ∀ (j : ℕ) (cj : Coordinator) (n : ℕ),
          (w.coordinators.set i c')[j]? = some cj → cj.pc.held = some n →
          (∃ cj' : Coordinator, w.coordinators[j]? = some cj' ∧ cj'.pc.held = some n) ∨
            i = j ∧ w.disk.nextName ≤ n := by
        intro j cj n hj hn
        rcases getElem?_set_cases hj with ⟨rfl, rfl⟩ | ⟨-, hj⟩
        · rcases hheld n hn with ⟨-, hn'⟩ | hold
          · exact Or.inr ⟨rfl, hn'⟩
          · exact Or.inl ⟨c, get, hold⟩
        · exact Or.inl ⟨cj, hj, hn⟩
      have hlt : ∀ (j : ℕ) (cj : Coordinator) (n : ℕ), w.coordinators[j]? = some cj → cj.pc.held = some n →
          n < w.disk.nextName := fun j cj n hj hn =>
        h.below n (h.held cj (List.mem_of_getElem? hj) n hn)
      rw [coordinators]
      intro j k cj ck n hj hk hnj hnk
      rcases hback j cj n hj hnj with ⟨cj', hj', hnj'⟩ | ⟨rfl, hge⟩
      · rcases hback k ck n hk hnk with ⟨ck', hk', hnk'⟩ | ⟨rfl, hge⟩
        · exact h.once j k cj' ck' n hj' hk' hnj' hnk'
        · exact absurd (hlt j cj' n hj' hnj') (not_lt.mpr hge)
      · rcases hback k ck n hk hnk with ⟨ck', hk', hnk'⟩ | ⟨rfl, -⟩
        · exact absurd (hlt k ck' n hk' hnk') (not_lt.mpr hge)
        · rfl
  | crashed action coordinators files takenBefore =>
    refine ⟨hfresh, fun n hn => ?_, by rw [coordinators]; simp, by rw [coordinators]; simp⟩
    rw [files.intents] at hn
    exact (h.below n hn).trans_le files.nextName

/-- **Nobody removes an orphan.** -/
theorem orphan_step {w : World} (a : Action) (hnames : Names w) (h : Orphan w) :
    Orphan (step w a) := by
  obtain ⟨n, hn, hfree⟩ := h
  cases step_worldStep w a hnames.fresh with
  | idle coordinators disk takenBefore =>
    exact ⟨n, by rw [disk]; exact hn, by rw [coordinators]; exact hfree⟩
  | queued i c c' get coordinators disk takenBefore pc taken recorded unrecorded =>
    refine ⟨n, by rw [disk]; exact hn, ?_⟩
    rw [coordinators]
    refine Components.forall_mem_set hfree ?_
    rw [pc]
    exact hfree c (List.mem_of_getElem? get)
  | created coordinators disk takenBefore =>
    refine ⟨n, by rw [disk]; exact hn, ?_⟩
    rw [coordinators]
    intro c hc
    rcases List.mem_append.mp hc with hc | hc
    · exact hfree c hc
    · rw [List.mem_singleton.mp hc]
      rintro ⟨⟩
  | worked i env c c' action get coordinators gap takenBefore =>
    obtain ⟨-, -, hkept, hheld⟩ := gap.names
    have hc := hfree c (List.mem_of_getElem? get)
    refine ⟨n, ?_, ?_⟩
    · rcases hkept n hn with hk | ⟨hk, -⟩
      · exact hk
      · exact absurd hk hc
    · rw [coordinators]
      refine Components.forall_mem_set hfree fun hn' => ?_
      rcases hheld n hn' with ⟨-, hge⟩ | hold
      · exact absurd (hnames.below n hn) (not_lt.mpr hge)
      · exact hc hold
  | crashed action coordinators files takenBefore =>
    refine ⟨n, by rw [files.intents]; exact hn, ?_⟩
    rw [coordinators]
    simp

/-- A worker that lets go of an intent without removing it leaves an orphan. -/
theorem orphan_of_release {w w' : World} {i : ℕ} {c c' : Coordinator} {n : ℕ} (hnames : Names w)
    (get : w.coordinators[i]? = some c) (coordinators : w'.coordinators = w.coordinators.set i c')
    (hheld : c.pc.held = some n) (hrelease : c'.pc.held = none) (hdisk : n ∈ w'.disk.intents) :
    Orphan w' := by
  refine ⟨n, hdisk, ?_⟩
  rw [coordinators]
  intro x hx hn
  obtain ⟨j, hj⟩ := List.getElem?_of_mem hx
  rcases getElem?_set_cases hj with ⟨rfl, rfl⟩ | ⟨hij, hj⟩
  · rw [hrelease] at hn
    cases hn
  · exact hij (hnames.once i j c x n get hj hheld hn)

/-- An intent file is on disk as long as a worker holds it, and no other worker holds it. -/
def Unshared (w : World) : Prop :=
  ∀ (i : ℕ) (c : Coordinator) (n : ℕ), w.coordinators[i]? = some c → c.pc.held = some n →
    n ∈ w.disk.intents ∧ n < w.disk.nextName ∧
      ∀ (j : ℕ) (c' : Coordinator), w.coordinators[j]? = some c' → c'.pc.held = some n → i = j

end Recorder
end SemanticMemory
