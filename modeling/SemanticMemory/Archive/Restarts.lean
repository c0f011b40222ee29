import SemanticMemory.Archive.Identity

/-!
# Clean restarts

A clean restart is a stop, the pieces of the publication thread until it has ended, the mark of the
clean stop, and a start.  The same run without it publishes what is queued at that moment, by a
checkpoint, and goes on with the process it has.

* `served` and `steady` are the two runs of a list of operations, and `answers` what their items are
  answered.
* `Alike` is the relation between the two memories: they differ in counters that nothing reads, and
  in the identities of loss notices from before the last restart.  Admissions (`alike_accept`) and
  pieces of the publication thread (`alike_work`) go in lockstep, and a restart on the one side
  meets a checkpoint on the other (`twin_restart`).
* `capture_identity` is the statement about both kinds of runs.
-/

namespace SemanticMemory
namespace Archive

variable {c : Config} {d d' : Disk} {m m' : Memory} {ss : List Semantic} {base : ℕ}

/-! ## The two runs -/

/-- What is done to an archive whose sources are registered and whose capture is enabled. -/
inductive Op where
  | admitItem (s : Semantic)
  | refuse
  | checkpoint (waiter : Bool)
  | work
  | restart

/-- How many pieces of the publication thread are left before it rests. -/
def Thread.rank : Thread → ℕ
  | .persistState => 2
  | .writeState _ => 1
  | .lay todo _ => todo.length + 8
  | .measure _ => 7
  | .appendQuarantine .. => 6
  | .appendObservations .. => 5
  | .stage .. => 4
  | .hold .. => 3
  | .publish .. => 2
  | .install .. => 1
  | _ => 0

/-- How many pieces publish what is queued. -/
def Memory.rank (m : Memory) : ℕ := m.thread.rank + 10 * m.queue.length

/-- Enough pieces for the publication thread to end after a stop. -/
def World.drainSteps (w : World) : ℕ :=
  match w.process with
  | none => 0
  | some m => m.rank + 3

/-- Pieces of the publication thread that nothing disturbs, until what is queued is published. -/
def World.drain (w : World) : List Action := List.replicate w.drainSteps (.work {})

/-- An operation, a restart as a clean one. -/
def Op.served (w : World) : Op → List Action
  | .admitItem s => [.admitItem {} s]
  | .refuse => [.refuse]
  | .checkpoint waiter => [.checkpoint waiter]
  | .work => [.work {}]
  | .restart => .stop :: w.drain ++ [.markClean .ok, .crash, .start none .ok]

/-- An operation without the restart. -/
def Op.steady (w : World) : Op → List Action
  | .restart => .checkpoint false :: w.drain
  | o => o.served w

/-- The run with clean restarts. -/
def served (c : Config) (w : World) (o : Op) : World := Runs.run (step c) w (o.served w)

/-- The run without the restarts. -/
def steady (c : Config) (w : World) (o : Op) : World := Runs.run (step c) w (o.steady w)

def Op.answer (c : Config) (w : World) : Op → Option Code
  | .admitItem s => w.process.map fun m => (acceptOne c {} m s).2
  | _ => none

/-- What the operations of a run are answered. -/
def answers (c : Config) (next : Config → World → Op → World) : World → List Op → List (Option Code)
  | _, [] => []
  | w, o :: os => o.answer c w :: answers c next (next c w o) os

/-- A collector of a new archive. -/
def started (c : Config) : World := step c {} (.start none .ok)

/-- A row of the index is a loss notice of this identity. -/
def Entry.isNoticeOf (e : Entry) (i : Identity) : Prop :=
  e.row.get "observation_kind" = Kind.lossNotice.json ∧
    e.row.get "source_instance_id" = .str i.source ∧
    e.row.get "source_local_sequence" = .int i.sequence

/-- No item bears the identity of a published loss notice that the process does not know. -/
def Mindful (w : World) : Op → Prop
  | .admitItem s => ∀ m ∈ w.process, m.identities s.identity = none →
      ∀ e ∈ m.index, ¬ e.isNoticeOf s.identity
  | _ => True

/-! ## The relation -/

/-- Two states that publication and admission treat alike. -/
structure State.Alike (s s' : State) : Prop where
  watermark : s.watermark = s'.watermark
  capacityStop : s.capacityStop = s'.capacityStop
  storageFailure : s.storageFailure = s'.storageFailure

/-- Two publication threads that are at the same place with the same batch. -/
inductive Thread.Alike : Thread → Thread → Prop where
  | idle : Alike .idle .idle
  | persistState : Alike .persistState .persistState
  | writeState (p p' : State) : Alike (.writeState p) (.writeState p')
  | lay (todo : List Item) (laid : Laid) : Alike (.lay todo laid) (.lay todo laid)
  | measure (laid : Laid) : Alike (.measure laid) (.measure laid)
  | appendQuarantine (laid : Laid) (b b' : Sizes) :
      Alike (.appendQuarantine laid b) (.appendQuarantine laid b')
  | appendObservations (laid : Laid) (b b' : Sizes) :
      Alike (.appendObservations laid b) (.appendObservations laid b')
  | stage (laid : Laid) (b b' : Sizes) : Alike (.stage laid b) (.stage laid b')
  | hold (laid : Laid) (b b' : Sizes) (p p' : State) (h : p.Alike p') :
      Alike (.hold laid b p) (.hold laid b' p')
  | publish (laid : Laid) (p p' : State) (h : p.Alike p') : Alike (.publish laid p) (.publish laid p')
  | install (laid : Laid) (p p' : State) (h : p.Alike p') : Alike (.install laid p) (.install laid p')

/-- Two memories alike, but for the identities in `L`. -/
structure Memory.Alike (L : Identity → Prop) (m m' : Memory) : Prop where
  state : m.state.Alike m'.state
  queue : m.queue = m'.queue
  queueBytes : m.queueBytes = m'.queueBytes
  thread : m.thread.Alike m'.thread
  identities : ∀ i, ¬ L i → m.identities i = m'.identities i

variable {L : Identity → Prop}

variable {t t' : Thread}

theorem Thread.Alike.inFlight (h : t.Alike t') : t.inFlight = t'.inFlight := by
  cases h <;> rfl

theorem Thread.Alike.installing (h : t.Alike t') : t.installing = t'.installing := by
  cases h <;> rfl

theorem Thread.Alike.idle_right (h : t.Alike t') (ht : t = .idle) : t' = .idle := by
  subst ht
  cases h
  rfl

theorem Thread.Alike.idle_left (h : t.Alike t') (ht : t' = .idle) : t = .idle := by
  subst ht
  cases h
  rfl

theorem Thread.Alike.rank (h : t.Alike t') : t.rank = t'.rank := by
  cases h <;> rfl

theorem Memory.Alike.live (h : m.Alike L m') : m.live = m'.live := by
  rw [Memory.live, h.thread.inFlight, h.queue, Memory.live]

theorem Memory.Alike.rank (h : m.Alike L m') : m.rank = m'.rank := by
  rw [Memory.rank, h.thread.rank, h.queue, Memory.rank]

/-! ### Admission -/

theorem Memory.Alike.forget (h : m.Alike L m') (i : Identity) :
    (m.forget i).Alike L (m'.forget i) := by
  refine ⟨h.state, h.queue, h.queueBytes, h.thread, fun j hj => ?_⟩
  show Function.update m.identities i none j = Function.update m'.identities i none j
  rw [Function.update_apply, Function.update_apply, h.identities j hj]

theorem Memory.Alike.know (h : m.Alike L m') (i : Identity) (hash : Str) :
    (m.know i hash).Alike L (m'.know i hash) := by
  refine ⟨h.state, h.queue, h.queueBytes, h.thread, fun j hj => ?_⟩
  show Function.update m.identities i (some hash) j = Function.update m'.identities i (some hash) j
  rw [Function.update_apply, Function.update_apply, h.identities j hj]

/-- A change of the counters is alike on both sides. -/
theorem Memory.Alike.updateState (h : m.Alike L m') (f : State → State)
    (hf : ∀ t : State, (f t).watermark = t.watermark ∧ (f t).capacityStop = t.capacityStop ∧
      (f t).storageFailure = t.storageFailure) :
    (m.updateState f).Alike L (m'.updateState f) := by
  refine ⟨⟨?_, ?_, ?_⟩, h.queue, h.queueBytes, h.thread, h.identities⟩
  · exact (hf m.state).1.trans (h.state.watermark.trans (hf m'.state).1.symm)
  · exact (hf m.state).2.1.trans (h.state.capacityStop.trans (hf m'.state).2.1.symm)
  · exact (hf m.state).2.2.trans (h.state.storageFailure.trans (hf m'.state).2.2.symm)

theorem Memory.Alike.enqueue (h : m.Alike L m') (i : Item) :
    (m.enqueue i).Alike L (m'.enqueue i) := by
  refine ⟨h.state, ?_, ?_, h.thread, h.identities⟩
  · show m.queue ++ [i] = m'.queue ++ [i]
    rw [h.queue]
  · show m.queueBytes + i.size = m'.queueBytes + i.size
    rw [h.queueBytes]

theorem Memory.Alike.displace (h : m.Alike L m') (index : ℕ) :
    (m.displace index).Alike L (m'.displace index) := by
  unfold Memory.displace
  rw [← h.queue]
  cases m.queue[index]? with
  | none => exact h
  | some item =>
    have hleft : Memory.Alike L
        { m with queue := m.queue.eraseIdx index, queueBytes := m.queueBytes - item.size }
        { m' with queue := m.queue.eraseIdx index, queueBytes := m'.queueBytes - item.size } := by
      refine ⟨h.state, rfl, ?_, h.thread, h.identities⟩
      show m.queueBytes - item.size = m'.queueBytes - item.size
      rw [h.queueBytes]
    dsimp only
    split_ifs
    · exact hleft.updateState
        (fun s => { s with knownDroppedUnits := s.knownDroppedUnits + 1 }) fun _ => ⟨rfl, rfl, rfl⟩
    · exact (hleft.forget _).updateState
        (fun s => { s with knownDroppedUnits := s.knownDroppedUnits + 1 }) fun _ => ⟨rfl, rfl, rfl⟩

theorem Memory.Alike.queueLocked (h : m.Alike L m') (i : Item) :
    (m.queueLocked c i).1.Alike L (m'.queueLocked c i).1 ∧
      (m.queueLocked c i).2 = (m'.queueLocked c i).2 := by
  have hfits : m.fits c i.size = m'.fits c i.size := by
    rw [Memory.fits, h.queue, h.queueBytes, Memory.fits]
  unfold Memory.queueLocked
  rw [← hfits, ← h.queue]
  split_ifs
  · exact ⟨h.enqueue i, rfl⟩
  · cases m.queue.findIdx? Memory.displaceable with
    | none => exact ⟨h, rfl⟩
    | some index => exact ⟨(h.displace index).enqueue i, rfl⟩
  · exact ⟨h, rfl⟩

/-- **An admission** of an item whose identity both memories know, or neither, goes in lockstep. -/
theorem alike_accept (h : m.Alike L m') (s : Semantic)
    (hs : m.identities s.identity = m'.identities s.identity) :
    (acceptOne c {} m s).1.Alike L (acceptOne c {} m' s).1 ∧
      (acceptOne c {} m s).2 = (acceptOne c {} m' s).2 := by
  unfold acceptOne
  rw [← h.state.storageFailure, ← h.state.capacityStop, ← hs]
  split_ifs
  · exact ⟨h.updateState
      (fun t => { t with admissionRefusedUnits := t.admissionRefusedUnits + 1 })
      fun _ => ⟨rfl, rfl, rfl⟩, rfl⟩
  · exact ⟨h, rfl⟩
  · exact ⟨h, rfl⟩
  · exact ⟨h, rfl⟩
  · exact ⟨h.updateState
      (fun t => { t with capacityRefusedUnits := t.capacityRefusedUnits + 1 })
      fun _ => ⟨rfl, rfl, rfl⟩, rfl⟩
  · exact ⟨h, rfl⟩
  · cases m.identities s.identity with
    | some previous =>
      dsimp only
      by_cases hsame : previous = s.contentHash c.sha256
      · rw [if_pos hsame, if_pos hsame]
        exact ⟨h, rfl⟩
      · rw [if_neg hsame, if_neg hsame]
        have hcount : m.countConflict.Alike L m'.countConflict :=
          h.updateState (fun t => { t with identityConflicts := t.identityConflicts + 1 })
            fun _ => ⟨rfl, rfl, rfl⟩
        obtain ⟨hqueue, hcode⟩ := hcount.queueLocked (c := c) ⟨s, s.size, true⟩
        exact ⟨hqueue, by rw [hcode]⟩
    | none =>
      dsimp only
      obtain ⟨hqueue, hcode⟩ := h.queueLocked (c := c) ⟨s, s.size, false⟩
      rw [← hcode]
      split_ifs
      · exact ⟨hqueue.know _ _, rfl⟩
      · exact ⟨hqueue.updateState
          (fun t => { t with knownDroppedUnits := t.knownDroppedUnits + 1 })
          fun _ => ⟨rfl, rfl, rfl⟩, rfl⟩

/-! ### The publication thread -/

/-- A batch leaves both queues. -/
theorem alike_taken (h : m.Alike L m') (n : ℕ) :
    (m.taken n).Alike L (m'.taken n) := by
  have hused : m.state.durableBytes + m.state.quarantineBytes =
      m'.state.durableBytes + m'.state.quarantineBytes := by
    have hbytes := congrArg Watermark.durableBytes h.state.watermark
    have hquarantine := congrArg Watermark.quarantineBytes h.state.watermark
    simp only [State.watermark] at hbytes hquarantine
    omega
  have hseq : m.state.durableSeq = m'.state.durableSeq :=
    congrArg Watermark.durableSeq h.state.watermark
  unfold Memory.taken
  rw [← h.queue, ← h.queueBytes, ← hused, ← hseq]
  exact ⟨h.state, rfl, rfl, .lay _ _, h.identities⟩

theorem alike_layItem (h : m.Alike L m') (i : Item) (todo : List Item) (laid : Laid) :
    (m.layItem c i todo laid).Alike L (m'.layItem c i todo laid) := by
  have hrefuse : m.refuseForCapacity.Alike L m'.refuseForCapacity := by
    refine ⟨⟨h.state.watermark, rfl, h.state.storageFailure⟩, h.queue, h.queueBytes, h.thread,
      h.identities⟩
  have hat {n n' : Memory} (hn : n.Alike L n') {t : Thread} (ht : t.Alike t) :
      Memory.Alike L { n with thread := t } { n' with thread := t } :=
    ⟨hn.state, hn.queue, hn.queueBytes, ht, hn.identities⟩
  unfold Memory.layItem
  dsimp only
  split_ifs
  · exact hat hrefuse (.lay todo laid)
  · exact hat h (.lay todo _)
  · exact hat (hrefuse.forget _) (.lay todo laid)
  · exact hat h (.lay todo _)

theorem alike_pending {s s' : State} (h : s.Alike s') (laid : Laid) :
    (Memory.pending c s laid).Alike (Memory.pending c s' laid) := by
  have hseq := congrArg Watermark.durableSeq h.watermark
  have hoffset := congrArg Watermark.durableOffset h.watermark
  have hbytes := congrArg Watermark.durableBytes h.watermark
  have hquarantine := congrArg Watermark.quarantineBytes h.watermark
  simp only [State.watermark] at hseq hoffset hbytes hquarantine
  unfold Memory.pending
  cases laid.observations.getLast? with
  | none =>
    refine ⟨?_, ?_, h.storageFailure⟩
    · simp only [State.watermark, hseq, hoffset, hbytes, hquarantine]
    · simp only [h.capacityStop, hbytes, hquarantine]
  | some l =>
    refine ⟨?_, ?_, h.storageFailure⟩
    · simp only [State.watermark, hoffset, hbytes, hquarantine]
    · simp only [h.capacityStop, hbytes, hquarantine]

/-- What two memories need besides, to go in lockstep: they are settled and know the same. -/
structure Twin (c : Config) (d : Disk) (m : Memory) (base : ℕ) (d' : Disk) (m' : Memory)
    (ss : List Semantic) : Prop where
  settled : Settled c d m ss
  knows : Knows c m ss base
  only : KnowsOnly c m ss base
  base_le : base ≤ ss.length
  settled' : Settled c d' m' ss
  knows' : Knows c m' ss 0
  only' : KnowsOnly c m' ss 0
  tallied : Tallied m'
  alike : m.Alike (fun i => ∃ s ∈ ss.take base, IsNotice s ∧ s.identity = i) m'

/-- A batch is installed on both sides. -/
theorem alike_installed (hsha : ∀ t, c.sha256 t ≠ []) (h : Twin c d m base d' m' ss)
    (halike : m.Alike L m') {laid : Laid} {p p' : State} (hp : p.Alike p')
    (hplace : m.thread = .install laid p) (hplace' : m'.thread = .install laid p') :
    (m.installed c laid p).Alike L (m'.installed c laid p') := by
  have hrest (m : Memory) (p : State) (d : Disk) (hs : Settled c d m ss)
      (hplace : m.thread = .install laid p) :
      m.rememberAll c laid.observations m.state.durableOffset = { m with
        index := (m.rememberAll c laid.observations m.state.durableOffset).index
        identities := (m.rememberAll c laid.observations m.state.durableOffset).identities } := by
    have hthread := hs.holds.thread
    rw [hplace] at hthread
    rw [rememberAll_eq laid.observations m m.state.durableOffset (m.state.durableSeq + 1)
      hthread.1.records hthread.1.lines, rememberLines_eq]
  obtain ⟨-, -, hids⟩ := installed_live hsha h.settled h.knows hplace
  obtain ⟨-, -, hids'⟩ := installed_live hsha h.settled' h.knows' hplace'
  have hseq := congrArg Watermark.durableSeq hp.watermark
  have hoffset := congrArg Watermark.durableOffset hp.watermark
  have hbytes := congrArg Watermark.durableBytes hp.watermark
  have hquarantine := congrArg Watermark.quarantineBytes hp.watermark
  simp only [State.watermark] at hseq hoffset hbytes hquarantine
  refine ⟨⟨?_, ?_, ?_⟩, ?_, ?_, .idle, fun i hi => ?_⟩
  · show (⟨p.durableSeq, p.durableOffset, p.durableBytes, p.quarantineBytes⟩ : Watermark) =
      ⟨p'.durableSeq, p'.durableOffset, p'.durableBytes, p'.quarantineBytes⟩
    rw [hseq, hoffset, hbytes, hquarantine]
  · show ((m.rememberAll c laid.observations m.state.durableOffset).state.capacityStop ||
      p.capacityStop) = ((m'.rememberAll c laid.observations
        m'.state.durableOffset).state.capacityStop || p'.capacityStop)
    rw [hrest m p d h.settled hplace, hrest m' p' d' h.settled' hplace']
    show (m.state.capacityStop || p.capacityStop) = (m'.state.capacityStop || p'.capacityStop)
    rw [halike.state.capacityStop, hp.capacityStop]
  · show (m.rememberAll c laid.observations m.state.durableOffset).state.storageFailure =
      (m'.rememberAll c laid.observations m'.state.durableOffset).state.storageFailure
    rw [hrest m p d h.settled hplace, hrest m' p' d' h.settled' hplace']
    exact halike.state.storageFailure
  · show (m.rememberAll c laid.observations m.state.durableOffset).queue =
      (m'.rememberAll c laid.observations m'.state.durableOffset).queue
    rw [hrest m p d h.settled hplace, hrest m' p' d' h.settled' hplace']
    exact halike.queue
  · show (m.rememberAll c laid.observations m.state.durableOffset).queueBytes =
      (m'.rememberAll c laid.observations m'.state.durableOffset).queueBytes
    rw [hrest m p d h.settled hplace, hrest m' p' d' h.settled' hplace']
    exact halike.queueBytes
  · rw [hids, hids', halike.identities i hi]

/-- **A piece of both threads**, none of them at the head of the loop. -/
theorem alike_work (hsha : ∀ t, c.sha256 t ≠ []) (hhold : c.phaseHold = false)
    (h : Twin c d m base d' m' ss) (hbusy : m.thread ≠ .idle) (halike : m.Alike L m') :
    (work c {} d m).2.Alike L (work c {} d' m').2 := by
  have hat {t t' : Thread} (ht : t.Alike t') :
      Memory.Alike L { m with thread := t } { m' with thread := t' } :=
    ⟨halike.state, halike.queue, halike.queueBytes, ht, halike.identities⟩
  have hnohold (l : Laid) (stop : Bool) : ¬ (c.phaseHold = true ∧
      (l.observations ≠ [] ∨ l.quarantine ≠ []) ∧ stop = true) := by
    rw [hhold]
    exact fun hall => nomatch hall.1
  have hthread := halike.thread
  unfold work
  generalize hplace : m.thread = t at hthread
  generalize hplace' : m'.thread = t' at hthread
  cases hthread with
  | idle => exact absurd hplace hbusy
  | persistState => exact hat (.writeState _ _)
  | writeState p p' => exact hat .idle
  | lay todo laid =>
    cases todo with
    | nil => exact hat (.measure laid)
    | cons i todo => exact alike_layItem halike i todo laid
  | measure laid => exact hat (.appendQuarantine laid _ _)
  | appendQuarantine laid b b' =>
    dsimp only
    by_cases hnil : laid.quarantine = []
    · rw [if_pos hnil, if_pos hnil]
      exact hat (.appendObservations laid _ _)
    · rw [if_neg hnil, if_neg hnil]
      exact hat (.appendObservations laid _ _)
  | appendObservations laid b b' =>
    dsimp only
    by_cases hnil : laid.observations = []
    · rw [if_pos hnil, if_pos hnil]
      exact hat (.stage laid _ _)
    · rw [if_neg hnil, if_neg hnil]
      exact hat (.stage laid _ _)
  | stage laid b b' => exact hat (.hold laid _ _ _ _ (alike_pending halike.state laid))
  | hold laid b b' p p' hp =>
    dsimp only
    rw [if_neg (hnohold laid _), if_neg (hnohold laid _)]
    exact hat (.publish laid _ _ hp)
  | publish laid p p' hp => exact hat (.install laid _ _ hp)
  | install laid p p' hp => exact alike_installed hsha h halike hp hplace hplace'

/-- A piece that is not at the head of the loop leaves the flags alone. -/
theorem work_flags (h : Settled c d m ss) (hbusy : m.thread ≠ .idle) :
    (work c {} d m).2.stop = m.stop ∧ (work c {} d m).2.waiters = m.waiters ∧
      (work c {} d m).2.checkpointRequested = m.checkpointRequested := by
  have hthread := h.holds.thread
  have hsound := h.sound
  unfold work
  cases hplace : m.thread with
  | idle => exact absurd hplace hbusy
  | lay todo laid =>
    cases todo with
    | nil => exact ⟨rfl, rfl, rfl⟩
    | cons i todo =>
      dsimp only [Memory.layItem]
      split_ifs <;> exact ⟨rfl, rfl, rfl⟩
  | appendQuarantine laid before =>
    dsimp only
    by_cases hnil : laid.quarantine = []
    · rw [if_pos hnil]
      exact ⟨rfl, rfl, rfl⟩
    · rw [if_neg hnil]
      exact ⟨rfl, rfl, rfl⟩
  | appendObservations laid before =>
    dsimp only
    by_cases hnil : laid.observations = []
    · rw [if_pos hnil]
      exact ⟨rfl, rfl, rfl⟩
    · rw [if_neg hnil]
      exact ⟨rfl, rfl, rfl⟩
  | hold laid before pending =>
    dsimp only
    split_ifs <;> exact ⟨rfl, rfl, rfl⟩
  | install laid pending =>
    rw [hplace] at hthread
    have hremember := rememberAll_eq laid.observations m m.state.durableOffset
      (m.state.durableSeq + 1) hthread.1.records hthread.1.lines
    show (m.rememberAll c laid.observations m.state.durableOffset).stop = _ ∧
      (m.rememberAll c laid.observations m.state.durableOffset).waiters = _ ∧
      (m.rememberAll c laid.observations m.state.durableOffset).checkpointRequested = _
    rw [hremember, rememberLines_eq]
    exact ⟨rfl, rfl, rfl⟩
  | failed laid =>
    rw [hplace] at hsound
    exact absurd hsound id
  | dead =>
    rw [hplace] at hsound
    exact absurd hsound id
  | _ => exact ⟨rfl, rfl, rfl⟩

/-- The head of the loop of a collector that is not stopped. -/
theorem takeBatch_open (hstop : m.stop = false) : m.takeBatch c =
    if m.count c = 0 ∧ m.checkpointRequested = false then m
    else if min m.queue.length c.limits.batchSize = 0 then m.answered
    else m.taken (min m.queue.length c.limits.batchSize) := by
  unfold Memory.takeBatch
  rw [hstop, if_neg fun h => nomatch h.1]

/-- The head of the loop, with the same flags on both sides and no stop. -/
theorem alike_takeBatch (halike : m.Alike L m') (hstop : m.stop = false) (hstop' : m'.stop = false)
    (hwaiters : m.waiters = m'.waiters)
    (hrequested : m.checkpointRequested = m'.checkpointRequested) :
    (m.takeBatch c).Alike L (m'.takeBatch c) ∧ (m.takeBatch c).stop = false ∧
      (m'.takeBatch c).stop = false ∧ (m.takeBatch c).waiters = (m'.takeBatch c).waiters ∧
      (m.takeBatch c).checkpointRequested = (m'.takeBatch c).checkpointRequested ∧
      ((m.waiters = true → m.checkpointRequested = true) → (m.takeBatch c).waiters = true →
        (m.takeBatch c).checkpointRequested = true) := by
  have hcount : m.count c = m'.count c := by
    rw [Memory.count, Memory.count, hrequested, hstop, hstop', halike.queue]
  rw [takeBatch_open hstop, takeBatch_open hstop', ← hcount, ← hrequested, ← halike.queue]
  split_ifs
  · exact ⟨halike, hstop, hstop', hwaiters, hrequested, id⟩
  · refine ⟨⟨halike.state, halike.queue, halike.queueBytes, ?_, halike.identities⟩, hstop, hstop',
      rfl, rfl, fun _ hw => nomatch hw⟩
    show Thread.Alike (if m.waiters then _ else _) (if m'.waiters then _ else _)
    rw [← hwaiters]
    cases m.waiters
    · exact .idle
    · exact .persistState
  · refine ⟨alike_taken halike _, hstop, hstop', ?_, ?_, ?_⟩
    · show (if m.queue.drop _ = [] then false else m.waiters) =
        (if m'.queue.drop _ = [] then false else m'.waiters)
      rw [← halike.queue, hwaiters]
    · show (if m.queue.drop _ = [] then false else m.checkpointRequested) =
        (if m'.queue.drop _ = [] then false else m'.checkpointRequested)
      rw [← halike.queue, hrequested]
    · intro hboth
      show (if m.queue.drop _ = [] then false else m.waiters) = true →
        (if m.queue.drop _ = [] then false else m.checkpointRequested) = true
      split_ifs
      · exact id
      · exact hboth

/-- The identities that a twin may not know. -/
abbrev Forgotten (ss : List Semantic) (base : ℕ) (i : Identity) : Prop :=
  ∃ s ∈ ss.take base, IsNotice s ∧ s.identity = i

/-- **A piece of both threads keeps twins**, whenever it keeps them alike. -/
theorem Twin.work (hsha : ∀ t, c.sha256 t ≠ []) (hhold : c.phaseHold = false)
    (h : Twin c d m base d' m' ss) (halike : (work c {} d m).2.Alike (Forgotten ss base)
      (work c {} d' m').2) :
    Twin c (work c {} d m).1 (work c {} d m).2 base (work c {} d' m').1 (work c {} d' m').2
      (ss ++ m.thread.installing) := by
  have hinstalling := h.alike.thread.installing
  have htake : (ss ++ m.thread.installing).take base = ss.take base :=
    List.take_append_of_le_length h.base_le
  refine ⟨settled_work h.settled, h.knows.work hsha h.settled,
    h.only.work hsha h.settled h.knows h.base_le hhold, ?_, ?_, ?_, ?_, h.tallied.work {} d', ?_⟩
  · rw [List.length_append]
    exact Nat.le_add_right_of_le h.base_le
  · rw [hinstalling]
    exact settled_work h.settled'
  · rw [hinstalling]
    exact h.knows'.work hsha h.settled'
  · rw [hinstalling]
    exact h.only'.work hsha h.settled' h.knows' (Nat.zero_le _) hhold
  · rw [htake]
    exact halike

/-! ### Admission -/

variable {s : Semantic}

theorem exists_entry (sha256 : Text → Str) (hs : s ∈ ss) (n offset : ℕ) :
    ∃ e ∈ entriesFrom sha256 n offset ss, ∃ k offset' length,
      e = entryOf sha256 (record sha256 s k) offset' length := by
  induction ss generalizing n offset with
  | nil => cases hs
  | cons s' ss ih =>
    rcases List.mem_cons.mp hs with rfl | hs
    · exact ⟨_, List.mem_cons_self, n, offset, _, rfl⟩
    · obtain ⟨e, he, hrest⟩ := ih hs (n + 1) (offset + (recordLine sha256 s' n).length)
      exact ⟨e, List.mem_cons_of_mem _ he, hrest⟩

theorem entryOf_isNoticeOf (sha256 : Text → Str) (hs : IsNotice s) (n offset length : ℕ) :
    (entryOf sha256 (record sha256 s n) offset length).isNoticeOf s.identity := by
  have hkind : (record sha256 s n).get "observation_kind" = s.kind.json := by
    simp (disch := decide) only [record, List.append_assoc, List.cons_append, List.nil_append,
      get_item_self, get_item_of_ne, get_optionalItem_of_ne]
  have hsource : (record sha256 s n).get "source_instance_id" = .str s.identity.source := by
    simp (disch := decide) only [record, List.append_assoc, List.cons_append, List.nil_append,
      get_item_self, get_item_of_ne, get_optionalItem_of_ne]
  have hsequence : (record sha256 s n).get "source_local_sequence" =
      .int s.identity.sequence := by
    simp (disch := decide) only [record, List.append_assoc, List.cons_append, List.nil_append,
      get_item_self, get_item_of_ne, get_optionalItem_of_ne]
  have hrow (key : String) (hkey : key = "observation_kind" ∨ key = "source_instance_id" ∨
      key = "source_local_sequence") :
      (entryOf sha256 (record sha256 s n) offset length).row.get key =
        (record sha256 s n).get key := by
    rcases hkey with rfl | rfl | rfl <;>
      simp (disch := decide) only [entryOf, rowKeys, List.map_cons, List.map_nil, List.cons_append,
        List.nil_append, get_item_self, get_item_of_ne]
  refine ⟨?_, ?_, ?_⟩
  · rw [hrow _ (Or.inl rfl), hkind, hs]
  · rw [hrow _ (Or.inr (Or.inl rfl)), hsource]
  · rw [hrow _ (Or.inr (Or.inr rfl)), hsequence]

/-- **Twins agree on the identity of a mindful item.** -/
theorem Twin.agree (h : Twin c d m base d' m' ss)
    (hmindful : m.identities s.identity = none → ∀ e ∈ m.index, ¬ e.isNoticeOf s.identity) :
    m.identities s.identity = m'.identities s.identity := by
  by_cases hforgotten : Forgotten ss base s.identity
  · obtain ⟨notice, hnotice, hkind, hidentity⟩ := hforgotten
    obtain ⟨j, hj⟩ := List.mem_iff_getElem?.mp hnotice
    have hjbase : j < base := by
      have hlt := (List.getElem?_eq_some_iff.mp hj).1
      rw [List.length_take] at hlt
      omega
    rw [List.getElem?_take_of_lt hjbase] at hj
    have hcounts {i : ℕ} {a : Semantic} : Register.Counts IsNotice 0 i a :=
      Or.inr (Nat.zero_le i)
    -- the process knows the identity, by an observation that the other process has as well
    cases hknown : m.identities s.identity with
    | none =>
      obtain ⟨e, he, n, offset, length, rfl⟩ :=
        exists_entry c.sha256 (List.mem_of_getElem? hj) 1 0
      refine absurd ?_ (hmindful hknown _ (h.settled.holds.index ▸ he))
      rw [← hidentity]
      exact entryOf_isNoticeOf c.sha256 hkind n offset length
    | some hash =>
      exfalso
      rcases h.only s.identity hash hknown with ⟨a, ha, hkey, -⟩ | ⟨i, a, ha, hc, hkey, -⟩
      · rw [h.alike.live] at ha
        exact h.knows'.apart a ha j notice hj (hidentity.trans hkey.symm) hcounts
      · have hij : i ≠ j := by
          rintro rfl
          obtain rfl : a = notice := Option.some.inj (ha.symm.trans hj)
          rcases hc with hc | hc
          · exact hc hkind
          · omega
        rcases Nat.lt_or_gt_of_ne hij with hlt | hlt
        · exact h.knows'.unique i j a notice ha hj hlt (hkey.trans hidentity.symm) hcounts
        · exact h.knows'.unique j i notice a hj ha hlt (hidentity.trans hkey.symm) hcounts
  · exact h.alike.identities _ hforgotten

/-- **An admission keeps twins**, and answers both the same. -/
theorem Twin.accept (h : Twin c d m base d' m' ss)
    (hs : m.identities s.identity = m'.identities s.identity) :
    Twin c d (acceptOne c {} m s).1 base d' (acceptOne c {} m' s).1 ss ∧
      (acceptOne c {} m s).2 = (acceptOne c {} m' s).2 := by
  obtain ⟨halike, hcode⟩ := alike_accept h.alike s hs
  exact ⟨⟨h.settled.accept {} s, h.knows.accept {} s, h.only.accept {} s, h.base_le,
    h.settled'.accept {} s, h.knows'.accept {} s, h.only'.accept {} s, h.tallied.accept {} s,
    halike⟩, hcode⟩

/-! ### The drain -/

/-- Pieces of the publication thread that nothing disturbs. -/
def drained (c : Config) (k : ℕ) (w : World) : World :=
  Runs.run (step c) w (List.replicate k (.work {}))

theorem drained_succ (k : ℕ) (d : Disk) (m : Memory) :
    drained c (k + 1) ⟨d, some m⟩ = drained c k ⟨(work c {} d m).1, some (work c {} d m).2⟩ := rfl

theorem drained_add (k l : ℕ) (w : World) : drained c (k + l) w = drained c l (drained c k w) := by
  rw [drained, List.replicate_add, Runs.run_append]
  rfl

/-- Every piece that is not at the head of the loop is one piece less to do. -/
theorem work_rank (h : Settled c d m ss) (hbusy : m.thread ≠ .idle) (hdone : m.thread ≠ .done)
    (hhold : c.phaseHold = false) : (work c {} d m).2.rank < m.rank := by
  have hqueue := (work_queue (c := c) {} d hbusy).1
  have hsound := h.sound
  suffices hthread : (work c {} d m).2.thread.rank < m.thread.rank by
    rw [Memory.rank, Memory.rank, hqueue]
    omega
  unfold work
  cases hplace : m.thread with
  | idle => exact absurd hplace hbusy
  | done => exact absurd hplace hdone
  | lay todo laid =>
    cases todo with
    | nil => exact Nat.lt_succ_self 7
    | cons i todo =>
      have hlay : (m.layItem c i todo laid).thread.rank = todo.length + 8 := by
        dsimp only [Memory.layItem]
        split_ifs <;> rfl
      show (m.layItem c i todo laid).thread.rank < todo.length + 1 + 8
      omega
  | appendQuarantine laid before =>
    dsimp only
    by_cases hnil : laid.quarantine = []
    · rw [if_pos hnil]
      exact Nat.lt_succ_self 5
    · rw [if_neg hnil]
      exact Nat.lt_succ_self 5
  | appendObservations laid before =>
    dsimp only
    by_cases hnil : laid.observations = []
    · rw [if_pos hnil]
      exact Nat.lt_succ_self 4
    · rw [if_neg hnil]
      exact Nat.lt_succ_self 4
  | hold laid before pending =>
    dsimp only
    rw [if_neg (by rw [hhold]; exact fun hall => nomatch hall.1)]
    exact Nat.lt_succ_self 2
  | persistState => exact Nat.lt_succ_self 1
  | writeState payload => exact Nat.lt_succ_self 0
  | measure laid => exact Nat.lt_succ_self 6
  | stage laid before => exact Nat.lt_succ_self 3
  | publish laid pending => exact Nat.lt_succ_self 1
  | install laid pending => exact Nat.lt_succ_self 0
  | failed laid =>
    rw [hplace] at hsound
    exact absurd hsound id
  | dead =>
    rw [hplace] at hsound
    exact absurd hsound id

theorem takeBatch_taken (hqueue : m.queue ≠ [])
    (hopen : m.stop = true ∨ m.checkpointRequested = true) :
    m.takeBatch c = m.taken (min m.queue.length c.limits.batchSize) := by
  have hlength : 0 < m.queue.length := List.length_pos_of_ne_nil hqueue
  have hbatch := c.limits.batchSize_pos
  have hcount : m.count c = m.queue.length := by
    unfold Memory.count
    refine if_pos ?_
    rcases hopen with hopen | hopen
    · rw [hopen, Bool.or_true]
    · rw [hopen, Bool.true_or, Bool.true_or]
  unfold Memory.takeBatch
  rw [if_neg fun h => hqueue h.2, hcount, if_neg (by omega), if_neg (by omega)]

/-- Two memories on the way to a restart: the one stops, and the other works off a checkpoint. -/
structure Draining (c : Config) (d : Disk) (m : Memory) (base : ℕ) (d' : Disk) (m' : Memory)
    (ss : List Semantic) : Prop extends Twin c d m base d' m' ss where
  stop : m.stop = true
  open' : m'.stop = false
  requested : m'.checkpointRequested = true ∨ m'.queue = []
  waiters : m'.waiters = true → m'.checkpointRequested = true

/-- **One piece of the drain**, until both threads are idle with nothing queued. -/
theorem draining_work (hsha : ∀ t, c.sha256 t ≠ []) (hhold : c.phaseHold = false)
    (h : Draining c d m base d' m' ss) (hrest : ¬ (m.thread = .idle ∧ m.queue = [])) :
    Draining c (work c {} d m).1 (work c {} d m).2 base (work c {} d' m').1 (work c {} d' m').2
      (ss ++ m.thread.installing) ∧ (work c {} d m).2.rank < m.rank := by
  have hdone : m.thread ≠ .done := by
    intro hdone
    have hthread := h.alike.thread
    rw [hdone] at hthread
    cases hthread
  by_cases hidle : m.thread = .idle
  · have hidle' := h.alike.thread.idle_right hidle
    have hqueue : m.queue ≠ [] := fun hnil => hrest ⟨hidle, hnil⟩
    have hqueue' : m'.queue ≠ [] := h.alike.queue ▸ hqueue
    have hrequested := h.requested.resolve_right hqueue'
    have htake := takeBatch_taken (c := c) hqueue (Or.inl h.stop)
    have htake' := takeBatch_taken (c := c) hqueue' (Or.inr hrequested)
    have hwork : (work c {} d m).2 = m.taken (min m.queue.length c.limits.batchSize) := by
      rw [work, hidle]
      exact htake
    have hwork' : (work c {} d' m').2 = m'.taken (min m.queue.length c.limits.batchSize) := by
      rw [work, hidle', h.alike.queue]
      exact htake'
    have halike := alike_taken h.alike (min m.queue.length c.limits.batchSize)
    rw [← hwork, ← hwork'] at halike
    refine ⟨⟨h.toTwin.work hsha hhold halike, ?_, ?_, ?_, ?_⟩, ?_⟩
    · rw [hwork]
      exact h.stop
    · rw [hwork']
      exact h.open'
    · rw [hwork']
      show (if m'.queue.drop _ = [] then false else m'.checkpointRequested) = true ∨
        m'.queue.drop _ = []
      split_ifs with hnil
      · exact Or.inr hnil
      · exact Or.inl hrequested
    · rw [hwork']
      show (if m'.queue.drop _ = [] then false else m'.waiters) = true →
        (if m'.queue.drop _ = [] then false else m'.checkpointRequested) = true
      split_ifs
      · exact id
      · exact h.waiters
    · rw [hwork, Memory.rank, Memory.rank, hidle]
      show (m.queue.take _).length + 8 + 10 * (m.queue.drop _).length < 0 + 10 * m.queue.length
      have hlength : 0 < m.queue.length := List.length_pos_of_ne_nil hqueue
      have hbatch := c.limits.batchSize_pos
      rw [List.length_take, List.length_drop]
      omega
  · have hidle' : m'.thread ≠ .idle := fun h' => hidle (h.alike.thread.idle_left h')
    obtain ⟨hstop, -, -⟩ := work_flags h.settled hidle
    obtain ⟨hstop', hwaiters', hrequested'⟩ := work_flags h.settled' hidle'
    refine ⟨⟨h.toTwin.work hsha hhold (alike_work hsha hhold h.toTwin hidle h.alike), hstop ▸ h.stop,
      hstop' ▸ h.open', ?_, ?_⟩, work_rank h.settled hidle hdone hhold⟩
    · rw [hrequested', (work_queue {} d' hidle').1]
      exact h.requested
    · rw [hrequested', hwaiters']
      exact h.waiters

/-- **The drain** comes to rest on both sides at once. -/
theorem draining_run (hsha : ∀ t, c.sha256 t ≠ []) (hhold : c.phaseHold = false) (n : ℕ)
    (h : Draining c d m base d' m' ss) (hn : m.rank ≤ n) :
    ∃ k ≤ n, ∃ e n₁ e' n₁' ss', drained c k ⟨d, some m⟩ = ⟨e, some n₁⟩ ∧
      drained c k ⟨d', some m'⟩ = ⟨e', some n₁'⟩ ∧ Draining c e n₁ base e' n₁' ss' ∧
      n₁.thread = .idle ∧ n₁.queue = [] := by
  induction n generalizing d m d' m' ss with
  | zero =>
    by_cases hrest : m.thread = .idle ∧ m.queue = []
    · exact ⟨0, Nat.le_refl _, d, m, d', m', ss, rfl, rfl, h, hrest⟩
    · have hlt := (draining_work hsha hhold h hrest).2
      omega
  | succ n ih =>
    by_cases hrest : m.thread = .idle ∧ m.queue = []
    · exact ⟨0, Nat.zero_le _, d, m, d', m', ss, rfl, rfl, h, hrest⟩
    · obtain ⟨hnext, hlt⟩ := draining_work hsha hhold h hrest
      obtain ⟨k, hk, e, n₁, e', n₁', ss', hrun, hrun', hrest'⟩ := ih hnext (by omega)
      exact ⟨k + 1, by omega, e, n₁, e', n₁', ss', hrun, hrun', hrest'⟩

/-! ### The restart -/

/-- A piece that changes nothing changes nothing when it is taken again. -/
theorem drained_fix (hfix : work c {} d m = (d, m)) (k : ℕ) :
    drained c k ⟨d, some m⟩ = ⟨d, some m⟩ := by
  induction k with
  | zero => rfl
  | succ k ih => rw [drained_succ, hfix, ih]

/-- The publication thread ends. -/
theorem drained_done (hidle : m.thread = .idle) (hqueue : m.queue = []) (hstop : m.stop = true)
    (k : ℕ) : drained c (k + 1) ⟨d, some m⟩ = ⟨d, some { m with thread := .done }⟩ := by
  have hwork : work c {} d m = (d, { m with thread := .done }) := by
    rw [work, hidle]
    dsimp only
    rw [Memory.takeBatch, if_pos ⟨hstop, hqueue⟩]
  rw [drained_succ, hwork]
  exact drained_fix rfl k

/-- The memory of a collector that has answered whoever waited. -/
def Memory.quiet (m : Memory) : Memory := { m with waiters := false, checkpointRequested := false }

theorem work_quiet (hidle : m.thread = .idle) (hqueue : m.queue = []) (hstop : m.stop = false) :
    work c {} d m.quiet = (d, m.quiet) := by
  have hcount : m.quiet.count c = 0 := by
    unfold Memory.count
    rw [show m.quiet.queue = [] from hqueue]
    exact ite_self _
  have hstop' : m.quiet.stop = false := hstop
  rw [work, show m.quiet.thread = .idle from hidle]
  dsimp only
  rw [takeBatch_open hstop', if_pos ⟨hcount, rfl⟩]

/-- **An idle collector with nothing queued** answers whoever waits, and is quiet. -/
theorem drained_quiet (h : Settled c d m ss) (hidle : m.thread = .idle) (hqueue : m.queue = [])
    (hstop : m.stop = false) (hwaiters : m.waiters = true → m.checkpointRequested = true) (k : ℕ) :
    ∃ e, drained c (k + 3) ⟨d, some m⟩ = ⟨e, some m.quiet⟩ ∧ Settled c e m.quiet ss := by
  have hfix (e : Disk) (k : ℕ) : drained c k ⟨e, some m.quiet⟩ = ⟨e, some m.quiet⟩ :=
    drained_fix (work_quiet hidle hqueue hstop) k
  have hquiet (e : Disk) (hs : Settled c e m ss) : Settled c e m.quiet ss :=
    hs.keeps ⟨rfl, rfl, rfl⟩ rfl
  have hinstall : ss ++ m.thread.installing = ss := by
    rw [hidle]
    exact List.append_nil ss
  cases hrequested : m.checkpointRequested with
  | false =>
    have hnone : m.waiters = false := by
      rw [Bool.eq_false_iff]
      intro hw
      rw [hwaiters hw] at hrequested
      cases hrequested
    have hset (w r : Bool) (hw : m.waiters = w) (hr : m.checkpointRequested = r) :
        m = { m with waiters := w, checkpointRequested := r } := by
      subst hw hr
      rfl
    have hself : m = m.quiet := hset false false hnone hrequested
    refine ⟨d, ?_, hquiet d h⟩
    rw [hself]
    exact drained_fix (work_quiet hidle hqueue hstop) (k + 3)
  | true =>
    have hwork : work c {} d m = (d, { m.quiet with
        thread := if m.waiters then .persistState else .idle }) := by
      have hopen : ¬ (m.count c = 0 ∧ m.checkpointRequested = false) := by
        rw [hrequested]
        exact fun hboth => nomatch hboth.2
      have hmin : min m.queue.length c.limits.batchSize = 0 := by
        rw [hqueue]
        exact Nat.zero_min _
      rw [work, hidle]
      dsimp only
      rw [takeBatch_open hstop, if_neg hopen, if_pos hmin]
      rfl
    have hsettled := settled_work h
    rw [hinstall, hwork] at hsettled
    cases hw : m.waiters with
    | false =>
      rw [hw] at hwork
      have hself : { m.quiet with thread := .idle } = m.quiet := by
        rw [← show m.quiet.thread = .idle from hidle]
      have hstep : work c {} d m = (d, m.quiet) := hwork.trans (congrArg (Prod.mk d) hself)
      refine ⟨d, ?_, hquiet d h⟩
      rw [drained_succ, hstep]
      exact hfix d (k + 2)
    | true =>
      rw [hw] at hwork hsettled
      have hpersist : work c {} d m = (d, { m.quiet with thread := .persistState }) := hwork
      have hsettled' := settled_work (settled_work hsettled)
      have hself : { m.quiet with thread := .idle } = m.quiet := by
        rw [← show m.quiet.thread = .idle from hidle]
      refine ⟨{ d with state := .holds m.state }, ?_, ?_⟩
      · rw [drained_succ, hpersist, drained_succ, drained_succ]
        show drained c k ⟨{ d with state := .holds m.state },
          some { m.quiet with thread := .idle }⟩ = _
        rw [hself]
        exact hfix _ k
      · have hlast : Settled c { d with state := .holds m.state } { m.quiet with thread := .idle }
            ((ss ++ []) ++ []) := hsettled'
        rw [List.append_nil, List.append_nil, hself] at hlast
        exact hlast

/-- What follows the drain of a clean restart. -/
def restartActions : List Action := [.markClean .ok, .crash, .start none .ok]

/-- **A clean restart** meets a collector that has worked off a checkpoint. -/
theorem twin_restart (hsha : ∀ t, c.sha256 t ≠ []) (h : Draining c d m base d' m' ss)
    (hidle : m.thread = .idle) (hqueue : m.queue = []) (k k' : ℕ) :
    ∃ e n e', Runs.run (step c) (drained c (k + 1) ⟨d, some m⟩) restartActions = ⟨e, some n⟩ ∧
      drained c (k' + 3) ⟨d', some m'⟩ = ⟨e', some m'.quiet⟩ ∧
      Twin c e n ss.length e' m'.quiet ss ∧ n.stop = false ∧ n.waiters = false ∧
      n.checkpointRequested = false := by
  have hidle' := h.alike.thread.idle_right hidle
  have hqueue' : m'.queue = [] := h.alike.queue ▸ hqueue
  obtain ⟨e', hquiet, hsettled'⟩ :=
    drained_quiet h.settled' hidle' hqueue' h.open' h.waiters k'
  have hdone := settled_work (c := c) h.settled
  have hinstall : ss ++ m.thread.installing = ss := by
    rw [hidle]
    exact List.append_nil ss
  have hwork : work c {} d m = (d, { m with thread := .done }) := by
    rw [work, hidle]
    dsimp only
    rw [Memory.takeBatch, if_pos ⟨h.stop, hqueue⟩]
  rw [hinstall, hwork] at hdone
  -- the stop is marked, and the next process starts from what the mark has left
  have hmark : markClean .ok d { m with thread := .done } =
      ({ d with state := .holds (Memory.cleaned { m with thread := .done } d).state },
        Memory.cleaned { m with thread := .done } d) := if_pos ⟨h.stop, Or.inl rfl⟩
  have hmarked := settled_markClean hdone
  rw [hmark] at hmarked
  have hrests := hmarked.rests
  have hnothing : ss ++ (Memory.cleaned { m with thread := .done } d).thread.installing = ss :=
    List.append_nil ss
  rw [hnothing] at hrests
  obtain ⟨st, hmemory, hsettled, hstate⟩ := settled_prepare hrests
  obtain ⟨hwatermark, hcapacity⟩ := hstate _ rfl
  have hrun : Runs.run (step c) (drained c (k + 1) ⟨d, some m⟩) restartActions =
      ⟨(prepare c { d with state := .holds (Memory.cleaned { m with thread := .done } d).state }
        none .ok).1, some (Memory.rememberLines c 1 0 ss { state := st })⟩ := by
    rw [drained_done hidle hqueue h.stop, ← hmemory]
    show step c (step c ⟨(markClean .ok d { m with thread := .done }).1,
      some (markClean .ok d { m with thread := .done }).2⟩ .crash) (.start none .ok) = _
    rw [hmark]
    rfl
  have hrows := rememberLines_eq (c := c) 1 0 ss { state := st }
  have hids := rememberLines_identities hsha 1 0 ss { state := st }
  have hlive : (Memory.rememberLines c 1 0 ss { state := st }).live = [] := by rw [hrows]; rfl
  have hlive' : m'.live = [] := by
    rw [Memory.live, hidle', hqueue']
    rfl
  have hknows' : Knows c m'.quiet ss 0 := h.knows'
  have honly' : KnowsOnly c m'.quiet ss 0 := h.only'
  have htallied : m'.quiet.queueBytes = 0 := by
    have htallied := h.tallied
    rw [Tallied, hqueue'] at htallied
    exact htallied
  refine ⟨_, _, e', hrun, hquiet, ⟨hsettled, ?_, ?_, Nat.le_refl _, hsettled', hknows', honly',
    h.tallied, ?_⟩, by rw [hrows], by rw [hrows], by rw [hrows]⟩
  · unfold Knows
    rw [hlive, hids]
    exact h.knows.rebuild
  · unfold KnowsOnly
    rw [hlive, hids]
    exact Register.exact_rebuilt
  · refine ⟨⟨?_, ?_, ?_⟩, ?_, ?_, ?_, fun i hi => ?_⟩
    · rw [hrows]
      exact hwatermark.trans h.alike.state.watermark
    · rw [hrows]
      exact hcapacity.trans h.alike.state.capacityStop
    · exact hsettled.steady.trans hsettled'.steady.symm
    · rw [hrows]
      exact hqueue'.symm
    · rw [hrows]
      exact htallied.symm
    · rw [hrows, show m'.quiet.thread = .idle from hidle']
      exact .idle
    · rw [hids]
      have hknown : Register.Known Semantic.identity (Semantic.contentHash c.sha256) IsNotice
          m'.identities [] ss 0 := hlive' ▸ h.knows'
      have hexact : Register.Exact Semantic.identity (Semantic.contentHash c.sha256) IsNotice
          m'.identities [] ss 0 := hlive' ▸ h.only'
      refine Register.rebuilt_eq hknown hexact fun s hs hkey hnotice => hi ⟨s, ?_, hnotice, hkey⟩
      rw [List.take_length]
      exact hs

/-! ## Runs -/

/-- A change of counters and flags. -/
structure Memory.Same (m n : Memory) : Prop extends m.Keeps n where
  storageFailure : n.state.storageFailure = m.state.storageFailure
  capacityStop : n.state.capacityStop = m.state.capacityStop
  identities : n.identities = m.identities
  queue : n.queue = m.queue
  queueBytes : n.queueBytes = m.queueBytes

/-- Counters and flags do not matter to twins. -/
theorem Twin.same (h : Twin c d m base d' m' ss) {n n' : Memory} (hn : m.Same n)
    (hn' : m'.Same n') : Twin c d n base d' n' ss := by
  have hlive : n.live = m.live := by rw [Memory.live, hn.thread, hn.queue, Memory.live]
  have hlive' : n'.live = m'.live := by rw [Memory.live, hn'.thread, hn'.queue, Memory.live]
  refine ⟨h.settled.keeps hn.toKeeps hn.storageFailure, ?_, ?_, h.base_le,
    h.settled'.keeps hn'.toKeeps hn'.storageFailure, ?_, ?_, ?_, ⟨⟨?_, ?_, ?_⟩, ?_, ?_, ?_, ?_⟩⟩
  · unfold Knows
    rw [hn.identities, hlive]
    exact h.knows
  · unfold KnowsOnly
    rw [hn.identities, hlive]
    exact h.only
  · unfold Knows
    rw [hn'.identities, hlive']
    exact h.knows'
  · unfold KnowsOnly
    rw [hn'.identities, hlive']
    exact h.only'
  · rw [Tallied, hn'.queue, hn'.queueBytes]
    exact h.tallied
  · rw [hn.watermark, hn'.watermark, h.alike.state.watermark]
  · rw [hn.capacityStop, hn'.capacityStop, h.alike.state.capacityStop]
  · rw [hn.storageFailure, hn'.storageFailure, h.alike.state.storageFailure]
  · rw [hn.queue, hn'.queue, h.alike.queue]
  · rw [hn.queueBytes, hn'.queueBytes, h.alike.queueBytes]
  · rw [hn.thread, hn'.thread]
    exact h.alike.thread
  · rw [hn.identities, hn'.identities]
    exact h.alike.identities

def Memory.flags (m : Memory) : Bool × Bool × Bool := (m.stop, m.waiters, m.checkpointRequested)

theorem queueLocked_flags (m : Memory) (i : Item) : (m.queueLocked c i).1.flags = m.flags := by
  have hdisplace (index : ℕ) : (m.displace index).flags = m.flags := by
    unfold Memory.displace
    split
    · rfl
    · split_ifs <;> rfl
  unfold Memory.queueLocked
  split_ifs
  · rfl
  · split
    · exact hdisplace _
    · rfl
  · rfl

/-- An admission leaves the flags alone. -/
theorem accept_flags (g : Gate) (m : Memory) (s : Semantic) :
    (acceptOne c g m s).1.flags = m.flags := by
  unfold acceptOne
  split_ifs
  · rfl
  · rfl
  · rfl
  · rfl
  · rfl
  · rfl
  · cases m.identities s.identity with
    | some previous =>
      dsimp only
      by_cases hsame : previous = s.contentHash c.sha256
      · rw [if_pos hsame]
      · rw [if_neg hsame]
        exact queueLocked_flags m.countConflict _
    | none =>
      have hq := queueLocked_flags (c := c) m ⟨s, s.size, false⟩
      dsimp only
      split_ifs
      · exact hq
      · exact hq

/-- The worlds of the two runs, between two operations. -/
inductive Level (c : Config) (w w' : World) : Prop where
  | intro (m m' : Memory) (base : ℕ) (ss : List Semantic) (hprocess : w.process = some m)
    (hprocess' : w'.process = some m') (htwin : Twin c w.disk m base w'.disk m' ss)
    (hstop : m.stop = false) (hstop' : m'.stop = false) (hwaiters : m.waiters = m'.waiters)
    (hrequested : m.checkpointRequested = m'.checkpointRequested)
    (himplies : m.waiters = true → m.checkpointRequested = true)

/-- **The two runs stay level**, and answer alike. -/
theorem level_step (hsha : ∀ t, c.sha256 t ≠ []) (hhold : c.phaseHold = false) {w w' : World}
    (h : Level c w w') (o : Op) (hmindful : Mindful w o) :
    Level c (served c w o) (steady c w' o) ∧ o.answer c w = o.answer c w' := by
  obtain ⟨d, process⟩ := w
  obtain ⟨d', process'⟩ := w'
  obtain ⟨m, m', base, ss, rfl, rfl, htwin, hstop, hstop', hwaiters, hrequested, himplies⟩ := h
  cases o with
  | admitItem s =>
    obtain ⟨hnext, hcode⟩ := htwin.accept (htwin.agree (hmindful m rfl))
    have hflags := accept_flags (c := c) {} m s
    have hflags' := accept_flags (c := c) {} m' s
    simp only [Memory.flags, Prod.mk.injEq] at hflags hflags'
    obtain ⟨hs, hw, hr⟩ := hflags
    obtain ⟨hs', hw', hr'⟩ := hflags'
    refine ⟨⟨_, _, base, ss, rfl, rfl, hnext, hs.trans hstop, hs'.trans hstop', ?_, ?_, ?_⟩,
      congrArg some hcode⟩
    · rw [hw, hw', hwaiters]
    · rw [hr, hr', hrequested]
    · rw [hw, hr]
      exact himplies
  | refuse =>
    exact ⟨⟨_, _, base, ss, rfl, rfl, htwin.same ⟨⟨rfl, rfl, rfl⟩, rfl, rfl, rfl, rfl, rfl⟩
      ⟨⟨rfl, rfl, rfl⟩, rfl, rfl, rfl, rfl, rfl⟩, hstop, hstop', hwaiters, hrequested, himplies⟩,
      rfl⟩
  | checkpoint waiter =>
    refine ⟨⟨_, _, base, ss, rfl, rfl, htwin.same ⟨⟨rfl, rfl, rfl⟩, rfl, rfl, rfl, rfl, rfl⟩
      ⟨⟨rfl, rfl, rfl⟩, rfl, rfl, rfl, rfl, rfl⟩, hstop, hstop', ?_, rfl, fun _ => rfl⟩, rfl⟩
    show (m.waiters || waiter) = (m'.waiters || waiter)
    rw [hwaiters]
  | work =>
    by_cases hidle : m.thread = .idle
    · have hidle' := htwin.alike.thread.idle_right hidle
      have hwork : work c {} d m = (d, m.takeBatch c) := by rw [work, hidle]
      have hwork' : work c {} d' m' = (d', m'.takeBatch c) := by rw [work, hidle']
      obtain ⟨halike, hs, hs', hw, hr, himplies'⟩ :=
        alike_takeBatch (c := c) htwin.alike hstop hstop' hwaiters hrequested
      have halike' : (work c {} d m).2.Alike (Forgotten ss base) (work c {} d' m').2 := by
        rw [hwork, hwork']
        exact halike
      refine ⟨⟨_, _, base, _, rfl, rfl, htwin.work hsha hhold halike', ?_, ?_, ?_, ?_, ?_⟩, rfl⟩
      · rw [hwork]
        exact hs
      · rw [hwork']
        exact hs'
      · rw [hwork, hwork']
        exact hw
      · rw [hwork, hwork']
        exact hr
      · rw [hwork]
        exact himplies' himplies
    · have hidle' : m'.thread ≠ .idle := fun h => hidle (htwin.alike.thread.idle_left h)
      obtain ⟨hs, hw, hr⟩ := work_flags htwin.settled hidle
      obtain ⟨hs', hw', hr'⟩ := work_flags htwin.settled' hidle'
      refine ⟨⟨_, _, base, _, rfl, rfl, htwin.work hsha hhold
        (alike_work hsha hhold htwin hidle htwin.alike), hs.trans hstop, hs'.trans hstop', ?_, ?_,
        ?_⟩, rfl⟩
      · rw [hw, hw', hwaiters]
      · rw [hr, hr', hrequested]
      · rw [hw, hr]
        exact himplies
  | restart =>
    have hdraining : Draining c d { m with stop := true } base d'
        { m' with checkpointRequested := true, waiters := m'.waiters || false } ss :=
      ⟨htwin.same ⟨⟨rfl, rfl, rfl⟩, rfl, rfl, rfl, rfl, rfl⟩
        ⟨⟨rfl, rfl, rfl⟩, rfl, rfl, rfl, rfl, rfl⟩, rfl, hstop', Or.inl rfl, fun _ => rfl⟩
    have hrank : m'.rank = m.rank := htwin.alike.rank.symm
    obtain ⟨k, hk, e, n, e', n', ss', hrun, hrun', hrest, hidle, hqueue⟩ :=
      draining_run hsha hhold m.rank hdraining (Nat.le_refl _)
    obtain ⟨e₂, n₂, e₂', hend, hend', htwin', hs, hw, hr⟩ :=
      twin_restart hsha hrest hidle hqueue (m.rank - k + 2) (m.rank - k)
    have hserved : served c ⟨d, some m⟩ .restart = ⟨e₂, some n₂⟩ := by
      have hsplit : m.rank + 3 = k + (m.rank - k + 2 + 1) := by omega
      show Runs.run (step c) (step c ⟨d, some m⟩ .stop)
        (List.replicate (m.rank + 3) (.work {}) ++ restartActions) = _
      rw [Runs.run_append]
      show Runs.run (step c) (drained c (m.rank + 3) ⟨d, some { m with stop := true }⟩)
        restartActions = _
      rw [hsplit, drained_add, hrun]
      exact hend
    have hsteady : steady c ⟨d', some m'⟩ .restart = ⟨e₂', some n'.quiet⟩ := by
      have hsplit : m'.rank + 3 = k + (m.rank - k + 3) := by omega
      show drained c (m'.rank + 3) ⟨d', some { m' with
        checkpointRequested := true, waiters := m'.waiters || false }⟩ = _
      rw [hsplit, drained_add, hrun']
      exact hend'
    rw [hserved, hsteady]
    refine ⟨⟨n₂, n'.quiet, _, ss', rfl, rfl, htwin', hs, hrest.open', hw, hr, fun h => ?_⟩, rfl⟩
    rw [hw] at h
    cases h

/-- **The answers of the two runs are the same.** -/
theorem level_answers (hsha : ∀ t, c.sha256 t ≠ []) (hhold : c.phaseHold = false) {w w' : World}
    (h : Level c w w') {ops : List Op} (hmindful : Runs.Along (served c) Mindful w ops) :
    answers c served w ops = answers c steady w' ops := by
  induction ops generalizing w w' with
  | nil => rfl
  | cons o ops ih =>
    obtain ⟨hnext, hanswer⟩ := level_step hsha hhold h o hmindful.1
    rw [answers, answers, hanswer, ih hnext hmindful.2]

/-- Both runs begin in the same world. -/
theorem level_started : Level c (started c) (started c) := by
  have hrests : Rests c {} [] := .new rfl rfl
  obtain ⟨st, hmemory, hsettled, -⟩ := settled_prepare hrests
  have hstarted : started c = ⟨(prepare c {} none .ok).1, some { state := st }⟩ := by
    show (⟨(prepare c {} none .ok).1, (prepare c {} none .ok).2⟩ : World) = _
    rw [hmemory]
    rfl
  have hknows : Knows c { state := st } [] 0 := Register.known_nil
  have honly : KnowsOnly c { state := st } [] 0 := Register.exact_nil
  rw [hstarted]
  exact ⟨_, _, 0, [], rfl, rfl, ⟨hsettled, hknows, honly, Nat.le_refl _, hsettled, hknows, honly,
    rfl, ⟨⟨rfl, rfl, rfl⟩, rfl, rfl, .idle, fun _ _ => rfl⟩⟩, rfl, rfl, rfl, rfl, fun h => nomatch h⟩

/-- **Capture identities.**  In every undisturbed run, also across restarts, the durable records are
admitted items, two of them share an identity only if the earlier is a loss notice from before a
start, and a process recognizes what is queued, in a batch or durable.  The answers are those of the
run without the restarts, if no item bears the identity of a published loss notice that the process
does not know. -/
theorem capture_identity (c : Config) (hsha : ∀ t, c.sha256 t ≠ []) :
    (∀ acts : List Action, (∀ a ∈ acts, a.Undisturbed) →
      Contract c (Runs.run (Census.step c) {} acts)) ∧
    (c.phaseHold = false → ∀ ops : List Op, Runs.Along (served c) Mindful (started c) ops →
      answers c served (started c) ops = answers c steady (started c) ops) :=
  ⟨fun _ hacts => (counted_run hsha hacts).contract,
    fun hhold _ hmindful => level_answers hsha hhold level_started hmindful⟩

/-! ## A loss notice -/

/-- A loss notice as a client admits it. -/
def sampleNotice : Semantic where
  identity := (sampleObservation 1).identity
  kind := .lossNotice
  processId := (sampleObservation 1).processId
  clocks := sampleClocks

/-- Another content under the identity of an observation. -/
def sampleConflict : Semantic :=
  { sampleObservation 1 with payload := .str (Json.units "ni") }

/-- The digests of their contents. -/
def noticeContents : List (Text × String) :=
  sampleContents ++
    [(canonicalBytes sampleConflict.json,
        "b3d679df0f05517b25f184ed6a6fc8218d8de3d2aa463703944aeb5afb8c05a0"),
      (canonicalBytes sampleNotice.json,
        "28ed5205175e82fdad1fa0c96da84db9b6a64d02094b9316b9d5e4de9d20a284")]

/-- The digests of their records. -/
def noticeRecords : List (Text × String) :=
  sampleRecords ++
    [(canonicalBytes (record (hashIn noticeContents) sampleNotice 1),
        "ea0853800aa88c23e6fe66c1a4180f1aa9d4dd8d6d2856fac72edaf465c99a0c"),
      (canonicalBytes (record (hashIn noticeContents) sampleNotice 2),
        "9b68eb36d012d924d1b1267ae8f43c234a9952859de6ad6fb4cfbb01eb86d0e6")]

def noticeConfig : Config :=
  { sampleConfig with sha256 := hashIn (noticeContents ++ noticeRecords) }

theorem hashIn_ne_nil {table : List (Text × String)} (h : ∀ p ∈ table, Json.units p.2 ≠ [])
    (t : Text) : hashIn table t ≠ [] := by
  unfold hashIn
  split
  · exact List.ne_nil_of_length_pos (by rw [List.length_replicate]; decide)
  · next p hp => exact h p (List.mem_of_find?_eq_some hp)

theorem noticeConfig_sha256 (t : Text) : noticeConfig.sha256 t ≠ [] :=
  hashIn_ne_nil (by decide) t

/-- An observation is published, retried before and after a restart, and another content comes
under its identity. -/
def sampleOps : List Op :=
  .admitItem (sampleObservation 1) :: List.replicate 10 .work ++
    [.admitItem (sampleObservation 1), .restart, .admitItem (sampleObservation 1),
      .admitItem sampleConflict]

instance decidableMindful (w : World) : ∀ o, Decidable (Mindful w o)
  | .admitItem s =>
    have (e : Entry) : Decidable (e.isNoticeOf s.identity) :=
      inferInstanceAs (Decidable (_ ∧ _ ∧ _))
    inferInstanceAs (Decidable (∀ m ∈ w.process, m.identities s.identity = none →
      ∀ e ∈ m.index, ¬ e.isNoticeOf s.identity))
  | .refuse | .checkpoint _ | .work | .restart => .isTrue trivial

/-- `capture_identity` of a notice that is published once, and of the run `sampleOps`, whose last
three items are answered the same with and without the restart. -/
theorem capture_identity_sample :
    Contract noticeConfig (Runs.run (Census.step noticeConfig) {}
        ([.start none .ok, .admitItem {} sampleNotice] ++ undisturbed 10)) ∧
      ((answers noticeConfig served (started noticeConfig) sampleOps).drop 11 =
        [some .duplicate, none, some .duplicate, some .identityConflict]) ∧
      answers noticeConfig served (started noticeConfig) sampleOps =
        answers noticeConfig steady (started noticeConfig) sampleOps :=
  ⟨(capture_identity noticeConfig noticeConfig_sha256).1 _ (by decide), by decide +kernel,
    (capture_identity noticeConfig noticeConfig_sha256).2 rfl _ (by decide +kernel)⟩

/-- A notice is published, the collector is stopped and started, and the notice comes again. -/
def noticeActions : List Action :=
  [.start none .ok, .admitItem {} sampleNotice] ++ undisturbed 10 ++
    [.stop, .work {}, .markClean .ok, .crash, .start none .ok, .admitItem {} sampleNotice] ++
    undisturbed 10

/-- **A loss notice is durable twice** after a clean restart: two rows of the index have one
identity. -/
theorem capture_identity_notice :
    ¬ ∀ (c : Config) (acts : List Action), (∀ t, c.sha256 t ≠ []) →
      (∀ a ∈ acts, a.Undisturbed) → ∀ m ∈ (Runs.run (step c) {} acts).process,
        (m.index.map fun e =>
          (e.row.get "source_instance_id", e.row.get "source_local_sequence")).Nodup := by
  intro hall
  have hcase := hall noticeConfig noticeActions noticeConfig_sha256 (by decide)
  revert hcase
  decide +kernel

end Archive
end SemanticMemory
