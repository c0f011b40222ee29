import SemanticMemory.Archive.Queues

/-!
# The accounts of the collector

Every item that the collector answers with `admitted` is one unit.  It leaves the queue when a high
item displaces it, or with a batch; it leaves the batch when the capacity is exhausted, when an
append fails, or when its watermark is installed.

* `Ledger` follows a process and notes each unit where it has gone, next to what the three counters
  of the state count besides.  A batch whose watermark could not be written stays with the thread:
  it is `unresolved`, and `publishing_units` counts it on (`Borne`).
* `Balanced` is the account: the admitted units are those in the queue, in the batch, and in one of
  the lists of the ledger, and the counters count the lists.  It also holds the bounds of the queue.
* A high item displaces one low item, whatever their sizes, and a batch that is held at the phase
  hold is given up without a trace when the process stops.  `Roomy` excludes both.
  `audited_run` is the statement about runs.
-/

namespace SemanticMemory
namespace Archive

variable {c : Config} {d : Disk} {m : Memory}

/-! ## Admissions -/

/-- The item that an admission puts to `_queue_locked`, if it is not refused before. -/
def offered (c : Config) (g : Gate) (m : Memory) (s : Semantic) : Option Item :=
  if c.limits.maxEventBytes < s.size then none
  else if g.unavailable then none
  else if !g.allowed then none
  else if m.state.storageFailure then none
  else if m.state.capacityStop then none
  else if !s.kind.isContentFree && !g.enabled then none
  else match m.identities s.identity with
    | some previous =>
      if previous = s.contentHash c.sha256 then none else some ⟨s, s.size, true⟩
    | none => some ⟨s, s.size, false⟩

/-- The item that `_queue_locked` displaces for another one. -/
def Memory.givesWay (c : Config) (m : Memory) (i : Item) : Option Item :=
  if m.fits c i.size then none
  else if i.semantic.isHigh then
    (m.queue.findIdx? Memory.displaceable).bind fun index => m.queue[index]?
  else none

/-- **What `_queue_locked` does** to the queue and the counters. -/
inductive Queued (c : Config) (m : Memory) (i : Item) : Memory × Bool → Prop where
  | fits (hfits : m.fits c i.size = true) (hgives : m.givesWay c i = none) :
      Queued c m i (m.enqueue i, true)
  | displaces (index : ℕ) (old : Item) (xs ys : List Semantic)
      (hgives : m.givesWay c i = some old) (hold : m.queue[index]? = some old)
      (hqueue : original m.queue = xs ++ old.semantic :: ys)
      (hleft : original (m.queue.eraseIdx index) = xs ++ ys) :
      Queued c m i ((m.displace index).enqueue i, true)
  | full (hgives : m.givesWay c i = none) : Queued c m i (m, false)

theorem queueLocked_queued (c : Config) (m : Memory) (i : Item) :
    Queued c m i (m.queueLocked c i) := by
  unfold Memory.queueLocked
  split_ifs with hfits hhigh
  · exact .fits hfits (if_pos hfits)
  · cases hindex : m.queue.findIdx? Memory.displaceable with
    | none =>
      refine .full ?_
      rw [Memory.givesWay, if_neg hfits, if_pos hhigh, hindex]
      rfl
    | some index =>
      obtain ⟨old, hget, -, hsplit, herase⟩ := original_of_displaceable hindex
      refine .displaces index old (original (m.queue.take index))
        (original (m.queue.drop (index + 1))) ?_ hget hsplit herase
      rw [Memory.givesWay, if_neg hfits, if_pos hhigh, hindex]
      exact hget
  · refine .full ?_
    rw [Memory.givesWay, if_neg hfits, if_neg hhigh]

/-! ## The ledger -/

/-- Where the units of a process have gone. -/
structure Ledger where
  admitted : List Semantic := []
  durable : List Semantic := []
  dropped : List Semantic := []
  refused : List Semantic := []
  failed : List Semantic := []
  /-- In a batch whose publication has ended the thread. -/
  unresolved : List Semantic := []
  /-- What the three counters count besides. -/
  otherDropped : ℕ := 0
  otherRefused : ℕ := 0
  otherFailed : ℕ := 0
  /-- The rows of the index at the start. -/
  oldRows : ℕ := 0

namespace Ledger

/-- The ledger of a process that has just been started. -/
def opened (m : Memory) : Ledger where
  otherDropped := m.state.knownDroppedUnits
  otherRefused := m.state.capacityRefusedUnits
  otherFailed := m.state.storageFailedUnits
  oldRows := m.index.length

/-- An item is answered. -/
def accept (c : Config) (g : Gate) (m : Memory) (s : Semantic) (l : Ledger) : Ledger :=
  { l with
    admitted := if (acceptOne c g m s).2 = .admitted then l.admitted ++ [s] else l.admitted
    dropped := match (offered c g m s).bind (m.givesWay c) with
      | some old => l.dropped ++ [old.semantic]
      | none => l.dropped
    otherDropped := if (acceptOne c g m s).2 = .queueSaturated ∧ m.identities s.identity = none
      then l.otherDropped + 1 else l.otherDropped
    otherRefused := if (acceptOne c g m s).2 = .capacityStop then l.otherRefused + 1
      else l.otherRefused }

def itemLine (c : Config) (laid : Laid) (i : Item) : Text :=
  if i.quarantine then quarantineLine c.sha256 i.semantic
  else recordLine c.sha256 i.semantic (laid.nextSeq + 1)

/-- A piece of the publication thread. -/
def work (c : Config) (env : Env) (m : Memory) (l : Ledger) : Ledger :=
  match m.thread with
  | .lay (i :: _) laid =>
    if c.limits.archiveCapacityBytes < laid.used + (itemLine c laid i).length then
      if i.quarantine then { l with otherRefused := l.otherRefused + 1 }
      else { l with refused := l.refused ++ [i.semantic] }
    else l
  | .measure laid =>
    if env.unsafePath then { l with unresolved := l.unresolved ++ laid.semantics } else l
  | .failed laid =>
    { l with
      failed := l.failed ++ laid.semantics
      otherFailed := l.otherFailed + laid.quarantine.length }
  | .hold laid _ _ =>
    if c.phaseHold ∧ (laid.observations ≠ [] ∨ laid.quarantine ≠ []) ∧ m.stop then
      if env.unsafePath then { l with unresolved := l.unresolved ++ laid.semantics } else l
    else l
  | .publish laid _ =>
    if env.write.raises then { l with unresolved := l.unresolved ++ laid.semantics } else l
  | .install laid _ => { l with durable := l.durable ++ laid.semantics }
  | _ => l

def step (c : Config) (w : World) (a : Action) (l : Ledger) : Ledger :=
  match w.process, a with
  | none, .start halt write =>
    match (prepare c w.disk halt write).2 with
    | some m => opened m
    | none => {}
  | some _, .crash => {}
  | some m, .admitItem g s => l.accept c g m s
  | some m, .work env => l.work c env m
  | _, _ => l

end Ledger

/-- A run and its ledger. -/
structure Account where
  world : World := {}
  ledger : Ledger := {}

/-- One step of a run and its ledger. -/
def Account.step (c : Config) (x : Account) (a : Action) : Account where
  world := Archive.step c x.world a
  ledger := x.ledger.step c x.world a

/-- **The account of a process.** -/
structure Balanced (c : Config) (m : Memory) (l : Ledger) : Prop where
  conserved : l.admitted.Perm
    (m.live ++ (l.unresolved ++ (l.durable ++ (l.dropped ++ (l.refused ++ l.failed)))))
  dropped : m.state.knownDroppedUnits = l.otherDropped + l.dropped.length
  refused : m.state.capacityRefusedUnits = l.otherRefused + l.refused.length
  failed : m.state.storageFailedUnits = l.otherFailed + l.failed.length
  rows : m.index.length = l.oldRows + l.durable.length
  tallied : Tallied m
  count : m.queue.length ≤ c.limits.collectorQueueCount
  bytes : m.queueBytes ≤ c.limits.collectorQueueBytes

def Thread.held : Thread → Option Laid
  | .hold laid _ _ => some laid
  | _ => none

/-- **What keeps the account**: an item that gives way leaves room enough, and no stop meets a batch
with observations at the phase hold. -/
def Roomy (c : Config) (w : World) : Action → Prop
  | .admitItem g s => ∀ m ∈ w.process, ∀ i ∈ offered c g m s, ∀ old ∈ m.givesWay c i,
      m.queueBytes - old.size + i.size ≤ c.limits.collectorQueueBytes
  | .work _ => ∀ m ∈ w.process, ∀ laid ∈ m.thread.held,
      ¬ (c.phaseHold = true ∧ laid.observations ≠ [] ∧ m.stop = true)
  | _ => True

/-! ## What one step keeps -/

section Keep

variable {l : Ledger}

variable {m' : Memory}

/-- Nothing happens that the account counts. -/
theorem Balanced.same (h : Balanced c m l) (hlive : m'.live = m.live)
    (hqueue : m'.queue = m.queue) (hbytes : m'.queueBytes = m.queueBytes)
    (hindex : m'.index = m.index)
    (hdropped : m'.state.knownDroppedUnits = m.state.knownDroppedUnits)
    (hrefused : m'.state.capacityRefusedUnits = m.state.capacityRefusedUnits)
    (hfailed : m'.state.storageFailedUnits = m.state.storageFailedUnits) : Balanced c m' l where
  conserved := hlive ▸ h.conserved
  dropped := hdropped.trans h.dropped
  refused := hrefused.trans h.refused
  failed := hfailed.trans h.failed
  rows := hindex ▸ h.rows
  tallied := by
    rw [Tallied, hqueue, hbytes]
    exact h.tallied
  count := hqueue ▸ h.count
  bytes := hbytes ▸ h.bytes

/-! ### Admission -/

/-- **The ways of an admission**: it is refused before the queue, it conflicts with what is known of
its identity, or it is new. -/
inductive Admission (c : Config) (g : Gate) (m : Memory) (s : Semantic) : Prop where
  | refused (f : State → State) (code : Code) (hoffered : offered c g m s = none)
      (haccept : acceptOne c g m s = (m.updateState f, code)) (hadmitted : code ≠ .admitted)
      (hsaturated : code ≠ .queueSaturated)
      (hdropped : ∀ t, (f t).knownDroppedUnits = t.knownDroppedUnits)
      (hrefused : ∀ t, (f t).capacityRefusedUnits =
        if code = .capacityStop then t.capacityRefusedUnits + 1 else t.capacityRefusedUnits)
      (hfailed : ∀ t, (f t).storageFailedUnits = t.storageFailedUnits)
  | conflict (previous : Str) (hknown : m.identities s.identity = some previous)
      (hoffered : offered c g m s = some ⟨s, s.size, true⟩)
      (haccept : acceptOne c g m s = ((m.countConflict.queueLocked c ⟨s, s.size, true⟩).1,
        if (m.countConflict.queueLocked c ⟨s, s.size, true⟩).2 then .identityConflict
        else .queueSaturated))
  | new (hknown : m.identities s.identity = none)
      (hoffered : offered c g m s = some ⟨s, s.size, false⟩)
      (haccept : acceptOne c g m s = if (m.queueLocked c ⟨s, s.size, false⟩).2
        then ((m.queueLocked c ⟨s, s.size, false⟩).1.know s.identity (s.contentHash c.sha256),
          .admitted)
        else ((m.queueLocked c ⟨s, s.size, false⟩).1.countDrop, .queueSaturated))

theorem admission (c : Config) (g : Gate) (m : Memory) (s : Semantic) : Admission c g m s := by
  have hsame (code : Code) (hoffered : offered c g m s = none) (haccept : acceptOne c g m s = (m, code))
      (hadmitted : code ≠ .admitted) (hsaturated : code ≠ .queueSaturated)
      (hcapacity : code ≠ .capacityStop) : Admission c g m s :=
    .refused id code hoffered haccept hadmitted hsaturated (fun _ => rfl)
      (fun _ => (if_neg hcapacity).symm) fun _ => rfl
  by_cases h₁ : c.limits.maxEventBytes < s.size
  · exact .refused (fun t => { t with admissionRefusedUnits := t.admissionRefusedUnits + 1 })
      .eventTooLarge (if_pos h₁) (if_pos h₁) nofun nofun (fun _ => rfl) (fun _ => rfl) fun _ => rfl
  by_cases h₂ : g.unavailable = true
  · exact hsame .storageFailure (by rw [offered, if_neg h₁, if_pos h₂])
      (by rw [acceptOne, if_neg h₁, if_pos h₂]) nofun nofun nofun
  by_cases h₃ : (!g.allowed) = true
  · exact hsame .invalidRequest (by rw [offered, if_neg h₁, if_neg h₂, if_pos h₃])
      (by rw [acceptOne, if_neg h₁, if_neg h₂, if_pos h₃]) nofun nofun nofun
  by_cases h₄ : m.state.storageFailure = true
  · exact hsame .storageFailure (by rw [offered, if_neg h₁, if_neg h₂, if_neg h₃, if_pos h₄])
      (by rw [acceptOne, if_neg h₁, if_neg h₂, if_neg h₃, if_pos h₄]) nofun nofun nofun
  by_cases h₅ : m.state.capacityStop = true
  · exact .refused (fun t => { t with capacityRefusedUnits := t.capacityRefusedUnits + 1 })
      .capacityStop (by rw [offered, if_neg h₁, if_neg h₂, if_neg h₃, if_neg h₄, if_pos h₅])
      (by rw [acceptOne, if_neg h₁, if_neg h₂, if_neg h₃, if_neg h₄, if_pos h₅]) nofun nofun
      (fun _ => rfl) (fun _ => rfl) fun _ => rfl
  by_cases h₆ : (!s.kind.isContentFree && !g.enabled) = true
  · exact hsame .captureDisabled
      (by rw [offered, if_neg h₁, if_neg h₂, if_neg h₃, if_neg h₄, if_neg h₅, if_pos h₆])
      (by rw [acceptOne, if_neg h₁, if_neg h₂, if_neg h₃, if_neg h₄, if_neg h₅, if_pos h₆])
      nofun nofun nofun
  have hoffered : offered c g m s = match m.identities s.identity with
      | some previous =>
        if previous = s.contentHash c.sha256 then none else some ⟨s, s.size, true⟩
      | none => some ⟨s, s.size, false⟩ := by
    rw [offered, if_neg h₁, if_neg h₂, if_neg h₃, if_neg h₄, if_neg h₅, if_neg h₆]
  have haccept := show acceptOne c g m s = _ by
    rw [acceptOne, if_neg h₁, if_neg h₂, if_neg h₃, if_neg h₄, if_neg h₅, if_neg h₆]
  cases hknown : m.identities s.identity with
  | some previous =>
    rw [hknown] at hoffered haccept
    by_cases hdup : previous = s.contentHash c.sha256
    · exact hsame .duplicate (hoffered.trans (if_pos hdup)) (haccept.trans (if_pos hdup)) nofun
        nofun nofun
    · exact .conflict previous hknown (hoffered.trans (if_neg hdup)) (haccept.trans (if_neg hdup))
  | none =>
    rw [hknown] at hoffered haccept
    exact .new hknown hoffered haccept

/-- An item that is queued, whatever its priority and whatever it displaces. -/
theorem Balanced.queueLocked (h : Balanced c m l) (i : Item)
    (hroom : ∀ old ∈ m.givesWay c i,
      m.queueBytes - old.size + i.size ≤ c.limits.collectorQueueBytes) :
    ∃ dropped : List Semantic,
      dropped = ((m.givesWay c i).map Item.semantic).toList ∧
      (m.queueLocked c i).1.state.knownDroppedUnits =
        m.state.knownDroppedUnits + dropped.length ∧
      (m.queueLocked c i).1.state.capacityRefusedUnits = m.state.capacityRefusedUnits ∧
      (m.queueLocked c i).1.state.storageFailedUnits = m.state.storageFailedUnits ∧
      (m.queueLocked c i).1.index = m.index ∧ Tallied (m.queueLocked c i).1 ∧
      (m.queueLocked c i).1.queue.length ≤ c.limits.collectorQueueCount ∧
      (m.queueLocked c i).1.queueBytes ≤ c.limits.collectorQueueBytes ∧
      (m.live ++ (if (m.queueLocked c i).2 ∧ i.quarantine = false then [i.semantic] else [])).Perm
        ((m.queueLocked c i).1.live ++ dropped) := by
  have htallied := h.tallied.queueLocked (c := c) i
  have hlive (m' : Memory) (hthread : m'.thread = m.thread) : (m'.enqueue i).live =
      m.thread.inFlight ++ original m'.queue ++
        (if i.quarantine = false then [i.semantic] else []) := by
    show m'.thread.inFlight ++ original (m'.queue ++ [i]) = _
    rw [hthread, original_append, original_cons, List.append_assoc]
    cases i.quarantine <;> rfl
  have hqueued := queueLocked_queued c m i
  revert htallied
  generalize m.queueLocked c i = r at hqueued ⊢
  cases hqueued with
  | fits hfits hgives =>
    intro htallied
    have hbounds : m.queue.length + 1 ≤ c.limits.collectorQueueCount ∧
        m.queueBytes + i.size ≤ c.limits.collectorQueueBytes := by
      simpa only [Memory.fits, Bool.and_eq_true, decide_eq_true_eq] using hfits
    refine ⟨[], by rw [hgives]; rfl, rfl, rfl, rfl, rfl, htallied, ?_, hbounds.2, ?_⟩
    · show (m.queue ++ [i]).length ≤ _
      rw [List.length_append]
      exact hbounds.1
    · rw [hlive m rfl, List.append_nil]
      simp only [true_and]
      exact List.Perm.refl _
  | displaces index old xs ys hgives hold hqueue hleft =>
    intro htallied
    have hdisplace : (m.displace index).queue = m.queue.eraseIdx index ∧
        (m.displace index).queueBytes = m.queueBytes - old.size ∧
        (m.displace index).thread = m.thread ∧ (m.displace index).index = m.index ∧
        (m.displace index).state =
          { m.state with knownDroppedUnits := m.state.knownDroppedUnits + 1 } := by
      unfold Memory.displace
      rw [hold]
      dsimp only
      split_ifs <;> exact ⟨rfl, rfl, rfl, rfl, rfl⟩
    obtain ⟨hq, hb, ht, hi, hs⟩ := hdisplace
    have hlt := (List.getElem?_eq_some_iff.mp hold).1
    refine ⟨[old.semantic], by rw [hgives]; rfl, ?_, ?_, ?_, hi, htallied, ?_, ?_, ?_⟩
    · show (m.displace index).state.knownDroppedUnits = _
      rw [hs]
      rfl
    · show (m.displace index).state.capacityRefusedUnits = _
      rw [hs]
    · show (m.displace index).state.storageFailedUnits = _
      rw [hs]
    · show ((m.displace index).queue ++ [i]).length ≤ _
      have hcount := h.count
      rw [hq, List.length_append, List.length_eraseIdx_of_lt hlt, List.length_singleton]
      omega
    · show (m.displace index).queueBytes + i.size ≤ _
      rw [hb]
      exact hroom old hgives
    · rw [hlive _ ht, hq, hleft, Memory.live, hqueue]
      simp only [true_and]
      rw [List.perm_iff_count]
      intro a
      simp only [List.count_append, List.count_cons, List.count_nil]
      omega
  | full hgives =>
    intro htallied
    refine ⟨[], by rw [hgives]; rfl, rfl, rfl, rfl, rfl, h.tallied, h.count, h.bytes, ?_⟩
    simp only [Bool.false_eq_true, false_and, if_false, List.append_nil]
    exact List.Perm.refl _

/-- The displaced observation in the ledger. -/
theorem accept_dropped (c : Config) (g : Gate) (m : Memory) (s : Semantic) (l : Ledger) {i : Item}
    (hoffered : offered c g m s = some i) : (l.accept c g m s).dropped =
      l.dropped ++ ((m.givesWay c i).map Item.semantic).toList := by
  unfold Ledger.accept
  rw [hoffered]
  show (match m.givesWay c i with
    | some old => l.dropped ++ [old.semantic]
    | none => l.dropped) = _
  cases m.givesWay c i with
  | none => exact (List.append_nil _).symm
  | some old => rfl

/-- **An admission keeps the account.** -/
theorem Balanced.accept (h : Balanced c m l) (g : Gate) (s : Semantic)
    (hroom : ∀ i ∈ offered c g m s, ∀ old ∈ m.givesWay c i,
      m.queueBytes - old.size + i.size ≤ c.limits.collectorQueueBytes) :
    Balanced c (acceptOne c g m s).1 (l.accept c g m s) := by
  rcases admission c g m s with ⟨f, code, hoffered, haccept, hadmitted, hsaturated, hdropped,
    hrefused, hfailed⟩ | ⟨previous, hknown, hoffered, haccept⟩ | ⟨hknown, hoffered, haccept⟩
  · have hl : l.accept c g m s = { l with
        otherRefused := if code = .capacityStop then l.otherRefused + 1 else l.otherRefused } := by
      unfold Ledger.accept
      rw [haccept, hoffered, if_neg hadmitted, if_neg fun hs => hsaturated hs.1]
      rfl
    rw [haccept, hl]
    refine ⟨h.conserved, (hdropped m.state).trans h.dropped, ?_, (hfailed m.state).trans h.failed,
      h.rows, h.tallied, h.count, h.bytes⟩
    show (f m.state).capacityRefusedUnits =
      (if code = .capacityStop then l.otherRefused + 1 else l.otherRefused) + l.refused.length
    have hbefore := h.refused
    rw [hrefused]
    split_ifs <;> omega
  · have hcount : Balanced c m.countConflict l := h.same rfl rfl rfl rfl rfl rfl rfl
    obtain ⟨dropped, hlist, hdropped, hrefused, hfailed, hindex, htallied, hlength, hbytes, hperm⟩ :=
      hcount.queueLocked ⟨s, s.size, true⟩ (hroom _ hoffered)
    have hdropped' := accept_dropped c g m s l hoffered
    rw [show (m.givesWay c ⟨s, s.size, true⟩) = m.countConflict.givesWay c ⟨s, s.size, true⟩ from rfl,
      ← hlist] at hdropped'
    have hcode : (acceptOne c g m s).2 ≠ .admitted ∧ (acceptOne c g m s).2 ≠ .capacityStop := by
      rw [haccept]
      dsimp only
      split_ifs
      · exact ⟨nofun, nofun⟩
      · exact ⟨nofun, nofun⟩
    have hl : l.accept c g m s = { l with dropped := l.dropped ++ dropped } := by
      rw [← hdropped']
      unfold Ledger.accept
      rw [if_neg hcode.1, if_neg hcode.2, if_neg fun hs => by rw [hknown] at hs; cases hs.2]
    have hstate : (acceptOne c g m s).1 = (m.countConflict.queueLocked c ⟨s, s.size, true⟩).1 := by
      rw [haccept]
    rw [hl, hstate]
    refine ⟨?_, ?_, hrefused.trans h.refused, hfailed.trans h.failed, ?_, htallied, hlength, hbytes⟩
    · have hconserved := h.conserved
      have hperm' : m.live.Perm
          ((m.countConflict.queueLocked c ⟨s, s.size, true⟩).1.live ++ dropped) := by
        have hnone : m.countConflict.live ++ [] = m.live := List.append_nil _
        simpa only [Bool.true_eq_false, and_false, if_false, hnone] using hperm
      rw [List.perm_iff_count] at hconserved hperm' ⊢
      intro a
      have hc := hconserved a
      have hp := hperm' a
      simp only [List.count_append] at hc hp ⊢
      omega
    · show _ = l.otherDropped + (l.dropped ++ dropped).length
      have hbefore : m.countConflict.state.knownDroppedUnits = _ := h.dropped
      rw [hdropped, hbefore, List.length_append, Nat.add_assoc]
    · rw [hindex]
      exact h.rows
  · obtain ⟨dropped, hlist, hdropped, hrefused, hfailed, hindex, htallied, hlength, hbytes, hperm⟩ :=
      h.queueLocked ⟨s, s.size, false⟩ (hroom _ hoffered)
    have hdropped' := accept_dropped c g m s l hoffered
    rw [← hlist] at hdropped'
    have hconserved := h.conserved
    rw [List.perm_iff_count] at hconserved hperm
    by_cases hqueued : (m.queueLocked c ⟨s, s.size, false⟩).2 = true
    · rw [if_pos hqueued] at haccept
      have hl : l.accept c g m s =
          { l with admitted := l.admitted ++ [s], dropped := l.dropped ++ dropped } := by
        rw [← hdropped']
        unfold Ledger.accept
        rw [haccept]
        rfl
      rw [haccept, hl]
      refine ⟨?_, ?_, hrefused.trans h.refused, hfailed.trans h.failed, ?_, htallied, hlength,
        hbytes⟩
      · rw [List.perm_iff_count]
        intro a
        have hc := hconserved a
        have hp := hperm a
        rw [if_pos ⟨hqueued, rfl⟩] at hp
        have hlive : ((m.queueLocked c ⟨s, s.size, false⟩).1.know s.identity
            (s.contentHash c.sha256)).live = (m.queueLocked c ⟨s, s.size, false⟩).1.live := rfl
        simp only [List.count_append, hlive] at hc hp ⊢
        omega
      · show (m.queueLocked c ⟨s, s.size, false⟩).1.state.knownDroppedUnits =
          l.otherDropped + (l.dropped ++ dropped).length
        rw [hdropped, h.dropped, List.length_append, Nat.add_assoc]
      · show (m.queueLocked c ⟨s, s.size, false⟩).1.index.length = _
        rw [hindex]
        exact h.rows
    · rw [if_neg hqueued] at haccept
      have hl : l.accept c g m s = { l with
          dropped := l.dropped ++ dropped, otherDropped := l.otherDropped + 1 } := by
        rw [← hdropped']
        unfold Ledger.accept
        rw [haccept, hknown]
        rfl
      rw [haccept, hl]
      refine ⟨?_, ?_, hrefused.trans h.refused, hfailed.trans h.failed, ?_, htallied, hlength,
        hbytes⟩
      · rw [List.perm_iff_count]
        intro a
        have hc := hconserved a
        have hp := hperm a
        rw [if_neg fun hq => hqueued hq.1] at hp
        have hlive : (m.queueLocked c ⟨s, s.size, false⟩).1.countDrop.live =
            (m.queueLocked c ⟨s, s.size, false⟩).1.live := rfl
        simp only [List.count_append, List.count_nil, hlive] at hc hp ⊢
        omega
      · show (m.queueLocked c ⟨s, s.size, false⟩).1.state.knownDroppedUnits + 1 =
          l.otherDropped + 1 + (l.dropped ++ dropped).length
        rw [hdropped, h.dropped, List.length_append]
        omega
      · show (m.queueLocked c ⟨s, s.size, false⟩).1.index.length = _
        rw [hindex]
        exact h.rows

/-! ### The publication thread -/

theorem rememberAll_counts (c : Config) (lines : List ObservationLine) (offset : ℕ) (m : Memory) :
    (m.rememberAll c lines offset).state = m.state ∧
      (m.rememberAll c lines offset).index.length = m.index.length + lines.length := by
  induction lines generalizing m offset with
  | nil => exact ⟨rfl, rfl⟩
  | cons line lines ih =>
    rw [Memory.rememberAll, (ih _ _).1, (ih _ _).2, remember_eq]
    refine ⟨rfl, ?_⟩
    show (m.index ++ [_]).length + lines.length = _
    rw [List.length_append, List.length_cons, List.length_cons, List.length_nil]
    omega

/-- A batch that has raised: only the identities of the memory are changed besides. -/
theorem giveUp_eq (m : Memory) (laid : Laid) : m.giveUp laid =
    { m with
      state := { m.state with
        storageFailure := true
        storageFailedUnits := m.state.storageFailedUnits +
          (laid.observations.length + laid.quarantine.length) }
      publishingUnits := 0
      thread := .persistState
      identities := (m.giveUp laid).identities } := by
  have hfold {f : Memory → ObservationLine → Memory}
      (hf : ∀ m l, f m l = { m with identities := (f m l).identities })
      (lines : List ObservationLine) (m : Memory) :
      lines.foldl f m = { m with identities := (lines.foldl f m).identities } := by
    induction lines generalizing m with
    | nil => rfl
    | cons l lines ih =>
      rw [List.foldl_cons, ih, hf]
  exact hfold (fun m l => by split <;> rfl) laid.observations _

/-- The head of the loop. -/
theorem Balanced.takeBatch (h : Balanced c m l) (hidle : m.thread = .idle) :
    Balanced c (m.takeBatch c) l := by
  have hflight : m.thread.inFlight = [] := by rw [hidle]; rfl
  have htallied := h.tallied.takeBatch (c := c)
  revert htallied
  unfold Memory.takeBatch
  split_ifs <;> intro htallied
  · exact h.same (by rw [Memory.live, Memory.live, hflight]; rfl) rfl rfl rfl rfl rfl rfl
  · exact h
  · refine h.same ?_ rfl rfl rfl rfl rfl rfl
    rw [Memory.live, Memory.live, hflight]
    unfold Memory.answered
    cases m.waiters <;> rfl
  · have hlive : (m.taken (min m.queue.length c.limits.batchSize)).live = m.live := by
      show ([] ++ original (m.queue.take _)) ++ original (m.queue.drop _) = m.live
      rw [List.nil_append, ← original_append, List.take_append_drop, Memory.live, hflight,
        List.nil_append]
    refine ⟨hlive ▸ h.conserved, h.dropped, h.refused, h.failed, h.rows, htallied, ?_, ?_⟩
    · show (m.queue.drop _).length ≤ _
      have hcount := h.count
      rw [List.length_drop]
      omega
    · show m.queueBytes - _ ≤ _
      exact Nat.le_trans (Nat.sub_le _ _) h.bytes

variable {laid : Laid}

theorem Balanced.layItem (h : Balanced c m l) (env : Env) {i : Item} {todo : List Item}
    (hlay : m.thread = .lay (i :: todo) laid) :
    Balanced c (m.layItem c i todo laid) (l.work c env m) := by
  have hlive : m.live = laid.semantics ++ original (i :: todo) ++ original m.queue := by
    rw [Memory.live, hlay]
    rfl
  have hcons := original_cons i todo
  have hwork : l.work c env m =
      if c.limits.archiveCapacityBytes < laid.used + (Ledger.itemLine c laid i).length then
        if i.quarantine then { l with otherRefused := l.otherRefused + 1 }
        else { l with refused := l.refused ++ [i.semantic] }
      else l := by
    rw [Ledger.work, hlay]
  have hrefused := h.refused
  rw [hwork]
  unfold Memory.layItem Ledger.itemLine
  dsimp only
  by_cases hquarantine : i.quarantine = true
  · rw [if_pos hquarantine] at hcons
    simp only [if_pos hquarantine]
    split_ifs
    · refine ⟨?_, h.dropped, ?_, h.failed, h.rows, h.tallied, h.count, h.bytes⟩
      · have hlive' : Memory.live { m.refuseForCapacity with thread := .lay todo laid } = m.live := by
          rw [hlive, hcons]
          rfl
        rw [hlive']
        exact h.conserved
      · show m.state.capacityRefusedUnits + 1 = l.otherRefused + 1 + l.refused.length
        omega
    · refine h.same ?_ rfl rfl rfl rfl rfl rfl
      rw [hlive, hcons]
      rfl
  · rw [if_neg hquarantine] at hcons
    simp only [if_neg hquarantine]
    have hrecord : (recordLine c.sha256 i.semantic (laid.nextSeq + 1)) =
        (record c.sha256 i.semantic (laid.nextSeq + 1)).line := rfl
    rw [hrecord]
    split_ifs
    · refine ⟨?_, h.dropped, ?_, h.failed, h.rows, h.tallied, h.count, h.bytes⟩
      · have hlive' : Memory.live { m.refuseForCapacity.forget i.semantic.identity with
            thread := .lay todo laid } = laid.semantics ++ original todo ++ original m.queue := rfl
        have hconserved := h.conserved
        rw [hlive, hcons] at hconserved
        rw [hlive']
        rw [List.perm_iff_count] at hconserved ⊢
        intro a
        have hc := hconserved a
        simp only [List.count_append, List.count_cons, List.count_nil] at hc ⊢
        omega
      · show m.state.capacityRefusedUnits + 1 = l.otherRefused + (l.refused ++ [_]).length
        rw [List.length_append, List.length_singleton]
        omega
    · refine h.same ?_ rfl rfl rfl rfl rfl rfl
      rw [hlive, hcons]
      show (laid.observations ++ [(_ : ObservationLine)]).map (fun o => o.item.semantic) ++
        original todo ++ original m.queue = _
      rw [List.map_append, List.append_assoc (laid.observations.map fun o => o.item.semantic)]
      rfl

variable {l' : Ledger}

/-- The batch in flight goes to another list of the account. -/
theorem Balanced.settle (h : Balanced c m l)
    (hflight : m.thread.inFlight = laid.semantics) (hlive : m'.live = original m.queue)
    (hqueue : m'.queue = m.queue) (hbytes : m'.queueBytes = m.queueBytes)
    (hadmitted : l'.admitted = l.admitted)
    (hlists : (laid.semantics ++ (l.unresolved ++ (l.durable ++ (l.dropped ++
        (l.refused ++ l.failed))))).Perm
      (l'.unresolved ++ (l'.durable ++ (l'.dropped ++ (l'.refused ++ l'.failed)))))
    (hdropped : m'.state.knownDroppedUnits = l'.otherDropped + l'.dropped.length)
    (hrefused : m'.state.capacityRefusedUnits = l'.otherRefused + l'.refused.length)
    (hfailed : m'.state.storageFailedUnits = l'.otherFailed + l'.failed.length)
    (hrows : m'.index.length = l'.oldRows + l'.durable.length) : Balanced c m' l' where
  conserved := by
    have hconserved := h.conserved
    rw [Memory.live, hflight] at hconserved
    rw [hadmitted, hlive]
    rw [List.perm_iff_count] at hconserved hlists ⊢
    intro a
    have hc := hconserved a
    have hl := hlists a
    simp only [List.count_append] at hc hl ⊢
    omega
  dropped := hdropped
  refused := hrefused
  failed := hfailed
  rows := hrows
  tallied := by
    rw [Tallied, hqueue, hbytes]
    exact h.tallied
  count := hqueue ▸ h.count
  bytes := hbytes ▸ h.bytes

/-- An exception ends the thread, with a batch in its hands. -/
theorem Balanced.die (h : Balanced c m l)
    (hflight : m.thread.inFlight = laid.semantics)
    (hstate : m'.state.knownDroppedUnits = m.state.knownDroppedUnits ∧
      m'.state.capacityRefusedUnits = m.state.capacityRefusedUnits ∧
      m'.state.storageFailedUnits = m.state.storageFailedUnits)
    (hthread : m'.thread = .dead) (hqueue : m'.queue = m.queue)
    (hbytes : m'.queueBytes = m.queueBytes) (hindex : m'.index = m.index) :
    Balanced c m' { l with unresolved := l.unresolved ++ laid.semantics } := by
  refine h.settle hflight ?_ hqueue hbytes rfl ?_ (hstate.1.trans h.dropped)
    (hstate.2.1.trans h.refused) (hstate.2.2.trans h.failed) (hindex ▸ h.rows)
  · rw [Memory.live, hthread, hqueue]
    rfl
  · rw [List.perm_iff_count]
    intro a
    simp only [List.count_append]
    omega

/-- **A piece of the publication thread keeps the account**, whatever becomes of its effects, unless
it gives up a held batch. -/
theorem Balanced.work (h : Balanced c m l) (env : Env) (d : Disk)
    (hheld : ∀ laid ∈ m.thread.held,
      ¬ (c.phaseHold = true ∧ laid.observations ≠ [] ∧ m.stop = true)) :
    Balanced c (Archive.work c env d m).2 (l.work c env m) := by
  have hat {t u : Thread} (hplace : m.thread = t) (hflight : u.inFlight = t.inFlight) :
      Balanced c { m with thread := u } l := by
    refine h.same ?_ rfl rfl rfl rfl rfl rfl
    show u.inFlight ++ original m.queue = _
    rw [hflight, Memory.live, hplace]
  rw [Archive.work, Ledger.work]
  cases hplace : m.thread with
  | idle => exact h.takeBatch hplace
  | persistState => exact hat hplace rfl
  | writeState payload =>
    dsimp only
    split_ifs
    · refine h.same ?_ rfl rfl rfl rfl rfl rfl
      rw [Memory.live, Memory.live, hplace]
      rfl
    · exact hat hplace rfl
  | lay todo laid =>
    cases todo with
    | nil => exact hat hplace (List.append_nil _).symm
    | cons i todo =>
      have hlaid := h.layItem env hplace
      rw [Ledger.work, hplace] at hlaid
      exact hlaid
  | measure laid | publish laid pending =>
    dsimp only
    split_ifs
    · exact h.die (congrArg Thread.inFlight hplace) ⟨rfl, rfl, rfl⟩ rfl rfl rfl rfl
    · exact hat hplace rfl
  | appendQuarantine laid before | appendObservations laid before =>
    dsimp only
    split_ifs <;> exact hat hplace rfl
  | failed laid =>
    have hsemantics : laid.semantics.length = laid.observations.length := List.length_map _
    have hfailed := h.failed
    dsimp only
    rw [giveUp_eq]
    refine h.settle (congrArg Thread.inFlight hplace) rfl rfl rfl rfl ?_ h.dropped h.refused ?_
      h.rows
    · rw [List.perm_iff_count]
      intro a
      simp only [List.count_append]
      omega
    · show m.state.storageFailedUnits + (laid.observations.length + laid.quarantine.length) =
        l.otherFailed + laid.quarantine.length + (l.failed ++ laid.semantics).length
      rw [List.length_append]
      omega
  | stage laid before => exact hat hplace rfl
  | hold laid before pending =>
    have hnot := hheld laid (by rw [hplace]; rfl)
    dsimp only
    split_ifs with hstop
    · exact h.die (congrArg Thread.inFlight hplace) ⟨rfl, rfl, rfl⟩ rfl rfl rfl rfl
    · -- only a batch without observations is given up
      have hnil : laid.semantics = [] := by
        by_contra hne
        refine hnot ⟨hstop.1, fun hobs => hne ?_, hstop.2.2⟩
        rw [Laid.semantics, hobs, List.map_nil]
      refine h.same ?_ rfl rfl rfl rfl rfl rfl
      rw [Memory.live, Memory.live, hplace]
      show _ = laid.semantics ++ _
      rw [hnil]
      rfl
    · exact hat hplace rfl
  | install laid pending =>
    obtain ⟨hqueue, hbytes⟩ := rememberAll_queue (c := c) laid.observations m.state.durableOffset m
    obtain ⟨hstate, hindex⟩ := rememberAll_counts c laid.observations m.state.durableOffset m
    refine h.settle (congrArg Thread.inFlight hplace) ?_ hqueue hbytes rfl ?_ ?_ ?_ ?_ ?_
    · show [] ++ original (m.rememberAll c laid.observations m.state.durableOffset).queue = _
      rw [hqueue]
      rfl
    · rw [List.perm_iff_count]
      intro a
      simp only [List.count_append]
      omega
    · show (m.rememberAll c laid.observations m.state.durableOffset).state.knownDroppedUnits = _
      rw [hstate]
      exact h.dropped
    · show (m.rememberAll c laid.observations m.state.durableOffset).state.capacityRefusedUnits = _
      rw [hstate]
      exact h.refused
    · show (m.rememberAll c laid.observations m.state.durableOffset).state.storageFailedUnits = _
      rw [hstate]
      exact h.failed
    · show (m.rememberAll c laid.observations m.state.durableOffset).index.length =
        l.oldRows + (l.durable ++ laid.semantics).length
      have hrows := h.rows
      rw [hindex, List.length_append, Laid.semantics, List.length_map]
      omega
  | done | dead => exact h

/-! ### A batch whose publication has ended the thread -/

/-- **What the thread has in its hands is among `publishing_units`**, also once an exception has
ended the thread: nothing resets the counter then. -/
structure Borne (m : Memory) (l : Ledger) : Prop where
  units : m.thread.inFlight.length + l.unresolved.length ≤ m.publishingUnits
  ended : l.unresolved = [] ∨ m.thread = .dead

theorem Borne.same (h : Borne m l) (hthread : m'.thread = m.thread)
    (hunits : m'.publishingUnits = m.publishingUnits) (hl : l'.unresolved = l.unresolved) :
    Borne m' l' where
  units := by
    rw [hthread, hunits, hl]
    exact h.units
  ended := by
    rw [hthread, hl]
    exact h.ended

theorem Borne.unresolved (h : Borne m l) (hlive : m.thread ≠ .dead) : l.unresolved = [] :=
  h.ended.resolve_right hlive

/-- The thread moves on with its batch, or with a part of it. -/
theorem Borne.moves (h : Borne m l) (hlive : m.thread ≠ .dead)
    (hunits : m'.publishingUnits = m.publishingUnits) (hl : l'.unresolved = l.unresolved)
    (hflight : m'.thread.inFlight.length ≤ m.thread.inFlight.length) : Borne m' l' where
  units := by
    have hbefore := h.units
    rw [hunits, hl]
    omega
  ended := Or.inl (hl.trans (h.unresolved hlive))

/-- The batch has left the thread's hands. -/
theorem Borne.rests (h : Borne m l) (hlive : m.thread ≠ .dead) (hl : l'.unresolved = l.unresolved)
    (hflight : m'.thread.inFlight = []) : Borne m' l' where
  units := by
    rw [hl, h.unresolved hlive, hflight]
    exact Nat.zero_le _
  ended := Or.inl (hl.trans (h.unresolved hlive))

/-- An exception ends the thread. -/
theorem Borne.die (h : Borne m l) (hflight : m.thread.inFlight = laid.semantics)
    (hthread : m'.thread = .dead) (hunits : m'.publishingUnits = m.publishingUnits) :
    Borne m' { l with unresolved := l.unresolved ++ laid.semantics } where
  units := by
    have hbefore := h.units
    rw [hflight] at hbefore
    rw [hthread, hunits, List.length_append]
    show 0 + _ ≤ _
    omega
  ended := Or.inr hthread

theorem displace_units (m : Memory) (index : ℕ) :
    (m.displace index).thread = m.thread ∧
      (m.displace index).publishingUnits = m.publishingUnits := by
  unfold Memory.displace
  split
  · exact ⟨rfl, rfl⟩
  · split_ifs <;> exact ⟨rfl, rfl⟩

theorem queueLocked_units (c : Config) (m : Memory) (i : Item) :
    (m.queueLocked c i).1.thread = m.thread ∧
      (m.queueLocked c i).1.publishingUnits = m.publishingUnits := by
  have hqueued := queueLocked_queued c m i
  generalize m.queueLocked c i = r at hqueued
  cases hqueued with
  | fits => exact ⟨rfl, rfl⟩
  | displaces index => exact displace_units m index
  | full => exact ⟨rfl, rfl⟩

theorem Borne.accept (h : Borne m l) (g : Gate) (s : Semantic) :
    Borne (acceptOne c g m s).1 (l.accept c g m s) := by
  have hl : (l.accept c g m s).unresolved = l.unresolved := rfl
  rcases admission c g m s with ⟨f, code, -, haccept, -⟩ | ⟨previous, -, -, haccept⟩ |
    ⟨-, -, haccept⟩
  · rw [haccept]
    exact h.same rfl rfl hl
  · obtain ⟨hthread, hunits⟩ := queueLocked_units c m.countConflict ⟨s, s.size, true⟩
    rw [haccept]
    exact h.same hthread hunits hl
  · obtain ⟨hthread, hunits⟩ := queueLocked_units c m ⟨s, s.size, false⟩
    rw [haccept]
    split_ifs
    · exact h.same hthread hunits hl
    · exact h.same hthread hunits hl

theorem Borne.takeBatch (h : Borne m l) (hidle : m.thread = .idle) : Borne (m.takeBatch c) l := by
  have hlive : m.thread ≠ .dead := by rw [hidle]; exact nofun
  unfold Memory.takeBatch
  split_ifs
  · exact h.rests hlive rfl rfl
  · exact h
  · refine h.rests hlive rfl ?_
    unfold Memory.answered
    cases m.waiters <;> rfl
  · refine ⟨?_, Or.inl (h.unresolved hlive)⟩
    rw [h.unresolved hlive]
    show ([] ++ original (m.queue.take _)).length + 0 ≤ (m.queue.take _).length
    rw [List.nil_append, original, List.length_map]
    exact List.length_filter_le _ _

theorem Borne.layItem (h : Borne m l) (env : Env) {i : Item} {todo : List Item}
    (hplace : m.thread = .lay (i :: todo) laid) :
    Borne (m.layItem c i todo laid) (l.work c env m) := by
  have hlive : m.thread ≠ .dead := by rw [hplace]; exact nofun
  have hl : (l.work c env m).unresolved = l.unresolved := by
    rw [Ledger.work, hplace]
    dsimp only
    split_ifs <;> rfl
  have hbefore : m.thread.inFlight = laid.semantics ++ original (i :: todo) := by
    rw [hplace]
    rfl
  rw [original_cons] at hbefore
  unfold Memory.layItem
  by_cases hquarantine : i.quarantine = true
  · rw [if_pos hquarantine] at hbefore ⊢
    dsimp only
    split_ifs
    · exact h.moves hlive rfl hl (by rw [hbefore]; exact Nat.le_refl _)
    · exact h.moves hlive rfl hl (by rw [hbefore]; exact Nat.le_refl _)
  · rw [if_neg hquarantine] at hbefore ⊢
    dsimp only
    split_ifs
    · refine h.moves hlive rfl hl ?_
      rw [hbefore]
      show (laid.semantics ++ original todo).length ≤ _
      rw [List.length_append, List.length_append, List.length_cons]
      omega
    · refine h.moves hlive rfl hl ?_
      rw [hbefore]
      show ((laid.observations ++ [(_ : ObservationLine)]).map (fun o => o.item.semantic) ++
        original todo).length ≤ (laid.observations.map (fun o => o.item.semantic) ++ _).length
      rw [List.length_append, List.length_append, List.length_map, List.length_map,
        List.length_append, List.length_singleton, List.length_cons]
      omega

/-- **A piece of the publication thread** bears its batch on. -/
theorem Borne.work (h : Borne m l) (env : Env) (d : Disk) :
    Borne (Archive.work c env d m).2 (l.work c env m) := by
  have hat {t u : Thread} (hplace : m.thread = t) (hlive : t ≠ .dead)
      (hflight : u.inFlight = t.inFlight) : Borne { m with thread := u } l := by
    refine h.moves (hplace ▸ hlive) rfl rfl ?_
    rw [hplace, ← hflight]
  rw [Archive.work, Ledger.work]
  cases hplace : m.thread with
  | idle => exact h.takeBatch hplace
  | lay todo laid =>
    cases todo with
    | nil => exact hat hplace (by rintro ⟨⟩) (List.append_nil _).symm
    | cons i todo =>
      have hlaid := h.layItem (c := c) env hplace
      rw [Ledger.work, hplace] at hlaid
      exact hlaid
  | persistState | install laid pending => exact h.rests (by rw [hplace]; rintro ⟨⟩) rfl rfl
  | writeState payload =>
    dsimp only
    split_ifs <;> exact h.rests (by rw [hplace]; rintro ⟨⟩) rfl rfl
  | failed laid =>
    dsimp only
    rw [giveUp_eq]
    exact h.rests (by rw [hplace]; rintro ⟨⟩) rfl rfl
  | done | dead => exact h
  | measure laid | publish laid pending =>
    dsimp only
    split_ifs
    · exact h.die (congrArg Thread.inFlight hplace) rfl rfl
    · exact hat hplace (by rintro ⟨⟩) rfl
  | appendQuarantine laid before | appendObservations laid before =>
    dsimp only
    split_ifs <;> exact hat hplace (by rintro ⟨⟩) rfl
  | stage laid before => exact hat hplace (by rintro ⟨⟩) rfl
  | hold laid before pending =>
    dsimp only
    split_ifs
    · exact h.die (congrArg Thread.inFlight hplace) rfl rfl
    · exact h.rests (by rw [hplace]; rintro ⟨⟩) rfl rfl
    · exact hat hplace (by rintro ⟨⟩) rfl

end Keep

/-! ## Runs -/

/-- A memory with nothing queued or in flight. -/
structure Memory.Blank (m : Memory) : Prop where
  queue : m.queue = []
  queueBytes : m.queueBytes = 0
  thread : m.thread = .idle

theorem blank_rebuildFrom (limit fuel : ℕ) (text : Text) (start : ℕ) (h : m.Blank) :
    (rebuildFrom c limit fuel text start m).Blank := by
  induction fuel generalizing m text start with
  | zero => exact h
  | succ fuel ih =>
    unfold rebuildFrom
    dsimp only
    split_ifs
    · exact h
    · exact ⟨h.queue, h.queueBytes, h.thread⟩
    · split
      · refine ih _ _ ?_
        rw [remember_eq]
        exact ⟨h.queue, h.queueBytes, h.thread⟩
      · exact ⟨h.queue, h.queueBytes, h.thread⟩
    · exact h

/-- A start begins with nothing queued. -/
theorem blank_prepare {halt : Option Halt} {write : Write}
    (h : (prepare c d halt write).2 = some m) : m.Blank := by
  have hserving (d : Disk) (s : State) (h : (prepareServing c d s halt write).2 = some m) :
      m.Blank := by
    have hblank : (rebuildIndex c (prepareFiles d).observations s).Blank :=
      blank_rebuildFrom _ _ _ _ ⟨rfl, rfl, rfl⟩
    unfold prepareServing at h
    dsimp only at h
    split_ifs at h
    rw [← Option.some.inj h]
    exact hblank
  unfold prepare at h
  split_ifs at h
  split at h
  · cases h
  · exact hserving _ _ h
  · unfold prepareLoaded at h
    dsimp only at h
    split_ifs at h
    exact hserving _ _ h

theorem balanced_opened (h : m.Blank) : Balanced c m (Ledger.opened m) where
  conserved := by
    rw [Memory.live, h.thread, h.queue]
    exact List.Perm.refl _
  dropped := rfl
  refused := rfl
  failed := rfl
  rows := rfl
  tallied := by
    rw [Tallied, h.queue, h.queueBytes]
    rfl
  count := by
    rw [h.queue]
    exact Nat.zero_le _
  bytes := by
    rw [h.queueBytes]
    exact Nat.zero_le _

/-- The account of the process that runs, if one does. -/
def Audited (c : Config) (x : Account) : Prop :=
  ∀ m ∈ x.world.process, Balanced c m x.ledger ∧ Borne m x.ledger

/-- **One step keeps the account.** -/
theorem audited_step {x : Account} (h : Audited c x) (a : Action) (hroomy : Roomy c x.world a) :
    Audited c (x.step c a) := by
  obtain ⟨⟨d, process⟩, l⟩ := x
  cases process with
  | none =>
    cases a with
    | start halt write =>
      intro m hm
      have hm' : (prepare c d halt write).2 = some m := hm
      have hl : Ledger.step c ⟨d, none⟩ (.start halt write) l = Ledger.opened m := by
        show (match (prepare c d halt write).2 with
          | some m => Ledger.opened m
          | none => {}) = _
        rw [hm']
      have hblank := blank_prepare hm'
      show Balanced c m (Ledger.step c ⟨d, none⟩ (.start halt write) l) ∧
        Borne m (Ledger.step c ⟨d, none⟩ (.start halt write) l)
      rw [hl]
      refine ⟨balanced_opened hblank, ?_, Or.inl rfl⟩
      rw [hblank.thread]
      exact Nat.zero_le _
    | _ => exact fun m hm => nomatch hm
  | some m =>
    obtain ⟨hm, hb⟩ := h m rfl
    cases a with
    | start halt write => exact fun _ hm' => Option.some.inj hm' ▸ ⟨hm, hb⟩
    | crash => exact fun _ hm' => nomatch hm'
    | admitItem g s =>
      intro m' hm'
      rw [← Option.some.inj hm']
      exact ⟨hm.accept g s (hroomy m rfl), hb.accept g s⟩
    | work env =>
      intro m' hm'
      rw [← Option.some.inj hm']
      exact ⟨hm.work env d (hroomy m rfl), hb.work env d⟩
    | markClean write =>
      intro m' hm'
      rw [← Option.some.inj hm']
      show Balanced c (markClean write d m).2 l ∧ Borne (markClean write d m).2 l
      unfold markClean
      split_ifs
      · exact ⟨hm.same rfl rfl rfl rfl rfl rfl rfl, hb.same rfl rfl rfl⟩
      · exact ⟨hm, hb⟩
    | refuse | checkpoint waiter | policyFailure | stop =>
      intro m' hm'
      rw [← Option.some.inj hm']
      exact ⟨hm.same rfl rfl rfl rfl rfl rfl rfl, hb.same rfl rfl rfl⟩

/-- **The account is balanced in every run** that is roomy. -/
theorem audited_run {acts : List Action}
    (hroomy : Runs.Along (Account.step c) (fun x a => Roomy c x.world a) {} acts) :
    Audited c (Runs.run (Account.step c) {} acts) := by
  have hinit : Audited c {} := fun m hm => nomatch hm
  have hstep (x : Account) (a : Action) (hroomy : Roomy c x.world a) (h : Audited c x) :
      Audited c (x.step c a) := audited_step h a hroomy
  exact Runs.run_invariant_along hstep hinit hroomy

end Archive
end SemanticMemory
