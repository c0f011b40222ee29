import SemanticMemory.Derived.Commit

/-!
# What follows a committed publication

`GenerationPublisher._cycle` and `notify_publish_success` (`daemon/publish.py`), and the forced-build
flags that the success hook clears (`daemon/staging.py`).

* A `Ledger` is kept beside the running daemon: for each publication that the publisher has seen
  committed, whether its switch succeeded, how often the hooks fired for it, and whether the sweep at
  the end of the publication ran.  It belongs to one process.
* `Settled` is what is to be the case: the hooks of every publication that was switched to fired once,
  its sweep ran, and no forced build requested before it is still requested.
* A handshake that times out leaves the switch queued with the delta machine, whose worker may still
  complete it; it is taken to do so between two cycles of the publisher, whose own fields it does not
  touch.
* A call of `publish_ready_staging` that reports success has swept; a switch that is completed later,
  by the worker or by a retry, neither sweeps nor fires a hook.  `publish_finished` says that this is
  the only way to leave the ledger unsettled.
-/

namespace SemanticMemory
namespace Derived

/-! ## The ledger -/

/-- What became of a committed publication. -/
structure Account where
  generationId : Text
  /-- `publish_switch` has succeeded. -/
  switched : Bool
  /-- How often the publish-success hooks fired for it. -/
  fired : ℕ
  /-- The sweep at the end of the publication ran. -/
  swept : Bool
  deriving DecidableEq

/-- The books of one process. -/
structure Ledger where
  accounts : List Account := []
  /-- The sweep of the running call has come to its end. -/
  swept : Bool := false
  /-- A forced build is requested, since the time of so many accounts. -/
  forced : Option ℕ := none

/-- The last publication is switched to after all. -/
def markSwitched (accounts : List Account) : List Account :=
  accounts.dropLast ++ (accounts.getLast?.map fun e => { e with switched := true }).toList

/-- Every publication that was switched to is finished. -/
structure Settled (l : Ledger) : Prop where
  finished : ∀ e ∈ l.accounts, e.switched = true → e.fired = 1 ∧ e.swept = true
  unforced : ∀ k e, l.accounts[k]? = some e → e.switched = true → ∀ n, l.forced = some n → k < n

/-- The end of a publisher's cycle. -/
def Ledger.finish (l : Ledger) (generationId : Text) (res : Result) : Ledger :=
  { l with
    accounts :=
      if res.committed then
        l.accounts ++ [⟨generationId, res.ok, if res.ok then 1 else 0, l.swept⟩]
      else l.accounts
    forced := if res.ok then none else l.forced }

def Ledger.publisher (l : Ledger) (env : Env) (root : Root) (c : Call) : Ledger :=
  match c.pc with
  | .returned (some res) => l.finish c.generationId res
  | .sweep keep sweep =>
    if (sweepStep env.removal keep root sweep).2 = none then { l with swept := true } else l
  | _ => l

/-- The daemon with its books. -/
structure Ledgered where
  world : World
  ledger : Ledger := {}
  /-- The delta machine's `_pending_publish` after a handshake that timed out. -/
  queued : Option Text := none

inductive LedgerAction where
  | daemon (a : Action)
  /-- The publisher's `publish_switch` times out. -/
  | timeout (env : Env)
  /-- The delta machine's worker takes up the queued switch. -/
  | worker (env : Env)
  /-- `request_compaction`, `force_rebuild_from_facts`, or a staging machine that is created to
  rebuild. -/
  | force
  /-- `_clear_forced` in a cycle of the staging machine. -/
  | clearForced

/-- A retry of the publisher completes the switch. -/
def switchesLate (w : World) : Action → Bool
  | .retrySwitch env =>
    w.process.any fun p =>
      p.main.wired && p.call.isNone && p.committed.any fun id =>
        p.switched ≠ some id && (publishSwitch env id w.root).isSome
  | _ => false

/-- The books after a step of the daemon. -/
def Ledger.after (l : Ledger) (w : World) (a : Action) : Ledger :=
  match a, w.process with
  | .start _, none | .crash, some _ => {}
  | .publish _ _ _, some p => if p.call = none then { l with swept := false } else l
  | .publisher env, some p =>
    match p.call with
    | some c => l.publisher env w.root c
    | none => l
  | .retrySwitch _, some _ =>
    if switchesLate w a then { l with accounts := markSwitched l.accounts } else l
  | _, _ => l

/-- A committed publication that is not switched to waits for its switch. -/
def Process.awaits (p : Process) (id : Text) : Bool :=
  p.call.isNone && p.committed = some id && p.switched ≠ some id

/-- What is queued after a step of the daemon: a new process has an empty queue, and so has a machine
that has answered. -/
def queuedAfter (w : Ledgered) (a : Action) : Option Text :=
  match a, w.world.process with
  | .crash, _ | .start _, none => none
  | .retrySwitch _, _ => if switchesLate w.world a then none else w.queued
  | _, _ => w.queued

def daemonStep (w : Ledgered) (a : Action) : Ledgered :=
  ⟨step w.world a, w.ledger.after w.world a, queuedAfter w a⟩

/-- A handshake that times out. -/
def timeoutStep (env : Env) (w : Ledgered) : Ledgered :=
  match w.world.process with
  | none => w
  | some p =>
    match p.call with
    | some c =>
      if c.pc = .switch then
        { daemonStep w (.publisher { env with switchOk := false }) with
          queued := some c.generationId }
      else w
    | none => if p.main.wired && p.committed.any p.awaits then { w with queued := p.committed } else w

/-- The worker completes the queued switch. -/
def landsLate (env : Env) (w : Ledgered) : Bool :=
  w.queued.any fun id => w.world.process.any fun p =>
    p.awaits id && (publishSwitch env id w.world.root).isSome

/-- The worker takes up the queued switch, and completes it or rejects it. -/
def workerStep (env : Env) (w : Ledgered) : Ledgered :=
  match w.queued, w.world.process with
  | some id, some p =>
    if p.call = none then
      match publishSwitch env id w.world.root with
      | some machine =>
        ⟨⟨w.world.root, some { p with machine := machine }⟩,
          if landsLate env w then { w.ledger with accounts := markSwitched w.ledger.accounts }
          else w.ledger, none⟩
      | none => { w with queued := none }
    else w
  | _, _ => w

/-- One step of the daemon, of its worker's queue and of its staging machine's flags. -/
def ledgerStep (w : Ledgered) : LedgerAction → Ledgered
  | .daemon a => daemonStep w a
  | .timeout env => timeoutStep env w
  | .worker env => workerStep env w
  | .force =>
    { w with ledger := { w.ledger with forced := w.ledger.forced.or w.ledger.accounts.length } }
  | .clearForced => { w with ledger := { w.ledger with forced := none } }

/-- The switch of a committed publication succeeds after its call. -/
def late (w : Ledgered) : LedgerAction → Bool
  | .daemon a => switchesLate w.world a
  | .worker env => landsLate env w
  | _ => false

/-! ## What the publisher keeps to -/

section Call

variable {env : Env} {p : Publishing} {res : Result}

/-- The place is not the end of a call that reports success. -/
def Unfinished (pc : PublishPc) : Prop := ∀ res, pc = .returned (some res) → res.ok = false

theorem unfinished_refuse (committed : Bool) (error : Text) :
    Unfinished (p.refuse committed error).call.pc := fun _ h => by
  cases h
  rfl

theorem unfinished_reconcileRaised (at_ : Recovering) :
    Unfinished (reconcileRaised at_ p).call.pc := by
  cases at_ with
  | retry => exact nofun
  | failure _ reason => exact unfinished_refuse true _

theorem unfinished_reconcile (at_ : Recovering) : Unfinished (stepReconcile env at_ p).call.pc := by
  unfold stepReconcile
  simp only
  split
  · split <;> exact nofun
  · cases at_ with
    | retry => exact nofun
    | failure postRename reason =>
      cases postRename with
      | false => exact nofun
      | true =>
        simp only
        split
        · exact nofun
        · exact unfinished_refuse true _

theorem unfinished_restore (at_ : Recovering) : Unfinished (stepRestore env at_ p).call.pc := by
  unfold stepRestore
  split
  · exact unfinished_reconcileRaised at_
  · simp only
    split
    · exact nofun
    · exact unfinished_reconcileRaised at_

theorem unfinished_settle (at_ : Recovering) : Unfinished (stepSettle env at_ p).call.pc := by
  unfold stepSettle
  cases at_ with
  | retry =>
    simp only
    split
    · exact nofun
    · split
      · exact nofun
      · exact unfinished_refuse true _
  | failure _ reason =>
    simp only
    split
    · exact nofun
    · exact unfinished_refuse true _

theorem unfinished_facts (committed : Bool) :
    Unfinished (stepFacts env committed p).call.pc := by
  unfold stepFacts
  split
  · exact unfinished_refuse committed _
  · exact unfinished_refuse committed _
  · simp only
    split <;> exact nofun

theorem unfinished_verify : Unfinished (stepVerify env p).call.pc := by
  unfold stepVerify
  split
  · exact nofun
  · split
    · exact nofun
    · split <;> exact nofun

theorem unfinished_danceUnpark (rejected : Option Text) :
    Unfinished (stepDanceUnpark env rejected p).call.pc := by
  unfold stepDanceUnpark
  cases rejected with
  | some reason => exact nofun
  | none =>
    simp only
    split
    · exact nofun
    · exact unfinished_refuse false _

theorem unfinished_delta (upper : Hlc) : Unfinished (stepDelta env upper p).call.pc := by
  unfold stepDelta
  simp only
  split
  · exact nofun
  · exact nofun
  · exact unfinished_refuse false _
  · exact nofun

theorem unfinished_undoRename (reason : Text) :
    Unfinished (stepUndoRename env reason p).call.pc := by
  unfold stepUndoRename
  split
  · exact nofun
  · split
    · exact unfinished_refuse false _
    · exact nofun

/-- **A call that reports success has swept.** -/
theorem ok_of_publishStep (h : (publishStep env p).call.pc = .returned (some res))
    (hok : res.ok = true) :
    p.call.pc = .returned (some res) ∨
      res = ⟨true, true, none⟩ ∧ ∃ keep sweep, p.call.pc = .sweep keep sweep ∧
        (sweepStep env.removal keep p.root sweep).2 = none := by
  have hnot : Unfinished (publishStep env p).call.pc → False := fun hunfinished =>
    Bool.noConfusion ((hunfinished res h).symm.trans hok)
  cases hpc : p.call.pc with simp only [publishStep, hpc] at hnot
  | reconcile at_ => exact (hnot (unfinished_reconcile at_)).elim
  | restore at_ => exact (hnot (unfinished_restore at_)).elim
  | settle at_ => exact (hnot (unfinished_settle at_)).elim
  | alreadyFacts => exact (hnot (unfinished_facts true)).elim
  | verify => exact (hnot unfinished_verify).elim
  | danceUnpark rejected => exact (hnot (unfinished_danceUnpark rejected)).elim
  | reject reason => exact (hnot (unfinished_refuse false _)).elim
  | readFacts => exact (hnot (unfinished_facts false)).elim
  | buildDelta upper => exact (hnot (unfinished_delta upper)).elim
  | block message events phase => exact (hnot (unfinished_refuse false _)).elim
  | undoRename reason => exact (hnot (unfinished_undoRename reason)).elim
  | undoProgress reason => exact (hnot (unfinished_refuse false _)).elim
  | undoSync reason =>
    split at hnot
    · exact (hnot fun _ hno => by cases hno).elim
    · exact (hnot (unfinished_refuse false _)).elim
  | switch =>
    split at hnot
    · exact (hnot (unfinished_refuse true _)).elim
    · exact (hnot fun _ hno => by cases hno).elim
  | sweep keep sweep =>
    simp only [publishStep, hpc] at h
    cases hnext : (sweepStep env.removal keep p.root sweep).2 with
    | some next =>
      rw [hnext] at h
      cases h
    | none =>
      rw [hnext] at h
      cases h
      exact Or.inr ⟨rfl, keep, sweep, rfl, hnext⟩
  | returned result =>
    simp only [publishStep, hpc] at h
    exact Or.inl h
  | sweepRead | register | unlink => exact (hnot fun _ hno => by cases hno).elim
  | writeManifest generation =>
    unfold stepManifest at hnot
    split at hnot <;> exact (hnot fun _ hno => by cases hno).elim
  | readSchema =>
    unfold stepSchema at hnot
    split at hnot <;> exact (hnot fun _ hno => by cases hno).elim
  | danceOpen =>
    unfold stepDanceOpen at hnot
    split at hnot <;> exact (hnot fun _ hno => by cases hno).elim
  | dancePark | park | rename | sync | openNew | syncStaging =>
    split at hnot <;> exact (hnot fun _ hno => by cases hno).elim

end Call

/-! ## The books of a run -/

/-- What the books and the publisher agree on. -/
structure Booked (w : Ledgered) : Prop where
  settled : Settled w.ledger
  /-- While a call runs nothing waits to be switched to. -/
  running : ∀ p c, w.world.process = some p → p.call = some c → p.committed = p.switched
  /-- A call that is to report success has swept. -/
  swept : ∀ p c, w.world.process = some p → p.call = some c → ∀ res,
    c.pc = .returned (some res) → res.ok = true → w.ledger.swept = true ∧ res.committed = true
  /-- What waits to be switched to is the last account. -/
  pending : ∀ p id, w.world.process = some p → p.committed = some id → p.switched ≠ some id →
    ∃ accounts e, w.ledger.accounts = accounts ++ [e] ∧ e.switched = false ∧ e.fired = 0

theorem settled_empty : Settled {} := ⟨nofun, nofun⟩

theorem booked_exit (root : Root) (queued : Option Text) : Booked ⟨World.exit root, {}, queued⟩ :=
  ⟨settled_empty, fun _ _ hp => (by cases hp), fun _ _ hp => (by cases hp),
    fun _ _ hp => (by cases hp)⟩

variable {w : Ledgered}

/-- The books of a process whose publisher has not moved. -/
theorem Booked.same (h : Booked w) {world : World}
    (hsame : ∀ p', world.process = some p' → ∃ p, w.world.process = some p ∧
      p'.call = p.call ∧ p'.committed = p.committed ∧ p'.switched = p.switched)
    (queued : Option Text) : Booked ⟨world, w.ledger, queued⟩ where
  settled := h.settled
  running := fun p' c hp' hc => by
    obtain ⟨p, hp, hcall, hcommitted, hswitched⟩ := hsame p' hp'
    rw [hcommitted, hswitched]
    exact h.running p c hp (hcall ▸ hc)
  swept := fun p' c hp' hc => by
    obtain ⟨p, hp, hcall, -, -⟩ := hsame p' hp'
    exact h.swept p c hp (hcall ▸ hc)
  pending := fun p' id hp' hid hne => by
    obtain ⟨p, hp, -, hcommitted, hswitched⟩ := hsame p' hp'
    exact h.pending p id hp (hcommitted ▸ hid) (hswitched ▸ hne)

/-- The end of a cycle keeps the books settled, if the sweep of a success has run. -/
theorem Settled.finish {l : Ledger} (h : Settled l) {generationId : Text} {res : Result}
    (hok : res.ok = true → l.swept = true) : Settled (l.finish generationId res) := by
  constructor
  · intro e he hswitched
    unfold Ledger.finish at he
    simp only at he
    split at he
    · rcases List.mem_append.mp he with he | he
      · exact h.finished e he hswitched
      · obtain rfl := List.mem_singleton.mp he
        have hok' : res.ok = true := hswitched
        exact ⟨if_pos hok', hok hok'⟩
    · exact h.finished e he hswitched
  · intro k e hk hswitched n hn
    unfold Ledger.finish at hk hn
    simp only at hk hn
    split at hn
    · cases hn
    · next hfailed =>
      split at hk
      · by_cases hlt : k < l.accounts.length
        · rw [List.getElem?_append_left hlt] at hk
          exact h.unforced k e hk hswitched n hn
        · rw [List.getElem?_append_right (Nat.le_of_not_lt hlt)] at hk
          obtain rfl := List.mem_singleton.mp (List.mem_of_getElem? hk)
          exact absurd hswitched hfailed
      · exact h.unforced k e hk hswitched n hn

/-- The publisher's call goes on, or its cycle ends. -/
theorem Booked.publisher (h : Booked w) {p : Process} {c : Call} (hp : w.world.process = some p)
    (hc : p.call = some c) (env : Env) (queued : Option Text) :
    Booked ⟨publisherStep env w.world.root p c, w.ledger.publisher env w.world.root c, queued⟩ := by
  have hrunning := h.running p c hp hc
  by_cases hreturned : ∃ result, c.pc = .returned result
  · obtain ⟨result, hpc⟩ := hreturned
    have hstep : publisherStep env w.world.root p c =
        ⟨w.world.root, some (finishPublish c result p)⟩ := by
      unfold publisherStep
      rw [hpc]
    have hidle : (finishPublish c result p).call = none := by
      unfold finishPublish
      split
      · split <;> rfl
      · rfl
    rw [hstep]
    refine ⟨?_, fun p' c' hp' hc' => ?_, fun p' c' hp' hc' => ?_, fun p' id hp' hid hne => ?_⟩
    · cases result with
      | none =>
        rw [show w.ledger.publisher env w.world.root c = w.ledger by
          simp only [Ledger.publisher, hpc]]
        exact h.settled
      | some res =>
        rw [show w.ledger.publisher env w.world.root c = w.ledger.finish c.generationId res by
          simp only [Ledger.publisher, hpc]]
        exact h.settled.finish fun hok => (h.swept p c hp hc res hpc hok).1
    · cases hp'
      rw [hidle] at hc'
      cases hc'
    · cases hp'
      rw [hidle] at hc'
      cases hc'
    · cases hp'
      unfold finishPublish at hid hne
      split at hid
      · next res =>
        simp only at hid hne
        split at hid
        · next hcommitted =>
          rw [if_pos hcommitted] at hne
          cases hid
          have hfailed : res.ok ≠ true := fun hok => hne (if_pos hok)
          refine ⟨w.ledger.accounts,
            ⟨c.generationId, res.ok, if res.ok then 1 else 0, w.ledger.swept⟩, ?_,
            Bool.eq_false_iff.mpr hfailed, if_neg hfailed⟩
          simp only [Ledger.publisher, hpc, Ledger.finish]
          rw [if_pos hcommitted]
        · next hcommitted =>
          rw [if_neg hcommitted] at hne
          exact absurd (hrunning ▸ hid) hne
      · exact absurd (hrunning ▸ hid) hne
  · have hstep : publisherStep env w.world.root p c =
        let q := publishStep env ⟨w.world.root, p.machine, c⟩
        ⟨q.root, some { p with machine := q.machine, call := some q.call }⟩ := by
      unfold publisherStep
      split
      · next result hpc => exact absurd ⟨result, hpc⟩ hreturned
      · rfl
    have hledger : w.ledger.publisher env w.world.root c = w.ledger ∨
        w.ledger.publisher env w.world.root c = { w.ledger with swept := true } := by
      unfold Ledger.publisher
      split
      · next res hpc => exact absurd ⟨some res, hpc⟩ hreturned
      · split
        · exact Or.inr rfl
        · exact Or.inl rfl
      · exact Or.inl rfl
    have haccounts : (w.ledger.publisher env w.world.root c).accounts = w.ledger.accounts := by
      rcases hledger with hledger | hledger <;> rw [hledger]
    rw [hstep]
    refine ⟨?_, fun p' c' hp' hc' => ?_, fun p' c' hp' hc' res hpc' hok => ?_,
      fun p' id hp' hid hne => ?_⟩
    · rcases hledger with hledger | hledger <;> rw [hledger]
      · exact h.settled
      · exact ⟨h.settled.finished, h.settled.unforced⟩
    · cases hp'
      exact hrunning
    · cases hp'
      cases hc'
      rcases ok_of_publishStep hpc' hok with hpc | ⟨rfl, keep, sweep, hpc, hend⟩
      · exact absurd ⟨some res, hpc⟩ hreturned
      · refine ⟨?_, rfl⟩
        have hpc : c.pc = .sweep keep sweep := hpc
        simp only [Ledger.publisher, hpc]
        rw [if_pos hend]
    · cases hp'
      exact absurd (hrunning ▸ hid) hne

/-- A switch that is completed late leaves the books unsettled. -/
theorem Booked.unsettled (h : Booked w) {p : Process} {id : Text} (hp : w.world.process = some p)
    (hid : p.committed = some id) (hne : p.switched ≠ some id) :
    ¬ Settled { w.ledger with accounts := markSwitched w.ledger.accounts } := fun hsettled => by
  obtain ⟨accounts, e, haccounts, -, hfired⟩ := h.pending p id hp hid hne
  have hmem : { e with switched := true } ∈ markSwitched w.ledger.accounts := by
    rw [haccounts, markSwitched, List.dropLast_concat, List.getLast?_concat]
    exact List.mem_append_right _ (List.mem_singleton_self _)
  have hone : e.fired = 1 := (hsettled.finished _ hmem rfl).1
  omega

theorem Booked.unsettled_of_late (h : Booked w) {a : LedgerAction} (hlate : late w a = true) :
    ¬ Settled (ledgerStep w a).ledger := by
  cases a with
  | daemon a =>
    cases a with
    | retrySwitch env =>
      have hlate : switchesLate w.world (.retrySwitch env) = true := hlate
      obtain ⟨p, hp, hswitch⟩ := (Option.any_eq_true _ _).mp hlate
      simp only [Bool.and_eq_true] at hswitch
      obtain ⟨id, hid, hswitch⟩ := (Option.any_eq_true _ _).mp hswitch.2
      simp only [Bool.and_eq_true, decide_eq_true_eq] at hswitch
      simp only [ledgerStep, daemonStep, Ledger.after, hp, hlate, if_true]
      exact h.unsettled hp hid hswitch.1
    | _ => cases hlate
  | worker env =>
    have hlate : landsLate env w = true := hlate
    obtain ⟨id, hqueued, hlands⟩ := (Option.any_eq_true _ _).mp hlate
    obtain ⟨p, hp, hlands⟩ := (Option.any_eq_true _ _).mp hlands
    simp only [Process.awaits, Bool.and_eq_true, decide_eq_true_eq, Option.isNone_iff_eq_none]
      at hlands
    obtain ⟨⟨⟨hcall, hid⟩, hne⟩, hsome⟩ := hlands
    obtain ⟨machine, hmachine⟩ := Option.isSome_iff_exists.mp hsome
    simp only [ledgerStep, workerStep, hqueued, hp, hcall, hmachine, hlate, if_true]
    exact h.unsettled hp hid hne
  | _ => cases hlate

/-- A retry that does not complete a switch changes nothing that the books are about. -/
theorem retrySwitch_same {w : World} {p : Process} (hp : w.process = some p) {env : Env}
    (hwired : p.main.wired = true) (hlate : switchesLate w (.retrySwitch env) = false) :
    retrySwitch env w.root p = ⟨w.root, some p⟩ := by
  unfold retrySwitch
  split
  · next id hid =>
    split
    · next hidle =>
      split
      · next machine hswitch =>
        have hcall : p.call.isNone = true := by rw [hidle.1]; rfl
        simp [switchesLate, hp, hwired, hcall, hid, hidle.2, hswitch] at hlate
      · rfl
    · rfl
  · rfl

/-- The books are kept by every step of the daemon but a late switch. -/
theorem booked_daemon {a : Action} (hlate : switchesLate w.world a = false) (h : Booked w)
    (queued : Option Text) : Booked ⟨step w.world a, w.ledger.after w.world a, queued⟩ := by
  cases hp : w.world.process with
  | none =>
    cases a with
    | start config =>
      simp only [step, Ledger.after, hp]
      refine ⟨settled_empty, fun p c hp' hc => ?_, fun p c hp' hc => ?_, fun p id hp' hid => ?_⟩
      all_goals cases hp'
      · cases hc
      · cases hc
      · cases hid
    | _ =>
      simp only [step, Ledger.after, hp]
      exact h.same (fun p' hp' => ⟨p', hp', rfl, rfl, rfl⟩) queued
  | some p =>
    cases a with
    | start config =>
      simp only [step, Ledger.after, hp]
      exact h.same (fun p' hp' => ⟨p', hp', rfl, rfl, rfl⟩) queued
    | crash =>
      simp only [step, Ledger.after, hp]
      exact booked_exit w.world.root queued
    | main env =>
      simp only [step, Ledger.after, hp]
      exact h.same (fun p' hp' => ⟨p, hp, mainStep_publisher env hp'⟩) queued
    | stage name dir =>
      simp only [step, Ledger.after, hp]
      refine h.same (fun p' hp' => ⟨p', ?_, rfl, rfl, rfl⟩) queued
      split at hp'
      · cases hp'
        exact hp
      · exact hp'
    | publisher env =>
      cases hc : p.call with
      | none =>
        simp only [step, Ledger.after, hp, hc]
        exact h.same (fun p' hp' => ⟨p', hp', rfl, rfl, rfl⟩) queued
      | some c =>
        simp only [step, Ledger.after, hp, hc]
        exact h.publisher hp hc env queued
    | retrySwitch env =>
      simp only [step, Ledger.after, hp, hlate]
      refine h.same (fun p' hp' => ⟨p, hp, ?_⟩) queued
      split at hp'
      · next hwired =>
        rw [retrySwitch_same hp hwired hlate] at hp'
        cases hp'
        exact ⟨rfl, rfl, rfl⟩
      · rw [hp] at hp'
        cases hp'
        exact ⟨rfl, rfl, rfl⟩
    | publish stagingDir generationId ready =>
      simp only [step, Ledger.after, hp]
      split
      · next hidle =>
        rw [if_pos hidle.2.1]
        refine ⟨⟨h.settled.finished, h.settled.unforced⟩, fun p' c hp' hc => ?_,
          fun p' c hp' hc res hpc => ?_, fun p' id hp' hid hne => ?_⟩
        · cases hp'
          exact hidle.2.2
        · cases hp'
          cases hc
          cases hpc
        · cases hp'
          exact h.pending p id hp hid hne
      · by_cases hcall : p.call = none
        · rw [if_pos hcall]
          refine ⟨⟨h.settled.finished, h.settled.unforced⟩, h.running, fun p' c hp' hc => ?_,
            h.pending⟩
          rw [hp] at hp'
          cases hp'
          rw [hcall] at hc
          cases hc
        · rw [if_neg hcall]
          exact h.same (fun p' hp' => ⟨p', hp', rfl, rfl, rfl⟩) queued

/-- The books are kept by every step but a late switch. -/
theorem booked_step {a : LedgerAction} (hlate : late w a = false) (h : Booked w) :
    Booked (ledgerStep w a) := by
  have hsame : ∀ queued, Booked ⟨w.world, w.ledger, queued⟩ :=
    h.same fun p' hp' => ⟨p', hp', rfl, rfl, rfl⟩
  cases a with
  | daemon a => exact booked_daemon hlate h _
  | timeout env =>
    show Booked (timeoutStep env w)
    unfold timeoutStep
    split
    · exact h
    · split
      · split
        · exact booked_daemon rfl h _
        · exact h
      · split
        · exact hsame _
        · exact h
  | worker env =>
    have hlate : landsLate env w = false := hlate
    show Booked (workerStep env w)
    unfold workerStep
    split
    · next id p _ hp =>
      split
      · split
        · rw [hlate]
          refine h.same (fun p' hp' => ⟨p, hp, ?_⟩) none
          cases hp'
          exact ⟨rfl, rfl, rfl⟩
        · exact hsame none
      · exact h
    · exact h
  | force =>
    refine ⟨⟨h.settled.finished, fun k e hk hswitched n hn => ?_⟩, h.running, h.swept, h.pending⟩
    have hlt : k < w.ledger.accounts.length := (List.getElem?_eq_some_iff.mp hk).1
    cases hforced : w.ledger.forced with
    | none =>
      obtain rfl : w.ledger.accounts.length = n := by
        simpa [ledgerStep, hforced] using hn
      exact hlt
    | some m =>
      obtain rfl : m = n := by simpa [ledgerStep, hforced] using hn
      exact h.settled.unforced k e hk hswitched m hforced
  | clearForced => exact ⟨⟨h.settled.finished, nofun⟩, h.running, h.swept, h.pending⟩

/-- **A committed publication finishes the same way, but for a late switch.**  Over every content of
the derived root and every run of starts, publications, timeouts, retries, crashes and requested
builds: after every step the books are settled (whatever was switched to had its hooks fired once and
its sweep run, and left no older request for a forced build) if and only if at no step the switch of
a committed publication is completed after its call. -/
theorem publish_finished (root : Root) (acts : List LedgerAction) :
    Runs.Along ledgerStep (fun w a => Settled (ledgerStep w a).ledger) ⟨⟨root, none⟩, {}, none⟩
        acts ↔
      Runs.Along ledgerStep (fun w a => late w a = false) ⟨⟨root, none⟩, {}, none⟩ acts := by
  refine Runs.along_iff (I := Booked) (fun w a h => ⟨fun hsettled => ?_, fun hlate => ?_⟩)
    (fun _ _ hlate h => booked_step hlate h) (booked_exit root none) acts
  · exact Bool.eq_false_iff.mpr fun hlate => h.unsettled_of_late hlate hsettled
  · exact (booked_step hlate h).settled

/-! ### A run -/

/-- A publication whose switch times out, and whose switch the next cycle completes. -/
def sampleLate : List LedgerAction :=
  .daemon (.start sampleConfig) :: (List.replicate 3 (.daemon (.main sampleEnv)) ++ [.force] ++
    samplePublication.map .daemon ++
    List.replicate 3 (.daemon (.publisher sampleEnv)) ++
    [.timeout sampleEnv, .daemon (.publisher sampleEnv), .daemon (.retrySwitch sampleEnv)])

/-- **A switch that a later cycle completes is not finished.**  No hook fires, nothing is swept, and
the forced build stays requested. -/
theorem publish_not_finished :
    ¬ ∀ (root : Root) (acts : List LedgerAction),
      Settled (Runs.run ledgerStep ⟨⟨root, none⟩, {}, none⟩ acts).ledger := fun h => by
  have haccounts : (Runs.run ledgerStep ⟨⟨sampleRoot, none⟩, {}, none⟩ sampleLate).ledger.accounts =
      [⟨ascii "n", true, 0, false⟩] := by
    decide +kernel
  have hmem : (⟨ascii "n", true, 0, false⟩ : Account) ∈
      (Runs.run ledgerStep ⟨⟨sampleRoot, none⟩, {}, none⟩ sampleLate).ledger.accounts := by
    rw [haccounts]
    exact List.mem_singleton_self _
  cases ((h sampleRoot sampleLate).finished _ hmem rfl).1

end Derived
end SemanticMemory
