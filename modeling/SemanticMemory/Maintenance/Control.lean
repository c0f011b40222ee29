import SemanticMemory.Lib.Pool
import SemanticMemory.Maintenance.Coordinator

/-!
# The control connections

`_serve_connection` of `daemon/control.py`: every connection of the control socket has a thread, a
lease object of its own and a local operation id, and calls the coordinator's `prepare`,
`assert_prepared`, `reopen` and, when it ends, `lease_lost`.

## What is modelled, and how

* A lease object is the connection's number.  The methods that a connection calls run in its own
  thread, so they stand in its `Place`; the methods of all other threads are those of `World`.
* A line is what the checks of `_serve_connection` make of it: one that is not JSON, of another
  version, without a valid operation id or of another action is `invalid`.  A peer of another user
  is not served.
* The watcher may find the connection lost at any time, also one that is not.
* The recovery object is the delta machine, or there is none: neither raises from `invalidate` or
  `rebuild`.
* What a connection is sent is whether its request went through.
-/

namespace SemanticMemory
namespace Maintenance

/-! ## What a method does to the lease -/

/-- What a method is about, for the lease. -/
inductive Role where
  /-- A `prepare` at work, accepted, or rejected. -/
  | working | accepted | rejected
  /-- A recovery before it gives the lease back, and after. -/
  | recovering | past
  | mismatch
  | other
  deriving DecidableEq

/-- How a `prepare` has ended. -/
def PrepareResult.role : PrepareResult → Role
  | .prepared .. => .accepted
  | _ => .rejected

def Pc.role : Pc → Role
  | .prepare .. => .working
  | .closing _ (.prepare _) | .closing _ (.failure ..) => .working
  | .onClose _ _ _ (.prepare _) | .onClose _ _ _ (.failure ..) => .working
  | .prepareReturn result | .returned result => result.role
  | .recover _ (.invalidate ..) | .recover _ (.rebuild _) | .recover _ (.state _) => .past
  | .recover _ .failed => .other
  | .recover .. => .recovering
  | .closing _ (.block _) | .onClose _ _ _ (.block _) | .block _ => .recovering
  | .answered (.recovered ..) => .past
  | .answered (.blocked _) => .recovering
  | .answered .operationIdMismatch => .mismatch
  | _ => .other

/-- The method of a thread that is no connection's. -/
def Pc.foreign : Pc → Bool
  | .recover .. => false
  | pc => pc.role ≠ .working

/-- The lease stays what it is. -/
structure Kept (c c' : Coordinator) : Prop where
  operationId : c'.operationId = c.operationId
  leaseId : c'.leaseId = c.leaseId
  closed : c'.closed = c.closed

theorem Kept.refl (c : Coordinator) : Kept c c := ⟨rfl, rfl, rfl⟩

/-- What a stretch of code can do to the lease. -/
inductive Effect (c : Coordinator) (pc : Pc) (next : Coordinator × Pc) : Prop
  /-- Nothing, or it blocks. -/
  | quiet (kept : Kept c next.1)
      (state : next.1.state = c.state ∨ next.1.state = .blocked ∧
        (pc.role = .working ∨ pc.role = .recovering ∨ pc.role = .other))
      (role : next.2.role = pc.role ∨ pc.role = .other ∧ next.2.role = .recovering)
  /-- A `prepare` fails. -/
  | reject (kept : Kept c next.1) (working : pc.role = .working) (role : next.2.role = .rejected)
      (state : next.1.state = .blocked ∨
        next.1 = c ∧ (c.state ≠ .preparing ∨ c.closed = true))
  /-- A `prepare` is accepted. -/
  | accept (kept : Kept c next.1) (working : pc.role = .working) (role : next.2.role = .accepted)
      (before : c.state = .preparing) (state : next.1.state = .prepared)
  | giveBack (own : pc.foreign = false) (recovering : pc.role = .recovering)
      (role : next.2.role = .past) (before : c.closed = false) (closed : next.1.closed = false)
      (state : next.1.state = .serving ∨ next.1.state = .catchingUp)
      (operationId : next.1.operationId = none)
  /-- `complete_recovery` brings the daemon back. -/
  | complete (kept : Kept c next.1) (other : pc.role = .other) (role : next.2.role = .other)
      (before : c.state = .catchingUp) (state : next.1.state = .serving)

variable {pc : Pc}

section Effect

variable (env : Env) (c : Coordinator)

/-- A stretch of code that leaves the coordinator as it is. -/
theorem Effect.same {pc pc' : Pc}
    (role : pc'.role = pc.role ∨ pc.role = .other ∧ pc'.role = .recovering) :
    Effect c pc (c, pc') :=
  .quiet (.refl c) (Or.inl rfl) role

theorem effect_failLocked (hworking : pc.role = .working) (code : Code) :
    Effect c pc (c.failLocked code) :=
  .reject ⟨rfl, rfl, rfl⟩ hworking rfl (Or.inl rfl)

theorem effect_interrupted (hworking : pc.role = .working)
    (hchanged : c.state ≠ .preparing ∨ c.closed = true) : Effect c pc (c, c.interrupted) :=
  .reject (.refl c) hworking rfl (Or.inr ⟨rfl, hchanged⟩)

theorem effect_waitTurn (p : Prepare) (pc : PreparePc) (busy : Bool) (here next : PreparePc) :
    Effect c (.prepare p pc) (waitTurn env c p busy here next) := by
  unfold waitTurn
  split_ifs with hbusy hchanged halive
  · exact effect_interrupted c rfl hchanged
  · exact .same c (Or.inl rfl)
  · exact effect_failLocked c rfl _
  · exact .same c (Or.inl rfl)

theorem effect_prepare (p : Prepare) (pc : PreparePc) :
    Effect c (.prepare p pc) (advancePrepare env c p pc) := by
  cases pc with
  | wait => exact effect_waitTurn ..
  | drained => exact effect_waitTurn ..
  | builder todo =>
    cases todo with
    | nil => exact .same c (Or.inl rfl)
    | cons b todo =>
      simp only [advancePrepare]
      split_ifs
      · exact effect_failLocked c rfl _
      · exact .same c (Or.inl rfl)
  | unregister b todo | failureBuilders code =>
    exact .quiet ⟨rfl, rfl, rfl⟩ (Or.inl rfl) (Or.inl rfl)
  | final identity =>
    simp only [advancePrepare]
    split_ifs with h
    · exact effect_interrupted c rfl h.symm
    · obtain ⟨hclosed, hstate⟩ := not_or.mp h
      exact .accept ⟨rfl, rfl, rfl⟩ rfl rfl (not_not.mp hstate) rfl
  | failureBlock code => exact .reject ⟨rfl, rfl, rfl⟩ rfl rfl (Or.inl rfl)
  | builders | stop | waitIdle | handles | identity | failureHandles =>
    exact .same c (Or.inl rfl)

theorem effect_blocked (hrecovering : pc.role = .recovering) (code : Code) :
    Effect c pc (c.blocked code) :=
  .quiet ⟨rfl, rfl, rfl⟩ (Or.inr ⟨rfl, Or.inr (Or.inl hrecovering)⟩) (Or.inl hrecovering.symm)

theorem effect_recover (started : ℕ) (pc : RecoverPc)
    (hraised : ∀ previous target, pc = .invalidate previous target → env.raised = false)
    (hraised' : ∀ target, pc = .rebuild target → env.raised = false) :
    Effect c (.recover started pc) (advanceRecover env c started pc) := by
  cases pc with
  | start =>
    simp only [advanceRecover]
    split_ifs <;> exact .same c (Or.inl rfl)
  | identity =>
    simp only [advanceRecover]
    split <;> split_ifs <;> exact .same c (Or.inl rfl)
  | count =>
    simp only [advanceRecover]
    split_ifs
    · exact effect_blocked c rfl _
    · exact .quiet ⟨rfl, rfl, rfl⟩ (Or.inl rfl) (Or.inl rfl)
  | openHandle =>
    simp only [advanceRecover]
    by_cases h : env.raised = true
    · rw [if_pos h]
      exact .same c (Or.inl rfl)
    · rw [if_neg h]
      exact .quiet ⟨rfl, rfl, rfl⟩ (Or.inl rfl) (Or.inl rfl)
  | opened handle identity =>
    cases identity <;> exact .quiet ⟨rfl, rfl, rfl⟩ (Or.inl rfl) (Or.inl rfl)
  | check handle identity =>
    simp only [advanceRecover]
    split_ifs <;> exact .same c (Or.inl rfl)
  | finish handle identity =>
    have hclosed : (c.register handle).closed = c.closed := by cases handle <;> rfl
    simp only [advanceRecover, recoverFinish]
    split_ifs with h
    · exact .same c (Or.inl rfl)
    · have hopen : c.closed = false := Bool.not_eq_true _ ▸ h
      exact .giveBack rfl rfl rfl hopen (hclosed.trans hopen) (Or.inl rfl) rfl
    · have hopen : c.closed = false := Bool.not_eq_true _ ▸ h
      exact .giveBack rfl rfl rfl hopen (hclosed.trans hopen) (Or.inr rfl) rfl
  | pristine =>
    simp only [advanceRecover]
    split_ifs with h
    · exact effect_blocked c rfl _
    · have hopen : c.closed = false := Bool.not_eq_true _ ▸ h
      exact .giveBack rfl rfl rfl hopen hopen (Or.inl rfl) rfl
  | invalidate previous target =>
    simp only [advanceRecover, hraised previous target rfl, Bool.false_eq_true, if_false]
    exact .same c (Or.inl rfl)
  | rebuild target =>
    simp only [advanceRecover, hraised' target rfl, Bool.false_eq_true, if_false]
    exact .same c (Or.inl rfl)
  | state target => exact .same c (Or.inl rfl)
  | failed => exact .same c (Or.inr ⟨rfl, rfl⟩)

/-- **What a method does to the lease.**  The recovery object raises from neither of its seams. -/
theorem lease_effect (pc : Pc)
    (hraised : ∀ started previous target, pc = .recover started (.invalidate previous target) →
      env.raised = false)
    (hraised' : ∀ started target, pc = .recover started (.rebuild target) → env.raised = false) :
    Effect c pc (advance env c pc) := by
  cases pc with
  | request | openFailed | openRejected =>
    exact .quiet ⟨rfl, rfl, rfl⟩ (Or.inl rfl) (Or.inl rfl)
  | openFactory =>
    simp only [advance]
    split_ifs
    · exact .same c (Or.inl rfl)
    · exact .quiet ⟨rfl, rfl, rfl⟩ (Or.inl rfl) (Or.inl rfl)
  | openOpened h =>
    simp only [advance]
    split_ifs
    · exact .quiet ⟨rfl, rfl, rfl⟩ (Or.inl rfl) (Or.inl rfl)
    · exact .same c (Or.inl rfl)
  | openBlock =>
    exact .quiet ⟨rfl, rfl, rfl⟩ (Or.inr ⟨rfl, Or.inr (Or.inr rfl)⟩) (Or.inl rfl)
  | prepare p pc => exact effect_prepare env c p pc
  | prepareReturn result => exact .quiet ⟨rfl, rfl, rfl⟩ (Or.inl rfl) (Or.inl rfl)
  | recover started pc =>
    exact effect_recover env c started pc (fun _ _ h => hraised started _ _ (by rw [h]))
      fun _ h => hraised' started _ (by rw [h])
  | block code => exact effect_blocked c rfl code
  | complete target =>
    simp only [advance]
    split_ifs <;> exact .same c (Or.inl rfl)
  | completeRead target handle =>
    simp only [advance]
    split_ifs <;> exact .same c (Or.inl rfl)
  | completeCheck target identity =>
    simp only [advance, completeCheck]
    split_ifs with hstale hvalid
    · exact .same c (Or.inl rfl)
    · exact .complete ⟨rfl, rfl, rfl⟩ rfl rfl (not_not.mp (not_or.mp (not_or.mp hstale).2).1) rfl
    · exact .quiet ⟨rfl, rfl, rfl⟩ (Or.inr ⟨rfl, Or.inr (Or.inr rfl)⟩) (Or.inl rfl)
  | completeFailed => exact .same c (Or.inr ⟨rfl, rfl⟩)
  | shutdownWait =>
    simp only [advance]
    split_ifs <;> exact .same c (Or.inl rfl)
  | shutdownHandles => exact .same c (Or.inl rfl)
  | closing todo next =>
    cases todo with
    | nil => cases next <;> exact .same c (Or.inl rfl)
    | cons h todo =>
      simp only [advance]
      split_ifs <;> cases next <;> exact .quiet ⟨rfl, rfl, rfl⟩ (Or.inl rfl) (Or.inl rfl)
  | onClose h raised todo next =>
    cases next <;> cases raised <;> exact .quiet ⟨rfl, rfl, rfl⟩ (Or.inl rfl) (Or.inl rfl)
  | opened h | returned result | answered result | done => exact .same c (Or.inl rfl)

theorem answered_advance (pc : Pc) (code : Code)
    (h : (advance env c pc).2 = .answered (.blocked code)) :
    pc = .answered (.blocked code) ∨ (advance env c pc).1.state = .blocked := by
  cases pc with
  | answered result => exact Or.inl h
  | block code => exact Or.inr rfl
  | recover started pc =>
    cases pc with
    | count | pristine =>
      simp only [advance, advanceRecover] at h ⊢
      split_ifs at h ⊢
      · exact Or.inr rfl
      all_goals cases h
    | finish handle identity =>
      simp only [advance, advanceRecover, recoverFinish] at h
      split_ifs at h
      all_goals cases h
    | identity =>
      simp only [advance, advanceRecover] at h
      split at h <;> split_ifs at h
    | opened handle identity => cases identity <;> cases h
    | openHandle =>
      simp only [advance, advanceRecover] at h
      by_cases hraised : env.raised = true
      · rw [if_pos hraised] at h
        cases h
      · rw [if_neg hraised] at h
        cases h
    | start | check | invalidate | rebuild =>
      simp only [advance, advanceRecover] at h
      split_ifs at h
    | state | failed => cases h
  | prepare p pc =>
    have hrole : ((advance env c (.prepare p pc)).2).role = .recovering := by rw [h]; rfl
    cases effect_prepare env c p pc with
    | quiet _ _ hsame =>
      rcases hsame with hsame | ⟨hother, -⟩
      · cases hrole.symm.trans hsame
      · cases hother
    | reject _ _ hrejected => cases hrole.symm.trans hrejected
    | accept _ _ haccepted => cases hrole.symm.trans haccepted
    | giveBack hforeign hrecovering => cases hrecovering
    | complete _ hother => cases hother
  | openFactory | openOpened | complete | completeRead | shutdownWait =>
    simp only [advance] at h
    split_ifs at h
  | completeCheck target identity =>
    simp only [advance, completeCheck] at h
    split_ifs at h
  | closing todo next =>
    cases todo with
    | nil => cases next <;> cases h
    | cons x todo =>
      simp only [advance] at h
      split_ifs at h
  | onClose x raised todo next => cases next <;> cases raised <;> cases h
  | request | openFailed | openRejected | openBlock | completeFailed | shutdownHandles | opened
  | done | prepareReturn | returned => cases h

theorem answered_of_mismatch (h : pc.role = .mismatch) : pc = .answered .operationIdMismatch := by
  cases pc with
  | answered result => cases result <;> first | rfl | cases h
  | prepareReturn result | returned result => cases result <;> cases h
  | recover started pc => cases pc <;> cases h
  | closing todo next | onClose _ _ _ next => cases next <;> cases h
  | prepare | request | openFactory | openFailed | openOpened | openBlock | openRejected | opened
  | block | complete | completeRead | completeCheck | completeFailed | shutdownWait
  | shutdownHandles | done => cases h

/-- A method of another thread does not become one of a connection's. -/
theorem foreign_advance (h : pc.foreign = true) : (advance env c pc).2.foreign = true := by
  cases pc with
  | prepare | recover => cases h
  | prepareReturn result => cases result <;> rfl
  | openFactory | openOpened | complete | completeRead | shutdownWait =>
    simp only [advance]
    split_ifs <;> rfl
  | completeCheck target identity =>
    simp only [advance, completeCheck]
    split_ifs <;> rfl
  | closing todo next =>
    cases todo with
    | nil => cases next <;> first | rfl | cases h
    | cons x todo =>
      simp only [advance]
      split_ifs <;> cases next <;> first | rfl | cases h
  | onClose x raised todo next => cases next <;> cases raised <;> first | rfl | cases h
  | returned | answered => exact h
  | request | openFailed | openRejected | openBlock | block | completeFailed | shutdownHandles
  | opened | done => rfl

end Effect

namespace Control

open Runs

/-! ## Connections -/

/-- A line, as `_serve_connection` takes it. -/
inductive Line where
  | invalid
  | prepare (operationId : Text) (expectUnreadable : Bool)
  | lease (operationId : Text)
  | reopen (operationId : Text)

/-- Where `_serve_connection` stands. -/
inductive Place where
  /-- `stream.readline()`. -/
  | reading
  /-- `coordinator.prepare`, or `coordinator.reopen`, at work. -/
  | preparing (operationId : Text) (pc : Pc)
  | reopening (operationId : Text) (pc : Pc)
  /-- `_send`, of a response with this `ok`. -/
  | sending (ok : Bool)
  /-- The `finally`. -/
  | ending
  /-- `coordinator.lease_lost` at work. -/
  | losing (pc : Pc)
  | closed
  deriving DecidableEq

structure Connection where
  operationId : Option Text := none
  /-- `lease_lost` is set. -/
  lost : Bool := false
  place : Place := .reading

/-- The coordinator with the methods of the other threads, and the connections. -/
structure System where
  daemon : World
  connections : List Connection := []

/-- A method is called, in the caller's own thread. -/
def call (w : World) (a : Maintenance.Action) : World × Option Pc :=
  let called := Maintenance.step w a
  (⟨called.coordinator, w.threads⟩, called.threads[w.threads.length]?)

/-- What the outside world answers to a method of a connection. -/
def Connection.answer (conn : Connection) (env : Env) : Pc → Env
  | .recover _ (.invalidate ..) | .recover _ (.rebuild _) => { env with raised := false }
  | _ => { env with alive := !conn.lost }

def Connection.read (conn : Connection) (j : ℕ) (w : World) : Line → World × Connection
  | .invalid => (w, { conn with place := .sending false })
  | .prepare operationId expectUnreadable =>
    let called := call w (.prepare operationId (some j) expectUnreadable)
    (called.1, { conn with
      place := (called.2.map (Place.preparing operationId)).getD (.sending false) })
  | .lease operationId =>
    (w, { conn with place := .sending (w.coordinator.assertPrepared operationId (some j)) })
  | .reopen operationId =>
    let called := call w (.reopen operationId (some j))
    (called.1, { conn with
      place := (called.2.map (Place.reopening operationId)).getD (.sending false) })

/-- The `finally` begins. -/
def Connection.lose (conn : Connection) (j : ℕ) (w : World) : World × Connection :=
  match conn.operationId with
  | none => (w, { conn with place := .closed })
  | some operationId =>
    let called := call w (.leaseLost operationId (some j))
    (called.1, { conn with place := (called.2.map Place.losing).getD .closed })

/-- The connection's thread goes on. -/
def Connection.advance (conn : Connection) (j : ℕ) (env : Env) (w : World) : World × Connection :=
  let run (pc : Pc) (place : Pc → Place) : World × Connection :=
    let next := Maintenance.advance (conn.answer env pc) w.coordinator pc
    (⟨next.1, w.threads⟩, { conn with place := place next.2 })
  match conn.place with
  | .preparing operationId (.returned (.prepared ..)) =>
    (w, { conn with operationId := some operationId, place := .sending true })
  | .preparing _ (.returned _) => (w, { conn with place := .sending false })
  | .preparing operationId pc => run pc (.preparing operationId)
  | .reopening _ (.answered (.recovered ..)) =>
    (w, { conn with operationId := none, place := .sending true })
  | .reopening _ (.answered _) => (w, { conn with place := .sending false })
  | .reopening operationId pc => run pc (.reopening operationId)
  | .ending => conn.lose j w
  | .losing (.answered _) => (w, { conn with place := .closed })
  | .losing pc => run pc .losing
  | .reading | .sending _ | .closed => (w, conn)

/-! ## Runs -/

/-- The method is one that a connection calls. -/
def ofConnection : Maintenance.Action → Bool
  | .prepare .. | .assertPrepared .. | .reopen .. | .leaseLost .. => true
  | _ => false

inductive Action where
  /-- Anything of the daemon that is no connection's. -/
  | daemon (a : Maintenance.Action)
  /-- A connection is accepted; its peer is the daemon's user or another. -/
  | accept (own : Bool)
  | line (j : ℕ) (line : Line)
  /-- The end of the stream, or a failed read. -/
  | eof (j : ℕ)
  /-- The watcher sets `lease_lost`. -/
  | lost (j : ℕ)
  | advance (j : ℕ) (env : Env)
  /-- The response is written, or is not. -/
  | sent (j : ℕ) (ok : Bool)

def Action.connection? : Action → Option ℕ
  | .daemon _ | .accept _ => none
  | .line j _ | .eof j | .lost j | .advance j _ | .sent j _ => some j

def Connection.act (conn : Connection) (j : ℕ) (w : World) : Action → World × Connection
  | .line _ line => if conn.place = .reading then conn.read j w line else (w, conn)
  | .eof _ => (w, if conn.place = .reading then { conn with place := .ending } else conn)
  | .lost _ => (w, { conn with lost := true })
  | .advance _ env => conn.advance j env w
  | .sent _ ok =>
    (w, match conn.place with
      | .sending _ => { conn with place := if ok then .reading else .ending }
      | _ => conn)
  | .daemon _ | .accept _ => (w, conn)

def step (s : System) (a : Action) : System :=
  match a with
  | .daemon a => if ofConnection a then s else { s with daemon := Maintenance.step s.daemon a }
  | .accept own =>
    { s with
      connections := s.connections ++ [{ place := if own then .reading else .ending }] }
  | a =>
    match a.connection? with
    | none => s
    | some j =>
      match s.connections[j]? with
      | none => s
      | some conn =>
        let acted := conn.act j s.daemon a
        ⟨acted.1, s.connections.set j acted.2⟩

/-- A new daemon. -/
def started (auto : Bool) (env : Env) : System where
  daemon := Maintenance.started auto env


/-! ## Who has the lease -/

/-- The operation of the accepted prepare that the connection has and has not given back. -/
def Connection.accepted (conn : Connection) : Option Text :=
  match conn.place with
  | .preparing operationId pc => if pc.role = .accepted then some operationId else conn.operationId
  | .reopening _ pc | .losing pc => if pc.role = .past then none else conn.operationId
  | .closed => none
  | .reading | .sending _ | .ending => conn.operationId

/-- The same, and the operation of a prepare that is at work. -/
def Connection.stake (conn : Connection) : Option Text :=
  match conn.place with
  | .preparing operationId pc => if pc.role = .working then some operationId else conn.accepted
  | _ => conn.accepted

/-- The connection's method is one that its place can have, with the local operation id that goes
with it. -/
def Connection.Sound (c : Coordinator) (conn : Connection) : Prop :=
  match conn.place with
  | .preparing _ pc =>
    pc.role = .rejected ∨ conn.operationId = none ∧
      (pc.role = .accepted ∨
        pc.role = .working ∧ (c.state = .preparing ∨ c.state = .blocked))
  | .reopening operationId pc =>
    pc.role = .mismatch ∨ conn.operationId = some operationId ∧
      (pc.role = .past ∨ pc.role = .recovering) ∧
      (∀ code, pc = .answered (.blocked code) → c.state = .blocked)
  | .losing pc =>
    conn.operationId ≠ none ∧ (pc.role = .past ∨ pc.role = .recovering) ∧
      (∀ code, pc = .answered (.blocked code) → c.state = .blocked)
  | _ => True

/-- The connection is the one that the coordinator's lease names. -/
def Owns (c : Coordinator) (j : ℕ) (operationId : Text) : Prop :=
  c.operationId = some operationId ∧ c.leaseId = some j

/-- What holds of the coordinator, the other threads and the connections. -/
structure Inv (s : System) : Prop where
  closed : s.daemon.coordinator.closed = true → s.daemon.coordinator.state = .blocked
  free : s.daemon.coordinator.state = .serving ∨ s.daemon.coordinator.state = .catchingUp →
    s.daemon.coordinator.operationId = none
  foreign : ∀ pc ∈ s.daemon.threads, pc.foreign = true
  stake : ∀ (j : ℕ) conn operationId, s.connections[j]? = some conn →
    conn.stake = some operationId →
      s.daemon.coordinator.closed = true ∨ Owns s.daemon.coordinator j operationId
  held : s.daemon.coordinator.state = .preparing ∨ s.daemon.coordinator.state = .prepared →
    ∃ (j : ℕ) (conn : Connection) (operationId : Text), s.connections[j]? = some conn ∧
      conn.stake = some operationId ∧ Owns s.daemon.coordinator j operationId
  sound : ∀ (j : ℕ) conn, s.connections[j]? = some conn → conn.Sound s.daemon.coordinator

/-- Two connections cannot both be named by the lease. -/
theorem Owns.unique {c : Coordinator} {j j' : ℕ} {operationId operationId' : Text}
    (h : Owns c j operationId) (h' : Owns c j' operationId') : j = j' :=
  Option.some.inj (h.2.symm.trans h'.2)

variable {operationId : Text}

theorem Owns.kept {c c' : Coordinator} {j : ℕ} (h : Owns c j operationId) (hkept : Kept c c') :
    Owns c' j operationId :=
  ⟨hkept.operationId.trans h.1, hkept.leaseId.trans h.2⟩

/-- What a state lets a connection with a stake rely on. -/
structure Steady (c c' : Coordinator) : Prop where
  working : c.state = .preparing ∨ c.state = .blocked →
    c'.state = .preparing ∨ c'.state = .blocked
  blocked : c.state = .blocked → c'.state = .blocked

/-- Only a connection with a stake relies on the coordinator's state. -/
theorem Connection.Sound.congr {c c' : Coordinator} {conn : Connection} (h : conn.Sound c)
    (hsteady : ∀ operationId, conn.stake = some operationId → Steady c c') : conn.Sound c' := by
  unfold Connection.Sound at h ⊢
  unfold Connection.stake Connection.accepted at hsteady
  cases hplace : conn.place with
  | preparing operationId pc =>
    simp only [hplace] at h hsteady ⊢
    rcases h with hrejected | ⟨hnone, haccepted | ⟨hworking, hstate⟩⟩
    · exact Or.inl hrejected
    · exact Or.inr ⟨hnone, Or.inl haccepted⟩
    · rw [if_pos hworking] at hsteady
      exact Or.inr ⟨hnone, Or.inr ⟨hworking, (hsteady _ rfl).working hstate⟩⟩
  | reopening operationId pc =>
    simp only [hplace] at h hsteady ⊢
    rcases h with hmismatch | ⟨hsome, hrole, hblocked⟩
    · exact Or.inl hmismatch
    · refine Or.inr ⟨hsome, hrole, fun code hcode => ?_⟩
      have hrole : ¬ pc.role = .past := fun hpast => by
        rw [hcode] at hpast
        cases hpast
      rw [if_neg hrole] at hsteady
      exact (hsteady _ hsome).blocked (hblocked code hcode)
  | losing pc =>
    simp only [hplace] at h hsteady ⊢
    obtain ⟨hsome, hrole, hblocked⟩ := h
    refine ⟨hsome, hrole, fun code hcode => ?_⟩
    obtain ⟨operationId, hoperation⟩ := Option.ne_none_iff_exists'.mp hsome
    have hrole : ¬ pc.role = .past := fun hpast => by
      rw [hcode] at hpast
      cases hpast
    rw [if_neg hrole] at hsteady
    exact (hsteady _ hoperation).blocked (hblocked code hcode)
  | reading | sending ok | ending | closed => trivial

section Step

variable {s : System} {j : ℕ} {conn conn' : Connection} {c' : Coordinator}

theorem Inv.move (h : Inv s) (hconn : s.connections[j]? = some conn)
    (hclosed : c'.closed = true → c'.state = .blocked)
    (hfree : c'.state = .serving ∨ c'.state = .catchingUp → c'.operationId = none)
    (hothers : ∀ (i : ℕ) other operationId, i ≠ j → s.connections[i]? = some other →
      other.stake = some operationId →
        (c'.closed = true ∨ Owns c' i operationId) ∧ Steady s.daemon.coordinator c')
    (hstake : ∀ operationId, conn'.stake = some operationId →
      c'.closed = true ∨ Owns c' j operationId)
    (hheld : c'.state = .preparing ∨ c'.state = .prepared →
      (∃ operationId, conn'.stake = some operationId ∧ Owns c' j operationId) ∨
        ∃ (i : ℕ) (other : Connection) (operationId : Text), i ≠ j ∧
          s.connections[i]? = some other ∧ other.stake = some operationId ∧ Owns c' i operationId)
    (hsound : conn'.Sound c') :
    Inv ⟨⟨c', s.daemon.threads⟩, s.connections.set j conn'⟩ := by
  have hlt : j < s.connections.length := (List.getElem?_eq_some_iff.mp hconn).1
  have hself : (s.connections.set j conn')[j]? = some conn' := by
    rw [List.getElem?_set, if_pos rfl, if_pos hlt]
  have hother : ∀ {i : ℕ}, i ≠ j → (s.connections.set j conn')[i]? = s.connections[i]? :=
    fun {i} hi => by rw [List.getElem?_set, if_neg hi.symm]
  refine ⟨hclosed, hfree, h.foreign, fun i other operationId hi hs => ?_, fun hstate => ?_,
    fun i other hi => ?_⟩
  · by_cases hij : i = j
    · subst hij
      cases hself.symm.trans hi
      exact hstake operationId hs
    · exact (hothers i other operationId hij ((hother hij).symm.trans hi) hs).1
  · rcases hheld hstate with ⟨operationId, hs, howns⟩ | ⟨i, other, operationId, hij, hi, hs, howns⟩
    · exact ⟨j, conn', operationId, hself, hs, howns⟩
    · exact ⟨i, other, operationId, (hother hij).trans hi, hs, howns⟩
  · by_cases hij : i = j
    · subst hij
      cases hself.symm.trans hi
      exact hsound
    · have hi := (hother hij).symm.trans hi
      exact (h.sound i other hi).congr fun operationId hs =>
        (hothers i other operationId hij hi hs).2

/-- A connection has moved while the lease stayed what it was. -/
theorem Inv.keep (h : Inv s) (hconn : s.connections[j]? = some conn)
    (hkept : Kept s.daemon.coordinator c')
    (hstate : c'.state = s.daemon.coordinator.state ∨ c'.state = .blocked)
    (hstake : conn'.stake = conn.stake ∨ conn'.stake = none ∧
      ((c'.state = .preparing ∨ c'.state = .prepared) → ∀ operationId, ¬ Owns c' j operationId))
    (hsound : conn'.Sound c') :
    Inv ⟨⟨c', s.daemon.threads⟩, s.connections.set j conn'⟩ := by
  have hsteady : Steady s.daemon.coordinator c' := by
    rcases hstate with hsame | hblocked
    · exact ⟨fun hs => by rwa [hsame], fun hs => hsame.trans hs⟩
    · exact ⟨fun _ => Or.inr hblocked, fun _ => hblocked⟩
  have hsame : c'.state ≠ .blocked → c'.state = s.daemon.coordinator.state := fun hne =>
    hstate.resolve_right hne
  have howns : ∀ (i : ℕ) other operationId, s.connections[i]? = some other →
      other.stake = some operationId → c'.closed = true ∨ Owns c' i operationId :=
    fun i other operationId hi hs => (h.stake i other operationId hi hs).imp
      (fun hclosed => hkept.closed.trans hclosed) fun howns => howns.kept hkept
  refine h.move hconn (fun hclosed => ?_) (fun hfree => ?_)
    (fun i other operationId _ hi hs => ⟨howns i other operationId hi hs, hsteady⟩)
    (fun operationId hs => ?_) (fun hheld => ?_) hsound
  · exact hsteady.blocked (h.closed (hkept.closed.symm.trans hclosed))
  · have hstate' := hsame (by rcases hfree with hs | hs <;> rw [hs] <;> decide)
    rw [hkept.operationId]
    exact h.free (hstate' ▸ hfree)
  · rcases hstake with hs' | ⟨hnone, -⟩
    · exact howns j conn operationId hconn (hs' ▸ hs)
    · rw [hnone] at hs
      cases hs
  · have hstate' := hsame (by rcases hheld with hs | hs <;> rw [hs] <;> decide)
    obtain ⟨i, other, operationId, hi, hs, hown⟩ := h.held (hstate' ▸ hheld)
    have hown' := hown.kept hkept
    by_cases hij : i = j
    · subst hij
      cases hconn.symm.trans hi
      rcases hstake with hs' | ⟨-, hnot⟩
      · exact Or.inl ⟨operationId, hs'.trans hs, hown'⟩
      · exact absurd hown' (hnot hheld operationId)
    · exact Or.inr ⟨i, other, operationId, hij, hi, hs, hown'⟩

/-- Another connection has no stake where this one has the lease. -/
theorem Inv.alone (h : Inv s) (hopen : s.daemon.coordinator.closed = false)
    (hown : Owns s.daemon.coordinator j operationId) {i : ℕ} {other : Connection}
    {operationId' : Text} (hi : s.connections[i]? = some other)
    (hs : other.stake = some operationId') : i = j := by
  rcases h.stake i other operationId' hi hs with hclosed | hown'
  · rw [hopen] at hclosed
    cases hclosed
  · exact hown'.unique hown

/-- A `prepare` goes on. -/
theorem Inv.prepare_advance (h : Inv s) {env : Env} (hconn : s.connections[j]? = some conn)
    (hplace : conn.place = .preparing operationId pc)
    (heffect : Effect s.daemon.coordinator pc (advance env s.daemon.coordinator pc)) :
    Inv ⟨⟨(advance env s.daemon.coordinator pc).1, s.daemon.threads⟩, s.connections.set j
      { conn with place := .preparing operationId (advance env s.daemon.coordinator pc).2 }⟩ := by
  have hsound := h.sound j conn hconn
  have hstake : conn.stake = if pc.role = .working then some operationId else
      if pc.role = .accepted then some operationId else conn.operationId := by
    unfold Connection.stake Connection.accepted
    rw [hplace]
  unfold Connection.Sound at hsound
  rw [hplace] at hsound
  simp only at hsound
  generalize advance env s.daemon.coordinator pc = next at heffect ⊢
  have hstake' : ({ conn with place := .preparing operationId next.2 } : Connection).stake =
      if next.2.role = .working then some operationId else
        if next.2.role = .accepted then some operationId else conn.operationId := rfl
  cases heffect with
  | quiet hkept hstate hrole =>
    have hstate : next.1.state = s.daemon.coordinator.state ∨ next.1.state = .blocked :=
      hstate.imp_right And.left
    have hrole : next.2.role = pc.role := hrole.resolve_right fun hother => by
      rw [hother.1] at hsound
      simp at hsound
    refine h.keep hconn hkept hstate (Or.inl ?_) ?_
    · rw [hstake', hstake, hrole]
    · show next.2.role = .rejected ∨ conn.operationId = none ∧ _
      rw [hrole]
      refine hsound.imp_right (And.imp_right (Or.imp_right (And.imp_right fun hs => ?_)))
      rcases hstate with hsame | hblocked
      · rwa [hsame]
      · exact Or.inr hblocked
  | reject hkept hworking hrole hstate =>
    rw [hworking] at hsound
    obtain ⟨hnone, hstates⟩ : conn.operationId = none ∧
        (s.daemon.coordinator.state = .preparing ∨ s.daemon.coordinator.state = .blocked) := by
      simpa using hsound
    have hblocked : next.1.state = .blocked := by
      rcases hstate with hblocked | ⟨hsame, hchanged⟩
      · exact hblocked
      · rw [hsame]
        exact hchanged.elim (fun hne => hstates.resolve_left hne) h.closed
    refine h.keep hconn hkept (Or.inr hblocked) (Or.inr ⟨?_, fun hs => ?_⟩) (Or.inl hrole)
    · rw [hstake', hrole]
      exact hnone
    · rw [hblocked] at hs
      rcases hs with hs | hs <;> cases hs
  | accept hkept hworking hrole hbefore hstate =>
    rw [hworking] at hsound hstake
    obtain ⟨hnone, -⟩ : conn.operationId = none ∧
        (s.daemon.coordinator.state = .preparing ∨ s.daemon.coordinator.state = .blocked) := by
      simpa using hsound
    have hopen : s.daemon.coordinator.closed = false := by
      refine Bool.eq_false_iff.mpr fun hclosed => ?_
      cases (h.closed hclosed).symm.trans hbefore
    have hown : Owns s.daemon.coordinator j operationId := by
      refine (h.stake j conn operationId hconn hstake).resolve_left fun hclosed => ?_
      rw [hopen] at hclosed
      cases hclosed
    have hown' : ∀ op, some operationId = some op → Owns next.1 j op := fun op hop => by
      cases hop
      exact hown.kept hkept
    have hstake'' : ({ conn with place := .preparing operationId next.2 } : Connection).stake =
        some operationId := by
      rw [hstake', hrole]
      rfl
    refine h.move hconn (fun hclosed => ?_) (fun hfree => ?_)
      (fun i other op hne hi hs => absurd (h.alone hopen hown hi hs) hne)
      (fun op hs => Or.inr (hown' op (hstake''.symm.trans hs)))
      (fun _ => Or.inl ⟨operationId, hstake'', hown' _ rfl⟩) (Or.inr ⟨hnone, Or.inl hrole⟩)
    · rw [hkept.closed, hopen] at hclosed
      cases hclosed
    · rw [hstate] at hfree
      rcases hfree with hs | hs <;> cases hs
  | giveBack _ hrecovering =>
    rw [hrecovering] at hsound
    simp at hsound
  | complete _ hother =>
    rw [hother] at hsound
    simp at hsound

/-- A `reopen` or a loss goes on; `place` says which of them it is. -/
theorem Inv.recover_advance (h : Inv s) {env : Env} (place : Pc → Place)
    (hconn : s.connections[j]? = some conn)
    (hstakes : ∀ pc, ({ conn with place := place pc } : Connection).stake =
      if pc.role = .past then none else conn.operationId)
    (hplace : conn.stake = if pc.role = .past then none else conn.operationId)
    (hsounds : ∀ (c : Coordinator) (pc : Pc), (pc.role = .past ∨ pc.role = .recovering) →
      (∀ code, pc = .answered (.blocked code) → c.state = .blocked) →
      ({ conn with place := place pc } : Connection).Sound c)
    (hrole : pc.role = .past ∨ pc.role = .recovering)
    (hblocked : ∀ code, pc = .answered (.blocked code) → s.daemon.coordinator.state = .blocked)
    (hsome : conn.operationId ≠ none)
    (heffect : Effect s.daemon.coordinator pc (advance env s.daemon.coordinator pc)) :
    Inv ⟨⟨(advance env s.daemon.coordinator pc).1, s.daemon.threads⟩, s.connections.set j
      { conn with place := place (advance env s.daemon.coordinator pc).2 }⟩ := by
  have hanswered := answered_advance env s.daemon.coordinator pc
  generalize advance env s.daemon.coordinator pc = next at heffect hanswered ⊢
  cases heffect with
  | quiet hkept hstate hrole' =>
    have hstate : next.1.state = s.daemon.coordinator.state ∨ next.1.state = .blocked :=
      hstate.imp_right And.left
    have hrole' : next.2.role = pc.role := hrole'.resolve_right fun hother => by
      rw [hother.1] at hrole
      simp at hrole
    refine h.keep hconn hkept hstate (Or.inl ?_) (hsounds _ _ (by rwa [hrole']) fun code hcode => ?_)
    · rw [hstakes, hplace, hrole']
    · rcases hanswered code hcode with hsame | hblocked'
      · rcases hstate with hs | hs
        · exact hs.trans (hblocked code hsame)
        · exact hs
      · exact hblocked'
  | reject _ hworking =>
    rw [hworking] at hrole
    simp at hrole
  | accept _ hworking =>
    rw [hworking] at hrole
    simp at hrole
  | giveBack hforeign hrecovering hpast hbefore hclosed hstate hnone =>
    obtain ⟨operationId, hoperation⟩ := Option.ne_none_iff_exists'.mp hsome
    have hown : Owns s.daemon.coordinator j operationId := by
      refine (h.stake j conn operationId hconn ?_).resolve_left fun hclosed => ?_
      · rw [hplace, hrecovering]
        exact hoperation
      · rw [hbefore] at hclosed
        cases hclosed
    refine h.move hconn (fun hc => ?_) (fun _ => hnone)
      (fun i other op hne hi hs => absurd (h.alone hbefore hown hi hs) hne) (fun op hs => ?_)
      (fun hheld => ?_) (hsounds _ _ (Or.inl hpast) fun code hcode => ?_)
    · rw [hclosed] at hc
      cases hc
    · rw [hstakes, if_pos hpast] at hs
      cases hs
    · rcases hstate with hs | hs <;> rw [hs] at hheld <;> rcases hheld with hh | hh <;> cases hh
    · rw [hcode] at hpast
      cases hpast
  | complete _ hother =>
    rw [hother] at hrole
    simp at hrole

theorem Inv.beside (h : Inv s) (hconn : s.connections[j]? = some conn)
    (hstake : conn'.stake = conn.stake) (hsound : conn'.Sound s.daemon.coordinator) :
    Inv ⟨s.daemon, s.connections.set j conn'⟩ :=
  h.keep hconn (.refl _) (Or.inl rfl) (Or.inl hstake) hsound

/-- While the daemon serves no connection has a stake. -/
theorem Inv.unstaked (h : Inv s) (hopen : s.daemon.coordinator.closed = false)
    (hnone : s.daemon.coordinator.operationId = none) {i : ℕ} {other : Connection}
    (hi : s.connections[i]? = some other) : other.stake = none := by
  refine Option.eq_none_iff_forall_ne_some.mpr fun operationId hs => ?_
  rcases h.stake i other operationId hi hs with hclosed | hown
  · rw [hopen] at hclosed
    cases hclosed
  · cases hnone.symm.trans hown.1

theorem Inv.read_prepare (h : Inv s) (hconn : s.connections[j]? = some conn)
    (hreading : conn.place = .reading) (operationId : Text) (expectUnreadable : Bool) :
    Inv ⟨(conn.read j s.daemon (.prepare operationId expectUnreadable)).1, s.connections.set j
      (conn.read j s.daemon (.prepare operationId expectUnreadable)).2⟩ := by
  have hstake : conn.stake = conn.operationId := by
    unfold Connection.stake Connection.accepted
    rw [hreading]
  simp only [Connection.read, call, Maintenance.step]
  split_ifs with hadmits
  · simp only [World.spawn, World.set, List.getElem?_concat_length, Option.map_some,
      Option.getD_some]
    have hserving : s.daemon.coordinator.closed = false ∧
        s.daemon.coordinator.state = .serving := by
      simpa [Coordinator.admits] using hadmits
    have hnone := h.free (Or.inl hserving.2)
    refine h.move hconn (fun hclosed => ?_) (fun hfree => ?_)
      (fun i other op _ hi hs => ?_) (fun op hs => ?_) (fun _ => Or.inl ⟨operationId, rfl, rfl, rfl⟩)
      (Or.inr ⟨?_, Or.inr ⟨rfl, Or.inl rfl⟩⟩)
    · cases hserving.1.symm.trans hclosed
    · rcases hfree with hs | hs <;> cases hs
    · rw [h.unstaked hserving.1 hnone hi] at hs
      cases hs
    · cases hs
      exact Or.inr ⟨rfl, rfl⟩
    · exact hstake.symm.trans (h.unstaked hserving.1 hnone hconn)
  · simp only [World.spawn, List.getElem?_concat_length, Option.map_some, Option.getD_some]
    exact h.beside hconn hstake.symm (Or.inl rfl)

theorem Inv.read_reopen (h : Inv s) (hconn : s.connections[j]? = some conn)
    (hreading : conn.place = .reading) (operationId : Text) :
    Inv ⟨(conn.read j s.daemon (.reopen operationId)).1, s.connections.set j
      (conn.read j s.daemon (.reopen operationId)).2⟩ := by
  have hstake : conn.stake = conn.operationId := by
    unfold Connection.stake Connection.accepted
    rw [hreading]
  simp only [Connection.read, call, Maintenance.step]
  split_ifs with hprepared
  · simp only [World.beginRecovery, World.spawn, World.set, List.getElem?_concat_length,
      Option.map_some, Option.getD_some]
    obtain ⟨hstate, hid, hlease⟩ : s.daemon.coordinator.state = .prepared ∧
        some operationId = s.daemon.coordinator.operationId ∧
        some j = s.daemon.coordinator.leaseId := by
      simpa [Coordinator.assertPrepared, Coordinator.owns] using hprepared
    obtain ⟨i, other, operationId', hi, hs, hown⟩ := h.held (Or.inr hstate)
    obtain rfl : i = j := Option.some.inj (hown.2.symm.trans hlease.symm)
    cases hi.symm.trans hconn
    have hoperation : conn.operationId = some operationId :=
      hstake.symm.trans (hs.trans (hown.1.symm.trans hid.symm))
    exact h.keep hconn ⟨rfl, rfl, rfl⟩ (Or.inl rfl) (Or.inl hstake.symm)
      (Or.inr ⟨hoperation, Or.inr rfl, nofun⟩)
  · simp only [World.spawn, List.getElem?_concat_length, Option.map_some, Option.getD_some]
    exact h.beside hconn hstake.symm (Or.inl rfl)

/-- The `finally` begins. -/
theorem Inv.lose (h : Inv s) (hconn : s.connections[j]? = some conn)
    (hending : conn.place = .ending) :
    Inv ⟨(conn.lose j s.daemon).1, s.connections.set j (conn.lose j s.daemon).2⟩ := by
  have hstake : conn.stake = conn.operationId := by
    unfold Connection.stake Connection.accepted
    rw [hending]
  unfold Connection.lose
  cases hoperation : conn.operationId with
  | none => exact h.beside hconn (hstake.trans hoperation).symm trivial
  | some operationId =>
    have hnext : (¬ Owns s.daemon.coordinator j operationId ∨
          s.daemon.coordinator.state ≠ .preparing ∧ s.daemon.coordinator.state ≠ .prepared) →
        Inv ⟨s.daemon, s.connections.set j ⟨some operationId, conn.lost, .closed⟩⟩ := by
      intro hnot
      refine h.keep hconn (.refl _) (Or.inl rfl) (Or.inr ⟨rfl, fun hheld op hown => ?_⟩) trivial
      rcases hnot with hnot | ⟨hne, hne'⟩
      · refine hnot ⟨?_, hown.2⟩
        rcases h.stake j conn operationId hconn (hstake.trans hoperation) with hclosed | hown'
        · rw [h.closed hclosed] at hheld
          rcases hheld with hs | hs <;> cases hs
        · exact hown'.1
      · exact hheld.elim hne hne'
    have hnothing : s.daemon.threads[s.daemon.threads.length]? = none :=
      List.getElem?_eq_none le_rfl
    simp only [call, Maintenance.step]
    by_cases howns : s.daemon.coordinator.owns operationId (some j) = true
    · rw [if_neg (not_not.mpr howns)]
      by_cases hpreparing : s.daemon.coordinator.state = .preparing
      · simp only [if_pos hpreparing, World.set, hnothing, Option.map_none, Option.getD_none]
        refine h.keep hconn ⟨rfl, rfl, rfl⟩ (Or.inr rfl) (Or.inr ⟨rfl, fun hheld => ?_⟩) trivial
        rcases hheld with hs | hs <;> cases hs
      · by_cases hprepared : s.daemon.coordinator.state = .prepared
        · simp only [if_neg hpreparing, if_pos hprepared, World.beginRecovery, World.spawn,
            World.set, List.getElem?_concat_length, Option.map_some, Option.getD_some]
          exact h.keep hconn ⟨rfl, rfl, rfl⟩ (Or.inl rfl) (Or.inl (hstake.trans hoperation).symm)
            ⟨Option.some_ne_none _, Or.inr rfl, nofun⟩
        · simp only [if_neg hpreparing, if_neg hprepared, hnothing, Option.map_none,
            Option.getD_none]
          exact hnext (Or.inr ⟨hpreparing, hprepared⟩)
    · simp only [if_pos howns, hnothing, Option.map_none, Option.getD_none]
      refine hnext (Or.inl fun hown => howns ?_)
      simp [Coordinator.owns, hown.1, hown.2]

/-- The connection's environment lets the recovery object raise nothing. -/
theorem effect_answer (conn : Connection) (env : Env) (c : Coordinator) (pc : Pc) :
    Effect c pc (Maintenance.advance (conn.answer env pc) c pc) :=
  lease_effect _ c pc (fun _ _ _ hpc => by subst hpc; rfl) fun _ _ hpc => by subst hpc; rfl

/-- The thread of a connection goes on. -/
theorem Inv.advance (h : Inv s) (hconn : s.connections[j]? = some conn) (env : Env) :
    Inv ⟨(conn.advance j env s.daemon).1, s.connections.set j (conn.advance j env s.daemon).2⟩ := by
  have hsound := h.sound j conn hconn
  have hmine : ∀ operationId, Owns s.daemon.coordinator j operationId →
      (s.daemon.coordinator.state = .preparing ∨ s.daemon.coordinator.state = .prepared) →
        conn.stake ≠ none := fun operationId hown hstate => by
    obtain ⟨i, other, operationId', hi, hs, hown'⟩ := h.held hstate
    obtain rfl := hown'.unique hown
    cases hi.symm.trans hconn
    rw [hs]
    exact Option.some_ne_none _
  unfold Connection.advance
  simp only
  split
  · next operationId _ _ _ _ hplace =>
    refine h.beside hconn ?_ trivial
    unfold Connection.stake Connection.accepted
    rw [hplace]
    rfl
  · next operationId result hother hplace =>
    refine h.beside hconn ?_ trivial
    unfold Connection.stake Connection.accepted
    rw [hplace]
    cases result with
    | prepared a b c d => exact (hother a b c d rfl).elim
    | inProgress | failed => rfl
  · next operationId pc _ _ hplace =>
    exact h.prepare_advance hconn hplace (effect_answer conn env _ pc)
  · next operationId _ _ hplace =>
    refine h.beside hconn ?_ trivial
    unfold Connection.stake Connection.accepted
    rw [hplace]
    rfl
  · next operationId result hother hplace =>
    refine h.beside hconn ?_ trivial
    unfold Connection.stake Connection.accepted
    rw [hplace]
    cases result with
    | recovered a b => exact (hother a b rfl).elim
    | operationIdMismatch | blocked => rfl
  · next operationId pc _ hanswered hplace =>
    unfold Connection.Sound at hsound
    rw [hplace] at hsound
    have hrole : ¬ pc.role = .mismatch := fun hmismatch => by
      exact hanswered _ (answered_of_mismatch hmismatch)
    obtain ⟨hoperation, hrole, hblocked⟩ := hsound.resolve_left hrole
    refine h.recover_advance (.reopening operationId) hconn (fun _ => rfl) ?_
      (fun c pc hrole hblocked => Or.inr ⟨hoperation, hrole, hblocked⟩) hrole hblocked
      (by rw [hoperation]; exact Option.some_ne_none _) (effect_answer conn env _ pc)
    unfold Connection.stake Connection.accepted
    rw [hplace]
  · next hplace => exact h.lose hconn hplace
  · next result hplace =>
    unfold Connection.Sound at hsound
    rw [hplace] at hsound
    obtain ⟨-, hrole, hblocked⟩ := hsound
    refine h.keep hconn (.refl _) (Or.inl rfl) (Or.inr ⟨rfl, fun hheld operationId hown => ?_⟩)
      trivial
    refine hmine operationId hown hheld ?_
    unfold Connection.stake Connection.accepted
    rw [hplace]
    cases result with
    | recovered => rfl
    | blocked code =>
      rw [hblocked code rfl] at hheld
      rcases hheld with hs | hs <;> cases hs
    | operationIdMismatch => rcases hrole with hr | hr <;> cases hr
  · next pc hanswered hplace =>
    unfold Connection.Sound at hsound
    rw [hplace] at hsound
    obtain ⟨hsome, hrole, hblocked⟩ := hsound
    refine h.recover_advance .losing hconn (fun _ => rfl) ?_
      (fun c pc hrole hblocked => ⟨hsome, hrole, hblocked⟩) hrole hblocked hsome
      (effect_answer conn env _ pc)
    unfold Connection.stake Connection.accepted
    rw [hplace]
  all_goals exact h.beside hconn rfl (h.sound j conn hconn)

/-- What a connection does keeps the invariant. -/
theorem Inv.act (h : Inv s) (hconn : s.connections[j]? = some conn) (a : Action) :
    Inv ⟨(conn.act j s.daemon a).1, s.connections.set j (conn.act j s.daemon a).2⟩ := by
  have hstay : Inv ⟨s.daemon, s.connections.set j conn⟩ :=
    h.beside hconn rfl (h.sound j conn hconn)
  have hplain : ∀ {place place' : Place}, conn.place = place →
      ({ conn with place := place } : Connection).stake = conn.operationId →
      ({ conn with place := place' } : Connection).stake = conn.operationId →
      ({ conn with place := place' } : Connection).stake = conn.stake := fun hplace hs hs' => by
    subst hplace
    exact hs'.trans hs.symm
  cases a with
  | line i line =>
    simp only [Connection.act]
    split_ifs with hreading
    · cases line with
      | invalid => exact h.beside hconn (hplain hreading rfl rfl) trivial
      | prepare operationId expectUnreadable =>
        exact h.read_prepare hconn hreading operationId expectUnreadable
      | lease operationId => exact h.beside hconn (hplain hreading rfl rfl) trivial
      | reopen operationId => exact h.read_reopen hconn hreading operationId
    · exact hstay
  | eof i =>
    simp only [Connection.act]
    split_ifs with hreading
    · exact h.beside hconn (hplain hreading rfl rfl) trivial
    · exact hstay
  | lost i => exact h.beside hconn rfl (h.sound j conn hconn)
  | advance i env => exact h.advance hconn env
  | sent i ok =>
    simp only [Connection.act]
    split
    · next hplace =>
      cases ok <;> exact h.beside hconn (hplain hplace rfl rfl) trivial
    · exact hstay
  | daemon a | accept own => exact hstay

end Step

/-- The coordinator has moved without the connections. -/
theorem Inv.daemon {s : System} (h : Inv s) {w : World}
    (hclosed : w.coordinator.closed = true → w.coordinator.state = .blocked)
    (hfree : w.coordinator.state = .serving ∨ w.coordinator.state = .catchingUp →
      w.coordinator.operationId = none)
    (hforeign : ∀ pc ∈ w.threads, pc.foreign = true)
    (hstakes : ∀ (j : ℕ) conn operationId, s.connections[j]? = some conn →
      conn.stake = some operationId →
        (w.coordinator.closed = true ∨ Owns w.coordinator j operationId) ∧
          Steady s.daemon.coordinator w.coordinator)
    (hheld : w.coordinator.state = .preparing ∨ w.coordinator.state = .prepared →
      w.coordinator.state = s.daemon.coordinator.state ∧
        Kept s.daemon.coordinator w.coordinator) : Inv ⟨w, s.connections⟩ := by
  refine ⟨hclosed, hfree, hforeign,
    fun j conn operationId hj hs => (hstakes j conn operationId hj hs).1, fun hstate => ?_,
    fun j conn hj => (h.sound j conn hj).congr
      fun operationId hs => (hstakes j conn operationId hj hs).2⟩
  obtain ⟨hsame, hkept⟩ := hheld hstate
  obtain ⟨j, conn, operationId, hj, hs, hown⟩ := h.held (hsame ▸ hstate)
  exact ⟨j, conn, operationId, hj, hs, hown.kept hkept⟩

/-- The coordinator has moved without the connections, and at most blocks. -/
theorem Inv.daemon_kept {s : System} (h : Inv s) {w : World}
    (hkept : Kept s.daemon.coordinator w.coordinator)
    (hstate : w.coordinator.state = s.daemon.coordinator.state ∨ w.coordinator.state = .blocked)
    (hforeign : ∀ pc ∈ w.threads, pc.foreign = true) : Inv ⟨w, s.connections⟩ := by
  have hsteady : Steady s.daemon.coordinator w.coordinator := by
    rcases hstate with hsame | hblocked
    · exact ⟨fun hs => by rwa [hsame], fun hs => hsame.trans hs⟩
    · exact ⟨fun _ => Or.inr hblocked, fun _ => hblocked⟩
  have hsame : w.coordinator.state ≠ .blocked →
      w.coordinator.state = s.daemon.coordinator.state := fun hne => hstate.resolve_right hne
  refine h.daemon (fun hclosed => ?_) (fun hfree => ?_) hforeign
    (fun j conn operationId hj hs => ⟨?_, hsteady⟩) fun hheld => ⟨hsame ?_, hkept⟩
  · exact hsteady.blocked (h.closed (hkept.closed.symm.trans hclosed))
  · rw [hkept.operationId]
    refine h.free (hsame ?_ ▸ hfree)
    rcases hfree with hs | hs <;> rw [hs] <;> decide
  · exact (h.stake j conn operationId hj hs).imp (fun hclosed => hkept.closed.trans hclosed)
      fun hown => hown.kept hkept
  · rcases hheld with hs | hs <;> rw [hs] <;> decide

/-- The rest of the daemon keeps the invariant. -/
theorem Inv.daemon_step {s : System} (h : Inv s) {a : Maintenance.Action}
    (ha : ofConnection a = false) :
    Inv { s with daemon := Maintenance.step s.daemon a } := by
  have hspawn : ∀ {c' : Coordinator} {pc : Pc}, Kept s.daemon.coordinator c' →
      c'.state = s.daemon.coordinator.state ∨ c'.state = .blocked → pc.foreign = true →
        Inv ⟨⟨c', s.daemon.threads ++ [pc]⟩, s.connections⟩ := fun hkept hstate hpc =>
    h.daemon_kept hkept hstate (Pool.forall_concat h.foreign hpc)
  have hset : ∀ {c' : Coordinator}, Kept s.daemon.coordinator c' →
      c'.state = s.daemon.coordinator.state ∨ c'.state = .blocked →
        Inv ⟨⟨c', s.daemon.threads⟩, s.connections⟩ := fun hkept hstate =>
    h.daemon_kept hkept hstate h.foreign
  cases a with
  | prepare | assertPrepared | reopen | leaseLost => cases ha
  | beginRequest =>
    simp only [Maintenance.step]
    split_ifs
    · exact hspawn ⟨rfl, rfl, rfl⟩ (Or.inl rfl) rfl
    · exact h
  | openFactHandle =>
    simp only [Maintenance.step]
    split_ifs
    · exact hspawn ⟨rfl, rfl, rfl⟩ (Or.inl rfl) rfl
    · exact h
  | closeHandle x => exact hspawn ⟨rfl, rfl, rfl⟩ (Or.inl rfl) rfl
  | registerBuilder b =>
    simp only [Maintenance.step]
    split_ifs
    · exact hset ⟨rfl, rfl, rfl⟩ (Or.inl rfl)
    · exact h
  | unregisterBuilder b => exact hset ⟨rfl, rfl, rfl⟩ (Or.inl rfl)
  | complete target => exact hspawn ⟨rfl, rfl, rfl⟩ (Or.inl rfl) rfl
  | close =>
    simp only [Maintenance.step]
    split_ifs
    · exact h
    · refine h.daemon (fun _ => rfl) (fun hfree => ?_) (Pool.forall_concat h.foreign rfl)
        (fun j conn operationId _ _ => ⟨Or.inl rfl, ⟨fun _ => Or.inr rfl, fun _ => rfl⟩⟩)
        fun hheld => ?_
      · rcases hfree with hs | hs <;> cases hs
      · rcases hheld with hs | hs <;> cases hs
  | advance i env =>
    simp only [Maintenance.step]
    cases hpc : s.daemon.threads[i]? with
    | none => exact h
    | some pc =>
      have hforeign := h.foreign pc (List.mem_of_getElem? hpc)
      have hthreads := Pool.forall_set (i := i) h.foreign
        (foreign_advance env s.daemon.coordinator hforeign)
      have hnot : ∀ started r, pc ≠ .recover started r := fun started r hr => by
        rw [hr] at hforeign
        cases hforeign
      have hworking : pc.role ≠ .working := fun hw => by
        cases pc with
        | recover started r => exact hnot started r rfl
        | _ => exact absurd hw (of_decide_eq_true hforeign)
      cases lease_effect env s.daemon.coordinator pc (fun _ _ _ hr => absurd hr (hnot _ _))
          (fun _ _ hr => absurd hr (hnot _ _)) with
      | quiet hkept hstate => exact h.daemon_kept hkept (hstate.imp_right And.left) hthreads
      | reject _ hw => exact absurd hw hworking
      | accept _ hw => exact absurd hw hworking
      | giveBack hown => rw [hforeign] at hown; cases hown
      | complete hkept _ _ hbefore hstate =>
        have hnone := h.free (Or.inr hbefore)
        have hopen : s.daemon.coordinator.closed = false := by
          refine Bool.eq_false_iff.mpr fun hclosed => ?_
          cases (h.closed hclosed).symm.trans hbefore
        refine h.daemon (fun hclosed => ?_) (fun _ => hkept.operationId.trans hnone) hthreads
          (fun j conn operationId hj hs => ?_) fun hheld => ?_
        · cases (hkept.closed.symm.trans hclosed).symm.trans hopen
        · rw [h.unstaked hopen hnone hj] at hs
          cases hs
        · rw [show (⟨_, _⟩ : World).coordinator.state = .serving from hstate] at hheld
          rcases hheld with hs | hs <;> cases hs

/-- **One step.** -/
theorem Inv.step {s : System} (h : Inv s) (a : Action) : Inv (Control.step s a) := by
  have hact : ∀ (j : ℕ) (a : Action),
      Inv (match s.connections[j]? with
        | none => s
        | some conn =>
          ⟨(conn.act j s.daemon a).1, s.connections.set j (conn.act j s.daemon a).2⟩) :=
    fun j a => by
      cases hconn : s.connections[j]? with
      | none => exact h
      | some conn => exact h.act hconn a
  cases a with
  | daemon a =>
    simp only [Control.step]
    split_ifs with ha
    · exact h
    · exact h.daemon_step (Bool.not_eq_true _ ▸ ha)
  | accept own =>
    have hnew : ∀ {j : ℕ} {conn : Connection},
        (s.connections ++ [{ place := if own then .reading else .ending }])[j]? = some conn →
          s.connections[j]? = some conn ∨
            conn = { place := if own then .reading else .ending } := fun {j conn} hj => by
      by_cases hlt : j < s.connections.length
      · rw [List.getElem?_append_left hlt] at hj
        exact Or.inl hj
      · rw [List.getElem?_append_right (not_lt.mp hlt)] at hj
        exact Or.inr (List.mem_singleton.mp (List.mem_of_getElem? hj))
    refine ⟨h.closed, h.free, h.foreign, fun j conn operationId hj hs => ?_, fun hheld => ?_,
      fun j conn hj => ?_⟩
    · rcases hnew hj with hj | rfl
      · exact h.stake j conn operationId hj hs
      · cases own <;> cases hs
    · obtain ⟨j, conn, operationId, hj, hs⟩ := h.held hheld
      refine ⟨j, conn, operationId, ?_, hs⟩
      exact (List.getElem?_append_left (List.getElem?_eq_some_iff.mp hj).1).trans hj
    · rcases hnew hj with hj | rfl
      · exact h.sound j conn hj
      · cases own <;> trivial
  | line j line => exact hact j _
  | eof j => exact hact j _
  | lost j => exact hact j _
  | advance j env => exact hact j _
  | sent j ok => exact hact j _

theorem inv_started (auto : Bool) (env : Env) : Inv (started auto env) := by
  have hinit : (initializeFactEpoch env).closed = false ∧
      (initializeFactEpoch env).operationId = none ∧
      ((initializeFactEpoch env).state = .serving ∨
        (initializeFactEpoch env).state = .blocked) := by
    unfold initializeFactEpoch
    simp only
    split_ifs
    · exact ⟨rfl, rfl, Or.inr rfl⟩
    · split
      · exact ⟨rfl, rfl, Or.inr rfl⟩
      · exact ⟨rfl, rfl, Or.inl rfl⟩
    · exact ⟨rfl, rfl, Or.inr rfl⟩
  have hcoordinator : (started auto env).daemon.coordinator.closed = false ∧
      (started auto env).daemon.coordinator.operationId = none ∧
      ((started auto env).daemon.coordinator.state = .serving ∨
        (started auto env).daemon.coordinator.state = .blocked) := by
    simp only [started, Maintenance.started]
    split_ifs
    · exact hinit
    · exact ⟨rfl, rfl, Or.inl rfl⟩
  obtain ⟨hclosed, hnone, hstate⟩ := hcoordinator
  refine ⟨fun h => ?_, fun _ => hnone, by rintro _ ⟨⟩, fun j conn operationId hj => (by cases hj),
    fun hheld => ?_, fun j conn hj => (by cases hj)⟩
  · cases hclosed.symm.trans h
  · rcases hstate with hs | hs <;> rw [hs] at hheld <;> rcases hheld with hh | hh <;> cases hh

theorem inv_run (auto : Bool) (env : Env) (acts : List Action) :
    Inv (run step (started auto env) acts) :=
  run_invariant (fun _ a h => h.step a) (inv_started auto env) acts

/-! ## What the invariant says -/

section Says

variable {s : System}

/-- While the coordinator is prepared, a stake is an accepted prepare. -/
theorem Inv.accepted_eq (h : Inv s) {j : ℕ} {conn : Connection}
    (hconn : s.connections[j]? = some conn) (hstate : s.daemon.coordinator.state = .prepared) :
    conn.stake = conn.accepted := by
  have hsound := h.sound j conn hconn
  unfold Connection.Sound at hsound
  unfold Connection.stake
  split
  · next operationId pc hplace =>
    rw [hplace] at hsound
    simp only at hsound
    rw [if_neg]
    intro hworking
    rw [hworking, hstate] at hsound
    simp at hsound
  · rfl

/-- While the coordinator is prepared, the lease names an open connection with an accepted
prepare. -/
theorem Inv.holder (h : Inv s) (hstate : s.daemon.coordinator.state = .prepared) :
    ∃ (j : ℕ) (conn : Connection) (operationId : Text), s.connections[j]? = some conn ∧
      conn.place ≠ .closed ∧ conn.accepted = some operationId ∧
      Owns s.daemon.coordinator j operationId := by
  obtain ⟨j, conn, operationId, hj, hs, hown⟩ := h.held (Or.inr hstate)
  have haccepted : conn.accepted = some operationId := (h.accepted_eq hj hstate).symm.trans hs
  refine ⟨j, conn, operationId, hj, fun hclosed => ?_, haccepted, hown⟩
  unfold Connection.accepted at haccepted
  rw [hclosed] at haccepted
  cases haccepted

/-- A connection that the lease does not name has no stake. -/
theorem Inv.stake_eq_none (h : Inv s) {j : ℕ} {conn : Connection}
    (hconn : s.connections[j]? = some conn)
    (hstate : s.daemon.coordinator.state = .preparing ∨ s.daemon.coordinator.state = .prepared)
    (hlease : s.daemon.coordinator.leaseId ≠ some j) : conn.stake = none := by
  refine Option.eq_none_iff_forall_ne_some.mpr fun operationId hs => ?_
  rcases h.stake j conn operationId hconn hs with hclosed | hown
  · rw [h.closed hclosed] at hstate
    rcases hstate with hh | hh <;> cases hh
  · exact hlease hown.2

/-- The coordinator's state and lease are what they were. -/
structure Untouched (c c' : Coordinator) : Prop extends Kept c c' where
  state : c'.state = c.state

theorem Untouched.refl (c : Coordinator) : Untouched c c := ⟨.refl c, rfl⟩

/-- A method that is neither at work nor recovering leaves the lease alone. -/
theorem untouched_of_effect {c : Coordinator} {next : Coordinator × Pc}
    (heffect : Effect c pc next)
    (hrole : pc.role = .accepted ∨ pc.role = .rejected ∨ pc.role = .past) : Untouched c next.1 := by
  have hno : pc.role ≠ .working ∧ pc.role ≠ .recovering ∧ pc.role ≠ .other := by
    rcases hrole with hr | hr | hr <;> rw [hr] <;> decide
  cases heffect with
  | quiet hkept hstate =>
    refine ⟨hkept, hstate.resolve_right fun hblocked => ?_⟩
    exact hblocked.2.elim hno.1 fun h => h.elim hno.2.1 hno.2.2
  | reject _ hworking => exact absurd hworking hno.1
  | accept _ hworking => exact absurd hworking hno.1
  | giveBack _ hrecovering => exact absurd hrecovering hno.2.1
  | complete _ hother => exact absurd hother hno.2.2

/-- **Another connection leaves the lease alone.**  Whatever a connection does that the lease does
not name, its end included, while the coordinator prepares or is prepared. -/
theorem Inv.untouched (h : Inv s) {a : Action} {j : ℕ} (ha : a.connection? = some j)
    (hstate : s.daemon.coordinator.state = .preparing ∨ s.daemon.coordinator.state = .prepared)
    (hlease : s.daemon.coordinator.leaseId ≠ some j) :
    Untouched s.daemon.coordinator (Control.step s a).daemon.coordinator := by
  have hact : ∀ conn, s.connections[j]? = some conn →
      Untouched s.daemon.coordinator (conn.act j s.daemon a).1.coordinator := by
    intro conn hconn
    have hsound := h.sound j conn hconn
    have hnone := h.stake_eq_none hconn hstate hlease
    have hnot : ∀ operationId, s.daemon.coordinator.owns operationId (some j) = false := by
      intro operationId
      simp only [Coordinator.owns, Bool.and_eq_false_iff, decide_eq_false_iff_not]
      exact Or.inr (Ne.symm hlease)
    cases a with
    | daemon a | accept own => cases ha
    | eof i | lost i | sent i ok => exact .refl _
    | line i line =>
      simp only [Connection.act]
      split_ifs
      · cases line with
        | invalid | lease => exact .refl _
        | prepare operationId expectUnreadable =>
          have hadmits : s.daemon.coordinator.admits = false := by
            rcases hstate with hs | hs <;> simp [Coordinator.admits, hs]
          simp only [Connection.read, call, Maintenance.step, hadmits]
          exact .refl _
        | reopen operationId =>
          have hassert :
              s.daemon.coordinator.assertPrepared operationId (some j) = false := by
            simp [Coordinator.assertPrepared, hnot]
          simp only [Connection.read, call, Maintenance.step, hassert]
          exact .refl _
      · exact .refl _
    | advance i env =>
      have hrecovering : ∀ pc : Pc, conn.operationId ≠ none →
          (conn.stake = if pc.role = .past then none else conn.operationId) →
          (pc.role = .past ∨ pc.role = .recovering) → pc.role = .past := by
        intro pc hsome hs hrole
        refine hrole.resolve_right fun hr => hsome ?_
        rw [hr] at hs
        exact hs.symm.trans hnone
      simp only [Connection.act, Connection.advance]
      unfold Connection.Sound at hsound
      unfold Connection.stake Connection.accepted at hnone hrecovering
      split
      · exact .refl _
      · exact .refl _
      · next operationId pc _ _ hplace =>
        rw [hplace] at hsound hnone
        simp only at hsound hnone
        refine untouched_of_effect (effect_answer conn env _ pc) (Or.inr (Or.inl ?_))
        refine hsound.resolve_right ?_
        rintro ⟨-, hr | ⟨hr, -⟩⟩ <;> rw [hr] at hnone <;> simp at hnone
      · exact .refl _
      · exact .refl _
      · next operationId pc _ hanswered hplace =>
        rw [hplace] at hsound hrecovering
        have hrole : ¬ pc.role = .mismatch := fun hmismatch => by
          exact hanswered _ (answered_of_mismatch hmismatch)
        obtain ⟨hoperation, hrole, -⟩ := hsound.resolve_left hrole
        exact untouched_of_effect (effect_answer conn env _ pc) (Or.inr (Or.inr
          (hrecovering pc (by rw [hoperation]; exact Option.some_ne_none _) rfl hrole)))
      · unfold Connection.lose
        split
        · exact .refl _
        · next operationId _ =>
          simp only [call, Maintenance.step, hnot, Bool.false_eq_true, not_false_eq_true, if_true]
          exact .refl _
      · exact .refl _
      · next pc _ hplace =>
        rw [hplace] at hsound hrecovering
        obtain ⟨hsome, hrole, -⟩ := hsound
        exact untouched_of_effect (effect_answer conn env _ pc) (Or.inr (Or.inr
          (hrecovering pc hsome rfl hrole)))
      all_goals exact .refl _
  have hstep : ∀ a : Action, a.connection? = some j →
      Control.step s a = match s.connections[j]? with
        | none => s
        | some conn =>
          ⟨(conn.act j s.daemon a).1, s.connections.set j (conn.act j s.daemon a).2⟩ := by
    intro a ha
    cases a <;> cases ha <;> rfl
  rw [hstep a ha]
  cases hconn : s.connections[j]? with
  | none => exact .refl _
  | some conn => exact hact conn hconn

end Says

/-! ## A connection that ends -/

/-- How many steps a recovery still takes, at most, to be answered. -/
def left : Pc → ℕ
  | .recover _ .start => 10
  | .recover _ .count => 9
  | .recover _ .openHandle => 8
  | .recover _ (.opened ..) => 7
  | .recover _ .identity | .recover _ (.check ..) => 6
  | .recover _ (.finish ..) => 5
  | .recover _ (.invalidate ..) => 3
  | .recover _ (.rebuild _) => 2
  | .recover _ .pristine | .recover _ (.state _) => 1
  | .closing todo (.block _) => 2 * todo.length + 2
  | .onClose _ _ todo (.block _) => 2 * todo.length + 3
  | .block _ => 1
  | _ => 0

/-- A recovery comes closer to its answer. -/
theorem left_advance (env : Env) (c : Coordinator)
    (hrole : pc.role = .past ∨ pc.role = .recovering)
    (hanswered : ∀ result, pc ≠ .answered result)
    (hraised : ∀ started previous target, pc = .recover started (.invalidate previous target) →
      env.raised = false)
    (hraised' : ∀ started target, pc = .recover started (.rebuild target) → env.raised = false) :
    left (advance env c pc).2 + 1 ≤ left pc := by
  have hhandle : ∀ handle : Option ℕ, 2 * handle.toList.length + 2 ≤ 4 := fun handle => by
    cases handle <;> simp
  cases pc with
  | recover started pc =>
    cases pc with
    | start =>
      simp only [advance, advanceRecover]
      split_ifs <;> simp [left]
    | identity =>
      simp only [advance, advanceRecover]
      split <;> split_ifs <;> simp [left]
    | count =>
      simp only [advance, advanceRecover]
      split_ifs <;> simp [left, Coordinator.blocked]
    | openHandle =>
      simp only [advance, advanceRecover]
      by_cases h : env.raised = true
      · rw [if_pos h]
        exact le_rfl
      · rw [if_neg h]
        exact le_rfl
    | opened handle identity =>
      have := hhandle handle
      cases identity with
      | none =>
        show 2 * handle.toList.length + 2 + 1 ≤ 7
        omega
      | some identity => exact le_rfl
    | check handle identity =>
      have := hhandle handle
      simp only [advance, advanceRecover]
      split_ifs
      · show 2 * handle.toList.length + 2 + 1 ≤ 6
        omega
      · exact le_rfl
    | finish handle identity =>
      have := hhandle handle
      simp only [advance, advanceRecover, recoverFinish]
      split_ifs
      · show 2 * handle.toList.length + 2 + 1 ≤ 5
        omega
      · simp [left]
      · simp [left]
    | pristine =>
      simp only [advance, advanceRecover]
      split_ifs <;> exact le_rfl
    | invalidate previous target =>
      simp only [advance, advanceRecover, hraised started previous target rfl,
        Bool.false_eq_true, if_false]
      exact le_rfl
    | rebuild target =>
      simp only [advance, advanceRecover, hraised' started target rfl, Bool.false_eq_true, if_false]
      exact le_rfl
    | state target => exact le_rfl
    | failed => rcases hrole with h | h <;> cases h
  | closing todo next =>
    cases next with
    | block code =>
      cases todo with
      | nil => simp [advance, Then.pc, left]
      | cons h todo =>
        simp only [advance]
        split_ifs <;> simp only [left, List.length_cons] <;> omega
    | done | rejected | prepare | failure => rcases hrole with h | h <;> cases h
  | onClose h raised todo next =>
    cases next with
    | block code =>
      cases raised <;> simp [advance, Then.after, left]
    | done | rejected | prepare | failure => rcases hrole with h | h <;> cases h
  | block code => exact le_rfl
  | answered result => exact absurd rfl (hanswered result)
  | prepareReturn result | returned result => cases result <;> rcases hrole with h | h <;> cases h
  | prepare | request | openFactory | openFailed | openOpened | openBlock | openRejected | opened
  | complete | completeRead | completeCheck | completeFailed | shutdownWait | shutdownHandles
  | done => rcases hrole with h | h <;> cases h

/-- The action is a step of the connection's thread. -/
def Action.advances (j : ℕ) : Action → Bool
  | .advance i _ => i = j
  | _ => false

/-- The connection is closed, or in its `finally` with at most so many steps to go. -/
def Ends (j n : ℕ) (s : System) : Prop :=
  ∃ conn, s.connections[j]? = some conn ∧
    (conn.place = .closed ∨ conn.place = .ending ∧ 12 ≤ n ∨
      ∃ pc, conn.place = .losing pc ∧ left pc + 1 ≤ n)

/-- Nothing but its own thread moves a connection that ends. -/
theorem act_of_ends {j : ℕ} {conn : Connection} {w : World} {a : Action}
    (hends : conn.place = .closed ∨ conn.place = .ending ∨ ∃ pc, conn.place = .losing pc)
    (ha : a.advances j = false) (haj : a.connection? = some j) :
    (conn.act j w a).2.place = conn.place := by
  have hreading : conn.place ≠ .reading := fun hplace => by
    rw [hplace] at hends
    rcases hends with h | h | ⟨pc, h⟩ <;> cases h
  cases a with
  | line i line =>
    simp only [Connection.act, if_neg hreading]
  | eof i => simp only [Connection.act, if_neg hreading]
  | lost i => rfl
  | sent i ok =>
    simp only [Connection.act]
    split
    · next hplace =>
      rw [hplace] at hends
      rcases hends with h | h | ⟨pc, h⟩ <;> cases h
    · rfl
  | advance i env =>
    cases haj
    simp [Action.advances] at ha
  | daemon a | accept own => rfl

/-- `lease_lost` begins a recovery, or is over at once. -/
theorem call_leaseLost (w : World) (operationId : Text) (leaseId : Option ℕ) :
    (call w (.leaseLost operationId leaseId)).2 = none ∨
      ∃ started, (call w (.leaseLost operationId leaseId)).2 = some (.recover started .start) := by
  have hnothing : w.threads[w.threads.length]? = none := List.getElem?_eq_none le_rfl
  unfold call
  simp only [Maintenance.step]
  split_ifs
  · exact Or.inl hnothing
  · exact Or.inr ⟨_, List.getElem?_concat_length⟩
  · exact Or.inl hnothing
  · exact Or.inl hnothing

/-- Where the `finally` stands after a call of `lease_lost`. -/
theorem lose_place (conn : Connection) (j : ℕ) (w : World) :
    (conn.lose j w).2.place = .closed ∨
      ∃ started, (conn.lose j w).2.place = .losing (.recover started .start) := by
  unfold Connection.lose
  split
  · exact Or.inl rfl
  · next operationId _ =>
    rcases call_leaseLost w operationId (some j) with hnone | ⟨started, hsome⟩
    · exact Or.inl (by simp only [hnone, Option.map_none, Option.getD_none])
    · exact Or.inr ⟨started, by simp only [hsome, Option.map_some, Option.getD_some]⟩

theorem ends_step {s : System} (h : Inv s) {j n : ℕ} (hends : Ends j n s) (a : Action) :
    Ends j (n - (a.advances j).toNat) (Control.step s a) := by
  obtain ⟨conn, hconn, hplace⟩ := hends
  have hstay : a.advances j = false →
      ∀ {conn' : Connection}, (Control.step s a).connections[j]? = some conn' →
        conn'.place = conn.place → Ends j (n - (a.advances j).toNat) (Control.step s a) :=
    fun ha conn' hconn' hsame => by
      rw [ha]
      exact ⟨conn', hconn', by rw [hsame]; exact hplace⟩
  have hplace' : conn.place = .closed ∨ conn.place = .ending ∨ ∃ pc, conn.place = .losing pc :=
    hplace.imp_right (Or.imp And.left fun ⟨pc, hpc, _⟩ => ⟨pc, hpc⟩)
  have hlt : j < s.connections.length := (List.getElem?_eq_some_iff.mp hconn).1
  have hother : ∀ (i : ℕ) (conn' : Connection), i ≠ j →
      (s.connections.set i conn')[j]? = some conn := fun i conn' hi => by
    rw [List.getElem?_set, if_neg hi]
    exact hconn
  have hself : ∀ conn' : Connection, (s.connections.set j conn')[j]? = some conn' := fun conn' => by
    rw [List.getElem?_set, if_pos rfl, if_pos hlt]
  have hact : ∀ i, a.connection? = some i →
      Control.step s a = (match s.connections[i]? with
        | none => s
        | some conn =>
          ⟨(conn.act i s.daemon a).1, s.connections.set i (conn.act i s.daemon a).2⟩) := by
    intro i ha
    cases a <;> cases ha <;> rfl
  cases ha : a.connection? with
  | none =>
    have hquiet : a.advances j = false := by cases a <;> first | rfl | cases ha
    refine hstay hquiet ?_ rfl
    cases a with
    | daemon a =>
      simp only [Control.step]
      split_ifs <;> exact hconn
    | accept own => exact (List.getElem?_append_left hlt).trans hconn
    | line | eof | lost | advance | sent => cases ha
  | some i =>
    by_cases hij : i = j
    · subst hij
      have hstep := hact i ha
      rw [hconn] at hstep
      cases hadvances : a.advances i with
      | false =>
        rw [← hadvances]
        have hsame : (Control.step s a).connections[i]? = some (conn.act i s.daemon a).2 := by
          rw [hstep]
          exact hself _
        exact hstay hadvances hsame (act_of_ends hplace' hadvances ha)
      | true =>
        obtain ⟨env, rfl⟩ : ∃ env, a = .advance i env := by
          cases a with
          | advance k env =>
            cases ha
            exact ⟨env, rfl⟩
          | daemon | accept | line | eof | lost | sent => cases hadvances
        rw [hstep]
        refine ⟨_, hself _, ?_⟩
        show (conn.advance i env s.daemon).2.place = .closed ∨ _
        have hsound := h.sound i conn hconn
        rcases hplace with hclosed | ⟨hending, hn⟩ | ⟨pc, hlosing, hn⟩
        · refine Or.inl ?_
          simp only [Connection.advance, hclosed]
        · have hlose : conn.advance i env s.daemon = conn.lose i s.daemon := by
            simp only [Connection.advance, hending]
          rw [show (conn.act i s.daemon (.advance i env)) = conn.lose i s.daemon from hlose, hlose]
          rcases lose_place conn i s.daemon with hclosed | ⟨started, hlosing⟩
          · exact Or.inl hclosed
          · refine Or.inr (Or.inr ⟨_, hlosing, ?_⟩)
            show 10 + 1 ≤ n - 1
            omega
        · unfold Connection.Sound at hsound
          rw [hlosing] at hsound
          by_cases hanswered : ∃ result, pc = .answered result
          · obtain ⟨result, rfl⟩ := hanswered
            refine Or.inl ?_
            simp only [Connection.advance, hlosing]
          · have hrun : (conn.advance i env s.daemon).2.place =
                .losing (Maintenance.advance (conn.answer env pc) s.daemon.coordinator pc).2 := by
              unfold Connection.advance
              simp only [hlosing]
              split
              all_goals first
                | rfl
                | (next heq => cases heq; exact absurd ⟨_, rfl⟩ hanswered)
                | (next heq => cases heq; rfl)
                | (next heq => cases heq)
            refine Or.inr (Or.inr ⟨_, hrun, ?_⟩)
            have := left_advance (conn.answer env pc) s.daemon.coordinator hsound.2.1
              (fun result hr => hanswered ⟨result, hr⟩) (fun _ _ _ hpc => by subst hpc; rfl)
              fun _ _ hpc => by subst hpc; rfl
            show _ ≤ n - 1
            omega
    · have hquiet : a.advances j = false := by
        cases a with
        | advance k env =>
          cases ha
          exact decide_eq_false hij
        | daemon | accept | line | eof | lost | sent => rfl
      refine hstay hquiet ?_ rfl
      rw [hact i ha]
      cases s.connections[i]? with
      | none => exact hconn
      | some other => exact hother i _ hij

/-! ## The lease of one connection -/

/-- What a maintenance lease is to its connection. -/
structure Exclusive (s : System) : Prop where
  /-- The coordinator is prepared for exactly one open connection. -/
  one : s.daemon.coordinator.state = .prepared →
    ∃ (j : ℕ) (conn : Connection) (operationId : Text), s.connections[j]? = some conn ∧
      conn.place ≠ .closed ∧ conn.accepted = some operationId ∧
      ∀ (i : ℕ) other, s.connections[i]? = some other → other.accepted ≠ none → i = j
  /-- `assert_prepared`, and so the check of `reopen`, succeeds for that connection and operation
  only. -/
  asserts : ∀ (j : ℕ) operationId,
    s.daemon.coordinator.assertPrepared operationId (some j) = true →
      s.daemon.coordinator.state = .prepared ∧ ∃ conn, s.connections[j]? = some conn ∧
        conn.place ≠ .closed ∧ conn.accepted = some operationId
  /-- A `reopen` that is not turned away is of the operation of the connection's own prepare. -/
  reopens : ∀ (j : ℕ) conn operationId pc, s.connections[j]? = some conn →
    conn.place = .reopening operationId pc →
      pc = .answered .operationIdMismatch ∨ conn.operationId = some operationId
  /-- A closed connection is not the one for which the coordinator is prepared. -/
  closed : ∀ (j : ℕ) conn, s.connections[j]? = some conn → conn.place = .closed →
    s.daemon.coordinator.state = .prepared → s.daemon.coordinator.leaseId ≠ some j
  /-- A connection in its `finally` is closed when its thread has taken twelve steps. -/
  ends : ∀ (j : ℕ) conn, s.connections[j]? = some conn → conn.place = .ending →
    ∀ acts : List Action, 12 ≤ acts.countP (Action.advances j) →
      ((run step s acts).connections[j]?).map Connection.place = some .closed
  /-- A prepare that is rejected leaves the coordinator alone. -/
  rejected : ∀ (j : ℕ) operationId expectUnreadable, s.daemon.coordinator.admits = false →
    (step s (.line j (.prepare operationId expectUnreadable))).daemon.coordinator =
      s.daemon.coordinator
  /-- So does whatever a connection does that has not got the lease. -/
  others : s.daemon.coordinator.state = .preparing ∨ s.daemon.coordinator.state = .prepared →
    ∀ (a : Action) j, a.connection? = some j → s.daemon.coordinator.leaseId ≠ some j →
      Untouched s.daemon.coordinator (step s a).daemon.coordinator

theorem ends_run {s : System} (h : Inv s) {j n : ℕ} (hends : Ends j n s) (acts : List Action) :
    Ends j (n - acts.countP (Action.advances j)) (run step s acts) := by
  induction acts generalizing s n with
  | nil => exact hends
  | cons a acts ih =>
    have := ih (h.step a) (ends_step h hends a)
    rw [Nat.sub_sub] at this
    rw [run_cons, List.countP_cons]
    have hcount : (if a.advances j = true then 1 else 0) = (a.advances j).toNat := by
      cases a.advances j <;> rfl
    rw [hcount, Nat.add_comm]
    exact this

/-- **A maintenance lease belongs to one live connection.**  Over every run of the daemon with its
control connections: the coordinator is prepared for exactly one open connection, no other one's
assertion or reopening succeeds, the end of that connection takes the coordinator out of `prepared`
in a bounded number of steps, and neither a rejected prepare nor another connection touches the
lease. -/
theorem lease_exclusive (auto : Bool) (env : Env) (acts : List Action) :
    Exclusive (run step (started auto env) acts) := by
  have h := inv_run auto env acts
  generalize run step (started auto env) acts = s at h
  refine ⟨fun hstate => ?_, fun j operationId hasserts => ?_,
    fun j conn operationId pc hj hplace => ?_, fun j conn hj hplace hstate hlease => ?_, fun j conn hj hplace acts hcount => ?_,
    fun j operationId expectUnreadable hadmits => ?_, fun hstate a j ha hlease =>
      h.untouched ha hstate hlease⟩
  · obtain ⟨j, conn, operationId, hj, hopen, haccepted, hown⟩ := h.holder hstate
    refine ⟨j, conn, operationId, hj, hopen, haccepted, fun i other hi hother => ?_⟩
    by_contra hne
    refine hother ((h.accepted_eq hi hstate).symm.trans ?_)
    refine h.stake_eq_none hi (Or.inr hstate) fun hlease => hne ?_
    exact Option.some.inj (hlease.symm.trans hown.2)
  · obtain ⟨hstate, hid, hlease⟩ : s.daemon.coordinator.state = .prepared ∧
        some operationId = s.daemon.coordinator.operationId ∧
        some j = s.daemon.coordinator.leaseId := by
      simpa [Coordinator.assertPrepared, Coordinator.owns] using hasserts
    obtain ⟨i, conn, operationId', hi, hopen, haccepted, hown⟩ := h.holder hstate
    obtain rfl : i = j := Option.some.inj (hown.2.symm.trans hlease.symm)
    obtain rfl : operationId' = operationId := Option.some.inj (hown.1.symm.trans hid.symm)
    exact ⟨hstate, conn, hi, hopen, haccepted⟩
  · have hsound := h.sound j conn hj
    unfold Connection.Sound at hsound
    rw [hplace] at hsound
    rcases hsound with hmismatch | ⟨hoperation, -⟩
    · exact Or.inl (answered_of_mismatch hmismatch)
    · exact Or.inr hoperation
  · obtain ⟨i, other, operationId, hi, hopen, -, hown⟩ := h.holder hstate
    obtain rfl : i = j := Option.some.inj (hown.2.symm.trans hlease)
    cases hi.symm.trans hj
    exact hopen hplace
  · obtain ⟨conn', hconn', hends⟩ := ends_run h
      ⟨conn, hj, Or.inr (Or.inl ⟨hplace, le_rfl⟩)⟩ acts
    have hzero : 12 - acts.countP (Action.advances j) = 0 := Nat.sub_eq_zero_of_le hcount
    rw [hzero] at hends
    rw [hconn', Option.map_some]
    rcases hends with hclosed | ⟨-, hle⟩ | ⟨pc, -, hle⟩
    · rw [hclosed]
    · exact absurd hle (by decide)
    · exact absurd hle (Nat.not_succ_le_zero _)
  · simp only [step, Action.connection?]
    cases hj : s.connections[j]? with
    | none => rfl
    | some conn =>
      simp only [Connection.act]
      split_ifs
      · simp only [Connection.read, call, Maintenance.step, hadmits]
        rfl
      · rfl

/-- One connection prepares a daemon without a store. -/
example :
    (run step (started false {}) (.accept true :: .line 0 (.prepare (ascii "op") false) ::
      List.replicate 9 (.advance 0 { present := false }))).daemon.coordinator.state =
        .prepared := by
  decide +kernel

end Control
end Maintenance
end SemanticMemory
