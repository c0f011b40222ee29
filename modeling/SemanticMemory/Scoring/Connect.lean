import Mathlib.Data.Int.Order.Basic
import SemanticMemory.Lib.Runs

/-!
# Connecting under a deadline

`ConnectNonBlockingWithDeadline` and `WaitFor` of `src/llm_scorer.cc`: the socket does not block, and
one absolute deadline holds for all of its calls.

* Every step asks the outside world for one thing, the clock or the result of one call of
  `ConnectSyscalls`, and any answer may come.
* The trace is what was asked for and what came, in order.  The file descriptor and the address are
  the same in every call and are left out.

## Results

* `connect_sound`: a connection is reported only when there is one, `Connect` is not called again
  while one is in progress, an interrupted call is no error, and nothing is called once the clock has
  shown the deadline.
-/

namespace SemanticMemory.Connect

open Runs (run)

/-! ## Answers -/

/-- An `errno`. -/
inductive Errno where
  | none | intr | again | wouldBlock | inProgress | already | isConn
  | other (code : ℤ)
  deriving DecidableEq

structure SocketCallResult where
  result : ℤ
  error : Errno
  deriving DecidableEq

inductive NonBlockingConnectStatus where
  | connected | timeout | error
  deriving DecidableEq

/-- What the outside world answers to whatever is asked. -/
structure Answer where
  /-- `steady_clock::now()`, in nanoseconds. -/
  now : ℤ
  call : SocketCallResult
  /-- `*returned_events` after `Poll`. -/
  returnedEvents : BitVec 16
  /-- `*socket_error` after `GetSocketError`. -/
  socketError : Errno

/-- `POLLOUT | POLLHUP | POLLERR`. -/
def awaitedEvents : BitVec 16 := 0x4 ||| 0x10 ||| 0x8

/-! ## The function -/

/-- What is asked for next. -/
inductive Pc where
  /-- The clock, at the head of the loop. -/
  | loop (completionPending : Bool)
  | connect
  /-- The clock, in `WaitFor`. -/
  | waitFor (completionPending : Bool)
  | poll (completionPending : Bool) (timeoutMs : BitVec 32)
  | getSocketError
  /-- The clock, after a `GetSocketError` that failed. -/
  | retry
  | returned (status : NonBlockingConnectStatus)
  deriving DecidableEq

/-- The call: a null `syscalls` is refused. -/
def Pc.start (syscalls : Bool) : Pc := if syscalls then .loop false else .returned .error

/-- `duration_cast<milliseconds>` of the nanoseconds that remain. -/
def remaining (deadline now : ℤ) : ℤ := (deadline - now).tdiv 1000000

/-- What comes after an answer. -/
def Pc.next (deadline : ℤ) (a : Answer) : Pc → Pc
  | .loop completionPending =>
    if a.now < deadline then if completionPending then .waitFor true else .connect
    else .returned .timeout
  | .connect =>
    if a.call.result = 0 ∨ a.call.error = .isConn then .returned .connected
    else if a.call.error = .again ∨ a.call.error = .wouldBlock then .waitFor false
    else if a.call.error ≠ .intr ∧ a.call.error ≠ .inProgress ∧ a.call.error ≠ .already then
      .returned .error
    else .waitFor true
  | .waitFor completionPending =>
    if remaining deadline a.now ≤ 0 then .returned .timeout
    else .poll completionPending (BitVec.ofInt 32 (remaining deadline a.now))
  | .poll completionPending _ =>
    if 0 < a.call.result then
      if a.returnedEvents &&& awaitedEvents ≠ 0 then
        if completionPending then .getSocketError else .loop false
      else .returned .error
    else if a.call.result = 0 then .returned .timeout
    else if a.call.error ≠ .intr then .returned .error
    else .waitFor completionPending
  | .getSocketError =>
    if a.call.result = 0 then
      if a.socketError = .none ∨ a.socketError = .isConn then .returned .connected
      else if a.socketError ≠ .inProgress ∧ a.socketError ≠ .already ∧
          a.socketError ≠ .again ∧ a.socketError ≠ .wouldBlock then .returned .error
      else .loop true
    else if a.call.error ≠ .intr ∧ a.call.error ≠ .again ∧ a.call.error ≠ .wouldBlock then
      .returned .error
    else .retry
  | .retry => if deadline ≤ a.now then .returned .timeout else .getSocketError
  | .returned status => .returned status

/-- What has been asked for, and what came. -/
inductive Event where
  | clock (now : ℤ)
  | connect (call : SocketCallResult)
  | poll (timeoutMs : BitVec 32) (call : SocketCallResult) (returnedEvents : BitVec 16)
  | getSocketError (call : SocketCallResult) (socketError : Errno)
  deriving DecidableEq

def Pc.event (a : Answer) : Pc → Option Event
  | .loop _ | .waitFor _ | .retry => some (.clock a.now)
  | .connect => some (.connect a.call)
  | .poll _ timeoutMs => some (.poll timeoutMs a.call a.returnedEvents)
  | .getSocketError => some (.getSocketError a.call a.socketError)
  | .returned _ => none

structure State where
  pc : Pc
  trace : List Event := []

def step (deadline : ℤ) (s : State) (a : Answer) : State where
  pc := s.pc.next deadline a
  trace := s.trace ++ (s.pc.event a).toList

/-! ## What is promised -/

/-- A call fails with `EINTR`. -/
def SocketCallResult.interrupted (call : SocketCallResult) : Bool :=
  call.result < 0 && call.error = .intr

def Event.interrupted : Event → Bool
  | .clock _ => false
  | .connect call | .poll _ call _ | .getSocketError call _ => call.interrupted

/-- A `Connect` that leaves the connection in progress. -/
def Event.begins : Event → Bool
  | .connect call => call.result ≠ 0 &&
      (call.error = .intr || call.error = .inProgress || call.error = .already)
  | _ => false

/-- A call of `ConnectSyscalls`. -/
def Event.isCall : Event → Bool
  | .clock _ => false
  | _ => true

def Event.isConnect : Event → Bool
  | .connect _ => true
  | _ => false

def Event.late (deadline : ℤ) : Event → Bool
  | .clock now => deadline ≤ now
  | _ => false

/-- The socket is reported ready. -/
def Event.ready : Event → Bool
  | .poll _ call returnedEvents => 0 < call.result && returnedEvents &&& awaitedEvents ≠ 0
  | _ => false

/-- A `GetSocketError` that fails, or the clock that is read after it. -/
def Event.retries : Event → Bool
  | .clock _ => true
  | .getSocketError call _ => call.result ≠ 0
  | _ => false

/-- The socket was reported ready, and nothing but its error was asked for since. -/
def Readied (trace : List Event) : Prop :=
  ∃ before poll since, trace = before ++ poll :: since ∧ poll.ready = true ∧
    ∀ e ∈ since, e.retries = true

/-- There is a connection: a `Connect` has succeeded, or the socket was ready and had no error. -/
inductive Completed : List Event → Prop where
  | connect (before : List Event) (call : SocketCallResult)
      (h : call.result = 0 ∨ call.error = .isConn) : Completed (before ++ [.connect call])
  | socketError {before : List Event} (call : SocketCallResult) (socketError : Errno)
      (hready : Readied before) (hcall : call.result = 0)
      (h : socketError = .none ∨ socketError = .isConn) :
      Completed (before ++ [.getSocketError call socketError])

/-- **The law of a connect**, in a state that it has come to. -/
structure Sound (deadline : ℤ) (s : State) : Prop where
  connected : s.pc = .returned .connected → Completed s.trace
  once : s.trace.Pairwise fun e e' => e.begins = true → e'.isConnect = false
  interrupted : ∀ e ∈ s.trace.getLast?, e.interrupted = true → s.pc ≠ .returned .error
  /-- Nothing comes after a reading past the deadline, neither a call nor another reading. -/
  last : s.trace.Pairwise fun e _ => e.late deadline = false
  late : ∀ e ∈ s.trace, e.late deadline = true → s.pc = .returned .timeout

/-! ## One step -/

/-- From here `Connect` may be called. -/
def Pc.mayConnect : Pc → Bool
  | .loop completionPending | .waitFor completionPending | .poll completionPending _ =>
    !completionPending
  | .connect => true
  | _ => false

/-- What an answer can lead to. -/
inductive Moves (deadline : ℤ) : Pc → Event → Pc → Prop where
  | connects (h : now < deadline) : Moves deadline (.loop false) (.clock now) .connect
  | resumes (h : now < deadline) : Moves deadline (.loop true) (.clock now) (.waitFor true)
  | waits (h : now < deadline) : Moves deadline (.waitFor p) (.clock now) (.poll p ms)
  | asks (h : now < deadline) : Moves deadline .retry (.clock now) .getSocketError
  | expires : Moves deadline pc (.clock now) (.returned .timeout)
  | connected (h : call.result = 0 ∨ call.error = .isConn) :
    Moves deadline .connect (.connect call) (.returned .connected)
  | full (h : call.error = .again ∨ call.error = .wouldBlock) :
    Moves deadline .connect (.connect call) (.waitFor false)
  | begins : Moves deadline .connect (.connect call) (.waitFor true)
  | free : Moves deadline (.poll false ms) (.poll ms call events) (.loop false)
  | ready (h : (Event.poll ms call events).ready = true) :
    Moves deadline (.poll true ms) (.poll ms call events) .getSocketError
  | polled : Moves deadline (.poll p ms) (.poll ms call events) (.returned .timeout)
  | polls : Moves deadline (.poll p ms) (.poll ms call events) (.waitFor p)
  | sound (hcall : call.result = 0) (h : socketError = .none ∨ socketError = .isConn) :
    Moves deadline .getSocketError (.getSocketError call socketError) (.returned .connected)
  | pending : Moves deadline .getSocketError (.getSocketError call socketError) (.loop true)
  | retries (hcall : call.result ≠ 0) :
    Moves deadline .getSocketError (.getSocketError call socketError) .retry
  | fails (hclock : e.isCall = true) (h : e.interrupted = false) :
    Moves deadline pc e (.returned .error)

variable {deadline : ℤ} {pc : Pc} {a : Answer} {e : Event}

theorem remaining_nonpos {now : ℤ} (h : deadline ≤ now) : remaining deadline now ≤ 0 := by
  have hle := Int.tdiv_le_tdiv (a := deadline - now) (b := 0) (c := 1000000) (by decide) (by omega)
  rwa [Int.zero_tdiv] at hle

theorem not_interrupted {call : SocketCallResult} (h : 0 ≤ call.result ∨ call.error ≠ .intr) :
    call.interrupted = false := by
  unfold SocketCallResult.interrupted
  rcases h with h | h
  · rw [decide_eq_false (not_lt.mpr h), Bool.false_and]
  · rw [decide_eq_false h, Bool.and_false]

theorem moves (he : pc.event a = some e) : Moves deadline pc e (pc.next deadline a) := by
  cases pc with
  | loop p =>
    cases he
    simp only [Pc.next]
    split
    · next hnow =>
      cases p with
      | false => exact .connects hnow
      | true => exact .resumes hnow
    · exact .expires
  | connect =>
    cases he
    simp only [Pc.next]
    split
    · next hdone => exact .connected hdone
    split
    · next hfull => exact .full hfull
    split
    · next hother => exact .fails rfl (not_interrupted (Or.inr hother.1))
    · exact .begins
  | waitFor p =>
    cases he
    rw [Pc.next]
    split
    · exact .expires
    · next hleft => exact .waits (not_le.mp fun hle => hleft (remaining_nonpos hle))
  | poll p ms =>
    cases he
    simp only [Pc.next]
    split
    · next hpos =>
      split
      · next hevents =>
        cases p with
        | false => exact .free
        | true => exact .ready (by rw [Event.ready, decide_eq_true hpos, decide_eq_true hevents]; rfl)
      · exact .fails rfl (not_interrupted (Or.inl hpos.le))
    split
    · exact .polled
    split
    · next hother => exact .fails rfl (not_interrupted (Or.inr hother))
    · exact .polls
  | getSocketError =>
    cases he
    simp only [Pc.next]
    split
    · next hzero =>
      split
      · next hnone => exact .sound hzero hnone
      split
      · exact .fails rfl (not_interrupted (Or.inl hzero.ge))
      · exact .pending
    · next hfailed =>
      split
      · next hother => exact .fails rfl (not_interrupted (Or.inr hother.1))
      · exact .retries hfailed
  | retry =>
    cases he
    simp only [Pc.next]
    split
    · exact .expires
    · next hnow => exact .asks (not_le.mp hnow)
  | returned status => cases he

theorem connect_of_event (he : pc.event a = some e) (h : e.isConnect = true) : pc = .connect := by
  cases pc <;> cases he <;> first | rfl | cases h

section Moves

variable {pc' : Pc} (hm : Moves deadline pc e pc')
include hm

/-- A reading past the deadline ends the call. -/
theorem Moves.late (h : e.late deadline = true) : pc' = .returned .timeout := by
  cases hm with
  | expires => rfl
  | connects hnow | resumes hnow | waits hnow | asks hnow =>
    exact absurd (of_decide_eq_true h) (not_le.mpr hnow)
  | fails hcall => cases e <;> first | cases h | cases hcall
  | _ => cases h

theorem Moves.interrupted (h : e.interrupted = true) : pc' ≠ .returned .error := by
  rintro rfl
  cases hm with
  | fails _ hno => exact absurd (hno.symm.trans h) (by decide)

/-- Where `Connect` may be called next, it could be called before, and nothing has begun. -/
theorem Moves.fresh (h : pc'.mayConnect = true) : pc.mayConnect = true ∧ e.begins = false := by
  cases hm with
  | connects => exact ⟨rfl, rfl⟩
  | waits => exact ⟨h, rfl⟩
  | full hfull => exact ⟨rfl, by rcases hfull with herror | herror <;> simp [Event.begins, herror]⟩
  | free => exact ⟨rfl, rfl⟩
  | polls => exact ⟨h, rfl⟩
  | _ => cases h

/-- The error of the socket is asked for once the socket is ready, and again while that fails. -/
theorem Moves.asks_for (h : pc' = .getSocketError ∨ pc' = .retry) :
    e.ready = true ∨ (pc = .getSocketError ∨ pc = .retry) ∧ e.retries = true := by
  cases hm with
  | asks => exact Or.inr ⟨Or.inr rfl, rfl⟩
  | ready hready => exact Or.inl hready
  | retries hcall => exact Or.inr ⟨Or.inl rfl, decide_eq_true hcall⟩
  | _ => rcases h with h | h <;> cases h

theorem Moves.completed {trace : List Event} (h : pc' = .returned .connected)
    (hready : pc = .getSocketError ∨ pc = .retry → Readied trace) : Completed (trace ++ [e]) := by
  subst h
  cases hm with
  | connected hdone => exact .connect trace _ hdone
  | sound hcall hnone => exact .socketError _ _ (hready (Or.inl rfl)) hcall hnone

end Moves

/-- What the law rests on: `Connect` may be called only while nothing has begun, and the error of
the socket is asked for only once it is ready. -/
structure Inv (deadline : ℤ) (s : State) : Prop extends Sound deadline s where
  fresh : s.pc.mayConnect = true → ∀ e ∈ s.trace, e.begins = false
  readied : s.pc = .getSocketError ∨ s.pc = .retry → Readied s.trace

variable {s : State}

theorem Inv.event (h : Inv deadline s) (he : s.pc.event a = some e) :
    Inv deadline ⟨s.pc.next deadline a, s.trace ++ [e]⟩ := by
  have hm : Moves deadline s.pc e (s.pc.next deadline a) := moves he
  have hnone : ∀ e ∈ s.trace, e.late deadline = false := fun e' he' => by
    by_contra hlate
    rw [h.late e' he' (Bool.not_eq_false _ ▸ hlate)] at he
    cases he
  refine ⟨⟨fun hpc => hm.completed hpc h.readied, ?_, fun e' he' hi => ?_, ?_, fun e' he' hl => ?_⟩,
    fun hmay => ?_, fun hasks => ?_⟩
  · refine List.pairwise_append.mpr ⟨h.once, List.pairwise_singleton _ _, fun e' he' x hx hb => ?_⟩
    obtain rfl := List.mem_singleton.mp hx
    by_contra hconnect
    have hpc := connect_of_event he (Bool.not_eq_false _ ▸ hconnect)
    exact absurd ((h.fresh (by rw [hpc]; rfl) e' he').symm.trans hb) (by decide)
  · obtain rfl : e = e' := by simpa using he'
    exact hm.interrupted hi
  · exact List.pairwise_append.mpr ⟨h.last, List.pairwise_singleton _ _, fun e' he' _ _ => hnone e' he'⟩
  · rcases List.mem_append.mp he' with he' | he'
    · exact absurd ((hnone e' he').symm.trans hl) (by decide)
    · obtain rfl := List.mem_singleton.mp he'
      exact hm.late hl
  · obtain ⟨hbefore, hbegins⟩ := hm.fresh hmay
    intro e' he'
    rcases List.mem_append.mp he' with he' | he'
    · exact h.fresh hbefore e' he'
    · rwa [List.mem_singleton.mp he']
  · rcases hm.asks_for hasks with hready | ⟨hbefore, hretries⟩
    · exact ⟨s.trace, e, [], rfl, hready, List.forall_mem_nil _⟩
    · obtain ⟨before, poll, since, htrace, hready, hsince⟩ := h.readied hbefore
      refine ⟨before, poll, since ++ [e], by rw [htrace]; simp, hready, fun x hx => ?_⟩
      rcases List.mem_append.mp hx with hx | hx
      · exact hsince x hx
      · rwa [List.mem_singleton.mp hx]

/-- **One step keeps the law.** -/
theorem inv_step (h : Inv deadline s) (a : Answer) : Inv deadline (step deadline s a) := by
  cases he : s.pc.event a with
  | some e =>
    have hstep : step deadline s a = ⟨s.pc.next deadline a, s.trace ++ [e]⟩ := by
      rw [step, he]
      rfl
    exact hstep ▸ h.event he
  | none =>
    obtain ⟨pc, trace⟩ := s
    cases pc with
    | returned status =>
      have hstep : step deadline ⟨.returned status, trace⟩ a = ⟨.returned status, trace⟩ := by
        rw [step, he]
        exact congrArg _ (List.append_nil trace)
      rw [hstep]
      exact h
    | _ => cases he

theorem inv_start (syscalls : Bool) : Inv deadline ⟨.start syscalls, []⟩ := by
  cases syscalls <;>
    exact ⟨⟨by rintro ⟨⟩, .nil, by rintro _ ⟨⟩, .nil, by rintro _ ⟨⟩⟩,
      fun _ => by rintro _ ⟨⟩, fun h => by rcases h with h | h <;> cases h⟩

/-! ## The end -/

/-- How many questions there are at most before the clock is read. -/
def Pc.distance : Pc → ℕ
  | .returned _ => 0
  | .loop _ | .waitFor _ | .retry => 1
  | .connect | .getSocketError => 2
  | .poll .. => 3

theorem Pc.distance_le (pc : Pc) : pc.distance ≤ 3 := by
  cases pc <;> exact Nat.le_of_ble_eq_true rfl

/-- Past the deadline every answer leads nearer to the end. -/
theorem distance_next (h : deadline ≤ a.now) :
    (pc.next deadline a).distance ≤ pc.distance - 1 := by
  cases he : pc.event a with
  | none =>
    cases pc with
    | returned status => exact Nat.le_refl 0
    | _ => cases he
  | some e =>
    have hclock (now : ℤ) (hpc : e = .clock now) : now = a.now := by
      subst hpc
      cases pc <;> cases he <;> rfl
    have hm : Moves deadline pc e (pc.next deadline a) := moves he
    generalize pc.next deadline a = pc' at hm
    cases hm with
    | connects hnow | resumes hnow | waits hnow | asks hnow =>
      rw [hclock _ rfl] at hnow
      exact absurd hnow (not_lt.mpr h)
    | expires | fails | polled | connected | sound => exact Nat.zero_le _
    | _ => exact Nat.le_of_ble_eq_true rfl

/-- **Once the clock stays past the deadline the call returns**, after three answers at most. -/
theorem returns (s : State) {late : List Answer} (hlate : ∀ a ∈ late, deadline ≤ a.now)
    (hlength : s.pc.distance ≤ late.length) :
    ∃ status, (run (step deadline) s late).pc = .returned status := by
  induction late generalizing s with
  | nil =>
    obtain ⟨pc, trace⟩ := s
    cases pc with
    | returned status => exact ⟨status, rfl⟩
    | _ => cases hlength
  | cons a late ih =>
    refine ih (step deadline s a) (fun b hb => hlate b (List.mem_cons_of_mem _ hb)) ?_
    have hnext : (s.pc.next deadline a).distance ≤ s.pc.distance - 1 :=
      distance_next (hlate a (List.mem_cons_self ..))
    have hlength' : s.pc.distance ≤ late.length + 1 := hlength
    show (s.pc.next deadline a).distance ≤ late.length
    omega

/-- **A connect under a deadline**, whatever the calls give back and the clock shows: the law holds
in every state, and once the clock stays past the deadline the call returns within three answers. -/
theorem connect_sound (syscalls : Bool) (deadline : ℤ) (answers : List Answer) :
    Sound deadline (run (step deadline) ⟨.start syscalls, []⟩ answers) ∧
      ∀ late : List Answer, (∀ a ∈ late, deadline ≤ a.now) → 3 ≤ late.length →
        ∃ status, (run (step deadline) ⟨.start syscalls, []⟩ (answers ++ late)).pc =
          .returned status := by
  have hinv : Inv deadline (run (step deadline) ⟨.start syscalls, []⟩ answers) :=
    Runs.run_invariant (I := Inv deadline) (fun _ a h => inv_step h a) (inv_start syscalls) answers
  refine ⟨hinv.toSound, fun late hlate hlength => ?_⟩
  rw [Runs.run_append]
  refine returns _ hlate (Nat.le_trans ?_ hlength)
  exact Pc.distance_le _

end SemanticMemory.Connect
