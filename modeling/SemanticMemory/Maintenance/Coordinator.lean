import SemanticMemory.Basic
import SemanticMemory.Lib.Runs

/-!
# The maintenance coordinator

`MaintenanceCoordinator` (`daemon/coordinator.py`) hands out request leases and fact handles while
the daemon serves, quiesces the daemon for a maintenance (`prepare`) and brings it back (`reopen`,
or the loss of the control lease).

## What is modelled, and how

* A running method is a `Pc`: the place in its code where it stands, with its locals.  The code
  between two places is one critical section of `_condition`, or one call of code that is not the
  coordinator's, and everything else may happen in between.  A `wait` is a place that the method
  comes back to.
* The outcomes of the calls (the handle factory, the builders, the identity reads, the recovery
  object) and the order in which a set is enumerated are answers of the environment, an `Env`.
* `FactHandle.close` releases the lease first and tells the registry afterwards; a second `close`
  returns at once.  `_prepare_failure` is called both with the lock held, where it is one step, and
  without.
* A request lease is completed once, by the transport that owns it.
* `prepares` and `recovering` are history: how many prepares have left `serving`, and whether a
  recovery has begun since the last of them.
* The results of `health` and the hook for tests are left out.
-/

namespace SemanticMemory
namespace Maintenance

/-! ## The state -/

inductive State where
  | serving | preparing | prepared | blocked | catchingUp
  deriving DecidableEq

/-- The codes of a blocked coordinator; `raised` is the code of an error of the handle factory. -/
inductive Code where
  | factHandleUnverifiable | epochUnverifiable | factHandleCloseFailed | builderNotQuiesceable
  | builderNotIdle | builderQuiesceFailed | controlLeaseLost | coordinatorClosed
  | epochRecoveryFailed | epochChangedDuringRecovery
  | raised (code : Text)
  deriving DecidableEq

/-- What an identity read returns. -/
structure Identity where
  storeEpoch : Text
  hlcPhysicalMs : ℤ
  hlcLogical : ℤ
  deriving DecidableEq

def epochAlphabet : Text :=
  ascii "abcdefghijklmnopqrstuvwxyzABCDEFGHIJKLMNOPQRSTUVWXYZ0123456789-_"

/-- `_valid_identity`. -/
def Identity.valid (identity : Identity) : Bool :=
  1 ≤ identity.storeEpoch.length && identity.storeEpoch.length ≤ 64 &&
    (identity.storeEpoch.all fun c => c ∈ epochAlphabet) &&
    0 ≤ identity.hlcPhysicalMs && 0 ≤ identity.hlcLogical

/-- `MaintenanceCoordinator`, with the fact handles of the process.  A handle is a number. -/
structure Coordinator where
  state : State := .serving
  blockCode : Option Code := none
  closed : Bool := false
  prepareActive : Bool := false
  operationId : Option Text := none
  leaseId : Option ℕ := none
  requests : ℕ := 0
  openingHandles : ℕ := 0
  handles : List ℕ := []
  builders : List ℕ := []
  preparedEpoch : Option Text := none
  activeDerivedEpoch : Option Text := none
  targetEpoch : Option Text := none
  nextHandle : ℕ := 0
  /-- The handles that are not closed. -/
  unclosed : List ℕ := []
  /-- The handles that hold a shared lease. -/
  leases : List ℕ := []
  /-- How many prepares have left `serving`. -/
  prepares : ℕ := 0
  /-- A recovery has begun since the last prepare left `serving`. -/
  recovering : Bool := false

/-- What the outside world answers in one stretch of code. -/
structure Env where
  /-- The call raises, with this code if it has one. -/
  raised : Bool := false
  code : Option Text := none
  /-- The factory's handle is a `FactHandle` that holds its lease. -/
  usable : Bool := true
  /-- `lease_alive()`. -/
  alive : Bool := true
  /-- `facts.sqlite3` exists. -/
  present : Bool := true
  /-- What an identity read returns, nothing when it raises. -/
  identity : Option Identity := none
  /-- The order in which a set is enumerated. -/
  order : List ℕ := []
  /-- The builder can be told to stop. -/
  stoppable : Bool := true
  /-- `wait_idle()` exists and does not return `False`. -/
  idle : Bool := true

/-- A set in the order in which it is enumerated. -/
def Env.enumerate (env : Env) (set : List ℕ) : List ℕ :=
  if env.order.Perm set then env.order else set

@[simp] theorem Env.mem_enumerate {env : Env} {set : List ℕ} {x : ℕ} :
    x ∈ env.enumerate set ↔ x ∈ set := by
  unfold Env.enumerate
  split
  · next h => exact h.mem_iff
  · rfl

/-- `set.add`. -/
def add (x : ℕ) (set : List ℕ) : List ℕ := if x ∈ set then set else set ++ [x]

/-- `set.discard`. -/
def discard (x : ℕ) (set : List ℕ) : List ℕ := set.filter fun y => y ≠ x

@[simp] theorem mem_add {x y : ℕ} {set : List ℕ} : y ∈ add x set ↔ y = x ∨ y ∈ set := by
  unfold add
  split
  · next h => exact ⟨Or.inr, fun hy => hy.elim (fun hyx => hyx ▸ h) id⟩
  · rw [List.mem_append, List.mem_singleton, or_comm]

@[simp] theorem mem_discard {x y : ℕ} {set : List ℕ} : y ∈ discard x set ↔ y ∈ set ∧ y ≠ x := by
  simp [discard]

def Coordinator.block (code : Code) (c : Coordinator) : Coordinator :=
  { c with state := .blocked, blockCode := some code }

/-- A new handle of the factory. -/
def Coordinator.openHandle (usable : Bool) (c : Coordinator) : Coordinator :=
  { c with
    nextHandle := c.nextHandle + 1
    unclosed := c.unclosed ++ [c.nextHandle]
    leases := if usable then c.leases ++ [c.nextHandle] else c.leases }

/-- The first half of `FactHandle.close`. -/
def Coordinator.release (h : ℕ) (c : Coordinator) : Coordinator :=
  { c with unclosed := discard h c.unclosed, leases := discard h c.leases }

/-- `_prepare_failure` with the lock held.  A handle that another thread is closing stays in the
registry until that thread has told it. -/
def Coordinator.prepareFailure (code : Code) (c : Coordinator) : Coordinator :=
  { c with
    handles := c.handles.filter fun h => h ∉ c.unclosed
    unclosed := c.unclosed.filter fun h => h ∉ c.handles
    leases := c.leases.filter fun h => h ∉ c.handles
    builders := [] }.block code

/-! ## The methods, running -/

/-- The locals of `prepare`. -/
structure Prepare where
  expectUnreadable : Bool
  drainedRequests : ℕ
  builders : ℕ := 0
  handles : ℕ := 0
  deriving DecidableEq

/-- What `prepare` returns.  `inProgress` is the refusal, which has not left `serving`. -/
inductive PrepareResult where
  | inProgress
  | failed (code : Option Code) (state : State)
  | prepared (drainedRequests closedHandles builderStopped : ℕ) (identity : Option Identity)
  deriving DecidableEq

/-- What `reopen` and `_recover` return. -/
inductive RecoverResult where
  | operationIdMismatch
  | blocked (code : Code)
  | recovered (state : State) (storeEpoch : Option Text)
  deriving DecidableEq

/-- Where `prepare` stands; the last three places are `_prepare_failure`. -/
inductive PreparePc where
  | wait
  | builders
  | builder (todo : List ℕ)
  | stop (b : ℕ) (todo : List ℕ)
  | waitIdle (b : ℕ) (todo : List ℕ)
  | unregister (b : ℕ) (todo : List ℕ)
  | handles
  | drained
  | identity
  | final (identity : Option Identity)
  | failureHandles (code : Code)
  | failureBuilders (code : Code)
  | failureBlock (code : Code)
  deriving DecidableEq

/-- Where `_recover` stands. -/
inductive RecoverPc where
  | start
  | identity
  | count
  | openHandle
  | opened (handle : Option ℕ) (identity : Option Identity)
  | check (handle : Option ℕ) (identity : Identity)
  | finish (handle : Option ℕ) (identity : Identity)
  | pristine
  | invalidate (previous : Option Text) (target : Text)
  | rebuild (target : Text)
  | state (target : Text)
  | failed
  deriving DecidableEq

/-- What follows when handles are closed one after the other. -/
inductive Then where
  | done
  /-- `open_fact_handle`, with a handle it rejects. -/
  | rejected
  /-- `prepare`, with the handles of the registry. -/
  | prepare (p : Prepare)
  /-- `_prepare_failure`. -/
  | failure (p : Prepare) (code : Code)
  | block (code : Code)
  deriving DecidableEq

/-- Where a running method stands. -/
inductive Pc where
  /-- A request lease is out. -/
  | request
  | openFactory
  | openFailed
  | openOpened (h : ℕ)
  | openBlock
  | openRejected
  | opened (h : ℕ)
  | prepare (p : Prepare) (pc : PreparePc)
  /-- The `finally` of `prepare`. -/
  | prepareReturn (result : PrepareResult)
  | returned (result : PrepareResult)
  /-- `_recover`, of the maintenance that the `started`-th prepare began. -/
  | recover (started : ℕ) (pc : RecoverPc)
  | block (code : Code)
  | answered (result : RecoverResult)
  | complete (target : Text)
  | completeRead (target : Text) (handle : Option ℕ)
  | completeCheck (target : Text) (identity : Option Identity)
  | completeFailed
  | shutdownWait
  | shutdownHandles
  /-- Handles are closed, one after the other. -/
  | closing (todo : List ℕ) (next : Then)
  /-- A handle has released its lease and is about to tell the registry. -/
  | onClose (h : ℕ) (raised : Bool) (todo : List ℕ) (next : Then)
  | done
  deriving DecidableEq

/-- Where the method goes on when the handles are closed. -/
def Then.pc : Then → Pc
  | .done => .done
  | .rejected => .openRejected
  | .prepare p => .prepare p .drained
  | .failure p code => .prepare p (.failureBuilders code)
  | .block code => .block code

/-- Where the method goes on when a `close` has returned, or raised. -/
def Then.after (todo : List ℕ) : Then → Bool → Pc
  | .rejected, true => .openBlock
  | .prepare p, true => .prepare p (.failureHandles .factHandleCloseFailed)
  | next, _ => .closing todo next

/-! ## The code of the methods -/

/-- The identity read of `prepare`, with the checks that follow it. -/
def prepareIdentity (env : Env) (expectUnreadable : Bool) : PreparePc :=
  if expectUnreadable then
    if env.present then .final none else .failureHandles .epochUnverifiable
  else
    match env.identity with
    | none => if env.present then .failureHandles .epochUnverifiable else .final none
    | some identity =>
      if identity.valid then .final (some identity) else .failureHandles .epochUnverifiable

/-- `prepare` returns because the state has changed under it. -/
def Coordinator.interrupted (c : Coordinator) : Pc :=
  .prepareReturn (.failed c.blockCode c.state)

/-- `prepare` fails with the lock held. -/
def Coordinator.failLocked (code : Code) (c : Coordinator) : Coordinator × Pc :=
  (c.prepareFailure code, .prepareReturn (.failed (some code) .blocked))

/-- One turn of the two waiting loops of `prepare`, whose condition is `busy`. -/
def waitTurn (env : Env) (c : Coordinator) (p : Prepare) (busy : Bool) (here next : PreparePc) :
    Coordinator × Pc :=
  if ¬ busy then (c, .prepare p next)
  else if c.state ≠ .preparing ∨ c.closed then (c, c.interrupted)
  else if env.alive then (c, .prepare p here)
  else c.failLocked .controlLeaseLost

/-- `prepare`. -/
def advancePrepare (env : Env) (c : Coordinator) (p : Prepare) : PreparePc → Coordinator × Pc
  | .wait => waitTurn env c p (c.requests ≠ 0 || c.openingHandles ≠ 0) .wait .builders
  | .builders =>
    (c, .prepare { p with builders := c.builders.length } (.builder (env.enumerate c.builders)))
  | .builder [] => (c, .prepare p .handles)
  | .builder (b :: todo) =>
    if c.state ≠ .preparing ∨ c.closed then c.failLocked (c.blockCode.getD .controlLeaseLost)
    else (c, .prepare p (.stop b todo))
  | .stop b todo =>
    (c, .prepare p
      (if ¬ env.stoppable then .failureHandles .builderNotQuiesceable
      else if env.raised then .failureHandles .builderQuiesceFailed
      else .waitIdle b todo))
  | .waitIdle b todo =>
    (c, .prepare p
      (if env.raised then .failureHandles .builderQuiesceFailed
      else if env.idle then .unregister b todo
      else .failureHandles .builderNotIdle))
  | .unregister b todo =>
    ({ c with builders := discard b c.builders }, .prepare p (.builder todo))
  | .handles =>
    (c, .closing (env.enumerate c.handles) (.prepare { p with handles := c.handles.length }))
  | .drained =>
    waitTurn env c p
      (c.requests ≠ 0 || c.openingHandles ≠ 0 || c.handles ≠ [] || c.builders ≠ [])
      .drained .identity
  | .identity => (c, .prepare p (prepareIdentity env p.expectUnreadable))
  | .final identity =>
    if c.closed ∨ c.state ≠ .preparing then (c, c.interrupted)
    else
      ({ c with preparedEpoch := identity.map Identity.storeEpoch, state := .prepared },
        .prepareReturn (.prepared p.drainedRequests p.handles p.builders identity))
  | .failureHandles code => (c, .closing (env.enumerate c.handles) (.failure p code))
  | .failureBuilders code => ({ c with builders := [] }, .prepare p (.failureBlock code))
  | .failureBlock code => (c.block code, .prepareReturn (.failed (some code) .blocked))

/-- The coordinator serves again, without a maintenance. -/
def Coordinator.resume (epoch : Option Text) (c : Coordinator) : Coordinator :=
  { c with
    activeDerivedEpoch := epoch, targetEpoch := none, state := .serving
    operationId := none, leaseId := none }

/-- A recovery ends in `_block`. -/
def Coordinator.blocked (code : Code) (c : Coordinator) : Coordinator × Pc :=
  (c.block code, .answered (.blocked code))

/-- The handle of a recovery goes into the registry. -/
def Coordinator.register (handle : Option ℕ) (c : Coordinator) : Coordinator :=
  match handle with
  | none => c
  | some h => { c with handles := add h c.handles }

/-- The end of `_recover`, with the lock held. -/
def recoverFinish (c : Coordinator) (started : ℕ) (handle : Option ℕ) (identity : Identity) :
    Coordinator × Pc :=
  let target := identity.storeEpoch
  if c.closed then (c, .closing handle.toList (.block .coordinatorClosed))
  else if some target = c.preparedEpoch then
    ((c.register handle).resume (some target), .answered (.recovered .serving (some target)))
  else
    ({ c.register handle with
       activeDerivedEpoch := none, targetEpoch := some target, state := .catchingUp
       operationId := none, leaseId := none },
      .recover started
        (.invalidate (c.activeDerivedEpoch.orElse fun _ => c.preparedEpoch) target))

/-- `_recover`. -/
def advanceRecover (env : Env) (c : Coordinator) (started : ℕ) : RecoverPc → Coordinator × Pc
  | .start => (c, .recover started (if env.present then .count else .identity))
  | .identity =>
    (c, match env.identity with
      | none =>
        if c.preparedEpoch = none then .recover started .pristine else .block .epochUnverifiable
      | some identity =>
        if identity.valid then .recover started (.finish none identity)
        else .block .epochUnverifiable)
  | .count =>
    if c.closed then c.blocked .coordinatorClosed
    else ({ c with openingHandles := c.openingHandles + 1 }, .recover started .openHandle)
  | .openHandle =>
    if env.raised then (c, .recover started (.opened none none))
    else
      (c.openHandle env.usable,
        .recover started (.opened (some c.nextHandle)
          (if env.usable then env.identity.filter Identity.valid else none)))
  | .opened handle identity =>
    ({ c with openingHandles := c.openingHandles - 1 },
      match identity with
      | none => .closing handle.toList (.block .epochUnverifiable)
      | some identity => .recover started (.check handle identity))
  | .check handle identity =>
    (c, if c.closed then .closing handle.toList (.block .coordinatorClosed)
      else .recover started (.finish handle identity))
  | .finish handle identity => recoverFinish c started handle identity
  | .pristine =>
    if c.closed then c.blocked .coordinatorClosed
    else (c.resume none, .answered (.recovered .serving none))
  | .invalidate _ target => (c, .recover started (if env.raised then .failed else .rebuild target))
  | .rebuild target => (c, .recover started (if env.raised then .failed else .state target))
  | .state target => (c, .answered (.recovered c.state (some target)))
  | .failed => (c, .closing (env.enumerate c.handles) (.block .epochRecoveryFailed))

/-- The end of `complete_recovery`, with the lock held. -/
def completeCheck (env : Env) (c : Coordinator) (target : Text) (identity : Option Identity) :
    Coordinator × Pc :=
  if c.closed ∨ c.state ≠ .catchingUp ∨ c.targetEpoch ≠ some target then (c, .done)
  else if identity.any fun i => i.valid && i.storeEpoch = target then
    ({ c with activeDerivedEpoch := some target, targetEpoch := none, state := .serving }, .done)
  else (c.block .epochChangedDuringRecovery, .closing (env.enumerate c.handles) .done)

/-- One stretch of code of a running method. -/
def advance (env : Env) (c : Coordinator) : Pc → Coordinator × Pc
  | .request => ({ c with requests := c.requests - 1 }, .done)
  | .openFactory =>
    if env.raised then (c, .openFailed)
    else (c.openHandle env.usable, .openOpened c.nextHandle)
  | .openFailed => ({ c with openingHandles := c.openingHandles - 1 }, .done)
  | .openOpened h =>
    if c.state = .serving ∧ h ∈ c.leases then
      ({ c with handles := add h c.handles, openingHandles := c.openingHandles - 1 }, .opened h)
    else (c, .closing [h] .rejected)
  | .openBlock => (c.block .factHandleCloseFailed, .openRejected)
  | .openRejected => ({ c with openingHandles := c.openingHandles - 1 }, .done)
  | .prepare p pc => advancePrepare env c p pc
  | .prepareReturn result => ({ c with prepareActive := false }, .returned result)
  | .recover started pc => advanceRecover env c started pc
  | .block code => c.blocked code
  | .complete target =>
    let handles := env.enumerate c.handles
    (c, if c.closed then .closing handles .done else .completeRead target handles.head?)
  | .completeRead target handle =>
    (c, if handle.isSome ∧ env.identity = none then .completeFailed
      else .completeCheck target env.identity)
  | .completeCheck target identity => completeCheck env c target identity
  | .completeFailed => (c, .closing (env.enumerate c.handles) (.block .epochUnverifiable))
  | .shutdownWait =>
    (c, if c.prepareActive = true ∨ c.openingHandles ≠ 0 then .shutdownWait else .shutdownHandles)
  | .shutdownHandles => (c, .closing (env.enumerate c.handles) .done)
  | .closing [] next => (c, next.pc)
  | .closing (h :: todo) next =>
    if h ∈ c.unclosed then (c.release h, .onClose h env.raised todo next)
    else (c, .closing todo next)
  | .onClose h raised todo next =>
    ({ c with handles := discard h c.handles }, next.after todo raised)
  | .opened h => (c, .opened h)
  | .returned result => (c, .returned result)
  | .answered result => (c, .answered result)
  | .done => (c, .done)

/-! ## Runs -/

/-- The coordinator, and the methods that are running or have run. -/
structure World where
  coordinator : Coordinator
  threads : List Pc

/-- `_initialize_fact_epoch` where the store exists. -/
def initializeFactEpoch (env : Env) : Coordinator :=
  let c : Coordinator := {}
  let code := (env.code.map Code.raised).getD .epochUnverifiable
  if env.raised then c.block code
  else
    let opened := c.openHandle env.usable
    if ¬ env.usable then (opened.release c.nextHandle).block .factHandleUnverifiable
    else
      match env.identity.filter Identity.valid with
      | none => (opened.release c.nextHandle).block code
      | some identity =>
        { opened with
          handles := [c.nextHandle], activeDerivedEpoch := some identity.storeEpoch }

/-- A new coordinator; `auto` is `auto_open_fact_handle`. -/
def started (auto : Bool) (env : Env) : World where
  threads := []
  coordinator := if auto = true ∧ env.present = true then initializeFactEpoch env else {}

/-- What can happen next. -/
inductive Action where
  | beginRequest
  | openFactHandle
  | closeHandle (h : ℕ)
  | registerBuilder (b : ℕ)
  | unregisterBuilder (b : ℕ)
  | prepare (operationId : Text) (leaseId : Option ℕ) (expectUnreadable : Bool)
  | assertPrepared (operationId : Text) (leaseId : Option ℕ)
  | reopen (operationId : Text) (leaseId : Option ℕ)
  | leaseLost (operationId : Text) (leaseId : Option ℕ)
  /-- The recovery object calls `complete_recovery`. -/
  | complete (target : Text)
  | close
  /-- The `i`-th method goes on. -/
  | advance (i : ℕ) (env : Env)

def World.spawn (pc : Pc) (w : World) : World := { w with threads := w.threads ++ [pc] }

def World.set (c : Coordinator) (w : World) : World := { w with coordinator := c }

/-- The coordinator takes on new work. -/
def Coordinator.admits (c : Coordinator) : Bool := !c.closed && c.state = .serving

/-- The maintenance that a call names is the current one. -/
def Coordinator.owns (c : Coordinator) (operationId : Text) (leaseId : Option ℕ) : Bool :=
  some operationId = c.operationId && leaseId = c.leaseId

def Coordinator.assertPrepared (c : Coordinator) (operationId : Text) (leaseId : Option ℕ) : Bool :=
  c.state = .prepared && c.owns operationId leaseId

/-- The start of `prepare`, once it is admitted. -/
def Coordinator.beginPrepare (operationId : Text) (leaseId : Option ℕ) (c : Coordinator) :
    Coordinator :=
  { c with
    state := .preparing, operationId := some operationId, leaseId := leaseId
    prepareActive := true, prepares := c.prepares + 1, recovering := false }

def World.beginRecovery (w : World) : World :=
  (w.set { w.coordinator with recovering := true }).spawn
    (.recover w.coordinator.prepares .start)

def step (w : World) : Action → World
  | .beginRequest =>
    let c := w.coordinator
    if c.admits then (w.set { c with requests := c.requests + 1 }).spawn .request else w
  | .openFactHandle =>
    let c := w.coordinator
    if c.admits then (w.set { c with openingHandles := c.openingHandles + 1 }).spawn .openFactory
    else w
  | .closeHandle h => w.spawn (.closing [h] .done)
  | .registerBuilder b =>
    let c := w.coordinator
    if c.admits then w.set { c with builders := add b c.builders } else w
  | .unregisterBuilder b =>
    w.set { w.coordinator with builders := discard b w.coordinator.builders }
  | .prepare operationId leaseId expectUnreadable =>
    let c := w.coordinator
    if c.admits then
      (w.set (c.beginPrepare operationId leaseId)).spawn
        (.prepare { expectUnreadable, drainedRequests := c.requests } .wait)
    else w.spawn (.returned .inProgress)
  | .assertPrepared .. => w
  | .reopen operationId leaseId =>
    if w.coordinator.assertPrepared operationId leaseId then w.beginRecovery
    else w.spawn (.answered .operationIdMismatch)
  | .leaseLost operationId leaseId =>
    let c := w.coordinator
    if ¬ c.owns operationId leaseId then w
    else if c.state = .preparing then w.set (c.block .controlLeaseLost)
    else if c.state = .prepared then w.beginRecovery
    else w
  | .complete target => w.spawn (.complete target)
  | .close =>
    let c := w.coordinator
    if c.closed then w
    else
      (w.set
        { c.block .coordinatorClosed with
          closed := true, operationId := none, leaseId := none }).spawn .shutdownWait
  | .advance i env =>
    match w.threads[i]? with
    | none => w
    | some pc =>
      let (c, pc) := advance env w.coordinator pc
      ⟨c, w.threads.set i pc⟩

end Maintenance
end SemanticMemory
