import SemanticMemory.Lib.Pool
import SemanticMemory.Maintenance.Coordinator

/-!
# A prepared daemon is quiet

What `MaintenanceCoordinator` owes a maintenance (`daemon/coordinator.py`): while it is prepared and
no recovery has begun, nothing of the daemon is at work on the facts; and a `prepare` that fails
leaves no shared lease behind.

* `Inv` says what a method may rely on at the place where it stands.  The counters count the methods
  (`requests`, `opening`), at most one `prepare` is at work (`working`), and `Ok` is the part of a
  single method.
* A stretch of code that takes nothing on is `Calm`, and what a method relies on survives it
  (`Ok.calm`).  The others happen while no `prepare` is at work and none has failed (`Inv.alone`).

Two places break the promise, and `Careful` keeps runs away from them.  The first waiting loop of
`prepare` returns without `_prepare_failure` when the state has changed under it.  And a recovery
looks at the state only before it starts: two of them may start from one maintenance, and the second
may register its handle and resume while the next maintenance is under way.
-/

namespace SemanticMemory
namespace Maintenance

open Runs

/-! ## The places of a method -/

/-- A request lease is out. -/
def Pc.isRequest : Pc → Bool
  | .request => true
  | _ => false

/-- The method counts as an opening of a handle. -/
def Pc.opens : Pc → Bool
  | .openFactory | .openFailed | .openOpened _ | .openBlock | .openRejected => true
  | .recover _ .openHandle | .recover _ (.opened ..) => true
  | .closing _ .rejected | .onClose _ _ _ .rejected => true
  | _ => false

/-- A `prepare` at work. -/
def Pc.works : Pc → Bool
  | .prepare .. => true
  | .closing _ (.prepare _) | .closing _ (.failure ..) => true
  | .onClose _ _ _ (.prepare _) | .onClose _ _ _ (.failure ..) => true
  | _ => false

def PrepareResult.isFailed : PrepareResult → Bool
  | .failed .. => true
  | _ => false

/-- A `prepare` that fails, after having left `serving`. -/
def Pc.fails : Pc → Bool
  | .prepareReturn result | .returned result => result.isFailed
  | _ => false

/-- The handles that may still hold a lease in the registry, once `prepare` has begun to close
them. -/
def Pc.remaining : Pc → Option (List ℕ)
  | .closing todo (.prepare _) | .closing todo (.failure ..) => some todo
  | .onClose _ _ todo (.prepare _) | .onClose _ _ todo (.failure ..) => some todo
  | .prepare _ .drained | .prepare _ .identity | .prepare _ (.final _) => some []
  | .prepare _ (.failureBuilders _) | .prepare _ (.failureBlock _) => some []
  | pc => if pc.fails then some [] else none

/-- `prepare` has seen the daemon at rest. -/
def Pc.quiet : Pc → Bool
  | .prepare _ .identity | .prepare _ (.final _) => true
  | _ => false

/-- The handle that the method may register. -/
def Pc.handle? : Pc → Option ℕ
  | .openOpened h => some h
  | .recover _ (.opened handle _) | .recover _ (.check handle _) => handle
  | .recover _ (.finish handle _) => handle
  | _ => none

/-- The maintenance that the method recovers. -/
def Pc.recovers : Pc → Option ℕ
  | .recover started _ => some started
  | _ => none

/-! ## The invariant -/

/-- Every registered handle that holds a lease is one of these. -/
def Coordinator.LeasesIn (todo : List ℕ) (c : Coordinator) : Prop :=
  ∀ h ∈ c.handles, h ∈ c.leases → h ∈ todo

/-- No request, no handle and no builder. -/
structure Coordinator.AtRest (c : Coordinator) : Prop where
  requests : c.requests = 0
  openingHandles : c.openingHandles = 0
  handles : c.handles = []
  builders : c.builders = []

/-- What a method may rely on where it stands. -/
structure Ok (c : Coordinator) (pc : Pc) : Prop where
  recovers : ∀ started ∈ pc.recovers,
    started ≤ c.prepares ∧ (started = c.prepares → c.recovering = true)
  fails : pc.fails = true → c.state = .blocked ∧ c.recovering = false
  remaining : ∀ todo ∈ pc.remaining, c.LeasesIn todo
  quiet : pc.quiet = true → c.AtRest
  handle : ∀ h ∈ pc.handle?, h < c.nextHandle

/-- A closed handle has released its lease. -/
def Coordinator.Leased (c : Coordinator) : Prop := ∀ h ∈ c.leases, h ∈ c.unclosed

/-- What holds of the coordinator and its methods. -/
structure Inv (w : World) : Prop where
  requests : w.coordinator.requests = w.threads.countP Pc.isRequest
  opening : w.coordinator.openingHandles = w.threads.countP Pc.opens
  single : w.threads.countP Pc.works ≤ 1
  working : 0 < w.threads.countP Pc.works →
    (w.coordinator.state = .preparing ∨ w.coordinator.state = .blocked) ∧
      w.coordinator.recovering = false
  closed : w.coordinator.closed = true → w.coordinator.state = .blocked
  ok : ∀ pc ∈ w.threads, Ok w.coordinator pc
  leased : w.coordinator.Leased
  fresh : ∀ h ∈ w.coordinator.handles, h < w.coordinator.nextHandle
  prepared : w.coordinator.state = .prepared → w.coordinator.recovering = false →
    w.coordinator.AtRest

/-! ## Calm steps -/

/-- Nothing is taken on between the two states. -/
structure Calm (c c' : Coordinator) : Prop where
  prepares : c'.prepares = c.prepares
  recovering : c'.recovering = c.recovering
  requests : c'.requests ≤ c.requests
  openingHandles : c'.openingHandles ≤ c.openingHandles
  handles : ∀ h ∈ c'.handles, h ∈ c.handles
  builders : ∀ b ∈ c'.builders, b ∈ c.builders
  leases : ∀ h ∈ c'.leases, h ∈ c.leases ∨ c.nextHandle ≤ h
  leased : c.Leased → c'.Leased
  nextHandle : c.nextHandle ≤ c'.nextHandle
  state : c'.state = c.state ∨ c'.state = .blocked
  closed : c'.closed = true → c.closed = true ∨ c'.state = .blocked

theorem Calm.refl (c : Coordinator) : Calm c c where
  prepares := rfl
  recovering := rfl
  requests := le_rfl
  openingHandles := le_rfl
  handles := fun _ h => h
  builders := fun _ h => h
  leases := fun _ h => Or.inl h
  leased := id
  nextHandle := le_rfl
  state := Or.inl rfl
  closed := Or.inl

theorem Coordinator.AtRest.calm {c c' : Coordinator} (hrest : c.AtRest) (hcalm : Calm c c') :
    c'.AtRest where
  requests := Nat.le_zero.mp (hrest.requests ▸ hcalm.requests)
  openingHandles := Nat.le_zero.mp (hrest.openingHandles ▸ hcalm.openingHandles)
  handles := List.eq_nil_iff_forall_not_mem.mpr fun h hh =>
    List.not_mem_nil (hrest.handles ▸ hcalm.handles h hh)
  builders := List.eq_nil_iff_forall_not_mem.mpr fun b hb =>
    List.not_mem_nil (hrest.builders ▸ hcalm.builders b hb)

variable {todo : List ℕ}

/-- No lease comes back, and a new one is not of a registered handle. -/
theorem Coordinator.LeasesIn.calm {c c' : Coordinator} (hin : c.LeasesIn todo)
    (hfresh : ∀ h ∈ c.handles, h < c.nextHandle) (hcalm : Calm c c') : c'.LeasesIn todo := by
  intro h hh hlease
  have hold := hcalm.handles h hh
  rcases hcalm.leases h hlease with hl | hl
  · exact hin h hold hl
  · exact absurd (hfresh h hold) (by omega)

variable {pc : Pc}

theorem Ok.calm {c c' : Coordinator} (hok : Ok c pc) (hfresh : ∀ h ∈ c.handles, h < c.nextHandle)
    (hcalm : Calm c c') : Ok c' pc where
  recovers := by
    rw [hcalm.prepares, hcalm.recovering]
    exact hok.recovers
  fails := by
    intro hf
    obtain ⟨hstate, hrec⟩ := hok.fails hf
    exact ⟨hcalm.state.elim (fun h => h.trans hstate) id, hcalm.recovering.trans hrec⟩
  remaining := fun todo htodo => (hok.remaining todo htodo).calm hfresh hcalm
  quiet := fun hq => (hok.quiet hq).calm hcalm
  handle := fun h hh => lt_of_lt_of_le (hok.handle h hh) hcalm.nextHandle

theorem calm_block (code : Code) (c : Coordinator) : Calm c (c.block code) :=
  { Calm.refl c with state := Or.inr rfl, closed := Or.inl }

theorem calm_release (h : ℕ) (c : Coordinator) : Calm c (c.release h) :=
  { Calm.refl c with
    leases := fun _ hx => Or.inl (mem_discard.mp hx).1
    leased := by
      intro hleased x hx
      obtain ⟨hlease, hne⟩ := mem_discard.mp hx
      exact mem_discard.mpr ⟨hleased x hlease, hne⟩ }

theorem calm_openHandle (usable : Bool) (c : Coordinator) : Calm c (c.openHandle usable) :=
  { Calm.refl c with
    nextHandle := Nat.le_succ _
    leases := by
      intro h hh
      unfold Coordinator.openHandle at hh
      cases usable with
      | false => exact Or.inl hh
      | true =>
        rcases List.mem_append.mp hh with hh | hh
        · exact Or.inl hh
        · exact Or.inr (List.mem_singleton.mp hh).ge
    leased := by
      intro hleased h hh
      unfold Coordinator.openHandle at hh
      cases usable with
      | false => exact List.mem_append_left _ (hleased h hh)
      | true => exact List.mem_append.mpr ((List.mem_append.mp hh).imp (hleased h) id) }

theorem calm_prepareFailure (code : Code) (c : Coordinator) : Calm c (c.prepareFailure code) :=
  { Calm.refl c with
    handles := fun _ hh => (List.mem_filter.mp hh).1
    builders := List.forall_mem_nil _
    leases := fun _ hh => Or.inl (List.mem_filter.mp hh).1
    leased := by
      intro hleased h hh
      obtain ⟨hlease, hout⟩ := List.mem_filter.mp hh
      exact List.mem_filter.mpr ⟨hleased h hlease, hout⟩
    state := Or.inr rfl
    closed := Or.inl }

theorem calm_openingDone (c : Coordinator) :
    Calm c { c with openingHandles := c.openingHandles - 1 } :=
  { Calm.refl c with openingHandles := Nat.sub_le _ _ }

theorem calm_waitTurn (env : Env) (c : Coordinator) (p : Prepare) (busy : Bool)
    (here next : PreparePc) : Calm c (waitTurn env c p busy here next).1 := by
  unfold waitTurn
  split_ifs
  · exact Calm.refl c
  · exact Calm.refl c
  · exact calm_prepareFailure _ c
  · exact Calm.refl c

/-- `prepare` takes nothing on, and changes the state to `prepared` at its end only. -/
theorem advancePrepare_calm (env : Env) (c : Coordinator) (p : Prepare) (pc : PreparePc) :
    Calm c (advancePrepare env c p pc).1 ∨
      ∃ identity, pc = .final identity ∧ c.closed = false ∧ c.state = .preparing := by
  cases pc with
  | wait => exact Or.inl (calm_waitTurn ..)
  | drained => exact Or.inl (calm_waitTurn ..)
  | builder todo =>
    cases todo with
    | nil => exact Or.inl (Calm.refl c)
    | cons b todo =>
      simp only [advancePrepare]
      split_ifs
      · exact Or.inl (calm_prepareFailure _ c)
      · exact Or.inl (Calm.refl c)
  | unregister b todo =>
    exact Or.inl { Calm.refl c with builders := fun _ hb => (mem_discard.mp hb).1 }
  | final identity =>
    simp only [advancePrepare]
    split_ifs with h
    · exact Or.inl (Calm.refl c)
    · obtain ⟨hclosed, hstate⟩ := not_or.mp h
      exact Or.inr ⟨identity, rfl, Bool.eq_false_iff.mpr hclosed, not_not.mp hstate⟩
  | failureBuilders code =>
    exact Or.inl { Calm.refl c with builders := List.forall_mem_nil _ }
  | failureBlock code => exact Or.inl (calm_block code c)
  | builders | stop | waitIdle | handles | identity | failureHandles =>
    exact Or.inl (Calm.refl c)

/-! ## Steps that take something on -/

/-- The coordinator is neither in a `prepare` nor blocked, or its maintenance is being recovered. -/
def Coordinator.Free (c : Coordinator) : Prop :=
  (c.state ≠ .preparing ∧ c.state ≠ .blocked) ∨ c.recovering = true

/-- What a free step may change. -/
structure Loose (c c' : Coordinator) (handle : Option ℕ) : Prop where
  free : c.Free
  prepares : c'.prepares = c.prepares
  recovering : c.recovering = true → c'.recovering = true
  nextHandle : c'.nextHandle = c.nextHandle
  leased : c.Leased → c'.Leased
  closed : c'.closed = true → c'.state = .blocked
  handles : ∀ h ∈ c'.handles, h ∈ c.handles ∨ h ∈ handle
  prepared : c'.state = .prepared → c'.recovering = true

/-- Where `Careful` looks: the place of a method in front of a step that may break the promise. -/
def Pc.Careful (c : Coordinator) : Pc → Prop
  | .prepare _ .wait =>
    (c.requests ≠ 0 ∨ c.openingHandles ≠ 0) → (c.state ≠ .preparing ∨ c.closed = true) →
      ∀ h ∈ c.handles, h ∉ c.leases
  | .recover started .count | .recover started (.finish ..) | .recover started .pristine =>
    started = c.prepares
  | _ => True

theorem Coordinator.mem_register {handle : Option ℕ} {c : Coordinator} {h : ℕ}
    (hh : h ∈ (c.register handle).handles) : h ∈ c.handles ∨ h ∈ handle := by
  cases handle with
  | none => exact Or.inl hh
  | some x =>
    rcases mem_add.mp hh with rfl | hh
    · exact Or.inr rfl
    · exact Or.inl hh

theorem Coordinator.register_same (handle : Option ℕ) (c : Coordinator) :
    (c.register handle).prepares = c.prepares ∧ (c.register handle).recovering = c.recovering ∧
      (c.register handle).nextHandle = c.nextHandle ∧
      (c.Leased → (c.register handle).Leased) ∧ (c.register handle).closed = c.closed := by
  cases handle <;> exact ⟨rfl, rfl, rfl, id, rfl⟩

/-- `_recover` is calm, or free where it takes something on. -/
theorem advanceRecover_effect (env : Env) {c : Coordinator} {started : ℕ} {pc : RecoverPc}
    (hcareful : (Pc.recover started pc).Careful c)
    (hok : Ok c (.recover started pc)) :
    Calm c (advanceRecover env c started pc).1 ∨
      Loose c (advanceRecover env c started pc).1 (Pc.recover started pc).handle? := by
  have hrec : started = c.prepares → c.recovering = true := (hok.recovers started rfl).2
  cases pc with
  | count =>
    simp only [advanceRecover]
    split_ifs with h
    · exact Or.inl (calm_block _ c)
    · refine Or.inr ⟨Or.inr (hrec hcareful), rfl, id, rfl, id, fun h' => absurd h' h, ?_, ?_⟩
      · exact fun _ hh => Or.inl hh
      · exact fun _ => hrec hcareful
  | openHandle =>
    simp only [advanceRecover]
    by_cases h : env.raised = true
    · rw [if_pos h]
      exact Or.inl (Calm.refl c)
    · rw [if_neg h]
      exact Or.inl (calm_openHandle _ c)
  | opened handle identity => exact Or.inl (calm_openingDone c)
  | finish handle identity =>
    obtain ⟨hprepares, hrecovering, hnext, hleased, hclosed'⟩ := c.register_same handle
    have hopen {q : Prop} (h : ¬ c.closed = true) : (c.register handle).closed = true → q :=
      fun h' => absurd (hclosed' ▸ h') h
    simp only [advanceRecover, recoverFinish]
    split_ifs with h
    · exact Or.inl (Calm.refl c)
    · exact Or.inr ⟨Or.inr (hrec hcareful), hprepares, hrecovering.ge, hnext, hleased, hopen h,
        fun _ => Coordinator.mem_register, fun _ => hrecovering.trans (hrec hcareful)⟩
    · exact Or.inr ⟨Or.inr (hrec hcareful), hprepares, hrecovering.ge, hnext, hleased, hopen h,
        fun _ => Coordinator.mem_register, fun _ => hrecovering.trans (hrec hcareful)⟩
  | pristine =>
    simp only [advanceRecover]
    split_ifs with h
    · exact Or.inl (calm_block _ c)
    · exact Or.inr ⟨Or.inr (hrec hcareful), rfl, id, rfl, id, fun h' => absurd h' h,
        fun _ hh => Or.inl hh, fun _ => hrec hcareful⟩
  | start | identity | check | invalidate | rebuild | state | failed =>
    exact Or.inl (Calm.refl c)

/-- **What a stretch of code can do.**  It takes nothing on; or the coordinator is free; or
`prepare` reaches its end. -/
theorem advance_effect (env : Env) {c : Coordinator} (hcareful : pc.Careful c) (hok : Ok c pc)
    (hclosed : c.closed = true → c.state = .blocked) :
    Calm c (advance env c pc).1 ∨ Loose c (advance env c pc).1 pc.handle? ∨
      ∃ p identity, pc = .prepare p (.final identity) ∧ c.closed = false ∧
        c.state = .preparing := by
  cases pc with
  | request => exact Or.inl { Calm.refl c with requests := Nat.sub_le _ _ }
  | openFactory =>
    simp only [advance]
    split_ifs
    · exact Or.inl (Calm.refl c)
    · exact Or.inl (calm_openHandle _ c)
  | openFailed => exact Or.inl (calm_openingDone c)
  | openRejected => exact Or.inl (calm_openingDone c)
  | openOpened h =>
    simp only [advance]
    split_ifs with hserving
    · have hfree : c.Free := Or.inl (by rw [hserving.1]; decide)
      refine Or.inr (Or.inl ⟨hfree, rfl, id, rfl, id, hclosed, fun x hx => ?_, fun hstate => ?_⟩)
      · rcases mem_add.mp hx with rfl | hx
        · exact Or.inr rfl
        · exact Or.inl hx
      · exact absurd (hserving.1.symm.trans hstate) (by decide)
    · exact Or.inl (Calm.refl c)
  | openBlock => exact Or.inl (calm_block _ c)
  | prepare p pc =>
    rcases advancePrepare_calm env c p pc with h | ⟨identity, rfl, hfinal⟩
    · exact Or.inl h
    · exact Or.inr (Or.inr ⟨p, identity, rfl, hfinal⟩)
  | prepareReturn result => exact Or.inl { Calm.refl c with }
  | recover started pc =>
    rcases advanceRecover_effect env hcareful hok with h | h
    · exact Or.inl h
    · exact Or.inr (Or.inl h)
  | block code => exact Or.inl (calm_block code c)
  | completeCheck target identity =>
    simp only [advance, completeCheck]
    split_ifs with hstale hvalid
    · exact Or.inl (Calm.refl c)
    · have hstate : c.state = .catchingUp := by
        by_contra hne
        exact hstale (Or.inr (Or.inl hne))
      refine Or.inr (Or.inl ⟨Or.inl (by rw [hstate]; decide), rfl, id, rfl, id, fun h => ?_,
        fun _ hh => Or.inl hh, fun hstate' => by cases hstate'⟩)
      exact absurd (hclosed h) (by rw [hstate]; decide)
    · exact Or.inl (calm_block _ c)
  | closing todo next =>
    cases todo with
    | nil => exact Or.inl (Calm.refl c)
    | cons h todo =>
      simp only [advance]
      split_ifs
      · exact Or.inl (calm_release h c)
      · exact Or.inl (Calm.refl c)
  | onClose h raised todo next =>
    exact Or.inl { Calm.refl c with handles := fun _ hx => (mem_discard.mp hx).1 }
  | complete | completeRead | completeFailed | shutdownWait | shutdownHandles | opened | returned
  | answered | done => exact Or.inl (Calm.refl c)

/-! ## Counting the methods -/

/-- Where a stretch of code leads: the counters follow the kind of the method, only a `prepare` at
work goes on to be one or to fail, a recovery stays the one it is, and a handle that may be
registered has been opened. -/
structure Move (c : Coordinator) (pc : Pc) (next : Coordinator × Pc) : Prop where
  requests : next.1.requests + pc.isRequest.toNat = c.requests + next.2.isRequest.toNat
  opening : next.1.openingHandles + pc.opens.toNat = c.openingHandles + next.2.opens.toNat
  works : next.2.works = true → pc.works = true
  fails : next.2.fails = true → pc.works = true ∨ pc.fails = true
  recovers : next.2.recovers = none ∨ next.2.recovers = pc.recovers
  handle : ∀ h ∈ next.2.handle?, h < next.1.nextHandle

theorem advancePrepare_move (env : Env) (c : Coordinator) (p : Prepare) (pc : PreparePc) :
    Move c (.prepare p pc) (advancePrepare env c p pc) := by
  have hwait (busy here next) : Move c (.prepare p pc) (waitTurn env c p busy here next) := by
    unfold waitTurn
    split_ifs <;> exact ⟨rfl, rfl, fun _ => rfl, fun _ => Or.inl rfl, Or.inl rfl, nofun⟩
  cases pc with
  | wait => exact hwait ..
  | drained => exact hwait ..
  | builder todo =>
    cases todo with
    | nil => exact ⟨rfl, rfl, fun _ => rfl, nofun, Or.inl rfl, nofun⟩
    | cons b todo =>
      simp only [advancePrepare]
      split_ifs <;> exact ⟨rfl, rfl, fun _ => rfl, fun _ => Or.inl rfl, Or.inl rfl, nofun⟩
  | final identity =>
    simp only [advancePrepare]
    split_ifs <;> exact ⟨rfl, rfl, fun _ => rfl, fun _ => Or.inl rfl, Or.inl rfl, nofun⟩
  | builders | stop | waitIdle | unregister | handles | identity | failureHandles
  | failureBuilders | failureBlock =>
    exact ⟨rfl, rfl, fun _ => rfl, fun _ => Or.inl rfl, Or.inl rfl, nofun⟩

theorem advanceRecover_move (env : Env) (c : Coordinator) (started : ℕ) {pc : RecoverPc}
    (hopening : (Pc.recover started pc).opens = true → 0 < c.openingHandles)
    (hhandle : ∀ h ∈ (Pc.recover started pc).handle?, h < c.nextHandle) :
    Move c (.recover started pc) (advanceRecover env c started pc) := by
  cases pc with
  | identity =>
    simp only [advanceRecover]
    split <;> split_ifs <;>
      exact ⟨rfl, rfl, nofun, nofun, by first | exact Or.inl rfl | exact Or.inr rfl, nofun⟩
  | openHandle =>
    simp only [advanceRecover]
    by_cases h : env.raised = true
    · rw [if_pos h]
      exact ⟨rfl, rfl, nofun, nofun, Or.inr rfl, nofun⟩
    · rw [if_neg h]
      refine ⟨rfl, rfl, nofun, nofun, Or.inr rfl, fun x hx => ?_⟩
      obtain rfl : c.nextHandle = x := Option.some.inj hx
      exact Nat.lt_succ_self _
  | opened handle identity =>
    have := hopening rfl
    have hone : c.openingHandles - 1 + 1 = c.openingHandles := by omega
    cases identity with
    | none => exact ⟨rfl, hone, nofun, nofun, Or.inl rfl, nofun⟩
    | some identity => exact ⟨rfl, hone, nofun, nofun, Or.inr rfl, hhandle⟩
  | check handle identity =>
    simp only [advanceRecover]
    split_ifs
    · exact ⟨rfl, rfl, nofun, nofun, Or.inl rfl, nofun⟩
    · exact ⟨rfl, rfl, nofun, nofun, Or.inr rfl, hhandle⟩
  | finish handle identity =>
    simp only [advanceRecover, recoverFinish]
    split_ifs <;> cases handle <;>
      exact ⟨rfl, rfl, nofun, nofun, by first | exact Or.inl rfl | exact Or.inr rfl, nofun⟩
  | start | count | pristine | invalidate | rebuild =>
    simp only [advanceRecover]
    split_ifs <;>
      exact ⟨rfl, rfl, nofun, nofun, by first | exact Or.inl rfl | exact Or.inr rfl, nofun⟩
  | state | failed => exact ⟨rfl, rfl, nofun, nofun, Or.inl rfl, nofun⟩

theorem advance_move (env : Env) (c : Coordinator)
    (hrequest : pc.isRequest = true → 0 < c.requests)
    (hopening : pc.opens = true → 0 < c.openingHandles)
    (hhandle : ∀ h ∈ pc.handle?, h < c.nextHandle) : Move c pc (advance env c pc) := by
  have hdone (h : pc.opens = true) : c.openingHandles - 1 + 1 = c.openingHandles := by
    have := hopening h
    omega
  cases pc with
  | request =>
    have := hrequest rfl
    exact ⟨show c.requests - 1 + 1 = c.requests by omega, rfl, nofun, nofun, Or.inl rfl, nofun⟩
  | openFactory =>
    simp only [advance]
    split_ifs
    · exact ⟨rfl, rfl, nofun, nofun, Or.inl rfl, nofun⟩
    · refine ⟨rfl, rfl, nofun, nofun, Or.inl rfl, fun x hx => ?_⟩
      obtain rfl : c.nextHandle = x := Option.some.inj hx
      exact Nat.lt_succ_self _
  | openFailed | openRejected => exact ⟨rfl, hdone rfl, nofun, nofun, Or.inl rfl, nofun⟩
  | openOpened h =>
    simp only [advance]
    split_ifs
    · exact ⟨rfl, hdone rfl, nofun, nofun, Or.inl rfl, nofun⟩
    · exact ⟨rfl, rfl, nofun, nofun, Or.inl rfl, nofun⟩
  | prepare p pc => exact advancePrepare_move env c p pc
  | prepareReturn result => exact ⟨rfl, rfl, nofun, fun h => Or.inr h, Or.inl rfl, nofun⟩
  | returned result => exact ⟨rfl, rfl, nofun, fun h => Or.inr h, Or.inl rfl, nofun⟩
  | recover started pc => exact advanceRecover_move env c started hopening hhandle
  | completeCheck target identity =>
    simp only [advance, completeCheck]
    split_ifs <;> exact ⟨rfl, rfl, nofun, nofun, Or.inl rfl, nofun⟩
  | complete | completeRead | shutdownWait =>
    simp only [advance]
    split_ifs <;> exact ⟨rfl, rfl, nofun, nofun, Or.inl rfl, nofun⟩
  | closing todo next =>
    cases todo with
    | nil => cases next <;> exact ⟨rfl, rfl, fun h => h, nofun, Or.inl rfl, nofun⟩
    | cons h todo =>
      simp only [advance]
      split_ifs <;> cases next <;> exact ⟨rfl, rfl, fun h => h, nofun, Or.inl rfl, nofun⟩
  | onClose h raised todo next =>
    cases next <;> cases raised <;> exact ⟨rfl, rfl, fun h => h, nofun, Or.inl rfl, nofun⟩
  | openBlock | block | completeFailed | shutdownHandles | opened | answered | done =>
    exact ⟨rfl, rfl, nofun, nofun, Or.inl rfl, nofun⟩

/-! ## What a `prepare` arrives with -/

/-- The part of `Ok` that is about a `prepare`. -/
structure Arrives (next : Coordinator × Pc) : Prop where
  fails : next.2.fails = true → next.1.state = .blocked ∧ next.1.recovering = false
  remaining : ∀ todo ∈ next.2.remaining, next.1.LeasesIn todo
  quiet : next.2.quiet = true → next.1.AtRest

/-- Nothing is to be shown of a place that is none of `prepare`'s later ones. -/
theorem Arrives.plain {next : Coordinator × Pc} (hremaining : next.2.remaining = none)
    (hfails : next.2.fails = false) (hquiet : next.2.quiet = false) : Arrives next where
  fails := fun h => by rw [hfails] at h; cases h
  remaining := fun _ h => by rw [hremaining] at h; cases h
  quiet := fun h => by rw [hquiet] at h; cases h

/-- `_prepare_failure` with the lock held leaves no lease in the registry. -/
theorem arrives_failLocked (code : Code) {c : Coordinator} (hrec : c.recovering = false) :
    Arrives (c.failLocked code) where
  fails := fun _ => ⟨rfl, hrec⟩
  remaining := by
    rintro todo ⟨⟩ h hh hlease
    have hreg : h ∈ c.handles := (List.mem_filter.mp hh).1
    have hnot := (List.mem_filter.mp hlease).2
    exact absurd hreg (of_decide_eq_true hnot)
  quiet := nofun

/-- `prepare` returns because the state has changed, with no lease left in the registry. -/
theorem arrives_interrupted {c : Coordinator} (hstate : c.state = .blocked)
    (hrec : c.recovering = false) (hin : c.LeasesIn []) : Arrives (c, c.interrupted) where
  fails := fun _ => ⟨hstate, hrec⟩
  remaining := by
    rintro todo ⟨⟩
    exact hin
  quiet := nofun

section Prepare

variable {env : Env} {c : Coordinator} {p : Prepare}

theorem arrives_waitTurn {busy : Bool} {here next : PreparePc}
    (hstate : c.state = .preparing ∨ c.state = .blocked) (hrec : c.recovering = false)
    (hclosed : c.closed = true → c.state = .blocked)
    (hin : busy = true → (c.state ≠ .preparing ∨ c.closed = true) → c.LeasesIn [])
    (hhere : Arrives (c, .prepare p here))
    (hnext : busy = false → Arrives (c, .prepare p next)) :
    Arrives (waitTurn env c p busy here next) := by
  unfold waitTurn
  split_ifs with hbusy hchanged
  · refine arrives_interrupted ?_ hrec (hin hbusy hchanged)
    rcases hchanged with h | h
    · exact hstate.resolve_left h
    · exact hclosed h
  · exact hhere
  · exact arrives_failLocked _ hrec
  · exact hnext (Bool.eq_false_iff.mpr hbusy)

/-- What `prepare` has seen at its second waiting loop. -/
theorem atRest_of_not_busy
    (h : (c.requests ≠ 0 || c.openingHandles ≠ 0 || c.handles ≠ [] || c.builders ≠ []) = false) :
    c.AtRest := by
  simp only [Bool.or_eq_false_iff, decide_eq_false_iff_not, not_not] at h
  exact ⟨h.1.1.1, h.1.1.2, h.1.2, h.2⟩

theorem advancePrepare_arrives {pc : PreparePc} (hok : Ok c (.prepare p pc))
    (hcareful : (Pc.prepare p pc).Careful c)
    (hstate : c.state = .preparing ∨ c.state = .blocked) (hrec : c.recovering = false)
    (hclosed : c.closed = true → c.state = .blocked) :
    Arrives (advancePrepare env c p pc) := by
  cases pc with
  | wait =>
    refine arrives_waitTurn hstate hrec hclosed ?_ (.plain rfl rfl rfl) fun _ => .plain rfl rfl rfl
    intro hbusy hchanged h hh hlease
    simp only [Bool.or_eq_true, decide_eq_true_eq] at hbusy
    exact absurd hlease (hcareful hbusy hchanged h hh)
  | drained =>
    have hin : c.LeasesIn [] := hok.remaining [] rfl
    refine arrives_waitTurn hstate hrec hclosed (fun _ _ => hin) ?_ fun hbusy => ?_
    · exact ⟨nofun, by rintro todo ⟨⟩; exact hin, nofun⟩
    · exact ⟨nofun, by rintro todo ⟨⟩; exact hin, fun _ => atRest_of_not_busy hbusy⟩
  | builder todo =>
    cases todo with
    | nil => exact .plain rfl rfl rfl
    | cons b todo =>
      simp only [advancePrepare]
      split_ifs
      · exact arrives_failLocked _ hrec
      · exact .plain rfl rfl rfl
  | stop b todo =>
    simp only [advancePrepare]
    split_ifs <;> exact .plain rfl rfl rfl
  | waitIdle b todo =>
    simp only [advancePrepare]
    split_ifs <;> exact .plain rfl rfl rfl
  | builders | unregister => exact .plain rfl rfl rfl
  | handles | failureHandles =>
    refine ⟨nofun, ?_, nofun⟩
    rintro todo ⟨⟩ h hh -
    exact Env.mem_enumerate.mpr hh
  | identity =>
    have hin : c.LeasesIn [] := hok.remaining [] rfl
    have hrest : c.AtRest := hok.quiet rfl
    simp only [advancePrepare, prepareIdentity]
    have hfinal (identity) : Arrives (c, .prepare p (.final identity)) :=
      ⟨nofun, by rintro todo ⟨⟩; exact hin, fun _ => hrest⟩
    have hfailed (code) : Arrives (c, .prepare p (.failureHandles code)) := .plain rfl rfl rfl
    by_cases hunreadable : p.expectUnreadable = true
    · rw [if_pos hunreadable]
      split_ifs
      · exact hfinal none
      · exact hfailed _
    · rw [if_neg hunreadable]
      split <;> split_ifs <;> first | exact hfinal _ | exact hfailed _
  | final identity =>
    simp only [advancePrepare]
    split_ifs with h
    · refine arrives_interrupted ?_ hrec (hok.remaining [] rfl)
      rcases h with h | h
      · exact hclosed h
      · exact hstate.resolve_left h
    · exact .plain rfl rfl rfl
  | failureBuilders code =>
    refine ⟨nofun, ?_, nofun⟩
    rintro todo ⟨⟩
    exact hok.remaining [] rfl
  | failureBlock code =>
    refine ⟨fun _ => ⟨rfl, hrec⟩, ?_, nofun⟩
    rintro todo ⟨⟩
    exact hok.remaining [] rfl

end Prepare

/-- A handle that is not to be closed any more has released its lease. -/
theorem leasesIn_of_not_unclosed {c : Coordinator} {h : ℕ} (hleased : c.Leased)
    (hin : c.LeasesIn (h :: todo)) (hh : h ∉ c.unclosed) : c.LeasesIn todo := by
  intro x hx hlease
  rcases List.mem_cons.mp (hin x hx hlease) with rfl | hmem
  · exact absurd (hleased x hlease) hh
  · exact hmem

theorem leasesIn_release {c : Coordinator} {h : ℕ} (hin : c.LeasesIn (h :: todo)) :
    (c.release h).LeasesIn todo := by
  intro x hx hlease
  obtain ⟨hlease, hne⟩ := mem_discard.mp hlease
  exact (List.mem_cons.mp (hin x hx hlease)).resolve_left hne

theorem Pc.plain_of_idle (hworks : pc.works = false) (hfails : pc.fails = false) :
    pc.remaining = none ∧ pc.quiet = false := by
  cases pc with
  | prepare => cases hworks
  | prepareReturn result | returned result => exact ⟨if_neg (by rw [hfails]; decide), rfl⟩
  | closing _ next | onClose _ _ _ next =>
    cases next <;> first | exact ⟨rfl, rfl⟩ | cases hworks
  | request | openFactory | openFailed | openOpened | openBlock | openRejected | opened | recover
  | block | answered | complete | completeRead | completeCheck | completeFailed | shutdownWait
  | shutdownHandles | done => exact ⟨rfl, rfl⟩

/-- The handles that `prepare` still has to close are all that hold a lease. -/
theorem remaining_of_works {next : Then} (hworks : (Pc.closing todo next).works = true) :
    (∀ todo, (Pc.closing todo next).remaining = some todo) ∧
      ∀ h raised todo, (Pc.onClose h raised todo next).remaining = some todo := by
  cases next with
  | prepare | failure => exact ⟨fun _ => rfl, fun _ _ _ => rfl⟩
  | done | rejected | block => nomatch hworks

/-- `prepare` at work arrives with what the next place relies on. -/
theorem advance_arrives {env : Env} {c : Coordinator} (hok : Ok c pc) (hcareful : pc.Careful c)
    (hworks : pc.works = true) (hstate : c.state = .preparing ∨ c.state = .blocked)
    (hrec : c.recovering = false) (hclosed : c.closed = true → c.state = .blocked)
    (hleased : c.Leased) : Arrives (advance env c pc) := by
  cases pc with
  | prepare p pc => exact advancePrepare_arrives hok hcareful hstate hrec hclosed
  | closing todo next =>
    obtain ⟨hclosing, honClose⟩ := remaining_of_works hworks
    have hin : c.LeasesIn todo := hok.remaining todo (hclosing todo)
    cases todo with
    | nil =>
      cases next with
      | prepare p => exact ⟨nofun, by rintro todo ⟨⟩; exact hin, nofun⟩
      | failure p code => exact ⟨nofun, by rintro todo ⟨⟩; exact hin, nofun⟩
      | done | rejected | block => nomatch hworks
    | cons h todo =>
      simp only [advance]
      split_ifs with hunclosed
      · refine ⟨nofun, fun x hx => ?_, nofun⟩
        obtain rfl := Option.some.inj ((honClose h env.raised todo).symm.trans hx)
        exact leasesIn_release hin
      · refine ⟨nofun, fun x hx => ?_, nofun⟩
        obtain rfl := Option.some.inj ((hclosing todo).symm.trans hx)
        exact leasesIn_of_not_unclosed hleased hin hunclosed
  | onClose h raised todo next =>
    have hclosing : (Pc.closing todo next).works = true := by cases next <;> exact hworks
    have honClose := (remaining_of_works hclosing).2
    have hin : c.LeasesIn todo := hok.remaining todo (honClose h raised todo)
    have hin' : Coordinator.LeasesIn todo { c with handles := discard h c.handles } :=
      fun x hx hlease => hin x (mem_discard.mp hx).1 hlease
    cases next with
    | prepare p =>
      cases raised with
      | true => exact .plain rfl rfl rfl
      | false => exact ⟨nofun, by rintro todo ⟨⟩; exact hin', nofun⟩
    | failure p code => exact ⟨nofun, by rintro todo ⟨⟩; exact hin', nofun⟩
    | done | rejected | block => nomatch hworks
  | request | openFactory | openFailed | openOpened | openBlock | openRejected | opened
  | prepareReturn | returned | recover | block | answered | complete | completeRead
  | completeCheck | completeFailed | shutdownWait | shutdownHandles | done => cases hworks

/-- A `prepare` that has failed stays where it is. -/
theorem advance_failed {env : Env} {c : Coordinator} (hok : Ok c pc) (hfails : pc.fails = true) :
    Arrives (advance env c pc) := by
  cases pc with
  | prepareReturn result | returned result =>
    refine ⟨fun _ => hok.fails hfails, fun todo htodo => ?_, nofun⟩
    exact hok.remaining todo htodo
  | prepare | closing | onClose | request | openFactory | openFailed | openOpened | openBlock
  | openRejected | opened | recover | block | answered | complete | completeRead
  | completeCheck | completeFailed | shutdownWait | shutdownHandles | done => cases hfails

/-! ## The invariant along runs -/

section Step

variable {w : World}

/-- While the coordinator is free, no `prepare` is at work and none has failed. -/
theorem Inv.alone (hw : Inv w) (hfree : w.coordinator.Free) :
    w.threads.countP Pc.works = 0 ∧ ∀ pc ∈ w.threads, pc.works = false ∧ pc.fails = false := by
  have hbad {q : Prop} (hstate : w.coordinator.state = .preparing ∨ w.coordinator.state = .blocked)
      (hrec : w.coordinator.recovering = false) : q := by
    rcases hfree with h | h
    · exact absurd hstate (not_or.mpr h)
    · exact absurd (h.symm.trans hrec) (by decide)
  have hnone : w.threads.countP Pc.works = 0 := by
    by_contra hne
    obtain ⟨hstate, hrec⟩ := hw.working (Nat.pos_of_ne_zero hne)
    exact hbad hstate hrec
  refine ⟨hnone, fun pc hpc => ⟨?_, ?_⟩⟩
  · exact Bool.eq_false_iff.mpr (List.countP_eq_zero.mp hnone pc hpc)
  · by_contra hfails
    obtain ⟨hstate, hrec⟩ := (hw.ok pc hpc).fails (Bool.not_eq_false _ ▸ hfails)
    exact hbad (Or.inr hstate) hrec

/-- What a method that is no `prepare` relies on survives a free step. -/
theorem Ok.loose {c c' : Coordinator} {handle : Option ℕ} (hok : Ok c pc)
    (hworks : pc.works = false) (hfails : pc.fails = false) (hloose : Loose c c' handle) :
    Ok c' pc where
  recovers := by
    intro started hstarted
    obtain ⟨hle, hrec⟩ := hok.recovers started hstarted
    rw [hloose.prepares]
    exact ⟨hle, fun h => hloose.recovering (hrec h)⟩
  fails := fun h => absurd (hfails.symm.trans h) (by decide)
  remaining := fun todo htodo => by
    rw [(Pc.plain_of_idle hworks hfails).1] at htodo
    cases htodo
  quiet := fun h => absurd ((Pc.plain_of_idle hworks hfails).2.symm.trans h) (by decide)
  handle := fun h hh => hloose.nextHandle ▸ hok.handle h hh

/-- The moved method, from what its step shows. -/
theorem Ok.next {c : Coordinator} {next : Coordinator × Pc} (hok : Ok c pc)
    (hmove : Move c pc next) (hprepares : next.1.prepares = c.prepares)
    (hrecovering : c.recovering = true → next.1.recovering = true) (harrives : Arrives next) :
    Ok next.1 next.2 where
  recovers := by
    intro started hstarted
    rcases hmove.recovers with h | h
    · rw [h] at hstarted
      cases hstarted
    · obtain ⟨hle, hrec⟩ := hok.recovers started (h ▸ hstarted)
      exact ⟨hprepares ▸ hle, fun h => hrecovering (hrec (h.trans hprepares))⟩
  fails := harrives.fails
  remaining := harrives.remaining
  quiet := harrives.quiet
  handle := hmove.handle

/-- A method that is no `prepare` does not become one. -/
theorem Move.arrives {c : Coordinator} {next : Coordinator × Pc} (hmove : Move c pc next)
    (hworks : pc.works = false) (hfails : pc.fails = false) :
    next.2.works = false ∧ Arrives next := by
  have hworks' : next.2.works = false :=
    Bool.eq_false_iff.mpr fun h => absurd (hworks.symm.trans (hmove.works h)) (by decide)
  have hfails' : next.2.fails = false := by
    refine Bool.eq_false_iff.mpr fun h => ?_
    rcases hmove.fails h with h | h
    · exact absurd (hworks.symm.trans h) (by decide)
    · exact absurd (hfails.symm.trans h) (by decide)
  obtain ⟨hremaining, hquiet⟩ := Pc.plain_of_idle hworks' hfails'
  exact ⟨hworks', .plain hremaining hfails' hquiet⟩

variable {i : ℕ}

theorem Inv.move (hw : Inv w) (hpc : w.threads[i]? = some pc) (env : Env) :
    Move w.coordinator pc (advance env w.coordinator pc) := by
  refine advance_move env w.coordinator (fun h => ?_) (fun h => ?_)
    (hw.ok pc (List.mem_of_getElem? hpc)).handle
  · exact hw.requests ▸ Pool.countP_pos_of_get hpc h
  · exact hw.opening ▸ Pool.countP_pos_of_get hpc h

/-- The counters follow the methods. -/
theorem Inv.counted (hw : Inv w) (hpc : w.threads[i]? = some pc) (env : Env) :
    (advance env w.coordinator pc).1.requests =
        (w.threads.set i (advance env w.coordinator pc).2).countP Pc.isRequest ∧
      (advance env w.coordinator pc).1.openingHandles =
        (w.threads.set i (advance env w.coordinator pc).2).countP Pc.opens := by
  have hmove := hw.move hpc env
  constructor
  · have := Pool.countP_set (p := Pc.isRequest) (b := (advance env w.coordinator pc).2) hpc
    have := hmove.requests
    have := hw.requests
    omega
  · have := Pool.countP_set (p := Pc.opens) (b := (advance env w.coordinator pc).2) hpc
    have := hmove.opening
    have := hw.opening
    omega

/-- Over a calm change of the coordinator the invariant holds of threads that are counted, of which
no more are at work than before, and that fit the new state. -/
theorem Inv.of_calm (hw : Inv w) {c' : Coordinator} {threads : List Pc}
    (hcalm : Calm w.coordinator c') (hrequests : c'.requests = threads.countP Pc.isRequest)
    (hopening : c'.openingHandles = threads.countP Pc.opens)
    (hworks : threads.countP Pc.works ≤ w.threads.countP Pc.works)
    (hok : ∀ pc ∈ threads, Ok c' pc) : Inv ⟨c', threads⟩ := by
  refine ⟨hrequests, hopening, hworks.trans hw.single, fun hpos => ?_, fun hclosed => ?_, hok,
    hcalm.leased hw.leased, ?_, fun hprepared hrec => ?_⟩
  · obtain ⟨hstate, hrec⟩ := hw.working (lt_of_lt_of_le hpos hworks)
    refine ⟨?_, hcalm.recovering.trans hrec⟩
    rcases hcalm.state with h | h
    · exact hstate.imp h.trans h.trans
    · exact Or.inr h
  · rcases hcalm.closed hclosed with h | h
    · exact hcalm.state.elim (fun hsame => hsame.trans (hw.closed h)) id
    · exact h
  · exact fun h hh => lt_of_lt_of_le (hw.fresh h (hcalm.handles h hh)) hcalm.nextHandle
  · have hstate : w.coordinator.state = .prepared := by
      rcases hcalm.state with h | h
      · exact h.symm.trans hprepared
      · exact absurd (h.symm.trans hprepared) (by decide)
    exact (hw.prepared hstate (hcalm.recovering.symm.trans hrec)).calm hcalm

/-- A calm step keeps the invariant. -/
theorem Inv.calm (hw : Inv w) (hpc : w.threads[i]? = some pc) {env : Env}
    (hcareful : pc.Careful w.coordinator)
    (hcalm : Calm w.coordinator (advance env w.coordinator pc).1) :
    Inv ⟨(advance env w.coordinator pc).1, w.threads.set i (advance env w.coordinator pc).2⟩ := by
  have hmove := hw.move hpc env
  have hok := hw.ok pc (List.mem_of_getElem? hpc)
  have hle : (w.threads.set i (advance env w.coordinator pc).2).countP Pc.works ≤
      w.threads.countP Pc.works := by
    have := Pool.countP_set (p := Pc.works) (b := (advance env w.coordinator pc).2) hpc
    have hto : (advance env w.coordinator pc).2.works.toNat ≤ pc.works.toNat := by
      cases hnext : (advance env w.coordinator pc).2.works with
      | false => exact Nat.zero_le _
      | true => rw [hmove.works hnext]
    omega
  have harrives : Arrives (advance env w.coordinator pc) := by
    cases hworks : pc.works with
    | true =>
      obtain ⟨hstate, hrec⟩ := hw.working (Pool.countP_pos_of_get hpc hworks)
      exact advance_arrives hok hcareful hworks hstate hrec hw.closed hw.leased
    | false =>
      cases hfails : pc.fails with
      | true => exact advance_failed hok hfails
      | false => exact (hmove.arrives hworks hfails).2
  obtain ⟨hrequests, hopening⟩ := hw.counted hpc env
  exact hw.of_calm hcalm hrequests hopening hle
    (Pool.forall_set (fun x hx => (hw.ok x hx).calm hw.fresh hcalm)
      (hok.next hmove hcalm.prepares hcalm.recovering.trans harrives))

/-- A free step keeps the invariant. -/
theorem Inv.loose (hw : Inv w) (hpc : w.threads[i]? = some pc) {env : Env}
    (hloose : Loose w.coordinator (advance env w.coordinator pc).1 pc.handle?) :
    Inv ⟨(advance env w.coordinator pc).1, w.threads.set i (advance env w.coordinator pc).2⟩ := by
  have hmove := hw.move hpc env
  have hmem := List.mem_of_getElem? hpc
  obtain ⟨hnone, halone⟩ := hw.alone hloose.free
  obtain ⟨hworks, harrives⟩ := hmove.arrives (halone pc hmem).1 (halone pc hmem).2
  have hzero : (w.threads.set i (advance env w.coordinator pc).2).countP Pc.works = 0 := by
    have := Pool.countP_set (p := Pc.works) (b := (advance env w.coordinator pc).2) hpc
    rw [hnone, hworks, (halone pc hmem).1] at this
    simpa only [Bool.toNat_false, Nat.add_zero] using this
  obtain ⟨hrequests, hopening⟩ := hw.counted hpc env
  refine ⟨hrequests, hopening, hzero.le.trans (Nat.zero_le _), fun hpos => ?_, hloose.closed, ?_, ?_,
    ?_, ?_⟩
  · exact absurd hpos (by rw [show List.countP _ _ = 0 from hzero]; decide)
  · exact Pool.forall_set
      (fun x hx => (hw.ok x hx).loose (halone x hx).1 (halone x hx).2 hloose)
      ((hw.ok pc hmem).next hmove hloose.prepares hloose.recovering harrives)
  · exact hloose.leased hw.leased
  · intro h hh
    rw [hloose.nextHandle]
    rcases hloose.handles h hh with hh | hh
    · exact hw.fresh h hh
    · exact (hw.ok pc hmem).handle h hh
  · intro hprepared hrec
    exact absurd ((hloose.prepared hprepared).symm.trans hrec) (by decide)

/-- The end of `prepare` keeps the invariant: the daemon is at rest. -/
theorem Inv.final (hw : Inv w) {p : Prepare} {identity : Option Identity}
    (hpc : w.threads[i]? = some (.prepare p (.final identity)))
    (hclosed : w.coordinator.closed = false) (hstate : w.coordinator.state = .preparing)
    (env : Env) :
    Inv ⟨(advance env w.coordinator (.prepare p (.final identity))).1,
      w.threads.set i (advance env w.coordinator (.prepare p (.final identity))).2⟩ := by
  have hok := hw.ok _ (List.mem_of_getElem? hpc)
  have hrest : w.coordinator.AtRest := hok.quiet rfl
  have hif : ¬ (w.coordinator.closed = true ∨ w.coordinator.state ≠ .preparing) := by
    rw [hclosed, hstate]
    decide
  obtain ⟨hrequests, hopening⟩ := hw.counted hpc env
  simp only [advance, advancePrepare, if_neg hif] at hrequests hopening ⊢
  have hzero := Pool.not_of_countP_le_one (p := Pc.works)
    (b := .prepareReturn (.prepared p.drainedRequests p.handles p.builders identity)) hpc rfl
    hw.single rfl
  refine ⟨hrequests, hopening, hzero.le.trans (Nat.zero_le _), fun hpos => ?_, fun h => ?_, ?_,
    hw.leased, hw.fresh, fun _ _ => ⟨hrest.1, hrest.2, hrest.3, hrest.4⟩⟩
  · exact absurd hpos (by rw [show List.countP _ _ = 0 from hzero]; decide)
  · exact absurd (hclosed.symm.trans h) (by decide)
  · refine Pool.forall_set (fun x hx => ?_) ⟨nofun, nofun, nofun, nofun, nofun⟩
    obtain ⟨h1, h2, h3, h4, h5⟩ := hw.ok x hx
    refine ⟨h1, fun hf => ?_, h3, fun hq => ?_, h5⟩
    · exact absurd (hstate.symm.trans (h2 hf).1) (by decide)
    · exact ⟨hrest.1, hrest.2, hrest.3, hrest.4⟩

/-- A method begins, or none does, and nothing else is taken on. -/
theorem Inv.begin_calm (hw : Inv w) {c' : Coordinator} (begun : Option Pc)
    (hcalm : Calm w.coordinator c')
    (hrequests : c'.requests = w.coordinator.requests)
    (hopening : c'.openingHandles = w.coordinator.openingHandles)
    (hplain : ∀ pc ∈ begun, pc.isRequest = false ∧ pc.opens = false ∧ pc.works = false ∧
      pc.fails = false ∧ pc.recovers = none ∧ pc.handle? = none) :
    Inv ⟨c', w.threads ++ begun.toList⟩ := by
  have hcount {p : Pc → Bool} (hp : ∀ pc ∈ begun, p pc = false) :
      (w.threads ++ begun.toList).countP p = w.threads.countP p := by
    have hzero : begun.toList.countP p = 0 := by
      refine List.countP_eq_zero.mpr fun pc hpc => ?_
      rw [hp pc (Option.mem_toList.mp hpc)]
      decide
    rw [List.countP_append, hzero, Nat.add_zero]
  have hworks := hcount fun pc hpc => (hplain pc hpc).2.2.1
  refine hw.of_calm hcalm ?_ ?_ hworks.le fun pc hpc => ?_
  · exact hrequests.trans (hw.requests.trans (hcount fun pc hpc => (hplain pc hpc).1).symm)
  · exact hopening.trans (hw.opening.trans (hcount fun pc hpc => (hplain pc hpc).2.1).symm)
  rcases List.mem_append.mp hpc with hpc | hpc
  · exact (hw.ok pc hpc).calm hw.fresh hcalm
  · obtain ⟨-, -, hworks, hfails, hrecovers, hhandle⟩ := hplain pc (Option.mem_toList.mp hpc)
    obtain ⟨hremaining, hquiet⟩ := Pc.plain_of_idle hworks hfails
    exact ⟨by rw [hrecovers]; exact nofun, fun h => absurd (hfails.symm.trans h) (by decide),
      by rw [hremaining]; exact nofun, fun h => absurd (hquiet.symm.trans h) (by decide),
      by rw [hhandle]; exact nofun⟩

/-- A method begins, or none does, while the coordinator is free. -/
theorem Inv.begin_loose (hw : Inv w) (c' : Coordinator) (begun : Option Pc)
    (hloose : Loose w.coordinator c' none)
    (hrequests : c'.requests = w.coordinator.requests + begun.toList.countP Pc.isRequest)
    (hopening : c'.openingHandles = w.coordinator.openingHandles + begun.toList.countP Pc.opens)
    (hplain : ∀ pc ∈ begun, pc.works = false ∧ pc.fails = false ∧ pc.handle? = none ∧
      ∀ started ∈ pc.recovers, started = c'.prepares ∧ c'.recovering = true) :
    Inv ⟨c', w.threads ++ begun.toList⟩ := by
  obtain ⟨hnone, halone⟩ := hw.alone hloose.free
  have hzero : (w.threads ++ begun.toList).countP Pc.works = 0 := by
    refine List.countP_eq_zero.mpr fun pc hpc => ?_
    rcases List.mem_append.mp hpc with hpc | hpc
    · rw [(halone pc hpc).1]
      decide
    · rw [(hplain pc (Option.mem_toList.mp hpc)).1]
      decide
  refine ⟨?_, ?_, hzero.le.trans (Nat.zero_le _), fun hpos => ?_, hloose.closed, fun pc hpc => ?_,
    hloose.leased hw.leased, ?_, ?_⟩
  · rw [List.countP_append, ← hw.requests]
    exact hrequests
  · rw [List.countP_append, ← hw.opening]
    exact hopening
  · exact absurd hpos (by rw [show List.countP _ _ = 0 from hzero]; decide)
  · rcases List.mem_append.mp hpc with hpc | hpc
    · exact (hw.ok pc hpc).loose (halone pc hpc).1 (halone pc hpc).2 hloose
    · obtain ⟨hworks, hfails, hhandle, hrecovers⟩ := hplain pc (Option.mem_toList.mp hpc)
      obtain ⟨hremaining, hquiet⟩ := Pc.plain_of_idle hworks hfails
      exact ⟨fun started h => ⟨(hrecovers started h).1.le, fun _ => (hrecovers started h).2⟩,
        fun h => absurd (hfails.symm.trans h) (by decide), by rw [hremaining]; exact nofun,
        fun h => absurd (hquiet.symm.trans h) (by decide), by rw [hhandle]; exact nofun⟩
  · intro h hh
    rw [show c'.nextHandle = _ from hloose.nextHandle]
    exact hw.fresh h ((hloose.handles h hh).resolve_right nofun)
  · intro hprepared hrec
    exact absurd ((hloose.prepared hprepared).symm.trans hrec) (by decide)

/-- `prepare` begins while the coordinator serves. -/
theorem Inv.begin_prepare (hw : Inv w) (hadmits : w.coordinator.admits = true)
    (operationId : Text) (leaseId : Option ℕ) (p : Prepare) :
    Inv ⟨w.coordinator.beginPrepare operationId leaseId, w.threads ++ [.prepare p .wait]⟩ := by
  simp only [Coordinator.admits, Bool.and_eq_true, Bool.not_eq_true', decide_eq_true_eq] at hadmits
  obtain ⟨hclosed, hserving⟩ := hadmits
  obtain ⟨hnone, halone⟩ := hw.alone (Or.inl (by rw [hserving]; decide))
  have hone : (w.threads ++ [Pc.prepare p .wait]).countP Pc.works = 1 := by
    rw [Pool.countP_concat, hnone]
    rfl
  have hsame (q : Pc → Bool) (hq : q (.prepare p .wait) = false) :
      (w.threads ++ [Pc.prepare p .wait]).countP q = w.threads.countP q := by
    rw [Pool.countP_concat, hq]
    rfl
  refine ⟨?_, ?_, hone.le, fun _ => ⟨Or.inl rfl, rfl⟩, fun h => ?_, ?_, hw.leased, hw.fresh, nofun⟩
  · exact hw.requests.trans (hsame Pc.isRequest rfl).symm
  · exact hw.opening.trans (hsame Pc.opens rfl).symm
  · exact absurd (hclosed.symm.trans h) (by decide)
  · refine Pool.forall_concat (fun x hx => ?_) ⟨nofun, nofun, nofun, nofun, nofun⟩
    obtain ⟨hworks, hfails⟩ := halone x hx
    obtain ⟨hremaining, hquiet⟩ := Pc.plain_of_idle hworks hfails
    refine ⟨fun started hstarted => ?_, fun h => absurd (hfails.symm.trans h) (by decide),
      by rw [hremaining]; exact nofun, fun h => absurd (hquiet.symm.trans h) (by decide),
      (hw.ok x hx).handle⟩
    have hle := ((hw.ok x hx).recovers started hstarted).1
    refine ⟨hle.trans (Nat.le_succ _), fun heq => ?_⟩
    exact absurd (hle.trans_lt (Nat.lt_succ_self _)) (by rw [heq]; exact lt_irrefl _)

end Step

/-- The condition on a step. -/
def Careful (w : World) : Action → Prop
  | .advance i _ => ∀ pc ∈ w.threads[i]?, pc.Careful w.coordinator
  | _ => True

/-- Work taken on while the coordinator serves. -/
theorem loose_of_admits {c c' : Coordinator} (hclosed : c.closed = true → c.state = .blocked)
    (hadmits : c.admits = true)
    (hsame : c' = { c with
      requests := c'.requests, openingHandles := c'.openingHandles, builders := c'.builders }) :
    Loose c c' none := by
  have hserving : c.state = .serving := by
    simp only [Coordinator.admits, Bool.and_eq_true, decide_eq_true_eq] at hadmits
    exact hadmits.2
  rw [hsame]
  refine ⟨Or.inl (by rw [hserving]; decide), rfl, id, rfl, id, hclosed, fun _ hh => Or.inl hh,
    fun hp => ?_⟩
  exact absurd (hserving.symm.trans hp) (by decide)

theorem Inv.beginRecovery {w : World} (hw : Inv w) (hstate : w.coordinator.state = .prepared) :
    Inv w.beginRecovery := by
  refine hw.begin_loose _ (some (.recover w.coordinator.prepares .start))
    ⟨Or.inl (by rw [hstate]; decide), rfl, fun _ => rfl, rfl, id, hw.closed, fun _ hh => Or.inl hh,
      fun _ => rfl⟩ rfl rfl ?_
  rintro pc ⟨⟩
  exact ⟨rfl, rfl, rfl, by rintro started ⟨⟩; exact ⟨rfl, rfl⟩⟩

theorem Inv.step {w : World} (hw : Inv w) {a : Action} (ha : Careful w a) :
    Inv (Maintenance.step w a) := by
  have hbegin (pc : Pc) (h : pc.isRequest = false ∧ pc.opens = false ∧ pc.works = false ∧
      pc.fails = false ∧ pc.recovers = none ∧ pc.handle? = none) : Inv (w.spawn pc) :=
    hw.begin_calm (some pc) (Calm.refl _) rfl rfl (by rintro pc ⟨⟩; exact h)
  have hset {c' : Coordinator} (hcalm : Calm w.coordinator c')
      (hrequests : c'.requests = w.coordinator.requests)
      (hopening : c'.openingHandles = w.coordinator.openingHandles) : Inv (w.set c') := by
    have := hw.begin_calm none hcalm hrequests hopening (by rintro _ ⟨⟩)
    rwa [Option.toList_none, List.append_nil] at this
  cases a with
  | beginRequest =>
    simp only [Maintenance.step]
    split_ifs with h
    · exact hw.begin_loose _ (some .request) (loose_of_admits hw.closed h rfl) rfl rfl
        (by rintro pc ⟨⟩; exact ⟨rfl, rfl, rfl, nofun⟩)
    · exact hw
  | openFactHandle =>
    simp only [Maintenance.step]
    split_ifs with h
    · exact hw.begin_loose _ (some .openFactory) (loose_of_admits hw.closed h rfl) rfl rfl
        (by rintro pc ⟨⟩; exact ⟨rfl, rfl, rfl, nofun⟩)
    · exact hw
  | closeHandle h => exact hbegin (.closing [h] .done) ⟨rfl, rfl, rfl, rfl, rfl, rfl⟩
  | registerBuilder b =>
    simp only [Maintenance.step]
    split_ifs with h
    · have := hw.begin_loose
        { w.coordinator with builders := add b w.coordinator.builders } none
        (loose_of_admits hw.closed h rfl) rfl rfl nofun
      rwa [Option.toList_none, List.append_nil] at this
    · exact hw
  | unregisterBuilder b =>
    exact hset { Calm.refl _ with builders := fun _ hb => (mem_discard.mp hb).1 } rfl rfl
  | prepare operationId leaseId expectUnreadable =>
    simp only [Maintenance.step]
    split_ifs with h
    · exact hw.begin_prepare h operationId leaseId _
    · exact hbegin (.returned .inProgress) ⟨rfl, rfl, rfl, rfl, rfl, rfl⟩
  | assertPrepared => exact hw
  | reopen operationId leaseId =>
    simp only [Maintenance.step]
    split_ifs with h
    · simp only [Coordinator.assertPrepared, Bool.and_eq_true, decide_eq_true_eq] at h
      exact hw.beginRecovery h.1
    · exact hbegin (.answered .operationIdMismatch) ⟨rfl, rfl, rfl, rfl, rfl, rfl⟩
  | leaseLost operationId leaseId =>
    simp only [Maintenance.step]
    split_ifs with hstale hpreparing hprepared
    · exact hset (calm_block _ _) rfl rfl
    · exact hw.beginRecovery hprepared
    · exact hw
    · exact hw
  | complete target => exact hbegin (.complete target) ⟨rfl, rfl, rfl, rfl, rfl, rfl⟩
  | close =>
    simp only [Maintenance.step]
    split_ifs
    · exact hw
    · exact hw.begin_calm (some .shutdownWait)
        { calm_block .coordinatorClosed w.coordinator with closed := fun _ => Or.inr rfl } rfl rfl
        (by rintro pc ⟨⟩; exact ⟨rfl, rfl, rfl, rfl, rfl, rfl⟩)
  | advance i env =>
    simp only [Maintenance.step]
    cases hpc : w.threads[i]? with
    | none => exact hw
    | some pc =>
      have hcareful := ha pc hpc
      rcases advance_effect env hcareful (hw.ok pc (List.mem_of_getElem? hpc)) hw.closed
        with hcalm | hloose | ⟨p, identity, rfl, hclosed, hstate⟩
      · exact hw.calm hpc hcareful hcalm
      · exact hw.loose hpc hloose
      · exact hw.final hpc hclosed hstate env

/-! ## What a maintenance can rely on -/

/-- The promise of the coordinator.  `prepared`: no request, no opening, no registered handle and no
registered builder while the daemon is prepared and no recovery has begun.  `failed`: once a
`prepare` that had left `serving` has returned a failure, no registered handle holds a lease. -/
structure Quiesced (w : World) : Prop where
  prepared : w.coordinator.state = .prepared → w.coordinator.recovering = false →
    w.coordinator.AtRest ∧ ∀ pc ∈ w.threads, pc.isRequest = false ∧ pc.opens = false
  failed : ∀ code state, .returned (.failed code state) ∈ w.threads → w.coordinator.LeasesIn []

theorem Inv.quiesced {w : World} (hw : Inv w) : Quiesced w where
  prepared := by
    intro hstate hrec
    have hrest := hw.prepared hstate hrec
    have hrequests := List.countP_eq_zero.mp (hw.requests.symm.trans hrest.requests)
    have hopening := List.countP_eq_zero.mp (hw.opening.symm.trans hrest.openingHandles)
    exact ⟨hrest, fun pc hpc =>
      ⟨Bool.eq_false_iff.mpr (hrequests pc hpc), Bool.eq_false_iff.mpr (hopening pc hpc)⟩⟩
  failed := fun _ _ hmem => (hw.ok _ hmem).remaining [] rfl

/-- A coordinator without work and without methods. -/
structure Coordinator.Idle (c : Coordinator) : Prop where
  requests : c.requests = 0
  openingHandles : c.openingHandles = 0
  closed : c.closed = false
  state : c.state ≠ .prepared
  leased : c.Leased
  fresh : ∀ h ∈ c.handles, h < c.nextHandle

theorem idle_initializeFactEpoch (env : Env) : (initializeFactEpoch env).Idle := by
  have hempty : Coordinator.Leased {} := List.forall_mem_nil _
  have hopened (usable : Bool) : (Coordinator.openHandle usable {}).Leased :=
    (calm_openHandle usable {}).leased hempty
  have hreleased (usable : Bool) : ((Coordinator.openHandle usable {}).release 0).Leased :=
    (calm_release 0 _).leased (hopened usable)
  unfold initializeFactEpoch
  simp only
  split_ifs
  · exact ⟨rfl, rfl, rfl, nofun, hempty, List.forall_mem_nil _⟩
  · split
    · exact ⟨rfl, rfl, rfl, nofun, hreleased _, List.forall_mem_nil _⟩
    · refine ⟨rfl, rfl, rfl, nofun, hopened _, fun h hh => ?_⟩
      rw [List.mem_singleton.mp hh]
      exact Nat.lt_succ_self _
  · exact ⟨rfl, rfl, rfl, nofun, hreleased _, List.forall_mem_nil _⟩

theorem inv_started (auto : Bool) (env : Env) : Inv (started auto env) := by
  have hidle : (started auto env).coordinator.Idle := by
    unfold started
    simp only
    split_ifs
    · exact idle_initializeFactEpoch env
    · exact ⟨rfl, rfl, rfl, nofun, List.forall_mem_nil _,
        List.forall_mem_nil _⟩
  refine ⟨hidle.requests, hidle.openingHandles, Nat.zero_le _, fun h => absurd h (lt_irrefl 0),
    fun h => ?_, List.forall_mem_nil _, hidle.leased, hidle.fresh,
    fun h => absurd h hidle.state⟩
  exact absurd (hidle.closed.symm.trans h) (by decide)

/-- **A prepared daemon is quiet, and a failed `prepare` leaves no lease behind.**  In every run in
which no first waiting loop is left through a change of the state while a registered handle holds a
lease, and no recovery goes on after a later `prepare` has begun. -/
theorem maintenance_quiesced (auto : Bool) (env : Env) (as : List Action)
    (has : Along step Careful (started auto env) as) :
    Quiesced (run step (started auto env) as) :=
  Inv.quiesced (run_invariant_along (I := Inv) (fun _ _ ha hw => Inv.step hw ha)
    (inv_started auto env) has)

instance decidablePcCareful (c : Coordinator) : ∀ pc : Pc, Decidable (pc.Careful c)
  | .prepare _ .wait => inferInstanceAs (Decidable (_ → _ → _))
  | .recover _ .count | .recover _ (.finish ..) | .recover _ .pristine =>
    inferInstanceAs (Decidable (_ = _))
  | .prepare _ .builders | .prepare _ (.builder _) | .prepare _ (.stop ..)
  | .prepare _ (.waitIdle ..) | .prepare _ (.unregister ..) | .prepare _ .handles
  | .prepare _ .drained | .prepare _ .identity | .prepare _ (.final _)
  | .prepare _ (.failureHandles _) | .prepare _ (.failureBuilders _)
  | .prepare _ (.failureBlock _) | .recover _ .start | .recover _ .identity
  | .recover _ .openHandle | .recover _ (.opened ..) | .recover _ (.check ..)
  | .recover _ (.invalidate ..) | .recover _ (.rebuild _) | .recover _ (.state _)
  | .recover _ .failed | .request | .openFactory | .openFailed | .openOpened _ | .openBlock
  | .openRejected | .opened _ | .prepareReturn _ | .returned _ | .block _ | .answered _
  | .complete _ | .completeRead .. | .completeCheck .. | .completeFailed | .shutdownWait
  | .shutdownHandles | .closing .. | .onClose .. | .done => isTrue trivial

instance decidableCareful (w : World) : ∀ a : Action, Decidable (Careful w a)
  | .advance .. => inferInstanceAs (Decidable (∀ _ ∈ _, _))
  | .beginRequest | .openFactHandle | .closeHandle _ | .registerBuilder _ | .unregisterBuilder _
  | .prepare .. | .assertPrepared .. | .reopen .. | .leaseLost .. | .complete _ | .close =>
    isTrue trivial

/-- A store that can be read. -/
def sampleEnv : Env := { identity := some ⟨ascii "e", 1, 0⟩ }

/-- The control connection drops while `prepare` waits for a request, and its own check finds it. -/
def droppedRun : List Action :=
  [.beginRequest, .prepare (ascii "op") (some 0) false, .advance 1 sampleEnv,
    .advance 1 { sampleEnv with alive := false }, .advance 1 sampleEnv]

theorem maintenance_quiesced_sample :
    (run step (started true sampleEnv) droppedRun).coordinator.state = .blocked ∧
      Quiesced (run step (started true sampleEnv) droppedRun) :=
  ⟨by decide, maintenance_quiesced true sampleEnv droppedRun (by decide)⟩

/-- The same, but the state is changed by `lease_lost`. -/
def lostRun : List Action :=
  [.beginRequest, .prepare (ascii "op") (some 0) false, .advance 1 sampleEnv,
    .leaseLost (ascii "op") (some 0), .advance 1 sampleEnv, .advance 1 sampleEnv]

/-- Two recoveries begin from one maintenance.  The first ends it, another maintenance is prepared,
and the second one starts to open its handle. -/
def twiceRun : List Action :=
  .prepare (ascii "op") (some 0) false :: List.replicate 13 (.advance 0 sampleEnv) ++
    [.reopen (ascii "op") (some 0), .leaseLost (ascii "op") (some 0)] ++
    List.replicate 6 (.advance 1 sampleEnv) ++
    .prepare (ascii "po") (some 1) false :: List.replicate 13 (.advance 3 sampleEnv) ++
    List.replicate 2 (.advance 2 sampleEnv)

/-- **A failed `prepare` leaves a lease behind, and a prepared daemon is not quiet.** -/
theorem maintenance_not_quiesced :
    ¬ Quiesced (run step (started true sampleEnv) lostRun) ∧
      ¬ Quiesced (run step (started true sampleEnv) twiceRun) := by
  constructor
  · intro h
    have hmem : Pc.returned (.failed (some .controlLeaseLost) .blocked) ∈
        (run step (started true sampleEnv) lostRun).threads := by decide
    exact List.not_mem_nil (h.failed _ _ hmem 0 (by decide) (by decide))
  · intro h
    have hrest := (h.prepared (by decide) (by decide)).1.openingHandles
    exact absurd hrest (by decide)

end Maintenance
end SemanticMemory
