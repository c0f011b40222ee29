import SemanticMemory.Lib.Pool
import SemanticMemory.Maintenance.Recovery

/-!
# After a maintenance

What a completed maintenance leaves of the builder that `prepare` has stopped and unregistered
(`daemon/coordinator.py`).  `_recover` comes back to `serving` through the same epoch, through the
pristine store or through a rebuild; none of the three registers the builder again, and only the
last one starts its worker.

* `Pc.leaves` lists the builders that may still be registered where a `prepare` stands; the list is
  empty once `prepare` has told every builder to stop.
* The registry only grows by `register_builder`, which the daemon calls once, when it comes up.
-/

namespace SemanticMemory
namespace Maintenance

open Runs

/-! ## The registry of builders -/

/-- The result of a `prepare` that went through. -/
def PrepareResult.isPrepared : PrepareResult → Bool
  | .prepared .. => true
  | _ => false

/-- A `prepare` has gone through. -/
def Pc.prepared : Pc → Bool
  | .prepareReturn result | .returned result => result.isPrepared
  | _ => false

/-- The builders that may still be registered, of those that were when `prepare` looked. -/
def Pc.leaves : Pc → Option (List ℕ)
  | .prepare _ (.builder todo) => some todo
  | .prepare _ (.stop b todo) | .prepare _ (.waitIdle b todo) => some (b :: todo)
  | .prepare _ (.unregister b todo) => some (b :: todo)
  | .prepare _ .handles | .prepare _ .drained | .prepare _ .identity | .prepare _ (.final _) =>
    some []
  | .closing _ (.prepare _) | .onClose _ _ _ (.prepare _) => some []
  | pc => if pc.prepared then some [] else none

/-- The builder is among those that `prepare` still has to unregister. -/
def Pc.Leaves (b : ℕ) (c : Coordinator) (pc : Pc) : Prop :=
  ∀ todo ∈ pc.leaves, b ∈ c.builders → b ∈ todo

/-- Where a stretch of code leads, as far as a builder goes. -/
structure Unregisters (b : ℕ) (c : Coordinator) (next : Coordinator × Pc) : Prop where
  builders : b ∈ next.1.builders → b ∈ c.builders
  leaves : next.2.Leaves b next.1

section

variable {b : ℕ} {c : Coordinator}

theorem Unregisters.plain {next : Coordinator × Pc}
    (hbuilders : b ∈ next.1.builders → b ∈ c.builders) (hleaves : next.2.leaves = none) :
    Unregisters b c next where
  builders := hbuilders
  leaves := fun todo h => by
    rw [hleaves] at h
    cases h

theorem unregisters_failLocked (code : Code) : Unregisters b c (c.failLocked code) :=
  .plain (fun h => absurd h List.not_mem_nil) rfl

theorem unregisters_waitTurn {env : Env} {p : Prepare} {busy : Bool} {here next : PreparePc}
    (hhere : (Pc.prepare p here).Leaves b c)
    (hnext : busy = false → (Pc.prepare p next).Leaves b c) :
    Unregisters b c (waitTurn env c p busy here next) := by
  unfold waitTurn
  split_ifs with hbusy
  · exact .plain id rfl
  · exact ⟨id, hhere⟩
  · exact unregisters_failLocked _
  · exact ⟨id, hnext (Bool.eq_false_iff.mpr hbusy)⟩

theorem advancePrepare_unregisters (env : Env) {p : Prepare} {pc : PreparePc}
    (h : (Pc.prepare p pc).Leaves b c) : Unregisters b c (advancePrepare env c p pc) := by
  cases pc with
  | wait => exact unregisters_waitTurn nofun fun _ => nofun
  | drained => exact unregisters_waitTurn h fun _ => h
  | builders =>
    refine ⟨id, ?_⟩
    rintro todo ⟨⟩ hmem
    exact Env.mem_enumerate.mpr hmem
  | builder todo =>
    cases todo with
    | nil => exact ⟨id, h⟩
    | cons x todo =>
      simp only [advancePrepare]
      split_ifs
      · exact unregisters_failLocked _
      · exact ⟨id, h⟩
  | stop x todo =>
    simp only [advancePrepare]
    split_ifs
    · exact .plain id rfl
    · exact ⟨id, h⟩
    · exact .plain id rfl
  | waitIdle x todo =>
    simp only [advancePrepare]
    split_ifs
    · exact .plain id rfl
    · exact ⟨id, h⟩
    · exact .plain id rfl
  | unregister x todo =>
    refine ⟨fun hmem => (mem_discard.mp hmem).1, ?_⟩
    rintro todo' ⟨⟩ hmem
    obtain ⟨hmem, hne⟩ := mem_discard.mp hmem
    exact (List.mem_cons.mp (h _ rfl hmem)).resolve_left hne
  | handles => exact ⟨id, h⟩
  | identity =>
    have hfinal (identity) : (Pc.prepare p (.final identity)).Leaves b c := h
    simp only [advancePrepare, prepareIdentity]
    by_cases hunreadable : p.expectUnreadable = true
    · rw [if_pos hunreadable]
      split_ifs
      · exact ⟨id, hfinal _⟩
      · exact .plain id rfl
    · rw [if_neg hunreadable]
      split <;> split_ifs <;> first | exact ⟨id, hfinal _⟩ | exact .plain id rfl
  | final identity =>
    simp only [advancePrepare]
    split_ifs
    · exact .plain id rfl
    · exact ⟨id, h⟩
  | failureBuilders code => exact .plain (fun h => absurd h List.not_mem_nil) rfl
  | failureHandles code | failureBlock code => exact .plain id rfl

theorem advanceRecover_unregisters (env : Env) (started : ℕ) (pc : RecoverPc) :
    Unregisters b c (advanceRecover env c started pc) := by
  have hregister (handle : Option ℕ) : (c.register handle).builders = c.builders := by
    cases handle <;> rfl
  cases pc with
  | identity =>
    simp only [advanceRecover]
    split <;> split_ifs <;> exact .plain id rfl
  | openHandle =>
    simp only [advanceRecover]
    by_cases h : env.raised = true
    · rw [if_pos h]
      exact .plain id rfl
    · rw [if_neg h]
      exact .plain id rfl
  | opened handle identity => cases identity <;> exact .plain id rfl
  | finish handle identity =>
    simp only [advanceRecover, recoverFinish]
    split_ifs
    · exact .plain id rfl
    · exact .plain (fun h => hregister handle ▸ h) rfl
    · exact .plain (fun h => hregister handle ▸ h) rfl
  | start | count | check | pristine | invalidate | rebuild =>
    simp only [advanceRecover]
    split_ifs <;> exact .plain id rfl
  | state | failed => exact .plain id rfl

theorem advance_unregisters (env : Env) {pc : Pc} (h : pc.Leaves b c) :
    Unregisters b c (advance env c pc) := by
  cases pc with
  | prepare p pc => exact advancePrepare_unregisters env h
  | prepareReturn result | returned result => exact ⟨id, h⟩
  | recover started pc => exact advanceRecover_unregisters env started pc
  | openFactory | openOpened | complete | completeRead | shutdownWait =>
    simp only [advance]
    split_ifs <;> exact .plain id rfl
  | completeCheck target identity =>
    simp only [advance, completeCheck]
    split_ifs <;> exact .plain id rfl
  | closing todo next =>
    cases todo with
    | nil => cases next <;> exact ⟨id, h⟩
    | cons x todo =>
      simp only [advance]
      split_ifs <;> exact ⟨id, by cases next <;> exact h⟩
  | onClose x raised todo next =>
    cases next with
    | prepare p =>
      cases raised with
      | true => exact .plain id rfl
      | false => exact ⟨id, h⟩
    | done | rejected | failure | block => cases raised <;> exact .plain id rfl
  | request | openFailed | openBlock | openRejected | block | completeFailed | shutdownHandles
  | opened | answered | done => exact .plain id rfl

end

/-- Every `prepare` still has the builder before it. -/
def World.Leaves (b : ℕ) (w : World) : Prop := ∀ pc ∈ w.threads, pc.Leaves b w.coordinator

theorem World.Leaves.step {b : ℕ} {w : World} (hw : w.Leaves b) {a : Action}
    (ha : a ≠ .registerBuilder b) : (step w a).Leaves b := by
  have hshrink {c' : Coordinator} (h : b ∈ c'.builders → b ∈ w.coordinator.builders) :
      ∀ pc ∈ w.threads, pc.Leaves b c' := fun pc hpc todo htodo hmem => hw pc hpc todo htodo (h hmem)
  have hspawn {c' : Coordinator} {pc : Pc} (h : b ∈ c'.builders → b ∈ w.coordinator.builders)
      (hpc : pc.leaves = none) : ((w.set c').spawn pc).Leaves b :=
    Pool.forall_concat (hshrink h) fun todo htodo => by
      rw [hpc] at htodo
      cases htodo
  cases a with
  | beginRequest | openFactHandle =>
    simp only [Maintenance.step]
    split_ifs
    · exact hspawn id rfl
    · exact hw
  | closeHandle h => exact hspawn id rfl
  | registerBuilder x =>
    simp only [Maintenance.step]
    split_ifs
    · refine hshrink fun h => (mem_add.mp h).resolve_left fun hbx => ?_
      exact ha (by rw [hbx])
    · exact hw
  | unregisterBuilder x => exact hshrink fun h => (mem_discard.mp h).1
  | prepare operationId leaseId expectUnreadable =>
    simp only [Maintenance.step]
    split_ifs
    · exact hspawn id rfl
    · exact hspawn id rfl
  | assertPrepared => exact hw
  | reopen operationId leaseId =>
    simp only [Maintenance.step]
    split_ifs
    · exact hspawn id rfl
    · exact hspawn id rfl
  | leaseLost operationId leaseId =>
    simp only [Maintenance.step]
    split_ifs
    · exact hshrink id
    · exact hspawn id rfl
    · exact hw
    · exact hw
  | complete target => exact hspawn id rfl
  | close =>
    simp only [Maintenance.step]
    split_ifs
    · exact hw
    · exact hspawn id rfl
  | advance i env =>
    simp only [Maintenance.step]
    split
    · exact hw
    · next pc hpc =>
      have hnext := advance_unregisters env (hw pc (List.mem_of_getElem? hpc))
      exact Pool.forall_set (hshrink hnext.builders) hnext.leaves

/-! ## The builder of the daemon -/

namespace Daemon

/-- What a completed maintenance owes the delta machine: while the coordinator serves, the worker is
not stopped, and the machine is among the builders that the next `prepare` quiesces. -/
structure Restored (d : Daemon) : Prop where
  running : d.worker.stopped = false
  registered : machine ∈ d.maintenance.coordinator.builders

theorem leaves_step {d : Daemon} (hd : d.maintenance.Leaves machine) {a : Action}
    (ha : a ≠ .maintenance (.registerBuilder machine)) :
    (step d a).maintenance.Leaves machine := by
  cases a with
  | maintenance a =>
    have ha' : a ≠ .registerBuilder machine := fun h => ha (by rw [h])
    cases a with
    | advance i env =>
      simp only [step]
      split
      · exact hd
      · split
        · exact hd
        · exact hd.step (by rintro ⟨⟩)
    | complete target => exact hd
    | beginRequest | openFactHandle | closeHandle | registerBuilder | unregisterBuilder | prepare
    | assertPrepared | reopen | leaseLost | close => exact hd.step ha'
  | work env =>
    simp only [step, work]
    split
    · exact World.Leaves.step (a := .complete _) hd (by rintro ⟨⟩)
    · split_ifs <;> exact hd
    · exact hd
  | retry | publishSwitch | closeMachine => exact hd

/-- **A completed maintenance does not restore the builder.**  In every run of a daemon that
registers its machine when it comes up, once a `prepare` has gone through the machine is no builder
any more, in whatever state the coordinator is back. -/
theorem never_restored (env : Env) (worker : Worker) (as : List Action)
    (hregister : ∀ a ∈ as, a ≠ .maintenance (.registerBuilder machine))
    (hprepared : ∃ pc ∈ (run step (started env worker) as).maintenance.threads, pc.prepared = true) :
    ¬ (run step (started env worker) as).Restored := by
  have hstart : (started env worker).maintenance.Leaves machine := by
    have hthreads : (started env worker).maintenance.threads = [] := by
      unfold started
      simp only [Maintenance.step]
      split_ifs <;> rfl
    intro pc hpc
    rw [hthreads] at hpc
    exact absurd hpc List.not_mem_nil
  have hrun := run_invariant_along (I := fun d : Daemon => d.maintenance.Leaves machine)
    (fun _ _ ha hd => leaves_step hd ha) hstart (along_of_mem hregister _)
  obtain ⟨pc, hpc, hpcprepared⟩ := hprepared
  have hleaves : pc.leaves = some [] := by
    cases pc <;> exact if_pos hpcprepared
  intro h
  exact List.not_mem_nil (hrun pc hpc [] hleaves h.registered)

/-- The maintenance of a store that stays as it is. -/
def unchangedRun : List Action :=
  prepareRun ++ .maintenance (.reopen (ascii "op") (some 0)) ::
    List.replicate 6 (.maintenance (.advance 1 (identityOf "e")))

theorem never_restored_sample :
    ¬ (run step (started (identityOf "e") sampleWorker) unchangedRun).Restored :=
  never_restored (identityOf "e") sampleWorker unchangedRun
    (by simp [unchangedRun, prepareRun]) (by decide +kernel)

/-- **The worker stays stopped.**  The coordinator serves again, the epoch has not changed, and the
worker is stopped and unregistered. -/
theorem stopped_unregistered :
    (run step (started (identityOf "e") sampleWorker) unchangedRun).maintenance.coordinator.state =
        .serving ∧
      (run step (started (identityOf "e") sampleWorker) unchangedRun).worker.stopped = true ∧
      machine ∉
        (run step (started (identityOf "e") sampleWorker) unchangedRun).maintenance.coordinator.builders := by
  decide +kernel

end Daemon

end Maintenance
end SemanticMemory
