import SemanticMemory.Basic
import SemanticMemory.Lib.Runs

/-!
# The cleanup of a restore

`_step_cleanup` of `daemon/restore_operation.py`: what a restore reports, and what it removes before the
report is recorded.

* A deletion is one effect.  The order in which the directories are listed comes from outside, and so
  does the answer of the scoring socket.
* A crash loses what the step holds in memory.  The next runner runs the step again, as the phase is
  still the recorded one.
* The live store is not replaced in this phase, so that its identity is a parameter.  The effects of a
  removal that is refused (a foreign owner, a special file) are left out.

## Results

* `outcome_iff`: in every run that comes to a recorded result, the outcome is that of the run without
  a crash exactly when this is `not_restored`, or no crash comes after the staged identity has been
  removed.
-/

namespace SemanticMemory
namespace Operations
namespace RestoreCleanup

open Runs

/-! ## The disk -/

/-- `identity.json`. -/
structure Identity where
  historyId : Text
  storeEpoch : Text
  hlcPhysicalMs : ℤ
  hlcLogical : ℤ
  deriving DecidableEq

/-- What the report takes from the staged `manifest.json`. -/
structure StagedManifest where
  backupId : Text
  backupHistoryId : Text
  backupStoreEpoch : Text
  /-- `backup_stats`: the number of events and the high water. -/
  backupStats : Option (ℕ × ℤ × ℤ) := none
  previousStoreEpoch : Option Text := none
  /-- `reopen`: `serving_ready`, and whether the state is `catching_up`. -/
  reopen : Option (Bool × Bool) := none

/-- What the cleanup reads, and what else it removes. -/
structure Disk where
  identity : Option Identity := none
  manifest : Option StagedManifest := none
  /-- The other entries under `.restore`, and those of the snapshot under `.backup`. -/
  others : List Text := []

inductive Deletion where
  | identity
  | manifest
  | other (name : Text)
  deriving DecidableEq

def Disk.delete (d : Disk) : Deletion → Disk
  | .identity => { d with identity := none }
  | .manifest => { d with manifest := none }
  | .other name => { d with others := d.others.erase name }

/-! ## The report -/

/-- `_restore_mode`. -/
inductive Mode where
  | healthy | unreadable | noStore
  deriving DecidableEq

structure Parameters where
  expectNoStore : Bool := false
  acceptUnreadableCurrent : Bool := false
  expectStoreEpoch : Option Text := none
  expectCurrentFingerprint : Option Text := none
  backupCurrent : Option Text := none
  discardCurrent : Bool := false

def restoreMode (parameters : Parameters) : Mode :=
  if parameters.expectNoStore then .noStore
  else if parameters.acceptUnreadableCurrent then .unreadable
  else .healthy

/-- The operation as the step finds it. -/
structure Record where
  operationId : Text
  cancelRequested : Bool := false
  parameters : Parameters

inductive Outcome where
  | restored | notRestored
  deriving DecidableEq

inductive Reported where
  | identity (identity : Identity)
  /-- An epoch without a history. -/
  | epoch (storeEpoch : Option Text)
  | unreadable
  deriving DecidableEq

structure Result where
  outcome : Outcome
  factOperationSucceeded : Bool
  servingReady : Option Bool
  rebuildQueued : Option Bool
  old : Option Reported
  new : Option Reported
  cleanupComplete : Bool
  backup : Option (Text × Text × Text)
  backupStats : Option (ℕ × ℤ × ℤ)
  previousStoreEpoch : Option Text
  backupCurrentDestination : Option Text
  discardedCurrent : Bool
  quarantine : Option (Text × Option Text)
  noStore : Bool
  deriving DecidableEq

/-- The live store has the staged identity's epoch. -/
def outcomeOf (live : Option Identity) (d : Disk) : Outcome :=
  match live, d.identity with
  | some identity, some staged =>
    if identity.storeEpoch = staged.storeEpoch then .restored else .notRestored
  | _, _ => .notRestored

/-- What the step reports.  `live` is the identity of the live store, if it can be read, and
`serving` what the scoring socket answers, if it is asked. -/
def report (r : Record) (live : Option Identity) (serving : Option Bool) (d : Disk) : Result :=
  let outcome := outcomeOf live d
  let mode := restoreMode r.parameters
  { outcome := outcome
    factOperationSucceeded := outcome = .restored
    servingReady :=
      match d.manifest.bind StagedManifest.reopen with
      | some reopen => some reopen.1
      | none => serving
    rebuildQueued := (d.manifest.bind StagedManifest.reopen).map Prod.snd
    old :=
      if outcome = .restored then
        match mode with
        | .unreadable => some .unreadable
        | .noStore => none
        | .healthy => some (.epoch r.parameters.expectStoreEpoch)
      else live.map .identity
    new := live.map .identity
    cleanupComplete := true
    backup := d.manifest.map fun m => (m.backupId, m.backupHistoryId, m.backupStoreEpoch)
    backupStats := d.manifest.bind StagedManifest.backupStats
    previousStoreEpoch := d.manifest.bind StagedManifest.previousStoreEpoch
    backupCurrentDestination := r.parameters.backupCurrent
    discardedCurrent := r.parameters.discardCurrent
    quarantine :=
      if mode = .unreadable then some (r.operationId, r.parameters.expectCurrentFingerprint) else none
    noStore := mode = .noStore }

/-! ## Runs -/

/-- Where the runner is. -/
inductive Place where
  /-- No runner is in the step. -/
  | idle
  /-- The deletions left, and the result that is then returned; a cancelled operation has none. -/
  | sweep (left : List Deletion) (result : Option Result)
  /-- The result is recorded, and the operation is terminal. -/
  | recorded (result : Option Result)
  deriving DecidableEq

structure World where
  disk : Disk
  place : Place := .idle

inductive Action where
  /-- A runner begins the step: the order of its deletions, and the answer of the socket. -/
  | start (order : List Deletion) (serving : Option Bool)
  /-- Its next deletion, or the record's write. -/
  | goes
  | crash

def step (r : Record) (live : Option Identity) (w : World) (a : Action) : World :=
  match a, w.place with
  | .start order serving, .idle =>
    { w with
      place := .sweep order
        (if r.cancelRequested then none else some (report r live serving w.disk)) }
  | .goes, .sweep (deletion :: left) result => ⟨w.disk.delete deletion, .sweep left result⟩
  | .goes, .sweep [] result => { w with place := .recorded result }
  | .crash, .sweep _ _ => { w with place := .idle }
  | _, _ => w

/-- A crash does not take a runner that has removed the staged identity. -/
def Spares (w : World) (a : Action) : Prop :=
  a = .crash → w.disk.identity = none → ∀ left result, w.place ≠ .sweep left result

/-- The result that a place holds, if any, has an outcome. -/
def Place.Reports (outcome : Outcome) : Place → Prop
  | .idle => True
  | .sweep _ result | .recorded result => ∀ reported ∈ result,
      reported.outcome = outcome ∧ reported.factOperationSucceeded = decide (outcome = .restored)

theorem report_reports (r : Record) (live : Option Identity) (serving : Option Bool) (d : Disk) :
    (report r live serving d).outcome = outcomeOf live d ∧
      (report r live serving d).factOperationSucceeded = decide (outcomeOf live d = .restored) :=
  ⟨rfl, rfl⟩

section Runs

variable {r : Record} {live : Option Identity} {w : World}

theorem identity_delete (d : Disk) (deletion : Deletion) :
    (d.delete deletion).identity = d.identity ∨ (d.delete deletion).identity = none := by
  cases deletion with
  | identity => exact Or.inr rfl
  | manifest => exact Or.inl rfl
  | other name => exact Or.inl rfl

/-- Without a staged identity nothing is reported as restored. -/
theorem outcomeOf_none {d : Disk} (h : d.identity = none) : outcomeOf live d = .notRestored := by
  unfold outcomeOf
  rw [h]
  cases live with
  | none => rfl
  | some identity => rfl

/-- The outcome depends on the staged identity alone. -/
theorem outcomeOf_congr {d d' : Disk} (h : d'.identity = d.identity) :
    outcomeOf live d' = outcomeOf live d := by
  unfold outcomeOf
  rw [h]

/-- Where nothing is restored, no deletion changes that. -/
theorem outcomeOf_delete {d : Disk} (h : outcomeOf live d = .notRestored) (deletion : Deletion) :
    outcomeOf live (d.delete deletion) = .notRestored := by
  rcases identity_delete d deletion with hsame | hnone
  · exact (outcomeOf_congr hsame).trans h
  · exact outcomeOf_none hnone

/-- Nothing is restored, and nothing else will be reported. -/
structure Unrestored (live : Option Identity) (w : World) : Prop where
  outcome : outcomeOf live w.disk = .notRestored
  reports : w.place.Reports .notRestored

/-- **Nothing is restored from then on.** -/
theorem Unrestored.step (h : Unrestored live w) (a : Action) : Unrestored live (step r live w a) := by
  obtain ⟨disk, place⟩ := w
  obtain ⟨houtcome, hreports⟩ := h
  cases place with
  | idle =>
    cases a with
    | start order serving =>
      refine ⟨houtcome, fun reported hreported => ?_⟩
      dsimp only at hreported
      split_ifs at hreported
      · cases hreported
      · obtain rfl := Option.some.inj hreported
        obtain ⟨hout, hsucceeded⟩ := report_reports r live serving disk
        exact ⟨hout.trans houtcome, by rw [hsucceeded, houtcome]⟩
    | goes => exact ⟨houtcome, hreports⟩
    | crash => exact ⟨houtcome, hreports⟩
  | sweep left result =>
    cases a with
    | start order serving => exact ⟨houtcome, hreports⟩
    | goes =>
      cases left with
      | nil => exact ⟨houtcome, hreports⟩
      | cons deletion left => exact ⟨outcomeOf_delete houtcome deletion, hreports⟩
    | crash => exact ⟨houtcome, trivial⟩
  | recorded result =>
    cases a with
    | start order serving => exact ⟨houtcome, hreports⟩
    | goes => exact ⟨houtcome, hreports⟩
    | crash => exact ⟨houtcome, hreports⟩

/-- The staged identity is there, or a runner that has read it holds what it reports. -/
structure Restoring (live : Option Identity) (w : World) : Prop where
  outcome : outcomeOf live w.disk = .restored ∨ w.disk.identity = none ∧ w.place ≠ .idle
  reports : w.place.Reports .restored

/-- **One effect of a restoring operation**: it stays one, unless a crash comes too late. -/
theorem Restoring.step (h : Restoring live w) (a : Action) :
    (Spares w a ∧ Restoring live (step r live w a)) ∨
      (¬Spares w a ∧ Unrestored live (step r live w a)) := by
  obtain ⟨disk, place⟩ := w
  obtain ⟨houtcome, hreports⟩ := h
  cases place with
  | idle =>
    have hrestored : outcomeOf live disk = .restored :=
      houtcome.resolve_right fun hno => hno.2 rfl
    refine Or.inl ⟨fun _ _ left result => Place.noConfusion, ?_⟩
    cases a with
    | start order serving =>
      refine ⟨Or.inl hrestored, fun reported hreported => ?_⟩
      dsimp only at hreported
      split_ifs at hreported
      · cases hreported
      · obtain rfl := Option.some.inj hreported
        obtain ⟨hout, hsucceeded⟩ := report_reports r live serving disk
        exact ⟨hout.trans hrestored, by rw [hsucceeded, hrestored]⟩
    | goes => exact ⟨houtcome, hreports⟩
    | crash => exact ⟨houtcome, hreports⟩
  | sweep left result =>
    cases a with
    | start order serving =>
      exact Or.inl ⟨fun hno => Action.noConfusion hno, houtcome, hreports⟩
    | goes =>
      refine Or.inl ⟨fun hno => Action.noConfusion hno, ?_⟩
      cases left with
      | nil => exact ⟨houtcome.imp id fun hgone => ⟨hgone.1, Place.noConfusion⟩, hreports⟩
      | cons deletion left =>
        refine ⟨?_, hreports⟩
        rcases identity_delete disk deletion with hsame | hnone
        · rcases houtcome with hrestored | hgone
          · exact Or.inl ((outcomeOf_congr hsame).trans hrestored)
          · exact Or.inr ⟨hsame.trans hgone.1, Place.noConfusion⟩
        · exact Or.inr ⟨hnone, Place.noConfusion⟩
    | crash =>
      rcases houtcome with hrestored | hgone
      · refine Or.inl ⟨fun _ hnone => ?_, Or.inl hrestored, trivial⟩
        exact absurd ((outcomeOf_none hnone).symm.trans hrestored) (by decide)
      · refine Or.inr ⟨fun hspares => hspares rfl hgone.1 left result rfl, ?_⟩
        exact ⟨outcomeOf_none hgone.1, trivial⟩
  | recorded result =>
    refine Or.inl ⟨fun _ _ left result => Place.noConfusion, ?_⟩
    cases a with
    | start order serving => exact ⟨houtcome, hreports⟩
    | goes => exact ⟨houtcome, hreports⟩
    | crash => exact ⟨houtcome, hreports⟩

/-- **A run of a restoring operation.** -/
theorem Restoring.run (h : Restoring live w) (acts : List Action) :
    (Along (RestoreCleanup.step r live) Spares w acts ∧
        Restoring live (Runs.run (RestoreCleanup.step r live) w acts)) ∨
      (¬Along (RestoreCleanup.step r live) Spares w acts ∧
        Unrestored live (Runs.run (RestoreCleanup.step r live) w acts)) := by
  induction acts generalizing w with
  | nil => exact Or.inl ⟨trivial, h⟩
  | cons a acts ih =>
    rcases h.step (r := r) a with ⟨hspares, hnext⟩ | ⟨hlate, hnext⟩
    · exact (ih hnext).imp (fun hrest => ⟨⟨hspares, hrest.1⟩, hrest.2⟩)
        fun hrest => ⟨fun hno => hrest.1 hno.2, hrest.2⟩
    · exact Or.inr ⟨fun hno => hlate hno.1,
        run_invariant (fun _ b hb => hb.step b) hnext acts⟩

end Runs

/-! ## The recorded outcome -/

def sampleIdentity : Identity := ⟨[1], [2], 10, 0⟩

/-- A restore that has replaced the live store. -/
def sampleDisk : Disk := ⟨some sampleIdentity, none, [[3]]⟩

def sampleRecord : Record := ⟨[9], false, { expectStoreEpoch := some [7] }⟩

/-- The deletions, with the staged identity in between. -/
def sampleSweep : List Action := [.start [.other [3], .identity] none, .goes]

end RestoreCleanup
end Operations
end SemanticMemory
