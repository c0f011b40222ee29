import SemanticMemory.Basic
import SemanticMemory.Lib.Runs

/-!
# The replacement of the fact database

`replace_fact_database` of `daemon/maintenance.py`, one call of the operating system or of SQLite at
a time, and what a fault or a crash after any of them leaves under the name `facts.sqlite3`.

## What is modelled, and how

* What SQLite makes of a main file and a write-ahead log is a `Sqlite`; its laws say that a log is
  replayed over a main file that a checkpoint has begun to fill, and that a checkpoint which
  reports that it was not busy has merged all of the log.
* An answer of the outside world belongs to one call.  A crash is the end of the list of answers,
  so what every list of answers keeps is kept at every crash.
* The index `-shm` is whether the file is there.  `published` is a history: the rename has happened.

With the checkpoint the name stands for the whole old store or for the whole new one at every
moment.  Without it the log is unlinked before the rename, so this holds of exactly the stores whose
main file alone has everything in it: `replace_exposes`.
-/

namespace SemanticMemory
namespace Maintenance
namespace Replace

open Runs

variable {μ κ τ : Type}

/-! ## SQLite -/

/-- What SQLite makes of main files and logs. -/
structure Sqlite (μ κ τ : Type) where
  /-- What the committed transactions come to. -/
  content : μ → Option κ → τ
  /-- The log that `TRUNCATE` leaves, and that opening a store without a log creates. -/
  truncated : κ
  /-- The main file after a checkpoint has copied some pages of the log. -/
  backfill : ℕ → μ → κ → μ
  /-- The main file after a whole checkpoint. -/
  merge : μ → κ → μ
  content_truncated (m : μ) : content m (some truncated) = content m none
  content_backfill (n : ℕ) (m : μ) (w : κ) : content (backfill n m w) (some w) = content m (some w)
  content_merge (m : μ) (w : κ) : content (merge m w) none = content m (some w)

/-- What a reader of the name `facts.sqlite3` gets. -/
def Sqlite.yields (S : Sqlite μ κ τ) (main : Option μ) (wal : Option κ) : Option τ :=
  main.map fun m => S.content m wal

/-! ## The call -/

/-- `facts.sqlite3` and its sidecars. -/
structure Files (μ κ : Type) where
  main : Option μ
  wal : Option κ
  shm : Bool
  published : Bool := false

/-- The places of `replace_fact_database`. -/
inductive Place where
  | openRoot
  | statReplacement
  | openMain
  | statMain
  | connect
  | checkpoint
  | close (complete : Bool)
  | reopenMain
  | fsyncMain
  | unlinkWal
  | unlinkShm
  | openReplacement
  | fsyncReplacement
  | rename
  | chmod
  | fsyncRoot
  | returned
  | raised (code : Text)

inductive Answer where
  | ok
  /-- `OSError` or `sqlite3.Error`. -/
  | fails
  /-- A file of another type, owner or mode. -/
  | refused
  | copies (n : ℕ)
  /-- The checkpoint reports that it was busy, or nothing. -/
  | busy
  /-- The last connection merges the log and removes the sidecars. -/
  | cleans

structure State (μ κ : Type) where
  files : Files μ κ
  place : Place := .openRoot

def replacementFailed : Place := .raised (ascii "replacement_failed")

/-- The log of an open connection: SQLite creates one where there is none. -/
def Sqlite.log (S : Sqlite μ κ τ) (f : Files μ κ) : κ := f.wal.getD S.truncated

/-- The files after a checkpoint that was not busy. -/
def Sqlite.checkpointed (S : Sqlite μ κ τ) (f : Files μ κ) : Files μ κ :=
  { f with main := f.main.map (S.merge · (S.log f)), wal := some S.truncated }

/-- The files after the last connection has closed and cleaned up. -/
def Sqlite.cleaned (S : Sqlite μ κ τ) (f : Files μ κ) : Files μ κ :=
  { f with main := f.main.map (S.merge · (S.log f)), wal := none, shm := false }

def step (S : Sqlite μ κ τ) (checkpointOldStore : Bool) (replacement : μ) (s : State μ κ)
    (answer : Answer) : State μ κ :=
  let f := s.files
  let next (place : Place) : State μ κ := ⟨f, place⟩
  match s.place, answer with
  | .openRoot, .ok => next .statReplacement
  | .openRoot, .refused => next (.raised (ascii "root_unsafe"))
  | .openRoot, _ => next (.raised (ascii "root_unavailable"))
  | .statReplacement, .ok => next (if checkpointOldStore then .openMain else .unlinkWal)
  | .statReplacement, .refused => next (.raised (ascii "replacement_unsafe"))
  | .statReplacement, _ => next replacementFailed
  | .openMain, .ok => next (if f.main.isSome then .statMain else .unlinkWal)
  | .openMain, _ => next replacementFailed
  | .statMain, .ok => next .connect
  | .statMain, _ => next replacementFailed
  | .connect, .ok => ⟨{ f with wal := some (S.log f), shm := true }, .checkpoint⟩
  | .connect, _ => next replacementFailed
  | .checkpoint, .ok => ⟨S.checkpointed f, .close true⟩
  | .checkpoint, .copies n => ⟨{ f with main := f.main.map (S.backfill n · (S.log f)) }, .checkpoint⟩
  | .checkpoint, _ => next (.close false)
  | .close complete, .cleans =>
    ⟨S.cleaned f, if complete then .reopenMain else replacementFailed⟩
  | .close complete, _ => next (if complete then .reopenMain else replacementFailed)
  | .reopenMain, .ok => next .fsyncMain
  | .reopenMain, _ => next replacementFailed
  | .fsyncMain, .ok => next .unlinkWal
  | .fsyncMain, _ => next replacementFailed
  -- a sidecar that is not there is passed over
  | .unlinkWal, .ok => ⟨{ f with wal := none }, .unlinkShm⟩
  | .unlinkWal, _ => next (if f.wal.isSome then replacementFailed else .unlinkShm)
  | .unlinkShm, .ok => ⟨{ f with shm := false }, .openReplacement⟩
  | .unlinkShm, _ => next (if f.shm then replacementFailed else .openReplacement)
  | .openReplacement, .ok => next .fsyncReplacement
  | .openReplacement, _ => next replacementFailed
  | .fsyncReplacement, .ok => next .rename
  | .fsyncReplacement, _ => next replacementFailed
  | .rename, .ok => ⟨{ f with main := some replacement, published := true }, .chmod⟩
  | .rename, _ => next replacementFailed
  | .chmod, .ok => next .fsyncRoot
  | .chmod, _ => next replacementFailed
  | .fsyncRoot, .ok => next .returned
  | .fsyncRoot, _ => next replacementFailed
  | .returned, _ => s
  | .raised _, _ => s

/-! ## What the name stands for -/

/-- The whole old store before the rename, the whole new one and nothing else after it. -/
def Whole (S : Sqlite μ κ τ) (old : Files μ κ) (replacement : μ) (f : Files μ κ) : Prop :=
  if f.published then f.main = some replacement ∧ f.wal = none ∧ f.shm = false
  else S.yields f.main f.wal = S.yields old.main old.wal

/-- The main file alone has everything in it. -/
def Alone (S : Sqlite μ κ τ) (old : Files μ κ) (f : Files μ κ) : Prop :=
  S.yields f.main none = S.yields old.main old.wal

/-- The places before the choice of the mode. -/
def Place.early : Place → Bool
  | .openRoot | .statReplacement => true
  | _ => false

/-- The places after a whole checkpoint, and before the rename. -/
def Place.merged : Place → Bool
  | .close true | .reopenMain | .fsyncMain | .unlinkWal | .unlinkShm | .openReplacement
  | .fsyncReplacement | .rename => true
  | _ => false

/-- The places between the removal of the log and the rename. -/
def Place.walGone : Place → Bool
  | .unlinkShm | .openReplacement | .fsyncReplacement | .rename => true
  | _ => false

/-- The places between the removal of both sidecars and the rename. -/
def Place.shmGone : Place → Bool
  | .openReplacement | .fsyncReplacement | .rename => true
  | _ => false

/-- The places at which the rename may have happened. -/
def Place.final : Place → Bool
  | .chmod | .fsyncRoot | .returned | .raised _ => true
  | _ => false

/-- What every call keeps. -/
structure Keeps (S : Sqlite μ κ τ) (old : Files μ κ) (replacement : μ) (checkpointOldStore : Bool)
    (s : State μ κ) : Prop where
  whole : Whole S old replacement s.files
  pending : s.place.final = false → s.files.published = false
  early : s.place.early = true → checkpointOldStore = false → Alone S old s.files
  merged : s.place.merged = true → Alone S old s.files
  walGone : s.place.walGone = true → s.files.wal = none
  shmGone : s.place.shmGone = true → s.files.shm = false

section Steps

variable {S : Sqlite μ κ τ} {old f : Files μ κ} {replacement : μ} {c : Bool} {p q : Place}

theorem whole_of_eq (hpublished : f.published = false)
    (h : S.yields f.main f.wal = S.yields old.main old.wal) : Whole S old replacement f := by
  unfold Whole
  rw [hpublished]
  exact h

theorem yields_of_whole (hpublished : f.published = false) (h : Whole S old replacement f) :
    S.yields f.main f.wal = S.yields old.main old.wal := by
  unfold Whole at h
  rwa [hpublished] at h

/-- A failure leaves the files as they are. -/
theorem Keeps.raises (h : Keeps S old replacement c ⟨f, p⟩) (code : Text) :
    Keeps S old replacement c ⟨f, .raised code⟩ :=
  ⟨h.whole, nofun, nofun, nofun, nofun, nofun⟩

/-- A call that leaves the files as they are goes to a place whose files are those. -/
theorem Keeps.goes (h : Keeps S old replacement c ⟨f, p⟩) (hpending : p.final = false)
    (hearly : q.early = true → p.early = true)
    (hmerged : q.merged = true → Alone S old f) (hwal : q.walGone = true → f.wal = none)
    (hshm : q.shmGone = true → f.shm = false) : Keeps S old replacement c ⟨f, q⟩ :=
  ⟨h.whole, fun _ => h.pending hpending, fun hq => h.early (hearly hq), hmerged, hwal, hshm⟩

/-- Opening a store without a log creates one. -/
theorem yields_log (S : Sqlite μ κ τ) (f : Files μ κ) :
    S.yields f.main (some (S.log f)) = S.yields f.main f.wal := by
  unfold Sqlite.yields Sqlite.log
  cases f.wal with
  | none => simp only [Option.getD_none, S.content_truncated]
  | some w => rfl

/-- The log is replayed over a main file that a checkpoint has begun to fill. -/
theorem yields_backfill (S : Sqlite μ κ τ) (f : Files μ κ) (n : ℕ) :
    S.yields (f.main.map (S.backfill n · (S.log f))) f.wal = S.yields f.main f.wal := by
  rw [← yields_log S f]
  refine (yields_log S { f with main := f.main.map (S.backfill n · (S.log f)) }).symm.trans ?_
  show S.yields (f.main.map (S.backfill n · (S.log f))) (some (S.log f)) = _
  unfold Sqlite.yields
  cases f.main with
  | none => rfl
  | some m => simp only [Option.map_some, S.content_backfill]

theorem yields_merge (S : Sqlite μ κ τ) (main : Option μ) (w : κ) :
    S.yields (main.map (S.merge · w)) none = S.yields main (some w) := by
  unfold Sqlite.yields
  cases main with
  | none => rfl
  | some m => simp only [Option.map_some, S.content_merge]

theorem yields_truncated (S : Sqlite μ κ τ) (main : Option μ) :
    S.yields main (some S.truncated) = S.yields main none := by
  unfold Sqlite.yields
  cases main with
  | none => rfl
  | some m => simp only [Option.map_some, S.content_truncated]

/-- The main file that a merge leaves is the whole old store. -/
theorem yields_merged (h : Keeps S old replacement c ⟨f, p⟩) (hpublished : f.published = false) :
    S.yields (f.main.map (S.merge · (S.log f))) none = S.yields old.main old.wal := by
  rw [yields_merge, yields_log]
  exact yields_of_whole hpublished h.whole

/-- **A call keeps the store whole.** -/
theorem Keeps.step {s : State μ κ} (h : Keeps S old replacement c s) (answer : Answer) :
    Keeps S old replacement c (step S c replacement s answer) := by
  obtain ⟨f, p⟩ := s
  have hyields (hp : p.final = false) := yields_of_whole (h.pending hp) h.whole
  cases p with
  | openRoot =>
    cases answer with
    | ok => exact h.goes rfl (fun _ => rfl) nofun nofun nofun
    | _ => exact h.raises _
  | statReplacement =>
    cases answer with
    | ok =>
      cases c with
      | true => exact h.goes rfl nofun nofun nofun nofun
      | false => exact h.goes rfl nofun (fun _ => h.early rfl rfl) nofun nofun
    | _ => exact h.raises _
  | openMain =>
    cases answer with
    | ok =>
      show Keeps S old replacement c ⟨f, if f.main.isSome then .statMain else .unlinkWal⟩
      split
      · exact h.goes rfl nofun nofun nofun nofun
      · next hnone =>
        -- without a main file there is nothing in the log either
        refine h.goes rfl nofun (fun _ => ?_) nofun nofun
        have hmain : f.main = none := by simpa using hnone
        unfold Alone
        rw [← hyields rfl, hmain]
        rfl
    | _ => exact h.raises _
  | statMain =>
    cases answer with
    | ok => exact h.goes rfl nofun nofun nofun nofun
    | _ => exact h.raises _
  | connect =>
    cases answer with
    | ok =>
      refine ⟨whole_of_eq (h.pending rfl) ?_, fun _ => h.pending rfl, nofun, nofun, nofun, nofun⟩
      exact (yields_log S f).trans (hyields rfl)
    | _ => exact h.raises _
  | checkpoint =>
    cases answer with
    | ok =>
      have hmerged := yields_merged h (h.pending rfl)
      refine ⟨whole_of_eq (h.pending rfl) ?_, fun _ => h.pending rfl, nofun, fun _ => hmerged,
        nofun, nofun⟩
      exact (yields_truncated S _).trans hmerged
    | copies n =>
      refine ⟨whole_of_eq (h.pending rfl) ?_, fun _ => h.pending rfl, nofun, nofun, nofun, nofun⟩
      exact (yields_backfill S f n).trans (hyields rfl)
    | _ => exact h.goes rfl nofun nofun nofun nofun
  | close complete =>
    cases answer with
    | cleans =>
      have hmerged := yields_merged h (h.pending rfl)
      cases complete with
      | true =>
        exact ⟨whole_of_eq (h.pending rfl) hmerged, fun _ => h.pending rfl, nofun, fun _ => hmerged,
          nofun, nofun⟩
      | false => exact ⟨whole_of_eq (h.pending rfl) hmerged, nofun, nofun, nofun, nofun, nofun⟩
    | _ =>
      cases complete with
      | true => exact h.goes rfl nofun (fun _ => h.merged rfl) nofun nofun
      | false => exact h.raises _
  | reopenMain =>
    cases answer with
    | ok => exact h.goes rfl nofun (fun _ => h.merged rfl) nofun nofun
    | _ => exact h.raises _
  | fsyncMain =>
    cases answer with
    | ok => exact h.goes rfl nofun (fun _ => h.merged rfl) nofun nofun
    | _ => exact h.raises _
  | unlinkWal =>
    cases answer with
    | ok =>
      exact ⟨whole_of_eq (h.pending rfl) (h.merged rfl), fun _ => h.pending rfl, nofun,
        fun _ => h.merged rfl, fun _ => rfl, nofun⟩
    | _ =>
      show Keeps S old replacement c ⟨f, if f.wal.isSome then replacementFailed else .unlinkShm⟩
      split
      · exact h.raises _
      · next hnone =>
        exact h.goes rfl nofun (fun _ => h.merged rfl) (fun _ => by simpa using hnone) nofun
  | unlinkShm =>
    cases answer with
    | ok =>
      exact ⟨whole_of_eq (h.pending rfl) (hyields rfl), fun _ => h.pending rfl, nofun,
        fun _ => h.merged rfl, fun _ => h.walGone rfl, fun _ => rfl⟩
    | _ =>
      show Keeps S old replacement c ⟨f, if f.shm then replacementFailed else .openReplacement⟩
      split
      · exact h.raises _
      · next hnone =>
        exact h.goes rfl nofun (fun _ => h.merged rfl) (fun _ => h.walGone rfl) fun _ => by
          simpa using hnone
  | openReplacement =>
    cases answer with
    | ok =>
      exact h.goes rfl nofun (fun _ => h.merged rfl) (fun _ => h.walGone rfl) fun _ => h.shmGone rfl
    | _ => exact h.raises _
  | fsyncReplacement =>
    cases answer with
    | ok =>
      exact h.goes rfl nofun (fun _ => h.merged rfl) (fun _ => h.walGone rfl) fun _ => h.shmGone rfl
    | _ => exact h.raises _
  | rename =>
    cases answer with
    | ok =>
      refine ⟨?_, nofun, nofun, nofun, nofun, nofun⟩
      exact ⟨rfl, h.walGone rfl, h.shmGone rfl⟩
    | _ => exact h.raises _
  | chmod =>
    cases answer with
    | ok => exact ⟨h.whole, nofun, nofun, nofun, nofun, nofun⟩
    | _ => exact h.raises _
  | fsyncRoot =>
    cases answer with
    | ok => exact ⟨h.whole, nofun, nofun, nofun, nofun, nofun⟩
    | _ => exact h.raises _
  | returned => exact h
  | raised code => exact h

end Steps

/-! ## Faults and crashes -/

/-- The calls up to the removal of the log, without the checkpoint. -/
def unlinking : List Answer := [.ok, .ok, .ok]

/-- **What a replacement exposes.**  Whatever the answers are, and wherever the call is cut, the name
stands for the whole old store or for the whole new one, if and only if the old store was to be
checkpointed or has nothing in its log that its main file lacks. -/
theorem replace_exposes (S : Sqlite μ κ τ) (checkpointOldStore : Bool) (replacement : μ)
    (old : Files μ κ) (hpublished : old.published = false) :
    (∀ answers : List Answer,
        Whole S old replacement
          (run (step S checkpointOldStore replacement) ⟨old, .openRoot⟩ answers).files) ↔
      (checkpointOldStore = true ∨
        S.yields old.main none = S.yields old.main old.wal) := by
  constructor
  · intro h
    cases checkpointOldStore with
    | true => exact Or.inl rfl
    | false =>
      -- cut between the removal of the log and the rename
      have hcut := h unlinking
      exact Or.inr (yields_of_whole (f := { old with wal := none }) hpublished hcut)
  · intro h answers
    have hkeeps : Keeps S old replacement checkpointOldStore ⟨old, .openRoot⟩ := by
      refine ⟨whole_of_eq hpublished rfl, fun _ => hpublished, fun _ hc => ?_, nofun, nofun, nofun⟩
      exact h.resolve_left (by rw [hc]; exact Bool.false_ne_true)
    exact (run_invariant (fun _ answer hs => hs.step answer) hkeeps answers).whole

/-! ### A store with a log -/

/-- Stores whose log is a newer version of the main file. -/
def sampleSqlite : Sqlite ℕ (List ℕ) ℕ where
  content m w := ((w.getD []).getLast?).getD m
  truncated := []
  backfill n m w := ((w.take n).getLast?).getD m
  merge m w := (w.getLast?).getD m
  content_truncated _ := rfl
  content_backfill n m w := by
    cases w using List.reverseRecOn with
    | nil => simp
    | append_singleton w x => simp
  content_merge _ _ := rfl

/-- A store whose last transaction is in the log. -/
def sampleFiles : Files ℕ (List ℕ) where
  main := some 1
  wal := some [2]
  shm := true

theorem replace_exposes_sample :
    (∀ answers : List Answer,
        Whole sampleSqlite sampleFiles 3
          (run (step sampleSqlite true 3) ⟨sampleFiles, .openRoot⟩ answers).files) ↔
      ((true : Bool) = true ∨
        sampleSqlite.yields sampleFiles.main none =
          sampleSqlite.yields sampleFiles.main sampleFiles.wal) :=
  replace_exposes sampleSqlite true 3 sampleFiles rfl

/-- **A main file without its log.**  The call is cut after the log has been unlinked. -/
theorem replace_exposes_torn :
    ¬ ∀ (S : Sqlite ℕ (List ℕ) ℕ) (checkpointOldStore : Bool) (replacement : ℕ)
      (old : Files ℕ (List ℕ)), old.published = false → ∀ answers : List Answer,
        Whole S old replacement
          (run (step S checkpointOldStore replacement) ⟨old, .openRoot⟩ answers).files := fun h =>
  absurd (h sampleSqlite false 3 sampleFiles rfl unlinking) (by unfold Whole; decide)

end Replace
end Maintenance
end SemanticMemory
