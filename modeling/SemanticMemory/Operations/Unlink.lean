import SemanticMemory.Operations.Sweep

/-!
# A cleanup beside other operations

`_clean_operations` of `daemon/clear_operation.py` and the sweeps of the cleanup steps of a clear
and a restore, while other processes write records and hold locks under the same semantic root.

* A lock file is a name and the inode it leads to.  `flock` is on the inode: to open the name makes
  a new one if it has been unlinked, and who has the old one open goes on with the old one.
* A writer is `OperationStore.mutate`: it reads the record, opens and takes the write lock, compares
  the revision, writes its temporary file and renames it.  It may stop anywhere.
* A record is its revision, whether it is terminal, and the updates it holds.
* The entries that a cleanup removes are its actions, in any order and between any two effects of
  the others: of every operation but its own the write lock and the temporary files, and the record
  and the run lock if the record is terminal; and the staging directories by the name of the entry
  that holds them.
* The identifier of an operation is not used again after a cleanup has removed its record.
* `returned` and `lost` are histories: the updates whose `mutate` has returned, and those whose
  temporary file a cleanup has removed before its rename.
-/

namespace SemanticMemory
namespace Operations
namespace Unlink

open Runs

/-! ## The files -/

abbrev OpId := Text

abbrev UpdateId := ℕ

structure Rec where
  rev : ℕ := 1
  terminal : Bool := false
  updates : List UpdateId := []
  deriving DecidableEq

/-- The two operations whose cleanup sweeps. -/
inductive Cleaner where
  | clear | restore

/-- The entries of the root that the cleanup removes. -/
def Cleaner.sweeps : Cleaner → Text → Bool
  | .clear, name => Sweep.swept name
  | .restore, name => name = Sweep.restoreDirname

/-! ## The processes -/

/-- A call of `mutate`. -/
structure Update where
  op : OpId
  update : UpdateId
  /-- The update makes the record terminal. -/
  terminal : Bool
  deriving DecidableEq

inductive Proc where
  | load (u : Update)
  | loaded (u : Update) (base : Rec)
  /-- The write lock is open, not taken. -/
  | opened (u : Update) (base : Rec) (inode : ℕ)
  | holding (u : Update) (base : Rec) (inode : ℕ)
  /-- The temporary file is written; `cut` is the operation whose cleanup has removed it. -/
  | temp (u : Update) (base : Rec) (inode : ℕ) (cut : Option OpId)
  | renamed (u : Update) (inode : ℕ)
  | runOpened (op : OpId) (inode : ℕ)
  | running (op : OpId) (inode : ℕ)
  deriving DecidableEq

def Proc.lockOpen : Proc → Option (OpId × ℕ)
  | .opened u _ inode | .holding u _ inode | .temp u _ inode _ | .renamed u inode =>
    some (u.op, inode)
  | _ => none

def Proc.lockHeld : Proc → Option (OpId × ℕ)
  | .holding u _ inode | .temp u _ inode _ | .renamed u inode => some (u.op, inode)
  | _ => none

def Proc.runOpen : Proc → Option (OpId × ℕ)
  | .runOpened op inode | .running op inode => some (op, inode)
  | _ => none

def Proc.runHeld : Proc → Option (OpId × ℕ)
  | .running op inode => some (op, inode)
  | _ => none

def Proc.inode (p : Proc) : Option ℕ := (p.lockHeld <|> p.runHeld).map Prod.snd

/-! ## The system -/

structure Sys where
  records : OpId → Option Rec := fun _ => none
  created : List OpId := []
  /-- The operations whose record a cleanup has removed. -/
  gone : List OpId := []
  lockFile : OpId → Option ℕ := fun _ => none
  runFile : OpId → Option ℕ := fun _ => none
  nextInode : ℕ := 0
  /-- Who has taken an inode. -/
  heldBy : ℕ → Option ℕ := fun _ => none
  procs : ℕ → Option Proc := fun _ => none
  /-- The entry under which an operation has staged what its next phase needs. -/
  staged : OpId → Option Text := fun _ => none
  onDisk : OpId → Bool := fun _ => false
  returned : List Update := []
  /-- With the operation that was cleaning up. -/
  lost : List (OpId × Update) := []

/-- What a cleanup unlinks. -/
inductive File where
  | lock (op : OpId)
  | temp (id : ℕ)
  | record (op : OpId)
  | run (op : OpId)

inductive Action where
  | create (op : OpId)
  | mutate (id : ℕ) (u : Update)
  | acquire (id : ℕ) (op : OpId)
  | goes (id : ℕ)
  /-- A process dies, or leaves. -/
  | leave (id : ℕ)
  | stage (op : OpId) (name : Text)
  | unstage (op : OpId)
  /-- The cleanup of the operation `keep` of a clear. -/
  | unlink (keep : OpId) (file : File)
  /-- A cleanup removes an entry of the root. -/
  | sweep (keep : OpId) (cleaner : Cleaner) (name : Text)

namespace Sys

/-- The operation is not over: its record is not terminal, or it is still to be created. -/
def IsOpen (s : Sys) (op : OpId) : Prop := op ∉ s.gone ∧ ∀ r ∈ s.records op, r.terminal = false

instance (s : Sys) (op : OpId) : Decidable (s.IsOpen op) := by
  unfold IsOpen
  infer_instance

def setProc (s : Sys) (id : ℕ) (p : Option Proc) : Sys :=
  { s with procs := Function.update s.procs id p }

/-- The inode that an open of the write lock leads to. -/
def lockInode (s : Sys) (op : OpId) : ℕ := (s.lockFile op).getD s.nextInode

/-- `_open_lock_file` of the write lock. -/
def openLock (s : Sys) (op : OpId) : Sys :=
  { s with
    lockFile := Function.update s.lockFile op (some (s.lockInode op))
    nextInode := if s.lockFile op = none then s.nextInode + 1 else s.nextInode }

def runInode (s : Sys) (op : OpId) : ℕ := (s.runFile op).getD s.nextInode

/-- `_open_lock_file` of the run lock. -/
def openRun (s : Sys) (op : OpId) : Sys :=
  { s with
    runFile := Function.update s.runFile op (some (s.runInode op))
    nextInode := if s.runFile op = none then s.nextInode + 1 else s.nextInode }

/-- `flock`. -/
def take (s : Sys) (id inode : ℕ) : Sys :=
  { s with heldBy := Function.update s.heldBy inode (some id) }

/-- The descriptor is closed. -/
def release (s : Sys) (inode : ℕ) : Sys :=
  { s with heldBy := Function.update s.heldBy inode none }

/-- The rename of what was made of `base`. -/
def rename (s : Sys) (u : Update) (base : Rec) : Sys :=
  { s with
    records := Function.update s.records u.op
      (some ⟨base.rev + 1, u.terminal, base.updates ++ [u.update]⟩) }

def goes (s : Sys) (id : ℕ) : Proc → Sys
  | .load u =>
    match s.records u.op with
    | none => s.setProc id none
    | some r => if r.terminal then s.setProc id none else s.setProc id (some (.loaded u r))
  | .loaded u base => (s.openLock u.op).setProc id (some (.opened u base (s.lockInode u.op)))
  | .opened u base inode =>
    if s.heldBy inode = none then (s.take id inode).setProc id (some (.holding u base inode))
    else s
  | .holding u base inode =>
    if (s.records u.op).map Rec.rev = some base.rev then
      s.setProc id (some (.temp u base inode none))
    else (s.release inode).setProc id (some (.load u))
  | .temp u base inode none =>
    (s.rename u base).setProc id (some (.renamed u inode))
  | .temp u _ inode (some keep) =>
    { s.release inode with lost := (keep, u) :: s.lost }.setProc id none
  | .renamed u inode => { s.release inode with returned := u :: s.returned }.setProc id none
  | .runOpened op inode =>
    if s.heldBy inode = none then (s.take id inode).setProc id (some (.running op inode))
    else s.setProc id none
  | .running .. => s

/-- A process is gone, and what it holds is free. -/
def leave (s : Sys) (id : ℕ) : Sys :=
  match (s.procs id).bind Proc.inode with
  | none => s.setProc id none
  | some inode => (s.release inode).setProc id none

def removeRecord (s : Sys) (op : OpId) : Sys :=
  { s with
    records := Function.update s.records op none
    gone := op :: s.gone }

def create (s : Sys) (op : OpId) : Sys :=
  { s with
    records := Function.update s.records op (some {})
    created := op :: s.created }

/-- A cleanup unlinks a file, if its rules let it. -/
def unlink (s : Sys) (keep : OpId) : File → Sys
  | .lock op => if op = keep then s else { s with lockFile := Function.update s.lockFile op none }
  | .temp id =>
    match s.procs id with
    | some (.temp u base inode none) => s.setProc id (some (.temp u base inode (some keep)))
    | _ => s
  | .record op =>
    if op ≠ keep ∧ (s.records op).any Rec.terminal = true then s.removeRecord op else s
  | .run op =>
    -- only those whose record was found terminal
    if op ≠ keep ∧ ¬s.IsOpen op then { s with runFile := Function.update s.runFile op none } else s

def step (s : Sys) : Action → Sys
  | .create op =>
    -- an identifier is not used again
    if s.records op = none ∧ op ∉ s.gone then s.create op else s
  | .mutate id u => if s.procs id = none then s.setProc id (some (.load u)) else s
  | .acquire id op =>
    if s.procs id = none then (s.openRun op).setProc id (some (.runOpened op (s.runInode op)))
    else s
  | .goes id =>
    match s.procs id with
    | none => s
    | some p => s.goes id p
  | .leave id => s.leave id
  | .stage op name =>
    { s with
      staged := Function.update s.staged op (some name)
      onDisk := Function.update s.onDisk op true }
  | .unstage op => { s with staged := Function.update s.staged op none }
  | .unlink keep file => s.unlink keep file
  | .sweep keep cleaner name =>
    if cleaner.sweeps name then
      { s with
        onDisk := fun op => s.onDisk op && s.staged op ≠ some name
        staged := Function.update s.staged keep none }
    else s

end Sys

/-! ## What is asked, and what is promised -/

/-- A cleanup spares the other operations that are not over: it unlinks no write lock that a process
has open, no temporary file, and no entry under which something is staged. -/
def Spares (s : Sys) : Action → Prop
  | .unlink keep (.lock op) => op ≠ keep → s.IsOpen op →
      ∀ id p inode, s.procs id = some p → p.lockOpen ≠ some (op, inode)
  | .unlink keep (.temp id) => ∀ u base inode, s.procs id = some (.temp u base inode none) →
      keep = u.op
  | .sweep keep cleaner name => cleaner.sweeps name = true →
      ∀ op, op ≠ keep → s.IsOpen op → s.staged op ≠ some name
  | _ => True

def Sys.Has (s : Sys) (u : Update) : Prop := ∃ r ∈ s.records u.op, u.update ∈ r.updates

/-- No cleanup has disturbed an operation that is not over. -/
structure Undisturbed (s : Sys) : Prop where
  record : ∀ op ∈ s.created, s.IsOpen op → (s.records op).isSome = true
  staging : ∀ op, s.IsOpen op → (s.staged op).isSome = true → s.onDisk op = true
  writeLock : ∀ op, s.IsOpen op → ∀ i j p q inode inode', s.procs i = some p → s.procs j = some q →
    p.lockHeld = some (op, inode) → q.lockHeld = some (op, inode') → i = j
  runLock : ∀ op, s.IsOpen op → ∀ i j p q inode inode', s.procs i = some p → s.procs j = some q →
    p.runHeld = some (op, inode) → q.runHeld = some (op, inode') → i = j
  updates : ∀ u ∈ s.returned, s.IsOpen u.op → s.Has u
  lost : ∀ k u, (k, u) ∈ s.lost → k = u.op

/-! ## The invariant -/

def Proc.Holds (s : Sys) : Proc → Prop
  | .loaded u base | .opened u base _ | .holding u base _ =>
    base.terminal = false ∧ ((s.records u.op).isSome = true ∨ u.op ∈ s.gone) ∧
      ∀ r ∈ s.records u.op, base.rev ≤ r.rev ∧ (base.rev = r.rev → base = r)
  | .temp u base _ cut =>
    base.terminal = false ∧ s.records u.op = some base ∧ ∀ keep ∈ cut, keep = u.op
  | .renamed u _ => s.IsOpen u.op → s.Has u
  | _ => True

structure Good (s : Sys) : Prop where
  created : ∀ op ∈ s.created, (s.records op).isSome = true ∨ op ∈ s.gone
  gone : ∀ op ∈ s.gone, s.records op = none
  name : ∀ id p op inode, s.procs id = some p → p.lockOpen = some (op, inode) → s.IsOpen op →
    s.lockFile op = some inode
  runName : ∀ id p op inode, s.procs id = some p → p.runOpen = some (op, inode) → s.IsOpen op →
    s.runFile op = some inode
  held : ∀ id p inode, s.procs id = some p → p.inode = some inode → s.heldBy inode = some id
  places : ∀ id p, s.procs id = some p → p.Holds s
  staging : ∀ op, s.IsOpen op → (s.staged op).isSome = true → s.onDisk op = true
  returned : ∀ u ∈ s.returned, s.IsOpen u.op → s.Has u
  lost : ∀ k u, (k, u) ∈ s.lost → k = u.op

variable {p : Proc}

theorem lockOpen_of_held {x : OpId × ℕ} (h : p.lockHeld = some x) : p.lockOpen = some x := by
  cases p <;> first | exact h | cases h

theorem runOpen_of_held {x : OpId × ℕ} (h : p.runHeld = some x) : p.runOpen = some x := by
  cases p <;> first | exact h | cases h

variable {op : OpId} {inode : ℕ}

theorem inode_of_lockHeld (h : p.lockHeld = some (op, inode)) : p.inode = some inode := by
  unfold Proc.inode
  rw [h]
  rfl

theorem inode_of_runHeld (h : p.runHeld = some (op, inode)) : p.inode = some inode := by
  cases p <;> first | exact congrArg (Option.map Prod.snd) h | cases h

section Invariant

variable {s : Sys} {id : ℕ}

/-- **What the invariant says of a moment.** -/
theorem Good.undisturbed (h : Good s) : Undisturbed s where
  record op hop hopen := (h.created op hop).resolve_right hopen.1
  staging := h.staging
  writeLock op hopen i j p q inode inode' hi hj hp hq := by
    have hfile := h.name i p op inode hi (lockOpen_of_held hp) hopen
    have hfile' := h.name j q op inode' hj (lockOpen_of_held hq) hopen
    obtain rfl := Option.some.inj (hfile.symm.trans hfile')
    exact Option.some.inj ((h.held i p inode hi (inode_of_lockHeld hp)).symm.trans
      (h.held j q inode hj (inode_of_lockHeld hq)))
  runLock op hopen i j p q inode inode' hi hj hp hq := by
    have hfile := h.runName i p op inode hi (runOpen_of_held hp) hopen
    have hfile' := h.runName j q op inode' hj (runOpen_of_held hq) hopen
    obtain rfl := Option.some.inj (hfile.symm.trans hfile')
    exact Option.some.inj ((h.held i p inode hi (inode_of_runHeld hp)).symm.trans
      (h.held j q inode hj (inode_of_runHeld hq)))
  updates := h.returned
  lost := h.lost

/-- Who has written the temporary file is at work on an open operation. -/
theorem Good.isOpen_of_temp (h : Good s) {u : Update} {base : Rec}
    (hterminal : base.terminal = false) (hrecord : s.records u.op = some base) : s.IsOpen u.op := by
  refine ⟨fun hno => ?_, fun r hr => ?_⟩
  · rw [h.gone u.op hno] at hrecord
    cases hrecord
  · rw [hrecord] at hr
    rw [← Option.some.inj hr]
    exact hterminal

theorem setProc_some {q : Option Proc} {id' : ℕ} (h : (s.setProc id q).procs id' = some p) :
    id' = id ∧ q = some p ∨ id' ≠ id ∧ s.procs id' = some p := by
  unfold Sys.setProc at h
  dsimp only at h
  by_cases hid : id' = id
  · subst hid
    rw [Function.update_self] at h
    exact Or.inl ⟨rfl, h⟩
  · rw [Function.update_of_ne hid] at h
    exact Or.inr ⟨hid, h⟩

/-- What is left of the others when a process is gone. -/
theorem other_of_none {id' : ℕ} (h : (s.setProc id none).procs id' = some p) :
    id' ≠ id ∧ s.procs id' = some p := by
  rcases setProc_some h with ⟨-, hno⟩ | hother
  · cases hno
  · exact hother

theorem none_of_other {id' : ℕ} (hid : id' ≠ id) (hp : s.procs id' = some p) :
    (s.setProc id none).procs id' = some p := by
  unfold Sys.setProc
  dsimp only
  rw [Function.update_of_ne hid]
  exact hp

theorem Good.without (h : Good s) (id : ℕ) : Good (s.setProc id none) where
  created := h.created
  gone := h.gone
  name id' p op inode hp := h.name id' p op inode (other_of_none hp).2
  runName id' p op inode hp := h.runName id' p op inode (other_of_none hp).2
  held id' p inode hp := h.held id' p inode (other_of_none hp).2
  places id' p hp := h.places id' p (other_of_none hp).2
  staging := h.staging
  returned := h.returned
  lost := h.lost

/-- A process comes to a place. -/
theorem Good.put (h : Good (s.setProc id none))
    (hname : ∀ op inode, p.lockOpen = some (op, inode) → s.IsOpen op → s.lockFile op = some inode)
    (hrun : ∀ op inode, p.runOpen = some (op, inode) → s.IsOpen op → s.runFile op = some inode)
    (hheld : ∀ inode, p.inode = some inode → s.heldBy inode = some id) (hplace : p.Holds s) :
    Good (s.setProc id (some p)) where
  created := h.created
  gone := h.gone
  name id' q op inode hq hopen := by
    rcases setProc_some hq with ⟨rfl, hp⟩ | ⟨hid, hq⟩
    · obtain rfl := Option.some.inj hp
      exact hname op inode hopen
    · exact h.name id' q op inode (none_of_other hid hq) hopen
  runName id' q op inode hq hopen := by
    rcases setProc_some hq with ⟨rfl, hp⟩ | ⟨hid, hq⟩
    · obtain rfl := Option.some.inj hp
      exact hrun op inode hopen
    · exact h.runName id' q op inode (none_of_other hid hq) hopen
  held id' q inode hq hinode := by
    rcases setProc_some hq with ⟨rfl, hp⟩ | ⟨hid, hq⟩
    · obtain rfl := Option.some.inj hp
      exact hheld inode hinode
    · exact h.held id' q inode (none_of_other hid hq) hinode
  places id' q hq := by
    rcases setProc_some hq with ⟨rfl, hp⟩ | ⟨hid, hq⟩
    · obtain rfl := Option.some.inj hp
      exact hplace
    · exact h.places id' q (none_of_other hid hq)
  staging := h.staging
  returned := h.returned
  lost := h.lost

theorem Good.take (h : Good (s.setProc id none)) (hfree : s.heldBy inode = none) :
    Good ((s.take id inode).setProc id none) where
  created := h.created
  gone := h.gone
  name := h.name
  runName := h.runName
  held id' p inode' hp hinode := by
    have hhas : s.heldBy inode' = some id' := h.held id' p inode' hp hinode
    refine (Function.update_of_ne (fun hno => ?_) _ _).trans hhas
    rw [hno, hfree] at hhas
    cases hhas
  places := h.places
  staging := h.staging
  returned := h.returned
  lost := h.lost

/-- An inode is let go. -/
theorem Good.release (h : Good (s.setProc id none)) (hheld : s.heldBy inode = some id) :
    Good ((s.release inode).setProc id none) where
  created := h.created
  gone := h.gone
  name := h.name
  runName := h.runName
  held id' p inode' hp hinode := by
    have hhas : s.heldBy inode' = some id' := h.held id' p inode' hp hinode
    refine (Function.update_of_ne (fun hno => ?_) _ _).trans hhas
    rw [hno, hheld] at hhas
    exact (other_of_none hp).1 (Option.some.inj hhas).symm
  places := h.places
  staging := h.staging
  returned := h.returned
  lost := h.lost

theorem Good.openLock (h : Good s) (op : OpId) : Good (s.openLock op) where
  created := h.created
  gone := h.gone
  name id p op' inode hp hlock hopen := by
    have hfile : s.lockFile op' = some inode := h.name id p op' inode hp hlock hopen
    unfold Sys.openLock
    dsimp only
    by_cases hop : op' = op
    · subst hop
      rw [Function.update_self]
      unfold Sys.lockInode
      rw [hfile]
      rfl
    · rw [Function.update_of_ne hop]
      exact hfile
  runName := h.runName
  held := h.held
  places := h.places
  staging := h.staging
  returned := h.returned
  lost := h.lost

theorem Good.openRun (h : Good s) (op : OpId) : Good (s.openRun op) where
  created := h.created
  gone := h.gone
  name := h.name
  runName id p op' inode hp hlock hopen := by
    have hfile : s.runFile op' = some inode := h.runName id p op' inode hp hlock hopen
    unfold Sys.openRun
    dsimp only
    by_cases hop : op' = op
    · subst hop
      rw [Function.update_self]
      unfold Sys.runInode
      rw [hfile]
      rfl
    · rw [Function.update_of_ne hop]
      exact hfile
  held := h.held
  places := h.places
  staging := h.staging
  returned := h.returned
  lost := h.lost

/-- **The rename**, by the holder of the write lock. -/
theorem Good.rename (h : Good s) {u : Update} {base : Rec} {cut : Option OpId}
    (hp : s.procs id = some (.temp u base inode cut)) :
    Good ((s.rename u base).setProc id none) := by
  obtain ⟨hterminal, hrecord, -⟩ := h.places id _ hp
  have hopenBefore : s.IsOpen u.op := h.isOpen_of_temp hterminal hrecord
  -- an operation that is open after the write was open before
  have hback {op : OpId} (hopen : (s.rename u base).IsOpen op) : s.IsOpen op := by
    by_cases hop : op = u.op
    · rw [hop]
      exact hopenBefore
    · refine ⟨hopen.1, fun r hr => hopen.2 r ?_⟩
      exact (Function.update_of_ne hop _ _).trans hr
  have hhas {v : Update} (hv : s.Has v) : (s.rename u base).Has v := by
    obtain ⟨r, hr, hmem⟩ := hv
    by_cases hop : v.op = u.op
    · rw [hop, hrecord] at hr
      obtain rfl := Option.some.inj hr
      refine ⟨⟨base.rev + 1, u.terminal, base.updates ++ [u.update]⟩, ?_,
        List.mem_append_left _ hmem⟩
      rw [hop]
      exact Function.update_self u.op _ s.records
    · exact ⟨r, (Function.update_of_ne hop _ _).trans hr, hmem⟩
  have hsome' {op : OpId} (hsome : (s.records op).isSome = true) :
      ((s.rename u base).records op).isSome = true := by
    by_cases hname : op = u.op
    · rw [hname]
      exact congrArg Option.isSome (Function.update_self u.op _ s.records)
    · exact (congrArg Option.isSome (Function.update_of_ne hname _ _)).trans hsome
  have hstale {v : Update} {b : Rec}
      (hb : b.terminal = false ∧ ((s.records v.op).isSome = true ∨ v.op ∈ s.gone) ∧
        ∀ r ∈ s.records v.op, b.rev ≤ r.rev ∧ (b.rev = r.rev → b = r)) :
      b.terminal = false ∧ (((s.rename u base).records v.op).isSome = true ∨ v.op ∈ s.gone) ∧
        ∀ r ∈ (s.rename u base).records v.op, b.rev ≤ r.rev ∧ (b.rev = r.rev → b = r) := by
    refine ⟨hb.1, hb.2.1.imp (fun hsome => hsome' hsome) fun hgone => hgone, fun r hr => ?_⟩
    dsimp only [Sys.rename] at hr
    by_cases hop : v.op = u.op
    · rw [hop, Function.update_self] at hr
      obtain rfl := Option.some.inj hr
      have hle : b.rev ≤ base.rev := (hb.2.2 base (by rw [hop]; exact hrecord)).1
      refine ⟨hle.trans (Nat.le_succ _), fun hno => ?_⟩
      dsimp only at hno
      omega
    · exact hb.2.2 r ((Function.update_of_ne hop _ _).symm.trans hr)
  refine ⟨?_, ?_, ?_, ?_, ?_, ?_, ?_, ?_, h.lost⟩
  · intro op hop
    exact (h.created op hop).imp (fun hsome => hsome' hsome) fun hgone => hgone
  · intro op hop
    have hnone := h.gone op hop
    refine (Function.update_of_ne (fun hno => ?_) _ _).trans hnone
    rw [hno, hrecord] at hnone
    cases hnone
  · exact fun id' p op inode' hp' hlock hopen =>
      h.name id' p op inode' (other_of_none hp').2 hlock (hback hopen)
  · exact fun id' p op inode' hp' hlock hopen =>
      h.runName id' p op inode' (other_of_none hp').2 hlock (hback hopen)
  · exact fun id' p inode' hp' => h.held id' p inode' (other_of_none hp').2
  · intro id' p hp'
    obtain ⟨hid, hp'⟩ := other_of_none hp'
    have hplace := h.places id' p hp'
    cases p with
    | load v => trivial
    | loaded v b => exact hstale hplace
    | opened v b i => exact hstale hplace
    | holding v b i => exact hstale hplace
    | temp v b i cut' =>
      obtain ⟨hb, hrecord', hcut⟩ := hplace
      refine ⟨hb, (Function.update_of_ne (fun hop => ?_) _ _).trans hrecord', hcut⟩
      have hlock : (Proc.temp v b i cut').lockHeld = some (u.op, i) := by rw [← hop]; rfl
      exact hid (h.undisturbed.writeLock u.op hopenBefore id' id _ _ i inode hp' hp hlock rfl)
    | renamed v i => exact fun hopen => hhas (hplace (hback hopen))
    | runOpened op i => trivial
    | running op i => trivial
  · exact fun op hopen hstaged => h.staging op (hback hopen) hstaged
  · exact fun v hv hopen => hhas (h.returned v hv (hback hopen))

/-! ### Actions -/

theorem Good.goes (h : Good s) (hp : s.procs id = some p) : Good (s.goes id p) := by
  have hd := h.without id
  have hplace := h.places id p hp
  cases p with
  | load u =>
    unfold Sys.goes
    dsimp only
    cases hr : s.records u.op with
    | none => exact hd
    | some r =>
      dsimp only
      by_cases hterminal : r.terminal = true
      · rw [if_pos hterminal]
        exact hd
      · rw [if_neg hterminal]
        refine hd.put (fun _ _ hno => ?_) (fun _ _ hno => ?_) (fun _ hno => ?_)
          ⟨Bool.eq_false_iff.mpr hterminal, Or.inl (by rw [hr]; rfl), fun r' hr' => ?_⟩
        · cases hno
        · cases hno
        · cases hno
        · rw [hr] at hr'
          obtain rfl := Option.some.inj hr'
          exact ⟨le_rfl, fun _ => rfl⟩
  | loaded u base =>
    refine ((h.openLock u.op).without id).put (fun op inode hlock _ => ?_) (fun _ _ hno => ?_)
      (fun _ hno => ?_) hplace
    · obtain ⟨rfl, rfl⟩ := Prod.mk.inj (Option.some.inj hlock)
      exact Function.update_self _ _ _
    · cases hno
    · cases hno
  | opened u base inode =>
    unfold Sys.goes
    dsimp only
    by_cases hfree : s.heldBy inode = none
    · rw [if_pos hfree]
      refine (hd.take hfree).put (fun op i hlock hopen => ?_) (fun _ _ hno => ?_)
        (fun i hinode => ?_) hplace
      · exact h.name id _ op i hp hlock hopen
      · cases hno
      · obtain rfl := Option.some.inj hinode
        exact Function.update_self _ _ _
    · rw [if_neg hfree]
      exact h
  | holding u base inode =>
    have hheld := h.held id _ inode hp rfl
    unfold Sys.goes
    dsimp only
    by_cases hrev : (s.records u.op).map Rec.rev = some base.rev
    · rw [if_pos hrev]
      obtain ⟨r, hr, hsame⟩ := Option.map_eq_some_iff.mp hrev
      have hbase : base = r := (hplace.2.2 r hr).2 hsame.symm
      refine hd.put (fun op i hlock hopen => ?_) (fun _ _ hno => ?_) (fun i hinode => ?_)
        ⟨hplace.1, hbase ▸ hr, fun keep hkeep => ?_⟩
      · exact h.name id _ op i hp hlock hopen
      · cases hno
      · obtain rfl := Option.some.inj hinode
        exact hheld
      · cases hkeep
    · rw [if_neg hrev]
      refine (hd.release hheld).put (fun _ _ hno => ?_) (fun _ _ hno => ?_) (fun _ hno => ?_)
        trivial
      · cases hno
      · cases hno
      · cases hno
  | temp u base inode cut =>
    have hheld := h.held id _ inode hp rfl
    cases cut with
    | none =>
      refine (h.rename hp).put (fun op i hlock _ => ?_) (fun _ _ hno => ?_) (fun i hinode => ?_)
        fun _ => ?_
      · exact h.name id _ op i hp hlock
          (by
            obtain ⟨rfl, -⟩ := Prod.mk.inj (Option.some.inj hlock)
            exact h.isOpen_of_temp hplace.1 hplace.2.1)
      · cases hno
      · obtain rfl := Option.some.inj hinode
        exact hheld
      · exact ⟨⟨base.rev + 1, u.terminal, base.updates ++ [u.update]⟩,
          Function.update_self u.op _ s.records,
          List.mem_append_right _ (List.mem_singleton.mpr rfl)⟩
    | some keep =>
      have hfree := hd.release hheld
      exact { hfree with
        lost := fun k v hkv => by
          rcases List.mem_cons.mp hkv with heq | hkv
          · obtain ⟨rfl, rfl⟩ := Prod.mk.inj heq
            exact hplace.2.2 k rfl
          · exact h.lost k v hkv }
  | renamed u inode =>
    have hfree := hd.release (h.held id _ inode hp rfl)
    exact { hfree with
      returned := fun v hv hopen => by
        rcases List.mem_cons.mp hv with rfl | hv
        · exact hplace hopen
        · exact h.returned v hv hopen }
  | runOpened op inode =>
    unfold Sys.goes
    dsimp only
    by_cases hfree : s.heldBy inode = none
    · rw [if_pos hfree]
      refine (hd.take hfree).put (fun _ _ hno => ?_) (fun op' i hlock hopen => ?_)
        (fun i hinode => ?_) trivial
      · cases hno
      · exact h.runName id _ op' i hp hlock hopen
      · obtain rfl := Option.some.inj hinode
        exact Function.update_self _ _ _
    · rw [if_neg hfree]
      exact hd
  | running op inode => exact h

theorem Good.leave (h : Good s) (id : ℕ) : Good (s.leave id) := by
  unfold Sys.leave
  cases hinode : (s.procs id).bind Proc.inode with
  | none => exact h.without id
  | some inode =>
    obtain ⟨p, hp, hpi⟩ := Option.bind_eq_some_iff.mp hinode
    exact (h.without id).release (h.held id p inode hp hpi)

theorem Good.removeRecord (h : Good s) (hterminal : (s.records op).any Rec.terminal = true) :
    Good (s.removeRecord op) := by
  have hback {op' : OpId} (hopen : (s.removeRecord op).IsOpen op') : op' ≠ op ∧ s.IsOpen op' := by
    have hne : op' ≠ op := fun hno => hopen.1 (hno ▸ List.mem_cons_self)
    refine ⟨hne, fun hno => hopen.1 (List.mem_cons_of_mem _ hno), fun r hr => hopen.2 r ?_⟩
    exact (Function.update_of_ne hne _ _).trans hr
  have hhas {v : Update} (hne : v.op ≠ op) (hv : s.Has v) : (s.removeRecord op).Has v := by
    obtain ⟨r, hr, hmem⟩ := hv
    exact ⟨r, (Function.update_of_ne hne _ _).trans hr, hmem⟩
  have hsome {op' : OpId} (hop' : (s.records op').isSome = true ∨ op' ∈ s.gone) :
      ((s.removeRecord op).records op').isSome = true ∨ op' ∈ (s.removeRecord op).gone := by
    by_cases hname : op' = op
    · exact Or.inr (hname ▸ List.mem_cons_self)
    · refine hop'.imp (fun hsome => ?_) (List.mem_cons_of_mem _)
      exact (congrArg Option.isSome (Function.update_of_ne hname _ _)).trans hsome
  have hstale {v : Update} {b : Rec}
      (hb : b.terminal = false ∧ ((s.records v.op).isSome = true ∨ v.op ∈ s.gone) ∧
        ∀ r ∈ s.records v.op, b.rev ≤ r.rev ∧ (b.rev = r.rev → b = r)) :
      b.terminal = false ∧ (((s.removeRecord op).records v.op).isSome = true ∨
        v.op ∈ (s.removeRecord op).gone) ∧
        ∀ r ∈ (s.removeRecord op).records v.op, b.rev ≤ r.rev ∧ (b.rev = r.rev → b = r) := by
    refine ⟨hb.1, hsome hb.2.1, fun r hr => ?_⟩
    dsimp only [Sys.removeRecord] at hr
    by_cases hop : v.op = op
    · rw [hop, Function.update_self] at hr
      cases hr
    · exact hb.2.2 r ((Function.update_of_ne hop _ _).symm.trans hr)
  refine ⟨fun op' hop' => hsome (h.created op' hop'), ?_, ?_, ?_, h.held, ?_, ?_, ?_, h.lost⟩
  · intro op' hop'
    dsimp only [Sys.removeRecord]
    by_cases hname : op' = op
    · rw [hname, Function.update_self]
    · rw [Function.update_of_ne hname]
      exact h.gone op' ((List.mem_cons.mp hop').resolve_left hname)
  · exact fun id' p op' inode hp hlock hopen => h.name id' p op' inode hp hlock (hback hopen).2
  · exact fun id' p op' inode hp hlock hopen => h.runName id' p op' inode hp hlock (hback hopen).2
  · intro id' p hp
    have hplace := h.places id' p hp
    cases p with
    | load v => trivial
    | loaded v b => exact hstale hplace
    | opened v b i => exact hstale hplace
    | holding v b i => exact hstale hplace
    | temp v b i cut =>
      refine ⟨hplace.1, (Function.update_of_ne (fun hop => ?_) _ _).trans hplace.2.1, hplace.2.2⟩
      have hrecord := hplace.2.1
      rw [hop] at hrecord
      rw [hrecord] at hterminal
      exact absurd hterminal (by rw [Option.any_some, hplace.1]; decide)
    | renamed v i => exact fun hopen => hhas (hback hopen).1 (hplace (hback hopen).2)
    | runOpened op' i => trivial
    | running op' i => trivial
  · exact fun op' hopen hstaged => h.staging op' (hback hopen).2 hstaged
  · exact fun v hv hopen => hhas (hback hopen).1 (h.returned v hv (hback hopen).2)

theorem Good.create (h : Good s) (hnone : s.records op = none) (hgone : op ∉ s.gone) :
    Good (s.create op) := by
  have hback {op' : OpId} (hopen : (s.create op).IsOpen op') : s.IsOpen op' := by
    refine ⟨hopen.1, fun r hr => ?_⟩
    by_cases hname : op' = op
    · rw [hname, hnone] at hr
      cases hr
    · exact hopen.2 r ((Function.update_of_ne hname _ _).trans hr)
  have hne {op' : OpId} (hsome : (s.records op').isSome = true ∨ op' ∈ s.gone) : op' ≠ op := by
    rintro rfl
    rcases hsome with hsome | hno
    · rw [hnone] at hsome
      cases hsome
    · exact hgone hno
  have hhas {v : Update} (hv : s.Has v) : (s.create op).Has v := by
    obtain ⟨r, hr, hmem⟩ := hv
    refine ⟨r, (Function.update_of_ne (hne (Or.inl ?_)) _ _).trans hr, hmem⟩
    rw [show s.records v.op = some r from hr]
    rfl
  have hsome {op' : OpId} (hop' : (s.records op').isSome = true ∨ op' ∈ s.gone) :
      ((s.create op).records op').isSome = true ∨ op' ∈ s.gone :=
    hop'.imp
      (fun hsome =>
        (congrArg Option.isSome (Function.update_of_ne (hne (Or.inl hsome)) _ _)).trans hsome)
      id
  have hstale {v : Update} {b : Rec}
      (hb : b.terminal = false ∧ ((s.records v.op).isSome = true ∨ v.op ∈ s.gone) ∧
        ∀ r ∈ s.records v.op, b.rev ≤ r.rev ∧ (b.rev = r.rev → b = r)) :
      b.terminal = false ∧ (((s.create op).records v.op).isSome = true ∨ v.op ∈ s.gone) ∧
        ∀ r ∈ (s.create op).records v.op, b.rev ≤ r.rev ∧ (b.rev = r.rev → b = r) :=
    ⟨hb.1, hsome hb.2.1, fun r hr =>
      hb.2.2 r ((Function.update_of_ne (hne hb.2.1) _ _).symm.trans hr)⟩
  refine ⟨?_, ?_, ?_, ?_, h.held, ?_, ?_, ?_, h.lost⟩
  · intro op' hop'
    rcases List.mem_cons.mp hop' with rfl | hop'
    · exact Or.inl (congrArg Option.isSome (Function.update_self op' _ s.records))
    · exact hsome (h.created op' hop')
  · intro op' hop'
    exact (Function.update_of_ne (hne (Or.inr hop')) _ _).trans (h.gone op' hop')
  · exact fun id' p op' inode hp hlock hopen => h.name id' p op' inode hp hlock (hback hopen)
  · exact fun id' p op' inode hp hlock hopen => h.runName id' p op' inode hp hlock (hback hopen)
  · intro id' p hp
    have hplace := h.places id' p hp
    cases p with
    | load v => trivial
    | loaded v b => exact hstale hplace
    | opened v b i => exact hstale hplace
    | holding v b i => exact hstale hplace
    | temp v b i cut =>
      refine ⟨hplace.1, (Function.update_of_ne (hne (Or.inl ?_)) _ _).trans hplace.2.1, hplace.2.2⟩
      rw [hplace.2.1]
      rfl
    | renamed v i => exact fun hopen => hhas (hplace (hback hopen))
    | runOpened op' i => trivial
    | running op' i => trivial
  · exact fun op' hopen hstaged => h.staging op' (hback hopen) hstaged
  · exact fun v hv hopen => hhas (h.returned v hv (hback hopen))

/-- **What a cleanup unlinks**, where it spares the others. -/
theorem Good.unlink (h : Good s) {keep : OpId} {file : File}
    (hspares : Spares s (.unlink keep file)) : Good (s.unlink keep file) := by
  cases file with
  | lock op =>
    unfold Sys.unlink
    dsimp only
    split_ifs with hkeep
    · exact h
    · exact { h with
        name := fun id p op' inode hp hlock hopen => by
          refine (Function.update_of_ne (fun hno => ?_) _ _).trans
            (h.name id p op' inode hp hlock hopen)
          subst hno
          exact hspares hkeep hopen id p inode hp hlock }
  | temp id =>
    unfold Sys.unlink
    dsimp only
    split
    · next u base inode hp =>
      obtain ⟨hterminal, hrecord, -⟩ := h.places id _ hp
      refine (h.without id).put (fun op i hlock hopen => h.name id _ op i hp hlock hopen)
        (fun _ _ hno => ?_) (fun i hinode => h.held id _ i hp hinode)
        ⟨hterminal, hrecord, fun k hk => ?_⟩
      · cases hno
      · obtain rfl := Option.some.inj hk
        exact hspares u base inode hp
    · exact h
  | record op =>
    unfold Sys.unlink
    dsimp only
    split_ifs with hrecord
    · exact h.removeRecord hrecord.2
    · exact h
  | run op =>
    unfold Sys.unlink
    dsimp only
    split_ifs with hclosed
    · exact { h with
        runName := fun id p op' inode hp hlock hopen => by
          refine (Function.update_of_ne (fun hno => ?_) _ _).trans
            (h.runName id p op' inode hp hlock hopen)
          subst hno
          exact hclosed.2 hopen }
    · exact h

/-- **One action**, where a cleanup spares the others. -/
theorem Good.step (h : Good s) {a : Action} (hspares : Spares s a) : Good (s.step a) := by
  cases a with
  | create op =>
    unfold Sys.step
    dsimp only
    split_ifs with hnew
    · exact h.create hnew.1 hnew.2
    · exact h
  | mutate id u =>
    unfold Sys.step
    dsimp only
    split_ifs
    · refine (h.without id).put (fun _ _ hno => ?_) (fun _ _ hno => ?_) (fun _ hno => ?_) trivial
      · cases hno
      · cases hno
      · cases hno
    · exact h
  | acquire id op =>
    unfold Sys.step
    dsimp only
    split_ifs
    · refine ((h.openRun op).without id).put (fun _ _ hno => ?_) (fun op' inode hlock _ => ?_)
        (fun _ hno => ?_) trivial
      · cases hno
      · obtain ⟨rfl, rfl⟩ := Prod.mk.inj (Option.some.inj hlock)
        exact Function.update_self _ _ _
      · cases hno
    · exact h
  | goes id =>
    unfold Sys.step
    dsimp only
    cases hp : s.procs id with
    | none => exact h
    | some p => exact h.goes hp
  | leave id => exact h.leave id
  | stage op name =>
    exact { h with
      staging := fun op' hopen hstaged => by
        dsimp only [Sys.step] at hstaged ⊢
        by_cases hop : op' = op
        · rw [hop, Function.update_self]
        · rw [Function.update_of_ne hop] at hstaged ⊢
          exact h.staging op' hopen hstaged }
  | unstage op =>
    exact { h with
      staging := fun op' hopen hstaged => by
        dsimp only [Sys.step] at hstaged
        by_cases hop : op' = op
        · rw [hop, Function.update_self] at hstaged
          cases hstaged
        · rw [Function.update_of_ne hop] at hstaged
          exact h.staging op' hopen hstaged }
  | unlink keep file => exact h.unlink hspares
  | sweep keep cleaner name =>
    unfold Sys.step
    dsimp only
    split_ifs with hsweeps
    · exact { h with
        staging := fun op' hopen hstaged => by
          dsimp only at hstaged ⊢
          by_cases hop : op' = keep
          · rw [hop, Function.update_self] at hstaged
            cases hstaged
          · rw [Function.update_of_ne hop] at hstaged
            rw [h.staging op' hopen hstaged, Bool.true_and]
            exact decide_eq_true (hspares hsweeps op' hop hopen) }
    · exact h

end Invariant

theorem good_start : Good {} where
  created := by simp
  gone := by simp
  name := by simp
  runName := by simp
  held := by simp
  places := by simp
  staging := by simp
  returned := by simp
  lost := by simp

/-! ## Runs -/

def opA : OpId := [97]
def opB : OpId := [98]

/-- A writer of `b` is between its check and its rename when the clear `a` unlinks the write lock;
another one opens a new file. -/
def splitActions : List Action :=
  [.create opA, .create opB, .mutate 1 ⟨opB, 10, false⟩, .goes 1, .goes 1, .goes 1, .goes 1,
    .unlink opA (.lock opB), .mutate 2 ⟨opB, 11, false⟩, .goes 2, .goes 2, .goes 2, .goes 2]

theorem staged_unlinkLock (s : Sys) (keep op : OpId) :
    (s.unlink keep (.lock op)).staged = s.staged := by
  unfold Sys.unlink
  dsimp only
  split_ifs <;> rfl

theorem staged_create (s : Sys) (op : OpId) : (s.step (.create op)).staged = s.staged := by
  unfold Sys.step
  dsimp only
  split_ifs <;> rfl

end Unlink
end Operations
end SemanticMemory
