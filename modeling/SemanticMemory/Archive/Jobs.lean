import SemanticMemory.Lib.Runs

/-!
# Background jobs of the archive

The management runs backups and restores, the dataset store runs freezes: each runs one job at a time
on a thread of its own, keeps the state of its jobs in one file each, and takes a cancel at any time.

* `Store` is what either of them holds, `Phase` where its thread is, and `Store.work` the next step of
  the thread.
* `Store.cancel` is the branch of `call` that cancels a job.
* `Honoured` is the claim about a cancel that is accepted.  A backup and a freeze look at the flag
  under the lock that the cancel takes too, and commit under it.  A restore looks at it under another
  lock, and commits later: `Timely` excludes a cancel in between.
-/

namespace SemanticMemory
namespace Archive
namespace Jobs

/-! ## The store -/

/-- What a job does. -/
inductive Kind where
  | backup
  | restore
  | freeze
  deriving DecidableEq

inductive JobState where
  | pending
  | running
  | succeeded
  | failed
  | cancelled
  | unknown
  deriving DecidableEq

/-- Where the thread of a job is. -/
inductive Phase where
  /-- The thread has been started. -/
  | started
  /-- It copies, or inspects. -/
  | working
  /-- It is about to look at the flag for the last time. -/
  | committing
  /-- A restore has looked at the flag. -/
  | checked
  | ready
  | switched
  /-- A restore has succeeded, and cleans up. -/
  | cleaning
  /-- An exception is handled: `management_cancelled` or `Cancelled`, or another one. -/
  | raised (cancelled : Bool)
  /-- The last block of `run`. -/
  | ending

/-- How the publication of a file comes out. -/
inductive Save where
  | done
  | lost
  /-- An exception after the file is replaced. -/
  | unsure
  deriving DecidableEq

/-- The publication has replaced the file. -/
def Save.replaced : Save → Bool
  | .lost => false
  | _ => true

/-- The thread of the active job. -/
structure Worker where
  job : ℕ
  kind : Kind
  phase : Phase

/-- What the management, or the dataset store, holds. -/
structure Store where
  jobs : List (ℕ × JobState) := []
  active : Option ℕ := none
  /-- The flag: `cancel`, or `cancelled`. -/
  flag : Bool := false
  /-- `committed` in the file of the authority. -/
  control : List ℕ := []
  /-- `authority.value["committed"]`. -/
  committed : List ℕ := []
  /-- `authority.failed`. -/
  failed : Bool := false
  /-- `_maintenance_unavailable`, or the `error` of the dataset store. -/
  unavailable : Bool := false
  worker : Option Worker := none
  /-- The jobs that a cancel was accepted for while they were active. -/
  accepted : List ℕ := []

def Store.load (s : Store) (job : ℕ) : Option JobState :=
  (s.jobs.find? fun p => p.1 = job).map Prod.snd

/-- `save`, as far as it has come. -/
def Store.save (s : Store) (job : ℕ) (state : JobState) (result : Save) : Store :=
  if result.replaced then
    { s with jobs := s.jobs.map fun p => if p.1 = job then (job, state) else p }
  else s

def Store.isCommitted (s : Store) (job : ℕ) : Bool :=
  s.load job = some .succeeded || job ∈ s.committed

/-! ## The thread -/

/-- What a step of the thread meets. -/
inductive Turn where
  /-- The step is taken; `stop` is the stop of the collector, and `result` how a file comes out. -/
  | goes (stop : Bool) (result : Save)
  /-- The loop is over. -/
  | leaves
  | raises

def Store.goes (s : Store) (w : Worker) (phase : Phase) : Store :=
  { s with worker := some { w with phase := phase } }

/-- The thread goes on, or handles the exception of a publication. -/
def Store.saved (s : Store) (w : Worker) (result : Save) (phase : Phase) : Store :=
  s.goes w (if result = .done then phase else .raised false)

/-- `cancel.is_set() or c._stop`; a freeze does not look at the stop. -/
def Store.stops (s : Store) (kind : Kind) (stop : Bool) : Bool := s.flag || (stop && kind ≠ .freeze)

/-- The except branch of `_restore_switch`. -/
def Store.unserved (s : Store) (w : Worker) : Store :=
  { s.goes w (.raised false) with unavailable := s.unavailable || s.failed || w.job ∈ s.committed }

/-- `authority.switch`: the one point of no return of a restore. -/
def Store.switch (s : Store) (w : Worker) (result : Save) : Store :=
  match result with
  | .done => { s with control := w.job :: s.control, committed := w.job :: s.committed }.goes w .switched
  | .lost => { s with failed := true }.unserved w
  | .unsure => { s with failed := true, control := w.job :: s.control }.unserved w

def Store.handle (s : Store) (w : Worker) (cancelled : Bool) (result : Save) : Store :=
  if s.isCommitted w.job || s.failed then s.goes w .ending
  else (s.save w.job (if cancelled then .cancelled else .failed) result).goes w .ending

/-- The next step of `run`. -/
def Store.work (s : Store) (turn : Turn) : Store :=
  match s.worker with
  | none => s
  | some w =>
    match w.phase, turn with
    | .started, .goes _ result => (s.save w.job .running result).saved w result .working
    | .working, .goes stop result =>
      -- `_progress`, or `progress`
      if s.stops w.kind stop then s.goes w (.raised true)
      else (s.save w.job .running result).saved w result .working
    | .working, .leaves => s.goes w .committing
    | .committing, .goes stop result =>
      if s.stops w.kind stop then s.goes w (.raised true)
      else if w.kind = .restore then s.goes w .checked
      else (s.save w.job .succeeded result).saved w result .ending
    | .checked, .goes _ result => (s.save w.job .running result).saved w result .ready
    | .ready, .goes _ result => s.switch w result
    | .switched, .goes _ result =>
      let s' := s.save w.job .succeeded result
      if result = .done then s'.goes w .cleaning else s'.unserved w
    | .cleaning, .goes _ _ => s.goes w .ending
    | .raised cancelled, .goes _ result => s.handle w cancelled result
    | .raised _, _ => s.goes w .ending
    | .ending, _ => { s with active := none, worker := none }
    | .switched, _ | .cleaning, _ => s.unserved w
    | _, _ => s.goes w (.raised false)

/-! ## Calls -/

inductive Reply where
  | ok
  | managementAuthorityUnavailable
  /-- The `error` of the dataset store. -/
  | datasetError
  | notFound
  | managementCommitted
  | datasetAlreadyPublished
  | storageFailure

/-- `_request_job`, or `create`, from the moment that the request has been found valid. -/
def Store.request (s : Store) (job : ℕ) (kind : Kind) : Store :=
  if s.failed || s.unavailable || (s.load job).isSome || s.active.isSome then s
  else { s with
    jobs := s.jobs ++ [(job, .pending)]
    active := some job
    flag := false
    worker := some ⟨job, kind, .started⟩ }

/-- The part of a cancel that both stores share: the job has not committed. -/
def Store.cancelOpen (s : Store) (job : ℕ) (state : JobState) (result : Save) : Store × Reply :=
  if state = .pending ∨ state = .unknown then
    (s.save job .cancelled result, if result = .done then .ok else .storageFailure)
  else (s, .ok)

/-- The branch `cancel` of `Management.call`. -/
def Store.cancelManagement (s : Store) (job : ℕ) (result : Save) : Store × Reply :=
  if s.failed || s.unavailable then (s, .managementAuthorityUnavailable)
  else match s.load job with
    | none => (s, .notFound)
    | some state =>
      if s.isCommitted job then (s, .managementCommitted)
      else if s.active = some job then
        ({ s with flag := true, accepted := job :: s.accepted }, .ok)
      else s.cancelOpen job state result

/-- The branch `cancel` of `DatasetStore.call`: it notes the request in the file too. -/
def Store.cancelDataset (s : Store) (job : ℕ) (result : Save) : Store × Reply :=
  if s.unavailable then (s, .datasetError)
  else match s.load job with
    | none => (s, .notFound)
    | some state =>
      if state = .succeeded then (s, .datasetAlreadyPublished)
      else if s.active = some job then
        if result = .done then ({ s with flag := true, accepted := job :: s.accepted }, .ok)
        else ({ s with flag := true }, .storageFailure)
      else s.cancelOpen job state result

/-- `prepare`, or `_recover`: what a start makes of the file of a job. -/
def recovered (control : List ℕ) (p : ℕ × JobState) : ℕ × JobState :=
  if p.1 ∈ control then (p.1, .succeeded)
  else if p.2 = .pending ∨ p.2 = .running then (p.1, .unknown)
  else p

/-- The process ends, and another one starts.  It recovers the jobs that it reaches before it fails, if
it fails. -/
def Store.restart (s : Store) (reached : List ℕ) : Store :=
  { jobs := s.jobs.map fun p => if p.1 ∈ reached then recovered s.control p else p
    control := s.control
    committed := s.control
    unavailable := !s.jobs.all fun p => p.1 ∈ reached
    accepted := s.accepted }

/-! ## Runs -/

/-- The two stores of a collector. -/
structure World where
  management : Store := {}
  datasets : Store := {}

/-- What happens to them. -/
inductive Action where
  | backup (job : ℕ)
  | restore (job : ℕ)
  | freeze (job : ℕ)
  | cancelManagement (job : ℕ) (result : Save)
  | cancelDataset (job : ℕ) (result : Save)
  | workManagement (turn : Turn)
  | workDatasets (turn : Turn)
  /-- The registration of a source fails to write the authority. -/
  | registrationFails
  | restart (management datasets : List ℕ)

/-- `_request_job`: no job of either store is active. -/
def World.request (w : World) (job : ℕ) (kind : Kind) : World :=
  if w.datasets.active.isSome then w else { w with management := w.management.request job kind }

def step (w : World) : Action → World
  | .backup job => w.request job .backup
  | .restore job => w.request job .restore
  | .freeze job => { w with datasets := w.datasets.request job .freeze }
  | .cancelManagement job result => { w with management := (w.management.cancelManagement job result).1 }
  | .cancelDataset job result => { w with datasets := (w.datasets.cancelDataset job result).1 }
  | .workManagement turn => { w with management := w.management.work turn }
  | .workDatasets turn => { w with datasets := w.datasets.work turn }
  | .registrationFails => { w with management := { w.management with failed := true } }
  | .restart management datasets => ⟨w.management.restart management, w.datasets.restart datasets⟩

/-! ## The claim -/

/-- **An accepted cancel is honoured**: its job has neither succeeded nor committed. -/
def Store.Honoured (s : Store) : Prop :=
  ∀ job ∈ s.accepted, s.load job ≠ some .succeeded ∧ job ∉ s.control

/-- **A late cancel is refused**: what has committed in `w` is out of reach in `w'`. -/
structure Refuses (w w' : World) : Prop where
  management : ∀ job result, w.management.isCommitted job = true →
    w'.management.cancelManagement job result = (w'.management,
      if w'.management.failed || w'.management.unavailable then .managementAuthorityUnavailable
      else .managementCommitted)
  datasets : ∀ job result, w.datasets.isCommitted job = true →
    w'.datasets.cancelDataset job result = (w'.datasets,
      if w'.datasets.unavailable then .datasetError else .datasetAlreadyPublished)

/-- A restore has looked at the flag, and not switched yet. -/
def Phase.isBetween : Phase → Bool
  | .checked | .ready => true
  | _ => false

/-- **The condition on a step**: no cancel meets a restore between its last look at the flag and its
switch. -/
def Timely (w : World) : Action → Prop
  | .cancelManagement job _ => ∀ x ∈ w.management.worker, x.job = job → x.phase.isBetween = false
  | _ => True

/-! ## The invariant -/

/-- The thread will look at the flag again. -/
def Phase.isEarly : Phase → Bool
  | .started | .working | .committing => true
  | _ => false

def Phase.isSwitched : Phase → Bool
  | .switched | .cleaning => true
  | _ => false

/-- What a phase of the thread says of its job. -/
structure Fits (s : Store) (x : Worker) : Prop where
  known : s.load x.job ≠ none
  restores : (x.phase.isBetween || x.phase.isSwitched) = true → x.kind = .restore
  pending : (x.phase.isEarly || x.phase.isBetween) = true →
    s.load x.job ≠ some .succeeded ∧ x.job ∉ s.control
  switched : x.phase.isSwitched = true → x.job ∈ s.committed
  flagged : x.job ∈ s.accepted → x.phase.isBetween = false ∧ (x.phase.isEarly = true → s.flag = true)

/-- **The invariant.** -/
structure Sound (s : Store) : Prop where
  active : s.active = s.worker.map Worker.job
  committed : s.committed ⊆ s.control
  control : s.failed = false → s.control ⊆ s.committed
  known : ∀ job, job ∈ s.control ∨ job ∈ s.accepted → s.load job ≠ none
  worker : ∀ x ∈ s.worker, Fits s x
  honoured : s.Honoured

variable {s s' : Store} {x : Worker} {job other : ℕ} {state : JobState} {result : Save} {phase : Phase}

/-! ## Files -/

/-- What changes the states alone finds the same jobs. -/
theorem find_map {f : ℕ × JobState → ℕ × JobState} (hf : ∀ p, (f p).1 = p.1)
    (jobs : List (ℕ × JobState)) (job : ℕ) :
    (jobs.map f).find? (fun p => p.1 = job) = (jobs.find? fun p => p.1 = job).map f := by
  rw [List.find?_map]
  congr 2
  funext p
  exact congrArg (fun n => decide (n = job)) (hf p)

theorem load_save_of_ne (h : other ≠ job) : (s.save job state result).load other = s.load other := by
  unfold Store.save Store.load
  split_ifs with hreplaced
  · dsimp only
    rw [find_map (fun p => by split_ifs with hp <;> simp_all)]
    cases hfind : s.jobs.find? fun p => p.1 = other with
    | none => rfl
    | some p =>
      have hp : p.1 = other := by simpa using List.find?_some hfind
      show some (if p.1 = job then (job, state) else p).2 = some p.2
      rw [if_neg (hp ▸ h)]
  · rfl

/-- The file of a job has its old state, or the one that is saved. -/
theorem load_save (s : Store) (job : ℕ) (state : JobState) (result : Save) :
    (s.save job state result).load job = s.load job ∨
      s.load job ≠ none ∧ (s.save job state result).load job = some state := by
  unfold Store.save Store.load
  split_ifs with hreplaced
  · dsimp only
    rw [find_map (fun p => by split_ifs with hp <;> simp_all)]
    cases hfind : s.jobs.find? fun p => p.1 = job with
    | none => exact Or.inl rfl
    | some p =>
      have hp : p.1 = job := by simpa using List.find?_some hfind
      refine Or.inr ⟨nofun, ?_⟩
      show some (if p.1 = job then (job, state) else p).2 = some state
      rw [if_pos hp]
  · exact Or.inl rfl

theorem load_save_ne_none (h : s.load other ≠ none) :
    (s.save job state result).load other ≠ none := by
  by_cases hsame : other = job
  · subst hsame
    rcases load_save s other state result with hold | ⟨-, hnew⟩
    · rwa [hold]
    · rw [hnew]
      nofun
  · rwa [load_save_of_ne hsame]

theorem load_save_ne_succeeded (h : s.load other ≠ some .succeeded)
    (hstate : other = job → state ≠ .succeeded) :
    (s.save job state result).load other ≠ some .succeeded := by
  by_cases hsame : other = job
  · subst hsame
    rcases load_save s other state result with hold | ⟨-, hnew⟩
    · rwa [hold]
    · rw [hnew]
      exact fun hno => hstate rfl (Option.some.inj hno)
  · rwa [load_save_of_ne hsame]

theorem save_eq (s : Store) (job : ℕ) (state : JobState) (result : Save) :
    s.save job state result = { s with jobs := (s.save job state result).jobs } := by
  unfold Store.save
  split_ifs <;> rfl

/-! ## Steps of the thread -/

/-- Nothing but the files and the phase changes. -/
theorem Sound.turns (h : Sound s) (hworker : s.worker = some x) (jobs : List (ℕ × JobState))
    (hs' : s' = { s with jobs := jobs, worker := some { x with phase := phase } })
    (hknown : ∀ job, s.load job ≠ none → s'.load job ≠ none)
    (hloads : ∀ job, s.load job ≠ some .succeeded → s'.load job ≠ some .succeeded ∨
      job = x.job ∧ job ∉ s.accepted ∧ (phase.isEarly || phase.isBetween) = false)
    (hpending : (phase.isEarly || phase.isBetween) = true →
      (x.phase.isEarly || x.phase.isBetween) = true)
    (hrestores : (phase.isBetween || phase.isSwitched) = true → x.kind = .restore)
    (hswitched : phase.isSwitched = true → x.job ∈ s.committed)
    (hflagged : x.job ∈ s.accepted → phase.isBetween = false ∧ (phase.isEarly = true →
      s.flag = true)) : Sound s' := by
  have hfits := h.worker x hworker
  have hfields : s'.active = s.active ∧ s'.committed = s.committed ∧ s'.control = s.control ∧
      s'.failed = s.failed ∧ s'.accepted = s.accepted ∧ s'.flag = s.flag ∧
      s'.worker = some { x with phase := phase } := by
    rw [hs']
    exact ⟨rfl, rfl, rfl, rfl, rfl, rfl, rfl⟩
  obtain ⟨hactive, hcommitted, hcontrol, hfailed, haccepted, hflag, hworker'⟩ := hfields
  refine ⟨?_, ?_, ?_, fun j hj => ?_, fun y hy => ?_, fun j hj => ?_⟩
  · rw [hactive, h.active, hworker, hworker']
    rfl
  · rw [hcommitted, hcontrol]
    exact h.committed
  · rw [hcommitted, hcontrol, hfailed]
    exact h.control
  · rw [hcontrol, haccepted] at hj
    exact hknown j (h.known j hj)
  · rw [hworker'] at hy
    cases hy
    refine ⟨hknown _ hfits.known, hrestores, fun hphase => ?_, ?_, ?_⟩
    · obtain ⟨hload, hno⟩ := hfits.pending (hpending hphase)
      rw [hcontrol]
      refine ⟨?_, hno⟩
      rcases hloads x.job hload with hload | ⟨-, -, hother⟩
      · exact hload
      · have hphase' : (phase.isEarly || phase.isBetween) = true := hphase
        rw [hother] at hphase'
        cases hphase'
    · rw [hcommitted]
      exact hswitched
    · rw [haccepted, hflag]
      exact hflagged
  · rw [haccepted] at hj
    obtain ⟨hload, hno⟩ := h.honoured j hj
    rw [hcontrol]
    rcases hloads j hload with hload | ⟨-, hother, -⟩
    · exact ⟨hload, hno⟩
    · exact absurd hj hother

/-- The thread goes on, and no file changes. -/
theorem Sound.goes (h : Sound s) (hworker : s.worker = some x)
    (hpending : (phase.isEarly || phase.isBetween) = true →
      (x.phase.isEarly || x.phase.isBetween) = true)
    (hrestores : (phase.isBetween || phase.isSwitched) = true → x.kind = .restore)
    (hswitched : phase.isSwitched = true → x.job ∈ s.committed)
    (hflagged : x.job ∈ s.accepted → phase.isBetween = false ∧ (phase.isEarly = true →
      s.flag = true)) : Sound (s.goes x phase) :=
  h.turns hworker s.jobs rfl (fun _ hj => hj) (fun _ hj => Or.inl hj) hpending hrestores hswitched hflagged

/-- The thread handles an exception, or is at its end. -/
theorem Sound.leaves (h : Sound s) (hworker : s.worker = some x)
    (hphase : phase.isEarly = false ∧ phase.isBetween = false ∧ phase.isSwitched = false) :
    Sound (s.goes x phase) := by
  obtain ⟨hearly, hbetween, hswitched⟩ := hphase
  refine h.goes hworker (fun hno => ?_) (fun hno => ?_) (fun hno => ?_) fun _ => ⟨hbetween, fun hno => ?_⟩
  · rw [hearly, hbetween] at hno
    cases hno
  · rw [hbetween, hswitched] at hno
    cases hno
  · rw [hswitched] at hno
    cases hno
  · rw [hearly] at hno
    cases hno

/-- **A state is saved** that is not a success. -/
theorem Sound.saves (h : Sound s) (hworker : s.worker = some x) (hstate : state ≠ .succeeded)
    (hpending : (phase.isEarly || phase.isBetween) = true →
      (x.phase.isEarly || x.phase.isBetween) = true)
    (hrestores : (phase.isBetween || phase.isSwitched) = true → x.kind = .restore)
    (hswitched : phase.isSwitched = false)
    (hflagged : x.job ∈ s.accepted → phase.isBetween = false ∧ (phase.isEarly = true →
      s.flag = true)) : Sound ((s.save x.job state result).goes x phase) := by
  refine h.turns hworker (s.save x.job state result).jobs ?_
    (fun j hj => load_save_ne_none hj)
    (fun j hj => Or.inl (load_save_ne_succeeded hj fun _ => hstate)) hpending hrestores
    (fun hno => ?_) hflagged
  · rw [save_eq s x.job state result]
    rfl
  · rw [hswitched] at hno
    cases hno

/-- The same, with the way that the publication of the file has come out. -/
theorem Sound.saved (h : Sound s) (hworker : s.worker = some x) (hstate : state ≠ .succeeded)
    (hpending : (phase.isEarly || phase.isBetween) = true →
      (x.phase.isEarly || x.phase.isBetween) = true)
    (hrestores : (phase.isBetween || phase.isSwitched) = true → x.kind = .restore)
    (hswitched : phase.isSwitched = false)
    (hflagged : x.job ∈ s.accepted → phase.isBetween = false ∧ (phase.isEarly = true →
      s.flag = true)) : Sound ((s.save x.job state result).saved x result phase) := by
  unfold Store.saved
  split_ifs
  · exact h.saves hworker hstate hpending hrestores hswitched hflagged
  · exact h.saves hworker hstate nofun nofun rfl fun _ => ⟨rfl, nofun⟩

/-- **A success is saved**, of a job without an accepted cancel. -/
theorem Sound.succeeds (h : Sound s) (hworker : s.worker = some x) (hopen : x.job ∉ s.accepted)
    (hphase : (phase.isEarly || phase.isBetween) = false)
    (hrestores : (phase.isBetween || phase.isSwitched) = true → x.kind = .restore)
    (hswitched : phase.isSwitched = true → x.job ∈ s.committed) :
    Sound ((s.save x.job .succeeded result).goes x phase) := by
  refine h.turns hworker (s.save x.job .succeeded result).jobs ?_
    (fun j hj => load_save_ne_none hj) (fun j hj => ?_) (fun hno => ?_) hrestores hswitched
    (fun hno => absurd hno hopen)
  · rw [save_eq s x.job .succeeded result]
    rfl
  · by_cases hsame : j = x.job
    · exact Or.inr ⟨hsame, hsame ▸ hopen, hphase⟩
    · exact Or.inl (load_save_ne_succeeded hj fun hno => absurd hno hsame)
  · rw [hphase] at hno
    cases hno

/-- A flag other than the job's: only `unavailable` changes. -/
theorem Sound.unavailable (h : Sound s) (b : Bool) : Sound { s with unavailable := b } :=
  ⟨h.active, h.committed, h.control, h.known,
    fun x hx => ⟨(h.worker x hx).known, (h.worker x hx).restores, (h.worker x hx).pending,
      (h.worker x hx).switched, (h.worker x hx).flagged⟩, h.honoured⟩

theorem Sound.unserved (h : Sound s) (hworker : s.worker = some x) : Sound (s.unserved x) :=
  (h.leaves hworker ⟨rfl, rfl, rfl⟩).unavailable _

theorem Sound.fails (h : Sound s) : Sound { s with failed := true } :=
  ⟨h.active, h.committed, fun hno => (nomatch hno), h.known,
    fun x hx => ⟨(h.worker x hx).known, (h.worker x hx).restores, (h.worker x hx).pending,
      (h.worker x hx).switched, (h.worker x hx).flagged⟩, h.honoured⟩

/-- **The switch of a restore**, whose job has no accepted cancel. -/
theorem Sound.switch (h : Sound s) (hworker : s.worker = some x) (hopen : x.job ∉ s.accepted)
    (hkind : x.kind = .restore) : Sound (s.switch x result) := by
  have hfits := h.worker x hworker
  have hcontrol (j : ℕ) (hj : j ∈ s.accepted) : j ∉ x.job :: s.control := by
    intro hno
    rcases List.mem_cons.mp hno with rfl | hno
    · exact hopen hj
    · exact (h.honoured j hj).2 hno
  have hknown (j : ℕ) (hj : j ∈ x.job :: s.control ∨ j ∈ s.accepted) : s.load j ≠ none := by
    rcases hj with hj | hj
    · rcases List.mem_cons.mp hj with rfl | hj
      · exact hfits.known
      · exact h.known j (Or.inl hj)
    · exact h.known j (Or.inr hj)
  cases result with
  | done =>
    refine ⟨?_, List.cons_subset_cons _ h.committed, fun hfailed => ?_, hknown, fun y hy => ?_,
      fun j hj => ⟨(h.honoured j hj).1, hcontrol j hj⟩⟩
    · show s.active = some x.job
      rw [h.active, hworker]
      rfl
    · exact List.cons_subset_cons _ (h.control hfailed)
    · cases hy
      exact ⟨hfits.known, fun _ => hkind, nofun, fun _ => List.mem_cons_self,
        fun hno => absurd hno hopen⟩
  | lost => exact h.fails.unserved hworker
  | unsure =>
    -- the thread handles the exception, so nothing is said of its phase any more
    refine ⟨?_, fun j hj => List.mem_cons_of_mem _ (h.committed hj), fun hno => (nomatch hno), hknown,
      fun y hy => ?_, fun j hj => ⟨(h.honoured j hj).1, hcontrol j hj⟩⟩
    · show s.active = some x.job
      rw [h.active, hworker]
      rfl
    · cases hy
      exact ⟨hfits.known, nofun, nofun, nofun, fun _ => ⟨rfl, nofun⟩⟩

/-- The flag is not set: the job has no accepted cancel. -/
theorem Fits.open (h : Fits s x) {stop : Bool} (hearly : x.phase.isEarly = true)
    (hgoes : ¬ s.stops x.kind stop = true) : x.job ∉ s.accepted := by
  intro haccepted
  have hflag := (h.flagged haccepted).2 hearly
  refine hgoes ?_
  unfold Store.stops
  rw [hflag]
  rfl

/-- **A step of the thread.** -/
theorem Sound.work (h : Sound s) (turn : Turn) : Sound (s.work turn) := by
  unfold Store.work
  cases hworker : s.worker with
  | none => exact h
  | some x =>
    have hfits := h.worker x hworker
    obtain ⟨job, kind, phase⟩ := x
    have hraised (b : Bool) : Sound (s.goes ⟨job, kind, phase⟩ (.raised b)) :=
      h.leaves hworker ⟨rfl, rfl, rfl⟩
    have hopen (hbetween : phase.isBetween = true) : job ∉ s.accepted := by
      intro haccepted
      have hno := (hfits.flagged haccepted).1
      rw [hbetween] at hno
      cases hno
    cases phase with
    | started =>
      cases turn with
      | goes stop result =>
        exact h.saved hworker nofun (fun _ => rfl) nofun rfl fun ha => ⟨rfl, (hfits.flagged ha).2⟩
      | leaves | raises => exact hraised false
    | working =>
      cases turn with
      | goes stop result =>
        dsimp only
        split_ifs with hstops
        · exact hraised true
        · exact h.saved hworker nofun (fun _ => rfl) nofun rfl
            fun ha => ⟨rfl, (hfits.flagged ha).2⟩
      | leaves =>
        exact h.goes hworker (fun _ => rfl) nofun nofun fun ha => ⟨rfl, (hfits.flagged ha).2⟩
      | raises => exact hraised false
    | committing =>
      cases turn with
      | goes stop result =>
        dsimp only
        split_ifs with hstops hkind
        · exact hraised true
        · have hnone := hfits.open rfl hstops
          exact h.goes hworker (fun _ => rfl) (fun _ => hkind) nofun fun ha => absurd ha hnone
        · have hnone := hfits.open rfl hstops
          unfold Store.saved
          split_ifs
          · exact h.succeeds hworker hnone rfl nofun nofun
          · exact h.succeeds hworker hnone rfl nofun nofun
      | leaves | raises => exact hraised false
    | checked =>
      cases turn with
      | goes stop result =>
        exact h.saved hworker nofun (fun _ => rfl) (fun _ => hfits.restores rfl) rfl
          fun ha => absurd ha (hopen rfl)
      | leaves | raises => exact hraised false
    | ready =>
      cases turn with
      | goes stop result => exact h.switch hworker (hopen rfl) (hfits.restores rfl)
      | leaves | raises => exact hraised false
    | switched =>
      cases turn with
      | goes stop result =>
        have hnone : job ∉ s.accepted := fun ha =>
          (h.honoured job ha).2 (h.committed (hfits.switched rfl))
        dsimp only
        split_ifs
        · exact h.succeeds hworker hnone rfl (fun _ => hfits.restores rfl)
            fun _ => hfits.switched rfl
        · have hsaved : Sound ((s.save job .succeeded result).goes ⟨job, kind, .switched⟩
              (.raised false)) :=
            h.succeeds hworker hnone rfl nofun nofun
          exact hsaved.unavailable _
      | leaves | raises => exact h.unserved hworker
    | cleaning =>
      cases turn with
      | goes stop result => exact h.leaves hworker ⟨rfl, rfl, rfl⟩
      | leaves | raises => exact h.unserved hworker
    | raised cancelled =>
      cases turn with
      | goes stop result =>
        show Sound (s.handle _ cancelled result)
        unfold Store.handle
        split_ifs
        · exact h.leaves hworker ⟨rfl, rfl, rfl⟩
        · exact h.saves hworker nofun nofun nofun rfl fun _ => ⟨rfl, nofun⟩
        · exact h.saves hworker nofun nofun nofun rfl fun _ => ⟨rfl, nofun⟩
      | leaves | raises => exact h.leaves hworker ⟨rfl, rfl, rfl⟩
    | ending =>
      have hends : Sound { s with active := none, worker := none } :=
        ⟨rfl, h.committed, h.control, h.known, fun _ hy => (nomatch hy), h.honoured⟩
      cases turn <;> exact hends

/-! ## Steps of a call -/

theorem Sound.request (h : Sound s) (job : ℕ) (kind : Kind) : Sound (s.request job kind) := by
  unfold Store.request
  split_ifs with hbusy
  · exact h
  · simp only [Bool.or_eq_true, not_or, Bool.not_eq_true] at hbusy
    obtain ⟨⟨-, hnew⟩, -⟩ := hbusy
    have hnone : s.load job = none := Option.isNone_iff_eq_none.mp (by simpa using hnew)
    have hload (j : ℕ) : (Store.load { s with
        jobs := s.jobs ++ [(job, .pending)]
        active := some job
        flag := false
        worker := some ⟨job, kind, .started⟩ } j) =
          if j = job then some .pending else s.load j := by
      show ((s.jobs ++ [(job, JobState.pending)]).find? fun p => p.1 = j).map Prod.snd = _
      rw [List.find?_append]
      by_cases hj : j = job
      · subst hj
        have hfind : (s.jobs.find? fun p => p.1 = j) = none := Option.map_eq_none_iff.mp hnone
        rw [if_pos rfl, hfind]
        simp
      · rw [if_neg hj, List.find?_cons_of_neg (by simpa using Ne.symm hj)]
        show ((s.jobs.find? fun p => p.1 = j).or none).map Prod.snd = _
        rw [Option.or_none]
        rfl
    refine ⟨rfl, h.committed, h.control, fun j hj => ?_, fun y hy => ?_, fun j hj => ?_⟩
    · rw [hload]
      split_ifs
      · nofun
      · exact h.known j hj
    · cases hy
      refine ⟨?_, nofun, fun _ => ⟨?_, fun hno => h.known job (Or.inl hno) hnone⟩, nofun,
        fun ha => absurd hnone (h.known job (Or.inr ha))⟩
      · rw [hload, if_pos rfl]
        nofun
      · rw [hload, if_pos rfl]
        nofun
    · rw [hload]
      refine ⟨?_, (h.honoured j hj).2⟩
      split_ifs
      · nofun
      · exact (h.honoured j hj).1

theorem Sound.cancelOpen (h : Sound s) (hactive : s.active ≠ some job) :
    Sound (s.cancelOpen job state result).1 := by
  unfold Store.cancelOpen
  by_cases hopen : state = .pending ∨ state = .unknown
  · rw [if_pos hopen]
    show Sound (s.save job .cancelled result)
    rw [save_eq s job .cancelled result]
    refine ⟨h.active, h.committed, h.control, fun j hj => ?_, fun y hy => ?_, fun j hj => ?_⟩
    · have hold : (s.save job .cancelled result).load j ≠ none := load_save_ne_none (h.known j hj)
      rwa [save_eq s job .cancelled result] at hold
    · have hy' : s.worker = some y := hy
      have hne : y.job ≠ job := by
        intro hsame
        refine hactive ?_
        rw [h.active, hy', ← hsame]
        rfl
      have hfits := h.worker y hy
      have hload : (s.save job .cancelled result).load y.job = s.load y.job := load_save_of_ne hne
      rw [save_eq s job .cancelled result] at hload
      exact ⟨hload ▸ hfits.known, hfits.restores, fun hp => hload ▸ hfits.pending hp, hfits.switched,
        hfits.flagged⟩
    · have hold : (s.save job .cancelled result).load j ≠ some .succeeded :=
        load_save_ne_succeeded (h.honoured j hj).1 fun _ => nofun
      rw [save_eq s job .cancelled result] at hold
      exact ⟨hold, (h.honoured j hj).2⟩
  · rw [if_neg hopen]
    exact h

/-- **A cancel is accepted**, of a job that has not committed and is not about to. -/
theorem Sound.accepts (h : Sound s) (hactive : s.active = some job) (hload : s.load job ≠ none)
    (hstate : s.load job ≠ some .succeeded) (hcontrol : job ∉ s.control)
    (hbetween : ∀ y ∈ s.worker, y.job = job → y.phase.isBetween = false) :
    Sound { s with flag := true, accepted := job :: s.accepted } := by
  refine ⟨h.active, h.committed, h.control, fun j hj => ?_, fun y hy => ?_, fun j hj => ?_⟩
  · rcases hj with hj | hj
    · exact h.known j (Or.inl hj)
    · rcases List.mem_cons.mp hj with rfl | hj
      · exact hload
      · exact h.known j (Or.inr hj)
  · have hfits := h.worker y hy
    have hy' : s.worker = some y := hy
    have hjob : y.job = job := by
      have hsame := h.active
      rw [hy', hactive] at hsame
      exact (Option.some.inj hsame).symm
    exact ⟨hfits.known, hfits.restores, hfits.pending, hfits.switched,
      fun _ => ⟨hbetween y hy hjob, fun _ => rfl⟩⟩
  · rcases List.mem_cons.mp hj with rfl | hj
    · exact ⟨hstate, hcontrol⟩
    · exact h.honoured j hj

theorem Sound.cancelManagement (h : Sound s)
    (htimely : ∀ y ∈ s.worker, y.job = job → y.phase.isBetween = false) :
    Sound (s.cancelManagement job result).1 := by
  unfold Store.cancelManagement
  by_cases hgate : (s.failed || s.unavailable) = true
  · rw [if_pos hgate]
    exact h
  rw [if_neg hgate]
  cases hload : s.load job with
  | none => exact h
  | some state =>
    dsimp only
    split_ifs with hcommitted hactive
    · exact h
    · have hfailed : s.failed = false := by
        cases hf : s.failed with
        | false => rfl
        | true =>
          rw [hf] at hgate
          exact absurd rfl hgate
      unfold Store.isCommitted at hcommitted
      rw [hload, Bool.or_eq_true, not_or, decide_eq_true_eq, decide_eq_true_eq] at hcommitted
      exact h.accepts hactive (by rw [hload]; nofun) (hload ▸ hcommitted.1)
        (fun hno => hcommitted.2 (h.control hfailed hno)) htimely
    · exact h.cancelOpen hactive

/-- What the dataset store is beside: it only freezes, and has no authority. -/
structure Freezes (s : Store) : Prop where
  kind : ∀ x ∈ s.worker, x.kind = .freeze
  control : s.control = []

theorem Sound.cancelDataset (h : Sound s) (hfreezes : Freezes s) :
    Sound (s.cancelDataset job result).1 := by
  have hflag : Sound { s with flag := true } :=
    ⟨h.active, h.committed, h.control, h.known,
      fun x hx => ⟨(h.worker x hx).known, (h.worker x hx).restores, (h.worker x hx).pending,
        (h.worker x hx).switched, fun ha => ⟨((h.worker x hx).flagged ha).1, fun _ => rfl⟩⟩,
      h.honoured⟩
  unfold Store.cancelDataset
  by_cases hgate : s.unavailable = true
  · rw [if_pos hgate]
    exact h
  rw [if_neg hgate]
  cases hload : s.load job with
  | none => exact h
  | some state =>
    dsimp only
    split_ifs with hstate hactive hdone
    · exact h
    · refine h.accepts hactive (by rw [hload]; nofun) ?_ ?_ fun y hy _ => ?_
      · rw [hload]
        exact fun hno => hstate (Option.some.inj hno)
      · rw [hfreezes.control]
        exact List.not_mem_nil
      · cases hbetween : y.phase.isBetween with
        | false => rfl
        | true =>
          have hrestore := (h.worker y hy).restores (by rw [hbetween]; rfl)
          rw [hfreezes.kind y hy] at hrestore
          cases hrestore
    · exact hflag
    · exact h.cancelOpen hactive

/-- **A start** recovers the files from what the authority says. -/
theorem load_restart (s : Store) (reached : List ℕ) (job : ℕ) :
    ((s.restart reached).load job = none → s.load job = none) ∧
    ((s.restart reached).load job = some .succeeded → s.load job = some .succeeded ∨
      job ∈ s.control) ∧
    (s.load job = some .succeeded → (s.restart reached).load job = some .succeeded) := by
  have hkey (p : ℕ × JobState) :
      (if p.1 ∈ reached then recovered s.control p else p).1 = p.1 := by
    unfold recovered
    split_ifs <;> rfl
  have hload : (s.restart reached).load job = ((s.jobs.find? fun p => p.1 = job).map
      fun p => if p.1 ∈ reached then recovered s.control p else p).map Prod.snd :=
    congrArg (Option.map Prod.snd) (find_map hkey s.jobs job)
  rw [hload]
  unfold Store.load
  cases hfind : s.jobs.find? fun p => p.1 = job with
  | none => exact ⟨fun _ => rfl, fun hno => (nomatch hno), fun hno => (nomatch hno)⟩
  | some p =>
    have hp : p.1 = job := by simpa using List.find?_some hfind
    refine ⟨fun hno => (nomatch hno), fun hsucceeded => ?_, fun hsucceeded => ?_⟩
    · have hstate : (if p.1 ∈ reached then recovered s.control p else p).2 = .succeeded :=
        Option.some.inj hsucceeded
      unfold recovered at hstate
      split_ifs at hstate with hreached hcontrol hopen
      · exact Or.inr (hp ▸ hcontrol)
      · exact Or.inl (congrArg some hstate)
      · exact Or.inl (congrArg some hstate)
    · have hstate : p.2 = .succeeded := Option.some.inj hsucceeded
      refine congrArg some ?_
      show (if p.1 ∈ reached then recovered s.control p else p).2 = .succeeded
      unfold recovered
      split_ifs with hreached hcontrol hopen
      · rfl
      · rw [hstate] at hopen
        rcases hopen with hopen | hopen <;> cases hopen
      · exact hstate
      · exact hstate

theorem Sound.restart (h : Sound s) (reached : List ℕ) : Sound (s.restart reached) := by
  refine ⟨rfl, List.Subset.refl _, fun _ => List.Subset.refl _, fun j hj hno => ?_,
    fun _ hy => (nomatch hy), fun j hj => ?_⟩
  · exact h.known j hj ((load_restart s reached j).1 hno)
  · obtain ⟨hstate, hcontrol⟩ := h.honoured j hj
    exact ⟨fun hno => ((load_restart s reached j).2.1 hno).elim hstate hcontrol, hcontrol⟩

/-! ## What has committed -/

/-- What has committed stays committed. -/
def Later (s s' : Store) : Prop := ∀ job, s.isCommitted job = true → s'.isCommitted job = true

theorem later_of (hload : ∀ job, s.load job = some .succeeded → s'.load job = some .succeeded)
    (hcommitted : s.committed ⊆ s'.committed) : Later s s' := by
  intro job hjob
  unfold Store.isCommitted at hjob ⊢
  rw [Bool.or_eq_true, decide_eq_true_eq, decide_eq_true_eq] at hjob ⊢
  exact hjob.imp (hload job) (@hcommitted job)

/-- The file of a job that has not succeeded is saved, or a success is. -/
theorem later_save (job : ℕ) (state : JobState) (result : Save)
    (hopen : s.load job ≠ some .succeeded ∨ state = .succeeded)
    (hjobs : s'.jobs = (s.save job state result).jobs) (hcommitted : s.committed ⊆ s'.committed) :
    Later s s' := by
  refine later_of (fun j hj => ?_) hcommitted
  have hsame : s'.load j = (s.save job state result).load j := by
    unfold Store.load
    rw [hjobs]
  rw [hsame]
  by_cases hne : j = job
  · subst hne
    rcases load_save s j state result with hold | ⟨-, hnew⟩
    · rwa [hold]
    · rw [hnew]
      rcases hopen with hopen | hopen
      · exact absurd hj hopen
      · rw [hopen]
  · rwa [load_save_of_ne hne]

theorem Sound.later_work (h : Sound s) (turn : Turn) : Later s (s.work turn) := by
  unfold Store.work
  cases hworker : s.worker with
  | none => exact fun _ hj => hj
  | some x =>
    have hfits := h.worker x hworker
    obtain ⟨job, kind, phase⟩ := x
    have hkeeps (s' : Store) (hjobs : s'.jobs = s.jobs) (hcommitted : s.committed ⊆ s'.committed) :
        Later s s' := by
      refine later_of (fun j hj => ?_) hcommitted
      unfold Store.load at hj ⊢
      rwa [hjobs]
    have hsaved (state : JobState) (result : Save) (next : Phase)
        (hopen : s.load job ≠ some .succeeded ∨ state = .succeeded) :
        Later s ((s.save job state result).saved ⟨job, kind, phase⟩ result next) := by
      refine later_save job state result hopen rfl ?_
      rw [save_eq s job state result]
      exact List.Subset.refl _
    cases phase with
    | started =>
      cases turn with
      | goes stop result => exact hsaved .running result _ (Or.inl (hfits.pending rfl).1)
      | leaves | raises => exact hkeeps _ rfl (List.Subset.refl _)
    | working =>
      cases turn with
      | goes stop result =>
        dsimp only
        split_ifs
        · exact hkeeps _ rfl (List.Subset.refl _)
        · exact hsaved .running result _ (Or.inl (hfits.pending rfl).1)
      | leaves | raises => exact hkeeps _ rfl (List.Subset.refl _)
    | committing =>
      cases turn with
      | goes stop result =>
        dsimp only
        split_ifs
        · exact hkeeps _ rfl (List.Subset.refl _)
        · exact hkeeps _ rfl (List.Subset.refl _)
        · exact hsaved .succeeded result _ (Or.inr rfl)
      | leaves | raises => exact hkeeps _ rfl (List.Subset.refl _)
    | checked =>
      cases turn with
      | goes stop result => exact hsaved .running result _ (Or.inl (hfits.pending rfl).1)
      | leaves | raises => exact hkeeps _ rfl (List.Subset.refl _)
    | ready =>
      cases turn with
      | goes stop result =>
        cases result with
        | done => exact hkeeps _ rfl (List.subset_cons_self _ _)
        | lost | unsure => exact hkeeps _ rfl (List.Subset.refl _)
      | leaves | raises => exact hkeeps _ rfl (List.Subset.refl _)
    | switched =>
      cases turn with
      | goes stop result =>
        dsimp only
        split_ifs
        · refine later_save job .succeeded result (Or.inr rfl) rfl ?_
          rw [save_eq s job .succeeded result]
          exact List.Subset.refl _
        · refine later_save job .succeeded result (Or.inr rfl) rfl ?_
          rw [save_eq s job .succeeded result]
          exact List.Subset.refl _
      | leaves | raises => exact hkeeps _ rfl (List.Subset.refl _)
    | cleaning => cases turn <;> exact hkeeps _ rfl (List.Subset.refl _)
    | raised cancelled =>
      cases turn with
      | goes stop result =>
        show Later s (s.handle _ cancelled result)
        unfold Store.handle
        by_cases hcommitted : (s.isCommitted job || s.failed) = true
        · rw [if_pos hcommitted]
          exact hkeeps _ rfl (List.Subset.refl _)
        · rw [if_neg hcommitted]
          rw [Bool.or_eq_true, not_or] at hcommitted
          have hopen : s.load job ≠ some .succeeded := by
            intro hload
            refine hcommitted.1 ?_
            unfold Store.isCommitted
            rw [hload]
            rfl
          refine later_save job (if cancelled then .cancelled else .failed) result
            (Or.inl hopen) rfl ?_
          rw [save_eq]
          exact List.Subset.refl _
      | leaves | raises => exact hkeeps _ rfl (List.Subset.refl _)
    | ending => cases turn <;> exact hkeeps _ rfl (List.Subset.refl _)

theorem later_cancelOpen (hstate : s.load job = some state) :
    Later s (s.cancelOpen job state result).1 := by
  unfold Store.cancelOpen
  by_cases hopen : state = .pending ∨ state = .unknown
  · rw [if_pos hopen]
    refine later_save job .cancelled result (Or.inl ?_) rfl ?_
    · rw [hstate]
      rintro hno
      rw [Option.some.inj hno] at hopen
      rcases hopen with hopen | hopen <;> cases hopen
    · rw [save_eq]
      exact List.Subset.refl _
  · rw [if_neg hopen]
    exact fun _ hj => hj

theorem later_cancelManagement (s : Store) (job : ℕ) (result : Save) :
    Later s (s.cancelManagement job result).1 := by
  unfold Store.cancelManagement
  by_cases hgate : (s.failed || s.unavailable) = true
  · rw [if_pos hgate]
    exact fun _ hj => hj
  rw [if_neg hgate]
  cases hload : s.load job with
  | none => exact fun _ hj => hj
  | some state =>
    dsimp only
    split_ifs
    · exact fun _ hj => hj
    · exact fun _ hj => hj
    · exact later_cancelOpen hload

theorem later_cancelDataset (s : Store) (job : ℕ) (result : Save) :
    Later s (s.cancelDataset job result).1 := by
  unfold Store.cancelDataset
  by_cases hgate : s.unavailable = true
  · rw [if_pos hgate]
    exact fun _ hj => hj
  rw [if_neg hgate]
  cases hload : s.load job with
  | none => exact fun _ hj => hj
  | some state =>
    dsimp only
    split_ifs
    · exact fun _ hj => hj
    · exact fun _ hj => hj
    · exact fun _ hj => hj
    · exact later_cancelOpen hload

theorem later_request (s : Store) (job : ℕ) (kind : Kind) : Later s (s.request job kind) := by
  unfold Store.request
  split_ifs
  · exact fun _ hj => hj
  · refine later_of (fun j hj => ?_) (List.Subset.refl _)
    unfold Store.load at hj ⊢
    dsimp only
    cases hfind : s.jobs.find? fun p => p.1 = j with
    | none =>
      rw [hfind] at hj
      cases hj
    | some p =>
      rw [hfind] at hj
      rw [List.find?_append, hfind]
      exact hj

theorem Sound.later_restart (h : Sound s) (reached : List ℕ) : Later s (s.restart reached) :=
  later_of (fun j => (load_restart s reached j).2.2) h.committed

theorem Freezes.work (h : Freezes s) (hsound : Sound s) (turn : Turn) : Freezes (s.work turn) := by
  unfold Store.work
  cases hworker : s.worker with
  | none => exact h
  | some x =>
    have hkind : x.kind = .freeze := h.kind x hworker
    have hfits := hsound.worker x hworker
    have hkeeps (s' : Store) (hcontrol : s'.control = s.control)
        (hsame : ∀ y ∈ s'.worker, y.kind = x.kind) : Freezes s' :=
      ⟨fun y hy => (hsame y hy).trans hkind, hcontrol.trans h.control⟩
    have hone (phase : Phase) (y : Worker) (hy : some { x with phase := phase } = some y) :
        y.kind = x.kind := by
      rw [← Option.some.inj hy]
    have hsave (s' : Store) (job : ℕ) (state : JobState) (result : Save) (phase : Phase)
        (hs' : s' = (s.save job state result).goes x phase) : Freezes s' := by
      rw [save_eq] at hs'
      rw [hs']
      exact hkeeps _ rfl fun y hy => hone phase y hy
    obtain ⟨job, kind, phase⟩ := x
    -- no phase of a restore is reached
    have hnever : (phase.isBetween || phase.isSwitched) = false := by
      cases hphase : phase.isBetween || phase.isSwitched with
      | false => rfl
      | true =>
        have hrestore := hfits.restores hphase
        rw [hkind] at hrestore
        cases hrestore
    cases phase with
    | started =>
      cases turn with
      | goes stop result => exact hsave _ job .running result _ rfl
      | leaves | raises => exact hkeeps _ rfl fun y hy => hone _ y hy
    | working =>
      cases turn with
      | goes stop result =>
        dsimp only
        split_ifs
        · exact hkeeps _ rfl fun y hy => hone _ y hy
        · exact hsave _ job .running result _ rfl
      | leaves | raises => exact hkeeps _ rfl fun y hy => hone _ y hy
    | committing =>
      cases turn with
      | goes stop result =>
        dsimp only
        split_ifs
        · exact hkeeps _ rfl fun y hy => hone _ y hy
        · exact hkeeps _ rfl fun y hy => hone _ y hy
        · exact hsave _ job .succeeded result _ rfl
      | leaves | raises => exact hkeeps _ rfl fun y hy => hone _ y hy
    | checked => cases hnever
    | ready => cases hnever
    | switched => cases hnever
    | cleaning => cases hnever
    | raised cancelled =>
      cases turn with
      | goes stop result =>
        show Freezes (s.handle _ cancelled result)
        unfold Store.handle
        by_cases hcommitted : (s.isCommitted job || s.failed) = true
        · rw [if_pos hcommitted]
          exact hkeeps _ rfl fun y hy => hone _ y hy
        · rw [if_neg hcommitted]
          exact hsave _ job _ result _ rfl
      | leaves | raises => exact hkeeps _ rfl fun y hy => hone _ y hy
    | ending => cases turn <;> exact hkeeps _ rfl fun y hy => nomatch hy

theorem Freezes.cancelDataset (h : Freezes s) (job : ℕ) (result : Save) :
    Freezes (s.cancelDataset job result).1 := by
  unfold Store.cancelDataset
  by_cases hgate : s.unavailable = true
  · rw [if_pos hgate]
    exact h
  rw [if_neg hgate]
  cases hload : s.load job with
  | none => exact h
  | some state =>
    dsimp only
    split_ifs
    · exact h
    · exact ⟨h.kind, h.control⟩
    · exact ⟨h.kind, h.control⟩
    · unfold Store.cancelOpen
      by_cases hopen : state = .pending ∨ state = .unknown
      · rw [if_pos hopen]
        show Freezes (s.save job .cancelled result)
        rw [save_eq]
        exact ⟨h.kind, h.control⟩
      · rw [if_neg hopen]
        exact h

/-! ## Runs -/

/-- The invariant of both stores, and what has committed in a state before. -/
structure Guarded (before w : World) : Prop where
  management : Sound w.management
  datasets : Sound w.datasets
  freezes : Freezes w.datasets
  laterManagement : Later before.management w.management
  laterDatasets : Later before.datasets w.datasets

/-- **One step** that meets the condition. -/
theorem guarded_step {before w : World} (h : Guarded before w) (a : Action) (htimely : Timely w a) :
    Guarded before (step w a) := by
  have hmanagement (s : Store) (hsound : Sound s) (hlater : Later w.management s) :
      Guarded before { w with management := s } :=
    ⟨hsound, h.datasets, h.freezes, fun j hj => hlater j (h.laterManagement j hj), h.laterDatasets⟩
  have hdatasets (s : Store) (hsound : Sound s) (hfreezes : Freezes s) (hlater : Later w.datasets s) :
      Guarded before { w with datasets := s } :=
    ⟨h.management, hsound, hfreezes, h.laterManagement, fun j hj => hlater j (h.laterDatasets j hj)⟩
  have hrequest (job : ℕ) (kind : Kind) : Guarded before (w.request job kind) := by
    unfold World.request
    split_ifs
    · exact h
    · exact hmanagement _ (h.management.request job kind) (later_request _ job kind)
  cases a with
  | backup job => exact hrequest job .backup
  | restore job => exact hrequest job .restore
  | freeze job =>
    refine hdatasets _ (h.datasets.request job .freeze) ?_ (later_request _ job .freeze)
    unfold Store.request
    split_ifs
    · exact h.freezes
    · exact ⟨fun y hy => by rw [← Option.some.inj hy], h.freezes.control⟩
  | cancelManagement job result =>
    exact hmanagement _ (h.management.cancelManagement htimely) (later_cancelManagement _ job result)
  | cancelDataset job result =>
    exact hdatasets _ (h.datasets.cancelDataset h.freezes) (h.freezes.cancelDataset job result)
      (later_cancelDataset _ job result)
  | workManagement turn => exact hmanagement _ (h.management.work turn) (h.management.later_work turn)
  | workDatasets turn =>
    exact hdatasets _ (h.datasets.work turn) (h.freezes.work h.datasets turn)
      (h.datasets.later_work turn)
  | registrationFails => exact hmanagement _ h.management.fails fun _ hj => hj
  | restart management datasets =>
    exact ⟨h.management.restart management, h.datasets.restart datasets,
      ⟨fun _ hy => (nomatch hy), h.freezes.control⟩,
      fun j hj => h.management.later_restart management j (h.laterManagement j hj),
      fun j hj => h.datasets.later_restart datasets j (h.laterDatasets j hj)⟩

/-- What has committed refuses a cancel. -/
theorem Guarded.refuses {before w : World} (h : Guarded before w) : Refuses before w := by
  refine ⟨fun job result hjob => ?_, fun job result hjob => ?_⟩
  · have hcommitted := h.laterManagement job hjob
    have hknown : w.management.load job ≠ none := by
      unfold Store.isCommitted at hcommitted
      rw [Bool.or_eq_true, decide_eq_true_eq, decide_eq_true_eq] at hcommitted
      rcases hcommitted with hload | hin
      · rw [hload]
        nofun
      · exact h.management.known job (Or.inl (h.management.committed hin))
    unfold Store.cancelManagement
    by_cases hgate : (w.management.failed || w.management.unavailable) = true
    · rw [if_pos hgate, if_pos hgate]
    · rw [if_neg hgate, if_neg hgate]
      cases hload : w.management.load job with
      | none => exact absurd hload hknown
      | some state => exact if_pos hcommitted
  · have hcommitted := h.laterDatasets job hjob
    have hload : w.datasets.load job = some .succeeded := by
      unfold Store.isCommitted at hcommitted
      rw [Bool.or_eq_true, decide_eq_true_eq, decide_eq_true_eq] at hcommitted
      rcases hcommitted with hload | hin
      · exact hload
      · have hno := h.datasets.committed hin
        rw [h.freezes.control] at hno
        exact absurd hno List.not_mem_nil
    unfold Store.cancelDataset
    rw [hload]
    by_cases hgate : w.datasets.unavailable = true
    · rw [if_pos hgate, if_pos hgate]
    · rw [if_neg hgate, if_neg hgate]
      rfl

instance decidableTimely (w : World) : ∀ a, Decidable (Timely w a)
  | .cancelManagement job _ =>
    inferInstanceAs (Decidable (∀ x ∈ w.management.worker, x.job = job → x.phase.isBetween = false))
  | .backup _ | .restore _ | .freeze _ | .cancelDataset .. | .workManagement _ | .workDatasets _
  | .registrationFails | .restart .. => .isTrue trivial

/-- A restore that runs up to its last look at the flag. -/
def checkedActions : List Action :=
  [.restore 1, .workManagement (.goes false .done), .workManagement .leaves,
    .workManagement (.goes false .done)]

/-- A freeze that is cancelled before it publishes, and a restore that commits. -/
def overlappingActions : List Action :=
  [.freeze 2, .workDatasets (.goes false .done), .cancelDataset 2 .done, .workDatasets .leaves,
    .workDatasets (.goes false .done), .workDatasets (.goes false .done),
    .workDatasets (.goes false .done)] ++ checkedActions ++
    [.workManagement (.goes false .done), .workManagement (.goes false .done)]

end Jobs
end Archive
end SemanticMemory
