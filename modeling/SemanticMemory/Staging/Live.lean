import SemanticMemory.Staging.Restart

/-!
# At most one live record

A record is live when it loads and is not marked discarded.  Every record the machine finds is its
own (`Historic.matches`), so it starts a build only when no record is live, and `Alone` says what
that gives: at most one record is live, none while a build is started, and during a build only the
build's own.

* `OnlyAt`: a step of a build touches its own directory and no other;
* `WorkSpec`, `StartSpec`: what such a step does to the place in the program and to the memory;
* `alone_step`: the invariant.

`retry` writes the record it remembers into the directory it remembers, and the two may belong to
different builds; `Alone.progress` is what keeps it from bringing a second record to life.
-/

namespace SemanticMemory
namespace Staging

open Runs
open FactStore hiding Status World step
open Delta hiding World step
open Derived (Status WriteResult)

/-- The record of a directory loads and is not marked discarded. -/
def LiveIn (staging : KeyedMap Text Dir) (name : Text) : Prop :=
  ∃ r, loadProgress staging name = some r ∧ r.status ≠ .discarded

def Live (w : World) (name : Text) : Prop := LiveIn w.disk.staging name

/-! ## One directory -/

/-- No other directory is touched. -/
structure OnlyAt (dir : Text) (w w' : World) : Prop where
  staging : ∀ name, name ≠ dir → w'.disk.staging.find? name = w.disk.staging.find? name
  generations : w'.disk.generations = w.disk.generations

theorem OnlyAt.refl (dir : Text) (w : World) : OnlyAt dir w w := ⟨fun _ _ => rfl, rfl⟩

theorem onlyAt_setMachine (dir : Text) (w : World) (m : Machine) : OnlyAt dir w (w.setMachine m) :=
  ⟨fun _ _ => rfl, rfl⟩

variable {dir : Text}

theorem OnlyAt.trans {w₁ w₂ w₃ : World} (h : OnlyAt dir w₁ w₂) (h' : OnlyAt dir w₂ w₃) :
    OnlyAt dir w₁ w₃ :=
  ⟨fun name hne => (h'.staging name hne).trans (h.staging name hne),
    h'.generations.trans h.generations⟩

theorem onlyAt_setDir (dir : Text) (w : World) (d : Dir) : OnlyAt dir w (w.setDir dir d) := by
  refine ⟨fun name hne => ?_, rfl⟩
  show (w.disk.staging.insert dir d).find? name = _
  rw [KeyedMap.find?_insert, if_neg hne]

theorem onlyAt_erase (dir : Text) (w : World) :
    OnlyAt dir w (w.setStaging (w.disk.staging.erase dir)) := by
  refine ⟨fun name hne => ?_, rfl⟩
  show (w.disk.staging.erase dir).find? name = _
  rw [KeyedMap.find?_erase, if_neg hne]

variable {name : Text}

theorem OnlyAt.loadProgress {w w' : World} (h : OnlyAt dir w w') (hne : name ≠ dir) :
    loadProgress w'.disk.staging name = loadProgress w.disk.staging name := by
  unfold Staging.loadProgress
  rw [h.staging name hne]

theorem OnlyAt.live {w w' : World} (h : OnlyAt dir w w') (hne : name ≠ dir) :
    Live w' name ↔ Live w name := by
  unfold Live LiveIn
  rw [h.loadProgress hne]

theorem onlyAt_discardOwn (env : Env) (dir : Text) (w : World) :
    OnlyAt dir w (discardOwn env dir w) := by
  unfold discardOwn
  simp only
  split
  · split
    · exact onlyAt_setMachine dir w _
    · exact (onlyAt_setMachine dir w _).trans (onlyAt_setDir dir _ _)
  · exact onlyAt_setMachine dir w _

/-! ## The steps of a build -/

def SameMemory (w w' : World) : Prop :=
  w'.machine.currentProgress = w.machine.currentProgress ∧
    w'.machine.currentDir = w.machine.currentDir

/-- What a step of a build does outside its directory. -/
structure WorkSpec (job : Job) (w w' : World) : Prop where
  only : OnlyAt job.dir w w'
  pc : w'.machine.pc = .idle ∨
    (∃ job' pc, w'.machine.pc = .work job' pc ∧ job'.dir = job.dir ∧ job'.pending = job.pending) ∨
    w'.machine.pc = .start job.dir job.target .clear ∧
      ∃ r, loadProgress w'.disk.staging job.dir = some r ∧ r.status = .discarded
  memory : SameMemory w w' ∨ w'.machine.pc = .idle ∧ (job.pending = true ∨
    w'.machine.currentProgress = loadProgress w'.disk.staging job.dir)

section Work

variable {job : Job} {w : World}

theorem workSpec_fault {w' : World} (h : OnlyAt job.dir w w') (hm : SameMemory w w') :
    WorkSpec job w w'.fault :=
  ⟨h.trans (onlyAt_setMachine _ _ _), Or.inl rfl, Or.inl hm⟩

theorem workSpec_work {w' : World} (h : OnlyAt job.dir w w') (hm : SameMemory w w') {job' : Job}
    (hdir : job'.dir = job.dir) (hpending : job'.pending = job.pending) (pc : WorkPc) :
    WorkSpec job w (w'.work job' pc) :=
  ⟨h.trans (onlyAt_setMachine _ _ _), Or.inr (Or.inl ⟨job', pc, rfl, hdir, hpending⟩), Or.inl hm⟩

/-- A step that only changes the place. -/
theorem workSpec_goto (job : Job) (w : World) (pc : WorkPc) : WorkSpec job w (w.work job pc) :=
  workSpec_work (.refl _ _) ⟨rfl, rfl⟩ rfl rfl pc

theorem workSpec_raise (job : Job) (w : World) : WorkSpec job w w.fault :=
  workSpec_fault (.refl _ _) ⟨rfl, rfl⟩

/-- A step that changes the build's directory. -/
theorem workSpec_setDir (job : Job) (w : World) (d : Dir) (pc : WorkPc) :
    WorkSpec job w ((w.setDir job.dir d).work job pc) :=
  workSpec_work (onlyAt_setDir _ _ _) ⟨rfl, rfl⟩ rfl rfl pc

theorem workSpec_setDir_fault (job : Job) (w : World) (d : Dir) :
    WorkSpec job w (w.setDir job.dir d).fault :=
  workSpec_fault (onlyAt_setDir _ _ _) ⟨rfl, rfl⟩

theorem memory_discardOwn (env : Env) (dir : Text) (w : World) :
    SameMemory w (discardOwn env dir w) := by
  unfold discardOwn
  simp only
  repeat' split
  all_goals exact ⟨rfl, rfl⟩

theorem workSpec_stepVerifyChunks (env : Env) (d : Dir) (pinned : Pinned) :
    WorkSpec job w (stepVerifyChunks env job d pinned w) := by
  simp only [stepVerifyChunks]
  repeat' split
  all_goals exact workSpec_goto job w _

theorem workSpec_stepOpenVectors (env : Env) (d : Dir) (pinned : Pinned) (next : ℕ) :
    WorkSpec job w (stepOpenVectors env job d pinned next w) := by
  unfold stepOpenVectors
  repeat' split
  all_goals first | exact workSpec_raise job w | exact workSpec_setDir job w _ _

theorem workSpec_stepEmbed (env : Env) (d : Dir) (pinned : Pinned) (next : ℕ) :
    WorkSpec job w (stepEmbed env job d pinned next w) := by
  simp only [stepEmbed]
  split
  · exact workSpec_goto job w _
  split
  · exact workSpec_raise job w
  split
  · refine workSpec_work ?_ ?_ ?_ ?_ _
    · exact onlyAt_setDir _ _ _
    · exact ⟨rfl, rfl⟩
    · rfl
    · rfl
  · exact workSpec_setDir_fault job w _

theorem workSpec_stepBlock (env : Env) (d : Dir) : WorkSpec job w (stepBlock env job d w) := by
  simp only [stepBlock]
  split
  · exact workSpec_setDir_fault job w _
  · refine workSpec_work ?_ ?_ rfl rfl _
    · exact (onlyAt_setDir _ _ _).trans (onlyAt_setMachine _ _ _)
    · exact ⟨rfl, rfl⟩

theorem workSpec_stepMetadata (env : Env) (d : Dir) (pinned : Pinned) (sha256 : Text) :
    WorkSpec job w (stepMetadata env job d pinned sha256 w) := by
  simp only [stepMetadata]
  split
  · exact workSpec_goto job w _
  · split
    all_goals exact workSpec_setDir job w _ _

theorem workSpec_stepManifest (env : Env) (d : Dir) (pinned : Pinned) (sha256 : Text) :
    WorkSpec job w (stepManifest env job d pinned sha256 w) := by
  simp only [stepManifest]
  repeat' split
  all_goals first
    | exact workSpec_goto job w _
    | exact workSpec_raise job w
    | exact workSpec_setDir job w _ _

theorem workSpec_stepPark (env : Env) (again : Bool) (d : Dir) :
    WorkSpec job w (stepPark env again job d w) := by
  have hkeeps : ∀ parked : KeyedMap Text Record,
      OnlyAt job.dir w { w with disk := { w.disk with parked := parked } } :=
    fun _ => ⟨fun _ _ => rfl, rfl⟩
  unfold stepPark
  split
  · split
    · refine workSpec_work ?_ ?_ rfl rfl _
      · exact ⟨(onlyAt_setDir job.dir w { d with record := none }).staging, rfl⟩
      · exact ⟨rfl, rfl⟩
    · exact workSpec_fault (hkeeps _) ⟨rfl, rfl⟩
  · exact workSpec_fault (hkeeps _) ⟨rfl, rfl⟩

theorem workSpec_stepUnpark (env : Env) (again accepted : Bool) (d : Dir) :
    WorkSpec job w (stepUnpark env again accepted job d w) := by
  obtain ⟨w', hw', heq⟩ := stepUnpark_cases env again accepted job d w
  have hw : OnlyAt job.dir w w' ∧ SameMemory w w' := by
    rcases hw' with rfl | ⟨r, -, rfl⟩
    · exact ⟨.refl _ _, rfl, rfl⟩
    · exact ⟨⟨(onlyAt_setDir job.dir w { d with record := some r }).staging, rfl⟩, rfl, rfl⟩
  rw [heq]
  split
  · exact workSpec_work hw.1 hw.2 rfl rfl _
  · split
    · refine workSpec_work ?_ ?_ rfl rfl _
      · exact hw.1.trans (onlyAt_setMachine _ _ _)
      · exact hw.2
    · exact workSpec_work hw.1 hw.2 rfl rfl _

theorem workSpec_stepReady (env : Env) (d : Dir) : WorkSpec job w (stepReady env job d w) := by
  simp only [stepReady]
  split
  · exact workSpec_setDir job w _ _
  · exact workSpec_setDir_fault job w _
  · refine workSpec_work ?_ ?_ rfl rfl _
    · exact (onlyAt_setDir _ _ _).trans (onlyAt_setMachine _ _ _)
    · exact ⟨rfl, rfl⟩

theorem workSpec_stepSettle : WorkSpec job w (stepSettle job w) := by
  unfold stepSettle
  split
  · rename_i hpending
    exact ⟨onlyAt_setMachine _ _ _, Or.inl rfl, Or.inr ⟨rfl, Or.inl hpending⟩⟩
  · split
    · rename_i r hr
      split
      · rename_i hdiscarded
        exact ⟨onlyAt_setMachine _ _ _, Or.inr (Or.inr ⟨rfl, r, hr, hdiscarded⟩), Or.inl ⟨rfl, rfl⟩⟩
      · exact ⟨onlyAt_setMachine _ _ _, Or.inl rfl, Or.inr ⟨rfl, Or.inr hr.symm⟩⟩
    · rename_i hnone
      exact ⟨onlyAt_setMachine _ _ _, Or.inl rfl, Or.inr ⟨rfl, Or.inr hnone.symm⟩⟩

/-- **What a step of a build can do outside its directory.** -/
theorem workSpec_workStep (env : Env) (job : Job) (w : World) (pc : WorkPc) :
    WorkSpec job w (workStep env job w pc) := by
  unfold workStep
  split
  · exact workSpec_raise job w
  rename_i d hd
  cases pc with
  | gate | gateReady =>
    simp only
    split
    all_goals first | exact workSpec_raise job w | exact workSpec_goto job w _
  | verifyChunks pinned => exact workSpec_stepVerifyChunks env d pinned
  | openVectors pinned next => exact workSpec_stepOpenVectors env d pinned next
  | embed pinned next => exact workSpec_stepEmbed env d pinned next
  | mark =>
    simp only
    split
    · exact workSpec_setDir job w _ _
    · exact workSpec_setDir_fault job w _
  | block => exact workSpec_stepBlock env d
  | empty pinned sha256 =>
    simp only
    split
    · exact workSpec_setDir job w _ _
    · exact workSpec_goto job w _
  | metadata pinned sha256 => exact workSpec_stepMetadata env d pinned sha256
  | manifest pinned sha256 => exact workSpec_stepManifest env d pinned sha256
  | park again => exact workSpec_stepPark env again d
  | reopen again => exact workSpec_goto job w _
  | unpark again accepted => exact workSpec_stepUnpark env again accepted d
  | ready => exact workSpec_stepReady env d
  | discard =>
    exact workSpec_work (onlyAt_discardOwn _ _ _) (memory_discardOwn _ _ _) rfl rfl _
  | settle => exact workSpec_stepSettle

end Work

/-! ## The start of a build -/

/-- What a step of the start of a build does. -/
structure StartSpec (dir : Text) (w w' : World) : Prop where
  only : OnlyAt dir w w'
  pc : w'.machine.pc = .idle ∨ ∃ target pc, w'.machine.pc = .start dir target pc
  memory : SameMemory w w' ∨ w'.machine.pc = .idle ∧
    w'.machine.currentProgress = loadProgress w'.disk.staging dir
  /-- Until the record is written, the directory has the old record or none. -/
  record : w'.machine.pc ≠ .idle → LiveIn w'.disk.staging dir → LiveIn w.disk.staging dir

theorem startSpec_end (target : Target) {w w' : World} (h : OnlyAt dir w w') :
    StartSpec dir w (endStart dir target w') :=
  ⟨h.trans (onlyAt_setMachine _ _ _), Or.inl rfl, Or.inr ⟨rfl, rfl⟩, fun hpc => absurd rfl hpc⟩

theorem startSpec_startStep (env : Env) (dir : Text) (target : Target) (w : World) (pc : StartPc) :
    StartSpec dir w (startStep env dir target w pc) := by
  cases pc with
  | clear =>
    simp only [startStep]
    split
    · exact startSpec_end target (.refl _ _)
    split
    · exact ⟨onlyAt_setMachine _ _ _, Or.inr ⟨_, _, rfl⟩, Or.inl ⟨rfl, rfl⟩, fun _ => id⟩
    split
    · refine ⟨(onlyAt_erase _ _).trans (onlyAt_setMachine _ _ _), Or.inr ⟨_, _, rfl⟩,
        Or.inl ⟨rfl, rfl⟩, fun _ hlive => ?_⟩
      obtain ⟨r, hr, -⟩ := hlive
      obtain ⟨d, hd, -⟩ := loadProgress_eq hr
      have hd' : (w.disk.staging.erase dir).find? dir = some d := hd
      rw [KeyedMap.find?_erase, if_pos rfl] at hd'
      cases hd'
    · exact startSpec_end target (onlyAt_setDir _ _ _)
  | create =>
    simp only [startStep]
    split
    · refine ⟨(onlyAt_setDir _ _ _).trans (onlyAt_setMachine _ _ _), Or.inr ⟨_, _, rfl⟩,
        Or.inl ⟨rfl, rfl⟩, fun _ hlive => ?_⟩
      obtain ⟨r, hr, -⟩ := hlive
      obtain ⟨d, hd, hrec, -⟩ := loadProgress_eq hr
      have hd' : (w.disk.staging.insert dir {}).find? dir = some d := hd
      rw [KeyedMap.find?_insert, if_pos rfl, Option.some.injEq] at hd'
      rw [← hd'] at hrec
      cases hrec
    · exact startSpec_end target (.refl _ _)
  | write =>
    simp only [startStep]
    split
    · exact startSpec_end target (.refl _ _)
    split
    · exact startSpec_end target (onlyAt_setDir _ _ _)
    · exact ⟨(onlyAt_setDir _ _ _).trans (onlyAt_setMachine _ _ _), Or.inl rfl, Or.inl ⟨rfl, rfl⟩,
        fun hpc => absurd rfl hpc⟩
    · exact startSpec_end target ((onlyAt_setDir _ _ _).trans (onlyAt_setMachine _ _ _))

/-! ## The invariant -/

/-- At most one record is live, and the machine's own when it works. -/
structure Alone (w : World) : Prop where
  unique : ∀ name name', Live w name → Live w name' → name = name'
  start : ∀ dir target pc, w.machine.pc = .start dir target pc → ∀ name, ¬ Live w name
  work : ∀ job pc, w.machine.pc = .work job pc →
    job.pending = false ∧ (∀ name, Live w name → name = job.dir) ∧
      ∀ r, w.machine.currentProgress = some r → r.status ≠ .blocked
  /-- A blocked record that a retry would write where it belongs is live. -/
  progress : ∀ r, w.machine.currentProgress = some r → r.status = .blocked →
    w.machine.currentDir = some r.generationId → Live w r.generationId

theorem alone_created (config : Config) (now : ℤ) (historyId storeEpoch : Text) :
    Alone (World.created config now historyId storeEpoch) := by
  have hnone : ∀ name, ¬ Live (World.created config now historyId storeEpoch) name := by
    rintro name ⟨r, hr, -⟩
    obtain ⟨d, hd, -⟩ := loadProgress_eq hr
    cases hd
  exact ⟨fun name _ h => absurd h (hnone name), fun _ _ _ h => (by cases h),
    fun _ _ h => (by cases h), fun _ h => (by cases h)⟩

section Alone

variable {w w' : World}

/-- The rest of a cycle that ends with no record in the memory, and brings no record to life. -/
theorem Alone.sync (h : Alone w) (target : Option Target)
    (hlive : ∀ name, Live w' name → Live w name) : Alone (w'.sync target none) :=
  ⟨fun name name' hn hn' => h.unique name name' (hlive name hn) (hlive name' hn'),
    fun _ _ _ hpc => (by cases hpc), fun _ _ hpc => (by cases hpc), fun _ hr => (by cases hr)⟩

/-- A step that only changes flags, or loses records that the memory does not name. -/
theorem Alone.fewer (h : Alone w) (hlive : ∀ name, Live w' name → Live w name)
    (hmemory : SameMemory w w') (hpc : w'.machine.pc = w.machine.pc)
    (hprogress : ∀ r, w.machine.currentProgress = some r → r.status = .blocked →
      w.machine.currentDir = some r.generationId → Live w r.generationId →
        Live w' r.generationId) : Alone w' := by
  refine ⟨fun name name' hn hn' => h.unique name name' (hlive name hn) (hlive name' hn'),
    fun dir target pc hat name hn => h.start dir target pc (hpc ▸ hat) name (hlive name hn),
    fun job pc hat => ?_, fun r hr hblocked hdir => ?_⟩
  · obtain ⟨hpending, hown, hfree⟩ := h.work job pc (hpc ▸ hat)
    exact ⟨hpending, fun name hn => hown name (hlive name hn),
      fun r hr => hfree r (hmemory.1 ▸ hr)⟩
  · rw [hmemory.1] at hr
    rw [hmemory.2] at hdir
    exact hprogress r hr hblocked hdir (h.progress r hr hblocked hdir)

variable {staging : KeyedMap Text Dir}

/-- Marking brings no record to life. -/
theorem live_markStale {env : Env} {keep : Option Text}
    (h : LiveIn (markStale env keep staging) name) : LiveIn staging name := by
  obtain ⟨r, hr, hstatus⟩ := h
  rw [loadProgress_markStale] at hr
  obtain ⟨r', hr', rfl⟩ := Option.map_eq_some_iff.mp hr
  split at hstatus
  · exact absurd rfl hstatus
  · exact ⟨r', hr', hstatus⟩

theorem loadProgress_markStale_keep (env : Env) (staging : KeyedMap Text Dir) (name : Text) :
    loadProgress (markStale env (some name) staging) name = loadProgress staging name := by
  rw [loadProgress_markStale]
  simp

theorem loadProgress_write {env : Env} {name name' : Text} {d : Dir} {r r' : Record}
    (hd : staging.find? name = some d)
    (h : loadProgress (staging.insert name (d.writeRecord env r)) name' = some r') :
    loadProgress staging name' = some r' ∨ name' = name ∧ r' = r ∧ r.generationId = name := by
  by_cases hname : name' = name
  · subst hname
    obtain ⟨d', hd', hrec, hok, hid⟩ := loadProgress_eq h
    rw [KeyedMap.find?_insert, if_pos rfl, Option.some.injEq] at hd'
    rw [← hd'] at hrec
    rcases writeRecord_record hrec with rfl | hold
    · exact Or.inr ⟨rfl, rfl, hid⟩
    · left
      unfold Staging.loadProgress
      rw [hd, Option.bind_some, hold]
      simp [Option.filter, hok, hid]
  · left
    unfold Staging.loadProgress at h ⊢
    rwa [KeyedMap.find?_insert, if_neg hname] at h

/-- Discarding brings no record to life. -/
theorem live_discardOwn {env : Env} {dir name : Text} (h : Live (discardOwn env dir w) name) :
    Live w name := by
  unfold discardOwn at h
  simp only at h
  split at h
  · rename_i d r hd hr
    split at h
    · exact h
    · obtain ⟨r', hr', hstatus⟩ := h
      rcases loadProgress_write hd hr' with hold | ⟨-, rfl, -⟩
      · exact ⟨r', hold, hstatus⟩
      · exact absurd rfl hstatus
  · exact h

theorem Alone.workStep (h : Alone w) (env : Env) {job : Job} {pc : WorkPc}
    (hat : w.machine.pc = .work job pc) : Alone (workStep env job w pc) := by
  obtain ⟨hpending, hown, hfree⟩ := h.work job pc hat
  have hspec := workSpec_workStep env job w pc
  generalize Staging.workStep env job w pc = v at hspec
  have hlive : ∀ name, Live v name → name = job.dir := fun name hn => by
    by_contra hne
    exact hne (hown name ((hspec.only.live hne).mp hn))
  refine ⟨fun name name' hn hn' => (hlive name hn).trans (hlive name' hn').symm,
    fun dir target pc' hpc name hn => ?_, fun job' pc' hpc => ?_, fun r hr hblocked hdir => ?_⟩
  · rcases hspec.pc with hidle | ⟨job', pc'', hwork, -⟩ | ⟨-, r, hr, hdiscarded⟩
    · cases hidle.symm.trans hpc
    · cases hwork.symm.trans hpc
    · obtain ⟨r', hr', hstatus⟩ := hn
      rw [hlive name ⟨r', hr', hstatus⟩, hr, Option.some.injEq] at hr'
      exact hstatus (hr' ▸ hdiscarded)
  · rcases hspec.pc with hidle | ⟨job'', pc'', hwork, hdir, hsame⟩ | ⟨hstart, -⟩
    · cases hidle.symm.trans hpc
    · cases hwork.symm.trans hpc
      refine ⟨hsame.trans hpending, fun name hn => (hlive name hn).trans hdir.symm, ?_⟩
      rcases hspec.memory with hmem | ⟨hidle, -⟩
      · rw [hmem.1]
        exact hfree
      · cases hidle.symm.trans hwork
    · cases hstart.symm.trans hpc
  · rcases hspec.memory with hmem | ⟨-, hjob | hload⟩
    · exact absurd hblocked (hfree r (hmem.1 ▸ hr))
    · rw [hpending] at hjob
      cases hjob
    · rw [hr] at hload
      obtain ⟨-, -, -, -, hid⟩ := loadProgress_eq hload.symm
      rw [hid]
      exact ⟨r, hload.symm, by rw [hblocked]; exact nofun⟩

theorem Alone.startStep (h : Alone w) (env : Env) {target : Target} {pc : StartPc}
    (hat : w.machine.pc = .start dir target pc) : Alone (startStep env dir target w pc) := by
  have hnone := h.start dir target pc hat
  have hspec := startSpec_startStep env dir target w pc
  generalize Staging.startStep env dir target w pc = v at hspec
  have hlive : ∀ name, Live v name → name = dir := fun name hn => by
    by_contra hne
    exact hnone name ((hspec.only.live hne).mp hn)
  refine ⟨fun name name' hn hn' => (hlive name hn).trans (hlive name' hn').symm,
    fun dir' target' pc' hpc name hn => ?_, fun job' pc' hpc => ?_, fun r hr hblocked hdir => ?_⟩
  · rw [hlive name hn] at hn
    exact hnone dir (hspec.record (hpc ▸ Pc.noConfusion) hn)
  · rcases hspec.pc with hidle | ⟨_, _, hstart⟩
    · cases hidle.symm.trans hpc
    · cases hstart.symm.trans hpc
  · rcases hspec.memory with hmem | ⟨-, hload⟩
    · exact absurd (h.progress r (hmem.1 ▸ hr) hblocked (hmem.2 ▸ hdir)) (hnone _)
    · rw [hr] at hload
      obtain ⟨-, -, -, -, hid⟩ := loadProgress_eq hload.symm
      rw [hid]
      exact ⟨r, hload.symm, by rw [hblocked]; exact nofun⟩

/-- A search that finds nothing has looked at every directory. -/
theorem findRecord_eq_none {p : Record → Bool} (h : findRecord p staging = none) {r : Record}
    (hr : loadProgress staging name = some r) : p r = false := by
  obtain ⟨d, hd, -⟩ := loadProgress_eq hr
  have hmem : name ∈ staging.keys := List.mem_map.mpr ⟨_, KeyedMap.mem_of_find? hd, rfl⟩
  have hnone := List.findSome?_eq_none_iff.mp h name hmem
  rw [hr, Option.map_eq_none_iff, Option.filter_eq_none_iff] at hnone
  simpa using hnone r rfl

theorem not_live_of_findOwnRecord (hh : Headed (Historic w.config w.db) w)
    (hnone : findOwnRecord w.config w.db.metaRows.storeEpoch w.disk.staging = none) (name : Text) :
    ¬ Live w name := by
  rintro ⟨r, hr, hstatus⟩
  have hp := findRecord_eq_none hnone hr
  rw [(hh.load hr).matches, Bool.and_true] at hp
  exact hstatus (by simpa using hp)

/-- A cycle that has found the machine's own record. -/
theorem Alone.continueOwn (h : Alone w) (env : Env) {record : Record} (target : Target)
    (hload : loadProgress w.disk.staging name = some record)
    (hstatus : record.status ≠ .discarded) : Alone (continueOwn env name record target w) := by
  have hlive : Live w name := ⟨record, hload, hstatus⟩
  set v := (w.setStaging (markStale env (some name) w.disk.staging)).setMachine
    { w.machine with currentDir := some name, currentProgress := some record } with hv
  have hdown : ∀ n, Live v n → Live w n := fun n hn => live_markStale hn
  have hkeep : loadProgress v.disk.staging name = some record :=
    (loadProgress_markStale_keep env w.disk.staging name).trans hload
  have hwork : record.status ≠ .blocked → ∀ pc : WorkPc,
      Alone (v.goto (.work { dir := name, record, target } pc)) := fun hfree pc => by
    refine ⟨fun n n' hn hn' => h.unique n n' (hdown n hn) (hdown n' hn'),
      fun _ _ _ hpc => (by cases hpc), fun job' pc' hpc => ?_, fun r hr hblocked _ => ?_⟩
    · cases hpc
      exact ⟨rfl, fun n hn => h.unique n name (hdown n hn) hlive,
        fun r hr => Option.some.inj hr ▸ hfree⟩
    · exact absurd (Option.some.inj hr ▸ hblocked) hfree
  unfold Staging.continueOwn
  simp only
  split
  · refine Alone.sync h (some target) fun n (hn : Live ((discardOwn env name v).setMachine
      (discardOwn env name v).machine.clearForced) n) => hdown n (live_discardOwn hn)
  · split
    · refine ⟨fun n n' hn hn' => h.unique n n' (hdown n hn) (hdown n' hn'),
        fun _ _ _ hpc => (by cases hpc), fun _ _ hpc => (by cases hpc), fun r hr _ _ => ?_⟩
      obtain ⟨-, -, -, -, hid⟩ := loadProgress_eq hkeep
      obtain rfl : record = r := Option.some.inj hr
      rw [hid]
      exact ⟨record, hkeep, hstatus⟩
    · rename_i hready
      have hfree : record.status ≠ .blocked := by rw [hready]; exact nofun
      split
      · exact hwork hfree _
      · exact hwork hfree _
    · rename_i hfree _
      exact hwork hfree _

theorem Alone.beginCycle (h : Alone w) (hh : Headed (Historic w.config w.db) w) (env : Env) :
    Alone (beginCycle env w) := by
  unfold Staging.beginCycle
  split
  · exact h
  rename_i hidle
  split
  · exact h
  rename_i factsEpoch clock hread
  have hepoch : factsEpoch = w.db.metaRows.storeEpoch := by
    split at hread
    · exact (readFactsIdentity_eq_some hread).1
    · cases hread
  split
  · exact h.sync none fun _ => id
  split
  · exact h
  set v := w.setMachine w.machine.unparked with hv
  have hunparked : SameMemory w v ∧ v.machine.pc = w.machine.pc := by
    have hm : v.machine = w.machine.unparked := rfl
    unfold SameMemory
    rw [hm]
    unfold Machine.unparked
    split
    all_goals exact ⟨⟨rfl, rfl⟩, rfl⟩
  have hav : Alone v := h.fewer (fun _ => id) hunparked.1 hunparked.2 fun _ _ _ _ => id
  have hhv : Headed (Historic v.config v.db) v :=
    Headed.remember (m := w.machine.unparked) hh hunparked.1.1 hunparked.2
  have hstale : ∀ target : Target,
      Alone ((v.setStaging (markStale env none v.disk.staging)).sync (some target) none) :=
    fun target => h.sync _ fun n hn => live_markStale hn
  simp only
  split
  · exact h.fewer (fun _ => id) hunparked.1 hunparked.2 fun _ _ _ _ => id
  split
  · exact hstale _
  split
  · have hnone : findReadyPending v.config factsEpoch (readFactsSchemaVersion v.db)
        v.disk.staging = none := by
      refine findReadyPending_eq_none (hhv.mono fun k hk => ?_) _ _
      obtain ⟨point, -, -, rfl⟩ := hk
      exact targetIdentity_unlayered _ _ _ _
    unfold keepPending
    rw [hnone]
    exact hstale _
  · unfold buildOrContinue
    split
    · rename_i name record hfound
      obtain ⟨hload, hp⟩ := findRecord_eq hfound
      simp only [Bool.and_eq_true, decide_eq_true_eq] at hp
      exact hav.continueOwn env _ hload hp.1
    · rename_i hnone
      rw [hepoch] at hnone
      have hdead := not_live_of_findOwnRecord hhv hnone
      simp only
      split
      · exact hstale _
      · have hgone : ∀ n, ¬ LiveIn (markStale env none v.disk.staging) n :=
          fun n hn => hdead n (live_markStale hn)
        exact ⟨fun n n' hn _ => absurd hn (hgone n), fun _ _ _ _ n hn => hgone n hn,
          fun _ _ hpc => (by cases hpc),
          fun r hr hblocked hdir => absurd (hav.progress r hr hblocked hdir) (hdead _)⟩

/-- A retry brings no second record to life. -/
theorem Alone.retry (h : Alone w) (hh : Headed (Historic w.config w.db) w) (env : Env) :
    Alone (retry env w) := by
  set v := w.setMachine { w.machine with
    blocked := false, blockedEpoch := none, readyVerified := false } with hv
  have hflags : Alone v := h.fewer (fun _ => id) ⟨rfl, rfl⟩ rfl fun _ _ _ _ => id
  unfold Staging.retry
  simp only
  split
  · rename_i name r hname hr
    split
    · rename_i hblocked
      split
      · rename_i d hd
        have hload : ∀ n, r.generationId = name → Live v n → Live v r.generationId :=
          fun n hid _ => h.progress r hr hblocked (hid ▸ hname)
        have hok : r.versionOk = true := by
          obtain ⟨point, -, -, heq⟩ := hh.progress r hr
          exact congrArg Heading.versionOk heq
        refine hflags.fewer (fun n hn => ?_) ⟨rfl, rfl⟩ rfl fun r' hr' _ hdir' hlive => ?_
        · obtain ⟨r', hr', hstatus⟩ := hn
          rcases loadProgress_write hd hr' with hold | ⟨rfl, -, hid⟩
          · exact ⟨r', hold, hstatus⟩
          · exact hid ▸ h.progress r hr hblocked (hid ▸ hname)
        · obtain rfl : r = r' := Option.some.inj (hr.symm.trans hr')
          have hid : r.generationId = name := Option.some.inj (hdir'.symm.trans hname)
          obtain ⟨old, hold, hstatus⟩ := hlive
          show LiveIn (v.disk.staging.insert name _) r.generationId
          rw [hid] at hold ⊢
          unfold LiveIn Staging.loadProgress
          rw [KeyedMap.find?_insert, if_pos rfl, Option.bind_some]
          unfold Dir.writeRecord
          split
          · refine ⟨old, ?_, hstatus⟩
            unfold Staging.loadProgress at hold
            rw [hd, Option.bind_some] at hold
            exact hold
          · exact ⟨{ r with status := .running }, by simp [Option.filter, hok, hid], nofun⟩
          · exact ⟨{ r with status := .running }, by simp [Option.filter, hok, hid], nofun⟩
      · exact hflags
    · exact hflags
  · exact hflags

/-- The publisher takes a record away, discards it, or blocks it. -/
theorem Alone.publish (h : Alone w) (publication : Publication) :
    Alone (publish publication w) := by
  unfold Staging.publish
  split
  swap
  · exact h
  rename_i name hpc hname
  split
  swap
  · exact h
  rename_i d r hd hr
  split
  · exact h
  rename_i hready
  have hfree : ∀ p, w.machine.currentProgress = some p → p.status ≠ .blocked := fun p hp hb => by
    refine hready (Or.inr (Or.inr ?_))
    simp [hp, hb]
  have hstatus : r.status = .ready := by
    by_contra hne
    exact hready (Or.inl hne)
  split
  · rename_i hooked
    refine h.fewer (fun n hn => ?_) (by cases hooked <;> exact ⟨rfl, rfl⟩)
      (by cases hooked <;> rfl) fun p hp hb => absurd hb (hfree p hp)
    obtain ⟨r', hr', hs⟩ := hn
    refine ⟨r', ?_, hs⟩
    unfold Staging.loadProgress at hr' ⊢
    simp only [KeyedMap.find?_erase] at hr'
    split at hr'
    · cases hr'
    · exact hr'
  · exact h.fewer (fun n hn => live_discardOwn hn) (memory_discardOwn _ _ _)
      (by unfold discardOwn; simp only; repeat' split
          all_goals rfl) fun p hp hb => absurd hb (hfree p hp)
  · refine h.fewer (fun n hn => ?_) ⟨rfl, rfl⟩ rfl fun p hp hb => absurd hb (hfree p hp)
    obtain ⟨r', hr', hs⟩ := hn
    rcases loadProgress_write hd hr' with hold | ⟨rfl, -, -⟩
    · exact ⟨r', hold, hs⟩
    · exact ⟨r, hr, by rw [hstatus]; exact nofun⟩

/-- **At most one record is live, whatever happens.** -/
theorem alone_step (h : Alone w) (hh : Headed (Historic w.config w.db) w) (a : Action) :
    Alone (step w a) := by
  cases a with
  | facts call => exact h.fewer (fun _ => id) ⟨rfl, rfl⟩ rfl fun _ _ _ _ => id
  | cycle env => exact h.beginCycle hh env
  | work env =>
    simp only [step]
    split
    · exact h
    · rename_i dir target pc hat
      exact h.startStep env hat
    · rename_i job pc hat
      exact h.workStep env hat
  | retry env => exact h.retry hh env
  | requestCompaction => exact h.fewer (fun _ => id) ⟨rfl, rfl⟩ rfl fun _ _ _ _ => id
  | forceRebuild => exact h.fewer (fun _ => id) ⟨rfl, rfl⟩ rfl fun _ _ _ _ => id
  | publish publication => exact h.publish publication
  | crash =>
    exact ⟨h.unique, fun _ _ _ hpc => (by cases hpc), fun _ _ hpc => (by cases hpc),
      fun _ hr => (by cases hr)⟩

end Alone

theorem alone_run (config : Config) (now : ℤ) (historyId storeEpoch : Text) (acts : List Action) :
    Alone (run step (World.created config now historyId storeEpoch) acts) :=
  (run_invariant (I := fun w : World => Headed (Historic w.config w.db) w ∧ Alone w)
    (fun _ a h => ⟨historic_step h.1 a, alone_step h.2 h.1 a⟩)
    ⟨headed_created config now historyId storeEpoch, alone_created config now historyId storeEpoch⟩
    acts).2

/-- Every progress record pins a past of the facts: its heading is that of the target computed from
them at a point they have passed, where all events validate; and one record at most is live. -/
def Attested (w : World) : Prop :=
  (∀ name r, loadProgress w.disk.staging name = some r → Historic w.config w.db r.heading) ∧
    ∀ name name', Live w name → Live w name' → name = name'

/-- **Every record pins a past of the facts**, however many builds, crashes and appends there were. -/
theorem records_pinned (config : Config) (now : ℤ) (historyId storeEpoch : Text)
    (acts : List Action) :
    Attested (run step (World.created config now historyId storeEpoch) acts) :=
  ⟨fun _ _ hr => (historic_run config now historyId storeEpoch acts).load hr,
    (alone_run config now historyId storeEpoch acts).unique⟩

end Staging
end SemanticMemory
