import SemanticMemory.Lib.Runs
import SemanticMemory.Staging.Machine

/-!
# What the records of a build keep

A build changes the status of its record and adds chunks to it; the target that the record was
written for stays.  `Record.heading` is that part, and `Headed P` says that the heading of every
record the machine has anywhere meets `P`: on the disk, parked, in its memory and in its place in
the program.

`headed_step` is the one lemma about the steps: a condition on headings that every target computed
from the facts meets is an invariant.
-/

namespace SemanticMemory
namespace Staging

open Runs
open FactStore hiding Status World step
open Delta hiding World step
open Derived (Status WriteResult)

/-- What a build leaves alone in its record. -/
structure Heading where
  versionOk : Bool
  generationId : Text
  totalRows : ℕ
  rowsFingerprint : Text
  identity : Dict

def Record.heading (r : Record) : Heading :=
  ⟨r.versionOk, r.generationId, r.totalRows, r.rowsFingerprint, r.identity⟩

/-! ## The small operations -/

@[simp] theorem setMachine_machine (w : World) (m : Machine) : (w.setMachine m).machine = m := rfl
@[simp] theorem setMachine_disk (w : World) (m : Machine) : (w.setMachine m).disk = w.disk := rfl
@[simp] theorem setStaging_staging (w : World) (s : KeyedMap Text Dir) :
    (w.setStaging s).disk.staging = s := rfl

theorem writeRecord_record {env : Env} {r r' : Record} {d : Dir}
    (h : (d.writeRecord env r).record = some r') : r' = r ∨ d.record = some r' := by
  unfold Dir.writeRecord at h
  split at h
  · exact Or.inr h
  · exact Or.inl (Option.some.inj h).symm
  · exact Or.inl (Option.some.inj h).symm

variable {staging : KeyedMap Text Dir} {r : Record} {name : Text}

theorem loadProgress_eq (h : loadProgress staging name = some r) :
    ∃ d, staging.find? name = some d ∧ d.record = some r ∧ r.versionOk = true ∧
      r.generationId = name := by
  obtain ⟨d, hd, hr⟩ := Option.bind_eq_some_iff.mp h
  obtain ⟨hr, hok⟩ := Option.filter_eq_some_iff.mp hr
  simp only [Bool.and_eq_true, decide_eq_true_eq] at hok
  exact ⟨d, hd, hr, hok⟩

/-- What a search finds is a record that loads and meets the condition. -/
theorem findRecord_eq {p : Record → Bool} (h : findRecord p staging = some (name, r)) :
    loadProgress staging name = some r ∧ p r = true := by
  obtain ⟨k, -, hk⟩ := List.exists_of_findSome?_eq_some h
  obtain ⟨r', hr', heq⟩ := Option.map_eq_some_iff.mp hk
  cases heq
  exact Option.filter_eq_some_iff.mp hr'

/-! ## What no step changes -/

/-- The configuration and the facts are the same. -/
structure Frame (w w' : World) : Prop where
  config : w'.config = w.config
  facts : w'.facts = w.facts

theorem Frame.refl (w : World) : Frame w w := ⟨rfl, rfl⟩

theorem Frame.trans {w₁ w₂ w₃ : World} (h : Frame w₁ w₂) (h' : Frame w₂ w₃) : Frame w₁ w₃ :=
  ⟨h'.config.trans h.config, h'.facts.trans h.facts⟩

theorem frame_discardOwn (env : Env) (name : Text) (w : World) :
    Frame w (discardOwn env name w) := by
  unfold discardOwn
  simp only
  repeat' split
  all_goals exact ⟨rfl, rfl⟩

/-- The end of a cycle that discards a record whose generation is there already. -/
theorem Frame.dropOwn {w w₁ : World} (h : Frame w w₁) (env : Env) (name : Text) (target : Target) :
    Frame w (((discardOwn env name w₁).setMachine
      (discardOwn env name w₁).machine.clearForced).sync (some target) none) :=
  have hown := frame_discardOwn env name w₁
  ⟨hown.config.trans h.config, hown.facts.trans h.facts⟩

theorem frame_continueOwn (env : Env) (name : Text) (record : Record) (target : Target)
    (w : World) : Frame w (continueOwn env name record target w) := by
  unfold continueOwn
  simp only
  split
  · have hw : Frame w ((w.setStaging (markStale env (some name) w.disk.staging)).setMachine
        { w.machine with currentDir := some name, currentProgress := some record }) := ⟨rfl, rfl⟩
    exact hw.dropOwn env name target
  · repeat' split
    all_goals exact ⟨rfl, rfl⟩

theorem frame_keepPending (env : Env) (factsEpoch schema : Text) (target : Target) (w : World) :
    Frame w (keepPending env factsEpoch schema target w) := by
  unfold keepPending
  split
  · exact ⟨rfl, rfl⟩
  · rename_i name record _
    simp only
    split
    · have hw : Frame w (w.setStaging (markStale env (some name) w.disk.staging)) := ⟨rfl, rfl⟩
      exact hw.dropOwn env name target
    · split
      all_goals exact ⟨rfl, rfl⟩

theorem frame_beginCycle (env : Env) (w : World) : Frame w (beginCycle env w) := by
  have hun : Frame w (w.setMachine w.machine.unparked) := ⟨rfl, rfl⟩
  unfold beginCycle
  split
  · exact .refl w
  split
  · exact .refl w
  split
  · exact ⟨rfl, rfl⟩
  split
  · exact .refl w
  simp only
  split
  · exact ⟨rfl, rfl⟩
  split
  · exact ⟨rfl, rfl⟩
  split
  · exact hun.trans (frame_keepPending _ _ _ _ _)
  · refine hun.trans ?_
    unfold buildOrContinue
    split
    · exact frame_continueOwn _ _ _ _ _
    · simp only
      split
      all_goals exact ⟨rfl, rfl⟩

theorem frame_startStep (env : Env) (dir : Text) (target : Target) (w : World) (pc : StartPc) :
    Frame w (startStep env dir target w pc) := by
  cases pc with
  | clear =>
    simp only [startStep]
    repeat' split
    all_goals exact ⟨rfl, rfl⟩
  | create =>
    simp only [startStep]
    repeat' split
    all_goals exact ⟨rfl, rfl⟩
  | write =>
    simp only [startStep]
    repeat' split
    all_goals exact ⟨rfl, rfl⟩

theorem frame_workStep (env : Env) (job : Job) (w : World) (pc : WorkPc) :
    Frame w (workStep env job w pc) := by
  unfold workStep
  split
  · exact ⟨rfl, rfl⟩
  rename_i d hd
  cases pc with
  | discard =>
    exact Frame.trans (frame_discardOwn env job.dir w) ⟨rfl, rfl⟩
  | verifyChunks pinned =>
    simp only [stepVerifyChunks]
    repeat' split
    all_goals exact ⟨rfl, rfl⟩
  | openVectors pinned next =>
    simp only [stepOpenVectors]
    repeat' split
    all_goals exact ⟨rfl, rfl⟩
  | embed pinned next =>
    simp only [stepEmbed]
    repeat' split
    all_goals exact ⟨rfl, rfl⟩
  | block =>
    simp only [stepBlock]
    repeat' split
    all_goals exact ⟨rfl, rfl⟩
  | metadata pinned sha256 =>
    simp only [stepMetadata]
    repeat' split
    all_goals exact ⟨rfl, rfl⟩
  | manifest pinned sha256 =>
    simp only [stepManifest]
    repeat' split
    all_goals exact ⟨rfl, rfl⟩
  | park again =>
    simp only [stepPark]
    repeat' split
    all_goals exact ⟨rfl, rfl⟩
  | unpark again accepted =>
    simp only [stepUnpark]
    repeat' split
    all_goals exact ⟨rfl, rfl⟩
  | ready =>
    simp only [stepReady]
    repeat' split
    all_goals exact ⟨rfl, rfl⟩
  | settle =>
    simp only [stepSettle]
    repeat' split
    all_goals exact ⟨rfl, rfl⟩
  | gate | mark | empty pinned sha256 | gateReady | reopen again =>
    simp only
    repeat' split
    all_goals exact ⟨rfl, rfl⟩

/-- **No step but a call changes the facts, and none changes the configuration.** -/
theorem frame_step (w : World) {a : Action} (ha : ∀ call, a ≠ .facts call) :
    Frame w (step w a) := by
  cases a with
  | facts call => exact absurd rfl (ha call)
  | cycle env => exact frame_beginCycle env w
  | work env =>
    simp only [step]
    split
    · exact .refl w
    · exact frame_startStep _ _ _ _ _
    · exact frame_workStep _ _ _ _
  | retry env =>
    simp only [step, retry]
    repeat' split
    all_goals exact ⟨rfl, rfl⟩
  | requestCompaction => exact ⟨rfl, rfl⟩
  | forceRebuild => exact ⟨rfl, rfl⟩
  | publish publication =>
    simp only [step, publish]
    repeat' split
    all_goals first | exact ⟨rfl, rfl⟩ | exact frame_discardOwn _ _ _
  | crash => exact ⟨rfl, rfl⟩

theorem config_step (w : World) (a : Action) : (step w a).config = w.config := by
  by_cases ha : ∀ call, a ≠ .facts call
  · exact (frame_step w ha).config
  · push Not at ha
    obtain ⟨call, rfl⟩ := ha
    rfl

theorem config_run (w : World) (acts : List Action) : (run step w acts).config = w.config :=
  run_invariant (I := fun v : World => v.config = w.config)
    (fun v a h => (config_step v a).trans h) rfl acts

/-! ## Headings -/

section Headed

variable {P : Heading → Prop} {w : World}

/-- The records of a place in the program. -/
def Pc.Headed (P : Heading → Prop) : Pc → Prop
  | .idle => True
  | .start _ target _ => P target.record.heading
  | .work job _ => P job.record.heading ∧ P job.target.record.heading

/-- Every record that the machine has meets `P`. -/
structure Headed (P : Heading → Prop) (w : World) : Prop where
  staging : ∀ name d r, w.disk.staging.find? name = some d → d.record = some r → P r.heading
  parked : ∀ name r, w.disk.parked.find? name = some r → P r.heading
  progress : ∀ r, w.machine.currentProgress = some r → P r.heading
  pc : w.machine.pc.Headed P

theorem Headed.load (h : Headed P w) (hr : loadProgress w.disk.staging name = some r) :
    P r.heading := by
  obtain ⟨d, hd, hrec, -⟩ := loadProgress_eq hr
  exact h.staging name d r hd hrec

theorem Headed.setMachine (h : Headed P w) {m : Machine}
    (hprogress : ∀ r, m.currentProgress = some r → P r.heading) (hpc : m.pc.Headed P) :
    Headed P (w.setMachine m) :=
  ⟨h.staging, h.parked, hprogress, hpc⟩

/-- A change of the memory that keeps the record and the place. -/
theorem Headed.remember (h : Headed P w) {m : Machine}
    (hprogress : m.currentProgress = w.machine.currentProgress) (hpc : m.pc = w.machine.pc) :
    Headed P (w.setMachine m) :=
  h.setMachine (hprogress ▸ h.progress) (hpc ▸ h.pc)

theorem Headed.goto (h : Headed P w) {pc : Pc} (hpc : pc.Headed P) : Headed P (w.goto pc) :=
  h.setMachine h.progress hpc

variable {target : Target}

/-- A step to another place of `_start_build`. -/
theorem Headed.gotoStart (h : Headed P w) (dir : Text) (htarget : P target.record.heading)
    (pc : StartPc) : Headed P (w.goto (.start dir target pc)) :=
  h.goto htarget

theorem Headed.fault (h : Headed P w) : Headed P w.fault := h.goto trivial

theorem Headed.sync (h : Headed P w) (target : Option Target) {progress : Option Record}
    (hprogress : ∀ r, progress = some r → P r.heading) : Headed P (w.sync target progress) :=
  h.setMachine hprogress trivial

theorem Headed.setStaging (h : Headed P w)
    (hs : ∀ name d r, staging.find? name = some d → d.record = some r → P r.heading) :
    Headed P (w.setStaging staging) :=
  ⟨hs, h.parked, h.progress, h.pc⟩

theorem Headed.setDir (h : Headed P w) {d : Dir} (hd : ∀ r, d.record = some r → P r.heading) :
    Headed P (w.setDir name d) := by
  refine h.setStaging fun k d' r hk hr => ?_
  rw [KeyedMap.find?_insert] at hk
  split at hk
  · exact hd r (Option.some.inj hk ▸ hr)
  · exact h.staging k d' r hk hr

theorem Headed.write (h : Headed P w) {d : Dir} (hd : w.disk.staging.find? name = some d)
    (hr : P r.heading) (env : Env) : Headed P (w.setDir name (d.writeRecord env r)) := by
  refine h.setDir fun r' hr' => ?_
  rcases writeRecord_record hr' with rfl | hold
  · exact hr
  · exact h.staging name d r' hd hold

theorem Headed.markStale (h : Headed P w) (env : Env) (keep : Option Text) :
    Headed P (w.setStaging (markStale env keep w.disk.staging)) := by
  refine h.setStaging fun name d r hd hr => ?_
  rw [Staging.markStale, KeyedMap.find?_mapValues] at hd
  obtain ⟨d', hd', rfl⟩ := Option.map_eq_some_iff.mp hd
  split at hr
  · obtain ⟨r', hr', rfl⟩ := Option.map_eq_some_iff.mp hr
    exact h.staging name d' r' hd' hr'
  · exact h.staging name d' r hd' hr

theorem Headed.discardOwn (h : Headed P w) (env : Env) (name : Text) :
    Headed P (discardOwn env name w) := by
  have hm : Headed P (w.setMachine w.machine.discarded) := h.remember rfl rfl
  unfold Staging.discardOwn
  simp only
  split
  · rename_i d r hd hr
    split
    · exact hm
    · have hP : P r.heading := hm.load hr
      exact hm.write (r := { r with status := .discarded }) hd hP env
  · exact hm

/-! ## The steps -/

/-- A cycle that has found the machine's own record. -/
theorem Headed.continueOwn (h : Headed P w) (env : Env) {record : Record} (hrecord : P record.heading) (htarget : P target.record.heading) :
    Headed P (continueOwn env name record target w) := by
  have hw : Headed P ((w.setStaging (Staging.markStale env (some name) w.disk.staging)).setMachine
      { w.machine with currentDir := some name, currentProgress := some record }) :=
    (h.markStale env _).setMachine (fun r hr => Option.some.inj hr ▸ hrecord) h.pc
  have hown : ∀ r, some record = some r → P r.heading := fun r hr => Option.some.inj hr ▸ hrecord
  unfold Staging.continueOwn
  simp only
  split
  · exact ((hw.discardOwn env name).remember (m := Machine.clearForced _) rfl rfl).sync _
      fun _ hr => (by cases hr)
  · split
    · exact hw.sync _ hown
    · split
      · exact hw.goto ⟨hrecord, htarget⟩
      · exact hw.goto ⟨hrecord, htarget⟩
    · exact hw.goto ⟨hrecord, htarget⟩

/-- A cycle that is asked for no build. -/
theorem Headed.keepPending (h : Headed P w) (env : Env) (factsEpoch schema : Text)
    (htarget : P target.record.heading) :
    Headed P (keepPending env factsEpoch schema target w) := by
  unfold Staging.keepPending
  split
  · exact (h.markStale env none).sync _ fun _ hr => (by cases hr)
  · rename_i name record hfound
    have hrecord := h.load (findRecord_eq hfound).1
    have hown : ∀ r, some record = some r → P r.heading := fun r hr => Option.some.inj hr ▸ hrecord
    have hw := h.markStale env (some name)
    simp only
    split
    · exact ((hw.discardOwn env name).remember (m := Machine.clearForced _) rfl rfl).sync _
        fun _ hr => (by cases hr)
    · split
      · exact hw.sync _ hown
      · exact hw.goto ⟨hrecord, htarget⟩

/-- A cycle that is asked for a build. -/
theorem Headed.buildOrContinue (h : Headed P w) (env : Env) (factsEpoch : Text)
    (htarget : P target.record.heading) : Headed P (buildOrContinue env factsEpoch target w) := by
  unfold Staging.buildOrContinue
  split
  · rename_i name record hfound
    exact h.continueOwn env (h.load (findRecord_eq hfound).1) htarget
  · have hw := h.markStale env none
    simp only
    split
    · exact hw.sync _ fun _ hr => (by cases hr)
    · exact hw.goto htarget

theorem Headed.beginCycle (h : Headed P w) (env : Env)
    (htarget : ∀ factsEpoch clock, readFactsIdentity w.db = some (factsEpoch, clock) →
      invalidEvent (readActiveEvents w.db clock) = none →
      P (computeTarget w.config w.db factsEpoch clock).record.heading) :
    Headed P (beginCycle env w) := by
  unfold Staging.beginCycle
  split
  · exact h
  split
  · exact h
  rename_i factsEpoch clock hread
  have hread' : readFactsIdentity w.db = some (factsEpoch, clock) := by
    split at hread
    · exact hread
    · cases hread
  split
  · exact h.sync none fun _ hr => (by cases hr)
  split
  · exact h
  have hm : Headed P (w.setMachine w.machine.unparked) := by
    refine h.remember ?_ ?_ <;>
    · unfold Machine.unparked
      split <;> rfl
  simp only
  split
  · exact hm.remember rfl rfl
  · rename_i hvalid
    have ht := htarget factsEpoch clock hread' hvalid
    split
    · exact (hm.markStale env none).sync _ fun _ hr => (by cases hr)
    · split
      · exact hm.keepPending env _ _ ht
      · exact hm.buildOrContinue env _ ht

theorem Headed.startStep (h : Headed P w) (env : Env) (dir : Text)
    (htarget : P target.record.heading) (pc : StartPc) :
    Headed P (startStep env dir target w pc) := by
  have hend : ∀ {w : World}, Headed P w → Headed P (endStart dir target w) := fun h =>
    h.sync _ fun r hr => h.load hr
  cases pc with
  | clear =>
    simp only [Staging.startStep]
    split
    · exact hend h
    · split
      · exact h.gotoStart dir htarget _
      · rename_i d hd
        split
        · refine (h.setStaging fun name d' r hd' hr => ?_).gotoStart dir htarget _
          rw [KeyedMap.find?_erase] at hd'
          split at hd'
          · cases hd'
          · exact h.staging name d' r hd' hr
        · refine hend (h.setDir fun r hr => ?_)
          unfold Dir.strip at hr
          split at hr
          · exact h.staging dir d r hd hr
          · cases hr
  | create =>
    simp only [Staging.startStep]
    split
    · exact (h.setDir (d := {}) fun r hr => (by cases hr)).gotoStart dir htarget _
    · exact hend h
  | write =>
    simp only [Staging.startStep]
    split
    · exact hend h
    · rename_i d hd
      have hw := h.write (r := target.record) hd htarget env
      split
      · exact hend hw
      · exact hw.goto trivial
      · exact hend (hw.remember rfl rfl)

section Work

variable {job : Job} {d : Dir} (h : Headed P w) (hd : w.disk.staging.find? job.dir = some d)
  (hjob : P job.record.heading ∧ P job.target.record.heading)
include h hjob

theorem Headed.work (pc : WorkPc) : Headed P (w.work job pc) := h.goto hjob

include hd

omit hjob in
/-- A change of a directory's files. -/
theorem Headed.setFiles {d' : Dir} (hd' : d'.record = d.record) :
    Headed P (w.setDir job.dir d') :=
  h.setDir fun r hr => h.staging _ d r hd (hd' ▸ hr)

omit hd in
theorem Headed.stepVerifyChunks (env : Env) (pinned : Pinned) :
    Headed P (stepVerifyChunks env job d pinned w) := by
  unfold Staging.stepVerifyChunks
  simp only
  split
  · exact h.work hjob _
  · split
    · exact h.work hjob _
    · split
      · exact h.work hjob _
      · exact h.work hjob _

theorem Headed.stepOpenVectors (env : Env) (pinned : Pinned) (next : ℕ) :
    Headed P (stepOpenVectors env job d pinned next w) := by
  unfold Staging.stepOpenVectors
  split
  · exact h.fault
  · split
    · exact (h.setFiles hd (by rfl)).work hjob _
    · exact h.fault
    · exact h.fault
    · exact (h.setFiles hd (by rfl)).work hjob _

theorem Headed.stepEmbed (env : Env) (pinned : Pinned) (next : ℕ) :
    Headed P (stepEmbed env job d pinned next w) := by
  unfold Staging.stepEmbed
  simp only
  split
  · exact h.work hjob _
  · split
    · exact h.fault
    · split
      · refine Headed.goto (h.setFiles hd ?_) hjob
        rfl
      · exact (h.setFiles hd (by rfl)).fault

theorem Headed.stepBlock (env : Env) : Headed P (stepBlock env job d w) := by
  have hw := h.write (r := { job.record with status := .blocked }) hd hjob.1 env
  unfold Staging.stepBlock
  simp only
  split
  · exact hw.fault
  · refine Headed.work ?_ hjob _
    exact hw.remember rfl rfl

theorem Headed.stepMetadata (env : Env) (pinned : Pinned) (sha256 : Text) :
    Headed P (stepMetadata env job d pinned sha256 w) := by
  unfold Staging.stepMetadata
  split
  · exact h.work hjob _
  · simp only
    split
    · exact (h.setFiles hd (by rfl)).work hjob _
    · exact (h.setFiles hd (by rfl)).work hjob _

theorem Headed.stepManifest (env : Env) (pinned : Pinned) (sha256 : Text) :
    Headed P (stepManifest env job d pinned sha256 w) := by
  unfold Staging.stepManifest
  split
  · exact h.work hjob _
  · split
    · split
      · exact h.fault
      · split
        · exact h.work hjob _
        · simp only
          split
          · exact (h.setFiles hd (by rfl)).work hjob _
          · exact (h.setFiles hd (by rfl)).work hjob _
    · exact h.fault

theorem Headed.stepPark (env : Env) (again : Bool) : Headed P (stepPark env again job d w) := by
  have herase : Headed P
      { w with
        disk :=
          { w.disk with
            parked := if env.unlinkOk then w.disk.parked.erase job.dir else w.disk.parked } } := by
    refine ⟨h.staging, fun name r hr => ?_, h.progress, h.pc⟩
    simp only at hr
    split at hr
    · rw [KeyedMap.find?_erase] at hr
      split at hr
      · cases hr
      · exact h.parked name r hr
    · exact h.parked name r hr
  unfold Staging.stepPark
  split
  · rename_i r hr
    split
    · refine Headed.work ?_ hjob _
      refine ⟨fun name d' r' hd' hr' => ?_, fun name r' hr' => ?_, h.progress, h.pc⟩
      · simp only [KeyedMap.find?_insert] at hd'
        split at hd'
        · rw [← Option.some.inj hd'] at hr'
          cases hr'
        · exact h.staging name d' r' hd' hr'
      · simp only [KeyedMap.find?_insert] at hr'
        split at hr'
        · exact Option.some.inj hr' ▸ h.staging _ d r hd hr
        · exact h.parked name r' hr'
    · exact herase.fault
  · exact herase.fault

omit hd in
theorem Headed.stepUnpark (env : Env) (again accepted : Bool) :
    Headed P (stepUnpark env again accepted job d w) := by
  obtain ⟨w', hw', heq⟩ := stepUnpark_cases env again accepted job d w
  have hP : Headed P w' := by
    rcases hw' with rfl | ⟨r, hr, rfl⟩
    · exact h
    · refine ⟨fun name d' r' hd' hr' => ?_, fun name r' hr' => ?_, h.progress, h.pc⟩
      · simp only [KeyedMap.find?_insert] at hd'
        split at hd'
        · rw [← Option.some.inj hd'] at hr'
          exact Option.some.inj hr' ▸ h.parked _ r hr
        · exact h.staging name d' r' hd' hr'
      · simp only [KeyedMap.find?_erase] at hr'
        split at hr'
        · cases hr'
        · exact h.parked name r' hr'
  rw [heq]
  split
  · exact hP.work hjob _
  · split
    · refine Headed.work ?_ hjob _
      exact hP.remember rfl rfl
    · exact hP.work hjob _

theorem Headed.stepReady (env : Env) : Headed P (stepReady env job d w) := by
  have hw := h.write (r := { job.record with status := .ready }) hd hjob.1 env
  unfold Staging.stepReady
  simp only
  split
  · exact hw.work hjob _
  · exact hw.fault
  · refine Headed.work ?_ hjob _
    exact hw.remember rfl rfl

omit hd in
theorem Headed.stepSettle : Headed P (stepSettle job w) := by
  unfold Staging.stepSettle
  split
  · exact h.sync _ fun r hr => Option.some.inj hr ▸ hjob.1
  · split
    · rename_i r hr
      split
      · exact h.goto hjob.2
      · exact h.sync _ fun r' hr' => Option.some.inj hr' ▸ h.load hr
    · exact h.sync _ fun _ hr => (by cases hr)

end Work

theorem Headed.workStep (h : Headed P w) (env : Env) {job : Job}
    (hjob : P job.record.heading ∧ P job.target.record.heading) (pc : WorkPc) :
    Headed P (workStep env job w pc) := by
  unfold Staging.workStep
  split
  · exact h.fault
  rename_i d hd
  cases pc with
  | gate =>
    simp only
    split
    · exact h.fault
    · exact h.work hjob _
    · exact h.work hjob _
    · exact h.work hjob _
  | verifyChunks pinned => exact h.stepVerifyChunks hjob env pinned
  | openVectors pinned next => exact h.stepOpenVectors hd hjob env pinned next
  | embed pinned next => exact h.stepEmbed hd hjob env pinned next
  | mark =>
    have hw := h.write hd hjob.1 env
    simp only
    split
    · exact hw.work hjob _
    · exact hw.fault
  | block => exact h.stepBlock hd hjob env
  | empty pinned sha256 =>
    simp only
    split
    · exact (h.setFiles hd (by rfl)).work hjob _
    · exact h.work hjob _
  | metadata pinned sha256 => exact h.stepMetadata hd hjob env pinned sha256
  | manifest pinned sha256 => exact h.stepManifest hd hjob env pinned sha256
  | gateReady =>
    simp only
    split
    · exact h.fault
    · exact h.work hjob _
    · exact h.work hjob _
    · exact h.work hjob _
  | park again => exact h.stepPark hd hjob env again
  | reopen again => exact h.work hjob _
  | unpark again accepted => exact h.stepUnpark hjob env again accepted
  | ready => exact h.stepReady hd hjob env
  | discard => exact (h.discardOwn env _).work hjob _
  | settle => exact h.stepSettle hjob

/-- The call from outside that lets a blocked build go on. -/
theorem Headed.retry (h : Headed P w) (env : Env) : Headed P (retry env w) := by
  have hm : Headed P (w.setMachine { w.machine with
      blocked := false, blockedEpoch := none, readyVerified := false }) := h.remember rfl rfl
  unfold Staging.retry
  simp only
  split
  · rename_i name r hname hr
    split
    · split
      · rename_i d hd
        exact hm.write (r := { r with status := .running }) hd (hm.progress r hr) env
      · exact hm
    · exact hm
  · exact hm

theorem Headed.publish (h : Headed P w) (publication : Publication) :
    Headed P (publish publication w) := by
  unfold Staging.publish
  split
  · rename_i name hpc hname
    split
    · rename_i d r hd hr
      split
      · exact h
      · split
        · rename_i hooked
          refine ⟨fun name' d' r' hd' hr' => ?_, h.parked, ?_, ?_⟩
          · simp only [KeyedMap.find?_erase] at hd'
            split at hd'
            · cases hd'
            · exact h.staging name' d' r' hd' hr'
          · cases hooked <;> exact h.progress
          · cases hooked <;> exact h.pc
        · exact h.discardOwn _ _
        · have hP : P r.heading := h.load hr
          exact (h.write (r := { r with status := .blocked }) hd hP _).remember rfl rfl
    · exact h
  · exact h

/-- **What every target meets, every record meets.** -/
theorem headed_step (h : Headed P w)
    (htarget : ∀ factsEpoch clock, readFactsIdentity w.db = some (factsEpoch, clock) →
      invalidEvent (readActiveEvents w.db clock) = none →
      P (computeTarget w.config w.db factsEpoch clock).record.heading) (a : Action) :
    Headed P (step w a) := by
  cases a with
  | facts call => exact ⟨h.staging, h.parked, h.progress, h.pc⟩
  | cycle env => exact h.beginCycle env htarget
  | work env =>
    have hpc := h.pc
    unfold step
    simp only
    split
    · exact h
    · rename_i dir target pc hat
      rw [hat] at hpc
      exact h.startStep env dir hpc pc
    · rename_i job pc hat
      rw [hat] at hpc
      exact h.workStep env hpc pc
  | retry env => exact h.retry env
  | requestCompaction => exact h.remember rfl rfl
  | forceRebuild => exact h.remember rfl rfl
  | publish publication => exact h.publish publication
  | crash => exact h.setMachine (fun _ hr => (by cases hr)) trivial

theorem headed_created (config : Config) (now : ℤ) (historyId storeEpoch : Text) :
    Headed P (World.created config now historyId storeEpoch) :=
  ⟨fun _ _ _ h => (by cases h), fun _ _ h => (by cases h), fun _ h => (by cases h), trivial⟩

theorem Headed.mono (h : Headed P w) {Q : Heading → Prop} (hPQ : ∀ k, P k → Q k) :
    Headed Q w := by
  refine ⟨fun name d r hd hr => hPQ _ (h.staging name d r hd hr),
    fun name r hr => hPQ _ (h.parked name r hr), fun r hr => hPQ _ (h.progress r hr), ?_⟩
  have hpc := h.pc
  revert hpc
  cases w.machine.pc with
  | idle => exact id
  | start dir target pc => exact hPQ _
  | work job pc => exact And.imp (hPQ _) (hPQ _)

end Headed

/-! ## The facts behind a record -/

/-- A heading of a target at a point that the facts have passed, all whose events validate. -/
def Historic (config : Config) (db : Db) (h : Heading) : Prop :=
  ∃ point, point ≤ db.clock ∧ invalidEvent (readActiveEvents db point) = none ∧
    h = (computeTarget config db db.metaRows.storeEpoch point).record.heading

theorem targetIdentity_source (kit : Kit) (config : TargetConfig) (storeEpoch : Text)
    (point : Hlc) :
    (targetIdentity kit config storeEpoch point).get (ascii "source_hlc") = some (.hlc point) := by
  unfold targetIdentity
  rw [List.cons_append, get_cons, if_neg (by decide), List.cons_append, get_cons, if_pos rfl]

/-- What a later reader finds at a point that the facts have passed. -/
theorem readActiveEvents_later {db db' : Db} (h : Later db db') {point : Hlc}
    (hp : point ≤ db.clock) : readActiveEvents db' point = readActiveEvents db point := by
  unfold readActiveEvents
  rw [h.answer (ofLex point).1 (ofLex point).2 hp]

theorem Historic.later {config : Config} {db db' : Db} {h : Heading} (hh : Historic config db h)
    (hlater : Later db db') (hepoch : db'.metaRows.storeEpoch = db.metaRows.storeEpoch) :
    Historic config db' h := by
  obtain ⟨point, hle, hvalid, rfl⟩ := hh
  refine ⟨point, hle.trans hlater.clock, ?_, ?_⟩
  · rw [readActiveEvents_later hlater hle]
    exact hvalid
  · unfold computeTarget
    rw [readActiveEvents_later hlater hle, hepoch]

/-- **Every record pins a past of the facts.** -/
theorem historic_step {w : World} (h : Headed (Historic w.config w.db) w) (a : Action) :
    Headed (Historic (step w a).config (step w a).db) (step w a) := by
  have hstep : Headed (Historic w.config w.db) (step w a) := by
    refine headed_step h (fun epoch clock hread hvalid => ?_) a
    obtain ⟨rfl, rfl, -⟩ := readFactsIdentity_eq_some hread
    exact ⟨_, le_rfl, hvalid, rfl⟩
  refine hstep.mono fun k hk => ?_
  rw [config_step]
  by_cases ha : ∀ call, a ≠ .facts call
  · rw [World.db, (frame_step w ha).facts]
    exact hk
  · push Not at ha
    obtain ⟨call, rfl⟩ := ha
    exact hk.later (effect_step w.facts call).later (storeEpoch_facts w.facts call)

theorem historic_run (config : Config) (now : ℤ) (historyId storeEpoch : Text)
    (acts : List Action) :
    let w := run step (World.created config now historyId storeEpoch) acts
    Headed (Historic w.config w.db) w :=
  run_invariant (I := fun w : World => Headed (Historic w.config w.db) w)
    (fun _ a h => historic_step h a) (headed_created config now historyId storeEpoch) acts

/-- The epoch of the facts is the one they were created with. -/
theorem storeEpoch_step (w : World) (a : Action) :
    (step w a).db.metaRows.storeEpoch = w.db.metaRows.storeEpoch := by
  by_cases ha : ∀ call, a ≠ .facts call
  · rw [World.db, (frame_step w ha).facts]
    rfl
  · push Not at ha
    obtain ⟨call, rfl⟩ := ha
    exact storeEpoch_facts w.facts call

/-- A record of such a heading is the machine's own. -/
theorem Historic.matches {config : Config} {db : Db} (h : Historic config db r.heading) :
    r.matches config db.metaRows.storeEpoch = true := by
  obtain ⟨point, -, -, heq⟩ := h
  have hid : r.identity = targetIdentity config.kit config.target db.metaRows.storeEpoch point :=
    congrArg Heading.identity heq
  unfold Record.matches
  rw [hid]
  simp only [targetIdentity, List.cons_append, get_cons]
  simp [ascii]

end Staging
end SemanticMemory
