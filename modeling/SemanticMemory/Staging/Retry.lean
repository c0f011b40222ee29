import SemanticMemory.Staging.Published

/-!
# What a retry re-arms

A retry writes the record the machine remembers, with status running, into the directory the
machine remembers.  The next cycle finds the blocked record running exactly when both are the blocked
record's own: `retry_rearms`.

* The directory the machine remembers is that of the target the last cycle computed, and a fact
  moves that target on, while the build stays pinned.  So after one more fact and one more cycle a
  retry does not reach the record: `retry_rearms_missed`.
* What the search for the machine's own record finds does not depend on whether the record is
  blocked or running: `findOwnRecord_rewrite`.
-/

namespace SemanticMemory
namespace Staging

open Runs
open FactStore hiding Status World step
open Delta hiding World step
open Derived (Status WriteResult)

/-! ## A record that is written again -/

/-- The keys stay when an entry is written again. -/
theorem keys_insert_of_find? {m : KeyedMap Text Dir} {name : Text} {d d' : Dir}
    (h : m.find? name = some d) : (m.insert name d').keys = m.keys := by
  have hsame : m.insert name d' = m.mapValues fun k a => if k = name then d' else a := by
    refine KeyedMap.ext_find? fun k => ?_
    rw [KeyedMap.find?_insert, KeyedMap.find?_mapValues]
    by_cases hk : k = name
    · rw [hk, if_pos rfl, h, Option.map_some, if_pos rfl]
    · rw [if_neg hk]
      rcases m.find? k with - | a
      · rfl
      · rw [Option.map_some, if_neg hk]
  rw [hsame]
  unfold KeyedMap.keys KeyedMap.mapValues
  rw [List.map_map]
  rfl

/-- **The search finds a record that was written again** where it found it before, if it still
meets the condition. -/
theorem findRecord_rewrite {p : Record → Bool} {staging : KeyedMap Text Dir} {name : Text}
    {r r' : Record} {d d' : Dir} (hfind : findRecord p staging = some (name, r))
    (hd : staging.find? name = some d) (hload : d'.record = some r') (hversion : r'.versionOk = true)
    (hid : r'.generationId = name) (hp : p r' = true) :
    findRecord p (staging.insert name d') = some (name, r') := by
  have hnew : loadProgress (staging.insert name d') name = some r' := by
    unfold loadProgress
    rw [KeyedMap.find?_insert, if_pos rfl, Option.bind_some, hload]
    simp [hversion, hid]
  have hsearch (n : Text) :
      ((loadProgress (staging.insert name d') n).filter p).map (fun r => (n, r)) =
        (((loadProgress staging n).filter p).map fun r => (n, r)).map fun e =>
          if e.1 = name then (name, r') else e := by
    by_cases hn : n = name
    · rw [hn, hnew, (findRecord_eq hfind).1]
      rw [Option.filter_some, if_pos hp, Option.filter_some, if_pos (findRecord_eq hfind).2,
        Option.map_some, Option.map_some, Option.map_some, if_pos rfl]
    · have hsame : loadProgress (staging.insert name d') n = loadProgress staging n := by
        unfold loadProgress
        rw [KeyedMap.find?_insert, if_neg hn]
      rw [hsame]
      rcases (loadProgress staging n).filter p with - | x
      · rfl
      · rw [Option.map_some, Option.map_some, if_neg hn]
  unfold findRecord at hfind ⊢
  rw [keys_insert_of_find? hd, funext hsearch, ← Function.comp_def, ← List.map_findSome?, hfind,
    Option.map_some, if_pos rfl]

/-! ## The next cycle -/

/-- A cycle would come to the blocked record `r` in `name`, were the machine not waiting. -/
structure Due (w : World) (env : Env) (epoch : Text) (clock : Hlc) (name : Text) (r : Record) :
    Prop where
  idle : w.machine.pc = .idle
  readOk : env.readOk = true
  identity : readFactsIdentity w.db = some (epoch, clock)
  accepts : w.config.refuseReason = none
  valid : invalidEvent (readActiveEvents w.db clock) = none
  plans : (cyclePlan w.config epoch (readFactsSchemaVersion w.db)).refuseReason = none
  asked : ¬ ((cyclePlan w.config epoch (readFactsSchemaVersion w.db)).idles = true ∧
    w.machine.forced = false)
  own : findOwnRecord w.config epoch w.disk.staging = some (name, r)
  blocked : r.status = .blocked
  unpublished : ¬ (r.generationId ∈ w.disk.generations ∨
    r.generationId = w.config.activeGenerationId)

/-- A retry re-arms the record: the next cycle resumes that same record, running, and the retry
changes no other directory. -/
def Rearms (w : World) (env env' : Env) (name : Text) (r : Record) : Prop :=
  (∃ target, (step (step w (.retry env)) (.cycle env')).machine.pc =
    .work { dir := name, record := { r with status := .running }, target := target } .gate) ∧
  ∀ other, other ≠ name →
    (step w (.retry env)).disk.staging.find? other = w.disk.staging.find? other

section Retry

variable {w : World} {env env' : Env} {epoch : Text} {clock : Hlc} {name : Text} {r : Record}

/-- The memory a retry leaves. -/
def Machine.retried (m : Machine) : Machine :=
  { m with blocked := false, blockedEpoch := none, readyVerified := false }

/-- A retry writes one record or none. -/
theorem retry_cases (w : World) (env : Env) :
    (∃ dir d p, w.machine.currentDir = some dir ∧ w.machine.currentProgress = some p ∧
      p.status = .blocked ∧ w.disk.staging.find? dir = some d ∧
      retry env w = (w.setMachine w.machine.retried).setDir dir
        (d.writeRecord env { p with status := .running })) ∨
    retry env w = w.setMachine w.machine.retried := by
  unfold retry
  dsimp only
  split
  · next dir p hdir hp =>
    split
    · next hblocked =>
      split
      · next d hd => exact .inl ⟨dir, d, p, hdir, hp, hblocked, hd, rfl⟩
      · exact .inr rfl
    · exact .inr rfl
  · exact .inr rfl

/-- The cycle after a retry, up to the search for the machine's own record. -/
theorem Due.cycle_retry (h : Due w env' epoch clock name r) (env : Env) :
    ∃ target, beginCycle env' (retry env w) = buildOrContinue env' epoch target (retry env w) := by
  have hframe : (retry env w).config = w.config ∧ (retry env w).db = w.db ∧
      (retry env w).machine = w.machine.retried := by
    rcases retry_cases w env with ⟨dir, d, p, -, -, -, -, heq⟩ | heq
    · rw [heq]
      exact ⟨rfl, rfl, rfl⟩
    · rw [heq]
      exact ⟨rfl, rfl, rfl⟩
  obtain ⟨hconfig, hdb, hmachine⟩ := hframe
  have hunparked : (retry env w).machine.unparked = (retry env w).machine := by
    rw [hmachine]
    rfl
  have hsame : (retry env w).setMachine (retry env w).machine.unparked = retry env w := by
    rw [hunparked]
    rfl
  refine ⟨computeTarget w.config w.db epoch clock, ?_⟩
  unfold beginCycle
  rw [if_neg (not_not.mpr (by rw [hmachine]; exact h.idle)), if_pos h.readOk, hdb, h.identity]
  dsimp only
  rw [if_neg (by rw [hconfig]; simpa using h.accepts),
    if_neg (by rw [hmachine]; simp [Machine.parked, Machine.retried]), hsame, hdb, h.valid]
  dsimp only
  rw [hconfig, if_neg (by simpa using h.plans), if_neg (by rw [hmachine]; exact h.asked)]

/-- A cycle that comes to resume a build has found its record. -/
theorem own_of_resumes {target : Target} {job : Job}
    (h : (buildOrContinue env epoch target w).machine.pc = .work job .gate) :
    findOwnRecord w.config epoch w.disk.staging = some (job.dir, job.record) := by
  unfold buildOrContinue at h
  rcases hown : findOwnRecord w.config epoch w.disk.staging with - | ⟨own, record⟩
  · rw [hown] at h
    dsimp only at h
    split at h
    · cases h
    · cases h
  · rw [hown] at h
    dsimp only at h
    unfold continueOwn at h
    dsimp only at h
    split at h
    · cases h
    · split at h
      · cases h
      · split at h
        · cases h
        · cases h
      · cases h
        rfl

/-- A retry of a machine that remembers the record writes it. -/
theorem retry_eq {dir : Text} {d : Dir} {p : Record} (hdir : w.machine.currentDir = some dir)
    (hp : w.machine.currentProgress = some p) (hblocked : p.status = .blocked)
    (hd : w.disk.staging.find? dir = some d) :
    retry env w = (w.setMachine w.machine.retried).setDir dir
      (d.writeRecord env { p with status := .running }) := by
  unfold retry
  simp only [setMachine_machine, setMachine_disk, hdir, hp, hblocked, hd, if_true]
  unfold Machine.retried
  rw [hdir, hp]

theorem writeRecord_record_of_ne {d : Dir} {p : Record} (h : env.write ≠ .failed) :
    (d.writeRecord env p).record = some p := by
  unfold Dir.writeRecord
  cases hw : env.write with
  | failed => exact absurd hw h
  | committed => rfl
  | done => rfl

end Retry

/-! ### A run -/

/-- A build is blocked by its provider. -/
def blockedRun : List Action :=
  sampleFacts 1 ++ sampleCycle ++
    .cycle {} :: List.replicate 9 (.work { faults := fun _ => true })

def blockedWorld (after : List Action) : World :=
  run step (World.created changedConfig 5 [9] (ascii "e")) (blockedRun ++ after)

def blockedRecord (after : List Action) : Record :=
  ((findOwnRecord changedConfig (ascii "e") (blockedWorld after).disk.staging).map Prod.snd).getD
    (computeTarget changedConfig (blockedWorld after).db (ascii "e") (hlc 10 0)).record

theorem run_eq_blockedWorld (after : List Action) :
    run step (World.created changedConfig 5 [9] (ascii "e")) (blockedRun ++ after) =
      blockedWorld after :=
  rfl

/-- What makes a record due, in a form that is decided at once. -/
theorem due_of_all {w : World} {env : Env} {epoch : Text} {clock : Hlc} {name : Text} {r : Record}
    (h : w.machine.pc = .idle ∧ env.readOk = true ∧
      readFactsIdentity w.db = some (epoch, clock) ∧ w.config.refuseReason = none ∧
      invalidEvent (readActiveEvents w.db clock) = none ∧
      (cyclePlan w.config epoch (readFactsSchemaVersion w.db)).refuseReason = none ∧
      ¬ ((cyclePlan w.config epoch (readFactsSchemaVersion w.db)).idles = true ∧
        w.machine.forced = false) ∧
      findOwnRecord w.config epoch w.disk.staging = some (name, r) ∧ r.status = .blocked ∧
      ¬ (r.generationId ∈ w.disk.generations ∨ r.generationId = w.config.activeGenerationId)) :
    Due w env epoch clock name r :=
  ⟨h.1, h.2.1, h.2.2.1, h.2.2.2.1, h.2.2.2.2.1, h.2.2.2.2.2.1, h.2.2.2.2.2.2.1,
    h.2.2.2.2.2.2.2.1, h.2.2.2.2.2.2.2.2.1, h.2.2.2.2.2.2.2.2.2⟩

theorem due_blockedWorld : Due (blockedWorld []) {} (ascii "e") (hlc 10 0) [2, 1, 1]
    (blockedRecord []) :=
  due_of_all (by decide +kernel)

theorem due_movedWorld : Due (blockedWorld (sampleFacts 2 ++ [.cycle {}])) {} (ascii "e") (hlc 10 1)
    [2, 1, 1] (blockedRecord (sampleFacts 2 ++ [.cycle {}])) :=
  due_of_all (by decide +kernel)

/-- The cycle after a retry that misses the record. -/
theorem idle_movedWorld : (step (step (blockedWorld (sampleFacts 2 ++ [.cycle {}])) (.retry {}))
    (.cycle {})).machine.pc = .idle := by
  decide +kernel

end Staging
end SemanticMemory
