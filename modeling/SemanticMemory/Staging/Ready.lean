import SemanticMemory.Staging.Live

/-!
# A ready staging that a new machine finds

What the first cycle of a machine that is forced to build does with its own ready record: it takes it
up (`beginCycle_ready`), passes it through the gate and through the verification again, and has it for
its progress (`cycles_ready`).
-/

namespace SemanticMemory
namespace Staging

variable {c : Config} {facts : FactStore.World} {disk : Disk} {m : Machine}
  {name factsEpoch : Text} {clock : Hlc} {record : Record} {dir : Dir} {pinned : Pinned}

/-- A cycle that is forced to build takes up the machine's own ready record. -/
theorem beginCycle_ready (hidentity : FactStore.readFactsIdentity facts.db = some (factsEpoch, clock))
    (hrefuse : c.refuseReason = none) (hforce : m.forceRebuild = true) (hblocked : m.blocked = false)
    (hverified : m.readyVerified = false) (hpc : m.pc = .idle)
    (hevents : invalidEvent (FactStore.readActiveEvents facts.db clock) = none)
    (hplan : (cyclePlan c factsEpoch (readFactsSchemaVersion facts.db)).refuseReason = none)
    (hown : findOwnRecord c factsEpoch disk.staging = some (name, record))
    (hready : record.status = .ready) (hunpublished : record.generationId ∉ disk.generations)
    (hother : record.generationId ≠ c.activeGenerationId) :
    beginCycle {} ⟨c, facts, disk, m⟩ =
      ⟨c, facts, { disk with staging := markStale {} (some name) disk.staging },
        { m with
          currentDir := some name
          currentProgress := some record
          pc := .work ⟨name, record, computeTarget c facts.db factsEpoch clock, false⟩ .gateReady }⟩ := by
  have hunparked : m.unparked = m := by
    unfold Machine.unparked
    rw [hblocked]
    rfl
  have hparked : m.parked factsEpoch = false := by
    unfold Machine.parked
    rw [hblocked]
    rfl
  have hforced : m.forced = true := by
    unfold Machine.forced
    rw [hforce, Bool.or_true]
  unfold beginCycle
  rw [if_neg (not_not.mpr hpc)]
  simp only [World.db, if_true, hidentity, hrefuse, ne_eq, not_true_eq_false, if_false, hparked,
    Bool.false_eq_true, World.setMachine, hunparked, hevents, hplan, hforced, Bool.true_eq_false,
    and_false]
  unfold buildOrContinue
  simp only [hown]
  unfold continueOwn
  simp only [World.setStaging, World.setMachine, hready, hverified]
  rw [if_neg (not_or.mpr ⟨hunpublished, hother⟩)]
  rfl

/-- A cycle that nothing disturbs comes to its end. -/
inductive Cycles : World → World → Prop
  | last {w : World} (idle : (step w (.work {})).machine.pc = .idle)
      (ends : ∃ job, w.machine.pc = .work job .settle) : Cycles w (step w (.work {}))
  | next {w w' : World} (busy : (step w (.work {})).machine.pc ≠ .idle)
      (rest : Cycles (step w (.work {})) w') : Cycles w w'

/-- The container of a directory, without its record. -/
def Dir.bare (d : Dir) : Dir := { d with record := none }

def Disk.parking (disk : Disk) (name : Text) (dir : Dir) (record : Record) : Disk where
  staging := disk.staging.insert name dir.bare
  parked := disk.parked.insert name record
  generations := disk.generations

/-- The disk once the record is back. -/
def Disk.unparked (disk : Disk) (name : Text) (dir : Dir) : Disk where
  staging := disk.staging.insert name dir
  parked := disk.parked.erase name
  generations := disk.generations

theorem Disk.find?_unparked_parking : ((disk.parking name dir record).unparked name dir).staging.find?
    name = some dir := by
  show ((disk.staging.insert name dir.bare).insert name dir).find? name = some dir
  rw [KeyedMap.find?_insert, if_pos rfl]

/-- **A ready staging passes its gate and its verification again.** -/
theorem cycles_ready {target : Target} (hpc : m.pc = .work ⟨name, record, target, false⟩ .gateReady)
    (hdir : disk.staging.find? name = some dir) (hload : loadProgress disk.staging name = some record)
    (hready : record.status = .ready) (hpinned : resumeGate {} c facts.db record = .passes pinned)
    (hcontainer : dir.bare.container.any (verifyContainer c.kit name) = true) :
    ∃ m', Cycles ⟨c, facts, disk, m⟩
        ⟨c, facts, (disk.parking name dir record).unparked name dir, m'⟩ ∧
      m'.currentProgress = some record ∧ m'.readyStagingDir = some name := by
  obtain ⟨dir', hdir', hrec, hversion, hid⟩ := loadProgress_eq hload
  cases hdir.symm.trans hdir'
  let job : Job := ⟨name, record, target, false⟩
  let at' (disk : Disk) (pc : WorkPc) : World := ⟨c, facts, disk, { m with pc := .work job pc }⟩
  have hparked : (disk.parking name dir record).staging.find? name = some dir.bare := by
    show (disk.staging.insert name dir.bare).find? name = some dir.bare
    rw [KeyedMap.find?_insert, if_pos rfl]
  -- the gate
  have hgate : step ⟨c, facts, disk, m⟩ (.work {}) = at' disk (.park true) := by
    simp only [step, hpc, workStep, hdir, World.db, hpinned]
    rfl
  -- the record is renamed away, and the container is opened
  have hpark : step (at' disk (.park true)) (.work {}) =
      at' (disk.parking name dir record) (.reopen true) := by
    show workStep {} job (at' disk (.park true)) (.park true) = _
    unfold workStep
    rw [show (at' disk (.park true)).disk.staging.find? job.dir = some dir from hdir]
    simp only [stepPark, hrec, if_true]
    rfl
  have hreopen : step (at' (disk.parking name dir record) (.reopen true)) (.work {}) =
      at' (disk.parking name dir record) (.unpark true true) := by
    show workStep {} job (at' (disk.parking name dir record) (.reopen true)) (.reopen true) = _
    unfold workStep
    rw [show (at' (disk.parking name dir record) (.reopen true)).disk.staging.find? job.dir =
      some dir.bare from hparked]
    show World.work _ job (.unpark true (true && _)) = _
    rw [show dir.bare.container.any (verifyContainer
      (at' (disk.parking name dir record) (.reopen true)).config.kit job.dir) = true from hcontainer]
    rfl
  -- the record is renamed back
  let m' : Machine := { m with
    readyVerified := true, readyGenerationId := some record.generationId
    readyStagingDir := some name, pc := .work job .settle }
  have hback : ({ dir.bare with record := some record } : Dir) = dir := by
    rw [← hrec]
    rfl
  have hunpark : step (at' (disk.parking name dir record) (.unpark true true)) (.work {}) =
      ⟨c, facts, (disk.parking name dir record).unparked name dir, m'⟩ := by
    show workStep {} job (at' (disk.parking name dir record) (.unpark true true))
      (.unpark true true) = _
    unfold workStep
    rw [show (at' (disk.parking name dir record) (.unpark true true)).disk.staging.find? job.dir =
      some dir.bare from hparked]
    show stepUnpark {} true true job dir.bare _ = _
    have hstored : (at' (disk.parking name dir record) (.unpark true true)).disk.parked.find?
        job.dir = some record := by
      show (disk.parked.insert name record).find? name = some record
      rw [KeyedMap.find?_insert, if_pos rfl]
    unfold stepUnpark
    simp only [hstored, if_true, hback]
    rfl
  -- the cycle ends with the record that it finds
  have hsettle : step ⟨c, facts, (disk.parking name dir record).unparked name dir, m'⟩ (.work {}) =
      ⟨c, facts, (disk.parking name dir record).unparked name dir,
        { m' with
          currentDir := some target.generationId, currentProgress := some record, pc := .idle }⟩ := by
    have hfound : loadProgress ((disk.parking name dir record).unparked name dir).staging name =
        some record := by
      unfold loadProgress at hload ⊢
      rw [Disk.find?_unparked_parking]
      rwa [hdir] at hload
    show workStep {} job _ .settle = _
    unfold workStep
    rw [show (World.mk c facts ((disk.parking name dir record).unparked name dir) m').disk.staging.find?
      job.dir = some dir from Disk.find?_unparked_parking]
    show stepSettle job _ = _
    unfold stepSettle
    rw [if_neg (show ¬ job.pending = true by rintro ⟨⟩)]
    rw [show loadProgress (World.mk c facts ((disk.parking name dir record).unparked name
      dir) m').disk.staging job.dir = some record from hfound]
    simp only [hready]
    rfl
  refine ⟨{ m' with
    currentDir := some target.generationId, currentProgress := some record, pc := .idle },
    ?_, rfl, rfl⟩
  refine .next (hgate ▸ by rintro ⟨⟩) (hgate ▸ ?_)
  refine .next (hpark ▸ by rintro ⟨⟩) (hpark ▸ ?_)
  refine .next (hreopen ▸ by rintro ⟨⟩) (hreopen ▸ ?_)
  refine .next (hunpark ▸ by rintro ⟨⟩) (hunpark ▸ ?_)
  exact hsettle ▸ .last (hsettle ▸ rfl) ⟨job, rfl⟩

end Staging
end SemanticMemory
