import SemanticMemory.Staging.Live

/-!
# After a publication

Whether a cycle builds is decided by three things: the matrix, which compares the desired identity
with the active one; the forced-build flags; and the name of the target, which is computed from the
facts of the moment.  A publication changes none of the first: the active identity is an argument of
the constructor, and only the success hook takes the flags back.

So a published target is left alone for two reasons only: the machine was constructed with an active
identity that asks for no build (and the build was a forced one, whose flags the hook has taken
back), or the facts have not moved since, and the target is the directory just published.
`spared` is that condition, and `published_stays` that it is enough in every run; a single new fact
after the publication of a changed representation starts the next build (`published_rebuilt`).
-/

namespace SemanticMemory
namespace Staging

open Runs
open FactStore hiding Status World step
open Delta hiding World step
open Derived (Status WriteResult)

/-- Nothing asks for a build: the configuration or the active identity is refused, or the matrix has
nothing to build and the forced-build flags are down. -/
def World.quiet (w : World) : Bool :=
  let plan := cyclePlan w.config w.db.metaRows.storeEpoch (readFactsSchemaVersion w.db)
  w.config.refuseReason ≠ none || plan.refuseReason ≠ none || plan.idles && !w.machine.forced

/-- The steps after a publication that leave the published target alone: no crash, no new request,
and a cycle only when nothing asks for a build or the facts are still at the published point. -/
def spared (point : Hlc) (w : World) : Action → Bool
  | .cycle _ => w.quiet || w.db.clock = point
  | .requestCompaction | .forceRebuild | .crash => false
  | _ => true

/-- The state after a publication: the machine rests, no record is live, and the published directory
is the target at its point. -/
structure Done (point : Hlc) (id : Text) (w : World) : Prop where
  headed : Headed (Historic w.config w.db) w
  alone : Alone w
  idle : w.machine.pc = .idle
  dead : ∀ name, ¬ Live w name
  published : id ∈ w.disk.generations
  passed : point ≤ w.db.clock
  target : (computeTarget w.config w.db w.db.metaRows.storeEpoch point).generationId = id

section Done

variable {point : Hlc} {id : Text} {w : World}

/-- A cycle that may run leaves the machine at rest. -/
theorem Done.beginCycle (h : Done point id w) (env : Env)
    (hspared : (w.quiet || w.db.clock = point) = true) :
    (beginCycle env w).machine.pc = .idle ∧ (∀ name, ¬ Live (beginCycle env w) name) ∧
      (beginCycle env w).disk.generations = w.disk.generations := by
  have hmarked : ∀ name, ¬ LiveIn (markStale env none w.disk.staging) name := fun name hn =>
    h.dead name (live_markStale hn)
  have hunparked : w.machine.unparked.forced = w.machine.forced ∧
      w.machine.unparked.pc = .idle ∧
      w.machine.unparked.currentProgress = w.machine.currentProgress := by
    unfold Machine.unparked
    split
    all_goals exact ⟨rfl, h.idle, rfl⟩
  unfold Staging.beginCycle
  rw [if_neg (not_not_intro h.idle)]
  split
  · exact ⟨h.idle, h.dead, rfl⟩
  rename_i factsEpoch clock hread
  have hread : readFactsIdentity w.db = some (factsEpoch, clock) := by
    split at hread
    · exact hread
    · cases hread
  obtain ⟨rfl, rfl, -⟩ := readFactsIdentity_eq_some hread
  split
  · exact ⟨rfl, h.dead, rfl⟩
  rename_i hunrefused
  split
  · exact ⟨h.idle, h.dead, rfl⟩
  set v := w.setMachine w.machine.unparked with hv
  have hhv : Headed (Historic v.config v.db) v :=
    Headed.remember (m := w.machine.unparked) h.headed hunparked.2.2
      (hunparked.2.1.trans h.idle.symm)
  simp only
  split
  · exact ⟨hunparked.2.1, h.dead, rfl⟩
  split
  · exact ⟨rfl, hmarked, rfl⟩
  rename_i hloads
  split
  · have hnone : findReadyPending v.config w.db.metaRows.storeEpoch (readFactsSchemaVersion v.db)
        v.disk.staging = none := by
      refine findReadyPending_eq_none (hhv.mono fun k hk => ?_) _ _
      obtain ⟨p, -, -, rfl⟩ := hk
      exact targetIdentity_unlayered _ _ _ _
    unfold keepPending
    rw [hnone]
    exact ⟨rfl, hmarked, rfl⟩
  · rename_i hbuild
    have hclock : w.db.clock = point := by
      rcases Bool.or_eq_true _ _ |>.mp hspared with hquiet | hclock
      · exfalso
        simp only [World.quiet, Bool.or_eq_true, Bool.and_eq_true, Bool.not_eq_true',
          decide_eq_true_eq] at hquiet
        rcases hquiet with (hrefused | hplan) | ⟨hidles, hforced⟩
        · exact hunrefused hrefused
        · exact hloads hplan
        · exact hbuild ⟨hidles, hunparked.1.trans hforced⟩
      · simpa using hclock
    have hnone : findOwnRecord v.config w.db.metaRows.storeEpoch v.disk.staging = none := by
      refine Option.eq_none_iff_forall_not_mem.mpr fun ⟨name, r⟩ hfound => ?_
      obtain ⟨hload, hp⟩ := findRecord_eq hfound
      simp only [Bool.and_eq_true, decide_eq_true_eq] at hp
      exact h.dead name ⟨r, hload, hp.1⟩
    unfold buildOrContinue
    rw [hnone]
    simp only
    rw [if_pos]
    · exact ⟨rfl, hmarked, rfl⟩
    · show (computeTarget w.config w.db w.db.metaRows.storeEpoch w.db.clock).generationId ∈
        w.disk.generations
      rw [hclock, h.target]
      exact h.published

/-- **One spared step.** -/
theorem done_step (h : Done point id w) {a : Action} (ha : spared point w a = true) :
    Done point id (step w a) := by
  have hheaded := historic_step h.headed a
  have halone := alone_step h.alone h.headed a
  cases a with
  | facts call =>
    have hlater := (effect_step w.facts call).later
    refine ⟨hheaded, halone, h.idle, h.dead, h.published, h.passed.trans hlater.clock, ?_⟩
    rw [storeEpoch_step, ← h.target]
    unfold computeTarget
    rw [config_step]
    congr 2
    exact readActiveEvents_later hlater h.passed
  | cycle env =>
    obtain ⟨hidle, hdead, hgenerations⟩ := h.beginCycle env ha
    have hframe := frame_beginCycle env w
    refine ⟨hheaded, halone, hidle, hdead, ?_, ?_, ?_⟩
    · show id ∈ (Staging.beginCycle env w).disk.generations
      rw [hgenerations]
      exact h.published
    · show point ≤ (Staging.beginCycle env w).facts.db.clock
      rw [hframe.facts]
      exact h.passed
    · show (computeTarget (Staging.beginCycle env w).config (Staging.beginCycle env w).facts.db
        (Staging.beginCycle env w).facts.db.metaRows.storeEpoch point).generationId = id
      rw [hframe.facts, hframe.config]
      exact h.target
  | work env =>
    have hstays : step w (.work env) = w := by
      simp only [step, h.idle]
    rw [hstays]
    exact h
  | retry env =>
    have hkeeps : (retry env w).machine.pc = .idle ∧
        (retry env w).disk.generations = w.disk.generations ∧
        ∀ name, ¬ Live (retry env w) name := by
      unfold retry
      simp only
      split
      · rename_i name r hname hr
        split
        · rename_i hblocked
          split
          · rename_i d hd
            refine ⟨h.idle, rfl, fun n hn => ?_⟩
            obtain ⟨r', hr', hstatus⟩ := hn
            rcases loadProgress_write hd hr' with hold | ⟨rfl, -, hid⟩
            · exact h.dead n ⟨r', hold, hstatus⟩
            · have hid' : r.generationId = n := hid
              exact h.dead _ (h.alone.progress r hr hblocked (hid' ▸ hname))
          · exact ⟨h.idle, rfl, h.dead⟩
        · exact ⟨h.idle, rfl, h.dead⟩
      · exact ⟨h.idle, rfl, h.dead⟩
    have hframe : Frame w (step w (.retry env)) := frame_step w (by rintro _ ⟨⟩)
    refine ⟨hheaded, halone, hkeeps.1, hkeeps.2.2, ?_, ?_, ?_⟩
    · show id ∈ (retry env w).disk.generations
      rw [hkeeps.2.1]
      exact h.published
    · rw [World.db, hframe.facts]
      exact h.passed
    · rw [World.db, hframe.facts, hframe.config]
      exact h.target
  | requestCompaction => cases ha
  | forceRebuild => cases ha
  | publish publication =>
    have hstays : step w (.publish publication) = w := by
      simp only [step, publish]
      split
      · split
        · rename_i name _ _ d r hd hr
          split
          · rfl
          · rename_i hready
            refine absurd ⟨r, hr, fun hdiscarded => hready (Or.inl ?_)⟩ (h.dead _)
            rw [hdiscarded]
            rintro ⟨⟩
        · rfl
      · rfl
    rw [hstays]
    exact h
  | crash => cases ha

end Done

/-- A publication that puts a generation in place leaves the machine at rest and no record live. -/
theorem publish_published {w : World} (h : Alone w) {hooked : Bool} {name : Text} {r : Record}
    (hdir : w.machine.readyStagingDir = some name)
    (hload : loadProgress w.disk.staging name = some r)
    (hpublished : (step w (.publish (.published hooked))).disk.generations =
      r.generationId :: w.disk.generations) :
    (step w (.publish (.published hooked))).machine.pc = .idle ∧
      ∀ n, ¬ Live (step w (.publish (.published hooked))) n := by
  have hsame : step w (.publish (.published hooked)) ≠ w := fun heq => by
    rw [heq] at hpublished
    exact absurd hpublished.symm (List.cons_ne_self _ _)
  obtain ⟨d, hd, -⟩ := loadProgress_eq hload
  obtain ⟨hidle, hready, heq⟩ : w.machine.pc = .idle ∧ r.status = .ready ∧
      step w (.publish (.published hooked)) =
        { w with
          disk :=
            { w.disk with
              staging := w.disk.staging.erase name
              generations := r.generationId :: w.disk.generations }
          machine := if hooked then w.machine.clearForced else w.machine } := by
    simp only [step, publish, hdir] at hsame ⊢
    cases hpc : w.machine.pc with
    | idle =>
      simp only [hpc, hd, hload] at hsame ⊢
      by_cases hready : r.status ≠ .ready ∨ w.machine.readyGenerationId ≠ some r.generationId ∨
          (w.machine.currentProgress.any fun p =>
            p.status = .ready && p.generationId = r.generationId) = false
      · exact absurd (if_pos hready) hsame
      · exact ⟨trivial, not_not.mp fun hne => hready (Or.inl hne), if_neg hready⟩
    | start dir target pc => exact absurd (by simp [hpc]) hsame
    | work job pc => exact absurd (by simp [hpc]) hsame
  rw [heq]
  refine ⟨by cases hooked <;> exact hidle, fun n hn => ?_⟩
  obtain ⟨r', hr', hstatus⟩ := hn
  obtain ⟨d', hd', -⟩ := loadProgress_eq hr'
  have herased : (w.disk.staging.erase name).find? n = some d' := hd'
  have hne : n ≠ name := fun heq => by
    rw [KeyedMap.find?_erase, if_pos heq] at herased
    cases herased
  refine hne (h.unique n name ⟨r', ?_, hstatus⟩ ⟨r, hload, by rw [hready]; rintro ⟨⟩⟩)
  have hr'' : loadProgress (w.disk.staging.erase name) n = some r' := hr'
  unfold Staging.loadProgress at hr'' ⊢
  rwa [KeyedMap.find?_erase, if_neg hne] at hr''

/-- **A published target is left alone.**  Take any run of the machine in which the publisher takes
up the ready staging, whose record pins the given point, and puts it in place.  If every later cycle
of the process finds that nothing asks for a build, or runs before a fact is stamped after that
point, then no cycle starts or continues a build, however many facts come and cycles run. -/
theorem published_stays (config : Config) (now : ℤ) (historyId storeEpoch : Text)
    (before after : List Action) (hooked : Bool) (name : Text) (r : Record) (point : Hlc)
    (hdir : (run step (World.created config now historyId storeEpoch) before).machine.readyStagingDir
      = some name)
    (hload : loadProgress
      (run step (World.created config now historyId storeEpoch) before).disk.staging name = some r)
    (hpoint : r.identity.get (ascii "source_hlc") = some (.hlc point))
    (hpublished : (step (run step (World.created config now historyId storeEpoch) before)
      (.publish (.published hooked))).disk.generations =
        r.generationId ::
          (run step (World.created config now historyId storeEpoch) before).disk.generations)
    (hafter : Along step (fun w a => spared point w a = true)
      (run step (World.created config now historyId storeEpoch)
        (before ++ [.publish (.published hooked)])) after) :
    (run step (World.created config now historyId storeEpoch)
      (before ++ .publish (.published hooked) :: after)).machine.pc = .idle := by
  have hheaded := historic_run config now historyId storeEpoch before
  have halone := alone_run config now historyId storeEpoch before
  rw [run_append, run_cons, run_nil] at hafter
  rw [run_append, run_cons]
  generalize run step (World.created config now historyId storeEpoch) before = w at *
  have hdone : Done point r.generationId (step w (.publish (.published hooked))) := by
    have hheaded' := historic_step hheaded (.publish (.published hooked))
    have halone' := alone_step halone hheaded (.publish (.published hooked))
    have hframe : Frame w (step w (.publish (.published hooked))) := frame_step w (fun _ => nofun)
    obtain ⟨p, hle, -, hheading⟩ := hheaded.load hload
    have hid : r.identity = targetIdentity w.config.kit w.config.target w.db.metaRows.storeEpoch p :=
      congrArg Heading.identity hheading
    obtain rfl : p = point := by
      rw [hid, targetIdentity_source] at hpoint
      exact Value.hlc.inj (Option.some.inj hpoint)
    have hgeneration : (computeTarget w.config w.db w.db.metaRows.storeEpoch p).generationId =
        r.generationId := (congrArg Heading.generationId hheading).symm
    obtain ⟨hidle, hdead⟩ := publish_published halone hdir hload hpublished
    refine ⟨hheaded', halone', hidle, hdead, ?_, ?_, ?_⟩
    · rw [hpublished]
      exact List.mem_cons_self
    · rw [World.db, hframe.facts]
      exact hle
    · rw [World.db, hframe.facts, hframe.config]
      exact hgeneration
  exact (run_invariant_along (I := Done point r.generationId) (fun _ _ ha h => done_step h ha) hdone
    hafter).idle

/-! ### A run -/

/-- A compaction is published, and a new fact comes. -/
def compactedFacts : List Action := sampleFacts 2 ++ sampleCycle

theorem published_stays_sample :
    (run step (World.created alignedConfig 5 [9] (ascii "e"))
      (compacted ++ .publish (.published true) :: compactedFacts)).machine.pc = .idle :=
  published_stays alignedConfig 5 [9] (ascii "e") compacted compactedFacts true [2, 1, 1]
    ((loadProgress (run step (World.created alignedConfig 5 [9] (ascii "e")) compacted).disk.staging
      [2, 1, 1]).get (by decide +kernel)) (hlc 10 0) (by decide +kernel)
    (Option.some_get _).symm (by decide +kernel) (by decide +kernel) (by decide +kernel)

/-- A machine that replaces an older representation. -/
def changedConfig : Config := { alignedConfig with activeRepresentationId := ascii "old" }

/-- The new representation of one event is built. -/
def converted : List Action := sampleFacts 1 ++ (List.replicate 3 sampleCycle).flatten

/-- **A published target is rebuilt.**  The machine still compares with the identity it was
constructed with, so the first fact after the publication of the new representation starts another
build of all facts. -/
theorem published_rebuilt :
    ¬ ∀ (config : Config) (now : ℤ) (historyId storeEpoch : Text) (before after : List Action)
        (hooked : Bool) (name : Text) (r : Record),
      (run step (World.created config now historyId storeEpoch) before).machine.readyStagingDir
        = some name →
      loadProgress
        (run step (World.created config now historyId storeEpoch) before).disk.staging name = some r →
      (step (run step (World.created config now historyId storeEpoch) before)
        (.publish (.published hooked))).disk.generations =
          r.generationId ::
            (run step (World.created config now historyId storeEpoch) before).disk.generations →
      (∀ a ∈ after, a.unforced = true ∧ a ≠ .crash) →
      ∀ dir target pc, (run step (World.created config now historyId storeEpoch)
        (before ++ .publish (.published hooked) :: after)).machine.pc ≠ .start dir target pc :=
    fun h => by
  have hstart : (run step (World.created changedConfig 5 [9] (ascii "e"))
      (converted ++ .publish (.published true) :: (sampleFacts 2 ++ [.cycle {}]))).machine.pc =
        .start [2, 1, 1, 2] (computeTarget changedConfig
          (run step (World.created changedConfig 5 [9] (ascii "e")) (converted ++ sampleFacts 2)).db
          (ascii "e") (hlc 10 1)) .clear := by
    decide +kernel
  obtain ⟨r, hr⟩ := Option.isSome_iff_exists.mp (show (loadProgress
    (run step (World.created changedConfig 5 [9] (ascii "e")) converted).disk.staging
      [2, 1, 1]).isSome = true by decide +kernel)
  obtain ⟨-, -, -, -, hid⟩ := loadProgress_eq hr
  have hpublished : (step (run step (World.created changedConfig 5 [9] (ascii "e")) converted)
      (.publish (.published true))).disk.generations = r.generationId ::
        (run step (World.created changedConfig 5 [9] (ascii "e")) converted).disk.generations := by
    rw [hid]
    decide +kernel
  have hunforced : ∀ a ∈ sampleFacts 2 ++ [.cycle {}], a.unforced = true ∧ a ≠ .crash := by
    intro a ha
    rcases List.mem_append.mp ha with ha | ha
    · simp only [sampleFacts, List.mem_cons, List.not_mem_nil, or_false] at ha
      rcases ha with rfl | rfl
      · exact ⟨rfl, nofun⟩
      · exact ⟨rfl, nofun⟩
    · obtain rfl := List.mem_singleton.mp ha
      exact ⟨rfl, nofun⟩
  have hnever := h changedConfig 5 [9] (ascii "e") converted (sampleFacts 2 ++ [.cycle {}]) true
    [2, 1, 1] r (by decide +kernel) hr hpublished hunforced
  rw [hstart] at hnever
  exact hnever _ _ _ rfl

end Staging
end SemanticMemory
