import SemanticMemory.Delta.Publish
import SemanticMemory.Delta.Serving

/-!
# What a publish commits can be switched to

`_build_staging_delta` (`daemon/publish.py`) writes the checkpoint of a staged generation from
scratch, from its watermark to a clock point the publisher has read.  `open_delta_checkpoint` and
the switch (`daemon/delta.py`) look at it when the active manifest already names it, so a checkpoint
they refuse would leave a published generation that nothing serves.

* `insertChanges_isSome`: inserts into an empty file meet no conflict, because the facts have every
  event and every retracted commit once;
* `maxRowSeq_eq`: the largest row number is the one the transaction ends at, `-1` for no rows;
* `openDeltaCheckpoint_staged`: the loader accepts the file, also after more facts;
* `publish_switchable`: the switch accepts it and serves the facts of the clock point.

`buildStagingDelta` of `Delta.Publish` reads the clock and the changes at once; here the two are
apart, so facts may arrive in between.
-/

namespace SemanticMemory
namespace Delta

open FactStore

/-- `_build_staging_delta`, to a clock point read before. -/
def buildStagingDeltaTo (env : BatchEnv) (staged : Staged) (upper : Hlc) (db : Db) :
    Option CheckpointFile :=
  match readFactsIdentity db with
  | none => none
  | some (factsEpoch, _) =>
    if staged.generation.storeEpoch ≠ factsEpoch then none
    else
      match if env.readOk then readFactChanges db staged.generation.sourceHlc upper else none with
      | none => none
      | some (events, retractions) =>
        if blocksBatch env events retractions then none
        else
          (writeBatch staged.generation staged.provider.representationId factsEpoch upper (-1)
            (mergedChanges events retractions) {}).map Prod.fst

/-! ## The inserts -/

variable {f : CheckpointFile} {merged : List Change}

/-- Inserts of new events and new commits meet no conflict. -/
theorem insertChanges_isSome (representationId : Text) {seq : ℤ}
    (hevents : ((f.deltaEvents.map fun r => r.event.eventId) ++
      (merged.filterMap Change.event?).map StoredEvent.eventId).Nodup)
    (hcommits : ((f.retractions.map fun r => r.tombstone.1) ++
      (merged.filterMap Change.tombstone?).map Prod.fst).Nodup)
    (hseqs : ∀ s ∈ f.rowSeqs, s ≤ seq) : (insertChanges representationId seq merged f).isSome := by
  induction merged generalizing seq f with
  | nil => rfl
  | cons change merged ih =>
    have hfree : ∀ s ∈ f.rowSeqs, s ≠ seq + 1 := fun s hs => by
      have := hseqs s hs
      omega
    rw [insertChanges]
    cases change with
    | event event =>
      change (_ ++ event.eventId :: _).Nodup at hevents
      change (_ ++ (merged.filterMap Change.tombstone?).map Prod.fst).Nodup at hcommits
      have hfresh : ∀ r ∈ f.deltaEvents, r.event.eventId ≠ event.eventId := fun r hr heq =>
        (List.nodup_append.mp hevents).2.2 _ (List.mem_map_of_mem hr) _ List.mem_cons_self heq
      have hone : insertChange representationId (seq + 1) f (.event event) =
          some { f with
            deltaEvents := f.deltaEvents ++ [⟨event.served, seq + 1, representationId⟩] } := by
        rw [insertChange, if_neg]
        simp only [List.any_eq_true, decide_eq_true_eq, not_exists, not_and, not_or]
        exact fun r hr => ⟨hfresh r hr, hfree _
          (List.mem_append_left _ (List.mem_map_of_mem hr))⟩
      rw [hone]
      refine ih ?_ hcommits fun s hs => ?_
      · rw [List.map_append, List.append_assoc]
        exact hevents
      · simp only [CheckpointFile.rowSeqs, List.map_append, List.mem_append, List.map_cons,
          List.map_nil, List.mem_singleton] at hs
        rcases hs with (hs | rfl) | hs
        · have := hseqs s (List.mem_append_left _ hs)
          omega
        · exact le_rfl
        · have := hseqs s (List.mem_append_right _ hs)
          omega
    | retraction tombstone =>
      change (_ ++ (merged.filterMap Change.event?).map StoredEvent.eventId).Nodup at hevents
      change (_ ++ tombstone.1 :: _).Nodup at hcommits
      have hfresh : ∀ r ∈ f.retractions, r.tombstone.1 ≠ tombstone.1 := fun r hr heq =>
        (List.nodup_append.mp hcommits).2.2 _ (List.mem_map_of_mem hr) _ List.mem_cons_self heq
      have hone : insertChange representationId (seq + 1) f (.retraction tombstone) =
          some { f with retractions := f.retractions ++ [⟨tombstone, seq + 1⟩] } := by
        rw [insertChange, if_neg]
        simp only [List.any_eq_true, decide_eq_true_eq, not_exists, not_and, not_or]
        exact fun r hr => ⟨hfresh r hr, hfree _
          (List.mem_append_right _ (List.mem_map_of_mem hr))⟩
      rw [hone]
      refine ih hevents ?_ fun s hs => ?_
      · rw [List.map_append, List.append_assoc]
        exact hcommits
      · simp only [CheckpointFile.rowSeqs, List.map_append, List.mem_append, List.map_cons,
          List.map_nil, List.mem_singleton] at hs
        rcases hs with hs | hs | rfl
        · have := hseqs s (List.mem_append_left _ hs)
          omega
        · have := hseqs s (List.mem_append_right _ hs)
          omega
        · exact le_rfl

/-- No row has a number above the last. -/
theorem insertChanges_le {representationId : Text} {seq seq' : ℤ} {f f' : CheckpointFile}
    (h : insertChanges representationId seq merged f = some (f', seq'))
    (hseqs : ∀ s ∈ f.rowSeqs, s ≤ seq) : ∀ s ∈ f'.rowSeqs, s ≤ seq' := by
  induction merged generalizing seq f with
  | nil =>
    obtain ⟨rfl, rfl⟩ := Prod.mk.inj (Option.some.inj h)
    exact hseqs
  | cons change merged ih =>
    rw [insertChanges] at h
    split at h
    · cases h
    · rename_i f₁ hone
      refine ih h fun s hs => ?_
      cases change with
      | event event =>
        rw [insertChange] at hone
        split at hone
        · cases hone
        · cases hone
          simp only [CheckpointFile.rowSeqs, List.map_append, List.mem_append, List.map_cons,
            List.map_nil, List.mem_singleton] at hs
          rcases hs with (hs | rfl) | hs
          · have := hseqs s (List.mem_append_left _ hs)
            omega
          · exact le_rfl
          · have := hseqs s (List.mem_append_right _ hs)
            omega
      | retraction tombstone =>
        rw [insertChange] at hone
        split at hone
        · cases hone
        · cases hone
          simp only [CheckpointFile.rowSeqs, List.map_append, List.mem_append, List.map_cons,
            List.map_nil, List.mem_singleton] at hs
          rcases hs with hs | hs | rfl
          · have := hseqs s (List.mem_append_left _ hs)
            omega
          · have := hseqs s (List.mem_append_right _ hs)
            omega
          · exact le_rfl

theorem foldl_max_le {l : List ℤ} {a b : ℤ} (ha : a ≤ b) (hl : ∀ x ∈ l, x ≤ b) :
    l.foldl max a ≤ b := by
  induction l generalizing a with
  | nil => exact ha
  | cons x l ih =>
    exact ih (max_le ha (hl x List.mem_cons_self)) fun y hy => hl y (List.mem_cons_of_mem _ hy)

/-- **The largest row number is the last one given out**, also when there is none. -/
theorem maxRowSeq_eq {representationId : Text} {seq : ℤ}
    (h : insertChanges representationId (-1) merged {} = some (f, seq)) : f.maxRowSeq = seq := by
  have hins := insertChanges_inserted h
  have hcount := hins.count
  refine le_antisymm (foldl_max_le (by omega) (insertChanges_le h (by
    simp [CheckpointFile.rowSeqs]))) ?_
  by_cases hmerged : merged = []
  · rw [hmerged] at h
    obtain ⟨rfl, rfl⟩ := Prod.mk.inj (Option.some.inj h)
    exact le_rfl
  · exact CheckpointFile.le_maxRowSeq (hins.last hmerged)

/-! ## The checkpoint of a staging -/

section Staging

variable {db : Db} {staged : Staged} {upper : Hlc} {events : List StoredEvent}
  {retractions : List Tombstone}

/-- The events of a batch, as the inserts meet them. -/
theorem perm_mergedChanges_events (events : List StoredEvent) (retractions : List Tombstone) :
    ((mergedChanges events retractions).filterMap Change.event?).Perm
      ((survivors events retractions).map StoredEvent.served) := by
  rw [mergedChanges]
  refine ((List.perm_insertionSort _ _).filterMap _).trans ?_
  simp [List.filterMap_append, List.filterMap_map, Function.comp_def, Change.event?]

theorem perm_mergedChanges_tombstones (events : List StoredEvent) (retractions : List Tombstone) :
    ((mergedChanges events retractions).filterMap Change.tombstone?).Perm retractions := by
  rw [mergedChanges]
  refine ((List.perm_insertionSort _ _).filterMap _).trans ?_
  simp [List.filterMap_append, List.filterMap_map, Function.comp_def, Change.tombstone?]

theorem nodup_eventIds_of_readFactChanges (h : Settled db) {lower : Hlc}
    (hread : readFactChanges db lower upper = some (events, retractions)) :
    (((mergedChanges events retractions).filterMap Change.event?).map
      StoredEvent.eventId).Nodup := by
  refine ((perm_mergedChanges_events events retractions).map _).nodup_iff.mpr ?_
  have hall : ((events.map StoredEvent.served).map StoredEvent.eventId).Nodup := by
    refine List.Nodup.map_on (fun x hx y hy hid => ?_) (nodup_of_readFactChanges h hread)
    obtain ⟨-, hevents, -⟩ := readFactChanges_eq_some hread
    exact h.eq_of_eventId (AsOf.mem_entriesIn.mp ((hevents x).mp hx)).1
      (AsOf.mem_entriesIn.mp ((hevents y).mp hy)).1 hid
  exact hall.sublist ((List.filter_sublist.map _).map _)

theorem nodup_commitIds_of_readFactChanges (hlinked : Linked db) {lower : Hlc}
    (hread : readFactChanges db lower upper = some (events, retractions)) :
    (((mergedChanges events retractions).filterMap Change.tombstone?).map Prod.fst).Nodup := by
  refine ((perm_mergedChanges_tombstones events retractions).map _).nodup_iff.mpr ?_
  unfold readFactChanges at hread
  split at hread
  · cases hread
  · split at hread
    · cases hread
    · obtain ⟨-, rfl⟩ := Prod.mk.inj (Option.some.inj hread)
      rw [((List.perm_insertionSort _ _).map _).nodup_iff, List.map_map]
      exact hlinked.retractionOnce.sublist (List.filter_sublist.map _)

structure StagedCheckpoint (db : Db) (staged : Staged) (upper : Hlc) (f : CheckpointFile) (seq : ℤ) :
    Prop where
  metaRows : f.metaRows = some (metaRow staged.generation staged.generation.storeEpoch upper seq)
  first : -1 ≤ seq
  maxRowSeq : f.maxRowSeq = seq
  blocked : f.blocked = false
  above : ∀ r ∈ f.deltaEvents, staged.generation.sourceHlc < r.event.hlc
  mirrors : Changes.Of db staged.generation.sourceHlc ⟨f.events, f.tombstones, upper, seq⟩

/-- **The transaction goes through, and mirrors the window**, empty or not. -/
theorem writeBatch_staged (hsettled : Settled db) (hlinked : Linked db)
    (hle : staged.generation.sourceHlc ≤ upper)
    (hread : readFactChanges db staged.generation.sourceHlc upper = some (events, retractions)) :
    ∃ f seq, writeBatch staged.generation staged.provider.representationId
        staged.generation.storeEpoch upper (-1) (mergedChanges events retractions) {} =
          some (f, seq) ∧ StagedCheckpoint db staged upper f seq := by
  obtain ⟨hupper, -, hretractions⟩ := readFactChanges_eq_some hread
  have hsome : (insertChanges staged.provider.representationId (-1)
      (mergedChanges events retractions) {}).isSome :=
    insertChanges_isSome staged.provider.representationId
      (by simpa using nodup_eventIds_of_readFactChanges hsettled hread)
      (by simpa using nodup_commitIds_of_readFactChanges hlinked hread)
      (by simp [CheckpointFile.rowSeqs])
  obtain ⟨⟨f₁, seq⟩, hins⟩ := Option.isSome_iff_exists.mp hsome
  have hinserted := insertChanges_inserted hins
  have hcount := hinserted.count
  have hwrite : writeBatch staged.generation staged.provider.representationId
      staged.generation.storeEpoch upper (-1) (mergedChanges events retractions) {} =
        some ({ f₁ with
          metaRows := some (metaRow staged.generation staged.generation.storeEpoch upper seq) },
          seq) := by
    rw [writeBatch, hins]
    rfl
  have hnew : ∀ x ∈ f₁.events, x ∈ (mergedChanges events retractions).filterMap Change.event? :=
    fun x hx => ((hinserted.events x).mp hx).resolve_left (by simp)
  have habove : ∀ x ∈ f₁.events, staged.generation.sourceHlc < x.hlc := fun x hx =>
    (AsOf.mem_entriesIn.mp ((mem_batch hread).mp (hnew x hx)).1).2.1
  refine ⟨_, seq, hwrite, rfl, by omega, ?_, hinserted.blocked, fun r hr => ?_, ?_⟩
  · have hmax : f₁.maxRowSeq = seq := maxRowSeq_eq hins
    exact hmax
  · exact habove r.event (CheckpointFile.mem_events.mpr ⟨r, hr, rfl⟩)
  · rcases hle.lt_or_eq with hlt | heq
    · -- the window has a width: one batch from an empty memory
      have hclock : staged.generation.sourceHlc ≤ db.clock := hle.trans hupper
      have hempty : Changes.Of db staged.generation.sourceHlc
          ⟨[], [], staged.generation.sourceHlc, -1⟩ := ⟨AsOf.Mirror.start shown _ _ _, hclock⟩
      obtain ⟨-, -, -, -, hmirror⟩ := writeBatch_of (CheckpointFile.of_empty db) hempty
        (level_base (CheckpointFile.of_empty db) hclock) (by simp) hread hlt hwrite
      exact hmirror habove
    · -- the window is empty: nothing lies strictly above its end
      have hnothing : ∀ x, x ∉ f₁.events := fun x hx => by
        have hin := AsOf.mem_entriesIn.mp ((mem_batch hread).mp (hnew x hx)).1
        exact absurd (hin.2.1.trans_le hin.2.2) (heq ▸ lt_irrefl _)
      have hnotomb : ∀ t, t ∉ f₁.tombstones := fun t ht => by
        have hin := AsOf.mem_tombsIn.mp ((hretractions t).mp (mem_mergedChanges_tombstone.mp
          (((hinserted.tombstones t).mp ht).resolve_left (by simp))))
        exact absurd (hin.2.1.trans_le hin.2.2) (heq ▸ lt_irrefl _)
      show Changes.Of db staged.generation.sourceHlc ⟨f₁.events, f₁.tombstones, upper, seq⟩
      rw [List.eq_nil_iff_forall_not_mem.mpr hnothing, List.eq_nil_iff_forall_not_mem.mpr hnotomb,
        ← heq]
      exact ⟨AsOf.Mirror.start shown _ _ _, hle.trans hupper⟩

/-- **The loader accepts the checkpoint of a staging**, also when more facts have come. -/
theorem openDeltaCheckpoint_staged {seq : ℤ} (h : StagedCheckpoint db staged upper f seq)
    (hrepresentation : staged.generation.representationId = staged.provider.representationId)
    {db' : Db} {clock : Hlc}
    (hid : readFactsIdentity db' = some (staged.generation.storeEpoch, clock))
    (hclock : upper ≤ clock) :
    openDeltaCheckpoint true f staged.generation staged.provider.representationId db' =
      some ⟨⟨f.events, f.tombstones, upper, seq⟩, f.vectors, false⟩ := by
  unfold openDeltaCheckpoint
  rw [h.metaRows, hid]
  have hchecks : true = true ∧ staged.generation.generationId = staged.generation.generationId ∧
      staged.generation.storeEpoch = staged.generation.storeEpoch ∧
      staged.generation.representationId = staged.provider.representationId ∧
      staged.generation.vectorDimension = staged.generation.vectorDimension ∧
      staged.generation.sourceHlc = staged.generation.sourceHlc ∧
      staged.generation.storeEpoch = staged.generation.storeEpoch ∧
      staged.generation.sourceHlc ≤ upper ∧ upper ≤ clock ∧ -1 ≤ seq ∧ f.maxRowSeq = seq ∧
      ∀ r ∈ f.deltaEvents, staged.generation.sourceHlc < r.event.hlc :=
    ⟨rfl, rfl, rfl, hrepresentation, rfl, rfl, rfl, h.mirrors.1.base_le, hclock, h.first, h.maxRowSeq,
      h.above⟩
  refine (if_pos hchecks).trans ?_
  rw [h.blocked]
  rfl

end Staging

theorem verifySnapshot_of_serves {db : Db} {snapshot : DeltaSnapshot} (h : snapshot.Serves db) :
    verifySnapshot db snapshot = true := by
  have hids : snapshot.activeEvents.map StoredEvent.eventId =
      (readActiveEvents db snapshot.consumed).map StoredEvent.eventId := by
    rw [h.1, List.map_map]
    rfl
  unfold verifySnapshot
  simp only [hids, Bool.and_eq_true, List.all_eq_true, decide_eq_true_eq]
  exact ⟨fun _ => id, fun _ => id⟩

/-- The worker may take up a switch. -/
def Machine.free (m : Machine) : Bool := !m.closed && !m.stopped && m.pc = .idle

/-- **What a publish commits can be switched to.**  Take three moments of a store's life: the one at
whose facts the generation was staged, the one at which its checkpoint is written, up to a clock
point that the clock has reached and that is not below the generation's watermark, and any later
one.  If no event of the window blocks the publish, then the checkpoint is written, the loader
accepts it for that generation, the projection of the base rows and the checkpoint has exactly the
events active at the clock point in the order of the fact readers, and a worker that takes up the
switch serves it. -/
theorem publish_switchable (now : ℤ) (historyId storeEpoch : Text)
    (before during later : List Call) (staged : Staged) (upper : Hlc) (env : BatchEnv)
    (identity : Text × Hlc)
    (hid : readFactsIdentity
      (Runs.run FactStore.step (.created now historyId storeEpoch) before).db = some identity)
    (hepoch : staged.generation.storeEpoch = identity.1)
    (hsource : staged.generation.sourceHlc ≤ identity.2)
    (hrows : staged.generation.rows = generationRows
      (Runs.run FactStore.step (.created now historyId storeEpoch) before).db
      staged.generation.sourceHlc)
    (hrepresentation : staged.generation.representationId = staged.provider.representationId)
    (hle : staged.generation.sourceHlc ≤ upper)
    (hupper : upper ≤ (Runs.run FactStore.step (.created now historyId storeEpoch)
      (before ++ during)).db.clock)
    (hreadOk : env.readOk = true)
    (hblocks : ∀ events retractions, readFactChanges
      (Runs.run FactStore.step (.created now historyId storeEpoch) (before ++ during)).db
      staged.generation.sourceHlc upper = some (events, retractions) →
        blocksBatch env events retractions = false) :
    let atPublish := (Runs.run FactStore.step (.created now historyId storeEpoch)
      (before ++ during)).db
    let atSwitch := (Runs.run FactStore.step (.created now historyId storeEpoch)
      (before ++ during ++ later)).db
    ∃ f loaded snapshot, buildStagingDeltaTo env staged upper atPublish = some f ∧
      openDeltaCheckpoint true f staged.generation staged.provider.representationId atSwitch =
        some loaded ∧
      buildSnapshot staged.generation staged.provider
        (readBaseCommitIds atSwitch staged.generation.sourceHlc) loaded.changes loaded.vectors =
          some snapshot ∧
      snapshot.consumed = upper ∧
      snapshot.activeEvents = (readActiveEvents atPublish upper).map StoredEvent.served ∧
      snapshot.activeEvents = (readActiveEvents atSwitch upper).map StoredEvent.served ∧
      verifySnapshot atSwitch snapshot = true ∧
      ∀ (w : World) (generation : GenerationEnv), w.db = atSwitch → w.machine.free = true →
        openDeclared generation w staged.generation.generationId = some staged.generation →
        w.checkpoints staged.generation.generationId = f →
        (performPublishSwitch { generation } ⟨staged.generation.generationId, staged.provider,
          staged.generation.storeEpoch⟩ w).machine.snapshot = some snapshot := by
  intro atPublish atSwitch
  have hworld : Inv (hlc now 0) (Runs.run FactStore.step (.created now historyId storeEpoch)
      (before ++ during)) := inv_run (inv_created now historyId storeEpoch) _
  have hworld' : Inv (hlc now 0) (Runs.run FactStore.step (.created now historyId storeEpoch)
      (before ++ during ++ later)) := inv_run (inv_created now historyId storeEpoch) _
  have hlinked : Linked atPublish := linked_run now historyId storeEpoch (before ++ during)
  have hsettled : Settled atPublish := settled_of_inv hworld hlinked
  have hsettled' : Settled atSwitch :=
    settled_of_inv hworld' (linked_run now historyId storeEpoch (before ++ during ++ later))
  have hext : Extends (Runs.run FactStore.step (.created now historyId storeEpoch) before).db
      atPublish := by
    have := extends_calls (Runs.run FactStore.step (.created now historyId storeEpoch) before) during
    rwa [← Runs.run_append] at this
  have hext' : Extends atPublish atSwitch := by
    have := extends_calls
      (Runs.run FactStore.step (.created now historyId storeEpoch) (before ++ during)) later
    rwa [← Runs.run_append] at this
  obtain ⟨epoch, clock⟩ := identity
  obtain ⟨-, rfl, -⟩ := readFactsIdentity_eq_some hid
  have hidPublish : readFactsIdentity atPublish =
      some (staged.generation.storeEpoch, atPublish.clock) := by
    have := readFactsIdentity_calls hid during
    rw [← Runs.run_append] at this
    rwa [hepoch]
  have hidSwitch : readFactsIdentity atSwitch =
      some (staged.generation.storeEpoch, atSwitch.clock) := by
    have := readFactsIdentity_calls hidPublish later
    rwa [← Runs.run_append] at this
  have hgeneration : staged.generation.Of atPublish :=
    Generation.Of.extend ⟨hrows, hsource⟩ hext
  obtain ⟨events, retractions, hread⟩ : ∃ events retractions,
      readFactChanges atPublish staged.generation.sourceHlc upper = some (events, retractions) := by
    unfold readFactChanges
    rw [hidPublish]
    exact ⟨_, _, if_neg (not_lt.mpr hupper)⟩
  obtain ⟨f, seq, hwrite, hf⟩ := writeBatch_staged hsettled hlinked hle hread
  have hbuild : buildStagingDeltaTo env staged upper atPublish = some f := by
    unfold buildStagingDeltaTo
    rw [hidPublish]
    simp only [ne_eq, not_true_eq_false, if_false, hreadOk, if_true, hread,
      hblocks events retractions hread]
    rw [hwrite]
    rfl
  have hopen := openDeltaCheckpoint_staged hf hrepresentation hidSwitch (hupper.trans hext'.clock)
  obtain ⟨snapshot, hsnapshot, hserves, hconsumed, -⟩ := buildSnapshot_serves hsettled'
    (hgeneration.extend hext') (hf.mirrors.extend hext') staged.provider f.vectors
  have hsame : (readActiveEvents atSwitch upper).map StoredEvent.served =
      (readActiveEvents atPublish upper).map StoredEvent.served := by
    rw [served_readActiveEvents, served_readActiveEvents, hext'.activeAsOf hupper]
  have hconsumed : snapshot.consumed = upper := hconsumed
  have hactive : snapshot.activeEvents =
      (readActiveEvents atSwitch upper).map StoredEvent.served := by
    rw [← hconsumed]
    exact hserves.1
  have hverify := verifySnapshot_of_serves hserves
  refine ⟨f, _, snapshot, hbuild, hopen, hsnapshot, hconsumed, hactive.trans hsame, hactive, hverify,
    fun w generation hdb hfree hdeclared hcheckpoint => ?_⟩
  have hbusy : ¬ (w.machine.closed = true ∨ w.machine.stopped = true ∨ w.machine.pc ≠ .idle) := by
    simp only [Machine.free, Bool.and_eq_true, Bool.not_eq_true', decide_eq_true_eq] at hfree
    rw [hfree.1.1, hfree.1.2, hfree.2]
    simp
  unfold performPublishSwitch
  simp only
  rw [if_neg hbusy, hdb, hidSwitch, hdeclared]
  simp only [ne_eq, not_true_eq_false, if_false]
  rw [hcheckpoint, hopen]
  simp only
  rw [hsnapshot]
  simp only
  rw [if_pos hverify]
  rfl

/-! ### A run -/

def sampleCommit (id commitId : Byte) (at_ : ℤ) : Call :=
  .persistBatch 0 at_
    [{ eventId := [id], schemaId := [2], canonicalSegmentInput := [3], category := [4],
       precedingText := [], finalSelectionText := [5], confirmationSource := [6], sessionId := [7] }]
    (some [commitId]) { nowMs := fun _ => at_ }

def sampleRetraction (commitId : Byte) (at_ : ℤ) : Call :=
  .appendRetraction 0 [commitId] at_ { nowMs := at_, randomUuid := [commitId] }

def sampleBase : List Call := [.openStore 0 {}, sampleCommit 1 31 10, sampleCommit 2 32 20]

/-- A window with a commit that stays, one that it retracts itself, and a retraction of the base. -/
def sampleWindow : List Call :=
  [sampleCommit 3 33 30, sampleCommit 4 34 40, sampleRetraction 34 50, sampleRetraction 31 60]

/-- The generation of the two base commits. -/
def sampleStaged : Staged where
  generation :=
    { generationId := [1], storeEpoch := [14], representationId := [9], vectorDimension := 1
      sourceHlc := hlc 20 0
      rows := generationRows (Runs.run FactStore.step (.created 5 [] [14]) sampleBase).db (hlc 20 0) }
  provider := ⟨[9], 1, false⟩

theorem publish_switchable_sample :
    let atPublish := (Runs.run FactStore.step (.created 5 [] [14]) (sampleBase ++ sampleWindow)).db
    let atSwitch := (Runs.run FactStore.step (.created 5 [] [14])
      (sampleBase ++ sampleWindow ++ [sampleCommit 5 35 70])).db
    ∃ f loaded snapshot, buildStagingDeltaTo {} sampleStaged (hlc 60 0) atPublish = some f ∧
      openDeltaCheckpoint true f sampleStaged.generation sampleStaged.provider.representationId
        atSwitch = some loaded ∧
      buildSnapshot sampleStaged.generation sampleStaged.provider
        (readBaseCommitIds atSwitch sampleStaged.generation.sourceHlc) loaded.changes
          loaded.vectors = some snapshot ∧
      snapshot.consumed = hlc 60 0 ∧
      snapshot.activeEvents = (readActiveEvents atPublish (hlc 60 0)).map StoredEvent.served ∧
      snapshot.activeEvents = (readActiveEvents atSwitch (hlc 60 0)).map StoredEvent.served ∧
      verifySnapshot atSwitch snapshot = true ∧
      ∀ (w : World) (generation : GenerationEnv), w.db = atSwitch → w.machine.free = true →
        openDeclared generation w sampleStaged.generation.generationId =
          some sampleStaged.generation →
        w.checkpoints sampleStaged.generation.generationId = f →
        (performPublishSwitch { generation } ⟨sampleStaged.generation.generationId,
          sampleStaged.provider, sampleStaged.generation.storeEpoch⟩ w).machine.snapshot =
            some snapshot :=
  publish_switchable 5 [] [14] sampleBase sampleWindow [sampleCommit 5 35 70] sampleStaged
    (hlc 60 0) {} ([14], hlc 20 0) (by decide) rfl le_rfl rfl rfl (by decide) (by decide) rfl
    fun events retractions h => by
      have hread : (readFactChanges (Runs.run FactStore.step (.created 5 [] [14])
          (sampleBase ++ sampleWindow)).db (hlc 20 0) (hlc 60 0)).map
            (fun changes => blocksBatch {} changes.1 changes.2) = some false := by decide
      rw [show sampleStaged.generation.sourceHlc = hlc 20 0 from rfl] at h
      rw [h] at hread
      exact Option.some.inj hread

end Delta
end SemanticMemory
