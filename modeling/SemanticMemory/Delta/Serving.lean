import SemanticMemory.Delta.Machine

/-!
# Delta serving equals the facts

Every snapshot that passes the query gate is what the fact readers see at its watermark, and the
watermark covers the clock as it was at the start of the call (`serves_facts`).

The memory, the checkpoint file and the published snapshot advance at different moments, and a
restart may reload the file in any of these states.  The invariant therefore has three parts.

* `CheckpointFile.Of`: if the loader's arithmetic accepts the file, its rows and tombstones are a
  mirror of the facts up to the watermark it records.  A file may hold more than that.
* `Level`: the file holds all that the memory holds, and if the memory's sequence number is the
  file's largest, then the file is a mirror up to the memory's watermark too --- so recording a
  block, which writes the memory's watermark into the file, is safe.
* `MachineOk`: the memory is a mirror, and the snapshot serves the facts.

`advance` is the step that matters: inserting a batch read from the facts takes a mirror, and a file
that is ahead of it, to the upper end of the batch.
-/

namespace SemanticMemory
namespace Delta

open FactStore

/-! ## One batch -/

variable {events : List StoredEvent} {retractions : List Tombstone} {db : Db}

theorem nodup_of_readFactChanges (h : Settled db) {lower upper : Hlc}
    (hread : readFactChanges db lower upper = some (events, retractions)) :
    (events.map StoredEvent.served).Nodup := by
  unfold readFactChanges at hread
  split at hread
  · cases hread
  · split at hread
    · cases hread
    · obtain ⟨rfl, -⟩ := Prod.mk.inj (Option.some.inj hread)
      rw [((perm_sortEvents _).map _).nodup_iff, List.map_map]
      exact h.nodup_seen.sublist (List.filter_sublist.map _)

/-- What the changes of a batch are, in terms of the tables. -/
theorem mem_batch {lower upper : Hlc}
    (hread : readFactChanges db lower upper = some (events, retractions)) {x : StoredEvent} :
    x ∈ (mergedChanges events retractions).filterMap Change.event? ↔
      x ∈ AsOf.entriesIn shown (seen db) lower upper ∧
        ∀ t ∈ AsOf.tombsIn shown (seenRetractions db) lower upper, t.1 ≠ x.commitId := by
  obtain ⟨-, hevents, hretractions⟩ := readFactChanges_eq_some hread
  rw [mem_mergedChanges_event, ← hevents]
  simp only [survivors, List.mem_map, List.mem_filter, decide_eq_true_eq, not_exists, not_and]
  constructor
  · rintro ⟨y, ⟨hy, hnot⟩, rfl⟩
    exact ⟨⟨y, hy, rfl⟩, fun t ht => hnot t ((hretractions t).mpr ht)⟩
  · rintro ⟨⟨y, hy, rfl⟩, hnot⟩
    exact ⟨y, ⟨hy, fun t ht => hnot t ((hretractions t).mp ht)⟩, rfl⟩

/-- The rows and tombstones of a batch added to whatever holds the mirror so far. -/
structure Adds (merged : List Change) (held gone : List StoredEvent × List Tombstone) : Prop where
  events : ∀ x, x ∈ gone.1 ↔ x ∈ held.1 ∨ x ∈ merged.filterMap Change.event?
  tombstones : ∀ t, t ∈ gone.2 ↔ t ∈ held.2 ∨ t ∈ merged.filterMap Change.tombstone?

variable {changes : Changes}

/-- **A batch read from the facts takes a mirror to its upper end**, also in a store that holds more
shown facts than the mirror, as long as they lie in the range. -/
theorem advance {h0 upper : Hlc} (hc : changes.Of db h0)
    (hread : readFactChanges db changes.consumed upper = some (events, retractions))
    (hlt : changes.consumed < upper) {held held' : List StoredEvent} {gone gone' : List Tombstone}
    (hadds : Adds (mergedChanges events retractions) (held, gone) (held', gone'))
    (hheld : ∀ x ∈ changes.events, x ∈ held) (hgone : ∀ t ∈ changes.retractions, t ∈ gone)
    (hshown : ∀ x ∈ held, x ∈ seen db ∧ x.hlc ≤ upper)
    (htombs : ∀ t ∈ gone, t ∈ seenRetractions db ∧ t.2 ≤ upper) (habove : ∀ x ∈ held', h0 < x.hlc)
    (hnodup : held'.Nodup) (seq : ℤ) : Changes.Of db h0 ⟨held', gone', upper, seq⟩ := by
  obtain ⟨hupper, -, hretractions⟩ := readFactChanges_eq_some hread
  refine ⟨hc.1.advance hlt.le hnodup (fun x hx => (hadds.events x).mpr (Or.inl (hheld x hx)))
    (fun t ht => (hadds.tombstones t).mpr (Or.inl (hgone t ht))) (fun x hx => ?_)
    (fun t ht => ?_) (fun x hx hnot => ?_) (fun t ht => ?_), hupper⟩
  · have habove := habove x hx
    rcases (hadds.events x).mp hx with hx | hx
    · exact AsOf.mem_entriesIn.mpr ⟨(hshown x hx).1, habove, (hshown x hx).2⟩
    · have hin := AsOf.mem_entriesIn.mp ((mem_batch hread).mp hx).1
      exact AsOf.mem_entriesIn.mpr ⟨hin.1, habove, hin.2.2⟩
  · rcases (hadds.tombstones t).mp ht with ht | ht
    · exact htombs t ht
    · have hin := AsOf.mem_tombsIn.mp
        ((hretractions t).mp (mem_mergedChanges_tombstone.mp ht))
      exact ⟨hin.1, hin.2.2⟩
  · exact (hadds.events x).mpr (Or.inr ((mem_batch hread).mpr ⟨hx, hnot⟩))
  · exact (hadds.tombstones t).mpr
      (Or.inr (mem_mergedChanges_tombstone.mpr ((hretractions t).mpr ht)))

/-- The in-memory mirror after a batch. -/
theorem mirror_advance (h : Settled db) {h0 upper : Hlc} (hc : changes.Of db h0)
    (hread : readFactChanges db changes.consumed upper = some (events, retractions))
    (hlt : changes.consumed < upper) (seq : ℤ) :
    Changes.Of db h0
      ⟨changes.events ++ (mergedChanges events retractions).filterMap Change.event?,
        changes.retractions ++ (mergedChanges events retractions).filterMap Change.tombstone?,
        upper, seq⟩ := by
  have hin : ∀ x ∈ changes.events, x ∈ seen db ∧ h0 < x.hlc ∧ x.hlc ≤ changes.consumed :=
    fun x hx => AsOf.mem_entriesIn.mp (hc.1.sound x hx)
  have hnew : ∀ x ∈ (mergedChanges events retractions).filterMap Change.event?,
      changes.consumed < x.hlc := fun x hx =>
    (AsOf.mem_entriesIn.mp ((mem_batch hread).mp hx).1).2.1
  refine advance hc hread hlt ⟨fun x => List.mem_append, fun t => List.mem_append⟩
    (fun x hx => hx) (fun t ht => ht) (fun x hx => ⟨(hin x hx).1, (hin x hx).2.2.trans hlt.le⟩)
    (fun t ht => ⟨(hc.1.tombSound t ht).1, (hc.1.tombSound t ht).2.trans hlt.le⟩)
    (fun x hx => ?_) (List.nodup_append.mpr ⟨hc.1.nodup, ?_, ?_⟩) seq
  · rcases List.mem_append.mp hx with hx | hx
    · exact (hin x hx).2.1
    · exact hc.1.base_le.trans_lt (hnew x hx)
  · have hperm : ((mergedChanges events retractions).filterMap Change.event?).Perm
        ((survivors events retractions).map StoredEvent.served) := by
      rw [mergedChanges]
      refine ((List.perm_insertionSort _ _).filterMap _).trans ?_
      simp [List.filterMap_append, List.filterMap_map, Function.comp_def, Change.event?]
    rw [hperm.nodup_iff]
    exact (nodup_of_readFactChanges h hread).sublist (List.filter_sublist.map _)
  · rintro x hx y hy rfl
    exact absurd (hin x hx).2.2 (not_le.mpr (hnew x hy))

/-! ## The checkpoint file -/

/-- What every checkpoint file on disk holds. -/
structure CheckpointFile.Of (db : Db) (f : CheckpointFile) : Prop where
  event_mem : ∀ x ∈ f.events, x ∈ seen db
  tombstone_mem : ∀ t ∈ f.tombstones, t ∈ seenRetractions db
  eventIds : (f.deltaEvents.map fun r => r.event.eventId).Nodup
  rowSeqs : ∀ s ∈ f.rowSeqs, 0 ≤ s
  faithful : ∀ row, f.metaRows = some row → f.maxRowSeq = row.changeSeq →
    (∀ x ∈ f.events, row.baseHlc < x.hlc) →
    Changes.Of db row.baseHlc ⟨f.events, f.tombstones, row.consumed, row.changeSeq⟩

theorem CheckpointFile.of_empty (db : Db) : CheckpointFile.Of db {} where
  event_mem := by simp
  tombstone_mem := by simp
  eventIds := List.nodup_nil
  rowSeqs := by simp [CheckpointFile.rowSeqs]
  faithful := by simp

variable {f : CheckpointFile}

theorem CheckpointFile.Of.extend {db db' : Db} (h : f.Of db) (hext : Extends db db') :
    f.Of db' where
  event_mem x hx := hext.mem_seen (h.event_mem x hx)
  tombstone_mem t ht := hext.mem_seenRetractions (h.tombstone_mem t ht)
  eventIds := h.eventIds
  rowSeqs := h.rowSeqs
  faithful row hrow hseq habove := (h.faithful row hrow hseq habove).extend hext

/-- The block mark alone says nothing about the rows. -/
theorem CheckpointFile.Of.setBlocked (h : f.Of db) (b : Bool) :
    CheckpointFile.Of db { f with blocked := b } :=
  ⟨h.event_mem, h.tombstone_mem, h.eventIds, h.rowSeqs, h.faithful⟩

/-- What ties the file to the memory of the running worker. -/
structure Level (db : Db) (h0 : Hlc) (changes : Changes) (f : CheckpointFile) : Prop where
  held : ∀ x ∈ changes.events, x ∈ f.events
  gone : ∀ t ∈ changes.retractions, t ∈ f.tombstones
  seq : -1 ≤ changes.changeSeq
  exact : f.maxRowSeq = changes.changeSeq → (∀ x ∈ f.events, h0 < x.hlc) →
    Changes.Of db h0 ⟨f.events, f.tombstones, changes.consumed, changes.changeSeq⟩

theorem Level.extend {db db' : Db} {h0 : Hlc} (h : Level db h0 changes f) (hext : Extends db db') :
    Level db' h0 changes f :=
  ⟨h.held, h.gone, h.seq, fun hseq habove => (h.exact hseq habove).extend hext⟩

/-- An empty memory is level with any file: the file is empty too, or its numbers are larger. -/
theorem level_base (hf : f.Of db) {h0 : Hlc} (hle : h0 ≤ db.clock) :
    Level db h0 ⟨[], [], h0, -1⟩ f where
  held := by simp
  gone := by simp
  seq := le_refl _
  exact hseq _ := by
    have hnone : f.rowSeqs = [] := by
      refine List.eq_nil_iff_forall_not_mem.mpr fun s hs => ?_
      have hle : s ≤ -1 := (CheckpointFile.le_maxRowSeq hs).trans hseq.le
      have := hf.rowSeqs s hs
      omega
    obtain ⟨he, ht⟩ := List.append_eq_nil_iff.mp hnone
    have hevents : f.events = [] := by
      rw [CheckpointFile.events, List.map_eq_nil_iff.mp he]
      rfl
    have htombs : f.tombstones = [] := by
      rw [CheckpointFile.tombstones, List.map_eq_nil_iff.mp ht]
      rfl
    rw [hevents, htombs]
    exact ⟨AsOf.Mirror.start shown _ _ h0, hle⟩

variable {generation : Generation}

/-- **Recording a block keeps the file faithful**: it writes the memory's watermark over rows that
either are level with it or carry a larger number. -/
theorem CheckpointFile.Of.recordBlocked (hf : f.Of db)
    (hlevel : Level db generation.sourceHlc changes f) :
    (recordBlocked generation changes.consumed changes.changeSeq f).Of db where
  event_mem := hf.event_mem
  tombstone_mem := hf.tombstone_mem
  eventIds := hf.eventIds
  rowSeqs := hf.rowSeqs
  faithful row hrow hseq habove := by
    obtain rfl := Option.some.inj hrow
    exact hlevel.exact hseq habove

/-- What a batch does to the file, whether or not the worker gets to know it. -/
theorem writeBatch_of {f f' : CheckpointFile} (hf : f.Of db) (hc : changes.Of db generation.sourceHlc)
    (hlevel : Level db generation.sourceHlc changes f) {upper : Hlc}
    (hbound : (∀ x ∈ f.events, x.hlc ≤ upper) ∧ ∀ t ∈ f.tombstones, t.2 ≤ upper)
    (hread : readFactChanges db changes.consumed upper = some (events, retractions))
    (hlt : changes.consumed < upper) {representationId factsEpoch : Text} {seq : ℤ}
    (hwrite : writeBatch generation representationId factsEpoch upper changes.changeSeq
      (mergedChanges events retractions) f = some (f', seq)) :
    ∃ f₁, Inserted changes.changeSeq (mergedChanges events retractions) f f₁ seq ∧
      f' = { f₁ with metaRows := some (metaRow generation factsEpoch upper seq) } ∧ f'.Of db ∧
      ((∀ x ∈ f'.events, generation.sourceHlc < x.hlc) →
        Changes.Of db generation.sourceHlc ⟨f'.events, f'.tombstones, upper, seq⟩) := by
  obtain ⟨⟨f₁, seq₁⟩, hins, heq⟩ := Option.map_eq_some_iff.mp hwrite
  obtain ⟨rfl, rfl⟩ := Prod.mk.inj heq
  replace hins := insertChanges_inserted hins
  have hadds : Adds (mergedChanges events retractions) (f.events, f.tombstones)
      (f₁.events, f₁.tombstones) := ⟨hins.events, hins.tombstones⟩
  have hnodup : f₁.events.Nodup := by
    refine List.Nodup.of_map StoredEvent.eventId ?_
    rw [CheckpointFile.events, List.map_map]
    exact ((List.perm_insertionSort _ _).map _).nodup_iff.mpr (hins.eventIds hf.eventIds)
  have hmirror : (∀ x ∈ f₁.events, generation.sourceHlc < x.hlc) →
      Changes.Of db generation.sourceHlc ⟨f₁.events, f₁.tombstones, upper, seq₁⟩ := fun habove =>
    advance hc hread hlt hadds hlevel.held hlevel.gone
      (fun x hx => ⟨hf.event_mem x hx, hbound.1 x hx⟩)
      (fun t ht => ⟨hf.tombstone_mem t ht, hbound.2 t ht⟩) habove hnodup seq₁
  obtain ⟨-, -, hretractions⟩ := readFactChanges_eq_some hread
  refine ⟨f₁, hins, rfl, ⟨fun x hx => ?_, fun t ht => ?_, hins.eventIds hf.eventIds,
    fun s hs => ?_, fun row hrow _ habove => ?_⟩, hmirror⟩
  · rcases (hins.events x).mp hx with hx | hx
    · exact hf.event_mem x hx
    · exact (AsOf.mem_entriesIn.mp ((mem_batch hread).mp hx).1).1
  · rcases (hins.tombstones t).mp ht with ht | ht
    · exact hf.tombstone_mem t ht
    · exact (AsOf.mem_tombsIn.mp ((hretractions t).mp (mem_mergedChanges_tombstone.mp ht))).1
  · rcases hins.rowSeqs s hs with hs | hs
    · exact hf.rowSeqs s hs
    · have := hlevel.seq
      omega
  · obtain rfl := Option.some.inj hrow
    exact hmirror habove

/-! ## The invariant -/

/-- The memory of the running process, next to its checkpoint file. -/
structure MachineOk (db : Db) (f : CheckpointFile) (m : Machine) : Prop where
  generation : ∀ g, m.generation = some g →
    g.Of db ∧ m.baseCommits = readBaseCommitIds db g.sourceHlc
  mirror : ∀ c, m.deltaConsumed = some c → ∃ g, m.generation = some g ∧
    (m.mirror c).Of db g.sourceHlc ∧ Level db g.sourceHlc (m.mirror c) f
  snapshot : ∀ s, m.snapshot = some s → s.Serves db
  batch : ∀ e u, m.pc = .batch e u →
    u ≤ db.clock ∧ (∀ x ∈ f.events, x.hlc ≤ u) ∧ ∀ t ∈ f.tombstones, t.2 ≤ u

/-- The facts and everything on disk. -/
structure DiskOk (init : Hlc) (w : World) : Prop where
  inv : Inv init w.facts
  linked : Linked w.db
  generations : ∀ g ∈ w.generations, g.Of w.db
  files : ∀ path, (w.checkpoints path).Of w.db

/-- The invariant of every run. -/
structure WorldOk (init : Hlc) (w : World) : Prop where
  disk : DiskOk init w
  machine : MachineOk w.db w.checkpoint w.machine

variable {init : Hlc} {w : World}

theorem DiskOk.settled (h : DiskOk init w) : Settled w.db := settled_of_inv h.inv h.linked

theorem DiskOk.setMachine (h : DiskOk init w) (m : Machine) : DiskOk init (w.setMachine m) :=
  ⟨h.inv, h.linked, h.generations, h.files⟩

theorem DiskOk.setCheckpoint (h : DiskOk init w) (hf : f.Of w.db) :
    DiskOk init (w.setCheckpoint f) where
  inv := h.inv
  linked := h.linked
  generations := h.generations
  files path := by
    show (Function.update w.checkpoints w.machine.deltaPath f path).Of w.db
    by_cases hp : path = w.machine.deltaPath
    · rw [hp, Function.update_self]
      exact hf
    · rw [Function.update_of_ne hp]
      exact h.files path

theorem DiskOk.dropCheckpoint (h : DiskOk init w) (ok : Bool) :
    DiskOk init (w.dropCheckpoint ok) := by
  unfold World.dropCheckpoint
  split
  · exact h.setCheckpoint (CheckpointFile.of_empty _)
  · exact h

@[simp] theorem setCheckpoint_checkpoint (w : World) (f : CheckpointFile) :
    (w.setCheckpoint f).checkpoint = f :=
  Function.update_self _ _ _

variable {m : Machine}

/-- A memory over a generation and a mirror that is level with the file. -/
theorem machineOk_setMirror {g : Generation} (hgen : m.generation = some g) (hg : g.Of db)
    (hcommits : m.baseCommits = readBaseCommitIds db g.sourceHlc) (hc : changes.Of db g.sourceHlc)
    (hlevel : Level db g.sourceHlc changes f) (hsnapshot : ∀ s, m.snapshot = some s → s.Serves db)
    (hpc : ∀ e u, m.pc ≠ .batch e u) (vectors : List (Text × Text)) :
    MachineOk db f (m.setMirror changes vectors) where
  generation g' hg' := by
    obtain rfl := Option.some.inj (hgen.symm.trans hg')
    exact ⟨hg, hcommits⟩
  mirror c hcons := by
    obtain rfl := Option.some.inj hcons
    exact ⟨g, hgen, hc, hlevel⟩
  snapshot := hsnapshot
  batch e u hpc' := absurd hpc' (hpc e u)

/-- A process that has nothing yet. -/
theorem machineOk_bare (hgen : m.generation = none) (hcons : m.deltaConsumed = none)
    (hsnap : m.snapshot = none) (hpc : m.pc = .idle) : MachineOk db f m where
  generation g hg := by simp [hgen] at hg
  mirror c hc := by simp [hcons] at hc
  snapshot s hs := by simp [hsnap] at hs
  batch e u he := by simp [hpc] at he

theorem MachineOk.project_serves (h : MachineOk db f m) (hs : Settled db) {s : DeltaSnapshot}
    (hproject : m.project = some s) : s.Serves db := by
  unfold Machine.project at hproject
  split at hproject
  · rename_i g c hg hc
    obtain ⟨g', hg', hchanges, -⟩ := h.mirror c hc
    obtain rfl := Option.some.inj (hg'.symm.trans hg)
    obtain ⟨hgof, hcommits⟩ := h.generation g' hg
    obtain ⟨s', hs', hserves, -⟩ := buildSnapshot_serves hs hgof hchanges m.provider m.deltaVectors
    rw [hcommits, hs'] at hproject
    exact Option.some.inj hproject ▸ hserves
  · cases hproject

/-- Changing how a machine answers, and where its worker stands, changes no data. -/
theorem MachineOk.congr {m m' : Machine} (h : MachineOk db f m)
    (hgen : m'.generation = m.generation) (hcommits : m'.baseCommits = m.baseCommits)
    (hevents : m'.deltaEvents = m.deltaEvents) (hretr : m'.retractions = m.retractions)
    (hcons : m'.deltaConsumed = m.deltaConsumed) (hseq : m'.deltaChangeSeq = m.deltaChangeSeq)
    (hsnap : ∀ s, m'.snapshot = some s → s.Serves db)
    (hpc : ∀ e u, m'.pc = .batch e u → m.pc = .batch e u) : MachineOk db f m' where
  generation g hg := by
    rw [hcommits]
    exact h.generation g (hgen ▸ hg)
  mirror c hc := by
    have hmirror : m'.mirror c = m.mirror c := by
      simp only [Machine.mirror, hevents, hretr, hseq]
    rw [hgen, hmirror]
    exact h.mirror c (hcons ▸ hc)
  snapshot := hsnap
  batch e u he := h.batch e u (hpc e u he)

theorem WorldOk.goto (h : WorldOk init w) {pc : Pc} (hpc : ∀ e u, pc ≠ .batch e u) :
    WorldOk init (w.goto pc) where
  disk := h.disk.setMachine _
  machine := h.machine.congr rfl rfl rfl rfl rfl rfl h.machine.snapshot
    fun e u he => absurd he (hpc e u)

/-! ## Time -/

theorem WorldOk.facts (h : WorldOk init w) (call : FactStore.Call) :
    WorldOk init { w with facts := FactStore.step w.facts call } := by
  have hext : Extends w.db (FactStore.step w.facts call).db := extends_step w.facts call
  refine ⟨⟨(effect_step w.facts call).inv h.disk.inv,
    (effect_step w.facts call).linked h.disk.inv h.disk.linked,
    fun g hg => (h.disk.generations g hg).extend hext,
    fun path => (h.disk.files path).extend hext⟩, ⟨fun g hg => ?_, fun c hc => ?_, fun s hs => ?_,
    fun e u he => ?_⟩⟩
  · obtain ⟨hof, hcommits⟩ := h.machine.generation g hg
    exact ⟨hof.extend hext, hcommits.trans (hext.readBaseCommitIds hof.le_clock).symm⟩
  · obtain ⟨g, hg, hof, hlevel⟩ := h.machine.mirror c hc
    exact ⟨g, hg, hof.extend hext, hlevel.extend hext⟩
  · exact (h.machine.snapshot s hs).extend hext
  · obtain ⟨hu, hbound⟩ := h.machine.batch e u he
    exact ⟨hu.trans hext.clock, hbound⟩

/-! ## Startup and rebuild -/

/-- What opening or building a generation leaves alone, and what it returns. -/
structure Opened (w w' : World) (result : Except BuildEnd Generation) : Prop where
  facts : w'.facts = w.facts
  checkpoints : w'.checkpoints = w.checkpoints
  machine : w'.machine = w.machine
  generations : ∀ g ∈ w'.generations, g.Of w.db
  result : ∀ g, result = .ok g → g.Of w.db

theorem buildGeneration_opened (h : DiskOk init w) (env : GenerationEnv) (provider : Provider) :
    Opened w (buildGeneration env provider w).1 (buildGeneration env provider w).2 := by
  unfold buildGeneration
  split
  · exact ⟨rfl, rfl, rfl, h.generations, nofun⟩
  · rename_i storeEpoch sourceHlc hid
    split
    · exact ⟨rfl, rfl, rfl, h.generations, nofun⟩
    · split
      · exact ⟨rfl, rfl, rfl, h.generations, nofun⟩
      · split
        · exact ⟨rfl, rfl, rfl, h.generations, nofun⟩
        · have hclock : sourceHlc = w.db.clock := by
            unfold readFactsIdentity at hid
            split at hid
            · cases hid
            · exact (Prod.mk.inj (Option.some.inj hid)).2.symm
          have hnew : Generation.Of w.db
              { generationId := env.newId, storeEpoch, sourceHlc
                representationId := provider.representationId
                vectorDimension := provider.vectorDimension
                rows := generationRows w.db sourceHlc } := ⟨rfl, hclock.le⟩
          refine ⟨rfl, rfl, rfl, fun g hg => ?_, fun g hg => Except.ok.inj hg ▸ hnew⟩
          rcases List.mem_append.mp hg with hg | hg
          · exact h.generations g hg
          · exact List.mem_singleton.mp hg ▸ hnew

theorem openOrBuild_opened (h : DiskOk init w) (env : GenerationEnv) (provider : Provider)
    (declaredGenerationId : Text) :
    Opened w (openOrBuild env provider declaredGenerationId w).1
      (openOrBuild env provider declaredGenerationId w).2 := by
  unfold openOrBuild
  split
  · rename_i g factsEpoch factsMax hopen hid
    split
    · refine ⟨rfl, rfl, rfl, h.generations, fun g' hg' => ?_⟩
      obtain rfl := Except.ok.inj hg'
      unfold openDeclared at hopen
      split at hopen
      · exact h.generations g (List.mem_of_find?_eq_some hopen)
      · cases hopen
    · exact buildGeneration_opened h env provider
  · exact ⟨rfl, rfl, rfl, h.generations, nofun⟩
  · exact buildGeneration_opened h env provider

theorem Opened.disk {w' : World} {result : Except BuildEnd Generation} (ho : Opened w w' result)
    (h : DiskOk init w) : DiskOk init w' where
  inv := ho.facts ▸ h.inv
  linked := by
    rw [World.db, ho.facts]
    exact h.linked
  generations := by
    rw [World.db, ho.facts]
    exact ho.generations
  files := by
    rw [World.db, ho.facts, ho.checkpoints]
    exact h.files

theorem MachineOk.publishOrClose (h : MachineOk db f m) (hs : Settled db) :
    MachineOk db f m.publishOrClose := by
  unfold Machine.publishOrClose
  split
  · rename_i s hproject
    exact h.congr rfl rfl rfl rfl rfl rfl
      (fun s' hs' => Option.some.inj hs' ▸ h.project_serves hs hproject) fun e u he => he
  · exact h.congr rfl rfl rfl rfl rfl rfl h.snapshot fun e u he => he

theorem publishOrClose_deltaPath (m : Machine) : m.publishOrClose.deltaPath = m.deltaPath := by
  unfold Machine.publishOrClose
  split <;> rfl

theorem worldOk_setMachine (h : DiskOk init w) (hm : MachineOk w.db (w.checkpoints m.deltaPath) m) :
    WorldOk init (w.setMachine m) :=
  ⟨h.setMachine m, hm⟩

/-- The end of the constructor. -/
theorem worldOk_loadCheckpoint (h : DiskOk init w) (env : StartEnv) (hgen : generation.Of w.db)
    (m : Machine) (hsnap : m.snapshot = none) (hpc : m.pc = .idle) :
    WorldOk init (loadCheckpoint env generation m w) := by
  unfold loadCheckpoint
  set m' : Machine :=
    { m with
      generation := some generation
      baseCommits := readBaseCommitIds w.db generation.sourceHlc } with hm'
  have hset : ∀ (f : CheckpointFile) (changes : Changes) (vectors : List (Text × Text)),
      changes.Of w.db generation.sourceHlc → Level w.db generation.sourceHlc changes f →
      MachineOk w.db f (m'.setMirror changes vectors).publishOrClose :=
    fun f changes vectors hc hl =>
      (machineOk_setMirror rfl hgen rfl hc hl (fun s hs => by simp [hm', hsnap] at hs)
        (fun e u he => by simp [hm', hpc] at he) vectors).publishOrClose h.settled
  have hdisk : DiskOk init (w.setMachine m') := h.setMachine m'
  -- from `H0`, over the file as the drop left it
  have hbase : WorldOk init (((w.setMachine m').dropCheckpoint env.dropOk).setMachine
      (m'.setMirror ⟨[], [], generation.sourceHlc, -1⟩ []).publishOrClose) := by
    have hdrop := hdisk.dropCheckpoint env.dropOk
    refine worldOk_setMachine hdrop ?_
    have hfile := hdrop.files
      (m'.setMirror ⟨[], [], generation.sourceHlc, -1⟩ []).publishOrClose.deltaPath
    rw [dropCheckpoint_db] at hfile ⊢
    exact hset _ _ _ ⟨AsOf.Mirror.start shown _ _ _, hgen.le_clock⟩
      (level_base hfile hgen.le_clock)
  simp only
  split
  · exact hbase
  · rename_i loaded hload
    obtain ⟨row, hrow, hrowBase, hseq, hmax, habove, hchanges⟩ := openDeltaCheckpoint_eq_some hload
    have hfile : (w.setMachine m').checkpoint.Of w.db := h.files _
    have hc : loaded.changes.Of w.db generation.sourceHlc := by
      rw [hchanges, ← hrowBase]
      exact hfile.faithful row hrow hmax fun x hx => by
        obtain ⟨r, hr, rfl⟩ := CheckpointFile.mem_events.mp hx
        exact habove r hr
    have hlevel : Level w.db generation.sourceHlc loaded.changes (w.setMachine m').checkpoint := by
      refine ⟨?_, ?_, ?_, fun _ _ => ?_⟩
      · rw [hchanges]
        exact fun x hx => hx
      · rw [hchanges]
        exact fun t ht => ht
      · rw [hchanges]
        exact hseq
      · have := hc
        rw [hchanges] at this ⊢
        exact this
    have hserved := hset _ _ loaded.vectors hc hlevel
    have hpath : (w.setMachine m').checkpoint =
        w.checkpoints (m'.setMirror loaded.changes loaded.vectors).publishOrClose.deltaPath := by
      rw [publishOrClose_deltaPath]
      rfl
    rw [hpath] at hserved
    split
    · refine worldOk_setMachine hdisk ?_
      exact hserved.congr rfl rfl rfl rfl rfl rfl hserved.snapshot fun e u he => he
    · split
      · exact worldOk_setMachine hdisk hserved
      · split
        · refine worldOk_setMachine hdisk ?_
          exact hserved.congr rfl rfl rfl rfl rfl rfl hserved.snapshot fun e u he => he
        · split
          · exact worldOk_setMachine hdisk hserved
          · exact hbase

/-- The constructor. -/
theorem worldOk_startMachine (h : DiskOk init w) (env : StartEnv) :
    WorldOk init (startMachine env w) := by
  have hbare : ∀ (w' : World) (m : Machine), DiskOk init w' → m.generation = none →
      m.deltaConsumed = none → m.snapshot = none → m.pc = .idle →
      WorldOk init (w'.setMachine m) := fun w' m hw' h1 h2 h3 h4 =>
    worldOk_setMachine hw' (machineOk_bare h1 h2 h3 h4)
  unfold startMachine
  simp only
  split
  · exact hbare _ _ h rfl rfl rfl rfl
  · have ho := openOrBuild_opened h env.generation env.provider env.declaredGenerationId
    have hdisk := ho.disk h
    split
    · rename_i w' heq
      rw [heq] at hdisk
      exact hbare _ _ hdisk rfl rfl rfl rfl
    · rename_i w' _ _ heq
      rw [heq] at hdisk
      exact hbare _ _ hdisk rfl rfl rfl rfl
    · rename_i w' generation heq
      rw [heq] at hdisk ho
      split
      · exact hbare _ _ hdisk rfl rfl rfl rfl
      · refine worldOk_loadCheckpoint hdisk env ?_ _ rfl rfl
        rw [World.db, ho.facts]
        exact ho.result generation rfl

theorem worldOk_performRebuild (h : WorldOk init w) (env : RebuildEnv) :
    WorldOk init (performRebuild env w) := by
  unfold performRebuild
  simp only
  have hdrop := h.disk.dropCheckpoint env.dropOk
  have ho := openOrBuild_opened hdrop env.generation (w.dropCheckpoint env.dropOk).machine.provider
    (w.dropCheckpoint env.dropOk).machine.declaredGenerationId
  have hdisk := ho.disk hdrop
  have hgen' : ∀ g, (w.dropCheckpoint env.dropOk).machine.generation = some g → g.Of w.db ∧
      (w.dropCheckpoint env.dropOk).machine.baseCommits = readBaseCommitIds w.db g.sourceHlc := by
    rw [dropCheckpoint_machine]
    exact h.machine.generation
  split
  · rename_i w' heq
    rw [heq] at hdisk ho
    have hdb : w'.db = w.db := by rw [World.db, ho.facts, dropCheckpoint_facts]; rfl
    refine worldOk_setMachine hdisk ?_
    rw [hdb]
    exact ⟨hgen', by rintro _ ⟨⟩, by rintro _ ⟨⟩, by rintro _ _ ⟨⟩⟩
  · rename_i w' _ _ heq
    rw [heq] at hdisk ho
    have hdb : w'.db = w.db := by rw [World.db, ho.facts, dropCheckpoint_facts]; rfl
    refine worldOk_setMachine hdisk ?_
    rw [hdb]
    exact ⟨hgen', by rintro _ ⟨⟩, by rintro _ ⟨⟩, by rintro _ _ ⟨⟩⟩
  · rename_i w' generation heq
    rw [heq] at hdisk ho
    have hdb : w'.db = (w.dropCheckpoint env.dropOk).db := by rw [World.db, ho.facts]; rfl
    have hof : generation.Of w'.db := hdb ▸ ho.result generation rfl
    have hfile := hdisk.files generation.generationId
    refine worldOk_setMachine hdisk ?_
    set m : Machine :=
      { (w.dropCheckpoint env.dropOk).machine with
        snapshot := none, blocked := false, pc := .idle
        generation := some generation
        baseCommits := readBaseCommitIds w'.db generation.sourceHlc
        deltaPath := generation.generationId } with hm
    have hbase : MachineOk w'.db (w'.checkpoints generation.generationId)
        (m.setMirror ⟨[], [], generation.sourceHlc, -1⟩ []) :=
      machineOk_setMirror rfl hof rfl ⟨AsOf.Mirror.start shown _ _ _, hof.le_clock⟩
        (level_base hfile hof.le_clock) (fun s hs => by simp [hm] at hs)
        (fun e u he => by simp [hm] at he) []
    exact hbase.congr rfl rfl rfl rfl rfl rfl
      (fun s hs => hbase.project_serves hdisk.settled hs) fun e u he => he

/-! ## The worker's steps -/

/-- The rows of a file are all the memory is compared with. -/
theorem MachineOk.setMeta (h : MachineOk db f m) (metaRows : Option CheckpointMeta)
    (blocked : Bool) :
    MachineOk db { f with metaRows, blocked } m where
  generation := h.generation
  mirror c hc := by
    obtain ⟨g, hg, hof, hlevel⟩ := h.mirror c hc
    exact ⟨g, hg, hof, hlevel.held, hlevel.gone, hlevel.seq, hlevel.exact⟩
  snapshot := h.snapshot
  batch := h.batch

theorem WorldOk.enterBlocked (h : WorldOk init w) (recordOk : Bool) {consumed : Hlc}
    (hg : w.machine.generation = some generation) (hc : w.machine.deltaConsumed = some consumed) :
    WorldOk init (Delta.enterBlocked recordOk generation consumed w) := by
  obtain ⟨g, hg', -, hlevel⟩ := h.machine.mirror consumed hc
  obtain rfl := Option.some.inj (hg'.symm.trans hg)
  unfold Delta.enterBlocked
  simp only
  split
  · have hf := (h.disk.files w.machine.deltaPath).recordBlocked hlevel
    refine ⟨(h.disk.setCheckpoint hf).setMachine _, ?_⟩
    have hm : MachineOk w.db (recordBlocked g consumed w.machine.deltaChangeSeq w.checkpoint)
        { w.machine with blocked := true, pc := .idle } :=
      (h.machine.setMeta _ true).congr rfl rfl rfl rfl rfl rfl h.machine.snapshot nofun
    rw [← setCheckpoint_checkpoint w (recordBlocked g consumed _ _)] at hm
    exact hm
  · exact ⟨h.disk.setMachine _,
      h.machine.congr rfl rfl rfl rfl rfl rfl h.machine.snapshot nofun⟩

/-- A batch with a change in it writes something. -/
theorem mergedChanges_ne_nil (h : ¬ (events = [] ∧ retractions = [])) :
    mergedChanges events retractions ≠ [] := by
  intro hnil
  have hperm : ([] : List Change).Perm ((survivors events retractions).map Change.event ++
      retractions.map Change.retraction) := hnil ▸ List.perm_insertionSort _ _
  obtain ⟨hevents, hretractions⟩ := List.append_eq_nil_iff.mp hperm.nil_eq.symm
  have hretr : retractions = [] := List.map_eq_nil_iff.mp hretractions
  refine h ⟨?_, hretr⟩
  have hsurvive := List.map_eq_nil_iff.mp hevents
  simpa [survivors, hretr] using hsurvive

theorem worldOk_catchUpBatch (h : WorldOk init w) (env : BatchEnv) :
    WorldOk init (catchUpBatch env w) := by
  unfold catchUpBatch
  split
  · rename_i factsEpoch upper generation consumed hpc hg hc
    obtain ⟨g, hg', hof, hlevel⟩ := h.machine.mirror consumed hc
    obtain rfl := Option.some.inj (hg'.symm.trans hg)
    obtain ⟨-, hbound⟩ := h.machine.batch _ _ hpc
    split
    · exact h.goto nofun
    · rename_i hlt
      split
      · exact h.goto nofun
      · rename_i events retractions hread
        replace hread : readFactChanges w.db consumed upper = some (events, retractions) := by
          split at hread
          · exact hread
          · cases hread
        split
        · exact h.goto nofun
        · rename_i hsome
          split
          · exact h.enterBlocked env.recordOk hg hc
          · simp only
            split
            · exact h.goto nofun
            · rename_i f seq hwrite
              obtain ⟨f₁, hins, rfl, hf, hexact⟩ := writeBatch_of (h.disk.files _) hof hlevel
                hbound hread (not_le.mp hlt) hwrite
              have hne := mergedChanges_ne_nil hsome
              have hlast := CheckpointFile.le_maxRowSeq (hins.last hne)
              have hcount := hins.count
              have hpos := List.length_pos_of_ne_nil hne
              have hseq : -1 ≤ w.machine.deltaChangeSeq := hlevel.seq
              simp only [Machine.mirror] at hcount
              split
              · exact h.goto nofun
              · -- the file is ahead of the memory: its largest number is not the memory's
                refine ⟨(h.disk.setCheckpoint hf).setMachine _, ?_⟩
                have hm : MachineOk w.db
                    { f₁ with metaRows := some (metaRow g factsEpoch upper seq) }
                    { w.machine with pc := .idle } := by
                  refine ⟨h.machine.generation, fun c hc' => ?_, h.machine.snapshot, nofun⟩
                  obtain rfl := Option.some.inj (hc.symm.trans hc')
                  refine ⟨g, hg, hof, fun x hx => (hins.events x).mpr (Or.inl (hlevel.held x hx)),
                    fun t ht => (hins.tombstones t).mpr (Or.inl (hlevel.gone t ht)), hseq,
                    fun hmax _ => ?_⟩
                  have : f₁.maxRowSeq = w.machine.deltaChangeSeq := hmax
                  omega
                rw [← setCheckpoint_checkpoint w { f₁ with metaRows := _ }] at hm
                exact hm
              · refine ⟨(h.disk.setCheckpoint hf).setMachine _ |>.setMachine _, ?_⟩
                have hnew := mirror_advance h.disk.settled hof hread (not_le.mp hlt) seq
                have hm : MachineOk w.db
                    { f₁ with metaRows := some (metaRow g factsEpoch upper seq) }
                    ({ w.machine with pc := .publish }.setMirror
                      { events := w.machine.deltaEvents ++
                          (mergedChanges events retractions).filterMap Change.event?
                        retractions := w.machine.retractions ++
                          (mergedChanges events retractions).filterMap Change.tombstone?
                        consumed := upper
                        changeSeq := seq }
                      (w.machine.deltaVectors ++
                        ((mergedChanges events retractions).filterMap Change.event?).map
                          fun e : StoredEvent =>
                            (e.eventId, w.machine.provider.representationId))) := by
                  obtain ⟨hgof, hcommits⟩ := h.machine.generation g hg
                  refine machineOk_setMirror (m := { w.machine with pc := .publish }) hg hgof
                    hcommits hnew ⟨fun x hx => ?_, fun t ht => ?_, by simp only; omega,
                      fun _ => hexact⟩ h.machine.snapshot (fun e u => nofun) _
                  · exact (hins.events x).mpr
                      ((List.mem_append.mp hx).imp_left (hlevel.held x))
                  · exact (hins.tombstones t).mpr
                      ((List.mem_append.mp ht).imp_left (hlevel.gone t))
                rw [← setCheckpoint_checkpoint w { f₁ with metaRows := _ }] at hm
                exact hm
  · exact h.goto nofun
  · exact h.goto nofun
  · exact h

theorem worldOk_publishSnapshot (h : WorldOk init w) (ok : Bool) {next : Pc}
    (hnext : ∀ e u, next ≠ .batch e u) : WorldOk init (publishSnapshot ok next w) := by
  unfold publishSnapshot
  split
  · rename_i s hs
    refine ⟨h.disk.setMachine _, h.machine.congr rfl rfl rfl rfl rfl rfl (fun s' hs' => ?_)
      fun e u he => absurd he (hnext e u)⟩
    obtain rfl := Option.some.inj hs'
    split at hs
    · exact h.machine.project_serves h.disk.settled hs
    · cases hs
  · exact h.goto nofun

theorem worldOk_cycle (h : WorldOk init w) (env : RebuildEnv) : WorldOk init (cycle env w) := by
  unfold cycle
  simp only
  split
  · exact h
  · split
    · exact h
    · split
      · exact h
      · rename_i factsEpoch factsMax hid
        split
        · exact worldOk_performRebuild h env
        · split
          · exact worldOk_performRebuild h env
          · refine ⟨h.disk.setMachine _, h.machine.generation, h.machine.mirror,
              h.machine.snapshot, fun e u he => ?_⟩
            obtain ⟨-, rfl⟩ := Pc.batch.inj he
            have hclock : factsMax = w.db.clock := by
              unfold readFactsIdentity at hid
              split at hid
              · cases hid
              · exact (Prod.mk.inj (Option.some.inj hid)).2.symm
            have hf := h.disk.files w.machine.deltaPath
            exact ⟨hclock.le,
              fun x hx => hclock ▸ h.disk.settled.event_le x (hf.event_mem x hx),
              fun t ht => hclock ▸ h.disk.settled.retraction_le t (hf.tombstone_mem t ht)⟩

theorem worldOk_retry (h : WorldOk init w) (cleanupOk : Bool) :
    WorldOk init (retry cleanupOk w) := by
  have hclean : WorldOk init
      (if cleanupOk then w.setCheckpoint { w.checkpoint with blocked := false } else w) := by
    split
    · have hm := h.machine.setMeta w.checkpoint.metaRows false
      refine ⟨h.disk.setCheckpoint ((h.disk.files _).setBlocked false), ?_⟩
      rw [setCheckpoint_checkpoint]
      exact hm
    · exact h
  have hclear : ∀ w' : World, WorldOk init w' → WorldOk init
      (if w'.machine.closed then w' else w'.setMachine { w'.machine with blocked := false }) := by
    intro w' h'
    split
    · exact h'
    · exact ⟨h'.disk.setMachine _, h'.machine.congr rfl rfl rfl rfl rfl rfl h'.machine.snapshot
        fun e u he => he⟩
  exact hclear _ hclean

/-- **Every step keeps the invariant.** -/
theorem worldOk_step (h : WorldOk init w) (a : Action) : WorldOk init (step w a) := by
  cases a with
  | facts call => exact h.facts call
  | restart env => exact worldOk_startMachine h.disk env
  | cycle env => exact worldOk_cycle h env
  | batch env => exact worldOk_catchUpBatch h env
  | publish ok =>
    show WorldOk init (publishStep ok w)
    unfold publishStep
    split
    · exact worldOk_publishSnapshot h ok nofun
    · exact h
  | republish ok =>
    show WorldOk init (republishStep ok w)
    unfold republishStep
    split
    · split
      · split
        · exact worldOk_publishSnapshot h ok nofun
        · exact h.goto nofun
      · exact worldOk_publishSnapshot h ok nofun
    · exact h
  | retry cleanupOk => exact worldOk_retry h cleanupOk
  | requestStop =>
    exact ⟨h.disk.setMachine _, h.machine.congr rfl rfl rfl rfl rfl rfl h.machine.snapshot
      fun e u he => he⟩
  | start =>
    exact ⟨h.disk.setMachine _, h.machine.congr rfl rfl rfl rfl rfl rfl h.machine.snapshot
      fun e u he => he⟩
  | close =>
    exact ⟨h.disk.setMachine _, h.machine.congr rfl rfl rfl rfl rfl rfl
      (by rintro _ ⟨⟩) fun e u he => he⟩

/-! ## Time over runs -/

theorem buildGeneration_facts (env : GenerationEnv) (provider : Provider) (w : World) :
    (buildGeneration env provider w).1.facts = w.facts := by
  unfold buildGeneration
  repeat' split
  all_goals rfl

theorem openOrBuild_facts (env : GenerationEnv) (provider : Provider) (id : Text) (w : World) :
    (openOrBuild env provider id w).1.facts = w.facts := by
  unfold openOrBuild
  repeat' split
  all_goals first
    | rfl
    | exact buildGeneration_facts env provider w

theorem loadCheckpoint_facts (env : StartEnv) (generation : Generation) (m : Machine) (w : World) :
    (loadCheckpoint env generation m w).facts = w.facts := by
  unfold loadCheckpoint
  simp only
  repeat' split
  all_goals first
    | rfl
    | exact dropCheckpoint_facts _ _

theorem startMachine_facts (env : StartEnv) (w : World) :
    (startMachine env w).facts = w.facts := by
  have ho := openOrBuild_facts env.generation env.provider env.declaredGenerationId w
  unfold startMachine
  simp only
  split
  · rfl
  · split
    · rename_i heq
      rw [heq] at ho
      exact ho
    · rename_i heq
      rw [heq] at ho
      exact ho
    · rename_i heq
      rw [heq] at ho
      split
      · exact ho
      · exact (loadCheckpoint_facts _ _ _ _).trans ho

theorem performRebuild_facts (env : RebuildEnv) (w : World) :
    (performRebuild env w).facts = w.facts := by
  have ho := openOrBuild_facts env.generation (w.dropCheckpoint env.dropOk).machine.provider
    (w.dropCheckpoint env.dropOk).machine.declaredGenerationId (w.dropCheckpoint env.dropOk)
  rw [dropCheckpoint_facts] at ho
  unfold performRebuild
  simp only
  split
  all_goals
    rename_i heq
    rw [heq] at ho
    exact ho

theorem catchUpBatch_facts (env : BatchEnv) (w : World) :
    (catchUpBatch env w).facts = w.facts := by
  have hblocked (recordOk : Bool) (g : Generation) (c : Hlc) :
      (enterBlocked recordOk g c w).facts = w.facts := by
    unfold enterBlocked
    cases recordOk <;> rfl
  unfold catchUpBatch
  repeat' split
  all_goals first
    | rfl
    | exact hblocked _ _ _
    | simp only
      split <;> rfl

theorem publishSnapshot_facts (ok : Bool) (next : Pc) (w : World) :
    (publishSnapshot ok next w).facts = w.facts := by
  unfold publishSnapshot
  split <;> rfl

theorem step_facts (w : World) (a : Action) :
    (step w a).facts = w.facts ∨ ∃ call, (step w a).facts = FactStore.step w.facts call := by
  cases a with
  | facts call => exact Or.inr ⟨call, rfl⟩
  | restart env => exact Or.inl (startMachine_facts env w)
  | cycle env =>
    refine Or.inl ?_
    show (cycle env w).facts = w.facts
    unfold cycle
    simp only
    repeat' split
    all_goals first
      | rfl
      | exact performRebuild_facts env w
  | batch env => exact Or.inl (catchUpBatch_facts env w)
  | publish ok =>
    refine Or.inl ?_
    show (publishStep ok w).facts = w.facts
    unfold publishStep
    split
    · exact publishSnapshot_facts ok _ w
    · rfl
  | republish ok =>
    refine Or.inl ?_
    show (republishStep ok w).facts = w.facts
    unfold republishStep
    repeat' split
    all_goals first
      | rfl
      | exact publishSnapshot_facts ok _ w
  | retry cleanupOk =>
    refine Or.inl ?_
    show (retry cleanupOk w).facts = w.facts
    unfold retry
    simp only
    repeat' split
    all_goals rfl
  | requestStop => exact Or.inl rfl
  | start => exact Or.inl rfl
  | close => exact Or.inl rfl

theorem extends_run (w : World) (as : List Action) : Extends w.db (Runs.run step w as).db := by
  refine Runs.run_rel (R := fun w w' : World => Extends w.db w'.db) (fun w => Extends.refl _)
    (fun _ _ _ => Extends.trans) (fun w a => ?_) w as
  rcases step_facts w a with h | ⟨call, h⟩
  · rw [World.db, World.db, h]
    exact Extends.refl _
  · rw [World.db, World.db, h]
    exact extends_step w.facts call

theorem worldOk_created (now : ℤ) (historyId storeEpoch : Text) :
    WorldOk (hlc now 0) (World.created now historyId storeEpoch) where
  disk :=
    { inv := inv_created now historyId storeEpoch
      linked := linked_initial now historyId storeEpoch
      generations := by simp [World.created]
      files := fun _ => CheckpointFile.of_empty _ }
  machine := machineOk_bare rfl rfl rfl rfl

/-! ## The result -/

/-- What the gate hands out is the published snapshot, at or above the watermark of the call. -/
theorem pollGate_eq_ok {identity : Text × Hlc} {expired : Bool} {snapshot : DeltaSnapshot}
    (h : pollGate identity expired m = some (.ok snapshot)) :
    m.snapshot = some snapshot ∧ snapshot.storeEpoch = identity.1 ∧
      identity.2 ≤ snapshot.consumed := by
  unfold pollGate at h
  split at h
  · cases h
  · split at h
    · cases h
    · split at h
      · rename_i s hs
        obtain ⟨hsnap, hmatch⟩ := Option.filter_eq_some_iff.mp hs
        cases h
        exact ⟨hsnap, by simpa using hmatch⟩
      · split at h
        · cases h
        · split at h <;> cases h

theorem readGate_eq_ok {w : World} {identity : Text × Hlc} (h : readGate w = .ok identity) :
    identity.2 = w.db.clock := by
  unfold readGate at h
  split at h
  · cases h
  · split at h
    · cases h
    · rename_i found hid
      cases h
      unfold readFactsIdentity at hid
      split at hid
      · cases hid
      · cases hid
        rfl

/-- **Delta serving equals the facts.**  Take any run, a call of `ensure_caught_up` that starts at
some moment of it, and the snapshot the call returns at a later one.  At that moment and ever after,
the snapshot's events are those the fact reader shows at its watermark, in its order; the watermark
is at least the clock at the start of the call; every event stored by then is in it, unless its
commit was retracted; and no event of a commit retracted by then is. -/
theorem serves_facts (now : ℤ) (historyId storeEpoch : Text) (before during later : List Action)
    (identity : Text × Hlc) (expired : Bool) (snapshot : DeltaSnapshot)
    (hread : readGate (Runs.run step (World.created now historyId storeEpoch) before) =
      .ok identity)
    (hpoll : pollGate identity expired
      (Runs.run step (World.created now historyId storeEpoch) (before ++ during)).machine =
        some (.ok snapshot)) :
    let atCall := (Runs.run step (World.created now historyId storeEpoch) before).db
    let atReturn := (Runs.run step (World.created now historyId storeEpoch) (before ++ during)).db
    let atLater :=
      (Runs.run step (World.created now historyId storeEpoch) (before ++ during ++ later)).db
    snapshot.activeEvents =
        (readActiveEvents atLater snapshot.consumed).map StoredEvent.served ∧
      atCall.clock ≤ snapshot.consumed ∧
      (∀ x ∈ seen atCall, (∀ t ∈ seenRetractions atReturn, t.1 ≠ x.commitId) →
        x ∈ snapshot.activeEvents) ∧
      ∀ t ∈ seenRetractions atCall, ∀ x ∈ snapshot.activeEvents, x.commitId ≠ t.1 := by
  intro atCall atReturn atLater
  have hok (as : List Action) := Runs.run_invariant (I := WorldOk (hlc now 0))
    (fun w a h => worldOk_step h a) (worldOk_created now historyId storeEpoch) as
  obtain ⟨hsnap, -, hle⟩ := pollGate_eq_ok hpoll
  rw [readGate_eq_ok hread] at hle
  have hserves : snapshot.Serves atReturn := (hok (before ++ during)).machine.snapshot _ hsnap
  have hlater : Extends atReturn atLater := by
    have := extends_run (Runs.run step (World.created now historyId storeEpoch)
      (before ++ during)) later
    rwa [← Runs.run_append] at this
  have hduring : Extends atCall atReturn := by
    have := extends_run (Runs.run step (World.created now historyId storeEpoch) before) during
    rwa [← Runs.run_append] at this
  have hsettled := (hok before).disk.settled
  have hmem (x : StoredEvent) : x ∈ snapshot.activeEvents ↔
      x ∈ AsOf.activeAsOf shown (seen atReturn) (seenRetractions atReturn) snapshot.consumed := by
    rw [hserves.1, served_readActiveEvents, (perm_sortEvents _).mem_iff]
  refine ⟨(hserves.extend hlater).1, hle, fun x hx hnot => ?_, fun t ht x hx heq => ?_⟩
  · refine (hmem x).mpr (AsOf.mem_activeAsOf.mpr
      ⟨hduring.mem_seen hx, (hsettled.event_le x hx).trans hle, ?_⟩)
    rintro ⟨t, ht, hg, -⟩
    exact hnot t ht hg
  · refine (AsOf.mem_activeAsOf.mp ((hmem x).mp hx)).2.2 ⟨t, hduring.mem_seenRetractions ht,
      heq.symm, (hsettled.retraction_le t ht).trans hle⟩

/-- Each generation on disk is of the facts, and so is each checkpoint file: its rows and tombstones
are facts, each event once, and where the loader accepts it it mirrors them up to its watermark. -/
def Faithful (w : World) : Prop :=
  (∀ g ∈ w.generations, g.Of w.db) ∧ ∀ path, (w.checkpoints path).Of w.db

/-- A store with a committed event before the process starts, one after, and a retraction of the
first; the worker absorbs the two changes in one batch. -/
def sampleRun : List Action :=
  let event (id : Byte) : Event :=
    { eventId := [id], schemaId := [2], canonicalSegmentInput := [3], category := [4],
      precedingText := [], finalSelectionText := [5], confirmationSource := [6], sessionId := [7] }
  [.facts (.openStore 0 {}),
    .facts (.persistBatch 0 10 [event 1] (some [8]) { nowMs := fun _ => 10 }),
    .restart { provider := ⟨[9], 1, false⟩, declaredGenerationId := [1], generation := { newId := [1] } },
    .facts (.persistBatch 0 20 [event 11] (some [12]) { nowMs := fun _ => 20 }),
    .facts (.appendRetraction 0 [8] 30 { nowMs := 30, randomUuid := [13] })]

/-- The worker's steps. -/
def sampleCatchUp : List Action := [.cycle {}, .batch {}, .publish true, .republish true]

def sampleSnapshot : DeltaSnapshot where
  storeEpoch := [14]
  baseGenerationId := [1]
  representationId := [9]
  vectorDimension := 1
  retrievalBackend := .oracle
  consumed := hlc 30 0
  changeSeq := 1
  activeEvents :=
    [{ eventId := [11], commitId := [12], schemaId := [2], canonicalSegmentInput := [3],
       category := [4], finalSelectionText := [5], hlc := hlc 20 0 }]
  vectors := [([11], [9])]
  queryProvider := ⟨[9], 1, false⟩

theorem serves_facts_sample :
    hlc 30 0 ≤ sampleSnapshot.consumed ∧
      sampleSnapshot.activeEvents = (readActiveEvents (Runs.run step (World.created 5 [] [14])
        (sampleRun ++ sampleCatchUp ++ [])).db sampleSnapshot.consumed).map StoredEvent.served := by
  obtain ⟨hevents, hclock, -, -⟩ := serves_facts 5 [] [14] sampleRun sampleCatchUp []
    ([14], hlc 30 0) false sampleSnapshot (by decide) (by decide)
  exact ⟨hclock, hevents⟩

end Delta
end SemanticMemory
