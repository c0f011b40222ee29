import SemanticMemory.Facts.Store
import SemanticMemory.Lib.Climb

/-!
# The clock discipline of the fact store

What one call can do to the tables is said once, in `Effect`: leave them alone, leave a write
transaction open, or commit a transaction whose facts climb from the meta clock it found to the meta
clock it wrote.  `effect_step` proves it for every call and every outcome, and the total order of
the facts follows by induction over the run.

The caches of the connections take no part: `persistBatch` and `appendRetraction` tick from the meta
rows they read inside their own transaction.
-/

namespace SemanticMemory
namespace FactStore

open Runs

/-! ## What a transaction adds -/

/-- `db'` is `db` with `facts` appended to its two stamped tables, and the stamps climb from the
meta clock of `db` to `last`. -/
structure Appends (db db' : Db) (facts : List Fact) (last : Hlc) : Prop where
  events : db'.selectionEvents = db.selectionEvents ++ facts.filterMap Fact.event?
  retractions : db'.retractions = db.retractions ++ facts.filterMap Fact.retraction?
  climbs : Climbs db.clock (facts.map Fact.hlc) last

/-- Which transactions there are: a batch of one new commit, the first retraction of a known commit,
and the retraction that finds nothing to retract. -/
inductive Provenance (db db' : Db) : List Fact → Prop where
  | batch (commit : CommitRow) (rows : List EventRow)
      (fresh : ∀ r ∈ db.commits, r.commitId ≠ commit.commitId)
      (commits : db'.commits = db.commits ++ [commit])
      (commitIds : ∀ row ∈ rows, row.commitId = commit.commitId)
      (eventIds : (rows.map EventRow.eventId).Nodup)
      (freshIds : ∀ row ∈ rows, ∀ r ∈ db.selectionEvents, r.eventId ≠ row.eventId) :
      Provenance db db' (rows.map .event)
  | retraction (row : RetractionRow)
      (known : ∃ r ∈ db.commits, r.commitId = row.commitId)
      (unretracted : ∀ r ∈ db.retractions, r.commitId ≠ row.commitId)
      (commits : db'.commits = db.commits) : Provenance db db' [.retraction row]
  | nothing (same : db' = db) : Provenance db db' []

/-- The effect of one call on the file. -/
inductive Effect (w w' : World) : Prop where
  | quiet (db : w'.db = w.db) (journal : w'.journal = w.journal)
      (writer : w'.writer = none ∨ w'.writer = w.writer)
  | leftOpen (c : ConnId) (db : Db) (facts : List Fact) (last : Hlc)
      (same : w'.db = w.db) (journal : w'.journal = w.journal)
      (writer : w'.writer = some (c, db)) (appends : Appends w.db db facts last)
  | committed (facts : List Fact) (journal : w'.journal = w.journal ++ [facts])
      (writer : w'.writer = none) (appends : Appends w.db w'.db facts w'.db.clock)
      (storeEpoch : w'.db.metaRows.storeEpoch = w.db.metaRows.storeEpoch)
      (provenance : Provenance w.db w'.db facts)

/-- Only the tables decide the effect: the connections do not. -/
theorem Effect.congr {w w₂ : World} (w₁ : World) (h : Effect w w₁) (hdb : w₂.db = w₁.db)
    (hwriter : w₂.writer = w₁.writer) (hjournal : w₂.journal = w₁.journal) : Effect w w₂ := by
  cases h with
  | quiet db journal writer =>
    exact .quiet (hdb.trans db) (hjournal.trans journal) (hwriter ▸ writer)
  | leftOpen c db facts last same journal writer appends =>
    exact .leftOpen c db facts last (hdb.trans same) (hjournal.trans journal)
      (hwriter.trans writer) appends
  | committed facts journal writer appends storeEpoch provenance =>
    exact .committed facts (hjournal.trans journal) (hwriter.trans writer) (hdb ▸ appends)
      (hdb ▸ storeEpoch) (hdb ▸ provenance)

/-! ## The batch -/

theorem insertCandidates_frame (insertOk : ℕ → Bool) (eventId : Text) (j : ℕ)
    (candidates : List (ℤ × Text)) (db : Db) :
    (insertCandidates insertOk eventId j candidates db).2.selectionEvents = db.selectionEvents ∧
    (insertCandidates insertOk eventId j candidates db).2.retractions = db.retractions ∧
    (insertCandidates insertOk eventId j candidates db).2.commits = db.commits ∧
    (insertCandidates insertOk eventId j candidates db).2.metaRows = db.metaRows := by
  induction candidates generalizing j db with
  | nil => exact ⟨rfl, rfl, rfl, rfl⟩
  | cons candidate rest ih =>
    unfold insertCandidates
    split
    · exact ih _ _
    · exact ⟨rfl, rfl, rfl, rfl⟩

/-- The clock point written into an event. -/
def Event.hlc (e : Event) : Hlc := SemanticMemory.hlc e.hlcPhysicalMs e.hlcLogical

/-- What the event loop has done when it stops: it inserted the rows of an initial part `done` of
the caller's events, whose stamps climb from the clock it started at. -/
structure LoopSpec (env : BatchEnv) (commitId : Text) (utc : ℤ) (events : List Event) (db : Db)
    (start : Hlc) (p : Progress) (done : List Event) (last : Hlc) : Prop where
  rows : p.db.selectionEvents = db.selectionEvents ++ done.map (eventRow commitId utc)
  retractions : p.db.retractions = db.retractions
  commits : p.db.commits = db.commits
  metaRows : p.db.metaRows = db.metaRows
  climbs : Climbs start (done.map Event.hlc) last
  fresh : ∀ e ∈ done, ∀ r ∈ db.selectionEvents, r.eventId ≠ cString e.eventId
  nodup : (done.map fun e => cString e.eventId).Nodup
  eventIds : p.events.map Event.eventId = events.map Event.eventId
  complete : p.ok = true → done = p.events ∧ last = hlc p.physical p.logical

/-- **The event loop.**  The induction is over the events; the loop invariant is the list of events
whose rows are in. -/
theorem insertEvents_spec (env : BatchEnv) (commitId : Text) (utc : ℤ) (i : ℕ)
    (events : List Event) (db : Db) (physical logical : ℤ) :
    ∃ done last, LoopSpec env commitId utc events db (hlc physical logical)
      (insertEvents env commitId utc i events db physical logical) done last := by
  induction events generalizing i db physical logical with
  | nil =>
    exact ⟨[], _, by simp [insertEvents], rfl, rfl, rfl, rfl, by simp, by simp, rfl,
      fun _ => ⟨rfl, rfl⟩⟩
  | cons e rest ih =>
    set tick := giveTick (env.nowMs i) physical logical with htick
    set event : Event :=
      { e with hlcPhysicalMs := tick.1, hlcLogical := tick.2, commitId := commitId } with hevent
    have hlt : hlc physical logical < event.hlc := lt_giveTick _ _ _
    have hid : event.eventId = e.eventId := rfl
    unfold insertEvents
    simp only [← htick, ← hevent]
    split
    · rename_i hins
      have hfresh : ∀ r ∈ db.selectionEvents, r.eventId ≠ cString event.eventId := by
        simpa using hins.2
      set db₁ : Db := { db with selectionEvents :=
        db.selectionEvents ++ [eventRow commitId utc event] } with hdb₁
      obtain ⟨hce, hcr, hcc, hcm⟩ := insertCandidates_frame (env.insertCandidateOk i)
        event.eventId 0 event.candidates db₁
      set inserted :=
        insertCandidates (env.insertCandidateOk i) event.eventId 0 event.candidates db₁
      split
      · obtain ⟨done, last, h⟩ := ih (i + 1) inserted.2 tick.1 tick.2
        refine ⟨event :: done, last, ?_, h.retractions.trans hcr, h.commits.trans hcc,
          h.metaRows.trans hcm, ⟨hlt, h.climbs⟩, ?_, ?_, ?_, fun hok => ?_⟩
        · rw [h.rows, hce, hdb₁, List.map_cons, List.append_assoc, List.singleton_append]
        · intro x hx r hr
          rcases List.mem_cons.mp hx with rfl | hx
          · exact hfresh r hr
          · exact h.fresh x hx r (by rw [hce]; exact List.mem_append_left _ hr)
        · rw [List.map_cons, List.nodup_cons]
          refine ⟨fun hmem => ?_, h.nodup⟩
          obtain ⟨x, hx, hxe⟩ := List.mem_map.mp hmem
          refine h.fresh x hx (eventRow commitId utc event) ?_ hxe.symm
          rw [hce]
          exact List.mem_append_right _ List.mem_cons_self
        · rw [List.map_cons, List.map_cons, h.eventIds, hid]
        · obtain ⟨hdone, hlast⟩ := h.complete hok
          exact ⟨by rw [hdone], hlast⟩
      · refine ⟨[event], event.hlc, hce, hcr, hcc, hcm, Climbs.single hlt, ?_, by simp,
          by simp [hid], fun hok => absurd hok (by simp)⟩
        intro x hx r hr
        rw [List.mem_singleton.mp hx]
        exact hfresh r hr
    · exact ⟨[], _, by simp, rfl, rfl, rfl, Climbs.refl _, by simp, by simp, by simp [hid],
        fun hok => absurd hok (by simp)⟩

theorem recordMetaClock_frame (physicalOk logicalOk : Bool) (p l : ℤ) (db : Db) :
    (recordMetaClock physicalOk logicalOk p l db).2.selectionEvents = db.selectionEvents ∧
    (recordMetaClock physicalOk logicalOk p l db).2.retractions = db.retractions ∧
    (recordMetaClock physicalOk logicalOk p l db).2.commits = db.commits ∧
    (recordMetaClock physicalOk logicalOk p l db).2.metaRows.storeEpoch
      = db.metaRows.storeEpoch := by
  unfold recordMetaClock
  split
  · split <;> exact ⟨rfl, rfl, rfl, rfl⟩
  · exact ⟨rfl, rfl, rfl, rfl⟩

theorem recordMetaClock_clock {physicalOk logicalOk : Bool} {p l : ℤ} {db : Db}
    (h : (recordMetaClock physicalOk logicalOk p l db).1 = true) :
    (recordMetaClock physicalOk logicalOk p l db).2.clock = hlc p l := by
  unfold recordMetaClock at h ⊢
  split
  · split
    · rfl
    · rename_i h₁ h₂
      simp [h₁, h₂] at h
  · rename_i h₁
    simp [h₁] at h

def batchFacts (commitId : Text) (utc : ℤ) (events : List Event) : List Fact :=
  events.map fun e => Fact.event (eventRow commitId utc e)

theorem batchFacts_eq (commitId : Text) (utc : ℤ) (events : List Event) :
    batchFacts commitId utc events = (events.map (eventRow commitId utc)).map Fact.event := by
  rw [batchFacts, List.map_map]
  rfl

@[simp] theorem batchFacts_events (commitId : Text) (utc : ℤ) (events : List Event) :
    (batchFacts commitId utc events).filterMap Fact.event?
      = events.map (eventRow commitId utc) := by
  induction events with
  | nil => rfl
  | cons e rest ih =>
    rw [batchFacts, List.map_cons] at *
    rw [List.filterMap_cons_some (by rfl), ih, List.map_cons]

@[simp] theorem batchFacts_retractions (commitId : Text) (utc : ℤ) (events : List Event) :
    (batchFacts commitId utc events).filterMap Fact.retraction? = [] := by
  induction events with
  | nil => rfl
  | cons e rest ih =>
    rw [batchFacts, List.map_cons] at *
    rw [List.filterMap_cons_none (by rfl), ih]

@[simp] theorem batchFacts_hlc (commitId : Text) (utc : ℤ) (events : List Event) :
    (batchFacts commitId utc events).map Fact.hlc = events.map Event.hlc := by
  rw [batchFacts, List.map_map]
  rfl

/-- What the body of the batch transaction has done, however far it got. -/
theorem batchBody_appends (env : BatchEnv) (commitId : Text) (utc : ℤ) (events : List Event)
    (db : Db) : ∃ done last,
      Appends db (batchBody env commitId utc events db).db (batchFacts commitId utc done) last := by
  unfold batchBody
  simp only
  split
  · obtain ⟨done, last, h⟩ := insertEvents_spec env commitId utc 0 events
      { db with commits := db.commits ++ [⟨cString commitId, utc⟩] }
      db.metaRows.hlcPhysicalMs db.metaRows.hlcLogical
    refine ⟨done, last, ?_, ?_, by rw [batchFacts_hlc]; exact h.climbs⟩
    · rw [batchFacts_events]
      split
      · rw [(recordMetaClock_frame _ _ _ _ _).1]
        exact h.rows
      · exact h.rows
    · rw [batchFacts_retractions, List.append_nil]
      split
      · rw [(recordMetaClock_frame _ _ _ _ _).2.1]
        exact h.retractions
      · exact h.retractions
  · exact ⟨[], _, by simp, by simp, Climbs.refl _⟩

structure BatchDone (commitId : Text) (utc : ℤ) (events : List Event) (db : Db) (p : Progress) :
    Prop where
  appends : Appends db p.db (batchFacts commitId utc p.events) p.db.clock
  storeEpoch : p.db.metaRows.storeEpoch = db.metaRows.storeEpoch
  provenance : Provenance db p.db (batchFacts commitId utc p.events)
  eventIds : p.events.map Event.eventId = events.map Event.eventId

/-- **The batch transaction, complete.** -/
theorem batchBody_done (env : BatchEnv) (commitId : Text) (utc : ℤ) (events : List Event)
    (db : Db) (hok : (batchBody env commitId utc events db).ok = true) :
    BatchDone commitId utc events db (batchBody env commitId utc events db) := by
  unfold batchBody at hok ⊢
  simp only at hok ⊢
  split at hok
  · rename_i hguard
    rw [if_pos hguard]
    have hfresh : ∀ r ∈ db.commits, r.commitId ≠ cString commitId := by
      simpa using hguard.2.2.2.2.2
    obtain ⟨done, last, h⟩ := insertEvents_spec env commitId utc 0 events
      { db with commits := db.commits ++ [⟨cString commitId, utc⟩] }
      db.metaRows.hlcPhysicalMs db.metaRows.hlcLogical
    set p := insertEvents env commitId utc 0 events
      { db with commits := db.commits ++ [⟨cString commitId, utc⟩] }
      db.metaRows.hlcPhysicalMs db.metaRows.hlcLogical
    split at hok
    · rename_i hp
      rw [if_pos hp]
      obtain ⟨rfl, rfl⟩ := h.complete hp
      obtain ⟨hre, hrr, hrc, hrs⟩ := recordMetaClock_frame env.recordPhysicalOk
        env.recordLogicalOk p.physical p.logical p.db
      refine ⟨⟨?_, ?_, ?_⟩, ?_, ?_, h.eventIds⟩
      · rw [batchFacts_events]
        exact hre.trans h.rows
      · rw [batchFacts_retractions, List.append_nil]
        exact hrr.trans h.retractions
      · rw [batchFacts_hlc]
        simp only [recordMetaClock_clock hok]
        exact h.climbs
      · simp only [hrs, h.metaRows]
      · rw [batchFacts_eq]
        refine .batch ⟨cString commitId, utc⟩ _ hfresh (hrc.trans h.commits) ?_ ?_ ?_
        · intro row hrow
          obtain ⟨e, -, rfl⟩ := List.mem_map.mp hrow
          rfl
        · rw [List.map_map]
          exact h.nodup
        · intro row hrow r hr
          obtain ⟨e, he, rfl⟩ := List.mem_map.mp hrow
          exact h.fresh e he r hr
    · rename_i hp
      exact absurd hok (by simpa using hp)
  · exact absurd hok (by simp)

/-- The effect of `PersistBatch`. -/
theorem effect_persistBatch (w : World) (c : ConnId) (utc : ℤ) (events : List Event)
    (assigned : Option Text) (env : BatchEnv) :
    Effect w (persistBatch w c utc events assigned env).1 := by
  unfold persistBatch
  split
  · exact .quiet rfl rfl (Or.inr rfl)
  split
  · exact .quiet rfl rfl (Or.inr rfl)
  set commitId := assigned.getD env.randomUuid
  obtain ⟨done, last, happ⟩ := batchBody_appends env commitId utc events w.db
  have hdone := batchBody_done env commitId utc events w.db
  set p := batchBody env commitId utc events w.db
  simp only
  split
  · rename_i hok
    have hd := hdone hok
    cases henv : env.commitEnd with
    | committed =>
      exact .committed (batchFacts commitId utc p.events) rfl rfl hd.appends hd.storeEpoch
        hd.provenance
    | rolledBack => exact .quiet rfl rfl (Or.inl rfl)
    | stillOpen => exact .leftOpen c p.db _ _ rfl rfl rfl happ
  · unfold World.rollback
    split
    · exact .quiet rfl rfl (Or.inl rfl)
    · exact .leftOpen c p.db _ _ rfl rfl rfl happ

/-! ## The retraction -/

/-- The retraction transaction inserts at most its row, one tick above the clock it read. -/
theorem retractionBody_appends (env : RetractionEnv) (commitId : Text) (utc : ℤ) (db : Db) :
    ∃ facts last, Appends db (retractionBody env commitId utc db).db facts last := by
  unfold retractionBody
  simp only
  split
  · refine ⟨[.retraction ⟨cString env.randomUuid, cString commitId, _, _, utc⟩], _, ?_, ?_,
      Climbs.single (lt_giveTick env.nowMs _ _)⟩
    · rw [(recordMetaClock_frame _ _ _ _ _).1]
      simp [Fact.event?]
    · rw [(recordMetaClock_frame _ _ _ _ _).2.1]
      rfl
  · exact ⟨[], _, by simp, by simp, Climbs.refl _⟩

/-- **The retraction transaction, complete.** -/
theorem retractionBody_done (env : RetractionEnv) {commitId : Text} (utc : ℤ) {db : Db}
    (hretractable : retractable db commitId = true)
    (hok : (retractionBody env commitId utc db).ok = true) :
    Appends db (retractionBody env commitId utc db).db
        [.retraction (retractionBody env commitId utc db).row]
        (retractionBody env commitId utc db).db.clock ∧
      (retractionBody env commitId utc db).db.metaRows.storeEpoch = db.metaRows.storeEpoch ∧
      Provenance db (retractionBody env commitId utc db).db
        [.retraction (retractionBody env commitId utc db).row] := by
  simp only [retractable, Bool.and_eq_true, Bool.not_eq_true', List.any_eq_true,
    List.any_eq_false, decide_eq_true_eq] at hretractable
  obtain ⟨hknown, hun⟩ := hretractable
  unfold retractionBody at hok ⊢
  simp only at hok ⊢
  split at hok
  · rename_i hguard
    rw [if_pos hguard]
    refine ⟨⟨?_, ?_, ?_⟩, ?_, ?_⟩
    · rw [(recordMetaClock_frame _ _ _ _ _).1]
      simp [Fact.event?]
    · rw [(recordMetaClock_frame _ _ _ _ _).2.1]
      rfl
    · rw [recordMetaClock_clock hok]
      exact Climbs.single (lt_giveTick env.nowMs _ _)
    · exact (recordMetaClock_frame _ _ _ _ _).2.2.2
    · refine .retraction _ hknown ?_ (recordMetaClock_frame _ _ _ _ _).2.2.1
      intro r hr
      simpa using hun r hr
  · exact absurd hok (by simp)

/-- The effect of `AppendRetraction`. -/
theorem effect_appendRetraction (w : World) (c : ConnId) (commitId : Text) (utc : ℤ)
    (env : RetractionEnv) : Effect w (appendRetraction w c commitId utc env).1 := by
  have hself : Appends w.db w.db [] w.db.clock := ⟨by simp, by simp, Climbs.refl _⟩
  unfold appendRetraction
  split
  · exact .quiet rfl rfl (Or.inr rfl)
  split
  · exact .quiet rfl rfl (Or.inr rfl)
  split
  · unfold World.rollback
    split
    · exact .quiet rfl rfl (Or.inl rfl)
    · exact .leftOpen c w.db [] _ rfl rfl rfl hself
  split
  · cases henv : env.commitEnd with
    | committed => exact .committed [] rfl rfl hself rfl (.nothing rfl)
    | rolledBack => exact .quiet rfl rfl (Or.inl rfl)
    | stillOpen => exact .leftOpen c w.db [] _ rfl rfl rfl hself
  · rename_i hretractable
    have hr : retractable w.db commitId = true := by simpa using hretractable
    obtain ⟨facts, last, happ⟩ := retractionBody_appends env commitId utc w.db
    have hdone := retractionBody_done env utc hr
    set p := retractionBody env commitId utc w.db
    simp only
    split
    · rename_i hok
      obtain ⟨ha, hs, hp⟩ := hdone hok
      cases henv : env.commitEnd with
      | committed => exact .committed _ rfl rfl ha hs hp
      | rolledBack => exact .quiet rfl rfl (Or.inl rfl)
      | stillOpen => exact .leftOpen c p.db _ _ rfl rfl rfl happ
    · unfold World.rollback
      split
      · exact .quiet rfl rfl (Or.inl rfl)
      · exact .leftOpen c p.db _ _ rfl rfl rfl happ

/-- Dropping the transaction of one connection leaves no transaction or the one there was. -/
theorem filter_writer (t : Option (ConnId × Db)) (f : ConnId × Db → Bool) :
    t.filter f = none ∨ t.filter f = t := by
  cases t with
  | none => exact Or.inl rfl
  | some t => cases hf : f t <;> simp [hf]

/-- **The effect of every call.** -/
theorem effect_step (w : World) (call : Call) : Effect w (step w call) := by
  cases call with
  | openStore c env =>
    have hw := filter_writer w.writer fun t => t.1 ≠ c
    refine Effect.congr { w with writer := w.writer.filter fun t => t.1 ≠ c }
      (.quiet rfl rfl hw) ?_ ?_ ?_ <;>
    · simp only [step, openStore]
      split_ifs <;> rfl
  | closeStore c => exact .quiet rfl rfl (filter_writer w.writer _)
  | persistBatch c utc events assigned env => exact effect_persistBatch w c utc events assigned env
  | appendRetraction c commitId utc env => exact effect_appendRetraction w c commitId utc env

/-! ## The total order -/

/-- The two stamped tables hold exactly the journal's facts, whose stamps climb from the initial
clock to the persisted one. -/
structure Stamped (init : Hlc) (db : Db) (facts : List Fact) : Prop where
  events : db.selectionEvents = facts.filterMap Fact.event?
  retractions : db.retractions = facts.filterMap Fact.retraction?
  climbs : Climbs init (facts.map Fact.hlc) db.clock

/-- The invariant of the file: its content is stamped, and an open write transaction has only
appended to it. -/
structure Inv (init : Hlc) (w : World) : Prop where
  stamped : Stamped init w.db w.journal.flatten
  writer : ∀ t ∈ w.writer, ∃ facts last, Appends w.db t.2 facts last

theorem inv_created (now : ℤ) (historyId storeEpoch : Text) :
    Inv (hlc now 0) (World.created now historyId storeEpoch) :=
  ⟨⟨rfl, rfl, rfl⟩, by simp [World.created]⟩

theorem Effect.inv {init : Hlc} {w w' : World} (h : Effect w w') (hw : Inv init w) :
    Inv init w' := by
  cases h with
  | quiet db journal writer =>
    refine ⟨by rw [db, journal]; exact hw.stamped, fun t ht => ?_⟩
    rw [db]
    rcases writer with h | h
    · rw [h] at ht
      cases ht
    · exact hw.writer t (h ▸ ht)
  | leftOpen c db facts last same journal writer appends =>
    refine ⟨by rw [same, journal]; exact hw.stamped, fun t ht => ?_⟩
    rw [writer, Option.mem_some_iff] at ht
    subst ht
    rw [same]
    exact ⟨facts, last, appends⟩
  | committed facts journal writer appends storeEpoch provenance =>
    refine ⟨⟨?_, ?_, ?_⟩, fun t ht => ?_⟩
    · rw [appends.events, hw.stamped.events, journal, List.flatten_append, List.filterMap_append]
      simp
    · rw [appends.retractions, hw.stamped.retractions, journal, List.flatten_append,
        List.filterMap_append]
      simp
    · rw [journal, List.flatten_append, List.map_append]
      simpa using hw.stamped.climbs.append appends.climbs
    · rw [writer] at ht
      cases ht

theorem inv_run {init : Hlc} {w : World} (hw : Inv init w) (calls : List Call) :
    Inv init (run step w calls) :=
  run_invariant (fun w call h => (effect_step w call).inv h) hw calls

/-- The stamps of the two tables, in any order, are the stamps of the journal. -/
theorem perm_stamps (facts : List Fact) :
    ((facts.filterMap Fact.event?).map EventRow.hlc ++
      (facts.filterMap Fact.retraction?).map RetractionRow.hlc).Perm (facts.map Fact.hlc) := by
  induction facts with
  | nil => exact List.Perm.refl _
  | cons f facts ih =>
    cases f with
    | event row => exact ih.cons _
    | retraction row => exact List.perm_middle.trans (ih.cons _)

/-- What a `PersistBatch` call adds to the journal: nothing, or one transaction with the given
events in the given order. -/
theorem journal_persistBatch (w : World) (c : ConnId) (utc : ℤ) (events : List Event)
    (assigned : Option Text) (env : BatchEnv) :
    (persistBatch w c utc events assigned env).1.journal = w.journal ∨
      ∃ rows : List EventRow,
        (persistBatch w c utc events assigned env).1.journal
          = w.journal ++ [rows.map Fact.event] ∧
        rows.map EventRow.eventId = events.map fun e => cString e.eventId := by
  unfold persistBatch
  split
  · exact Or.inl rfl
  split
  · exact Or.inl rfl
  set commitId := assigned.getD env.randomUuid
  have hdone := batchBody_done env commitId utc events w.db
  set p := batchBody env commitId utc events w.db
  simp only
  split
  · rename_i hok
    cases henv : env.commitEnd with
    | committed =>
      refine Or.inr ⟨p.events.map (eventRow commitId utc), ?_, ?_⟩
      · rw [← batchFacts_eq]
        rfl
      · have hids := congrArg (List.map cString) (hdone hok).eventIds
        rw [List.map_map, List.map_map] at hids
        rw [List.map_map]
        exact hids
    | rolledBack => exact Or.inl rfl
    | stillOpen => exact Or.inl rfl
  · unfold World.rollback
    split <;> exact Or.inl rfl

/-- **The hybrid logical clock totally orders the facts.**  After any calls by any connections on a
store that `InitializeMeta` created, whatever the wall clock reads and whatever fails: the stored
facts are the committed ones, their points are pairwise distinct and strictly increase in the order
the transactions committed, a batch keeps the order of its events, and the persisted meta clock is
the greatest point assigned, or the initial one. -/
theorem hlc_total_order (now : ℤ) (historyId storeEpoch : Text) (calls : List Call) :
    let w := run step (World.created now historyId storeEpoch) calls
    let stamps := w.journal.flatten.map Fact.hlc
    w.db.selectionEvents = w.journal.flatten.filterMap Fact.event? ∧
    w.db.retractions = w.journal.flatten.filterMap Fact.retraction? ∧
    (w.db.selectionEvents.map EventRow.hlc ++ w.db.retractions.map RetractionRow.hlc).Nodup ∧
    stamps.Pairwise (· < ·) ∧
    (∀ c utc events assigned env,
      (step w (.persistBatch c utc events assigned env)).journal = w.journal ∨
        ∃ rows : List EventRow,
          (step w (.persistBatch c utc events assigned env)).journal
            = w.journal ++ [rows.map Fact.event] ∧
          rows.map EventRow.eventId = events.map fun e => cString e.eventId) ∧
    (∀ h ∈ stamps, h ≤ w.db.clock) ∧
    (w.db.clock ∈ stamps ∨ stamps = [] ∧ w.db.clock = hlc now 0) := by
  intro w stamps
  obtain ⟨⟨hev, hre, hcl⟩, -⟩ := inv_run (inv_created now historyId storeEpoch) calls
  refine ⟨hev, hre, ?_, hcl.pairwise, fun c utc events assigned env =>
    journal_persistBatch w c utc events assigned env, hcl.le_of_mem, hcl.mem_or⟩
  rw [hev, hre, (perm_stamps _).nodup_iff]
  exact hcl.pairwise.imp fun h => h.ne

end FactStore
end SemanticMemory
