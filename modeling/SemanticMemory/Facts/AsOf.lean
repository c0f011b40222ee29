import SemanticMemory.Facts.Clock

/-!
# As-of reads of the fact store

`kQueryActiveAsOf` nests two at-or-before comparisons: one on the event, one on the retractions of
its commit.  `activeAsOfRows_eq` reads it as the general as-of answer of `AsOf` at the shape of the
two tables, sorted by clock point and event id.

* `query_stable`: once the meta clock has reached a point, no later call changes the answer at it.
* `Linked`: what the tables keep beyond their stamps --- every event and every retraction names a
  known commit, a retraction comes after every event of its commit, and identifiers are unique.
  This is what an incremental reader of the tables relies on.
-/

namespace SemanticMemory
namespace FactStore

open Runs

/-! ## The query as an as-of answer -/

/-- Events are entries, retractions are tombstones, commits are groups. -/
def tables : AsOf.Shape EventRow RetractionRow Text Hlc where
  stamp := EventRow.hlc
  group := EventRow.commitId
  tombStamp := RetractionRow.hlc
  tombGroup := RetractionRow.commitId

/-- **What the query means.** -/
theorem activeAsOfRows_eq (db : Db) (p l : ℤ) :
    activeAsOfRows db p l =
      (AsOf.activeAsOf tables db.selectionEvents db.retractions (hlc p l)).insertionSort
        fun a b => a.orderKey ≤ b.orderKey := by
  unfold activeAsOfRows AsOf.activeAsOf
  congr 1
  refine List.filter_congr fun e _ => decide_eq_decide.mpr ?_
  simp only [atOrBefore_iff, AsOf.RetractedAt, tables]

variable {facts : List Fact}

/-- Appending above a point leaves the answer at the point alone. -/
theorem Appends.activeAsOfRows_eq {db db' : Db} {last : Hlc} (h : Appends db db' facts last)
    {p l : ℤ} (hp : hlc p l ≤ db.clock) : activeAsOfRows db' p l = activeAsOfRows db p l := by
  have hlt : ∀ f ∈ facts, hlc p l < f.hlc := fun f hf =>
    hp.trans_lt (h.climbs.lt_of_mem _ (List.mem_map_of_mem hf))
  have hevents : ∀ e ∈ facts.filterMap Fact.event?, hlc p l < tables.stamp e := by
    intro e he
    obtain ⟨f, hf, hfe⟩ := List.mem_filterMap.mp he
    cases f with
    | event row =>
      cases hfe
      exact hlt _ hf
    | retraction row => cases hfe
  have hretractions : ∀ r ∈ facts.filterMap Fact.retraction?, hlc p l < tables.tombStamp r := by
    intro r hr
    obtain ⟨f, hf, hfr⟩ := List.mem_filterMap.mp hr
    cases f with
    | event row => cases hfr
    | retraction row =>
      cases hfr
      exact hlt _ hf
  rw [FactStore.activeAsOfRows_eq, FactStore.activeAsOfRows_eq, h.events, h.retractions,
    AsOf.activeAsOf_append hevents hretractions]

/-! ## Stability along runs -/

/-- What later calls do to the file, seen from a point the clock has reached. -/
structure Later (db db' : Db) : Prop where
  clock : db.clock ≤ db'.clock
  answer : ∀ p l, hlc p l ≤ db.clock → activeAsOfRows db' p l = activeAsOfRows db p l

theorem Later.refl (db : Db) : Later db db := ⟨le_refl _, fun _ _ _ => rfl⟩

theorem Later.trans {db db' db'' : Db} (h : Later db db') (h' : Later db' db'') :
    Later db db'' :=
  ⟨h.clock.trans h'.clock, fun p l hp =>
    (h'.answer p l (hp.trans h.clock)).trans (h.answer p l hp)⟩

theorem Effect.later {w w' : World} (h : Effect w w') : Later w.db w'.db := by
  cases h with
  | quiet db _ _ => exact db ▸ Later.refl _
  | leftOpen c db facts last same _ _ _ => exact same ▸ Later.refl _
  | committed facts _ _ appends _ _ =>
    exact ⟨appends.climbs.le, fun p l hp => appends.activeAsOfRows_eq hp⟩

/-- The clock never goes back, and no answer at a point it has passed changes. -/
theorem later_run (w : World) (calls : List Call) : Later w.db (run step w calls).db :=
  run_rel (R := fun w w' : World => Later w.db w'.db) (fun w => Later.refl w.db)
    (fun _ _ _ => Later.trans) (fun w call => (effect_step w call).later) w calls

variable {init : Hlc}

/-- A connection that holds an open write transaction sees, at a point the clock has reached, what
the file holds. -/
theorem Inv.visible_answer {w : World} (hw : Inv init w) (c : ConnId) {p l : ℤ}
    (hp : hlc p l ≤ w.db.clock) : activeAsOfRows (w.visible c) p l = activeAsOfRows w.db p l := by
  unfold World.visible
  split
  · rename_i owner db hwriter
    split
    · obtain ⟨facts, last, happ⟩ := hw.writer (owner, db) hwriter
      exact happ.activeAsOfRows_eq hp
    · rfl
  · rfl

/-- A query that succeeds returns the rows it can see. -/
theorem queryActiveEventsAsOf_eq_some {w : World} {c : ConnId} {p l : ℤ} {stepOk : Bool}
    {answer : List Event} (h : queryActiveEventsAsOf w c p l stepOk = some answer) :
    answer = (activeAsOfRows (w.visible c) p l).map EventRow.toEvent := by
  unfold queryActiveEventsAsOf at h
  split at h
  · exact (Option.some.inj h).symm
  · cases h

/-- **As-of reads are stable.**  Take any moment of a store's life and a point the meta clock has
then reached.  Whatever any connections do afterwards, under any wall clock and any failures, a
query of the point returns the list it returned at that moment. -/
theorem query_stable (now : ℤ) (historyId storeEpoch : Text) (before later : List Call)
    (c c' : ConnId) (p l : ℤ)
    (hp : hlc p l ≤ (run step (World.created now historyId storeEpoch) before).db.clock)
    (stepOk stepOk' : Bool) (answer answer' : List Event)
    (hanswer : queryActiveEventsAsOf
      (run step (World.created now historyId storeEpoch) before) c p l stepOk = some answer)
    (hanswer' : queryActiveEventsAsOf
      (run step (World.created now historyId storeEpoch) (before ++ later)) c' p l stepOk'
        = some answer') :
    answer' = answer := by
  have hinv := inv_run (inv_created now historyId storeEpoch) before
  have hinv' := inv_run (inv_created now historyId storeEpoch) (before ++ later)
  have hlater := later_run (run step (World.created now historyId storeEpoch) before) later
  rw [← run_append] at hlater
  rw [queryActiveEventsAsOf_eq_some hanswer, queryActiveEventsAsOf_eq_some hanswer',
    hinv.visible_answer c hp, hinv'.visible_answer c' (hp.trans hlater.clock),
    hlater.answer p l hp]

/-- A store opened at 5 on which one connection has committed one event at 10. -/
def sampleBefore : List Call :=
  [.openStore 0 {}, .persistBatch 0 10
    [{ eventId := [1], schemaId := [2], canonicalSegmentInput := [3], category := [4],
       precedingText := [], finalSelectionText := [5], confirmationSource := [6],
       sessionId := [7] }] (some [8]) { nowMs := fun _ => 10 }]

/-- The event is still in the answer at its own point after its commit is retracted. -/
theorem query_stable_sample :
    let later : List Call := [.appendRetraction 0 [8] 20 { nowMs := 20, randomUuid := [9] }]
    let answer (calls : List Call) : List Event :=
      (queryActiveEventsAsOf (run step (World.created 5 [] []) calls) 0 10 0 true).getD []
    answer (sampleBefore ++ later) = answer sampleBefore ∧ (answer sampleBefore).length = 1 := by
  refine ⟨query_stable 5 [] [] sampleBefore
    [.appendRetraction 0 [8] 20 { nowMs := 20, randomUuid := [9] }] 0 0 10 0 (le_of_eq rfl)
    true true _ _ ?_ ?_, by decide⟩ <;> decide

/-! ## The links between the tables -/

/-- What the tables keep along every run. -/
structure Linked (db : Db) : Prop where
  eventCommit : ∀ e ∈ db.selectionEvents, ∃ k ∈ db.commits, k.commitId = e.commitId
  retractionCommit : ∀ r ∈ db.retractions, ∃ k ∈ db.commits, k.commitId = r.commitId
  retractionsAfter : AsOf.TombsAfter tables db.selectionEvents db.retractions
  eventIds : (db.selectionEvents.map EventRow.eventId).Nodup
  retractionOnce : (db.retractions.map RetractionRow.commitId).Nodup

theorem linked_initial (now : ℤ) (historyId storeEpoch : Text) :
    Linked (initializeMeta now historyId storeEpoch) := by
  constructor <;> simp [initializeMeta, AsOf.TombsAfter]

theorem filterMap_map_event (rows : List EventRow) :
    (rows.map Fact.event).filterMap Fact.event? = rows := by
  induction rows with
  | nil => rfl
  | cons row rows ih => rw [List.map_cons, List.filterMap_cons_some (by rfl), ih]

theorem filterMap_map_retraction (rows : List EventRow) :
    (rows.map Fact.event).filterMap Fact.retraction? = [] := by
  induction rows with
  | nil => rfl
  | cons row rows ih => rw [List.map_cons, List.filterMap_cons_none (by rfl), ih]

/-- A batch is linked to its own new commit, which nothing has retracted yet. -/
theorem Linked.batch {db db' : Db} {commit : CommitRow} {rows : List EventRow} (h : Linked db)
    (hfresh : ∀ r ∈ db.commits, r.commitId ≠ commit.commitId)
    (hcommits : db'.commits = db.commits ++ [commit])
    (hids : ∀ row ∈ rows, row.commitId = commit.commitId)
    (hnodup : (rows.map EventRow.eventId).Nodup)
    (hnew : ∀ row ∈ rows, ∀ r ∈ db.selectionEvents, r.eventId ≠ row.eventId)
    (hevents : db'.selectionEvents = db.selectionEvents ++ rows)
    (hretractions : db'.retractions = db.retractions) : Linked db' := by
  have hunretracted : ∀ r ∈ db.retractions, r.commitId ≠ commit.commitId := by
    intro r hr heq
    obtain ⟨k, hk, hkr⟩ := h.retractionCommit r hr
    exact hfresh k hk (hkr.trans heq)
  constructor
  · intro e he
    rw [hevents, List.mem_append] at he
    rw [hcommits]
    rcases he with he | he
    · obtain ⟨k, hk, hke⟩ := h.eventCommit e he
      exact ⟨k, List.mem_append_left _ hk, hke⟩
    · exact ⟨commit, by simp, (hids e he).symm⟩
  · intro r hr
    rw [hretractions] at hr
    obtain ⟨k, hk, hkr⟩ := h.retractionCommit r hr
    exact ⟨k, by rw [hcommits]; exact List.mem_append_left _ hk, hkr⟩
  · intro e he r hr hgroup
    rw [hretractions] at hr
    rw [hevents, List.mem_append] at he
    rcases he with he | he
    · exact h.retractionsAfter e he r hr hgroup
    · exact absurd (hgroup.trans (hids e he)) (hunretracted r hr)
  · rw [hevents, List.map_append, List.nodup_append]
    refine ⟨h.eventIds, hnodup, ?_⟩
    intro a ha b hb hab
    obtain ⟨r, hr, rfl⟩ := List.mem_map.mp ha
    obtain ⟨row, hrow, rfl⟩ := List.mem_map.mp hb
    exact hnew row hrow r hr hab
  · rw [hretractions]
    exact h.retractionOnce

/-- A retraction names a known commit for the first time, after everything so far. -/
theorem Linked.retraction {db db' : Db} {row : RetractionRow} (h : Linked db)
    (hbelow : ∀ e ∈ db.selectionEvents, e.hlc < row.hlc)
    (hknown : ∃ k ∈ db.commits, k.commitId = row.commitId)
    (hfirst : ∀ r ∈ db.retractions, r.commitId ≠ row.commitId)
    (hcommits : db'.commits = db.commits)
    (hevents : db'.selectionEvents = db.selectionEvents)
    (hretractions : db'.retractions = db.retractions ++ [row]) : Linked db' := by
  constructor
  · rw [hevents, hcommits]
    exact h.eventCommit
  · intro r hr
    rw [hretractions, List.mem_append, List.mem_singleton] at hr
    rw [hcommits]
    rcases hr with hr | rfl
    · exact h.retractionCommit r hr
    · exact hknown
  · intro e he r hr hgroup
    rw [hevents] at he
    rw [hretractions, List.mem_append, List.mem_singleton] at hr
    rcases hr with hr | rfl
    · exact h.retractionsAfter e he r hr hgroup
    · exact hbelow e he
  · rw [hevents]
    exact h.eventIds
  · rw [hretractions, List.map_append, List.nodup_append]
    refine ⟨h.retractionOnce, List.nodup_singleton _, ?_⟩
    intro a ha b hb hab
    obtain ⟨r, hr, rfl⟩ := List.mem_map.mp ha
    rw [List.map_singleton, List.mem_singleton] at hb
    exact hfirst r hr (hab.trans hb)

theorem Stamped.event_le {db : Db} (h : Stamped init db facts) :
    ∀ e ∈ db.selectionEvents, e.hlc ≤ db.clock := by
  intro e he
  rw [h.events] at he
  obtain ⟨f, hf, hfe⟩ := List.mem_filterMap.mp he
  cases f with
  | event row =>
    cases hfe
    exact h.climbs.le_of_mem _ (List.mem_map_of_mem hf)
  | retraction row => cases hfe

theorem Stamped.retraction_le {db : Db} (h : Stamped init db facts) :
    ∀ r ∈ db.retractions, r.hlc ≤ db.clock := by
  intro r hr
  rw [h.retractions] at hr
  obtain ⟨f, hf, hfr⟩ := List.mem_filterMap.mp hr
  cases f with
  | event row => cases hfr
  | retraction row =>
    cases hfr
    exact h.climbs.le_of_mem _ (List.mem_map_of_mem hf)

theorem Effect.linked {w w' : World} (h : Effect w w') (hw : Inv init w) (hl : Linked w.db) :
    Linked w'.db := by
  cases h with
  | quiet db _ _ => exact db ▸ hl
  | leftOpen c db facts last same _ _ _ => exact same ▸ hl
  | committed facts _ _ appends _ provenance =>
    have hevents := appends.events
    have hretractions := appends.retractions
    have hclimbs := appends.climbs
    cases provenance with
    | batch commit rows fresh commits commitIds eventIds freshIds =>
      rw [filterMap_map_event] at hevents
      rw [filterMap_map_retraction, List.append_nil] at hretractions
      exact hl.batch fresh commits commitIds eventIds freshIds hevents hretractions
    | retraction row known unretracted commits =>
      rw [show [Fact.retraction row].filterMap Fact.event? = [] from rfl, List.append_nil]
        at hevents
      refine hl.retraction (fun e he => ?_) known unretracted commits hevents hretractions
      exact (hw.stamped.event_le e he).trans_lt (hclimbs.lt_of_mem _ List.mem_cons_self)
    | nothing same => exact same ▸ hl

/-- **The links hold in every store a run can reach.** -/
theorem linked_run (now : ℤ) (historyId storeEpoch : Text) (calls : List Call) :
    Linked (run step (World.created now historyId storeEpoch) calls).db :=
  (run_invariant (I := fun w => Inv (hlc now 0) w ∧ Linked w.db)
    (fun w call h => ⟨(effect_step w call).inv h.1, (effect_step w call).linked h.1 h.2⟩)
    ⟨inv_created now historyId storeEpoch, linked_initial now historyId storeEpoch⟩ calls).2

end FactStore
end SemanticMemory
