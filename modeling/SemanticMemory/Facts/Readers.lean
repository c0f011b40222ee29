import SemanticMemory.Facts.AsOf
import SemanticMemory.Lib.Mirror

/-!
# The Python readers of the facts

What the daemon reads from `facts.sqlite3`: the store identity, the changes between two clock
points, the commit of every event up to a point, and the active events at a point
(`daemon/delta.py`, `daemon/oracle.py`, `daemon/generation.py`).

* A read sees the committed tables.  That a statement fails is an outcome of the caller's
  environment; that the identity is incomplete, or a change read exceeds the clock, is decided here.
* `seen` and `seenRetractions` are the two tables as the readers show them, without the columns
  nobody downstream looks at, and `shown` is their shape; `served_readActiveEvents` states every read
  of the active events as an as-of answer over them.
* `Extends`: what a call of the store does to the tables, as far as a reader can tell.
-/

namespace SemanticMemory
namespace FactStore

open Runs

structure StoredEvent where
  eventId : Text
  commitId : Text
  schemaId : Text
  canonicalSegmentInput : Text
  category : Text
  finalSelectionText : Text
  hlc : Hlc
  precedingText : Text := []
  deriving DecidableEq

/-- The columns that every reader selects. -/
def EventRow.stored (row : EventRow) : StoredEvent where
  eventId := row.eventId
  commitId := row.commitId
  schemaId := row.schemaId
  canonicalSegmentInput := row.canonicalSegmentInput
  category := row.category
  finalSelectionText := row.finalSelectionText
  hlc := row.hlc
  precedingText := row.precedingText

/-- A snapshot event: `preceding_text` keeps its default. -/
def StoredEvent.served (event : StoredEvent) : StoredEvent := { event with precedingText := [] }

/-- The sort key `(hlc, event_id)`. -/
def StoredEvent.orderKey (event : StoredEvent) : Hlc ×ₗ Text := toLex (event.hlc, event.eventId)

/-- Sorting by `(hlc, event_id)`. -/
def sortEvents (events : List StoredEvent) : List StoredEvent :=
  events.insertionSort fun a b => a.orderKey ≤ b.orderKey

theorem perm_sortEvents (events : List StoredEvent) : (sortEvents events).Perm events :=
  List.perm_insertionSort _ _

/-- `read_facts_identity`: the epoch and the meta clock; `none` is the `DeltaError` of an incomplete
identity. -/
def readFactsIdentity (db : Db) : Option (Text × Hlc) :=
  if db.metaRows.storeEpoch = [] ∨ db.metaRows.hlcPhysicalMs < 0 ∨ db.metaRows.hlcLogical < 0 then
    none
  else some (db.metaRows.storeEpoch, db.clock)

/-- `FactReader.read_active_events`. -/
def readActiveEvents (db : Db) (asOf : Hlc) : List StoredEvent :=
  (activeAsOfRows db (ofLex asOf).1 (ofLex asOf).2).map EventRow.stored

/-- A retraction as `_read_fact_changes` returns it. -/
abbrev Tombstone := Text × Hlc

/-- `_read_fact_changes`: the events by `(hlc, event_id)` and the retractions by
`(hlc, commit_id)`. -/
def readFactChanges (db : Db) (lower upper : Hlc) :
    Option (List StoredEvent × List Tombstone) :=
  match readFactsIdentity db with
  | none => none
  | some (_, clock) =>
    if upper > clock then none
    else
      let inRange (point : Hlc) : Bool :=
        after point (ofLex lower).1 (ofLex lower).2 &&
          atOrBefore point (ofLex upper).1 (ofLex upper).2
      some (sortEvents ((db.selectionEvents.filter fun e => inRange e.hlc).map EventRow.stored),
        ((db.retractions.filter fun r => inRange r.hlc).map
          fun r => (r.commitId, r.hlc)).insertionSort
            fun a b => (toLex (a.2, a.1) : Hlc ×ₗ Text) ≤ toLex (b.2, b.1))

/-- `_read_base_commit_ids`: the entries `event_id → commit_id`. -/
def readBaseCommitIds (db : Db) (upper : Hlc) : List (Text × Text) :=
  (db.selectionEvents.filter fun e => atOrBefore e.hlc (ofLex upper).1 (ofLex upper).2).map
    fun e => (e.eventId, e.commitId)

/-! ## The tables as the readers show them -/

def seen (db : Db) : List StoredEvent := db.selectionEvents.map fun e => e.stored.served

def seenRetractions (db : Db) : List Tombstone :=
  db.retractions.map fun r => (r.commitId, r.hlc)

/-- Their shape. -/
def shown : AsOf.Shape StoredEvent Tombstone Text Hlc where
  stamp := StoredEvent.hlc
  group := StoredEvent.commitId
  tombStamp := Prod.snd
  tombGroup := Prod.fst

theorem served_readActiveEvents (db : Db) (p : Hlc) :
    (readActiveEvents db p).map StoredEvent.served =
      sortEvents (AsOf.activeAsOf shown (seen db) (seenRetractions db) p) := by
  have hmap : AsOf.activeAsOf shown (seen db) (seenRetractions db) p =
      (AsOf.activeAsOf tables db.selectionEvents db.retractions p).map fun e => e.stored.served :=
    AsOf.activeAsOf_map (f := fun e : EventRow => e.stored.served)
      (g := fun r : RetractionRow => (r.commitId, r.hlc)) (fun _ => rfl) (fun _ => rfl)
      (fun _ => rfl) (fun _ => rfl) db.selectionEvents db.retractions p
  rw [hmap, readActiveEvents, List.map_map, activeAsOfRows_eq, sortEvents]
  exact List.map_insertionSort _ _ _ _ fun a _ b _ => Iff.rfl

variable {db : Db}

theorem readFactChanges_eq_some {lower upper : Hlc} {events : List StoredEvent}
    {retractions : List Tombstone} (h : readFactChanges db lower upper = some (events, retractions)) :
    upper ≤ db.clock ∧
      (∀ x, x ∈ events.map StoredEvent.served ↔ x ∈ AsOf.entriesIn shown (seen db) lower upper) ∧
      ∀ t, t ∈ retractions ↔ t ∈ AsOf.tombsIn shown (seenRetractions db) lower upper := by
  unfold readFactChanges readFactsIdentity at h
  split at h
  · cases h
  · rename_i clock hid
    split at h
    · cases h
    · rename_i hle
      split at hid
      · cases hid
      · cases hid
        obtain ⟨rfl, rfl⟩ := Prod.mk.inj (Option.some.inj h)
        refine ⟨not_lt.mp hle, fun x => ?_, fun t => ?_⟩
        · rw [((perm_sortEvents _).map _).mem_iff, AsOf.mem_entriesIn]
          simp only [List.mem_map, List.mem_filter, seen, Bool.and_eq_true, decide_eq_true_eq,
            after_iff, atOrBefore_iff]
          constructor
          · rintro ⟨_, ⟨e, ⟨he, hlo, hup⟩, rfl⟩, rfl⟩
            exact ⟨⟨e, he, rfl⟩, hlo, hup⟩
          · rintro ⟨⟨e, he, rfl⟩, hlo, hup⟩
            exact ⟨_, ⟨e, ⟨he, hlo, hup⟩, rfl⟩, rfl⟩
        · rw [(List.perm_insertionSort _ _).mem_iff, AsOf.mem_tombsIn]
          simp only [List.mem_map, List.mem_filter, seenRetractions, Bool.and_eq_true,
            decide_eq_true_eq, after_iff, atOrBefore_iff]
          constructor
          · rintro ⟨r, ⟨hr, hlo, hup⟩, rfl⟩
            exact ⟨⟨r, hr, rfl⟩, hlo, hup⟩
          · rintro ⟨⟨r, hr, rfl⟩, hlo, hup⟩
            exact ⟨r, ⟨hr, hlo, hup⟩, rfl⟩

theorem readBaseCommitIds_eq (db : Db) (p : Hlc) :
    readBaseCommitIds db p =
      ((seen db).filter fun x => x.hlc ≤ p).map fun x => (x.eventId, x.commitId) := by
  rw [readBaseCommitIds, seen, List.filter_map, List.map_map]
  refine congrArg _ (List.filter_congr fun e _ => decide_eq_decide.mpr ?_)
  rw [atOrBefore_iff]
  rfl

/-! ## What a reader can rely on -/

/-- The tables of a store, as a reader relies on them. -/
structure Settled (db : Db) : Prop where
  tombsAfter : AsOf.TombsAfter shown (seen db) (seenRetractions db)
  eventIds : ((seen db).map StoredEvent.eventId).Nodup
  event_le : ∀ x ∈ seen db, x.hlc ≤ db.clock
  retraction_le : ∀ t ∈ seenRetractions db, t.2 ≤ db.clock

theorem settled_of_inv {init : Hlc} {w : World} (hw : Inv init w) (hl : Linked w.db) :
    Settled w.db where
  tombsAfter := by
    intro x hx t ht hgroup
    obtain ⟨e, he, rfl⟩ := List.mem_map.mp hx
    obtain ⟨r, hr, rfl⟩ := List.mem_map.mp ht
    exact hl.retractionsAfter e he r hr hgroup
  eventIds := by
    rw [seen, List.map_map]
    exact hl.eventIds
  event_le := by
    intro x hx
    obtain ⟨e, he, rfl⟩ := List.mem_map.mp hx
    exact hw.stamped.event_le e he
  retraction_le := by
    intro t ht
    obtain ⟨r, hr, rfl⟩ := List.mem_map.mp ht
    exact hw.stamped.retraction_le r hr

/-- An event that is shown is known by its identifier. -/
theorem Settled.eq_of_eventId (h : Settled db) {x y : StoredEvent} (hx : x ∈ seen db)
    (hy : y ∈ seen db) (hid : x.eventId = y.eventId) : x = y :=
  List.inj_on_of_nodup_map h.eventIds hx hy hid

theorem Settled.nodup_seen (h : Settled db) : (seen db).Nodup :=
  List.Nodup.of_map _ h.eventIds

/-- What time does to the tables: facts above the old clock are appended. -/
structure Extends (db db' : Db) : Prop where
  clock : db.clock ≤ db'.clock
  events : ∃ new, seen db' = seen db ++ new ∧ ∀ x ∈ new, db.clock < x.hlc
  retractions : ∃ new, seenRetractions db' = seenRetractions db ++ new ∧ ∀ t ∈ new, db.clock < t.2

theorem Extends.refl (db : Db) : Extends db db :=
  ⟨le_refl _, ⟨[], by simp⟩, ⟨[], by simp⟩⟩

theorem Extends.trans {db db' db'' : Db} (h : Extends db db') (h' : Extends db' db'') :
    Extends db db'' := by
  obtain ⟨e, he, hlt⟩ := h.events
  obtain ⟨e', he', hlt'⟩ := h'.events
  obtain ⟨r, hr, hrlt⟩ := h.retractions
  obtain ⟨r', hr', hrlt'⟩ := h'.retractions
  refine ⟨h.clock.trans h'.clock, ⟨e ++ e', by rw [he', he, List.append_assoc], fun x hx => ?_⟩,
    ⟨r ++ r', by rw [hr', hr, List.append_assoc], fun t ht => ?_⟩⟩
  · rcases List.mem_append.mp hx with hx | hx
    · exact hlt x hx
    · exact h.clock.trans_lt (hlt' x hx)
  · rcases List.mem_append.mp ht with ht | ht
    · exact hrlt t ht
    · exact h.clock.trans_lt (hrlt' t ht)

theorem Appends.extends {db db' : Db} {facts : List Fact} {last : Hlc}
    (h : Appends db db' facts last) (hclock : db.clock ≤ db'.clock) : Extends db db' := by
  have hlt : ∀ f ∈ facts, db.clock < f.hlc := fun f hf =>
    h.climbs.lt_of_mem _ (List.mem_map_of_mem hf)
  refine ⟨hclock, ⟨(facts.filterMap Fact.event?).map fun e => e.stored.served, ?_, ?_⟩,
    ⟨(facts.filterMap Fact.retraction?).map fun r => (r.commitId, r.hlc), ?_, ?_⟩⟩
  · rw [seen, h.events, List.map_append]
    rfl
  · intro x hx
    obtain ⟨e, he, rfl⟩ := List.mem_map.mp hx
    obtain ⟨f, hf, hfe⟩ := List.mem_filterMap.mp he
    cases f with
    | event row =>
      cases hfe
      exact hlt _ hf
    | retraction row => cases hfe
  · rw [seenRetractions, h.retractions, List.map_append]
    rfl
  · intro t ht
    obtain ⟨r, hr, rfl⟩ := List.mem_map.mp ht
    obtain ⟨f, hf, hfr⟩ := List.mem_filterMap.mp hr
    cases f with
    | event row => cases hfr
    | retraction row =>
      cases hfr
      exact hlt _ hf

theorem extends_step (w : World) (call : Call) : Extends w.db (step w call).db := by
  cases effect_step w call with
  | quiet db _ _ => exact db ▸ Extends.refl _
  | leftOpen c db facts last same _ _ _ => exact same ▸ Extends.refl _
  | committed facts _ _ appends _ _ => exact appends.extends appends.climbs.le

/-- Answers at a point the clock has reached do not change. -/
theorem Extends.activeAsOf {db db' : Db} (h : Extends db db') {p : Hlc} (hp : p ≤ db.clock) :
    AsOf.activeAsOf shown (seen db') (seenRetractions db') p =
      AsOf.activeAsOf shown (seen db) (seenRetractions db) p := by
  obtain ⟨e, he, hlt⟩ := h.events
  obtain ⟨r, hr, hrlt⟩ := h.retractions
  rw [he, hr]
  exact AsOf.activeAsOf_append (fun x hx => hp.trans_lt (hlt x hx)) fun t ht =>
    hp.trans_lt (hrlt t ht)

/-- Nor do mirrors up to it. -/
theorem Extends.mirror {db db' : Db} (h : Extends db db') {p q : Hlc} (hq : q ≤ db.clock)
    {held : List StoredEvent} {gone : List Tombstone}
    (hm : AsOf.Mirror shown (seen db) (seenRetractions db) p q held gone) :
    AsOf.Mirror shown (seen db') (seenRetractions db') p q held gone := by
  obtain ⟨e, he, hlt⟩ := h.events
  obtain ⟨r, hr, hrlt⟩ := h.retractions
  rw [he, hr]
  exact hm.extend (fun x hx => hq.trans_lt (hlt x hx)) fun t ht => hq.trans_lt (hrlt t ht)

theorem Extends.readBaseCommitIds {db db' : Db} (h : Extends db db') {p : Hlc}
    (hp : p ≤ db.clock) :
    FactStore.readBaseCommitIds db' p = FactStore.readBaseCommitIds db p := by
  obtain ⟨e, he, hlt⟩ := h.events
  have hnew : (e.filter fun x => x.hlc ≤ p) = [] :=
    List.filter_eq_nil_iff.mpr fun x hx => by simpa using hp.trans_lt (hlt x hx)
  rw [readBaseCommitIds_eq, readBaseCommitIds_eq, he, List.filter_append, hnew, List.append_nil]

theorem Extends.mem_seen {db db' : Db} (h : Extends db db') {x : StoredEvent}
    (hx : x ∈ seen db) : x ∈ seen db' := by
  obtain ⟨e, he, -⟩ := h.events
  exact he ▸ List.mem_append_left _ hx

theorem Extends.mem_seenRetractions {db db' : Db} (h : Extends db db') {t : Tombstone}
    (ht : t ∈ seenRetractions db) : t ∈ seenRetractions db' := by
  obtain ⟨r, hr, -⟩ := h.retractions
  exact hr ▸ List.mem_append_left _ ht

theorem extends_calls (w : World) (calls : List Call) : Extends w.db (run step w calls).db :=
  run_rel (R := fun w w' : World => Extends w.db w'.db) (fun w => Extends.refl w.db)
    (fun _ _ _ => Extends.trans) extends_step w calls

/-! ## The identity stays readable -/

/-- A clock that may be written to the meta rows. -/
def Db.Ticking (db : Db) : Prop := 0 ≤ db.metaRows.hlcPhysicalMs ∧ 0 ≤ db.metaRows.hlcLogical

theorem giveTick_nonneg {p l : ℤ} (hp : 0 ≤ p) (hl : 0 ≤ l) (now : ℤ) :
    0 ≤ (giveTick now p l).1 ∧ 0 ≤ (giveTick now p l).2 := by
  unfold giveTick
  split
  · rename_i hlt
    exact ⟨hp.trans hlt.le, le_rfl⟩
  · exact ⟨hp, by omega⟩

theorem insertEvents_nonneg (env : BatchEnv) (commitId : Text) (utc : ℤ) (i : ℕ)
    (events : List Event) (db : Db) {p l : ℤ} (hp : 0 ≤ p) (hl : 0 ≤ l) :
    0 ≤ (insertEvents env commitId utc i events db p l).physical ∧
      0 ≤ (insertEvents env commitId utc i events db p l).logical := by
  induction events generalizing i db p l with
  | nil => exact ⟨hp, hl⟩
  | cons e rest ih =>
    have htick := giveTick_nonneg hp hl (env.nowMs i)
    unfold insertEvents
    simp only
    split
    · split
      · exact ih (i + 1) _ htick.1 htick.2
      · exact htick
    · exact htick

theorem ticking_recordMetaClock {physicalOk logicalOk : Bool} {p l : ℤ} (hp : 0 ≤ p) (hl : 0 ≤ l)
    (h : (recordMetaClock physicalOk logicalOk p l db).1 = true) :
    (recordMetaClock physicalOk logicalOk p l db).2.Ticking := by
  unfold recordMetaClock at h ⊢
  split
  · split
    · exact ⟨hp, hl⟩
    · rename_i h₁ h₂
      simp [h₁, h₂] at h
  · rename_i h₁
    simp [h₁] at h

theorem ticking_batchBody {env : BatchEnv} {commitId : Text} {utc : ℤ} {events : List Event} (h : (batchBody env commitId utc events db).ok = true) :
    (batchBody env commitId utc events db).db.Ticking := by
  unfold batchBody at h ⊢
  simp only at h ⊢
  split at h
  · rename_i hguard
    rw [if_pos hguard]
    have hnonneg := insertEvents_nonneg env commitId utc 0 events
      { db with commits := db.commits ++ [⟨cString commitId, utc⟩] } hguard.2.1 hguard.2.2.1
    split at h
    · rename_i hp
      rw [if_pos hp]
      exact ticking_recordMetaClock hnonneg.1 hnonneg.2 h
    · rename_i hp
      exact absurd h hp
  · cases h

theorem ticking_retractionBody {env : RetractionEnv} {commitId : Text} {utc : ℤ}
    (hdb : db.Ticking) (h : (retractionBody env commitId utc db).ok = true) :
    (retractionBody env commitId utc db).db.Ticking := by
  have htick := giveTick_nonneg hdb.1 hdb.2 env.nowMs
  unfold retractionBody at h ⊢
  simp only at h ⊢
  split at h
  · rename_i hguard
    rw [if_pos hguard]
    exact ticking_recordMetaClock htick.1 htick.2 h
  · cases h

/-- No call leaves a clock that a reader refuses. -/
theorem ticking_step {w : World} (h : w.db.Ticking) (call : Call) : (step w call).db.Ticking := by
  cases call with
  | openStore c env =>
    simp only [step, openStore]
    split_ifs <;> exact h
  | closeStore c => exact h
  | persistBatch c utc events assigned env =>
    simp only [step, persistBatch]
    split
    · exact h
    split
    · exact h
    split
    · rename_i hok
      cases hend : env.commitEnd with
      | committed => exact ticking_batchBody hok
      | rolledBack => exact h
      | stillOpen => exact h
    · unfold World.rollback
      split <;> exact h
  | appendRetraction c commitId utc env =>
    simp only [step, appendRetraction]
    split
    · exact h
    split
    · exact h
    split
    · unfold World.rollback
      split <;> exact h
    split
    · cases hend : env.commitEnd <;> exact h
    split
    · rename_i hok
      cases hend : env.commitEnd with
      | committed => exact ticking_retractionBody h hok
      | rolledBack => exact h
      | stillOpen => exact h
    · unfold World.rollback
      split <;> exact h

theorem storeEpoch_facts (w : World) (call : Call) :
    (step w call).db.metaRows.storeEpoch = w.db.metaRows.storeEpoch := by
  cases effect_step w call with
  | quiet db => rw [db]
  | leftOpen c db facts last same => rw [same]
  | committed facts journal writer appends storeEpoch => exact storeEpoch

theorem readFactsIdentity_eq_some {epoch : Text} {clock : Hlc}
    (h : readFactsIdentity db = some (epoch, clock)) :
    epoch = db.metaRows.storeEpoch ∧ clock = db.clock ∧ epoch ≠ [] ∧ 0 ≤ (ofLex clock).1 ∧
      0 ≤ (ofLex clock).2 := by
  unfold readFactsIdentity at h
  split at h
  · cases h
  · rename_i hok
    obtain ⟨rfl, rfl⟩ := Prod.mk.inj (Option.some.inj h)
    simp only [not_or, not_lt] at hok
    exact ⟨rfl, rfl, hok.1, hok.2.1, hok.2.2⟩

theorem readFactsIdentity_of_ticking (hepoch : db.metaRows.storeEpoch ≠ []) (h : db.Ticking) :
    readFactsIdentity db = some (db.metaRows.storeEpoch, db.clock) := by
  unfold readFactsIdentity
  rw [if_neg]
  simp only [not_or, not_lt]
  exact ⟨hepoch, h.1, h.2⟩

/-- **An identity that can be read can be read for ever**, under the same epoch. -/
theorem readFactsIdentity_calls {w : World} {epoch : Text} {clock : Hlc}
    (h : readFactsIdentity w.db = some (epoch, clock)) (calls : List Call) :
    readFactsIdentity (run step w calls).db = some (epoch, (run step w calls).db.clock) := by
  obtain ⟨rfl, rfl, hne, hp, hl⟩ := readFactsIdentity_eq_some h
  have hkept : (run step w calls).db.Ticking ∧ (run step w calls).db.metaRows.storeEpoch =
      w.db.metaRows.storeEpoch := run_invariant (I := fun v : World => v.db.Ticking ∧
      v.db.metaRows.storeEpoch = w.db.metaRows.storeEpoch)
    (fun v call hv => ⟨ticking_step hv.1 call, (storeEpoch_facts v call).trans hv.2⟩)
    ⟨⟨hp, hl⟩, rfl⟩ calls
  rw [readFactsIdentity_of_ticking (hkept.2 ▸ hne) hkept.1, hkept.2]

/-! ## What a reader finds over time -/

/-- A commit is complete when it is retracted, and from the retraction on no reader finds it. -/
def Final (db db' : Db) : Prop :=
  ∀ t ∈ seenRetractions db,
    (∀ x ∈ seen db', x.commitId = t.1 → x ∈ seen db ∧ x.hlc < t.2) ∧
      ∀ p, t.2 ≤ p → ∀ x ∈ readActiveEvents db' p, x.commitId ≠ t.1

/-- What is active at `q` is what was active at `p` and the events in between, less the commits that
the retractions in between name. -/
def Incremental (db : Db) : Prop :=
  ∀ p q events retractions, p ≤ q → readFactChanges db p q = some (events, retractions) →
    ∀ x, x ∈ (readActiveEvents db q).map StoredEvent.served ↔
      (x ∈ (readActiveEvents db p).map StoredEvent.served ∨ x ∈ events.map StoredEvent.served) ∧
        ∀ t ∈ retractions, t.1 ≠ x.commitId

theorem mem_readActiveEvents {p : Hlc} {x : StoredEvent} :
    x ∈ (readActiveEvents db p).map StoredEvent.served ↔
      x ∈ AsOf.activeAsOf shown (seen db) (seenRetractions db) p := by
  rw [served_readActiveEvents, (perm_sortEvents _).mem_iff]

theorem settled_run (now : ℤ) (historyId storeEpoch : Text) (calls : List Call) :
    Settled (run step (World.created now historyId storeEpoch) calls).db :=
  settled_of_inv (inv_run (inv_created now historyId storeEpoch) calls)
    (linked_run now historyId storeEpoch calls)

/-- **A retraction is final**, whatever any connections do later. -/
theorem retraction_final (now : ℤ) (historyId storeEpoch : Text) (before later : List Call) :
    let w := run step (World.created now historyId storeEpoch) before
    Final w.db (run step w later).db := by
  intro w t ht
  have hextends := extends_calls w later
  have hsettled : Settled w.db := settled_run now historyId storeEpoch before
  have hlater := settled_run now historyId storeEpoch (before ++ later)
  rw [run_append] at hlater
  have ht' := hextends.mem_seenRetractions ht
  refine ⟨fun x hx hgroup => ?_, fun p hp x hx hgroup => ?_⟩
  · have hlt : x.hlc < t.2 := hlater.tombsAfter x hx t ht' hgroup.symm
    obtain ⟨new, hnew, habove⟩ := hextends.events
    rw [hnew] at hx
    rcases List.mem_append.mp hx with hx | hx
    · exact ⟨hx, hlt⟩
    · exact absurd (habove x hx) (hlt.trans_le (hsettled.retraction_le t ht)).not_gt
  · have hactive := mem_readActiveEvents.mp (List.mem_map_of_mem hx)
    exact (AsOf.mem_activeAsOf.mp hactive).2.2 ⟨t, ht', hgroup.symm, hp⟩

/-- **Reading on is reading anew**, in every store a run can reach. -/
theorem reads_incremental (now : ℤ) (historyId storeEpoch : Text) (calls : List Call) :
    Incremental (run step (World.created now historyId storeEpoch) calls).db := by
  intro p q events retractions hpq hread x
  obtain ⟨-, hevents, hretractions⟩ := readFactChanges_eq_some hread
  have hsettled := settled_run now historyId storeEpoch calls
  rw [mem_readActiveEvents, mem_readActiveEvents, hevents,
    AsOf.mem_activeAsOf_advance hpq hsettled.tombsAfter]
  refine and_congr_right fun _ => forall_congr' fun t => ?_
  rw [hretractions]
  rfl

end FactStore
end SemanticMemory
