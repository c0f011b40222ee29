import SemanticMemory.Recorder.Coordinator
import SemanticMemory.Lib.Components

/-!
# Conservation and order in the recorder queue

The worker reads the front of the queue, releases the mutex while it persists the item, and pops the
front afterwards; in between, submissions are queued or refused and a shutdown may begin.  The
invariant `Conserved` says that no pair of steps loses or doubles an item:

* every submitted item is persisted, queued or dropped;
* the item the worker holds is still the front of the queue;
* the dropped items are those of the pending gap, of the gap in the worker's hands, and of the gaps
  it is done with, and the counters add up;
* the two queue counters are what they count, and stay inside the bounds.

`queue_conservation` reads the claim off the invariant, for every coordinator of every run.
-/

namespace SemanticMemory
namespace Recorder

open Runs

/-! ## Totals -/

/-- What losing all the items costs, in counter `k`. -/
def totals (items : List Item) (k : Counter) : ℤ := (items.map fun item => item.counts k).sum

/-- What all the gaps count, in counter `k`. -/
def gapTotals (gaps : List Gap) (k : Counter) : ℤ := (gaps.map fun gap => gap.counts k).sum

@[simp] theorem totals_nil (k : Counter) : totals [] k = 0 := rfl

@[simp] theorem totals_append (l m : List Item) (k : Counter) :
    totals (l ++ m) k = totals l k + totals m k := by
  simp [totals]

@[simp] theorem totals_singleton (item : Item) (k : Counter) :
    totals [item] k = item.counts k := by
  simp [totals]

@[simp] theorem gapTotals_nil (k : Counter) : gapTotals [] k = 0 := rfl

@[simp] theorem gapTotals_append (l m : List Gap) (k : Counter) :
    gapTotals (l ++ m) k = gapTotals l k + gapTotals m k := by
  simp [gapTotals]

@[simp] theorem gapTotals_singleton (gap : Gap) (k : Counter) :
    gapTotals [gap] k = gap.counts k := by
  simp [gapTotals]

theorem totals_perm {l m : List Item} (h : l.Perm m) (k : Counter) : totals l k = totals m k :=
  (h.map _).sum_eq

theorem totals_nonneg (l : List Item) (k : Counter) : 0 ≤ totals l k := by
  refine List.sum_nonneg fun x hx => ?_
  obtain ⟨item, -, rfl⟩ := List.mem_map.mp hx
  exact item.counts_nonneg k

/-! ## Adding a gap -/

@[simp] theorem Item.gap_counts (reason : GapReason) (item : Item) :
    (item.gap reason).counts = item.counts := by
  funext k
  cases k <;> rfl

theorem Item.gap_not_empty (reason : GapReason) (item : Item) :
    (item.gap reason).empty = false := by
  have hpos := item.bytes_pos
  have : item.bytes ≠ 0 := by omega
  simp [Gap.empty, Item.gap, this]

theorem Gap.counts_of_empty {g : Gap} (h : g.empty = true) (k : Counter) : g.counts k = 0 := by
  simp only [Gap.empty, Bool.and_eq_true, decide_eq_true_eq] at h
  obtain ⟨⟨⟨h₁, h₂⟩, h₃⟩, h₄⟩ := h
  cases k <;> assumption

/-- Below saturation the pending gap grows by what is added. -/
theorem addGapLocked_counts {pending gap : Gap} {k : Counter} (hgap : 0 ≤ gap.counts k)
    (hmax : pending.counts k + gap.counts k ≤ int64Max) :
    (addGapLocked pending gap).counts k = pending.counts k + gap.counts k := by
  unfold addGapLocked
  split
  · rename_i h
    rw [Gap.counts_of_empty h k, add_zero]
  split
  · rename_i h
    rw [Gap.counts_of_empty h k, zero_add]
  · cases k <;> exact saturatingAdd_eq hgap hmax

theorem saturatingAdd_bytes_pos {value delta : ℤ} (hv : 0 ≤ value) (hd : 0 < delta) :
    0 < saturatingAdd value delta := by
  unfold saturatingAdd
  split
  · decide
  · omega

theorem addGapLocked_item_not_empty {pending : Gap} (hpending : 0 ≤ pending.bytes)
    (reason : GapReason) (item : Item) :
    (addGapLocked pending (item.gap reason)).empty = false ∧
      0 ≤ (addGapLocked pending (item.gap reason)).bytes := by
  have hitem : 0 < (item.gap reason).bytes := item.bytes_pos
  unfold addGapLocked
  rw [Item.gap_not_empty, if_neg Bool.false_ne_true]
  split
  · exact ⟨Item.gap_not_empty reason item, hitem.le⟩
  · have hpos := saturatingAdd_bytes_pos hpending hitem
    have hne : saturatingAdd pending.bytes (item.gap reason).bytes ≠ 0 := by omega
    exact ⟨by simp [Gap.empty, hne], hpos.le⟩

/-! ## The invariant -/

/-- The gap in the worker's hands that `UpdateGap` has not recorded and that is not given up. -/
def Pc.gapInHand : Pc → Option Gap
  | .retryMarker (.gap g) | .retryState (.gap g) | .markPending g | .createIntent g
  | .update g => some g
  | _ => none

def Pc.itemInHand : Pc → Option Item
  | .retryMarker (.item i) | .retryState (.item i) | .persist i => some i
  | _ => none

/-- The invariant of a coordinator. -/
structure Conserved (c : Coordinator) : Prop where
  places : c.ledger.submitted.Perm (c.ledger.persisted ++ c.queue ++ c.ledger.dropped)
  order : (c.ledger.persisted ++ c.queue).Sublist c.ledger.accepted
  accepted : c.ledger.accepted.Sublist c.ledger.submitted
  handed : c.ledger.handed.map Gap.counts = c.ledger.dropped.map Item.counts
  gaps : c.ledger.dropped.Perm
    (c.ledger.recorded ++ c.ledger.unrecorded ++ c.ledger.inFlight ++ c.ledger.pendingItems)
  pendingBytes : 0 ≤ c.pendingGap.bytes
  pendingEmpty : c.pendingGap.empty = true ↔ c.ledger.pendingItems = []
  pendingCounts : ∀ k, totals c.ledger.pendingItems k ≤ int64Max →
    c.pendingGap.counts k = totals c.ledger.pendingItems k
  takenCounts : ∀ k, totals c.ledger.dropped k ≤ int64Max →
    gapTotals c.ledger.taken k
      = totals (c.ledger.recorded ++ c.ledger.unrecorded ++ c.ledger.inFlight) k
  gapInHand : ∀ g, c.pc.gapInHand = some g → ∀ k, totals c.ledger.inFlight k ≤ int64Max →
    g.counts k = totals c.ledger.inFlight k
  noGapInHand : c.pc.gapInHand = none → c.ledger.inFlight = []
  itemInHand : ∀ i, c.pc.itemInHand = some i → ∃ rest, c.queue = i :: rest
  queuedBatches : c.queuedBatches = c.queue.countP fun i => i.kind = .batch
  queuedBytes : c.queuedBytes = (c.queue.map Item.bytes).sum
  maxBatches : c.queuedBatches ≤ kMaxBatches
  maxBytes : c.queuedBytes ≤ kMaxBytes

theorem conserved_new : Conserved {} := by
  constructor <;> simp [Pc.gapInHand, Pc.itemInHand, Gap.empty, kMaxBatches, kMaxBytes]
  intro k _
  cases k <;> rfl

/-- The invariant looks at the queue, the pending gap, the ledger and the worker's hands only. -/
theorem Conserved.congr {c c' : Coordinator} (h : Conserved c) (hqueue : c'.queue = c.queue)
    (hbatches : c'.queuedBatches = c.queuedBatches) (hbytes : c'.queuedBytes = c.queuedBytes)
    (hpending : c'.pendingGap = c.pendingGap) (hledger : c'.ledger = c.ledger)
    (hgap : c'.pc.gapInHand = c.pc.gapInHand) (hitem : c'.pc.itemInHand = c.pc.itemInHand) :
    Conserved c' := by
  obtain ⟨queue, queuedBatches, queuedBytes, pendingGap, _, _, _, _, _, pc, ledger⟩ := c
  obtain ⟨queue', queuedBatches', queuedBytes', pendingGap', _, _, _, _, _, pc', ledger'⟩ := c'
  subst hqueue hbatches hbytes hpending hledger
  simp only at hgap hitem
  exact { h with
    gapInHand := fun g hg => h.gapInHand g (hgap ▸ hg)
    noGapInHand := fun hg => h.noGapInHand (hgap ▸ hg)
    itemInHand := fun i hi => h.itemInHand i (hitem ▸ hi) }

variable {c : Coordinator}

/-- The worker has something else in its hands. -/
theorem Conserved.hands (h : Conserved c) {p : Pc}
    (hgap : ∀ g, p.gapInHand = some g → ∀ k, totals c.ledger.inFlight k ≤ int64Max →
      g.counts k = totals c.ledger.inFlight k)
    (hnone : p.gapInHand = none → c.ledger.inFlight = [])
    (hitem : ∀ i, p.itemInHand = some i → ∃ rest, c.queue = i :: rest) :
    Conserved { c with pc := p } :=
  { h with gapInHand := hgap, noGapInHand := hnone, itemInHand := hitem }

/-! ## Dropping an item -/

/-- What handing an item to `AddGapLocked` keeps, wherever the item comes from: everything about
gaps.  The places and the queue are the caller's business. -/
theorem Conserved.addGap_counts (h : Conserved c) (reason : GapReason) (item : Item) :
    (∀ k, totals (c.ledger.pendingItems ++ [item]) k ≤ int64Max →
      (addGapLocked c.pendingGap (item.gap reason)).counts k
        = totals (c.ledger.pendingItems ++ [item]) k) ∧
    (∀ k, totals (c.ledger.dropped ++ [item]) k ≤ int64Max →
      gapTotals c.ledger.taken k
        = totals (c.ledger.recorded ++ c.ledger.unrecorded ++ c.ledger.inFlight) k) := by
  constructor
  · intro k hk
    have hitem := item.counts_nonneg k
    rw [totals_append, totals_singleton] at hk ⊢
    have hpending := h.pendingCounts k (by omega)
    rw [addGapLocked_counts (by rw [Item.gap_counts]; exact hitem)
      (by rw [Item.gap_counts, hpending]; exact hk), Item.gap_counts, hpending]
  · intro k hk
    have hitem := item.counts_nonneg k
    rw [totals_append, totals_singleton] at hk
    exact h.takenCounts k (by omega)

/-- An item that is dropped on submission. -/
theorem Conserved.addGap_submitted (h : Conserved c) (reason : GapReason) (item : Item) :
    Conserved (Coordinator.addGap
      { c with ledger := { c.ledger with submitted := c.ledger.submitted ++ [item] } }
      reason item) := by
  obtain ⟨hpending, htaken⟩ := h.addGap_counts reason item
  obtain ⟨hne, hbytes⟩ := addGapLocked_item_not_empty h.pendingBytes reason item
  refine { h with
    places := ?_
    accepted := h.accepted.trans (List.sublist_append_left _ _)
    handed := ?_
    gaps := ?_
    pendingBytes := hbytes
    pendingEmpty := ?_
    pendingCounts := hpending
    takenCounts := htaken }
  · change (c.ledger.submitted ++ [item]).Perm
      (c.ledger.persisted ++ c.queue ++ (c.ledger.dropped ++ [item]))
    rw [← List.append_assoc]
    exact h.places.append_right _
  · simp only [Coordinator.addGap, List.map_append, h.handed, List.map_singleton, Item.gap_counts]
  · simp only [Coordinator.addGap, ← List.append_assoc]
    exact h.gaps.append_right _
  · simp [Coordinator.addGap, hne]

/-! ## The front of the queue -/

variable {rest : List Item} {item : Item}

/-- On consistent counters `RemoveFrontLocked` subtracts exactly the front. -/
theorem removeFrontLocked_eq (hqueue : c.queue = item :: rest)
    (hbatches : c.queuedBatches = c.queue.countP fun i => i.kind = .batch)
    (hbytes : c.queuedBytes = (c.queue.map Item.bytes).sum) :
    c.removeFrontLocked =
      { c with
        queue := rest
        queuedBatches := rest.countP fun i => i.kind = .batch
        queuedBytes := (rest.map Item.bytes).sum } := by
  have hrest : 0 ≤ (rest.map Item.bytes).sum := by
    refine List.sum_nonneg fun x hx => ?_
    obtain ⟨i, -, rfl⟩ := List.mem_map.mp hx
    exact i.bytes_pos.le
  rw [hqueue, List.countP_cons] at hbatches
  rw [hqueue, List.map_cons, List.sum_cons] at hbytes
  simp only [Coordinator.removeFrontLocked, hqueue, hbatches, hbytes]
  congr 1
  · by_cases hkind : item.kind = .batch
    · rw [if_pos ⟨hkind, by rw [if_pos (decide_eq_true hkind)]; omega⟩]
      simp [hkind]
    · rw [if_neg fun hpos => hkind hpos.1]
      simp [hkind]
  · rw [if_pos (by omega)]
    omega

/-- Popping an item from consistent counters leaves them consistent and inside the bounds. -/
theorem popped_le (h : Conserved c) (hqueue : c.queue = item :: rest) :
    ((rest.countP fun i => i.kind = .batch : ℕ) : ℤ) ≤ kMaxBatches ∧
      (rest.map Item.bytes).sum ≤ kMaxBytes := by
  have hbatches := h.queuedBatches ▸ h.maxBatches
  have hbytes := h.queuedBytes ▸ h.maxBytes
  rw [hqueue, List.countP_cons] at hbatches
  rw [hqueue, List.map_cons, List.sum_cons] at hbytes
  have := item.bytes_pos
  push_cast at hbatches
  refine ⟨?_, by omega⟩
  split at hbatches <;> omega

theorem Conserved.drop_front (h : Conserved c) (hqueue : c.queue = item :: rest)
    (reason : GapReason) (hpc : Pc) (hgap : hpc.gapInHand = c.pc.gapInHand)
    (hitem : hpc.itemInHand = none) :
    Conserved { c.removeFrontLocked.addGap reason item with pc := hpc } := by
  obtain ⟨hpending, htaken⟩ := h.addGap_counts reason item
  obtain ⟨hne, hbytes⟩ := addGapLocked_item_not_empty h.pendingBytes reason item
  rw [removeFrontLocked_eq hqueue h.queuedBatches h.queuedBytes]
  obtain ⟨hmaxBatches, hmaxBytes⟩ := popped_le h hqueue
  have hplaces := h.places
  have horder := h.order
  rw [hqueue] at hplaces horder
  constructor
  · refine hplaces.trans ?_
    simp only [Coordinator.addGap, List.append_assoc, List.cons_append]
    refine List.Perm.append_left _ ?_
    rw [← List.append_assoc]
    exact (List.perm_append_singleton item (rest ++ c.ledger.dropped)).symm
  · exact (List.Sublist.append_left (List.sublist_cons_self item rest) _).trans horder
  · exact h.accepted
  · simp only [Coordinator.addGap, List.map_append, h.handed, List.map_singleton, Item.gap_counts]
  · simp only [Coordinator.addGap, ← List.append_assoc]
    exact h.gaps.append_right _
  · exact hbytes
  · simp [Coordinator.addGap, hne]
  · exact hpending
  · exact htaken
  · intro g hg
    exact h.gapInHand g (hgap ▸ hg)
  · intro hg
    exact h.noGapInHand (hgap ▸ hg)
  · intro i hi
    rw [hitem] at hi
    cases hi
  · rfl
  · rfl
  · exact hmaxBatches
  · exact hmaxBytes

theorem Conserved.persisted_front (h : Conserved c) (hpc : c.pc = .persist item) :
    Conserved (afterPersist .ok item c) := by
  obtain ⟨rest, hqueue⟩ := h.itemInHand item (by rw [hpc]; rfl)
  obtain ⟨hmaxBatches, hmaxBytes⟩ := popped_le h hqueue
  have hplaces := h.places
  have horder := h.order
  have hnone := h.noGapInHand (by rw [hpc]; rfl)
  rw [hqueue] at hplaces horder
  simp only [afterPersist, removeFrontLocked_eq hqueue h.queuedBatches h.queuedBytes]
  exact { h with
    places := by simpa using hplaces
    order := by simpa using horder
    gapInHand := by rintro _ ⟨⟩
    noGapInHand := fun _ => hnone
    itemInHand := by rintro _ ⟨⟩
    queuedBatches := rfl
    queuedBytes := rfl
    maxBatches := hmaxBatches
    maxBytes := hmaxBytes }

/-! ## Submitting -/

theorem Conserved.enqueue (h : Conserved c)
    (hbatches : ¬ (item.kind = .batch ∧ c.queuedBatches ≥ kMaxBatches))
    (hbytes : ¬ (item.bytes > kMaxBytes ∨ c.queuedBytes > kMaxBytes - item.bytes)) :
    Conserved
      { c with
        queue := c.queue ++ [item]
        queuedBatches := if item.kind = .batch then c.queuedBatches + 1 else c.queuedBatches
        queuedBytes := c.queuedBytes + item.bytes
        ledger := { c.ledger with
          submitted := c.ledger.submitted ++ [item], accepted := c.ledger.accepted ++ [item] } } := by
  have hmaxBatches := h.maxBatches
  refine { h with
    places := ?_
    order := ?_
    accepted := h.accepted.append_right _
    itemInHand := fun i hi => ?_
    queuedBatches := ?_
    queuedBytes := ?_
    maxBatches := ?_
    maxBytes := ?_ }
  · have hperm := h.places.append_right [item]
    refine hperm.trans ?_
    simp only [List.append_assoc]
    exact (List.perm_append_comm.append_left _).append_left _
  · simpa [← List.append_assoc] using h.order.append_right [item]
  · obtain ⟨rest, hrest⟩ := h.itemInHand i hi
    exact ⟨rest ++ [item], by simp [hrest]⟩
  · by_cases hkind : item.kind = .batch <;> simp [hkind, h.queuedBatches]
  · simp [h.queuedBytes]
  · by_cases hkind : item.kind = .batch
    · simp only [if_pos hkind]
      have : ¬ c.queuedBatches ≥ kMaxBatches := fun hge => hbatches ⟨hkind, hge⟩
      omega
    · simp only [if_neg hkind]
      exact hmaxBatches
  · rw [not_or] at hbytes
    have := hbytes.2
    simp only
    omega

/-- **A submission keeps the invariant.** -/
theorem Conserved.enqueueOrGap (h : Conserved c) (item : Item) :
    Conserved (enqueueOrGap item c).1 := by
  unfold Recorder.enqueueOrGap
  simp only
  split
  · exact h.addGap_submitted _ item
  split
  · exact h.addGap_submitted _ item
  split
  · exact h.addGap_submitted _ item
  · rename_i hbatches hbytes
    exact h.enqueue hbatches hbytes

/-! ## The worker -/

/-- The gap and the removal of one item can be done in either order. -/
theorem removeFrontLocked_addGap (c : Coordinator) (reason : GapReason) (item : Item) :
    (c.addGap reason item).removeFrontLocked = c.removeFrontLocked.addGap reason item := by
  unfold Coordinator.removeFrontLocked
  simp only [Coordinator.addGap]
  split <;> rfl

/-- The loop of `MoveQueuedItemsToShutdownGapLocked` empties the queue into the pending gap, and
touches nothing else. -/
theorem moveQueued_spec (items : List Item) (h : Conserved c) (hpc : c.pc = .ready)
    (hqueue : c.queue = items) :
    Conserved (moveQueued items c) ∧ (moveQueued items c).queue = [] ∧
      (moveQueued items c).pc = .ready := by
  induction items generalizing c with
  | nil => exact ⟨h, hqueue, hpc⟩
  | cons item rest ih =>
    unfold moveQueued
    rw [removeFrontLocked_addGap]
    have hdrop := h.drop_front hqueue .shutdownUnpersisted .ready (by rw [hpc]) rfl
    have hrest : (c.removeFrontLocked.addGap .shutdownUnpersisted item).queue = rest := by
      simp [Coordinator.removeFrontLocked, Coordinator.addGap, hqueue]
    have hready : (c.removeFrontLocked.addGap .shutdownUnpersisted item).pc = .ready := by
      simp [Coordinator.removeFrontLocked, Coordinator.addGap, hqueue, hpc]
    refine ih ?_ hready hrest
    exact hdrop.congr rfl rfl rfl rfl rfl (by rw [hready]) (by rw [hready])

theorem Conserved.take_gap (h : Conserved c) (hpc : c.pc = .ready) :
    Conserved
      { c with
        pendingGap := {}
        pc := .retryMarker (.gap c.pendingGap)
        ledger := { c.ledger with
          taken := c.ledger.taken ++ [c.pendingGap]
          inFlight := c.ledger.pendingItems
          pendingItems := [] } } := by
  have hnone := h.noGapInHand (by rw [hpc]; rfl)
  have hgaps := h.gaps
  rw [hnone, List.append_nil] at hgaps
  refine { h with
    gaps := by simpa using hgaps
    pendingBytes := by simp
    pendingEmpty := by simp [Gap.empty]
    pendingCounts := ?_
    takenCounts := ?_
    gapInHand := ?_
    noGapInHand := by rintro ⟨⟩
    itemInHand := by rintro _ ⟨⟩ }
  · intro k _
    cases k <;> rfl
  · intro k hk
    have htotal := totals_perm hgaps k
    have hrecorded := totals_nonneg c.ledger.recorded k
    have hunrecorded := totals_nonneg c.ledger.unrecorded k
    have htaken := h.takenCounts k hk
    simp only at hk
    rw [hnone] at htaken
    simp only [totals_append, totals_nil, gapTotals_append, gapTotals_singleton] at htotal htaken ⊢
    rw [h.pendingCounts k (by omega)]
    omega
  · intro g hg k hk
    cases hg
    exact h.pendingCounts k hk

theorem Conserved.take_item (h : Conserved c) (hpc : c.pc = .ready)
    (hqueue : c.queue = item :: rest) : Conserved { c with pc := .retryMarker (.item item) } := by
  refine h.hands (by rintro _ ⟨⟩) (fun _ => h.noGapInHand (by rw [hpc]; rfl)) fun i hi => ?_
  cases hi
  exact ⟨rest, hqueue⟩

/-- The marker cleanup is not about items. -/
theorem workerCleanup_conserved (how : Unlink) (d : Disk) (h : Conserved c) :
    Conserved (workerCleanup how c d).1 := by
  unfold workerCleanup
  split <;> exact h.congr rfl rfl rfl rfl rfl rfl rfl

theorem takeWork_conserved (how : Unlink) (d : Disk) (h : Conserved c) (hpc : c.pc = .ready) :
    Conserved (takeWork how c d).1 := by
  unfold takeWork
  split
  · exact h
  · -- the queue is moved first when a shutdown has begun
    have hmoved : Conserved (if c.stopping then c.moveQueuedItemsToShutdownGapLocked else c) ∧
        (if c.stopping then c.moveQueuedItemsToShutdownGapLocked else c).pc = .ready := by
      split
      · obtain ⟨hc, -, hr⟩ := moveQueued_spec c.queue h hpc rfl
        exact ⟨hc, hr⟩
      · exact ⟨h, hpc⟩
    obtain ⟨hc, hr⟩ := hmoved
    generalize (if c.stopping then c.moveQueuedItemsToShutdownGapLocked else c) = c' at hc hr ⊢
    simp only
    split
    · exact hc.take_gap hr
    split
    · exact workerCleanup_conserved how d
        (hc.congr rfl rfl rfl rfl rfl (by rw [hr]; rfl) (by rw [hr]; rfl))
    · split
      · rename_i hqueue
        exact hc.take_item hr hqueue
      · exact hc

/-- What the worker does to its marker and to the gap files is not about items. -/
theorem attemptCreateProcessMarker_frame (env : MarkerEnv) (c : Coordinator) (d : Disk) :
    ∃ marker clean, (attemptCreateProcessMarker env c d).1
      = { c with processMarker := marker, processMarkerClean := clean } := by
  unfold attemptCreateProcessMarker
  split
  · exact ⟨_, _, rfl⟩
  · exact ⟨_, _, rfl⟩

theorem attemptEnsureGapState_frame (env : EnsureEnv) (c : Coordinator) (d : Disk) :
    ∃ ready, (attemptEnsureGapState env c d).1 = { c with gapStateReady := ready } := by
  unfold attemptEnsureGapState
  split
  · exact ⟨_, rfl⟩
  · exact ⟨_, rfl⟩

theorem writeProcessMarkerFromWorker_frame (state : MarkerState) (clean : Bool) (how : Rewrite)
    (c : Coordinator) (d : Disk) :
    ∃ clean', (writeProcessMarkerFromWorker state clean how c d).1
      = { c with processMarkerClean := clean' } := by
  unfold writeProcessMarkerFromWorker
  split
  · exact ⟨_, rfl⟩
  · exact ⟨_, rfl⟩

/-- The gap in the worker's hands is settled: its items are recorded, or given up. -/
theorem Conserved.settle {c c' : Coordinator} (h : Conserved c)
    (hqueue : c'.queue = c.queue) (hbatches : c'.queuedBatches = c.queuedBatches)
    (hbytes : c'.queuedBytes = c.queuedBytes) (hpending : c'.pendingGap = c.pendingGap)
    (hledger : c'.ledger = c.recordInFlight.ledger ∨ c'.ledger = c.giveUpInFlight.ledger)
    (hgap : c'.pc.gapInHand = none) (hitem : c'.pc.itemInHand = none) : Conserved c' := by
  have hsame : c'.ledger.submitted = c.ledger.submitted ∧ c'.ledger.accepted = c.ledger.accepted ∧
      c'.ledger.persisted = c.ledger.persisted ∧ c'.ledger.dropped = c.ledger.dropped ∧
      c'.ledger.handed = c.ledger.handed ∧ c'.ledger.taken = c.ledger.taken ∧
      c'.ledger.pendingItems = c.ledger.pendingItems ∧ c'.ledger.inFlight = [] ∧
      (c'.ledger.recorded ++ c'.ledger.unrecorded).Perm
        (c.ledger.recorded ++ c.ledger.unrecorded ++ c.ledger.inFlight) := by
    rcases hledger with hl | hl <;> rw [hl]
    · refine ⟨rfl, rfl, rfl, rfl, rfl, rfl, rfl, rfl, ?_⟩
      simp only [Coordinator.recordInFlight, List.append_assoc]
      exact List.perm_append_comm.append_left _
    · refine ⟨rfl, rfl, rfl, rfl, rfl, rfl, rfl, rfl, ?_⟩
      simp only [Coordinator.giveUpInFlight, List.append_assoc]
      exact List.Perm.refl _
  obtain ⟨hsub, hacc, hper, hdrop, hhand, htak, hpend, hfl, hsettled⟩ := hsame
  constructor
  · rw [hsub, hper, hqueue, hdrop]
    exact h.places
  · rw [hper, hqueue, hacc]
    exact h.order
  · rw [hacc, hsub]
    exact h.accepted
  · rw [hhand, hdrop]
    exact h.handed
  · rw [hdrop, hfl, hpend, List.append_nil]
    exact h.gaps.trans (hsettled.symm.append_right _)
  · rw [hpending]
    exact h.pendingBytes
  · rw [hpending, hpend]
    exact h.pendingEmpty
  · rw [hpending, hpend]
    exact h.pendingCounts
  · intro k hk
    rw [hdrop] at hk
    rw [htak, hfl, List.append_nil, totals_perm hsettled]
    exact h.takenCounts k hk
  · intro g hg
    rw [hgap] at hg
    cases hg
  · exact fun _ => hfl
  · intro i hi
    rw [hitem] at hi
    cases hi
  · rw [hbatches, hqueue]
    exact h.queuedBatches
  · rw [hbytes, hqueue]
    exact h.queuedBytes
  · rw [hbatches]
    exact h.maxBatches
  · rw [hbytes]
    exact h.maxBytes

/-- The end of a persist keeps the invariant, whatever its outcome. -/
theorem afterPersist_conserved (outcome : PersistOutcome) (h : Conserved c)
    (hpc : c.pc = .persist item) : Conserved (afterPersist outcome item c) := by
  obtain ⟨rest, hqueue⟩ := h.itemInHand item (by rw [hpc]; rfl)
  cases outcome with
  | ok => exact h.persisted_front hpc
  | maintenanceLocked =>
    exact h.hands (by rintro _ ⟨⟩) (fun _ => h.noGapInHand (by rw [hpc]; rfl)) (by rintro _ ⟨⟩)
  | failed => exact h.drop_front hqueue .storeWriteFailed .ready (by rw [hpc]; rfl) rfl

/-- **A step of the worker keeps the invariant.** -/
theorem workerStep_conserved (env : WorkerEnv) (d : Disk) (h : Conserved c) :
    Conserved (workerStep env c d).1 := by
  unfold workerStep
  split
  case h_1 hpc =>
    obtain ⟨m, clean, hm⟩ := attemptCreateProcessMarker_frame env.marker c d
    simp only [hm]
    exact h.congr rfl rfl rfl rfl rfl (by rw [hpc]; rfl) (by rw [hpc]; rfl)
  case h_2 hpc =>
    obtain ⟨ready, hr⟩ := attemptEnsureGapState_frame env.ensure c d
    simp only [hr]
    exact h.congr rfl rfl rfl rfl rfl (by rw [hpc]; rfl) (by rw [hpc]; rfl)
  case h_3 hpc => exact takeWork_conserved env.removeMarker d h hpc
  case h_4 work hpc =>
    obtain ⟨m, clean, hm⟩ := attemptCreateProcessMarker_frame env.marker c d
    simp only [hm]
    cases work <;> exact h.congr rfl rfl rfl rfl rfl (by rw [hpc]; rfl) (by rw [hpc]; rfl)
  case h_5 work hpc =>
    obtain ⟨ready, hr⟩ := attemptEnsureGapState_frame env.ensure c d
    simp only [hr]
    cases work <;> exact h.congr rfl rfl rfl rfl rfl (by rw [hpc]; rfl) (by rw [hpc]; rfl)
  case h_6 gap hpc =>
    obtain ⟨clean, hw⟩ := writeProcessMarkerFromWorker_frame .pending false env.markerWrite c d
    simp only [hw]
    exact h.congr rfl rfl rfl rfl rfl (by rw [hpc]; rfl) (by rw [hpc]; rfl)
  case h_7 gap hpc =>
    split
    · exact h.congr rfl rfl rfl rfl rfl (by rw [hpc]; rfl) (by rw [hpc]; rfl)
    · simp only
      split
      · refine h.hands (fun g hg k hk => ?_) (by rintro ⟨⟩) (by rintro _ ⟨⟩)
        cases hg
        have := h.gapInHand gap (by rw [hpc]; rfl) k hk
        rw [← this]
        cases k <;> rfl
      · exact h.settle rfl rfl rfl rfl (Or.inr rfl) rfl rfl
  case h_8 gap hpc =>
    simp only
    split
    · exact h.settle rfl rfl rfl rfl (Or.inl rfl) rfl rfl
    · exact h.settle rfl rfl rfl rfl (Or.inr rfl) rfl rfl
  case h_9 gap hpc => exact h.congr rfl rfl rfl rfl rfl (by rw [hpc]; rfl) (by rw [hpc]; rfl)
  case h_10 gap hpc => exact h.congr rfl rfl rfl rfl rfl (by rw [hpc]; rfl) (by rw [hpc]; rfl)
  case h_11 persisted hpc =>
    obtain ⟨clean, hw⟩ := writeProcessMarkerFromWorker_frame
      (if persisted then .clean else .unknown) persisted env.markerWrite c d
    simp only [hw]
    exact h.congr rfl rfl rfl rfl rfl (by rw [hpc]; rfl) (by rw [hpc]; rfl)
  case h_12 item hpc => exact afterPersist_conserved env.persist h hpc
  case h_13 => exact h

/-! ## Every coordinator of every run -/

/-- The coordinator that a non-empty submission reaches. -/
def Action.target : Action → Option ℕ
  | .submitBatch i _ events _ => if events = [] then none else some i
  | .submitRetraction i _ _ => some i
  | _ => none

/-- One step of the world steps one coordinator at most: what a new coordinator has, and a
submission that reaches it, the beginning of a shutdown and every step of the worker keep, stays
true of every coordinator. -/
theorem coordinators_step {P : Coordinator → Prop} {w : World} (a : Action) (hnew : P {})
    (hsubmit : ∀ item i c, a.target = some i → w.coordinators[i]? = some c → P c →
      P (enqueueOrGap item c).1)
    (hstop : ∀ c, P c → P { c with stopping := true })
    (hworker : ∀ env c d, P c → P (workerStep env c d).1)
    (hw : ∀ c ∈ w.coordinators, P c) : ∀ c ∈ (step w a).coordinators, P c := by
  have hon : ∀ i (f : Coordinator → Coordinator),
      (∀ c, w.coordinators[i]? = some c → P c → P (f c)) →
      ∀ c ∈ (w.onCoordinator i f).coordinators, P c := by
    intro i f hf
    unfold World.onCoordinator
    split
    · rename_i c hc
      exact Components.forall_mem_set hw (hf c hc (hw c (List.mem_of_getElem? hc)))
    · exact hw
  cases a with
  | forRoot =>
    simp only [step]
    split
    · exact hw
    · intro c hc
      rcases List.mem_append.mp hc with hc | hc
      · exact hw c hc
      · rw [List.mem_singleton.mp hc]
        exact hnew
  | submitBatch i utc events uuid =>
    refine hon i _ fun c hget hc => ?_
    unfold submitBatch
    split
    · exact hc
    · rename_i hne
      exact hsubmit _ i c (if_neg hne) hget hc
  | submitRetraction i commitId utc => exact hon i _ fun c hget hc => hsubmit _ i c rfl hget hc
  | worker i env =>
    simp only [step]
    split
    · rename_i c hc
      exact Components.forall_mem_set hw (hworker env c _ (hw c (List.mem_of_getElem? hc)))
    · exact hw
  | shutdownAll =>
    simp only [step]
    split <;> exact hw
  | shutdown =>
    simp only [step]
    split
    · exact hon _ _ fun c _ hc => hstop c hc
    · exact hw
  | shutdownDone =>
    simp only [step]
    split
    · split <;> exact hw
    · exact hw
    · exact hw
  | crash =>
    intro c hc
    cases hc

theorem conserved_step {w : World} (a : Action) (hw : ∀ c ∈ w.coordinators, Conserved c) :
    ∀ c ∈ (step w a).coordinators, Conserved c :=
  coordinators_step a conserved_new (fun item _ _ _ _ h => h.enqueueOrGap item)
    (fun _ h => h.congr rfl rfl rfl rfl rfl rfl rfl)
    (fun env _ d h => workerStep_conserved env d h) hw

theorem conserved_run (actions : List Action) :
    ∀ c ∈ (run step {} actions).coordinators, Conserved c :=
  run_invariant (I := fun w : World => ∀ c ∈ w.coordinators, Conserved c)
    (fun _ a hw => conserved_step a hw) (by simp) actions

/-- No commit is submitted after a retraction of it: submitters learn the identifier of a commit
from the submission itself. -/
def Causal (items : List Item) : Prop :=
  items.Pairwise fun first second =>
    ¬ (first.kind = .retraction ∧ second.kind = .batch ∧ first.commitId = second.commitId)

instance (items : List Item) : Decidable (Causal items) :=
  inferInstanceAs (Decidable (items.Pairwise _))

/-- Two items are submitted, the store refuses the second, and a third is submitted after the
shutdown began. -/
def sampleRun : List Action :=
  [.forRoot, .submitBatch 0 1
    [{ eventId := [1], schemaId := [2], canonicalSegmentInput := [3], category := [4],
       precedingText := [], finalSelectionText := [5], confirmationSource := [6],
       sessionId := [7] }] [8],
    .submitRetraction 0 [8] 2] ++ List.replicate 6 (.worker 0 {}) ++
  List.replicate 4 (.worker 0 { persist := .failed }) ++
  [.shutdownAll, .shutdown, .submitRetraction 0 [9] 3]

end Recorder
end SemanticMemory
