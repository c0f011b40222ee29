import SemanticMemory.Archive.Published

/-!
# The queue of the collector

The collector counts the bytes of its queue in `_queue_bytes`.  Items leave the queue one at a time,
by a displacement, or a batch at a time, and the counter follows both (`tallied_step`).
-/

namespace SemanticMemory
namespace Archive

variable {c : Config} {m : Memory}

/-! ## Queued and in flight -/

/-- The observations of a list of items, but for the payloads that go to quarantine. -/
def original (items : List Item) : List Semantic :=
  (items.filter fun i => !i.quarantine).map Item.semantic

theorem original_append (items items' : List Item) :
    original (items ++ items') = original items ++ original items' := by
  rw [original, List.filter_append, List.map_append, original, original]

theorem original_cons (i : Item) (items : List Item) :
    original (i :: items) =
      if i.quarantine then original items else i.semantic :: original items := by
  cases hi : i.quarantine <;> simp [original, hi]

/-- The item that gives way is an observation, and its place is between two parts of the queue. -/
theorem original_of_displaceable {queue : List Item} {index : ℕ}
    (h : queue.findIdx? Memory.displaceable = some index) :
    ∃ old, queue[index]? = some old ∧ old.quarantine = false ∧
      original queue =
        original (queue.take index) ++ old.semantic :: original (queue.drop (index + 1)) ∧
      original (queue.eraseIdx index) =
        original (queue.take index) ++ original (queue.drop (index + 1)) := by
  obtain ⟨hlt, hat, -⟩ := List.findIdx?_eq_some_iff_getElem.mp h
  have hquarantine : queue[index].quarantine = false := by
    simp only [Memory.displaceable, Bool.and_eq_true, Bool.not_eq_true'] at hat
    exact hat.2
  have hsplit : queue = queue.take index ++ queue[index] :: queue.drop (index + 1) := by
    rw [List.cons_getElem_drop_succ, List.take_append_drop]
  refine ⟨queue[index], List.getElem?_eq_getElem hlt, hquarantine, ?_, ?_⟩
  · conv_lhs => rw [hsplit]
    rw [original_append, original_cons, hquarantine, if_neg Bool.false_ne_true]
  · rw [List.eraseIdx_eq_take_drop_succ, original_append]

/-- The observations of the batch in flight. -/
def Thread.inFlight : Thread → List Semantic
  | .lay todo laid => laid.semantics ++ original todo
  | .measure laid | .appendQuarantine laid _ | .appendObservations laid _ | .failed laid
  | .stage laid _ | .hold laid _ _ | .publish laid _ | .install laid _ => laid.semantics
  | _ => []

def Memory.live (m : Memory) : List Semantic := m.thread.inFlight ++ original m.queue

/-! ## The counter of bytes -/

def sizes (items : List Item) : ℕ := (items.map Item.size).sum

theorem sizes_append (items items' : List Item) :
    sizes (items ++ items') = sizes items + sizes items' := by
  rw [sizes, List.map_append, List.sum_append, sizes, sizes]

theorem sizes_cons (i : Item) (items : List Item) : sizes (i :: items) = i.size + sizes items := by
  rw [sizes, List.map_cons, List.sum_cons, sizes]

/-- The items before and after one that leaves. -/
theorem sizes_eraseIdx {items : List Item} {index : ℕ} {i : Item} (h : items[index]? = some i) :
    sizes items = i.size + sizes (items.eraseIdx index) := by
  obtain ⟨hlt, rfl⟩ := List.getElem?_eq_some_iff.mp h
  have hsplit : items = items.take index ++ items[index] :: items.drop (index + 1) := by
    rw [List.cons_getElem_drop_succ, List.take_append_drop]
  rw [List.eraseIdx_eq_take_drop_succ]
  conv_lhs => rw [hsplit]
  rw [sizes_append, sizes_cons, sizes_append]
  omega

/-- **The counter of bytes is the sum of the queued sizes.** -/
def Tallied (m : Memory) : Prop := m.queueBytes = sizes m.queue

theorem Tallied.enqueue (h : Tallied m) (i : Item) : Tallied (m.enqueue i) := by
  show m.queueBytes + i.size = sizes (m.queue ++ [i])
  rw [sizes_append, sizes_cons, h]
  rfl

theorem Tallied.displace (h : Tallied m) (index : ℕ) : Tallied (m.displace index) := by
  unfold Memory.displace
  cases hi : m.queue[index]? with
  | none => exact h
  | some i =>
    have hleft : m.queueBytes - i.size = sizes (m.queue.eraseIdx index) := by
      rw [h, sizes_eraseIdx hi, Nat.add_sub_cancel_left]
    dsimp only
    split_ifs <;> exact hleft

theorem Tallied.queueLocked (h : Tallied m) (i : Item) : Tallied (m.queueLocked c i).1 := by
  unfold Memory.queueLocked
  split_ifs
  · exact h.enqueue i
  · cases m.queue.findIdx? Memory.displaceable with
    | none => exact h
    | some index => exact (h.displace index).enqueue i
  · exact h

theorem Tallied.accept (h : Tallied m) (g : Gate) (s : Semantic) :
    Tallied (acceptOne c g m s).1 := by
  unfold acceptOne
  split_ifs
  · exact h
  · exact h
  · exact h
  · exact h
  · exact h
  · exact h
  · cases m.identities s.identity with
    | some previous =>
      have hcount : Tallied m.countConflict := h
      dsimp only
      by_cases hsame : previous = s.contentHash c.sha256
      · rw [if_pos hsame]
        exact h
      · rw [if_neg hsame]
        exact hcount.queueLocked _
    | none =>
      have hq := h.queueLocked (c := c) ⟨s, s.size, false⟩
      dsimp only
      split_ifs
      · exact hq
      · exact hq

theorem Tallied.taken (h : Tallied m) (n : ℕ) : Tallied (m.taken n) := by
  show m.queueBytes - sizes (m.queue.take n) = sizes (m.queue.drop n)
  have hsplit := sizes_append (m.queue.take n) (m.queue.drop n)
  rw [List.take_append_drop] at hsplit
  rw [h, hsplit, Nat.add_sub_cancel_left]

/-- Only the head of the loop takes items off the queue. -/
theorem rememberAll_queue (lines : List ObservationLine) (offset : ℕ) (m : Memory) :
    (m.rememberAll c lines offset).queue = m.queue ∧
      (m.rememberAll c lines offset).queueBytes = m.queueBytes := by
  induction lines generalizing m offset with
  | nil => exact ⟨rfl, rfl⟩
  | cons l lines ih =>
    rw [Memory.rememberAll, (ih _ _).1, (ih _ _).2]
    unfold Memory.remember
    split <;> exact ⟨rfl, rfl⟩

theorem giveUp_queue (laid : Laid) (m : Memory) :
    (m.giveUp laid).queue = m.queue ∧ (m.giveUp laid).queueBytes = m.queueBytes := by
  have hforget {f : Memory → ObservationLine → Memory}
      (hf : ∀ m l, (f m l).queue = m.queue ∧ (f m l).queueBytes = m.queueBytes)
      (lines : List ObservationLine) (m : Memory) :
      (lines.foldl f m).queue = m.queue ∧ (lines.foldl f m).queueBytes = m.queueBytes := by
    induction lines generalizing m with
    | nil => exact ⟨rfl, rfl⟩
    | cons l lines ih =>
      rw [List.foldl_cons, (ih _).1, (ih _).2]
      exact hf m l
  exact hforget (fun m l => by split <;> exact ⟨rfl, rfl⟩) laid.observations _

/-- A piece of the thread that is not at the head of the loop leaves the queue alone. -/
theorem work_queue (env : Env) (d : Disk) (hbusy : m.thread ≠ .idle) :
    (work c env d m).2.queue = m.queue ∧ (work c env d m).2.queueBytes = m.queueBytes := by
  unfold work
  cases hplace : m.thread with
  | idle => exact absurd hplace hbusy
  | lay todo laid =>
    cases todo with
    | nil => exact ⟨rfl, rfl⟩
    | cons i todo =>
      dsimp only [Memory.layItem]
      split_ifs <;> exact ⟨rfl, rfl⟩
  | failed laid => exact giveUp_queue laid m
  | install laid pending => exact rememberAll_queue laid.observations _ m
  | writeState payload => dsimp only; split_ifs <;> exact ⟨rfl, rfl⟩
  | measure laid => dsimp only; split_ifs <;> exact ⟨rfl, rfl⟩
  | appendQuarantine laid before => dsimp only; split_ifs <;> exact ⟨rfl, rfl⟩
  | appendObservations laid before => dsimp only; split_ifs <;> exact ⟨rfl, rfl⟩
  | hold laid before pending => dsimp only; split_ifs <;> exact ⟨rfl, rfl⟩
  | publish laid pending => dsimp only; split_ifs <;> exact ⟨rfl, rfl⟩
  | _ => exact ⟨rfl, rfl⟩

theorem Tallied.takeBatch (h : Tallied m) : Tallied (m.takeBatch c) := by
  unfold Memory.takeBatch
  split_ifs
  · exact h
  · exact h
  · exact h
  · exact h.taken _

theorem Tallied.work (h : Tallied m) (env : Env) (d : Disk) : Tallied (work c env d m).2 := by
  by_cases hidle : m.thread = .idle
  · have hwork : (Archive.work c env d m).2 = m.takeBatch c := by
      rw [Archive.work, hidle]
    rw [hwork]
    exact h.takeBatch
  · obtain ⟨hqueue, hbytes⟩ := work_queue (c := c) env d hidle
    rw [Tallied, hqueue, hbytes]
    exact h

end Archive
end SemanticMemory
