import SemanticMemory.Archive.Accounts

/-!
# The producer's queue

A producer takes observations into a queue of its own and sends them from a thread of its own.  A
batch that finds no collector goes back to the head of the queue, as far as it fits.

* `State` is what the producer holds under its lock, and `Sender` where its thread is with the batch
  in its hands.
* `enqueue` is `_enqueue`, from the moment `admit` has found the observation valid and the policy
  fresh; whatever `admit` refuses before is `refuse`.
* `Kept` is the account: the admitted items are in the queue, in the sender's hands, delivered or
  dropped, each in one place.  `queues_accounted` says it of the producer and of the collector.
-/

namespace SemanticMemory
namespace Archive
namespace Producer

/-- The limits of a producer, and the instance it captures for. -/
structure Config where
  queueCount : ℕ := 256
  queueBytes : ℕ := 1048576
  batchSize : ℕ := 64
  sourceInstanceId : Str := []

structure Item where
  captureSeq : ℕ
  kind : Str
  snapshot : Json
  size : ℕ
  deriving DecidableEq

def highKinds : List Str :=
  ["start", "commit_attempt", "raw_finalization", "cancellation", "unavailable_client",
    "unknown_outcome", "loss_notice", "exclusion_notice", "provenance"].map Json.units

/-- `priority == "high"`. -/
def Item.isHigh (i : Item) : Bool := i.kind ∈ highKinds

inductive Sender where
  /-- At the head of the loop. -/
  | idle
  /-- `_drain` has returned; the losses are sent first. -/
  | drained (batch : List Item) (losses : List Json)
  /-- `_send_batch`. -/
  | sending (batch : List Item)
  | requeue (batch : List Item)
  | ended

/-- What the producer holds. -/
structure State where
  queue : List Item := []
  bytes : ℕ := 0
  captureSeq : ℕ := 0
  knownRefused : ℕ := 0
  knownDropped : ℕ := 0
  localLosses : List Json := []
  collectorUnavailable : Bool := true
  stop : Bool := false
  sender : Sender := .idle

/-- The response to an `admit_batch`. -/
inductive Reply where
  /-- The collector cannot be reached. -/
  | unavailable
  /-- Any other response, with its list of codes if it has one. -/
  | codes (codes : Option (List Str))

def accountedResults : List Str :=
  ["admitted", "duplicate", "identity_conflict", "queue_saturated", "capture_disabled",
    "capacity_stop", "storage_failure", "event_too_large", "unsupported_version",
    "unsupported_schema", "unsupported_plugin_observation", "unsupported_daemon_observation",
    "invalid_request", "excluded"].map Json.units

variable (c : Config)

/-- `_fits_locked`. -/
def fits (s : State) (size : ℕ) : Bool :=
  s.queue.length + 1 ≤ c.queueCount && s.bytes + size ≤ c.queueBytes

def lossNotice (i : Item) (reason : String) : Json :=
  .obj [item "observation_kind" (.str (Json.units "loss_notice")),
    item "source_instance_id" (if (i.snapshot.get "source_instance_id").truthy
      then i.snapshot.get "source_instance_id" else .str c.sourceInstanceId),
    item "source_local_sequence" (i.snapshot.get "source_local_sequence"),
    item "process_id" (i.snapshot.get "process_id"), item "dropped_kind" (.str i.kind),
    item "reason" (.str (Json.units reason)), item "payload" .null,
    item "schema_id" (.str (Json.units "unknown")), item "envelope_version" (.int 1),
    item "content_version" (.int 1)]

/-- The last `n` of a list. -/
def lastOf {α : Type} (n : ℕ) (xs : List α) : List α := xs.drop (xs.length - n)

/-- `_remember_loss_locked`. -/
def rememberLoss (s : State) (i : Item) (reason : String) : State :=
  { s with localLosses := lastOf 64 (s.localLosses ++ [lossNotice c i reason]) }

/-- An item goes to the end of the queue. -/
def push (s : State) (i : Item) : State :=
  { s with queue := s.queue ++ [i], bytes := s.bytes + i.size }

/-- `_drop_locked`. -/
def drop (s : State) (index : ℕ) : State :=
  match s.queue[index]? with
  | none => s
  | some old => rememberLoss c
      { s with
        queue := s.queue.eraseIdx index
        bytes := s.bytes - old.size
        knownDropped := s.knownDropped + 1 } old "displaced_for_priority"

/-- An item does not fit, and is refused. -/
def saturated (s : State) (i : Item) : State :=
  rememberLoss c { s with knownRefused := s.knownRefused + 1 } i "queue_saturated"

def captured (s : State) (kind : Str) (snapshot : Json) (size : ℕ) : Item :=
  ⟨s.captureSeq + 1, kind, snapshot, size⟩

/-- An item of a low priority, which a high one may displace. -/
def isLow (i : Item) : Bool := !i.isHigh

/-- `_enqueue` of a captured item, and whether it is admitted. -/
def enqueueItem (s : State) (i : Item) : State × Bool :=
  if fits c s i.size then (push s i, true)
  else if i.isHigh then
    match s.queue.findIdx? isLow with
    | some index => (push (drop c s index) i, true)
    | none => (saturated c s i, false)
  else (saturated c s i, false)

def enqueue (s : State) (kind : Str) (snapshot : Json) (size : ℕ) : State × Bool :=
  enqueueItem c { s with captureSeq := s.captureSeq + 1 } (captured s kind snapshot size)

def drain (s : State) (limit : ℕ) : State :=
  { s with
    queue := s.queue.drop limit
    bytes := s.bytes - ((s.queue.take limit).map Item.size).sum
    localLosses := []
    sender := .drained (s.queue.take limit) s.localLosses }

/-- One item of `_requeue`. -/
def putBack (s : State) (i : Item) : State :=
  if fits c s i.size then { s with queue := i :: s.queue, bytes := s.bytes + i.size }
  else rememberLoss c { s with knownDropped := s.knownDropped + 1 } i "requeue_saturated"

def requeue (s : State) (batch : List Item) : State :=
  { batch.reverse.foldl (putBack c) s with sender := .idle }

def noteUnaccounted (s : State) (codes : Option (List Str)) (count : ℕ) : State :=
  match codes with
  | none => { s with knownRefused := s.knownRefused + count }
  | some codes => { s with
      knownRefused := s.knownRefused + ((count - codes.length) +
        (codes.filter fun code => code ∉ accountedResults).length) }

/-- One piece of the sender's loop.  `reply` is the response to the batch, if it is sent. -/
def send (s : State) (reply : Reply) : State :=
  match s.sender with
  | .idle => if s.stop then { s with sender := .ended } else drain s c.batchSize
  | .drained batch _ => { s with sender := if batch = [] then .idle else .sending batch }
  | .sending batch =>
    match reply with
    | .unavailable => { s with collectorUnavailable := true, sender := .requeue batch }
    | .codes codes => { noteUnaccounted s codes batch.length with sender := .idle }
  | .requeue batch => requeue c s batch
  | .ended => s

/-- What happens to a producer. -/
inductive Action where
  /-- `admit` passes an observation on to `_enqueue`. -/
  | enqueue (kind : Str) (snapshot : Json) (size : ℕ)
  /-- `admit` refuses an observation that it counts. -/
  | refuse
  | poll (ok : Bool)
  | close
  | send (reply : Reply)

def step (s : State) : Action → State
  | .enqueue kind snapshot size => (enqueue c s kind snapshot size).1
  | .refuse => { s with knownRefused := s.knownRefused + 1 }
  | .poll ok => { s with collectorUnavailable := !ok }
  | .close => { s with stop := true }
  | .send reply => send c s reply

/-! ## The account -/

def Sender.batch : Sender → List Item
  | .drained batch _ | .sending batch | .requeue batch => batch
  | _ => []

def givesWay (s : State) (i : Item) : Option Item :=
  if fits c s i.size then none
  else if i.isHigh then (s.queue.findIdx? isLow).bind fun index => s.queue[index]?
  else none

/-- The items of a batch that do not fit any more. -/
def lost : State → List Item → List Item
  | _, [] => []
  | s, i :: items =>
    if fits c s i.size then lost (putBack c s i) items else i :: lost (putBack c s i) items

/-- A producer, and where its items have gone. -/
structure Account where
  state : State := {}
  admitted : List Item := []
  delivered : List Item := []
  dropped : List Item := []

/-- An item is captured. -/
def Account.enqueue (x : Account) (kind : Str) (snapshot : Json) (size : ℕ) : Account where
  state := (Producer.enqueue c x.state kind snapshot size).1
  admitted := if (Producer.enqueue c x.state kind snapshot size).2
    then x.admitted ++ [captured x.state kind snapshot size] else x.admitted
  delivered := x.delivered
  dropped := x.dropped ++ (givesWay c { x.state with captureSeq := x.state.captureSeq + 1 }
    (captured x.state kind snapshot size)).toList

/-- A piece of the sender's loop. -/
def Account.send (x : Account) (reply : Reply) : Account where
  state := Producer.send c x.state reply
  admitted := x.admitted
  delivered := match x.state.sender, reply with
    | .sending batch, .codes _ => x.delivered ++ batch
    | _, _ => x.delivered
  dropped := match x.state.sender with
    | .requeue batch => x.dropped ++ lost c x.state batch.reverse
    | _ => x.dropped

def Account.step (x : Account) : Action → Account
  | .enqueue kind snapshot size => x.enqueue c kind snapshot size
  | .send reply => x.send c reply
  | a => { x with state := Producer.step c x.state a }

def sizes (items : List Item) : ℕ := (items.map Item.size).sum

/-- **The account of a producer.** -/
structure Kept (x : Account) : Prop where
  conserved : x.admitted.Perm
    (x.state.queue ++ (x.state.sender.batch ++ (x.delivered ++ x.dropped)))
  distinct : (x.admitted.map Item.captureSeq).Nodup
  earlier : ∀ i ∈ x.admitted, i.captureSeq ≤ x.state.captureSeq
  dropped : x.state.knownDropped = x.dropped.length
  tallied : x.state.bytes = sizes x.state.queue
  count : x.state.queue.length ≤ c.queueCount
  bytes : x.state.bytes ≤ c.queueBytes

/-- An item that gives way leaves room enough. -/
def Roomy (s : State) : Action → Prop
  | .enqueue kind snapshot size =>
    ∀ old ∈ givesWay c { s with captureSeq := s.captureSeq + 1 } (captured s kind snapshot size),
      s.bytes - old.size + size ≤ c.queueBytes
  | _ => True

/-! ### The queue -/

variable {c} {s : State}

theorem sizes_append (items items' : List Item) :
    sizes (items ++ items') = sizes items + sizes items' := by
  rw [sizes, List.map_append, List.sum_append, sizes, sizes]

theorem sizes_cons (i : Item) (items : List Item) : sizes (i :: items) = i.size + sizes items := by
  rw [sizes, List.map_cons, List.sum_cons, sizes]

theorem sizes_eraseIdx {items : List Item} {index : ℕ} {i : Item} (h : items[index]? = some i) :
    sizes items = i.size + sizes (items.eraseIdx index) ∧
      items.Perm (i :: items.eraseIdx index) ∧ (items.eraseIdx index).length + 1 = items.length := by
  obtain ⟨hlt, rfl⟩ := List.getElem?_eq_some_iff.mp h
  have hperm : items.Perm (items[index] :: items.eraseIdx index) :=
    (List.getElem_cons_eraseIdx_perm hlt).symm
  refine ⟨?_, hperm, ?_⟩
  · rw [← sizes_cons]
    exact (hperm.map Item.size).sum_eq
  · rw [hperm.length_eq, List.length_cons]

structure Bounded (c : Config) (s : State) : Prop where
  tallied : s.bytes = sizes s.queue
  count : s.queue.length ≤ c.queueCount
  bytes : s.bytes ≤ c.queueBytes

theorem bounded_push (h : Bounded c s) {i : Item} (hfits : fits c s i.size = true) :
    Bounded c (push s i) := by
  have hbounds : s.queue.length + 1 ≤ c.queueCount ∧ s.bytes + i.size ≤ c.queueBytes := by
    simpa only [fits, Bool.and_eq_true, decide_eq_true_eq] using hfits
  refine ⟨?_, ?_, hbounds.2⟩
  · show s.bytes + i.size = sizes (s.queue ++ [i])
    rw [sizes_append, sizes_cons, h.tallied]
    rfl
  · show (s.queue ++ [i]).length ≤ c.queueCount
    rw [List.length_append]
    exact hbounds.1

/-- **What `_enqueue` does**: the item joins the queue, once another one is dropped if it has to,
or it is refused. -/
theorem enqueueItem_spec (h : Bounded c s) (i : Item)
    (hroom : ∀ old ∈ givesWay c s i, s.bytes - old.size + i.size ≤ c.queueBytes) :
    Bounded c (enqueueItem c s i).1 ∧ (enqueueItem c s i).1.sender = s.sender ∧
      (enqueueItem c s i).1.captureSeq = s.captureSeq ∧
      (enqueueItem c s i).1.knownDropped = s.knownDropped + (givesWay c s i).toList.length ∧
      (s.queue ++ (if (enqueueItem c s i).2 then [i] else [])).Perm
        ((enqueueItem c s i).1.queue ++ (givesWay c s i).toList) := by
  have hnone (s' : State) (hitem : enqueueItem c s i = (s', false)) (hgives : givesWay c s i = none)
      (hsame : s'.queue = s.queue ∧ s'.bytes = s.bytes ∧ s'.sender = s.sender ∧
        s'.captureSeq = s.captureSeq ∧ s'.knownDropped = s.knownDropped) :
      Bounded c (enqueueItem c s i).1 ∧ (enqueueItem c s i).1.sender = s.sender ∧
        (enqueueItem c s i).1.captureSeq = s.captureSeq ∧
        (enqueueItem c s i).1.knownDropped = s.knownDropped + (givesWay c s i).toList.length ∧
        (s.queue ++ (if (enqueueItem c s i).2 then [i] else [])).Perm
          ((enqueueItem c s i).1.queue ++ (givesWay c s i).toList) := by
    obtain ⟨hqueue, hbytes, hsender, hseq, hdropped⟩ := hsame
    rw [hitem, hgives]
    refine ⟨⟨?_, hqueue ▸ h.count, hbytes ▸ h.bytes⟩, hsender, hseq, hdropped, ?_⟩
    · rw [hbytes, hqueue]
      exact h.tallied
    · rw [hqueue]
      exact List.Perm.refl _
  by_cases hfits : fits c s i.size = true
  · have hitem : enqueueItem c s i = (push s i, true) := if_pos hfits
    have hgives : givesWay c s i = none := if_pos hfits
    rw [hitem, hgives]
    refine ⟨bounded_push h hfits, rfl, rfl, rfl, ?_⟩
    exact (List.append_nil (s.queue ++ [i])).symm ▸ List.Perm.refl _
  by_cases hhigh : i.isHigh = true
  · cases hindex : s.queue.findIdx? isLow with
    | none =>
      refine hnone (saturated c s i) ?_ ?_ ⟨rfl, rfl, rfl, rfl, rfl⟩
      · rw [enqueueItem, if_neg hfits, if_pos hhigh, hindex]
      · rw [givesWay, if_neg hfits, if_pos hhigh, hindex]
        rfl
    | some index =>
      obtain ⟨hlt, -, -⟩ := List.findIdx?_eq_some_iff_getElem.mp hindex
      have hget : s.queue[index]? = some s.queue[index] := List.getElem?_eq_getElem hlt
      obtain ⟨hsizes, hperm, hlength⟩ := sizes_eraseIdx hget
      have hitem : enqueueItem c s i = (push (drop c s index) i, true) := by
        rw [enqueueItem, if_neg hfits, if_pos hhigh, hindex]
      have hgives : givesWay c s i = some s.queue[index] := by
        rw [givesWay, if_neg hfits, if_pos hhigh, hindex]
        exact hget
      have hdrop : drop c s index = rememberLoss c
          { s with
            queue := s.queue.eraseIdx index
            bytes := s.bytes - s.queue[index].size
            knownDropped := s.knownDropped + 1 } s.queue[index] "displaced_for_priority" := by
        unfold drop
        rw [hget]
      have hroom' := hroom s.queue[index] hgives
      rw [hitem, hgives, hdrop]
      refine ⟨⟨?_, ?_, hroom'⟩, rfl, rfl, rfl, ?_⟩
      · show s.bytes - s.queue[index].size + i.size = sizes (s.queue.eraseIdx index ++ [i])
        rw [sizes_append, sizes_cons, h.tallied, hsizes, Nat.add_sub_cancel_left]
        rfl
      · show (s.queue.eraseIdx index ++ [i]).length ≤ c.queueCount
        have hcount := h.count
        rw [List.length_append, List.length_singleton]
        omega
      · show (s.queue ++ [i]).Perm ((s.queue.eraseIdx index ++ [i]) ++ [s.queue[index]])
        rw [List.perm_iff_count] at hperm ⊢
        intro a
        have hp := hperm a
        simp only [List.count_append, List.count_cons, List.count_nil] at hp ⊢
        omega
  · refine hnone (saturated c s i) ?_ ?_ ⟨rfl, rfl, rfl, rfl, rfl⟩
    · rw [enqueueItem, if_neg hfits, if_neg hhigh]
    · rw [givesWay, if_neg hfits, if_neg hhigh]

/-- **What `_requeue` does**: what fits goes back to the head of the queue, and the rest is
dropped. -/
theorem requeue_spec (h : Bounded c s) (items : List Item) :
    Bounded c (items.foldl (putBack c) s) ∧
      (items.foldl (putBack c) s).captureSeq = s.captureSeq ∧
      (items.foldl (putBack c) s).knownDropped = s.knownDropped + (lost c s items).length ∧
      (items ++ s.queue).Perm ((items.foldl (putBack c) s).queue ++ lost c s items) := by
  induction items generalizing s with
  | nil => exact ⟨h, rfl, rfl, (List.append_nil _).symm ▸ List.Perm.refl _⟩
  | cons i items ih =>
    rw [List.foldl_cons, lost]
    by_cases hfits : fits c s i.size = true
    · have hbounds : s.queue.length + 1 ≤ c.queueCount ∧ s.bytes + i.size ≤ c.queueBytes := by
        simpa only [fits, Bool.and_eq_true, decide_eq_true_eq] using hfits
      have hput : putBack c s i =
          { s with queue := i :: s.queue, bytes := s.bytes + i.size } := if_pos hfits
      have hnext : Bounded c (putBack c s i) := by
        rw [hput]
        refine ⟨?_, hbounds.1, hbounds.2⟩
        show s.bytes + i.size = sizes (i :: s.queue)
        rw [sizes_cons, h.tallied, Nat.add_comm]
      obtain ⟨hb, hseq, hdropped, hperm⟩ := ih hnext
      rw [if_pos hfits]
      refine ⟨hb, ?_, ?_, ?_⟩
      · rw [hseq, hput]
      · rw [hdropped, hput]
      · have hqueue : (putBack c s i).queue = i :: s.queue := by rw [hput]
        rw [hqueue] at hperm
        exact List.perm_middle.symm.trans hperm
    · have hput : putBack c s i =
          rememberLoss c { s with knownDropped := s.knownDropped + 1 } i "requeue_saturated" :=
        if_neg hfits
      have hnext : Bounded c (putBack c s i) := by
        rw [hput]
        exact ⟨h.tallied, h.count, h.bytes⟩
      obtain ⟨hb, hseq, hdropped, hperm⟩ := ih hnext
      rw [if_neg hfits]
      refine ⟨hb, ?_, ?_, ?_⟩
      · rw [hseq, hput]
        rfl
      · have hbefore : (putBack c s i).knownDropped = s.knownDropped + 1 := by rw [hput]; rfl
        rw [hdropped, hbefore, List.length_cons]
        omega
      · have hqueue : (putBack c s i).queue = s.queue := by rw [hput]; rfl
        rw [hqueue] at hperm
        exact (hperm.cons i).trans List.perm_middle.symm

/-! ### Runs -/

variable {x : Account}

theorem Kept.bounded (h : Kept c x) : Bounded c x.state :=
  ⟨h.tallied, h.count, h.bytes⟩

theorem Kept.enqueue (h : Kept c x) (kind : Str) (snapshot : Json) (size : ℕ)
    (hroom : Roomy c x.state (.enqueue kind snapshot size)) :
    Kept c (x.enqueue c kind snapshot size) := by
  have hbounded : Bounded c { x.state with captureSeq := x.state.captureSeq + 1 } :=
    ⟨h.tallied, h.count, h.bytes⟩
  obtain ⟨hb, hsender, hseq, hdropped, hperm⟩ :=
    enqueueItem_spec hbounded (captured x.state kind snapshot size) hroom
  have hseq' : (Producer.enqueue c x.state kind snapshot size).1.captureSeq =
      x.state.captureSeq + 1 := hseq
  have hadmitted (i : Item) (hi : i ∈ (x.enqueue c kind snapshot size).admitted) :
      i ∈ x.admitted ∨ i = captured x.state kind snapshot size := by
    have hi' : i ∈ (if (Producer.enqueue c x.state kind snapshot size).2
      then x.admitted ++ [captured x.state kind snapshot size] else x.admitted) := hi
    split_ifs at hi'
    · rcases List.mem_append.mp hi' with hi' | hi'
      · exact Or.inl hi'
      · exact Or.inr (List.mem_singleton.mp hi')
    · exact Or.inl hi'
  refine ⟨?_, ?_, fun i hi => ?_, ?_, hb.tallied, hb.count, hb.bytes⟩
  · have hconserved := h.conserved
    have hbatch : (Producer.enqueue c x.state kind snapshot size).1.sender = x.state.sender := hsender
    have hperm' : (x.state.queue ++ (if (Producer.enqueue c x.state kind snapshot size).2
        then [captured x.state kind snapshot size] else [])).Perm
        ((Producer.enqueue c x.state kind snapshot size).1.queue ++
          (givesWay c { x.state with captureSeq := x.state.captureSeq + 1 }
            (captured x.state kind snapshot size)).toList) := hperm
    show (if (Producer.enqueue c x.state kind snapshot size).2
        then x.admitted ++ [captured x.state kind snapshot size] else x.admitted).Perm
      ((Producer.enqueue c x.state kind snapshot size).1.queue ++
        ((Producer.enqueue c x.state kind snapshot size).1.sender.batch ++ (x.delivered ++
          (x.dropped ++ (givesWay c { x.state with captureSeq := x.state.captureSeq + 1 }
            (captured x.state kind snapshot size)).toList))))
    rw [hbatch]
    rw [List.perm_iff_count] at hconserved hperm' ⊢
    intro a
    have hc := hconserved a
    have hp := hperm' a
    split_ifs at hp ⊢ <;> simp only [List.count_append, List.count_nil] at hc hp ⊢ <;> omega
  · show ((if (Producer.enqueue c x.state kind snapshot size).2
        then x.admitted ++ [captured x.state kind snapshot size]
        else x.admitted).map Item.captureSeq).Nodup
    split_ifs
    · rw [List.map_append, List.map_singleton]
      refine List.Nodup.append h.distinct (List.nodup_singleton _) ?_
      intro n hn hn'
      obtain ⟨i, hi, rfl⟩ := List.mem_map.mp hn
      have hle := h.earlier i hi
      have heq : i.captureSeq = x.state.captureSeq + 1 := List.mem_singleton.mp hn'
      omega
    · exact h.distinct
  · show i.captureSeq ≤ (Producer.enqueue c x.state kind snapshot size).1.captureSeq
    rw [hseq']
    rcases hadmitted i hi with hi | rfl
    · exact Nat.le_succ_of_le (h.earlier i hi)
    · exact Nat.le_refl _
  · show (Producer.enqueue c x.state kind snapshot size).1.knownDropped = (x.dropped ++ _).length
    have hd : (Producer.enqueue c x.state kind snapshot size).1.knownDropped = _ := hdropped
    rw [hd, List.length_append, ← h.dropped]

/-- A piece that leaves the queue, the batch and the account alone. -/
theorem Kept.same (h : Kept c x) {s : State} (hqueue : s.queue = x.state.queue)
    (hbytes : s.bytes = x.state.bytes) (hseq : s.captureSeq = x.state.captureSeq)
    (hknown : s.knownDropped = x.state.knownDropped)
    (hbatch : s.sender.batch = x.state.sender.batch) : Kept c { x with state := s } where
  conserved := by
    show x.admitted.Perm (s.queue ++ (s.sender.batch ++ _))
    rw [hqueue, hbatch]
    exact h.conserved
  distinct := h.distinct
  earlier i hi := by
    show i.captureSeq ≤ s.captureSeq
    rw [hseq]
    exact h.earlier i hi
  dropped := hknown.trans h.dropped
  tallied := by
    show s.bytes = sizes s.queue
    rw [hbytes, hqueue]
    exact h.tallied
  count := by
    show s.queue.length ≤ c.queueCount
    rw [hqueue]
    exact h.count
  bytes := by
    show s.bytes ≤ c.queueBytes
    rw [hbytes]
    exact h.bytes

/-- A batch is taken off the queue. -/
theorem Kept.drain (h : Kept c x) (hbatch : x.state.sender.batch = []) (n : ℕ) :
    Kept c { x with state := Producer.drain x.state n } := by
  have hsplit : x.state.queue.take n ++ x.state.queue.drop n = x.state.queue :=
    List.take_append_drop n x.state.queue
  have hsizes := sizes_append (x.state.queue.take n) (x.state.queue.drop n)
  rw [hsplit] at hsizes
  refine ⟨?_, h.distinct, h.earlier, h.dropped, ?_, ?_, ?_⟩
  · have hconserved := h.conserved
    rw [hbatch, ← hsplit] at hconserved
    show x.admitted.Perm (x.state.queue.drop n ++ (x.state.queue.take n ++ _))
    rw [List.perm_iff_count] at hconserved ⊢
    intro a
    have hc := hconserved a
    simp only [List.count_append, List.count_nil] at hc ⊢
    omega
  · show x.state.bytes - sizes (x.state.queue.take n) = sizes (x.state.queue.drop n)
    rw [h.tallied, hsizes, Nat.add_sub_cancel_left]
  · show (x.state.queue.drop n).length ≤ c.queueCount
    have hcount := h.count
    rw [List.length_drop]
    omega
  · show x.state.bytes - _ ≤ c.queueBytes
    exact Nat.le_trans (Nat.sub_le _ _) h.bytes

theorem Kept.deliver (h : Kept c x) {batch : List Item}
    (hsender : x.state.sender = .sending batch) (codes : Option (List Str)) :
    Kept c { x with
      state := { noteUnaccounted x.state codes batch.length with sender := .idle }
      delivered := x.delivered ++ batch } := by
  have hnoted : (noteUnaccounted x.state codes batch.length).queue = x.state.queue ∧
      (noteUnaccounted x.state codes batch.length).bytes = x.state.bytes ∧
      (noteUnaccounted x.state codes batch.length).captureSeq = x.state.captureSeq ∧
      (noteUnaccounted x.state codes batch.length).knownDropped = x.state.knownDropped := by
    cases codes <;> exact ⟨rfl, rfl, rfl, rfl⟩
  obtain ⟨hqueue, hbytes, hseq, hdropped⟩ := hnoted
  refine ⟨?_, h.distinct, fun i hi => ?_, hdropped.trans h.dropped, ?_, ?_, ?_⟩
  · have hconserved := h.conserved
    rw [hsender] at hconserved
    show x.admitted.Perm ((noteUnaccounted x.state codes batch.length).queue ++
      ([] ++ ((x.delivered ++ batch) ++ x.dropped)))
    rw [hqueue]
    rw [List.perm_iff_count] at hconserved ⊢
    intro a
    have hc : x.admitted.count a =
        (x.state.queue ++ (batch ++ (x.delivered ++ x.dropped))).count a := hconserved a
    simp only [List.count_append, List.count_nil] at hc ⊢
    omega
  · show i.captureSeq ≤ (noteUnaccounted x.state codes batch.length).captureSeq
    rw [hseq]
    exact h.earlier i hi
  · show (noteUnaccounted x.state codes batch.length).bytes =
      sizes (noteUnaccounted x.state codes batch.length).queue
    rw [hbytes, hqueue]
    exact h.tallied
  · show (noteUnaccounted x.state codes batch.length).queue.length ≤ c.queueCount
    rw [hqueue]
    exact h.count
  · show (noteUnaccounted x.state codes batch.length).bytes ≤ c.queueBytes
    rw [hbytes]
    exact h.bytes

/-- A batch goes back. -/
theorem Kept.requeue (h : Kept c x) {batch : List Item}
    (hsender : x.state.sender = .requeue batch) :
    Kept c { x with
      state := Producer.requeue c x.state batch
      dropped := x.dropped ++ lost c x.state batch.reverse } := by
  obtain ⟨hb, hseq, hdropped, hperm⟩ := requeue_spec h.bounded batch.reverse
  refine ⟨?_, h.distinct, fun i hi => ?_, ?_, hb.tallied, hb.count, hb.bytes⟩
  · have hconserved := h.conserved
    rw [hsender] at hconserved
    show x.admitted.Perm ((batch.reverse.foldl (putBack c) x.state).queue ++
      ([] ++ (x.delivered ++ (x.dropped ++ lost c x.state batch.reverse))))
    rw [List.perm_iff_count] at hconserved hperm ⊢
    intro a
    have hc : x.admitted.count a =
        (x.state.queue ++ (batch ++ (x.delivered ++ x.dropped))).count a := hconserved a
    have hp := hperm a
    simp only [List.count_append, List.count_nil, List.count_reverse] at hc hp ⊢
    omega
  · show i.captureSeq ≤ (batch.reverse.foldl (putBack c) x.state).captureSeq
    rw [hseq]
    exact h.earlier i hi
  · show (batch.reverse.foldl (putBack c) x.state).knownDropped = (x.dropped ++ _).length
    rw [hdropped, List.length_append, ← h.dropped]

/-- **A piece of the sender's loop keeps the account.** -/
theorem Kept.send (h : Kept c x) (reply : Reply) : Kept c (x.send c reply) := by
  obtain ⟨s, admitted, delivered, dropped⟩ := x
  unfold Account.send Producer.send
  dsimp only
  cases hsender : s.sender with
  | idle =>
    have hbatch : s.sender.batch = [] := by rw [hsender]; rfl
    dsimp only
    split_ifs
    · exact h.same rfl rfl rfl rfl hbatch.symm
    · exact h.drain hbatch c.batchSize
  | drained batch losses =>
    have hbatch : s.sender.batch = batch := by rw [hsender]; rfl
    refine h.same rfl rfl rfl rfl ?_
    show Sender.batch (if batch = [] then .idle else .sending batch) = s.sender.batch
    rw [hbatch]
    split_ifs with hnil
    · rw [hnil]
      rfl
    · rfl
  | sending batch =>
    cases reply with
    | unavailable =>
      have hbatch : s.sender.batch = batch := by rw [hsender]; rfl
      exact h.same rfl rfl rfl rfl hbatch.symm
    | codes codes => exact h.deliver hsender codes
  | requeue batch => exact h.requeue hsender
  | ended => exact h

/-- **One step keeps the account of a producer.** -/
theorem kept_step (h : Kept c x) (a : Action) (hroomy : Roomy c x.state a) :
    Kept c (x.step c a) := by
  cases a with
  | enqueue kind snapshot size => exact h.enqueue kind snapshot size hroomy
  | send reply => exact h.send reply
  | refuse => exact h.same rfl rfl rfl rfl rfl
  | poll ok => exact h.same rfl rfl rfl rfl rfl
  | close => exact h.same rfl rfl rfl rfl rfl

theorem kept_run {acts : List Action}
    (hroomy : Runs.Along (Account.step c) (fun x a => Roomy c x.state a) {} acts) :
    Kept c (Runs.run (Account.step c) {} acts) := by
  have hinit : Kept c {} :=
    ⟨List.Perm.refl _, List.nodup_nil, List.forall_mem_nil _, rfl, rfl,
      Nat.zero_le _, Nat.zero_le _⟩
  have hstep (x : Account) (a : Action) (hroomy : Roomy c x.state a) (h : Kept c x) :
      Kept c (x.step c a) := kept_step h a hroomy
  exact Runs.run_invariant_along hstep hinit hroomy

end Producer

instance decidableRoomy (c : Config) (w : World) : ∀ a, Decidable (Roomy c w a)
  | .admitItem g s => inferInstanceAs (Decidable (∀ m ∈ w.process, ∀ i ∈ offered c g m s,
      ∀ old ∈ m.givesWay c i, m.queueBytes - old.size + i.size ≤ c.limits.collectorQueueBytes))
  | .work _ => inferInstanceAs (Decidable (∀ m ∈ w.process, ∀ laid ∈ m.thread.held,
      ¬ (c.phaseHold = true ∧ laid.observations ≠ [] ∧ m.stop = true)))
  | .start .. | .crash | .refuse | .checkpoint _ | .policyFailure | .stop | .markClean _ =>
    .isTrue trivial

instance Producer.decidableRoomy (c : Producer.Config) (s : Producer.State) :
    ∀ a, Decidable (Producer.Roomy c s a)
  | .enqueue kind snapshot size => inferInstanceAs (Decidable
      (∀ old ∈ Producer.givesWay c { s with captureSeq := s.captureSeq + 1 }
        (Producer.captured s kind snapshot size), s.bytes - old.size + size ≤ c.queueBytes))
  | .refuse | .poll _ | .close | .send _ => .isTrue trivial

/-- A collector whose queue takes 600 bytes. -/
def narrowConfig : Config :=
  { sampleConfig with limits := { sampleConfig.limits with collectorQueueBytes := 600 } }

def narrowProducer : Producer.Config := { queueBytes := 600 }

/-- A start, which has a high priority. -/
def sampleStart (payload : Json) : Semantic :=
  { sampleObservation 2 with kind := .start, payload := payload }

/-- A start displaces an input change, and is published. -/
def displacedActions : List Action :=
  [.start none .ok, .admitItem {} (sampleObservation 1), .admitItem {} (sampleStart .null)] ++
    undisturbed 9

/-- A start displaces an input change, finds no collector and goes back. -/
def displacedProducer : List Producer.Action :=
  [.enqueue (Json.units "input_change") (.obj []) 400, .enqueue (Json.units "start") (.obj []) 500,
    .send .unavailable, .send .unavailable, .send .unavailable, .send .unavailable]

/-- A start of 661 bytes displaces an input change of 470 bytes. -/
def overfullActions : List Action :=
  [.start none .ok, .admitItem {} (sampleObservation 1),
    .admitItem {} (sampleStart (.str (List.replicate 200 97)))]

/-- A start of 700 bytes displaces an input change of 400 bytes. -/
def overfullProducer : List Producer.Action :=
  [.enqueue (Json.units "input_change") (.obj []) 400, .enqueue (Json.units "start") (.obj []) 700]

end Archive
end SemanticMemory
