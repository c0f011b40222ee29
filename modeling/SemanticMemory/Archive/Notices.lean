import SemanticMemory.Archive.Producer

/-!
# The notices of losses

What the producer drops it remembers in a notice, and its thread sends the notices ahead of the next
batch.  `_send_losses` does not look at the answer, and a notice is in nobody's hands after it.

* `Ledger` is a producer and what has become of its notices; `Notified` says that each notice is
  pending or was answered.
* A run is followed as long as the bound of 64 notices forgets none (`Few`).

`notified_iff` is what is left: every exchange of notices has one code for each.
-/

namespace SemanticMemory
namespace Archive
namespace Producer

/-- The notices in the sender's hands. -/
def Sender.losses : Sender → List Json
  | .drained _ losses => losses
  | _ => []

/-- The notices that wait for an exchange, or for its answer. -/
def State.pending (s : State) : List Json := s.localLosses ++ s.sender.losses

/-- The answer has one code for each of `n` notices. -/
def Reply.codesFor (n : ℕ) : Reply → Bool
  | .codes (some list) => list.length = n
  | _ => false

variable (c : Config)

/-- The notices that a step remembers. -/
def noticed (s : State) : Action → List Json
  | .enqueue kind snapshot size =>
    let i := captured s kind snapshot size
    if fits c s size then []
    else if i.isHigh then
      match s.queue.findIdx? isLow with
      | some index => (s.queue[index]?).toList.map fun old =>
        lossNotice c old "displaced_for_priority"
      | none => [lossNotice c i "queue_saturated"]
    else [lossNotice c i "queue_saturated"]
  | .send _ =>
    match s.sender with
    | .requeue batch => (lost c s batch.reverse).map fun i => lossNotice c i "requeue_saturated"
    | _ => []
  | _ => []

/-- The notices that an exchange of the step carries. -/
def carried (s : State) : Action → List Json
  | .send _ => s.sender.losses
  | _ => []

/-- An exchange of notices is answered with one code for each. -/
def Answers (s : State) : Action → Prop
  | .send reply => s.sender.losses = [] ∨ reply.codesFor s.sender.losses.length = true
  | _ => True

instance (s : State) : ∀ a, Decidable (Answers s a)
  | .send _ => inferInstanceAs (Decidable (_ ∨ _))
  | .enqueue .. | .refuse | .poll _ | .close => .isTrue trivial

/-- A producer, and what has become of its notices. -/
structure Ledger where
  state : State := {}
  remembered : List Json := []
  answered : List Json := []
  /-- What an exchange carried that was not answered with one code for each. -/
  vanished : List Json := []

def Ledger.step (x : Ledger) (a : Action) : Ledger where
  state := Producer.step c x.state a
  remembered := x.remembered ++ noticed c x.state a
  answered := if Answers x.state a then x.answered ++ carried x.state a else x.answered
  vanished := if Answers x.state a then x.vanished else x.vanished ++ carried x.state a

/-- No notice is forgotten for the bound of 64. -/
def Few (x : Ledger) (a : Action) : Prop :=
  x.state.localLosses.length + (noticed c x.state a).length ≤ 64

instance (x : Ledger) (a : Action) : Decidable (Few c x a) := inferInstanceAs (Decidable (_ ≤ _))

/-- **What is promised of the notices**: each one that was remembered is pending or answered, and no
exchange, however it is answered, leaves the notices it carried to be sent again. -/
structure Notified (x : Ledger) : Prop where
  kept : x.remembered.Perm (x.state.pending ++ x.answered)
  sent : ∀ reply batch losses, x.state.sender = .drained batch losses →
    (Producer.send c x.state reply).pending = x.state.localLosses

/-- Every notice is in one place. -/
def Placed (x : Ledger) : Prop :=
  x.remembered.Perm (x.state.pending ++ (x.answered ++ x.vanished))

/-! ### One step -/

variable {c} {s : State} {x : Ledger}

theorem lastOf_eq {α : Type} {n : ℕ} {xs : List α} (h : xs.length ≤ n) : lastOf n xs = xs := by
  rw [lastOf, Nat.sub_eq_zero_of_le h, List.drop_zero]

/-- After an exchange nothing is pending but what has come since. -/
theorem pending_send (reply : Reply) {batch : List Item} {losses : List Json}
    (h : s.sender = .drained batch losses) :
    (Producer.send c s reply).pending = s.localLosses := by
  rw [Producer.send, h, State.pending]
  dsimp only
  split_ifs <;> exact List.append_nil _

/-- What is requeued adds a notice for each item that does not fit. -/
theorem requeue_localLosses (items : List Item)
    (h : s.localLosses.length + (lost c s items).length ≤ 64) :
    (items.foldl (putBack c) s).localLosses =
      s.localLosses ++ (lost c s items).map fun i => lossNotice c i "requeue_saturated" := by
  induction items generalizing s with
  | nil => exact (List.append_nil _).symm
  | cons i items ih =>
    rw [lost] at h ⊢
    rw [List.foldl_cons]
    by_cases hfits : fits c s i.size = true
    · have hput : (putBack c s i).localLosses = s.localLosses := by rw [putBack, if_pos hfits]
      rw [if_pos hfits] at h ⊢
      rw [ih (hput.symm ▸ h), hput]
    · rw [if_neg hfits, List.length_cons] at h
      have hone : (s.localLosses ++ [lossNotice c i "requeue_saturated"]).length ≤ 64 := by
        rw [List.length_append, List.length_singleton]
        omega
      have hput : (putBack c s i).localLosses =
          s.localLosses ++ [lossNotice c i "requeue_saturated"] := by
        rw [putBack, if_neg hfits]
        exact lastOf_eq hone
      rw [if_neg hfits, ih (by rw [hput, List.length_append, List.length_singleton]; omega), hput,
        List.append_assoc, List.map_cons, List.singleton_append]

/-- **What `_enqueue` remembers**, next to a thread that it leaves alone. -/
theorem enqueue_localLosses {kind : Str} {snapshot : Json} {size : ℕ}
    (h : s.localLosses.length + (noticed c s (.enqueue kind snapshot size)).length ≤ 64) :
    (enqueue c s kind snapshot size).1.localLosses =
        s.localLosses ++ noticed c s (.enqueue kind snapshot size) ∧
      (enqueue c s kind snapshot size).1.sender = s.sender := by
  have hone (notice : Json) (hn : s.localLosses.length + [notice].length ≤ 64) :
      lastOf 64 (s.localLosses ++ [notice]) = s.localLosses ++ [notice] :=
    lastOf_eq (by rwa [List.length_append])
  have hcase : fits c { s with captureSeq := s.captureSeq + 1 }
      (captured s kind snapshot size).size = fits c s size := rfl
  unfold noticed at h ⊢
  unfold enqueue enqueueItem
  dsimp only at h ⊢
  rw [hcase]
  split_ifs at h ⊢ with hfits hhigh
  · exact ⟨(List.append_nil _).symm, rfl⟩
  · cases hindex : s.queue.findIdx? isLow with
    | none =>
      rw [hindex] at h
      exact ⟨hone _ h, rfl⟩
    | some index =>
      rw [hindex] at h
      unfold drop
      dsimp only at h ⊢
      cases hold : s.queue[index]? with
      | none => exact ⟨(List.append_nil _).symm, rfl⟩
      | some old =>
        rw [hold] at h
        exact ⟨hone _ h, rfl⟩
  · exact ⟨hone _ h, rfl⟩

/-- **One step leaves every notice in one place.** -/
theorem placed_step (h : Placed x) {a : Action} (hfew : Few c x a) : Placed (x.step c a) := by
  have hplaced (hcarried : carried x.state a = [])
      (hpending : (Producer.step c x.state a).pending.Perm
        (x.state.pending ++ noticed c x.state a)) : Placed (x.step c a) := by
    have hsame : (x.step c a).answered = x.answered ∧ (x.step c a).vanished = x.vanished := by
      unfold Ledger.step
      simp only [hcarried, List.append_nil, ite_self, and_self]
    unfold Placed at h ⊢
    rw [hsame.1, hsame.2]
    show (x.remembered ++ noticed c x.state a).Perm ((Producer.step c x.state a).pending ++ _)
    rw [List.perm_iff_count] at h hpending ⊢
    intro n
    have hn := h n
    have hp := hpending n
    simp only [List.count_append] at hn hp ⊢
    omega
  have hquiet (hcarried : carried x.state a = []) (hnone : noticed c x.state a = [])
      (hlosses : (Producer.step c x.state a).localLosses = x.state.localLosses)
      (hsender : (Producer.step c x.state a).sender.losses = x.state.sender.losses) :
      Placed (x.step c a) := by
    refine hplaced hcarried ?_
    rw [hnone, List.append_nil, State.pending, hlosses, hsender]
    exact List.Perm.refl _
  cases a with
  | enqueue kind snapshot size =>
    obtain ⟨hlosses, hsender⟩ := enqueue_localLosses hfew
    refine hplaced rfl ?_
    show ((enqueue c x.state kind snapshot size).1.localLosses ++
      (enqueue c x.state kind snapshot size).1.sender.losses).Perm _
    rw [hlosses, hsender, State.pending, List.append_assoc, List.append_assoc]
    exact List.perm_append_comm.append_left _
  | refuse | poll | close => exact hquiet rfl rfl rfl rfl
  | send reply =>
    have hstep : (Producer.step c x.state (.send reply)) = Producer.send c x.state reply := rfl
    unfold Producer.send at hstep
    have hnoticed : noticed c x.state (.send reply) = match x.state.sender with
      | .requeue batch => (lost c x.state batch.reverse).map fun i =>
        lossNotice c i "requeue_saturated"
      | _ => [] := rfl
    have hcarried : carried x.state (.send reply) = x.state.sender.losses := rfl
    cases hs : x.state.sender with
    | idle =>
      rw [hs] at hstep hnoticed hcarried
      dsimp only at hstep
      split_ifs at hstep
      · exact hquiet hcarried hnoticed (by rw [hstep]) (by rw [hstep, hs]; rfl)
      · refine hplaced hcarried ?_
        rw [hstep, hnoticed, State.pending, State.pending, hs, List.append_nil]
        exact List.perm_append_comm
    | drained batch losses =>
      rw [hs] at hnoticed hcarried
      have hpending : (Producer.step c x.state (.send reply)).pending = x.state.localLosses :=
        pending_send reply hs
      have hbefore : x.state.pending = x.state.localLosses ++ losses := by
        rw [State.pending, hs]
        rfl
      unfold Placed at h ⊢
      unfold Ledger.step
      dsimp only
      rw [hpending, hnoticed, hcarried, List.append_nil]
      rw [hbefore] at h
      rw [List.perm_iff_count] at h ⊢
      intro n
      have hn := h n
      rw [Sender.losses]
      split_ifs <;> simp only [List.count_append] at hn ⊢ <;> omega
    | sending batch =>
      rw [hs] at hstep hnoticed hcarried
      cases reply with
      | unavailable => exact hquiet hcarried hnoticed (by rw [hstep]) (by rw [hstep, hs]; rfl)
      | codes codes =>
        refine hquiet hcarried hnoticed ?_ (by rw [hstep, hs]; rfl)
        rw [hstep]
        cases codes <;> rfl
    | requeue batch =>
      rw [hs] at hstep hnoticed hcarried
      dsimp only at hstep
      refine hplaced hcarried ?_
      have hlosses := requeue_localLosses batch.reverse (c := c) (s := x.state) (by
        have hfew' := hfew
        rw [Few, hnoticed, List.length_map] at hfew'
        exact hfew')
      rw [hstep, hnoticed, State.pending, State.pending, hs]
      show ((batch.reverse.foldl (putBack c) x.state).localLosses ++ []).Perm
        ((x.state.localLosses ++ []) ++ _)
      rw [hlosses, List.append_nil, List.append_nil]
    | ended =>
      rw [hs] at hstep hnoticed hcarried
      exact hquiet hcarried hnoticed (by rw [hstep]) (by rw [hstep])

/-! ### Runs -/

theorem placed_run {acts : List Action} (hfew : Runs.Along (Ledger.step c) (Few c) {} acts) :
    Placed (Runs.run (Ledger.step c) {} acts) := by
  have hstep (x : Ledger) (a : Action) (hfew : Few c x a) (h : Placed x) : Placed (x.step c a) :=
    placed_step h hfew
  have hinit : Placed {} := List.Perm.refl _
  exact Runs.run_invariant_along hstep hinit hfew

/-- What is promised holds as long as nothing has vanished. -/
theorem notified_iff_vanished (h : Placed x) : Notified c x ↔ x.vanished = [] := by
  constructor
  · intro hn
    have hlength := hn.kept.length_eq
    rw [h.length_eq] at hlength
    simp only [List.length_append] at hlength
    exact List.eq_nil_of_length_eq_zero (by omega)
  · intro hv
    refine ⟨?_, fun reply _ _ hs => pending_send reply hs⟩
    rw [Placed, hv, List.append_nil] at h
    exact h

/-- Nothing has vanished exactly when every exchange was answered. -/
theorem vanished_run (acts : List Action) :
    (Runs.run (Ledger.step c) x acts).vanished = [] ↔
      x.vanished = [] ∧ Runs.Along (Ledger.step c) (fun x a => Answers x.state a) x acts := by
  induction acts generalizing x with
  | nil => simp
  | cons a acts ih =>
    rw [Runs.run_cons, Runs.along_cons, ih, ← and_assoc]
    refine and_congr_left fun _ => ?_
    unfold Ledger.step
    dsimp only
    by_cases hanswers : Answers x.state a
    · rw [if_pos hanswers]
      exact (and_iff_left hanswers).symm
    · rw [if_neg hanswers, List.append_eq_nil_iff]
      refine ⟨fun hnone => absurd ?_ hanswers, fun hno => absurd hno.2 hanswers⟩
      cases a with
      | send reply => exact Or.inl hnone.2
      | _ => trivial

/-- **The notices are kept exactly as long as every exchange of them is answered with one code for
each**, in every run in which the bound of 64 notices forgets none. -/
theorem notified_iff (c : Config) (acts : List Action)
    (hfew : Runs.Along (Ledger.step c) (Few c) {} acts) :
    (∀ before after, acts = before ++ after → Notified c (Runs.run (Ledger.step c) {} before)) ↔
      Runs.Along (Ledger.step c) (fun x a => Answers x.state a) {} acts := by
  constructor
  · intro hall
    have hlast := (notified_iff_vanished (placed_run hfew)).mp
      (hall acts [] (List.append_nil _).symm)
    exact ((vanished_run acts).mp hlast).2
  · rintro hanswers before after rfl
    refine (notified_iff_vanished (placed_run (Runs.along_append.mp hfew).1)).mpr ?_
    exact (vanished_run before).mpr ⟨rfl, (Runs.along_append.mp hanswers).1⟩

/-- An observation of a process. -/
def sampleSnapshot (sequence : ℕ) : Json :=
  .obj [item "source_instance_id" (.str (Json.units "source")),
    item "source_local_sequence" (.int sequence), item "process_id" (.str (Json.units "process")),
    item "observation_kind" (.str (Json.units "input_change"))]

/-- The second of two observations does not fit, and its notice meets a collector that is away. -/
def noticedActions (reply : Reply) : List Action :=
  [.enqueue (Json.units "input_change") (sampleSnapshot 1) 100,
    .enqueue (Json.units "input_change") (sampleSnapshot 2) 100, .send .unavailable, .send reply]

/-- A producer whose queue takes one item. -/
def tightProducer : Config := { queueCount := 1 }

/-- The exchange of the notice is answered. -/
theorem notified_iff_admitted :
    (∀ before after, noticedActions (.codes (some [Json.units "admitted"])) = before ++ after →
      Notified tightProducer (Runs.run (Ledger.step tightProducer) {} before)) ↔
    Runs.Along (Ledger.step tightProducer) (fun x a => Answers x.state a) {}
      (noticedActions (.codes (some [Json.units "admitted"]))) :=
  notified_iff tightProducer _ (by decide +kernel)

/-- **A notice that meets no collector is gone.** -/
theorem not_notified_unavailable : ¬ ∀ (c : Config) (acts : List Action),
    Runs.Along (Ledger.step c) (Few c) {} acts → Notified c (Runs.run (Ledger.step c) {} acts) := by
  intro hall
  have hlength := (hall tightProducer (noticedActions .unavailable) (by decide +kernel)).kept.length_eq
  revert hlength
  decide +kernel

end Producer
end Archive
end SemanticMemory
