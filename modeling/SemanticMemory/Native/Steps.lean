import SemanticMemory.Native.Producer

/-!
# What the steps of the native producer do

The operations under the lock, one by one: what they leave alone, and where the observations are
afterwards.

* `Frame` is what an operation under the lock leaves alone: the numbers, the destination and the
  policy, and it tells of no call and no frame.
* `enter_cases`, `putBack_cases`, `restoreLoss_cases` name the ways of the operations that move
  observations.
* `Waiting P` says that whatever waits in the queue or among the losses meets `P`; an operation keeps
  it when a notice of a loss and a retried observation meet `P` again.
-/

namespace SemanticMemory
namespace Native

variable {l : Limits} {s s' s'' : State} {o old : Observation}

/-! ## The call and the worker -/

def Call.observation : Call → Observation
  | .begun o | .safe o | .stamped o | .allowed o _ => o

/-- What a call has been stamped with. -/
def Call.Stamped (s : State) : Call → Prop
  | .stamped o | .allowed o _ => o.bindingGeneration ≤ s.bindingGeneration
  | _ => True

theorem Call.Stamped.mono {c : Call} (h : c.Stamped s)
    (hle : s.bindingGeneration ≤ s'.bindingGeneration) : c.Stamped s' := by
  cases c with
  | begun | safe => trivial
  | stamped o => exact Nat.le_trans h hle
  | allowed o p => exact Nat.le_trans h hle

def Worker.generation : Worker → ℕ
  | .stamped g | .send g _ _ | .current g _ _ | .exchange g _ _ | .answered g _ _ _
  | .restore g _ _ | .requeue g _ | .deliver g _ | .delivered g _ _ | .policy g => g
  | .idle => 0

/-- The batch that the worker has taken off the queue. -/
def Worker.batch : Worker → List Observation
  | .send _ (.losses rest) _ | .current _ (.losses rest) _ | .exchange _ (.losses rest) _
  | .answered _ (.losses rest) _ _ => rest
  | .send _ .batch items | .current _ .batch items | .exchange _ .batch items
  | .answered _ .batch items _ => items
  | .restore _ _ rest => rest
  | .requeue _ items => items
  | _ => []

/-! ## Frames -/

/-- An event that an operation under the lock tells of. -/
def Event.Inner : Event → Prop
  | .began .. | .sent .. => False
  | _ => True

/-- What an operation under the lock leaves alone. -/
structure Frame (s s' : State) : Prop where
  source : s'.source = s.source
  issued : s'.issued = s.issued
  generation : s'.bindingGeneration = s.bindingGeneration
  socket : s'.socket = s.socket
  policyValid : s'.policyValid = s.policyValid
  policySocket : s'.policySocket = s.policySocket
  trace : ∃ es, s'.trace = s.trace ++ es ∧ ∀ e ∈ es, e.Inner

theorem Frame.refl (s : State) : Frame s s :=
  ⟨rfl, rfl, rfl, rfl, rfl, rfl, [], (List.append_nil _).symm, List.forall_mem_nil _⟩

theorem Frame.trans (h : Frame s s') (h' : Frame s' s'') : Frame s s'' := by
  obtain ⟨es, htrace, hes⟩ := h.trace
  obtain ⟨es', htrace', hes'⟩ := h'.trace
  refine ⟨h'.source.trans h.source, h'.issued.trans h.issued, h'.generation.trans h.generation,
    h'.socket.trans h.socket, h'.policyValid.trans h.policyValid,
    h'.policySocket.trans h.policySocket, es ++ es', ?_, ?_⟩
  · rw [htrace', htrace, List.append_assoc]
  · intro e he
    rcases List.mem_append.mp he with he | he
    · exact hes e he
    · exact hes' e he

theorem Frame.tells {e : Event} (he : e.Inner) (hsource : s'.source = s.source)
    (hissued : s'.issued = s.issued)
    (hgeneration : s'.bindingGeneration = s.bindingGeneration) (hsocket : s'.socket = s.socket)
    (hvalid : s'.policyValid = s.policyValid) (hpolicy : s'.policySocket = s.policySocket)
    (htrace : s'.trace = s.trace ++ [e]) : Frame s s' :=
  ⟨hsource, hissued, hgeneration, hsocket, hvalid, hpolicy, [e], htrace,
    fun _ h => List.mem_singleton.mp h ▸ he⟩

/-- An operation that tells of nothing. -/
theorem Frame.silent (hsource : s'.source = s.source) (hissued : s'.issued = s.issued)
    (hgeneration : s'.bindingGeneration = s.bindingGeneration) (hsocket : s'.socket = s.socket)
    (hvalid : s'.policyValid = s.policyValid) (hpolicy : s'.policySocket = s.policySocket)
    (htrace : s'.trace = s.trace) : Frame s s' :=
  ⟨hsource, hissued, hgeneration, hsocket, hvalid, hpolicy, [], htrace ▸ (List.append_nil _).symm,
    List.forall_mem_nil _⟩

theorem frame_rememberLoss (s : State) (o : Observation) (reason : Text) :
    Frame s (s.rememberLoss o reason) :=
  .tells (e := .lost o) trivial rfl rfl rfl rfl rfl rfl rfl

theorem frame_push (s : State) (o : Observation) (policy : Option ℕ) : Frame s (s.push o policy) :=
  .tells (e := .admitted o policy) trivial rfl rfl rfl rfl rfl rfl rfl

theorem frame_displace (s : State) (index : ℕ) (old : Observation) :
    Frame s (s.displace index old) :=
  .tells (e := .lost old) trivial rfl rfl rfl rfl rfl rfl rfl

/-! ## The ways of the operations -/

/-- **The ways of an entry**: the observation is pushed, once a low one has given way if need be, or
its loss is remembered. -/
inductive Entered (l : Limits) (s : State) (o : Observation) (policy : Option ℕ) : State → Prop
  | fits (h : s.fits l o.budgetBytes = true) : Entered l s o policy (s.push o policy)
  | displaces (index : ℕ) (old : Observation) (hold : s.queue[index]? = some old)
      (hlow : isLow old = true) (hhigh : o.isHigh = true)
      (hfull : s.fits l o.budgetBytes = false) (hindex : s.queue.findIdx? isLow = some index) :
      Entered l s o policy ((s.displace index old).push o policy)
  | full (hfull : s.fits l o.budgetBytes = false) :
      Entered l s o policy (s.rememberLoss o (ascii "queue_saturated"))

theorem enter_cases (l : Limits) (s : State) (o : Observation) (policy : Option ℕ) :
    Entered l s o policy (s.enter l o policy) := by
  unfold State.enter
  split_ifs with hfits hhigh
  · exact .fits hfits
  · have hfull : s.fits l o.budgetBytes = false := Bool.eq_false_iff.mpr hfits
    cases hindex : s.queue.findIdx? isLow with
    | none => exact .full hfull
    | some index =>
      obtain ⟨hlt, hlow, -⟩ := List.findIdx?_eq_some_iff_getElem.mp hindex
      have hget : s.queue[index]? = some s.queue[index] := List.getElem?_eq_getElem hlt
      simp only [hget]
      exact .displaces index s.queue[index] hget hlow hhigh hfull hindex
  · exact .full (Bool.eq_false_iff.mpr hfits)

/-- **The ways of a requeued item.** -/
inductive PutBack (l : Limits) (s : State) (o : Observation) : State → Prop
  | stale (h : o.bindingGeneration ≠ s.bindingGeneration) : PutBack l s o s
  | lost (h : o.bindingGeneration = s.bindingGeneration)
      (hno : maxRetries < o.retries + 1 ∨ l.count < s.queue.length + 1 ∨
        (l.bytes : ℤ) < s.bytes + o.budgetBytes) :
      PutBack l s o (s.rememberLoss { o with retries := o.retries + 1 } (ascii "requeue_saturated"))
  | queued (h : o.bindingGeneration = s.bindingGeneration) (hretries : o.retries < maxRetries)
      (hcount : s.queue.length + 1 ≤ l.count) (hbytes : s.bytes + o.budgetBytes ≤ l.bytes) :
      PutBack l s o { s with
        bytes := s.bytes + o.budgetBytes
        queue := { o with retries := o.retries + 1 } :: s.queue }

theorem putBack_cases (l : Limits) (s : State) (o : Observation) :
    PutBack l s o (s.putBack l o) := by
  unfold State.putBack
  split_ifs with hstale hretries hroom
  · exact .stale hstale
  · exact .lost (not_not.mp hstale) (Or.inl hretries)
  · exact .lost (not_not.mp hstale) (Or.inr hroom)
  · rw [not_or] at hroom
    refine .queued (not_not.mp hstale) (by omega) (by omega) (by omega)

/-- **The ways of a restored loss.** -/
inductive Restored (s : State) (o : Observation) : State → Prop
  | stale (h : o.bindingGeneration ≠ s.bindingGeneration) : Restored s o s
  | covered (h : o.bindingGeneration = s.bindingGeneration) (held : Observation)
      (hheld : s.held = some held) (hretries : maxRetries ≤ o.retries) : Restored s o s
  | holds (h : o.bindingGeneration = s.bindingGeneration) (hheld : s.held = none) :
      Restored s o { s with held := some { o with
        retries := 0
        reason := if o.reason = [] then ascii "transport_exhausted" else o.reason } }
  | waits (h : o.bindingGeneration = s.bindingGeneration) :
      Restored s o { s with losses := { o with retries := o.retries + 1 } :: s.losses }

theorem restoreLoss_cases (s : State) (o : Observation) : Restored s o (s.restoreLoss o) := by
  unfold State.restoreLoss
  by_cases hstale : o.bindingGeneration ≠ s.bindingGeneration
  · rw [if_pos hstale]
    exact .stale hstale
  have hcurrent : o.bindingGeneration = s.bindingGeneration := not_not.mp hstale
  rw [if_neg hstale]
  by_cases hretries : maxRetries < o.retries + 1
  · rw [if_pos hretries]
    cases hheld : s.held with
    | none => exact .holds hcurrent hheld
    | some held => exact .covered hcurrent held hheld (by omega)
  · rw [if_neg hretries]
    exact .waits hcurrent

theorem frame_enter (l : Limits) (s : State) (o : Observation) (policy : Option ℕ) :
    Frame s (s.enter l o policy) := by
  have hcases := enter_cases l s o policy
  revert hcases
  generalize s.enter l o policy = t
  intro hcases
  cases hcases with
  | fits => exact frame_push s o policy
  | displaces index old => exact (frame_displace s index old).trans (frame_push _ o policy)
  | full => exact frame_rememberLoss s o _

theorem frame_putBack (l : Limits) (s : State) (o : Observation) : Frame s (s.putBack l o) := by
  have hcases := putBack_cases l s o
  revert hcases
  generalize s.putBack l o = t
  intro hcases
  cases hcases with
  | stale => exact .refl s
  | lost => exact frame_rememberLoss s _ _
  | queued => exact .silent rfl rfl rfl rfl rfl rfl rfl

theorem frame_restoreLoss (s : State) (o : Observation) : Frame s (s.restoreLoss o) := by
  have hcases := restoreLoss_cases s o
  revert hcases
  generalize s.restoreLoss o = t
  intro hcases
  cases hcases with
  | stale => exact .refl s
  | covered => exact .refl s
  | holds => exact .silent rfl rfl rfl rfl rfl rfl rfl
  | waits => exact .silent rfl rfl rfl rfl rfl rfl rfl

/-- What each round of a loop keeps, the loop keeps. -/
theorem foldl_keeps {I : State → Prop} {f : State → Observation → State} {items : List Observation}
    (hstep : ∀ s, ∀ o ∈ items, I s → I (f s o)) (hs : I s) : I (items.foldl f s) := by
  induction items generalizing s with
  | nil => exact hs
  | cons o items ih =>
    exact ih (fun s o ho => hstep s o (List.mem_cons_of_mem _ ho))
      (hstep s o List.mem_cons_self hs)

/-- What an admission of codes leaves alone. -/
theorem frame_bindCodes (s : State) (generation : ℕ) (items : List Observation)
    (codes : Option (List Text)) : Frame s (s.bindCodes generation items codes) := by
  unfold State.bindCodes
  cases codes with
  | none => exact .silent rfl rfl rfl rfl rfl rfl rfl
  | some codes =>
    dsimp only
    split_ifs
    · refine ⟨rfl, rfl, rfl, rfl, rfl, rfl, _, rfl, fun e he => ?_⟩
      obtain ⟨p, -, rfl⟩ := List.mem_map.mp he
      trivial
    · exact .refl s
    · exact .silent rfl rfl rfl rfl rfl rfl rfl

/-! ## What waits -/

/-- Whatever waits meets `P`. -/
structure Waiting (P : Observation → Prop) (s : State) : Prop where
  queue : ∀ o ∈ s.queue, P o
  losses : ∀ o ∈ s.losses, P o

/-- `P` does not look at what the loops change. -/
structure Robust (P : Observation → Prop) : Prop where
  notice : ∀ o source reason, P o → P (lossNotice o source reason)
  retried : ∀ o n, P o → P { o with retries := n }

variable {P : Observation → Prop}

theorem mem_lastOf {α : Type} {n : ℕ} {xs : List α} {x : α} (h : x ∈ lastOf n xs) : x ∈ xs :=
  List.mem_of_mem_drop h

theorem Waiting.rememberLoss (h : Waiting P s) {reason : Text}
    (ho : P (lossNotice o s.source reason)) : Waiting P (s.rememberLoss o reason) where
  queue := h.queue
  losses x hx := by
    rcases List.mem_append.mp (mem_lastOf hx) with hx | hx
    · exact h.losses x hx
    · exact List.mem_singleton.mp hx ▸ ho

theorem Waiting.push (h : Waiting P s) (ho : P o) (policy : Option ℕ) :
    Waiting P (s.push o policy) where
  queue x hx := by
    rcases List.mem_append.mp hx with hx | hx
    · exact h.queue x hx
    · exact List.mem_singleton.mp hx ▸ ho
  losses := h.losses

theorem Waiting.displace (hP : Robust P) (h : Waiting P s) {index : ℕ}
    (hold : s.queue[index]? = some old) : Waiting P (s.displace index old) where
  queue x hx := h.queue x (List.mem_of_mem_eraseIdx hx)
  losses := (h.rememberLoss (hP.notice old s.source _ (h.queue old (List.mem_of_getElem? hold)))).losses

theorem Waiting.putBack (hP : Robust P) (h : Waiting P s) (ho : P o) :
    Waiting P (s.putBack l o) := by
  have hcases := putBack_cases l s o
  revert hcases
  generalize s.putBack l o = t
  intro hcases
  cases hcases with
  | stale => exact h
  | lost => exact h.rememberLoss (hP.notice _ s.source _ (hP.retried o _ ho))
  | queued =>
    refine ⟨fun x hx => ?_, h.losses⟩
    rcases List.mem_cons.mp hx with rfl | hx
    · exact hP.retried o _ ho
    · exact h.queue x hx

/-! ## The held notice -/

theorem held_enter (l : Limits) (s : State) (o : Observation) (policy : Option ℕ) :
    (s.enter l o policy).held = s.held ∧ (s.enter l o policy).call = s.call ∧
      (s.enter l o policy).worker = s.worker := by
  have hcases := enter_cases l s o policy
  revert hcases
  generalize s.enter l o policy = t
  intro hcases
  cases hcases <;> exact ⟨rfl, rfl, rfl⟩

theorem held_putBack (l : Limits) (s : State) (o : Observation) :
    (s.putBack l o).held = s.held ∧ (s.putBack l o).call = s.call := by
  have hcases := putBack_cases l s o
  revert hcases
  generalize s.putBack l o = t
  intro hcases
  cases hcases <;> exact ⟨rfl, rfl⟩

/-! ## What a batch is made of -/

/-- **What a resolution makes of an observation**: nothing, an observation with the content of a
receipt that is admitted in the generation, or an exclusion. -/
inductive Resolved (generation : ℕ) (receipts : List Receipt) (o : Observation) :
    Observation → List Receipt → Prop
  | plain (h : o.dependency = none) : Resolved generation receipts o o receipts
  | attached (update : ℕ) (r : Receipt) (h : o.dependency = some update)
      (hfind : findReceipt receipts update = some r) (hstate : r.state = .admitted)
      (hgeneration : r.generation = generation) :
      Resolved generation receipts o (o.attach r) (eraseReceipt receipts update)
  | excluded (update : ℕ) (reason : Text) (h : o.dependency = some update)
      (hreason : findReceipt receipts update = none → reason = ascii "retraction_commit_unknown")
      (hpending : ∀ r, findReceipt receipts update = some r →
        r.state = .pending → r.generation ≠ generation) :
      Resolved generation receipts o (o.exclude reason) (eraseReceipt receipts update)

theorem eraseReceipt_of_find_none {receipts : List Receipt} {update : ℕ}
    (h : findReceipt receipts update = none) : eraseReceipt receipts update = receipts :=
  List.eraseP_of_forall_not fun r hr => List.find?_eq_none.mp h r hr

variable {generation : ℕ}

theorem resolve_cases {receipts receipts' : List Receipt} {o' : Observation}
    (h : resolve generation receipts o = some (o', receipts')) :
    Resolved generation receipts o o' receipts' := by
  unfold resolve at h
  cases hdependency : o.dependency with
  | none =>
    rw [hdependency] at h
    cases h
    exact .plain hdependency
  | some update =>
    rw [hdependency] at h
    dsimp only at h
    cases hfind : findReceipt receipts update with
    | none =>
      rw [hfind] at h
      cases h
      have hexcluded : Resolved generation receipts o
          (o.exclude (ascii "retraction_commit_unknown")) (eraseReceipt receipts update) :=
        .excluded update _ hdependency (fun _ => rfl) fun r hr => by
          rw [hfind] at hr
          cases hr
      rwa [eraseReceipt_of_find_none hfind] at hexcluded
    | some r =>
      rw [hfind] at h
      dsimp only at h
      by_cases hpending : r.state = .pending ∧ r.generation = generation
      · rw [if_pos hpending] at h
        cases h
      rw [if_neg hpending] at h
      by_cases hadmitted : r.state = .admitted ∧ r.generation = generation
      · rw [if_pos hadmitted] at h
        cases h
        exact .attached update r hdependency hfind hadmitted.1 hadmitted.2
      · rw [if_neg hadmitted] at h
        cases h
        refine .excluded update _ hdependency (fun hno => by rw [hfind] at hno; cases hno) ?_
        intro r' hr' hstate hgeneration
        rw [hfind] at hr'
        cases hr'
        exact hpending ⟨hstate, hgeneration⟩

theorem resolved_subset {receipts receipts' : List Receipt} {o' : Observation}
    (h : Resolved generation receipts o o' receipts') : receipts' ⊆ receipts := by
  cases h with
  | plain => exact List.Subset.refl _
  | attached => exact List.eraseP_subset
  | excluded => exact List.eraseP_subset

/-- **What the worker takes** is the head of the queue, each observation resolved against receipts
that are there. -/
theorem takeBatch_queue (generation n : ℕ) (queue : List Observation) (receipts : List Receipt) :
    queue = queue.take (takeBatch generation n queue receipts).batch.length ++
        (takeBatch generation n queue receipts).queue ∧
      ∀ o' ∈ (takeBatch generation n queue receipts).batch, ∃ o ∈ queue, ∃ rs rs',
        rs ⊆ receipts ∧ Resolved generation rs o o' rs' := by
  induction n generalizing queue receipts with
  | zero => exact ⟨rfl, List.forall_mem_nil _⟩
  | succ n ih =>
    cases queue with
    | nil => exact ⟨rfl, List.forall_mem_nil _⟩
    | cons o queue =>
      unfold takeBatch
      cases hresolve : resolve generation receipts o with
      | none => exact ⟨rfl, List.forall_mem_nil _⟩
      | some p =>
        obtain ⟨o', receipts'⟩ := p
        obtain ⟨hqueue, hbatch⟩ := ih queue receipts'
        refine ⟨?_, fun x hx => ?_⟩
        · show o :: queue = o :: queue.take _ ++ _
          rw [List.cons_append, ← hqueue]
        · rcases List.mem_cons.mp hx with rfl | hx
          · exact ⟨o, List.mem_cons_self, receipts, receipts', List.Subset.refl _,
              resolve_cases hresolve⟩
          · obtain ⟨y, hy, rs, rs', hsub, hresolved⟩ := hbatch x hx
            exact ⟨y, List.mem_cons_of_mem _ hy, rs, rs',
              List.Subset.trans hsub (resolved_subset (resolve_cases hresolve)), hresolved⟩

theorem takeBatch_receipts (generation n : ℕ) (queue : List Observation)
    (receipts : List Receipt) :
    (takeBatch generation n queue receipts).receipts ⊆ receipts := by
  induction n generalizing queue receipts with
  | zero => exact List.Subset.refl _
  | succ n ih =>
    cases queue with
    | nil => exact List.Subset.refl _
    | cons o queue =>
      unfold takeBatch
      cases hresolve : resolve generation receipts o with
      | none => exact List.Subset.refl _
      | some p => exact List.Subset.trans (ih queue p.2) (resolved_subset (resolve_cases hresolve))

/-- What a resolution does not look at is the same in the batch and at the head of the queue. -/
theorem takeBatch_map {β : Type} (f : Observation → β)
    (hf : ∀ generation rs rs' o o', Resolved generation rs o o' rs' → f o' = f o)
    (generation n : ℕ) (queue : List Observation) (receipts : List Receipt) :
    (takeBatch generation n queue receipts).batch.map f =
      (queue.take (takeBatch generation n queue receipts).batch.length).map f := by
  induction n generalizing queue receipts with
  | zero => rfl
  | succ n ih =>
    cases queue with
    | nil => rfl
    | cons o queue =>
      unfold takeBatch
      cases hresolve : resolve generation receipts o with
      | none => rfl
      | some p =>
        show f p.1 :: _ = f o :: _
        rw [hf _ _ _ _ _ (resolve_cases hresolve), ih queue p.2]

theorem takeBatch_length (generation n : ℕ) (queue : List Observation) (receipts : List Receipt) :
    (takeBatch generation n queue receipts).batch.length ≤ n := by
  induction n generalizing queue receipts with
  | zero => exact Nat.le_refl _
  | succ n ih =>
    cases queue with
    | nil => exact Nat.zero_le _
    | cons o queue =>
      unfold takeBatch
      cases hresolve : resolve generation receipts o with
      | none => exact Nat.zero_le _
      | some p => exact Nat.succ_le_succ (ih queue p.2)

theorem mem_takeBatch_of_plain (generation n : ℕ) (queue : List Observation)
    (receipts : List Receipt) {x : Observation} (hx : x ∈ queue) (hplain : x.dependency = none) :
    x ∈ (takeBatch generation n queue receipts).batch ∨
      x ∈ (takeBatch generation n queue receipts).queue := by
  induction n generalizing queue receipts with
  | zero => exact Or.inr hx
  | succ n ih =>
    cases queue with
    | nil => exact absurd hx List.not_mem_nil
    | cons o queue =>
      unfold takeBatch
      cases hresolve : resolve generation receipts o with
      | none => exact Or.inr hx
      | some p =>
        rcases List.mem_cons.mp hx with rfl | hx
        · have hsame : resolve generation receipts x = some (x, receipts) := by
            unfold resolve
            rw [hplain]
          rw [hsame] at hresolve
          cases hresolve
          exact Or.inl List.mem_cons_self
        · rcases ih queue p.2 hx with hbatch | hqueue
          · exact Or.inl (List.mem_cons_of_mem _ hbatch)
          · exact Or.inr hqueue

theorem mem_of_mem_takeBatch {generation n : ℕ} {queue : List Observation}
    {receipts : List Receipt} {x : Observation}
    (h : x ∈ (takeBatch generation n queue receipts).queue) : x ∈ queue := by
  rw [(takeBatch_queue generation n queue receipts).1]
  exact List.mem_append_right _ h

/-! ## Receipts -/

variable {rs : List Receipt} {r : Receipt}

theorem mem_markDependencyUnknown {update : Option ℕ} (h : r ∈ markDependencyUnknown rs update) :
    r.state = .unknown ∨ r ∈ rs ∧ (r.state = .pending → update ≠ some r.updateId) := by
  cases update with
  | none => exact Or.inr ⟨h, fun _ => nofun⟩
  | some u =>
    obtain ⟨x, hx, rfl⟩ := List.mem_map.mp h
    by_cases hu : x.updateId = u
    · rw [if_pos hu]
      unfold Receipt.forget
      split_ifs with hpending
      · exact Or.inl rfl
      · exact Or.inr ⟨hx, fun hno => absurd hno hpending⟩
    · rw [if_neg hu]
      exact Or.inr ⟨hx, fun _ heq => hu (Option.some.inj heq).symm⟩

theorem mem_noteBatchUnknown {batch : List Observation} (h : r ∈ noteBatchUnknown rs batch generation) :
    r.state = .unknown ∨ r ∈ rs ∧ (r.state = .pending → ∀ o ∈ batch, o.retractableCommit = true →
      o.bindingGeneration = generation → o.updateId ≠ some r.updateId) := by
  induction batch generalizing rs with
  | nil => exact Or.inr ⟨h, fun _ => List.forall_mem_nil _⟩
  | cons o batch ih =>
    rcases ih h with hunknown | ⟨hmem, hothers⟩
    · exact Or.inl hunknown
    · unfold noteUnknown at hmem
      by_cases hown : (o.retractableCommit && decide (o.bindingGeneration = generation)) = true
      · rw [if_pos hown] at hmem
        rcases mem_markDependencyUnknown hmem with hunknown | ⟨hmem, hfirst⟩
        · exact Or.inl hunknown
        · refine Or.inr ⟨hmem, fun hpending x hx hretractable hgeneration => ?_⟩
          rcases List.mem_cons.mp hx with rfl | hx
          · exact hfirst hpending
          · exact hothers hpending x hx hretractable hgeneration
      · rw [if_neg hown] at hmem
        refine Or.inr ⟨hmem, fun hpending x hx hretractable hgeneration => ?_⟩
        rcases List.mem_cons.mp hx with rfl | hx
        · rw [Bool.and_eq_true, decide_eq_true_eq] at hown
          exact absurd ⟨hretractable, hgeneration⟩ hown
        · exact hothers hpending x hx hretractable hgeneration

/-- **What the codes of a batch do to a receipt**: it is not that of a commit of the batch, or its
fate is known. -/
theorem mem_applyCodes {pairs : List (Observation × Text)} (h : r ∈ pairs.foldl applyCode rs) :
    (r ∈ rs ∧ ∀ p ∈ pairs, p.1.retractableCommit = true → p.1.updateId ≠ some r.updateId) ∨
    (r.state ≠ .pending ∧ (r.state = .admitted → (∃ x ∈ rs, x.state = .admitted ∧ x = r) ∨
      ∃ p ∈ pairs, knownAdmissionCode p.2 = true ∧ p.1.retractableCommit = true ∧
        p.1.updateId = some r.updateId ∧ r.generation = p.1.bindingGeneration ∧
        r.schemaId = p.1.schemaId ∧ r.payloadText = p.1.payloadText)) := by
  induction pairs generalizing rs with
  | nil => exact Or.inl ⟨h, List.forall_mem_nil _⟩
  | cons p pairs ih =>
    have hlater (hadmitted : ∃ q ∈ pairs, knownAdmissionCode q.2 = true ∧
        q.1.retractableCommit = true ∧ q.1.updateId = some r.updateId ∧
        r.generation = q.1.bindingGeneration ∧ r.schemaId = q.1.schemaId ∧
        r.payloadText = q.1.payloadText) : ∃ q ∈ p :: pairs, knownAdmissionCode q.2 = true ∧
        q.1.retractableCommit = true ∧ q.1.updateId = some r.updateId ∧
        r.generation = q.1.bindingGeneration ∧ r.schemaId = q.1.schemaId ∧
        r.payloadText = q.1.payloadText := by
      obtain ⟨q, hq, hrest⟩ := hadmitted
      exact ⟨q, List.mem_cons_of_mem _ hq, hrest⟩
    -- what the first round does to a receipt
    have hfirst (x : Receipt) (hx : x ∈ applyCode rs p) :
        (x ∈ rs ∧ (p.1.retractableCommit = true → p.1.updateId ≠ some x.updateId)) ∨
        (x.state ≠ .pending ∧ (x.state = .admitted → knownAdmissionCode p.2 = true ∧
          p.1.retractableCommit = true ∧ p.1.updateId = some x.updateId ∧
          x.generation = p.1.bindingGeneration ∧ x.schemaId = p.1.schemaId ∧
          x.payloadText = p.1.payloadText)) := by
      unfold applyCode at hx
      cases hupdate : p.1.updateId with
      | none =>
        rw [hupdate] at hx
        exact Or.inl ⟨hx, fun _ => nofun⟩
      | some u =>
        rw [hupdate] at hx
        dsimp only at hx
        by_cases hretractable : p.1.retractableCommit = true
        · rw [if_pos hretractable] at hx
          obtain ⟨y, hy, rfl⟩ := List.mem_map.mp hx
          by_cases hu : y.updateId = u
          · rw [if_pos hu]
            right
            unfold Receipt.bind
            split_ifs with hknown
            · exact ⟨nofun, fun _ => ⟨hknown, hretractable, congrArg some hu.symm, rfl, rfl, rfl⟩⟩
            · exact ⟨nofun, nofun⟩
            · exact ⟨nofun, nofun⟩
          · rw [if_neg hu]
            exact Or.inl ⟨hy, fun _ heq => hu (Option.some.inj heq).symm⟩
        · rw [if_neg hretractable] at hx
          exact Or.inl ⟨hx, fun hno => absurd hno hretractable⟩
    rcases ih h with ⟨hmem, hothers⟩ | ⟨hstate, hadmitted⟩
    · rcases hfirst r hmem with ⟨hmem, hown⟩ | ⟨hstate, hown⟩
      · refine Or.inl ⟨hmem, fun q hq => ?_⟩
        rcases List.mem_cons.mp hq with rfl | hq
        · exact hown
        · exact hothers q hq
      · exact Or.inr ⟨hstate, fun hr => Or.inr ⟨p, List.mem_cons_self, hown hr⟩⟩
    · refine Or.inr ⟨hstate, fun hr => ?_⟩
      rcases hadmitted hr with ⟨x, hx, -, rfl⟩ | hadmitted
      · rcases hfirst x hx with ⟨hmem, -⟩ | ⟨-, hown⟩
        · exact Or.inl ⟨x, hmem, hr, rfl⟩
        · exact Or.inr ⟨p, List.mem_cons_self, hown hr⟩
      · exact Or.inr (hlater hadmitted)

theorem mem_registerReceipt (h : r ∈ registerReceipt rs o) :
    r ∈ rs ∨ (o.retractableCommit = true ∧ o.updateId = some r.updateId ∧ r.state = .pending ∧
      r.generation = o.bindingGeneration) := by
  unfold registerReceipt at h
  cases hupdate : o.updateId with
  | none =>
    rw [hupdate] at h
    exact Or.inl h
  | some u =>
    rw [hupdate] at h
    dsimp only at h
    split_ifs at h with hnew
    · rcases List.mem_append.mp (List.mem_of_mem_drop h) with h | h
      · exact Or.inl h
      · rw [List.mem_singleton.mp h]
        rw [Bool.and_eq_true] at hnew
        exact Or.inr ⟨hnew.1, rfl, rfl, rfl⟩
    · exact Or.inl h

theorem same_bindCodes (s : State) (generation : ℕ) (items : List Observation)
    (codes : Option (List Text)) :
    (s.bindCodes generation items codes).call = s.call ∧
      (s.bindCodes generation items codes).queue = s.queue ∧
      (s.bindCodes generation items codes).losses = s.losses ∧
      (s.bindCodes generation items codes).held = s.held ∧
      (s.bindCodes generation items codes).bytes = s.bytes ∧
      (s.bindCodes generation items codes).knownDropped = s.knownDropped := by
  unfold State.bindCodes
  split
  · split_ifs <;> exact ⟨rfl, rfl, rfl, rfl, rfl, rfl⟩
  · exact ⟨rfl, rfl, rfl, rfl, rfl, rfl⟩

end Native
end SemanticMemory
