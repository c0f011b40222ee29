import SemanticMemory.Native.Steps

/-!
# Nothing is lost silently

What is admitted while a generation lives is queued, in the worker's batch, in a frame that has been
replied to, or its loss is remembered; and a loss is covered by a notice that waits.

* `Account` follows the trace of the living generation: what has been admitted, and whether there is
  a drop that no accepted notice covers.  A drop is *fresh* until a frame with a notice is tried, and
  then *flying* until a frame with a notice is replied to.
* `Conserved` is what holds of a producer and its account.
* `Careful` is the condition on a step: it excludes the drops that nobody remembers, and an entry
  that takes more room than there is.
-/

namespace SemanticMemory
namespace Native

variable {l : Limits} {s s' t : State} {o : Observation} {u : Option ℕ} {g : ℕ}

/-! ## The account of a generation -/

/-- A notice that the producer has made of a loss of a generation.  What a session admits has a
number. -/
def Observation.isNotice (g : ℕ) (o : Observation) : Bool :=
  o.kind = .lossNotice && o.updateId = none && o.bindingGeneration = g

def Worker.lossBatch : Worker → List Observation
  | .send _ (.losses _) items | .current _ (.losses _) items | .exchange _ (.losses _) items
  | .answered _ (.losses _) items _ => items
  | .restore _ losses _ => losses
  | _ => []

def State.waiting (s : State) : List Observation := s.worker.batch ++ s.queue

/-- An event settles an update: a frame with it is replied to, or its loss is remembered. -/
def Event.settles (u : Option ℕ) : Event → Bool
  | .replied items => (items.map Observation.updateId).contains u
  | .lost o => o.updateId = u
  | _ => false

/-- The updates that have been admitted while a generation lives, and the drops of it that no
accepted notice covers. -/
structure Account where
  admitted : List (Option ℕ) := []
  /-- There is a drop, and no frame with a notice has been tried since. -/
  fresh : Bool := false
  /-- There is a drop before the last frame with a notice, and none has been replied to since. -/
  flying : Bool := false
  deriving DecidableEq

/-- An event is entered in the account of a generation. -/
def Account.tell (g : ℕ) (b : Account) : Event → Account
  | .admitted o _ => { b with admitted := o.updateId :: b.admitted }
  | .lost o => if o.bindingGeneration = g then { b with fresh := true } else b
  | .tried _ items =>
    if items.any (Observation.isNotice g) then
      { b with fresh := false, flying := b.flying || b.fresh }
    else b
  | .replied items =>
    if items.any (Observation.isNotice g) then { b with flying := false } else b
  | _ => b

/-- What a step tells. -/
def told (s s' : State) : List Event := s'.trace.drop s.trace.length

/-- An observation of the living generation is dropped, and nobody says so. -/
def vanishes (s s' : State) : Bool :=
  s.waiting.any fun o => o.bindingGeneration = s.bindingGeneration &&
    !(s'.waiting.map Observation.updateId).contains o.updateId &&
    !(told s s').any (Event.settles o.updateId)

/-- A producer, and the account of its living generation. -/
structure Books where
  state : State := {}
  account : Account := {}

/-- One step.  A new generation has a new account. -/
def Books.step (l : Limits) (b : Books) (a : Action) : Books :=
  let s' := Native.step l b.state a
  ⟨s', if s'.bindingGeneration = b.state.bindingGeneration then
      (told b.state s').foldl (Account.tell s'.bindingGeneration)
        (if vanishes b.state s' then { b.account with fresh := true } else b.account)
    else {}⟩

/-! ## The claim -/

/-- An update that has been admitted waits, or an event settles it. -/
def Accounted (s : State) (u : Option ℕ) : Prop :=
  (∃ o ∈ s.waiting, o.updateId = u) ∨ ∃ e ∈ s.trace, e.settles u = true

/-- A notice of the living generation is pending: among the losses, in the worker's loss batch, or
held. -/
def Pending (s : State) : Prop :=
  ∃ o ∈ s.losses ++ (s.worker.lossBatch ++ s.held.toList), o.isNotice s.bindingGeneration = true

/-- **Nothing is lost silently**, and the queue is within its bounds. -/
structure Conserved (l : Limits) (b : Books) : Prop where
  admitted : ∀ u ∈ b.account.admitted, Accounted b.state u
  pending : b.account.fresh = true ∨ b.account.flying = true → Pending b.state
  bytes : b.state.bytes = sizes b.state.queue
  count : b.state.queue.length ≤ l.count
  limit : b.state.bytes ≤ l.bytes

/-- The low observation that gives way leaves room enough. -/
def LeavesRoom (l : Limits) (s : State) (o : Observation) : Prop :=
  s.fits l o.budgetBytes = false → o.isHigh = true →
    ∀ index ∈ s.queue.findIdx? isLow, ∀ old ∈ s.queue[index]?,
      s.bytes - old.budgetBytes + o.budgetBytes ≤ l.bytes

/-- An observation enters in the generation that it is stamped with, and the one that gives way to it
leaves room enough. -/
def Call.Careful (l : Limits) (s : State) : Call → Prop
  | .allowed o _ => o.bindingGeneration = s.bindingGeneration ∧ LeavesRoom l s o
  | _ => True

/-- The generation that the worker has read is current when it takes losses or a batch; the
destination is safe when it has losses or a batch of the living generation to send; and no notice is
given up for a held notice of another generation. -/
def Worker.Careful (s : State) : Worker → Prop
  | .stamped g => g = s.bindingGeneration ∨
      (takeBatch s.bindingGeneration batchSize s.queue s.receipts).batch = [] ∧ s.losses = []
  | .current g (.losses _) _ | .current g .batch _ =>
    s.destinationSafe = true ∨ g ≠ s.bindingGeneration
  | .restore _ losses _ => ∀ h ∈ s.held, h.bindingGeneration = s.bindingGeneration ∨
      ∀ o ∈ losses, o.bindingGeneration = s.bindingGeneration → o.retries < maxRetries
  | _ => True

/-- **A step is careful.** -/
def Careful (l : Limits) (s : State) : Action → Prop
  | .tryAdmit _ contended => contended = false → ∀ x ∈ s.call, x.Careful l s
  | .work _ => s.worker.Careful s
  | _ => True

/-! ## The queue and the losses -/

theorem isNotice_iff : o.isNotice g = true ↔
    o.kind = .lossNotice ∧ o.updateId = none ∧ o.bindingGeneration = g := by
  unfold Observation.isNotice
  rw [Bool.and_eq_true, Bool.and_eq_true, decide_eq_true_eq, decide_eq_true_eq, decide_eq_true_eq,
    and_assoc]

theorem isNotice_lossNotice (o : Observation) (source reason : Text) :
    (lossNotice o source reason).isNotice o.bindingGeneration = true :=
  isNotice_iff.mpr ⟨rfl, rfl, rfl⟩

theorem sizes_append (xs ys : List Observation) : sizes (xs ++ ys) = sizes xs + sizes ys := by
  unfold sizes
  rw [List.map_append, List.sum_append]

theorem sizes_cons (x : Observation) (xs : List Observation) :
    sizes (x :: xs) = x.budgetBytes + sizes xs := by
  unfold sizes
  rw [List.map_cons, List.sum_cons]

variable {xs : List Observation}

theorem sizes_eraseIdx {index : ℕ} {x : Observation} (h : xs[index]? = some x) :
    sizes (xs.eraseIdx index) = sizes xs - x.budgetBytes := by
  induction xs generalizing index with
  | nil => cases h
  | cons y xs ih =>
    cases index with
    | zero =>
      cases h
      rw [List.eraseIdx_cons_zero, sizes_cons]
      omega
    | succ index =>
      rw [List.eraseIdx_cons_succ, sizes_cons, sizes_cons, ih h]
      omega

/-- The queue and the losses are those of the living generation, and the queue is within its
bounds. -/
structure Fit (l : Limits) (s : State) : Prop where
  queue : ∀ o ∈ s.queue, o.bindingGeneration = s.bindingGeneration
  sized : ∀ o ∈ s.queue, 0 ≤ o.budgetBytes
  losses : ∀ o ∈ s.losses, o.isNotice s.bindingGeneration = true
  bytes : s.bytes = sizes s.queue
  count : s.queue.length ≤ l.count
  limit : s.bytes ≤ l.bytes

theorem Fit.notices (h : Fit l s) {reason : Text} (ho : o.bindingGeneration = s.bindingGeneration) :
    ∀ x ∈ (s.rememberLoss o reason).losses, x.isNotice s.bindingGeneration = true := by
  intro x hx
  rcases List.mem_append.mp (mem_lastOf hx) with hx | hx
  · exact h.losses x hx
  · rw [List.mem_singleton.mp hx, ← ho]
    exact isNotice_lossNotice o s.source reason

theorem Fit.rememberLoss (h : Fit l s) {reason : Text}
    (ho : o.bindingGeneration = s.bindingGeneration) : Fit l (s.rememberLoss o reason) :=
  ⟨h.queue, h.sized, h.notices ho, h.bytes, h.count, h.limit⟩

/-- An entry keeps the queue in order, if what gives way leaves room enough. -/
theorem Fit.enter (h : Fit l s) (ho : o.bindingGeneration = s.bindingGeneration)
    (hsize : 0 ≤ o.budgetBytes) (hroom : LeavesRoom l s o) (policy : Option ℕ) : Fit l (s.enter l o policy) := by
  have hcases := enter_cases l s o policy
  revert hcases
  generalize s.enter l o policy = t
  intro hcases
  cases hcases with
  | fits hfits =>
    unfold State.fits at hfits
    rw [Bool.and_eq_true, decide_eq_true_eq, decide_eq_true_eq] at hfits
    refine ⟨fun x hx => ?_, fun x hx => ?_, h.losses, ?_, ?_, hfits.2⟩
    · rcases List.mem_append.mp hx with hx | hx
      · exact h.queue x hx
      · exact List.mem_singleton.mp hx ▸ ho
    · rcases List.mem_append.mp hx with hx | hx
      · exact h.sized x hx
      · exact List.mem_singleton.mp hx ▸ hsize
    · show s.bytes + o.budgetBytes = sizes (s.queue ++ [o])
      rw [sizes_append, h.bytes]
      show _ = _ + (o.budgetBytes + 0)
      omega
    · show (s.queue ++ [o]).length ≤ l.count
      rw [List.length_append]
      exact hfits.1
  | displaces index old hold hlow hhigh hfull hindex =>
    have hlt : index < s.queue.length := (List.getElem?_eq_some_iff.mp hold).1
    have hcount := h.count
    refine ⟨fun x hx => ?_, fun x hx => ?_, h.notices (h.queue old (List.mem_of_getElem? hold)),
      ?_, ?_, hroom hfull hhigh index hindex old hold⟩
    · rcases List.mem_append.mp hx with hx | hx
      · exact h.queue x (List.mem_of_mem_eraseIdx hx)
      · exact List.mem_singleton.mp hx ▸ ho
    · rcases List.mem_append.mp hx with hx | hx
      · exact h.sized x (List.mem_of_mem_eraseIdx hx)
      · exact List.mem_singleton.mp hx ▸ hsize
    · show s.bytes - old.budgetBytes + o.budgetBytes = sizes (s.queue.eraseIdx index ++ [o])
      rw [sizes_append, sizes_eraseIdx hold, h.bytes]
      show _ = _ + (o.budgetBytes + 0)
      omega
    · show (s.queue.eraseIdx index ++ [o]).length ≤ l.count
      rw [List.length_append, List.length_eraseIdx_of_lt hlt]
      show s.queue.length - 1 + 1 ≤ l.count
      omega
  | full => exact h.rememberLoss ho

theorem Fit.putBack (h : Fit l s) (hsize : 0 ≤ o.budgetBytes) : Fit l (s.putBack l o) := by
  have hcases := putBack_cases l s o
  revert hcases
  generalize s.putBack l o = t
  intro hcases
  cases hcases with
  | stale => exact h
  | lost ho => exact h.rememberLoss ho
  | queued ho hretries hcount hbytes =>
    refine ⟨fun x hx => ?_, fun x hx => ?_, h.losses, ?_, hcount, hbytes⟩
    · rcases List.mem_cons.mp hx with rfl | hx
      · exact ho
      · exact h.queue x hx
    · rcases List.mem_cons.mp hx with rfl | hx
      · exact hsize
      · exact h.sized x hx
    · show s.bytes + o.budgetBytes = sizes ({ o with retries := o.retries + 1 } :: s.queue)
      rw [sizes_cons, h.bytes]
      show sizes s.queue + o.budgetBytes = o.budgetBytes + sizes s.queue
      omega

theorem sizes_nonneg (h : ∀ x ∈ xs, 0 ≤ x.budgetBytes) : 0 ≤ sizes xs := by
  induction xs with
  | nil => exact le_refl 0
  | cons x xs ih =>
    rw [sizes_cons]
    have hx := h x List.mem_cons_self
    have hxs := ih fun y hy => h y (List.mem_cons_of_mem _ hy)
    omega

/-- A resolution changes neither the number of an observation nor its generation. -/
theorem same_resolved {receipts receipts' : List Receipt} {o' : Observation}
    (h : Resolved g receipts o o' receipts') : o'.updateId = o.updateId ∧
      o'.bindingGeneration = o.bindingGeneration ∧
      (0 ≤ o.budgetBytes → 0 ≤ o'.budgetBytes) := by
  cases h with
  | plain => exact ⟨rfl, rfl, id⟩
  | attached => exact ⟨rfl, rfl, fun _ => Int.natCast_nonneg _⟩
  | excluded => exact ⟨rfl, rfl, fun _ => Int.natCast_nonneg _⟩

theorem Fit.take (h : Fit l s) (generation : ℕ) : Fit l (s.take generation) := by
  let taken := takeBatch s.bindingGeneration batchSize s.queue s.receipts
  obtain ⟨hqueue, -⟩ := takeBatch_queue s.bindingGeneration batchSize s.queue s.receipts
  have hrest : ∀ o ∈ taken.queue, o ∈ s.queue := fun _ ho => mem_of_mem_takeBatch ho
  have hsizes : sizes s.queue = sizes (s.queue.take taken.batch.length) + sizes taken.queue := by
    rw [← sizes_append, ← hqueue]
  have htaken : 0 ≤ sizes (s.queue.take taken.batch.length) :=
    sizes_nonneg fun o ho => h.sized o (List.mem_of_mem_take ho)
  have hlength : s.queue.length =
      (s.queue.take taken.batch.length).length + taken.queue.length := by
    rw [← List.length_append, ← hqueue]
  have hcount := h.count
  have hlimit := h.limit
  have hbytes : s.bytes + (sizes taken.batch - sizes (s.queue.take taken.batch.length)) -
      sizes taken.batch = sizes taken.queue := by
    rw [h.bytes]
    omega
  refine ⟨fun o ho => h.queue o (hrest o ho), fun o ho => h.sized o (hrest o ho),
    List.forall_mem_nil _, hbytes, ?_, ?_⟩
  · show taken.queue.length ≤ l.count
    omega
  · show s.bytes + (sizes taken.batch - sizes (s.queue.take taken.batch.length)) -
      sizes taken.batch ≤ l.bytes
    rw [hbytes]
    rw [h.bytes] at hlimit
    omega

/-! ## What an operation does with observations -/

/-- An update waits in a list. -/
def Among (xs : List Observation) (u : Option ℕ) : Prop := ∃ o ∈ xs, o.updateId = u

/-- Some event settles an update. -/
def Settled (es : List Event) (u : Option ℕ) : Prop := ∃ e ∈ es, e.settles u = true

/-- **What an operation under the lock does** with what is queued and with what comes in: it tells
the losses of the living generation and what it admits, and nothing else leaves. -/
structure Moves (s t : State) (incoming : Option ℕ → Prop) (es : List Event) : Prop where
  generation : t.bindingGeneration = s.bindingGeneration
  held : t.held = s.held
  worker : t.worker = s.worker
  trace : t.trace = s.trace ++ es
  inner : ∀ e ∈ es, (∃ o, e = .lost o ∧ o.bindingGeneration = s.bindingGeneration) ∨
    ∃ o policy, e = .admitted o policy
  losses : s.losses ≠ [] ∨ (∃ o, .lost o ∈ es) → t.losses ≠ []
  fate : ∀ u, Among s.queue u ∨ incoming u ∨ (∃ o policy, .admitted o policy ∈ es ∧ o.updateId = u) →
    Among t.queue u ∨ Settled es u

variable {es : List Event}

theorem Settled.append_left (h : Settled es u) (es' : List Event) : Settled (es ++ es') u := by
  obtain ⟨e, he, hsettles⟩ := h
  exact ⟨e, List.mem_append_left _ he, hsettles⟩

theorem Settled.append_right {es' : List Event} (h : Settled es' u) (es : List Event) :
    Settled (es ++ es') u := by
  obtain ⟨e, he, hsettles⟩ := h
  exact ⟨e, List.mem_append_right _ he, hsettles⟩

theorem Moves.refl (s : State) : Moves s s (fun _ => False) [] where
  generation := rfl
  held := rfl
  worker := rfl
  trace := (List.append_nil _).symm
  inner _ he := absurd he List.not_mem_nil
  losses := by
    rintro (h | ⟨o, ho⟩)
    · exact h
    · exact absurd ho List.not_mem_nil
  fate := by
    rintro u (h | h | ⟨o, policy, ho, -⟩)
    · exact Or.inl h
    · exact h.elim
    · exact absurd ho List.not_mem_nil

theorem Moves.trans {r : State} {p q : Option ℕ → Prop} {es es' : List Event}
    (h : Moves s t p es) (h' : Moves t r q es') : Moves s r (fun u => p u ∨ q u) (es ++ es') where
  generation := h'.generation.trans h.generation
  held := h'.held.trans h.held
  worker := h'.worker.trans h.worker
  trace := by rw [h'.trace, h.trace, List.append_assoc]
  inner e he := by
    rcases List.mem_append.mp he with he | he
    · exact h.inner e he
    · exact h.generation ▸ h'.inner e he
  losses := by
    rintro (hs | ⟨o, ho⟩)
    · exact h'.losses (Or.inl (h.losses (Or.inl hs)))
    · rcases List.mem_append.mp ho with ho | ho
      · exact h'.losses (Or.inl (h.losses (Or.inr ⟨o, ho⟩)))
      · exact h'.losses (Or.inr ⟨o, ho⟩)
  fate := by
    intro u hu
    have hnext : Among t.queue u ∨ q u ∨
        (∃ o policy, .admitted o policy ∈ es' ∧ o.updateId = u) ∨ Settled es u := by
      rcases hu with hu | (hu | hu) | ⟨o, policy, ho, hu⟩
      · exact (h.fate u (Or.inl hu)).imp_right fun hs => Or.inr (Or.inr hs)
      · exact (h.fate u (Or.inr (Or.inl hu))).imp_right fun hs => Or.inr (Or.inr hs)
      · exact Or.inr (Or.inl hu)
      · rcases List.mem_append.mp ho with ho | ho
        · exact (h.fate u (Or.inr (Or.inr ⟨o, policy, ho, hu⟩))).imp_right
            fun hs => Or.inr (Or.inr hs)
        · exact Or.inr (Or.inr (Or.inl ⟨o, policy, ho, hu⟩))
    rcases hnext with hn | hn | hn | hn
    · exact (h'.fate u (Or.inl hn)).imp_right fun hs => hs.append_right es
    · exact (h'.fate u (Or.inr (Or.inl hn))).imp_right fun hs => hs.append_right es
    · exact (h'.fate u (Or.inr (Or.inr hn))).imp_right fun hs => hs.append_right es
    · exact Or.inr (hn.append_left es')

theorem Moves.mono {p q : Option ℕ → Prop} (h : Moves s t p es) (hq : ∀ u, q u → p u) :
    Moves s t q es :=
  { h with fate := fun u hu => h.fate u (hu.imp_right (Or.imp_left (hq u))) }

theorem losses_rememberLoss (s : State) (o : Observation) (reason : Text) :
    (s.rememberLoss o reason).losses ≠ [] := by
  show lastOf maxLosses (s.losses ++ [_]) ≠ []
  unfold lastOf
  rw [Ne, List.drop_eq_nil_iff, List.length_append]
  show ¬ s.losses.length + 1 ≤ s.losses.length + 1 - 64
  omega

theorem moves_rememberLoss (ho : o.bindingGeneration = s.bindingGeneration) (reason : Text) :
    Moves s (s.rememberLoss o reason) (fun u => o.updateId = u) [.lost o] where
  generation := rfl
  held := rfl
  worker := rfl
  trace := rfl
  inner e he := Or.inl ⟨o, List.mem_singleton.mp he, ho⟩
  losses _ := losses_rememberLoss s o reason
  fate := by
    rintro u (h | h | ⟨x, policy, hx, -⟩)
    · exact Or.inl h
    · exact Or.inr ⟨.lost o, List.mem_singleton_self _, decide_eq_true h⟩
    · cases List.mem_singleton.mp hx

theorem moves_push (s : State) (o : Observation) (policy : Option ℕ) :
    Moves s (s.push o policy) (fun u => o.updateId = u) [.admitted o policy] where
  generation := rfl
  held := rfl
  worker := rfl
  trace := rfl
  inner e he := Or.inr ⟨o, policy, List.mem_singleton.mp he⟩
  losses := by
    rintro (h | ⟨x, hx⟩)
    · exact h
    · cases List.mem_singleton.mp hx
  fate := by
    rintro u (⟨x, hx, hu⟩ | h | ⟨x, policy', hx, hu⟩)
    · exact Or.inl ⟨x, List.mem_append_left _ hx, hu⟩
    · exact Or.inl ⟨o, List.mem_append_right _ (List.mem_singleton_self _), h⟩
    · cases List.mem_singleton.mp hx
      exact Or.inl ⟨o, List.mem_append_right _ (List.mem_singleton_self _), hu⟩

theorem moves_displace {index : ℕ} {old : Observation} (hold : s.queue[index]? = some old)
    (ho : old.bindingGeneration = s.bindingGeneration) :
    Moves s (s.displace index old) (fun _ => False) [.lost old] where
  generation := rfl
  held := rfl
  worker := rfl
  trace := rfl
  inner e he := Or.inl ⟨old, List.mem_singleton.mp he, ho⟩
  losses _ := losses_rememberLoss s old _
  fate := by
    rintro u (⟨x, hx, hu⟩ | h | ⟨x, policy, hx, -⟩)
    · by_cases hsame : x = old
      · exact Or.inr ⟨.lost old, List.mem_singleton_self _, decide_eq_true (hsame ▸ hu)⟩
      · obtain ⟨i, hi⟩ := List.mem_iff_getElem?.mp hx
        refine Or.inl ⟨x, List.mem_eraseIdx_iff_getElem?.mpr ⟨i, ?_, hi⟩, hu⟩
        rintro rfl
        exact hsame (Option.some.inj (hi.symm.trans hold))
    · exact h.elim
    · cases List.mem_singleton.mp hx

theorem moves_enter (h : Fit l s) (ho : o.bindingGeneration = s.bindingGeneration)
    (policy : Option ℕ) : ∃ es, Moves s (s.enter l o policy) (fun _ => False) es := by
  have hcases := enter_cases l s o policy
  revert hcases
  generalize s.enter l o policy = t
  intro hcases
  cases hcases with
  | fits => exact ⟨_, (moves_push s o policy).mono fun _ => False.elim⟩
  | displaces index old hold =>
    have hold' := h.queue old (List.mem_of_getElem? hold)
    exact ⟨_, ((moves_displace hold hold').trans (moves_push _ o policy)).mono fun _ => False.elim⟩
  | full => exact ⟨_, (moves_rememberLoss ho _).mono fun _ => False.elim⟩

theorem moves_putBack (l : Limits) (s : State) (o : Observation) :
    ∃ es, Moves s (s.putBack l o)
      (fun u => o.bindingGeneration = s.bindingGeneration ∧ o.updateId = u) es := by
  have hcases := putBack_cases l s o
  revert hcases
  generalize s.putBack l o = t
  intro hcases
  cases hcases with
  | stale hstale => exact ⟨_, (Moves.refl s).mono fun u hu => hstale hu.1⟩
  | lost ho => exact ⟨_, (moves_rememberLoss (o := { o with retries := o.retries + 1 }) ho _).mono
      fun _ hu => hu.2⟩
  | queued =>
    refine ⟨[], rfl, rfl, rfl, (List.append_nil _).symm, List.forall_mem_nil _, ?_,
      ?_⟩
    · rintro (h | ⟨x, hx⟩)
      · exact h
      · exact absurd hx List.not_mem_nil
    · rintro u (⟨x, hx, hu⟩ | h | ⟨x, policy, hx, -⟩)
      · exact Or.inl ⟨x, List.mem_cons_of_mem _ hx, hu⟩
      · exact Or.inl ⟨_, List.mem_cons_self, h.2⟩
      · exact absurd hx List.not_mem_nil

/-- **A batch is put back.** -/
theorem moves_requeue (h : Fit l s) (items : List Observation)
    (hsized : ∀ o ∈ items, 0 ≤ o.budgetBytes) :
    Fit l (items.reverse.foldl (State.putBack l) s) ∧
      ∃ es, Moves s (items.reverse.foldl (State.putBack l) s)
        (fun u => ∃ o ∈ items, o.bindingGeneration = s.bindingGeneration ∧ o.updateId = u) es := by
  induction items with
  | nil =>
    refine ⟨h, [], (Moves.refl s).mono ?_⟩
    rintro u ⟨o, ho, -⟩
    exact absurd ho List.not_mem_nil
  | cons o items ih =>
    obtain ⟨hfit, es, hmoves⟩ := ih fun x hx => hsized x (List.mem_cons_of_mem _ hx)
    obtain ⟨es', hmoves'⟩ := moves_putBack l (items.reverse.foldl (State.putBack l) s) o
    rw [List.reverse_cons, List.foldl_append]
    refine ⟨hfit.putBack (hsized o List.mem_cons_self), es ++ es', (hmoves.trans hmoves').mono ?_⟩
    rintro u ⟨x, hx, hcurrent, hu⟩
    rcases List.mem_cons.mp hx with rfl | hx
    · exact Or.inr ⟨hcurrent.trans hmoves.generation.symm, hu⟩
    · exact Or.inl ⟨x, hx, hcurrent, hu⟩

/-- What `RestoreLosses` has done with some losses to the state `s` before it. -/
structure Recovered (s t : State) (done : List Observation) : Prop where
  queue : t.queue = s.queue
  bytes : t.bytes = s.bytes
  trace : t.trace = s.trace
  call : t.call = s.call
  generation : t.bindingGeneration = s.bindingGeneration
  losses : ∀ o ∈ t.losses, o.isNotice s.bindingGeneration = true
  more : s.losses ≠ [] → t.losses ≠ []
  kept : ∀ h ∈ s.held, h ∈ t.held
  /-- What is held was held, or is a notice of the living generation. -/
  held : ∀ h ∈ t.held, h ∈ s.held ∨
    h.isNotice s.bindingGeneration = true ∧ ∃ o ∈ done, o.bindingGeneration = s.bindingGeneration
  covered : (∃ o ∈ done, o.bindingGeneration = s.bindingGeneration) →
    t.losses ≠ [] ∨ ∃ h ∈ t.held, h.bindingGeneration = s.bindingGeneration

theorem Recovered.restoreLoss {done : List Observation} (h : Recovered s t done)
    (ho : o.bindingGeneration = s.bindingGeneration → o.isNotice s.bindingGeneration = true)
    (hspare : ∀ x ∈ s.held, x.bindingGeneration = s.bindingGeneration ∨
      (o.bindingGeneration = s.bindingGeneration → o.retries < maxRetries)) :
    Recovered s (t.restoreLoss o) (o :: done) := by
  have hwider {x : Observation} (hx : x ∈ s.held ∨ x.isNotice s.bindingGeneration = true ∧
      ∃ y ∈ done, y.bindingGeneration = s.bindingGeneration) :
      x ∈ s.held ∨ x.isNotice s.bindingGeneration = true ∧
        ∃ y ∈ o :: done, y.bindingGeneration = s.bindingGeneration := by
    rcases hx with hx | ⟨hx, y, hy, hcurrent⟩
    · exact Or.inl hx
    · exact Or.inr ⟨hx, y, List.mem_cons_of_mem _ hy, hcurrent⟩
  have hcases := restoreLoss_cases t o
  revert hcases
  generalize t.restoreLoss o = r
  intro hcases
  cases hcases with
  | stale hstale =>
    refine { h with held := fun x hx => hwider (h.held x hx), covered := ?_ }
    rintro ⟨y, hy, hcurrent⟩
    rcases List.mem_cons.mp hy with rfl | hy
    · exact absurd (hcurrent.trans h.generation.symm) hstale
    · exact h.covered ⟨y, hy, hcurrent⟩
  | covered hcurrent held hheld hretries =>
    rw [h.generation] at hcurrent
    refine { h with held := fun x hx => hwider (h.held x hx), covered := fun _ => ?_ }
    rcases h.held held hheld with hold | ⟨hnotice, -⟩
    · rcases hspare held hold with hsame | hfew
      · exact Or.inr ⟨held, hheld, hsame⟩
      · have hlt := hfew hcurrent
        omega
    · exact Or.inr ⟨held, hheld, (isNotice_iff.mp hnotice).2.2⟩
  | holds hcurrent hnone =>
    rw [h.generation] at hcurrent
    obtain ⟨hkind, hnumber, -⟩ := isNotice_iff.mp (ho hcurrent)
    refine { h with kept := fun x hx => ?_, held := fun x hx => ?_, covered := fun _ => ?_ }
    · have hin := h.kept x hx
      rw [hnone] at hin
      cases hin
    · rw [← Option.some.inj hx]
      exact Or.inr ⟨isNotice_iff.mpr ⟨hkind, hnumber, hcurrent⟩, o, List.mem_cons_self, hcurrent⟩
    · exact Or.inr ⟨_, rfl, hcurrent⟩
  | waits hcurrent =>
    rw [h.generation] at hcurrent
    obtain ⟨hkind, hnumber, -⟩ := isNotice_iff.mp (ho hcurrent)
    refine { h with
      losses := fun x hx => ?_
      more := fun _ => List.cons_ne_nil _ _
      held := fun x hx => hwider (h.held x hx)
      covered := fun _ => Or.inl (List.cons_ne_nil _ _) }
    rcases List.mem_cons.mp hx with rfl | hx
    · exact isNotice_iff.mpr ⟨hkind, hnumber, hcurrent⟩
    · exact h.losses x hx

theorem recovered_foldl (hlosses : ∀ x ∈ s.losses, x.isNotice s.bindingGeneration = true)
    (items : List Observation)
    (hitems : ∀ o ∈ items, o.bindingGeneration = s.bindingGeneration →
      o.isNotice s.bindingGeneration = true)
    (hspare : ∀ x ∈ s.held, x.bindingGeneration = s.bindingGeneration ∨
      ∀ o ∈ items, o.bindingGeneration = s.bindingGeneration → o.retries < maxRetries) :
    Recovered s (items.reverse.foldl State.restoreLoss s) items := by
  induction items with
  | nil =>
    refine ⟨rfl, rfl, rfl, rfl, rfl, hlosses, id, fun _ => id, fun _ => Or.inl, ?_⟩
    rintro ⟨o, ho, -⟩
    exact absurd ho List.not_mem_nil
  | cons o items ih =>
    rw [List.reverse_cons, List.foldl_append]
    refine (ih (fun x hx => hitems x (List.mem_cons_of_mem _ hx)) fun x hx =>
      (hspare x hx).imp_right fun hfew y hy => hfew y (List.mem_cons_of_mem _ hy)).restoreLoss
      (hitems o List.mem_cons_self) fun x hx =>
        (hspare x hx).imp_right fun hfew => hfew o List.mem_cons_self

/-! ## The account of a step -/

/-- An event that no account enters. -/
def Event.isQuiet : Event → Bool
  | .began .. | .sent .. | .answered .. => true
  | _ => false

theorem foldl_tell_quiet (h : ∀ e ∈ es, e.isQuiet = true) (b : Account) :
    es.foldl (Account.tell g) b = b := by
  induction es with
  | nil => rfl
  | cons e es ih =>
    have hsame : b.tell g e = b := by
      have he := h e List.mem_cons_self
      cases e <;> first | rfl | cases he
    rw [List.foldl_cons, hsame, ih fun e he => h e (List.mem_cons_of_mem _ he)]

/-- Losses of the living generation make the account fresh. -/
theorem foldl_tell_inner
    (h : ∀ e ∈ es, (∃ o, e = .lost o ∧ o.bindingGeneration = g) ∨ ∃ o policy, e = .admitted o policy)
    (b : Account) : (es.foldl (Account.tell g) b).flying = b.flying ∧
      ((es.foldl (Account.tell g) b).fresh = true → b.fresh = true ∨ ∃ o, .lost o ∈ es) := by
  induction es generalizing b with
  | nil => exact ⟨rfl, Or.inl⟩
  | cons e es ih =>
    obtain ⟨hflying, hfresh⟩ := ih (fun e he => h e (List.mem_cons_of_mem _ he)) (b.tell g e)
    have hmore (ho : ∃ o, .lost o ∈ es) : ∃ o, .lost o ∈ e :: es := by
      obtain ⟨o, ho⟩ := ho
      exact ⟨o, List.mem_cons_of_mem _ ho⟩
    rw [List.foldl_cons]
    rcases h e List.mem_cons_self with ⟨o, rfl, ho⟩ | ⟨o, policy, rfl⟩
    · refine ⟨?_, fun _ => Or.inr ⟨o, List.mem_cons_self⟩⟩
      rw [hflying]
      show (if o.bindingGeneration = g then _ else b).flying = b.flying
      rw [if_pos ho]
    · exact ⟨hflying, fun hf => (hfresh hf).imp_right hmore⟩

theorem mem_admitted {b : Account} (hu : u ∈ (es.foldl (Account.tell g) b).admitted) :
    u ∈ b.admitted ∨ ∃ o policy, .admitted o policy ∈ es ∧ o.updateId = u := by
  induction es generalizing b with
  | nil => exact Or.inl hu
  | cons e es ih =>
    have htell : u ∈ (b.tell g e).admitted →
        u ∈ b.admitted ∨ ∃ o policy, .admitted o policy ∈ e :: es ∧ o.updateId = u := by
      intro hu
      cases e with
      | admitted o policy =>
        rcases List.mem_cons.mp hu with rfl | hu
        · exact Or.inr ⟨o, policy, List.mem_cons_self, rfl⟩
        · exact Or.inl hu
      | lost | tried | replied =>
        unfold Account.tell at hu
        dsimp only at hu
        split_ifs at hu <;> exact Or.inl hu
      | _ => exact Or.inl hu
    rcases ih hu with hu | ⟨o, policy, ho, hu⟩
    · exact htell hu
    · exact Or.inr ⟨o, policy, List.mem_cons_of_mem _ ho, hu⟩

/-- An update waits in the living generation. -/
def Lives (s : State) (u : Option ℕ) : Prop :=
  ∃ o ∈ s.waiting, o.updateId = u ∧ o.bindingGeneration = s.bindingGeneration

/-- **A step that drops nothing in silence.** -/
structure Follows (s s' : State) (es : List Event) : Prop where
  generation : s'.bindingGeneration = s.bindingGeneration
  trace : s'.trace = s.trace ++ es
  fate : ∀ o ∈ s.waiting, o.bindingGeneration = s.bindingGeneration →
    Lives s' o.updateId ∨ Settled es o.updateId
  admitted : ∀ o policy, .admitted o policy ∈ es → Lives s' o.updateId ∨ Settled es o.updateId

theorem Follows.told (h : Follows s s' es) : told s s' = es := by
  unfold Native.told
  rw [h.trace, List.drop_left]

/-- The account of such a step enters its events. -/
theorem Follows.vanishes (h : Follows s s' es) : vanishes s s' = false := by
  rw [Bool.eq_false_iff]
  intro hvanishes
  obtain ⟨o, ho, hlost⟩ := List.any_eq_true.mp hvanishes
  rw [h.told, Bool.and_eq_true, Bool.and_eq_true, decide_eq_true_eq, Bool.not_eq_true',
    Bool.not_eq_true'] at hlost
  obtain ⟨⟨hcurrent, hgone⟩, hsilent⟩ := hlost
  rcases h.fate o ho hcurrent with ⟨x, hx, hsame, -⟩ | ⟨e, he, hsettles⟩
  · have hin : (s'.waiting.map Observation.updateId).contains o.updateId = true :=
      List.contains_iff_mem.mpr (List.mem_map.mpr ⟨x, hx, hsame⟩)
    rw [hgone] at hin
    cases hin
  · have hin : es.any (Event.settles o.updateId) = true := List.any_eq_true.mpr ⟨e, he, hsettles⟩
    rw [hsilent] at hin
    cases hin

/-! ## The invariant -/

/-- The losses that the worker has not tried to send. -/
def Worker.untried : Worker → List Observation
  | .send _ (.losses _) items | .current _ (.losses _) items => items
  | _ => []

/-- The held notice on its way. -/
def Worker.boundary : Worker → List Observation
  | .send _ (.held _) items | .current _ (.held _) items | .exchange _ (.held _) items
  | .answered _ (.held _) items _ => items
  | _ => []

/-- The held notice has been sent. -/
def Worker.isDelivered : Worker → Bool
  | .delivered .. => true
  | _ => false

/-- What has been stamped has its size. -/
def Call.Sized : Call → Prop
  | .stamped o | .allowed o _ => 0 ≤ o.budgetBytes
  | _ => True

/-- What the worker has in hand is of the generation that it has read. -/
structure Loaded (w : Worker) : Prop where
  batch : ∀ o ∈ w.batch, o.bindingGeneration = w.generation ∧ 0 ≤ o.budgetBytes
  losses : ∀ o ∈ w.lossBatch, o.isNotice w.generation = true
  boundary : ∀ o ∈ w.boundary, o.isNotice w.generation = true

/-- **The invariant.** -/
structure Solvent (l : Limits) (s : State) (b : Account) : Prop where
  fit : Fit l s
  call : ∀ x ∈ s.call, x.Sized
  loaded : Loaded s.worker
  read : s.worker.generation ≤ s.bindingGeneration
  held : ∀ x ∈ s.held, x.isNotice x.bindingGeneration = true ∧
    x.bindingGeneration ≤ s.bindingGeneration
  /-- A notice of the living generation is held since the worker has read that generation. -/
  reached : ∀ x ∈ s.held, x.bindingGeneration = s.bindingGeneration →
    s.worker = .idle ∨ s.worker.generation = s.bindingGeneration
  admitted : ∀ u ∈ b.admitted, Lives s u ∨ Settled s.trace u
  pending : b.fresh = true ∨ b.flying = true → Pending s
  /-- The notice of a fresh drop has not been tried. -/
  fresh : b.fresh = true →
    s.losses ≠ [] ∨ s.worker.untried ≠ [] ∧ s.worker.generation = s.bindingGeneration
  landed : s.worker.isDelivered = true → s.worker.generation = s.bindingGeneration →
    b.flying = false

variable {b : Account}

theorem Solvent.conserved {b : Books} (h : Solvent l b.state b.account) : Conserved l b := by
  refine ⟨fun u hu => ?_, h.pending, h.fit.bytes, h.fit.count, h.fit.limit⟩
  rcases h.admitted u hu with ⟨o, ho, hsame, -⟩ | hsettled
  · exact Or.inl ⟨o, ho, hsame⟩
  · exact Or.inr hsettled

theorem Fit.pending (h : Fit l s) (hsome : s.losses ≠ []) : Pending s := by
  obtain ⟨o, ho⟩ := List.exists_mem_of_ne_nil _ hsome
  exact ⟨o, List.mem_append_left _ ho, h.losses o ho⟩

/-- **A step of the living generation**: it drops nothing in silence and keeps the invariant. -/
def Goes (l : Limits) (s : State) (b : Account) (s' : State) : Prop :=
  ∃ es, Follows s s' es ∧ Solvent l s' (es.foldl (Account.tell s.bindingGeneration) b)

/-- What the account has of admissions is accounted for after such a step. -/
theorem Solvent.admits (h : Solvent l s b) (hf : Follows s s' es) :
    ∀ u ∈ (es.foldl (Account.tell s.bindingGeneration) b).admitted,
      Lives s' u ∨ Settled s'.trace u := by
  intro u hu
  rw [hf.trace]
  rcases mem_admitted hu with hu | ⟨o, policy, ho, rfl⟩
  · rcases h.admitted u hu with ⟨o, ho, rfl, hcurrent⟩ | hsettled
    · exact (hf.fate o ho hcurrent).imp_right fun hs => hs.append_right s.trace
    · exact Or.inr (hsettled.append_left es)
  · exact (hf.admitted o policy ho).imp_right fun hs => hs.append_right s.trace

/-- What waits lives on, where neither the queue nor the batch loses anything. -/
theorem follows_of_subset (hgeneration : s'.bindingGeneration = s.bindingGeneration)
    (htrace : s'.trace = s.trace ++ es) (hquiet : ∀ o policy, .admitted o policy ∉ es)
    (hwaiting : ∀ o ∈ s.waiting, o.bindingGeneration = s.bindingGeneration →
      o ∈ s'.waiting ∨ Settled es o.updateId) : Follows s s' es where
  generation := hgeneration
  trace := htrace
  fate o ho hcurrent := (hwaiting o ho hcurrent).imp_left fun hin =>
    ⟨o, hin, rfl, hcurrent.trans hgeneration.symm⟩
  admitted o policy ho := absurd ho (hquiet o policy)

theorem not_admitted_of_quiet (h : ∀ e ∈ es, e.isQuiet = true) (o : Observation)
    (policy : Option ℕ) : .admitted o policy ∉ es := by
  intro ho
  cases h _ ho

/-- **A step aside**: the queue, the losses and the worker stay. -/
theorem Solvent.aside (h : Solvent l s b) (hes : ∀ e ∈ es, e.isQuiet = true)
    (htrace : s'.trace = s.trace ++ es) (hqueue : s'.queue = s.queue)
    (hlosses : s'.losses = s.losses) (hheld : s'.held = s.held) (hbytes : s'.bytes = s.bytes)
    (hgeneration : s'.bindingGeneration = s.bindingGeneration) (hworker : s'.worker = s.worker)
    (hcall : ∀ x ∈ s'.call, x.Sized) : Goes l s b s' := by
  have hwaiting : s'.waiting = s.waiting := by
    unfold State.waiting
    rw [hqueue, hworker]
  have hf : Follows s s' es := follows_of_subset hgeneration htrace (not_admitted_of_quiet hes)
    fun o ho _ => Or.inl (hwaiting ▸ ho)
  have hadmits := h.admits hf
  refine ⟨es, hf, ?_⟩
  rw [foldl_tell_quiet hes] at hadmits ⊢
  refine ⟨⟨?_, ?_, ?_, ?_, ?_, ?_⟩, hcall, ?_, ?_, ?_, ?_, hadmits, ?_, ?_, ?_⟩
  · rw [hqueue, hgeneration]
    exact h.fit.queue
  · rw [hqueue]
    exact h.fit.sized
  · rw [hlosses, hgeneration]
    exact h.fit.losses
  · rw [hbytes, hqueue]
    exact h.fit.bytes
  · rw [hqueue]
    exact h.fit.count
  · rw [hbytes]
    exact h.fit.limit
  · rw [hworker]
    exact h.loaded
  · rw [hworker, hgeneration]
    exact h.read
  · rw [hheld, hgeneration]
    exact h.held
  · rw [hheld, hworker, hgeneration]
    exact h.reached
  · unfold Pending
    rw [hlosses, hworker, hheld, hgeneration]
    exact h.pending
  · rw [hlosses, hworker, hgeneration]
    exact h.fresh
  · rw [hworker, hgeneration]
    exact h.landed

/-- **An observation enters.** -/
theorem Solvent.enters (h : Solvent l s b) (ho : o.bindingGeneration = s.bindingGeneration)
    (hsize : 0 ≤ o.budgetBytes) (hroom : LeavesRoom l s o) (policy : Option ℕ)
    (hcall : ∀ x ∈ s.call, x.Sized) : Goes l s b (s.enter l o policy) := by
  have hfit := h.fit.enter ho hsize hroom policy
  obtain ⟨es, hmoves⟩ := moves_enter h.fit ho policy
  have hkept := (held_enter l s o policy).2.1
  revert hfit hmoves hkept
  generalize s.enter l o policy = t
  intro hfit hmoves hkept
  have hlives {u : Option ℕ} (hu : Among t.queue u) : Lives t u := by
    obtain ⟨x, hx, hsame⟩ := hu
    exact ⟨x, List.mem_append_right _ hx, hsame, hfit.queue x hx⟩
  have hf : Follows s t es := by
    refine ⟨hmoves.generation, hmoves.trace, fun x hx hcurrent => ?_, fun x policy hx => ?_⟩
    · rcases List.mem_append.mp hx with hx | hx
      · refine Or.inl ⟨x, List.mem_append_left _ ?_, rfl, hcurrent.trans hmoves.generation.symm⟩
        rw [hmoves.worker]
        exact hx
      · exact (hmoves.fate x.updateId (Or.inl ⟨x, hx, rfl⟩)).imp_left hlives
    · exact (hmoves.fate x.updateId (Or.inr (Or.inr ⟨x, policy, hx, rfl⟩))).imp_left hlives
  obtain ⟨hflying, hfresh⟩ := foldl_tell_inner hmoves.inner b
  have hloses : (es.foldl (Account.tell s.bindingGeneration) b).fresh = true →
      b.fresh = true ∨ t.losses ≠ [] := fun hf =>
    (hfresh hf).imp_right fun hlost => hmoves.losses (Or.inr hlost)
  have hpending (hp : Pending s) : Pending t := by
    obtain ⟨x, hx, hnotice⟩ := hp
    rcases List.mem_append.mp hx with hx | hx
    · exact hfit.pending (hmoves.losses (Or.inl (List.ne_nil_of_mem hx)))
    · refine ⟨x, List.mem_append_right _ ?_, hmoves.generation.symm ▸ hnotice⟩
      rw [hmoves.worker, hmoves.held]
      exact hx
  refine ⟨es, hf, hfit, hkept.symm ▸ hcall, hmoves.worker.symm ▸ h.loaded, ?_, ?_, ?_, h.admits hf,
    ?_, ?_, ?_⟩
  · rw [hmoves.worker, hmoves.generation]
    exact h.read
  · rw [hmoves.held, hmoves.generation]
    exact h.held
  · rw [hmoves.held, hmoves.worker, hmoves.generation]
    exact h.reached
  · rintro (hf | hf)
    · rcases hloses hf with hb | hsome
      · exact hpending (h.pending (Or.inl hb))
      · exact hfit.pending hsome
    · exact hpending (h.pending (Or.inr (hflying ▸ hf)))
  · intro hf
    rcases hloses hf with hb | hsome
    · rw [hmoves.worker, hmoves.generation]
      exact (h.fresh hb).imp_left fun hsome => hmoves.losses (Or.inl hsome)
    · exact Or.inl hsome
  · rw [hmoves.worker, hmoves.generation, hflying]
    exact h.landed

/-! ## The worker -/

/-- **A turn of the worker**: it goes on with what it has, and drops nothing of the living
generation. -/
theorem Solvent.turns (h : Solvent l s b) (hes : ∀ e ∈ es, e.isQuiet = true)
    (htrace : s'.trace = s.trace ++ es) (hqueue : s'.queue = s.queue)
    (hlosses : s'.losses = s.losses) (hheld : s'.held = s.held) (hbytes : s'.bytes = s.bytes)
    (hgeneration : s'.bindingGeneration = s.bindingGeneration) (hcall : s'.call = s.call)
    (hloaded : Loaded s'.worker) (hread : s'.worker.generation ≤ s.bindingGeneration)
    (hreached : s'.worker = .idle ∨ s'.worker.generation = s.bindingGeneration ∨
      s.worker ≠ .idle ∧ s'.worker.generation = s.worker.generation)
    (hbatch : ∀ o ∈ s.worker.batch, o.bindingGeneration = s.bindingGeneration →
      o ∈ s'.worker.batch)
    (hloss : ∀ o ∈ s.worker.lossBatch, o.bindingGeneration = s.bindingGeneration →
      o ∈ s'.worker.lossBatch)
    (huntried : s.worker.untried ≠ [] → s.worker.generation = s.bindingGeneration →
      s'.worker.untried ≠ [] ∧ s'.worker.generation = s.bindingGeneration)
    (hlanded : s'.worker.isDelivered = false) : Goes l s b s' := by
  have hf : Follows s s' es := by
    refine follows_of_subset hgeneration htrace (not_admitted_of_quiet hes) fun o ho hcurrent => ?_
    rcases List.mem_append.mp ho with ho | ho
    · exact Or.inl (List.mem_append_left _ (hbatch o ho hcurrent))
    · exact Or.inl (List.mem_append_right _ (hqueue ▸ ho))
  have hadmits := h.admits hf
  refine ⟨es, hf, ?_⟩
  rw [foldl_tell_quiet hes] at hadmits ⊢
  refine ⟨⟨?_, ?_, ?_, ?_, ?_, ?_⟩, hcall ▸ h.call, hloaded, hgeneration ▸ hread, ?_, ?_, hadmits, ?_,
    ?_, ?_⟩
  · rw [hqueue, hgeneration]
    exact h.fit.queue
  · rw [hqueue]
    exact h.fit.sized
  · rw [hlosses, hgeneration]
    exact h.fit.losses
  · rw [hbytes, hqueue]
    exact h.fit.bytes
  · rw [hqueue]
    exact h.fit.count
  · rw [hbytes]
    exact h.fit.limit
  · rw [hheld, hgeneration]
    exact h.held
  · rw [hheld, hgeneration]
    intro x hx hcurrent
    rcases hreached with hidle | hsame | ⟨hbusy, hsame⟩
    · exact Or.inl hidle
    · exact Or.inr hsame
    · exact Or.inr (hsame.trans ((h.reached x hx hcurrent).resolve_left hbusy))
  · intro hb
    obtain ⟨x, hx, hnotice⟩ := h.pending hb
    refine ⟨x, ?_, hgeneration ▸ hnotice⟩
    rw [hlosses, hheld]
    rcases List.mem_append.mp hx with hx | hx
    · exact List.mem_append_left _ hx
    · rcases List.mem_append.mp hx with hx | hx
      · exact List.mem_append_right _ (List.mem_append_left _
          (hloss x hx (isNotice_iff.mp hnotice).2.2))
      · exact List.mem_append_right _ (List.mem_append_right _ hx)
  · intro hb
    rw [hlosses, hgeneration]
    exact (h.fresh hb).imp_right fun hsome => huntried hsome.1 hsome.2
  · intro hdelivered
    rw [hlanded] at hdelivered
    cases hdelivered

theorem no_quiet : ∀ e ∈ ([] : List Event), e.isQuiet = true :=
  List.forall_mem_nil _

/-- The worker has nothing in hand. -/
theorem Loaded.empty {w : Worker} (hbatch : w.batch = []) (hlosses : w.lossBatch = [])
    (hboundary : w.boundary = []) : Loaded w where
  batch _ ho := absurd (hbatch ▸ ho) List.not_mem_nil
  losses _ ho := absurd (hlosses ▸ ho) List.not_mem_nil
  boundary _ ho := absurd (hboundary ▸ ho) List.not_mem_nil

/-- A worker that has neither losses nor a batch goes on. -/
theorem Solvent.rests (h : Solvent l s b) (hbatch : s.worker.batch = [])
    (hlossBatch : s.worker.lossBatch = []) (huntried : s.worker.untried = [])
    (htrace : s'.trace = s.trace) (hqueue : s'.queue = s.queue)
    (hlosses : s'.losses = s.losses) (hheld : s'.held = s.held) (hbytes : s'.bytes = s.bytes)
    (hgeneration : s'.bindingGeneration = s.bindingGeneration) (hcall : s'.call = s.call)
    (hloaded : Loaded s'.worker) (hlanded : s'.worker.isDelivered = false)
    (hnext : s'.worker = .idle ∨ s'.worker.generation = s.bindingGeneration ∨
      s.worker ≠ .idle ∧ s'.worker.generation = s.worker.generation) : Goes l s b s' := by
  refine h.turns no_quiet (htrace.trans (List.append_nil _).symm) hqueue hlosses hheld hbytes
    hgeneration hcall hloaded ?_ hnext ?_ ?_ ?_ hlanded
  · have hread := h.read
    rcases hnext with hidle | hsame | ⟨-, hsame⟩
    · rw [hidle]
      exact Nat.zero_le _
    · exact Nat.le_of_eq hsame
    · exact hsame ▸ hread
  · rw [hbatch]
    exact List.forall_mem_nil _
  · rw [hlossBatch]
    exact List.forall_mem_nil _
  · rw [huntried]
    exact fun hno => absurd rfl hno

/-- The worker has nothing in its hands, and goes on to the policy or to rest. -/
theorem Solvent.leaves (h : Solvent l s b) (hbusy : s.worker ≠ .idle)
    (hg : s.worker.generation = g) (hbatch : s.worker.batch = [])
    (hlossBatch : s.worker.lossBatch = []) (huntried : s.worker.untried = []) (last : Bool) :
    Goes l s b { s with worker := if last then .idle else .policy g } := by
  refine h.rests hbatch hlossBatch huntried rfl rfl rfl rfl rfl rfl rfl ?_ ?_ ?_
  · cases last <;> exact .empty rfl rfl rfl
  · cases last <;> rfl
  · cases last with
    | true => exact Or.inl rfl
    | false => exact Or.inr (Or.inr ⟨hbusy, hg.symm⟩)

variable {items : List Observation} {purpose : Purpose}

/-- **The frame is not sent**: it is empty, of another generation, or the held notice. -/
theorem Solvent.drops (h : Solvent l s b)
    (hplace : s.worker = .send g purpose items ∨ s.worker = .current g purpose items)
    (hnone : items = [] ∨ g ≠ s.bindingGeneration ∨ ∃ last, purpose = .held last)
    (hqueue : s'.queue = s.queue) (hlosses : s'.losses = s.losses) (hheld : s'.held = s.held)
    (hbytes : s'.bytes = s.bytes) (hgeneration : s'.bindingGeneration = s.bindingGeneration)
    (hcall : s'.call = s.call) (htrace : s'.trace = s.trace)
    (hworker : s'.worker = dropped g purpose) : Goes l s b s' := by
  have hg : s.worker.generation = g := by rcases hplace with hw | hw <;> rw [hw] <;> rfl
  have hbusy : s.worker ≠ .idle := by rcases hplace with hw | hw <;> rw [hw] <;> rintro ⟨⟩
  have hbatch : s.worker.batch = (Worker.send g purpose items).batch := by
    rcases hplace with hw | hw <;> rw [hw] <;> cases purpose <;> rfl
  have hloss : s.worker.lossBatch = (Worker.send g purpose items).lossBatch := by
    rcases hplace with hw | hw <;> rw [hw] <;> cases purpose <;> rfl
  have huntried : s.worker.untried = (Worker.send g purpose items).lossBatch := by
    rcases hplace with hw | hw <;> rw [hw] <;> cases purpose <;> rfl
  have hread := h.read
  rw [hg] at hread
  refine h.turns no_quiet (htrace.trans (List.append_nil _).symm) hqueue hlosses hheld hbytes
    hgeneration hcall ?_ ?_ ?_ ?_ ?_ ?_ ?_
  · rw [hworker]
    cases purpose with
    | losses rest =>
      refine ⟨fun o ho => ?_, List.forall_mem_nil _,
        List.forall_mem_nil _⟩
      have hin := h.loaded.batch o (hbatch ▸ ho)
      rwa [hg] at hin
    | batch => exact .empty rfl rfl rfl
    | held last => cases last <;> exact .empty rfl rfl rfl
  · rw [hworker]
    cases purpose with
    | losses => exact hread
    | batch => exact hread
    | held last =>
      cases last with
      | true => exact Nat.zero_le _
      | false => exact hread
  · rw [hworker]
    cases purpose with
    | losses => exact Or.inr (Or.inr ⟨hbusy, hg.symm⟩)
    | batch => exact Or.inr (Or.inr ⟨hbusy, hg.symm⟩)
    | held last =>
      cases last with
      | true => exact Or.inl rfl
      | false => exact Or.inr (Or.inr ⟨hbusy, hg.symm⟩)
  · intro o ho hcurrent
    have hsame := (h.loaded.batch o ho).1
    rw [hworker]
    rw [hbatch] at ho
    cases purpose with
    | losses => exact ho
    | batch =>
      rcases hnone with hnil | hstale | ⟨last, hlast⟩
      · rw [hnil] at ho
        cases ho
      · exact absurd (hg.symm.trans (hsame.symm.trans hcurrent)) hstale
      · cases hlast
    | held => cases ho
  · intro o ho hcurrent
    have hsame := (isNotice_iff.mp (h.loaded.losses o ho)).2.2
    rw [hloss] at ho
    cases purpose with
    | losses =>
      rcases hnone with hnil | hstale | ⟨last, hlast⟩
      · rw [hnil] at ho
        cases ho
      · exact absurd (hg.symm.trans (hsame.symm.trans hcurrent)) hstale
      · cases hlast
    | batch => cases ho
    | held => cases ho
  · intro hsome hcurrent
    rw [huntried] at hsome
    cases purpose with
    | losses =>
      rcases hnone with hnil | hstale | ⟨last, hlast⟩
      · exact absurd hnil hsome
      · exact absurd (hg.symm.trans hcurrent) hstale
      · cases hlast
    | batch => exact absurd rfl hsome
    | held => exact absurd rfl hsome
  · rw [hworker]
    cases purpose with
    | losses => rfl
    | batch => rfl
    | held last => cases last <;> rfl

/-- What the worker takes is in the queue, but for what a resolution changes. -/
theorem mem_batch {receipts : List Receipt} {n : ℕ} {queue : List Observation}
    (ho : o ∈ (takeBatch g n queue receipts).batch) : ∃ x ∈ queue, o.updateId = x.updateId ∧
      o.bindingGeneration = x.bindingGeneration ∧ (0 ≤ x.budgetBytes → 0 ≤ o.budgetBytes) := by
  obtain ⟨x, hx, rs, rs', -, hresolved⟩ := (takeBatch_queue g n queue receipts).2 o ho
  exact ⟨x, hx, same_resolved hresolved⟩

theorem taken_or_stays {receipts : List Receipt} {n : ℕ} {queue : List Observation}
    (ho : o ∈ queue) : (∃ x ∈ (takeBatch g n queue receipts).batch, x.updateId = o.updateId ∧
      x.bindingGeneration = o.bindingGeneration) ∨ o ∈ (takeBatch g n queue receipts).queue := by
  rw [(takeBatch_queue g n queue receipts).1] at ho
  rcases List.mem_append.mp ho with ho | ho
  · have hsame := takeBatch_map (fun o => (o.updateId, o.bindingGeneration))
      (fun _ _ _ _ _ hresolved =>
        Prod.ext (same_resolved hresolved).1 (same_resolved hresolved).2.1) g n queue receipts
    have hin := List.mem_map_of_mem (f := fun o => (o.updateId, o.bindingGeneration)) ho
    rw [← hsame] at hin
    obtain ⟨x, hx, heq⟩ := List.mem_map.mp hin
    exact Or.inl ⟨x, hx, congrArg Prod.fst heq, congrArg Prod.snd heq⟩
  · exact Or.inr ho

/-- **The worker takes the losses and a batch.** -/
theorem Solvent.takes (h : Solvent l s b) (hworker : s.worker = .stamped g)
    (hcareful : s.worker.Careful s) : Goes l s b (s.take g) := by
  have hread := h.read
  have hreached := h.reached
  rw [hworker] at hcareful hread hreached
  have hf : Follows s (s.take g) [] := by
    refine ⟨rfl, (List.append_nil _).symm, fun o ho hcurrent => Or.inl ?_,
      fun o policy ho => absurd ho List.not_mem_nil⟩
    unfold State.waiting at ho
    rw [hworker] at ho
    rcases List.mem_append.mp ho with ho | ho
    · cases ho
    · rcases taken_or_stays ho with ⟨x, hx, hsame, hgeneration⟩ | hstays
      · exact ⟨x, List.mem_append_left _ hx, hsame, hgeneration.trans hcurrent⟩
      · exact ⟨o, List.mem_append_right _ hstays, rfl, hcurrent⟩
  refine ⟨[], hf, h.fit.take g, h.call, ⟨fun o ho => ?_, fun o ho => ?_,
    List.forall_mem_nil _⟩, hread, h.held,
    fun x hx hcurrent => Or.inr ((hreached x hx hcurrent).resolve_left (by rintro ⟨⟩)),
    h.admits hf, fun hb => ?_, fun hb => ?_, fun hno => by cases hno⟩
  · rcases hcareful with rfl | ⟨hnone, -⟩
    · obtain ⟨x, hx, -, hgeneration, hsized⟩ := mem_batch ho
      exact ⟨hgeneration.trans (h.fit.queue x hx), hsized (h.fit.sized x hx)⟩
    · have ho' : o ∈ (takeBatch s.bindingGeneration batchSize s.queue s.receipts).batch := ho
      rw [hnone] at ho'
      cases ho'
  · have ho' : o ∈ s.losses := ho
    rcases hcareful with rfl | ⟨-, hnone⟩
    · exact h.fit.losses o ho'
    · rw [hnone] at ho'
      cases ho'
  · obtain ⟨x, hx, hnotice⟩ := h.pending hb
    rw [hworker] at hx
    refine ⟨x, ?_, hnotice⟩
    rcases List.mem_append.mp hx with hx | hx
    · exact List.mem_append_right _ (List.mem_append_left _ hx)
    · exact List.mem_append_right _ (List.mem_append_right _ hx)
  · have hsome := h.fresh hb
    rw [hworker] at hsome
    rcases hsome with hsome | ⟨hno, -⟩
    · rcases hcareful with rfl | ⟨-, hnone⟩
      · exact Or.inr ⟨hsome, rfl⟩
      · exact absurd hnone hsome
    · exact absurd rfl hno

/-- What the worker has in hand is the same at each place of a frame. -/
theorem Loaded.place {w w' : Worker} (h : Loaded w) (hbatch : w'.batch = w.batch)
    (hlosses : w'.lossBatch = w.lossBatch) (hboundary : w'.boundary = w.boundary)
    (hgeneration : w'.generation = w.generation) : Loaded w' where
  batch o ho := hgeneration ▸ h.batch o (hbatch ▸ ho)
  losses o ho := hgeneration ▸ h.losses o (hlosses ▸ ho)
  boundary o ho := hgeneration ▸ h.boundary o (hboundary ▸ ho)

/-- **A frame is tried.** -/
theorem Solvent.tries (h : Solvent l s b) (hworker : s.worker = .current g purpose items) :
    Goes l s b { s.note (.tried g items) with worker := .exchange g purpose items } := by
  have hloaded := h.loaded
  have hread := h.read
  have hreached := h.reached
  rw [hworker] at hloaded hread hreached
  have hbatch : (Worker.exchange g purpose items).batch =
      (Worker.current g purpose items).batch := by cases purpose <;> rfl
  have hlosses : (Worker.exchange g purpose items).lossBatch =
      (Worker.current g purpose items).lossBatch := by cases purpose <;> rfl
  have hboundary : (Worker.exchange g purpose items).boundary =
      (Worker.current g purpose items).boundary := by cases purpose <;> rfl
  have hf : Follows s { s.note (.tried g items) with worker := .exchange g purpose items }
      [.tried g items] := by
    refine follows_of_subset rfl rfl (fun o policy ho => ?_) fun o ho _ => Or.inl ?_
    · cases List.mem_singleton.mp ho
    · unfold State.waiting at ho ⊢
      rw [hworker, ← hbatch] at ho
      exact ho
  have htells : ((b.tell s.bindingGeneration (.tried g items)).fresh = true ∨
      (b.tell s.bindingGeneration (.tried g items)).flying = true → b.fresh = true ∨
        b.flying = true) ∧
      ((b.tell s.bindingGeneration (.tried g items)).fresh = true →
        b.fresh = true ∧ items.any (Observation.isNotice s.bindingGeneration) = false) := by
    unfold Account.tell
    by_cases hsome : items.any (Observation.isNotice s.bindingGeneration) = true
    · simp only [if_pos hsome]
      refine ⟨?_, fun hno => by cases hno⟩
      rintro (hno | hb)
      · cases hno
      · exact (Bool.or_eq_true _ _ ▸ hb).symm
    · simp only [if_neg hsome]
      exact ⟨id, fun hb => ⟨hb, Bool.eq_false_iff.mpr hsome⟩⟩
  refine ⟨_, hf, ⟨h.fit.queue, h.fit.sized, h.fit.losses, h.fit.bytes, h.fit.count, h.fit.limit⟩,
    h.call, hloaded.place hbatch hlosses hboundary rfl, hread, h.held,
    fun x hx hcurrent => Or.inr ((hreached x hx hcurrent).resolve_left (by rintro ⟨⟩)),
    h.admits hf, fun hb => ?_, fun hb => ?_, fun hno => by cases hno⟩
  · obtain ⟨x, hx, hnotice⟩ := h.pending (htells.1 hb)
    rw [hworker, ← hlosses] at hx
    exact ⟨x, hx, hnotice⟩
  · obtain ⟨hfresh, hnone⟩ := htells.2 hb
    have hsome := h.fresh hfresh
    rw [hworker] at hsome
    rcases hsome with hsome | ⟨hsome, hcurrent⟩
    · exact Or.inl hsome
    · cases purpose with
      | losses rest =>
        obtain ⟨x, hx⟩ := List.exists_mem_of_ne_nil _ hsome
        have hnotice : x.isNotice s.bindingGeneration = true := hcurrent ▸ hloaded.losses x hx
        have hany : items.any (Observation.isNotice s.bindingGeneration) = true :=
          List.any_eq_true.mpr ⟨x, hx, hnotice⟩
        rw [hany] at hnone
        cases hnone
      | batch => exact absurd rfl hsome
      | held => exact absurd rfl hsome

/-- The codes tell nothing that an account enters. -/
theorem told_bindCodes (s : State) (items : List Observation) (codes : Option (List Text)) :
    (s.bindCodes g items codes).bindingGeneration = s.bindingGeneration ∧
      ∃ es, (s.bindCodes g items codes).trace = s.trace ++ es ∧ ∀ e ∈ es, e.isQuiet = true := by
  refine ⟨(frame_bindCodes s g items codes).generation, ?_⟩
  unfold State.bindCodes
  cases codes with
  | none => exact ⟨[], (List.append_nil _).symm, no_quiet⟩
  | some codes =>
    dsimp only
    split_ifs
    · refine ⟨_, rfl, fun e he => ?_⟩
      obtain ⟨p, -, rfl⟩ := List.mem_map.mp he
      rfl
    · exact ⟨[], (List.append_nil _).symm, no_quiet⟩
    · exact ⟨[], (List.append_nil _).symm, no_quiet⟩

theorem Loaded.sent {codes : Option (List Text)} (h : Loaded (.answered g purpose items codes)) :
    Loaded (sent g items purpose) := by
  cases purpose with
  | losses rest => exact ⟨h.batch, List.forall_mem_nil _,
      List.forall_mem_nil _⟩
  | batch => exact .empty rfl rfl rfl
  | held last => cases items <;> exact .empty rfl rfl rfl

/-- The held notice is the first of the frame that is delivered. -/
theorem boundary_of_isDelivered (codes : Option (List Text))
    (h : (sent g items purpose).isDelivered = true) :
    ∃ o ∈ items, o ∈ (Worker.answered g purpose items codes).boundary := by
  cases purpose with
  | losses => cases h
  | batch => cases h
  | held last =>
    cases items with
    | nil => cases h
    | cons o items => exact ⟨o, List.mem_cons_self, List.mem_cons_self⟩

/-- **A frame is replied to.** -/
theorem Solvent.replies (h : Solvent l s b) {codes : Option (List Text)}
    (hworker : s.worker = .answered g purpose items codes) :
    Goes l s b { (s.bindCodes g items codes).note (.replied items) with
      worker := sent g items purpose } := by
  obtain ⟨hgeneration, es, htrace, hes⟩ := told_bindCodes (g := g) s items codes
  obtain ⟨hcall, hqueue, hlosses, hheld, hbytes, -⟩ := same_bindCodes s g items codes
  revert hgeneration htrace hcall hqueue hlosses hheld hbytes
  generalize s.bindCodes g items codes = t
  intro hgeneration htrace hcall hqueue hlosses hheld hbytes
  have hloaded := h.loaded
  have hread := h.read
  have hreached := h.reached
  rw [hworker] at hloaded hread hreached
  have hf : Follows s { t.note (.replied items) with worker := sent g items purpose }
      (es ++ [.replied items]) := by
    refine follows_of_subset hgeneration ?_ (fun o policy ho => ?_) fun o ho _ => ?_
    · show t.trace ++ [.replied items] = s.trace ++ (es ++ [.replied items])
      rw [htrace, List.append_assoc]
    · rcases List.mem_append.mp ho with ho | ho
      · exact not_admitted_of_quiet hes o policy ho
      · cases List.mem_singleton.mp ho
    · rcases List.mem_append.mp ho with ho | ho
      · rw [hworker] at ho
        cases purpose with
        | losses rest => exact Or.inl (List.mem_append_left _ ho)
        | batch =>
          refine Or.inr ⟨.replied items, List.mem_append_right _ (List.mem_singleton_self _), ?_⟩
          exact List.contains_iff_mem.mpr (List.mem_map_of_mem ho)
        | held => cases ho
      · exact Or.inl (List.mem_append_right _ (hqueue.symm ▸ ho))
  have hadmits := h.admits hf
  refine ⟨_, hf, ?_⟩
  rw [List.foldl_append, foldl_tell_quiet hes] at hadmits ⊢
  have hfresh : b.fresh = true → s.losses ≠ [] := by
    intro hb
    have hsome := h.fresh hb
    rw [hworker] at hsome
    exact hsome.resolve_right fun hno => absurd rfl hno.1
  have htells : ((b.tell s.bindingGeneration (.replied items)).fresh = b.fresh) ∧
      ((b.tell s.bindingGeneration (.replied items)).flying = true →
        b.flying = true ∧ items.any (Observation.isNotice s.bindingGeneration) = false) := by
    unfold Account.tell
    by_cases hsome : items.any (Observation.isNotice s.bindingGeneration) = true
    · simp only [if_pos hsome]
      exact ⟨trivial, fun hno => by cases hno⟩
    · simp only [if_neg hsome]
      exact ⟨trivial, fun hb => ⟨hb, Bool.eq_false_iff.mpr hsome⟩⟩
  have hfit : Fit l { t.note (.replied items) with worker := sent g items purpose } := by
    refine ⟨?_, ?_, ?_, ?_, ?_, ?_⟩
    · show ∀ o ∈ t.queue, o.bindingGeneration = t.bindingGeneration
      rw [hqueue, hgeneration]
      exact h.fit.queue
    · show ∀ o ∈ t.queue, 0 ≤ o.budgetBytes
      rw [hqueue]
      exact h.fit.sized
    · show ∀ o ∈ t.losses, o.isNotice t.bindingGeneration = true
      rw [hlosses, hgeneration]
      exact h.fit.losses
    · show t.bytes = sizes t.queue
      rw [hbytes, hqueue]
      exact h.fit.bytes
    · show t.queue.length ≤ l.count
      rw [hqueue]
      exact h.fit.count
    · show t.bytes ≤ l.bytes
      rw [hbytes]
      exact h.fit.limit
  refine ⟨hfit, hcall ▸ h.call, hloaded.sent, ?_, ?_, ?_, hadmits, fun hb => ?_, fun hb => ?_,
    fun hdelivered hcurrent => ?_⟩
  · show (sent g items purpose).generation ≤ t.bindingGeneration
    rw [hgeneration]
    cases purpose with
    | losses => exact hread
    | batch => exact hread
    | held last =>
      cases items with
      | nil => exact Nat.zero_le _
      | cons => exact hread
  · show ∀ x ∈ t.held, _ ∧ x.bindingGeneration ≤ t.bindingGeneration
    rw [hheld, hgeneration]
    exact h.held
  · show ∀ x ∈ t.held, x.bindingGeneration = t.bindingGeneration →
      sent g items purpose = .idle ∨ (sent g items purpose).generation = t.bindingGeneration
    rw [hheld, hgeneration]
    intro x hx hcurrent
    have hsame := (hreached x hx hcurrent).resolve_left (by rintro ⟨⟩)
    cases purpose with
    | losses => exact Or.inr hsame
    | batch => exact Or.inr hsame
    | held last =>
      cases items with
      | nil => exact Or.inl rfl
      | cons => exact Or.inr hsame
  · rcases hb with hb | hb
    · refine hfit.pending ?_
      show t.losses ≠ []
      rw [hlosses]
      exact hfresh (htells.1 ▸ hb)
    · obtain ⟨hflying, hnone⟩ := htells.2 hb
      obtain ⟨x, hx, hnotice⟩ := h.pending (Or.inr hflying)
      refine ⟨x, ?_, ?_⟩
      · show x ∈ t.losses ++ ((sent g items purpose).lossBatch ++ t.held.toList)
        rw [hlosses, hheld]
        rcases List.mem_append.mp hx with hx | hx
        · exact List.mem_append_left _ hx
        · rcases List.mem_append.mp hx with hx | hx
          · rw [hworker] at hx
            cases purpose with
            | losses rest =>
              have hany : items.any (Observation.isNotice s.bindingGeneration) = true :=
                List.any_eq_true.mpr ⟨x, hx, hnotice⟩
              rw [hany] at hnone
              cases hnone
            | batch => cases hx
            | held => cases hx
          · exact List.mem_append_right _ (List.mem_append_right _ hx)
      · show x.isNotice t.bindingGeneration = true
        rw [hgeneration]
        exact hnotice
  · refine Or.inl ?_
    show t.losses ≠ []
    rw [hlosses]
    exact hfresh (htells.1 ▸ hb)
  · obtain ⟨o, ho, hboundary⟩ := boundary_of_isDelivered codes hdelivered
    have hsame : g = s.bindingGeneration := by
      have hcurrent' : (sent g items purpose).generation = t.bindingGeneration := hcurrent
      rw [hgeneration] at hcurrent'
      cases purpose with
      | losses => exact hcurrent'
      | batch => exact hcurrent'
      | held last =>
        cases items with
        | nil => cases ho
        | cons => exact hcurrent'
    have hany : items.any (Observation.isNotice s.bindingGeneration) = true :=
      List.any_eq_true.mpr ⟨o, ho, hsame ▸ hloaded.boundary o hboundary⟩
    rw [Bool.eq_false_iff]
    intro hno
    rw [(htells.2 hno).2] at hany
    cases hany

theorem lastOf_ne_nil (h : xs ≠ []) : lastOf maxLosses xs ≠ [] := by
  have hpos := List.length_pos_of_ne_nil h
  unfold lastOf
  rw [Ne, List.drop_eq_nil_iff]
  show ¬ xs.length ≤ xs.length - 64
  omega

/-- **The losses are restored.** -/
theorem Solvent.restores (h : Solvent l s b) {losses batch : List Observation}
    (hworker : s.worker = .restore g losses batch) (hcareful : s.worker.Careful s) :
    Goes l s b { losses.reverse.foldl State.restoreLoss s with
      losses := lastOf maxLosses (losses.reverse.foldl State.restoreLoss s).losses
      worker := .send g .batch batch } := by
  have hloaded := h.loaded
  have hread := h.read
  have hreached := h.reached
  rw [hworker] at hloaded hread hreached hcareful
  have hloop := recovered_foldl h.fit.losses losses
    (fun o ho hcurrent => by
      have hnotice := hloaded.losses o ho
      rwa [← (isNotice_iff.mp hnotice).2.2, hcurrent] at hnotice) hcareful
  revert hloop
  generalize losses.reverse.foldl State.restoreLoss s = t
  intro hloop
  have hf : Follows s { t with
      losses := lastOf maxLosses t.losses
      worker := .send g .batch batch } [] := by
    refine follows_of_subset hloop.generation ?_ (fun o policy ho => absurd ho List.not_mem_nil)
      fun o ho _ => Or.inl ?_
    · show t.trace = s.trace ++ []
      rw [hloop.trace, List.append_nil]
    · show o ∈ batch ++ t.queue
      rw [hloop.queue]
      unfold State.waiting at ho
      rw [hworker] at ho
      exact ho
  have hfit : Fit l { t with
      losses := lastOf maxLosses t.losses
      worker := .send g .batch batch } := by
    refine ⟨?_, ?_, ?_, ?_, ?_, ?_⟩
    · show ∀ o ∈ t.queue, o.bindingGeneration = t.bindingGeneration
      rw [hloop.queue, hloop.generation]
      exact h.fit.queue
    · show ∀ o ∈ t.queue, 0 ≤ o.budgetBytes
      rw [hloop.queue]
      exact h.fit.sized
    · show ∀ o ∈ lastOf maxLosses t.losses, o.isNotice t.bindingGeneration = true
      rw [hloop.generation]
      exact fun o ho => hloop.losses o (mem_lastOf ho)
    · show t.bytes = sizes t.queue
      rw [hloop.bytes, hloop.queue]
      exact h.fit.bytes
    · show t.queue.length ≤ l.count
      rw [hloop.queue]
      exact h.fit.count
    · show t.bytes ≤ l.bytes
      rw [hloop.bytes]
      exact h.fit.limit
  refine ⟨[], hf, hfit, hloop.call ▸ h.call, ⟨hloaded.batch, List.forall_mem_nil _,
    List.forall_mem_nil _⟩, ?_, ?_, ?_, h.admits hf, fun hb => ?_, fun hb => ?_,
    fun hno => by cases hno⟩
  · show g ≤ t.bindingGeneration
    rw [hloop.generation]
    exact hread
  · show ∀ x ∈ t.held, _ ∧ x.bindingGeneration ≤ t.bindingGeneration
    rw [hloop.generation]
    intro x hx
    rcases hloop.held x hx with hold | ⟨hnotice, -⟩
    · exact h.held x hold
    · have hcurrent := (isNotice_iff.mp hnotice).2.2
      exact ⟨hcurrent.symm ▸ hnotice, Nat.le_of_eq hcurrent⟩
  · show ∀ x ∈ t.held, x.bindingGeneration = t.bindingGeneration → _ ∨ g = t.bindingGeneration
    rw [hloop.generation]
    intro x hx hcurrent
    rcases hloop.held x hx with hold | ⟨-, o, ho, hsame⟩
    · exact Or.inr ((hreached x hold hcurrent).resolve_left (by rintro ⟨⟩))
    · exact Or.inr ((isNotice_iff.mp (hloaded.losses o ho)).2.2.symm.trans hsame)
  · obtain ⟨x, hx, hnotice⟩ := h.pending hb
    have hcurrent := (isNotice_iff.mp hnotice).2.2
    rw [hworker] at hx
    have hwaits (hsome : t.losses ≠ []) : Pending { t with
        losses := lastOf maxLosses t.losses
        worker := .send g .batch batch } := hfit.pending (lastOf_ne_nil hsome)
    have hholds {y : Observation} (hy : y ∈ t.held) (hsame : y.bindingGeneration = s.bindingGeneration)
        (hkind : y.isNotice y.bindingGeneration = true) : Pending { t with
        losses := lastOf maxLosses t.losses
        worker := .send g .batch batch } := by
      refine ⟨y, List.mem_append_right _ (List.mem_append_right _ ?_), ?_⟩
      · exact Option.mem_toList.mpr hy
      · show y.isNotice t.bindingGeneration = true
        rw [hloop.generation, ← hsame]
        exact hkind
    have hheld {y : Observation} (hy : y ∈ t.held) : y.isNotice y.bindingGeneration = true := by
      rcases hloop.held y hy with hold | ⟨hnew, -⟩
      · exact (h.held y hold).1
      · exact (isNotice_iff.mp hnew).2.2.symm ▸ hnew
    rcases List.mem_append.mp hx with hx | hx
    · exact hwaits (hloop.more (List.ne_nil_of_mem hx))
    · rcases List.mem_append.mp hx with hx | hx
      · rcases hloop.covered ⟨x, hx, hcurrent⟩ with hsome | ⟨y, hy, hsame⟩
        · exact hwaits hsome
        · exact hholds hy hsame (hheld hy)
      · have hin := hloop.kept x (Option.mem_toList.mp hx)
        exact hholds hin hcurrent (hheld hin)
  · have hsome := h.fresh hb
    rw [hworker] at hsome
    rcases hsome with hsome | ⟨hno, -⟩
    · exact Or.inl (lastOf_ne_nil (hloop.more hsome))
    · exact absurd rfl hno

/-- **A batch is requeued.** -/
theorem Solvent.requeues (h : Solvent l s b) {batch : List Observation}
    (hworker : s.worker = .requeue g batch) :
    Goes l s b { batch.reverse.foldl (State.putBack l) s with worker := .policy g } := by
  have hloaded := h.loaded
  have hread := h.read
  have hreached := h.reached
  rw [hworker] at hloaded hread hreached
  obtain ⟨hfit, es, hmoves⟩ := moves_requeue h.fit batch fun o ho => (hloaded.batch o ho).2
  have hcall : (batch.reverse.foldl (State.putBack l) s).call = s.call :=
    foldl_keeps (I := fun t => t.call = s.call)
      (fun t o _ ht => (held_putBack l t o).2.trans ht) rfl
  revert hfit hmoves hcall
  generalize batch.reverse.foldl (State.putBack l) s = t
  intro hfit hmoves hcall
  have hlives {u : Option ℕ} (hu : Among t.queue u) : Lives { t with worker := .policy g } u := by
    obtain ⟨x, hx, hsame⟩ := hu
    exact ⟨x, hx, hsame, hfit.queue x hx⟩
  have hf : Follows s { t with worker := .policy g } es := by
    refine ⟨hmoves.generation, hmoves.trace, fun x hx hcurrent => ?_, fun x policy hx => ?_⟩
    · unfold State.waiting at hx
      rw [hworker] at hx
      rcases List.mem_append.mp hx with hx | hx
      · exact (hmoves.fate x.updateId (Or.inr (Or.inl ⟨x, hx, hcurrent, rfl⟩))).imp_left hlives
      · exact (hmoves.fate x.updateId (Or.inl ⟨x, hx, rfl⟩)).imp_left hlives
    · exact (hmoves.fate x.updateId (Or.inr (Or.inr ⟨x, policy, hx, rfl⟩))).imp_left hlives
  have hfit' : Fit l { t with worker := .policy g } :=
    ⟨hfit.queue, hfit.sized, hfit.losses, hfit.bytes, hfit.count, hfit.limit⟩
  obtain ⟨hflying, hfresh⟩ := foldl_tell_inner hmoves.inner b
  have hloses (hb : (es.foldl (Account.tell s.bindingGeneration) b).fresh = true) :
      t.losses ≠ [] := by
    rcases hfresh hb with hb | hlost
    · have hsome := h.fresh hb
      rw [hworker] at hsome
      rcases hsome with hsome | ⟨hno, -⟩
      · exact hmoves.losses (Or.inl hsome)
      · exact absurd rfl hno
    · exact hmoves.losses (Or.inr hlost)
  refine ⟨es, hf, hfit', hcall ▸ h.call, .empty rfl rfl rfl, ?_, ?_, ?_, h.admits hf, ?_,
    fun hb => Or.inl (hloses hb), fun hno => by cases hno⟩
  · show g ≤ t.bindingGeneration
    rw [hmoves.generation]
    exact hread
  · show ∀ x ∈ t.held, _ ∧ x.bindingGeneration ≤ t.bindingGeneration
    rw [hmoves.held, hmoves.generation]
    exact h.held
  · show ∀ x ∈ t.held, x.bindingGeneration = t.bindingGeneration → _ ∨ g = t.bindingGeneration
    rw [hmoves.held, hmoves.generation]
    exact fun x hx hcurrent => Or.inr ((hreached x hx hcurrent).resolve_left (by rintro ⟨⟩))
  · rintro (hb | hb)
    · exact hfit'.pending (hloses hb)
    · obtain ⟨x, hx, hnotice⟩ := h.pending (Or.inr (hflying ▸ hb))
      rw [hworker] at hx
      rcases List.mem_append.mp hx with hx | hx
      · exact hfit'.pending (hmoves.losses (Or.inl (List.ne_nil_of_mem hx)))
      · refine ⟨x, List.mem_append_right _ ?_, ?_⟩
        · show x ∈ [] ++ t.held.toList
          rw [hmoves.held]
          exact hx
        · show x.isNotice t.bindingGeneration = true
          rw [hmoves.generation]
          exact hnotice

/-- **The worker lets go of the held notice**: it is of another generation, or has been delivered. -/
theorem Solvent.releases (h : Solvent l s b) (hg : s.worker.generation = g)
    (hbatch : s.worker.batch = []) (hlosses : s.worker.lossBatch = [])
    (huntried : s.worker.untried = []) {last : Bool}
    (hdone : ∀ x ∈ s.held, x.bindingGeneration = s.bindingGeneration → b.flying = false) :
    Goes l s b { s with held := none, worker := if last then .idle else .policy g } := by
  have hread := h.read
  rw [hg] at hread
  have hf : Follows s { s with held := none, worker := if last then .idle else .policy g } [] := by
    refine follows_of_subset rfl (List.append_nil _).symm
      (fun o policy ho => absurd ho List.not_mem_nil) fun o ho _ => Or.inl ?_
    unfold State.waiting at ho
    rw [hbatch] at ho
    exact List.mem_append_right _ ho
  have hfit : Fit l { s with held := none, worker := if last then .idle else .policy g } :=
    ⟨h.fit.queue, h.fit.sized, h.fit.losses, h.fit.bytes, h.fit.count, h.fit.limit⟩
  have hloses (hb : b.fresh = true) : s.losses ≠ [] :=
    (h.fresh hb).resolve_right fun hno => hno.1 huntried
  refine ⟨[], hf, hfit, h.call, ?_, ?_, ?_, ?_, h.admits hf,
    ?_, fun hb => Or.inl (hloses hb), ?_⟩
  · cases last <;> exact .empty rfl rfl rfl
  · cases last with
    | true => exact Nat.zero_le _
    | false => exact hread
  · intro x hx
    cases hx
  · intro x hx
    cases hx
  · rintro (hb | hb)
    · exact hfit.pending (hloses hb)
    · obtain ⟨x, hx, hnotice⟩ := h.pending (Or.inr hb)
      rw [hlosses] at hx
      rcases List.mem_append.mp hx with hx | hx
      · exact ⟨x, List.mem_append_left _ hx, hnotice⟩
      · have hflying := hdone x (Option.mem_toList.mp hx) (isNotice_iff.mp hnotice).2.2
        have hb' : b.flying = true := hb
        rw [hflying] at hb'
        cases hb'
  · intro hno
    cases last <;> cases hno

/-- The exchange of a frame has failed. -/
theorem Loaded.retry (h : Loaded (.exchange g purpose items)) : Loaded (retry g items purpose) := by
  cases purpose with
  | losses rest => exact ⟨h.batch, h.losses, List.forall_mem_nil _⟩
  | batch => exact ⟨h.batch, List.forall_mem_nil _,
      List.forall_mem_nil _⟩
  | held last => cases last <;> exact .empty rfl rfl rfl

theorem Solvent.fails (h : Solvent l s b) (hworker : s.worker = .exchange g purpose items)
    (hes : ∀ e ∈ es, e.isQuiet = true) :
    Goes l s b { s with trace := s.trace ++ es, worker := retry g items purpose } := by
  have hloaded := h.loaded
  have hread := h.read
  rw [hworker] at hloaded hread
  refine h.turns hes rfl rfl rfl rfl rfl rfl rfl hloaded.retry ?_ ?_ ?_ ?_ ?_ ?_
  · cases purpose with
    | losses => exact hread
    | batch => exact hread
    | held last =>
      cases last with
      | true => exact Nat.zero_le _
      | false => exact hread
  · rw [hworker]
    cases purpose with
    | losses => exact Or.inr (Or.inr ⟨by rintro ⟨⟩, rfl⟩)
    | batch => exact Or.inr (Or.inr ⟨by rintro ⟨⟩, rfl⟩)
    | held last =>
      cases last with
      | true => exact Or.inl rfl
      | false => exact Or.inr (Or.inr ⟨by rintro ⟨⟩, rfl⟩)
  · rw [hworker]
    intro o ho _
    cases purpose with
    | losses => exact ho
    | batch => exact ho
    | held => cases ho
  · rw [hworker]
    intro o ho _
    cases purpose with
    | losses => exact ho
    | batch => cases ho
    | held => cases ho
  · rw [hworker]
    exact fun hno => absurd rfl hno
  · cases purpose with
    | losses => rfl
    | batch => rfl
    | held last => cases last <;> rfl

/-- **A step of the worker.** -/
theorem Solvent.work (h : Solvent l s b) (reply : Reply) (hcareful : s.worker.Careful s) :
    Goes l s b (s.work l reply) := by
  have hloaded := h.loaded
  have hread := h.read
  have hlanded := h.landed
  unfold State.work
  split
  · next hworker =>
    exact h.rests (by rw [hworker]; rfl) (by rw [hworker]; rfl) (by rw [hworker]; rfl) rfl rfl rfl rfl
      rfl rfl rfl (.empty rfl rfl rfl) rfl (Or.inr (Or.inl rfl))
  · next generation hworker => exact h.takes hworker hcareful
  · next generation purpose items hworker =>
    by_cases hnil : items = []
    · rw [if_pos hnil]
      exact h.drops (Or.inl hworker) (Or.inl hnil) rfl rfl rfl rfl rfl rfl rfl rfl
    rw [if_neg hnil]
    by_cases hstale : generation ≠ s.bindingGeneration
    · rw [if_pos hstale]
      exact h.drops (Or.inl hworker) (Or.inr (Or.inl hstale)) rfl rfl rfl rfl rfl rfl rfl rfl
    rw [if_neg hstale]
    rw [hworker] at hloaded hread
    refine h.turns no_quiet (List.append_nil _).symm rfl rfl rfl rfl rfl rfl
      (hloaded.place ?_ ?_ ?_ rfl) hread (Or.inr (Or.inl (not_not.mp hstale))) ?_ ?_ ?_ rfl
    · cases purpose <;> rfl
    · cases purpose <;> rfl
    · cases purpose <;> rfl
    · rw [hworker]
      cases purpose <;> exact fun o ho _ => ho
    · rw [hworker]
      cases purpose <;> exact fun o ho _ => ho
    · rw [hworker]
      cases purpose <;> exact fun hsome hcurrent => ⟨hsome, hcurrent⟩
  · next generation purpose items hworker =>
    by_cases hsafe : s.destinationSafe = true
    · rw [if_pos hsafe]
      exact h.tries hworker
    rw [if_neg hsafe]
    refine h.drops (Or.inr hworker) ?_ rfl rfl rfl rfl rfl rfl rfl rfl
    rw [hworker] at hcareful
    cases purpose with
    | losses => exact Or.inr (Or.inl (hcareful.resolve_left hsafe))
    | batch => exact Or.inr (Or.inl (hcareful.resolve_left hsafe))
    | held last => exact Or.inr (Or.inr ⟨last, rfl⟩)
  · next generation purpose items hworker =>
    have hwritten : ∀ e ∈ [Event.sent generation s.bindingGeneration s.socket items],
        e.isQuiet = true := by
      intro e he
      rw [List.mem_singleton.mp he]
      rfl
    cases reply with
    | unsent =>
      have hfails := h.fails hworker no_quiet
      rwa [List.append_nil] at hfails
    | lost => exact h.fails hworker hwritten
    | codes codes =>
      rw [hworker] at hloaded hread
      refine h.turns hwritten rfl rfl rfl rfl rfl rfl rfl (hloaded.place ?_ ?_ ?_ rfl) hread
        (Or.inr (Or.inr ⟨by rw [hworker]; rintro ⟨⟩, by rw [hworker]; rfl⟩)) ?_ ?_ ?_ rfl
      · cases purpose <;> rfl
      · cases purpose <;> rfl
      · cases purpose <;> rfl
      · rw [hworker]
        cases purpose <;> exact fun o ho _ => ho
      · rw [hworker]
        cases purpose <;> exact fun o ho _ => ho
      · rw [hworker]
        exact fun hno => absurd rfl hno
  · next generation purpose items codes hworker => exact h.replies hworker
  · next generation losses batch hworker => exact h.restores hworker hcareful
  · next generation batch hworker => exact h.requeues hworker
  · next generation last hworker =>
    split
    · next hnone =>
      exact h.leaves (by rw [hworker]; rintro ⟨⟩) (by rw [hworker]; rfl) (by rw [hworker]; rfl)
        (by rw [hworker]; rfl) (by rw [hworker]; rfl) last
    · next notice hheld =>
      split
      · next hstale =>
        refine h.releases (by rw [hworker]; rfl) (by rw [hworker]; rfl) (by rw [hworker]; rfl)
          (by rw [hworker]; rfl) fun x hx hcurrent => ?_
        have hsame := h.reached x hx hcurrent
        rw [hworker] at hsame
        rw [hheld] at hx
        cases hx
        exact absurd (hcurrent.trans (hsame.resolve_left (by rintro ⟨⟩)).symm) hstale
      · next hsame =>
        rw [hworker] at hread
        refine h.rests (by rw [hworker]; rfl) (by rw [hworker]; rfl) (by rw [hworker]; rfl) rfl rfl rfl
          rfl rfl rfl rfl ⟨List.forall_mem_nil _,
            List.forall_mem_nil _, fun o ho => ?_⟩ rfl
          (Or.inr (Or.inr ⟨by rw [hworker]; rintro ⟨⟩, by rw [hworker]; rfl⟩))
        rw [List.mem_singleton.mp ho]
        exact not_not.mp hsame ▸ (h.held notice hheld).1
  · next generation notice last hworker =>
    have hstays : Goes l s b { s with worker := if last then .idle else .policy generation } :=
      h.leaves (by rw [hworker]; rintro ⟨⟩) (by rw [hworker]; rfl) (by rw [hworker]; rfl)
        (by rw [hworker]; rfl) (by rw [hworker]; rfl) last
    split
    · next held hheld =>
      by_cases hsame : held.bindingGeneration = generation ∧ held.sequence = notice.sequence ∧
          held.reason = notice.reason
      · rw [if_pos hsame]
        refine h.releases (by rw [hworker]; rfl) (by rw [hworker]; rfl) (by rw [hworker]; rfl)
          (by rw [hworker]; rfl) fun x hx hcurrent => ?_
        rw [hheld] at hx
        cases hx
        rw [hworker] at hlanded
        exact hlanded rfl (hsame.1.symm.trans hcurrent)
      · rw [if_neg hsame, ← hheld]
        exact hstays
    · next hnone =>
      rw [← hnone]
      exact hstays
  · next generation hworker =>
    refine h.rests (by rw [hworker]; rfl) (by rw [hworker]; rfl) (by rw [hworker]; rfl) rfl rfl rfl rfl
      rfl rfl rfl ?_ ?_ ?_
    · cases s.policyExchangeOk <;> exact .empty rfl rfl rfl
    · cases s.policyExchangeOk <;> rfl
    · rw [hworker]
      cases s.policyExchangeOk with
      | true => exact Or.inr (Or.inr ⟨by rintro ⟨⟩, rfl⟩)
      | false => exact Or.inl rfl

/-! ## Runs -/

/-- **A step of the call.** -/
theorem Solvent.tryAdmit (h : Solvent l s b) {now : ℕ} {contended : Bool}
    (hcareful : Careful l s (.tryAdmit now contended)) : Goes l s b (s.tryAdmit l now contended) := by
  unfold State.tryAdmit
  split
  · exact h.aside no_quiet (List.append_nil _).symm rfl rfl rfl rfl rfl rfl h.call
  · refine h.aside no_quiet (List.append_nil _).symm rfl rfl rfl rfl rfl rfl ?_
    rintro x hx
    split_ifs at hx <;> cases hx
    trivial
  · refine h.aside no_quiet (List.append_nil _).symm rfl rfl rfl rfl rfl rfl ?_
    rintro x hx
    dsimp only at hx
    split_ifs at hx <;> cases hx
    exact Int.natCast_nonneg _
  · next o hcall =>
    refine h.aside no_quiet (List.append_nil _).symm rfl rfl rfl rfl rfl rfl ?_
    rintro x hx
    dsimp only at hx
    split_ifs at hx <;> cases hx
    have hsized : (Call.stamped o).Sized := h.call _ hcall
    exact hsized
  · next o policy hcall =>
    split
    · refine h.aside no_quiet (List.append_nil _).symm rfl rfl rfl rfl rfl rfl ?_
      rintro x ⟨⟩
    · next hfree =>
      have hsized : (Call.allowed o policy).Sized := h.call _ hcall
      obtain ⟨ho, hroom⟩ : (Call.allowed o policy).Careful l s :=
        hcareful (Bool.eq_false_iff.mpr hfree) _ hcall
      have hclear : Solvent l { s with captureSeq := s.captureSeq + 1, call := none } b :=
        ⟨⟨h.fit.queue, h.fit.sized, h.fit.losses, h.fit.bytes, h.fit.count, h.fit.limit⟩,
          fun x hx => by (cases hx), h.loaded, h.read, h.held, h.reached, h.admitted, h.pending,
          h.fresh, h.landed⟩
      obtain ⟨es, hf, hsolvent⟩ := hclear.enters ho hsized hroom policy hclear.call
      exact ⟨es, ⟨hf.generation, hf.trace, hf.fate, hf.admitted⟩, hsolvent⟩

/-- **A new generation starts with an empty queue**, and a new account. -/
theorem Solvent.renews (h : Solvent l s b) (hqueue : s'.queue = []) (hlosses : s'.losses = [])
    (hbytes : s'.bytes = 0) (hheld : ∀ x ∈ s'.held, x ∈ s.held) (hcall : s'.call = s.call)
    (hworker : s'.worker = s.worker)
    (hgeneration : s'.bindingGeneration = s.bindingGeneration + 1) : Solvent l s' {} := by
  have hread := h.read
  refine ⟨⟨?_, ?_, ?_, ?_, ?_, ?_⟩, hcall ▸ h.call, hworker ▸ h.loaded, ?_, ?_, ?_,
    List.forall_mem_nil _, ?_, (fun hno => by cases hno), fun _ _ => rfl⟩
  · rw [hqueue]
    exact List.forall_mem_nil _
  · rw [hqueue]
    exact List.forall_mem_nil _
  · rw [hlosses]
    exact List.forall_mem_nil _
  · rw [hbytes, hqueue]
    rfl
  · rw [hqueue]
    exact Nat.zero_le _
  · rw [hbytes]
    exact Int.natCast_nonneg _
  · rw [hworker, hgeneration]
    omega
  · intro x hx
    obtain ⟨hnotice, hle⟩ := h.held x (hheld x hx)
    exact ⟨hnotice, by rw [hgeneration]; omega⟩
  · intro x hx hcurrent
    have hle := (h.held x (hheld x hx)).2
    rw [hgeneration] at hcurrent
    omega
  · rintro (hno | hno) <;> cases hno

theorem books_step_of_goes {l : Limits} {b : Books} {a : Action}
    (h : Goes l b.state b.account (Native.step l b.state a)) :
    Solvent l (b.step l a).state (b.step l a).account := by
  obtain ⟨es, hf, hsolvent⟩ := h
  have haccount : (b.step l a).account =
      es.foldl (Account.tell b.state.bindingGeneration) b.account := by
    unfold Books.step
    dsimp only
    rw [if_pos hf.generation, hf.told, hf.vanishes, hf.generation]
    rfl
  rw [haccount]
  exact hsolvent

/-- **A careful step keeps the invariant.** -/
theorem solvent_step {b : Books} (h : Solvent l b.state b.account) (a : Action)
    (hcareful : Careful l b.state a) : Solvent l (b.step l a).state (b.step l a).account := by
  have hrenews {a : Action}
      (hgeneration : (Native.step l b.state a).bindingGeneration = b.state.bindingGeneration + 1)
      (hnext : Solvent l (Native.step l b.state a) {}) :
      Solvent l (b.step l a).state (b.step l a).account := by
    have haccount : (b.step l a).account = {} := by
      unfold Books.step
      dsimp only
      rw [if_neg (by rw [hgeneration]; omega)]
    rw [haccount]
    exact hnext
  cases a with
  | call draft =>
    refine books_step_of_goes ?_
    show Goes l b.state b.account (if _ then b.state.begin draft else b.state)
    split_ifs
    · have htrace : (b.state.begin draft).trace =
          b.state.trace ++ [.began (b.state.issued + 1) b.state.bindingGeneration] := rfl
      refine h.aside ?_ htrace rfl rfl rfl rfl rfl rfl ?_
      · intro e he
        rw [List.mem_singleton.mp he]
        rfl
      · rintro x ⟨⟩
        trivial
    · exact h.aside no_quiet (List.append_nil _).symm rfl rfl rfl rfl rfl rfl h.call
  | token | poll | refresh =>
    exact books_step_of_goes
      (h.aside no_quiet (List.append_nil _).symm rfl rfl rfl rfl rfl rfl h.call)
  | tryAdmit now contended => exact books_step_of_goes (h.tryAdmit hcareful)
  | work reply => exact books_step_of_goes (h.work reply hcareful)
  | polled index answer now =>
    refine books_step_of_goes ?_
    show Goes l b.state b.account (b.state.polled index answer now)
    unfold State.polled
    split
    · exact h.aside no_quiet (List.append_nil _).symm rfl rfl rfl rfl rfl rfl h.call
    · dsimp only
      split_ifs
      · exact h.aside no_quiet (List.append_nil _).symm rfl rfl rfl rfl rfl rfl h.call
      · cases answer <;>
          exact h.aside no_quiet (List.append_nil _).symm rfl rfl rfl rfl rfl rfl h.call
  | abandon => exact hrenews rfl (h.renews rfl rfl rfl (by rintro x ⟨⟩) rfl rfl rfl)
  | retarget socket => exact hrenews rfl (h.renews rfl rfl rfl (fun _ hx => hx) rfl rfl rfl)

theorem solvent_created (l : Limits) : Solvent l {} {} where
  fit := ⟨List.forall_mem_nil _, List.forall_mem_nil _,
    List.forall_mem_nil _, rfl, Nat.zero_le _, Int.natCast_nonneg _⟩
  call := by rintro x ⟨⟩
  loaded := .empty rfl rfl rfl
  read := Nat.zero_le _
  held := by rintro x ⟨⟩
  reached := by rintro x ⟨⟩
  admitted _ hu := absurd hu List.not_mem_nil
  pending := by rintro (hno | hno) <;> cases hno
  fresh hno := by cases hno
  landed hno := by cases hno

/-- **Nothing is lost silently.**  In every run whose steps are careful, what has been admitted while
the generation lives waits, has been in a frame with a reply or is a remembered loss; a drop that no
accepted notice covers has a notice that is pending; and the queue is within its bounds. -/
theorem losses_told (l : Limits) (acts : List Action)
    (hcareful : Runs.Along (Books.step l) (fun b a => Careful l b.state a) {} acts) :
    Conserved l (Runs.run (Books.step l) {} acts) :=
  (Runs.run_invariant_along (I := fun b : Books => Solvent l b.state b.account)
    (fun _ a hc h => solvent_step h a hc) (solvent_created l) hcareful).conserved

instance decidableCallCareful (l : Limits) (s : State) : ∀ x : Call, Decidable (x.Careful l s)
  | .allowed o _ => inferInstanceAs (Decidable (_ ∧ (_ → _ →
      ∀ index ∈ s.queue.findIdx? isLow, ∀ old ∈ s.queue[index]?,
        s.bytes - old.budgetBytes + o.budgetBytes ≤ l.bytes)))
  | .begun _ | .safe _ | .stamped _ => .isTrue trivial

instance decidableWorkerCareful (s : State) : ∀ w : Worker, Decidable (w.Careful s)
  | .stamped _ => inferInstanceAs (Decidable (_ ∨ _ ∧ _))
  | .current _ (.losses _) _ | .current _ .batch _ => inferInstanceAs (Decidable (_ ∨ _))
  | .restore _ losses _ => inferInstanceAs (Decidable (∀ h ∈ s.held,
      h.bindingGeneration = s.bindingGeneration ∨
        ∀ o ∈ losses, o.bindingGeneration = s.bindingGeneration → o.retries < maxRetries))
  | .idle | .send .. | .current _ (.held _) _ | .exchange .. | .answered .. | .requeue ..
  | .deliver .. | .delivered .. | .policy _ => .isTrue trivial

instance decidableCareful (l : Limits) (s : State) : ∀ a, Decidable (Careful l s a)
  | .tryAdmit _ _ => inferInstanceAs (Decidable (_ → ∀ x ∈ s.call, x.Careful l s))
  | .work _ => inferInstanceAs (Decidable (s.worker.Careful s))
  | .call _ | .token | .poll | .polled .. | .refresh _ | .abandon | .retarget _ => .isTrue trivial

/-- The queue takes one of two commits, and the frame with the notice of the other is answered. -/
def saturatedActions : List Action :=
  polledActions ++ admittedActions sampleCommit ++ admittedActions sampleCommit ++
    [.work .unsent, .work .unsent, .work .unsent, .work .unsent,
      .work (.codes (some [ascii "admitted"])), .work .unsent]

/-- `losses_told` in that run, whose notice has been replied to. -/
theorem losses_told_sample :
    (Runs.run (Books.step { count := 1 }) {} saturatedActions).account =
        { admitted := [some 1], fresh := false, flying := false } ∧
      Conserved { count := 1 } (Runs.run (Books.step { count := 1 }) {} saturatedActions) :=
  ⟨by decide +kernel, losses_told { count := 1 } _ (by decide +kernel)⟩

/-- The destination becomes unsafe after a batch has been taken. -/
def unsafeActions : List Action :=
  polledActions ++ admittedActions sampleCommit ++
    [.work .unsent, .work .unsent, .work .unsent, .work .unsent, .refresh false, .work .unsent]

/-- **A batch is lost silently**: the destination is unsafe when it is to be sent. -/
theorem losses_told_unsafe :
    ¬ ∀ (l : Limits) (acts : List Action), Conserved l (Runs.run (Books.step l) {} acts) := by
  intro hall
  have haccounted := (hall {} unsafeActions).admitted (some 1) (by decide +kernel)
  have hnone : (Runs.run (Books.step {}) {} unsafeActions).state.waiting = [] ∧
      ∀ e ∈ (Runs.run (Books.step {}) {} unsafeActions).state.trace, e.settles (some 1) = false := by
    decide +kernel
  rcases haccounted with ⟨o, ho, -⟩ | ⟨e, he, hsettles⟩
  · rw [hnone.1] at ho
    cases ho
  · rw [hnone.2 e he] at hsettles
    cases hsettles

end Native
end SemanticMemory
