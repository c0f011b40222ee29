import SemanticMemory.Native.Steps

/-!
# Attempts

A batch whose exchange fails is put back into the queue, taken again and sent again, and so is a
notice of a loss.

* `Same` is the claim: within a generation the frames that are written show every observation in one
  form, and a retraction is tried in one form.
* `Steady` is the condition.  A requeued retraction is resolved again, but its receipt has been used
  up; and the notice of a loss takes the number of the observation that is lost, also if a frame with
  this observation has been written.
* `Stable` is the invariant: an observation is in one place (`State.tally`), and whatever is in a
  place looks like what was written under its number.
-/

namespace SemanticMemory
namespace Native

variable {l : Limits} {s s' : State} {o x : Observation} {reply : Reply} {n g : ℕ}

/-! ## The claim -/

/-- What a frame that is written in a generation shows. -/
def Event.written (generation : ℕ) : Event → List Observation
  | .sent g _ _ items => if g = generation then items else []
  | _ => []

/-- What a frame that is serialized in a generation shows. -/
def Event.serialized (generation : ℕ) : Event → List Observation
  | .tried g items => if g = generation then items else []
  | _ => []

/-- The observations in the frames that have been written in a generation. -/
def State.frames (s : State) (generation : ℕ) : List Observation :=
  s.trace.flatMap (Event.written generation)

/-- The observations in the frames that have been tried in a generation. -/
def State.tries (s : State) (generation : ℕ) : List Observation :=
  s.trace.flatMap (Event.serialized generation)

/-- **A retried observation is the same observation.** -/
structure Same (s : State) : Prop where
  /-- All frames that are written in a generation show an observation in one form. -/
  frames : ∀ g, ∀ o ∈ s.frames g, ∀ o' ∈ s.frames g, o.sequence = o'.sequence →
    o.serialized = o'.serialized
  /-- A retraction has the same content in every attempt, whether the frame is written or not. -/
  retractions : ∀ g, ∀ o ∈ s.tries g, ∀ o' ∈ s.tries g, o.dependency ≠ none →
    o'.dependency ≠ none → o.sequence = o'.sequence → o.serialized = o'.serialized

/-- A retraction that stays what it is when it is resolved without a receipt. -/
def Spent (o : Observation) : Prop :=
  o.dependency ≠ none →
    (o.exclude (ascii "retraction_commit_unknown")).serialized = o.serialized

/-- No frame with the observation has been written in this generation. -/
def Unsent (s : State) (o : Observation) : Prop :=
  ∀ x ∈ s.frames s.bindingGeneration, x.sequence ≠ o.sequence

/-- `Requeue` has room for an item, and the item has a retry left. -/
def Room (l : Limits) (s : State) (o : Observation) : Prop :=
  o.retries < maxRetries ∧ s.queue.length + 1 ≤ l.count ∧ s.bytes + o.budgetBytes ≤ l.bytes

/-- The items of a batch may be requeued, the last one first: what is put back is spent, and what is
lost has not been written. -/
def Returns (l : Limits) (s : State) : List Observation → Prop
  | [] => True
  | o :: items => Returns l s items ∧ (o.bindingGeneration = s.bindingGeneration →
      (Room l (items.reverse.foldl (State.putBack l) s) o → Spent o) ∧
      (¬ Room l (items.reverse.foldl (State.putBack l) s) o → Unsent s o))

/-- **The condition on a step**: what gives way to an observation of high priority has not been
written, and the batch that is requeued may be. -/
def Steady (l : Limits) (s : State) : Action → Prop
  | .tryAdmit _ contended => ∀ o policy, s.call = some (.allowed o policy) → contended = false →
      s.fits l o.budgetBytes = false → o.isHigh = true →
        ∀ index ∈ s.queue.findIdx? isLow, ∀ old ∈ s.queue[index]?, Unsent s old
  | .work _ => ∀ generation batch, s.worker = .requeue generation batch → Returns l s batch
  | _ => True

/-! ## Places -/

/-- How many of a list have a number. -/
def count (n : ℕ) (xs : List Observation) : ℕ := (xs.map Observation.sequence).count n

@[simp] theorem count_nil : count n [] = 0 := rfl

@[simp] theorem count_append (xs ys : List Observation) :
    count n (xs ++ ys) = count n xs + count n ys := by
  unfold count
  rw [List.map_append, List.count_append]

theorem count_cons (x : Observation) (xs : List Observation) :
    count n (x :: xs) = count n [x] + count n xs := count_append [x] xs

variable {xs : List Observation}

theorem count_pos (h : x ∈ xs) : 0 < count x.sequence xs :=
  List.count_pos_iff.mpr (List.mem_map.mpr ⟨x, h, rfl⟩)

theorem count_le {xs ys : List Observation} (h : xs.Sublist ys) : count n xs ≤ count n ys :=
  (h.map _).count_le n

theorem count_congr {xs ys : List Observation}
    (h : xs.map Observation.sequence = ys.map Observation.sequence) : count n xs = count n ys :=
  congrArg (List.count n) h

/-- A number that occurs once has one observation. -/
theorem eq_of_count {x y : Observation} (hx : x ∈ xs) (hy : y ∈ xs)
    (hsequence : x.sequence = y.sequence) (hcount : count x.sequence xs ≤ 1) : x = y := by
  induction xs with
  | nil => exact absurd hx List.not_mem_nil
  | cons z xs ih =>
    rw [count_cons] at hcount
    rcases List.mem_cons.mp hx with rfl | hx
    · rcases List.mem_cons.mp hy with rfl | hy
      · rfl
      · have hself := count_pos (List.mem_singleton_self x)
        have hother := count_pos hy
        rw [← hsequence] at hother
        omega
    · have hself := count_pos hx
      rcases List.mem_cons.mp hy with rfl | hy
      · have hother := count_pos (List.mem_singleton_self y)
        rw [← hsequence] at hother
        omega
      · exact ih hx hy (by omega)

/-- What the worker has in hand, but for the held notice. -/
def Worker.load : Worker → List Observation
  | .send _ (.losses rest) items | .current _ (.losses rest) items
  | .exchange _ (.losses rest) items => items ++ rest
  | .answered _ (.losses rest) _ _ => rest
  | .send _ .batch items | .current _ .batch items | .exchange _ .batch items => items
  | .restore _ losses rest => losses ++ rest
  | .requeue _ items => items
  | _ => []

def Worker.notice : Worker → List Observation
  | .send _ (.held _) items | .current _ (.held _) items | .exchange _ (.held _) items
  | .answered _ (.held _) items _ => items
  | .delivered _ notice _ => [notice]
  | _ => []

/-- The held notice, on its way or not. -/
def State.boundary (s : State) : List Observation :=
  if s.worker.notice = [] then s.held.toList else s.worker.notice

/-- What waits or is called for has a number so many times. -/
def State.rest (s : State) (n : ℕ) : ℕ :=
  count n (s.call.map Call.observation).toList + count n s.queue + count n s.losses

/-- **How many places** hold an observation with a number. -/
def State.tally (s : State) (n : ℕ) : ℕ := s.rest n + count n s.worker.load + count n s.boundary

/-! ## The invariant -/

/-- An observation looks like what has been written, and tried, under its number in a generation. -/
structure Past (s : State) (generation : ℕ) (x : Observation) : Prop where
  frames : ∀ o ∈ s.frames generation, o.sequence = x.sequence → o.serialized = x.serialized
  tries : x.dependency ≠ none → ∀ o ∈ s.tries generation, o.dependency ≠ none →
    o.sequence = x.sequence → o.serialized = x.serialized

/-- An observation of the queue.  If it has been tried, then its receipt is gone, and it does not
change any more. -/
structure Waits (s : State) (x : Observation) : Prop where
  past : Past s s.bindingGeneration x
  tried : (∃ o ∈ s.tries s.bindingGeneration, o.sequence = x.sequence) → Spent x ∧
    ∀ u ∈ x.dependency, ∀ r ∈ s.receipts, r.updateId ≠ u

/-- A notice of a loss: it depends on nothing, and has its reason. -/
structure Notice (x : Observation) : Prop where
  dependency : x.dependency = none
  reason : x.reason ≠ []

def Worker.lost : Worker → List Observation
  | .send _ (.losses _) items | .current _ (.losses _) items | .exchange _ (.losses _) items => items
  | .restore _ losses _ => losses
  | w => w.notice

/-- What the worker has in hand since it has found its generation current. -/
def Worker.found : Worker → List Observation
  | .current _ _ items | .exchange _ _ items => items
  | .restore _ losses _ => losses
  | .requeue _ items => items
  | _ => []

/-- The frame whose exchange is tried. -/
def Worker.trying : Worker → List Observation
  | .exchange _ _ items => items
  | _ => []

def Worker.started : Worker → Option (List Observation)
  | .current _ _ items | .exchange _ _ items => some items
  | _ => none

/-- What the worker has in hand. -/
structure Carries (s : State) (w : Worker) : Prop where
  read : w.generation ≤ s.bindingGeneration
  lost : ∀ x ∈ w.lost, Notice x
  earlier : ∀ x ∈ w.load ++ w.notice, x.bindingGeneration ≤ s.bindingGeneration
  past : w.generation = s.bindingGeneration → ∀ x ∈ w.load, Past s w.generation x
  found : ∀ x ∈ w.found, Past s w.generation x ∧ x.bindingGeneration ≤ w.generation
  notice : ∀ x ∈ w.notice, Past s w.generation x
  gone : ∀ x ∈ w.load, ∀ u ∈ x.dependency, ∀ r ∈ s.receipts, r.updateId ≠ u
  /-- The held notice on its way is the held one, unless that has been dropped. -/
  held : w.notice ≠ [] → ∀ h ∈ s.held, w.notice = [h]
  tried : w.trying ⊆ s.tries w.generation
  full : w.started ≠ some []

/-- **The invariant.** -/
structure Stable (s : State) : Prop where
  tally : ∀ n, s.tally n ≤ 1
  issued : ∀ n, s.issued < n → s.tally n = 0
  tried : ∀ g, ∀ o ∈ s.tries g, o.sequence ≤ s.issued
  written : ∀ g, s.frames g ⊆ s.tries g
  /-- What is called for has not been tried, and is younger than what is named. -/
  call : ∀ c ∈ s.call, c.observation.updateId = some c.observation.sequence ∧
    (∀ g, ∀ o ∈ s.tries g, o.sequence ≠ c.observation.sequence) ∧
    ∀ x ∈ s.queue ++ s.worker.load, ∀ u ∈ x.dependency, u < c.observation.sequence
  named : ∀ x ∈ (s.call.map Call.observation).toList ++ (s.queue ++ s.worker.load),
    ∀ u ∈ x.dependency, u ≤ s.issued
  receipts : (s.receipts.map Receipt.updateId).Nodup
  earlier : ∀ x ∈ s.queue, x.bindingGeneration ≤ s.bindingGeneration
  stamped : ∀ c ∈ s.call, Call.Stamped s c
  queue : ∀ x ∈ s.queue, Waits s x
  losses : ∀ x ∈ s.losses, Notice x ∧ Past s s.bindingGeneration x ∧
    x.bindingGeneration ≤ s.bindingGeneration
  held : ∀ x ∈ s.held, Notice x ∧ Past s x.bindingGeneration x ∧
    x.bindingGeneration ≤ s.bindingGeneration
  carries : Carries s s.worker
  same : Same s

/-! ## What an operation under the lock keeps -/

/-- An operation that writes and tries no frame. -/
structure Still (s s' : State) : Prop where
  frame : Frame s s'
  tries : ∀ g, s'.tries g = s.tries g

theorem Frame.frames (h : Frame s s') (g : ℕ) : s'.frames g = s.frames g := by
  obtain ⟨es, htrace, hes⟩ := h.trace
  have hnone : es.flatMap (Event.written g) = [] := by
    rw [List.flatMap_eq_nil_iff]
    intro e he
    have hinner := hes e he
    cases e with
    | sent => exact absurd hinner id
    | began | admitted | tried | answered | replied | lost => rfl
  unfold State.frames
  rw [htrace, List.flatMap_append, hnone, List.append_nil]

/-- An operation whose only event, if any, is none of a frame. -/
theorem Still.tells {e : Event} (h : Frame s s') (he : ∀ g, e.serialized g = [])
    (htrace : s'.trace = s.trace ++ [e]) : Still s s' := by
  refine ⟨h, fun g => ?_⟩
  unfold State.tries
  rw [htrace, List.flatMap_append, List.flatMap_singleton, he g, List.append_nil]

theorem Still.silent (h : Frame s s') (htrace : s'.trace = s.trace) : Still s s' := by
  refine ⟨h, fun g => ?_⟩
  unfold State.tries
  rw [htrace]

theorem Still.refl (s : State) : Still s s := ⟨.refl s, fun _ => rfl⟩

theorem Still.trans {s'' : State} (h : Still s s') (h' : Still s' s'') : Still s s'' :=
  ⟨h.frame.trans h'.frame, fun g => (h'.tries g).trans (h.tries g)⟩

theorem Past.still (h : Past s g x) (hstill : Still s s') : Past s' g x where
  frames o ho := h.frames o (hstill.frame.frames g ▸ ho)
  tries hx o ho := h.tries hx o (hstill.tries g ▸ ho)

theorem Past.now (h : Past s s.bindingGeneration x) (hstill : Still s s') :
    Past s' s'.bindingGeneration x :=
  hstill.frame.generation ▸ h.still hstill

/-- The receipts are among those of before. -/
def Fewer (rs rs' : List Receipt) : Prop := ∀ r ∈ rs', ∃ r' ∈ rs, r'.updateId = r.updateId

variable {rs rs' : List Receipt}

theorem fewer_of_subset (h : rs' ⊆ rs) : Fewer rs rs' :=
  fun r hr => ⟨r, h hr, rfl⟩

theorem fewer_of_map (h : rs'.map Receipt.updateId = rs.map Receipt.updateId) : Fewer rs rs' := by
  intro r hr
  have hmem : r.updateId ∈ rs'.map Receipt.updateId := List.mem_map.mpr ⟨r, hr, rfl⟩
  rw [h] at hmem
  exact List.mem_map.mp hmem

theorem Fewer.gone (h : Fewer rs rs') {u : ℕ} (hgone : ∀ r ∈ rs, r.updateId ≠ u) :
    ∀ r ∈ rs', r.updateId ≠ u := by
  intro r hr
  obtain ⟨r', hr', hsame⟩ := h r hr
  exact hsame ▸ hgone r' hr'

theorem Waits.still (h : Waits s x) (hstill : Still s s')
    (hgone : ∀ u ∈ x.dependency, (∀ r ∈ s.receipts, r.updateId ≠ u) →
      ∀ r ∈ s'.receipts, r.updateId ≠ u) : Waits s' x where
  past := h.past.now hstill
  tried := by
    rintro ⟨o, ho, hsequence⟩
    rw [hstill.frame.generation, hstill.tries] at ho
    obtain ⟨hspent, hnone⟩ := h.tried ⟨o, ho, hsequence⟩
    exact ⟨hspent, fun u hu => hgone u hu (hnone u hu)⟩

variable {w : Worker}

theorem Carries.still (h : Carries s w) (hstill : Still s s')
    (hgone : ∀ x ∈ w.load, ∀ u ∈ x.dependency, (∀ r ∈ s.receipts, r.updateId ≠ u) →
      ∀ r ∈ s'.receipts, r.updateId ≠ u)
    (hheld : w.notice ≠ [] → ∀ x ∈ s'.held, x ∈ s.held) : Carries s' w where
  read := hstill.frame.generation ▸ h.read
  lost := h.lost
  earlier := hstill.frame.generation ▸ h.earlier
  past hw x hx := (h.past (hw.trans hstill.frame.generation) x hx).still hstill
  found x hx := ⟨(h.found x hx).1.still hstill, (h.found x hx).2⟩
  notice x hx := (h.notice x hx).still hstill
  gone x hx u hu := hgone x hx u hu (h.gone x hx u hu)
  held hnotice x hx := h.held hnotice x (hheld hnotice x hx)
  tried := hstill.tries w.generation ▸ h.tried
  full := h.full

/-- **An operation under the lock** keeps the invariant, if it takes nothing to a second place. -/
theorem Stable.still (h : Stable s) (hstill : Still s s') (htally : ∀ n, s'.tally n ≤ s.tally n)
    (hcall : ∀ c ∈ s'.call, c.Stamped s ∧ ∃ c' ∈ s.call,
      c.observation.sequence = c'.observation.sequence ∧
      c.observation.updateId = c'.observation.updateId ∧
      c.observation.dependency = c'.observation.dependency)
    (hnamed : ∀ x ∈ s'.queue ++ s'.worker.load,
      x.dependency = none ∨ (∃ y ∈ s.queue ++ s.worker.load, x.dependency = y.dependency) ∨
      (s'.call = none ∧ ∃ c ∈ s.call, x.dependency = c.observation.dependency))
    (hreceipts : (s'.receipts.map Receipt.updateId).Nodup)
    (hqueue : ∀ x ∈ s'.queue, Waits s' x ∧ x.bindingGeneration ≤ s.bindingGeneration)
    (hlosses : ∀ x ∈ s'.losses, Notice x ∧ Past s s.bindingGeneration x ∧
      x.bindingGeneration ≤ s.bindingGeneration)
    (hheld : ∀ x ∈ s'.held, Notice x ∧ Past s x.bindingGeneration x ∧
      x.bindingGeneration ≤ s.bindingGeneration)
    (hcarries : Carries s' s'.worker) : Stable s' where
  tally n := (htally n).trans (h.tally n)
  issued n hn := Nat.le_zero.mp ((htally n).trans (Nat.le_of_eq (h.issued n (hstill.frame.issued ▸ hn))))
  tried g o ho := hstill.frame.issued ▸ h.tried g o (hstill.tries g ▸ ho)
  written g := hstill.frame.frames g ▸ hstill.tries g ▸ h.written g
  call c hc := by
    obtain ⟨-, c', hc', hsequence, hupdate, -⟩ := hcall c hc
    obtain ⟨hown, hfresh, holder⟩ := h.call c' hc'
    rw [hsequence, hupdate]
    refine ⟨hown, fun g o ho => hfresh g o (hstill.tries g ▸ ho), fun x hx u hu => ?_⟩
    rcases hnamed x hx with hplain | ⟨y, hy, hsame⟩ | ⟨hnone, -⟩
    · rw [hplain] at hu
      cases hu
    · exact holder y hy u (hsame ▸ hu)
    · rw [hnone] at hc
      cases hc
  named x hx u hu := by
    rw [hstill.frame.issued]
    rcases List.mem_append.mp hx with hx | hx
    · obtain ⟨c, hc, rfl⟩ := Option.map_eq_some_iff.mp (Option.mem_toList.mp hx)
      obtain ⟨-, c', hc', -, -, hdependency⟩ := hcall c hc
      refine h.named c'.observation (List.mem_append_left _ ?_) u (hdependency ▸ hu)
      exact Option.mem_toList.mpr (Option.map_eq_some_iff.mpr ⟨c', hc', rfl⟩)
    · rcases hnamed x hx with hplain | ⟨y, hy, hsame⟩ | ⟨-, c, hc, hsame⟩
      · rw [hplain] at hu
        cases hu
      · exact h.named y (List.mem_append_right _ hy) u (hsame ▸ hu)
      · refine h.named c.observation (List.mem_append_left _ ?_) u (hsame ▸ hu)
        exact Option.mem_toList.mpr (Option.map_eq_some_iff.mpr ⟨c, hc, rfl⟩)
  receipts := hreceipts
  earlier x hx := hstill.frame.generation ▸ (hqueue x hx).2
  stamped c hc := (hcall c hc).1.mono (Nat.le_of_eq hstill.frame.generation.symm)
  queue x hx := (hqueue x hx).1
  losses x hx := by
    obtain ⟨hnotice, hpast, hle⟩ := hlosses x hx
    rw [hstill.frame.generation]
    exact ⟨hnotice, hpast.still hstill, hle⟩
  held x hx := by
    obtain ⟨hnotice, hpast, hle⟩ := hheld x hx
    rw [hstill.frame.generation]
    exact ⟨hnotice, hpast.still hstill, hle⟩
  carries := hcarries
  same := by
    refine ⟨fun g => ?_, fun g => ?_⟩
    · rw [hstill.frame.frames g]
      exact h.same.frames g
    · rw [hstill.tries g]
      exact h.same.retractions g

/-- **A turn of the worker** that leaves the call, the queue and the losses alone. -/
theorem Stable.turns (h : Stable s) (hstill : Still s s') (hcall : s'.call = s.call)
    (hqueue : s'.queue = s.queue) (hlosses : s'.losses = s.losses)
    (hload : s'.worker.load.Sublist s.worker.load)
    (hboundary : s'.boundary.Sublist s.boundary)
    (hreceipts : s'.receipts.map Receipt.updateId = s.receipts.map Receipt.updateId)
    (hheld : ∀ x ∈ s'.held, x ∈ s.held) (hcarries : Carries s s'.worker) : Stable s' := by
  have hfewer := fewer_of_map hreceipts
  refine h.still hstill (fun n => ?_) (fun c hc => ?_) (fun x hx => Or.inr (Or.inl ⟨x, ?_, rfl⟩))
    (hreceipts ▸ h.receipts) (fun x hx => ?_) (fun x hx => h.losses x (hlosses ▸ hx))
    (fun x hx => h.held x (hheld x hx)) (hcarries.still hstill (fun _ _ _ _ => hfewer.gone) fun _ => hheld)
  · have hload' := count_le (n := n) hload
    have hboundary' := count_le (n := n) hboundary
    unfold State.tally State.rest
    rw [hcall, hqueue, hlosses]
    omega
  · rw [hcall] at hc
    exact ⟨h.stamped c hc, c, hc, rfl, rfl, rfl⟩
  · rw [hqueue] at hx
    rcases List.mem_append.mp hx with hx | hx
    · exact List.mem_append_left _ hx
    · exact List.mem_append_right _ (hload.subset hx)
  · rw [hqueue] at hx
    exact ⟨(h.queue x hx).still hstill fun _ _ => hfewer.gone, h.earlier x hx⟩

theorem Stable.moves (h : Stable s) (hload : w.load.Sublist s.worker.load)
    (hboundary : (State.boundary { s with worker := w }).Sublist s.boundary)
    (hcarries : Carries s w) : Stable { s with worker := w } :=
  h.turns (.silent (.silent rfl rfl rfl rfl rfl rfl rfl) rfl) rfl rfl rfl hload hboundary rfl
    (fun _ hx => hx) hcarries

/-! ## Admission -/

theorem ids_changeReceipt {f : Receipt → Receipt} (hf : ∀ r, (f r).updateId = r.updateId)
    (rs : List Receipt) (u : ℕ) :
    (changeReceipt rs u f).map Receipt.updateId = rs.map Receipt.updateId := by
  unfold changeReceipt
  rw [List.map_map]
  refine List.map_congr_left fun r _ => ?_
  show Receipt.updateId (if r.updateId = u then f r else r) = r.updateId
  split_ifs
  · exact hf r
  · rfl

theorem forget_updateId (r : Receipt) : r.forget.updateId = r.updateId := by
  unfold Receipt.forget
  split_ifs <;> rfl

theorem ids_markDependencyUnknown (rs : List Receipt) (u : Option ℕ) :
    (markDependencyUnknown rs u).map Receipt.updateId = rs.map Receipt.updateId := by
  cases u with
  | none => rfl
  | some u => exact ids_changeReceipt forget_updateId rs u

theorem ids_noteBatchUnknown (rs : List Receipt) (items : List Observation) (generation : ℕ) :
    (noteBatchUnknown rs items generation).map Receipt.updateId = rs.map Receipt.updateId := by
  induction items generalizing rs with
  | nil => rfl
  | cons o items ih =>
    refine (ih (noteUnknown generation rs o)).trans ?_
    unfold noteUnknown
    split_ifs
    · exact ids_markDependencyUnknown rs o.updateId
    · rfl

theorem ids_applyCodes (pairs : List (Observation × Text)) (rs : List Receipt) :
    (pairs.foldl applyCode rs).map Receipt.updateId = rs.map Receipt.updateId := by
  induction pairs generalizing rs with
  | nil => rfl
  | cons p pairs ih =>
    refine (ih (applyCode rs p)).trans ?_
    unfold applyCode
    cases p.1.updateId with
    | none => rfl
    | some u =>
      dsimp only
      split_ifs
      · refine ids_changeReceipt (fun r => ?_) rs u
        unfold Receipt.bind
        split_ifs <;> rfl
      · rfl

theorem nodup_registerReceipt {rs : List Receipt} (h : (rs.map Receipt.updateId).Nodup) :
    ((registerReceipt rs o).map Receipt.updateId).Nodup := by
  unfold registerReceipt
  cases o.updateId with
  | none => exact h
  | some u =>
    dsimp only
    split_ifs with hnew
    · refine List.Nodup.sublist ((List.drop_sublist _ _).map _) ?_
      rw [List.map_append, List.nodup_append]
      refine ⟨h, List.nodup_singleton _, fun a ha b hb hab => ?_⟩
      obtain ⟨r, hr, rfl⟩ := List.mem_map.mp ha
      rw [Bool.and_eq_true, Option.isNone_iff_eq_none] at hnew
      have hb' : b = u := List.mem_singleton.mp hb
      have hno := List.find?_eq_none.mp hnew.2 r hr
      exact hno (decide_eq_true (hab.trans hb'))
    · exact h

theorem mem_registered {rs : List Receipt} {r : Receipt} (h : r ∈ registerReceipt rs o) :
    r ∈ rs ∨ o.updateId = some r.updateId := by
  rcases mem_registerReceipt h with h | ⟨-, h, -⟩
  · exact Or.inl h
  · exact Or.inr h

theorem notice_lossNotice {source reason : Text} (h : reason ≠ []) :
    Notice (lossNotice o source reason) := ⟨rfl, h⟩

/-- A notice of a loss shows nothing of what has not been written. -/
theorem past_lossNotice {source reason : Text}
    (h : ∀ x ∈ s.frames g, x.sequence ≠ o.sequence) : Past s g (lossNotice o source reason) where
  frames x hx hsequence := absurd hsequence (h x hx)
  tries hno := absurd rfl hno

/-- The call is over, or goes on with the same observation. -/
theorem Stable.calls (h : Stable s) {k : Option Call}
    (hk : ∀ c ∈ k, c.Stamped s ∧ ∃ c' ∈ s.call,
      c.observation.sequence = c'.observation.sequence ∧
      c.observation.updateId = c'.observation.updateId ∧
      c.observation.dependency = c'.observation.dependency)
    {s' : State} (hs' : s' = { s with
      call := k
      contended := s'.contended
      captureSeq := s'.captureSeq }) : Stable s' := by
  have hfields : Still s s' ∧ s'.call = k ∧ s'.queue = s.queue ∧ s'.losses = s.losses ∧
      s'.held = s.held ∧ s'.receipts = s.receipts ∧ s'.worker = s.worker := by
    rw [hs']
    exact ⟨.silent (.silent rfl rfl rfl rfl rfl rfl rfl) rfl, rfl, rfl, rfl, rfl, rfl, rfl⟩
  obtain ⟨hstill, hcall, hqueue, hlosses, hheld, hreceipts, hworker⟩ := hfields
  refine h.still hstill (fun n => ?_) (fun c hc => hk c (hcall ▸ hc)) (fun x hx => Or.inr (Or.inl ⟨x, ?_, rfl⟩))
    (hreceipts ▸ h.receipts) (fun x hx => ?_) (fun x hx => h.losses x (hlosses ▸ hx))
    (fun x hx => h.held x (hheld ▸ hx)) ?_
  · have hsame : count n (k.map Call.observation).toList ≤
        count n (s.call.map Call.observation).toList := by
      cases k with
      | none => exact Nat.zero_le _
      | some c =>
        obtain ⟨-, c', hc', hsequence, -, -⟩ := hk c rfl
        rw [Option.mem_def.mp hc']
        refine Nat.le_of_eq (count_congr ?_)
        show [c.observation.sequence] = [c'.observation.sequence]
        rw [hsequence]
    unfold State.tally State.rest State.boundary
    rw [hcall, hqueue, hlosses, hheld, hworker]
    omega
  · rw [hqueue, hworker] at hx
    exact hx
  · rw [hqueue] at hx
    exact ⟨(h.queue x hx).still hstill fun _ _ hnone => hreceipts ▸ hnone, h.earlier x hx⟩
  · rw [hworker]
    exact h.carries.still hstill (fun _ _ _ _ hnone => hreceipts ▸ hnone)
      fun _ x hx => hheld ▸ hx

theorem count_eraseIdx {index : ℕ} {old : Observation} (h : xs[index]? = some old) :
    count n [old] + count n (xs.eraseIdx index) = count n xs := by
  obtain ⟨hlt, hget⟩ := List.getElem?_eq_some_iff.mp h
  have hperm := List.getElem_cons_eraseIdx_perm hlt
  rw [hget] at hperm
  rw [← count_cons]
  exact (hperm.map Observation.sequence).count_eq n

theorem count_lastOf (k : ℕ) (xs : List Observation) : count n (lastOf k xs) ≤ count n xs :=
  count_le (List.drop_sublist _ _)

theorem tries_enter (s : State) (o : Observation) (policy : Option ℕ) (g : ℕ) :
    (s.enter l o policy).tries g = s.tries g := by
  have hcases := enter_cases l s o policy
  revert hcases
  generalize s.enter l o policy = t
  have htells (s : State) (e : Event) (he : e.serialized g = []) :
      (s.trace ++ [e]).flatMap (Event.serialized g) = s.trace.flatMap (Event.serialized g) := by
    rw [List.flatMap_append, List.flatMap_singleton, he, List.append_nil]
  intro hcases
  cases hcases with
  | fits => exact htells s _ rfl
  | displaces index old => exact (htells (s.displace index old) _ rfl).trans (htells s _ rfl)
  | full => exact htells s _ rfl

/-- **An entry.** -/
theorem Stable.enter (h : Stable s) {policy : Option ℕ}
    (hcall : s.call = some (.allowed o policy))
    (hsteady : s.fits l o.budgetBytes = false → o.isHigh = true →
      ∀ index ∈ s.queue.findIdx? isLow, ∀ old ∈ s.queue[index]?, Unsent s old) {s₁ : State}
    (hs₁ : s₁ = { s with captureSeq := s.captureSeq + 1, call := none }) :
    Stable (s₁.enter l o policy) := by
  have hfields : Still s s₁ ∧ s₁.call = none ∧ s₁.queue = s.queue ∧ s₁.losses = s.losses ∧
      s₁.held = s.held ∧ s₁.receipts = s.receipts ∧ s₁.worker = s.worker ∧
      s₁.bytes = s.bytes := by
    rw [hs₁]
    exact ⟨.silent (.silent rfl rfl rfl rfl rfl rfl rfl) rfl, rfl, rfl, rfl, rfl, rfl, rfl, rfl⟩
  obtain ⟨hstill₁, hcall₁, hqueue₁, hlosses₁, hheld₁, hreceipts₁, hworker₁, hbytes₁⟩ := hfields
  have hstill : Still s (s₁.enter l o policy) :=
    hstill₁.trans ⟨frame_enter l s₁ o policy, tries_enter s₁ o policy⟩
  obtain ⟨hheld, hcall', hworker⟩ := held_enter l s₁ o policy
  obtain ⟨hown, hfresh, holder⟩ := h.call _ hcall
  have hown' : o.updateId = some o.sequence := hown
  have hfresh' (g : ℕ) (x : Observation) (hx : x ∈ s.tries g) : x.sequence ≠ o.sequence :=
    hfresh g x hx
  have hunsent (g : ℕ) : ∀ x ∈ s.frames g, x.sequence ≠ o.sequence :=
    fun x hx => hfresh' g x (h.written g hx)
  have hstamped : o.bindingGeneration ≤ s.bindingGeneration := h.stamped _ hcall
  have hfits : s₁.fits l o.budgetBytes = s.fits l o.budgetBytes := by
    unfold State.fits
    rw [hqueue₁, hbytes₁]
  have hcases := enter_cases l s₁ o policy
  revert hstill hheld hcall' hworker hcases
  generalize s₁.enter l o policy = t
  intro hstill hheld hcall' hworker hcases
  -- the receipt of the observation is not the one of an older retraction
  have hgone (x : Observation) (hx : x ∈ s.queue ++ s.worker.load) (u : ℕ) (hu : u ∈ x.dependency)
      (hnone : ∀ r ∈ s.receipts, r.updateId ≠ u)
      (hreceipts : ∀ r ∈ t.receipts, (∃ r' ∈ s.receipts, r'.updateId = r.updateId) ∨
        o.updateId = some r.updateId) : ∀ r ∈ t.receipts, r.updateId ≠ u := by
    intro r hr
    rcases hreceipts r hr with ⟨r', hr', hsame⟩ | hnew
    · exact hsame ▸ hnone r' hr'
    · have hlt : u < o.sequence := holder x hx u hu
      rw [hown'] at hnew
      have hnumber : o.sequence = r.updateId := Option.some.inj hnew
      omega
  have hall (queue losses : List Observation) (hqueue : t.queue = queue)
      (hlosses : t.losses = losses)
      (htally : ∀ n, count n queue + count n losses ≤
        count n [o] + count n s.queue + count n s.losses)
      (hin : ∀ x ∈ queue, x ∈ s.queue ∨ x = o)
      (hlost : ∀ x ∈ losses, x ∈ s.losses ∨ Notice x ∧ Past s s.bindingGeneration x ∧
        x.bindingGeneration ≤ s.bindingGeneration)
      (hnodup : (t.receipts.map Receipt.updateId).Nodup)
      (hreceipts : ∀ r ∈ t.receipts, (∃ r' ∈ s.receipts, r'.updateId = r.updateId) ∨
        o.updateId = some r.updateId) : Stable t := by
    refine h.still hstill (fun n => ?_) (fun c hc => ?_) (fun x hx => ?_) hnodup (fun x hx => ?_)
      (fun x hx => ?_) (fun x hx => ?_) ?_
    · have hle := htally n
      have hcount : count n (s.call.map Call.observation).toList = count n [o] := by
        rw [hcall]
        rfl
      have hcount' : count n (t.call.map Call.observation).toList = 0 := by
        rw [hcall', hcall₁]
        rfl
      unfold State.tally State.rest State.boundary
      rw [hcount, hcount', hqueue, hlosses, hworker, hworker₁, hheld, hheld₁]
      omega
    · rw [hcall', hcall₁] at hc
      cases hc
    · rw [hqueue, hworker, hworker₁] at hx
      rcases List.mem_append.mp hx with hx | hx
      · rcases hin x hx with hx | rfl
        · exact Or.inr (Or.inl ⟨x, List.mem_append_left _ hx, rfl⟩)
        · exact Or.inr (Or.inr ⟨hcall'.trans hcall₁, _, hcall, rfl⟩)
      · exact Or.inr (Or.inl ⟨x, List.mem_append_right _ hx, rfl⟩)
    · rcases hin x (hqueue ▸ hx) with hx | rfl
      · refine ⟨(h.queue x hx).still hstill fun u hu hnone => ?_, h.earlier x hx⟩
        exact hgone x (List.mem_append_left _ hx) u hu hnone hreceipts
      · refine ⟨⟨⟨fun y hy hsequence => ?_, fun _ y hy _ hsequence => ?_⟩, ?_⟩, hstamped⟩
        · rw [hstill.frame.frames] at hy
          exact absurd hsequence (hunsent _ y hy)
        · rw [hstill.tries] at hy
          exact absurd hsequence (hfresh' _ y hy)
        · rintro ⟨y, hy, hsequence⟩
          rw [hstill.tries] at hy
          exact absurd hsequence (hfresh' _ y hy)
    · rcases hlost x (hlosses ▸ hx) with hx | hx
      · exact h.losses x hx
      · exact hx
    · rw [hheld, hheld₁] at hx
      exact h.held x hx
    · rw [hworker, hworker₁]
      refine h.carries.still hstill (fun x hx u hu hnone => ?_) fun _ x hx => ?_
      · exact hgone x (List.mem_append_right _ hx) u hu hnone hreceipts
      · rw [hheld, hheld₁] at hx
        exact hx
  have hreason : ascii "queue_saturated" ≠ [] ∧ ascii "displaced_for_priority" ≠ [] :=
    ⟨by decide, by decide⟩
  have hnodup : (s₁.receipts.map Receipt.updateId).Nodup := hreceipts₁ ▸ h.receipts
  have hmarked (u : Option ℕ) : ((markDependencyUnknown s₁.receipts u).map Receipt.updateId).Nodup := by
    rw [ids_markDependencyUnknown]
    exact hnodup
  have hmark (u : Option ℕ) : Fewer s.receipts (markDependencyUnknown s₁.receipts u) := by
    rw [hreceipts₁]
    exact fewer_of_map (ids_markDependencyUnknown _ _)
  cases hcases with
  | fits =>
    refine hall (s.queue ++ [o]) s.losses (by rw [← hqueue₁]; rfl) hlosses₁ (fun n => ?_)
      (fun x hx => ?_) (fun x hx => Or.inl hx) (nodup_registerReceipt hnodup) fun r hr => ?_
    · rw [count_append]
      omega
    · exact (List.mem_append.mp hx).imp_right List.mem_singleton.mp
    · rcases mem_registered hr with hr | hr
      · exact Or.inl ⟨r, hreceipts₁ ▸ hr, rfl⟩
      · exact Or.inr hr
  | displaces index old hold hlow hhigh hfull hindex =>
    rw [hqueue₁] at hold hindex
    rw [hfits] at hfull
    have hout := hsteady hfull hhigh index hindex old hold
    have hmem : old ∈ s.queue := List.mem_of_getElem? hold
    refine hall (s.queue.eraseIdx index ++ [o])
      (lastOf maxLosses (s.losses ++ [lossNotice old s₁.source (ascii "displaced_for_priority")]))
      (by rw [← hqueue₁]; rfl) (by rw [← hlosses₁]; rfl) (fun n => ?_) (fun x hx => ?_)
      (fun x hx => ?_) (nodup_registerReceipt (hmarked old.updateId)) fun r hr => ?_
    · have herase := count_eraseIdx (n := n) hold
      have hlast := count_lastOf (n := n) maxLosses
        (s.losses ++ [lossNotice old s₁.source (ascii "displaced_for_priority")])
      have hsame : count n [lossNotice old s₁.source (ascii "displaced_for_priority")] =
          count n [old] := rfl
      rw [count_append, hsame] at hlast
      rw [count_append]
      omega
    · rcases List.mem_append.mp hx with hx | hx
      · exact Or.inl (List.mem_of_mem_eraseIdx hx)
      · exact Or.inr (List.mem_singleton.mp hx)
    · rcases List.mem_append.mp (mem_lastOf hx) with hx | hx
      · exact Or.inl hx
      · rw [List.mem_singleton.mp hx]
        exact Or.inr ⟨notice_lossNotice hreason.2, past_lossNotice hout, h.earlier old hmem⟩
    · rcases mem_registered hr with hr | hr
      · exact Or.inl (hmark _ r hr)
      · exact Or.inr hr
  | full =>
    refine hall s.queue
      (lastOf maxLosses (s.losses ++ [lossNotice o s₁.source (ascii "queue_saturated")]))
      (by rw [← hqueue₁]; rfl) (by rw [← hlosses₁]; rfl) (fun n => ?_) (fun x hx => Or.inl hx)
      (fun x hx => ?_) (hmarked o.updateId) fun r hr => Or.inl (hmark _ r hr)
    · have hlast := count_lastOf (n := n) maxLosses
        (s.losses ++ [lossNotice o s₁.source (ascii "queue_saturated")])
      have hsame : count n [lossNotice o s₁.source (ascii "queue_saturated")] = count n [o] := rfl
      rw [count_append, hsame] at hlast
      omega
    · rcases List.mem_append.mp (mem_lastOf hx) with hx | hx
      · exact Or.inl hx
      · rw [List.mem_singleton.mp hx]
        exact Or.inr ⟨notice_lossNotice hreason.1, past_lossNotice (hunsent _), hstamped⟩

/-- **A step of a call.** -/
theorem Stable.tryAdmit (h : Stable s) {now : ℕ} {contended : Bool}
    (hsteady : ∀ o policy, s.call = some (.allowed o policy) → contended = false →
      s.fits l o.budgetBytes = false → o.isHigh = true →
        ∀ index ∈ s.queue.findIdx? isLow, ∀ old ∈ s.queue[index]?, Unsent s old) :
    Stable (s.tryAdmit l now contended) := by
  have hnone (s' : State) (hs' : s' = { s with
      call := none
      contended := s'.contended
      captureSeq := s'.captureSeq }) : Stable s' :=
    h.calls (k := none) (fun c hc => nomatch hc) hs'
  have hgoes (c c' : Call) (hc' : s.call = some c') (hstamped : c.Stamped s)
      (hsame : c.observation.sequence = c'.observation.sequence ∧
        c.observation.updateId = c'.observation.updateId ∧
        c.observation.dependency = c'.observation.dependency) :
      Stable { s with call := some c } := by
    refine h.calls (k := some c) (fun d hd => ?_) rfl
    rw [← Option.some.inj hd]
    exact ⟨hstamped, c', hc', hsame⟩
  unfold State.tryAdmit
  cases hcall : s.call with
  | none => exact h
  | some c =>
    cases c with
    | begun o =>
      dsimp only
      split_ifs
      · exact hgoes (.safe o) _ hcall trivial ⟨rfl, rfl, rfl⟩
      · exact hnone _ rfl
    | safe o =>
      dsimp only
      split_ifs
      · exact hnone _ rfl
      · exact hgoes (.stamped _) _ hcall (Nat.le_refl s.bindingGeneration) ⟨rfl, rfl, rfl⟩
    | stamped o =>
      dsimp only
      split_ifs
      · have hstamped : o.bindingGeneration ≤ s.bindingGeneration := h.stamped (.stamped o) hcall
        exact hgoes (.allowed o _) _ hcall hstamped ⟨rfl, rfl, rfl⟩
      · exact hnone _ rfl
    | allowed o policy =>
      dsimp only
      split_ifs with hcontended
      · exact hnone _ rfl
      · exact h.enter hcall (hsteady o policy hcall (Bool.eq_false_iff.mpr hcontended)) rfl

/-! ## The worker takes a batch -/

theorem gone_eraseReceipt {rs : List Receipt} (h : (rs.map Receipt.updateId).Nodup) (u : ℕ) :
    ∀ r ∈ eraseReceipt rs u, r.updateId ≠ u := by
  induction rs with
  | nil => exact List.forall_mem_nil _
  | cons r rs ih =>
    obtain ⟨hnew, hnodup⟩ := List.nodup_cons.mp h
    unfold eraseReceipt
    by_cases hu : r.updateId = u
    · rw [List.eraseP_cons_of_pos (by simpa using hu)]
      intro x hx hxu
      exact hnew (List.mem_map.mpr ⟨x, hx, hxu.trans hu.symm⟩)
    · rw [List.eraseP_cons_of_neg (by simpa using hu)]
      intro x hx
      rcases List.mem_cons.mp hx with rfl | hx
      · exact hu
      · exact ih hnodup x hx

variable {o' : Observation} {generation : ℕ}

theorem sublist_resolved (h : Resolved generation rs o o' rs') : rs'.Sublist rs := by
  cases h with
  | plain => exact List.Sublist.refl _
  | attached => exact List.eraseP_sublist
  | excluded => exact List.eraseP_sublist

/-- A resolution uses its receipt up, and changes neither the number nor what it depends on. -/
theorem resolved_gone (h : Resolved generation rs o o' rs')
    (hrs : (rs.map Receipt.updateId).Nodup) :
    (∀ u ∈ o'.dependency, ∀ r ∈ rs', r.updateId ≠ u) ∧ o'.sequence = o.sequence ∧
      o'.dependency = o.dependency ∧ o'.bindingGeneration = o.bindingGeneration := by
  cases h with
  | plain hplain =>
    refine ⟨fun u hu => ?_, rfl, rfl, rfl⟩
    rw [hplain] at hu
    cases hu
  | attached update r hdependency =>
    refine ⟨fun u hu => ?_, rfl, rfl, rfl⟩
    have hu' : o.dependency = some u := hu
    rw [hdependency] at hu'
    cases hu'
    exact gone_eraseReceipt hrs _
  | excluded update reason hdependency =>
    refine ⟨fun u hu => ?_, rfl, rfl, rfl⟩
    have hu' : o.dependency = some u := hu
    rw [hdependency] at hu'
    cases hu'
    exact gone_eraseReceipt hrs _

theorem takeBatch_gone (generation n : ℕ) (queue : List Observation) (rs : List Receipt)
    (hrs : (rs.map Receipt.updateId).Nodup) :
    (takeBatch generation n queue rs).receipts.Sublist rs ∧
      ∀ x ∈ (takeBatch generation n queue rs).batch, ∀ u ∈ x.dependency,
        ∀ r ∈ (takeBatch generation n queue rs).receipts, r.updateId ≠ u := by
  induction n generalizing queue rs with
  | zero => exact ⟨List.Sublist.refl _, List.forall_mem_nil _⟩
  | succ n ih =>
    cases queue with
    | nil => exact ⟨List.Sublist.refl _, List.forall_mem_nil _⟩
    | cons o queue =>
      unfold takeBatch
      cases hresolve : resolve generation rs o with
      | none => exact ⟨List.Sublist.refl _, List.forall_mem_nil _⟩
      | some p =>
        have hresolved := resolve_cases hresolve
        have hsub := sublist_resolved hresolved
        obtain ⟨hrest, hbatch⟩ := ih queue p.2 (hrs.sublist (hsub.map _))
        refine ⟨hrest.trans hsub, fun x hx => ?_⟩
        rcases List.mem_cons.mp hx with rfl | hx
        · exact fun u hu r hr => (resolved_gone hresolved hrs).1 u hu r (hrest.subset hr)
        · exact hbatch x hx

/-- What has been tried is resolved to the same again. -/
theorem Waits.resolved (h : Waits s o)
    (hwritten : s.frames s.bindingGeneration ⊆ s.tries s.bindingGeneration)
    (hresolved : Resolved generation rs o o' rs') (hrs : rs ⊆ s.receipts) :
    Past s s.bindingGeneration o' := by
  have hsequence : o'.sequence = o.sequence := by
    cases hresolved <;> rfl
  by_cases htried : ∃ y ∈ s.tries s.bindingGeneration, y.sequence = o.sequence
  · obtain ⟨hspent, hgone⟩ := h.tried htried
    have hsame : o'.serialized = o.serialized ∧ (o'.dependency ≠ none → o.dependency ≠ none) := by
      cases hresolved with
      | plain => exact ⟨rfl, id⟩
      | attached update r hdependency hfind =>
        have hfind' : rs.find? (fun r => r.updateId = update) = some r := hfind
        exact absurd (by simpa using List.find?_some hfind')
          (hgone update hdependency r (hrs (List.mem_of_find?_eq_some hfind')))
      | excluded update reason hdependency hreason =>
        have hnone : findReceipt rs update = none := by
          refine List.find?_eq_none.mpr fun r hr => ?_
          simpa using hgone update hdependency r (hrs hr)
        rw [hreason hnone]
        exact ⟨hspent (by rw [hdependency]; nofun), id⟩
    refine ⟨fun y hy hy' => ?_, fun hno y hy hy' hy'' => ?_⟩
    · exact (h.past.frames y hy (hy'.trans hsequence)).trans hsame.1.symm
    · exact (h.past.tries (hsame.2 hno) y hy hy' (hy''.trans hsequence)).trans hsame.1.symm
  · refine ⟨fun y hy hy' => ?_, fun _ y hy _ hy' => ?_⟩
    · exact absurd ⟨y, hwritten hy, hy'.trans hsequence⟩ htried
    · exact absurd ⟨y, hy, hy'.trans hsequence⟩ htried

/-- **The worker takes a batch.** -/
theorem Stable.take (h : Stable s) (hworker : s.worker = .stamped generation) :
    Stable (s.take generation) := by
  obtain ⟨hqueue, hbatch⟩ := takeBatch_queue s.bindingGeneration batchSize s.queue s.receipts
  obtain ⟨hsub, hgone⟩ := takeBatch_gone s.bindingGeneration batchSize s.queue s.receipts h.receipts
  have hmap := takeBatch_map Observation.sequence
    (fun _ _ _ _ _ hr => by cases hr <;> rfl) s.bindingGeneration batchSize s.queue s.receipts
  have hstill : Still s (s.take generation) := .silent (.silent rfl rfl rfl rfl rfl rfl rfl) rfl
  have hcarries := h.carries
  rw [hworker] at hcarries
  have hread : generation ≤ s.bindingGeneration := hcarries.read
  have hfewer : Fewer s.receipts (s.take generation).receipts := fewer_of_subset hsub.subset
  refine h.still hstill (fun n => ?_) (fun c hc => ⟨h.stamped c hc, c, hc, rfl, rfl, rfl⟩)
    (fun x hx => ?_) (h.receipts.sublist (hsub.map _)) (fun x hx => ?_)
    (List.forall_mem_nil _) h.held
    ⟨hread, fun x hx => (h.losses x hx).1, fun x hx => ?_, fun hg x hx => ?_,
      List.forall_mem_nil _, List.forall_mem_nil _,
      fun x hx u hu r hr => ?_, fun hno => absurd rfl hno, List.nil_subset _, nofun⟩
  · have hcount := congrArg (List.count n) hmap
    have htotal : count n s.queue =
        count n (takeBatch s.bindingGeneration batchSize s.queue s.receipts).batch +
          count n (takeBatch s.bindingGeneration batchSize s.queue s.receipts).queue := by
      conv_lhs => rw [hqueue]
      rw [count_append]
      exact congrArg (· + _) hcount.symm
    have hload : count n s.worker.load = 0 := by
      rw [hworker]
      rfl
    have hboundary : (s.take generation).boundary = s.boundary := by
      unfold State.boundary
      rw [hworker]
      rfl
    show (s.take generation).rest n + count n (s.losses ++ _) + count n (s.take generation).boundary ≤ _
    rw [hboundary, count_append]
    unfold State.tally State.rest
    rw [htotal, hload]
    show _ + count n (takeBatch s.bindingGeneration batchSize s.queue s.receipts).queue +
      count n [] + (count n s.losses +
        count n (takeBatch s.bindingGeneration batchSize s.queue s.receipts).batch) + _ ≤ _
    rw [count_nil]
    show count n (s.call.map Call.observation).toList + _ + _ + _ + _ ≤ _
    omega
  · rcases List.mem_append.mp hx with hx | hx
    · exact Or.inr (Or.inl ⟨x, List.mem_append_left _ (mem_of_mem_takeBatch hx), rfl⟩)
    · rcases List.mem_append.mp hx with hx | hx
      · exact Or.inl (h.losses x hx).1.dependency
      · obtain ⟨y, hy, rs, rs', -, hresolved⟩ := hbatch x hx
        refine Or.inr (Or.inl ⟨y, List.mem_append_left _ hy, ?_⟩)
        cases hresolved <;> rfl
  · have hin := mem_of_mem_takeBatch hx
    exact ⟨(h.queue x hin).still hstill fun _ _ => hfewer.gone, h.earlier x hin⟩
  · show x.bindingGeneration ≤ s.bindingGeneration
    have hx' : x ∈ s.losses ++ (takeBatch _ _ _ _).batch ++ [] := hx
    rw [List.append_nil] at hx'
    rcases List.mem_append.mp hx' with hx | hx
    · exact (h.losses x hx).2.2
    · obtain ⟨y, hy, rs, rs', -, hresolved⟩ := hbatch x hx
      have hsame : x.bindingGeneration = y.bindingGeneration := by
        cases hresolved <;> rfl
      exact hsame ▸ h.earlier y hy
  · have hg' : generation = s.bindingGeneration := hg
    have hpast : Past s s.bindingGeneration x := by
      rcases List.mem_append.mp hx with hx | hx
      · exact (h.losses x hx).2.1
      · obtain ⟨y, hy, rs, rs', hrs, hresolved⟩ := hbatch x hx
        exact (h.queue y hy).resolved (h.written _) hresolved hrs
    exact (hg' ▸ hpast : Past s generation x).still hstill
  · rcases List.mem_append.mp hx with hx | hx
    · rw [(h.losses x hx).1.dependency] at hu
      cases hu
    · exact hgone x hx u hu r hr

/-! ## The worker tries and writes a frame -/

variable {y : Observation}

/-- Two places do not hold the same number. -/
theorem Stable.apart (h : Stable s) (xs ys : List Observation)
    (hsum : ∀ n, count n xs + count n ys ≤ s.tally n) (hx : x ∈ xs) (hy : y ∈ ys) :
    x.sequence ≠ y.sequence := by
  intro hsame
  have hone := h.tally x.sequence
  have hle := hsum x.sequence
  have hpos := count_pos hx
  have hpos' := count_pos hy
  rw [← hsame] at hpos'
  omega

/-- One place holds one observation under a number. -/
theorem Stable.alone (h : Stable s) (xs : List Observation) (hsum : ∀ n, count n xs ≤ s.tally n)
    (hx : x ∈ xs) (hy : y ∈ xs) (hsame : x.sequence = y.sequence) : x = y :=
  eq_of_count hx hy hsame ((hsum _).trans (h.tally _))

/-- The frame of the worker: its items are in hand, or are the held notice. -/
structure InHand (s : State) (items : List Observation) : Prop where
  tally : ∀ n, s.rest n + count n items ≤ s.tally n
  load : (∀ x ∈ items, x ∈ s.worker.load) ∧ s.worker.notice = [] ∨
    s.worker.load = [] ∧ s.worker.notice = items

variable {purpose : Purpose}

theorem inHand {items : List Observation}
    (hworker : s.worker = .current generation purpose items ∨
      s.worker = .exchange generation purpose items) (hitems : items ≠ []) : InHand s items := by
  have hload : (s.worker.load = items ++ (Worker.send generation purpose []).load ∧
      s.worker.notice = []) ∨ s.worker.load = [] ∧ s.worker.notice = items := by
    rcases hworker with hworker | hworker
    · rw [hworker]
      cases purpose with
      | losses rest => exact Or.inl ⟨rfl, rfl⟩
      | batch => exact Or.inl ⟨(List.append_nil items).symm, rfl⟩
      | held last => exact Or.inr ⟨rfl, rfl⟩
    · rw [hworker]
      cases purpose with
      | losses rest => exact Or.inl ⟨rfl, rfl⟩
      | batch => exact Or.inl ⟨(List.append_nil items).symm, rfl⟩
      | held last => exact Or.inr ⟨rfl, rfl⟩
  rcases hload with ⟨hload, hnotice⟩ | ⟨hload, hnotice⟩
  · refine ⟨fun n => ?_, Or.inl ⟨fun x hx => hload ▸ List.mem_append_left _ hx, hnotice⟩⟩
    unfold State.tally
    rw [hload, count_append]
    omega
  · refine ⟨fun n => ?_, Or.inr ⟨hload, hnotice⟩⟩
    have hboundary : s.boundary = items := by
      unfold State.boundary
      rw [hnotice, if_neg hitems]
    unfold State.tally
    rw [hboundary]
    omega

variable {items : List Observation}

theorem InHand.waiting (hhand : InHand s items) (h : Stable s)
    (hx : x ∈ (s.call.map Call.observation).toList ++ (s.queue ++ s.losses)) (hy : y ∈ items) :
    x.sequence ≠ y.sequence := by
  refine h.apart _ _ (fun n => ?_) hx hy
  have hle := hhand.tally n
  unfold State.rest at hle
  rw [count_append, count_append]
  omega

/-- What is in hand under the number of an item of the frame is this item. -/
theorem InHand.hand (hhand : InHand s items) (h : Stable s) (hx : x ∈ s.worker.load ∨ x ∈ items)
    (hy : y ∈ items) (hsame : y.sequence = x.sequence) : y = x := by
  rcases hhand.load with ⟨hload, -⟩ | ⟨hload, -⟩
  · have hx' : x ∈ s.worker.load := hx.elim id (hload x)
    refine h.alone s.worker.load (fun n => ?_) (hload y hy) hx' hsame
    unfold State.tally
    omega
  · rcases hx with hx | hx
    · rw [hload] at hx
      exact absurd hx List.not_mem_nil
    · refine h.alone items (fun n => ?_) hy hx hsame
      have hle := hhand.tally n
      omega

/-- The held notice has the number of no item of the frame, or is the frame. -/
theorem InHand.held (hhand : InHand s items) (h : Stable s) (hx : x ∈ s.held) (hy : y ∈ items)
    (hsame : y.sequence = x.sequence) : y = x := by
  rcases hhand.load with ⟨hload, hnotice⟩ | ⟨-, hnotice⟩
  · have hboundary : x ∈ s.boundary := by
      unfold State.boundary
      rw [if_pos hnotice]
      exact Option.mem_toList.mpr hx
    refine absurd hsame (h.apart s.worker.load s.boundary (fun n => ?_)
      (hload y hy) hboundary)
    unfold State.tally
    omega
  · have hitems : items ≠ [] := List.ne_nil_of_mem hy
    have hone := h.carries.held (hnotice ▸ hitems) x hx
    rw [hnotice] at hone
    rw [hone] at hy
    exact List.mem_singleton.mp hy

theorem tries_tried (s : State) (generation g : ℕ) (items : List Observation) :
    (s.note (.tried generation items)).tries g =
      s.tries g ++ if generation = g then items else [] := by
  show (s.trace ++ [Event.tried generation items]).flatMap _ = _
  rw [List.flatMap_append, List.flatMap_singleton]
  rfl

theorem frames_sent (s : State) (generation bound socket g : ℕ) (items : List Observation) :
    (s.note (.sent generation bound socket items)).frames g =
      s.frames g ++ if generation = g then items else [] := by
  show (s.trace ++ [Event.sent generation bound socket items]).flatMap _ = _
  rw [List.flatMap_append, List.flatMap_singleton]
  rfl

theorem mem_append_ite {α : Type} {xs ys : List α} {p : Prop} [Decidable p] {a : α}
    (h : a ∈ xs ++ if p then ys else []) : a ∈ xs ∨ p ∧ a ∈ ys := by
  rcases List.mem_append.mp h with h | h
  · exact Or.inl h
  · split_ifs at h with hp
    · exact Or.inr ⟨hp, h⟩
    · exact absurd h List.not_mem_nil

/-- **A frame is tried.** -/
theorem Stable.tries (h : Stable s) (hworker : s.worker = .current generation purpose items) :
    Stable { s.note (.tried generation items) with
      worker := .exchange generation purpose items } := by
  set s' : State := { s.note (.tried generation items) with
    worker := .exchange generation purpose items }
  have hcarries := h.carries
  rw [hworker] at hcarries
  have hhand : InHand s items :=
    inHand (Or.inl hworker) fun hno => hcarries.full (congrArg some hno)
  have hframes (g : ℕ) : s'.frames g = s.frames g := by
    show (s.trace ++ [Event.tried generation items]).flatMap _ = _
    rw [List.flatMap_append, List.flatMap_singleton]
    exact List.append_nil _
  have htries (g : ℕ) : s'.tries g = s.tries g ++ if generation = g then items else [] :=
    tries_tried s generation g items
  have hrest (n : ℕ) : s'.tally n = s.tally n := by
    unfold State.tally State.boundary
    rw [hworker]
    cases purpose <;> rfl
  have hload : (Worker.exchange generation purpose items).load = s.worker.load := by
    rw [hworker]
    cases purpose <;> rfl
  -- what has been tried before, or is now
  have hpast (g : ℕ) (x : Observation) (hx : Past s g x)
      (hother : x.dependency ≠ none → ∀ y ∈ items, y.sequence = x.sequence → y = x) :
      Past s' g x := by
    refine ⟨fun y hy => hx.frames y (hframes g ▸ hy), fun hdependency y hy hy' hsame => ?_⟩
    rw [htries] at hy
    rcases mem_append_ite hy with hy | ⟨-, hy⟩
    · exact hx.tries hdependency y hy hy' hsame
    · exact congrArg Observation.serialized (hother hdependency y hy hsame)
  have hplain (g : ℕ) (x : Observation) (hx : Past s g x) (hnotice : Notice x) : Past s' g x :=
    hpast g x hx fun hno => absurd hnotice.dependency hno
  have hissued (x : Observation) (hx : x ∈ items) : x.sequence ≤ s.issued := by
    by_contra hlt
    have hzero := h.issued x.sequence (by omega)
    have hpos := count_pos hx
    have hle := hhand.tally x.sequence
    omega
  refine ⟨fun n => hrest n ▸ h.tally n, fun n hn => (hrest n).trans (h.issued n hn),
    fun g x hx => ?_, fun g x hx => ?_, fun c hc => ?_, fun x hx => ?_, h.receipts, h.earlier,
    fun c hc => ?_, fun x hx => ?_, fun x hx => ?_, fun x hx => ?_, ?_, ⟨fun g => ?_, fun g => ?_⟩⟩
  · rw [htries] at hx
    rcases mem_append_ite hx with hx | ⟨-, hx⟩
    · exact h.tried g x hx
    · exact hissued x hx
  · rw [htries]
    exact List.mem_append_left _ (h.written g (hframes g ▸ hx))
  · obtain ⟨hown, hfresh, holder⟩ := h.call c hc
    refine ⟨hown, fun g x hx => ?_, fun x hx => holder x (hload ▸ hx)⟩
    rw [htries] at hx
    rcases mem_append_ite hx with hx | ⟨-, hx⟩
    · exact hfresh g x hx
    · have hin : c.observation ∈ (s.call.map Call.observation).toList ++ (s.queue ++ s.losses) :=
        List.mem_append_left _ (Option.mem_toList.mpr (Option.map_eq_some_iff.mpr ⟨c, hc, rfl⟩))
      exact fun hsame => hhand.waiting h hin hx hsame.symm
  · exact h.named x (hload ▸ hx)
  · exact (h.stamped c hc).mono (Nat.le_refl _)
  · have hwaits := h.queue x hx
    have hin : x ∈ (s.call.map Call.observation).toList ++ (s.queue ++ s.losses) :=
      List.mem_append_right _ (List.mem_append_left _ hx)
    refine ⟨hpast _ x hwaits.past fun _ y hy hsame => ?_, ?_⟩
    · exact absurd hsame.symm (hhand.waiting h hin hy)
    · rintro ⟨y, hy, hsame⟩
      rw [htries] at hy
      rcases mem_append_ite hy with hy | ⟨-, hy⟩
      · exact hwaits.tried ⟨y, hy, hsame⟩
      · exact absurd hsame.symm (hhand.waiting h hin hy)
  · obtain ⟨hnotice, hx', hle⟩ := h.losses x hx
    exact ⟨hnotice, hplain _ x hx' hnotice, hle⟩
  · obtain ⟨hnotice, hx', hle⟩ := h.held x hx
    exact ⟨hnotice, hplain _ x hx' hnotice, hle⟩
  · refine ⟨hcarries.read, ?_, ?_, fun hg x hx => ?_, fun x hx => ?_, fun x hx => ?_, ?_, ?_, ?_,
      hcarries.full⟩
    · cases purpose <;> exact hcarries.lost
    · cases purpose <;> exact hcarries.earlier
    · refine hpast _ x (hcarries.past hg x ?_) fun _ y hy => hhand.hand h (Or.inl (hload ▸ hx)) hy
      cases purpose <;> exact hx
    · obtain ⟨hx', hle⟩ := hcarries.found x hx
      exact ⟨hpast _ x hx' fun _ y hy => hhand.hand h (Or.inr hx) hy, hle⟩
    · have hx' : x ∈ (Worker.current generation purpose items).notice := by
        cases purpose <;> exact hx
      refine hplain _ x (hcarries.notice x hx') (hcarries.lost x ?_)
      cases purpose with
      | losses rest => exact absurd hx' List.not_mem_nil
      | batch => exact absurd hx' List.not_mem_nil
      | held last => exact hx'
    · cases purpose <;> exact hcarries.gone
    · cases purpose <;> exact hcarries.held
    · intro x hx
      rw [htries]
      refine List.mem_append_right _ ?_
      show x ∈ if generation = generation then items else []
      rw [if_pos rfl]
      exact hx
  · rw [hframes]
    exact h.same.frames g
  · rw [htries]
    intro x hx y hy hdx hdy hsame
    rcases mem_append_ite hx with hx | ⟨hg, hx⟩
    · rcases mem_append_ite hy with hy | ⟨hg, hy⟩
      · exact h.same.retractions g x hx y hy hdx hdy hsame
      · exact (hcarries.found y hy).1.tries hdy x (hg ▸ hx) hdx hsame
    · rcases mem_append_ite hy with hy | ⟨-, hy⟩
      · exact ((hcarries.found x hx).1.tries hdx y (hg ▸ hy) hdy hsame.symm).symm
      · exact congrArg Observation.serialized (hhand.hand h (Or.inr hy) hx hsame)

/-- **A frame is written.** -/
theorem Stable.writes (h : Stable s) (hworker : s.worker = .exchange generation purpose items) :
    Stable (s.note (.sent generation s.bindingGeneration s.socket items)) := by
  set s' : State := s.note (.sent generation s.bindingGeneration s.socket items)
  have hcarries := h.carries
  have hhand : InHand s items := by
    refine inHand (Or.inr hworker) fun hno => ?_
    rw [hworker] at hcarries
    exact hcarries.full (congrArg some hno)
  have hfound : ∀ x ∈ items, Past s generation x := by
    rw [hworker] at hcarries
    exact fun x hx => (hcarries.found x hx).1
  have hall : items ⊆ s.tries generation := by
    rw [hworker] at hcarries
    exact hcarries.tried
  have htries (g : ℕ) : s'.tries g = s.tries g := by
    show (s.trace ++ [Event.sent generation s.bindingGeneration s.socket items]).flatMap _ = _
    rw [List.flatMap_append, List.flatMap_singleton]
    exact List.append_nil _
  have hframes (g : ℕ) : s'.frames g = s.frames g ++ if generation = g then items else [] :=
    frames_sent s generation s.bindingGeneration s.socket g items
  -- what has been written before, or is now
  have hpast (g : ℕ) (x : Observation) (hx : Past s g x)
      (hother : ∀ y ∈ items, y.sequence = x.sequence → y = x) : Past s' g x := by
    refine ⟨fun y hy hsame => ?_, fun hdependency y hy => hx.tries hdependency y (htries g ▸ hy)⟩
    rw [hframes] at hy
    rcases mem_append_ite hy with hy | ⟨-, hy⟩
    · exact hx.frames y hy hsame
    · exact congrArg Observation.serialized (hother y hy hsame)
  have hwaiting (x : Observation)
      (hx : x ∈ (s.call.map Call.observation).toList ++ (s.queue ++ s.losses)) (y : Observation)
      (hy : y ∈ items) (hsame : y.sequence = x.sequence) : y = x :=
    absurd hsame.symm (hhand.waiting h hx hy)
  refine ⟨h.tally, h.issued, fun g x hx => h.tried g x (htries g ▸ hx), fun g x hx => ?_,
    fun c hc => ?_, h.named, h.receipts, h.earlier, fun c hc => ?_, fun x hx => ?_, fun x hx => ?_,
    fun x hx => ?_, ?_, ⟨fun g => ?_, fun g => ?_⟩⟩
  · rw [htries]
    rw [hframes] at hx
    rcases mem_append_ite hx with hx | ⟨hg, hx⟩
    · exact h.written g hx
    · exact hg ▸ hall hx
  · obtain ⟨hown, hfresh, holder⟩ := h.call c hc
    exact ⟨hown, fun g x hx => hfresh g x (htries g ▸ hx), holder⟩
  · exact (h.stamped c hc).mono (Nat.le_refl _)
  · have hwaits := h.queue x hx
    refine ⟨hpast _ x hwaits.past (hwaiting x ?_), ?_⟩
    · exact List.mem_append_right _ (List.mem_append_left _ hx)
    · rintro ⟨y, hy, hsame⟩
      exact hwaits.tried ⟨y, htries s.bindingGeneration ▸ hy, hsame⟩
  · obtain ⟨hnotice, hx', hle⟩ := h.losses x hx
    refine ⟨hnotice, hpast _ x hx' (hwaiting x ?_), hle⟩
    exact List.mem_append_right _ (List.mem_append_right _ hx)
  · obtain ⟨hnotice, hx', hle⟩ := h.held x hx
    exact ⟨hnotice, hpast _ x hx' fun y hy => hhand.held h hx hy, hle⟩
  · refine ⟨hcarries.read, hcarries.lost, hcarries.earlier, fun hg x hx => ?_, fun x hx => ?_,
      fun x hx => ?_, hcarries.gone, hcarries.held, ?_, hcarries.full⟩
    · exact hpast _ x (hcarries.past hg x hx) fun y hy => hhand.hand h (Or.inl hx) hy
    · obtain ⟨hx', hle⟩ := hcarries.found x hx
      have hin : x ∈ items := by
        have hx'' : x ∈ s.worker.found := hx
        rw [hworker] at hx''
        exact hx''
      exact ⟨hpast _ x hx' fun y hy => hhand.hand h (Or.inr hin) hy, hle⟩
    · refine hpast _ x (hcarries.notice x hx) fun y hy => ?_
      rcases hhand.load with ⟨-, hnotice⟩ | ⟨-, hnotice⟩
      · have hx'' : x ∈ s.worker.notice := hx
        rw [hnotice] at hx''
        exact absurd hx'' List.not_mem_nil
      · exact hhand.hand h (Or.inr (hnotice ▸ hx)) hy
    · exact htries s.worker.generation ▸ hcarries.tried
  · rw [hframes]
    intro x hx y hy hsame
    rcases mem_append_ite hx with hx | ⟨hg, hx⟩
    · rcases mem_append_ite hy with hy | ⟨hg, hy⟩
      · exact h.same.frames g x hx y hy hsame
      · exact (hfound y hy).frames x (hg ▸ hx) hsame
    · rcases mem_append_ite hy with hy | ⟨-, hy⟩
      · exact ((hfound x hx).frames y (hg ▸ hy) hsame.symm).symm
      · exact congrArg Observation.serialized (hhand.hand h (Or.inr hy) hx hsame)
  · rw [htries]
    exact h.same.retractions g

/-! ## The loops that put items back -/

theorem Past.congr (h : Past s g x) (hserialized : y.serialized = x.serialized)
    (hsequence : y.sequence = x.sequence) (hdependency : y.dependency = x.dependency) :
    Past s g y where
  frames o ho hsame := (h.frames o ho (hsame.trans hsequence)).trans hserialized.symm
  tries hy o ho hdo hsame :=
    (h.tries (hdependency ▸ hy) o ho hdo (hsame.trans hsequence)).trans hserialized.symm

/-- What `RestoreLosses` has done with some losses to the state `s` before it. -/
structure Restoration (s t : State) (done : List Observation) : Prop where
  still : Still s t
  call : t.call = s.call
  queue : t.queue = s.queue
  receipts : t.receipts = s.receipts
  places : ∀ n, count n t.losses + count n t.held.toList ≤
    count n s.losses + count n s.held.toList + count n done
  losses : ∀ x ∈ t.losses, Notice x ∧ Past s s.bindingGeneration x ∧
    x.bindingGeneration ≤ s.bindingGeneration
  held : ∀ x ∈ t.held, Notice x ∧ Past s x.bindingGeneration x ∧
    x.bindingGeneration ≤ s.bindingGeneration

theorem Restoration.restoreLoss {t : State} {done : List Observation} (h : Restoration s t done)
    (ho : Notice o) (hpast : o.bindingGeneration = s.bindingGeneration →
      Past s s.bindingGeneration o) : Restoration s (t.restoreLoss o) (o :: done) := by
  have hframe := frame_restoreLoss t o
  have hcases := restoreLoss_cases t o
  have htrace : (t.restoreLoss o).trace = t.trace := by
    revert hcases
    generalize t.restoreLoss o = u
    intro hcases
    cases hcases <;> rfl
  revert hframe hcases htrace
  generalize t.restoreLoss o = u
  intro hframe hcases htrace
  have hstill : Still s u := h.still.trans (.silent hframe htrace)
  have hgeneration := h.still.frame.generation
  have hcount (n : ℕ) : count n (o :: done) = count n [o] + count n done := count_cons o done
  cases hcases with
  | stale =>
    refine ⟨hstill, h.call, h.queue, h.receipts, fun n => ?_, h.losses, h.held⟩
    have hle := h.places n
    have hsum := hcount n
    omega
  | covered =>
    refine ⟨hstill, h.call, h.queue, h.receipts, fun n => ?_, h.losses, h.held⟩
    have hle := h.places n
    have hsum := hcount n
    omega
  | holds hcurrent hnone =>
    rw [hgeneration] at hcurrent
    refine ⟨hstill, h.call, h.queue, h.receipts, fun n => ?_, h.losses, fun x hx => ?_⟩
    · have hle := h.places n
      have hsum := hcount n
      rw [hnone] at hle
      have hone : count n [{ o with
          retries := 0
          reason := if o.reason = [] then ascii "transport_exhausted" else o.reason }] =
          count n [o] := rfl
      show count n t.losses + count n [_] ≤ _
      rw [hone]
      have hzero : count n (none : Option Observation).toList = 0 := rfl
      omega
    · have hx' := (Option.some.inj hx).symm
      rw [if_neg ho.reason] at hx'
      rw [hx']
      refine ⟨⟨ho.dependency, ho.reason⟩, ?_, Nat.le_of_eq hcurrent⟩
      exact (hcurrent ▸ hpast hcurrent : Past s o.bindingGeneration o).congr rfl rfl rfl
  | waits hcurrent =>
    rw [hgeneration] at hcurrent
    refine ⟨hstill, h.call, h.queue, h.receipts, fun n => ?_, fun x hx => ?_, h.held⟩
    · have hle := h.places n
      have hsum := hcount n
      have hone : count n ({ o with retries := o.retries + 1 } :: t.losses) =
          count n [o] + count n t.losses := count_cons _ _
      show count n ({ o with retries := o.retries + 1 } :: t.losses) + count n t.held.toList ≤ _
      omega
    · rcases List.mem_cons.mp hx with rfl | hx
      · exact ⟨⟨ho.dependency, ho.reason⟩, (hpast hcurrent).congr rfl rfl rfl,
          Nat.le_of_eq hcurrent⟩
      · exact h.losses x hx

theorem restoration_foldl (h : Stable s) (losses : List Observation)
    (hlosses : ∀ x ∈ losses, Notice x ∧ (x.bindingGeneration = s.bindingGeneration →
      Past s s.bindingGeneration x)) :
    Restoration s (losses.reverse.foldl State.restoreLoss s) losses := by
  induction losses with
  | nil => exact ⟨.refl s, rfl, rfl, rfl, fun n => Nat.le_refl _, h.losses, h.held⟩
  | cons o losses ih =>
    rw [List.reverse_cons, List.foldl_append]
    obtain ⟨ho, hpast⟩ := hlosses o List.mem_cons_self
    exact (ih fun x hx => hlosses x (List.mem_cons_of_mem _ hx)).restoreLoss ho hpast

/-- What is found at a generation, and is of the current one, has its past there. -/
theorem Carries.current (h : Carries s w) (hx : x ∈ w.found)
    (hcurrent : x.bindingGeneration = s.bindingGeneration) : Past s s.bindingGeneration x := by
  obtain ⟨hpast, hle⟩ := h.found x hx
  have hread := h.read
  have hsame : w.generation = s.bindingGeneration := by omega
  exact hsame ▸ hpast

/-- **The losses are restored.** -/
theorem Stable.restores (h : Stable s) {losses batch : List Observation}
    (hworker : s.worker = .restore generation losses batch) : Stable (s.work l reply) := by
  have hcarries := h.carries
  rw [hworker] at hcarries
  have hloop : Restoration s (losses.reverse.foldl State.restoreLoss s) losses :=
    restoration_foldl h losses fun x hx => ⟨hcarries.lost x hx, fun hc => hcarries.current hx hc⟩
  unfold State.work
  rw [hworker]
  dsimp only
  revert hloop
  generalize losses.reverse.foldl State.restoreLoss s = t
  intro hloop
  have hstill : Still s { t with
      losses := lastOf maxLosses t.losses
      worker := .send generation .batch batch } :=
    hloop.still.trans (.silent (.silent rfl rfl rfl rfl rfl rfl rfl) rfl)
  have hreceipts : t.receipts = s.receipts := hloop.receipts
  refine h.still hstill (fun n => ?_) (fun c hc => ?_) (fun x hx => ?_) (hreceipts ▸ h.receipts)
    (fun x hx => ?_) (fun x hx => hloop.losses x (mem_lastOf hx)) hloop.held ?_
  · have hle := hloop.places n
    have hlast := count_lastOf (n := n) maxLosses t.losses
    unfold State.tally State.rest State.boundary
    rw [hworker]
    show count n (t.call.map Call.observation).toList + count n t.queue +
        count n (lastOf maxLosses t.losses) + count n batch + count n t.held.toList ≤
      count n (s.call.map Call.observation).toList + count n s.queue + count n s.losses +
        count n (losses ++ batch) + count n s.held.toList
    rw [hloop.call, hloop.queue, count_append]
    omega
  · exact ⟨h.stamped c (hloop.call ▸ hc), c, hloop.call ▸ hc, rfl, rfl, rfl⟩
  · refine Or.inr (Or.inl ⟨x, ?_, rfl⟩)
    rw [hworker]
    rcases List.mem_append.mp hx with hx | hx
    · exact List.mem_append_left _ (hloop.queue ▸ hx)
    · exact List.mem_append_right _ (List.mem_append_right _ hx)
  · have hin : x ∈ s.queue := hloop.queue ▸ hx
    exact ⟨(h.queue x hin).still hstill fun _ _ hnone => hreceipts ▸ hnone, h.earlier x hin⟩
  · refine Carries.still (s := s) ⟨hcarries.read, List.forall_mem_nil _,
      fun x hx => hcarries.earlier x ?_, fun hg x hx => hcarries.past hg x (List.mem_append_right _ hx),
      List.forall_mem_nil _, List.forall_mem_nil _,
      fun x hx => hcarries.gone x (List.mem_append_right _ hx), fun hno => absurd rfl hno,
      List.nil_subset _, nofun⟩ hstill (fun _ _ _ _ hnone => hreceipts ▸ hnone) fun hno => absurd rfl hno
    have hx' : x ∈ batch ++ [] := hx
    rw [List.append_nil] at hx'
    exact List.mem_append_left _ (List.mem_append_right _ hx')

/-- What `Requeue` has done with some items to the state `s` before it. -/
structure Return (s t : State) (done : List Observation) : Prop where
  still : Still s t
  call : t.call = s.call
  held : t.held = s.held
  receipts : t.receipts.map Receipt.updateId = s.receipts.map Receipt.updateId
  places : ∀ n, count n t.queue + count n t.losses ≤
    count n s.queue + count n s.losses + count n done
  queue : ∀ x ∈ t.queue, x ∈ s.queue ∨ (Past s s.bindingGeneration x ∧ Spent x ∧
    x.bindingGeneration = s.bindingGeneration ∧ ∃ y ∈ done, x.dependency = y.dependency)
  losses : ∀ x ∈ t.losses, Notice x ∧ Past s s.bindingGeneration x ∧
    x.bindingGeneration ≤ s.bindingGeneration

theorem Return.putBack {t : State} {done : List Observation} (h : Return s t done)
    (hpast : o.bindingGeneration = s.bindingGeneration → Past s s.bindingGeneration o)
    (hreturns : o.bindingGeneration = s.bindingGeneration →
      (Room l t o → Spent o) ∧ (¬ Room l t o → Unsent s o)) :
    Return s (t.putBack l o) (o :: done) := by
  have hframe := frame_putBack l t o
  obtain ⟨hheld, hcall⟩ := held_putBack l t o
  have hcases := putBack_cases l t o
  have htries (g : ℕ) : (t.putBack l o).tries g = t.tries g := by
    revert hcases
    generalize t.putBack l o = u
    intro hcases
    cases hcases with
    | stale => rfl
    | lost =>
      show (t.trace ++ [Event.lost _]).flatMap _ = _
      rw [List.flatMap_append, List.flatMap_singleton]
      exact List.append_nil _
    | queued => rfl
  revert hframe hheld hcall hcases htries
  generalize t.putBack l o = u
  intro hframe hheld hcall hcases htries
  have hstill : Still s u := h.still.trans ⟨hframe, htries⟩
  have hgeneration := h.still.frame.generation
  have hcount (n : ℕ) : count n (o :: done) = count n [o] + count n done := count_cons o done
  have hqueue : ∀ x ∈ t.queue, x ∈ s.queue ∨ (Past s s.bindingGeneration x ∧ Spent x ∧
      x.bindingGeneration = s.bindingGeneration ∧ ∃ y ∈ o :: done, x.dependency = y.dependency) := by
    intro x hx
    rcases h.queue x hx with hx | ⟨hx', hspent, hcurrent, y, hy, hsame⟩
    · exact Or.inl hx
    · exact Or.inr ⟨hx', hspent, hcurrent, y, List.mem_cons_of_mem _ hy, hsame⟩
  have hheld' : u.held = s.held := hheld.trans h.held
  have hcall' : u.call = s.call := hcall.trans h.call
  cases hcases with
  | stale =>
    refine ⟨hstill, hcall', hheld', h.receipts, fun n => ?_, hqueue, h.losses⟩
    have hle := h.places n
    have hsum := hcount n
    omega
  | lost hcurrent hno =>
    rw [hgeneration] at hcurrent
    have hunsent : Unsent s o := (hreturns hcurrent).2 fun hroom => by
      obtain ⟨hretries, hlength, hbytes⟩ := hroom
      omega
    refine ⟨hstill, hcall', hheld', (ids_markDependencyUnknown _ _).trans h.receipts, fun n => ?_,
      hqueue, fun x hx => ?_⟩
    · have hle := h.places n
      have hsum := hcount n
      have hlast := count_lastOf (n := n) maxLosses (t.losses ++
        [lossNotice { o with retries := o.retries + 1 } t.source (ascii "requeue_saturated")])
      have hone : count n [lossNotice { o with retries := o.retries + 1 } t.source
          (ascii "requeue_saturated")] = count n [o] := rfl
      rw [count_append, hone] at hlast
      show count n t.queue + count n (lastOf maxLosses _) ≤ _
      omega
    · rcases List.mem_append.mp (mem_lastOf hx) with hx | hx
      · exact h.losses x hx
      · rw [List.mem_singleton.mp hx]
        exact ⟨notice_lossNotice (by decide), past_lossNotice hunsent, Nat.le_of_eq hcurrent⟩
  | queued hcurrent hretries hlength hbytes =>
    rw [hgeneration] at hcurrent
    have hspent : Spent o := (hreturns hcurrent).1 ⟨hretries, hlength, hbytes⟩
    refine ⟨hstill, hcall', hheld', h.receipts, fun n => ?_, fun x hx => ?_, h.losses⟩
    · have hle := h.places n
      have hsum := hcount n
      have hone : count n ({ o with retries := o.retries + 1 } :: t.queue) =
          count n [o] + count n t.queue := count_cons _ _
      show count n ({ o with retries := o.retries + 1 } :: t.queue) + count n t.losses ≤ _
      omega
    · rcases List.mem_cons.mp hx with rfl | hx
      · exact Or.inr ⟨(hpast hcurrent).congr rfl rfl rfl, hspent, hcurrent, o,
          List.mem_cons_self, rfl⟩
      · exact hqueue x hx

theorem return_foldl (h : Stable s) (batch : List Observation)
    (hbatch : ∀ x ∈ batch, x.bindingGeneration = s.bindingGeneration →
      Past s s.bindingGeneration x) (hreturns : Returns l s batch) :
    Return s (batch.reverse.foldl (State.putBack l) s) batch := by
  induction batch with
  | nil => exact ⟨.refl s, rfl, rfl, rfl, fun n => Nat.le_refl _, fun x hx => Or.inl hx, h.losses⟩
  | cons o batch ih =>
    rw [List.reverse_cons, List.foldl_append]
    exact (ih (fun x hx => hbatch x (List.mem_cons_of_mem _ hx)) hreturns.1).putBack
      (hbatch o List.mem_cons_self) hreturns.2

/-- **The batch is requeued.** -/
theorem Stable.requeues (h : Stable s) {batch : List Observation}
    (hworker : s.worker = .requeue generation batch) (hreturns : Returns l s batch) :
    Stable (s.work l reply) := by
  have hcarries := h.carries
  rw [hworker] at hcarries
  have hloop : Return s (batch.reverse.foldl (State.putBack l) s) batch :=
    return_foldl h batch (fun x hx hc => hcarries.current hx hc) hreturns
  unfold State.work
  rw [hworker]
  dsimp only
  revert hloop
  generalize batch.reverse.foldl (State.putBack l) s = t
  intro hloop
  have hstill : Still s { t with worker := .policy generation } :=
    hloop.still.trans (.silent (.silent rfl rfl rfl rfl rfl rfl rfl) rfl)
  have hfewer : Fewer s.receipts t.receipts := fewer_of_map hloop.receipts
  refine h.still hstill (fun n => ?_) (fun c hc => ?_) (fun x hx => ?_)
    (hloop.receipts ▸ h.receipts) (fun x hx => ?_) hloop.losses (fun x hx => h.held x (hloop.held ▸ hx))
    ⟨?_, List.forall_mem_nil _, List.forall_mem_nil _,
      fun _ => List.forall_mem_nil _, List.forall_mem_nil _,
      List.forall_mem_nil _, List.forall_mem_nil _,
      fun hno => absurd rfl hno, List.nil_subset _, nofun⟩
  · have hle := hloop.places n
    unfold State.tally State.rest State.boundary
    rw [hworker]
    show count n (t.call.map Call.observation).toList + count n t.queue + count n t.losses +
        count n [] + count n t.held.toList ≤
      count n (s.call.map Call.observation).toList + count n s.queue + count n s.losses +
        count n batch + count n s.held.toList
    rw [hloop.call, hloop.held, count_nil]
    omega
  · exact ⟨h.stamped c (hloop.call ▸ hc), c, hloop.call ▸ hc, rfl, rfl, rfl⟩
  · have hx' : x ∈ t.queue ++ [] := hx
    rw [List.append_nil] at hx'
    rcases hloop.queue x hx' with hx | ⟨-, -, -, y, hy, hsame⟩
    · exact Or.inr (Or.inl ⟨x, List.mem_append_left _ hx, rfl⟩)
    · refine Or.inr (Or.inl ⟨y, List.mem_append_right _ ?_, hsame⟩)
      rw [hworker]
      exact hy
  · rcases hloop.queue x hx with hx | ⟨hpast, hspent, hcurrent, y, hy, hsame⟩
    · exact ⟨(h.queue x hx).still hstill fun _ _ => hfewer.gone, h.earlier x hx⟩
    · refine ⟨⟨?_, fun _ => ⟨hspent, fun u hu => hfewer.gone ?_⟩⟩, Nat.le_of_eq hcurrent⟩
      · exact hpast.now hstill
      · exact hcarries.gone y hy u (hsame ▸ hu)
  · exact hstill.frame.generation ▸ hcarries.read

/-! ## The worker, step by step -/

/-- The worker goes on with a part of what it has, and has found nothing out. -/
theorem Carries.part {w w' : Worker} (h : Carries s w) (hread : w'.generation ≤ w.generation)
    (hload : w'.load ⊆ w.load) (hsame : w'.load = [] ∨ w'.generation = w.generation)
    (hlost : w'.lost = []) (hfound : w'.found = []) (hnotice : w'.notice = [])
    (hstarted : w'.started = none ∧ w'.trying = []) : Carries s w' where
  read := hread.trans h.read
  lost x hx := absurd (hlost ▸ hx) List.not_mem_nil
  earlier x hx := by
    rw [hnotice, List.append_nil] at hx
    exact h.earlier x (List.mem_append_left _ (hload hx))
  past hg x hx := by
    rcases hsame with hnil | hsame
    · exact absurd (hnil ▸ hx) List.not_mem_nil
    · rw [hsame] at hg ⊢
      exact h.past hg x (hload hx)
  found x hx := absurd (hfound ▸ hx) List.not_mem_nil
  notice x hx := absurd (hnotice ▸ hx) List.not_mem_nil
  gone x hx := h.gone x (hload hx)
  held hno := absurd hnotice hno
  tried := hstarted.2 ▸ List.nil_subset _
  full := by
    rw [hstarted.1]
    nofun

/-- Nothing is in hand. -/
theorem Carries.rests {w w' : Worker} (h : Carries s w) (hread : w'.generation ≤ w.generation)
    (hload : w'.load = []) (hlost : w'.lost = []) (hfound : w'.found = []) (hnotice : w'.notice = [])
    (hstarted : w'.started = none ∧ w'.trying = []) : Carries s w' :=
  h.part hread (hload ▸ List.nil_subset _) (Or.inl hload) hlost hfound hnotice hstarted

/-- What the worker goes on with when it is done with some items, one way or another. -/
theorem Carries.dropped (h : Carries s w) (purpose : Purpose)
    (hgeneration : w.generation = generation)
    (hload : (dropped generation purpose).load ⊆ w.load) :
    Carries s (dropped generation purpose) := by
  cases purpose with
  | losses rest =>
    exact h.part (Nat.le_of_eq hgeneration.symm) hload (Or.inr hgeneration.symm) rfl rfl rfl
      ⟨rfl, rfl⟩
  | batch => exact h.rests (Nat.le_of_eq hgeneration.symm) rfl rfl rfl rfl ⟨rfl, rfl⟩
  | held last =>
    cases last with
    | true => exact h.rests (Nat.zero_le _) rfl rfl rfl rfl ⟨rfl, rfl⟩
    | false => exact h.rests (Nat.le_of_eq hgeneration.symm) rfl rfl rfl rfl ⟨rfl, rfl⟩

/-- The held notice is no more than it was on its way. -/
theorem Carries.boundary (h : Carries s s.worker) : s.held.toList.Sublist s.boundary := by
  unfold State.boundary
  split_ifs with hnotice
  · exact List.Sublist.refl _
  · cases hheld : s.held with
    | none => exact List.nil_sublist _
    | some x =>
      rw [h.held hnotice x hheld]
      exact List.Sublist.refl _

theorem boundary_rests (s' : State) (hnotice : s'.worker.notice = []) :
    s'.boundary = s'.held.toList := by
  unfold State.boundary
  rw [if_pos hnotice]

theorem dropped_load (generation : ℕ) (purpose : Purpose) (items : List Observation) :
    (dropped generation purpose).load.Sublist (Worker.send generation purpose items).load := by
  cases purpose with
  | losses rest => exact List.sublist_append_right _ _
  | batch => exact List.nil_sublist _
  | held last => cases last <;> exact List.nil_sublist _

theorem current_same (generation : ℕ) (purpose : Purpose) (items : List Observation) :
    (Worker.current generation purpose items).load = (Worker.send generation purpose items).load ∧
      (Worker.current generation purpose items).notice =
        (Worker.send generation purpose items).notice ∧
      (Worker.current generation purpose items).lost =
        (Worker.send generation purpose items).lost := by
  cases purpose <;> exact ⟨rfl, rfl, rfl⟩

variable {k : Option Observation}

/-- The worker goes on with no notice on its way; the held one may be gone. -/
theorem Stable.passes (h : Stable s) (hreceipts : rs.map Receipt.updateId =
      s.receipts.map Receipt.updateId) (hk : ∀ x ∈ k, x ∈ s.held)
    (hload : w.load.Sublist s.worker.load) (hnotice : w.notice = []) (hcarries : Carries s w) :
    Stable { s with receipts := rs, held := k, worker := w } := by
  refine h.turns (.silent (.silent rfl rfl rfl rfl rfl rfl rfl) rfl) rfl rfl rfl hload ?_ hreceipts
    hk hcarries
  rw [boundary_rests _ hnotice]
  refine List.Sublist.trans ?_ h.carries.boundary
  cases k with
  | none => exact List.nil_sublist _
  | some x =>
    have hx : s.held = some x := hk x rfl
    rw [hx]

/-- The worker is done with some items. -/
theorem Stable.drops (h : Stable s) (hreceipts : rs.map Receipt.updateId =
      s.receipts.map Receipt.updateId) (hk : ∀ x ∈ k, x ∈ s.held) (purpose : Purpose)
    (hgeneration : s.worker.generation = generation)
    (hload : (dropped generation purpose).load.Sublist s.worker.load) :
    Stable { s with receipts := rs, held := k, worker := dropped generation purpose } := by
  refine h.passes hreceipts hk hload ?_ (h.carries.dropped purpose hgeneration hload.subset)
  cases purpose with
  | losses | batch => rfl
  | held last => cases last <;> rfl

theorem Stable.gives (h : Stable s) (hk : ∀ x ∈ k, x ∈ s.held) (last : Bool)
    (hgeneration : s.worker.generation = generation) :
    Stable { s with held := k, worker := dropped generation (.held last) } :=
  h.drops rfl hk (.held last) hgeneration (by cases last <;> exact List.nil_sublist _)

theorem Stable.sends (h : Stable s) (hworker : s.worker = .send generation purpose items) :
    Stable (s.work l reply) := by
  have hcarries := h.carries
  rw [hworker] at hcarries
  have hdropped : Stable { s with worker := dropped generation purpose } :=
    h.drops rfl (fun _ hx => hx) purpose (by rw [hworker]; rfl)
      (hworker ▸ dropped_load generation purpose items)
  unfold State.work
  rw [hworker]
  dsimp only
  split_ifs with hnil hstale
  · exact hdropped
  · exact hdropped
  · have hcurrent : generation = s.bindingGeneration := not_not.mp hstale
    obtain ⟨hload, hnotice, hlost⟩ := current_same generation purpose items
    refine h.moves ?_ ?_ ⟨hcarries.read, hlost ▸ hcarries.lost, ?_, ?_, fun x hx => ?_, ?_,
      hload ▸ hcarries.gone, ?_, List.nil_subset _, fun hno => hnil (Option.some.inj hno)⟩
    · rw [hworker, hload]
    · unfold State.boundary
      rw [hworker, hnotice]
    · rw [hload, hnotice]
      exact hcarries.earlier
    · rw [hload]
      exact hcarries.past
    · have hx' : x ∈ items := hx
      have hin : (x ∈ (Worker.send generation purpose items).load ∨
          x ∈ (Worker.send generation purpose items).notice) := by
        cases purpose with
        | losses rest => exact Or.inl (List.mem_append_left _ hx')
        | batch => exact Or.inl hx'
        | held last => exact Or.inr hx'
      refine ⟨hin.elim (hcarries.past hcurrent x) (hcarries.notice x), ?_⟩
      have hle := hcarries.earlier x (List.mem_append.mpr hin)
      exact hle.trans (Nat.le_of_eq hcurrent.symm)
    · rw [hnotice]
      exact hcarries.notice
    · rw [hnotice]
      exact hcarries.held

/-- The items are put back. -/
theorem Stable.retries (h : Stable s) (hworker : s.worker = .exchange generation purpose items) :
    Stable { s with worker := retry generation items purpose } := by
  have hcarries := h.carries
  rw [hworker] at hcarries
  cases purpose with
  | losses rest | batch =>
    refine h.passes rfl (fun _ hx => hx) ?_ rfl ⟨hcarries.read, hcarries.lost, hcarries.earlier,
      hcarries.past, hcarries.found, hcarries.notice, hcarries.gone, hcarries.held,
      List.nil_subset _, nofun⟩
    rw [hworker]
    exact List.Sublist.refl _
  | held last => exact h.gives (fun _ hx => hx) last (by rw [hworker]; rfl)

theorem Stable.exchanges (h : Stable s)
    (hworker : s.worker = .exchange generation purpose items) : Stable (s.work l reply) := by
  have hwritten := h.writes hworker
  unfold State.work
  rw [hworker]
  cases reply with
  | unsent => exact h.retries hworker
  | lost => exact hwritten.retries hworker
  | codes codes =>
    have hcarries := hwritten.carries
    have hworker' : (s.note (.sent generation s.bindingGeneration s.socket items)).worker =
        .exchange generation purpose items := hworker
    rw [hworker'] at hcarries
    cases purpose with
    | losses rest =>
      refine hwritten.passes rfl (fun _ hx => hx) ?_ rfl (hcarries.part (Nat.le_refl _) ?_
        (Or.inr rfl) rfl rfl rfl ⟨rfl, rfl⟩)
      · rw [hworker']
        exact List.sublist_append_right _ _
      · exact List.subset_append_right _ _
    | batch =>
      exact hwritten.passes rfl (fun _ hx => hx) (List.nil_sublist _) rfl
        (hcarries.rests (Nat.le_refl _) rfl rfl rfl rfl ⟨rfl, rfl⟩)
    | held last =>
      refine hwritten.moves (List.nil_sublist _) ?_ ⟨hcarries.read, hcarries.lost,
        hcarries.earlier, fun _ => List.forall_mem_nil _, List.forall_mem_nil _, hcarries.notice,
        List.forall_mem_nil _, hcarries.held, List.nil_subset _, nofun⟩
      unfold State.boundary
      rw [hworker']
      exact List.Sublist.refl _

/-- The codes of the answer change receipts only. -/
theorem Stable.bindCodes (h : Stable s) (codes : Option (List Text)) :
    Stable ((s.bindCodes generation items codes).note (.replied items)) ∧
      ((s.bindCodes generation items codes).note (.replied items)).worker = s.worker := by
  obtain ⟨hcall, hqueue, hlosses, hheld, -, -⟩ := same_bindCodes s generation items codes
  have hsame : ((s.bindCodes generation items codes).receipts.map Receipt.updateId =
        s.receipts.map Receipt.updateId) ∧
      (s.bindCodes generation items codes).worker = s.worker ∧
      ∀ g, (s.bindCodes generation items codes).tries g = s.tries g := by
    unfold State.bindCodes
    cases codes with
    | none => exact ⟨ids_noteBatchUnknown _ _ _, rfl, fun _ => rfl⟩
    | some codes =>
      dsimp only
      split_ifs
      · refine ⟨ids_applyCodes _ _, rfl, fun g => ?_⟩
        show (s.trace ++ _).flatMap _ = _
        rw [List.flatMap_append, List.flatMap_map]
        exact (congrArg _ (List.flatMap_eq_nil_iff.mpr fun _ _ => rfl)).trans (List.append_nil _)
      · exact ⟨rfl, rfl, fun _ => rfl⟩
      · exact ⟨ids_noteBatchUnknown _ _ _, rfl, fun _ => rfl⟩
  obtain ⟨hids, hworker, htries⟩ := hsame
  have hworker' : ((s.bindCodes generation items codes).note (.replied items)).worker =
      s.worker := hworker
  have hheld' : ((s.bindCodes generation items codes).note (.replied items)).held = s.held := hheld
  refine ⟨h.turns (Still.trans ⟨frame_bindCodes s generation items codes, htries⟩
    (.tells (e := .replied items) (.tells (e := .replied items) trivial rfl rfl rfl rfl rfl rfl rfl)
      (fun _ => rfl) rfl)) hcall hqueue hlosses ?_ ?_ hids (fun x hx => hheld ▸ hx) ?_, hworker'⟩
  · rw [hworker']
  · unfold State.boundary
    rw [hworker', hheld']
  · rw [hworker']
    exact h.carries

/-- The answer of the exchange is read. -/
theorem Stable.answers (h : Stable s) {codes : Option (List Text)}
    (hworker : s.worker = .answered generation purpose items codes) : Stable (s.work l reply) := by
  obtain ⟨hbound, hworker'⟩ :
      Stable ((s.bindCodes generation items codes).note (.replied items)) ∧ _ := h.bindCodes codes
  unfold State.work
  rw [hworker] at hworker' ⊢
  dsimp only
  generalize (s.bindCodes generation items codes).note (.replied items) = t at hbound hworker' ⊢
  have hcarries := hbound.carries
  rw [hworker'] at hcarries
  cases purpose with
  | losses rest =>
    refine hbound.passes rfl (fun _ hx => hx) ?_ rfl (hcarries.part (Nat.le_refl _)
      (List.Subset.refl _) (Or.inr rfl) rfl rfl rfl ⟨rfl, rfl⟩)
    rw [hworker']
    exact List.Sublist.refl _
  | batch =>
    exact hbound.passes rfl (fun _ hx => hx) (List.nil_sublist _) rfl
      (hcarries.rests (Nat.le_refl _) rfl rfl rfl rfl ⟨rfl, rfl⟩)
  | held last =>
    cases items with
    | nil =>
      exact hbound.passes rfl (fun _ hx => hx) (List.nil_sublist _) rfl
        (hcarries.rests (Nat.zero_le _) rfl rfl rfl rfl ⟨rfl, rfl⟩)
    | cons notice items =>
      refine hbound.moves (List.nil_sublist _) ?_ ⟨hcarries.read, fun x hx => ?_, fun x hx => ?_,
        fun _ => List.forall_mem_nil _, List.forall_mem_nil _, fun x hx => ?_,
        List.forall_mem_nil _, fun _ x hx => ?_, List.nil_subset _, nofun⟩
      · unfold State.boundary
        rw [hworker']
        exact (List.nil_sublist items).cons_cons notice
      · exact hcarries.lost x (List.mem_singleton.mp hx ▸ List.mem_cons_self)
      · exact hcarries.earlier x (List.mem_singleton.mp hx ▸ List.mem_cons_self)
      · exact hcarries.notice x (List.mem_singleton.mp hx ▸ List.mem_cons_self)
      · have hone : notice :: items = [x] := hcarries.held nofun x hx
        cases hone
        rfl

/-- The held notice is sent, or dropped when it is of another generation. -/
theorem Stable.delivers (h : Stable s) {last : Bool} (hworker : s.worker = .deliver generation last) :
    Stable (s.work l reply) := by
  have hcarries := h.carries
  have hdone {k : Option Observation} (hk : ∀ x ∈ k, x ∈ s.held) :
      Stable { s with held := k, worker := dropped generation (.held last) } :=
    h.gives hk last (by rw [hworker]; rfl)
  unfold State.work
  rw [hworker] at hcarries ⊢
  cases hheld : s.held with
  | none => exact hdone (by rintro _ ⟨⟩)
  | some notice =>
    dsimp only
    by_cases hstale : notice.bindingGeneration ≠ generation
    · rw [if_pos hstale]
      exact hdone (by rintro _ ⟨⟩)
    · rw [if_neg hstale, ← hheld]
      obtain ⟨hown, hpast, hle⟩ := h.held notice hheld
      have hcurrent : notice.bindingGeneration = generation := not_not.mp hstale
      refine h.moves (List.nil_sublist _) ?_ ⟨hcarries.read, fun x hx => ?_, fun x hx => ?_,
        fun _ => List.forall_mem_nil _, List.forall_mem_nil _, fun x hx => ?_,
        List.forall_mem_nil _, fun _ x hx => ?_, List.nil_subset _, nofun⟩
      · unfold State.boundary
        rw [hworker, hheld]
        exact List.Sublist.refl _
      · exact List.mem_singleton.mp hx ▸ hown
      · exact List.mem_singleton.mp hx ▸ hle
      · exact List.mem_singleton.mp hx ▸ (hcurrent ▸ hpast : Past s generation notice)
      · rw [hheld] at hx
        exact congrArg (fun y => [y]) (Option.some.inj hx)

/-- **A step of the worker** whose batch may be requeued. -/
theorem Stable.work (h : Stable s)
    (hreturns : ∀ generation batch, s.worker = .requeue generation batch → Returns l s batch) :
    Stable (s.work l reply) := by
  have hcarries := h.carries
  cases hworker : s.worker with
  | idle =>
    unfold State.work
    rw [hworker] at hcarries ⊢
    refine h.passes rfl (fun _ hx => hx) (List.nil_sublist _) rfl ⟨Nat.le_refl _,
      List.forall_mem_nil _, List.forall_mem_nil _, fun _ => List.forall_mem_nil _,
      List.forall_mem_nil _, List.forall_mem_nil _, List.forall_mem_nil _,
      fun hno => absurd rfl hno, List.nil_subset _, nofun⟩
  | stamped generation =>
    unfold State.work
    rw [hworker]
    exact h.take hworker
  | send generation purpose items => exact h.sends hworker
  | current generation purpose items =>
    unfold State.work
    rw [hworker]
    dsimp only
    split_ifs with hsafe
    · exact h.tries hworker
    · refine h.drops (ids_noteBatchUnknown _ _ _) (fun _ hx => hx) purpose (by rw [hworker]; rfl) ?_
      rw [hworker, (current_same generation purpose items).1]
      exact dropped_load generation purpose items
  | exchange generation purpose items => exact h.exchanges hworker
  | answered generation purpose items codes => exact h.answers hworker
  | restore generation losses batch => exact h.restores hworker
  | requeue generation batch => exact h.requeues hworker (hreturns generation batch hworker)
  | deliver generation last => exact h.delivers hworker
  | delivered generation notice last =>
    unfold State.work
    rw [hworker]
    refine h.gives (fun x hx => ?_) last (by rw [hworker]; rfl)
    cases hheld : s.held with
    | none =>
      simp only [hheld] at hx
      cases hx
    | some held =>
      simp only [hheld] at hx
      split_ifs at hx
      · cases hx
      · exact hx
  | policy generation =>
    unfold State.work
    rw [hworker] at hcarries ⊢
    have hnext : Stable { s with worker :=
        if s.policyExchangeOk = true then .deliver generation true else .idle } := by
      split_ifs
      · exact h.passes rfl (fun _ hx => hx) (List.nil_sublist _) rfl
          (hcarries.rests (Nat.le_refl _) rfl rfl rfl rfl ⟨rfl, rfl⟩)
      · exact h.passes rfl (fun _ hx => hx) (List.nil_sublist _) rfl
          (hcarries.rests (Nat.zero_le _) rfl rfl rfl rfl ⟨rfl, rfl⟩)
    exact hnext.turns (.silent (.silent rfl rfl rfl rfl rfl rfl rfl) rfl) rfl rfl rfl
      (List.Sublist.refl _) (List.Sublist.refl _) rfl (fun _ hx => hx) hnext.carries

/-! ## Runs -/

/-- Only what the claim does not look at changes, and numbers may be taken. -/
theorem Stable.aside (h : Stable s) (hissued : s.issued ≤ s'.issued)
    (hgeneration : s'.bindingGeneration = s.bindingGeneration) (htrace : s'.trace = s.trace)
    (hcall : s'.call = s.call) (hqueue : s'.queue = s.queue) (hlosses : s'.losses = s.losses)
    (hheld : s'.held = s.held) (hreceipts : s'.receipts = s.receipts)
    (hworker : s'.worker = s.worker) : Stable s' := by
  have hframes (g : ℕ) : s'.frames g = s.frames g := by rw [State.frames, htrace, State.frames]
  have htries (g : ℕ) : s'.tries g = s.tries g := by rw [State.tries, htrace, State.tries]
  have htally (n : ℕ) : s'.tally n = s.tally n := by
    unfold State.tally State.rest State.boundary
    rw [hcall, hqueue, hlosses, hheld, hworker]
  have hpast {g : ℕ} {x : Observation} (hx : Past s g x) : Past s' g x :=
    ⟨fun o ho => hx.frames o (hframes g ▸ ho), fun hd o ho => hx.tries hd o (htries g ▸ ho)⟩
  refine ⟨fun n => htally n ▸ h.tally n, fun n hn => (htally n).trans (h.issued n (by omega)),
    fun g o ho => (h.tried g o (htries g ▸ ho)).trans hissued,
    fun g => hframes g ▸ htries g ▸ h.written g, fun c hc => ?_, fun x hx u hu => ?_,
    hreceipts ▸ h.receipts, fun x hx => hgeneration ▸ h.earlier x (hqueue ▸ hx), fun c hc => ?_,
    fun x hx => ?_, fun x hx => ?_, fun x hx => ?_, ?_, ⟨fun g => ?_, fun g => ?_⟩⟩
  · obtain ⟨hown, hfresh, holder⟩ := h.call c (hcall ▸ hc)
    rw [hqueue, hworker]
    exact ⟨hown, fun g o ho => hfresh g o (htries g ▸ ho), holder⟩
  · rw [hcall, hqueue, hworker] at hx
    exact (h.named x hx u hu).trans hissued
  · exact (h.stamped c (hcall ▸ hc)).mono (Nat.le_of_eq hgeneration.symm)
  · obtain ⟨hx', htried⟩ := h.queue x (hqueue ▸ hx)
    refine ⟨hgeneration ▸ hpast hx', fun ho => ?_⟩
    rw [hgeneration, htries] at ho
    rw [hreceipts]
    exact htried ho
  · obtain ⟨hnotice, hx', hle⟩ := h.losses x (hlosses ▸ hx)
    rw [hgeneration]
    exact ⟨hnotice, hpast hx', hle⟩
  · obtain ⟨hnotice, hx', hle⟩ := h.held x (hheld ▸ hx)
    rw [hgeneration]
    exact ⟨hnotice, hpast hx', hle⟩
  · rw [hworker]
    have hcarries := h.carries
    exact ⟨hgeneration ▸ hcarries.read, hcarries.lost, hgeneration ▸ hcarries.earlier,
      fun hg x hx => hpast (hcarries.past (hg.trans hgeneration) x hx),
      fun x hx => ⟨hpast (hcarries.found x hx).1, (hcarries.found x hx).2⟩,
      fun x hx => hpast (hcarries.notice x hx), hreceipts ▸ hcarries.gone, hheld ▸ hcarries.held,
      htries s.worker.generation ▸ hcarries.tried, hcarries.full⟩
  · rw [hframes]
    exact h.same.frames g
  · rw [htries]
    exact h.same.retractions g

/-- **The generation ends**: what waits is dropped, and what the worker has found is of the past. -/
theorem Stable.ends (h : Stable s) (hissued : s'.issued = s.issued)
    (hgeneration : s'.bindingGeneration = s.bindingGeneration + 1) (htrace : s'.trace = s.trace)
    (hcall : s'.call = s.call) (hqueue : s'.queue = []) (hlosses : s'.losses = [])
    (hheld : ∀ x ∈ s'.held, x ∈ s.held) (hreceipts : s'.receipts = [])
    (hworker : s'.worker = s.worker) : Stable s' := by
  have hframes (g : ℕ) : s'.frames g = s.frames g := by rw [State.frames, htrace, State.frames]
  have htries (g : ℕ) : s'.tries g = s.tries g := by rw [State.tries, htrace, State.tries]
  have hpast {g : ℕ} {x : Observation} (hx : Past s g x) : Past s' g x :=
    ⟨fun o ho => hx.frames o (hframes g ▸ ho), fun hd o ho => hx.tries hd o (htries g ▸ ho)⟩
  have hboundary : s'.boundary.Sublist s.boundary := by
    unfold State.boundary
    rw [hworker]
    split_ifs
    · cases hx : s'.held with
      | none => exact List.nil_sublist _
      | some x =>
        have hx' : s.held = some x := hheld x hx
        rw [hx']
    · exact List.Sublist.refl _
  have htally (n : ℕ) : s'.tally n ≤ s.tally n := by
    have hle := count_le (n := n) hboundary
    unfold State.tally State.rest
    rw [hcall, hqueue, hlosses, hworker, count_nil]
    omega
  have hload (x : Observation) (hx : x ∈ s'.queue ++ s'.worker.load) :
      x ∈ s.queue ++ s.worker.load := by
    rw [hqueue, hworker] at hx
    exact List.mem_append_right _ hx
  refine ⟨fun n => (htally n).trans (h.tally n), fun n hn => ?_,
    fun g o ho => hissued ▸ h.tried g o (htries g ▸ ho),
    fun g => hframes g ▸ htries g ▸ h.written g, fun c hc => ?_, fun x hx u hu => ?_, ?_,
    fun x hx => ?_, fun c hc => ?_, fun x hx => ?_, fun x hx => ?_, fun x hx => ?_, ?_,
    ⟨fun g => ?_, fun g => ?_⟩⟩
  · have hzero := h.issued n (hissued ▸ hn)
    have hle := htally n
    omega
  · obtain ⟨hown, hfresh, holder⟩ := h.call c (hcall ▸ hc)
    exact ⟨hown, fun g o ho => hfresh g o (htries g ▸ ho), fun x hx => holder x (hload x hx)⟩
  · rw [hissued]
    refine h.named x ?_ u hu
    rcases List.mem_append.mp hx with hx | hx
    · exact List.mem_append_left _ (hcall ▸ hx)
    · exact List.mem_append_right _ (hload x hx)
  · rw [hreceipts]
    exact List.nodup_nil
  · rw [hqueue] at hx
    exact absurd hx List.not_mem_nil
  · exact (h.stamped c (hcall ▸ hc)).mono (by omega)
  · rw [hqueue] at hx
    exact absurd hx List.not_mem_nil
  · rw [hlosses] at hx
    exact absurd hx List.not_mem_nil
  · obtain ⟨hnotice, hx', hle⟩ := h.held x (hheld x hx)
    exact ⟨hnotice, hpast hx', by omega⟩
  · rw [hworker]
    have hcarries := h.carries
    have hread := hcarries.read
    refine ⟨by omega, hcarries.lost, fun x hx => ?_, fun hg => ?_,
      fun x hx => ⟨hpast (hcarries.found x hx).1, (hcarries.found x hx).2⟩,
      fun x hx => hpast (hcarries.notice x hx), fun x hx u hu r hr => ?_,
      fun hnotice x hx => hcarries.held hnotice x (hheld x hx),
      htries s.worker.generation ▸ hcarries.tried, hcarries.full⟩
    · have hle := hcarries.earlier x hx
      omega
    · omega
    · rw [hreceipts] at hr
      exact absurd hr List.not_mem_nil
  · rw [hframes]
    exact h.same.frames g
  · rw [htries]
    exact h.same.retractions g

/-- **A call begins**, under a number that is new. -/
theorem Stable.begin (h : Stable s) {draft : Draft} (hcall : s.call = none)
    (hdependency : ∀ u ∈ draft.observation.dependency, u ≤ s.issued) : Stable (s.begin draft) := by
  have hframes (g : ℕ) : (s.begin draft).frames g = s.frames g := by
    show (s.trace ++ [Event.began _ _]).flatMap _ = _
    rw [List.flatMap_append, List.flatMap_singleton]
    exact List.append_nil _
  have htries (g : ℕ) : (s.begin draft).tries g = s.tries g := by
    show (s.trace ++ [Event.began _ _]).flatMap _ = _
    rw [List.flatMap_append, List.flatMap_singleton]
    exact List.append_nil _
  have hpast {g : ℕ} {x : Observation} (hx : Past s g x) : Past (s.begin draft) g x :=
    ⟨fun o ho => hx.frames o (hframes g ▸ ho), fun hd o ho => hx.tries hd o (htries g ▸ ho)⟩
  have htally (n : ℕ) : (s.begin draft).tally n = [s.issued + 1].count n + s.tally n := by
    unfold State.tally State.rest
    rw [hcall]
    show [s.issued + 1].count n + count n s.queue + count n s.losses + count n s.worker.load +
        count n s.boundary =
      _ + (0 + count n s.queue + count n s.losses + count n s.worker.load + count n s.boundary)
    omega
  have hone (n : ℕ) : [s.issued + 1].count n = if n = s.issued + 1 then 1 else 0 := by
    rw [List.count_singleton]
    by_cases hn : n = s.issued + 1
    · rw [if_pos hn, if_pos (by simpa using hn.symm)]
    · rw [if_neg hn, if_neg (by simpa using fun hno => hn hno.symm)]
  have hcarries := h.carries
  refine ⟨fun n => ?_, fun n hn => ?_, fun g o ho => Nat.le_succ_of_le (h.tried g o (htries g ▸ ho)),
    fun g => hframes g ▸ htries g ▸ h.written g, fun c hc => ?_, fun x hx u hu => ?_, h.receipts,
    h.earlier, fun c hc => ?_, fun x hx => ?_, fun x hx => ?_, fun x hx => ?_, ?_,
    ⟨fun g => ?_, fun g => ?_⟩⟩
  · rw [htally, hone]
    have hle := h.tally n
    split_ifs with hn
    · have hzero := h.issued n (by omega)
      omega
    · omega
  · have hn' : s.issued + 1 < n := hn
    rw [htally, hone, if_neg (by omega), h.issued n (by omega)]
  · rw [← Option.some.inj hc]
    refine ⟨rfl, fun g o ho => ?_, fun x hx u hu => ?_⟩
    · have hle := h.tried g o (htries g ▸ ho)
      exact Nat.ne_of_lt (Nat.lt_succ_of_le hle)
    · exact Nat.lt_succ_of_le (h.named x (List.mem_append_right _ hx) u hu)
  · rcases List.mem_append.mp hx with hx | hx
    · rw [List.mem_singleton.mp hx] at hu
      exact Nat.le_succ_of_le (hdependency u hu)
    · exact Nat.le_succ_of_le (h.named x (List.mem_append_right _ hx) u hu)
  · rw [← Option.some.inj hc]
    trivial
  · obtain ⟨hx', htried⟩ := h.queue x hx
    exact ⟨hpast hx', fun ⟨o, ho, hsame⟩ => htried ⟨o, htries s.bindingGeneration ▸ ho, hsame⟩⟩
  · obtain ⟨hnotice, hx', hle⟩ := h.losses x hx
    exact ⟨hnotice, hpast hx', hle⟩
  · obtain ⟨hnotice, hx', hle⟩ := h.held x hx
    exact ⟨hnotice, hpast hx', hle⟩
  · exact ⟨hcarries.read, hcarries.lost, hcarries.earlier,
      fun hg x hx => hpast (hcarries.past hg x hx),
      fun x hx => ⟨hpast (hcarries.found x hx).1, (hcarries.found x hx).2⟩,
      fun x hx => hpast (hcarries.notice x hx), hcarries.gone, hcarries.held,
      htries s.worker.generation ▸ hcarries.tried, hcarries.full⟩
  · rw [hframes]
    exact h.same.frames g
  · rw [htries]
    exact h.same.retractions g

/-- **One step** that meets the condition. -/
theorem stable_step (h : Stable s) (a : Action) (hsteady : Steady l s a) : Stable (step l s a) := by
  cases a with
  | call draft =>
    show Stable (if _ then s.begin draft else s)
    split_ifs with hcall
    · exact h.begin (Option.isNone_iff_eq_none.mp hcall.1) hcall.2
    · exact h
  | token => exact h.aside (Nat.le_succ _) rfl rfl rfl rfl rfl rfl rfl rfl
  | tryAdmit now contended => exact h.tryAdmit hsteady
  | work reply => exact h.work hsteady
  | poll => exact h.aside (Nat.le_refl _) rfl rfl rfl rfl rfl rfl rfl rfl
  | polled index answer now =>
    show Stable (s.polled index answer now)
    unfold State.polled
    cases s.polls[index]? with
    | none => exact h
    | some poll =>
      dsimp only
      split_ifs
      · exact h.aside (Nat.le_refl _) rfl rfl rfl rfl rfl rfl rfl rfl
      · cases answer <;> exact h.aside (Nat.le_refl _) rfl rfl rfl rfl rfl rfl rfl rfl
  | refresh safe => exact h.aside (Nat.le_refl _) rfl rfl rfl rfl rfl rfl rfl rfl
  | abandon => exact h.ends rfl rfl rfl rfl rfl rfl (fun _ hx => nomatch hx) rfl rfl
  | retarget socket => exact h.ends rfl rfl rfl rfl rfl rfl (fun _ hx => hx) rfl rfl

instance (o : Observation) : Decidable (Spent o) :=
  inferInstanceAs (Decidable (_ → _))

instance (s : State) (o : Observation) : Decidable (Unsent s o) :=
  inferInstanceAs (Decidable (∀ x ∈ s.frames s.bindingGeneration, x.sequence ≠ o.sequence))

instance (l : Limits) (s : State) (o : Observation) : Decidable (Room l s o) :=
  inferInstanceAs (Decidable (_ ∧ _ ∧ _))

instance decidableReturns (l : Limits) (s : State) : ∀ items, Decidable (Returns l s items)
  | [] => .isTrue trivial
  | o :: items =>
    have := decidableReturns l s items
    inferInstanceAs (Decidable (Returns l s items ∧ (o.bindingGeneration = s.bindingGeneration →
      (Room l (items.reverse.foldl (State.putBack l) s) o → Spent o) ∧
      (¬ Room l (items.reverse.foldl (State.putBack l) s) o → Unsent s o))))

instance decidableSteady (l : Limits) (s : State) : ∀ a, Decidable (Steady l s a)
  | .tryAdmit _ contended =>
    match hcall : s.call with
    | some (.allowed o _) =>
      decidable_of_iff (contended = false → s.fits l o.budgetBytes = false → o.isHigh = true →
          ∀ index ∈ s.queue.findIdx? isLow, ∀ old ∈ s.queue[index]?, Unsent s old)
        ⟨fun h x policy hx => by
          cases hcall.symm.trans hx
          exact h, fun h => h o _ hcall⟩
    | none => .isTrue fun x policy hx => nomatch hcall.symm.trans hx
    | some (.begun _) | some (.safe _) | some (.stamped _) =>
      .isTrue fun x policy hx => nomatch hcall.symm.trans hx
  | .work _ =>
    match hworker : s.worker with
    | .requeue _ batch =>
      decidable_of_iff (Returns l s batch)
        ⟨fun h g items hx => by
          cases hworker.symm.trans hx
          exact h, fun h => h _ batch hworker⟩
    | .idle | .stamped _ | .send .. | .current .. | .exchange .. | .answered .. | .restore ..
    | .deliver .. | .delivered .. | .policy _ => .isTrue fun g items hx => nomatch hworker.symm.trans hx
  | .call _ | .token | .poll | .polled .. | .refresh _ | .abandon | .retarget _ => .isTrue trivial

/-- A commit is admitted, and the response to the frame with its retraction is lost. -/
def downgradedActions : List Action :=
  polledActions ++ admittedActions sampleCommit ++ admittedActions (sampleIntent 1) ++
    sentActions (.codes (some [ascii "admitted"])) ++ restedActions ++ sentActions .lost ++
    [.work .unsent] ++ sentActions (.codes (some [ascii "identity_conflict"]))

end Native
end SemanticMemory
