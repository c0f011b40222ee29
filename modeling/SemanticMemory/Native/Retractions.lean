import SemanticMemory.Native.Steps
import Mathlib.Data.List.Sort

/-!
# Retractions

A retraction waits in the queue until the fate of its commit is known.  It then leaves with the
content of the commit, if the collector has admitted exactly this commit, and without content
otherwise.

* `Backed` and `Honest` are the claim about the frames: what a retraction carries is what its commit
  was admitted with.
* `Unblocked` is the claim about the queue: whoever still waits has its commit in front of it, or in
  the batch that is being sent.
* A worker that has read a generation which ends before it takes its batch drops the batch without a
  word, and the receipts of the commits in it stay pending for ever.  `Prompt` excludes this.
* `Ledger` is the invariant.
-/

namespace SemanticMemory
namespace Native

variable {l : Limits} {s s' : State} {o : Observation} {reply : Reply}

/-! ## The claim -/

/-- **The content of a retraction** is that of its commit, whose own code in this generation has
admitted it. -/
structure Backed (trace : List Event) (generation update : ℕ) (schemaId payloadText : Text)
    (commit : Observation) (code : Text) : Prop where
  answered : .answered generation commit code ∈ trace
  admitted : knownAdmissionCode code = true
  retractable : commit.retractableCommit = true
  update : commit.updateId = some update
  schema : schemaId = commit.schemaId
  payload : payloadText = commit.payloadText

/-- A retraction as it leaves: with the content of its commit, or as a notice without content. -/
def Leaves (trace : List Event) (generation : ℕ) (o : Observation) : Prop :=
  ∀ update, o.dependency = some update →
    (o.kind = .pluginObservation ∧
      ∃ commit code, Backed trace generation update o.schemaId o.payloadText commit code) ∨
    (o.kind = .exclusionNotice ∧ o.serialized.payload = none)

/-- **Every frame is honest**: what had happened before it backs the retractions in it. -/
def Honest (s : State) : Prop :=
  ∀ i generation bound socket items, s.trace[i]? = some (.sent generation bound socket items) →
    ∀ o ∈ items, Leaves (s.trace.take i) generation o

/-- **Nobody waits in vain**: the commit of a retraction that cannot be resolved is queued before it,
or in the batch that is being sent. -/
def Unblocked (s : State) : Prop :=
  ∀ front o back update, s.queue = front ++ o :: back → o.dependency = some update →
    resolve s.bindingGeneration s.receipts o = none →
      ∃ commit ∈ front ++ s.worker.batch, commit.updateId = some update ∧
        commit.retractableCommit = true

/-- **The worker is prompt**: the generation that it has read is current when it takes its batch, or
there is no commit to take. -/
def Prompt (s : State) : Action → Prop
  | .work _ => ∀ generation, s.worker = .stamped generation →
      generation = s.bindingGeneration ∨
        ∀ o ∈ s.queue.take batchSize, o.retractableCommit = false
  | _ => True

/-! ## The invariant -/

def Worker.notices : Worker → List Observation
  | .send _ (.losses _) items | .current _ (.losses _) items | .exchange _ (.losses _) items
  | .answered _ (.losses _) items _ => items
  | .send _ (.held _) items | .current _ (.held _) items | .exchange _ (.held _) items
  | .answered _ (.held _) items _ => items
  | .restore _ losses _ => losses
  | .delivered _ notice _ => [notice]
  | _ => []

/-- The worker has found its generation current since it has taken its batch. -/
def Worker.isChecked : Worker → Bool
  | .current .. | .exchange .. => true
  | _ => false

/-- An observation under its number: its update, and the update that it names. -/
structure Numbered (o : Observation) : Prop where
  update : o.updateId = some o.sequence
  dependency : ∀ u ∈ o.dependency, u < o.sequence
  retractable : o.retractableCommit = true → o.schemaId ≠ [] ∧ o.dependency = none

/-- What is numbered, from the oldest on: the batch, the queue and the call. -/
def State.line (s : State) : List Observation :=
  s.worker.batch ++ (s.queue ++ (s.call.map Call.observation).toList)

/-- A notice names no dependency and is no commit. -/
structure Plain (o : Observation) : Prop where
  dependency : o.dependency = none
  retractable : o.retractableCommit = false

/-- A receipt that is admitted in the generation is backed. -/
def Receipt.Sound (s : State) (r : Receipt) : Prop :=
  r.state = .admitted → r.generation = s.bindingGeneration → r.schemaId ≠ [] ∧
    ∃ commit code, Backed s.trace s.bindingGeneration r.updateId r.schemaId r.payloadText commit code

/-- The commit of a receipt that is pending in the generation. -/
def Awaited (s : State) (r : Receipt) : Prop :=
  r.state = .pending → r.generation = s.bindingGeneration →
    ∃ c ∈ s.worker.batch ++ s.queue, c.updateId = some r.updateId ∧
      c.bindingGeneration = r.generation ∧ c.retractableCommit = true

structure Sending (s : State) (w : Worker) : Prop where
  read : w.generation ≤ s.bindingGeneration
  notices : ∀ o ∈ w.notices, Plain o
  /-- The generation of a batch is that of its commits, or a later one. -/
  commits : ∀ o ∈ w.batch, o.retractableCommit = true → o.bindingGeneration ≤ w.generation
  /-- The batch was resolved in a generation from the one on that the worker has read. -/
  batch : (∀ g losses, w ≠ .requeue g losses) → ∃ g, w.generation ≤ g ∧ g ≤ s.bindingGeneration ∧
    (w.isChecked = true → g = w.generation) ∧ ∀ o ∈ w.batch, Leaves s.trace g o

/-- **The invariant.** -/
structure Ledger (s : State) : Prop where
  ordered : (s.line.map Observation.sequence).Pairwise (· < ·)
  issued : ∀ n ∈ s.line.map Observation.sequence, n ≤ s.issued
  numbered : ∀ o ∈ s.line, Numbered o
  earlier : ∀ o ∈ s.queue, o.bindingGeneration ≤ s.bindingGeneration
  call : ∀ x ∈ s.call, x.Stamped s
  losses : ∀ o ∈ s.losses, Plain o
  held : ∀ o ∈ s.held, Plain o
  sound : ∀ r ∈ s.receipts, r.Sound s
  awaited : ∀ r ∈ s.receipts, Awaited s r
  sending : Sending s s.worker
  honest : Honest s

/-! ## What later steps keep -/

variable {generation : ℕ}

theorem Leaves.later {trace trace' : List Event} (h : Leaves trace generation o)
    (hsub : trace ⊆ trace') : Leaves trace' generation o := by
  intro update hdependency
  rcases h update hdependency with ⟨hkind, commit, code, hb⟩ | hexcluded
  · exact Or.inl ⟨hkind, commit, code,
      ⟨hsub hb.answered, hb.admitted, hb.retractable, hb.update, hb.schema, hb.payload⟩⟩
  · exact Or.inr hexcluded

theorem Frame.subset (h : Frame s s') : s.trace ⊆ s'.trace := by
  obtain ⟨es, htrace, -⟩ := h.trace
  rw [htrace]
  exact List.subset_append_left _ _

theorem Honest.frame (h : Honest s) (hframe : Frame s s') : Honest s' := by
  obtain ⟨es, htrace, hes⟩ := hframe.trace
  intro i g b k items hi o ho
  rw [htrace] at hi ⊢
  by_cases hlt : i < s.trace.length
  · rw [List.getElem?_append_left hlt] at hi
    rw [List.take_append_of_le_length (Nat.le_of_lt hlt)]
    exact h i g b k items hi o ho
  · rw [List.getElem?_append_right (Nat.le_of_not_lt hlt)] at hi
    exact absurd (hes _ (List.mem_of_getElem? hi)) id

theorem Honest.writes (h : Honest s) {items : List Observation}
    (hitems : ∀ o ∈ items, Leaves s.trace generation o) :
    Honest (s.note (.sent generation s.bindingGeneration s.socket items)) := by
  intro i g b k items' hi o ho
  have hi' : (s.trace ++ [.sent generation s.bindingGeneration s.socket items])[i]? =
      some (.sent g b k items') := hi
  show Leaves ((s.trace ++ [_]).take i) g o
  by_cases hlt : i < s.trace.length
  · rw [List.getElem?_append_left hlt] at hi'
    rw [List.take_append_of_le_length (Nat.le_of_lt hlt)]
    exact h i g b k items' hi' o ho
  · rw [List.getElem?_append_right (Nat.le_of_not_lt hlt)] at hi'
    have hmem := List.mem_singleton.mp (List.mem_of_getElem? hi')
    cases hmem
    have hle := Nat.le_of_not_lt hlt
    have hsub : s.trace ⊆ List.take i (s.trace ++
        [Event.sent generation s.bindingGeneration s.socket items]) := by
      intro e he
      rw [List.take_append]
      exact List.mem_append_left _ (by rw [List.take_of_length_le hle]; exact he)
    exact (hitems o ho).later hsub

theorem Receipt.Sound.frame {r : Receipt} (h : r.Sound s) (hframe : Frame s s') : r.Sound s' := by
  intro hstate hgeneration
  rw [hframe.generation] at hgeneration ⊢
  obtain ⟨hschema, commit, code, hb⟩ := h hstate hgeneration
  exact ⟨hschema, commit, code,
    ⟨hframe.subset hb.answered, hb.admitted, hb.retractable, hb.update, hb.schema, hb.payload⟩⟩

variable {w : Worker}

theorem Sending.frame (h : Sending s w) (hframe : Frame s s') : Sending s' w where
  read := hframe.generation ▸ h.read
  notices := h.notices
  commits := h.commits
  batch hw := by
    obtain ⟨g, hle, hge, hchecked, hleaves⟩ := h.batch hw
    exact ⟨g, hle, hframe.generation ▸ hge, hchecked,
      fun o ho => (hleaves o ho).later hframe.subset⟩

/-- **An operation under the lock.** -/
theorem Ledger.frame (h : Ledger s) (hframe : Frame s s')
    (hline : (s'.line.map Observation.sequence).Sublist (s.line.map Observation.sequence))
    (hnumbered : ∀ o ∈ s'.line, Numbered o)
    (hearlier : ∀ o ∈ s'.queue, o.bindingGeneration ≤ s.bindingGeneration)
    (hcall : ∀ x ∈ s'.call, x.Stamped s) (hlosses : ∀ o ∈ s'.losses, Plain o)
    (hheld : ∀ o ∈ s'.held, Plain o) (hsound : ∀ r ∈ s'.receipts, r.Sound s')
    (hawaited : ∀ r ∈ s'.receipts, Awaited s' r) (hsending : Sending s s'.worker) : Ledger s' where
  ordered := h.ordered.sublist hline
  issued n hn := hframe.issued ▸ h.issued n (hline.subset hn)
  numbered := hnumbered
  earlier o ho := hframe.generation ▸ hearlier o ho
  call x hx := by
    exact (hcall x hx).mono (Nat.le_of_eq hframe.generation.symm)
  losses := hlosses
  held := hheld
  sound := hsound
  awaited := hawaited
  sending := hsending.frame hframe
  honest := h.honest.frame hframe

/-! ## Admission -/

theorem plain_lossNotice (o : Observation) (source reason : Text) :
    Plain (lossNotice o source reason) := ⟨rfl, rfl⟩

theorem Ledger.rememberLosses (h : Ledger s) {reason : Text} :
    ∀ x ∈ (s.rememberLoss o reason).losses, Plain x := by
  intro x hx
  rcases List.mem_append.mp (mem_lastOf hx) with hx | hx
  · exact h.losses x hx
  · exact List.mem_singleton.mp hx ▸ plain_lossNotice o s.source reason

/-- The call is over, or goes on with the same observation. -/
theorem Ledger.calls (h : Ledger s) {k : Option Call}
    (hsame : ∀ x ∈ k, ∃ y ∈ s.call, x.observation.sequence = y.observation.sequence ∧
      x.Stamped s ∧ (Numbered y.observation → Numbered x.observation))
    {s' : State} (hs' : s' = { s with
      call := k
      contended := s'.contended
      captureSeq := s'.captureSeq }) : Ledger s' := by
  have hfields : Frame s s' ∧ s'.call = k ∧ s'.queue = s.queue ∧ s'.losses = s.losses ∧
      s'.held = s.held ∧ s'.receipts = s.receipts ∧ s'.worker = s.worker := by
    rw [hs']
    exact ⟨.silent rfl rfl rfl rfl rfl rfl rfl, rfl, rfl, rfl, rfl, rfl, rfl⟩
  obtain ⟨hframe, hcall, hqueue, hlosses, hheld, hreceipts, hworker⟩ := hfields
  have hline : s'.line = s.worker.batch ++ (s.queue ++ (k.map Call.observation).toList) := by
    rw [State.line, hworker, hqueue, hcall]
  refine h.frame hframe ?_ ?_ (hqueue ▸ h.earlier) ?_ (hlosses ▸ h.losses) (hheld ▸ h.held) ?_ ?_
    (hworker ▸ h.sending)
  · rw [hline, State.line, List.map_append, List.map_append, List.map_append, List.map_append]
    refine (List.Sublist.refl _).append ((List.Sublist.refl _).append ?_)
    cases k with
    | none => exact List.nil_sublist _
    | some x =>
      obtain ⟨y, hy, hsequence, -, -⟩ := hsame x rfl
      rw [Option.mem_def.mp hy]
      show [x.observation.sequence].Sublist [y.observation.sequence]
      rw [hsequence]
  · intro o ho
    rw [hline] at ho
    have hold (ho : o ∈ s.worker.batch ++ s.queue) : Numbered o := by
      refine h.numbered o ?_
      rw [State.line, ← List.append_assoc]
      exact List.mem_append_left _ ho
    rw [← List.append_assoc] at ho
    rcases List.mem_append.mp ho with ho | ho
    · exact hold ho
    · cases k with
      | none => exact absurd ho List.not_mem_nil
      | some x =>
        obtain ⟨y, hy, -, -, hnumbered⟩ := hsame x rfl
        rw [List.mem_singleton.mp ho]
        refine hnumbered (h.numbered _ ?_)
        rw [State.line, Option.mem_def.mp hy]
        exact List.mem_append_right _ (List.mem_append_right _ (List.mem_singleton_self _))
  · intro x hx
    rw [hcall] at hx
    obtain ⟨y, -, -, hstamped, -⟩ := hsame x hx
    exact hstamped
  · intro r hr
    rw [hreceipts] at hr
    exact (h.sound r hr).frame hframe
  · intro r hr hpending hgeneration
    rw [hreceipts] at hr
    rw [hworker, hqueue]
    exact h.awaited r hr hpending (hgeneration.trans hframe.generation)

/-- **An entry.**  The observation that enters is the youngest. -/
theorem Ledger.enter (h : Ledger s) {policy : Option ℕ}
    (hcall : s.call = some (.allowed o policy)) {s₁ : State}
    (hs₁ : s₁ = { s with captureSeq := s.captureSeq + 1, call := none }) :
    Ledger (s₁.enter l o policy) := by
  have hframe₁ : Frame s s₁ := by
    rw [hs₁]
    exact .silent rfl rfl rfl rfl rfl rfl rfl
  have hfields : s₁.call = none ∧ s₁.queue = s.queue ∧ s₁.losses = s.losses ∧ s₁.held = s.held ∧
      s₁.receipts = s.receipts ∧ s₁.worker = s.worker := by
    rw [hs₁]
    exact ⟨rfl, rfl, rfl, rfl, rfl, rfl⟩
  obtain ⟨hcall₁, hqueue₁, hlosses₁, hheld₁, hreceipts₁, hworker₁⟩ := hfields
  have h₁ : Ledger s₁ := by
    refine h.calls (k := none) (fun x hx => nomatch hx) ?_
    rw [hs₁]
  have hframe := hframe₁.trans (frame_enter l s₁ o policy)
  obtain ⟨hheld, hcall', hworker⟩ := held_enter l s₁ o policy
  have hline : s.line = s.worker.batch ++ (s.queue ++ [o]) := by
    rw [State.line, hcall]
    rfl
  have ho : Numbered o := h.numbered o (by
    rw [hline]
    exact List.mem_append_right _ (List.mem_append_right _ (List.mem_singleton_self _)))
  have hnumbered (x : Observation) (hx : x ∈ s.worker.batch ++ s.queue) : Numbered x := by
    refine h.numbered x ?_
    rw [hline, ← List.append_assoc]
    exact List.mem_append_left _ hx
  have hstamped : o.bindingGeneration ≤ s.bindingGeneration := h.call _ hcall
  have hcases := enter_cases l s₁ o policy
  revert hframe hheld hcall' hworker hcases
  generalize s₁.enter l o policy = t
  intro hframe hheld hcall' hworker hcases
  have hline' : t.line = s.worker.batch ++ t.queue := by
    rw [State.line, hcall', hcall₁, hworker, hworker₁]
    exact congrArg _ (List.append_nil _)
  -- a receipt of before is sound and awaited, if its commit is still queued
  have hsound (r : Receipt) (hr : r ∈ s.receipts) : r.Sound t := (h.sound r hr).frame hframe
  have hall (queue : List Observation) (hqueue : t.queue = queue)
      (hsub : queue.Sublist (s.queue ++ [o]))
      (hlosses : ∀ x ∈ t.losses, Plain x)
      (hreceipts : ∀ r ∈ t.receipts, r.state = .unknown ∨
        (r ∈ s.receipts ∧ (r.state = .pending → ∀ c ∈ s.queue, c.updateId = some r.updateId →
          c ∈ queue)) ∨
        (o ∈ queue ∧ o.retractableCommit = true ∧ o.updateId = some r.updateId ∧
          r.state = .pending ∧ r.generation = o.bindingGeneration)) : Ledger t := by
    refine h.frame hframe ?_ ?_ ?_ ?_ hlosses ?_ ?_ ?_ (hworker ▸ hworker₁ ▸ h.sending)
    · rw [hline', hqueue, hline]
      exact ((List.Sublist.refl _).append hsub).map _
    · intro x hx
      rw [hline', hqueue] at hx
      rcases List.mem_append.mp hx with hx | hx
      · exact hnumbered x (List.mem_append_left _ hx)
      · rcases List.mem_append.mp (hsub.subset hx) with hx | hx
        · exact hnumbered x (List.mem_append_right _ hx)
        · exact List.mem_singleton.mp hx ▸ ho
    · intro x hx
      rw [hqueue] at hx
      rcases List.mem_append.mp (hsub.subset hx) with hx | hx
      · exact h.earlier x hx
      · exact List.mem_singleton.mp hx ▸ hstamped
    · rw [hcall', hcall₁]
      exact fun x hx => nomatch hx
    · rw [hheld, hheld₁]
      exact h.held
    · intro r hr
      rcases hreceipts r hr with hunknown | ⟨hr, -⟩ | ⟨-, -, -, hpending, -⟩
      · intro hadmitted
        rw [hunknown] at hadmitted
        cases hadmitted
      · exact hsound r hr
      · intro hadmitted
        rw [hpending] at hadmitted
        cases hadmitted
    · intro r hr hpending hgeneration
      rw [hworker, hworker₁, hqueue]
      rcases hreceipts r hr with hunknown | ⟨hr, hkept⟩ | ⟨hin, hretractable, hupdate, -, hgen⟩
      · rw [hunknown] at hpending
        cases hpending
      · obtain ⟨c, hc, hupdate, hgen, hretractable⟩ :=
          h.awaited r hr hpending (hgeneration.trans hframe.generation)
        refine ⟨c, ?_, hupdate, hgen, hretractable⟩
        rcases List.mem_append.mp hc with hc | hc
        · exact List.mem_append_left _ hc
        · exact List.mem_append_right _ (hkept hpending c hc hupdate)
      · exact ⟨o, List.mem_append_right _ hin, hupdate, hgen.symm, hretractable⟩
  have hpushed (queue : List Observation) (rs : List Receipt) (r : Receipt)
      (hr : r ∈ registerReceipt rs o) (hrs : r ∈ rs → r.state = .unknown ∨
        (r ∈ s.receipts ∧ (r.state = .pending → ∀ c ∈ s.queue, c.updateId = some r.updateId →
          c ∈ queue ++ [o]))) : r.state = .unknown ∨
        (r ∈ s.receipts ∧ (r.state = .pending → ∀ c ∈ s.queue, c.updateId = some r.updateId →
          c ∈ queue ++ [o])) ∨
        (o ∈ queue ++ [o] ∧ o.retractableCommit = true ∧ o.updateId = some r.updateId ∧
          r.state = .pending ∧ r.generation = o.bindingGeneration) := by
    rcases mem_registerReceipt hr with hr | hnew
    · rcases hrs hr with hunknown | hold
      · exact Or.inl hunknown
      · exact Or.inr (Or.inl hold)
    · exact Or.inr (Or.inr ⟨List.mem_append_right _ (List.mem_singleton_self _), hnew⟩)
  cases hcases with
  | fits =>
    refine hall (s.queue ++ [o]) (by rw [← hqueue₁]; rfl) (List.Sublist.refl _) h₁.losses ?_
    intro r hr
    refine hpushed s.queue s₁.receipts r hr fun hr => Or.inr ⟨hreceipts₁ ▸ hr, fun _ c hc _ => ?_⟩
    exact List.mem_append_left _ hc
  | displaces index old hold =>
    rw [hqueue₁] at hold
    refine hall (s.queue.eraseIdx index ++ [o]) (by rw [← hqueue₁]; rfl)
      ((List.eraseIdx_sublist _ _).append (List.Sublist.refl _)) h₁.rememberLosses ?_
    intro r hr
    refine hpushed (s.queue.eraseIdx index) _ r hr fun hr => ?_
    rcases mem_markDependencyUnknown hr with hunknown | ⟨hr, hother⟩
    · exact Or.inl hunknown
    · refine Or.inr ⟨hreceipts₁ ▸ hr, fun hpending c hc hupdate => List.mem_append_left _ ?_⟩
      obtain ⟨hlt, hget⟩ := List.getElem?_eq_some_iff.mp hold
      have hperm := (List.getElem_cons_eraseIdx_perm hlt).symm
      rcases List.mem_cons.mp (hperm.subset hc) with rfl | hc
      · rw [hget] at hupdate
        exact absurd hupdate (hother hpending)
      · exact hc
  | full =>
    refine hall s.queue (by rw [← hqueue₁]; rfl) (List.sublist_append_left _ _) h₁.rememberLosses ?_
    intro r hr
    rcases mem_markDependencyUnknown hr with hunknown | ⟨hr, -⟩
    · exact Or.inl hunknown
    · exact Or.inr (Or.inl ⟨hreceipts₁ ▸ hr, fun _ c hc _ => hc⟩)

/-- **A step of a call.** -/
theorem Ledger.tryAdmit (h : Ledger s) (now : ℕ) (contended : Bool) :
    Ledger (s.tryAdmit l now contended) := by
  have hnone (s' : State) (hs' : s' = { s with
      call := none
      contended := s'.contended
      captureSeq := s'.captureSeq }) : Ledger s' :=
    h.calls (k := none) (fun x hx => nomatch hx) hs'
  have hgoes (x y : Call) (hy : s.call = some y)
      (hsequence : x.observation.sequence = y.observation.sequence) (hstamped : x.Stamped s)
      (hnumbered : Numbered y.observation → Numbered x.observation) :
      Ledger { s with call := some x } := by
    refine h.calls (k := some x) (fun z hz => ?_) rfl
    rw [← Option.some.inj hz]
    exact ⟨y, hy, hsequence, hstamped, hnumbered⟩
  unfold State.tryAdmit
  cases hcall : s.call with
  | none => exact h
  | some x =>
    cases x with
    | begun o =>
      dsimp only
      split_ifs
      · exact hgoes (.safe o) _ hcall rfl trivial id
      · exact hnone _ rfl
    | safe o =>
      dsimp only
      split_ifs
      · exact hnone _ rfl
      · exact hgoes (.stamped _) _ hcall rfl (Nat.le_refl s.bindingGeneration)
          fun ho => ⟨ho.update, ho.dependency, ho.retractable⟩
    | stamped o =>
      dsimp only
      split_ifs
      · have hstamped : o.bindingGeneration ≤ s.bindingGeneration := h.call (.stamped o) hcall
        exact hgoes (.allowed o _) _ hcall rfl hstamped id
      · exact hnone _ rfl
    | allowed o policy =>
      dsimp only
      split_ifs
      · exact hnone _ rfl
      · exact h.enter hcall rfl

/-! ## The worker -/

theorem leaves_plain {trace : List Event} (h : o.dependency = none) :
    Leaves trace generation o := by
  intro update hupdate
  rw [h] at hupdate
  cases hupdate

theorem Resolved.leaves {rs rs' : List Receipt} {o' : Observation}
    (h : Resolved s.bindingGeneration rs o o' rs') (hsound : ∀ r ∈ rs, r.Sound s) :
    Leaves s.trace s.bindingGeneration o' := by
  cases h with
  | plain hplain => exact leaves_plain hplain
  | attached update r hdependency hfind hstate hgeneration =>
    obtain ⟨hschema, commit, code, hb⟩ := hsound r (List.mem_of_find?_eq_some hfind) hstate hgeneration
    have hfind' : rs.find? (fun r => r.updateId = update) = some r := hfind
    have hupdate : r.updateId = update := by simpa using List.find?_some hfind'
    intro u hu
    have hu' : o.dependency = some u := hu
    rw [hdependency] at hu'
    cases hu'
    refine Or.inl ⟨rfl, commit, code, ⟨hb.answered, hb.admitted, hb.retractable, hupdate ▸ hb.update,
      ?_, hb.payload⟩⟩
    show (if r.schemaId = [] then ascii "luna_pinyin" else r.schemaId) = commit.schemaId
    rw [if_neg hschema]
    exact hb.schema
  | excluded => exact fun _ _ => Or.inr ⟨rfl, rfl⟩

theorem Resolved.same {rs rs' : List Receipt} {o' : Observation}
    (h : Resolved generation rs o o' rs') :
    o'.sequence = o.sequence ∧ o'.bindingGeneration = o.bindingGeneration ∧
      o'.retractableCommit = o.retractableCommit ∧ (Numbered o → Numbered o') := by
  cases h with
  | plain => exact ⟨rfl, rfl, rfl, id⟩
  | attached update r hdependency =>
    refine ⟨rfl, rfl, rfl, fun ho => ⟨ho.update, ho.dependency, fun hretractable => ?_⟩⟩
    have hnone := (ho.retractable hretractable).2
    rw [hdependency] at hnone
    cases hnone
  | excluded update reason hdependency =>
    refine ⟨rfl, rfl, rfl, fun ho => ⟨ho.update, ho.dependency, fun hretractable => ?_⟩⟩
    have hnone := (ho.retractable hretractable).2
    rw [hdependency] at hnone
    cases hnone

/-- **The worker takes a batch.** -/
theorem Ledger.take (h : Ledger s) (hworker : s.worker = .stamped generation)
    (hprompt : generation = s.bindingGeneration ∨
      ∀ o ∈ s.queue.take batchSize, o.retractableCommit = false) : Ledger (s.take generation) := by
  obtain ⟨hqueue, hbatch⟩ := takeBatch_queue s.bindingGeneration batchSize s.queue s.receipts
  have hreceipts := takeBatch_receipts s.bindingGeneration batchSize s.queue s.receipts
  have hmap := takeBatch_map Observation.sequence (fun _ _ _ _ _ hr => hr.same.1)
    s.bindingGeneration batchSize s.queue s.receipts
  have hlength := takeBatch_length s.bindingGeneration batchSize s.queue s.receipts
  have hframe : Frame s (s.take generation) := .silent rfl rfl rfl rfl rfl rfl rfl
  have hline : s.line = s.queue ++ (s.call.map Call.observation).toList := by
    rw [State.line, hworker]
    rfl
  have hmem (x : Observation) (hx : x ∈ s.queue) : Numbered x := by
    refine h.numbered x ?_
    rw [hline]
    exact List.mem_append_left _ hx
  have hread : generation ≤ s.bindingGeneration := by
    have hle := h.sending.read
    rw [hworker] at hle
    exact hle
  refine h.frame hframe ?_ ?_ (fun x hx => h.earlier x (mem_of_mem_takeBatch hx)) h.call
    (List.forall_mem_nil _) h.held
    (fun r hr => (h.sound r (hreceipts hr)).frame hframe) ?_
    ⟨hread, h.losses, ?_, fun _ =>
      ⟨s.bindingGeneration, hread, Nat.le_refl _, fun hno => Bool.noConfusion hno, ?_⟩⟩
  · have hsame : (s.take generation).line.map Observation.sequence =
        s.line.map Observation.sequence := by
      rw [hline]
      conv_rhs => rw [hqueue]
      show ((takeBatch _ _ _ _).batch ++ ((takeBatch _ _ _ _).queue ++ _)).map _ = _
      rw [List.map_append, hmap, ← List.map_append, List.append_assoc]
      rfl
    rw [hsame]
  · intro x hx
    rcases List.mem_append.mp hx with hx | hx
    · obtain ⟨y, hy, rs, rs', -, hresolved⟩ := hbatch x hx
      exact hresolved.same.2.2.2 (hmem y hy)
    · rcases List.mem_append.mp hx with hx | hx
      · exact hmem x (mem_of_mem_takeBatch hx)
      · refine h.numbered x ?_
        rw [hline]
        exact List.mem_append_right _ hx
  · intro r hr hpending hgeneration
    obtain ⟨c, hc, hupdate, hgen, hretractable⟩ := h.awaited r (hreceipts hr) hpending hgeneration
    rw [hworker] at hc
    have hc' : c ∈ s.queue := hc
    refine ⟨c, ?_, hupdate, hgen, hretractable⟩
    rcases mem_takeBatch_of_plain s.bindingGeneration batchSize s.queue s.receipts hc'
      ((hmem c hc').retractable hretractable).2 with hin | hin
    · exact List.mem_append_left _ hin
    · exact List.mem_append_right _ hin
  · intro x hx hretractable
    obtain ⟨y, hy, rs, rs', -, hresolved⟩ := hbatch x hx
    rcases hprompt with rfl | hnone
    · exact hresolved.same.2.1 ▸ h.earlier y hy
    · have hflag := congrArg (List.map id) (takeBatch_map Observation.retractableCommit
        (fun _ _ _ _ _ hr => hr.same.2.2.1) s.bindingGeneration batchSize s.queue s.receipts)
      rw [List.map_id, List.map_id] at hflag
      have hmem' : true ∈ (takeBatch s.bindingGeneration batchSize s.queue s.receipts).batch.map
          Observation.retractableCommit := List.mem_map.mpr ⟨x, hx, hretractable⟩
      rw [hflag] at hmem'
      obtain ⟨z, hz, hzretractable⟩ := List.mem_map.mp hmem'
      have hfalse := hnone z (List.take_subset_take_left _ hlength hz)
      rw [hfalse] at hzretractable
      cases hzretractable
  · intro x hx
    obtain ⟨y, hy, rs, rs', hsub, hresolved⟩ := hbatch x hx
    exact hresolved.leaves fun r hr => h.sound r (hsub hr)

/-- Nothing of a batch is left. -/
theorem Sending.empty (hread : w.generation ≤ s.bindingGeneration)
    (hnotices : ∀ o ∈ w.notices, Plain o) (hbatch : w.batch = []) : Sending s w where
  read := hread
  notices := hnotices
  commits _ ho := absurd (hbatch ▸ ho) List.not_mem_nil
  batch _ := ⟨w.generation, Nat.le_refl _, hread, fun _ => rfl,
    fun _ ho => absurd (hbatch ▸ ho) List.not_mem_nil⟩

/-- The worker goes on with what it has, and has found nothing out. -/
theorem Sending.part {w w' : Worker} (h : Sending s w) (hread : w'.generation = w.generation)
    (hnotices : ∀ o ∈ w'.notices, o ∈ w.notices) (hbatch : w'.batch = w.batch)
    (hrequeue : ∀ g losses, w ≠ .requeue g losses) (hchecked : w'.isChecked = false) :
    Sending s w' where
  read := hread ▸ h.read
  notices o ho := h.notices o (hnotices o ho)
  commits o ho := hread ▸ h.commits o (hbatch ▸ ho)
  batch _ := by
    obtain ⟨g, hle, hge, -, hleaves⟩ := h.batch hrequeue
    refine ⟨g, hread ▸ hle, hge, fun hno => ?_, fun o ho => hleaves o (hbatch ▸ ho)⟩
    rw [hchecked] at hno
    cases hno

/-- **A turn of the worker**: the queue stays, and the commits that are no longer in the batch are no
longer awaited. -/
theorem Ledger.turns (h : Ledger s) (hframe : Frame s s') (hcall : s'.call = s.call)
    (hqueue : s'.queue = s.queue) (hlosses : ∀ o ∈ s'.losses, Plain o)
    (hheld : ∀ o ∈ s'.held, Plain o) (hbatch : s'.worker.batch.Sublist s.worker.batch)
    (hsound : ∀ r ∈ s'.receipts, r.Sound s')
    (hreceipts : ∀ r ∈ s'.receipts, r.state = .pending → r ∈ s.receipts ∧
      ∀ c ∈ s.worker.batch, c.updateId = some r.updateId → c.retractableCommit = true →
        c.bindingGeneration = s.bindingGeneration → c ∈ s'.worker.batch)
    (hsending : Sending s s'.worker) : Ledger s' := by
  have hline : s'.line.Sublist s.line := by
    rw [State.line, State.line, hqueue, hcall]
    exact hbatch.append (List.Sublist.refl _)
  refine h.frame hframe (hline.map _) (fun o ho => h.numbered o (hline.subset ho))
    (fun o ho => h.earlier o (hqueue ▸ ho)) (fun x hx => h.call x (hcall ▸ hx)) hlosses hheld hsound
    ?_ hsending
  intro r hr hpending hgeneration
  obtain ⟨hr, hkept⟩ := hreceipts r hr hpending
  have hcurrent : r.generation = s.bindingGeneration := hgeneration.trans hframe.generation
  obtain ⟨c, hc, hupdate, hgen, hretractable⟩ := h.awaited r hr hpending hcurrent
  refine ⟨c, ?_, hupdate, hgen, hretractable⟩
  rw [hqueue]
  rcases List.mem_append.mp hc with hc | hc
  · exact List.mem_append_left _ (hkept c hc hupdate hretractable (hgen.trans hcurrent))
  · exact List.mem_append_right _ hc

/-- A turn that leaves the batch alone; the held notice may be gone. -/
theorem Ledger.gives (h : Ledger s) {k : Option Observation} {ok : Bool}
    (hbatch : w.batch = s.worker.batch) (hk : ∀ o ∈ k, Plain o) (hsending : Sending s w) :
    Ledger { s with held := k, policyExchangeOk := ok, worker := w } := by
  refine h.turns (.silent rfl rfl rfl rfl rfl rfl rfl) rfl rfl h.losses hk ?_ h.sound ?_ hsending
  · show w.batch.Sublist s.worker.batch
    rw [hbatch]
  · exact fun r hr _ => ⟨hr, fun c hc _ _ _ => (hbatch ▸ hc : c ∈ w.batch)⟩

/-- A turn that leaves everything but the worker alone, and its batch with it. -/
theorem Ledger.moves (h : Ledger s) (hbatch : w.batch = s.worker.batch) (hsending : Sending s w) :
    Ledger { s with worker := w } :=
  h.gives hbatch h.held hsending

/-- A turn that only tells of something. -/
theorem Ledger.finds (h : Ledger s) {e : Event} (he : e.Inner) (hbatch : w.batch = s.worker.batch)
    (hsending : Sending s w) : Ledger { s.note e with worker := w } := by
  have hframe : Frame s { s.note e with worker := w } := .tells he rfl rfl rfl rfl rfl rfl rfl
  refine h.turns hframe rfl rfl h.losses h.held ?_ (fun r hr => (h.sound r hr).frame hframe) ?_ hsending
  · show w.batch.Sublist s.worker.batch
    rw [hbatch]
  · exact fun r hr _ => ⟨hr, fun c hc _ _ _ => (hbatch ▸ hc : c ∈ w.batch)⟩

/-- A batch that is dropped in a generation that has ended awaits nobody. -/
theorem Ledger.drops (h : Ledger s) (hbatch : w.batch = [])
    (hold : s.worker.generation < s.bindingGeneration ∨ s.worker.batch = [])
    (hsending : Sending s w) : Ledger { s with worker := w } := by
  refine h.turns (.silent rfl rfl rfl rfl rfl rfl rfl) rfl rfl h.losses h.held ?_ h.sound ?_ hsending
  · show w.batch.Sublist s.worker.batch
    rw [hbatch]
    exact List.nil_sublist _
  · refine fun r hr _ => ⟨hr, fun c hc _ hretractable hgeneration => ?_⟩
    rcases hold with hold | hold
    · have hle := h.sending.commits c hc hretractable
      omega
    · exact absurd (hold ▸ hc) List.not_mem_nil

/-- **A frame is written**: its items leave honestly. -/
theorem Ledger.writes (h : Ledger s) {items : List Observation}
    (hitems : ∀ o ∈ items, Leaves s.trace generation o) :
    Ledger (s.note (.sent generation s.bindingGeneration s.socket items)) where
  ordered := h.ordered
  issued := h.issued
  numbered := h.numbered
  earlier := h.earlier
  call x hx := (h.call x hx).mono (Nat.le_refl _)
  losses := h.losses
  held := h.held
  sound r hr hstate hgeneration := by
    obtain ⟨hschema, commit, code, hb⟩ := h.sound r hr hstate hgeneration
    exact ⟨hschema, commit, code, ⟨List.mem_append_left _ hb.answered, hb.admitted, hb.retractable,
      hb.update, hb.schema, hb.payload⟩⟩
  awaited := h.awaited
  sending := by
    refine ⟨h.sending.read, h.sending.notices, h.sending.commits, fun hw => ?_⟩
    obtain ⟨g, hle, hge, hchecked, hleaves⟩ := h.sending.batch hw
    exact ⟨g, hle, hge, hchecked, fun o ho => (hleaves o ho).later (List.subset_append_left _ _)⟩
  honest := h.honest.writes hitems

variable {purpose : Purpose}

theorem Ledger.items (h : Ledger s) {items : List Observation}
    (hworker : s.worker = .exchange generation purpose items) :
    ∀ o ∈ items, Leaves s.trace generation o := by
  have hsending := h.sending
  rw [hworker] at hsending
  intro o ho
  cases purpose with
  | losses rest => exact leaves_plain (hsending.notices o ho).dependency
  | batch =>
    obtain ⟨g, -, -, hchecked, hleaves⟩ := hsending.batch (fun _ _ hno => nomatch hno)
    have hg : g = generation := hchecked rfl
    exact hg ▸ hleaves o ho
  | held last => exact leaves_plain (hsending.notices o ho).dependency

/-- After the held notice the worker is at its end, or goes on to the policy. -/
theorem Sending.held (hle : generation ≤ s.bindingGeneration) {last : Bool} :
    Sending s (if last = true then .idle else .policy generation) := by
  cases last with
  | true => exact .empty (Nat.zero_le _) (List.forall_mem_nil _) rfl
  | false => exact .empty hle (List.forall_mem_nil _) rfl

/-- **What the codes of a frame do to the receipts**: they stay sound, and no commit of the frame is
awaited in its generation any longer. -/
theorem Ledger.bindCodes (h : Ledger s) {items : List Observation}
    (codes : Option (List Text)) (hgeneration : generation ≤ s.bindingGeneration)
    (hitems : ∀ o ∈ items, o.retractableCommit = true →
      o.schemaId ≠ [] ∧ o.bindingGeneration ≤ generation) :
    ∀ r ∈ (s.bindCodes generation items codes).receipts,
      r.Sound (s.bindCodes generation items codes) ∧ (r.state = .pending → r ∈ s.receipts ∧
        ∀ c ∈ items, c.updateId = some r.updateId → c.retractableCommit = true →
          c.bindingGeneration ≠ s.bindingGeneration) := by
  have hframe := frame_bindCodes s generation items codes
  -- a response without usable codes
  have hunknown (r : Receipt) (hr : r ∈ noteBatchUnknown s.receipts items generation) :
      r.Sound (s.bindCodes generation items codes) ∧ (r.state = .pending → r ∈ s.receipts ∧
        ∀ c ∈ items, c.updateId = some r.updateId → c.retractableCommit = true →
          c.bindingGeneration ≠ s.bindingGeneration) := by
    rcases mem_noteBatchUnknown hr with hstate | ⟨hr, hothers⟩
    · refine ⟨fun hadmitted => ?_, fun hpending => ?_⟩
      · rw [hstate] at hadmitted
        cases hadmitted
      · rw [hstate] at hpending
        cases hpending
    · refine ⟨(h.sound r hr).frame hframe, fun hpending => ⟨hr, fun c hc hupdate hretractable hgen => ?_⟩⟩
      have hle := (hitems c hc hretractable).2
      exact hothers hpending c hc hretractable (by omega) hupdate
  have hold (r : Receipt) (hr : r ∈ s.receipts) (hlt : generation ≠ s.bindingGeneration) :
      r.Sound (s.bindCodes generation items codes) ∧ (r.state = .pending → r ∈ s.receipts ∧
        ∀ c ∈ items, c.updateId = some r.updateId → c.retractableCommit = true →
          c.bindingGeneration ≠ s.bindingGeneration) := by
    refine ⟨(h.sound r hr).frame hframe, fun _ => ⟨hr, fun c hc _ hretractable hgen => ?_⟩⟩
    have hle := (hitems c hc hretractable).2
    omega
  intro r hr
  cases codes with
  | none => exact hunknown r hr
  | some codes =>
    unfold State.bindCodes at hr
    dsimp only at hr
    by_cases hlength : codes.length = items.length
    · by_cases hcurrent : generation = s.bindingGeneration
      · rw [if_pos hlength, if_pos hcurrent] at hr
        have htrace : (s.bindCodes generation items (some codes)).trace =
            s.trace ++ (items.zip codes).map fun p => .answered generation p.1 p.2 := by
          unfold State.bindCodes
          dsimp only
          rw [if_pos hlength, if_pos hcurrent]
        rcases mem_applyCodes hr with ⟨hr, hothers⟩ | ⟨hstate, hadmitted⟩
        · refine ⟨(h.sound r hr).frame hframe, fun _ => ⟨hr, fun c hc hupdate hretractable _ => ?_⟩⟩
          have hfst : (items.zip codes).map Prod.fst = items :=
            List.map_fst_zip (Nat.le_of_eq hlength.symm)
          rw [← hfst] at hc
          obtain ⟨p, hp, rfl⟩ := List.mem_map.mp hc
          exact hothers p hp hretractable hupdate
        · refine ⟨fun hr' hgen => ?_, fun hpending => absurd hpending hstate⟩
          rcases hadmitted hr' with ⟨x, hx, -, rfl⟩ | ⟨p, hp, hknown, hretractable, hupdate, hpgen, hschema, hpayload⟩
          · exact (h.sound x hx).frame hframe hr' hgen
          · obtain ⟨hne, -⟩ := hitems p.1 (List.of_mem_zip hp).1 hretractable
            refine ⟨hschema ▸ hne, p.1, p.2, ⟨?_, hknown, hretractable, hupdate, hschema, hpayload⟩⟩
            rw [htrace, hframe.generation, ← hcurrent]
            exact List.mem_append_right _ (List.mem_map.mpr ⟨p, hp, rfl⟩)
      · rw [if_pos hlength, if_neg hcurrent] at hr
        exact hold r hr hcurrent
    · rw [if_neg hlength] at hr
      exact hunknown r hr

/-- **A response has been read.** -/
theorem Ledger.answers (h : Ledger s) {items : List Observation} {codes : Option (List Text)}
    (hworker : s.worker = .answered generation purpose items codes)
    (hbatch : purpose = .batch ∧ w.batch = [] ∨ purpose ≠ .batch ∧ w.batch = s.worker.batch)
    (hsending : Sending s w) :
    Ledger { (s.bindCodes generation items codes).note (.replied items) with worker := w } := by
  have hflight := h.sending
  have hframe : Frame s { (s.bindCodes generation items codes).note (.replied items) with
      worker := w } :=
    (frame_bindCodes s generation items codes).trans
      (.tells (e := .replied items) trivial rfl rfl rfl rfl rfl rfl rfl)
  have hnote : Frame (s.bindCodes generation items codes)
      { (s.bindCodes generation items codes).note (.replied items) with worker := w } :=
    .tells (e := .replied items) trivial rfl rfl rfl rfl rfl rfl rfl
  obtain ⟨hcall, hqueue, hlosses, hheld, -, -⟩ := same_bindCodes s generation items codes
  rw [hworker] at hflight
  have hread : generation ≤ s.bindingGeneration := hflight.read
  have hitems (o : Observation) (ho : o ∈ items) (hretractable : o.retractableCommit = true) :
      o.schemaId ≠ [] ∧ o.bindingGeneration ≤ generation := by
    by_cases hpurpose : purpose = .batch
    · subst hpurpose
      have hin : o ∈ s.worker.batch := by
        rw [hworker]
        exact ho
      refine ⟨((h.numbered o (List.mem_append_left _ hin)).retractable hretractable).1, ?_⟩
      exact hflight.commits o ho hretractable
    · have hplain : Plain o := by
        cases purpose with
        | losses rest => exact hflight.notices o ho
        | batch => exact absurd rfl hpurpose
        | held last => exact hflight.notices o ho
      rw [hplain.retractable] at hretractable
      cases hretractable
  have hbind := h.bindCodes codes hread hitems
  refine h.turns hframe hcall hqueue (fun o ho => h.losses o (hlosses ▸ ho))
    (fun o ho => h.held o (hheld ▸ ho)) ?_ (fun r hr => (hbind r hr).1.frame hnote) ?_ hsending
  · show w.batch.Sublist s.worker.batch
    rcases hbatch with ⟨-, hnil⟩ | ⟨-, hsame⟩
    · rw [hnil]
      exact List.nil_sublist _
    · rw [hsame]
  · intro r hr hpending
    obtain ⟨hr, hothers⟩ := (hbind r hr).2 hpending
    refine ⟨hr, fun c hc hupdate hretractable hgeneration => ?_⟩
    show c ∈ w.batch
    rcases hbatch with ⟨hpurpose, -⟩ | ⟨-, hsame⟩
    · subst hpurpose
      rw [hworker] at hc
      exact absurd hgeneration (hothers c hc hupdate hretractable)
    · exact hsame ▸ hc

/-- **The destination is unsafe**: the batch is dropped, and its commits are unknown. -/
theorem Ledger.unsafes (h : Ledger s) {items : List Observation}
    (hworker : s.worker = .current generation purpose items)
    (hbatch : purpose = .batch ∧ w.batch = [] ∨ purpose ≠ .batch ∧ w.batch = s.worker.batch)
    (hsending : Sending s w) :
    Ledger { s with
      receipts := noteBatchUnknown s.receipts items generation
      worker := w } := by
  have hflight := h.sending
  rw [hworker] at hflight
  have hread : generation ≤ s.bindingGeneration := hflight.read
  have hframe : Frame s { s with
      receipts := noteBatchUnknown s.receipts items generation
      worker := w } := .silent rfl rfl rfl rfl rfl rfl rfl
  refine h.turns hframe rfl rfl h.losses h.held ?_ ?_ ?_ hsending
  · show w.batch.Sublist s.worker.batch
    rcases hbatch with ⟨-, hnil⟩ | ⟨-, hsame⟩
    · rw [hnil]
      exact List.nil_sublist _
    · rw [hsame]
  · intro r hr
    rcases mem_noteBatchUnknown hr with hstate | ⟨hr, -⟩
    · intro hadmitted
      rw [hstate] at hadmitted
      cases hadmitted
    · exact (h.sound r hr).frame hframe
  · intro r hr hpending
    rcases mem_noteBatchUnknown hr with hstate | ⟨hr, hothers⟩
    · rw [hstate] at hpending
      cases hpending
    · refine ⟨hr, fun c hc hupdate hretractable hgeneration => ?_⟩
      show c ∈ w.batch
      rcases hbatch with ⟨hpurpose, -⟩ | ⟨-, hsame⟩
      · subst hpurpose
        have hle := h.sending.commits c hc hretractable
        rw [hworker] at hc hle
        have hle' : c.bindingGeneration ≤ generation := hle
        exact absurd hupdate (hothers hpending c hc hretractable (by omega))
      · exact hsame ▸ hc

/-! ## The loops that put items back -/

/-- What `RestoreLosses` does to the state `s` before it. -/
structure Restores (s t : State) : Prop where
  frame : Frame s t
  call : t.call = s.call
  queue : t.queue = s.queue
  receipts : t.receipts = s.receipts
  losses : ∀ o ∈ t.losses, Plain o
  held : ∀ o ∈ t.held, Plain o

theorem Restores.restoreLoss {t : State} (h : Restores s t) (ho : Plain o) :
    Restores s (t.restoreLoss o) := by
  have hframe := frame_restoreLoss t o
  have hcases := restoreLoss_cases t o
  revert hframe hcases
  generalize t.restoreLoss o = u
  intro hframe hcases
  have hframe' : Frame s u := h.frame.trans hframe
  cases hcases with
  | stale => exact ⟨hframe', h.call, h.queue, h.receipts, h.losses, h.held⟩
  | covered => exact ⟨hframe', h.call, h.queue, h.receipts, h.losses, h.held⟩
  | holds =>
    refine ⟨hframe', h.call, h.queue, h.receipts, h.losses, fun x hx => ?_⟩
    rw [← Option.some.inj hx]
    exact ⟨ho.dependency, ho.retractable⟩
  | waits =>
    refine ⟨hframe', h.call, h.queue, h.receipts, fun x hx => ?_, h.held⟩
    rcases List.mem_cons.mp hx with rfl | hx
    · exact ⟨ho.dependency, ho.retractable⟩
    · exact h.losses x hx

/-- **The losses are restored.** -/
theorem Ledger.restores (h : Ledger s) {losses batch : List Observation}
    (hworker : s.worker = .restore generation losses batch) : Ledger (s.work l reply) := by
  have hflight := h.sending
  rw [hworker] at hflight
  have hloop : Restores s (losses.reverse.foldl State.restoreLoss s) :=
    foldl_keeps (I := Restores s)
      (fun t o ho ht => ht.restoreLoss (hflight.notices o (List.mem_reverse.mp ho)))
      ⟨.refl s, rfl, rfl, rfl, h.losses, h.held⟩
  unfold State.work
  rw [hworker]
  dsimp only
  revert hloop
  generalize losses.reverse.foldl State.restoreLoss s = t
  intro hloop
  have hframe : Frame s { t with
      losses := lastOf maxLosses t.losses
      worker := .send generation .batch batch } :=
    hloop.frame.trans (.silent rfl rfl rfl rfl rfl rfl rfl)
  refine h.turns hframe hloop.call hloop.queue (fun o ho => hloop.losses o (mem_lastOf ho))
    hloop.held ?_ ?_ ?_ ?_
  · show batch.Sublist s.worker.batch
    rw [hworker]
    exact List.Sublist.refl _
  · exact fun r hr => (h.sound r (hloop.receipts ▸ hr)).frame hframe
  · refine fun r hr _ => ⟨hloop.receipts ▸ hr, fun c hc _ _ _ => ?_⟩
    rw [hworker] at hc
    exact hc
  · exact hflight.part rfl (List.forall_mem_nil _) rfl
      (fun _ _ hno => by cases hno) rfl

/-- **What `Requeue` does** with the items of a batch to the state `s` before it. -/
structure Requeues (s t : State) (items : List Observation) : Prop where
  frame : Frame s t
  call : t.call = s.call
  held : t.held = s.held
  losses : ∀ o ∈ t.losses, Plain o
  queue : ∃ kept, t.queue = kept ++ s.queue ∧
    (kept.map Observation.sequence).Sublist (items.map Observation.sequence) ∧
    ∀ o ∈ kept, Numbered o ∧ o.bindingGeneration = s.bindingGeneration
  /-- A receipt is forgotten, or its commit is back in the queue. -/
  receipts : ∀ r ∈ t.receipts, r.state = .unknown ∨ r ∈ s.receipts ∧ (r.state = .pending →
    ∀ c ∈ items, c.updateId = some r.updateId → c.retractableCommit = true →
      c.bindingGeneration = s.bindingGeneration → ∃ x ∈ t.queue, x.updateId = some r.updateId ∧
        x.bindingGeneration = s.bindingGeneration ∧ x.retractableCommit = true)

theorem Requeues.putBack {t : State} {items : List Observation} (h : Requeues s t items)
    (ho : Numbered o) : Requeues s (t.putBack l o) (o :: items) := by
  have hframe := frame_putBack l t o
  obtain ⟨hheld, hcall⟩ := held_putBack l t o
  have hcases := putBack_cases l t o
  revert hframe hheld hcall hcases
  generalize t.putBack l o = u
  intro hframe hheld hcall hcases
  obtain ⟨kept, hqueue, hsub, hkept⟩ := h.queue
  have hsub' : (kept.map Observation.sequence).Sublist ((o :: items).map Observation.sequence) :=
    hsub.trans (List.sublist_cons_self _ _)
  refine ⟨h.frame.trans hframe, hcall.trans h.call, hheld.trans h.held, ?_, ?_, ?_⟩
  · intro x hx
    cases hcases with
    | stale => exact h.losses x hx
    | lost =>
      rcases List.mem_append.mp (mem_lastOf hx) with hx | hx
      · exact h.losses x hx
      · exact List.mem_singleton.mp hx ▸ plain_lossNotice _ _ _
    | queued => exact h.losses x hx
  · cases hcases with
    | stale => exact ⟨kept, hqueue, hsub', hkept⟩
    | lost => exact ⟨kept, hqueue, hsub', hkept⟩
    | queued hgeneration =>
      refine ⟨{ o with retries := o.retries + 1 } :: kept, congrArg _ hqueue, hsub.cons_cons _, ?_⟩
      intro x hx
      rcases List.mem_cons.mp hx with rfl | hx
      · exact ⟨⟨ho.update, ho.dependency, ho.retractable⟩, hgeneration.trans h.frame.generation⟩
      · exact hkept x hx
  · intro r hr
    cases hcases with
    | stale hstale =>
      rcases h.receipts r hr with hunknown | ⟨hold, hback⟩
      · exact Or.inl hunknown
      · refine Or.inr ⟨hold, fun hpending c hc hupdate hretractable hgeneration => ?_⟩
        rcases List.mem_cons.mp hc with rfl | hc
        · exact absurd (hgeneration.trans h.frame.generation.symm) hstale
        · exact hback hpending c hc hupdate hretractable hgeneration
    | lost =>
      rcases mem_markDependencyUnknown hr with hunknown | ⟨hr, hother⟩
      · exact Or.inl hunknown
      · rcases h.receipts r hr with hunknown | ⟨hold, hback⟩
        · exact Or.inl hunknown
        · refine Or.inr ⟨hold, fun hpending c hc hupdate hretractable hgeneration => ?_⟩
          rcases List.mem_cons.mp hc with rfl | hc
          · exact absurd hupdate (hother hpending)
          · exact hback hpending c hc hupdate hretractable hgeneration
    | queued =>
      rcases h.receipts r hr with hunknown | ⟨hold, hback⟩
      · exact Or.inl hunknown
      · refine Or.inr ⟨hold, fun hpending c hc hupdate hretractable hgeneration => ?_⟩
        rcases List.mem_cons.mp hc with rfl | hc
        · exact ⟨_, List.mem_cons_self, hupdate, hgeneration, hretractable⟩
        · obtain ⟨x, hx, hrest⟩ := hback hpending c hc hupdate hretractable hgeneration
          exact ⟨x, List.mem_cons_of_mem _ hx, hrest⟩

/-- The last item of the batch is put back first. -/
theorem requeues_foldl (items : List Observation) (hitems : ∀ o ∈ items, Numbered o)
    (hlosses : ∀ o ∈ s.losses, Plain o) :
    Requeues s (items.reverse.foldl (State.putBack l) s) items := by
  induction items with
  | nil =>
    refine ⟨.refl s, rfl, rfl, hlosses, ⟨[], rfl, List.Sublist.refl _, fun o ho => ?_⟩, fun r hr => ?_⟩
    · exact absurd ho List.not_mem_nil
    · exact Or.inr ⟨hr, fun _ => List.forall_mem_nil _⟩
  | cons o items ih =>
    rw [List.reverse_cons, List.foldl_append]
    exact (ih fun x hx => hitems x (List.mem_cons_of_mem _ hx)).putBack
      (hitems o List.mem_cons_self)

/-- **The batch is requeued.** -/
theorem Ledger.requeues (h : Ledger s) {batch : List Observation}
    (hworker : s.worker = .requeue generation batch) : Ledger (s.work l reply) := by
  have hflight := h.sending
  rw [hworker] at hflight
  have hline : s.line = batch ++ (s.queue ++ (s.call.map Call.observation).toList) := by
    rw [State.line, hworker]
    rfl
  have hnumbered (o : Observation) (ho : o ∈ batch ++ s.queue) : Numbered o := by
    refine h.numbered o ?_
    rw [hline, ← List.append_assoc]
    exact List.mem_append_left _ ho
  have hloop : Requeues s (batch.reverse.foldl (State.putBack l) s) batch :=
    requeues_foldl batch (fun o ho => hnumbered o (List.mem_append_left _ ho)) h.losses
  unfold State.work
  rw [hworker]
  dsimp only
  revert hloop
  generalize batch.reverse.foldl (State.putBack l) s = t
  intro hloop
  have hframe : Frame s { t with worker := .policy generation } :=
    hloop.frame.trans (.silent rfl rfl rfl rfl rfl rfl rfl)
  obtain ⟨kept, hqueue, hsub, hkept⟩ := hloop.queue
  have hline' : State.line { t with worker := .policy generation } =
      kept ++ (s.queue ++ (s.call.map Call.observation).toList) := by
    show t.queue ++ (t.call.map Call.observation).toList = _
    rw [hqueue, hloop.call, List.append_assoc]
  refine h.frame hframe ?_ ?_ ?_ (fun x hx => h.call x (hloop.call ▸ hx)) hloop.losses
    (fun o ho => h.held o (hloop.held ▸ ho)) ?_ ?_
    (.empty hflight.read (List.forall_mem_nil _) rfl)
  · rw [hline', hline]
    simp only [List.map_append]
    exact hsub.append (List.Sublist.refl _)
  · intro o ho
    rw [hline'] at ho
    rcases List.mem_append.mp ho with ho | ho
    · exact (hkept o ho).1
    · refine h.numbered o ?_
      rw [hline]
      exact List.mem_append_right _ ho
  · intro o ho
    rw [hqueue] at ho
    rcases List.mem_append.mp ho with ho | ho
    · exact Nat.le_of_eq (hkept o ho).2
    · exact h.earlier o ho
  · intro r hr
    rcases hloop.receipts r hr with hunknown | ⟨hr, -⟩
    · intro hadmitted
      rw [hunknown] at hadmitted
      cases hadmitted
    · exact (h.sound r hr).frame hframe
  · intro r hr hpending hgeneration
    rcases hloop.receipts r hr with hunknown | ⟨hr, hback⟩
    · rw [hunknown] at hpending
      cases hpending
    · have hcurrent : r.generation = s.bindingGeneration := hgeneration.trans hframe.generation
      obtain ⟨c, hc, hupdate, hgen, hretractable⟩ := h.awaited r hr hpending hcurrent
      rw [hworker] at hc
      rcases List.mem_append.mp hc with hc | hc
      · obtain ⟨x, hx, hupdate', hgen', hretractable'⟩ :=
          hback hpending c hc hupdate hretractable (hgen.trans hcurrent)
        exact ⟨x, hx, hupdate', hgen'.trans hcurrent.symm, hretractable'⟩
      · refine ⟨c, ?_, hupdate, hgen, hretractable⟩
        show c ∈ t.queue
        rw [hqueue]
        exact List.mem_append_right _ hc

/-! ## The worker, step by step -/

/-- **A step of the worker** that is prompt. -/
theorem Ledger.work (h : Ledger s)
    (hprompt : ∀ generation, s.worker = .stamped generation → generation = s.bindingGeneration ∨
      ∀ o ∈ s.queue.take batchSize, o.retractableCommit = false) : Ledger (s.work l reply) := by
  have hflight := h.sending
  have hread := hflight.read
  cases hworker : s.worker with
  | idle =>
    unfold State.work
    rw [hworker]
    exact h.moves (w := .stamped s.bindingGeneration) (by rw [hworker]; rfl)
      (.empty (Nat.le_refl _) (List.forall_mem_nil _) rfl)
  | stamped generation =>
    unfold State.work
    rw [hworker]
    exact h.take hworker (hprompt generation hworker)
  | send generation purpose items =>
    unfold State.work
    rw [hworker] at hflight hread ⊢
    have hle : generation ≤ s.bindingGeneration := hread
    have hdropped (hold : generation < s.bindingGeneration ∨ items = []) :
        Ledger { s with worker := dropped generation purpose } := by
      cases purpose with
      | losses rest =>
        exact h.moves (by rw [hworker]; rfl) (hflight.part rfl
          (List.forall_mem_nil _) rfl (fun _ _ hno => by cases hno) rfl)
      | batch =>
        refine h.drops rfl ?_ (.empty hle (List.forall_mem_nil _) rfl)
        rw [hworker]
        exact hold
      | held last => exact h.moves (by rw [hworker]; cases last <;> rfl) (.held hle)
    dsimp only
    split_ifs with hnil hstale
    · exact hdropped (Or.inr hnil)
    · exact hdropped (Or.inl (Nat.lt_of_le_of_ne hle hstale))
    · have hcurrent : generation = s.bindingGeneration := not_not.mp hstale
      refine h.moves (by rw [hworker]; cases purpose <;> rfl) ⟨hle, ?_, ?_, fun _ => ?_⟩
      · cases purpose <;> exact hflight.notices
      · cases purpose <;> exact hflight.commits
      · obtain ⟨g, hge, hg, -, hleaves⟩ := hflight.batch (fun _ _ hno => by cases hno)
        have hge' : generation ≤ g := hge
        refine ⟨g, hge, hg, fun _ => ?_, ?_⟩
        · show g = generation
          omega
        · cases purpose <;> exact hleaves
  | current generation purpose items =>
    unfold State.work
    rw [hworker] at hflight hread ⊢
    have hle : generation ≤ s.bindingGeneration := hread
    dsimp only
    split_ifs with hsafe
    · refine h.finds (e := .tried generation items) trivial (by rw [hworker]; cases purpose <;> rfl)
        ⟨hle, ?_, ?_, fun _ => ?_⟩
      · cases purpose <;> exact hflight.notices
      · cases purpose <;> exact hflight.commits
      · obtain ⟨g, hge, hg, hchecked, hleaves⟩ := hflight.batch (fun _ _ hno => by cases hno)
        refine ⟨g, hge, hg, fun _ => hchecked rfl, ?_⟩
        cases purpose <;> exact hleaves
    · cases purpose with
      | losses rest =>
        exact h.unsafes hworker (Or.inr ⟨by rintro ⟨⟩, by rw [hworker]; rfl⟩) (hflight.part rfl
          (List.forall_mem_nil _) rfl (fun _ _ hno => by cases hno) rfl)
      | batch =>
        exact h.unsafes hworker (Or.inl ⟨rfl, rfl⟩)
          (.empty hle (List.forall_mem_nil _) rfl)
      | held last =>
        exact h.unsafes hworker (Or.inr ⟨by rintro ⟨⟩, by rw [hworker]; cases last <;> rfl⟩) (.held hle)
  | exchange generation purpose items =>
    have hitems := h.items hworker
    unfold State.work
    rw [hworker] at hflight hread ⊢
    have hle : generation ≤ s.bindingGeneration := hread
    have hretry (t : State) (ht : Ledger t) (hsame : t.worker = s.worker)
        (hgeneration : t.bindingGeneration = s.bindingGeneration) :
        Ledger { t with worker := retry generation items purpose } := by
      have hflight' := ht.sending
      rw [hsame, hworker] at hflight'
      cases purpose with
      | losses rest =>
        exact ht.moves (by rw [hsame, hworker]; rfl) (hflight'.part rfl (fun o ho => ho) rfl
          (fun _ _ hno => by cases hno) rfl)
      | batch =>
        refine ht.moves (by rw [hsame, hworker]; rfl) ⟨hflight'.read, ?_, hflight'.commits, ?_⟩
        · exact List.forall_mem_nil _
        · exact fun hno => absurd rfl (hno generation items)
      | held last =>
        exact ht.moves (by rw [hsame, hworker]; cases last <;> rfl)
          (.held (Nat.le_trans hle (Nat.le_of_eq hgeneration.symm)))
    cases reply with
    | unsent => exact hretry s h rfl rfl
    | lost => exact hretry _ (h.writes hitems) rfl rfl
    | codes codes =>
      have hwritten := h.writes hitems
      have hflight' := hwritten.sending
      have hworker' : (s.note (.sent generation s.bindingGeneration s.socket items)).worker =
          .exchange generation purpose items := hworker
      rw [hworker'] at hflight'
      refine hwritten.moves (by rw [hworker']; cases purpose <;> rfl) (hflight'.part ?_ ?_ ?_
        (fun _ _ hno => by cases hno) rfl)
      · rfl
      · cases purpose <;> exact fun o ho => ho
      · cases purpose <;> rfl
  | answered generation purpose items codes =>
    unfold State.work
    rw [hworker] at hflight hread ⊢
    have hle : generation ≤ s.bindingGeneration := hread
    cases purpose with
    | losses rest =>
      exact h.answers hworker (Or.inr ⟨by rintro ⟨⟩, by rw [hworker]; rfl⟩) (hflight.part rfl
        (List.forall_mem_nil _) rfl (fun _ _ hno => by cases hno) rfl)
    | batch =>
      exact h.answers hworker (Or.inl ⟨rfl, rfl⟩)
        (.empty hle (List.forall_mem_nil _) rfl)
    | held last =>
      refine h.answers hworker (Or.inr ⟨by rintro ⟨⟩, by rw [hworker]; cases items <;> rfl⟩) ?_
      cases items with
      | nil => exact .empty (Nat.zero_le _) (List.forall_mem_nil _) rfl
      | cons notice items =>
        refine .empty hle (fun o ho => ?_) rfl
        exact hflight.notices o (List.mem_singleton.mp ho ▸ List.mem_cons_self)
  | restore generation losses batch => exact h.restores hworker
  | requeue generation batch => exact h.requeues hworker
  | deliver generation last =>
    unfold State.work
    rw [hworker] at hread ⊢
    have hle : generation ≤ s.bindingGeneration := hread
    have hdone : Ledger { s with
        held := none
        worker := if last = true then .idle else .policy generation } :=
      h.gives (by rw [hworker]; cases last <;> rfl) (by rintro _ ⟨⟩) (.held hle)
    cases hheld : s.held with
    | none => exact hdone
    | some notice =>
      dsimp only
      by_cases hstale : notice.bindingGeneration ≠ generation
      · rw [if_pos hstale]
        exact hdone
      · rw [if_neg hstale, ← hheld]
        refine h.moves (by rw [hworker]; rfl) (.empty hle (fun o ho => ?_) rfl)
        exact List.mem_singleton.mp ho ▸ h.held notice hheld
  | delivered generation notice last =>
    unfold State.work
    rw [hworker] at hread ⊢
    have hle : generation ≤ s.bindingGeneration := hread
    refine h.gives (by rw [hworker]; cases last <;> rfl) (fun o ho => ?_) (.held hle)
    cases hheld : s.held with
    | none =>
      simp only [hheld] at ho
      cases ho
    | some held =>
      simp only [hheld] at ho
      split_ifs at ho
      · cases ho
      · exact h.held o (hheld.trans ho)
  | policy generation =>
    unfold State.work
    rw [hworker] at hread ⊢
    have hle : generation ≤ s.bindingGeneration := hread
    refine h.gives ?_ h.held ?_
    · rw [hworker]
      split_ifs <;> rfl
    · split_ifs
      · exact .empty hle (List.forall_mem_nil _) rfl
      · exact .empty (Nat.zero_le _) (List.forall_mem_nil _) rfl

/-! ## Runs -/

/-- Only what the claim does not look at changes, and numbers may be taken. -/
theorem Ledger.aside (h : Ledger s) (hissued : s.issued ≤ s'.issued)
    (hgeneration : s'.bindingGeneration = s.bindingGeneration) (htrace : s'.trace = s.trace)
    (hcall : s'.call = s.call) (hqueue : s'.queue = s.queue) (hlosses : s'.losses = s.losses)
    (hheld : s'.held = s.held) (hreceipts : s'.receipts = s.receipts)
    (hworker : s'.worker = s.worker) : Ledger s' := by
  have hline : s'.line = s.line := by
    rw [State.line, State.line, hworker, hqueue, hcall]
  refine ⟨hline ▸ h.ordered, fun n hn => (h.issued n (hline ▸ hn)).trans hissued, hline ▸ h.numbered,
    hqueue ▸ hgeneration ▸ h.earlier, fun x hx => ?_, hlosses ▸ h.losses, hheld ▸ h.held,
    fun r hr => ?_, fun r hr => ?_, ?_, ?_⟩
  · exact (h.call x (hcall ▸ hx)).mono (Nat.le_of_eq hgeneration.symm)
  · have hsound := h.sound r (hreceipts ▸ hr)
    unfold Receipt.Sound at hsound ⊢
    rw [hgeneration, htrace]
    exact hsound
  · have hawaited := h.awaited r (hreceipts ▸ hr)
    unfold Awaited at hawaited ⊢
    rw [hgeneration, hworker, hqueue]
    exact hawaited
  · rw [hworker]
    refine ⟨hgeneration ▸ h.sending.read, h.sending.notices, h.sending.commits, fun hw => ?_⟩
    rw [hgeneration, htrace]
    exact h.sending.batch hw
  · have hhonest := h.honest
    unfold Honest at hhonest ⊢
    rw [htrace]
    exact hhonest

/-- **The generation ends**: nobody waits any longer. -/
theorem Ledger.ends (h : Ledger s) (hissued : s'.issued = s.issued)
    (hgeneration : s'.bindingGeneration = s.bindingGeneration + 1) (htrace : s'.trace = s.trace)
    (hcall : s'.call = s.call) (hqueue : s'.queue = []) (hlosses : s'.losses = [])
    (hheld : ∀ o ∈ s'.held, o ∈ s.held) (hreceipts : s'.receipts = [])
    (hworker : s'.worker = s.worker) : Ledger s' := by
  have hline : s'.line.Sublist s.line := by
    rw [State.line, State.line, hworker, hqueue, hcall]
    exact (List.Sublist.refl _).append ((List.nil_sublist _).append (List.Sublist.refl _))
  refine ⟨h.ordered.sublist (hline.map _), fun n hn => ?_, fun o ho => h.numbered o (hline.subset ho),
    fun o ho => ?_, fun x hx => ?_, fun o ho => ?_, fun o ho => h.held o (hheld o ho), fun r hr => ?_,
    fun r hr => ?_, ?_, ?_⟩
  · exact hissued ▸ h.issued n ((hline.map _).subset hn)
  · rw [hqueue] at ho
    exact absurd ho List.not_mem_nil
  · exact (h.call x (hcall ▸ hx)).mono (by omega)
  · rw [hlosses] at ho
    exact absurd ho List.not_mem_nil
  · rw [hreceipts] at hr
    exact absurd hr List.not_mem_nil
  · rw [hreceipts] at hr
    exact absurd hr List.not_mem_nil
  · rw [hworker]
    have hread := h.sending.read
    refine ⟨by omega, h.sending.notices, h.sending.commits, fun hw => ?_⟩
    obtain ⟨g, hle, hge, hrest⟩ := h.sending.batch hw
    rw [htrace]
    exact ⟨g, hle, by omega, hrest⟩
  · have hhonest := h.honest
    unfold Honest at hhonest ⊢
    rw [htrace]
    exact hhonest

/-- **A call begins**: its observation is the youngest. -/
theorem Ledger.begin (h : Ledger s) {draft : Draft} (hcall : s.call = none)
    (hdependency : ∀ u ∈ draft.observation.dependency, u ≤ s.issued) : Ledger (s.begin draft) := by
  have hline : s.line = s.worker.batch ++ s.queue := by
    rw [State.line, hcall]
    exact congrArg _ (List.append_nil _)
  have hline' : ∃ o : Observation, (s.begin draft).line = s.line ++ [o] ∧
      o.sequence = s.issued + 1 ∧ Numbered o := by
    refine ⟨{ draft.observation with
      sequence := s.issued + 1
      updateId := some (s.issued + 1)
      retries := 0 }, ?_, rfl, rfl, ?_, ?_⟩
    · rw [hline, List.append_assoc]
      rfl
    · exact fun u hu => Nat.lt_succ_of_le (hdependency u hu)
    · exact fun hretractable => draft.retractable hretractable
  obtain ⟨o, hline', hsequence, hnumbered⟩ := hline'
  have hsub : s.trace ⊆ (s.begin draft).trace := List.subset_append_left _ _
  refine ⟨?_, ?_, ?_, h.earlier, ?_, h.losses, h.held, ?_, h.awaited, ?_, ?_⟩
  · rw [hline', List.map_append, List.pairwise_append]
    refine ⟨h.ordered, List.pairwise_singleton _ _, fun n hn m hm => ?_⟩
    rw [List.mem_singleton.mp hm, hsequence]
    exact Nat.lt_succ_of_le (h.issued n hn)
  · intro n hn
    rw [hline', List.map_append] at hn
    rcases List.mem_append.mp hn with hn | hn
    · exact Nat.le_succ_of_le (h.issued n hn)
    · rw [List.mem_singleton.mp hn, hsequence]
      exact Nat.le_refl _
  · intro x hx
    rw [hline'] at hx
    rcases List.mem_append.mp hx with hx | hx
    · exact h.numbered x hx
    · exact List.mem_singleton.mp hx ▸ hnumbered
  · intro x hx
    rw [← Option.some.inj hx]
    trivial
  · intro r hr hstate hgeneration
    obtain ⟨hschema, commit, code, hb⟩ := h.sound r hr hstate hgeneration
    exact ⟨hschema, commit, code, ⟨hsub hb.answered, hb.admitted, hb.retractable, hb.update,
      hb.schema, hb.payload⟩⟩
  · refine ⟨h.sending.read, h.sending.notices, h.sending.commits, fun hw => ?_⟩
    obtain ⟨g, hle, hge, hchecked, hleaves⟩ := h.sending.batch hw
    exact ⟨g, hle, hge, hchecked, fun x hx => (hleaves x hx).later hsub⟩
  · intro i g b k items hi x hx
    have hi' : (s.trace ++ [Event.began (s.issued + 1) s.bindingGeneration])[i]? =
        some (.sent g b k items) := hi
    show Leaves ((s.trace ++ [Event.began (s.issued + 1) s.bindingGeneration]).take i) g x
    by_cases hlt : i < s.trace.length
    · rw [List.getElem?_append_left hlt] at hi'
      rw [List.take_append_of_le_length (Nat.le_of_lt hlt)]
      exact h.honest i g b k items hi' x hx
    · rw [List.getElem?_append_right (Nat.le_of_not_lt hlt)] at hi'
      cases List.mem_singleton.mp (List.mem_of_getElem? hi')

/-- **One step** of a prompt worker. -/
theorem ledger_step (h : Ledger s) (a : Action) (hprompt : Prompt s a) : Ledger (step l s a) := by
  cases a with
  | call draft =>
    show Ledger (if _ then s.begin draft else s)
    split_ifs with hcall
    · exact h.begin (Option.isNone_iff_eq_none.mp hcall.1) hcall.2
    · exact h
  | token => exact h.aside (Nat.le_succ _) rfl rfl rfl rfl rfl rfl rfl rfl
  | tryAdmit now contended => exact h.tryAdmit now contended
  | work reply => exact h.work hprompt
  | poll => exact h.aside (Nat.le_refl _) rfl rfl rfl rfl rfl rfl rfl rfl
  | polled index answer now =>
    show Ledger (s.polled index answer now)
    unfold State.polled
    cases s.polls[index]? with
    | none => exact h
    | some poll =>
      dsimp only
      split_ifs
      · exact h.aside (Nat.le_refl _) rfl rfl rfl rfl rfl rfl rfl rfl
      · cases answer <;> exact h.aside (Nat.le_refl _) rfl rfl rfl rfl rfl rfl rfl rfl
  | refresh safe => exact h.aside (Nat.le_refl _) rfl rfl rfl rfl rfl rfl rfl rfl
  | abandon => exact h.ends rfl rfl rfl rfl rfl rfl (fun _ ho => nomatch ho) rfl rfl
  | retarget socket => exact h.ends rfl rfl rfl rfl rfl rfl (fun _ ho => ho) rfl rfl

/-- The commit of a retraction that cannot be resolved is on its way, and is older. -/
theorem Ledger.unblocked (h : Ledger s) : Unblocked s := by
  intro front o back update hqueue hdependency hresolve
  -- its receipt is pending in the generation
  have hpending : ∃ r ∈ s.receipts, r.updateId = update ∧ r.state = .pending ∧
      r.generation = s.bindingGeneration := by
    unfold resolve at hresolve
    rw [hdependency] at hresolve
    dsimp only at hresolve
    cases hfind : findReceipt s.receipts update with
    | none =>
      rw [hfind] at hresolve
      cases hresolve
    | some r =>
      rw [hfind] at hresolve
      dsimp only at hresolve
      have hfind' : s.receipts.find? (fun r => r.updateId = update) = some r := hfind
      split_ifs at hresolve with hwaits
      exact ⟨r, List.mem_of_find?_eq_some hfind', by simpa using List.find?_some hfind', hwaits⟩
  obtain ⟨r, hr, rfl, hstate, hgeneration⟩ := hpending
  obtain ⟨c, hc, hupdate, -, hretractable⟩ := h.awaited r hr hstate hgeneration
  refine ⟨c, ?_, hupdate, hretractable⟩
  rcases List.mem_append.mp hc with hc | hc
  · exact List.mem_append_right _ hc
  · rw [hqueue] at hc
    refine List.mem_append_left _ ?_
    have hmem (x : Observation) (hx : x ∈ front ++ o :: back) : Numbered x := by
      refine h.numbered x ?_
      rw [State.line, hqueue]
      exact List.mem_append_right _ (List.mem_append_left _ hx)
    have hnumber : c.sequence = r.updateId :=
      Option.some.inj ((hmem c hc).update.symm.trans hupdate)
    have ho : o ∈ front ++ o :: back := List.mem_append_right _ List.mem_cons_self
    have hlt : c.sequence < o.sequence := hnumber ▸ (hmem o ho).dependency _ hdependency
    rcases List.mem_append.mp hc with hc | hc
    · exact hc
    · -- what stands behind the retraction is younger
      have hordered := h.ordered
      rw [State.line, hqueue, List.append_assoc, List.map_append] at hordered
      have htail := (List.pairwise_append.mp hordered).2.1
      rw [List.map_append] at htail
      have hlast := (List.pairwise_append.mp htail).2.1
      rcases List.mem_cons.mp hc with rfl | hc
      · exact absurd hlt (Nat.lt_irrefl _)
      · have hyounger := (List.pairwise_cons.mp hlast).1 c.sequence
          (List.mem_map.mpr ⟨c, List.mem_append_left _ hc, rfl⟩)
        omega

/-- **A retraction carries content only after its exact commit was admitted, and none stays blocked**,
in every run of a prompt worker. -/
theorem retractions_honest (l : Limits) (acts : List Action)
    (hprompt : Runs.Along (step l) Prompt {} acts) :
    Honest (Runs.run (step l) {} acts) ∧ Unblocked (Runs.run (step l) {} acts) := by
  have hinit : Ledger {} :=
    ⟨List.Pairwise.nil, List.forall_mem_nil _, List.forall_mem_nil _,
      List.forall_mem_nil _, fun _ h => (nomatch h),
      List.forall_mem_nil _, fun _ h => (nomatch h),
      List.forall_mem_nil _, List.forall_mem_nil _,
      .empty (Nat.zero_le _) (List.forall_mem_nil _) rfl,
      fun i _ _ _ _ h => by
        rw [List.getElem?_nil] at h
        cases h⟩
  have hstep (s : State) (a : Action) (hprompt : Prompt s a) (h : Ledger s) :
      Ledger (step l s a) := ledger_step h a hprompt
  have hledger := Runs.run_invariant_along hstep hinit hprompt
  exact ⟨hledger.honest, hledger.unblocked⟩

instance decidablePrompt (s : State) : ∀ a, Decidable (Prompt s a)
  | .work _ =>
    match hworker : s.worker with
    | .stamped generation =>
      decidable_of_iff (generation = s.bindingGeneration ∨
          ∀ o ∈ s.queue.take batchSize, o.retractableCommit = false)
        ⟨fun h g hx => by
          cases hworker.symm.trans hx
          exact h, fun h => h generation hworker⟩
    | .idle | .send .. | .current .. | .exchange .. | .answered .. | .restore .. | .requeue ..
    | .deliver .. | .delivered .. | .policy _ => .isTrue fun g hx => nomatch hworker.symm.trans hx
  | .call _ | .token | .tryAdmit .. | .poll | .polled .. | .refresh _ | .abandon | .retarget _ =>
    .isTrue trivial

/-- `retractions_honest` of a run in which a commit is sent, and its retraction leaves with its
content. -/
theorem retractions_honest_sample :
    Honest (Runs.run (step {}) {} (polledActions ++ admittedActions sampleCommit ++
        admittedActions (sampleIntent 1) ++ sentActions (.codes (some [ascii "admitted"])) ++
        restedActions ++ sentActions (.codes (some [ascii "admitted"])))) ∧
      Unblocked (Runs.run (step {}) {} (polledActions ++ admittedActions sampleCommit ++
        admittedActions (sampleIntent 1) ++ sentActions (.codes (some [ascii "admitted"])) ++
        restedActions ++ sentActions (.codes (some [ascii "admitted"])))) :=
  retractions_honest {} _ (by decide +kernel)

/-- The worker reads the generation, the queue is abandoned, and a commit of the next generation and
its retraction enter before the worker takes its batch. -/
def belatedActions : List Action :=
  [.work .unsent, .abandon] ++ polledActions ++ admittedActions sampleCommit ++
    admittedActions (sampleIntent 1) ++ [.work .unsent, .work .unsent, .work .unsent]

/-- **A retraction waits in vain**: its commit has been dropped without a word. -/
theorem retractions_honest_belated :
    ¬ ∀ (l : Limits) (acts : List Action),
      Honest (Runs.run (step l) {} acts) ∧ Unblocked (Runs.run (step l) {} acts) := by
  intro hall
  have hunblocked := (hall {} belatedActions).2
  have hstate : ((Runs.run (step {}) {} belatedActions).queue.map fun o =>
        (o.dependency, (resolve (Runs.run (step {}) {} belatedActions).bindingGeneration
          (Runs.run (step {}) {} belatedActions).receipts o).isNone)) = [(some 1, true)] ∧
      (Runs.run (step {}) {} belatedActions).worker.batch = [] := by
    decide +kernel
  obtain ⟨hqueue, hbatch⟩ := hstate
  obtain ⟨o, hqueue, ho⟩ := List.map_eq_singleton_iff.mp hqueue
  obtain ⟨hdependency, hresolve⟩ := Prod.mk.inj ho
  rw [Option.isNone_iff_eq_none] at hresolve
  obtain ⟨c, hc, -⟩ := hunblocked [] o [] 1 hqueue hdependency hresolve
  rw [hbatch] at hc
  exact absurd hc List.not_mem_nil

end Native
end SemanticMemory
