import SemanticMemory.Native.Steps

/-!
# Retarget and abandon

A binding generation ends when the queue is abandoned or the producer is given another socket.  What
was admitted before is to be dropped then, and never to be sent to what the new generation has bound.

* `Directed` is the claim about the frames: each observation of a frame has been called for in the
  generation of the frame, and was admitted under a policy that was read from the frame's socket.
* Three gaps let a generation end unnoticed: between the call and the entry in the queue, between the
  worker's look at the generation and the exchange, and between a poll's look at the socket and its
  end.  `Undivided` says that none of them is hit.
* `Sealed` is the invariant: what waits belongs to the generation, and what the worker has in its
  hands is at least as young as the generation it has read.
-/

namespace SemanticMemory
namespace Native

variable {l : Limits} {s s' s'' : State} {o : Observation}

/-- The `TryAdmit` of an observation began in a generation. -/
structure BeganIn (s : State) (sequence generation : ℕ) : Prop where
  began : .began sequence generation ∈ s.trace
  only : ∀ g, .began sequence g ∈ s.trace → g = generation

/-- **Dropped, never redirected**: what a frame carries has been called for in the generation that
has bound the frame's socket, and was admitted under a policy that was read from this socket. -/
def Directed (s : State) : Prop :=
  ∀ generation bound socket items, .sent generation bound socket items ∈ s.trace → ∀ o ∈ items,
    BeganIn s o.sequence bound ∧
      (o.kind ≠ .lossNotice →
        ∃ a, .admitted a (some socket) ∈ s.trace ∧ a.sequence = o.sequence)

/-- **No gap is hit**: an observation enters the queue in the generation in which it was called for,
a frame is written in the generation that the worker has found, and a poll that finds a policy ends
while its socket is still the producer's. -/
def Undivided (s : State) : Action → Prop
  | .tryAdmit _ contended => ∀ o policy, s.call = some (.allowed o policy) → contended = false →
      .began o.sequence s.bindingGeneration ∈ s.trace
  | .work reply => ∀ generation purpose items,
      s.worker = .exchange generation purpose items → reply ≠ .unsent →
        generation = s.bindingGeneration
  | .polled index answer _ => ∀ poll desired, s.polls[index]? = some poll →
      poll.token = s.pollToken → answer = .policy desired → desired ≠ 0 → poll.socket = s.socket
  | _ => True

/-! ## The invariant -/

/-- An observation is on its way since its call. -/
structure Bound (s : State) (o : Observation) : Prop where
  issued : o.sequence ≤ s.issued
  began : BeganIn s o.sequence o.bindingGeneration
  earlier : o.bindingGeneration ≤ s.bindingGeneration
  retraction : o.dependency ≠ none → o.kind ≠ .lossNotice
  policy : o.kind ≠ .lossNotice → ∃ a k, .admitted a (some k) ∈ s.trace ∧
    a.sequence = o.sequence ∧ (o.bindingGeneration = s.bindingGeneration → k = s.socket)

def Call.Reads (s : State) : Call → Prop
  | .stamped o => o.bindingGeneration = s.bindingGeneration
  | .allowed o policy => o.bindingGeneration = s.bindingGeneration ∧
      (o.kind ≠ .lossNotice → policy = some s.socket)
  | _ => True

/-- A call on its way: if its generation has not ended, it has read what belongs to it. -/
structure Calling (s : State) (x : Call) : Prop where
  issued : x.observation.sequence ≤ s.issued
  retraction : x.observation.dependency ≠ none → x.observation.kind ≠ .lossNotice
  began : ∃ b, BeganIn s x.observation.sequence b ∧ b ≤ s.bindingGeneration ∧
    (b = s.bindingGeneration → x.Reads s)

def Purpose.rest : Purpose → List Observation
  | .losses later => later
  | _ => []

/-- What the worker has in its hands, and may still send or put back. -/
def Worker.hand : Worker → List Observation
  | .send _ purpose items | .current _ purpose items | .exchange _ purpose items =>
    items ++ purpose.rest
  | .answered _ purpose _ _ => purpose.rest
  | .restore _ losses batch => losses ++ batch
  | .requeue _ batch => batch
  | _ => []

/-- The items whose generation the worker has looked at. -/
def Worker.checked : Worker → List Observation
  | .current _ _ items | .exchange _ _ items => items
  | _ => []

structure Flying (s : State) (w : Worker) : Prop where
  generation : w.generation ≤ s.bindingGeneration
  hand : ∀ o ∈ w.hand, Bound s o ∧ w.generation ≤ o.bindingGeneration
  checked : ∀ o ∈ w.checked, o.bindingGeneration = w.generation

/-- What waits in the queue or among the losses. -/
def Current (s : State) (o : Observation) : Prop :=
  Bound s o ∧ o.bindingGeneration = s.bindingGeneration

/-- **The invariant.** -/
structure Sealed (s : State) : Prop where
  numbered : ∀ n g, .began n g ∈ s.trace → n ≤ s.issued
  policy : s.policyValid = true → s.policySocket = some s.socket
  call : ∀ x ∈ s.call, Calling s x
  queue : ∀ o ∈ s.queue, Current s o
  losses : ∀ o ∈ s.losses, Current s o
  held : ∀ o ∈ s.held, Bound s o
  flying : Flying s s.worker
  directed : Directed s

/-! ### What later steps leave alone -/

/-- A later state: it knows of the same calls, and is in the same generation or in a later one. -/
structure Later (s s' : State) : Prop where
  trace : ∀ e ∈ s.trace, e ∈ s'.trace
  began : ∀ n g, n ≤ s.issued → .began n g ∈ s'.trace → .began n g ∈ s.trace
  issued : s.issued ≤ s'.issued
  place : s'.bindingGeneration = s.bindingGeneration ∧ s'.socket = s.socket ∨
    s.bindingGeneration < s'.bindingGeneration

theorem Frame.later (h : Frame s s') : Later s s' := by
  obtain ⟨es, htrace, hes⟩ := h.trace
  refine ⟨fun e he => ?_, fun n g _ hbegan => ?_, Nat.le_of_eq h.issued.symm,
    Or.inl ⟨h.generation, h.socket⟩⟩
  · rw [htrace]
    exact List.mem_append_left es he
  · rw [htrace] at hbegan
    rcases List.mem_append.mp hbegan with hbegan | hbegan
    · exact hbegan
    · exact absurd (hes _ hbegan) id

theorem Later.generation_le (h : Later s s') : s.bindingGeneration ≤ s'.bindingGeneration := by
  rcases h.place with ⟨hgeneration, -⟩ | hlt
  · exact Nat.le_of_eq hgeneration.symm
  · exact Nat.le_of_lt hlt

theorem BeganIn.later {n g : ℕ} (h : BeganIn s n g) (hlater : Later s s') (hn : n ≤ s.issued) :
    BeganIn s' n g :=
  ⟨hlater.trace _ h.began, fun g' hg' => h.only g' (hlater.began n g' hn hg')⟩

theorem Bound.later (h : Bound s o) (hlater : Later s s') : Bound s' o where
  issued := h.issued.trans hlater.issued
  began := h.began.later hlater h.issued
  earlier := h.earlier.trans hlater.generation_le
  retraction := h.retraction
  policy hkind := by
    obtain ⟨a, k, hadmitted, hsequence, hsocket⟩ := h.policy hkind
    refine ⟨a, k, hlater.trace _ hadmitted, hsequence, fun hcurrent => ?_⟩
    rcases hlater.place with ⟨hgeneration, hsame⟩ | hlt
    · rw [hsame]
      exact hsocket (hcurrent.trans hgeneration)
    · have hearlier := h.earlier
      omega

/-- A field of the invariant that looks at one generation. -/
theorem Current.later (h : Current s o) (hlater : Later s s')
    (hgeneration : s'.bindingGeneration = s.bindingGeneration) : Current s' o :=
  ⟨h.1.later hlater, h.2.trans hgeneration.symm⟩

theorem Flying.later {w : Worker} (h : Flying s w) (hlater : Later s s') : Flying s' w :=
  ⟨h.generation.trans hlater.generation_le,
    fun o ho => ⟨(h.hand o ho).1.later hlater, (h.hand o ho).2⟩, h.checked⟩

theorem Calling.later {x : Call} (h : Calling s x) (hlater : Later s s') : Calling s' x where
  issued := h.issued.trans hlater.issued
  retraction := h.retraction
  began := by
    obtain ⟨b, hbegan, hle, hreads⟩ := h.began
    refine ⟨b, hbegan.later hlater h.issued, hle.trans hlater.generation_le, fun hcurrent => ?_⟩
    rcases hlater.place with ⟨hgeneration, hsocket⟩ | hlt
    · have hreads := hreads (hcurrent.trans hgeneration)
      cases x with
      | begun | safe => trivial
      | stamped o => exact Eq.trans hreads hgeneration.symm
      | allowed o policy =>
        exact ⟨hreads.1.trans hgeneration.symm, fun hkind => hsocket ▸ hreads.2 hkind⟩
    · omega

/-- The frames of before are still directed. -/
theorem Directed.later (h : Directed s) (hnumbered : ∀ n g, .began n g ∈ s.trace → n ≤ s.issued)
    (hlater : Later s s')
    (hsent : ∀ g b k items, .sent g b k items ∈ s'.trace → .sent g b k items ∈ s.trace) :
    Directed s' := by
  intro g b k items hmem o ho
  obtain ⟨hbegan, hpolicy⟩ := h g b k items (hsent g b k items hmem) o ho
  refine ⟨hbegan.later hlater (hnumbered _ _ hbegan.began), fun hkind => ?_⟩
  obtain ⟨a, hadmitted, hsequence⟩ := hpolicy hkind
  exact ⟨a, hlater.trace _ hadmitted, hsequence⟩

theorem Frame.numbered (h : Frame s s') (hnumbered : ∀ n g, .began n g ∈ s.trace → n ≤ s.issued)
    (n g : ℕ) (hbegan : .began n g ∈ s'.trace) : n ≤ s'.issued := by
  obtain ⟨es, htrace, hes⟩ := h.trace
  rw [htrace] at hbegan
  rcases List.mem_append.mp hbegan with hbegan | hbegan
  · exact h.issued ▸ hnumbered n g hbegan
  · exact absurd (hes _ hbegan) id

theorem Frame.sent (h : Frame s s') (g b k : ℕ) (items : List Observation)
    (hmem : .sent g b k items ∈ s'.trace) : .sent g b k items ∈ s.trace := by
  obtain ⟨es, htrace, hes⟩ := h.trace
  rw [htrace] at hmem
  rcases List.mem_append.mp hmem with hmem | hmem
  · exact hmem
  · exact absurd (hes _ hmem) id

/-- **An operation under the lock** keeps the invariant, if what waits and what the worker has are
bound afterwards. -/
theorem Sealed.frame (h : Sealed s) (hframe : Frame s s') (hcall : ∀ x ∈ s'.call, Calling s x)
    (hwaiting : Waiting (Current s') s') (hheld : ∀ o ∈ s'.held, Bound s o)
    (hflying : Flying s s'.worker) : Sealed s' where
  numbered := hframe.numbered h.numbered
  policy hvalid := by
    rw [hframe.policySocket, hframe.socket]
    exact h.policy (hframe.policyValid ▸ hvalid)
  call x hx := (hcall x hx).later hframe.later
  queue := hwaiting.queue
  losses := hwaiting.losses
  held o ho := (hheld o ho).later hframe.later
  flying := hflying.later hframe.later
  directed := h.directed.later h.numbered hframe.later hframe.sent

theorem Waiting.later (h : Waiting (Current s) s'') (hframe : Frame s s') :
    Waiting (Current s') s'' :=
  ⟨fun o ho => (h.queue o ho).later hframe.later hframe.generation,
    fun o ho => (h.losses o ho).later hframe.later hframe.generation⟩

/-! ### Admission -/

/-- Belonging to the generation does not look at what the loops change. -/
theorem robust_current (s : State) : Robust (Current s) where
  notice _ _ _ h :=
    ⟨⟨h.1.issued, h.1.began, h.1.earlier, fun hno => absurd rfl hno, fun hno => absurd rfl hno⟩, h.2⟩
  retried _ _ h := ⟨⟨h.1.issued, h.1.began, h.1.earlier, h.1.retraction, h.1.policy⟩, h.2⟩

theorem Bound.resolved (h : Bound s o) {o' : Observation} {generation : ℕ}
    {receipts receipts' : List Receipt} (hresolved : Resolved generation receipts o o' receipts') :
    Bound s o' ∧ o'.bindingGeneration = o.bindingGeneration := by
  cases hresolved with
  | plain => exact ⟨h, rfl⟩
  | attached update r hdependency =>
    have hkind : o.kind ≠ .lossNotice := h.retraction (by rw [hdependency]; exact nofun)
    exact ⟨⟨h.issued, h.began, h.earlier, fun _ => nofun, fun _ => h.policy hkind⟩, rfl⟩
  | excluded update reason hdependency =>
    have hkind : o.kind ≠ .lossNotice := h.retraction (by rw [hdependency]; exact nofun)
    exact ⟨⟨h.issued, h.began, h.earlier, fun _ => nofun, fun _ => h.policy hkind⟩, rfl⟩

theorem Sealed.waiting (h : Sealed s) : Waiting (Current s) s := ⟨h.queue, h.losses⟩

/-- A change of the worker alone. -/
theorem Sealed.moves (h : Sealed s) (hframe : Frame s s') (hcall : s'.call = s.call)
    (hqueue : ∀ o ∈ s'.queue, o ∈ s.queue) (hlosses : ∀ o ∈ s'.losses, o ∈ s.losses)
    (hheld : ∀ o ∈ s'.held, o ∈ s.held) (hflying : Flying s s'.worker) : Sealed s' :=
  h.frame hframe (hcall ▸ h.call)
    (Waiting.later ⟨fun o ho => h.queue o (hqueue o ho), fun o ho => h.losses o (hlosses o ho)⟩
      hframe) (fun o ho => h.held o (hheld o ho)) hflying

theorem Calling.entered {policy : Option ℕ} (h : Calling s (.allowed o policy))
    (hbegan : .began o.sequence s.bindingGeneration ∈ s.trace) :
    BeganIn s o.sequence o.bindingGeneration ∧ o.bindingGeneration = s.bindingGeneration ∧
      (o.kind ≠ .lossNotice → policy = some s.socket) := by
  obtain ⟨b, hb, -, hreads⟩ := h.began
  have hcurrent : b = s.bindingGeneration := (hb.only _ hbegan).symm
  obtain ⟨hgeneration, hpolicy⟩ := hreads hcurrent
  refine ⟨?_, hgeneration, hpolicy⟩
  rw [hgeneration, ← hcurrent]
  exact hb

/-- **An entry** keeps what waits in the generation. -/
theorem waiting_enter (h : Sealed s) {policy : Option ℕ} (hcall : Calling s (.allowed o policy))
    (hbegan : .began o.sequence s.bindingGeneration ∈ s.trace) :
    Waiting (Current (s.enter l o policy)) (s.enter l o policy) := by
  obtain ⟨hown, hgeneration, hpolicy⟩ := hcall.entered hbegan
  have hframe := frame_enter l s o policy
  have hwaiting := h.waiting.later hframe
  have hcases := enter_cases l s o policy
  have hpushed (hadmitted : .admitted o policy ∈ (s.enter l o policy).trace) :
      Current (s.enter l o policy) o := by
    refine ⟨⟨hcall.issued.trans hframe.later.issued, hown.later hframe.later hcall.issued,
      (Nat.le_of_eq hgeneration).trans hframe.later.generation_le, hcall.retraction,
      fun hkind => ⟨o, s.socket, hpolicy hkind ▸ hadmitted, rfl, fun _ => hframe.socket.symm⟩⟩, ?_⟩
    exact hgeneration.trans hframe.generation.symm
  revert hwaiting hpushed hframe hcases
  generalize s.enter l o policy = t
  intro hframe hwaiting hcases hpushed
  cases hcases with
  | fits => exact hwaiting.push (hpushed (List.mem_append_right _ (List.mem_singleton_self _))) policy
  | displaces index old hold =>
    exact (hwaiting.displace (robust_current _) hold).push
      (hpushed (List.mem_append_right _ (List.mem_singleton_self _))) policy
  | full =>
    refine hwaiting.rememberLoss ⟨⟨hcall.issued.trans hframe.later.issued,
      hown.later hframe.later hcall.issued,
      (Nat.le_of_eq hgeneration).trans hframe.later.generation_le, fun hno => absurd rfl hno,
      fun hno => absurd rfl hno⟩, hgeneration.trans hframe.generation.symm⟩

/-- **A step of a call.** -/
theorem Sealed.tryAdmit (h : Sealed s) {now : ℕ} {contended : Bool}
    (hentry : ∀ o policy, s.call = some (.allowed o policy) → contended = false →
      .began o.sequence s.bindingGeneration ∈ s.trace) : Sealed (s.tryAdmit l now contended) := by
  have hcalls (call : Option Call) (hcall : ∀ x ∈ call, Calling s x) :
      Sealed { s with call := call } := by
    have hframe : Frame s { s with call := call } := .silent rfl rfl rfl rfl rfl rfl rfl
    have hwaiting := h.waiting.later hframe
    exact h.frame hframe hcall ⟨hwaiting.queue, hwaiting.losses⟩ h.held h.flying
  have hnone : ∀ x ∈ (none : Option Call), Calling s x := fun x hx => nomatch hx
  unfold State.tryAdmit
  cases hcall : s.call with
  | none => exact h
  | some x =>
    have hx : Calling s x := h.call x hcall
    obtain ⟨b, hbegan, hle, hreads⟩ := hx.began
    cases x with
    | begun o =>
      refine hcalls _ fun y hy => ?_
      split_ifs at hy
      · rw [← Option.some.inj hy]
        exact ⟨hx.issued, hx.retraction, b, hbegan, hle, fun _ => trivial⟩
      · cases hy
    | safe o =>
      refine hcalls _ fun y hy => ?_
      split_ifs at hy
      · cases hy
      · rw [← Option.some.inj hy]
        exact ⟨hx.issued, hx.retraction, b, hbegan, hle, fun _ => rfl⟩
    | stamped o =>
      refine hcalls _ fun y hy => ?_
      split_ifs at hy with hallows
      · rw [← Option.some.inj hy]
        refine ⟨hx.issued, hx.retraction, b, hbegan, hle, fun hcurrent =>
          ⟨hreads hcurrent, fun hkind => ?_⟩⟩
        have hpolicy : s.policyAllows now = true := hallows.resolve_left hkind
        simp only [State.policyAllows, Bool.and_eq_true] at hpolicy
        exact h.policy hpolicy.1.1.1
      · cases hy
    | allowed o policy =>
      dsimp only
      by_cases hcontended : contended = true
      · rw [if_pos hcontended]
        have hframe : Frame s { s with contended := s.contended + 1, call := none } :=
          .silent rfl rfl rfl rfl rfl rfl rfl
        have hwaiting := h.waiting.later hframe
        exact h.frame hframe hnone ⟨hwaiting.queue, hwaiting.losses⟩ h.held h.flying
      · rw [if_neg hcontended]
        have hentered := hentry o policy hcall (Bool.eq_false_iff.mpr hcontended)
        have hframe : Frame s { s with captureSeq := s.captureSeq + 1, call := none } :=
          .silent rfl rfl rfl rfl rfl rfl rfl
        have hw := h.waiting.later hframe
        have hbefore : Sealed { s with captureSeq := s.captureSeq + 1, call := none } :=
          h.frame hframe hnone ⟨hw.queue, hw.losses⟩ h.held h.flying
        have hin := frame_enter l { s with captureSeq := s.captureSeq + 1, call := none } o policy
        have hwaiting := waiting_enter (l := l) hbefore (hx.later hframe.later) hentered
        obtain ⟨hheld, hcall', hworker⟩ :=
          held_enter l { s with captureSeq := s.captureSeq + 1, call := none } o policy
        refine hbefore.frame hin (hcall' ▸ fun y hy => nomatch hy) hwaiting ?_ ?_
        · rw [hheld]
          exact hbefore.held
        · rw [hworker]
          exact hbefore.flying

/-! ### The worker -/

theorem Flying.part {w w' : Worker} (h : Flying s w) (hgeneration : w'.generation ≤ w.generation)
    (hhand : ∀ o ∈ w'.hand, o ∈ w.hand) (hchecked : w'.checked = []) : Flying s w' where
  generation := hgeneration.trans h.generation
  hand o ho := ⟨(h.hand o (hhand o ho)).1, hgeneration.trans (h.hand o (hhand o ho)).2⟩
  checked o ho := by
    rw [hchecked] at ho
    exact absurd ho List.not_mem_nil

theorem dropped_part (generation : ℕ) (purpose : Purpose) :
    (dropped generation purpose).generation ≤ generation ∧
      (∀ o ∈ (dropped generation purpose).hand, o ∈ purpose.rest) ∧
      (dropped generation purpose).checked = [] := by
  cases purpose with
  | losses later => exact ⟨Nat.le_refl _, fun o ho => (List.append_nil later ▸ ho : o ∈ later), rfl⟩
  | batch => exact ⟨Nat.le_refl _, fun _ ho => ho, rfl⟩
  | held last =>
    unfold dropped
    dsimp only
    split_ifs
    · exact ⟨Nat.zero_le _, fun _ ho => ho, rfl⟩
    · exact ⟨Nat.le_refl _, fun _ ho => ho, rfl⟩

theorem retry_part (generation : ℕ) (items : List Observation) (purpose : Purpose) :
    (retry generation items purpose).generation ≤ generation ∧
      (∀ o ∈ (retry generation items purpose).hand, o ∈ items ++ purpose.rest) ∧
      (retry generation items purpose).checked = [] := by
  cases purpose with
  | losses later => exact ⟨Nat.le_refl _, fun _ ho => ho, rfl⟩
  | batch => exact ⟨Nat.le_refl _, fun _ ho => List.mem_append_left _ ho, rfl⟩
  | held last =>
    unfold retry
    dsimp only
    split_ifs
    · exact ⟨Nat.zero_le _, List.forall_mem_nil _, rfl⟩
    · exact ⟨Nat.le_refl _, List.forall_mem_nil _, rfl⟩

theorem sent_part (generation : ℕ) (items : List Observation) (purpose : Purpose) :
    (sent generation items purpose).generation ≤ generation ∧
      (∀ o ∈ (sent generation items purpose).hand, o ∈ purpose.rest) ∧
      (sent generation items purpose).checked = [] := by
  cases purpose with
  | losses later => exact ⟨Nat.le_refl _, fun o ho => (List.append_nil later ▸ ho : o ∈ later), rfl⟩
  | batch => exact ⟨Nat.le_refl _, fun _ ho => ho, rfl⟩
  | held last =>
    cases items with
    | nil => exact ⟨Nat.zero_le _, fun _ ho => ho, rfl⟩
    | cons notice items => exact ⟨Nat.le_refl _, fun _ ho => ho, rfl⟩

/-- **A frame is written** in the generation that the worker has found: it is directed. -/
theorem Sealed.writes (h : Sealed s) {generation : ℕ} {purpose : Purpose}
    {items : List Observation} (hworker : s.worker = .exchange generation purpose items)
    (hcurrent : generation = s.bindingGeneration) {w : Worker} (hflying : Flying s w) :
    Sealed { s.note (.sent generation s.bindingGeneration s.socket items) with worker := w } := by
  have hitems (o : Observation) (ho : o ∈ items) :
      Bound s o ∧ o.bindingGeneration = s.bindingGeneration := by
    have hflight := h.flying
    rw [hworker] at hflight
    exact ⟨(hflight.hand o (List.mem_append_left _ ho)).1, (hflight.checked o ho).trans hcurrent⟩
  have hlater : Later s { s.note (.sent generation s.bindingGeneration s.socket items) with worker := w } := by
    refine ⟨fun e he => List.mem_append_left _ he, fun n g _ hbegan => ?_, Nat.le_refl _,
      Or.inl ⟨rfl, rfl⟩⟩
    rcases List.mem_append.mp hbegan with hbegan | hbegan
    · exact hbegan
    · cases List.mem_singleton.mp hbegan
  refine ⟨fun n g hbegan => ?_, h.policy, fun x hx => (h.call x hx).later hlater,
    fun o ho => (h.queue o ho).later hlater rfl, fun o ho => (h.losses o ho).later hlater rfl,
    fun o ho => (h.held o ho).later hlater, hflying.later hlater, ?_⟩
  · rcases List.mem_append.mp hbegan with hbegan | hbegan
    · exact h.numbered n g hbegan
    · cases List.mem_singleton.mp hbegan
  · intro g b k items' hmem o ho
    rcases List.mem_append.mp hmem with hmem | hmem
    · obtain ⟨hbegan, hpolicy⟩ := h.directed g b k items' hmem o ho
      refine ⟨hbegan.later hlater (h.numbered _ _ hbegan.began), fun hkind => ?_⟩
      obtain ⟨a, hadmitted, hsequence⟩ := hpolicy hkind
      exact ⟨a, hlater.trace _ hadmitted, hsequence⟩
    · cases List.mem_singleton.mp hmem
      obtain ⟨hbound, hgeneration⟩ := hitems o ho
      refine ⟨(hgeneration ▸ hbound.began).later hlater hbound.issued, fun hkind => ?_⟩
      obtain ⟨a, k, hadmitted, hsequence, hsocket⟩ := hbound.policy hkind
      exact ⟨a, hlater.trace _ (hsocket hgeneration ▸ hadmitted), hsequence⟩

/-- What the loops that put items back keep of the state `s` before them. -/
structure Restoring (s t : State) : Prop where
  frame : Frame s t
  waiting : Waiting (Current s) t
  held : ∀ o ∈ t.held, Bound s o
  call : t.call = s.call

theorem Sealed.restoring (h : Sealed s) : Restoring s s := ⟨.refl s, h.waiting, h.held, rfl⟩

theorem Restoring.restoreLoss {t : State} (h : Restoring s t) (ho : Bound s o) :
    Restoring s (t.restoreLoss o) := by
  have hframe := frame_restoreLoss t o
  have hcases := restoreLoss_cases t o
  revert hframe hcases
  generalize t.restoreLoss o = t'
  intro hframe hcases
  have hcurrent (hsame : o.bindingGeneration = t.bindingGeneration) : Current s o :=
    ⟨ho, hsame.trans h.frame.generation⟩
  cases hcases with
  | stale => exact h
  | covered => exact h
  | holds hsame =>
    refine ⟨h.frame.trans hframe, ⟨h.waiting.queue, h.waiting.losses⟩, fun x hx => ?_, h.call⟩
    rw [← Option.some.inj hx]
    exact ⟨ho.issued, ho.began, ho.earlier, ho.retraction, ho.policy⟩
  | waits hsame =>
    refine ⟨h.frame.trans hframe, ⟨h.waiting.queue, fun x hx => ?_⟩, h.held, h.call⟩
    rcases List.mem_cons.mp hx with rfl | hx
    · exact (robust_current s).retried o _ (hcurrent hsame)
    · exact h.waiting.losses x hx

theorem Restoring.putBack {t : State} (h : Restoring s t) (ho : Bound s o) :
    Restoring s (t.putBack l o) := by
  have hframe := h.frame.trans (frame_putBack l t o)
  obtain ⟨hheld, hcall⟩ := held_putBack l t o
  refine ⟨hframe, ?_, fun x hx => h.held x (hheld ▸ hx), hcall.trans h.call⟩
  by_cases hsame : o.bindingGeneration = t.bindingGeneration
  · exact h.waiting.putBack (robust_current s) ⟨ho, hsame.trans h.frame.generation⟩
  · have hstale : t.putBack l o = t := if_pos hsame
    rw [hstale]
    exact h.waiting

/-- The loops are over. -/
theorem Restoring.ends {t : State} (h : Restoring s t) (hs : Sealed s)
    (hlosses : ∀ o ∈ s'.losses, o ∈ t.losses) (hqueue : s'.queue = t.queue) (hheld : s'.held = t.held)
    (hcall : s'.call = t.call) (hframe : Frame t s') (hflying : Flying s s'.worker) : Sealed s' := by
  have hall := h.frame.trans hframe
  have hw : Waiting (Current s) s' :=
    ⟨fun o ho => h.waiting.queue o (hqueue ▸ ho), fun o ho => h.waiting.losses o (hlosses o ho)⟩
  exact hs.frame hall (hcall.trans h.call ▸ hs.call) (hw.later hall)
    (fun o ho => h.held o (hheld ▸ ho)) hflying

/-- **A step of the worker.** -/
theorem Sealed.work (h : Sealed s) {reply : Reply}
    (hwrite : ∀ generation purpose items, s.worker = .exchange generation purpose items →
      reply ≠ .unsent → generation = s.bindingGeneration) : Sealed (s.work l reply) := by
  have hflying := h.flying
  have hgives {k : Option Observation} {ok : Bool} {rs : List Receipt} {w : Worker}
      (hk : ∀ o ∈ k, o ∈ s.held) (hw : Flying s w) : Sealed { s with
        receipts := rs, held := k, policyExchangeOk := ok, worker := w } :=
    h.moves (.silent rfl rfl rfl rfl rfl rfl rfl) rfl (fun _ ho => ho) (fun _ ho => ho) hk hw
  have hmoves (w : Worker) (hw : Flying s w) : Sealed { s with worker := w } :=
    hgives (fun _ ho => ho) hw
  have hdone (g : ℕ) (last : Bool) (hg : s.worker.generation = g) :
      Flying s (dropped g (.held last)) := by
    obtain ⟨hle, hhand, hchecked⟩ := dropped_part g (.held last)
    exact hflying.part (hg ▸ hle) (fun o ho => absurd (hhand o ho) List.not_mem_nil) hchecked
  have hempty (w : Worker) (hgeneration : w.generation ≤ s.worker.generation) (hhand : w.hand = [])
      (hchecked : w.checked = []) : Flying s w :=
    hflying.part hgeneration (fun o ho => absurd (hhand ▸ ho) List.not_mem_nil) hchecked
  unfold State.work
  cases hworker : s.worker with
  | idle =>
    exact hmoves _ ⟨Nat.le_refl _, List.forall_mem_nil _, List.forall_mem_nil _⟩
  | stamped g =>
    rw [hworker] at hflying
    refine h.moves (.silent rfl rfl rfl rfl rfl rfl rfl) rfl (fun o ho => mem_of_mem_takeBatch ho)
      (List.forall_mem_nil _) (fun _ ho => ho)
      ⟨hflying.generation, fun o ho => ?_, List.forall_mem_nil _⟩
    have hg : g ≤ s.bindingGeneration := hflying.generation
    rcases List.mem_append.mp ho with ho | ho
    · obtain ⟨hbound, hcurrent⟩ := h.losses o ho
      exact ⟨hbound, hcurrent ▸ hg⟩
    · obtain ⟨x, hx, rs, rs', -, hresolved⟩ := (takeBatch_queue _ _ _ _).2 o ho
      obtain ⟨hbound, hcurrent⟩ := h.queue x hx
      obtain ⟨hbound', hsame⟩ := hbound.resolved hresolved
      exact ⟨hbound', hsame.trans hcurrent ▸ hg⟩
  | send g purpose items =>
    rw [hworker] at hflying
    obtain ⟨hle, hhand, hchecked⟩ := dropped_part g purpose
    have hdropped : Flying s (dropped g purpose) :=
      hflying.part hle (fun o ho => List.mem_append_right _ (hhand o ho)) hchecked
    refine hmoves _ ?_
    split_ifs with hnil hstale
    · exact hdropped
    · exact hdropped
    · refine ⟨hflying.generation, hflying.hand, fun o ho => ?_⟩
      obtain ⟨hbound, hge⟩ := hflying.hand o (List.mem_append_left _ ho)
      have hcurrent : g = s.bindingGeneration := not_not.mp hstale
      have hearlier := hbound.earlier
      have hge' : g ≤ o.bindingGeneration := hge
      show o.bindingGeneration = g
      omega
  | current g purpose items =>
    rw [hworker] at hflying
    obtain ⟨hle, hhand, hchecked⟩ := dropped_part g purpose
    dsimp only
    split_ifs
    · exact h.moves (.tells (e := .tried g items) trivial rfl rfl rfl rfl rfl rfl rfl) rfl
        (fun _ ho => ho) (fun _ ho => ho) (fun _ ho => ho)
        ⟨hflying.generation, hflying.hand, hflying.checked⟩
    · exact hgives (fun _ ho => ho)
        (hflying.part hle (fun o ho => List.mem_append_right _ (hhand o ho)) hchecked)
  | exchange g purpose items =>
    rw [hworker] at hflying
    obtain ⟨hle, hhand, hchecked⟩ := retry_part g items purpose
    have hretry : Flying s (retry g items purpose) := hflying.part hle hhand hchecked
    cases reply with
    | unsent => exact hmoves _ hretry
    | lost => exact h.writes hworker (hwrite g purpose items hworker nofun) hretry
    | codes codes =>
      refine h.writes hworker (hwrite g purpose items hworker nofun) ?_
      exact hflying.part (Nat.le_refl _) (fun o ho => List.mem_append_right _ ho) rfl
  | answered g purpose items codes =>
    rw [hworker] at hflying
    obtain ⟨hle, hhand, hchecked⟩ := sent_part g items purpose
    have hbind := frame_bindCodes s g items codes
    have hframe : Frame s { (s.bindCodes g items codes).note (.replied items) with
        worker := sent g items purpose } :=
      hbind.trans (.tells (e := .replied items) trivial rfl rfl rfl rfl rfl rfl rfl)
    obtain ⟨hcall, hqueue, hlosses, hheld, -, -⟩ := same_bindCodes s g items codes
    exact h.moves hframe hcall (fun o ho => hqueue ▸ ho) (fun o ho => hlosses ▸ ho)
      (fun o ho => hheld ▸ ho) (hflying.part hle hhand hchecked)
  | restore g losses batch =>
    rw [hworker] at hflying
    have hrestored : Restoring s (losses.reverse.foldl State.restoreLoss s) :=
      foldl_keeps (I := Restoring s) (fun t o ho ht => ht.restoreLoss
        (hflying.hand o (List.mem_append_left _ (List.mem_reverse.mp ho))).1) h.restoring
    exact hrestored.ends h (fun o ho => mem_lastOf ho) rfl rfl rfl
      (.silent rfl rfl rfl rfl rfl rfl rfl)
      (hflying.part (Nat.le_refl _) (fun o ho => List.mem_append_right _
        (List.append_nil batch ▸ ho : o ∈ batch)) rfl)
  | requeue g batch =>
    rw [hworker] at hflying
    have hrestored : Restoring s (batch.reverse.foldl (State.putBack l) s) :=
      foldl_keeps (I := Restoring s) (fun t o ho ht => ht.putBack
        (hflying.hand o (List.mem_reverse.mp ho)).1) h.restoring
    exact hrestored.ends h (fun _ ho => ho) rfl rfl rfl (.silent rfl rfl rfl rfl rfl rfl rfl)
      (hflying.part (Nat.le_refl _) (List.forall_mem_nil _) rfl)
  | deliver g last =>
    have hnext := hdone g last (by rw [hworker]; rfl)
    have hg : g ≤ s.bindingGeneration := by
      have hgeneration := hflying.generation
      rw [hworker] at hgeneration
      exact hgeneration
    cases hheld : s.held with
    | none => exact hgives (by rintro _ ⟨⟩) hnext
    | some notice =>
      dsimp only
      by_cases hstale : notice.bindingGeneration ≠ g
      · rw [if_pos hstale]
        exact hgives (by rintro _ ⟨⟩) hnext
      · rw [if_neg hstale, ← hheld]
        refine hmoves _ ⟨hg, fun o ho => ?_, List.forall_mem_nil _⟩
        have ho' : o = notice := List.mem_singleton.mp ho
        rw [ho']
        exact ⟨h.held notice hheld, Nat.le_of_eq (not_not.mp hstale).symm⟩
  | delivered g notice last =>
    refine hgives (fun o ho => ?_) (hdone g last (by rw [hworker]; rfl))
    cases hheld : s.held with
    | none =>
      simp only [hheld] at ho
      exact ho
    | some held =>
      simp only [hheld] at ho
      split_ifs at ho
      · exact nomatch ho
      · exact ho
  | policy g =>
    have hnext : Flying s (if s.policyExchangeOk = true then .deliver g true else .idle) := by
      split_ifs
      · exact hempty _ (by rw [hworker]; exact Nat.le_refl _) rfl rfl
      · exact hempty _ (Nat.zero_le _) rfl rfl
    exact hgives (fun _ ho => ho) hnext

/-! ## Runs -/

/-- **One step** that hits no gap. -/
theorem sealed_step (h : Sealed s) (a : Action) (hundivided : Undivided s a) :
    Sealed (step l s a) := by
  have hsame (s' : State) (hframe : Frame s s') (hrest : s'.call = s.call ∧ s'.queue = s.queue ∧
      s'.losses = s.losses ∧ s'.held = s.held ∧ s'.worker = s.worker) : Sealed s' :=
    h.moves hframe hrest.1 (fun o ho => hrest.2.1 ▸ ho) (fun o ho => hrest.2.2.1 ▸ ho)
      (fun o ho => hrest.2.2.2.1 ▸ ho) (hrest.2.2.2.2 ▸ h.flying)
  -- the generation ends: what waits is dropped, and what flies is of an earlier generation
  have hends (s' : State) (htrace : s'.trace = s.trace) (hissued : s'.issued = s.issued)
      (hgeneration : s'.bindingGeneration = s.bindingGeneration + 1)
      (hvalid : s'.policyValid = true → s'.policySocket = some s'.socket)
      (hrest : s'.call = s.call ∧ s'.queue = [] ∧ s'.losses = [] ∧ s'.worker = s.worker)
      (hheld : ∀ o ∈ s'.held, o ∈ s.held) : Sealed s' := by
    have hlater : Later s s' :=
      ⟨fun e he => htrace ▸ he, fun n g _ hbegan => htrace ▸ hbegan, Nat.le_of_eq hissued.symm,
        Or.inr (by omega)⟩
    refine ⟨fun n g hbegan => hissued ▸ h.numbered n g (htrace ▸ hbegan), hvalid,
      fun x hx => (h.call x (hrest.1 ▸ hx)).later hlater, fun o ho => ?_, fun o ho => ?_,
      fun o ho => (h.held o (hheld o ho)).later hlater, hrest.2.2.2 ▸ h.flying.later hlater,
      h.directed.later h.numbered hlater fun _ _ _ _ hmem => htrace ▸ hmem⟩
    · rw [hrest.2.1] at ho
      exact absurd ho List.not_mem_nil
    · rw [hrest.2.2.1] at ho
      exact absurd ho List.not_mem_nil
  cases a with
  | call draft =>
    show Sealed (if _ then s.begin draft else s)
    split_ifs with hcall
    · have hlater : Later s (s.begin draft) := by
        refine ⟨fun e he => List.mem_append_left _ he, fun n g hn hbegan => ?_, Nat.le_succ _,
          Or.inl ⟨rfl, rfl⟩⟩
        rcases List.mem_append.mp hbegan with hbegan | hbegan
        · exact hbegan
        · cases List.mem_singleton.mp hbegan
          omega
      have hbegan : BeganIn (s.begin draft) (s.issued + 1) s.bindingGeneration := by
        refine ⟨List.mem_append_right _ (List.mem_singleton_self _), fun g hg => ?_⟩
        rcases List.mem_append.mp hg with hg | hg
        · have hle := h.numbered _ g hg
          omega
        · cases List.mem_singleton.mp hg
          rfl
      refine ⟨fun n g hmem => ?_, h.policy, fun x hx => ?_, fun o ho => (h.queue o ho).later hlater rfl,
        fun o ho => (h.losses o ho).later hlater rfl, fun o ho => (h.held o ho).later hlater,
        h.flying.later hlater, h.directed.later h.numbered hlater fun g b k items hmem => ?_⟩
      · rcases List.mem_append.mp hmem with hmem | hmem
        · exact Nat.le_succ_of_le (h.numbered n g hmem)
        · cases List.mem_singleton.mp hmem
          exact Nat.le_refl _
      · rw [← Option.some.inj hx]
        refine ⟨Nat.le_refl _, fun hdependency hkind => ?_, _, hbegan, Nat.le_refl _, fun _ => trivial⟩
        have hplugin : draft.observation.kind = .pluginObservation := draft.retraction hdependency
        have hloss : draft.observation.kind = .lossNotice := hkind
        rw [hplugin] at hloss
        cases hloss
      · rcases List.mem_append.mp hmem with hmem | hmem
        · exact hmem
        · cases List.mem_singleton.mp hmem
    · exact h
  | token =>
    have hlater : Later s { s with issued := s.issued + 1 } :=
      ⟨fun e he => he, fun n g _ hbegan => hbegan, Nat.le_succ _, Or.inl ⟨rfl, rfl⟩⟩
    exact ⟨fun n g hbegan => Nat.le_succ_of_le (h.numbered n g hbegan), h.policy,
      fun x hx => (h.call x hx).later hlater, fun o ho => (h.queue o ho).later hlater rfl,
      fun o ho => (h.losses o ho).later hlater rfl, fun o ho => (h.held o ho).later hlater,
      h.flying.later hlater, h.directed.later h.numbered hlater fun _ _ _ _ hmem => hmem⟩
  | tryAdmit now contended => exact h.tryAdmit hundivided
  | work reply => exact h.work hundivided
  | poll => exact hsame _ (.silent rfl rfl rfl rfl rfl rfl rfl) ⟨rfl, rfl, rfl, rfl, rfl⟩
  | polled index answer now =>
    show Sealed (s.polled index answer now)
    unfold State.polled
    cases hpoll : s.polls[index]? with
    | none => exact h
    | some poll =>
      dsimp only
      split_ifs with htoken
      · exact hsame _ (.silent rfl rfl rfl rfl rfl rfl rfl) ⟨rfl, rfl, rfl, rfl, rfl⟩
      have hpolicy (s' : State) (hvalid : s'.policyValid = true → s'.policySocket = some s'.socket)
          (hplace : s'.bindingGeneration = s.bindingGeneration ∧ s'.socket = s.socket)
          (hold : s'.issued = s.issued ∧ s'.trace = s.trace)
          (hrest : s'.call = s.call ∧ s'.queue = s.queue ∧ s'.losses = s.losses ∧
            s'.held = s.held ∧ s'.worker = s.worker) : Sealed s' := by
        have hlater : Later s s' := ⟨fun e he => hold.2 ▸ he, fun n g _ hbegan => hold.2 ▸ hbegan,
          Nat.le_of_eq hold.1.symm, Or.inl hplace⟩
        exact ⟨fun n g hbegan => hold.1 ▸ h.numbered n g (hold.2 ▸ hbegan), hvalid,
          fun x hx => (h.call x (hrest.1 ▸ hx)).later hlater,
          fun o ho => (h.queue o (hrest.2.1 ▸ ho)).later hlater hplace.1,
          fun o ho => (h.losses o (hrest.2.2.1 ▸ ho)).later hlater hplace.1,
          fun o ho => (h.held o (hrest.2.2.2.1 ▸ ho)).later hlater,
          hrest.2.2.2.2 ▸ h.flying.later hlater,
          h.directed.later h.numbered hlater fun _ _ _ _ hmem => hold.2 ▸ hmem⟩
      cases answer with
      | failed =>
        exact hpolicy _ (fun hno => nomatch hno) ⟨rfl, rfl⟩ ⟨rfl, rfl⟩ ⟨rfl, rfl, rfl, rfl, rfl⟩
      | policy desired =>
        refine hpolicy _ (fun hvalid => ?_) ⟨rfl, rfl⟩ ⟨rfl, rfl⟩ ⟨rfl, rfl, rfl, rfl, rfl⟩
        have hdesired : desired ≠ 0 := of_decide_eq_true hvalid
        exact congrArg some (hundivided poll desired hpoll (not_not.mp htoken) rfl hdesired)
  | refresh safe => exact hsame _ (.silent rfl rfl rfl rfl rfl rfl rfl) ⟨rfl, rfl, rfl, rfl, rfl⟩
  | abandon => exact hends _ rfl rfl rfl h.policy ⟨rfl, rfl, rfl, rfl⟩ fun _ ho => nomatch ho
  | retarget socket =>
    exact hends _ rfl rfl rfl (fun hno => nomatch hno) ⟨rfl, rfl, rfl, rfl⟩ fun _ ho => ho

instance decidableUndivided (s : State) : ∀ a, Decidable (Undivided s a)
  | .tryAdmit _ contended =>
    match hcall : s.call with
    | some (.allowed o _) =>
      decidable_of_iff (contended = false → .began o.sequence s.bindingGeneration ∈ s.trace)
        ⟨fun h x policy hx => by
          cases hcall.symm.trans hx
          exact h, fun h => h o _ hcall⟩
    | none => .isTrue fun x policy hx => nomatch hcall.symm.trans hx
    | some (.begun _) | some (.safe _) | some (.stamped _) =>
      .isTrue fun x policy hx => nomatch hcall.symm.trans hx
  | .work reply =>
    match hworker : s.worker with
    | .exchange generation _ _ =>
      decidable_of_iff (reply ≠ .unsent → generation = s.bindingGeneration)
        ⟨fun h g p items hx => by
          cases hworker.symm.trans hx
          exact h, fun h => h generation _ _ hworker⟩
    | .idle | .stamped _ | .send .. | .current .. | .answered .. | .restore .. | .requeue ..
    | .deliver .. | .delivered .. | .policy _ =>
      .isTrue fun g p items hx => nomatch hworker.symm.trans hx
  | .polled index answer _ =>
    match hpoll : s.polls[index]?, answer with
    | some poll, .policy desired =>
      decidable_of_iff (poll.token = s.pollToken → desired ≠ 0 → poll.socket = s.socket)
        ⟨fun h x d hx htoken hanswer => by
          cases hpoll.symm.trans hx
          cases hanswer
          exact h htoken, fun h htoken => h poll desired hpoll htoken rfl⟩
    | none, _ => .isTrue fun x d hx => nomatch hpoll.symm.trans hx
    | some _, .failed => .isTrue fun x d _ _ hanswer => nomatch hanswer
  | .call _ | .token | .poll | .refresh _ | .abandon | .retarget _ => .isTrue trivial

/-- The socket changes while a `TryAdmit` is about to take the lock. -/
def redirectedActions : List Action :=
  polledActions ++ [.call sampleCommit, .tryAdmit 1 false, .tryAdmit 1 false, .tryAdmit 1 false,
    .retarget 1, .tryAdmit 1 false] ++ sentActions (.codes (some [ascii "admitted"]))

/-- The generations and the observations of a frame that is sent. -/
def Event.frame : Event → Option (ℕ × ℕ × List ℕ)
  | .sent _ g k items => some (g, k, items.map Observation.sequence)
  | _ => none

end Native
end SemanticMemory
