import SemanticMemory.Operations.Drive

/-!
# Cancels

Once `cancel_operation` has answered `requested`, the operation goes no further towards its end: no
step of the irreversible phase or of a later one is started, those of the cancel phase apart, and it
does not succeed.  `cancel_honoured` says of which machines this holds: those whose first phase is
not the irreversible one.  For the others a request that comes between the runner's look at the
queued record and its claim is passed over, since a running operation in its irreversible phase
cannot be cancelled any more.
-/

namespace SemanticMemory
namespace Operations

open Runs

variable {π ρ δ ε ω β : Type}

/-! ## What no action undoes -/

variable {next : World π ρ δ β → World π ρ δ β} {fn : Transform π ρ} {now : ℕ}

section Keeps

variable {P : Program π ρ δ ε ω β} {A : Assertions π ρ δ β} {w : World π ρ δ β}

theorem continues_mutate {r r' : Record π ρ} (hfn : ∀ u, fn r = .ok (some u) → r.Continues u)
    (h : mutate P.fingerprint now fn r = some r') : r.Continues r' := by
  rcases mutate_eq_some h with ⟨-, rfl⟩ | ⟨u, hu, -, hcontinues, -, -⟩
  · exact .refl _
  · exact (hfn u hu).trans hcontinues

theorem continues_mutating (hfn : ∀ u, fn w.record = .ok (some u) → w.record.Continues u)
    (hnext : ∀ v, (next v).record = v.record) :
    w.record.Continues (w.mutating P now fn next).record := by
  unfold World.mutating
  split
  · exact .refl _
  · next r' hr' =>
    rw [hnext]
    exact continues_mutate hfn hr'

/-- **Every action continues the record.** -/
theorem step_continues (a : Action ε ω) : w.record.Continues (w.step P a).record := by
  cases a with
  | arrive i =>
    simp only [World.step]
    split <;> exact .refl _
  | run now =>
    simp only [World.step]
    cases hrn : w.runner with
    | none => exact .refl _
    | some rn =>
      simp only [World.runStep]
      cases rn.pc with
      | load =>
        simp only
        split <;> exact .refl _
      | checkpoint =>
        refine continues_mutating (fun u hu => (cancelCheckpoint_eq_some hu).1) fun v => ?_
        split <;> rfl
      | start => exact continues_mutating (fun u hu => (claimAndStart_eq_some hu).1) fun v => rfl
      | unsupported =>
        exact continues_mutating (fun u hu => (failUnsupported_eq_some hu).1) fun v => rfl
      | ready phase loaded => exact .refl _
      | executing phase body => exact .refl _
      | persist phase outcome =>
        refine continues_mutating (fun u hu => Outcome.continues hu) fun v => ?_
        cases outcome with
        | returned result => rfl
        | _ =>
          simp only
          split <;> rfl
  | work env =>
    simp only [World.step]
    cases hrn : w.runner with
    | none => exact .refl _
    | some rn =>
      simp only [World.workStep]
      split
      · split <;> exact .refl _
      · exact .refl _
  | crash => exact .refl _
  | cancel id now =>
    simp only [World.step, World.cancelStep]
    split
    · exact .refl _
    · split_ifs <;> exact .refl _
    · split
      · exact .refl _
      · next r' hr' =>
        have := continues_mutate (fun u hu => (requestCancel_eq_some hu).1) hr'
        split_ifs <;> exact this
    · split
      · exact .refl _
      · next r' hr' =>
        have := continues_mutate (fun u hu => (cancelBlocked_eq_some hu).1) hr'
        split_ifs <;> exact this
  | weather x => exact .refl _

end Keeps

/-! ## The invariant -/

/-- A step of the phase may start after a cancel. -/
def Machine.safe (m : Machine) (phase : Phase) : Prop :=
  m.phases.idxOf phase < m.phases.idxOf m.irreversiblePhase ∨ m.cancelPhase = some phase

/-- The cancel that was requested is on its way, or through. -/
def Record.honoured (r : Record π ρ) : Prop :=
  r.state ≠ .succeeded ∧ (r.state = .cancelled ∨ r.toMachine.safe r.phase)

/-- What a record keeps whose machine does not begin with its irreversible phase. -/
structure Mindful (r : Record π ρ) : Prop where
  accepted : r.toMachine.accepted = true
  first : r.phases.head? ≠ some r.irreversiblePhase
  queued : r.state = .queued → r.phases.head? = some r.phase
  flagged : r.cancelRequested = true → r.honoured

/-- The parts of `accepted`. -/
theorem Machine.accepted_iff {m : Machine} :
    m.accepted = true ↔ m.phases ≠ [] ∧ m.irreversiblePhase ∈ m.phases ∧ m.phases.Nodup ∧
      ∀ cancel, m.cancelPhase = some cancel →
        cancel ∈ m.phases ∧ m.phases.idxOf m.irreversiblePhase < m.phases.idxOf cancel := by
  unfold Machine.accepted
  cases m.cancelPhase with
  | none => simp [and_assoc]
  | some cancel => simp [and_assoc]

/-- The irreversible phase comes after the first one if it is another. -/
theorem idxOf_head_lt {l : List Phase} {a b : Phase} (hhead : l.head? = some a) (hne : a ≠ b) :
    l.idxOf a < l.idxOf b := by
  cases l with
  | nil => cases hhead
  | cons c l =>
    cases hhead
    rw [List.idxOf_cons_self, List.idxOf_cons_ne _ hne]
    omega

namespace Mindful

variable {r r' : Record π ρ}

/-- An operation that can be cancelled is in a safe phase. -/
theorem safe (h : Mindful r) (hcancelable : r.isCancelable = true) : r.toMachine.safe r.phase := by
  unfold Record.isCancelable at hcancelable
  split_ifs at hcancelable with hterminal hqueued hmem
  · have hhead := h.queued hqueued
    refine Or.inl (idxOf_head_lt hhead fun heq => h.first ?_)
    rw [hhead, heq]
  · exact Or.inl (by simpa using hcancelable)

/-- A pending cancel of a running operation in a safe phase that is not the cancel phase. -/
theorem pending (hstate : r.state = .running) (hrequested : r.cancelRequested = true)
    (hmem : r.phase ∈ r.phases) (hbefore : r.phases.idxOf r.phase < r.phases.idxOf r.irreversiblePhase) :
    r.cancelPending = true := by
  refine Record.cancelPending_iff.mpr ⟨hrequested, ?_⟩
  unfold Record.isCancelable
  rw [hstate, if_neg (by decide), if_neg (by decide), if_neg (not_not.mpr hmem)]
  simpa using hbefore

/-- The phase is one of the machine's if it is safe. -/
theorem mem_of_safe (h : Mindful r) (hbefore : r.phases.idxOf r.phase <
    r.phases.idxOf r.irreversiblePhase) : r.phase ∈ r.phases :=
  List.idxOf_lt_length_iff.mp (hbefore.trans
    (List.idxOf_lt_length_iff.mpr (Machine.accepted_iff.mp h.accepted).2.1))

/-- The record goes on to a place that is honoured. -/
theorem continues (h : Mindful r) (hcontinues : r.Continues r') (hstate : r'.state ≠ .queued)
    (hflagged : r'.cancelRequested = true → r'.honoured) : Mindful r' where
  accepted := hcontinues.machine ▸ h.accepted
  first := hcontinues.machine ▸ h.first
  queued hqueued := absurd hqueued hstate
  flagged := hflagged

/-- The record goes on in its phase. -/
theorem stays (h : Mindful r) (hcontinues : r.Continues r') {state : State}
    (hview : r'.view = { r.view with state := state }) (hstate : state ≠ .queued)
    (hsucceeded : state ≠ .succeeded)
    (hcancelled : r.state = .cancelled → state = .cancelled) : Mindful r' := by
  obtain ⟨hstate', hphase', hrequested', -⟩ := View.mk.inj hview
  refine h.continues hcontinues (hstate' ▸ hstate) fun hrequested => ?_
  obtain ⟨-, hwhere⟩ := h.flagged (hrequested'.symm.trans hrequested)
  refine ⟨hstate' ▸ hsucceeded, hwhere.imp (fun hc => hstate'.trans (hcancelled hc)) fun hsafe => ?_⟩
  rw [hcontinues.machine, hphase']
  exact hsafe

end Mindful

/-- Nothing is asserted of the disk or the steps. -/
def mindful : Assertions π ρ δ β where
  between r _ := Mindful r
  inside _ _ _ := True
  after _ _ _ := True

/-- Everything may happen. -/
def anything : Conditions δ ε ω β where
  work _ _ _ := True
  weather _ _ := True
  unsupported _ := True

/-- **What every action keeps.** -/
theorem triples_mindful (P : Program π ρ δ ε ω β) : Triples P anything mindful where
  request {r r'} _ h hcontinues hrequested hview := by
    refine ⟨?_, fun _ => id, fun _ => id⟩
    have hcancelable := isCancelable_of_requested hrequested
    have hopen := not_terminal_of_isCancelable hcancelable
    obtain ⟨hstate, hphase, -, -⟩ := View.mk.inj hview
    have hsafe := Mindful.safe h hcancelable
    refine ⟨hcontinues.machine ▸ h.accepted, hcontinues.machine ▸ h.first, fun hqueued => ?_,
      fun _ => ⟨fun hsucceeded => ?_, Or.inr ?_⟩⟩
    · rw [hcontinues.machine, hphase]
      exact h.queued (hstate.symm.trans hqueued)
    · have : r.state = .succeeded := hstate.symm.trans hsucceeded
      rw [this] at hopen
      cases hopen
    · rw [hcontinues.machine, hphase]
      exact hsafe
  moves {r r'} _ h hcontinues hmoves := by
    cases hmoves with
    | started before view =>
      refine Mindful.stays h hcontinues view (by decide) (by decide) fun hcancelled => ?_
      rcases before with hbefore | hbefore <;> exact absurd (hbefore.symm.trans hcancelled) (by decide)
    | diverted cancel pending cancelPhase other view =>
      obtain ⟨hstate, hphase, -, -⟩ := View.mk.inj view
      refine Mindful.continues h hcontinues (by rw [hstate]; decide) fun _ =>
        ⟨by rw [hstate]; decide, Or.inr (Or.inr ?_)⟩
      rw [hcontinues.machine, hphase]
      exact cancelPhase
    | cancelled cancelable cancelPhase view =>
      exact Mindful.stays h hcontinues view (by decide) (by decide) fun _ => rfl
  unsupported {r r'} _ _ h hstate hcontinues hview :=
    Mindful.stays h hcontinues hview (by decide) (by decide) fun hcancelled =>
      absurd (hstate.symm.trans hcancelled) (by decide)
  enter _ _ _ := trivial
  work {env r d b} _ h _ _ := by
    unfold Assertions.worked
    split
    · exact ⟨h, trivial⟩
    · exact ⟨h, trivial⟩
    · exact h
  blocks {_ r r'} _ h hstate _ hcontinues _ hview :=
    Mindful.stays h hcontinues hview (by decide) (by decide) fun hcancelled =>
      absurd (hstate.symm.trans hcancelled) (by decide)
  fails {_ r r'} _ h hstate _ hcontinues _ hview :=
    Mindful.stays h hcontinues hview (by decide) (by decide) fun hcancelled =>
      absurd (hstate.symm.trans hcancelled) (by decide)
  settles {result r r'} _ h hstate _ hcontinues hsettled := by
    have hnotCancelled : r.state ≠ .cancelled := by rw [hstate]; decide
    -- past the safe phases there is no request to keep, and in them an advance is held
    have hfree (hfree : r.cancelPending = false ∨ some r.phase = r.cancelPhase)
        (hplain : ¬ (some r.phase = r.cancelPhase ∧ r.cancelRequested = true)) :
        r.cancelRequested = false := by
      by_contra hne
      have hrequested : r.cancelRequested = true := by simpa using hne
      rcases hfree with hpending | hcancel
      · rcases (h.flagged hrequested).2 with hcancelled | hsafe | hcancel
        · exact hnotCancelled hcancelled
        · rw [Mindful.pending hstate hrequested (Mindful.mem_of_safe h hsafe) hsafe] at hpending
          cases hpending
        · exact hplain ⟨hcancel.symm, hrequested⟩
      · exact hplain ⟨hcancel, hrequested⟩
    cases hsettled with
    | held quiet view =>
      exact Mindful.stays h hcontinues (show _ = { r.view with state := r.state } from view)
        (by rw [hstate]; decide)
        (by rw [hstate]; decide) id
    | cancelled cancel requested view =>
      exact Mindful.stays h hcontinues view (by decide) (by decide) fun _ => rfl
    | succeeded last free plain view =>
      obtain ⟨hstate', -, hrequested', -⟩ := View.mk.inj view
      refine Mindful.continues h hcontinues (by rw [hstate']; decide) fun hrequested => ?_
      exact absurd ((hfree free plain).symm.trans (hrequested'.symm.trans hrequested)) (by decide)
    | next phase successor free plain view =>
      obtain ⟨hstate', -, hrequested', -⟩ := View.mk.inj view
      refine Mindful.continues h hcontinues
        (by rw [hstate'.trans hstate]; decide) fun hrequested => ?_
      exact absurd ((hfree free plain).symm.trans (hrequested'.symm.trans hrequested)) (by decide)
  weather _ h := ⟨h, fun _ => id, fun _ => id⟩

/-! ## The histories -/

def ended (state : State) : Assertions π ρ δ β where
  between r _ := r.state = state
  inside _ _ _ := True
  after _ _ _ := True

theorem triples_ended (P : Program π ρ δ ε ω β) {state : State} (hterminal : state.terminal = true) :
    Triples P anything (ended state) := by
  have hopen {r : Record π ρ} (h : r.state = state) (hcancelable : r.isCancelable = true) : False := by
    have := not_terminal_of_isCancelable hcancelable
    rw [h, hterminal] at this
    cases this
  have hrunning {r : Record π ρ} (h : r.state = state) (hr : r.state = .running) : False := by
    rw [← h, hr] at hterminal
    cases hterminal
  exact
  { request := fun h _ hrequested _ => (hopen h (isCancelable_of_requested hrequested)).elim
    moves := fun {r _ _} h _ hmoves => by
      cases hmoves with
      | started before view =>
        have h : r.state = state := h
        rw [← h] at hterminal
        rcases before with hbefore | hbefore <;> rw [hbefore] at hterminal <;> cases hterminal
      | diverted cancel pending cancelPhase other view =>
        exact (hopen h (Record.cancelPending_iff.mp pending).2).elim
      | cancelled cancelable cancelPhase view => exact (hopen h cancelable).elim
    unsupported := fun _ h hr _ _ => (hrunning h hr).elim
    enter := fun _ _ _ => trivial
    work := fun _ h hr _ => (hrunning h hr).elim
    blocks := fun h hr _ _ _ _ => (hrunning h hr).elim
    fails := fun h hr _ _ _ _ => (hrunning h hr).elim
    settles := fun h hr _ _ _ => (hrunning h hr).elim
    weather := fun _ h => ⟨h, fun _ => id, fun _ => id⟩ }

theorem permit_anything (w : World π ρ δ β) (a : Action ε ω) : anything.permit w a := by
  unfold Conditions.permit
  split <;> trivial

/-- **A terminal state is never left.** -/
theorem terminal_stays {P : Program π ρ δ ε ω β} {A : Assertions π ρ δ β} {w : World π ρ δ β}
    (h : Holds A w) (hterminal : w.record.state.terminal = true) (a : Action ε ω) :
    (w.step P a).record.state = w.record.state := by
  have hended : Holds (ended w.record.state) w := by
    refine ⟨rfl, fun rn hrn => ?_, h.placed⟩
    have hpc := h.pc rn hrn
    cases hat : rn.pc with
    | unsupported => rw [hat] at hpc; exact hpc
    | ready phase loaded => rw [hat] at hpc; exact hpc
    | executing phase body => rw [hat] at hpc; exact ⟨hpc.1, hpc.2.1, trivial⟩
    | persist phase outcome => rw [hat] at hpc; exact ⟨hpc.1, hpc.2.1, trivial⟩
    | _ => trivial
  exact (hended.step (triples_ended P hterminal) (permit_anything w a)).between

/-- Once some `cancel_operation` has returned `requested`, no step of the irreversible phase or of a
later one is started, except those of the cancel phase, and the operation does not succeed. -/
def CancelHonoured (w : World π ρ δ β) : Prop :=
  (w.requested = true → w.record.state ≠ .succeeded) ∧
    ∀ phase ∈ w.startedAfter, w.record.toMachine.safe phase

section Histories

variable {P : Program π ρ δ ε ω β} {w : World π ρ δ β}

theorem mutating_requested (hnext : ∀ v, (next v).requested = v.requested) :
    (w.mutating P now fn next).requested = w.requested := by
  unfold World.mutating
  split
  · rfl
  · exact hnext _

theorem mutating_startedAfter (hnext : ∀ v, (next v).startedAfter = v.startedAfter) :
    (w.mutating P now fn next).startedAfter = w.startedAfter := by
  unfold World.mutating
  split
  · rfl
  · exact hnext _

/-- A runner answers no cancel, and starts one step at a time. -/
theorem runStep_histories (now : ℕ) (rn : Runner π ρ β) :
    (w.runStep P now rn).requested = w.requested ∧
      ((w.runStep P now rn).startedAfter = w.startedAfter ∨
        ∃ phase loaded, rn.pc = .ready phase loaded ∧ w.requested = true ∧
          (w.runStep P now rn).startedAfter = w.startedAfter ++ [phase]) := by
  unfold World.runStep
  cases rn.pc with
  | load =>
    simp only
    split <;> exact ⟨rfl, Or.inl rfl⟩
  | checkpoint =>
    refine ⟨mutating_requested fun v => ?_, Or.inl (mutating_startedAfter fun v => ?_)⟩ <;>
      split <;> rfl
  | start => exact ⟨mutating_requested fun v => rfl, Or.inl (mutating_startedAfter fun v => rfl)⟩
  | unsupported =>
    exact ⟨mutating_requested fun v => rfl, Or.inl (mutating_startedAfter fun v => rfl)⟩
  | ready phase loaded =>
    simp only
    refine ⟨trivial, ?_⟩
    by_cases hrequested : w.requested = true
    · exact Or.inr ⟨phase, loaded, rfl, hrequested, if_pos hrequested⟩
    · exact Or.inl (if_neg hrequested)
  | executing phase body => exact ⟨rfl, Or.inl rfl⟩
  | persist phase outcome =>
    refine ⟨mutating_requested fun v => ?_, Or.inl (mutating_startedAfter fun v => ?_)⟩
    · cases outcome with
      | returned result => rfl
      | _ =>
        simp only
        split <;> rfl
    · cases outcome with
      | returned result => rfl
      | _ =>
        simp only
        split <;> rfl

theorem workStep_histories (env : ε) (rn : Runner π ρ β) :
    (w.workStep P env rn).requested = w.requested ∧
      (w.workStep P env rn).startedAfter = w.startedAfter := by
  unfold World.workStep
  split
  · split <;> exact ⟨rfl, rfl⟩
  · exact ⟨rfl, rfl⟩

/-- A canceller answers `requested` only once the flag is set, or the operation cancelled. -/
theorem cancelStep_histories (id now : ℕ) :
    (w.cancelStep P id now).startedAfter = w.startedAfter ∧
      ((w.cancelStep P id now).requested = w.requested ∨
        (w.cancelStep P id now).record.cancelRequested = true ∨
        (w.cancelStep P id now).record.state = .cancelled) := by
  unfold World.cancelStep
  split
  · exact ⟨rfl, Or.inl rfl⟩
  · split_ifs <;> exact ⟨rfl, Or.inl rfl⟩
  · split
    · exact ⟨rfl, Or.inl rfl⟩
    · split_ifs with hflag
      · exact ⟨rfl, Or.inr (Or.inl hflag)⟩
      · exact ⟨rfl, Or.inl rfl⟩
  · split
    · exact ⟨rfl, Or.inl rfl⟩
    · split_ifs with hcancelled
      · exact ⟨rfl, Or.inr (Or.inr hcancelled)⟩
      · exact ⟨rfl, Or.inl rfl⟩

end Histories

/-- What the histories say of the record. -/
structure Remembers (w : World π ρ δ β) : Prop where
  requested : w.requested = true → w.record.cancelRequested = true ∨ w.record.state = .cancelled
  started : ∀ phase ∈ w.startedAfter, w.record.toMachine.safe phase

/-- **One action more.**  A step that starts after the answer is in a safe phase. -/
theorem remembers_step {P : Program π ρ δ ε ω β} {w : World π ρ δ β} (h : Holds mindful w)
    (hr : Remembers w) (a : Action ε ω) : Remembers (w.step P a) := by
  have hcontinues : w.record.Continues (w.step P a).record := step_continues a
  have hold (hrequested : w.requested = true) : (w.step P a).record.cancelRequested = true ∨
      (w.step P a).record.state = .cancelled := by
    rcases hr.requested hrequested with hflag | hcancelled
    · exact Or.inl (hcontinues.requested hflag)
    · refine Or.inr ?_
      rw [terminal_stays h (by rw [hcancelled]; rfl) a, hcancelled]
  have hkeeps (hsame : (w.step P a).startedAfter = w.startedAfter) :
      ∀ phase ∈ (w.step P a).startedAfter, (w.step P a).record.toMachine.safe phase := by
    intro phase hphase
    rw [hcontinues.machine]
    exact hr.started phase (hsame ▸ hphase)
  cases a with
  | arrive i =>
    refine ⟨fun hrequested => hold ?_, hkeeps ?_⟩ <;> simp only [World.step] at *
    · split at hrequested <;> exact hrequested
    · split <;> rfl
  | run now =>
    cases hrn : w.runner with
    | none =>
      have hsame : w.step P (.run now) = w := by simp only [World.step, hrn]
      exact ⟨fun hrequested => hold (hsame ▸ hrequested), hkeeps (by rw [hsame])⟩
    | some rn =>
      have hstep : w.step P (.run now) = w.runStep P now rn := by simp only [World.step, hrn]
      obtain ⟨hrequested, hstarted⟩ := runStep_histories (P := P) (w := w) now rn
      rw [← hstep] at hrequested hstarted
      refine ⟨fun hreq => hold (hrequested.symm.trans hreq), ?_⟩
      rcases hstarted with hsame | ⟨phase, loaded, hat, hreq, hmore⟩
      · exact hkeeps hsame
      · have hpc := h.pc rn hrn
        rw [hat] at hpc
        obtain ⟨hphase, hstate, -⟩ := hpc
        have hsafe : w.record.toMachine.safe phase := by
          rcases hr.requested hreq with hflag | hcancelled
          · rcases (h.between.flagged hflag).2 with hcancelled | hsafe
            · exact absurd (hstate.symm.trans hcancelled) (by decide)
            · exact hphase ▸ hsafe
          · exact absurd (hstate.symm.trans hcancelled) (by decide)
        intro q hq
        rw [hcontinues.machine]
        rw [hmore] at hq
        rcases List.mem_append.mp hq with hq | hq
        · exact hr.started q hq
        · rw [List.mem_singleton.mp hq]
          exact hsafe
  | work env =>
    cases hrn : w.runner with
    | none =>
      have hsame : w.step P (.work env) = w := by simp only [World.step, hrn]
      exact ⟨fun hrequested => hold (hsame ▸ hrequested), hkeeps (by rw [hsame])⟩
    | some rn =>
      have hstep : w.step P (.work env) = w.workStep P env rn := by simp only [World.step, hrn]
      obtain ⟨hrequested, hstarted⟩ := workStep_histories (P := P) (w := w) env rn
      rw [← hstep] at hrequested hstarted
      exact ⟨fun hreq => hold (hrequested.symm.trans hreq), hkeeps hstarted⟩
  | crash => exact ⟨hold, hkeeps rfl⟩
  | cancel id now =>
    obtain ⟨hstarted, hrequested⟩ := cancelStep_histories (P := P) (w := w) id now
    refine ⟨fun hreq => ?_, hkeeps hstarted⟩
    rcases hrequested with hsame | hflag
    · exact hold (hsame.symm.trans hreq)
    · exact hflag
  | weather x => exact ⟨hold, hkeeps rfl⟩

/-- **Machines that honour every cancel.** -/
theorem honoured_run {P : Program π ρ δ ε ω β} {w : World π ρ δ β} (h : Holds mindful w)
    (hr : Remembers w) (acts : List (Action ε ω)) : CancelHonoured (run (World.step P) w acts) := by
  have hboth : Holds mindful (run (World.step P) w acts) ∧ Remembers (run (World.step P) w acts) :=
    run_invariant (I := fun w : World π ρ δ β => Holds mindful w ∧ Remembers w)
    (fun w a hw => ⟨hw.1.step (triples_mindful P) (permit_anything w a), remembers_step hw.1 hw.2 a⟩)
    ⟨h, hr⟩ acts
  obtain ⟨hholds, hremembers⟩ := hboth
  refine ⟨fun hrequested hsucceeded => ?_, hremembers.started⟩
  rcases hremembers.requested hrequested with hflag | hcancelled
  · exact (hholds.between.flagged hflag).1 hsucceeded
  · exact absurd (hsucceeded.symm.trans hcancelled) (by decide)

/-! ## The request that is passed over -/

/-- What `new_operation` gives. -/
theorem newOperation_eq_some {fingerprint : Text → π → Text} {id type : Text} {parameters : π}
    {m : Machine} {r : Record π ρ}
    (h : newOperation fingerprint now id type parameters m = some r) :
    m.accepted = true ∧ r.toMachine = m ∧ m.phases.head? = some r.phase ∧ r.state = .queued ∧
      r.cancelRequested = false ∧ r.result = none ∧ r.error = none ∧ r.parameters = parameters ∧
      r.operationId = id ∧ r.runnerClaim = none := by
  unfold newOperation at h
  split at h
  · cases h
  next hok =>
  obtain ⟨first, hfirst, rfl⟩ := Option.map_eq_some_iff.mp h
  refine ⟨?_, rfl, hfirst, rfl, rfl, rfl, rfl, rfl, rfl, rfl⟩
  have := (not_or.mp hok).2
  simpa using this

section Race

variable {P : Program π ρ δ ε ω β} {r : Record π ρ}

def raceClaim : Claim := ⟨1, ascii "t", 0⟩

/-- The queued record with the request, as it is written. -/
def Record.asked (r : Record π ρ) : Record π ρ :=
  { (({ r with cancelRequested := true, cancelRequestedAt := some 0 } : Record π ρ).appendEvent 0
      .cancelRequested r.state r.phase) with
    updatedAt := 0
    rev := r.rev + 1 }

def Record.claimed (r : Record π ρ) : Record π ρ :=
  { (({ r.refreshClaim 0 raceClaim with state := .running } : Record π ρ).appendEvent 0 .transition
      .running r.phase) with
    updatedAt := 0
    rev := r.rev + 1 }

@[simp] theorem asked_phase : r.asked.phase = r.phase := rfl
@[simp] theorem claimed_toMachine : r.claimed.toMachine = r.toMachine := rfl
@[simp] theorem claimed_state : r.claimed.state = .running := rfl
@[simp] theorem claimed_phase : r.claimed.phase = r.phase := rfl

/-- Once it is claimed, an operation in its irreversible phase cannot be cancelled. -/
theorem isCancelable_claimed (hphase : r.phase = r.irreversiblePhase) :
    r.claimed.isCancelable = false := by
  unfold Record.isCancelable
  rw [claimed_state, claimed_phase, claimed_toMachine, hphase]
  simp [State.terminal]

theorem mutate_requestCancel (hvalid : Valid P.fingerprint r) (hqueued : r.state = .queued)
    (hflag : r.cancelRequested = false) :
    mutate P.fingerprint 0 (requestCancel 0) r = some r.asked ∧ Valid P.fingerprint r.asked := by
  have hrequested : classifyCancel r = .requested := by
    unfold classifyCancel Record.isCancelable
    rw [hqueued]
    rfl
  have hrequest : Valid P.fingerprint
      { r with cancelRequested := true, cancelRequestedAt := some 0 } :=
    { hvalid with cancel := Or.inr rfl }
  have hasked := hrequest.appendPlain 0 (Or.inr rfl) r.state hvalid.phase
  refine ⟨mutate_of_writes 0 ?_ hasked, { hasked with rev := Nat.le_add_left 1 r.rev }⟩
  unfold requestCancel
  rw [if_neg (not_not.mpr hrequested), if_neg (by rw [hflag]; decide)]

theorem mutate_claimAndStart (retryBlocked : Bool) (hvalid : Valid P.fingerprint r)
    (hqueued : r.state = .queued) :
    mutate P.fingerprint 0 (claimAndStart 0 raceClaim retryBlocked) r = some r.claimed := by
  have hrefresh : Valid P.fingerprint { r.refreshClaim 0 raceClaim with state := .running } :=
    { hvalid.refreshClaim 0 (show validClaim raceClaim = true by decide) with }
  refine mutate_of_writes 0 ?_ (hrefresh.appendPlain 0 (Or.inl rfl) .running hvalid.phase)
  unfold claimAndStart
  rw [if_pos hqueued]

/-- The runner looks at the queued record, the cancel is requested, and the runner claims it. -/
def race : List (Action ε ω) :=
  [.arrive { claim := raceClaim }, .run 0, .cancel 0 0, .cancel 0 0, .cancel 0 0, .run 0, .run 0,
    .run 0]

/-- The machine that starts in its irreversible phase starts that phase's step. -/
theorem race_starts (disk : δ) (hvalid : validateRecord P.fingerprint r = true)
    (hqueued : r.state = .queued) (hflag : r.cancelRequested = false)
    (hphase : r.phase = r.irreversiblePhase) :
    (run (World.step P) { record := r, disk := disk } (race : List (Action ε ω))).startedAfter =
      [r.irreversiblePhase] := by
  obtain ⟨hasked, hvalid'⟩ := mutate_requestCancel (P := P) (validateRecord_iff.mp hvalid) hqueued
    hflag
  have hclaimed := mutate_claimAndStart (P := P) (r := r.asked) false hvalid' hqueued
  have htop : loopTop (β := β) { claim := raceClaim } 0 r = some .start := by
    unfold loopTop Record.cancelPending
    rw [hflag, hqueued]
    rfl
  have hcancelable : r.asked.claimed.isCancelable = false := isCancelable_claimed hphase
  have htop' : loopTop (β := β) { claim := raceClaim } 0 r.asked.claimed =
      some (.ready r.phase r.asked.claimed) := by
    unfold loopTop Record.cancelPending
    rw [hcancelable, claimed_state, claimed_phase, asked_phase]
    simp [State.terminal]
  have hclass : classifyCancel r = .requested := by
    unfold classifyCancel Record.isCancelable
    rw [hqueued]
    rfl
  let waiting : World π ρ δ β :=
    { record := r, disk := disk, runner := some { invocation := { claim := raceClaim }, pc := .start },
      cancellers := Function.update (Function.update (fun _ => none) 0 (some .load)) 0
        (some .request) }
  have hwaiting : run (World.step P) { record := r, disk := disk }
      ([.arrive { claim := raceClaim }, .run 0, .cancel 0 0, .cancel 0 0] : List (Action ε ω)) =
      waiting := by
    have hload : (World.step P { record := r, disk := disk, runner := some { invocation := { claim :=
        raceClaim } } } (.run 0 : Action ε ω)) =
        { record := r, disk := disk,
          runner := some { invocation := { claim := raceClaim }, pc := .start } } := by
      simp only [World.step, World.runStep, htop, World.goto]
    show World.step P (World.step P (World.step P { record := r, disk := disk, runner := some {
      invocation := { claim := raceClaim } } } (.run 0)) (.cancel 0 0)) (.cancel 0 0) = waiting
    rw [hload]
    simp only [World.step, World.cancelStep, World.setCanceller, Function.update_self, hclass, hqueued,
      ne_eq, not_true_eq_false, if_false, reduceCtorEq, false_and, waiting]
  let asked : World π ρ δ β :=
    { record := r.asked, disk := disk,
      runner := some { invocation := { claim := raceClaim }, pc := .start },
      cancellers := Function.update waiting.cancellers 0 none, requested := true }
  have hrequest : World.step P waiting (.cancel 0 0 : Action ε ω) = asked := by
    simp only [World.step, World.cancelStep, waiting, Function.update_self, hasked,
      World.setCanceller]
    rfl
  have hclaim' : World.step P asked (.run 0 : Action ε ω) =
      { asked with
        record := r.asked.claimed
        runner := some { invocation := { claim := raceClaim } } } := by
    simp only [World.step, World.runStep, asked, World.mutating, hclaimed, World.goto]
  have hsplit : (race : List (Action ε ω)) =
      [.arrive { claim := raceClaim }, .run 0, .cancel 0 0, .cancel 0 0] ++
        [.cancel 0 0, .run 0, .run 0, .run 0] := rfl
  rw [hsplit, run_append, hwaiting, run_cons, hrequest, run_cons, hclaim', run_cons]
  simp only [World.step, World.runStep, htop', World.goto, run_cons, run_nil]
  rw [← hphase]
  rfl

end Race

/-! ## The machines -/

/-- **Which machines honour every cancel.**  Over all runs of runners, cancellers, retries and
crashes: those that do not begin with their irreversible phase. -/
theorem cancel_honoured (P : Program π ρ δ ε ω β) {now : ℕ} {id type : Text} {parameters : π}
    {m : Machine} {r : Record π ρ}
    (hnew : newOperation P.fingerprint now id type parameters m = some r)
    (hvalid : validateRecord P.fingerprint r = true) (disk : δ) :
    (∀ acts : List (Action ε ω),
        CancelHonoured (run (World.step P) { record := r, disk := disk } acts)) ↔
      m.phases.head? ≠ some m.irreversiblePhase := by
  obtain ⟨haccepted, rfl, hhead, hqueued, hflag, -⟩ := newOperation_eq_some hnew
  constructor
  · intro h hfirst
    have hphase : r.phase = r.irreversiblePhase := Option.some.inj (hhead.symm.trans hfirst)
    have hstarted := race_starts (P := P) (ε := ε) (ω := ω) disk hvalid hqueued hflag hphase
    have hmachine : (run (World.step P) { record := r, disk := disk }
        (race : List (Action ε ω))).record.toMachine = r.toMachine :=
      run_rel (R := fun w w' : World π ρ δ β => w'.record.toMachine = w.record.toMachine)
        (fun _ => rfl) (fun _ _ _ h h' => h'.trans h) (fun _ a => (step_continues a).machine) _ _
    have hsafe := (h race).2 r.irreversiblePhase (by rw [hstarted]; exact List.mem_singleton_self _)
    rw [hmachine] at hsafe
    rcases hsafe with hbefore | hcancel
    · exact lt_irrefl _ hbefore
    · exact lt_irrefl _ ((Machine.accepted_iff.mp haccepted).2.2.2 _ hcancel).2
  · intro hfirst acts
    refine honoured_run ⟨⟨haccepted, hfirst, fun _ => hhead, fun hrequested => ?_⟩,
      fun _ hrn => (by cases hrn), fun _ hid => (by cases hid)⟩
      ⟨fun hrequested => (by cases hrequested), fun _ hphase => (by cases hphase)⟩ acts
    rw [hflag] at hrequested
    cases hrequested

/-- A type of operations whose steps return at once. -/
def sampleProgram : Program Unit Unit Unit Unit Unit Unit where
  fingerprint _ _ := ascii (String.ofList (List.replicate 64 '0'))
  completed := ()
  enter _ _ := ()
  step _ _ _ := ((), .ends (.returned { advance := true }))
  weather _ _ := ()

/-- A machine that can be cancelled before it publishes. -/
def sampleMachine : Machine where
  phases := [.preflight, .publishing, .cleanup]
  irreversiblePhase := .publishing
  cancelPhase := some .cleanup

/-- A machine that publishes at once. -/
def hastyMachine : Machine where
  phases := [.publishing]
  irreversiblePhase := .publishing
  cancelPhase := none

theorem cancel_honoured_sample : ∃ r : Record Unit Unit,
    newOperation sampleProgram.fingerprint 0 (ascii "a") (ascii "sample") () sampleMachine = some r ∧
      ((∀ acts : List (Action Unit Unit),
          CancelHonoured (run (World.step sampleProgram) { record := r, disk := () } acts)) ↔
        sampleMachine.phases.head? ≠ some sampleMachine.irreversiblePhase) :=
  ⟨_, rfl, @cancel_honoured _ _ _ _ _ _ sampleProgram 0 (ascii "a") (ascii "sample") _ _ _ rfl
    (by decide +kernel) ()⟩

/-- **A cancel that is passed over.**  The operation succeeds after `cancel_operation` has returned
`requested`. -/
theorem cancel_passed_over :
    ¬ ∀ (P : Program Unit Unit Unit Unit Unit Unit) (now : ℕ) (id type : Text) (m : Machine)
      (r : Record Unit Unit), newOperation P.fingerprint now id type () m = some r →
      validateRecord P.fingerprint r = true →
      ∀ acts : List (Action Unit Unit),
        CancelHonoured (run (World.step P) { record := r, disk := () } acts) := fun h => by
  have hbad := (h sampleProgram 0 (ascii "a") (ascii "sample") hastyMachine _ rfl (by decide +kernel)
    (race ++ [.work (), .run 0])).1 (by decide +kernel)
  exact hbad (by decide +kernel)

end Operations
end SemanticMemory
