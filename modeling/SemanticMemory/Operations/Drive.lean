import SemanticMemory.Operations.Runner

/-!
# A runner that nothing disturbs

How far a runner comes if nothing else happens: what a record that is written has to meet is kept by
every transform (`valid_*`), so a step whose pieces come to an end (`Takes`) is persisted, and the
operation goes on to its next phase (`World.advances`) or to its end (`World.succeeds`).

Here an invocation runs one step and returns, `oneStep`; a runner of more steps is as many of them.
-/

namespace SemanticMemory
namespace Operations

open Runs

variable {π ρ δ ε ω β : Type}

/-! ## Records that can be written -/

variable {phase : Phase} {result : StepResult ρ}

section Valid

variable {fingerprint : Text → π → Text} {r : Record π ρ} {now : ℕ}

theorem validLog_append {phases : List Phase} {e : Event} :
    ∀ {seq : ℕ} {log : List Event}, validLog phases seq log = true →
      validEvent phases (seq + log.length) e = true → validLog phases seq (log ++ [e]) = true
  | seq, [], _, he => by
    rw [List.nil_append, validLog, validLog, Bool.and_true]
    exact he
  | seq, a :: log, h, he => by
    rw [validLog, Bool.and_eq_true] at h
    rw [List.cons_append, validLog, Bool.and_eq_true]
    refine ⟨h.1, validLog_append h.2 ?_⟩
    rwa [List.length_cons, Nat.add_comm log.length 1, ← Nat.add_assoc] at he

/-- What `validateRecord` asks for. -/
structure Valid (fingerprint : Text → π → Text) (r : Record π ρ) : Prop where
  version : r.operationVersion = 1
  operationId : validOperationId r.operationId = true
  type : r.type ≠ []
  length : r.parametersFingerprint.length = 64
  digits : r.parametersFingerprint.all (· ∈ ascii "0123456789abcdef") = true
  parameters : r.parametersFingerprint = fingerprint r.type r.parameters
  cancel : r.cancelRequested = false ∨ r.cancelRequestedAt.isSome = true
  error : r.error.all validError = true
  rev : 1 ≤ r.rev
  claim : r.runnerClaim.all validClaim = true
  machine : r.toMachine.accepted = true
  order : (r.phases.map Phase.canonicalIndex).Pairwise (· ≤ ·)
  phase : r.phase ∈ r.phases
  progress : ∀ unit, 0 ≤ r.progress unit
  log : validLog r.phases 1 r.log = true

theorem validateRecord_iff : validateRecord fingerprint r = true ↔ Valid fingerprint r := by
  have hunits : (progressUnits.all fun unit => decide (0 ≤ r.progress unit)) = true ↔
      ∀ unit, 0 ≤ r.progress unit := by
    rw [List.all_eq_true]
    refine ⟨fun h unit => of_decide_eq_true (h unit ?_), fun h unit _ => decide_eq_true (h unit)⟩
    cases unit <;> decide
  unfold validateRecord
  rw [Bool.and_eq_true, Bool.and_eq_true, hunits]
  simp only [Bool.and_eq_true, Bool.or_eq_true, decide_eq_true_eq]
  constructor
  · rintro ⟨⟨⟨⟨⟨⟨⟨⟨⟨⟨⟨⟨h₁, h₂⟩, h₃⟩, ⟨⟨h₄, h₅⟩, h₆⟩⟩, h₇⟩, h₈⟩, h₉⟩, h₁₀⟩, h₁₁⟩, h₁₂⟩, h₁₃⟩, h₁₄⟩, h₁₅⟩
    exact ⟨h₁, h₂, h₃, h₄, h₅, h₆, h₇, h₈, h₉, h₁₀, h₁₁, h₁₂, h₁₃, h₁₄, h₁₅⟩
  · rintro ⟨h₁, h₂, h₃, h₄, h₅, h₆, h₇, h₈, h₉, h₁₀, h₁₁, h₁₂, h₁₃, h₁₄, h₁₅⟩
    exact ⟨⟨⟨⟨⟨⟨⟨⟨⟨⟨⟨⟨h₁, h₂⟩, h₃⟩, ⟨⟨h₄, h₅⟩, h₆⟩⟩, h₇⟩, h₈⟩, h₉⟩, h₁₀⟩, h₁₁⟩, h₁₂⟩, h₁₃⟩, h₁₄⟩, h₁₅⟩

theorem Valid.nodup (h : Valid fingerprint r) :
    r.phases.Nodup := by
  have hmachine := h.machine
  unfold Machine.accepted at hmachine
  simp only [Bool.and_eq_true, decide_eq_true_eq] at hmachine
  exact hmachine.1.2

/-- One more entry of the log. -/
theorem Valid.appendEvent (h : Valid fingerprint r) {kind : EventKind} {state : State} {progress : Option Delta} {errorCode : Option Text} {outcome : Option State}
    (he : validEvent r.phases (1 + r.log.length)
      { seq := r.log.length + 1, at_ := now, kind := kind, state := state, phase := phase,
        progress := progress, errorCode := errorCode, outcome := outcome } = true) :
    Valid fingerprint (r.appendEvent now kind state phase progress errorCode outcome) :=
  { h with log := validLog_append h.log he }

theorem Valid.appendPlain (h : Valid fingerprint r) (now : ℕ) {kind : EventKind}
    (hkind : kind = .transition ∨ kind = .cancelRequested) (state : State)
    (hphase : phase ∈ r.phases) : Valid fingerprint (r.appendEvent now kind state phase) := by
  refine h.appendEvent ?_
  unfold validEvent
  rcases hkind with rfl | rfl <;> simp [hphase, Nat.add_comm]

theorem Valid.appendTransition (h : Valid fingerprint r) (now : ℕ) (state : State)
    (hphase : phase ∈ r.phases) : Valid fingerprint (r.appendEvent now .transition state phase) :=
  h.appendPlain now (Or.inl rfl) state hphase

theorem Valid.appendTerminal (h : Valid fingerprint r) (now : ℕ) (state : State) {outcome : State} (errorCode : Option Text) (hphase : phase ∈ r.phases)
    (houtcome : outcome ∈ [State.succeeded, .failed, .cancelled, .blocked]) :
    Valid fingerprint (r.appendEvent now .terminal state phase none errorCode (some outcome)) := by
  refine h.appendEvent ?_
  unfold validEvent
  simpa [hphase, Nat.add_comm] using houtcome

theorem Valid.refreshClaim (h : Valid fingerprint r) (now : ℕ) {claim : Claim}
    (hclaim : validClaim claim = true) : Valid fingerprint (r.refreshClaim now claim) :=
  { h with claim := hclaim }

/-- The progress that a step may report. -/
def validDelta : Option Delta → Prop
  | none => True
  | some delta => ∀ p ∈ delta, p.1 ∈ progressUnits.map ProgressUnit.name ∧ 0 ≤ p.2

theorem Valid.addProgress (h : Valid fingerprint r) (now : ℕ) (hphase : phase ∈ r.phases)
    {delta : Option Delta} (hdelta : validDelta delta) :
    Valid fingerprint (r.addProgress now phase delta) := by
  rcases delta with _ | _ | ⟨p, delta⟩
  · exact h
  · exact h
  have hsum (unit : ProgressUnit) :
      0 ≤ r.progress unit + (List.lookup unit.name (p :: delta)).getD 0 := by
    refine add_nonneg (h.progress unit) ?_
    cases hl : List.lookup unit.name (p :: delta) with
    | none => exact le_rfl
    | some value =>
      obtain ⟨l₁, l₂, heq, -⟩ := List.lookup_eq_some_iff.mp hl
      exact (hdelta (unit.name, value) (by rw [heq]; simp)).2
  have hprogress : Valid fingerprint
      { r with progress := fun unit =>
          r.progress unit + (List.lookup unit.name (p :: delta)).getD 0 } :=
    { h with progress := hsum }
  refine hprogress.appendEvent ?_
  unfold validEvent
  simp only [Nat.add_comm r.log.length 1, hphase, decide_true, Bool.true_and, Bool.and_eq_true,
    Bool.or_eq_true]
  refine ⟨Or.inr ⟨decide_eq_true (List.cons_ne_nil _ _), List.all_eq_true.mpr fun q hq => ?_⟩,
    Or.inl rfl⟩
  obtain ⟨hname, hvalue⟩ := hdelta q hq
  exact Bool.and_eq_true_iff.mpr ⟨decide_eq_true hname, decide_eq_true hvalue⟩

/-- The phase of a record, or the one after it, is the last. -/
theorem last_or_successor {phases : List Phase} (h : phase ∈ phases) :
    some phase = phases.getLast? ∨ ∃ next, phases[phases.idxOf phase + 1]? = some next := by
  have hlt := List.idxOf_lt_length_of_mem h
  by_cases hnext : phases.idxOf phase + 1 < phases.length
  · exact Or.inr ⟨_, List.getElem?_eq_getElem hnext⟩
  · refine Or.inl ?_
    have hlast : phases.length - 1 = phases.idxOf phase := by omega
    rw [List.getLast?_eq_getElem?, hlast, List.getElem?_eq_getElem hlt, List.getElem_idxOf]

/-- The phase that follows can be gone to. -/
theorem validatePhaseTransition_next (h : Valid fingerprint r) {next : Phase}
    (hnext : r.phases[r.phases.idxOf r.phase + 1]? = some next) :
    r.validatePhaseTransition next = .ok () := by
  obtain ⟨hlt, hget⟩ := List.getElem?_eq_some_iff.mp hnext
  have hidx : r.phases.idxOf next = r.phases.idxOf r.phase + 1 := by
    rw [← hget]
    exact h.nodup.idxOf_getElem _ hlt
  have hmem : next ∈ r.phases := hget ▸ List.getElem_mem hlt
  unfold Record.validatePhaseTransition
  rw [if_neg (not_not.mpr hmem), if_neg (not_not.mpr h.phase), if_neg (not_not.mpr hidx), ite_self]

/-- **The end of a step can be written**, if no cancel is in its way. -/
theorem settleStep_ok (h : Valid fingerprint r) {completed : ρ} (hadvance : result.advance = true)
    (hpending : r.cancelPending = false)
    (hplain : ¬ (some r.phase = r.cancelPhase ∧ r.cancelRequested = true)) :
    ∃ u, settleStep completed now result r = .ok (some u) ∧ Valid fingerprint u := by
  unfold settleStep
  rw [if_neg (by rw [hadvance]; decide), if_neg (by rw [hpending]; simp), if_neg hplain]
  split_ifs with hlast
  · refine ⟨_, rfl, ?_⟩
    have hbare : Valid fingerprint
        { r with result := some (result.result.getD completed), error := none } :=
      { h with error := rfl }
    have happend := hbare.appendTerminal now .succeeded none h.phase
      (List.mem_cons_self (a := State.succeeded))
    exact { happend with }
  · obtain ⟨next, hnext⟩ := (last_or_successor h.phase).resolve_left hlast
    have hindex : r.phaseIndex r.phase = .ok (r.phases.idxOf r.phase) := if_pos h.phase
    have hmem : next ∈ r.phases := List.mem_of_getElem? hnext
    refine ⟨{ r.appendEvent now .transition .running next with phase := next }, ?_, ?_⟩
    · simp only [bind, Except.bind, hindex, hnext, validatePhaseTransition_next h hnext]
      rfl
    · have happend := h.appendTransition now .running hmem
      exact { happend with phase := hmem }

/-- **What a step returns can be written**, if no cancel is in its way. -/
theorem applyStepResult_ok (h : Valid fingerprint r) (completed : ρ) (now : ℕ) {claim : Claim} (hclaim : validClaim claim = true) (hdelta : validDelta result.progress)
    (hadvance : result.advance = true) (hpending : r.cancelPending = false)
    (hplain : ¬ (some r.phase = r.cancelPhase ∧ r.cancelRequested = true)) :
    ∃ u, applyStepResult completed now claim r.phase result r = .ok (some u) ∧
      Valid fingerprint u := by
  have hvalid := (h.refreshClaim now hclaim).addProgress now h.phase hdelta
  have hcontinues := (Record.continues_refreshClaim (r := r) now claim).trans
    (Record.continues_addProgress (r := r.refreshClaim now claim) now r.phase result.progress)
  have hview : ((r.refreshClaim now claim).addProgress now r.phase result.progress).view = r.view :=
    Record.view_addProgress _ now r.phase result.progress
  unfold applyStepResult
  rw [if_neg (by simp)]
  refine settleStep_ok hvalid hadvance ?_ ?_
  · rwa [Record.cancelPending_congr hcontinues.machine hview]
  · obtain ⟨-, hphase, hrequested, -⟩ := View.mk.inj hview
    rwa [hphase, hrequested, hcontinues.machine]

theorem mutate_of_writes (now : ℕ) {fn : Transform π ρ} {u : Record π ρ} (hfn : fn r = .ok (some u))
    (hu : Valid fingerprint u) :
    mutate fingerprint now fn r = some { u with updatedAt := now, rev := u.rev + 1 } := by
  unfold mutate
  rw [hfn]
  exact if_pos (validateRecord_iff.mpr hu)

theorem mutate_ok (now : ℕ) {fn : Transform π ρ} {u : Record π ρ} (hfn : fn r = .ok (some u))
    (hu : Valid fingerprint u) :
    ∃ r', mutate fingerprint now fn r = some r' ∧ Valid fingerprint r' ∧ u.Continues r' ∧
      r'.view = u.view :=
  ⟨_, mutate_of_writes now hfn hu, { hu with rev := Nat.le_add_left 1 u.rev },
    ⟨rfl, rfl, rfl, rfl, Nat.le_succ _, List.prefix_rfl, id⟩, rfl⟩

/-- A waiting operation can be started. -/
theorem claimAndStart_ok (h : Valid fingerprint r) (now : ℕ) {claim : Claim} (hclaim : validClaim claim = true)
    (hstate : r.state = .queued ∨ r.state = .blocked) :
    ∃ u, claimAndStart now claim true r = .ok (some u) ∧ Valid fingerprint u := by
  have hrefresh := h.refreshClaim now hclaim
  unfold claimAndStart
  rcases hstate with hstate | hstate
  · rw [if_pos hstate]
    have hrunning : Valid fingerprint { r.refreshClaim now claim with state := .running } :=
      { hrefresh with }
    exact ⟨_, rfl, hrunning.appendTransition now .running h.phase⟩
  · rw [if_neg (by rw [hstate]; decide), if_pos ⟨hstate, rfl⟩]
    have hbare : Valid fingerprint
        { r.refreshClaim now claim with state := .running, error := none } :=
      { hrefresh with error := rfl }
    exact ⟨_, rfl, hbare.appendTransition now .running h.phase⟩

end Valid

/-! ## The runner -/

/-- The actions of a runner that nothing disturbs, with the answers `E` of the outside world. -/
def Action.quiet (E : ε → Prop) : Action ε ω → Prop
  | .arrive _ | .run _ => True
  | .work env => E env
  | _ => False

theorem Action.quiet_mono {E E' : ε → Prop} (hE : ∀ env, E env → E' env) {a : Action ε ω}
    (h : a.quiet E) : a.quiet E' := by
  cases a with
  | work env => exact hE env h
  | arrive i => trivial
  | run now => trivial
  | crash => exact h.elim
  | cancel id now => exact h.elim
  | weather x => exact h.elim

/-- The pieces of a step come to an end. -/
inductive Takes (P : Program π ρ δ ε ω β) (E : ε → Prop) : δ → β → δ → Outcome ρ → Prop
  | ends {env : ε} {d d' : δ} {b : β} {o : Outcome ρ} (answer : E env)
      (step : P.step env d b = (d', .ends o)) : Takes P E d b d' o
  | goes {env : ε} {d d₁ d' : δ} {b b₁ : β} {o : Outcome ρ} (answer : E env)
      (step : P.step env d b = (d₁, .goes b₁)) (rest : Takes P E d₁ b₁ d' o) : Takes P E d b d' o

/-- A piece goes on to `b₁`, over `d₁`. -/
theorem Takes.via {P : Program π ρ δ ε ω β} {E : ε → Prop} {d d' : δ} {b : β} {o : Outcome ρ}
    {env : ε} (d₁ : δ) (b₁ : β) (henv : E env) (step : P.step env d b = (d₁, .goes b₁))
    (rest : Takes P E d₁ b₁ d' o) : Takes P E d b d' o :=
  .goes henv step rest

/-- An invocation that runs one step, also of a blocked operation. -/
def oneStep (claim : Claim) : Invocation where
  retryBlocked := true
  maxSteps := some 1
  claim := claim

section Drive

variable {P : Program π ρ δ ε ω β} {E : ε → Prop} {claim : Claim}

variable {w : World π ρ δ β}

/-- A runner inside a step comes to its end. -/
theorem Takes.run {d d' : δ} {b : β} {o : Outcome ρ} (h : Takes P E d b d' o) {rn : Runner π ρ β}
    (hrunner : w.runner = some rn) (hpc : rn.pc = .executing phase b) (hdisk : w.disk = d) :
    ∃ acts : List (Action ε ω), (∀ a ∈ acts, a.quiet E) ∧
      run (World.step P) w acts = { w with disk := d' }.goto rn (.persist phase o) := by
  induction h generalizing w rn with
  | @ends env d d' b o answer step =>
    refine ⟨[.work env], by simpa [Action.quiet] using answer, ?_⟩
    subst hdisk
    simp only [run_cons, run_nil, World.step, hrunner, World.workStep, hpc, step]
  | @goes env d d₁ d' b b₁ o answer step rest ih =>
    subst hdisk
    obtain ⟨acts, hacts, hrun⟩ := ih (w := { w with disk := d₁ }.goto rn (.executing phase b₁))
      rfl rfl rfl
    refine ⟨.work env :: acts, ?_, ?_⟩
    · simpa [Action.quiet] using ⟨answer, hacts⟩
    · rw [run_cons]
      simp only [World.step, hrunner, World.workStep, hpc, step]
      exact hrun

theorem loopTop_oneStep {r : Record π ρ} (hopen : r.state.terminal = false)
    (hpending : r.cancelPending = false) :
    (loopTop (oneStep claim) 0 r : Option (RunnerPc π ρ β)) =
      some (if r.state = .running then .ready r.phase r else .start) := by
  unfold loopTop
  rw [if_neg (by rw [hopen]; decide), if_neg (by rw [hpending]; decide), if_neg (by simp [oneStep])]
  cases hstate : r.state <;> simp_all [State.terminal, oneStep]

theorem World.enters (hrunner : w.runner = some ⟨oneStep claim, 0, .load⟩)
    (hrunning : w.record.state = .running) (hpending : w.record.cancelPending = false) :
    run (World.step P) w [.run 0, .run 0] =
      { w with
        runner :=
          some ⟨oneStep claim, 0, .executing w.record.phase (P.enter w.record.phase w.record)⟩
        startedAfter :=
          if w.requested then w.startedAfter ++ [w.record.phase] else w.startedAfter } := by
  have htop : (loopTop (oneStep claim) 0 w.record : Option (RunnerPc π ρ β)) = _ :=
    loopTop_oneStep (by rw [hrunning]; rfl) hpending
  rw [if_pos hrunning] at htop
  simp only [run_cons, run_nil, World.step, hrunner, World.runStep, htop, World.goto]

/-- A runner comes to the step of the phase that an open operation is in. -/
theorem World.begins (E : ε → Prop) (hrunner : w.runner = none)
    (hopen : w.record.state.terminal = false) (hpending : w.record.cancelPending = false)
    (hvalid : Valid P.fingerprint w.record) (hclaim : validClaim claim = true) :
    ∃ (acts : List (Action ε ω)) (r : Record π ρ),
      (∀ a ∈ acts, a.quiet E) ∧ w.record.Continues r ∧
        r.view = { w.record.view with state := .running } ∧ Valid P.fingerprint r ∧
        r.cancelPending = false ∧
        run (World.step P) w acts =
          { w with
            record := r
            runner := some ⟨oneStep claim, 0, .executing r.phase (P.enter r.phase r)⟩
            startedAfter := if w.requested then w.startedAfter ++ [r.phase] else w.startedAfter } := by
  by_cases hrunning : w.record.state = .running
  · have hrun := World.enters (P := P)
      (w := { w with runner := some ⟨oneStep claim, 0, .load⟩ }) rfl hrunning hpending
    refine ⟨[.arrive (oneStep claim), .run 0, .run 0], w.record, ?_, .refl _, ?_, hvalid, hpending, ?_⟩
    · simp [Action.quiet]
    · rw [← hrunning]
      rfl
    · rw [run_cons]
      simp only [World.step, hrunner, Option.isSome_none, Bool.false_eq_true, if_false]
      exact hrun
  · have hwaiting : w.record.state = .queued ∨ w.record.state = .blocked := by
      cases hstate : w.record.state <;> simp_all [State.terminal]
    obtain ⟨u, hu, hvalidu⟩ := claimAndStart_ok hvalid 0 hclaim hwaiting
    obtain ⟨r, hr, hvalidr, hur, hview⟩ := mutate_ok 0 hu hvalidu
    obtain ⟨hwu, -, hviewu⟩ := claimAndStart_eq_some hu
    have hviewr := hview.trans hviewu
    have hcontinues := hwu.trans hur
    have hstate : r.state = .running := (View.mk.inj hviewr).1
    have hpendingr : r.cancelPending = false := by
      obtain ⟨-, hphase, hrequested, -⟩ := View.mk.inj hviewr
      rcases Bool.and_eq_false_iff.mp hpending with hnone | hno
      · exact Bool.and_eq_false_iff.mpr (Or.inl (hrequested.trans hnone))
      · refine Bool.and_eq_false_iff.mpr (Or.inr ?_)
        unfold Record.isCancelable at hno ⊢
        rw [hcontinues.machine, hphase, hstate]
        rcases hwaiting with hqueued | hblocked
        · rw [hqueued] at hno
          cases hno
        · rw [hblocked] at hno
          exact hno
    have htop : (loopTop (oneStep claim) 0 w.record : Option (RunnerPc π ρ β)) = _ :=
      loopTop_oneStep hopen hpending
    rw [if_neg hrunning] at htop
    have hrun := World.enters (P := P)
      (w := { w with record := r, runner := some ⟨oneStep claim, 0, .load⟩ }) rfl hstate hpendingr
    refine ⟨[.arrive (oneStep claim), .run 0, .run 0, .run 0, .run 0], r, ?_, hcontinues, hviewr,
      hvalidr, hpendingr, ?_⟩
    · simp [Action.quiet]
    · rw [run_cons, run_cons, run_cons]
      simp only [World.step, hrunner, Option.isSome_none, Bool.false_eq_true, if_false,
        World.runStep, htop, World.goto, World.mutating]
      have hretry : (oneStep claim).retryBlocked = true := rfl
      have hclaim' : (oneStep claim).claim = claim := rfl
      rw [hretry, hclaim', hr]
      exact hrun

theorem cancelPending_next {fingerprint : Text → π → Text} {r r' : Record π ρ}
    (h : Valid fingerprint r) (hrunning : r.state = .running) (hpending : r.cancelPending = false)
    (hcontinues : r.Continues r') {next : Phase}
    (hnext : r.phases[r.phases.idxOf r.phase + 1]? = some next)
    (hview : r'.view = { r.view with phase := next }) : r'.cancelPending = false := by
  obtain ⟨hstate, hphase, hrequested, -⟩ := View.mk.inj hview
  rcases Bool.and_eq_false_iff.mp hpending with hnone | hno
  · exact Bool.and_eq_false_iff.mpr (Or.inl (hrequested.trans hnone))
  refine Bool.and_eq_false_iff.mpr (Or.inr ?_)
  obtain ⟨hlt, hget⟩ := List.getElem?_eq_some_iff.mp hnext
  have hidx : r.phases.idxOf next = r.phases.idxOf r.phase + 1 := by
    rw [← hget]
    exact h.nodup.idxOf_getElem _ hlt
  have hstate' : r'.state = .running := hstate.trans hrunning
  unfold Record.isCancelable at hno ⊢
  rw [hrunning, if_neg (by decide), if_neg (by decide), if_neg (not_not.mpr h.phase)] at hno
  have hpast := of_decide_eq_false hno
  rw [hcontinues.machine, hphase, hstate', if_neg (by decide), if_neg (by decide),
    if_neg (not_not.mpr (hget ▸ List.getElem_mem hlt)), hidx]
  exact decide_eq_false (by omega)

theorem World.step_persist {rn : Runner π ρ β} {now : ℕ} {r : Record π ρ} (hrunner : w.runner = some rn)
    (hpc : rn.pc = .persist phase (.returned result))
    (hr : mutate P.fingerprint now
      (applyStepResult P.completed now rn.invocation.claim phase result) w.record = some r) :
    World.step P w (.run now) =
      { w with record := r }.goto { rn with stepsExecuted := rn.stepsExecuted + 1 } .load := by
  simp only [World.step, hrunner, World.runStep, hpc, World.mutating, Outcome.transform, hr]

/-- **A runner that nothing disturbs persists the step**, and returns. -/
theorem World.takes {d' : δ} {R : StepResult ρ → Prop}
    (hrunner : w.runner = none) (hopen : w.record.state.terminal = false)
    (hpending : w.record.cancelPending = false) (hvalid : Valid P.fingerprint w.record)
    (hclaim : validClaim claim = true)
    (htakes : ∀ r, w.record.Continues r → r.phase = w.record.phase →
      ∃ result, Takes P E w.disk (P.enter r.phase r) d' (.returned result) ∧
        validDelta result.progress ∧ result.advance = true ∧ R result)
    (hplain : ¬ (some w.record.phase = w.record.cancelPhase ∧ w.record.cancelRequested = true)) :
    ∃ (acts : List (Action ε ω)) (r : Record π ρ) (result : StepResult ρ),
      (∀ a ∈ acts, a.quiet E) ∧ w.record.Continues r ∧ Valid P.fingerprint r ∧
        r.cancelPending = false ∧ R result ∧
        (some w.record.phase = w.record.phases.getLast? ∧
            r.view = { w.record.view with
              state := .succeeded, result := some (result.result.getD P.completed) } ∨
          ∃ next, w.record.phases[w.record.phases.idxOf w.record.phase + 1]? = some next ∧
            r.view = { w.record.view with state := .running, phase := next }) ∧
        run (World.step P) w acts =
          { w with
            record := r
            disk := d'
            runner := none
            startedAfter :=
              if w.requested then w.startedAfter ++ [w.record.phase] else w.startedAfter } := by
  obtain ⟨acts₁, r₁, hacts₁, hcontinues₁, hview₁, hvalid₁, hpending₁, hrun₁⟩ :=
    World.begins (P := P) E hrunner hopen hpending hvalid hclaim
  obtain ⟨hstate₁, hphase₁, hrequested₁, -⟩ := View.mk.inj hview₁
  replace hphase₁ : r₁.phase = w.record.phase := hphase₁
  obtain ⟨result, hresult, hdelta, hadvance, hR⟩ := htakes r₁ hcontinues₁ hphase₁
  obtain ⟨acts₂, hacts₂, hrun₂⟩ := hresult.run (P := P)
    (w := { w with
      record := r₁
      runner := some ⟨oneStep claim, 0, .executing r₁.phase (P.enter r₁.phase r₁)⟩
      startedAfter := if w.requested then w.startedAfter ++ [r₁.phase] else w.startedAfter })
    rfl rfl rfl
  have hplain₁ : ¬ (some r₁.phase = r₁.cancelPhase ∧ r₁.cancelRequested = true) := by
    rw [hphase₁, hcontinues₁.machine, hrequested₁]
    exact hplain
  obtain ⟨u, hu, hvalidu⟩ := applyStepResult_ok hvalid₁ P.completed 0 hclaim hdelta hadvance
    hpending₁ hplain₁
  obtain ⟨r, hr, hvalidr, hur, hview⟩ := mutate_ok 0 hu hvalidu
  obtain ⟨hru, -, hsettled⟩ := applyStepResult_eq_some hu
  have hcontinues := hru.trans hur
  have hwhere : (some r₁.phase = r₁.phases.getLast? ∧
        r.view = { r₁.view with
          state := .succeeded, result := some (result.result.getD P.completed) } ∨
      ∃ next, r₁.phases[r₁.phases.idxOf r₁.phase + 1]? = some next ∧
        r.view = { r₁.view with phase := next }) := by
    cases hsettled with
    | held quiet view =>
      rcases quiet with hquiet | hheld
      · exact absurd (hquiet.symm.trans hadvance) (by decide)
      · exact absurd (hheld.symm.trans hpending₁) (by decide)
    | cancelled cancel requested view => exact absurd ⟨cancel, requested⟩ hplain₁
    | succeeded last free plain view => exact Or.inl ⟨last, hview.trans view⟩
    | next next successor free plain view => exact Or.inr ⟨next, successor, hview.trans view⟩
  have hpendingr : r.cancelPending = false := by
    rcases hwhere with ⟨-, hsucceeded⟩ | ⟨next, hnext, hnextview⟩
    · refine Bool.and_eq_false_iff.mpr (Or.inr ?_)
      unfold Record.isCancelable
      rw [(View.mk.inj hsucceeded).1]
      rfl
    · exact cancelPending_next hvalid₁ hstate₁ hpending₁ hcontinues hnext hnextview
  have hreturn : (loopTop (oneStep claim) 1 r : Option (RunnerPc π ρ β)) = none := by
    unfold loopTop
    rcases hwhere with ⟨-, hsucceeded⟩ | ⟨next, -, hnextview⟩
    · rw [if_pos (by rw [(View.mk.inj hsucceeded).1]; rfl)]
    · have hrunning : r.state = .running := (View.mk.inj hnextview).1.trans hstate₁
      rw [hrunning, hpendingr]
      rfl
  refine ⟨acts₁ ++ (acts₂ ++ [.run 0, .run 0]), r, result, ?_, hcontinues₁.trans hcontinues, hvalidr,
    hpendingr, hR, ?_, ?_⟩
  · intro a ha
    rcases List.mem_append.mp ha with ha | ha
    · exact hacts₁ a ha
    rcases List.mem_append.mp ha with ha | ha
    · exact hacts₂ a ha
    · rcases List.mem_pair.mp ha with rfl | rfl <;> trivial
  · rw [hphase₁, hcontinues₁.machine, hview₁] at hwhere
    rcases hwhere with ⟨hlast, hsucceeded⟩ | ⟨next, hnext, hnextview⟩
    · exact Or.inl ⟨hlast, hsucceeded⟩
    · exact Or.inr ⟨next, hnext, hnextview⟩
  · have hpersist : World.step P (World.goto
        { w with
          record := r₁
          disk := d'
          runner := some ⟨oneStep claim, 0, .executing r₁.phase (P.enter r₁.phase r₁)⟩
          startedAfter := if w.requested then w.startedAfter ++ [r₁.phase] else w.startedAfter }
        ⟨oneStep claim, 0, .executing r₁.phase (P.enter r₁.phase r₁)⟩
        (.persist r₁.phase (.returned result))) (.run 0) = _ :=
      World.step_persist rfl rfl hr
    rw [run_append, hrun₁, run_append, hrun₂, run_cons, run_cons, run_nil]
    refine (congrArg (World.step P · (.run 0)) hpersist).trans ?_
    simp only [World.step, World.goto, World.runStep, Nat.zero_add, hreturn, World.leave, hphase₁]

end Drive

end Operations

end SemanticMemory
