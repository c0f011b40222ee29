import Mathlib
import SemanticMemory.Lib.Runs

/-!
# Unloading the model under a vector request

The idle watchdog of `daemon/server.py` unloads the model, and so does a load that finds another
identity on disk.  A vector request of `daemon/hidden_state.py` loads, and then reads the model and
the tokenizer, several times over and with no lock.

* Any number of requests run at once, for the delta worker, the staging builder and the evidence path.
  Every read, every load and every unload is one step, and so is the decision to unload.
* A request is the list of its steps that touch the shared state: what `exact`, `split_reuse` and
  `candidate` call, in their order.
* The model and the tokenizer are the version of the files they were loaded from.  The files load, and
  what a request does with them succeeds.
* A fault of a request is kept with its task: it blocks the event of a delta batch, or the build, for
  good, and fails the evidence request.

## Results

* `unaffected_iff`: no request is affected by an unload exactly when none reads the model or the
  tokenizer between an unload and the next load.
-/

namespace SemanticMemory.Unload

open Runs (run)

/-! ## Requests -/

/-- Who asks for a vector. -/
inductive Role where
  | delta | staging | evidence
  deriving DecidableEq

/-- A vector request for an event, or for the query of an evidence request. -/
structure Task where
  role : Role
  event : String

/-- The entry points of `HiddenStateExtractor`. -/
inductive Kind where
  | exact | splitReuse | candidate

/-- A step of a request. -/
inductive Instr where
  /-- `load` under an adapter: it compares the identity of the files, and may decide to unload. -/
  | checkIdentity
  | unload
  /-- `load`, from its look at the model on. -/
  | load
  /-- `_require_model` reads the model. -/
  | readModel
  /-- `_tokenizer` looks whether there is a tokenizer. -/
  | checkTokenizer
  /-- `_tokenizer` returns it. -/
  | takeTokenizer

/-- `load()`. -/
def loadCall (adapter : Bool) : List Instr := if adapter then [.checkIdentity, .load] else [.load]

def requireModel (adapter : Bool) : List Instr := loadCall adapter ++ [.readModel]

def tokenizer : List Instr := [.checkTokenizer, .takeTokenizer]

/-- The steps of a request. -/
def program (adapter : Bool) : Kind → List Instr
  | .exact => requireModel adapter ++ (tokenizer ++ requireModel adapter)
  | .splitReuse =>
    requireModel adapter ++ (tokenizer ++ (requireModel adapter ++ requireModel adapter))
  | .candidate => requireModel adapter ++ (tokenizer ++ requireModel adapter)

/-- What a read finds. -/
inductive Fault where
  | noModel | noTokenizer
  /-- The tokenizer was there at the look and not at the return. -/
  | noEncode

def Fault.message : Fault → String
  | .noModel => "model is not loaded"
  | .noTokenizer => "tokenizer is not loaded"
  | .noEncode => "'NoneType' object has no attribute 'encode'"

/-- The text a caller makes of a fault: a `RepresentationError` comes as an `EvidenceError`. -/
def Fault.text : Fault → String
  | .noEncode => Fault.noEncode.message
  | fault => "representation failed: " ++ fault.message

/-- The reason under which a block is recorded. -/
def reason (event : String) : Role → Fault → String
  | .delta, fault => "cannot embed delta event " ++ event ++ ": " ++ fault.text
  | .staging, .noEncode =>
    "cannot build generation: representation error for event " ++ event ++ ": " ++
      Fault.noEncode.text
  | .staging, fault => "cannot build generation: " ++ fault.text ++ " (event " ++ event ++ ")"
  | .evidence, fault => fault.text

/-! ## The system -/

structure Thread where
  task : Task
  rest : List Instr

/-- The model state, the watchdog and the requests. -/
structure System (ι : Type) where
  now : ℕ
  lastActivity : ℕ
  /-- The watchdog has decided to unload, and holds its lock. -/
  armed : Bool
  /-- The version of the model files. -/
  files : ℕ
  /-- `_identity_fingerprint`. -/
  pinned : Option ℕ
  model : Option ℕ
  tokenizer : Option ℕ
  thread : ι → Option Thread
  failures : List (Task × Fault)

variable {ι : Type}

def System.start (now files : ℕ) : System ι :=
  ⟨now, now, false, files, none, none, none, fun _ => none, []⟩

/-- The events recorded as blocked, with their reasons. -/
def System.blockedEvents (s : System ι) : List (String × String) :=
  (s.failures.filter fun failure => failure.1.role = .delta).map fun failure =>
    (failure.1.event, reason failure.1.event .delta failure.2)

def System.blockedBuilds (s : System ι) : List (String × String) :=
  (s.failures.filter fun failure => failure.1.role = .staging).map fun failure =>
    (failure.1.event, reason failure.1.event .staging failure.2)

/-- No request has failed, no event is blocked, and no build is. -/
structure System.Unaffected (s : System ι) : Prop where
  failures : s.failures = []
  blockedEvents : s.blockedEvents = []
  blockedBuilds : s.blockedBuilds = []

def System.unload (s : System ι) : System ι :=
  { s with model := none, tokenizer := none, pinned := none }

/-- `IDLE_TIMEOUT`, in seconds. -/
def idleTimeout : ℕ := 300

inductive Action (ι : Type) where
  | wait (seconds : ℕ)
  /-- `mark_activity`, of a connection. -/
  | markActivity
  /-- The watchdog wakes, and decides. -/
  | watch
  | watchdogUnload
  | replaceFiles
  | request (i : ι) (task : Task) (kind : Kind)
  /-- The next step of a request. -/
  | advance (i : ι)

section Step

variable [DecidableEq ι]

def System.set (s : System ι) (i : ι) (thread : Option Thread) : System ι :=
  { s with thread := fun j => if j = i then thread else s.thread j }

/-- A request ends with a fault. -/
def System.fail (s : System ι) (i : ι) (task : Task) (fault : Fault) : System ι :=
  { s.set i none with failures := (task, fault) :: s.failures }

/-- A read of a field, and the fault that ends the request where the field is `None`. -/
def System.read (s : System ι) (i : ι) (task : Task) (rest : List Instr) (field : Option ℕ)
    (fault : Fault) : System ι :=
  if field.isNone then s.fail i task fault else s.set i (some ⟨task, rest⟩)

/-- One step of a request. -/
def System.exec (s : System ι) (i : ι) (task : Task) (rest : List Instr) : Instr → System ι
  | .checkIdentity =>
    let changed := s.pinned ≠ some s.files
    let pinned := if changed ∨ s.model.isNone then some s.files else s.pinned
    let rest := if s.model.isSome ∧ changed then .unload :: rest else rest
    { s.set i (some ⟨task, rest⟩) with pinned := pinned }
  | .unload => s.unload.set i (some ⟨task, rest⟩)
  | .load =>
    if s.model.isSome then s.set i (some ⟨task, rest⟩)
    else { s.set i (some ⟨task, rest⟩) with model := some s.files, tokenizer := some s.files }
  | .readModel => s.read i task rest s.model .noModel
  | .checkTokenizer => s.read i task rest s.tokenizer .noTokenizer
  | .takeTokenizer => s.read i task rest s.tokenizer .noEncode

/-- An action; one that is not enabled changes nothing. -/
def step (adapter : Bool) (s : System ι) : Action ι → System ι
  | .wait seconds => { s with now := s.now + seconds }
  | .markActivity => if s.armed then s else { s with lastActivity := s.now }
  | .watch =>
    if s.model.isSome ∧ idleTimeout < s.now - s.lastActivity then { s with armed := true } else s
  | .watchdogUnload => if s.armed then { s.unload with armed := false } else s
  | .replaceFiles => { s with files := s.files + 1 }
  | .request i task kind =>
    if (s.thread i).isNone then s.set i (some ⟨task, program adapter kind⟩) else s
  | .advance i =>
    match s.thread i with
    | none => s
    | some ⟨_, []⟩ => s.set i none
    | some ⟨task, instr :: rest⟩ => s.exec i task rest instr

end Step

/-! ## The schedule -/

/-- What a step is to the model and the tokenizer. -/
inductive Event where
  | load | unload | read

def Instr.event : Instr → Option Event
  | .checkIdentity => none
  | .unload => some .unload
  | .load => some .load
  | .readModel | .checkTokenizer | .takeTokenizer => some .read

def event (s : System ι) : Action ι → Option Event
  | .watchdogUnload => if s.armed then some .unload else none
  | .advance i =>
    match s.thread i with
    | some ⟨_, instr :: _⟩ => instr.event
    | _ => none
  | _ => none

/-- The loads, unloads and reads of a run, in their order. -/
def events [DecidableEq ι] (adapter : Bool) : System ι → List (Action ι) → List Event
  | _, [] => []
  | s, action :: rest => (event s action).toList ++ events adapter (step adapter s action) rest

/-- No read comes between an unload and the next load; `exposed` says whether an unload came last. -/
def guarded : Bool → List Event → Bool
  | _, [] => true
  | _, .unload :: rest => guarded true rest
  | _, .load :: rest => guarded false rest
  | exposed, .read :: rest => !exposed && guarded exposed rest

/-! ## What a step keeps -/

/-- The first step of a request that finds no model is a load. -/
def fresh : List Instr → Bool
  | [] | .load :: _ => true
  | .checkIdentity :: rest | .unload :: rest => fresh rest
  | .readModel :: _ | .checkTokenizer :: _ | .takeTokenizer :: _ => false

theorem fresh_program (adapter : Bool) (kind : Kind) : fresh (program adapter kind) = true := by
  cases adapter with
  | false => cases kind <;> rfl
  | true => cases kind <;> rfl

/-- The model and the tokenizer go together, there is none while an unload came last, and where there
is none although no unload did, every request is still to load. -/
structure Inv (exposed : Bool) (s : System ι) : Prop where
  both : s.model.isSome = s.tokenizer.isSome
  model_eq_none : exposed = true → s.model = none
  fresh : exposed = false → s.model = none → ∀ i thread, s.thread i = some thread →
    fresh thread.rest = true

theorem Inv.start (now files : ℕ) : Inv false (System.start now files : System ι) :=
  ⟨rfl, fun _ => rfl, fun _ _ _ _ h => by cases h⟩

/-- What an event does to whether an unload came last. -/
def after (exposed : Bool) : Option Event → Bool
  | some .load => false
  | some .unload => true
  | _ => exposed

section Step

variable [DecidableEq ι]

theorem System.set_thread_self (s : System ι) (i : ι) (thread : Option Thread) :
    (s.set i thread).thread i = thread := if_pos rfl

theorem System.set_thread_of_ne (s : System ι) {i j : ι} (h : j ≠ i) (thread : Option Thread) :
    (s.set i thread).thread j = s.thread j := if_neg h

variable {s : System ι} {exposed : Bool}

theorem Inv.set (h : Inv exposed s) (i : ι)
    (thread : Option Thread) (hthread : exposed = false → s.model = none → ∀ t, thread = some t →
      Unload.fresh t.rest = true) : Inv exposed (s.set i thread) := by
  refine ⟨h.both, h.model_eq_none, fun he hm j t ht => ?_⟩
  by_cases hj : j = i
  · subst hj
    rw [System.set_thread_self] at ht
    exact hthread he hm t ht
  · rw [System.set_thread_of_ne s hj] at ht
    exact h.fresh he hm j t ht

omit [DecidableEq ι] in
theorem Inv.unload (s : System ι) : Inv true s.unload :=
  ⟨rfl, fun _ => rfl, fun he => by cases he⟩

theorem read_spec {i : ι} {task : Task} {rest : List Instr} {field : Option ℕ} (h : Inv exposed s)
    (hfield : s.model.isSome = field.isSome) (hfresh : exposed = false → s.model ≠ none)
    (fault : Fault) :
    (exposed = true ∧ (s.read i task rest field fault).failures ≠ []) ∨
      (exposed = false ∧ Inv exposed (s.read i task rest field fault) ∧
        (s.read i task rest field fault).failures = s.failures) := by
  cases exposed with
  | true =>
    rw [h.model_eq_none rfl] at hfield
    have hnone : field.isNone = true := by
      cases field with
      | none => rfl
      | some version => cases hfield
    rw [System.read, if_pos hnone]
    exact .inl ⟨rfl, List.cons_ne_nil _ _⟩
  | false =>
    have hmodel := hfresh rfl
    have hsome : ¬field.isNone = true := by
      rw [Option.isNone_iff_eq_none]
      rintro rfl
      exact hmodel (Option.not_isSome_iff_eq_none.mp (by rw [hfield]; exact Bool.false_ne_true))
    rw [System.read, if_neg hsome]
    exact .inr ⟨rfl, h.set i _ fun _ hm => absurd hm hmodel, rfl⟩

/-- A step of a request: it fails at a read while an unload came last, or keeps the invariant. -/
theorem exec_spec {i : ι} {task : Task} {rest : List Instr} {instr : Instr} (h : Inv exposed s)
    (hthread : s.thread i = some ⟨task, instr :: rest⟩) :
    (instr.event = some .read ∧ exposed = true ∧ (s.exec i task rest instr).failures ≠ []) ∨
      (¬(instr.event = some .read ∧ exposed = true) ∧
        Inv (after exposed instr.event) (s.exec i task rest instr) ∧
        (s.exec i task rest instr).failures = s.failures) := by
  have hfresh : exposed = false → s.model = none → fresh (instr :: rest) = true :=
    fun he hm => h.fresh he hm i _ hthread
  have hread : fresh (instr :: rest) = false → exposed = false → s.model ≠ none := by
    intro hr he hm
    rw [hfresh he hm] at hr
    cases hr
  have hreads (fault : Fault) (field : Option ℕ) (hr : fresh (instr :: rest) = false)
      (hfield : s.model.isSome = field.isSome) (hevent : instr.event = some .read)
      (hexec : s.exec i task rest instr = s.read i task rest field fault) :
      (instr.event = some .read ∧ exposed = true ∧ (s.exec i task rest instr).failures ≠ []) ∨
        (¬(instr.event = some .read ∧ exposed = true) ∧
          Inv (after exposed instr.event) (s.exec i task rest instr) ∧
          (s.exec i task rest instr).failures = s.failures) := by
    rw [hexec, hevent]
    rcases read_spec h hfield (hread hr) fault with ⟨he, hfail⟩ | ⟨he, hinv, hfailures⟩
    · exact .inl ⟨rfl, he, hfail⟩
    · refine .inr ⟨fun hc => ?_, hinv, hfailures⟩
      rw [he] at hc
      cases hc.2
  cases instr with
  | checkIdentity =>
    refine .inr ⟨by rintro ⟨⟨⟩, -⟩, ?_, rfl⟩
    have hset := h.set i (some ⟨task, if s.model.isSome ∧ s.pinned ≠ some s.files then
      .unload :: rest else rest⟩) ?_
    · exact ⟨hset.both, hset.model_eq_none, hset.fresh⟩
    · rintro he hm t ⟨⟩
      dsimp only
      split_ifs
      · exact hfresh he hm
      · exact hfresh he hm
  | unload =>
    refine .inr ⟨by rintro ⟨⟨⟩, -⟩, ?_, rfl⟩
    exact (Inv.unload s).set i _ fun he => by cases he
  | load =>
    refine .inr ⟨by rintro ⟨⟨⟩, -⟩, ?_, ?_⟩
    · dsimp only [System.exec]
      split_ifs with hm
      · have hmodel := Option.isSome_iff_ne_none.mp hm
        exact Inv.set ⟨h.both, fun he => (by cases he), fun _ hn => absurd hn hmodel⟩ i _
          fun _ hn => absurd hn hmodel
      · exact ⟨rfl, fun he => (by cases he), fun _ hn => by cases hn⟩
    · dsimp only [System.exec]
      split_ifs
      · rfl
      · rfl
  | readModel => exact hreads .noModel s.model rfl rfl rfl rfl
  | checkTokenizer => exact hreads .noTokenizer s.tokenizer rfl h.both rfl rfl
  | takeTokenizer => exact hreads .noEncode s.tokenizer rfl h.both rfl rfl

/-- **One step**: a read while an unload came last fails, and every other step keeps the invariant and
what has failed. -/
theorem step_spec (h : Inv exposed s) (adapter : Bool) (action : Action ι) :
    (event s action = some .read ∧ exposed = true ∧ (step adapter s action).failures ≠ []) ∨
      (¬(event s action = some .read ∧ exposed = true) ∧
        Inv (after exposed (event s action)) (step adapter s action) ∧
        (step adapter s action).failures = s.failures) := by
  cases action with
  | wait seconds => exact .inr ⟨by rintro ⟨⟨⟩, -⟩, ⟨h.both, h.model_eq_none, h.fresh⟩, rfl⟩
  | markActivity =>
    refine .inr ⟨by rintro ⟨⟨⟩, -⟩, ?_⟩
    rw [step]
    split_ifs
    · exact ⟨h, rfl⟩
    · exact ⟨⟨h.both, h.model_eq_none, h.fresh⟩, rfl⟩
  | watch =>
    refine .inr ⟨by rintro ⟨⟨⟩, -⟩, ?_⟩
    rw [step]
    split_ifs
    · exact ⟨⟨h.both, h.model_eq_none, h.fresh⟩, rfl⟩
    · exact ⟨h, rfl⟩
  | watchdogUnload =>
    rw [event, step]
    split_ifs
    · refine .inr ⟨by rintro ⟨⟨⟩, -⟩, ?_, rfl⟩
      exact ⟨rfl, fun _ => rfl, fun he => by cases he⟩
    · exact .inr ⟨by rintro ⟨⟨⟩, -⟩, h, rfl⟩
  | replaceFiles => exact .inr ⟨by rintro ⟨⟨⟩, -⟩, ⟨h.both, h.model_eq_none, h.fresh⟩, rfl⟩
  | request i task kind =>
    refine .inr ⟨by rintro ⟨⟨⟩, -⟩, ?_⟩
    rw [step]
    split_ifs
    · refine ⟨h.set i _ ?_, rfl⟩
      rintro - - t ⟨⟩
      exact fresh_program adapter kind
    · exact ⟨h, rfl⟩
  | advance i =>
    dsimp only [event, step]
    cases hthread : s.thread i with
    | none => exact .inr ⟨by rintro ⟨⟨⟩, -⟩, h, rfl⟩
    | some thread =>
      obtain ⟨task, _ | ⟨instr, rest⟩⟩ := thread
      · exact .inr ⟨by rintro ⟨⟨⟩, -⟩, h.set i none (by rintro - - t ⟨⟩), rfl⟩
      · exact exec_spec h hthread

theorem failures_read (s : System ι) (i : ι) (task : Task) (rest : List Instr) (field : Option ℕ)
    (fault : Fault) : s.failures <:+ (s.read i task rest field fault).failures := by
  rw [System.read]
  split_ifs
  · exact List.suffix_cons _ _
  · exact List.suffix_rfl

theorem failures_step (adapter : Bool) (s : System ι) (action : Action ι) :
    s.failures <:+ (step adapter s action).failures := by
  cases action with
  | wait seconds => exact List.suffix_rfl
  | markActivity =>
    rw [step]
    split_ifs
    · exact List.suffix_rfl
    · exact List.suffix_rfl
  | watch =>
    rw [step]
    split_ifs
    · exact List.suffix_rfl
    · exact List.suffix_rfl
  | watchdogUnload =>
    rw [step]
    split_ifs
    · exact List.suffix_rfl
    · exact List.suffix_rfl
  | replaceFiles => exact List.suffix_rfl
  | request i task kind =>
    rw [step]
    split_ifs
    · exact List.suffix_rfl
    · exact List.suffix_rfl
  | advance i =>
    dsimp only [step]
    cases s.thread i with
    | none => exact List.suffix_rfl
    | some thread =>
      obtain ⟨task, _ | ⟨instr, rest⟩⟩ := thread
      · exact List.suffix_rfl
      · cases instr with
        | checkIdentity => exact List.suffix_rfl
        | unload => exact List.suffix_rfl
        | load =>
          dsimp only [System.exec]
          split_ifs
          · exact List.suffix_rfl
          · exact List.suffix_rfl
        | readModel => exact failures_read s i task rest _ _
        | checkTokenizer => exact failures_read s i task rest _ _
        | takeTokenizer => exact failures_read s i task rest _ _

/-! ## Every run -/

theorem failures_run (h : Inv exposed s) (hs : s.failures = []) (adapter : Bool)
    (actions : List (Action ι)) :
    (run (step adapter) s actions).failures = [] ↔
      guarded exposed (events adapter s actions) = true := by
  induction actions generalizing s exposed with
  | nil => exact iff_of_true hs rfl
  | cons action rest ih =>
    rw [Runs.run_cons, events]
    rcases step_spec h adapter action with ⟨hread, rfl, hfail⟩ | ⟨hevent, hinv, hsame⟩
    · rw [hread]
      refine iff_of_false ?_ Bool.false_ne_true
      refine Runs.run_invariant (I := fun s : System ι => s.failures ≠ []) (fun s a hs hnil => ?_)
        hfail rest
      have hsuffix := failures_step adapter s a
      rw [hnil] at hsuffix
      exact hs (List.suffix_nil.mp hsuffix)
    · rw [ih hinv (hsame.trans hs)]
      cases hev : event s action with
      | none => rw [Option.toList_none, List.nil_append]; rfl
      | some e =>
        cases e with
        | load => rfl
        | unload => rfl
        | read =>
          have hexposed : exposed = false := Bool.eq_false_iff.mpr fun he => hevent ⟨hev, he⟩
          subst hexposed
          rfl

omit [DecidableEq ι] in
theorem unaffected_iff_failures (s : System ι) : s.Unaffected ↔ s.failures = [] := by
  constructor
  · exact System.Unaffected.failures
  · intro h
    refine ⟨h, ?_, ?_⟩
    · rw [System.blockedEvents, h]
      rfl
    · rw [System.blockedBuilds, h]
      rfl

/-- **Unloads and blocks**: in every run of any number of requests with the watchdog, with files that
are replaced and with identity changes, no request fails, no event is blocked and no build is blocked
exactly when no request reads the model or the tokenizer between an unload and the next load.

Nothing in the code keeps a read out of there: the requests take no lock, and the watchdog goes by the
activity of connections, which a builder does not mark. -/
theorem unaffected_iff (adapter : Bool) (now files : ℕ) (actions : List (Action ι)) :
    (run (step adapter) (System.start now files) actions).Unaffected ↔
      guarded false (events adapter (System.start now files) actions) = true :=
  (unaffected_iff_failures _).trans (failures_run (Inv.start now files) rfl adapter actions)

end Step

/-! ## A builder that is interrupted -/

/-- A delta request loads the model five minutes after the last connection; the watchdog unloads it
before the request reads it, and the event is blocked. -/
theorem unaffected_iff_interrupted : ¬ ∀ actions : List (Action Unit),
    (run (step false) (System.start 0 0) actions).Unaffected := by
  intro h
  have hblocked := (h [.wait 301, .request () ⟨.delta, "e1"⟩ .exact, .advance (), .watch,
    .watchdogUnload, .advance ()]).blockedEvents
  have hreason : (run (step false) (System.start 0 0 : System Unit) [.wait 301,
      .request () ⟨.delta, "e1"⟩ .exact, .advance (), .watch, .watchdogUnload,
      .advance ()]).blockedEvents =
        [("e1", "cannot embed delta event e1: representation failed: model is not loaded")] := by
    decide +kernel
  rw [hreason] at hblocked
  cases hblocked

end SemanticMemory.Unload
