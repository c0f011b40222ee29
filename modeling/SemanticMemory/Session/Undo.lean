import SemanticMemory.Lib.Runs
import SemanticMemory.Session.LlmRerankRecorder

/-!
# Immediate undo

A commit that persisted events opens an undo window, and the next key press decides it: an
unmodified BackSpace that the engine leaves unhandled retracts the commit, everything else closes
the window.  `ImmediateUndo` states this about the history of one recorder.

The recorder keeps it with two flags.  `ProcessKeyEvent` closes the window on every first press but
a BackSpace; that one only sets `retraction_pending_`, and only `OnUnhandledKey` and the next commit
close the window after it.  So a BackSpace that the engine handled leaves the window open, and a
second BackSpace still retracts (`undo_after_handled`).  `Undisturbed` is the condition on a run
under which neither this nor a commit under a pending BackSpace happens, and `immediate_undo` shows
that it is enough.

* `WindowStep` says once what an input can do to the window; `windowStep` proves it of `handle`.
* `Watched` is the invariant, `watched_observe` its step.
-/

namespace SemanticMemory
namespace Session

open FactStore (Event)
open Recorder (Coordinator SubmitResult submitBatch submitRetraction)

/-! ## Reading a history -/

/-- What happened to a recorder, oldest first, with what each input submitted. -/
abbrev History := List (Input × Submitted)

def Input.isCommit : Input → Bool
  | .commit .. => true
  | _ => false

def Input.keyEvent : Input → Option KeyEvent
  | .key k _ => some k
  | _ => none

def Submitted.accepted : Submitted → Option Text
  | .batch _ result => if result.outcome = .gap then none else some result.commitId
  | _ => none

def Submitted.retracted : Submitted → Option Text
  | .retraction commitId _ => some commitId
  | _ => none

/-- The key events that `ProcessKeyEvent` saw. -/
def keys (h : History) : List KeyEvent := h.filterMap fun e => e.1.keyEvent

def presses (h : History) : List KeyEvent := (keys h).filter fun key => !key.release

/-- The accepted event-bearing commits. -/
def accepted (h : History) : List Text := h.filterMap fun e => e.2.accepted

def retracted (h : History) : List Text := h.filterMap fun e => e.2.retracted

/-- What happened after the last commit notification. -/
def sinceCommit (h : History) : History := h.rtakeWhile fun e => !e.1.isCommit

@[simp] theorem keys_append (h h' : History) : keys (h ++ h') = keys h ++ keys h' :=
  List.filterMap_append

@[simp] theorem presses_append (h h' : History) : presses (h ++ h') = presses h ++ presses h' := by
  rw [presses, keys_append, List.filter_append]
  rfl

@[simp] theorem accepted_append (h h' : History) :
    accepted (h ++ h') = accepted h ++ accepted h' :=
  List.filterMap_append

@[simp] theorem retracted_append (h h' : History) :
    retracted (h ++ h') = retracted h ++ retracted h' :=
  List.filterMap_append

theorem sinceCommit_commit (h : History) {e : Input × Submitted} (he : e.1.isCommit = true) :
    sinceCommit (h ++ [e]) = [] :=
  List.rtakeWhile_concat_neg _ _ _ (by simp [he])

theorem sinceCommit_concat (h : History) {e : Input × Submitted} (he : e.1.isCommit = false) :
    sinceCommit (h ++ [e]) = sinceCommit h ++ [e] :=
  List.rtakeWhile_concat_pos _ _ _ (by simp [he])

/-! ## The contract -/

/-- Everything that had happened when a retraction of `commitId` was submitted for `key`: an
accepted event-bearing commit under that identifier, and after it no other commit, no retraction
and no key press but that of `key`, an unmodified BackSpace. -/
structure Undone (h : History) (key : KeyEvent) (commitId : Text) : Prop where
  plain : isPlainBackspace key = true
  firstPress : presses (sinceCommit h) = [key]
  unretracted : retracted (sinceCommit h) = []
  lastCommit : ∃ h₀ e, h = h₀ ++ e :: sinceCommit h ∧ e.1.isCommit = true ∧
    e.2.accepted = some commitId

/-- **The immediate undo contract.**  The retractions are those of accepted event-bearing commits,
in order and each commit at most once, and every one is the undo of the commit just before by the
first key pressed after it, reported unhandled. -/
structure ImmediateUndo (h : History) : Prop where
  once : (retracted h).Sublist (accepted h)
  undone : ∀ h₀ input commitId result t,
    h = h₀ ++ (input, .retraction commitId result) :: t →
    ∃ key env coordinator, input = .unhandled key env coordinator ∧ Undone h₀ key commitId

/-- An unhandled notification follows the `ProcessKeyEvent` of its key. -/
def Follows (o : Observed) : Input → Prop
  | .unhandled key _ _ => (keys o.history).getLast? = some key
  | _ => True

/-- The commit has valid tentative events and the coordinator takes them. -/
def takesCommit (ctx : Context) (env : Env) (coordinator : Coordinator) (r : LlmRerankRecorder) :
    Bool :=
  let valid := validPending ctx r.session
  let events := facts r.session.schemaId r.session.sessionSeq valid
  r.recordingEnabled && valid ≠ [] &&
    (submitBatch env.nowMs events (randomUuid env.randomBytes) coordinator).2.outcome ≠ .gap

/-- No BackSpace is pressed into an open window except as the first press after the commit, and no
commit is taken between a BackSpace pressed into an open window and the next key event. -/
def Undisturbed (o : Observed) : Input → Prop
  | .key key _ => isPlainBackspace key = true → o.recorder.retractionArmed = true →
      presses (sinceCommit o.history) = []
  | .commit ctx env coordinator => o.recorder.retractionPending = true →
      takesCommit ctx env coordinator o.recorder = false
  | _ => True

/-! ## What an input does to the window -/

/-- The part of the recorder the undo depends on. -/
structure Window where
  armed : Bool
  pending : Bool
  commitId : Text
  enabled : Bool

def LlmRerankRecorder.window (r : LlmRerankRecorder) : Window :=
  ⟨r.retractionArmed, r.retractionPending, r.retractionCommitId, r.recordingEnabled⟩

variable {key : KeyEvent}

theorem not_release_of_isPlainBackspace (h : isPlainBackspace key = true) :
    key.release = false := by
  have hm : key.modifier &&& ~~~kShiftMask = 0 := by
    simpa using (Bool.and_eq_true_iff.mp h).2
  have hr : key.modifier &&& kReleaseMask = 0 := by
    rw [show kReleaseMask = ~~~kShiftMask &&& kReleaseMask from by decide, ← BitVec.and_assoc, hm]
    exact BitVec.zero_and
  simp [KeyEvent.release, hr]

/-- What an input can do to the window, and what it submits then. -/
inductive WindowStep (r : LlmRerankRecorder) : Input → Window → Submitted → Prop
  /-- A key event under which the window neither opens nor closes. -/
  | key {key hasMenu} (h : key.release = true ∨ r.retractionArmed = false) :
    WindowStep r (.key key hasMenu) { r.window with pending := false } .nothing
  /-- A BackSpace pressed into the open window. -/
  | backspace {key hasMenu} (hkey : isPlainBackspace key = true) (ha : r.retractionArmed = true) :
    WindowStep r (.key key hasMenu) { r.window with pending := true } .nothing
  /-- Any other key pressed into it. -/
  | close {key hasMenu} :
    WindowStep r (.key key hasMenu) { r.window with armed := false, pending := false } .nothing
  | commit {ctx env coordinator events result commitId}
      (htake : takesCommit ctx env coordinator r = true)
      (hres : (Submitted.batch events result).accepted = some commitId) :
    WindowStep r (.commit ctx env coordinator) { r.window with armed := true, commitId := commitId }
      (.batch events result)
  /-- A commit without events, or one whose events are lost. -/
  | plainCommit {ctx env coordinator out} (hacc : out.accepted = none)
      (hret : out.retracted = none) :
    WindowStep r (.commit ctx env coordinator) { r.window with armed := false } out
  | offCommit {ctx env coordinator} (hoff : r.recordingEnabled = false) :
    WindowStep r (.commit ctx env coordinator) r.window .nothing
  | retract {key env coordinator result} (hkey : key.release = false)
      (ha : r.retractionArmed = true) (hp : r.retractionPending = true) :
    WindowStep r (.unhandled key env coordinator)
      { r.window with armed := false, pending := false }
      (.retraction r.retractionCommitId result)
  /-- Everything else leaves the window alone. -/
  | other {input} (hcommit : input.isCommit = false) (hkey : input.keyEvent = none) :
    WindowStep r input r.window .nothing

/-- Reporting a gap writes only the session. -/
theorem noteGap_eq (result : SubmitResult) (r : LlmRerankRecorder) :
    ∃ session, noteGap result r = { r with session } := by
  unfold noteGap
  simp only [not_isFatalRecordingFault_faultCodeText]
  exact ⟨_, rfl⟩

theorem noteHealthy_eq (r : LlmRerankRecorder) :
    ∃ session, noteHealthy r = { r with session } := by
  unfold noteHealthy
  split
  · exact ⟨_, rfl⟩
  · exact ⟨r.session, rfl⟩

theorem windowStep_key (key : KeyEvent) (hasMenu : Bool) (r : LlmRerankRecorder) :
    WindowStep r (.key key hasMenu) (processKeyEvent key hasMenu r).window .nothing := by
  have hwindow : (processKeyEvent key hasMenu r).window = (noteUndoKey key r).window := by
    unfold processKeyEvent
    simp only
    split <;> rfl
  rw [hwindow]
  unfold noteUndoKey
  simp only
  split
  · rename_i h
    split
    · rename_i hkey
      exact .backspace hkey h.2
    · exact .close
  · rename_i h
    refine .key ?_
    rw [not_and_or] at h
    simpa using h

theorem windowStep_commit (ctx : Context) (env : Env) (coordinator : Coordinator)
    (r : LlmRerankRecorder) :
    WindowStep r (.commit ctx env coordinator) (onCommit ctx env coordinator r).1.window
      (onCommit ctx env coordinator r).2 := by
  unfold onCommit
  split
  · rename_i hoff
    exact .offCommit (by simpa using hoff)
  · rename_i hon
    split
    · exact .plainCommit rfl rfl
    · simp only
      split
      · exact .plainCommit rfl rfl
      · rename_i hvalid
        split
        · rename_i hgap
          obtain ⟨session, hs⟩ := noteGap_eq
            (submitBatch env.nowMs (facts r.session.schemaId r.session.sessionSeq
              (validPending ctx r.session)) (randomUuid env.randomBytes) coordinator).2
            { r with session := { r.session with
              sessionSeq := r.session.sessionSeq + (validPending ctx r.session).length } }
          rw [hs]
          exact .plainCommit (by simp [Submitted.accepted, hgap]) rfl
        · rename_i hgap
          obtain ⟨session, hs⟩ := noteHealthy_eq
            { r with session := { r.session with
              sessionSeq := r.session.sessionSeq + (validPending ctx r.session).length } }
          rw [hs]
          refine .commit ?_ (by simp [Submitted.accepted, hgap])
          simpa [takesCommit, hvalid, hgap] using hon

theorem windowStep_unhandled (key : KeyEvent) (env : Env) (coordinator : Coordinator)
    (r : LlmRerankRecorder) :
    WindowStep r (.unhandled key env coordinator) (onUnhandledKey key env coordinator r).1.window
      (onUnhandledKey key env coordinator r).2 := by
  unfold onUnhandledKey
  split
  · exact .other rfl rfl
  · rename_i hkey
    split
    · exact .other rfl rfl
    · rename_i hopen
      split
      · exact .other rfl rfl
      · simp only [not_or, Bool.not_eq_true, Bool.not_eq_false'] at hkey hopen
        simp only
        split
        · obtain ⟨session, hs⟩ := noteGap_eq
            (submitRetraction r.retractionCommitId env.nowMs coordinator).2
            { r with retractionPending := false, retractionArmed := false }
          rw [hs]
          exact .retract hkey hopen.2 hopen.1
        · obtain ⟨session, hs⟩ := noteHealthy_eq
            { r with retractionPending := false, retractionArmed := false }
          rw [hs]
          exact .retract hkey hopen.2 hopen.1

theorem onSelect_window (ctx : Context) (env : Env) (r : LlmRerankRecorder) :
    (onSelect ctx env r).window = r.window := by
  unfold onSelect
  split
  · rfl
  · cases selectedWord ctx with
    | none => rfl
    | some word =>
      obtain ⟨seg, cand⟩ := word
      simp only
      cases r.session.snapshots.find? seg.start with
      | none => rfl
      | some snap =>
        simp only
        split <;> rfl

/-- What an input does to the window, said once for all inputs. -/
theorem windowStep (r : LlmRerankRecorder) (input : Input) :
    WindowStep r input (handle r input).1.window (handle r input).2 := by
  cases input with
  | key key hasMenu => exact windowStep_key key hasMenu r
  | select ctx env =>
    rw [show (handle r (.select ctx env)).1 = onSelect ctx env r from rfl, onSelect_window]
    exact .other rfl rfl
  | commit ctx env coordinator => exact windowStep_commit ctx env coordinator r
  | abort => exact .other rfl rfl
  | update ctx =>
    have h : (onContextUpdate ctx r).window = r.window := by
      unfold onContextUpdate
      split <;> rfl
    rw [show (handle r (.update ctx)).1 = onContextUpdate ctx r from rfl, h]
    exact .other rfl rfl
  | unhandled key env coordinator => exact windowStep_unhandled key env coordinator r
  | pushSnapshot snapshot => exact .other rfl rfl
  | pushApplyRecord record => exact .other rfl rfl

/-! ## The invariant -/

/-- The window of `commitId` is open after `h`: the last accepted commit is not retracted yet, and
nothing was committed or retracted since. -/
structure Open (h : History) (commitId : Text) : Prop where
  unretracted : retracted (sinceCommit h) = []
  lastCommit : ∃ h₀ e, h = h₀ ++ e :: sinceCommit h ∧ e.1.isCommit = true ∧
    e.2.accepted = some commitId
  once : ∃ l, accepted h = l ++ [commitId] ∧ (retracted h).Sublist l

/-- What holds of a recorder and its history in every undisturbed run. -/
structure Watched (w : Window) (h : History) : Prop where
  undo : ImmediateUndo h
  enabled : w.armed = true → w.enabled = true
  opened : w.armed = true → Open h w.commitId
  pressed : w.armed = true → w.pending = true →
    ∃ key, presses (sinceCommit h) = [key] ∧ isPlainBackspace key = true

/-- Where a split of an extended history lies. -/
theorem concat_eq_append_cons {α : Type*} {h h₀ t : List α} {e x : α}
    (heq : h ++ [e] = h₀ ++ x :: t) :
    h = h₀ ∧ e = x ∧ t = [] ∨ ∃ t', h = h₀ ++ x :: t' ∧ t = t' ++ [e] := by
  rcases List.eq_nil_or_concat t with rfl | ⟨t', y, rfl⟩
  · obtain ⟨h1, h2⟩ := List.append_inj' heq rfl
    exact Or.inl ⟨h1, List.singleton_inj.mp h2, rfl⟩
  · rw [List.concat_eq_append, ← List.cons_append, ← List.append_assoc] at heq
    obtain ⟨h1, h2⟩ := List.append_inj' heq rfl
    exact Or.inr ⟨t', h1, by rw [List.concat_eq_append, List.singleton_inj.mp h2]⟩

variable {h : History} {input : Input}

/-- An entry that retracts nothing keeps the contract. -/
theorem ImmediateUndo.concat (hu : ImmediateUndo h) {out : Submitted}
    (hout : out.retracted = none) : ImmediateUndo (h ++ [(input, out)]) where
  once := by
    have hr : retracted [(input, out)] = [] := by simp [retracted, hout]
    rw [retracted_append, accepted_append, hr, List.append_nil]
    exact hu.once.trans (List.sublist_append_left _ _)
  undone := by
    intro h₀ input' commitId result t heq
    rcases concat_eq_append_cons heq with ⟨-, he, -⟩ | ⟨t', rfl, -⟩
    · rw [(Prod.mk.inj he).2] at hout
      cases hout
    · exact hu.undone h₀ input' commitId result t' rfl

variable {commitId : Text}

/-- So does the retraction of an open window by its first press. -/
theorem ImmediateUndo.concat_retraction (hu : ImmediateUndo h) (hopen : Open h commitId)
    (hplain : isPlainBackspace key = true) (hpress : presses (sinceCommit h) = [key]) (env : Env)
    (coordinator : Coordinator) (result : SubmitResult) :
    ImmediateUndo (h ++ [(.unhandled key env coordinator, .retraction commitId result)]) where
  once := by
    obtain ⟨l, hl, hsub⟩ := hopen.once
    rw [retracted_append, accepted_append, hl]
    exact (hsub.append (List.Sublist.refl [commitId])).trans (List.sublist_append_left _ _)
  undone := by
    intro h₀ input commitId' result' t heq
    rcases concat_eq_append_cons heq with ⟨rfl, he, -⟩ | ⟨t', rfl, -⟩
    · obtain ⟨rfl, hout⟩ := Prod.mk.inj he
      cases hout
      exact ⟨key, env, coordinator, rfl, hplain, hpress, hopen.unretracted, hopen.lastCommit⟩
    · exact hu.undone h₀ input commitId' result' t' rfl

/-- An open window stays open under an entry that neither commits nor retracts. -/
theorem Open.concat (hopen : Open h commitId) (hcommit : input.isCommit = false) :
    Open (h ++ [(input, .nothing)]) commitId where
  unretracted := by
    rw [sinceCommit_concat h hcommit, retracted_append, hopen.unretracted]
    rfl
  lastCommit := by
    obtain ⟨h₀, e, heq, he⟩ := hopen.lastCommit
    refine ⟨h₀, e, ?_, he⟩
    rw [sinceCommit_concat h hcommit]
    conv_lhs => rw [heq]
    simp
  once := by
    obtain ⟨l, hl, hsub⟩ := hopen.once
    refine ⟨l, ?_, ?_⟩
    · rw [accepted_append, hl]
      exact List.append_nil _
    · rw [retracted_append]
      exact (List.append_nil (retracted h)).symm ▸ hsub

theorem Open.of_commit (hu : ImmediateUndo h)
    (hcommit : input.isCommit = true) {events : List Event} {result : SubmitResult} (hacc : (Submitted.batch events result).accepted = some commitId) :
    Open (h ++ [(input, .batch events result)]) commitId where
  unretracted := by rw [sinceCommit_commit h hcommit]; rfl
  lastCommit := ⟨h, _, by rw [sinceCommit_commit h hcommit], hcommit, hacc⟩
  once := by
    have hnew : accepted [(input, .batch events result)] = [commitId] := by
      simp [accepted, hacc]
    refine ⟨accepted h, by rw [accepted_append, hnew], ?_⟩
    rw [retracted_append]
    exact (List.append_nil (retracted h)).symm ▸ hu.once

theorem getLast?_presses (hlast : (keys h).getLast? = some key) (hkey : key.release = false) :
    (presses h).getLast? = some key := by
  obtain ⟨l, hl⟩ := List.getLast?_eq_some_iff.mp hlast
  rw [presses, hl, List.filter_append]
  simp [hkey]

theorem Open.press_eq (hopen : Open h commitId) {key key' : KeyEvent}
    (hpress : presses (sinceCommit h) = [key']) (hlast : (keys h).getLast? = some key)
    (hkey : key.release = false) : key' = key := by
  obtain ⟨h₀, e, heq, -⟩ := hopen.lastCommit
  have hp := getLast?_presses hlast hkey
  rw [heq, ← List.singleton_append, ← List.append_assoc, presses_append, hpress] at hp
  simpa using hp

/-- **The step lemma.**  An undisturbed input keeps the invariant. -/
theorem watched_step {r : LlmRerankRecorder} {w : Window} {out : Submitted}
    (hstep : WindowStep r input w out) (hf : Follows ⟨r, h⟩ input) (hu : Undisturbed ⟨r, h⟩ input)
    (hw : Watched r.window h) : Watched w (h ++ [(input, out)]) := by
  cases hstep with
  | @key key hasMenu hclosed =>
    refine ⟨hw.undo.concat rfl, hw.enabled, fun ha => (hw.opened ha).concat rfl, ?_⟩
    exact fun _ hp => nomatch hp
  | @backspace key hasMenu hkey ha =>
    refine ⟨hw.undo.concat rfl, hw.enabled, fun ha => (hw.opened ha).concat rfl, fun _ _ => ?_⟩
    have hfirst : presses (sinceCommit h) = [] := hu hkey ha
    refine ⟨key, ?_, hkey⟩
    rw [sinceCommit_concat h rfl, presses_append, hfirst]
    simp [presses, keys, Input.keyEvent, not_release_of_isPlainBackspace hkey]
  | close => exact ⟨hw.undo.concat rfl, nofun, nofun, nofun⟩
  | commit htake hacc =>
    have hidle : r.retractionPending = false := by
      by_contra hp
      rw [hu (by simpa using hp)] at htake
      cases htake
    refine ⟨hw.undo.concat rfl, fun _ => ?_, fun _ => .of_commit hw.undo rfl hacc,
      fun _ hp => ?_⟩
    · simp only [takesCommit, Bool.and_eq_true] at htake
      exact htake.1.1
    · rw [show r.window.pending = r.retractionPending from rfl, hidle] at hp
      cases hp
  | plainCommit _ hret => exact ⟨hw.undo.concat hret, nofun, nofun, nofun⟩
  | offCommit hoff =>
    have hclosed : r.window.armed ≠ true := fun ha => by
      have := hw.enabled ha
      rw [show r.window.enabled = r.recordingEnabled from rfl, hoff] at this
      cases this
    exact ⟨hw.undo.concat rfl, fun ha => absurd ha hclosed, fun ha => absurd ha hclosed,
      fun ha => absurd ha hclosed⟩
  | @retract key env coordinator result hkey ha hp =>
    obtain ⟨key', hpress, hplain⟩ := hw.pressed ha hp
    obtain rfl := (hw.opened ha).press_eq hpress hf hkey
    exact ⟨hw.undo.concat_retraction (hw.opened ha) hplain hpress env coordinator result, nofun,
      nofun, nofun⟩
  | other hcommit hkey =>
    refine ⟨hw.undo.concat rfl, hw.enabled, fun ha => (hw.opened ha).concat hcommit,
      fun ha hp => ?_⟩
    obtain ⟨key, hpress, hplain⟩ := hw.pressed ha hp
    refine ⟨key, ?_, hplain⟩
    rw [sinceCommit_concat h hcommit, presses_append, hpress]
    simp [presses, keys, hkey]

/-! ## The result -/

def start (r : LlmRerankRecorder) : Observed := { recorder := r }

/-- **Immediate undo.**  In every run of a recorder in which an unhandled notification follows the
`ProcessKeyEvent` of its key, no BackSpace is pressed into an open window but as its first press,
and no commit is taken under a pending BackSpace, every retraction is the undo of the commit just
before by the first key pressed after it, a BackSpace reported unhandled, and no commit is retracted
twice. -/
theorem immediate_undo (schemaId : Text) (pageSize : ℤ) (selectKeys : Text)
    (sessionBytes : Fin 16 → Byte) (recordingEnabled : Bool) (openStatus : FactStore.Status)
    (inputs : List Input)
    (hfollows : Runs.Along observe Follows
      (start (construct schemaId pageSize selectKeys sessionBytes recordingEnabled openStatus))
      inputs)
    (hundisturbed : Runs.Along observe Undisturbed
      (start (construct schemaId pageSize selectKeys sessionBytes recordingEnabled openStatus))
      inputs) :
    ImmediateUndo (Runs.run observe
      (start (construct schemaId pageSize selectKeys sessionBytes recordingEnabled openStatus))
      inputs).history := by
  set o := start (construct schemaId pageSize selectKeys sessionBytes recordingEnabled openStatus)
    with ho
  have hclosed : o.recorder.window.armed = false := by
    rw [ho]
    unfold construct
    cases recordingEnabled <;> cases openStatus <;> rfl
  have hstart : Watched o.recorder.window o.history :=
    ⟨⟨List.Sublist.refl _, fun h₀ _ _ _ t heq => by simp [ho, start] at heq⟩,
      fun ha => by simp [hclosed] at ha, fun ha => by simp [hclosed] at ha,
      fun ha => by simp [hclosed] at ha⟩
  refine (Runs.run_invariant_along
    (I := fun o => Watched o.recorder.window o.history) ?_ hstart
    (Runs.along_and.mpr ⟨hfollows, hundisturbed⟩)).undo
  exact fun o input hc hw => watched_step (windowStep o.recorder input) hc.1 hc.2 hw

/-! ## Runs -/

instance (o : Observed) : ∀ input, Decidable (Follows o input)
  | .unhandled key _ _ => inferInstanceAs (Decidable ((keys o.history).getLast? = some key))
  | .key .. | .select .. | .commit .. | .abort | .update _ | .pushSnapshot _
  | .pushApplyRecord _ => isTrue trivial

instance (o : Observed) : ∀ input, Decidable (Undisturbed o input)
  | .key key _ => inferInstanceAs (Decidable (isPlainBackspace key = true →
      o.recorder.retractionArmed = true → presses (sinceCommit o.history) = []))
  | .commit ctx env coordinator =>
    inferInstanceAs (Decidable (o.recorder.retractionPending = true →
      takesCommit ctx env coordinator o.recorder = false))
  | .unhandled .. | .select .. | .abort | .update _ | .pushSnapshot _
  | .pushApplyRecord _ => isTrue trivial

/-- The composition `ni`, its second candidate selected. -/
def sampleContext : Context where
  input := ascii "ni"
  composition := [
    { start := 0, end_ := 2, status := .selected, selectedIndex := 1
      selectedCandidate := some { type := ascii "table", start := 0, end_ := 2, text := ascii "b" } }]
  hasMenu := true

/-- A window of two words, the key `2`, the selection it makes, and the commit. -/
def selectAndCommit : List Input :=
  [.pushSnapshot { candidates := [
      { start := 0, end_ := 2, category := ascii "word", text := ascii "a" },
      { mergeOrder := 1, start := 0, end_ := 2, category := ascii "word", text := ascii "b" }] },
    .key { keycode := 0x32 } true, .select sampleContext {}, .commit sampleContext {} {},
    .update {}]

def backspace : Input := .key { keycode := xkBackSpace } false

def unhandledBackspace : Input := .unhandled { keycode := xkBackSpace } {} {}

def recording : Observed := start (construct (ascii "luna_pinyin") 5 [] (fun _ => 0) true .ok)

/-- The plain case: the commit is undone. -/
theorem immediate_undo_sample :
    ImmediateUndo (Runs.run observe recording
      (selectAndCommit ++ [backspace, unhandledBackspace])).history ∧
    retracted (Runs.run observe recording
      (selectAndCommit ++ [backspace, unhandledBackspace])).history =
        [randomUuid fun _ => 0] :=
  ⟨immediate_undo _ _ _ _ _ _ _ (by decide) (by decide), by decide⟩

theorem ImmediateUndo.last {o : Observed} {inputs : List Input}
    (hu : ImmediateUndo (Runs.run observe o (inputs ++ [input])).history)
    (hret : (handle (Runs.run observe o inputs).recorder input).2.retracted.isSome = true) :
    (presses (sinceCommit (Runs.run observe o inputs).history)).length = 1 := by
  rw [Runs.run_concat] at hu
  cases hout : (handle (Runs.run observe o inputs).recorder input).2 with
  | retraction commitId result =>
    obtain ⟨key, env, coordinator, -, hundone⟩ :=
      hu.undone (Runs.run observe o inputs).history input commitId result []
        (by simp [observe, hout])
    rw [hundone.firstPress]
    rfl
  | nothing => simp [hout, Submitted.retracted] at hret
  | batch events result => simp [hout, Submitted.retracted] at hret

/-- **The contract fails** when the engine handles the first BackSpace and not the second, and when
a commit is taken while a BackSpace is pending. -/
theorem undo_disturbed :
    (Runs.Along observe Follows recording
        (selectAndCommit ++ [backspace, backspace] ++ [unhandledBackspace]) ∧
      ¬ ImmediateUndo (Runs.run observe recording
        (selectAndCommit ++ [backspace, backspace] ++ [unhandledBackspace])).history) ∧
    (Runs.Along observe Follows recording
        (selectAndCommit ++ [backspace] ++ selectAndCommit.eraseIdx 1 ++ [unhandledBackspace]) ∧
      ¬ ImmediateUndo (Runs.run observe recording
        (selectAndCommit ++ [backspace] ++ selectAndCommit.eraseIdx 1 ++
          [unhandledBackspace])).history) := by
  refine ⟨⟨by decide, fun hu => ?_⟩, by decide, fun hu => ?_⟩
  · exact absurd (hu.last (by decide)) (by decide)
  · exact absurd (hu.last (by decide)) (by decide)

end Session
end SemanticMemory
