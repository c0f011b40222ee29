import SemanticMemory.Session.Undo

/-!
# What the recorder submits

Over every run of one recorder, whatever keys, selections, commits and aborts come in whatever
order, what it submits are explicit choices between words, numbered on without a gap
(`submissions_lawful`), and a batch is retracted once at most (`retracted_sublist`): the undo window
may stay open too long, but it never undoes one commit twice.
-/

namespace SemanticMemory
namespace Session

open FactStore (Event Status)
open Recorder (SubmitResult)

variable {r : LlmRerankRecorder} {h : History} {input : Input} {out : Submitted}
  {schemaId sessionId : Text} {s s' : RecorderSession}

/-! ## Retractions -/

/-- The retractions are those of accepted commits, in order and each commit at most once, and the
commit of an open window is the last and not retracted. -/
structure Undoable (w : Window) (h : History) : Prop where
  once : (retracted h).Sublist (accepted h)
  opened : w.armed = true →
    ∃ commits, accepted h = commits ++ [w.commitId] ∧ (retracted h).Sublist commits

theorem undoable_step {w : Window} (hstep : WindowStep r input w out) (hu : Undoable r.window h) :
    Undoable w (h ++ [(input, out)]) := by
  have hquiet (hacc : out.accepted = none) (hret : out.retracted = none) :
      accepted (h ++ [(input, out)]) = accepted h ∧
        retracted (h ++ [(input, out)]) = retracted h := by
    simp [accepted, retracted, hacc, hret]
  cases hstep with
  | key | backspace | offCommit | other =>
    obtain ⟨hacc, hret⟩ := hquiet rfl rfl
    exact ⟨hacc ▸ hret ▸ hu.once, hacc ▸ hret ▸ hu.opened⟩
  | close =>
    obtain ⟨hacc, hret⟩ := hquiet rfl rfl
    exact ⟨hacc ▸ hret ▸ hu.once, fun hopen => by cases hopen⟩
  | plainCommit hacc hret =>
    obtain ⟨hacc, hret⟩ := hquiet hacc hret
    exact ⟨hacc ▸ hret ▸ hu.once, fun hopen => by cases hopen⟩
  | @commit ctx env coordinator events result commitId _ hacc =>
    have haccepted : accepted (h ++ [(.commit ctx env coordinator, .batch events result)]) =
        accepted h ++ [commitId] := by
      simp [accepted, hacc]
    have hretracted : retracted (h ++ [(.commit ctx env coordinator, .batch events result)]) =
        retracted h := by
      simp [retracted, Submitted.retracted]
    exact ⟨haccepted ▸ hretracted ▸ hu.once.trans (List.sublist_append_left _ _),
      fun _ => ⟨_, haccepted, hretracted ▸ hu.once⟩⟩
  | @retract key env coordinator result _ hopen _ =>
    obtain ⟨commits, hcommits, hsub⟩ := hu.opened hopen
    refine ⟨?_, fun hopen => by cases hopen⟩
    rw [accepted_append, retracted_append, hcommits]
    exact (hsub.append (.refl [r.retractionCommitId])).trans (List.sublist_append_left _ _)

/-- **No commit is undone twice**, in any run: what is retracted are batches that were accepted, in
their order and each once. -/
theorem retracted_sublist (schemaId : Text) (pageSize : ℤ) (selectKeys : Text)
    (sessionBytes : Fin 16 → Byte) (recordingEnabled : Bool) (openStatus : Status)
    (inputs : List Input) :
    let o := Runs.run observe
      (start (construct schemaId pageSize selectKeys sessionBytes recordingEnabled openStatus))
      inputs
    (retracted o.history).Sublist (accepted o.history) := by
  set r := construct schemaId pageSize selectKeys sessionBytes recordingEnabled openStatus with hr
  have hclosed : r.window.armed = false := by
    rw [hr]
    unfold construct
    cases recordingEnabled <;> cases openStatus <;> rfl
  have hstart : Undoable (start r).recorder.window (start r).history :=
    ⟨List.Sublist.refl [], fun hopen => by cases hclosed.symm.trans hopen⟩
  exact (Runs.run_invariant (I := fun o : Observed => Undoable o.recorder.window o.history)
    (fun o input hu => undoable_step (windowStep o.recorder input) hu) hstart inputs).once

/-! ## Events -/

def Submitted.events : Submitted → List Event
  | .batch events _ => events
  | _ => []

def submitted (h : History) : List Event := h.flatMap fun e => e.2.events

/-- An explicit choice between words of one session: two candidates at least, and the chosen text
among them. -/
structure Chosen (schemaId sessionId : Text) (e : Event) : Prop where
  schema : e.schemaId = schemaId
  session : e.sessionId = sessionId
  word : e.category = ascii "word"
  explicit : e.confirmationSource ≠ ascii "none"
  contested : 2 ≤ e.candidates.length
  among : e.finalSelectionText ∈ e.candidates.map Prod.snd

/-- A tentative event that will be such a fact, whatever its number. -/
def PendingEvent.Choice (schemaId sessionId : Text) (e : PendingEvent) : Prop :=
  ∀ n, Chosen schemaId sessionId (e.fact schemaId n)

/-- What a handler does to the session, and the tentative events it submits. -/
structure SessionStep (s s' : RecorderSession) (events : List Event) : Prop where
  schema : s'.schemaId = s.schemaId
  session : s'.sessionId = s.sessionId
  pending : ∀ e ∈ s'.pending.entries, e ∈ s.pending.entries ∨ e.2.Choice s.schemaId s.sessionId
  events : ∃ valid, (∀ p ∈ valid, p ∈ s.pending.entries.map Prod.snd) ∧
    events = facts s.schemaId s.sessionSeq valid ∧ s'.sessionSeq = s.sessionSeq + valid.length

/-- A handler that submits no event numbers none. -/
theorem SessionStep.quiet (hschema : s'.schemaId = s.schemaId)
    (hsession : s'.sessionId = s.sessionId) (hseq : s'.sessionSeq = s.sessionSeq)
    (hpending : ∀ e ∈ s'.pending.entries,
      e ∈ s.pending.entries ∨ e.2.Choice s.schemaId s.sessionId) : SessionStep s s' [] :=
  ⟨hschema, hsession, hpending, [], List.forall_mem_nil _, rfl, by simpa using hseq⟩

theorem SessionStep.same (s : RecorderSession) : SessionStep s s [] :=
  .quiet rfl rfl rfl fun _ he => .inl he

theorem noteGap_session (result : SubmitResult) (r : LlmRerankRecorder) :
    (noteGap result r).session = (reportGap (faultCodeText result.faultCode) r).session := by
  unfold noteGap
  simp only
  split <;> rfl

theorem mem_foldl_erase {e : ℕ × PendingEvent} {valid : List PendingEvent}
    {m : KeyedMap ℕ PendingEvent}
    (he : e ∈ (valid.foldl (fun pending event => pending.erase event.segmentStart) m).entries) :
    e ∈ m.entries := by
  induction valid generalizing m with
  | nil => exact he
  | cons event valid ih => exact List.mem_of_mem_filter (ih he)

/-- **What `OnSelect` keeps is a choice**, however the selection was confirmed. -/
theorem choice_pendingEvent {env : Env} {text : Text} {seg : Segment} {cand : Candidate}
    {snap : CompetitionSnapshot} (hcontested : contested snap seg cand = true)
    (hexplicit : (confirmation r).2 ≠ .none) :
    (pendingEvent env text seg cand snap r).Choice r.session.schemaId r.session.sessionId := by
  intro n
  unfold contested at hcontested
  rw [Bool.and_eq_true, decide_eq_true_eq, List.any_eq_true] at hcontested
  obtain ⟨htwo, c, hc, htext⟩ := hcontested
  refine ⟨rfl, rfl, rfl, fun hnone => ?_, ?_, ?_⟩
  · change confirmationSourceName (confirmation r).2 = ascii "none" at hnone
    cases hsource : (confirmation r).2 with
    | none => exact hexplicit hsource
    | explicitCurrent | explicitIndexed =>
      rw [hsource] at hnone
      revert hnone
      decide
  · simpa [PendingEvent.fact, pendingEvent] using htwo
  · have htext : c.text = cand.text := by simpa using htext
    simp only [PendingEvent.fact, pendingEvent, List.map_map, List.mem_map]
    exact ⟨c, hc, htext⟩

theorem sessionStep_select (ctx : Context) (env : Env) (r : LlmRerankRecorder) :
    SessionStep r.session (onSelect ctx env r).session [] := by
  unfold onSelect
  split
  · exact .same _
  cases selectedWord ctx with
  | none => exact .same _
  | some word =>
    obtain ⟨seg, cand⟩ := word
    simp only
    cases r.session.snapshots.find? seg.start with
    | none => exact .same _
    | some snap =>
      simp only
      split
      · exact .same _
      · next hkept =>
        rw [not_or, Bool.not_eq_true, Bool.not_eq_false'] at hkept
        refine .quiet rfl rfl rfl fun e he => ?_
        rcases KeyedMap.mem_insertEntry he with rfl | he
        · exact .inr (choice_pendingEvent hkept.1 hkept.2)
        · exact .inl he

theorem sessionStep_commit (ctx : Context) (env : Env) (coordinator : Recorder.Coordinator)
    (r : LlmRerankRecorder) :
    SessionStep r.session (onCommit ctx env coordinator r).1.session
      (onCommit ctx env coordinator r).2.events := by
  have hvalid : ∀ p ∈ validPending ctx r.session, p ∈ r.session.pending.entries.map Prod.snd :=
    fun p hp => List.map_subset _ (List.filter_subset_self _) ((List.mem_insertionSort _).mp hp)
  unfold onCommit
  split
  · exact .same _
  split
  · exact .same _
  simp only
  split
  · exact .quiet rfl rfl rfl fun _ he => (List.not_mem_nil he).elim
  split
  · simp only [noteGap_session]
    exact ⟨rfl, rfl, fun _ he => (List.not_mem_nil he).elim, _, hvalid, rfl, rfl⟩
  · unfold noteHealthy
    simp only
    split <;> exact ⟨rfl, rfl, fun _ he => .inl (mem_foldl_erase he), _, hvalid, rfl, rfl⟩

/-- What an input does to the session, said once for all inputs. -/
theorem sessionStep (r : LlmRerankRecorder) (input : Input) :
    SessionStep r.session (handle r input).1.session (handle r input).2.events := by
  cases input with
  | key key hasMenu =>
    have h : (processKeyEvent key hasMenu r).session = r.session := by
      unfold processKeyEvent noteUndoKey
      simp only
      split_ifs <;> rfl
    exact h.symm ▸ .same _
  | select ctx env => exact sessionStep_select ctx env r
  | commit ctx env coordinator => exact sessionStep_commit ctx env coordinator r
  | abort => exact .quiet rfl rfl rfl fun _ he => (List.not_mem_nil he).elim
  | update ctx =>
    unfold handle onContextUpdate
    simp only
    split
    · exact .quiet rfl rfl rfl fun _ he => (List.not_mem_nil he).elim
    · exact .same _
  | unhandled key env coordinator =>
    unfold handle onUnhandledKey
    simp only
    split_ifs
    · exact .same _
    · exact .same _
    · exact .same _
    · simp only [noteGap_session]
      exact .quiet rfl rfl rfl fun _ he => .inl he
    · unfold noteHealthy
      simp only
      split <;> exact .quiet rfl rfl rfl fun _ he => .inl he
  | pushSnapshot _ | pushApplyRecord _ => exact .quiet rfl rfl rfl fun _ he => .inl he

/-- What a recorder holds and has submitted, in any run. -/
structure Lawful (schemaId sessionId : Text) (o : Observed) : Prop where
  schema : o.recorder.session.schemaId = schemaId
  session : o.recorder.session.sessionId = sessionId
  seq : o.recorder.session.sessionSeq = (submitted o.history).length
  pending : ∀ e ∈ o.recorder.session.pending.entries, e.2.Choice schemaId sessionId
  chosen : ∀ e ∈ submitted o.history, Chosen schemaId sessionId e
  numbered : ∀ (i : ℕ) (e : Event), (submitted o.history)[i]? = some e → e.sessionSeq = i + 1

theorem length_facts (schemaId : Text) (n : ℤ) (valid : List PendingEvent) :
    (facts schemaId n valid).length = valid.length := by
  induction valid generalizing n with
  | nil => rfl
  | cons p valid ih => rw [facts, List.length_cons, ih, List.length_cons]

/-- The event at a place of a batch is that tentative event's, with the next number. -/
theorem getElem?_facts {n : ℤ} {valid : List PendingEvent} {i : ℕ} {e : Event}
    (he : (facts schemaId n valid)[i]? = some e) :
    ∃ p ∈ valid, e = p.fact schemaId (n + i + 1) := by
  induction valid generalizing n i with
  | nil => cases he
  | cons p valid ih =>
    cases i with
    | zero =>
      cases he
      exact ⟨p, List.mem_cons_self, by rw [Nat.cast_zero, add_zero]⟩
    | succ i =>
      obtain ⟨q, hq, rfl⟩ := ih he
      refine ⟨q, List.mem_cons_of_mem _ hq, ?_⟩
      rw [Nat.cast_succ, add_assoc n 1, add_comm 1]

theorem lawful_step {o : Observed} (hl : Lawful schemaId sessionId o) (input : Input) :
    Lawful schemaId sessionId (observe o input) := by
  obtain ⟨rfl, rfl, hseq, hpending, hchosen, hnumbered⟩ := hl
  obtain ⟨hschema, hsession, hpending', valid, hvalid, hevents, hseq'⟩ :=
    sessionStep o.recorder input
  have hsubmitted : submitted (observe o input).history = submitted o.history ++
      facts o.recorder.session.schemaId o.recorder.session.sessionSeq valid := by
    rw [← hevents]
    simp [submitted, observe]
  have hnew (i : ℕ) (e : Event) (he : (facts o.recorder.session.schemaId
      o.recorder.session.sessionSeq valid)[i]? = some e) :
      Chosen o.recorder.session.schemaId o.recorder.session.sessionId e ∧
        e.sessionSeq = (submitted o.history).length + i + 1 := by
    obtain ⟨p, hp, rfl⟩ := getElem?_facts he
    obtain ⟨entry, hentry, rfl⟩ := List.mem_map.mp (hvalid p hp)
    exact ⟨hpending entry hentry _, by rw [← hseq]; rfl⟩
  refine ⟨hschema, hsession, ?_, fun e he => (hpending' e he).elim (hpending e) id,
    fun e he => ?_, fun i e he => ?_⟩
  · rw [hsubmitted, List.length_append, length_facts, Nat.cast_add, ← hseq]
    exact hseq'
  · rw [hsubmitted, List.mem_append] at he
    rcases he with he | he
    · exact hchosen e he
    · obtain ⟨i, he⟩ := List.getElem?_of_mem he
      exact (hnew i e he).1
  · rw [hsubmitted, List.getElem?_append] at he
    split at he
    · exact hnumbered i e he
    · rw [(hnew _ e he).2]
      omega

/-- **What a recorder submits**, in any run: explicit choices between words of its session, numbered
from one on, also where batches were lost in between. -/
theorem submissions_lawful (schemaId : Text) (pageSize : ℤ) (selectKeys : Text)
    (sessionBytes : Fin 16 → Byte) (recordingEnabled : Bool) (openStatus : Status)
    (inputs : List Input) :
    Lawful schemaId (randomUuid sessionBytes) (Runs.run observe
      (start (construct schemaId pageSize selectKeys sessionBytes recordingEnabled openStatus))
      inputs) := by
  refine Runs.run_invariant (I := Lawful schemaId (randomUuid sessionBytes))
    (fun _ input hl => lawful_step hl input) ?_ inputs
  unfold start construct
  cases recordingEnabled <;> cases openStatus <;>
    exact ⟨rfl, rfl, rfl, List.forall_mem_nil _, List.forall_mem_nil _,
      fun _ _ he => (Option.some_ne_none _ he.symm).elim⟩

end Session
end SemanticMemory
