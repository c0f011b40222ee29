import Mathlib
import SemanticMemory.Lib.KeyedMap
import SemanticMemory.Lib.Runs
import SemanticMemory.Lib.Windows
import SemanticMemory.Tracing.Faults

/-!
# Exit alarms

The three alarms that suggest to leave the trial, of `daemon/tracing.py`: `_evaluate_alarms` with
its evaluators, `_fire_alarm`, and the calls around them, `record_request`, `record_annotation` and
`dismiss_alarm`.

## What is modelled, and how

* Of the index there is the kind and the sequence number of a request, of the aggregates what the
  evaluators read, of an annotation its request and of an alarm its identity and whether it is
  dismissed; the details and texts are left out.
* A payload that is refused is an exception before anything is written that an evaluator reads.
* A latency is a finite float, and only its order counts.  The percentiles of 300 samples are the
  285th and the 297th, and a rate of more than one in a hundred is four faults in 300.
* `history` and `returned` are histories: the requests that were recorded and the alarms that were
  returned as newly fired.

An alarm of a kind is on record from the first call after which the whole history has a qualifying
window, `onRecord_run`.  But the call that finds the window again returns the alarm again, or fires
another where it was dismissed.  So the alarms fire once when no window of a kind that is on record
is found again, and only then: `firesOnce_iff`.
-/

namespace SemanticMemory.Tracing.Exit

open Json (units)
open Windows (last HasWindow)

/-! ## The store -/

inductive Outcome where
  | ok
  | fault (code : Str)
  deriving DecidableEq

def Outcome.name : Outcome → Str
  | .ok => units "ok"
  | .fault code => code

/-- `trace_payload`: there is none, its check raises, or it is written. -/
inductive Payload where
  | absent | refused | written
  deriving DecidableEq

/-- A request id that `_safe_name` takes. -/
abbrev RequestId := {s : Str // safeName (.str s) = some s}

/-- What `record_request` is given. -/
structure Request where
  requestId : RequestId
  completeComparable : Bool := false
  outcome : Outcome := .ok
  payload : Payload := .absent
  /-- `full_request_ms`, where it is a finite number. -/
  fullRequestMs : Option ℚ := none

/-- An entry of `index.json`. -/
structure IndexEntry where
  kind : Str
  actionableSeq : Option ℕ := none

inductive AlarmKind where
  | mispromotionRate | faultRate | latencyGate
  deriving DecidableEq

/-- An alarm; its id is its kind and when it was fired. -/
structure Alarm where
  kind : AlarmKind
  firedMs : ℤ
  dismissed : Bool := false

structure AlarmStore where
  index : KeyedMap Str IndexEntry := {}
  actionableSeq : ℕ := 0
  recentOutcomes : List Outcome := []
  recentFullLatencies : List ℚ := []
  /-- The requests of the annotations, the oldest first. -/
  annotations : List Str := []
  alarms : List Alarm := []

def latencyWindow : ℕ := 300

/-! ## Writing -/

/-- `_write_index_entry`. -/
def AlarmStore.putIndex (store : AlarmStore) (id : Str) (entry : IndexEntry) : AlarmStore :=
  if reserved id then store else { store with index := store.index.insert id entry }

def AlarmStore.indexTrace (store : AlarmStore) (r : Request) : AlarmStore :=
  store.putIndex r.requestId
    { kind := if r.outcome = .ok then units "order_change" else r.outcome.name }

def AlarmStore.indexCompleteComparable (store : AlarmStore) (r : Request) (seq : ℕ) : AlarmStore :=
  store.putIndex r.requestId
    { kind := ((store.index.find? r.requestId).map IndexEntry.kind).getD r.outcome.name
      actionableSeq := some seq }

def AlarmStore.updateAggregates (store : AlarmStore) (r : Request) : AlarmStore :=
  let store :=
    if r.completeComparable then
      { store.indexCompleteComparable r (store.actionableSeq + 1) with
        actionableSeq := store.actionableSeq + 1 }
    else store
  { store with
    recentOutcomes := last faultWindow (store.recentOutcomes ++ [r.outcome])
    recentFullLatencies :=
      match r.fullRequestMs with
      | none => store.recentFullLatencies
      | some full => last (2 * latencyWindow) (store.recentFullLatencies ++ [full]) }

/-! ## Evaluating -/

/-- The sequence numbers of the confirmed requests. -/
def AlarmStore.confirmed (store : AlarmStore) : List ℕ :=
  (store.annotations.filterMap fun id =>
    (store.index.find? id).bind IndexEntry.actionableSeq).filter (0 < ·)

/-- Three in a row of an ordered list span at most 100. -/
def someTriple : List ℕ → Bool
  | x :: y :: z :: ordered => z - x + 1 ≤ mispromotionWindow || someTriple (y :: z :: ordered)
  | _ => false

/-- The condition of `_mispromotion_alarm`. -/
def mispromotionAlarm (confirmed : List ℕ) : Bool :=
  if confirmed.length < 3 then false else someTriple (confirmed.insertionSort (· ≤ ·))

/-- More than one outcome in a hundred is a fault. -/
def exceedsRate (chunk : List Outcome) : Bool :=
  chunk.length < 100 * chunk.countP (· ≠ .ok)

/-- The condition of `_fault_rate_alarm`. -/
def faultRateAlarm (ring : List Outcome) : Bool :=
  if ring.length < faultWindow then false
  else (List.range (ring.length - faultWindow + 1)).any fun start =>
    exceedsRate ((ring.drop start).take faultWindow)

def percentile (ordered : List ℚ) (q : ℚ) : Option ℚ :=
  ordered[min (⌈q * ordered.length⌉.toNat - 1) (ordered.length - 1)]?

/-- A window misses the gate of p95 or that of p99. -/
def misses (chunk : List ℚ) : Bool :=
  let ordered := chunk.insertionSort (· ≤ ·)
  (percentile ordered (95 / 100)).any (50 < ·) || (percentile ordered (99 / 100)).any (75 < ·)

def missStarts (ring : List ℚ) : List ℕ :=
  (List.range (ring.length - latencyWindow + 1)).filter fun start =>
    misses ((ring.drop start).take latencyWindow)

/-- The condition of `_latency_alarm`. -/
def latencyAlarm (ring : List ℚ) : Bool :=
  if ring.length < latencyWindow + 1 then false
  else ((missStarts ring).zip (missStarts ring).tail).any fun p => p.2 = p.1 + 1

def AlarmStore.evaluator (store : AlarmStore) : AlarmKind → Bool
  | .mispromotionRate => mispromotionAlarm store.confirmed
  | .faultRate => faultRateAlarm store.recentOutcomes
  | .latencyGate => latencyAlarm store.recentFullLatencies

/-- `_fire_alarm`: the alarm, and the alarms on record. -/
def fireAlarm (nowMs : ℤ) (kind : AlarmKind) (alarms : List Alarm) : Alarm × List Alarm :=
  match alarms.find? fun alarm => alarm.kind = kind && !alarm.dismissed with
  | some alarm => (alarm, alarms)
  | none => (⟨kind, nowMs, false⟩, alarms ++ [⟨kind, nowMs, false⟩])

/-- One kind of `_evaluate_alarms`: the alarms on record and the ones to return. -/
def fireKind (store : AlarmStore) (nowMs : ℤ) (s : List Alarm × List Alarm) (kind : AlarmKind) :
    List Alarm × List Alarm :=
  if store.evaluator kind then
    ((fireAlarm nowMs kind s.1).2, s.2 ++ [(fireAlarm nowMs kind s.1).1])
  else s

def kinds : List AlarmKind := [.mispromotionRate, .faultRate, .latencyGate]

def AlarmStore.evaluateAlarms (store : AlarmStore) (nowMs : ℤ) : AlarmStore × List Alarm :=
  let s := kinds.foldl (fireKind store nowMs) (store.alarms, [])
  ({ store with alarms := s.1 }, s.2)

/-! ## The calls -/

inductive Call where
  | recordRequest (nowMs : ℤ) (request : Request)
  /-- `record_annotation`. -/
  | annotate (nowMs : ℤ) (requestId : Str) (eventId : Option Str)
  | dismissAlarm (kind : AlarmKind) (firedMs : ℤ)

def Call.nowMs : Call → ℤ
  | .recordRequest nowMs _ | .annotate nowMs _ _ => nowMs
  | .dismissAlarm _ _ => 0

/-- What `record_annotation` leaves before it evaluates; nothing where it refuses. -/
def AlarmStore.confirm (store : AlarmStore) (requestId : Str) (eventId : Option Str) :
    Option AlarmStore :=
  if safeName (.str requestId) = none ∨ eventId.any (fun id => safeName (.str id) = none) then none
  else
    match store.index.find? requestId with
    | none => none
    | some entry =>
      if entry.kind ≠ units "order_change" then none
      else if store.annotations.contains requestId then some store
      else some { store with annotations := store.annotations ++ [requestId] }

def AlarmStore.written (store : AlarmStore) : Call → Option AlarmStore
  | .recordRequest _ r =>
    match r.payload with
    | .refused => none
    | .written => some ((store.indexTrace r).updateAggregates r)
    | .absent => some (store.updateAggregates r)
  | .annotate _ requestId eventId => store.confirm requestId eventId
  | .dismissAlarm _ _ => none

def dismissFirst (kind : AlarmKind) (firedMs : ℤ) : List Alarm → List Alarm
  | [] => []
  | alarm :: alarms =>
    if alarm.kind = kind ∧ alarm.firedMs = firedMs then { alarm with dismissed := true } :: alarms
    else alarm :: dismissFirst kind firedMs alarms

structure World where
  store : AlarmStore := {}
  history : List Request := []
  returned : List Alarm := []

def Call.records : Call → List Request
  | .recordRequest _ r => if r.payload = .refused then [] else [r]
  | _ => []

def step (w : World) (call : Call) : World :=
  match w.store.written call, call with
  | some store, _ =>
    { store := (store.evaluateAlarms call.nowMs).1
      history := w.history ++ call.records
      returned := w.returned ++ (store.evaluateAlarms call.nowMs).2 }
  | none, .dismissAlarm kind firedMs =>
    { w with store := { w.store with alarms := dismissFirst kind firedMs w.store.alarms } }
  | none, _ => w

/-! ## Qualifying windows -/

/-- Two windows of 300 samples, one sample apart, both miss. -/
def missesTwice (w : List ℚ) : Prop :=
  misses (w.take latencyWindow) = true ∧ misses (w.drop 1) = true

/-- **A qualifying window** of some outcomes, latencies and sequence numbers of confirmed requests:
three confirmed requests that span at most 100, more than one fault in a hundred in some 300
outcomes in a row, two adjacent windows of 300 latencies over the gates. -/
def Qualifies (outcomes : List Outcome) (latencies : List ℚ) (confirmed : List ℕ) :
    AlarmKind → Prop
  | .mispromotionRate =>
    ∃ x y z, List.Subperm [x, y, z] confirmed ∧ x ≤ y ∧ y ≤ z ∧ z - x + 1 ≤ mispromotionWindow
  | .faultRate => HasWindow faultWindow (fun w => exceedsRate w = true) outcomes
  | .latencyGate => HasWindow (latencyWindow + 1) missesTwice latencies

/-- The windows of what the store has kept. -/
def AlarmStore.Qualifies (store : AlarmStore) (kind : AlarmKind) : Prop :=
  Exit.Qualifies store.recentOutcomes store.recentFullLatencies store.confirmed kind

theorem someTriple_iff {l : List ℕ} (h : l.Pairwise (· ≤ ·)) :
    someTriple l = true ↔ ∃ x y z, List.Sublist [x, y, z] l ∧ z - x + 1 ≤ mispromotionWindow := by
  induction l with
  | nil =>
    constructor
    · intro h
      cases h
    · rintro ⟨x, y, z, hsub, -⟩
      cases hsub
  | cons a l ih =>
    obtain ⟨ha, hl⟩ := List.pairwise_cons.mp h
    have hrest : someTriple l = true → someTriple (a :: l) = true := by
      intro hsome
      rcases l with - | ⟨b, - | ⟨c, l⟩⟩
      · cases hsome
      · cases hsome
      · show (_ || _) = true
        rw [hsome, Bool.or_true]
    constructor
    · intro hsome
      rcases l with - | ⟨b, - | ⟨c, l⟩⟩
      · cases hsome
      · cases hsome
      · change (_ || _) = true at hsome
        rcases (Bool.or_eq_true _ _).mp hsome with hhere | hlater
        · exact ⟨a, b, c, (List.nil_sublist l).cons_cons c |>.cons_cons b |>.cons_cons a,
            of_decide_eq_true hhere⟩
        · obtain ⟨x, y, z, hsub, hspan⟩ := (ih hl).mp hlater
          exact ⟨x, y, z, hsub.cons a, hspan⟩
    · rintro ⟨x, y, z, hsub, hspan⟩
      rcases List.sublist_cons_iff.mp hsub with hsub | ⟨r, hr, hsub⟩
      · exact hrest ((ih hl).mpr ⟨x, y, z, hsub, hspan⟩)
      · cases hr
        rcases l with - | ⟨b, - | ⟨c, l⟩⟩
        · cases hsub
        · exact absurd hsub.length_le (by simp)
        · have hc : c ≤ z := by
            have hz : z ∈ c :: l := by
              rcases List.sublist_cons_iff.mp hsub with hsub | ⟨r, hr, hsub⟩
              · exact hsub.subset (by simp)
              · cases hr
                exact hsub.subset (by simp)
            rcases List.mem_cons.mp hz with rfl | hz
            · exact le_rfl
            · exact (List.pairwise_cons.mp (List.pairwise_cons.mp hl).2).1 z hz
          show (_ || _) = true
          refine (Bool.or_eq_true _ _).mpr (.inl (decide_eq_true ?_))
          omega

/-- **Three confirmed requests in 100**: the code looks at neighbours in the sorted list. -/
theorem mispromotionAlarm_iff (confirmed : List ℕ) :
    mispromotionAlarm confirmed = true ↔
      ∃ x y z, List.Subperm [x, y, z] confirmed ∧ x ≤ y ∧ y ≤ z ∧
        z - x + 1 ≤ mispromotionWindow := by
  have hperm : (confirmed.insertionSort (· ≤ ·)).Perm confirmed := List.perm_insertionSort _ _
  have hsorted : (confirmed.insertionSort (· ≤ ·)).Pairwise (· ≤ ·) :=
    List.pairwise_insertionSort _ _
  have htriple : mispromotionAlarm confirmed = true ↔
      someTriple (confirmed.insertionSort (· ≤ ·)) = true := by
    unfold mispromotionAlarm
    by_cases hlength : confirmed.length < 3
    · rw [if_pos hlength]
      constructor
      · intro h
        cases h
      · intro h
        obtain ⟨x, y, z, hsub, -⟩ := (someTriple_iff hsorted).mp h
        have := hsub.length_le
        rw [hperm.length_eq] at this
        exact absurd this (not_le.mpr hlength)
    · rw [if_neg hlength]
  rw [htriple, someTriple_iff hsorted]
  constructor
  · rintro ⟨x, y, z, hsub, hspan⟩
    have hxyz := hsorted.sublist hsub
    simp only [List.pairwise_cons, List.mem_cons] at hxyz
    exact ⟨x, y, z, hsub.subperm.trans hperm.subperm, hxyz.1 y (.inl rfl),
      hxyz.2.1 z (.inl rfl), hspan⟩
  · rintro ⟨x, y, z, hsubperm, hxy, hyz, hspan⟩
    have hordered : [x, y, z].Pairwise (· ≤ ·) := by
      simp only [List.pairwise_cons, List.mem_cons, List.not_mem_nil, or_false, forall_eq_or_imp,
        forall_eq, IsEmpty.forall_iff, implies_true, List.Pairwise.nil, and_true]
      exact ⟨⟨hxy, hxy.trans hyz⟩, hyz⟩
    exact ⟨x, y, z, List.sublist_insertionSort' hordered hsubperm, hspan⟩

/-- **More than one fault in a hundred** in some 300 outcomes. -/
theorem faultRateAlarm_iff (ring : List Outcome) :
    faultRateAlarm ring = true ↔ HasWindow faultWindow (fun w => exceedsRate w = true) ring := by
  rw [Windows.hasWindow_iff]
  unfold faultRateAlarm
  by_cases hlength : ring.length < faultWindow
  · rw [if_pos hlength]
    constructor
    · intro h
      cases h
    · rintro ⟨start, hle, -⟩
      omega
  · rw [if_neg hlength, List.any_eq_true]
    constructor
    · rintro ⟨start, hstart, h⟩
      have := List.mem_range.mp hstart
      exact ⟨start, by omega, h⟩
    · rintro ⟨start, hle, h⟩
      exact ⟨start, List.mem_range.mpr (by omega), h⟩

/-- **Two adjacent windows over the gates.** -/
theorem latencyAlarm_iff (ring : List ℚ) :
    latencyAlarm ring = true ↔ HasWindow (latencyWindow + 1) missesTwice ring := by
  have hascends : (missStarts ring).Pairwise (· < ·) := List.pairwise_lt_range.filter _
  have hmem : ∀ start, start ∈ missStarts ring ↔
      start < ring.length - latencyWindow + 1 ∧
        misses ((ring.drop start).take latencyWindow) = true := by
    intro start
    unfold missStarts
    rw [List.mem_filter, List.mem_range]
  have hfirst : ∀ start, ((ring.drop start).take (latencyWindow + 1)).take latencyWindow =
      (ring.drop start).take latencyWindow := by
    intro start
    rw [List.take_take]
    rfl
  have hsecond : ∀ start, ((ring.drop start).take (latencyWindow + 1)).drop 1 =
      (ring.drop (start + 1)).take latencyWindow := by
    intro start
    rw [List.drop_take, List.drop_drop]
    rfl
  rw [Windows.hasWindow_iff]
  unfold latencyAlarm
  by_cases hlength : ring.length < latencyWindow + 1
  · rw [if_pos hlength]
    constructor
    · intro h
      cases h
    · rintro ⟨start, hle, -⟩
      omega
  · rw [if_neg hlength, Windows.exists_adjacent_iff hascends]
    constructor
    · rintro ⟨start, hstart, hnext⟩
      obtain ⟨-, hmiss⟩ := (hmem start).mp hstart
      obtain ⟨hlt, hmiss'⟩ := (hmem (start + 1)).mp hnext
      refine ⟨start, by omega, ?_, ?_⟩
      · rw [hfirst]
        exact hmiss
      · rw [hsecond]
        exact hmiss'
    · rintro ⟨start, hle, hmiss, hmiss'⟩
      rw [hfirst] at hmiss
      rw [hsecond] at hmiss'
      exact ⟨start, (hmem start).mpr ⟨by omega, hmiss⟩,
        (hmem (start + 1)).mpr ⟨by omega, hmiss'⟩⟩

/-- **The evaluators find the qualifying windows** of what the store has kept. -/
theorem evaluator_iff (store : AlarmStore) (kind : AlarmKind) :
    store.evaluator kind = true ↔ store.Qualifies kind := by
  cases kind with
  | mispromotionRate => exact mispromotionAlarm_iff store.confirmed
  | faultRate => exact faultRateAlarm_iff store.recentOutcomes
  | latencyGate => exact latencyAlarm_iff store.recentFullLatencies

/-! ## Firing -/

def ofKind (kind : AlarmKind) (alarms : List Alarm) : ℕ := alarms.countP fun a => a.kind = kind

/-- An alarm of the kind is on record and not dismissed. -/
def live (kind : AlarmKind) (alarms : List Alarm) : Bool :=
  alarms.any fun a => a.kind = kind && !a.dismissed

def OnRecord (kind : AlarmKind) (alarms : List Alarm) : Prop := ∃ a ∈ alarms, a.kind = kind

variable {kind : AlarmKind}

theorem ofKind_pos_iff {alarms : List Alarm} : 0 < ofKind kind alarms ↔ OnRecord kind alarms := by
  unfold ofKind OnRecord
  rw [List.countP_pos_iff]
  simp only [decide_eq_true_eq]

theorem ofKind_append (kind : AlarmKind) (xs ys : List Alarm) :
    ofKind kind (xs ++ ys) = ofKind kind xs + ofKind kind ys := List.countP_append

theorem ofKind_singleton (kind : AlarmKind) (a : Alarm) :
    ofKind kind [a] = if a.kind = kind then 1 else 0 := by
  unfold ofKind
  rw [List.countP_singleton]
  simp only [decide_eq_true_eq]

/-- **What firing does**: the alarm is of the kind; one is put on record when none is live. -/
theorem fireAlarm_spec (nowMs : ℤ) (kind : AlarmKind) (alarms : List Alarm) :
    (fireAlarm nowMs kind alarms).1.kind = kind ∧
    (fireAlarm nowMs kind alarms).2 =
      if live kind alarms then alarms else alarms ++ [⟨kind, nowMs, false⟩] := by
  unfold fireAlarm live
  rcases hfind : alarms.find? (fun a => a.kind = kind && !a.dismissed) with - | alarm
  · have hnone : alarms.any (fun a => a.kind = kind && !a.dismissed) = false :=
      List.any_eq_false.mpr (List.find?_eq_none.mp hfind)
    rw [hfind, hnone]
    exact ⟨rfl, rfl⟩
  · have hsome := List.find?_some hfind
    have hany : alarms.any (fun a => a.kind = kind && !a.dismissed) = true :=
      List.any_eq_true.mpr ⟨alarm, List.mem_of_find?_eq_some hfind, hsome⟩
    rw [Bool.and_eq_true, decide_eq_true_eq] at hsome
    rw [hfind, hany]
    exact ⟨hsome.1, rfl⟩

theorem live_append (kind : AlarmKind) (xs ys : List Alarm) :
    live kind (xs ++ ys) = (live kind xs || live kind ys) := List.any_append

variable {store : AlarmStore} {nowMs : ℤ}

/-- One kind of the evaluation, in numbers. -/
theorem fireKind_spec (s : List Alarm × List Alarm) (fired kind : AlarmKind) :
    ofKind kind (fireKind store nowMs s fired).1 = ofKind kind s.1 +
      (if kind = fired ∧ store.evaluator kind = true ∧ live kind s.1 = false then 1 else 0) ∧
    ofKind kind (fireKind store nowMs s fired).2 = ofKind kind s.2 +
      (if kind = fired ∧ store.evaluator kind = true then 1 else 0) ∧
    (kind ≠ fired → live kind (fireKind store nowMs s fired).1 = live kind s.1) := by
  unfold fireKind
  obtain ⟨hkind, halarms⟩ := fireAlarm_spec nowMs fired s.1
  by_cases hev : store.evaluator fired = true
  · rw [if_pos hev]
    dsimp only
    rw [halarms, ofKind_append, ofKind_singleton, hkind]
    by_cases heq : kind = fired
    · subst heq
      by_cases hlive : live kind s.1 = true
      · simp [hev, hlive]
      · rw [Bool.not_eq_true] at hlive
        simp [hev, hlive, ofKind_append, ofKind_singleton]
    · have hne : fired ≠ kind := fun h => heq h.symm
      refine ⟨?_, ?_, fun _ => ?_⟩
      · by_cases hlive : live fired s.1 = true
        · simp [heq, hlive]
        · rw [Bool.not_eq_true] at hlive
          simp [heq, hlive, ofKind_append, ofKind_singleton, hne]
      · simp [heq, hne]
      · by_cases hlive : live fired s.1 = true
        · simp [hlive]
        · rw [Bool.not_eq_true] at hlive
          rw [hlive]
          simp only [Bool.false_eq_true, if_false]
          rw [live_append]
          simp [live, hne]
  · rw [if_neg hev]
    have hnot : ¬ (kind = fired ∧ store.evaluator kind = true) := by
      rintro ⟨rfl, h⟩
      exact hev h
    refine ⟨?_, ?_, fun _ => rfl⟩
    · rw [if_neg fun h => hnot ⟨h.1, h.2.1⟩, Nat.add_zero]
    · rw [if_neg hnot, Nat.add_zero]

/-- The evaluation of some kinds, in numbers. -/
theorem foldl_fireKind {ks : List AlarmKind} (hks : ks.Nodup) (s : List Alarm × List Alarm)
    (kind : AlarmKind) :
    ofKind kind (ks.foldl (fireKind store nowMs) s).1 = ofKind kind s.1 +
      (if kind ∈ ks ∧ store.evaluator kind = true ∧ live kind s.1 = false then 1 else 0) ∧
    ofKind kind (ks.foldl (fireKind store nowMs) s).2 = ofKind kind s.2 +
      (if kind ∈ ks ∧ store.evaluator kind = true then 1 else 0) := by
  induction ks generalizing s with
  | nil => simp
  | cons fired ks ih =>
    obtain ⟨hnot, hks'⟩ := List.nodup_cons.mp hks
    obtain ⟨hone, htwo, hlive⟩ := @fireKind_spec store nowMs s fired kind
    obtain ⟨hone', htwo'⟩ := ih hks' (fireKind store nowMs s fired)
    rw [List.foldl_cons, hone', htwo', hone, htwo]
    by_cases heq : kind = fired
    · subst heq
      simp [hnot]
    · rw [hlive heq]
      simp [heq]

/-- **The evaluation in numbers**: a kind with a qualifying window is returned once, and put on
record when none of it is live. -/
theorem evaluateAlarms_spec (store : AlarmStore) (nowMs : ℤ) (kind : AlarmKind) :
    ofKind kind (store.evaluateAlarms nowMs).1.alarms = ofKind kind store.alarms +
      (if store.evaluator kind = true ∧ live kind store.alarms = false then 1 else 0) ∧
    ofKind kind (store.evaluateAlarms nowMs).2 =
      if store.evaluator kind = true then 1 else 0 := by
  have hall : kind ∈ kinds := by cases kind <;> decide
  obtain ⟨hone, htwo⟩ := @foldl_fireKind store nowMs kinds (by decide) (store.alarms, []) kind
  unfold AlarmStore.evaluateAlarms
  dsimp only
  rw [hone, htwo]
  simp [hall, ofKind]

theorem ofKind_dismissFirst (kind kind' : AlarmKind) (firedMs : ℤ) (alarms : List Alarm) :
    ofKind kind (dismissFirst kind' firedMs alarms) = ofKind kind alarms := by
  induction alarms with
  | nil => rfl
  | cons a alarms ih =>
    unfold dismissFirst ofKind
    by_cases h : a.kind = kind' ∧ a.firedMs = firedMs
    · rw [if_pos h, List.countP_cons, List.countP_cons]
    · rw [if_neg h, List.countP_cons, List.countP_cons]
      exact congrArg (· + _) ih

/-! ## Steps -/

theorem putIndex_alarms (store : AlarmStore) (id : Str) (entry : IndexEntry) :
    (store.putIndex id entry).alarms = store.alarms := by
  unfold AlarmStore.putIndex
  split_ifs <;> rfl

theorem updateAggregates_alarms (store : AlarmStore) (r : Request) :
    (store.updateAggregates r).alarms = store.alarms := by
  unfold AlarmStore.updateAggregates
  by_cases h : r.completeComparable = true
  · rw [if_pos h]
    exact putIndex_alarms store _ _
  · rw [if_neg h]

theorem updateAggregates_annotations (store : AlarmStore) (r : Request) :
    (store.updateAggregates r).annotations = store.annotations := by
  unfold AlarmStore.updateAggregates AlarmStore.indexCompleteComparable AlarmStore.putIndex
  split_ifs <;> rfl

theorem confirm_eq {requestId : Str} {eventId : Option Str} {store' : AlarmStore}
    (h : store.confirm requestId eventId = some store') :
    (∃ entry, store.index.find? requestId = some entry) ∧
      (store' = store ∨
        store' = { store with annotations := store.annotations ++ [requestId] }) := by
  unfold AlarmStore.confirm at h
  by_cases hsafe : safeName (.str requestId) = none ∨
      eventId.any (fun id => safeName (.str id) = none)
  · rw [if_pos hsafe] at h
    cases h
  rw [if_neg hsafe] at h
  rcases hentry : store.index.find? requestId with - | entry
  · rw [hentry] at h
    cases h
  rw [hentry] at h
  dsimp only at h
  refine ⟨⟨entry, rfl⟩, ?_⟩
  by_cases hkind : entry.kind ≠ units "order_change"
  · rw [if_pos hkind] at h
    cases h
  rw [if_neg hkind] at h
  by_cases hmem : store.annotations.contains requestId = true
  · rw [if_pos hmem] at h
    exact .inl (Option.some.inj h).symm
  · rw [if_neg hmem] at h
    exact .inr (Option.some.inj h).symm

variable {call : Call}

/-- What a call writes before it evaluates leaves the alarms alone. -/
theorem written_alarms {store' : AlarmStore} (h : store.written call = some store') :
    store'.alarms = store.alarms := by
  cases call with
  | recordRequest _ r =>
    unfold AlarmStore.written at h
    rcases hpayload : r.payload with - | - | -
    · simp only [hpayload] at h
      rw [← Option.some.inj h, updateAggregates_alarms]
    · simp only [hpayload] at h
      cases h
    · simp only [hpayload] at h
      rw [← Option.some.inj h, updateAggregates_alarms]
      exact putIndex_alarms store _ _
  | annotate _ requestId eventId =>
    rcases (confirm_eq h).2 with rfl | rfl
    · rfl
    · rfl
  | dismissAlarm _ _ => cases h

/-- The call finds no window of a kind that has an alarm on record. -/
def Spares (w : World) (call : Call) : Prop :=
  ∀ store, w.store.written call = some store → ∀ kind, OnRecord kind w.store.alarms →
    ¬ store.Qualifies kind

/-- **A call in numbers.** -/
theorem step_spec (w : World) (call : Call) (kind : AlarmKind) :
    (∃ store, w.store.written call = some store ∧
      ofKind kind (step w call).store.alarms = ofKind kind w.store.alarms +
        (if store.evaluator kind = true ∧ live kind w.store.alarms = false then 1 else 0) ∧
      ofKind kind (step w call).returned = ofKind kind w.returned +
        (if store.evaluator kind = true then 1 else 0)) ∨
    (w.store.written call = none ∧
      ofKind kind (step w call).store.alarms = ofKind kind w.store.alarms ∧
      (step w call).returned = w.returned) := by
  unfold step
  rcases hwritten : w.store.written call with - | store
  · refine .inr ⟨rfl, ?_⟩
    cases call with
    | recordRequest _ _ => exact ⟨rfl, rfl⟩
    | annotate _ _ _ => exact ⟨rfl, rfl⟩
    | dismissAlarm kind' firedMs => exact ⟨ofKind_dismissFirst kind kind' firedMs _, rfl⟩
  · refine .inl ⟨store, rfl, ?_⟩
    obtain ⟨hone, htwo⟩ := evaluateAlarms_spec store call.nowMs kind
    rw [← written_alarms hwritten]
    exact ⟨hone, by rw [ofKind_append, htwo]⟩

/-! ## The history -/

/-- The number that a request has among the complete-comparable ones, counted from `n`. -/
def seqFrom : ℕ → List Request → Str → Option ℕ
  | _, [], _ => none
  | n, r :: history, id =>
    let next := if r.completeComparable then n + 1 else n
    if r.requestId.1 = id then
      (if r.completeComparable && !reserved id then some next else none)
    else seqFrom next history id

def World.ids (w : World) : List Str := w.history.map fun r => r.requestId.1

/-- The sequence numbers of the confirmed requests in the history. -/
def World.confirmed (w : World) : List ℕ := w.store.annotations.filterMap (seqFrom 0 w.history)

/-- **The whole history has a qualifying window.** -/
def World.Qualifies (w : World) (kind : AlarmKind) : Prop :=
  Exit.Qualifies (w.history.map Request.outcome) (w.history.filterMap Request.fullRequestMs)
    w.confirmed kind

theorem seqFrom_cons (n : ℕ) (r : Request) (history : List Request) (id : Str) :
    seqFrom n (r :: history) id =
      if r.requestId.1 = id then
        (if r.completeComparable && !reserved id then
          some (if r.completeComparable then n + 1 else n) else none)
      else seqFrom (if r.completeComparable then n + 1 else n) history id := rfl

variable {history : List Request} {id : Str}

theorem seqFrom_eq_none {n : ℕ} (h : id ∉ history.map fun r => r.requestId.1) :
    seqFrom n history id = none := by
  induction history generalizing n with
  | nil => rfl
  | cons r history ih =>
    rw [List.map_cons, List.mem_cons, not_or] at h
    rw [seqFrom_cons, if_neg fun heq => h.1 heq.symm]
    exact ih h.2

/-- A request that comes later changes no number. -/
theorem seqFrom_append_of_mem {n : ℕ} (h : id ∈ history.map fun r => r.requestId.1)
    (later : List Request) : seqFrom n (history ++ later) id = seqFrom n history id := by
  induction history generalizing n with
  | nil => cases h
  | cons r history ih =>
    rw [List.cons_append, seqFrom_cons, seqFrom_cons]
    by_cases heq : r.requestId.1 = id
    · rw [if_pos heq, if_pos heq]
    · rw [if_neg heq, if_neg heq]
      refine ih ?_
      rcases List.mem_cons.mp h with rfl | h
      · exact absurd rfl heq
      · exact h

theorem seqFrom_append_of_not_mem {n : ℕ} (h : id ∉ history.map fun r => r.requestId.1)
    (later : List Request) :
    seqFrom n (history ++ later) id =
      seqFrom (n + history.countP Request.completeComparable) later id := by
  induction history generalizing n with
  | nil => rfl
  | cons r history ih =>
    rw [List.map_cons, List.mem_cons, not_or] at h
    rw [List.cons_append, seqFrom_cons, if_neg fun heq => h.1 heq.symm, ih h.2, List.countP_cons]
    refine congrArg (seqFrom · later id) ?_
    by_cases hcomp : r.completeComparable = true
    · rw [if_pos hcomp, if_pos hcomp]
      omega
    · rw [if_neg hcomp, if_neg hcomp]
      omega

theorem seqFrom_pos {n : ℕ} {seq : ℕ} (h : seqFrom n history id = some seq) : 0 < seq := by
  induction history generalizing n with
  | nil => cases h
  | cons r history ih =>
    rw [seqFrom_cons] at h
    by_cases heq : r.requestId.1 = id
    · rw [if_pos heq] at h
      by_cases hcomp : r.completeComparable = true
      · rw [if_pos hcomp] at h
        split_ifs at h
        cases h
        exact Nat.succ_pos n
      · simp [hcomp] at h
    · rw [if_neg heq] at h
      exact ih h

/-- **What the store has kept** of the history. -/
structure Kept (w : World) : Prop where
  outcomes : w.store.recentOutcomes = last faultWindow (w.history.map Request.outcome)
  latencies : w.store.recentFullLatencies =
    last (2 * latencyWindow) (w.history.filterMap Request.fullRequestMs)
  seq : w.store.actionableSeq = w.history.countP Request.completeComparable
  index : ∀ id, (w.store.index.find? id).bind IndexEntry.actionableSeq = seqFrom 0 w.history id
  header : ∀ id, reserved id = true → w.store.index.find? id = none
  known : ∀ id entry, w.store.index.find? id = some entry → id ∈ w.ids
  annotated : ∀ id ∈ w.store.annotations, id ∈ w.ids

variable {w : World}

/-- The confirmed requests are those of the history. -/
theorem Kept.confirmed (h : Kept w) : w.store.confirmed = w.confirmed := by
  unfold AlarmStore.confirmed World.confirmed
  have hsame : (fun id => (w.store.index.find? id).bind IndexEntry.actionableSeq) =
      seqFrom 0 w.history := funext h.index
  rw [hsame]
  refine List.filter_eq_self.mpr fun seq hseq => ?_
  obtain ⟨id, -, hid⟩ := List.mem_filterMap.mp hseq
  exact decide_eq_true (seqFrom_pos hid)

theorem putIndex_find? (store : AlarmStore) (id id' : Str) (entry : IndexEntry) :
    (store.putIndex id entry).index.find? id' =
      if reserved id = false ∧ id' = id then some entry else store.index.find? id' := by
  unfold AlarmStore.putIndex
  by_cases hreserved : reserved id = true
  · rw [if_pos hreserved, if_neg fun h => by rw [hreserved] at h; cases h.1]
  · rw [if_neg hreserved]
    rw [Bool.not_eq_true] at hreserved
    rw [KeyedMap.find?_insert]
    by_cases hid : id' = id
    · rw [if_pos hid, if_pos ⟨hreserved, hid⟩]
    · rw [if_neg hid, if_neg fun h => hid h.2]

/-- What one request leaves in the index: the entries of others stay, and its own, unless its id is
reserved, has its number. -/
structure Indexed (store store' : AlarmStore) (r : Request) (seq : Option ℕ) : Prop where
  others : ∀ id, id ≠ r.requestId.1 → store'.index.find? id = store.index.find? id
  own : reserved r.requestId.1 = false →
    (store'.index.find? r.requestId.1).bind IndexEntry.actionableSeq = seq
  header : reserved r.requestId.1 = true →
    store'.index.find? r.requestId.1 = store.index.find? r.requestId.1

theorem updateAggregates_spec (store : AlarmStore) (r : Request)
    (hown : (store.index.find? r.requestId.1).bind IndexEntry.actionableSeq = none) :
    Indexed store (store.updateAggregates r) r
      (if r.completeComparable then some (store.actionableSeq + 1) else none) ∧
    (store.updateAggregates r).actionableSeq =
      store.actionableSeq + (if r.completeComparable then 1 else 0) ∧
    (store.updateAggregates r).recentOutcomes =
      last faultWindow (store.recentOutcomes ++ [r.outcome]) ∧
    (store.updateAggregates r).recentFullLatencies =
      (match r.fullRequestMs with
        | none => store.recentFullLatencies
        | some full => last (2 * latencyWindow) (store.recentFullLatencies ++ [full])) ∧
    (store.updateAggregates r).annotations = store.annotations := by
  have hput : ∀ (id : Str) (entry : IndexEntry),
      (store.putIndex id entry).recentOutcomes = store.recentOutcomes ∧
      (store.putIndex id entry).recentFullLatencies = store.recentFullLatencies ∧
      (store.putIndex id entry).annotations = store.annotations := by
    intro id entry
    unfold AlarmStore.putIndex
    split_ifs
    · exact ⟨rfl, rfl, rfl⟩
    · exact ⟨rfl, rfl, rfl⟩
  unfold AlarmStore.updateAggregates
  by_cases hcomp : r.completeComparable = true
  · simp only [hcomp, if_true]
    unfold AlarmStore.indexCompleteComparable
    obtain ⟨houtcomes, hlatencies, hannotations⟩ := hput r.requestId.1
      { kind := ((store.index.find? r.requestId).map IndexEntry.kind).getD r.outcome.name
        actionableSeq := some (store.actionableSeq + 1) }
    refine ⟨⟨?_, ?_, ?_⟩, trivial, ?_, ?_, ?_⟩
    · intro id hid
      exact (putIndex_find? store _ _ _).trans (if_neg fun h => hid h.2)
    · intro hfree
      show Option.bind ((store.putIndex _ _).index.find? _) _ = _
      rw [putIndex_find?, if_pos ⟨hfree, rfl⟩]
      rfl
    · intro hreserved
      refine (putIndex_find? store _ _ _).trans (if_neg fun h => ?_)
      rw [hreserved] at h
      cases h.1
    · rw [houtcomes]
    · rw [hlatencies]
    · exact hannotations
  · simp only [hcomp, Bool.false_eq_true, if_false]
    exact ⟨⟨fun _ _ => rfl, fun _ => hown, fun _ => rfl⟩, rfl, trivial, trivial, trivial⟩

/-- The trace's entry has no number yet. -/
theorem indexTrace_indexed (store : AlarmStore) (r : Request) :
    Indexed store (store.indexTrace r) r none ∧
      (store.indexTrace r).actionableSeq = store.actionableSeq ∧
      (store.indexTrace r).recentOutcomes = store.recentOutcomes ∧
      (store.indexTrace r).recentFullLatencies = store.recentFullLatencies ∧
      (store.indexTrace r).annotations = store.annotations := by
  refine ⟨⟨?_, ?_, ?_⟩, ?_⟩
  · intro id hid
    exact (putIndex_find? store _ _ _).trans (if_neg fun h => hid h.2)
  · intro hfree
    unfold AlarmStore.indexTrace
    rw [putIndex_find?, if_pos ⟨hfree, rfl⟩]
    rfl
  · intro hreserved
    refine (putIndex_find? store _ _ _).trans (if_neg fun h => ?_)
    rw [hreserved] at h
    cases h.1
  · unfold AlarmStore.indexTrace AlarmStore.putIndex
    by_cases hreserved : reserved r.requestId.1 = true
    · rw [if_pos hreserved]
      exact ⟨rfl, rfl, rfl, rfl⟩
    · rw [if_neg hreserved]
      exact ⟨rfl, rfl, rfl, rfl⟩

/-- **What a recorded request leaves.** -/
theorem written_request {store store' : AlarmStore} {nowMs : ℤ} {r : Request}
    (h : store.written (.recordRequest nowMs r) = some store')
    (hown : (store.index.find? r.requestId.1).bind IndexEntry.actionableSeq = none) :
    Indexed store store' r (if r.completeComparable then some (store.actionableSeq + 1) else none) ∧
    store'.actionableSeq = store.actionableSeq + (if r.completeComparable then 1 else 0) ∧
    store'.recentOutcomes = last faultWindow (store.recentOutcomes ++ [r.outcome]) ∧
    store'.recentFullLatencies =
      (match r.fullRequestMs with
        | none => store.recentFullLatencies
        | some full => last (2 * latencyWindow) (store.recentFullLatencies ++ [full])) ∧
    store'.annotations = store.annotations := by
  unfold AlarmStore.written at h
  rcases hpayload : r.payload with - | - | -
  · simp only [hpayload] at h
    cases h
    exact updateAggregates_spec store r hown
  · simp only [hpayload] at h
    cases h
  · simp only [hpayload] at h
    cases h
    obtain ⟨⟨hothers, hfree, hreserved⟩, hseq, houtcomes, hlatencies, hannotations⟩ :=
      indexTrace_indexed store r
    have hown' : ((store.indexTrace r).index.find? r.requestId.1).bind
        IndexEntry.actionableSeq = none := by
      by_cases hres : reserved r.requestId.1 = true
      · rw [hreserved hres]
        exact hown
      · rw [Bool.not_eq_true] at hres
        exact hfree hres
    obtain ⟨⟨hothers', hfree', hreserved'⟩, hseq', houtcomes', hlatencies', hannotations'⟩ :=
      updateAggregates_spec (store.indexTrace r) r hown'
    rw [hseq] at hfree' hseq'
    rw [houtcomes] at houtcomes'
    rw [hlatencies] at hlatencies'
    exact ⟨⟨fun id hid => (hothers' id hid).trans (hothers id hid), hfree',
      fun hres => (hreserved' hres).trans (hreserved hres)⟩, hseq', houtcomes', hlatencies',
      hannotations'.trans hannotations⟩

/-- The call records a request that was not recorded before. -/
def Fresh (w : World) (call : Call) : Prop := ∀ r ∈ call.records, r.requestId.1 ∉ w.ids

/-- The store that is evaluated has kept what is needed of the history with the call. -/
def World.afterWrites (w : World) (call : Call) (store : AlarmStore) : World :=
  { w with store := store, history := w.history ++ call.records }

/-- **What is written keeps the history.** -/
theorem Kept.written (h : Kept w) (hfresh : Fresh w call) {store : AlarmStore}
    (hwritten : w.store.written call = some store) : Kept (w.afterWrites call store) := by
  cases call with
  | dismissAlarm _ _ => cases hwritten
  | annotate nowMs requestId eventId =>
    have hhistory : w.history ++ Call.records (.annotate nowMs requestId eventId) =
        w.history := List.append_nil _
    obtain ⟨⟨entry, hentry⟩, hcase⟩ := confirm_eq hwritten
    unfold World.afterWrites
    rw [hhistory]
    rcases hcase with rfl | rfl
    · exact h
    · refine ⟨h.outcomes, h.latencies, h.seq, h.index, h.header, h.known, ?_⟩
      intro id hid
      rcases List.mem_append.mp hid with hid | hid
      · exact h.annotated id hid
      · rw [List.mem_singleton.mp hid]
        exact h.known requestId entry hentry
  | recordRequest nowMs r =>
    have hrecords : Call.records (.recordRequest nowMs r) = [r] := by
      refine if_neg fun hrefused => ?_
      unfold AlarmStore.written at hwritten
      simp only [hrefused] at hwritten
      cases hwritten
    have hnew : r.requestId.1 ∉ w.ids := hfresh r (hrecords ▸ List.mem_cons_self)
    have hown : (w.store.index.find? r.requestId.1).bind IndexEntry.actionableSeq = none := by
      rw [h.index]
      exact seqFrom_eq_none hnew
    obtain ⟨hindexed, hseq, houtcomes, hlatencies, hannotations⟩ := written_request hwritten hown
    unfold World.afterWrites
    rw [hrecords]
    have hmem : ∀ id ∈ w.ids, id ∈ (w.history ++ [r]).map fun r => r.requestId.1 := by
      intro id hid
      rw [List.map_append]
      exact List.mem_append_left _ hid
    refine ⟨?_, ?_, ?_, ?_, ?_, ?_, ?_⟩
    · show store.recentOutcomes = last faultWindow ((w.history ++ [r]).map Request.outcome)
      rw [houtcomes, h.outcomes, List.map_append, Windows.last_append_last]
      rfl
    · show store.recentFullLatencies =
        last (2 * latencyWindow) ((w.history ++ [r]).filterMap Request.fullRequestMs)
      rw [hlatencies, List.filterMap_append]
      rcases hfull : r.fullRequestMs with - | full
      · simp [h.latencies, hfull]
      · simp [h.latencies, hfull, Windows.last_append_last]
    · show store.actionableSeq = (w.history ++ [r]).countP Request.completeComparable
      rw [hseq, h.seq, List.countP_append, List.countP_singleton]
    · intro id
      show (store.index.find? id).bind IndexEntry.actionableSeq = seqFrom 0 (w.history ++ [r]) id
      by_cases hid : id = r.requestId.1
      · subst hid
        rw [seqFrom_append_of_not_mem hnew, seqFrom_cons, if_pos rfl, Nat.zero_add, ← h.seq]
        by_cases hres : reserved r.requestId.1 = true
        · rw [hindexed.header hres, h.header _ hres]
          simp [hres]
        · rw [Bool.not_eq_true] at hres
          rw [hindexed.own hres]
          by_cases hcomp : r.completeComparable = true
          · simp [hcomp, hres]
          · simp [hcomp]
      · rw [hindexed.others id hid, h.index]
        by_cases hin : id ∈ w.ids
        · exact (seqFrom_append_of_mem hin [r]).symm
        · rw [seqFrom_append_of_not_mem hin, seqFrom_eq_none hin, seqFrom_cons,
            if_neg fun heq => hid heq.symm]
          rfl
    · intro id hres
      show store.index.find? id = none
      by_cases hid : id = r.requestId.1
      · subst hid
        rw [hindexed.header hres, h.header _ hres]
      · rw [hindexed.others id hid, h.header _ hres]
    · intro id entry hentry
      by_cases hid : id = r.requestId.1
      · show id ∈ (w.history ++ [r]).map fun r => r.requestId.1
        rw [hid]
        simp
      · refine hmem id (h.known id entry ?_)
        exact (hindexed.others id hid).symm.trans hentry
    · intro id hid
      refine hmem id (h.annotated id ?_)
      exact hannotations ▸ hid

/-! ## What comes up -/

theorem confirmed_sublist (h : Kept w) {store : AlarmStore}
    (hwritten : w.store.written call = some store) (hkept : Kept (w.afterWrites call store)) :
    w.confirmed.Sublist (w.afterWrites call store).confirmed := by
  have hstays : ∀ id ∈ w.store.annotations,
      seqFrom 0 (w.history ++ call.records) id = seqFrom 0 w.history id := fun id hid =>
    seqFrom_append_of_mem (h.annotated id hid) call.records
  have hprefix : w.store.annotations <+: store.annotations := by
    cases call with
    | dismissAlarm _ _ => cases hwritten
    | annotate _ requestId eventId =>
      rcases (confirm_eq hwritten).2 with rfl | rfl
      · exact List.prefix_rfl
      · exact List.prefix_append _ _
    | recordRequest nowMs r =>
      have hann : store.annotations = w.store.annotations := by
        unfold AlarmStore.written at hwritten
        rcases hpayload : r.payload with - | - | -
        · simp only [hpayload] at hwritten
          cases hwritten
          exact updateAggregates_annotations _ r
        · simp only [hpayload] at hwritten
          cases hwritten
        · simp only [hpayload] at hwritten
          cases hwritten
          exact (updateAggregates_annotations _ r).trans (indexTrace_indexed _ r).2.2.2.2
      rw [hann]
  obtain ⟨more, hmore⟩ := hprefix
  have hsame : w.confirmed =
      w.store.annotations.filterMap (seqFrom 0 (w.history ++ call.records)) :=
    (List.filterMap_congr hstays).symm
  show w.confirmed.Sublist (store.annotations.filterMap (seqFrom 0 (w.history ++ call.records)))
  rw [hsame, ← hmore, List.filterMap_append]
  exact List.sublist_append_left _ _

theorem records_cases (call : Call) : call.records = [] ∨ ∃ r, call.records = [r] := by
  cases call with
  | recordRequest _ r =>
    unfold Call.records
    by_cases h : r.payload = .refused
    · exact .inl (if_pos h)
    · exact .inr ⟨r, if_neg h⟩
  | annotate _ _ _ => exact .inl rfl
  | dismissAlarm _ _ => exact .inl rfl

/-- **A window that comes up with a call is in what the store has kept.** -/
theorem qualifies_afterWrites (h : Kept w) (hfresh : Fresh w call) {store : AlarmStore}
    (hwritten : w.store.written call = some store) (kind : AlarmKind) :
    (w.afterWrites call store).Qualifies kind ↔ w.Qualifies kind ∨ store.Qualifies kind := by
  have hkept := h.written hfresh hwritten
  have houtcomes : store.recentOutcomes =
      last faultWindow ((w.history ++ call.records).map Request.outcome) := hkept.outcomes
  have hlatencies : store.recentFullLatencies =
      last (2 * latencyWindow) ((w.history ++ call.records).filterMap Request.fullRequestMs) :=
    hkept.latencies
  cases kind with
  | mispromotionRate =>
    show (∃ x y z, _) ↔ (∃ x y z, _) ∨ ∃ x y z, _
    have hconfirmed : store.confirmed = (w.afterWrites call store).confirmed := hkept.confirmed
    rw [hconfirmed]
    constructor
    · exact .inr
    · rintro (⟨x, y, z, hsub, hspan⟩ | hhere)
      · exact ⟨x, y, z, hsub.trans (confirmed_sublist h hwritten hkept).subperm, hspan⟩
      · exact hhere
  | faultRate =>
    show HasWindow _ _ ((w.history ++ call.records).map Request.outcome) ↔
      HasWindow _ _ (w.history.map Request.outcome) ∨ HasWindow _ _ store.recentOutcomes
    rw [houtcomes]
    rcases records_cases call with hnone | ⟨r, hone⟩
    · rw [hnone, List.append_nil]
      exact ⟨.inl, fun hor => hor.elim id fun hw => hw.of_infix (Windows.last_suffix _ _).isInfix⟩
    · rw [hone, List.map_append]
      exact Windows.hasWindow_concat_iff le_rfl r.outcome
  | latencyGate =>
    show HasWindow _ _ ((w.history ++ call.records).filterMap Request.fullRequestMs) ↔
      HasWindow _ _ (w.history.filterMap Request.fullRequestMs) ∨
        HasWindow _ _ store.recentFullLatencies
    rw [hlatencies, List.filterMap_append]
    have hsame : call.records.filterMap Request.fullRequestMs = [] ∨
        ∃ full, call.records.filterMap Request.fullRequestMs = [full] := by
      rcases records_cases call with hnone | ⟨r, hone⟩
      · exact .inl (by rw [hnone]; rfl)
      · rw [hone]
        rcases hfull : r.fullRequestMs with - | full
        · exact .inl (by simp [hfull])
        · exact .inr ⟨full, by simp [hfull]⟩
    rcases hsame with hnone | ⟨full, hone⟩
    · rw [hnone, List.append_nil]
      exact ⟨.inl, fun hor => hor.elim id fun hw => hw.of_infix (Windows.last_suffix _ _).isInfix⟩
    · rw [hone]
      exact Windows.hasWindow_concat_iff (by decide) full

/-! ## Runs -/

/-- An alarm is on record when the history has a qualifying window. -/
structure Fired (w : World) : Prop where
  kept : Kept w
  onRecord : ∀ kind, OnRecord kind w.store.alarms ↔ w.Qualifies kind

theorem kept_of_store {w w' : World} (h : Kept w)
    (hstore : w'.store = { w.store with alarms := w'.store.alarms })
    (hhistory : w'.history = w.history) : Kept w' := by
  obtain ⟨store', history', returned'⟩ := w'
  cases hhistory
  dsimp only at hstore
  rw [hstore]
  exact ⟨h.outcomes, h.latencies, h.seq, h.index, h.header, h.known, h.annotated⟩

/-- **A call keeps it.** -/
theorem Fired.step (h : Fired w) (hfresh : Fresh w call) : Fired (Exit.step w call) := by
  rcases hwritten : w.store.written call with - | store
  · cases call with
    | recordRequest _ _ =>
      unfold Exit.step
      rw [hwritten]
      exact h
    | annotate _ _ _ =>
      unfold Exit.step
      rw [hwritten]
      exact h
    | dismissAlarm kind firedMs =>
      refine ⟨kept_of_store h.kept rfl rfl, fun kind' => ?_⟩
      rw [← ofKind_pos_iff]
      show 0 < ofKind kind' (dismissFirst kind firedMs w.store.alarms) ↔ _
      rw [ofKind_dismissFirst, ofKind_pos_iff]
      exact h.onRecord kind'
  · have hstep : Exit.step w call =
        { store := (store.evaluateAlarms call.nowMs).1
          history := w.history ++ call.records
          returned := w.returned ++ (store.evaluateAlarms call.nowMs).2 } := by
      unfold Exit.step
      rw [hwritten]
    have hkept := h.kept.written hfresh hwritten
    refine ⟨kept_of_store hkept ?_ ?_, fun kind => ?_⟩
    · rw [hstep]
      rfl
    · rw [hstep]
      rfl
    · have hqualifies : (Exit.step w call).Qualifies kind ↔
          (w.afterWrites call store).Qualifies kind := by
        rw [hstep]
        exact Iff.rfl
      rw [hqualifies, qualifies_afterWrites h.kept hfresh hwritten, ← h.onRecord kind,
        ← evaluator_iff, ← ofKind_pos_iff, ← ofKind_pos_iff]
      have hcount := (evaluateAlarms_spec store call.nowMs kind).1
      rw [written_alarms hwritten] at hcount
      rw [hstep]
      dsimp only
      rw [hcount]
      by_cases hev : store.evaluator kind = true
      · by_cases hlive : live kind w.store.alarms = false
        · simp [hev, hlive]
        · have hpos : 0 < ofKind kind w.store.alarms := by
            rw [Bool.not_eq_false] at hlive
            obtain ⟨a, ha, hkind⟩ := List.any_eq_true.mp hlive
            rw [Bool.and_eq_true, decide_eq_true_eq] at hkind
            exact ofKind_pos_iff.mpr ⟨a, ha, hkind.1⟩
          simp [hpos]
      · simp [hev]

theorem kept_init : Kept {} where
  outcomes := rfl
  latencies := rfl
  seq := rfl
  index _ := rfl
  header _ _ := rfl
  known _ _ h := by cases h
  annotated _ h := by cases h

theorem not_qualifies_nil (kind : AlarmKind) : ¬ Exit.Qualifies [] [] [] kind := by
  cases kind with
  | mispromotionRate =>
    rintro ⟨x, y, z, hsub, -⟩
    exact absurd hsub.length_le (by simp)
  | faultRate =>
    rintro ⟨w, hw, hlength, -⟩
    have := hw.length_le
    rw [hlength] at this
    exact absurd this (by decide)
  | latencyGate =>
    rintro ⟨w, hw, hlength, -⟩
    have := hw.length_le
    rw [hlength] at this
    exact absurd this (by decide)

theorem fired_init : Fired {} where
  kept := kept_init
  onRecord kind := by
    constructor
    · rintro ⟨a, ha, -⟩
      cases ha
    · intro h
      exact absurd h (not_qualifies_nil kind)

/-- The state after some calls. -/
def run (calls : List Call) : World := Runs.run step {} calls

/-- The requests that are recorded have ids of their own. -/
def Distinct (calls : List Call) : Prop :=
  ((calls.flatMap Call.records).map fun r => r.requestId.1).Nodup

variable {calls : List Call}

theorem along_fresh (h : (w.ids ++ (calls.flatMap Call.records).map fun r => r.requestId.1).Nodup) :
    Runs.Along step Fresh w calls := by
  induction calls generalizing w with
  | nil => trivial
  | cons call calls ih =>
    rw [List.flatMap_cons, List.map_append, ← List.append_assoc] at h
    have hids : (step w call).ids = w.ids ++ call.records.map (fun r => r.requestId.1) ∨
        (step w call).ids = w.ids := by
      unfold World.ids step
      rcases hwritten : w.store.written call with - | store
      · cases call with
        | recordRequest _ _ => exact .inr rfl
        | annotate _ _ _ => exact .inr rfl
        | dismissAlarm _ _ => exact .inr rfl
      · exact .inl (List.map_append)
    refine ⟨?_, ih ?_⟩
    · intro r hr hin
      have hdisjoint := List.nodup_append.mp (List.nodup_append.mp h).1
      exact hdisjoint.2.2 _ hin _ (List.mem_map.mpr ⟨r, hr, rfl⟩) rfl
    · rcases hids with hids | hids
      · rw [hids]
        exact h
      · rw [hids]
        refine h.sublist ?_
        rw [List.append_assoc]
        exact List.Sublist.append_left (List.sublist_append_right _ _) _

/-- **An alarm is on record from the first call after which there is a qualifying window.** -/
theorem onRecord_run (h : Distinct calls) (kind : AlarmKind) :
    OnRecord kind (run calls).store.alarms ↔ (run calls).Qualifies kind :=
  (Runs.run_invariant_along (fun _ _ hfresh hfired => hfired.step hfresh) fired_init
    (along_fresh (show ([] ++ _ : List Str).Nodup from h))).onRecord kind

/-! ## Firing once -/

/-- The alarm of a kind is on record from the first qualifying window on, there is one at most, and
it has been returned as newly fired once. -/
structure FiresOnceAt (w : World) (kind : AlarmKind) : Prop where
  created : OnRecord kind w.store.alarms ↔ w.Qualifies kind
  single : ofKind kind w.store.alarms ≤ 1
  returned : ofKind kind w.returned = ofKind kind w.store.alarms

/-- In every state of the run the alarms have fired once, and none is returned again after it has
been dismissed. -/
def FiresOnce (calls : List Call) : Prop :=
  ∀ before later, calls = before ++ later → ∀ kind,
    FiresOnceAt (run before) kind ∧
    ∀ alarm ∈ (run before).store.alarms, alarm.kind = kind → alarm.dismissed = true →
      ofKind kind (run calls).returned = ofKind kind (run before).returned

/-- A call puts alarms on record, and returns as many or more. -/
theorem ofKind_step (w : World) (call : Call) (kind : AlarmKind) : ∃ created returned,
    created ≤ returned ∧
      ofKind kind (step w call).store.alarms = ofKind kind w.store.alarms + created ∧
      ofKind kind (step w call).returned = ofKind kind w.returned + returned := by
  rcases step_spec w call kind with ⟨store, -, halarms, hreturned⟩ | ⟨-, halarms, hreturned⟩
  · refine ⟨_, _, ?_, halarms, hreturned⟩
    by_cases hev : store.evaluator kind = true
    · rw [if_pos hev]
      split_ifs <;> omega
    · rw [if_neg hev, if_neg fun hand => hev hand.1]
  · exact ⟨0, 0, le_rfl, halarms, congrArg (ofKind kind) hreturned⟩

/-- Every alarm on record has been returned. -/
theorem ofKind_le_step (h : ofKind kind w.store.alarms ≤ ofKind kind w.returned) (call : Call) :
    ofKind kind (step w call).store.alarms ≤ ofKind kind (step w call).returned := by
  obtain ⟨created, returned, hle, halarms, hreturned⟩ := ofKind_step w call kind
  rw [halarms, hreturned]
  exact Nat.add_le_add h hle

/-- A second alarm of a kind, or an alarm returned again. -/
def Repeats (kind : AlarmKind) (w : World) : Prop :=
  1 < ofKind kind w.store.alarms ∨ ofKind kind w.store.alarms < ofKind kind w.returned

/-- What has been repeated stays so. -/
theorem Repeats.step (h : Repeats kind w) (call : Call) : Repeats kind (step w call) := by
  obtain ⟨created, returned, hle, halarms, hreturned⟩ := ofKind_step w call kind
  unfold Repeats at *
  rw [halarms, hreturned]
  omega

/-- **A call that finds a window again repeats the alarm.** -/
theorem repeats_of_not_spares (hle : ∀ kind, ofKind kind w.store.alarms ≤ ofKind kind w.returned)
    (h : ¬ Spares w call) : ∃ kind, Repeats kind (step w call) := by
  unfold Spares at h
  push Not at h
  obtain ⟨store, hwritten, kind, honRecord, hqualifies⟩ := h
  have hpos := ofKind_pos_iff.mpr honRecord
  have hev := (evaluator_iff store kind).mpr hqualifies
  refine ⟨kind, ?_⟩
  unfold Repeats
  rcases step_spec w call kind with ⟨store', hwritten', halarms, hreturned⟩ | ⟨hnone, -⟩
  · rw [hwritten] at hwritten'
    cases hwritten'
    have hle := hle kind
    rw [halarms, hreturned, if_pos hev]
    split_ifs <;> omega
  · rw [hwritten] at hnone
    cases hnone

theorem along_spares (hle : ∀ kind, ofKind kind w.store.alarms ≤ ofKind kind w.returned)
    (h : ∀ kind, ¬ Repeats kind (Runs.run step w calls)) : Runs.Along step Spares w calls := by
  induction calls generalizing w with
  | nil => trivial
  | cons call calls ih =>
    refine ⟨?_, ih (fun kind => ofKind_le_step (hle kind) call) h⟩
    by_contra hnot
    obtain ⟨kind, hrepeats⟩ := repeats_of_not_spares hle hnot
    exact h kind (Runs.run_invariant (fun _ call h => h.step call) hrepeats calls)

/-- One alarm at most, returned as often as it is on record. -/
def Counted (w : World) : Prop :=
  ∀ kind, ofKind kind w.store.alarms ≤ 1 ∧
    ofKind kind w.returned = ofKind kind w.store.alarms

/-- **A call that spares the alarms keeps the numbers.** -/
theorem Counted.step (h : Counted w) (hspares : Spares w call) : Counted (step w call) := by
  intro kind
  obtain ⟨hsingle, hreturned⟩ := h kind
  rcases step_spec w call kind with ⟨store, hwritten, halarms, hret⟩ | ⟨-, halarms, hret⟩
  · rw [halarms, hret]
    by_cases hev : store.evaluator kind = true
    · have hzero : ofKind kind w.store.alarms = 0 := by
        by_contra hpos
        exact hspares store hwritten kind (ofKind_pos_iff.mp (Nat.pos_of_ne_zero hpos))
          ((evaluator_iff store kind).mp hev)
      have hlive : live kind w.store.alarms = false := by
        by_contra hlive
        rw [Bool.not_eq_false] at hlive
        obtain ⟨a, ha, hkind⟩ := List.any_eq_true.mp hlive
        rw [Bool.and_eq_true, decide_eq_true_eq] at hkind
        have := ofKind_pos_iff.mpr ⟨a, ha, hkind.1⟩
        omega
      rw [if_pos hev, if_pos ⟨hev, hlive⟩]
      omega
    · rw [if_neg hev, if_neg fun hand => hev hand.1]
      omega
  · rw [halarms, hret]
    exact ⟨hsingle, hreturned⟩

/-- Alarms stay on record. -/
theorem ofKind_run_mono (kind : AlarmKind) (w : World) (calls : List Call) :
    ofKind kind w.store.alarms ≤ ofKind kind (Runs.run step w calls).store.alarms := by
  induction calls generalizing w with
  | nil => exact le_rfl
  | cons call calls ih =>
    refine le_trans ?_ (ih (step w call))
    rcases step_spec w call kind with ⟨store, -, halarms, -⟩ | ⟨-, halarms, -⟩
    · rw [halarms]
      exact Nat.le_add_right _ _
    · rw [halarms]

/-- **When the alarms fire once**: when no call finds a qualifying window of a kind that has an
alarm on record, dismissed or not. -/
theorem firesOnce_iff (calls : List Call) (hdistinct : Distinct calls) :
    FiresOnce calls ↔ Runs.Along step Spares {} calls := by
  constructor
  · intro h
    refine along_spares (fun _ => le_rfl) fun kind hrepeats => ?_
    obtain ⟨-, hsingle, hreturned⟩ := (h calls [] (List.append_nil calls).symm kind).1
    unfold run at hsingle hreturned
    rcases hrepeats with hmore | hmore <;> omega
  · rintro h before later rfl kind
    have hcounted : ∀ calls, Runs.Along step Spares {} calls → Counted (run calls) := fun calls h =>
      Runs.run_invariant_along (fun _ _ hspares hcounted => hcounted.step hspares)
        (fun _ => ⟨Nat.zero_le _, rfl⟩) h
    have hbefore := hcounted before (Runs.along_append.mp h).1 kind
    have hall := hcounted (before ++ later) h kind
    have hdistinct' : Distinct before := by
      unfold Distinct at hdistinct ⊢
      rw [List.flatMap_append, List.map_append] at hdistinct
      exact (List.nodup_append.mp hdistinct).1
    refine ⟨⟨onRecord_run hdistinct' kind, hbefore.1, hbefore.2⟩, fun alarm halarm hkind _ => ?_⟩
    have hpos := ofKind_pos_iff.mpr ⟨alarm, halarm, hkind⟩
    have hmono := ofKind_run_mono kind (run before) later
    unfold run at hmono hall hpos hbefore ⊢
    rw [Runs.run_append] at hall ⊢
    omega

/-! ## A window that is found again -/

/-- A request whose order the evidence changed. -/
def moved (requestId : RequestId) : Call :=
  .recordRequest 0 { requestId, completeComparable := true, payload := .written }

def idA : RequestId := ⟨[97], by decide +kernel⟩

def idB : RequestId := ⟨[98], by decide +kernel⟩

def idC : RequestId := ⟨[99], by decide +kernel⟩

/-- Three requests, all three confirmed. -/
def confirmedCalls : List Call :=
  [moved idA, moved idB, moved idC, .annotate 1 idA.1 none, .annotate 2 idB.1 none,
    .annotate 3 idC.1 none]

theorem firesOnce_confirmed :
    FiresOnce confirmedCalls ↔ Runs.Along step Spares {} confirmedCalls :=
  firesOnce_iff confirmedCalls (by
    unfold Distinct
    decide +kernel)

/-- The alarm is returned again when a confirmation is repeated, and another one is fired when it
has been dismissed. -/
theorem fires_again :
    ofKind .mispromotionRate (run (confirmedCalls ++ [.annotate 4 idA.1 none])).returned =
      2 ∧
    ofKind .mispromotionRate (run (confirmedCalls ++ [.dismissAlarm .mispromotionRate 3,
      .annotate 5 idA.1 none])).store.alarms = 2 ∧
    ¬ FiresOnce (confirmedCalls ++ [.annotate 4 idA.1 none]) ∧
    ¬ FiresOnce (confirmedCalls ++ [.dismissAlarm .mispromotionRate 3,
      .annotate 5 idA.1 none]) := by
  have hagain : ofKind .mispromotionRate
      (run (confirmedCalls ++ [.annotate 4 idA.1 none])).returned = 2 := by
    decide +kernel
  have hrefired : ofKind .mispromotionRate (run (confirmedCalls ++
      [.dismissAlarm .mispromotionRate 3, .annotate 5 idA.1 none])).store.alarms = 2 := by
    decide +kernel
  refine ⟨hagain, hrefired, fun h => ?_, fun h => ?_⟩
  · obtain ⟨-, hsingle, hreturned⟩ := (h _ [] (List.append_nil _).symm .mispromotionRate).1
    rw [hagain] at hreturned
    omega
  · obtain ⟨-, hsingle, -⟩ := (h _ [] (List.append_nil _).symm .mispromotionRate).1
    rw [hrefired] at hsingle
    omega

end SemanticMemory.Tracing.Exit
