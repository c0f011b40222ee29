import Mathlib
import SemanticMemory.Lib.KeyedMap
import SemanticMemory.Lib.Replay
import SemanticMemory.Tracing.Faults

/-!
# What the client says it has shown

The plugin appends to `client_apply.jsonl` whether a window was shown in the plan's order, and
`daemon/tracing.py` reads the whole log before every public operation:
`_ingest_client_apply_locked`, `_apply_ack_locked`, `_bump_apply_loss_locked` and
`_refresh_apply_aggregates_locked`.

## What is modelled, and how

* A row of the apply index is what is read of it, each value as it stands in the file; a key that is
  missing is `null`, and a value that is no dictionary is no row.  The keys `version` and
  `updated_at` of the file are no requests and are left out.
* Of the aggregates there is what these functions read and write.  A file that is missing or cannot
  be read gives the initial ones.
* `json.loads` is an argument: nothing depends on what it reads.

An acknowledgment settles: read again it does nothing, `settling_attempt`.  A line that is refused
counts a loss each time it is read, so the log may be read again when no line is refused, and only
then: `ingest_iff`.
-/

namespace SemanticMemory.Tracing

open Json (units)

/-! ## The log -/

/-- `client_apply.jsonl`. -/
inductive ClientApply where
  | missing
  /-- It is not UTF-8; reading it is an exception that nobody catches here. -/
  | undecodable
  | text (content : Str)

/-- White space that `str.strip` takes off. -/
def isSpace (u : Fin 65536) : Bool :=
  (9 ≤ u.val && u.val ≤ 13) || (28 ≤ u.val && u.val ≤ 32) ||
  ([133, 160, 5760, 8232, 8233, 8239, 8287, 12288].contains u.val) ||
  (8192 ≤ u.val && u.val ≤ 8202)

def strip (s : Str) : Str := ((s.dropWhile isSpace).reverse.dropWhile isSpace).reverse

/-- The lines that are not blank.  A pair of carriage return and line feed ends a line and a blank
one. -/
def ClientApply.lines : ClientApply → List Str
  | .missing | .undecodable => []
  | .text content =>
    ((content.splitOnP fun u => u = 10 || u = 13).map strip).filter (· ≠ [])

/-- `ACK_APPLY_STATES`. -/
inductive AckState where
  | applied | fallback
  deriving DecidableEq

def AckState.name : AckState → Str
  | .applied => units "applied"
  | .fallback => units "fallback"

/-- `apply_state in ACK_APPLY_STATES`. -/
def ackState (v : Json) : Option AckState :=
  if v = .str AckState.applied.name then some .applied
  else if v = .str AckState.fallback.name then some .fallback
  else none

/-- `_safe_name(value, max_len)`. -/
def safeNameWithin (maxLen : ℕ) : Json → Option Str
  | .str s => if s ≠ [] && s.length ≤ maxLen && s.all isSafeUnit then some s else none
  | _ => none

/-- An identity of an acknowledgment: absent, or safe. -/
def ackIdentity : Json → Option (Option Str)
  | .null => some none
  | v => (safeNameWithin 1024 v).map some

/-- A line that is taken. -/
structure Ack where
  requestIds : List Str
  applyState : AckState
  planIdentity : Option Str
  configIdentity : Option Str

/-- The requests that a record names: a list of them, or one. -/
def namedRequests (record : Json) : List Json :=
  match record.get "request_ids" with
  | .arr (x :: xs) => x :: xs
  | _ =>
    let single := record.get "request_id"
    if single.truthy then [single] else []

/-- What a line acknowledges, if it is taken. -/
def readAck (loads : Str → Option Json) (line : Str) : Option Ack :=
  match loads line with
  | some (.obj fields) =>
    let record := Json.obj fields
    if isAscii record then do
      let applyState ← ackState (record.get "apply_state")
      let requestIds ← (namedRequests record).mapM safeName
      if requestIds = [] then none
      else do
        let planIdentity ← ackIdentity (record.get "plan_identity")
        let configIdentity ← ackIdentity (record.get "config_identity")
        some { requestIds, applyState, planIdentity, configIdentity }
    else none
  | _ => none

/-! ## The store -/

structure ApplyRow where
  applyState : Json := .null
  ackEligible : Json := .null
  planIdentity : Json := .null
  configIdentity : Json := .null
  completeComparable : Json := .null
  kind : Json := .null
  ackedAt : Json := .null

/-- `apply_index.json`; a value that is no dictionary is `none`. -/
abbrev ApplyIndex := KeyedMap Str (Option ApplyRow)

def ApplyIndex.row (index : ApplyIndex) (requestId : Str) : Option ApplyRow :=
  if reserved requestId then none else (index.find? requestId).join

structure Denominators where
  computed : ℕ := 0
  applyOutcomes : ℕ := 0
  appliedShadow : ℕ := 0
  timing : ℤ := 0

/-- What `aggregates.json` has of the acknowledgments. -/
structure ApplyAggregates where
  latencyHistogram : List ℤ := []
  computed : ℕ := 0
  applied : ℕ := 0
  fallback : ℕ := 0
  unknown : ℕ := 0
  noChangeApplied : ℕ := 0
  orderChangesApplied : ℕ := 0
  applyLoss : ℕ := 0
  denominators : Denominators := {}

structure ApplyStore where
  index : ApplyIndex := {}
  /-- `aggregates.json`, if it can be read. -/
  aggregates : Option ApplyAggregates := none

def ApplyStore.readAggregates (store : ApplyStore) : ApplyAggregates := store.aggregates.getD {}

/-- `_bump_apply_loss_locked`. -/
def ApplyStore.bumpApplyLoss (store : ApplyStore) : ApplyStore :=
  let aggregates := store.readAggregates
  { store with aggregates := some { aggregates with applyLoss := aggregates.applyLoss + 1 } }

def ApplyRow.acked (row : ApplyRow) : Option AckState := ackState row.applyState

def ApplyIndex.rows (index : ApplyIndex) : List ApplyRow :=
  (index.entries.filter fun e => !reserved e.1).filterMap Prod.snd

/-- `_refresh_apply_aggregates_locked`. -/
def refresh (index : ApplyIndex) (aggregates : ApplyAggregates) : ApplyAggregates :=
  let rows := index.rows
  let applied := rows.filter fun row => row.acked = some .applied
  let orderChanges := applied.countP fun row => row.kind = .str (units "order_change")
  let fallback := rows.countP fun row => row.acked = some .fallback
  let unknown := rows.countP fun row => row.acked = none
  { aggregates with
    computed := rows.length
    applied := applied.length
    fallback := fallback
    unknown := unknown
    noChangeApplied := applied.length - orderChanges
    orderChangesApplied := orderChanges
    denominators := {
      computed := rows.length
      applyOutcomes := applied.length + fallback + unknown
      appliedShadow := applied.countP fun row => row.completeComparable.truthy
      timing := aggregates.latencyHistogram.sum } }

/-! ## Acknowledging -/

/-- An identity of the acknowledgment is not the one of the row. -/
def conflicts (given : Option Str) (stored : Json) : Bool :=
  given.any fun identity => stored.truthy && stored ≠ .str identity

/-- A given identity replaces the one of the row. -/
def orStored (given : Option Str) (stored : Json) : Json := (given.map Json.str).getD stored

def ApplyRow.acknowledge (row : ApplyRow) (now : Json) (ack : Ack) : ApplyRow :=
  { row with
    applyState := .str ack.applyState.name
    ackedAt := now
    planIdentity := orStored ack.planIdentity row.planIdentity
    configIdentity := orStored ack.configIdentity row.configIdentity }

/-- The row takes the acknowledgment: it is eligible, has none yet and the identities agree. -/
def ApplyRow.takes (row : ApplyRow) (ack : Ack) : Bool :=
  row.ackEligible.truthy && row.acked = none && !conflicts ack.planIdentity row.planIdentity &&
    !conflicts ack.configIdentity row.configIdentity

/-- One request of an acknowledgment: the loop of `_apply_ack_locked`. -/
def attempt (now : Json) (index : ApplyIndex) (a : Ack × Str) : ApplyIndex :=
  match index.row a.2 with
  | none => index
  | some row =>
    if row.takes a.1 then index.insert a.2 (some (row.acknowledge now a.1)) else index

/-- `_apply_ack_locked`, without the numbers that it returns. -/
def applyAck (now : Json) (store : ApplyStore) (ack : Ack) : ApplyStore :=
  let index := Runs.run (attempt now) store.index (ack.requestIds.map (ack, ·))
  { index, aggregates := some (refresh index store.readAggregates) }

def ingestLine (loads : Str → Option Json) (now : Str → Json) (store : ApplyStore) (line : Str) :
    ApplyStore :=
  match readAck loads line with
  | none => store.bumpApplyLoss
  | some ack => applyAck (now line) store ack

/-- `_ingest_client_apply_locked`; `now` is when a line is taken.  Where reading the log is an
exception nothing is written. -/
def ingest (loads : Str → Option Json) (file : ClientApply) (store : ApplyStore)
    (now : Str → Json) : ApplyStore :=
  Runs.run (ingestLine loads now) store file.lines

/-! ## What settles -/

variable {loads : Str → Option Json} {now : Str → Json} {time : Json}

/-- The row takes no acknowledgment any more. -/
def ApplyRow.Closed (row : ApplyRow) : Prop := ∀ ack, row.takes ack = false

variable {row : ApplyRow}

theorem closed_of_acked (h : row.acked ≠ none) : row.Closed := by
  intro ack
  unfold ApplyRow.takes
  simp [h]

theorem closed_of_not_eligible (h : row.ackEligible.truthy = false) : row.Closed := by
  intro ack
  unfold ApplyRow.takes
  simp [h]

theorem ackState_name (state : AckState) : ackState (.str state.name) = some state := by
  cases state with
  | applied => exact if_pos rfl
  | fallback => exact (if_neg (by decide +kernel)).trans (if_pos rfl)

theorem closed_acknowledge (row : ApplyRow) (time : Json) (ack : Ack) :
    (row.acknowledge time ack).Closed := by
  refine closed_of_acked ?_
  unfold ApplyRow.acked ApplyRow.acknowledge
  rw [ackState_name]
  exact Option.some_ne_none _

theorem row_insert (index : ApplyIndex) (k id : Str) (row : ApplyRow) :
    ApplyIndex.row (index.insert k (some row)) id =
      if reserved id then none else if id = k then some row else index.row id := by
  unfold ApplyIndex.row
  rw [KeyedMap.find?_insert]
  by_cases hreserved : reserved id = true
  · rw [if_pos hreserved, if_pos hreserved]
  · rw [if_neg hreserved, if_neg hreserved, if_neg hreserved]
    by_cases hid : id = k
    · rw [if_pos hid, if_pos hid]
      rfl
    · rw [if_neg hid, if_neg hid]

/-- **A row after an attempt** is the one that was there, or has been acknowledged. -/
theorem row_attempt (index : ApplyIndex) (a : Ack × Str) (id : Str) :
    (attempt time index a).row id = index.row id ∨
      ∃ row, index.row id = some row ∧ row.takes a.1 = true ∧
        (attempt time index a).row id = some (row.acknowledge time a.1) := by
  unfold attempt
  rcases hrow : index.row a.2 with - | row
  · exact .inl rfl
  dsimp only
  by_cases htakes : row.takes a.1 = true
  · rw [if_pos htakes, row_insert]
    have hfree : reserved a.2 = false := by
      by_contra h
      rw [Bool.not_eq_false] at h
      unfold ApplyIndex.row at hrow
      rw [if_pos h] at hrow
      cases hrow
    by_cases hid : id = a.2
    · subst hid
      rw [hfree]
      exact .inr ⟨row, hrow, htakes, by simp⟩
    · refine .inl ?_
      rw [if_neg hid]
      by_cases hreserved : reserved id = true
      · rw [if_pos hreserved]
        unfold ApplyIndex.row
        rw [if_pos hreserved]
      · rw [if_neg hreserved]
  · rw [if_neg htakes]
    exact .inl rfl

theorem row_attempt_of_closed {index : ApplyIndex} {id : Str} (h : index.row id = some row)
    (hclosed : row.Closed) (a : Ack × Str) : (attempt time index a).row id = some row := by
  rcases row_attempt index a id with hsame | ⟨row', hrow', htakes, -⟩
  · rw [hsame, h]
  · rw [h] at hrow'
    cases hrow'
    rw [hclosed a.1] at htakes
    cases htakes

/-- The request's row does not take the acknowledgment. -/
def Settled (index : ApplyIndex) (a : Ack × Str) : Prop :=
  ∀ row, index.row a.2 = some row → row.takes a.1 = false

/-- **An acknowledgment settles**, whenever it is read again. -/
theorem settling_attempt (time : Json) : Replay.Settling (attempt time) Settled where
  noop index a h := by
    unfold attempt
    rcases hrow : index.row a.2 with - | row
    · rfl
    · exact if_neg (by rw [h row hrow]; decide)
  settles index a := by
    intro row hrow
    rcases row_attempt index a a.2 with hsame | ⟨row', -, -, hnew⟩
    · by_contra htakes
      rw [Bool.not_eq_false] at htakes
      have hold : index.row a.2 = some row := hsame.symm.trans hrow
      have hattempt : attempt time index a =
          index.insert a.2 (some (row.acknowledge time a.1)) := by
        unfold attempt
        rw [hold]
        exact if_pos htakes
      rw [hattempt, row_insert] at hrow
      by_cases hreserved : reserved a.2 = true
      · rw [if_pos hreserved] at hrow
        cases hrow
      · rw [if_neg hreserved, if_pos rfl] at hrow
        have hclosed := closed_acknowledge row time a.1 a.1
        rw [Option.some.inj hrow, htakes] at hclosed
        cases hclosed
    · rw [hnew] at hrow
      cases hrow
      exact closed_acknowledge row' time a.1 a.1
  keeps index a b h := by
    intro row hrow
    rcases row_attempt index b a.2 with hsame | ⟨row', -, -, hnew⟩
    · exact h row (hsame.symm.trans hrow)
    · rw [hnew] at hrow
      cases hrow
      exact closed_acknowledge row' time b.1 a.1

/-! ## Lines -/

def Ack.attempts (ack : Ack) : List (Ack × Str) := ack.requestIds.map (ack, ·)

def indexLine (loads : Str → Option Json) (now : Str → Json) (index : ApplyIndex) (line : Str) :
    ApplyIndex :=
  match readAck loads line with
  | none => index
  | some ack => Runs.run (attempt (now line)) index ack.attempts

theorem index_ingestLine (store : ApplyStore) (line : Str) :
    (ingestLine loads now store line).index = indexLine loads now store.index line := by
  unfold ingestLine indexLine
  cases readAck loads line with
  | none => rfl
  | some ack => rfl

theorem index_run (store : ApplyStore) (lines : List Str) :
    (Runs.run (ingestLine loads now) store lines).index =
      Runs.run (indexLine loads now) store.index lines := by
  induction lines generalizing store with
  | nil => rfl
  | cons line lines ih => rw [Runs.run_cons, Runs.run_cons, ih, index_ingestLine]

/-- Every attempt of a line is settled. -/
def LineSettled (loads : Str → Option Json) (index : ApplyIndex) (line : Str) : Prop :=
  ∀ ack, readAck loads line = some ack → ∀ a ∈ ack.attempts, Settled index a

theorem settling_indexLine (loads : Str → Option Json) (now : Str → Json) :
    Replay.Settling (indexLine loads now) (LineSettled loads) where
  noop index line h := by
    unfold indexLine
    rcases hack : readAck loads line with - | ack
    · rfl
    · exact (settling_attempt _).run_of_settled (h ack hack)
  settles index line := by
    intro ack hack
    have hline : indexLine loads now index line =
        Runs.run (attempt (now line)) index ack.attempts := by
      unfold indexLine
      rw [hack]
    rw [hline]
    exact (settling_attempt _).settled_run index ack.attempts
  keeps index line other h := by
    intro ack hack a ha
    unfold indexLine
    rcases readAck loads other with - | ack'
    · exact h ack hack a ha
    · exact (settling_attempt _).keeps_run (h ack hack a ha) ack'.attempts

/-- What is closed is kept by the whole log. -/
theorem row_run_of_closed {store : ApplyStore} {id : Str} (h : store.index.row id = some row)
    (hclosed : row.Closed) (lines : List Str) :
    (Runs.run (ingestLine loads now) store lines).index.row id = some row := by
  rw [index_run]
  refine Runs.run_invariant (I := fun index : ApplyIndex => index.row id = some row) ?_ h lines
  intro index line hindex
  unfold indexLine
  rcases readAck loads line with - | ack
  · exact hindex
  · exact Runs.run_invariant (I := fun index : ApplyIndex => index.row id = some row)
      (fun index a ha => row_attempt_of_closed ha hclosed a) hindex ack.attempts

/-! ## The counts -/

/-- Only the last index counts. -/
theorem refresh_refresh (index index' : ApplyIndex) (aggregates : ApplyAggregates) :
    refresh index (refresh index' aggregates) = refresh index aggregates := rfl

def refused (loads : Str → Option Json) (line : Str) : Bool := (readAck loads line).isNone

theorem applyLoss_ingestLine (store : ApplyStore) (line : Str) :
    (ingestLine loads now store line).readAggregates.applyLoss =
      store.readAggregates.applyLoss + if refused loads line then 1 else 0 := by
  unfold ingestLine refused
  cases readAck loads line with
  | none => rfl
  | some ack => rfl

/-- **Each refused line is counted once in each reading.** -/
theorem applyLoss_run (store : ApplyStore) (lines : List Str) :
    (Runs.run (ingestLine loads now) store lines).readAggregates.applyLoss =
      store.readAggregates.applyLoss + lines.countP (refused loads) := by
  induction lines generalizing store with
  | nil => rfl
  | cons line lines ih =>
    rw [Runs.run_cons, ih, applyLoss_ingestLine, List.countP_cons]
    omega

theorem aggregates_run (now : Str → Json) {lines : List Str}
    (h : ∀ line ∈ lines, refused loads line = false)
    (hne : lines ≠ []) (store : ApplyStore) :
    (Runs.run (ingestLine loads now) store lines).aggregates =
      some (refresh (Runs.run (indexLine loads now) store.index lines) store.readAggregates) := by
  induction lines generalizing store with
  | nil => exact absurd rfl hne
  | cons line lines ih =>
    obtain ⟨ack, hack⟩ : ∃ ack, readAck loads line = some ack := by
      have hline := h line List.mem_cons_self
      unfold refused at hline
      exact Option.isSome_iff_exists.mp (Option.isNone_eq_false_iff.mp hline)
    have hstep : (ingestLine loads now store line).aggregates =
        some (refresh (indexLine loads now store.index line) store.readAggregates) := by
      unfold ingestLine indexLine
      rw [hack]
      rfl
    rw [Runs.run_cons, Runs.run_cons]
    by_cases hlines : lines = []
    · rw [hlines]
      exact hstep
    · rw [ih (fun l hl => h l (List.mem_cons_of_mem _ hl)) hlines, index_ingestLine]
      refine congrArg some ?_
      have hread : (ingestLine loads now store line).readAggregates =
          refresh (indexLine loads now store.index line) store.readAggregates := by
        unfold ApplyStore.readAggregates
        rw [hstep]
        rfl
      rw [hread, refresh_refresh]

/-! ## Reading the log again -/

/-- The log is read once for each clock. -/
def ingestRuns (loads : Str → Option Json) (file : ClientApply) (store : ApplyStore)
    (clocks : List (Str → Json)) : ApplyStore :=
  Runs.run (ingest loads file) store clocks

/-- Reading the log any number of times is reading it once; the first acknowledged state of a
request stays, and rows that are not eligible stay as they are. -/
def IngestsOnce (loads : Str → Option Json) (file : ClientApply) (store : ApplyStore) : Prop :=
  (∀ now clocks, ingestRuns loads file store (now :: clocks) = ingest loads file store now) ∧
  (∀ now before later, file.lines = before ++ later → ∀ id row,
    (Runs.run (ingestLine loads now) store before).index.row id = some row → row.acked ≠ none →
    (ingest loads file store now).index.row id = some row) ∧
  ∀ now id row, store.index.row id = some row → row.ackEligible.truthy = false →
    (ingest loads file store now).index.row id = some row

/-- A log without refused lines changes nothing when it is read again. -/
theorem ingest_ingest {file : ClientApply} (h : ∀ line ∈ file.lines, refused loads line = false)
    (store : ApplyStore) (now now' : Str → Json) :
    ingest loads file (ingest loads file store now) now' = ingest loads file store now := by
  by_cases hne : file.lines = []
  · unfold ingest
    rw [hne]
    rfl
  have hindex : (ingest loads file (ingest loads file store now) now').index =
      (ingest loads file store now).index := by
    unfold ingest
    rw [index_run, index_run]
    exact (settling_indexLine loads now').run_of_settled
      ((settling_indexLine loads now).settled_run store.index file.lines)
  have haggregates : (ingest loads file (ingest loads file store now) now').aggregates =
      (ingest loads file store now).aggregates := by
    have hfirst := aggregates_run now h hne store
    have hsecond := aggregates_run now' h hne (ingest loads file store now)
    rw [← index_run] at hfirst hsecond
    have hread : (ingest loads file store now).readAggregates =
        refresh (ingest loads file store now).index store.readAggregates := by
      unfold ApplyStore.readAggregates
      unfold ingest
      rw [hfirst]
      rfl
    rw [hread, refresh_refresh] at hsecond
    refine hsecond.trans (Eq.trans ?_ hfirst.symm)
    exact congrArg (fun index => some (refresh index store.readAggregates)) hindex
  cases hone : ingest loads file store now with
  | mk index aggregates =>
    cases htwo : ingest loads file (ingest loads file store now) now' with
    | mk index' aggregates' =>
      rw [htwo, hone] at hindex haggregates
      rw [hone] at htwo
      rw [htwo]
      cases hindex
      cases haggregates
      rfl

/-- **When the log may be read again**: when no line of it is refused. -/
theorem ingest_iff (loads : Str → Option Json) (file : ClientApply) (store : ApplyStore) :
    IngestsOnce loads file store ↔ ∀ line ∈ file.lines, refused loads line = false := by
  constructor
  · rintro ⟨honce, -⟩
    have htwice := honce (fun _ => .null) [fun _ => .null]
    have hloss := congrArg (fun s => s.readAggregates.applyLoss) htwice
    unfold ingestRuns at hloss
    rw [Runs.run_cons, Runs.run_cons, Runs.run_nil] at hloss
    unfold ingest at hloss
    rw [applyLoss_run, applyLoss_run] at hloss
    have hzero : file.lines.countP (refused loads) = 0 := by omega
    intro line hline
    exact Bool.eq_false_iff.mpr (List.countP_eq_zero.mp hzero line hline)
  · intro h
    refine ⟨?_, ?_, ?_⟩
    · intro now clocks
      unfold ingestRuns
      rw [Runs.run_cons]
      induction clocks with
      | nil => rfl
      | cons clock clocks ih => rw [Runs.run_cons, ingest_ingest h, ih]
    · intro now before later hlines id row hrow hacked
      unfold ingest
      rw [hlines, Runs.run_append]
      exact row_run_of_closed hrow (closed_of_acked hacked) later
    · intro now id row hrow heligible
      exact row_run_of_closed hrow (closed_of_not_eligible heligible) file.lines

/-- One line that is no JSON is a loss more with every reading. -/
theorem ingest_counts_again :
    (ingest (fun _ => none) (.text (units "x")) {} fun _ => .null).readAggregates.applyLoss = 1 ∧
    (ingestRuns (fun _ => none) (.text (units "x")) {}
      [fun _ => .null, fun _ => .null]).readAggregates.applyLoss = 2 ∧
    ¬ IngestsOnce (fun _ => none) (.text (units "x")) {} := by
  have hlines : ClientApply.lines (.text (units "x")) = [units "x"] := by decide +kernel
  refine ⟨?_, ?_, ?_⟩
  · unfold ingest
    rw [hlines]
    rfl
  · unfold ingestRuns ingest
    rw [hlines]
    rfl
  · rintro ⟨honce, -⟩
    have htwice := honce (fun _ => .null) [fun _ => .null]
    unfold ingestRuns ingest at htwice
    rw [hlines] at htwice
    exact absurd (congrArg (fun s => s.readAggregates.applyLoss) htwice) (by decide)

end SemanticMemory.Tracing
