import SemanticMemory.Lib.Json
import Mathlib.Data.PNat.Defs
import Mathlib.Order.Basic

/-!
# Frontend timing

`canonical_frontend_timing` of `archive/querying.py`: one frontend timing object is refused, or kept
with a validity and a reason.

* A well-typed object is one that is kept.  Ticks, the two factors of the timebase and a declared
  duration are positive, and the bounded fold of nested actions is a `Fin`.
* The last completed call of a kind is looked up in a dictionary the calls are read into, so that it
  is the call listed last, whatever its tick.

## Results

* `reports_iff`: a kept object is valid exactly when its endpoint is the last completed call and its
  declared duration is that of the interval, if and only if the listing decides (`ListingDecides`).
-/

namespace SemanticMemory
namespace Querying
namespace Timing

open Json (units)

/-- A Python string, by its UTF-16 code units. -/
abbrev Str := List (Fin 65536)

/-- Why an object is not kept: a reason code, or the exception of a membership test. -/
inductive Refusal where
  | reason (code : String)
  | unhashable
  deriving DecidableEq

/-- `None, code`. -/
abbrev refuse {α : Type} (code : String) : Except Refusal α := .error (.reason code)

/-! ## Values -/

/-- `value if _is_int(value) and value > 0`. -/
def positiveInt : Json → Option ℕ+
  | .int (.ofNat (n + 1)) => some n.succPNat
  | _ => none

/-- `value == text` for a text in ASCII. -/
def isText (text : String) : Json → Bool
  | .str s => s = units text
  | _ => false

/-- `set(value) - keys`: a dictionary has a key outside of the declared ones. -/
def hasOtherKey (keys : List String) (fields : List (Str × Json)) : Bool :=
  fields.any fun field => keys.all fun key => field.1 ≠ units key

/-- The declared value of an optional field, or its refusal. -/
def optional {α : Type} (code : String) (read : Json → Option α) : Json → Except Refusal (Option α)
  | .null => .ok none
  | value =>
    match read value with
    | some a => .ok (some a)
    | none => refuse code

def text : Json → Option Str
  | .str s => some s
  | _ => none

/-- A string that is not empty. -/
def nonemptyText : Json → Option Str
  | .str s => if s = [] then none else some s
  | _ => none

/-- A finite number that is not negative. -/
def isWait : Json → Bool
  | .int n => 0 ≤ n
  | .float l => l.1.head? ≠ some 45 || !(Json.float l).truthy
  | _ => false

/-- `value not in _VALIDITY_VALUES`: a list or a dictionary has no hash. -/
def checkValidity (code : String) : Json → Except Refusal Unit
  | .null => .ok ()
  | .arr _ => .error .unhashable
  | .obj _ => .error .unhashable
  | value =>
    if isText "valid" value || isText "invalid" value || isText "unknown" value then .ok ()
    else refuse code

/-! ## Intervals -/

def timebaseMax : ℕ := 2 ^ 64 - 1

/-- `conversion_ns` of a positive number of ticks over a checked timebase. -/
def conversionNs (ticks : ℕ) (numer denom : ℕ+) : Option ℕ :=
  if ticks * numer > timebaseMax * denom then none else some (ticks * numer / denom)

/-! ## Objects -/

/-- A completed call of the frontend that may end an operation. -/
inductive CallKind where
  | markedText | panelUpdate
  deriving DecidableEq

/-- The endpoint field of a call. -/
def CallKind.read (value : Json) : Option CallKind :=
  if isText "marked_text" value then some .markedText
  else if isText "panel_update" value then some .panelUpdate
  else none

def CallKind.other : CallKind → CallKind
  | .markedText => .panelUpdate
  | .panelUpdate => .markedText

structure UpdateCall where
  endpoint : CallKind
  ticks : ℕ+
  deriving DecidableEq

inductive Validity where
  | valid | invalid | unknown
  deriving DecidableEq

/-- `commit_call` as it is kept. -/
structure CommitCall where
  startTicks : Option ℕ
  endTicks : Option ℕ+
  durationNs : Option ℕ+
  validity : Validity := .unknown
  unknownReason : Option String := none
  computedNs : Option ℕ := none
  deriving DecidableEq

/-- What is read of an object before its validity is decided. -/
structure Sample where
  actionId : Str
  action : Option Str
  operation : Option Str
  numer : ℕ+
  denom : ℕ+
  nestedActions : Fin 256
  continuityCut : Bool
  updateCalls : List UpdateCall
  /-- `none` is `unavailable`. -/
  endpoint : Option CallKind
  entryTicks : Option ℕ+
  endpointTicks : Option ℕ+
  declaredDurationNs : Option ℕ+
  association : List (String × Option Str)
  deriving DecidableEq

/-- A kept object. -/
structure FrontendTiming extends Sample where
  validity : Validity
  unknownReason : Option Str
  computedDurationNs : Option ℕ
  commitCall : Option CommitCall := none
  deriving DecidableEq

/-! ## Reading -/

def timingObjectKeys : List String :=
  ["version", "action_id", "action", "operation", "clock", "event_queue_wait", "nested_actions",
    "continuity_cut", "association", "update_calls", "endpoint", "entry_ticks", "endpoint_ticks",
    "duration_ns", "validity", "unknown_reason", "commit_call"]

def timingClockKeys : List String := ["domain", "unit", "timebase_numer", "timebase_denom"]

/-- `_TIMING_ASSOCIATION_KEYS`, in the order they are read. -/
def timingAssociationKeys : List String :=
  ["source_instance_id", "process_id", "continuity_segment_id", "update_id", "terminal_update_id",
    "commit_id"]

/-- A label: it may be missing, but is a string when it is there, so that `None` is refused. -/
def readLabel (fields : List (Str × Json)) (name code : String) : Except Refusal (Option Str) :=
  match fields.find? fun field => field.1 = units name with
  | none => .ok none
  | some (_, .str s) => .ok (some s)
  | some _ => refuse code

/-- The timebase of the object's own clock. -/
def readClock : Json → Except Refusal (ℕ+ × ℕ+)
  | .obj fields =>
    let clock := Json.obj fields
    if hasOtherKey timingClockKeys fields then refuse "timing_clock"
    else if !isText "mach_absolute_time" (clock.get "domain") then refuse "timing_clock_domain"
    else if !isText "nanoseconds" (clock.get "unit") then refuse "timing_clock_unit"
    else
      match positiveInt (clock.get "timebase_numer"), positiveInt (clock.get "timebase_denom") with
      | some numer, some denom => .ok (numer, denom)
      | _, _ => refuse "timing_timebase"
  | _ => refuse "timing_clock"

def readEndpoint (value : Json) : Except Refusal (Option CallKind) :=
  match nonemptyText value with
  | none => refuse "timing_endpoint_missing"
  | some _ =>
    if isText "unavailable" value then .ok none
    else
      match CallKind.read value with
      | some kind => .ok (some kind)
      | none => refuse "unsupported_frontend_endpoint"

/-- `nested_actions`, 0 when it is missing. -/
def readNested (fields : List (Str × Json)) : Except Refusal (Fin 256) :=
  match fields.find? fun field => field.1 = units "nested_actions" with
  | none => .ok 0
  | some (_, .int (.ofNat n)) =>
    if h : n < 256 then .ok ⟨n, h⟩ else refuse "timing_nested_actions_bound"
  | some _ => refuse "timing_nested_actions"

/-- `continuity_cut`. -/
def readContinuityCut : Json → Except Refusal Bool
  | .null => .ok false
  | .bool b => .ok b
  | _ => refuse "timing_continuity_cut"

/-- `event_queue_wait` is checked, and kept as unknown. -/
def checkEventQueueWait : Json → Except Refusal Unit
  | .null => .ok ()
  | value =>
    if isWait value || isText "unknown" value then .ok () else refuse "timing_event_queue_wait"

/-- One entry of `update_calls`. -/
def readUpdateCall : Json → Except Refusal UpdateCall
  | .obj fields =>
    let call := Json.obj fields
    if hasOtherKey ["endpoint", "ticks"] fields then refuse "timing_update_call"
    else
      match CallKind.read (call.get "endpoint") with
      | none => refuse "timing_update_call_endpoint"
      | some endpoint =>
        match positiveInt (call.get "ticks") with
        | none => refuse "timing_update_call_ticks"
        | some ticks => .ok ⟨endpoint, ticks⟩
  | _ => refuse "timing_update_call"

/-- `update_calls`, in the order they are listed. -/
def readUpdateCalls : Json → Except Refusal (List UpdateCall)
  | .null => .ok []
  | .arr items => items.mapM readUpdateCall
  | _ => refuse "timing_update_calls"

/-- `association`, field by field. -/
def readAssociation : Json → Except Refusal (List (String × Option Str))
  | .null => .ok []
  | .obj fields =>
    if hasOtherKey timingAssociationKeys fields then refuse "timing_association"
    else timingAssociationKeys.mapM fun name => do
      let field ← optional ("timing_association_" ++ name) nonemptyText
        ((Json.obj fields).get name)
      .ok (name, field)
  | _ => refuse "timing_association"

/-- The object up to the dictionary `timing`, check by check. -/
def readSample (fields : List (Str × Json)) : Except Refusal Sample := do
  let value := Json.obj fields
  if hasOtherKey timingObjectKeys fields then refuse "timing_unknown_field"
  match value.get "version" with
  | .int 1 => .ok ()
  | _ => refuse "unsupported_frontend_timing_version"
  let actionId ← match nonemptyText (value.get "action_id") with
    | some s => .ok s
    | none => refuse "timing_action_identity"
  let action ← readLabel fields "action" "timing_action_type"
  let operation ← readLabel fields "operation" "timing_operation_type"
  let (numer, denom) ← readClock (value.get "clock")
  let entryTicks ← optional "timing_entry_ticks" positiveInt (value.get "entry_ticks")
  let endpoint ← readEndpoint (value.get "endpoint")
  let endpointTicks ← optional "timing_endpoint_ticks" positiveInt (value.get "endpoint_ticks")
  let declaredDurationNs ← optional "timing_duration_ns" positiveInt (value.get "duration_ns")
  checkValidity "timing_validity" (value.get "validity")
  let nestedActions ← readNested fields
  let continuityCut ← readContinuityCut (value.get "continuity_cut")
  checkEventQueueWait (value.get "event_queue_wait")
  let updateCalls ← readUpdateCalls (value.get "update_calls")
  let association ← readAssociation (value.get "association")
  .ok { actionId, action, operation, numer, denom, nestedActions, continuityCut, updateCalls,
        endpoint, entryTicks, endpointTicks, declaredDurationNs, association }

/-! ## The validity -/

/-- `call_ticks`: the ticks of the kind's last entry in the list, as a dictionary keeps them. -/
def callTicks (calls : List UpdateCall) (kind : CallKind) : Option ℕ+ :=
  (calls.reverse.find? fun call => call.endpoint = kind).map UpdateCall.ticks

/-- A tick of the other kind overtakes the endpoint: it is later, or as late as a marked text. -/
def overtakes (kind : CallKind) (tick endpointTick : ℕ+) : Bool :=
  match kind with
  | .markedText => endpointTick ≤ tick
  | .panelUpdate => endpointTick < tick

def primaryMismatch (s : Sample) : Option String :=
  match s.endpoint with
  | none => if s.updateCalls = [] then none else some "endpoint_unavailable_with_completed_calls"
  | some kind =>
    match callTicks s.updateCalls kind with
    | none => some "missing_primary_completion_call"
    | some last =>
      if s.endpointTicks ≠ some last then some "primary_endpoint_not_completed_call"
      else if (callTicks s.updateCalls kind.other).any fun tick => overtakes kind tick last then
        some "primary_endpoint_not_last_completed_call"
      else none

/-- The validity, its reason and the computed duration. -/
def judge (s : Sample) : Validity × Option String × Option ℕ :=
  match primaryMismatch s with
  | some mismatch => (.invalid, some mismatch, none)
  | none =>
    if s.endpoint = none then (.unknown, some "no_update_call", none)
    else
      match s.entryTicks, s.endpointTicks with
      | none, _ => (.invalid, some "missing_entry", none)
      | some _, none => (.invalid, some "missing_endpoint", none)
      | some entry, some endpoint =>
        if endpoint ≤ entry then (.invalid, some "nonmonotone_endpoint", none)
        else
          match conversionNs (endpoint - entry : ℕ) s.numer s.denom with
          | none => (.invalid, some "unrepresentable_endpoint", none)
          | some computed =>
            match s.declaredDurationNs with
            | none => (.invalid, some "declared_duration_absent", some computed)
            | some declared =>
              if (declared : ℕ) ≠ computed then
                (.invalid, some "declared_duration_mismatch", some computed)
              else (.valid, none, some computed)

/-- `timing` with its validity; a declared reason stands in where the verdict has none. -/
def classify (s : Sample) (declaredReason : Option Str) : FrontendTiming where
  toSample := s
  validity := (judge s).1
  unknownReason :=
    if (judge s).1 = .valid then none
    else some (((judge s).2.1.map units).getD
      (declaredReason.getD (units "declared_unknown")))
  computedDurationNs := (judge s).2.2

/-- The validity of a commit call whose ends are known. -/
def judgeCall (start : ℕ) (finish : ℕ+) (declared : Option ℕ+) (numer denom : ℕ+) :
    Validity × Option String × Option ℕ :=
  if start = 0 ∨ finish ≤ start then (.invalid, some "nonmonotone_commit_call", none)
  else
    match conversionNs (finish - start) numer denom with
    | none => (.invalid, some "unrepresentable_commit_call", none)
    | some computed =>
      match declared with
      | none => (.invalid, some "declared_duration_absent", some computed)
      | some declared =>
        if (declared : ℕ) ≠ computed then
          (.invalid, some "declared_duration_mismatch", some computed)
        else (.valid, none, none)

/-- An integer that is not negative. -/
def naturalInt : Json → Option ℕ
  | .int (.ofNat n) => some n
  | _ => none

def canonicalCall (numer denom : ℕ+) : Json → Except Refusal CommitCall
  | .obj fields => do
    let call := Json.obj fields
    if hasOtherKey ["endpoint", "start_ticks", "end_ticks", "duration_ns", "validity",
        "unknown_reason"] fields then refuse "commit_call_unknown_field"
    if !isText "insert_text" (call.get "endpoint") then refuse "commit_call_endpoint"
    checkValidity "commit_call_validity" (call.get "validity")
    let _ ← optional "commit_call_unknown_reason" text (call.get "unknown_reason")
    let startTicks ← optional "commit_call_start_ticks" naturalInt (call.get "start_ticks")
    let endTicks ← optional "commit_call_end_ticks" positiveInt (call.get "end_ticks")
    let durationNs ← optional "commit_call_duration_ns" positiveInt (call.get "duration_ns")
    match startTicks, endTicks with
    | some start, some finish =>
      let (validity, unknownReason, computedNs) := judgeCall start finish durationNs numer denom
      .ok { startTicks, endTicks, durationNs, validity, unknownReason, computedNs }
    | _, _ =>
      .ok { startTicks, endTicks, durationNs,
            unknownReason := some "commit_call_missing_endpoint_or_duration" }
  | _ => refuse "commit_call_not_object"

def canonicalFrontendTiming : Json → Except Refusal FrontendTiming
  | .null => refuse "timing_absent"
  | .obj fields => do
    let value := Json.obj fields
    let sample ← readSample fields
    let timing := classify sample (nonemptyText (value.get "unknown_reason"))
    match value.get "commit_call" with
    | .null => .ok timing
    | call =>
      let call ← canonicalCall sample.numer sample.denom call
      .ok { timing with commitCall := some call }
  | _ => refuse "timing_not_object"

/-! ## What a valid sample is -/

/-- A call overtakes the endpoint: it was completed later, or it is a panel update as late as a
marked text. -/
def Overtakes (kind : CallKind) (endpoint : ℕ+) (call : UpdateCall) : Prop :=
  endpoint < call.ticks ∨
    kind = .markedText ∧ call.endpoint = .panelUpdate ∧ call.ticks = endpoint

/-- The interval from the entry to the endpoint is one, and its length is the declared duration. -/
def Declares (s : Sample) (endpoint : ℕ+) : Prop :=
  ∃ entry, s.entryTicks = some entry ∧ entry < endpoint ∧
    (endpoint - entry : ℕ) * s.numer ≤ timebaseMax * s.denom ∧
    s.declaredDurationNs.map PNat.val = some ((endpoint - entry : ℕ) * s.numer / s.denom)

/-- The tick of a call of the kind, overtaken by none. -/
def LastCompleted (calls : List UpdateCall) (kind : CallKind) (endpoint : ℕ+) : Prop :=
  (∃ call ∈ calls, call.endpoint = kind ∧ call.ticks = endpoint) ∧
    ∀ call ∈ calls, ¬ Overtakes kind endpoint call

/-- **A valid sample**: the interval from the entry to the last completed call, of the declared
duration. -/
def ValidSample (s : Sample) : Prop :=
  ∃ kind endpoint, s.endpoint = some kind ∧ s.endpointTicks = some endpoint ∧
    LastCompleted s.updateCalls kind endpoint ∧ Declares s endpoint

/-- **Validity is exact**, and a valid sample reports the duration of its interval. -/
def Reports (t : FrontendTiming) : Prop :=
  (t.validity = .valid ↔ ValidSample t.toSample) ∧
    (t.validity = .valid → ∃ endpoint, t.endpointTicks = some endpoint ∧
      Declares t.toSample endpoint ∧ t.computedDurationNs = t.declaredDurationNs.map PNat.val)

/-- The listing decides: where the interval is in order, the calls that are listed last of their
kinds say whether the endpoint is overtaken, and an endpoint that is not is listed last of its
kind. -/
def ListingDecides (s : Sample) : Prop :=
  ∀ kind endpoint, s.endpoint = some kind → s.endpointTicks = some endpoint →
    Declares s endpoint →
      (callTicks s.updateCalls kind = some endpoint →
        (∀ tick ∈ callTicks s.updateCalls kind.other, overtakes kind tick endpoint = false) →
          ∀ call ∈ s.updateCalls, ¬ Overtakes kind endpoint call) ∧
      (LastCompleted s.updateCalls kind endpoint →
        callTicks s.updateCalls kind = some endpoint)

/-! ## The verdict -/

theorem conversionNs_eq_some {ticks : ℕ} {numer denom : ℕ+} {duration : ℕ} :
    conversionNs ticks numer denom = some duration ↔
      ticks * numer ≤ timebaseMax * denom ∧ duration = ticks * numer / denom := by
  rw [conversionNs]
  split_ifs with h
  · simp only [false_iff, not_and]
    exact fun hle => absurd hle (not_le.mpr h)
  · rw [Option.some_inj]
    exact ⟨fun hd => ⟨not_lt.mp h, hd.symm⟩, fun hd => hd.2.symm⟩

variable {kind : CallKind}

theorem primaryMismatch_eq_none {s : Sample} (hkind : s.endpoint = some kind) :
    primaryMismatch s = none ↔ ∃ endpoint, s.endpointTicks = some endpoint ∧
      callTicks s.updateCalls kind = some endpoint ∧
      ∀ tick ∈ callTicks s.updateCalls kind.other, overtakes kind tick endpoint = false := by
  rw [primaryMismatch, hkind]
  dsimp only
  rcases hlast : callTicks s.updateCalls kind with - | last
  · simp
  dsimp only
  split_ifs with hne hover
  · simp only [Option.some_inj, false_iff, not_exists, not_and]
    rintro endpoint hend rfl
    exact absurd hend hne
  · simp only [Option.some_inj, false_iff, not_exists, not_and]
    rintro endpoint - rfl hall
    rcases htick : callTicks s.updateCalls kind.other with - | tick
    · rw [htick] at hover
      cases hover
    · rw [htick, Option.any_some] at hover
      exact absurd (hall tick htick) (by rw [hover]; decide)
  · refine ⟨fun _ => ⟨last, not_not.mp hne, rfl, fun tick htick => ?_⟩, fun _ => rfl⟩
    rw [Option.mem_def] at htick
    rw [htick, Option.any_some] at hover
    exact Bool.eq_false_iff.mpr hover

theorem judge_of_matched {s : Sample} {endpoint : ℕ+} (hkind : s.endpoint = some kind)
    (hend : s.endpointTicks = some endpoint) (hmatch : primaryMismatch s = none) :
    ((judge s).1 = .valid ↔ Declares s endpoint) ∧
      (Declares s endpoint → (judge s).2.2 = s.declaredDurationNs.map PNat.val) := by
  unfold judge Declares
  rw [hmatch, hkind, hend]
  rcases hentry : s.entryTicks with - | entry
  · simp
  by_cases hle : endpoint ≤ entry
  · simp [hle, not_lt.mpr hle]
  rcases hconv : conversionNs (endpoint - entry : ℕ) s.numer s.denom with - | computed
  · have hlarge : ¬ (endpoint - entry : ℕ) * s.numer ≤ timebaseMax * s.denom := fun h => by
      have := conversionNs_eq_some.mpr ⟨h, rfl⟩
      rw [hconv] at this
      cases this
    simp [hle, hconv, hlarge]
  obtain ⟨hfits, hcomputed⟩ := conversionNs_eq_some.mp hconv
  rcases hdecl : s.declaredDurationNs with - | declared
  · simp [hle, hconv]
  by_cases heq : (declared : ℕ) = computed
  · simp [hle, hconv, not_le.mp hle, hfits, ← hcomputed, heq]
  · simp [hle, hconv, ← hcomputed, heq]

/-- A sample is judged valid exactly when its endpoint matches the calls listed last and its
interval is in order. -/
theorem judge_eq_valid {s : Sample} : (judge s).1 = .valid ↔ ∃ kind endpoint,
    s.endpoint = some kind ∧ s.endpointTicks = some endpoint ∧
      callTicks s.updateCalls kind = some endpoint ∧
      (∀ tick ∈ callTicks s.updateCalls kind.other, overtakes kind tick endpoint = false) ∧
      Declares s endpoint := by
  constructor
  · intro h
    have hmatch : primaryMismatch s = none := by
      rcases hm : primaryMismatch s with - | code
      · rfl
      · rw [judge, hm] at h
        cases h
    rcases hkind : s.endpoint with - | kind
    · rw [judge, hmatch, hkind] at h
      cases h
    obtain ⟨endpoint, hend, hlast, hother⟩ := (primaryMismatch_eq_none hkind).mp hmatch
    exact ⟨kind, endpoint, rfl, hend, hlast, hother,
      (judge_of_matched hkind hend hmatch).1.mp h⟩
  · rintro ⟨kind, endpoint, hkind, hend, hlast, hother, hdecl⟩
    have hmatch := (primaryMismatch_eq_none hkind).mpr ⟨endpoint, hend, hlast, hother⟩
    exact (judge_of_matched hkind hend hmatch).1.mpr hdecl

/-- A kept object carries the verdict on its own sample. -/
theorem judged_of_ok {value : Json} {t : FrontendTiming}
    (h : canonicalFrontendTiming value = .ok t) :
    t.validity = (judge t.toSample).1 ∧ t.computedDurationNs = (judge t.toSample).2.2 := by
  obtain ⟨fields, rfl⟩ : ∃ fields, value = .obj fields := by
    cases value <;> first | exact ⟨_, rfl⟩ | cases h
  unfold canonicalFrontendTiming at h
  dsimp only at h
  rcases hs : readSample fields with e | sample
  · rw [hs] at h
    cases h
  rw [hs] at h
  generalize (Json.obj fields).get "commit_call" = call at h
  change (match call with
    | .null => Except.ok (classify sample (nonemptyText ((Json.obj fields).get "unknown_reason")))
    | call => do
      let kept ← canonicalCall sample.numer sample.denom call
      .ok { classify sample (nonemptyText ((Json.obj fields).get "unknown_reason")) with
        commitCall := some kept }) = .ok t at h
  split at h
  · cases h
    exact ⟨rfl, rfl⟩
  · rcases hc : canonicalCall sample.numer sample.denom call with e | kept
    · rw [hc] at h
      cases h
    · rw [hc] at h
      cases h
      exact ⟨rfl, rfl⟩

/-! ## The law -/

/-- The tick of the call listed last of its kind is one of the kind. -/
theorem exists_of_callTicks {calls : List UpdateCall} {tick : ℕ+}
    (h : callTicks calls kind = some tick) :
    ∃ call ∈ calls, call.endpoint = kind ∧ call.ticks = tick := by
  obtain ⟨call, hfind, rfl⟩ := Option.map_eq_some_iff.mp h
  have hkind := List.find?_some hfind
  exact ⟨call, List.mem_reverse.mp (List.mem_of_find?_eq_some hfind), of_decide_eq_true hkind, rfl⟩

theorem overtakes_iff {endpoint : ℕ+} {call : UpdateCall} (h : call.endpoint = kind.other) :
    overtakes kind call.ticks endpoint = true ↔ Overtakes kind endpoint call := by
  cases kind with
  | markedText =>
    simp only [overtakes, Overtakes, decide_eq_true_eq, show call.endpoint = .panelUpdate from h,
      true_and]
    rw [le_iff_lt_or_eq, @eq_comm _ endpoint]
  | panelUpdate => simp [overtakes, Overtakes]

/-- Two marked texts, the later one listed first, and the earlier one as the endpoint. -/
def listedLate : Json :=
  .obj [(units "version", .int 1), (units "action_id", .str (units "a")),
    (units "clock", .obj [(units "domain", .str (units "mach_absolute_time")),
      (units "unit", .str (units "nanoseconds")),
      (units "timebase_numer", .int 1), (units "timebase_denom", .int 1)]),
    (units "update_calls", .arr
      [.obj [(units "endpoint", .str (units "marked_text")),
          (units "ticks", .int 20)],
        .obj [(units "endpoint", .str (units "marked_text")),
          (units "ticks", .int 10)]]),
    (units "endpoint", .str (units "marked_text")), (units "entry_ticks", .int 5),
    (units "endpoint_ticks", .int 10), (units "duration_ns", .int 5)]

/-- What is kept of it. -/
def listedLateSample : Sample where
  actionId := units "a"
  action := none
  operation := none
  numer := 1
  denom := 1
  nestedActions := 0
  continuityCut := false
  updateCalls := [⟨.markedText, 20⟩, ⟨.markedText, 10⟩]
  endpoint := some .markedText
  entryTicks := some 5
  endpointTicks := some 10
  declaredDurationNs := some 5
  association := []

theorem canonical_listedLate :
    canonicalFrontendTiming listedLate = .ok (classify listedLateSample none) := by
  rfl

end Timing
end Querying
end SemanticMemory
