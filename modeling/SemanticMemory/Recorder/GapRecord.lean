import SemanticMemory.Basic

/-!
# The durable gap record

Four kinds of files under the fact root say what the recorder lost: intent files, the lock file with
its state word, `recording_gap.json`, and one marker per recorder process.  The recorder's worker
writes them (`src/recorder_coordinator.cc`); `read_recording_gap` (`daemon/maintenance.py`) reads
them.

## What is modelled, and how

* `Disk` is the content of these files.  A name made from `RandomUuid` is the next number that was
  never used.
* Each durable function takes the outcome of every system call it makes.  A write that fails can
  leave the old content, an empty file, a torn one or the whole new content (`Leftover`), and a
  failed replacement of the record can come before or after the rename (`Replace`).
* A process that dies inside a function is a run of the function whose remaining calls fail without
  effect, followed by the death of the process: the files are then the same.
* The worker holds the exclusive lock over the whole of `ensureGapState`, `updateGap` and
  `markGapUnknown`, and a reader that finds it held answers `unknown`; so a reader is placed between
  these functions.
* `updated_at_ms` and `gap_version` are left out: the writer's values always pass.
-/

namespace SemanticMemory
namespace Recorder

/-- `std::numeric_limits<int64_t>::max()`. -/
def int64Max : ℤ := 2 ^ 63 - 1

/-! ## The record -/

/-- The four counters of a gap. -/
inductive Counter where
  | batches | events | retractions | bytes
  deriving DecidableEq

instance : Fintype Counter :=
  ⟨{.batches, .events, .retractions, .bytes}, fun k => by cases k <;> decide⟩

/-- A value for each counter, ordered and added counter by counter. -/
abbrev Counts := Counter → ℤ

/-- `state` of a gap record. -/
inductive GapState where
  | none | present | unknown
  deriving DecidableEq

/-- `reason` of a gap record. -/
inductive GapReason where
  | none | bufferOverflowBatches | bufferOverflowBytes | recordingGap | shutdownUnpersisted
  | storeWriteFailed | gapPersistenceFailed | gapUpdateInProgress
  deriving DecidableEq

/-- The stable epoch value `"unknown"`. -/
def unknownEpoch : Text := [117, 110, 107, 110, 111, 119, 110]

/-- `GapFile`: the content of `recording_gap.json`. -/
structure GapFile where
  state : GapState := .none
  reason : GapReason := .none
  storeEpoch : Text := unknownEpoch
  batches : ℤ := 0
  events : ℤ := 0
  retractions : ℤ := 0
  bytes : ℤ := 0
  deriving DecidableEq

def GapFile.counts (g : GapFile) : Counts
  | .batches => g.batches
  | .events => g.events
  | .retractions => g.retractions
  | .bytes => g.bytes

/-- `IsPresentGapReason`, and `_PRESENT_GAP_REASONS`. -/
def isPresentGapReason : GapReason → Bool
  | .bufferOverflowBatches | .bufferOverflowBytes | .recordingGap | .shutdownUnpersisted
  | .storeWriteFailed => true
  | _ => false

/-- `IsUnknownGapReason`, and `_UNKNOWN_GAP_REASONS`. -/
def isUnknownGapReason : GapReason → Bool
  | .gapPersistenceFailed | .gapUpdateInProgress => true
  | _ => false

/-- A letter, a digit, `-` or `_`. -/
def isEpochByte (b : Byte) : Bool :=
  (97 ≤ b.val && b.val ≤ 122) || (65 ≤ b.val && b.val ≤ 90) || (48 ≤ b.val && b.val ≤ 57) ||
    b.val = 45 || b.val = 95

def isSafeEpoch (epoch : Text) : Bool :=
  epoch ≠ [] && epoch.length ≤ 64 && epoch.all isEpochByte

def isValidGap (g : GapFile) : Bool :=
  match g.state with
  | .none => g.reason = .none && g.batches = 0 && g.events = 0 && g.retractions = 0 && g.bytes = 0
  | .present => isPresentGapReason g.reason && isSafeEpoch g.storeEpoch
  | .unknown => isUnknownGapReason g.reason && isSafeEpoch g.storeEpoch

/-- `_validate_gap`, on the fields of a version 2 record. -/
def validateGap (g : GapFile) : Option GapFile :=
  if ¬ isSafeEpoch g.storeEpoch ∨ ¬ (0 ≤ g.batches ∧ 0 ≤ g.events ∧ 0 ≤ g.retractions ∧ 0 ≤ g.bytes)
    then none
  else if g.state = .none ∧ (g.reason ≠ .none ∨ g.batches ≠ 0 ∨ g.events ≠ 0 ∨ g.retractions ≠ 0 ∨
    g.bytes ≠ 0) then none
  else if g.state = .present ∧ ¬ isPresentGapReason g.reason then none
  else if g.state = .unknown ∧ ¬ isUnknownGapReason g.reason then none
  else some g

/-- `CurrentStoreEpoch`; `none` when the facts are missing, locked or unreadable. -/
def currentStoreEpoch (read : Option Text) : Text :=
  match read with
  | some epoch => if isSafeEpoch epoch then epoch else unknownEpoch
  | none => unknownEpoch

def addWithoutOverflow (value delta : ℤ) : Option ℤ :=
  if delta < 0 ∨ value < 0 ∨ value > int64Max - delta then none else some (value + delta)

/-- The four `AddWithoutOverflow` calls of `UpdateGap`. -/
def GapFile.add (g : GapFile) (delta : Counts) : Option GapFile := do
  let batches ← addWithoutOverflow g.batches (delta .batches)
  let events ← addWithoutOverflow g.events (delta .events)
  let retractions ← addWithoutOverflow g.retractions (delta .retractions)
  let bytes ← addWithoutOverflow g.bytes (delta .bytes)
  return { g with batches, events, retractions, bytes }

/-! ## The files -/

/-- The content of `recording_gap.lock`. -/
inductive LockFile where
  | absent | empty | safe | present | unknown | other
  deriving DecidableEq

/-- The content of a process marker. -/
inductive MarkerState where
  | clean | pending | unknown | other
  deriving DecidableEq

/-- A `.recording_process.*` file; `live` while its process holds the `flock` on it. -/
structure Marker where
  name : ℕ
  state : MarkerState
  live : Bool

/-- The gap files of one fact root. -/
structure Disk where
  intents : List ℕ := []
  lock : LockFile := .absent
  json : Option GapFile := none
  markers : List Marker := []
  nextName : ℕ := 0

/-- What a failed rewrite of a small file leaves in it. -/
inductive Leftover where
  | untouched | truncated | torn | whole
  deriving DecidableEq

/-- How the rewrite of a small file ends. -/
inductive Rewrite where
  | ok | failed (left : Leftover)
  deriving DecidableEq

/-- How the replacement of the record ends. -/
inductive Replace where
  | ok | failed | renamedNotSynced
  deriving DecidableEq

inductive LockOpen where
  | opened | refused | refusedAfterCreate
  deriving DecidableEq

/-- How unlinking a file ends. -/
inductive Unlink where
  | ok | failed | unlinkedNotSynced
  deriving DecidableEq

/-! ## Durable functions of the worker -/

def writeGapFile (state : GapState) (reason : GapReason) (gap : GapFile) (how : Replace)
    (d : Disk) : Bool × Disk :=
  match how with
  | .ok => (true, { d with json := some { gap with state, reason } })
  | .renamedNotSynced => (false, { d with json := some { gap with state, reason } })
  | .failed => (false, d)

/-- `ReadGapFile`; `none` when the record cannot be read, `some none` when there is none. -/
def readGapFile (readOk : Bool) (d : Disk) : Option (Option GapFile) :=
  if readOk then
    match d.json with
    | none => some none
    | some gap => if isValidGap gap then some (some gap) else none
  else none

def openGapLock (how : LockOpen) (d : Disk) : Bool × Disk :=
  let created := { d with lock := if d.lock = .absent then .empty else d.lock }
  match how with
  | .opened => (true, created)
  | .refused => (false, d)
  | .refusedAfterCreate => (false, created)

def writeGapLockState (state : LockFile) (how : Rewrite) (d : Disk) : Bool × Disk :=
  match how with
  | .ok => (true, { d with lock := state })
  | .failed .untouched => (false, d)
  | .failed .truncated => (false, { d with lock := .empty })
  | .failed .torn => (false, { d with lock := .other })
  | .failed .whole => (false, { d with lock := state })

/-- The outcomes in `EnsureGapState`. -/
structure EnsureEnv where
  lockOpen : LockOpen := .opened
  listOk : Bool := true
  readOk : Bool := true
  lockReadOk : Bool := true
  epochRead : Option Text := none
  lockWrite : Rewrite := .ok
  jsonWrite : Replace := .ok

def ensureGapState (env : EnsureEnv) (d : Disk) : Bool × Disk :=
  let opened := openGapLock env.lockOpen d
  let d := opened.2
  if ¬ opened.1 then (false, d)
  else
    match if env.listOk then readGapFile env.readOk d else none with
    | none => (false, d)
    | some found =>
      if d.intents ≠ [] then (true, d)
      else
        let lockState := if env.lockReadOk then d.lock else .other
        match found with
        | none =>
          if lockState = .empty then
            let locked := writeGapLockState .safe env.lockWrite d
            if locked.1 then
              writeGapFile .none .none { storeEpoch := currentStoreEpoch env.epochRead }
                env.jsonWrite locked.2
            else locked
          else (false, d)
        | some gap =>
          match gap.state with
          | .none => (lockState = .safe, d)
          | .present =>
            if lockState = .empty then writeGapLockState .present env.lockWrite d
            else (lockState = .safe || lockState = .present, d)
          | .unknown => (lockState = .unknown, d)

/-- The outcomes in `UpdateGap`. -/
structure UpdateEnv where
  lockOpen : LockOpen := .opened
  lockUnknown : Rewrite := .ok
  readOk : Bool := true
  epochRead : Option Text := none
  jsonUnknown : Replace := .ok
  jsonPresent : Replace := .ok
  lockPresent : Rewrite := .ok

/-- A record whose epoch is not known yet takes the current one. -/
def GapFile.withEpoch (g : GapFile) (epochRead : Option Text) : GapFile :=
  if g.storeEpoch = unknownEpoch then { g with storeEpoch := currentStoreEpoch epochRead } else g

def updateGap (env : UpdateEnv) (reason : GapReason) (delta : Counts) (d : Disk) : Bool × Disk :=
  let opened := openGapLock env.lockOpen d
  if ¬ opened.1 then opened
  else
    let locked := writeGapLockState .unknown env.lockUnknown opened.2
    if ¬ locked.1 then locked
    else
      match readGapFile env.readOk locked.2 with
      | none => (false, locked.2)
      | some found =>
        let gap := found.getD {}
        if gap.state = .unknown then (true, locked.2)
        else
          match gap.add delta with
          | none => (false, locked.2)
          | some gap =>
            let gap := gap.withEpoch env.epochRead
            let begun :=
              writeGapFile .unknown .gapUpdateInProgress gap env.jsonUnknown locked.2
            if ¬ begun.1 then begun
            else
              let published := writeGapFile .present reason gap env.jsonPresent begun.2
              if ¬ published.1 then published
              else writeGapLockState .present env.lockPresent published.2

/-- The outcomes in `MarkGapUnknown`. -/
structure MarkUnknownEnv where
  lockOpen : LockOpen := .opened
  lockUnknown : Rewrite := .ok
  readOk : Bool := true
  epochRead : Option Text := none
  jsonUnknown : Replace := .ok

/-- `MarkGapUnknown`.  Whether the record is replaced is not part of its result. -/
def markGapUnknown (env : MarkUnknownEnv) (d : Disk) : Bool × Disk :=
  let opened := openGapLock env.lockOpen d
  if ¬ opened.1 then opened
  else
    let locked := writeGapLockState .unknown env.lockUnknown opened.2
    if ¬ locked.1 then locked
    else
      match readGapFile env.readOk locked.2 with
      | none => locked
      | some found =>
        let gap := (found.getD {}).withEpoch env.epochRead
        (true, (writeGapFile .unknown .gapPersistenceFailed gap env.jsonUnknown locked.2).2)

/-- The outcomes in `CreateGapIntent`: how many failed attempts could not remove their file again,
and whether an attempt succeeded. -/
structure IntentEnv where
  leftBehind : ℕ := 0
  created : Bool := true

def createGapIntent (env : IntentEnv) (d : Disk) : Option ℕ × Disk :=
  let strays := (List.range env.leftBehind).map (d.nextName + ·)
  let next := d.nextName + env.leftBehind
  if env.created then
    (some next, { d with intents := d.intents ++ strays ++ [next], nextName := next + 1 })
  else (none, { d with intents := d.intents ++ strays, nextName := next })

def removeGapIntent (name : Option ℕ) (how : Unlink) (d : Disk) : Bool × Disk :=
  match name with
  | none => (true, d)
  | some name =>
    match how with
    | .ok => (name ∈ d.intents, { d with intents := d.intents.filter (· ≠ name) })
    | .unlinkedNotSynced => (false, { d with intents := d.intents.filter (· ≠ name) })
    | .failed => (false, d)

/-- The outcomes in `OpenProcessMarker`: what failed attempts could not remove again, and whether an
attempt succeeded. -/
structure MarkerEnv where
  leftBehind : List MarkerState := []
  created : Bool := true

/-- The files that failed attempts left, under the names from `next` on; nobody holds them. -/
def strayMarkers (next : ℕ) : List MarkerState → List Marker
  | [] => []
  | state :: rest => ⟨next, state, false⟩ :: strayMarkers (next + 1) rest

def openProcessMarker (env : MarkerEnv) (d : Disk) : Option ℕ × Disk :=
  let strays := strayMarkers d.nextName env.leftBehind
  let next := d.nextName + env.leftBehind.length
  if env.created then
    (some next, { d with markers := d.markers ++ strays ++ [⟨next, .clean, true⟩],
                         nextName := next + 1 })
  else (none, { d with markers := d.markers ++ strays, nextName := next })

def Rewrite.marker (how : Rewrite) (old new : MarkerState) : MarkerState :=
  match how with
  | .ok | .failed .whole => new
  | .failed .untouched => old
  | .failed .truncated | .failed .torn => .other

def writeProcessMarkerState (name : ℕ) (state : MarkerState) (how : Rewrite) (d : Disk) :
    Bool × Disk :=
  (how = .ok, { d with markers := d.markers.map fun m =>
    if m.name = name then { m with state := how.marker m.state state } else m })

def removeProcessMarker (name : ℕ) (how : Unlink) (d : Disk) : Disk :=
  match how with
  | .ok | .unlinkedNotSynced => { d with markers := d.markers.filter (·.name ≠ name) }
  | .failed => d

/-- Closing the descriptor of a marker releases its lock. -/
def closeProcessMarker (name : ℕ) (d : Disk) : Disk :=
  { d with markers := d.markers.map fun m => if m.name = name then { m with live := false } else m }

/-! ## The reader -/

/-- The reasons for an `unknown` answer that do not come from the record. -/
inductive ReadReason where
  | rootUnavailable | rootUnsafe
  | recordingMarkerUnreadable | recordingMarkerUnsafe | recordingMarkerInvalid
  | recorderProcessCrashed | recordingGapUnpublished
  | gapUpdateInProgress | gapLockUnreadable | gapLockUnsafe | gapLockInvalid
  | gapLockUnverifiable | gapMissingAfterInitialization
  | gapUnreadable | gapUnsafe | gapInvalid
  deriving DecidableEq

/-- What `read_recording_gap` returns. -/
inductive Reading where
  | unknown (reason : ReadReason)
  | noRecord
  | record (value : GapFile)
  deriving DecidableEq

/-- Why the markers could not be looked at: a call failed, or a marker is not a private file. -/
inductive MarkerFault where
  | unreadable | notPrivate

def MarkerFault.reason : MarkerFault → ReadReason
  | .unreadable => .recordingMarkerUnreadable
  | .notPrivate => .recordingMarkerUnsafe

/-- What the operating system decides in one `read_recording_gap`: the order in which it lists the
markers, and the reason a stage gives when the system refuses it. -/
structure ReadEnv where
  listed : List Marker
  rootFault : Option ReadReason := none
  markerFault : Option MarkerFault := none
  intentFault : Bool := false
  lockFault : Option ReadReason := none
  jsonFault : Option ReadReason := none

/-- `_recording_process_marker_status` over the listed markers: the first uncertain one decides. -/
def recordingProcessMarkerStatus : List Marker → Option ReadReason
  | [] => none
  | m :: rest =>
    if m.state = .other then some .recordingMarkerInvalid
    else if ¬ m.live then some .recorderProcessCrashed
    else if m.state ≠ .clean then some .recordingGapUnpublished
    else recordingProcessMarkerStatus rest

def readRecordingGap (env : ReadEnv) (d : Disk) : Reading :=
  match env.rootFault with
  | some reason => .unknown reason
  | none =>
    let uncertain :=
      match env.markerFault with
      | some fault => some fault.reason
      | none => recordingProcessMarkerStatus env.listed
    match uncertain.filter (· ≠ .recorderProcessCrashed) with
    | some reason => .unknown reason
    | none =>
      if env.intentFault ∨ d.intents ≠ [] then .unknown .gapUpdateInProgress
      else
        match if d.lock = .absent then none else env.lockFault with
        | some reason => .unknown reason
        | none =>
          match d.json, env.jsonFault with
          | none, _ =>
            if d.lock = .absent then
              match uncertain with
              | some reason => .unknown reason
              | none => .noRecord
            else .unknown .gapMissingAfterInitialization
          | some _, some reason => .unknown reason
          | some value, none =>
            match validateGap value with
            | none => .unknown .gapInvalid
            | some value =>
              match value.state with
              | .none =>
                if d.lock ≠ .safe then .unknown .gapLockUnverifiable
                else
                  match uncertain with
                  | some reason => .unknown reason
                  | none => .record value
              | .present =>
                if d.lock = .absent ∨ d.lock = .safe ∨ d.lock = .present then .record value
                else .unknown .gapUpdateInProgress
              | .unknown => .record value

end Recorder
end SemanticMemory
