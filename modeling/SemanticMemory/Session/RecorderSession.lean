import SemanticMemory.Lib.KeyedMap
import SemanticMemory.Recorder.Coordinator
import SemanticMemory.Session.Engine

/-!
# The recorder session

`RecorderSession` (`src/recorder_session.cc`): what the recorder processor and the rerank filter of
one engine share.  The filter pushes the competition of each window and how it was emitted, the
recorder keeps the tentative events, at most one per segment start.
-/

namespace SemanticMemory
namespace Session

open FactStore (Event)

/-- `RandomUuid`: sixteen random bytes in hexadecimal. -/
def randomUuid (bytes : Fin 16 → Byte) : Text :=
  (List.ofFn bytes).flatMap fun byte =>
    [hexDigit (byte.val / 16), hexDigit (byte.val % 16)]
where
  /-- `hex[n]`. -/
  hexDigit (n : ℕ) : Byte := if n < 10 then Fin.ofNat 256 (0x30 + n) else Fin.ofNat 256 (0x57 + n)

structure RecordedCandidate where
  mergeOrder : ℕ := 0
  start : ℕ := 0
  end_ : ℕ := 0
  category : Text := []
  text : Text := []

structure CompetitionSnapshot where
  segmentStart : ℕ := 0
  precedingText : Text := []
  candidates : List RecordedCandidate := []
  complete : Bool := false

def kApplyStateApplied : Text := ascii "applied"
def kApplyStateFallback : Text := ascii "fallback"
def kApplyStateUnknown : Text := ascii "unknown"

structure WindowApplyRecord where
  segmentStart : ℕ := 0
  planIdentity : Text := []
  configIdentity : Text := []
  requestIds : List Text := []
  applyState : Text := []

/-- `PendingEvent`: a tentative selection event.  Its `session_seq` is never set. -/
structure PendingEvent where
  segmentStart : ℕ
  canonicalSegmentInput : Text
  spanStart : ℕ
  spanEnd : ℕ
  category : Text
  precedingText : Text
  competition : List RecordedCandidate
  competitionComplete : Bool
  finalSelectionText : Text
  source : ConfirmationSource
  triggerKeycode : ℤ
  displayRank : ℤ
  displayPage : ℤ
  eventId : Text
  sessionId : Text
  utcConfirmedAtMs : ℤ
  confirmSeq : ℕ
  planIdentity : Text := []
  configIdentity : Text := []
  requestIds : List Text := []
  applyState : Text

structure RecorderSession where
  schemaId : Text
  pageSize : ℤ
  selectKeys : Text
  sessionId : Text
  snapshots : KeyedMap ℕ CompetitionSnapshot := {}
  applyRecords : KeyedMap ℕ WindowApplyRecord := {}
  pending : KeyedMap ℕ PendingEvent := {}
  nextConfirmSeq : ℕ := 0
  sessionSeq : ℤ := 0
  faultCode : Text := []
  gapCount : ℤ := 0

def RecorderSession.pushSnapshot (snapshot : CompetitionSnapshot) (session : RecorderSession) :
    RecorderSession :=
  { session with snapshots := session.snapshots.insert snapshot.segmentStart snapshot }

def RecorderSession.pushApplyRecord (record : WindowApplyRecord) (session : RecorderSession) :
    RecorderSession :=
  { session with applyRecords := session.applyRecords.insert record.segmentStart record }

def RecorderSession.clearSnapshots (session : RecorderSession) : RecorderSession :=
  { session with snapshots := .empty, applyRecords := .empty }

def RecorderSession.dropPending (session : RecorderSession) : RecorderSession :=
  { session with pending := .empty }

def RecorderSession.replacePending (event : PendingEvent) (session : RecorderSession) :
    RecorderSession :=
  { session with pending := session.pending.insert event.segmentStart event }

def RecorderSession.latestApplyRecord (session : RecorderSession) (segmentStart : ℕ) :
    Option WindowApplyRecord :=
  session.applyRecords.find? segmentStart

/-! ## From a tentative event to a fact -/

/-- The loop body of `OnCommit`.  `commit_id` and the clock point come later. -/
def PendingEvent.fact (pending : PendingEvent) (schemaId : Text) (sessionSeq : ℤ) : Event where
  eventId := pending.eventId
  schemaId := schemaId
  canonicalSegmentInput := pending.canonicalSegmentInput
  spanStart := pending.spanStart
  spanEnd := pending.spanEnd
  category := pending.category
  precedingText := pending.precedingText
  competitionComplete := pending.competitionComplete
  finalSelectionText := pending.finalSelectionText
  confirmationSource := confirmationSourceName pending.source
  triggerKeycode := pending.triggerKeycode
  displayRank := pending.displayRank
  displayPage := pending.displayPage
  sessionId := pending.sessionId
  sessionSeq := sessionSeq
  utcConfirmedAtMs := pending.utcConfirmedAtMs
  candidates := pending.competition.map fun candidate => (candidate.mergeOrder, candidate.text)

/-- The events of a batch, numbered on from `sessionSeq`. -/
def facts (schemaId : Text) : ℤ → List PendingEvent → List Event
  | _, [] => []
  | sessionSeq, pending :: rest =>
    pending.fact schemaId (sessionSeq + 1) :: facts schemaId (sessionSeq + 1) rest

end Session
end SemanticMemory
