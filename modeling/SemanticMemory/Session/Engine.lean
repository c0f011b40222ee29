import SemanticMemory.Basic

/-!
# What the plugin sees of the engine

Key events, candidates, segments and the context of one librime engine, as far as
`src/llm_rerank_recorder.cc` and `src/llm_rerank_filter.cc` read them, and the rule that tells an
explicit confirmation by its key (`src/recorder_session.cc`).

A handler receives the context as an argument: the engine may have put it into any state.
-/

namespace SemanticMemory
namespace Session

/-! ## Keys -/

/-- `KeyEvent`: an X keysym and a modifier mask. -/
structure KeyEvent where
  keycode : ℤ
  modifier : BitVec 32 := 0
  deriving DecidableEq

def kShiftMask : BitVec 32 := 1 <<< 0
def kReleaseMask : BitVec 32 := 1 <<< 30

def xkSpace : ℤ := 0x20
def xk0 : ℤ := 0x30
def xk9 : ℤ := 0x39
def xkBackSpace : ℤ := 0xff08
def xkReturn : ℤ := 0xff0d
def xkKpEnter : ℤ := 0xff8d
def xkKp0 : ℤ := 0xffb0
def xkKp9 : ℤ := 0xffb9

/-- `KeyEvent::release`. -/
def KeyEvent.release (key : KeyEvent) : Bool := key.modifier &&& kReleaseMask != 0

/-- `IsPlainBackspace`: no modifiers except Shift. -/
def isPlainBackspace (key : KeyEvent) : Bool :=
  key.keycode = xkBackSpace && key.modifier &&& ~~~kShiftMask = 0

inductive ConfirmationSource where
  | none | explicitCurrent | explicitIndexed
  deriving DecidableEq

def confirmationSourceName : ConfirmationSource → Text
  | .none => ascii "none"
  | .explicitCurrent => ascii "explicit_current"
  | .explicitIndexed => ascii "explicit_indexed"

def isExplicitCurrentKey (keycode : ℤ) : Bool :=
  keycode = xkSpace || keycode = xkReturn || keycode = xkKpEnter

def isSelectKey (keycode : ℤ) (selectKeys : Text) : Bool :=
  if (keycode ≥ xk0 ∧ keycode ≤ xk9) ∨ (keycode ≥ xkKp0 ∧ keycode ≤ xkKp9) then true
  else if keycode ≥ 0x20 ∧ keycode < 0x7f then
    Fin.ofNat 256 keycode.toNat ∈ selectKeys
  else false

def classifyConfirmationSource (keycode : ℤ) (keyInFlight : Bool) (selectKeys : Text) :
    ConfirmationSource :=
  if !keyInFlight then .explicitIndexed
  else if isExplicitCurrentKey keycode then .explicitCurrent
  else if isSelectKey keycode selectKeys then .explicitIndexed
  else .none

/-! ## The context -/

/-- `Candidate`.  `phraseType` is the type of the genuine candidate when that is a `Phrase`. -/
structure Candidate where
  type : Text
  phraseType : Option Text := none
  start : ℕ
  end_ : ℕ
  text : Text

/-- `Segment::Status`. -/
inductive SegmentStatus where
  | void | guess | selected | confirmed

/-- `status < Segment::kSelected`. -/
def SegmentStatus.beforeSelected : SegmentStatus → Bool
  | .void | .guess => true
  | .selected | .confirmed => false

/-- `Segment`.  `selectedCandidate` is what `GetSelectedCandidate` returns. -/
structure Segment where
  start : ℕ
  end_ : ℕ
  status : SegmentStatus
  selectedIndex : ℕ := 0
  selectedCandidate : Option Candidate := none

structure Context where
  input : Text := []
  composition : List Segment := []
  hasMenu : Bool := false

/-- `CategoryOf`: both dictionaries give `word`, every other type is its own category. -/
def categoryOf (type : Text) : Text :=
  if type = ascii "table" ∨ type = ascii "phrase" ∨ type = ascii "user_table" ∨
      type = ascii "user_phrase" then ascii "word"
  else type

def categoryOfCandidate (cand : Candidate) : Text := categoryOf (cand.phraseType.getD cand.type)

def canonicalizeInput (input : Text) : Text :=
  input.map fun character =>
    if character ≥ 0x41 ∧ character ≤ 0x5a then character + 0x20 else character

/-- `substr(pos, count)` of a position within the string. -/
def substr (t : Text) (pos count : ℕ) : Text := (t.drop pos).take count

/-- `a - b` of two `size_t`. -/
def sizeSub (a b : ℕ) : ℕ := (a + 2 ^ 64 - b) % 2 ^ 64

/-- `static_cast<int>` of a `size_t`. -/
def int32 (n : ℕ) : ℤ := (BitVec.ofNat 32 n).toInt

end Session
end SemanticMemory
