import Mathlib
import SemanticMemory.Lib.Utf8Text
import SemanticMemory.Scoring.MeanToken

/-!
# The token span of a candidate

`candidate_tokenization_for` (`daemon/representations.py`): the windowed context and a candidate are
tokenized as one payload, and the candidate's tokens are those behind the boundary where the tokens
before it decode to the context.  The rule is that of `candidate_scoring_plan`,
`candidateScoringPlan`.

The context is compared after decoding.  Tokens that end inside a replacement character decode to
that character all the same, so they can be taken for the whole context, and the search goes no
further.

## Results

* `decode_take_iff`: which of the first tokens decode to the context.
* `span_iff_plan`: the two implementations accept the same requests with the same tokens.
* `attributes_iff`: the boundary is found where it is, exactly when no tokens before it look like
  the whole context.
-/

namespace SemanticMemory.Scoring

open Utf8 (encodeAll)

variable {τ : Type}

def windowChars : ℤ := 64

/-- `window_text(context, window_chars)`. -/
def windowText (context : List Char) (chars : ℤ) : List Char :=
  if context = [] then []
  else if (context.length : ℤ) ≤ chars then context
  else windowContext context chars

inductive SpanFailure where
  | windowChars | emptyCandidate | noTokens | lossyTokenization | suffixMismatch | emptySpan
  | straddles
  deriving DecidableEq

/-- The text of the error. -/
def SpanFailure.message : SpanFailure → String
  | .windowChars => "candidate window_chars must be exactly 64"
  | .emptyCandidate => "empty candidate"
  | .noTokens => "payload tokenizes to no tokens"
  | .lossyTokenization => "lossy candidate-conditioned tokenization"
  | .suffixMismatch => "candidate suffix mismatch"
  | .emptySpan => "candidate token span is empty"
  | .straddles => "token straddles context/candidate boundary"

/-- `(payload, ids, start, count)`. -/
structure Span (τ : Type) where
  payload : List Char
  ids : List τ
  start : ℕ
  count : ℕ
  deriving DecidableEq

/-- `candidate_conditioned_payload(preceding_text, candidate, window_chars)`. -/
def candidateConditionedPayload (precedingText candidate : List Char) (chars : ℤ) :
    Except SpanFailure (List Char) :=
  if chars ≠ windowChars then .error .windowChars
  else if candidate = [] then .error .emptyCandidate
  else .ok (windowText precedingText chars ++ candidate)

/-- The loop over the boundaries of `candidate_tokenization_for`. -/
def findBoundary (tokenizer : Tokenizer τ) (payload context candidate : List Char) (ids : List τ) :
    List ℕ → Except SpanFailure (Span τ)
  | [] => .error .straddles
  | boundary :: rest =>
    if tokenizer.decode (ids.take boundary) ≠ context then
      findBoundary tokenizer payload context candidate ids rest
    else if boundary = ids.length then .error .emptySpan
    else if tokenizer.decode (ids.drop boundary) ≠ candidate then .error .suffixMismatch
    else .ok ⟨payload, ids, boundary, ids.length - boundary⟩

/-- `candidate_tokenization_for(tokenizer, preceding_text, candidate, window_chars)`. -/
def candidateTokenizationFor (tokenizer : Tokenizer τ) (precedingText candidate : List Char)
    (chars : ℤ) : Except SpanFailure (Span τ) :=
  match candidateConditionedPayload precedingText candidate chars with
  | .error failure => .error failure
  | .ok payload =>
    let ids := tokenizer.encode payload
    if ids.isEmpty then .error .noTokens
    else if tokenizer.decode ids ≠ payload then .error .lossyTokenization
    else
      let context := windowText precedingText chars
      if context = [] then
        if tokenizer.decode ids ≠ candidate then .error .suffixMismatch
        else .ok ⟨payload, ids, 0, ids.length⟩
      else findBoundary tokenizer payload context candidate ids (List.range' 1 ids.length)

/-! ## What is asked of the span -/

/-- The windowed context of a request. -/
def windowed (precedingText : List Char) : List Char := windowText precedingText windowChars

def payloadIds (tokenizer : Tokenizer τ) (precedingText candidate : List Char) : List τ :=
  tokenizer.encode (windowed precedingText ++ candidate)

/-- The bytes of the first `k` tokens. -/
def bytesBefore (tokenizer : Tokenizer τ) (precedingText candidate : List Char) (k : ℕ) :
    Utf8.Bytes :=
  ((payloadIds tokenizer precedingText candidate).take k).flatMap tokenizer.bytes

/-- The first `k` tokens carry exactly the bytes of the windowed context, and a token remains. -/
def IsBoundary (tokenizer : Tokenizer τ) (precedingText candidate : List Char) (k : ℕ) : Prop :=
  bytesBefore tokenizer precedingText candidate k = encodeAll (windowed precedingText) ∧
    k < (payloadIds tokenizer precedingText candidate).length

/-- The span of a request is attributed exactly: its boundary is where the context ends, a request
without a boundary is refused, and `candidate_scoring_plan` accepts the same. -/
structure Attributes (tokenizer : Tokenizer τ) (precedingText candidate : List Char) : Prop where
  boundary : ∀ k, (∃ span, candidateTokenizationFor tokenizer precedingText candidate windowChars =
      .ok span ∧ span.start = k) ↔ IsBoundary tokenizer precedingText candidate k
  refused : (∀ k, ¬ IsBoundary tokenizer precedingText candidate k) →
    ∃ failure, candidateTokenizationFor tokenizer precedingText candidate windowChars =
      .error failure
  agrees : ∀ ids k,
    (∃ span, candidateTokenizationFor tokenizer precedingText candidate windowChars = .ok span ∧
      span.ids = ids ∧ span.start = k) ↔
    ∃ plan, candidateScoringPlan tokenizer (windowed precedingText) candidate = .ok plan ∧
      plan.suffixIds = ids ∧ plan.targetStart = k

/-- Bytes that decode to the context: its own, or those with the replacement character that ends it
cut short. -/
def LooksLike (context : List Char) (bytes : Utf8.Bytes) : Prop :=
  bytes = encodeAll context ∨ ∃ text cut, context = text ++ [Utf8.replacement] ∧
    Utf8.CutReplacement cut ∧ bytes = encodeAll text ++ cut

/-- No tokens before a boundary look like the whole context. -/
def Unmistakable (tokenizer : Tokenizer τ) (precedingText candidate : List Char) : Prop :=
  ∀ k, IsBoundary tokenizer precedingText candidate k → ∀ j < k,
    ¬ LooksLike (windowed precedingText) (bytesBefore tokenizer precedingText candidate j)

/-! ## The search -/

theorem findBoundary_eq (tokenizer : Tokenizer τ) (payload context candidate : List Char)
    (ids : List τ) (boundaries : List ℕ) :
    findBoundary tokenizer payload context candidate ids boundaries =
      match boundaries.find? fun k => tokenizer.decode (ids.take k) = context with
      | none => .error .straddles
      | some k =>
        if k = ids.length then .error .emptySpan
        else if tokenizer.decode (ids.drop k) ≠ candidate then .error .suffixMismatch
        else .ok ⟨payload, ids, k, ids.length - k⟩ := by
  induction boundaries with
  | nil => rfl
  | cons boundary rest ih =>
    by_cases h : tokenizer.decode (ids.take boundary) = context
    · rw [findBoundary, if_neg (not_not.mpr h), List.find?_cons_of_pos (by simpa using h)]
    · rw [findBoundary, if_pos h, ih, List.find?_cons_of_neg (by simpa using h)]

variable {tokenizer : Tokenizer τ} {precedingText candidate : List Char}

theorem span_iff_plan (hc : candidate ≠ []) (span : Span τ) :
    candidateTokenizationFor tokenizer precedingText candidate windowChars = .ok span ↔
      span.payload = windowed precedingText ++ candidate ∧
        candidateScoringPlan tokenizer (windowed precedingText) candidate =
          .ok ⟨span.ids, span.start, span.count⟩ := by
  obtain ⟨payload, ids, start, count⟩ := span
  have hpayload : candidateConditionedPayload precedingText candidate windowChars =
      .ok (windowed precedingText ++ candidate) := by
    rw [candidateConditionedPayload, if_neg (not_not.mpr rfl), if_neg hc, windowed]
  rw [candidateTokenizationFor, hpayload, candidateScoringPlan, if_neg hc]
  dsimp only
  rw [← windowed]
  split_ifs with hids hfull ht hsuffix
  · simp
  · simp
  · simp
  · simp [eq_comm]
  · rw [findBoundary_eq]
    generalize List.find? _ _ = found
    cases found with
    | none => simp
    | some k =>
      dsimp only
      split_ifs
      · simp
      · simp
      · simp [eq_comm]

theorem prefix_bytesBefore {k : ℕ} (hk : IsBoundary tokenizer precedingText candidate k) {j : ℕ}
    (hj : j ≤ k) :
    bytesBefore tokenizer precedingText candidate j <+: encodeAll (windowed precedingText) := by
  rw [← hk.1]
  exact (List.take_prefix_take_left hj).flatMap _

/-- Before a boundary, the tokens that look like the context are those that decode to it. -/
theorem decode_take_iff {k : ℕ} (hk : IsBoundary tokenizer precedingText candidate k) {j : ℕ}
    (hj : j ≤ k) :
    tokenizer.decode ((payloadIds tokenizer precedingText candidate).take j) =
        windowed precedingText ↔
      LooksLike (windowed precedingText) (bytesBefore tokenizer precedingText candidate j) :=
  Utf8.decode_prefix_iff (prefix_bytesBefore hk hj)

theorem bytes_drop_of_isBoundary {k : ℕ} (hk : IsBoundary tokenizer precedingText candidate k) :
    ((payloadIds tokenizer precedingText candidate).drop k).flatMap tokenizer.bytes =
      encodeAll candidate := by
  have hall := tokenizer.lossless (windowed precedingText ++ candidate)
  rw [← payloadIds, ← List.take_append_drop k (payloadIds tokenizer precedingText candidate),
    List.flatMap_append, Utf8.encodeAll_append, ← bytesBefore, hk.1] at hall
  exact List.append_cancel_left hall

/-- **Where a plan starts**: at the boundary, if no tokens before it look like the context. -/
theorem start_iff (hc : candidate ≠ []) (k : ℕ) :
    (∃ plan, candidateScoringPlan tokenizer (windowed precedingText) candidate = .ok plan ∧
        plan.targetStart = k) ↔
      IsBoundary tokenizer precedingText candidate k ∧ ∀ j < k,
        ¬ LooksLike (windowed precedingText) (bytesBefore tokenizer precedingText candidate j) := by
  constructor
  · rintro ⟨plan, hplan, rfl⟩
    have hsplit := split_of_plan hplan
    have hboundary : IsBoundary tokenizer precedingText candidate plan.targetStart := by
      have hpos := hsplit.count_pos
      rw [hsplit.count_eq, hsplit.suffixIds_eq, List.length_drop] at hpos
      have hbytes := hsplit.bytes_take
      rw [hsplit.suffixIds_eq] at hbytes
      exact ⟨hbytes, by rw [payloadIds]; omega⟩
    refine ⟨hboundary, fun j hj hlooks => ?_⟩
    have hdecode := (decode_take_iff hboundary hj.le).mpr hlooks
    have hne : windowed precedingText ≠ [] := fun hnil => by
      -- without a context the plan starts at once
      rw [candidateScoringPlan, if_neg hc, hnil] at hplan
      dsimp only at hplan
      rw [if_pos rfl] at hplan
      split_ifs at hplan
      obtain rfl := Except.ok.inj hplan
      exact absurd hj (Nat.not_lt_zero j)
    have hj0 : 1 ≤ j := by
      rcases Nat.eq_zero_or_pos j with rfl | hpos
      · exact absurd hdecode.symm hne
      · exact hpos
    rw [candidateScoringPlan, if_neg hc] at hplan
    dsimp only at hplan
    rw [if_neg hne] at hplan
    split_ifs at hplan
    split at hplan
    · cases hplan
    · next i hi =>
      split_ifs at hplan
      obtain rfl := Except.ok.inj hplan
      have hfirst := (List.find?_range'_eq_some.mp hi).2.2 j hj0 hj
      rw [payloadIds] at hdecode
      rw [decide_eq_true hdecode] at hfirst
      cases hfirst
  · rintro ⟨hboundary, hbefore⟩
    have hids : ¬ (payloadIds tokenizer precedingText candidate).isEmpty = true := by
      rw [List.isEmpty_iff]
      intro hnil
      have hlt := hboundary.2
      rw [hnil] at hlt
      exact absurd hlt (Nat.not_lt_zero k)
    have hfull : tokenizer.decode (payloadIds tokenizer precedingText candidate) =
        windowed precedingText ++ candidate := tokenizer.decode_encode _
    have hdrop : tokenizer.decode ((payloadIds tokenizer precedingText candidate).drop k) =
        candidate := by
      rw [Tokenizer.decode, bytes_drop_of_isBoundary hboundary, Utf8.decode_encodeAll]
    have htake := (decode_take_iff hboundary le_rfl).mpr (.inl hboundary.1)
    rw [candidateScoringPlan, if_neg hc]
    dsimp only
    rw [← payloadIds, if_neg hids, if_neg (not_not.mpr hfull)]
    by_cases hnil : windowed precedingText = []
    · obtain rfl : k = 0 := by
        by_contra hk
        exact hbefore 0 (Nat.pos_of_ne_zero hk) (.inl (by rw [hnil]; rfl))
      rw [if_pos hnil, if_neg (not_not.mpr (by rw [hfull, hnil, List.nil_append]))]
      exact ⟨_, rfl, rfl⟩
    · have hk0 : 1 ≤ k := by
        rcases Nat.eq_zero_or_pos k with rfl | hpos
        · exact absurd htake.symm hnil
        · exact hpos
      have hfind : ((List.range' 1 (payloadIds tokenizer precedingText candidate).length).find?
          fun k => tokenizer.decode ((payloadIds tokenizer precedingText candidate).take k) =
            windowed precedingText) = some k := by
        refine List.find?_range'_eq_some.mpr ⟨decide_eq_true htake, ?_, fun j _ hj => ?_⟩
        · have hlt := hboundary.2
          exact List.mem_range'_1.mpr ⟨hk0, by omega⟩
        · have hno := mt (decode_take_iff hboundary hj.le).mp (hbefore j hj)
          simpa using hno
      rw [if_neg hnil, hfind]
      dsimp only
      rw [if_neg hboundary.2.ne, if_neg (not_not.mpr hdrop)]
      exact ⟨_, rfl, rfl⟩

theorem span_start_iff (hc : candidate ≠ []) (ids : List τ) (k : ℕ) :
    (∃ span, candidateTokenizationFor tokenizer precedingText candidate windowChars = .ok span ∧
        span.ids = ids ∧ span.start = k) ↔
      ∃ plan, candidateScoringPlan tokenizer (windowed precedingText) candidate = .ok plan ∧
        plan.suffixIds = ids ∧ plan.targetStart = k := by
  constructor
  · rintro ⟨span, hspan, rfl, rfl⟩
    exact ⟨_, ((span_iff_plan hc span).mp hspan).2, rfl, rfl⟩
  · rintro ⟨plan, hplan, rfl, rfl⟩
    exact ⟨⟨_, plan.suffixIds, plan.targetStart, plan.targetCount⟩,
      (span_iff_plan hc _).mpr ⟨rfl, hplan⟩, rfl, rfl⟩

/-- **Where the candidate's span is attributed exactly**: a request gets the boundary it has, and
none if it has none, exactly when no tokens before the boundary look like the whole windowed
context.  The tokens that do are those with the context's own bytes, if the next token has none, and
those that end inside the replacement character that ends the context. -/
theorem attributes_iff (tokenizer : Tokenizer τ) (precedingText : List Char) {candidate : List Char}
    (hc : candidate ≠ []) :
    Attributes tokenizer precedingText candidate ↔
      Unmistakable tokenizer precedingText candidate := by
  have hstart : ∀ k, (∃ span,
      candidateTokenizationFor tokenizer precedingText candidate windowChars = .ok span ∧
        span.start = k) ↔
        IsBoundary tokenizer precedingText candidate k ∧ ∀ j < k,
          ¬ LooksLike (windowed precedingText)
            (bytesBefore tokenizer precedingText candidate j) := by
    intro k
    rw [← start_iff hc]
    constructor
    · rintro ⟨span, hspan, hk⟩
      obtain ⟨plan, hplan, -, hplank⟩ := (span_start_iff hc span.ids k).mp ⟨span, hspan, rfl, hk⟩
      exact ⟨plan, hplan, hplank⟩
    · rintro ⟨plan, hplan, hk⟩
      obtain ⟨span, hspan, -, hspank⟩ :=
        (span_start_iff hc plan.suffixIds k).mpr ⟨plan, hplan, rfl, hk⟩
      exact ⟨span, hspan, hspank⟩
  constructor
  · intro h k hk
    exact ((hstart k).mp ((h.boundary k).mpr hk)).2
  · intro h
    refine ⟨fun k => ?_, fun hnone => ?_, span_start_iff hc⟩
    · rw [hstart]
      exact ⟨fun hk => hk.1, fun hk => ⟨hk, h k hk⟩⟩
    · cases hspan : candidateTokenizationFor tokenizer precedingText candidate windowChars with
      | error failure => exact ⟨failure, rfl⟩
      | ok span => exact absurd ((hstart span.start).mp ⟨span, hspan, rfl⟩).1 (hnone span.start)

/-- A context of two bytes, of which no part looks like it. -/
theorem attributes_iff_accented : Attributes byteTokenizer ['é'] ['a'] := by
  refine (attributes_iff byteTokenizer ['é'] (by decide)).mpr fun k hk j hj hlooks => ?_
  have hk3 : k < 3 := hk.2
  rcases hlooks with hall | ⟨text, cut, htext, -, -⟩
  · interval_cases k <;> interval_cases j <;> revert hall <;> decide +kernel
  · have hlast : (windowed ['é']).getLast? = some Utf8.replacement := by
      rw [htext, List.getLast?_concat]
    exact absurd hlast (by decide)

/-- The first byte of a replacement character decodes to one: the boundary behind its third byte is
not found. -/
theorem not_attributes_replacement : ¬ Attributes byteTokenizer [Utf8.replacement] ['a'] := by
  intro h
  have hboundary : IsBoundary byteTokenizer [Utf8.replacement] ['a'] 3 := by
    unfold IsBoundary
    decide +kernel
  obtain ⟨span, hspan, -⟩ := (h.boundary 3).mpr hboundary
  have herror : candidateTokenizationFor byteTokenizer [Utf8.replacement] ['a'] windowChars =
      .error .suffixMismatch := by decide +kernel
  rw [herror] at hspan
  cases hspan

end SemanticMemory.Scoring
