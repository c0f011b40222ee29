import Mathlib
import SemanticMemory.Basic
import SemanticMemory.Lib.Binary64
import SemanticMemory.Lib.Framing
import SemanticMemory.Lib.Utf8

/-!
# The rerank plan

What `rerank_plan.cc` builds, checks and replays.  The records keep missing fields empty, as the
source has them; a size is a natural number, an `int` an integer, a `string` its bytes and a
`double` its 64 bits.  The end of a span is `stop`.

* `Host` is what the source takes from elsewhere: boost's SHA-1 and the machine's fused
  multiply-add.
* A field is written behind the length of its name and of its value: `appendField`.  A plan and a
  group are hashed over the fields of theirs: `canonicalPlan`, `canonicalGroup`.
* `validPlan` reads a plan field by field and replays its grouping in one pass: `scanGroups`.
* `buildRerankPlan` groups the candidates in one pass of its own.
* `replayRerankPlan` arranges the groups and fills them into the places of the rerankable
  candidates.  It is `none` where the source would read beyond a vector.
-/

namespace SemanticMemory.Rerank

/-- What the source calls and does not define. -/
structure Host where
  /-- The digest of some bytes. -/
  sha1 : Text → List Byte
  /-- `std::fma`. -/
  fma : Binary64 → Binary64 → Binary64 → Binary64

/-! ## Records -/

def kRerankPlanVersion : ℤ := 2

def kRerankScoreResultVersion : ℤ := 1

def kPrecedingTextCharacters : ℕ := 64

structure RerankPlanConfig where
  version : Option ℤ := none
  window : Option ℤ := none

structure RerankScoringPolicy where
  version : Option ℤ := none
  baselinePolicyId : Option Text := none
  retrievalPolicyId : Option Text := none
  alpha : Option Binary64 := none
  sysCoeff : Option Binary64 := none
  usrCoeff : Option Binary64 := none
  gamma : Option Binary64 := none
  saturateK : Option Binary64 := none

structure RerankPlanCandidate where
  mergeOrder : Option ℕ := none
  start : Option ℕ := none
  stop : Option ℕ := none
  category : Option Text := none
  sourceType : Option Text := none
  text : Option Text := none
  rerankable : Option Bool := none

structure RerankPlanGroup where
  identity : Option Text := none
  start : Option ℕ := none
  stop : Option ℕ := none
  category : Option Text := none
  canonicalInput : Option Text := none
  complete : Option Bool := none
  candidateIndexes : Option (List ℕ) := none

structure RerankPlan where
  version : Option ℤ := none
  identity : Option Text := none
  schemaId : Option Text := none
  canonicalInput : Option Text := none
  precedingText : Option Text := none
  previousWord : Option Text := none
  config : Option RerankPlanConfig := none
  scoringPolicy : Option RerankScoringPolicy := none
  windowTruncated : Option Bool := none
  candidates : Option (List RerankPlanCandidate) := none
  groups : Option (List RerankPlanGroup) := none

structure RerankCandidateScore where
  baseScore : Option Binary64 := none
  retrievalEvidence : Option Binary64 := none
  comparisonScore : Option Binary64 := none

structure RerankScoreResult where
  version : Option ℤ := none
  planIdentity : Option Text := none
  candidateScores : Option (List RerankCandidateScore) := none

namespace RerankPlan

/-! A field that is read after the check that it is there. -/

def theCandidates (p : RerankPlan) : List RerankPlanCandidate := p.candidates.getD []

def theGroups (p : RerankPlan) : List RerankPlanGroup := p.groups.getD []

def theInput (p : RerankPlan) : Text := p.canonicalInput.getD []

def thePolicy (p : RerankPlan) : RerankScoringPolicy := p.scoringPolicy.getD {}

def isTruncated (p : RerankPlan) : Bool := p.windowTruncated.getD false

end RerankPlan

def RerankPlanCandidate.isRerankable (c : RerankPlanCandidate) : Bool := c.rerankable.getD false

def RerankPlanGroup.isComplete (g : RerankPlanGroup) : Bool := g.complete.getD false

def RerankPlanGroup.indexes (g : RerankPlanGroup) : List ℕ := g.candidateIndexes.getD []

/-! ## Fields -/

/-- A length in decimal digits and a colon. -/
def lengthCode (n : ℕ) : Text := Json.showNat n ++ ascii ":"

/-- `AppendField` of a string: the name behind its length, then the value behind its length. -/
def appendField (name : String) (value : Text) : Text :=
  Framing.frame lengthCode (ascii name) ++ Framing.frame lengthCode value

/-- `AppendField` of a `size_t`. -/
def appendNat (name : String) (value : ℕ) : Text := appendField name (Json.showNat value)

/-- `AppendField` of an `int`. -/
def appendInt (name : String) (value : ℤ) : Text := appendField name (Json.showInt value)

def boolText (value : Bool) : Text := if value then ascii "1" else ascii "0"

/-- `AppendField` of a `bool`. -/
def appendBool (name : String) (value : Bool) : Text := appendField name (boolText value)

/-- The last `width` hexadecimal digits of a number. -/
def hexDigits (width n : ℕ) : Text :=
  (Framing.bigEndian 16 width n).map fun d => Json.hexDigit d.val

/-- The bits of a `double` in sixteen hexadecimal digits, both zeros as the positive one. -/
def canonicalDouble (value : Binary64) : Text := hexDigits 16 value.normal.bits.val

/-- `AppendField` of a `double`. -/
def appendDouble (name : String) (value : Binary64) : Text :=
  appendField name (canonicalDouble value)

def contentIdentity (host : Host) (kind : String) (canonical : Text) : Text :=
  ascii kind ++ ascii ":sha1:" ++ (host.sha1 canonical).flatMap fun b => hexDigits 2 b.val

def appendConfig (config : RerankPlanConfig) : Text :=
  appendInt "config_version" (config.version.getD 0) ++
  appendInt "window" (config.window.getD 0)

def appendScoringPolicy (policy : RerankScoringPolicy) : Text :=
  appendInt "scoring_policy_version" (policy.version.getD 0) ++
  (appendField "baseline_policy_id" (policy.baselinePolicyId.getD []) ++
  (appendField "retrieval_policy_id" (policy.retrievalPolicyId.getD []) ++
  (appendDouble "alpha" (policy.alpha.getD .zero) ++
  (appendDouble "sys_coeff" (policy.sysCoeff.getD .zero) ++
  (appendDouble "usr_coeff" (policy.usrCoeff.getD .zero) ++
  (appendDouble "gamma" (policy.gamma.getD .zero) ++
  appendDouble "saturate_k" (policy.saturateK.getD .zero)))))))

def appendCandidate (candidate : RerankPlanCandidate) : Text :=
  appendNat "merge_order" (candidate.mergeOrder.getD 0) ++
  (appendNat "start" (candidate.start.getD 0) ++
  (appendNat "end" (candidate.stop.getD 0) ++
  (appendField "category" (candidate.category.getD []) ++
  (appendField "source_type" (candidate.sourceType.getD []) ++
  (appendField "text" (candidate.text.getD []) ++
  appendBool "rerankable" candidate.isRerankable)))))

/-- What a group's string has of a member. -/
def appendMember (candidates : List RerankPlanCandidate) (index : ℕ) : Text :=
  appendNat "candidate_index" index ++ appendCandidate (candidates.getD index {})

/-- The string `ComputeGroupIdentity` hashes. -/
def canonicalGroup (schemaId : Text) (group : RerankPlanGroup)
    (candidates : List RerankPlanCandidate) : Text :=
  appendInt "group_format" 1 ++
  (appendField "schema_id" schemaId ++
  (appendField "canonical_input" (group.canonicalInput.getD []) ++
  (appendNat "start" (group.start.getD 0) ++
  (appendNat "end" (group.stop.getD 0) ++
  (appendField "category" (group.category.getD []) ++
  (appendNat "candidate_count" group.indexes.length ++
  group.indexes.flatMap (appendMember candidates)))))))

def computeGroupIdentity (host : Host) (schemaId : Text) (group : RerankPlanGroup)
    (candidates : List RerankPlanCandidate) : Text :=
  contentIdentity host "rerank-group-v1" (canonicalGroup schemaId group candidates)

def appendGroup (group : RerankPlanGroup) : Text :=
  appendField "group_identity" (group.identity.getD []) ++
  appendBool "group_complete" group.isComplete

/-- The string `ComputePlanIdentity` hashes. -/
def canonicalPlan (plan : RerankPlan) : Text :=
  appendInt "plan_version" (plan.version.getD 0) ++
  (appendField "schema_id" (plan.schemaId.getD []) ++
  (appendField "canonical_input" plan.theInput ++
  (appendField "preceding_text" (plan.precedingText.getD []) ++
  (appendField "previous_word" (plan.previousWord.getD []) ++
  (appendConfig (plan.config.getD {}) ++
  (appendScoringPolicy plan.thePolicy ++
  (appendBool "window_truncated" plan.isTruncated ++
  (appendNat "candidate_count" plan.theCandidates.length ++
  (plan.theCandidates.flatMap appendCandidate ++
  (appendNat "group_count" plan.theGroups.length ++
  plan.theGroups.flatMap appendGroup))))))))))

def computePlanIdentity (host : Host) (plan : RerankPlan) : Text :=
  contentIdentity host "rerank-plan-v2" (canonicalPlan plan)

/-! ## Texts -/

/-- The positions at which the scalars of some bytes start, if the bytes are scalars to the end.
The fuel bounds the scalars that are read. -/
def scalarStarts : ℕ → ℕ → Text → Option (List ℕ)
  | _, _, [] => some []
  | 0, _, _ :: _ => none
  | fuel + 1, position, bytes =>
    match Utf8.decodeOne bytes with
    | none => none
    | some (_, length) =>
      (scalarStarts fuel (position + length) (bytes.drop length)).map (position :: ·)

/-- The last `limit` scalars of a text, if the text is UTF-8. -/
def lastUnicodeCharacters (text : Text) (limit : ℕ) : Option Text :=
  match scalarStarts text.length 0 text with
  | none => none
  | some starts =>
    if limit = 0 then some []
    else
      let first := if limit < starts.length then starts.getD (starts.length - limit) 0 else 0
      some (text.drop first)

/-- An upper-case letter in lower case. -/
def lowerByte (b : Byte) : Byte := if 65 ≤ b.val && b.val ≤ 90 then Fin.ofNat 256 (b.val + 32) else b

def canonicalizeInput (input : Text) : Text := input.map lowerByte

/-- `text.substr(start, stop - start)`. -/
def span (text : Text) (start stop : ℕ) : Text := (text.drop start).take (stop - start)

/-! ## The checks -/

def validConfig (config : RerankPlanConfig) : Bool :=
  config.version = some 1 && config.window.any (0 < ·)

def defaultRerankPlanConfig : RerankPlanConfig where
  version := some 1
  window := some 32

/-- `alpha` is 0, `sys_coeff` and `usr_coeff` are 1, `gamma` is 2 and `saturate_k` 3. -/
def defaultRerankScoringPolicy : RerankScoringPolicy where
  version := some 1
  baselinePolicyId := some (ascii "mean-token-lm-v1")
  retrievalPolicyId := some (ascii "exact-oracle-evidence-v1")
  alpha := some .zero
  sysCoeff := some .one
  usrCoeff := some .one
  gamma := some .two
  saturateK := some .three

/-- A finite coefficient that is not negative. -/
def validCoefficient (d : Option Binary64) : Bool :=
  d.any fun x => x.isFinite && (Binary64.lt .zero x || Binary64.eq .zero x)

def validScoringPolicy (policy : RerankScoringPolicy) : Bool :=
  policy.version = some 1 && policy.baselinePolicyId.any (· ≠ []) &&
  policy.retrievalPolicyId.any (· ≠ []) && validCoefficient policy.alpha &&
  validCoefficient policy.sysCoeff && validCoefficient policy.usrCoeff &&
  validCoefficient policy.gamma &&
  policy.saturateK.any fun x => x.isFinite && Binary64.lt .zero x

/-- The defaults pass their own checks. -/
theorem validConfig_default : validConfig defaultRerankPlanConfig = true := by decide

theorem validScoringPolicy_default : validScoringPolicy defaultRerankScoringPolicy = true := by
  decide +kernel

def comparisonScore (host : Host) (baseScore retrievalEvidence gamma : Binary64) : Binary64 :=
  host.fma gamma retrievalEvidence baseScore

/-- The checks of one candidate, which stands at `i`. -/
def validCandidate (canonicalInput : Text) (candidate : RerankPlanCandidate) (i : ℕ) : Bool :=
  match candidate.start, candidate.stop, candidate.rerankable with
  | some start, some stop, some rerankable =>
    candidate.mergeOrder = some i && start ≤ stop && candidate.category.any (· ≠ []) &&
    candidate.sourceType.any (· ≠ []) && candidate.text.any (· ≠ []) &&
    stop ≤ canonicalInput.length && (!rerankable || candidate.category = some (ascii "word"))
  | _, _, _ => false

/-- The checks of one group before its members. -/
def validGroupHead (canonicalInput : Text) (group : RerankPlanGroup) : Bool :=
  match group.start, group.stop with
  | some start, some stop =>
    group.identity.any (· ≠ []) && group.category = some (ascii "word") && start ≤ stop &&
    stop ≤ canonicalInput.length && group.canonicalInput = some (span canonicalInput start stop) &&
    group.complete.isSome && group.candidateIndexes.any (· ≠ [])
  | _, _ => false

/-- What the validator keeps while it goes through the groups. -/
structure Scan where
  /-- The candidates that are marked in `grouped`. -/
  grouped : List ℕ := []
  /-- `previous_first_index`, once there is a previous group. -/
  previousFirst : Option ℕ := none
  /-- `boundary_group` and `boundary_candidate`, once there is a boundary group. -/
  boundary : Option (ℕ × ℕ) := none

/-- The boundary after a member. -/
def Scan.bound (s : Scan) (groupIndex i : ℕ) : Option (ℕ × ℕ) :=
  match s.boundary with
  | none => some (groupIndex, i)
  | some (g, c) => if c < i then some (groupIndex, i) else some (g, c)

/-- One member of a group, after the previous member of the group. -/
def scanMember (candidates : List RerankPlanCandidate) (group : RerankPlanGroup)
    (groupIndex : ℕ) (s : Scan × Option ℕ) (i : ℕ) : Option (Scan × Option ℕ) :=
  if candidates.length ≤ i || i ∈ s.1.grouped then none
  else
    let candidate := candidates.getD i {}
    if !candidate.isRerankable || candidate.start ≠ group.start || candidate.stop ≠ group.stop ||
        candidate.category ≠ group.category || s.2.any (i ≤ ·) then none
    else some ({ s.1 with grouped := i :: s.1.grouped, boundary := s.1.bound groupIndex i }, some i)

def scanMembers (candidates : List RerankPlanCandidate) (group : RerankPlanGroup)
    (groupIndex : ℕ) (s : Scan × Option ℕ) : List ℕ → Option (Scan × Option ℕ)
  | [] => some s
  | i :: rest =>
    match scanMember candidates group groupIndex s i with
    | none => none
    | some s => scanMembers candidates group groupIndex s rest

def scanGroup (host : Host) (schemaId canonicalInput : Text)
    (candidates : List RerankPlanCandidate) (s : Scan) (groupIndex : ℕ)
    (group : RerankPlanGroup) : Option Scan :=
  if !validGroupHead canonicalInput group then none
  else match scanMembers candidates group groupIndex (s, none) group.indexes with
    | none => none
    | some (s, _) =>
      let first := group.indexes.headD 0
      if s.previousFirst.any (first ≤ ·) then none
      else if group.identity ≠ some (computeGroupIdentity host schemaId group candidates) then none
      else some { s with previousFirst := some first }

/-- The groups, from the one with index `groupIndex` on. -/
def scanGroups (host : Host) (schemaId canonicalInput : Text)
    (candidates : List RerankPlanCandidate) (s : Scan) (groupIndex : ℕ) :
    List RerankPlanGroup → Option Scan
  | [] => some s
  | group :: rest =>
    match scanGroup host schemaId canonicalInput candidates s groupIndex group with
    | none => none
    | some s => scanGroups host schemaId canonicalInput candidates s (groupIndex + 1) rest

/-- The checks of a plan before its candidates. -/
def validHead (plan : RerankPlan) : Bool :=
  plan.version = some kRerankPlanVersion && plan.identity.any (· ≠ []) &&
  plan.schemaId.any (· ≠ []) && plan.canonicalInput.any (fun t => t = canonicalizeInput t) &&
  plan.previousWord.isSome && plan.config.any validConfig &&
  plan.scoringPolicy.any validScoringPolicy && plan.windowTruncated.isSome &&
  plan.candidates.isSome && plan.groups.isSome &&
  plan.precedingText.any fun t => lastUnicodeCharacters t kPrecedingTextCharacters = some t

/-- The checks of a plan after its groups. -/
def validTail (host : Host) (plan : RerankPlan) (s : Scan) : Bool :=
  (plan.theCandidates.zipIdx.all fun e => e.1.isRerankable = decide (e.2 ∈ s.grouped)) &&
  (plan.theGroups.zipIdx.all fun e =>
    e.1.isComplete = (!plan.isTruncated || e.2 ≠ (s.boundary.map Prod.fst).getD 0)) &&
  plan.identity = some (computePlanIdentity host plan)

def validPlan (host : Host) (plan : RerankPlan) : Bool :=
  validHead plan &&
  (plan.theCandidates.zipIdx.all fun e => validCandidate plan.theInput e.1 e.2) &&
  match scanGroups host (plan.schemaId.getD []) plan.theInput plan.theCandidates {} 0
      plan.theGroups with
  | none => false
  | some s => validTail host plan s

/-! ## The builder -/

/-- What a group is looked up by: the span and the category. -/
abbrev GroupKey := ℕ × ℕ × Text

/-- What the builder keeps while it goes through the candidates. -/
structure Building where
  candidates : List RerankPlanCandidate
  groups : List RerankPlanGroup := []
  groupIndexes : List (GroupKey × ℕ) := []
  /-- `boundary_group`, once there is one. -/
  boundary : Option ℕ := none

/-- A group's members with one more at the end. -/
def RerankPlanGroup.push (g : RerankPlanGroup) (i : ℕ) : RerankPlanGroup :=
  { g with candidateIndexes := g.candidateIndexes.map (· ++ [i]) }

/-- The candidate at `i` enters the group at `g`. -/
def Building.enter (b : Building) (g i : ℕ) : Building :=
  { b with groups := b.groups.modify g (·.push i), boundary := some g }

def Building.open (b : Building) (canonicalInput : Text) (key : GroupKey) : Building :=
  { b with
    groups := b.groups ++ [{
      start := some key.1, stop := some key.2.1, category := some key.2.2,
      canonicalInput := some (span canonicalInput key.1 key.2.1), complete := some true,
      candidateIndexes := some [] }]
    groupIndexes := b.groupIndexes ++ [(key, b.groups.length)] }

/-- The candidate at `i` gets its merge order. -/
def Building.order (b : Building) (i : ℕ) : Building :=
  { b with candidates := b.candidates.modify i fun c => { c with mergeOrder := some i } }

/-- One candidate; an error is the early `return plan`. -/
def buildCandidate (canonicalInput : Text) (b : Building) (i : ℕ) : Except Building Building :=
  let b := b.order i
  let candidate := b.candidates.getD i {}
  match candidate.start, candidate.stop, candidate.category, candidate.rerankable with
  | some start, some stop, some category, some rerankable =>
    if candidate.sourceType.isNone || candidate.text.isNone || stop < start ||
        canonicalInput.length < stop then .error b
    else if !rerankable then .ok b
    else
      match b.groupIndexes.lookup (start, stop, category) with
      | some g => .ok (b.enter g i)
      | none => .ok ((b.open canonicalInput (start, stop, category)).enter b.groups.length i)
  | _, _, _, _ => .error b

def buildCandidates (canonicalInput : Text) (b : Building) : List ℕ → Except Building Building
  | [] => .ok b
  | i :: rest =>
    match buildCandidate canonicalInput b i with
    | .error b => .error b
    | .ok b => buildCandidates canonicalInput b rest

/-- The plan's own fields, as far as the loop has filled them. -/
def RerankPlan.holding (plan : RerankPlan) (b : Building) : RerankPlan :=
  { plan with candidates := some b.candidates, groups := some b.groups }

/-- The boundary group of a truncated window is not complete. -/
def closeBoundary (windowTruncated : Bool) (b : Building) : List RerankPlanGroup :=
  match b.boundary with
  | some g => if windowTruncated then b.groups.modify g fun g => { g with complete := some false }
    else b.groups
  | none => b.groups

def buildRerankPlan (host : Host) (schemaId input precedingText previousWord : Text)
    (config : RerankPlanConfig) (scoringPolicy : RerankScoringPolicy)
    (candidates : List RerankPlanCandidate) (windowTruncated : Bool) : RerankPlan :=
  let plan : RerankPlan := {
    version := some kRerankPlanVersion
    schemaId := some schemaId
    canonicalInput := some (canonicalizeInput input)
    precedingText := lastUnicodeCharacters precedingText kPrecedingTextCharacters
    previousWord := some previousWord
    config := some config
    scoringPolicy := some scoringPolicy
    windowTruncated := some windowTruncated
    candidates := some candidates
    groups := some [] }
  if plan.precedingText.isNone || schemaId = [] || !validConfig config ||
      !validScoringPolicy scoringPolicy then plan
  else match buildCandidates plan.theInput { candidates := candidates }
      (List.range candidates.length) with
    | .error b => plan.holding b
    | .ok b =>
      let groups := (closeBoundary windowTruncated b).map fun g =>
        { g with identity := some (computeGroupIdentity host schemaId g b.candidates) }
      let plan := { plan with candidates := some b.candidates, groups := some groups }
      { plan with identity := some (computePlanIdentity host plan) }

def makeRerankCandidateScore (host : Host) (baseScore retrievalEvidence gamma : Binary64) :
    RerankCandidateScore where
  baseScore := some baseScore
  retrievalEvidence := some retrievalEvidence
  comparisonScore := some (comparisonScore host baseScore retrievalEvidence gamma)

/-! ## The replay -/

/-- The comparison score of a candidate, recomputed, if the candidate's score is accepted. -/
def checkScore (host : Host) (gamma : Binary64) (score : RerankCandidateScore) :
    Option Binary64 :=
  match score.baseScore, score.retrievalEvidence, score.comparisonScore with
  | some base, some evidence, some comparison =>
    if !base.isFinite || !evidence.isFinite || !comparison.isFinite ||
        Binary64.lt evidence .zero || Binary64.le .one evidence then none
    else if !Binary64.eq comparison (comparisonScore host base evidence gamma) then none
    else some (comparisonScore host base evidence gamma)
  | _, _, _ => none

def checkScores (host : Host) (gamma : Binary64) :
    List RerankCandidateScore → Option (List Binary64)
  | [] => some []
  | score :: rest =>
    match checkScore host gamma score with
    | none => none
    | some x => (checkScores host gamma rest).map (x :: ·)

/-- `std::stable_sort` by descending score. -/
def stableSort (comparisonScores : List Binary64) (members : List ℕ) : List ℕ :=
  members.insertionSort fun left right =>
    !Binary64.lt (comparisonScores.getD left .zero) (comparisonScores.getD right .zero)

/-- The members of a group as they are emitted; `none` where a member has no score. -/
def arrange (comparisonScores : List Binary64) (group : RerankPlanGroup) : Option (List ℕ) :=
  if group.isComplete then
    if group.indexes.all (· < comparisonScores.length) then
      some (stableSort comparisonScores group.indexes)
    else none
  else some group.indexes

def wordOrder (comparisonScores : List Binary64) : List RerankPlanGroup → Option (List ℕ)
  | [] => some []
  | group :: rest =>
    match arrange comparisonScores group with
    | none => none
    | some members => (wordOrder comparisonScores rest).map (members ++ ·)

/-- The candidates from the one at `i` on, with the words in the rerankable places; `none` where
`word_order` has run out. -/
def refill (i : ℕ) : List RerankPlanCandidate → List ℕ → Option (List ℕ)
  | [], _ => some []
  | candidate :: rest, words =>
    if candidate.isRerankable then
      match words with
      | [] => none
      | word :: words => (refill (i + 1) rest words).map (word :: ·)
    else (refill (i + 1) rest words).map (i :: ·)

/-- What is checked before the scores. -/
def acceptsResult (host : Host) (plan : RerankPlan) (scores : RerankScoreResult) : Bool :=
  validPlan host plan && scores.version = some kRerankScoreResultVersion &&
  scores.planIdentity.isSome && scores.planIdentity = plan.identity &&
  scores.candidateScores.any fun s => s.length = plan.theCandidates.length

/-- The return value and the vector behind `emission_order`, which may be no vector.  `none` is a
read beyond the end of a vector. -/
def replayRerankPlan (host : Host) (plan : RerankPlan) (scores : RerankScoreResult)
    (emissionOrder : Option (List ℕ)) : Option (Bool × Option (List ℕ)) :=
  if emissionOrder.isNone || !acceptsResult host plan scores then some (false, emissionOrder)
  else match checkScores host (plan.thePolicy.gamma.getD .zero)
      (scores.candidateScores.getD []) with
    | none => some (false, emissionOrder)
    | some comparisonScores =>
      match wordOrder comparisonScores plan.theGroups with
      | none => none
      | some words =>
        match refill 0 plan.theCandidates words with
        | none => none
        | some replayed => some (true, some replayed)

end SemanticMemory.Rerank
