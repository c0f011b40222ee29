import Mathlib
import SemanticMemory.Rerank.Plan
import SemanticMemory.Rerank.Replay
import SemanticMemory.Rerank.Build

/-!
# The identity binds the plan

Two valid plans that are hashed over the same string are the same plan, up to the sign of a zero:
`same_of_canonicalPlan_eq`.

* A length in digits ends with a colon, and digits are no colons, so a length delimits itself and
  with it a field, whatever bytes its value has: `appendField_inj`.
* A field of a type is read back from its text: `appendNat_inj`, `appendInt_inj`, `appendBool_inj`,
  and `appendDouble_inj` up to the normal form of a zero.
* The lists follow their lengths, so they are read back item by item.
* A plan's string has a group's digest only; where the digest has no collision, the group's own
  string is the same and so are its fields: `group_eq`.
-/

namespace SemanticMemory.Rerank

/-! ## Fields are read back -/

section Fields

variable {name : String} {u v : Text}

theorem delimits_lengthCode : Framing.Delimits (fun _ => True) lengthCode := by
  refine Framing.delimits_terminated (fun m n _ _ heq => ?_) fun n _ hmem => ?_
  · have hread := Json.readNat_showNat m
    rw [heq, Json.readNat_showNat n] at hread
    exact (Option.some.inj hread).symm
  · exact absurd (Json.isDigit_of_mem_showNat hmem) (by decide)

/-- **A field is read back**, whatever bytes its value has. -/
theorem appendField_inj {x y : Text} (h : appendField name x ++ u = appendField name y ++ v) :
    x = y ∧ u = v := by
  unfold appendField at h
  rw [List.append_assoc, List.append_assoc] at h
  exact delimits_lengthCode.frame trivial trivial (List.append_cancel_left h)

theorem appendNat_inj {x y : ℕ} (h : appendNat name x ++ u = appendNat name y ++ v) :
    x = y ∧ u = v := by
  obtain ⟨htext, hrest⟩ := appendField_inj h
  have hread := Json.readNat_showNat x
  rw [htext, Json.readNat_showNat y] at hread
  exact ⟨(Option.some.inj hread).symm, hrest⟩

theorem appendInt_inj {x y : ℤ} (h : appendInt name x ++ u = appendInt name y ++ v) :
    x = y ∧ u = v := by
  obtain ⟨htext, hrest⟩ := appendField_inj h
  have hread := Json.readInt_showInt x
  rw [htext, Json.readInt_showInt y] at hread
  exact ⟨(Option.some.inj hread).symm, hrest⟩

theorem appendBool_inj {x y : Bool} (h : appendBool name x ++ u = appendBool name y ++ v) :
    x = y ∧ u = v := by
  obtain ⟨htext, hrest⟩ := appendField_inj h
  refine ⟨?_, hrest⟩
  cases x <;> cases y
  · rfl
  · exact absurd htext (by decide)
  · exact absurd htext (by decide)
  · rfl

theorem hexDigit_inj {m n : ℕ} (hm : m < 16) (hn : n < 16) (h : Json.hexDigit m = Json.hexDigit n) :
    m = n := by
  have hvalue := Json.hexValue_hexDigit hm
  rw [h, Json.hexValue_hexDigit hn] at hvalue
  exact (Option.some.inj hvalue).symm

/-- A number is read back from enough hexadecimal digits. -/
theorem hexDigits_inj (width : ℕ) {m n : ℕ} (hm : m < 16 ^ width) (hn : n < 16 ^ width)
    (h : hexDigits width m = hexDigits width n) : m = n := by
  refine Framing.bigEndian_inj width hm hn ?_
  refine List.map_injective_iff.mpr (fun d d' hd => ?_) h
  exact Fin.ext (hexDigit_inj d.isLt d'.isLt hd)

theorem length_hexDigits (width n : ℕ) : (hexDigits width n).length = width := by
  rw [hexDigits, List.length_map, Framing.length_bigEndian]

theorem appendDouble_inj {x y : Binary64} (h : appendDouble name x ++ u = appendDouble name y ++ v) :
    x.normal = y.normal ∧ u = v := by
  obtain ⟨htext, hrest⟩ := appendField_inj h
  have hbits := hexDigits_inj 16 x.normal.bits.isLt y.normal.bits.isLt htext
  refine ⟨?_, hrest⟩
  rcases hx : x.normal with ⟨bx⟩
  rcases hy : y.normal with ⟨bitsY⟩
  rw [hx, hy] at hbits
  exact congrArg Binary64.mk (Fin.ext hbits)

/-- The digest is read back from an identity. -/
theorem contentIdentity_inj {host : Host} {kind : String} {x y : Text}
    (h : contentIdentity host kind x = contentIdentity host kind y) : host.sha1 x = host.sha1 y := by
  have hdigits := List.append_cancel_left h
  have hdelimits : Framing.Delimits (fun _ => True) fun b : Byte => hexDigits 2 b.val := by
    intro b b' _ _ u v heq
    obtain ⟨htext, hrest⟩ :=
      List.append_inj heq ((length_hexDigits 2 b.val).trans (length_hexDigits 2 b'.val).symm)
    exact ⟨Fin.ext (hexDigits_inj 2 b.isLt b'.isLt htext), hrest⟩
  have hlengths := congrArg List.length hdigits
  have hlength (d : List Byte) : (d.flatMap fun b => hexDigits 2 b.val).length = 2 * d.length := by
    induction d with
    | nil => rfl
    | cons b d ih =>
      rw [List.flatMap_cons, List.length_append, ih, length_hexDigits, List.length_cons]
      omega
  rw [hlength, hlength] at hlengths
  exact (hdelimits.flatMap (by omega) (fun _ _ => trivial) (fun _ _ => trivial)
    (congrArg (· ++ []) hdigits)).1

end Fields

/-! ## Records are read back -/

section Records

variable {u v : Text}

/-- A field that is there is its value. -/
theorem eq_of_getD_eq {α : Type} {a b : Option α} {d : α} (ha : a.isSome = true)
    (hb : b.isSome = true) (h : a.getD d = b.getD d) : a = b := by
  obtain ⟨x, rfl⟩ := Option.isSome_iff_exists.mp ha
  obtain ⟨y, rfl⟩ := Option.isSome_iff_exists.mp hb
  exact congrArg some h

theorem exists_of_any {α : Type} {o : Option α} {f : α → Bool} (h : o.any f = true) :
    ∃ x, o = some x ∧ f x = true := by
  rcases o with - | x
  · cases h
  · exact ⟨x, rfl, h⟩

theorem isSome_of_any {α : Type} {o : Option α} {f : α → Bool} (h : o.any f = true) :
    o.isSome = true := by
  obtain ⟨x, rfl, -⟩ := exists_of_any h
  rfl

/-- A candidate whose fields are all there. -/
structure RerankPlanCandidate.Full (c : RerankPlanCandidate) : Prop where
  mergeOrder : c.mergeOrder.isSome = true
  start : c.start.isSome = true
  stop : c.stop.isSome = true
  category : c.category.isSome = true
  sourceType : c.sourceType.isSome = true
  text : c.text.isSome = true
  rerankable : c.rerankable.isSome = true

/-- **A candidate is read back.** -/
theorem delimits_appendCandidate :
    Framing.Delimits RerankPlanCandidate.Full appendCandidate := by
  intro x y hx hy u v h
  unfold appendCandidate at h
  simp only [List.append_assoc] at h
  obtain ⟨hmerge, h⟩ := appendNat_inj h
  obtain ⟨hstart, h⟩ := appendNat_inj h
  obtain ⟨hstop, h⟩ := appendNat_inj h
  obtain ⟨hcategory, h⟩ := appendField_inj h
  obtain ⟨hsource, h⟩ := appendField_inj h
  obtain ⟨htext, h⟩ := appendField_inj h
  obtain ⟨hrerankable, h⟩ := appendBool_inj h
  refine ⟨?_, h⟩
  have h₁ := eq_of_getD_eq hx.mergeOrder hy.mergeOrder hmerge
  have h₂ := eq_of_getD_eq hx.start hy.start hstart
  have h₃ := eq_of_getD_eq hx.stop hy.stop hstop
  have h₄ := eq_of_getD_eq hx.category hy.category hcategory
  have h₅ := eq_of_getD_eq hx.sourceType hy.sourceType hsource
  have h₆ := eq_of_getD_eq hx.text hy.text htext
  have h₇ := eq_of_getD_eq hx.rerankable hy.rerankable hrerankable
  cases x
  cases y
  simp only [RerankPlanCandidate.mk.injEq]
  exact ⟨h₁, h₂, h₃, h₄, h₅, h₆, h₇⟩

/-- What a plan's string has of a group is read back. -/
theorem delimits_appendGroup : Framing.Delimits (fun _ => True) fun e : Text × Bool =>
    appendField "group_identity" e.1 ++ appendBool "group_complete" e.2 := by
  intro x y _ _ u v h
  simp only [List.append_assoc] at h
  obtain ⟨hidentity, h⟩ := appendField_inj h
  obtain ⟨hcomplete, h⟩ := appendBool_inj h
  exact ⟨Prod.ext hidentity hcomplete, h⟩

/-- Both values are there and compare equal. -/
def SameDouble (x y : Option Binary64) : Prop :=
  ∃ d e, x = some d ∧ y = some e ∧ Binary64.eq d e = true

/-- Two policies with the same fields, the coefficients as they compare. -/
structure SamePolicy (x y : RerankScoringPolicy) : Prop where
  version : x.version = y.version
  baselinePolicyId : x.baselinePolicyId = y.baselinePolicyId
  retrievalPolicyId : x.retrievalPolicyId = y.retrievalPolicyId
  alpha : SameDouble x.alpha y.alpha
  sysCoeff : SameDouble x.sysCoeff y.sysCoeff
  usrCoeff : SameDouble x.usrCoeff y.usrCoeff
  gamma : SameDouble x.gamma y.gamma
  saturateK : SameDouble x.saturateK y.saturateK

theorem sameDouble_of_normal {x y : Option Binary64} {f g : Binary64 → Bool}
    (hx : x.any (fun d => d.isFinite && f d) = true) (hy : y.any (fun d => d.isFinite && g d) = true)
    (h : (x.getD .zero).normal = (y.getD .zero).normal) : SameDouble x y := by
  obtain ⟨d, rfl, hd⟩ := exists_of_any hx
  obtain ⟨e, rfl, he⟩ := exists_of_any hy
  rw [Bool.and_eq_true] at hd he
  exact ⟨d, e, rfl, rfl, (Binary64.normal_inj hd.1 he.1).mp h⟩

/-- **A policy is read back**, up to the sign of a zero. -/
theorem appendScoringPolicy_inj {x y : RerankScoringPolicy} (hx : validScoringPolicy x = true)
    (hy : validScoringPolicy y = true)
    (h : appendScoringPolicy x ++ u = appendScoringPolicy y ++ v) : SamePolicy x y ∧ u = v := by
  unfold validScoringPolicy at hx hy
  simp only [Bool.and_eq_true, decide_eq_true_eq] at hx hy
  obtain ⟨⟨⟨⟨⟨⟨⟨hxversion, hxbase⟩, hxretrieval⟩, hxalpha⟩, hxsys⟩, hxusr⟩, hxgamma⟩, hxk⟩ := hx
  obtain ⟨⟨⟨⟨⟨⟨⟨hyversion, hybase⟩, hyretrieval⟩, hyalpha⟩, hysys⟩, hyusr⟩, hygamma⟩, hyk⟩ := hy
  unfold appendScoringPolicy at h
  simp only [List.append_assoc] at h
  obtain ⟨-, h⟩ := appendInt_inj h
  obtain ⟨hbase, h⟩ := appendField_inj h
  obtain ⟨hretrieval, h⟩ := appendField_inj h
  obtain ⟨halpha, h⟩ := appendDouble_inj h
  obtain ⟨hsys, h⟩ := appendDouble_inj h
  obtain ⟨husr, h⟩ := appendDouble_inj h
  obtain ⟨hgamma, h⟩ := appendDouble_inj h
  obtain ⟨hk, h⟩ := appendDouble_inj h
  exact ⟨⟨hxversion.trans hyversion.symm,
    eq_of_getD_eq (isSome_of_any hxbase) (isSome_of_any hybase) hbase,
    eq_of_getD_eq (isSome_of_any hxretrieval) (isSome_of_any hyretrieval) hretrieval,
    sameDouble_of_normal hxalpha hyalpha halpha, sameDouble_of_normal hxsys hysys hsys,
    sameDouble_of_normal hxusr hyusr husr, sameDouble_of_normal hxgamma hygamma hgamma,
    sameDouble_of_normal hxk hyk hk⟩, h⟩

/-- **A configuration is read back.** -/
theorem appendConfig_inj {x y : RerankPlanConfig} (hx : validConfig x = true)
    (hy : validConfig y = true) (h : appendConfig x ++ u = appendConfig y ++ v) :
    x = y ∧ u = v := by
  unfold validConfig at hx hy
  rw [Bool.and_eq_true, decide_eq_true_eq] at hx hy
  unfold appendConfig at h
  rw [List.append_assoc, List.append_assoc] at h
  obtain ⟨-, h⟩ := appendInt_inj h
  obtain ⟨hwindow, h⟩ := appendInt_inj h
  refine ⟨?_, h⟩
  have hversions := hx.1.trans hy.1.symm
  have hwindows := eq_of_getD_eq (isSome_of_any hx.2) (isSome_of_any hy.2) hwindow
  cases x
  cases y
  simp only [RerankPlanConfig.mk.injEq]
  exact ⟨hversions, hwindows⟩

/-- **A group is read back** from the string of its identity, but for its identity and for whether
it is complete. -/
theorem canonicalGroup_inj {schemaId : Text} {candidates : List RerankPlanCandidate}
    {g h : RerankPlanGroup}
    (heq : canonicalGroup schemaId g candidates = canonicalGroup schemaId h candidates) :
    g.canonicalInput.getD [] = h.canonicalInput.getD [] ∧ g.start.getD 0 = h.start.getD 0 ∧
      g.stop.getD 0 = h.stop.getD 0 ∧ g.category.getD [] = h.category.getD [] ∧
      g.indexes = h.indexes := by
  have hdelimits : Framing.Delimits (fun _ => True) (appendMember candidates) := by
    intro i j _ _ u v hm
    unfold appendMember at hm
    rw [List.append_assoc, List.append_assoc] at hm
    obtain ⟨rfl, hrest⟩ := appendNat_inj hm
    exact ⟨rfl, List.append_cancel_left hrest⟩
  unfold canonicalGroup at heq
  obtain ⟨-, heq⟩ := appendInt_inj heq
  obtain ⟨-, heq⟩ := appendField_inj heq
  obtain ⟨hinput, heq⟩ := appendField_inj heq
  obtain ⟨hstart, heq⟩ := appendNat_inj heq
  obtain ⟨hstop, heq⟩ := appendNat_inj heq
  obtain ⟨hcategory, heq⟩ := appendField_inj heq
  obtain ⟨hcount, heq⟩ := appendNat_inj heq
  exact ⟨hinput, hstart, hstop, hcategory, (hdelimits.flatMap hcount (fun _ _ => trivial)
    (fun _ _ => trivial) (congrArg (· ++ []) heq)).1⟩

end Records

/-! ## Plans are read back -/

/-- Two plans with the same fields, the coefficients as they compare. -/
structure SamePlan (p q : RerankPlan) : Prop where
  version : p.version = q.version
  schemaId : p.schemaId = q.schemaId
  canonicalInput : p.canonicalInput = q.canonicalInput
  precedingText : p.precedingText = q.precedingText
  previousWord : p.previousWord = q.previousWord
  config : p.config = q.config
  scoringPolicy : ∃ x y, p.scoringPolicy = some x ∧ q.scoringPolicy = some y ∧ SamePolicy x y
  windowTruncated : p.windowTruncated = q.windowTruncated
  candidates : p.candidates = q.candidates
  groups : p.groups = q.groups

def RerankPlan.groupString (p : RerankPlan) (g : RerankPlanGroup) : Text :=
  canonicalGroup (p.schemaId.getD []) g p.theCandidates

section Plans

variable {host : Host} {p q : RerankPlan}

theorem full_of_validCandidate {canonicalInput : Text} {c : RerankPlanCandidate} {i : ℕ}
    (h : validCandidate canonicalInput c i = true) : c.Full := by
  unfold validCandidate at h
  rcases hstart : c.start with - | start
  · rw [hstart] at h
    cases h
  rcases hstop : c.stop with - | stop
  · rw [hstart, hstop] at h
    cases h
  rcases hr : c.rerankable with - | rerankable
  · rw [hstart, hstop, hr] at h
    cases h
  rw [hstart, hstop, hr] at h
  simp only [Bool.and_eq_true, decide_eq_true_eq] at h
  obtain ⟨⟨⟨⟨⟨⟨hmerge, -⟩, hcategory⟩, hsource⟩, htext⟩, -⟩, -⟩ := h
  exact ⟨by rw [hmerge]; rfl, by rw [hstart]; rfl, by rw [hstop]; rfl, isSome_of_any hcategory,
    isSome_of_any hsource, isSome_of_any htext, by rw [hr]; rfl⟩

theorem full_of_validPlan (h : validPlan host p = true) : ∀ c ∈ p.theCandidates, c.Full := by
  unfold validPlan at h
  rw [Bool.and_eq_true, Bool.and_eq_true, List.all_eq_true] at h
  intro c hc
  obtain ⟨i, hi⟩ := List.mem_iff_getElem?.mp hc
  exact full_of_validCandidate (h.1.2 (c, i) (List.mem_zipIdx_iff_getElem?.mpr hi))

/-- A group whose fields are all there. -/
structure RerankPlanGroup.Full (g : RerankPlanGroup) : Prop where
  identity : g.identity.isSome = true
  start : g.start.isSome = true
  stop : g.stop.isSome = true
  category : g.category.isSome = true
  canonicalInput : g.canonicalInput.isSome = true
  complete : g.complete.isSome = true
  candidateIndexes : g.candidateIndexes.isSome = true

theorem full_of_validGroupHead {canonicalInput : Text} {g : RerankPlanGroup}
    (h : validGroupHead canonicalInput g = true) : g.Full := by
  unfold validGroupHead at h
  rcases hstart : g.start with - | start
  · rw [hstart] at h
    cases h
  rcases hstop : g.stop with - | stop
  · rw [hstart, hstop] at h
    cases h
  rw [hstart, hstop] at h
  simp only [Bool.and_eq_true, decide_eq_true_eq] at h
  obtain ⟨⟨⟨⟨⟨⟨hidentity, hcategory⟩, -⟩, -⟩, hinput⟩, hcomplete⟩, hindexes⟩ := h
  exact ⟨isSome_of_any hidentity, by rw [hstart]; rfl, by rw [hstop]; rfl, by rw [hcategory]; rfl,
    by rw [hinput]; rfl, hcomplete, isSome_of_any hindexes⟩

/-- **Two groups with the same string** and the same completeness are one group. -/
theorem group_eq {schemaId : Text} {candidates : List RerankPlanCandidate}
    {g h : RerankPlanGroup} (hg : g.Full) (hh : h.Full)
    (hidentity : g.identity.getD [] = h.identity.getD [])
    (hcomplete : g.isComplete = h.isComplete)
    (heq : canonicalGroup schemaId g candidates = canonicalGroup schemaId h candidates) :
    g = h := by
  obtain ⟨hinput, hstart, hstop, hcategory, hindexes⟩ := canonicalGroup_inj heq
  have h₁ := eq_of_getD_eq hg.identity hh.identity hidentity
  have h₂ := eq_of_getD_eq hg.start hh.start hstart
  have h₃ := eq_of_getD_eq hg.stop hh.stop hstop
  have h₄ := eq_of_getD_eq hg.category hh.category hcategory
  have h₅ := eq_of_getD_eq hg.canonicalInput hh.canonicalInput hinput
  have h₆ := eq_of_getD_eq hg.complete hh.complete hcomplete
  have h₇ := eq_of_getD_eq hg.candidateIndexes hh.candidateIndexes hindexes
  cases g
  cases h
  simp only [RerankPlanGroup.mk.injEq]
  exact ⟨h₁, h₂, h₃, h₄, h₅, h₆, h₇⟩

/-- The fields of a valid plan are there. -/
structure RerankPlan.Full (p : RerankPlan) : Prop where
  version : p.version = some kRerankPlanVersion
  schemaId : p.schemaId.isSome = true
  canonicalInput : p.canonicalInput.isSome = true
  precedingText : p.precedingText.isSome = true
  previousWord : p.previousWord.isSome = true
  config : ∃ c, p.config = some c ∧ validConfig c = true
  scoringPolicy : ∃ x, p.scoringPolicy = some x ∧ validScoringPolicy x = true
  windowTruncated : p.windowTruncated.isSome = true
  candidates : p.candidates.isSome = true
  groups : p.groups.isSome = true

theorem planFull_of_validPlan (h : validPlan host p = true) : p.Full := by
  unfold validPlan at h
  rw [Bool.and_eq_true, Bool.and_eq_true] at h
  have hhead := h.1.1
  unfold validHead at hhead
  simp only [Bool.and_eq_true, decide_eq_true_eq] at hhead
  obtain ⟨⟨⟨⟨⟨⟨⟨⟨⟨⟨hversion, -⟩, hschema⟩, hinput⟩, hword⟩, hconfig⟩, hpolicy⟩, htruncated⟩,
    hcandidates⟩, hgroups⟩, htext⟩ := hhead
  exact ⟨hversion, isSome_of_any hschema, isSome_of_any hinput, isSome_of_any htext, hword,
    exists_of_any hconfig, exists_of_any hpolicy, htruncated, hcandidates, hgroups⟩

/-- The groups of two plans are read back from the plans' strings. -/
theorem groups_eq (hp : validPlan host p = true) (hq : validPlan host q = true)
    (hschema : p.schemaId = q.schemaId) (hcandidates : p.theCandidates = q.theCandidates)
    (hcollision : ∀ g ∈ p.theGroups, ∀ h ∈ q.theGroups,
      host.sha1 (p.groupString g) = host.sha1 (q.groupString h) →
        p.groupString g = q.groupString h)
    (heq : p.theGroups.map (fun g => (g.identity.getD [], g.isComplete)) =
      q.theGroups.map (fun g => (g.identity.getD [], g.isComplete))) :
    p.theGroups = q.theGroups := by
  refine List.ext_getElem? fun k => ?_
  have hk := congrArg (fun l => l[k]?) heq
  rw [List.getElem?_map, List.getElem?_map] at hk
  rcases hg : p.theGroups[k]? with - | g
  · rw [hg] at hk
    exact (Option.map_eq_none_iff.mp hk.symm).symm
  rcases hh : q.theGroups[k]? with - | h
  · rw [hg, hh] at hk
    cases hk
  rw [hg, hh] at hk
  have hpair := Option.some.inj hk
  rw [Prod.mk.injEq] at hpair
  have hgok := (grouping_of_validPlan hp).1.ok g (List.mem_of_getElem? hg)
  have hhok := (grouping_of_validPlan hq).1.ok h (List.mem_of_getElem? hh)
  have hidentity := hpair.1
  rw [hgok.identity, hhok.identity] at hidentity
  have hstring := hcollision g (List.mem_of_getElem? hg) h (List.mem_of_getElem? hh)
    (contentIdentity_inj hidentity)
  unfold RerankPlan.groupString at hstring
  rw [hschema, hcandidates] at hstring
  exact congrArg some (group_eq (full_of_validGroupHead hgok.head)
    (full_of_validGroupHead hhok.head) hpair.1 hpair.2 hstring)

/-- **The identity binds the plan**: two valid plans with the same string, whose groups' strings do
not collide under the digest, are the same in every field. -/
theorem same_of_canonicalPlan_eq (host : Host) (p q : RerankPlan) (hp : validPlan host p = true)
    (hq : validPlan host q = true) (hplan : canonicalPlan p = canonicalPlan q)
    (hcollision : ∀ g ∈ p.theGroups, ∀ h ∈ q.theGroups,
      host.sha1 (p.groupString g) = host.sha1 (q.groupString h) →
        p.groupString g = q.groupString h) : SamePlan p q := by
  have hpf := planFull_of_validPlan hp
  have hqf := planFull_of_validPlan hq
  obtain ⟨config, hconfig, hcvalid⟩ := hpf.config
  obtain ⟨config', hconfig', hcvalid'⟩ := hqf.config
  obtain ⟨policy, hpolicy, hpvalid⟩ := hpf.scoringPolicy
  obtain ⟨policy', hpolicy', hpvalid'⟩ := hqf.scoringPolicy
  have h := hplan
  unfold canonicalPlan RerankPlan.thePolicy at h
  rw [hconfig, hconfig', hpolicy, hpolicy'] at h
  obtain ⟨-, h⟩ := appendInt_inj h
  obtain ⟨hschema, h⟩ := appendField_inj h
  obtain ⟨hinput, h⟩ := appendField_inj h
  obtain ⟨htext, h⟩ := appendField_inj h
  obtain ⟨hword, h⟩ := appendField_inj h
  obtain ⟨hconfigs, h⟩ := appendConfig_inj hcvalid hcvalid' h
  obtain ⟨hpolicies, h⟩ := appendScoringPolicy_inj hpvalid hpvalid' h
  obtain ⟨htruncated, h⟩ := appendBool_inj h
  obtain ⟨hcount, h⟩ := appendNat_inj h
  obtain ⟨hcandidates, h⟩ := delimits_appendCandidate.flatMap hcount (full_of_validPlan hp)
    (full_of_validPlan hq) h
  obtain ⟨hgroups, h⟩ := appendNat_inj h
  have hschemas := eq_of_getD_eq hpf.schemaId hqf.schemaId hschema
  have hpairs : p.theGroups.map (fun g => (g.identity.getD [], g.isComplete)) =
      q.theGroups.map (fun g => (g.identity.getD [], g.isComplete)) := by
    refine (delimits_appendGroup.flatMap (by rw [List.length_map, List.length_map, hgroups])
      (fun _ _ => trivial) (fun _ _ => trivial) (u := []) (v := []) ?_).1
    rw [List.flatMap_map, List.flatMap_map]
    exact congrArg (· ++ []) h
  have hsame := groups_eq hp hq hschemas hcandidates hcollision hpairs
  exact {
    version := hpf.version.trans hqf.version.symm
    schemaId := hschemas
    canonicalInput := eq_of_getD_eq hpf.canonicalInput hqf.canonicalInput hinput
    precedingText := eq_of_getD_eq hpf.precedingText hqf.precedingText htext
    previousWord := eq_of_getD_eq hpf.previousWord hqf.previousWord hword
    config := by rw [hconfig, hconfig', hconfigs]
    scoringPolicy := ⟨policy, policy', hpolicy, hpolicy', hpolicies⟩
    windowTruncated := eq_of_getD_eq hpf.windowTruncated hqf.windowTruncated htruncated
    candidates := eq_of_getD_eq hpf.candidates hqf.candidates hcandidates
    groups := eq_of_getD_eq hpf.groups hqf.groups hsame }

/-- The sample plan with a coefficient `alpha`. -/
def samplePlan (alpha : Binary64) : RerankPlan :=
  buildRerankPlan sampleHost (ascii "luna") (ascii "Ni") (Utf8.encodeAll ['a']) []
    defaultRerankPlanConfig { defaultRerankScoringPolicy with alpha := some alpha }
    [sampleCandidate (ascii "n"), sampleCandidate (ascii "m")] false

/-- A positive and a negative zero. -/
theorem same_of_canonicalPlan_eq_sample :
    SamePlan (samplePlan .zero) (samplePlan ⟨9223372036854775808⟩) :=
  same_of_canonicalPlan_eq sampleHost (samplePlan .zero) (samplePlan ⟨9223372036854775808⟩)
    (by decide +kernel) (by decide +kernel) (by decide +kernel) (by decide +kernel)

end Plans

end SemanticMemory.Rerank
