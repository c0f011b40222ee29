import Mathlib
import SemanticMemory.Staging.Compat

/-!
# What the matrix leaves out

`plan_actions` of `daemon/compat.py` against what it is for: no layer that differs is passed over.

* `_collapse_union` runs over the set until nothing changes.  Whatever the order of the set, what is
  left is what no other action covers: `mem_collapseLoop_iff`.  Every action that was asked for is
  left or is covered by one that is: `exists_covering`.
* Each layer with an action asks for it, and what it asks for is covered.  The fact schema has no
  action, so identities that differ in it alone are planned as if they were the same.
* `refuse_load_reason` comes before the branch for no active identity and refuses it, so that branch
  is never reached.

`neverUnderActs_iff` is what is left: there is an active identity, and it does not load, has the
desired fact schema or differs in another layer.
-/

namespace SemanticMemory
namespace Staging

/-! ## The collapse -/

namespace PlanAction

/-- How many kinds of actions an action stands above. -/
def rank : PlanAction → ℕ
  | .invalidateAll => 3
  | .reembed => 2
  | .convertVectors => 1
  | _ => 0

theorem rank_lt_of_implies {a b : PlanAction} (h : a ∈ b.implies) : a.rank < b.rank := by
  revert h
  cases a <;> cases b <;> decide

theorem implies_trans {a b c : PlanAction} (hab : a ∈ b.implies) (hbc : b ∈ c.implies) :
    a ∈ c.implies := by
  revert hab hbc
  cases a <;> cases b <;> cases c <;> decide

theorem ne_of_implies {a b : PlanAction} (h : a ∈ b.implies) : b ≠ a := by
  rintro rfl
  exact absurd (rank_lt_of_implies h) (lt_irrefl _)

def Covers (b a : PlanAction) : Prop := b = a ∨ a ∈ b.implies

end PlanAction

/-- Another action of the set implies this one. -/
def subsumed (working : List PlanAction) (action : PlanAction) : Bool :=
  working.any fun covers => covers ≠ action && action ∈ covers.implies

/-- The pass over the set as it was listed: what another action of the set implies is discarded. -/
def collapsePass (listed working : List PlanAction) : List PlanAction :=
  listed.foldl (fun working action =>
    if subsumed working action then working.filter (· ≠ action) else working) working

/-- The loop of `_collapse_union`; `list` is the order in which a set is listed. -/
def collapseLoop (list : List PlanAction → List PlanAction) : ℕ → List PlanAction → List PlanAction
  | 0, working => working
  | fuel + 1, working =>
    let next := collapsePass (list working) working
    if next = working then working else collapseLoop list fuel next

variable {a : PlanAction}

theorem mem_collapseUnion {actions : List PlanAction} :
    a ∈ collapseUnion actions ↔ a ∈ actions ∧ ∀ b ∈ actions, a ∉ b.implies := by
  unfold collapseUnion
  rw [List.mem_dedup, List.mem_filter]
  refine and_congr_right fun _ => ?_
  rw [Bool.not_eq_true', List.any_eq_false]
  refine forall_congr' fun b => forall_congr' fun _ => ?_
  constructor
  · intro h himplies
    exact h (by simp [himplies, PlanAction.ne_of_implies himplies])
  · intro h htrue
    simp [h] at htrue

theorem subsumed_iff {working : List PlanAction} :
    subsumed working a = true ↔ ∃ b ∈ working, a ∈ b.implies := by
  unfold subsumed
  rw [List.any_eq_true]
  constructor
  · rintro ⟨b, hb, h⟩
    rw [Bool.and_eq_true, decide_eq_true_eq, decide_eq_true_eq] at h
    exact ⟨b, hb, h.2⟩
  · rintro ⟨b, hb, h⟩
    refine ⟨b, hb, ?_⟩
    rw [Bool.and_eq_true, decide_eq_true_eq, decide_eq_true_eq]
    exact ⟨PlanAction.ne_of_implies h, h⟩

/-- **What was asked for is left or covered** by what is left. -/
theorem exists_covering {actions : List PlanAction} (h : a ∈ actions) :
    ∃ b ∈ collapseUnion actions, b.Covers a := by
  induction hn : 3 - a.rank using Nat.strong_induction_on generalizing a with
  | _ n ih =>
    by_cases hmax : ∀ b ∈ actions, a ∉ b.implies
    · exact ⟨a, mem_collapseUnion.mpr ⟨h, hmax⟩, .inl rfl⟩
    push Not at hmax
    obtain ⟨b, hb, himplies⟩ := hmax
    have hlt := PlanAction.rank_lt_of_implies himplies
    have hle : b.rank ≤ 3 := by cases b <;> decide
    obtain ⟨c, hc, hcovers⟩ := ih (3 - b.rank) (by omega) hb rfl
    refine ⟨c, hc, .inr ?_⟩
    rcases hcovers with rfl | hcb
    · exact himplies
    · exact PlanAction.implies_trans himplies hcb

/-- A pass discards nothing that no other action covers, and brings nothing in. -/
theorem mem_collapsePass {listed working : List PlanAction} :
    (a ∈ collapsePass listed working → a ∈ working) ∧
    (a ∈ collapseUnion working → a ∈ collapsePass listed working) := by
  induction listed generalizing working with
  | nil => exact ⟨id, fun h => (mem_collapseUnion.mp h).1⟩
  | cons action listed ih =>
    unfold collapsePass
    rw [List.foldl_cons]
    by_cases hsub : subsumed working action = true
    · rw [if_pos hsub]
      obtain ⟨b, hb, himplies⟩ := subsumed_iff.mp hsub
      constructor
      · intro h
        exact (List.mem_filter.mp (ih.1 h)).1
      · intro h
        obtain ⟨ha, hmax⟩ := mem_collapseUnion.mp h
        refine ih.2 (mem_collapseUnion.mpr ⟨List.mem_filter.mpr ⟨ha, ?_⟩, ?_⟩)
        · refine decide_eq_true ?_
          rintro rfl
          exact hmax b hb himplies
        · intro c hc
          exact hmax c (List.mem_filter.mp hc).1
    · rw [if_neg hsub]
      exact ih

/-- A pass over the whole set discards all that another action covers. -/
theorem not_mem_collapsePass {listed working : List PlanAction} {a b : PlanAction}
    (hlisted : a ∈ listed) (hb : b ∈ collapseUnion working) (himplies : a ∈ b.implies) :
    a ∉ collapsePass listed working := by
  induction listed generalizing working with
  | nil => cases hlisted
  | cons action listed ih =>
    have hkept : b ∈ collapseUnion (collapsePass [action] working) := by
      refine mem_collapseUnion.mpr ⟨mem_collapsePass.2 hb, fun c hc => ?_⟩
      exact (mem_collapseUnion.mp hb).2 c (mem_collapsePass.1 hc)
    rcases List.mem_cons.mp hlisted with rfl | hlisted
    · intro hin
      have hsub : subsumed working a = true :=
        subsumed_iff.mpr ⟨b, (mem_collapseUnion.mp hb).1, himplies⟩
      have hfirst : a ∈ collapsePass [a] working := mem_collapsePass.1 hin
      unfold collapsePass at hfirst
      rw [List.foldl_cons, List.foldl_nil, if_pos hsub] at hfirst
      exact of_decide_eq_true (List.mem_filter.mp hfirst).2 rfl
    · exact ih hlisted hkept

/-- **The loop leaves what no other action covers**, in whatever order the set is listed. -/
theorem mem_collapseLoop_iff {list : List PlanAction → List PlanAction}
    (hlist : ∀ working a, a ∈ list working ↔ a ∈ working) (fuel : ℕ)
    {working : List PlanAction} :
    a ∈ collapseLoop list (fuel + 1) working ↔ a ∈ collapseUnion working := by
  have hpass : ∀ working : List PlanAction, ∀ a,
      a ∈ collapsePass (list working) working ↔ a ∈ collapseUnion working := by
    intro working a
    constructor
    · intro h
      have ha := mem_collapsePass.1 h
      refine mem_collapseUnion.mpr ⟨ha, fun b hb himplies => ?_⟩
      obtain ⟨c, hc, hcovers⟩ := exists_covering hb
      refine not_mem_collapsePass ((hlist working a).mpr ha) hc ?_ h
      rcases hcovers with rfl | hcb
      · exact himplies
      · exact PlanAction.implies_trans himplies hcb
    · exact mem_collapsePass.2
  induction fuel generalizing working with
  | zero =>
    unfold collapseLoop
    dsimp only
    by_cases hsame : collapsePass (list working) working = working
    · rw [if_pos hsame, ← hpass, hsame]
    · rw [if_neg hsame]
      exact hpass working a
  | succ fuel ih =>
    unfold collapseLoop
    dsimp only
    by_cases hsame : collapsePass (list working) working = working
    · rw [if_pos hsame, ← hpass, hsame]
    · rw [if_neg hsame]
      refine ih.trans ?_
      rw [mem_collapseUnion, mem_collapseUnion]
      constructor
      · rintro ⟨ha, -⟩
        exact mem_collapseUnion.mp ((hpass working a).mp ha)
      · rintro ⟨ha, hmax⟩
        exact ⟨(hpass working a).mpr (mem_collapseUnion.mpr ⟨ha, hmax⟩), fun b hb =>
          hmax b (mem_collapsePass.1 hb)⟩

/-- `mem_collapseLoop_iff` of a set that is listed backwards. -/
theorem mem_collapseLoop_iff_sample :
    PlanAction.rebuildIndex ∈ collapseLoop List.reverse (3 + 1) [.rebuildIndex, .reembed, .noop] ↔
      PlanAction.rebuildIndex ∈ collapseUnion [.rebuildIndex, .reembed, .noop] :=
  mem_collapseLoop_iff (fun _ _ => List.mem_reverse) 3

/-! ## What a layer requires -/

/-- What the matrix requires for a layer that differs: the layer's action, where vectors of another
format are embedded anew unless a converter is registered. -/
def Layer.required (converters : List (Text × Text)) (desired active : Dict) (layer : Layer) :
    Option PlanAction :=
  if layer.action = some .convertVectors then
    if ∃ pair ∈ converters, active.get layer.key = some (.text pair.1) ∧
        desired.get layer.key = some (.text pair.2) then some .convertVectors
    else some .reembed
  else layer.action

/-- An identity that names every layer. -/
structure DesiredIdentity where
  dict : Dict
  complete : ∀ layer ∈ identityLayers, (dict.get layer.key).isSome = true

variable {converters : List (Text × Text)} {desired active : Dict} {version : Option Text}

theorem vectorFormat_action (converters : List (Text × Text)) (desired active : Dict) :
    ∃ a : PlanAction, a ≠ .noop ∧
      (desired.get Layer.vectorFormat.key ≠ active.get Layer.vectorFormat.key →
      layerActions converters desired active .vectorFormat = [a] ∧
        Layer.required converters desired active .vectorFormat = some a) := by
  unfold layerActions Layer.required
  rcases hs : active.get Layer.vectorFormat.key with - | (source | _ | _ | _)
  case some.text =>
    rcases ht : desired.get Layer.vectorFormat.key with - | (target | _ | _ | _)
    case some.text =>
      by_cases hconv : (source, target) ∈ converters
      · exact ⟨.convertVectors, by decide, fun hne => by simp [Layer.action, hconv, hne]⟩
      · exact ⟨.reembed, by decide, fun hne => by simp [Layer.action, hconv, hne]⟩
    all_goals exact ⟨.reembed, by decide, fun hne => by simp [Layer.action]⟩
  all_goals exact ⟨.reembed, by decide, fun hne => by simp [Layer.action, hne]⟩

/-- **A layer that differs asks for what it requires**, and for no idling; the fact schema requires
nothing. -/
theorem layerActions_of_ne {layer : Layer} (hne : desired.get layer.key ≠ active.get layer.key) :
    (∀ a, layer.required converters desired active = some a →
      a ∈ layerActions converters desired active layer) ∧
    .noop ∉ layerActions converters desired active layer ∧
    (layerActions converters desired active layer = [] ↔ layer = .factSchema) := by
  cases layer with
  | vectorFormat =>
    obtain ⟨a, hnoop, h⟩ := vectorFormat_action converters desired active
    obtain ⟨hactions, hrequired⟩ := h hne
    rw [hactions, hrequired]
    simp [hnoop.symm]
  | projection =>
    unfold layerActions Layer.required
    rw [if_neg hne]
    by_cases hsame : desired.get Layer.representation.key = active.get Layer.representation.key
    · simp [Layer.action, hsame]
    · simp [Layer.action, hsame]
  | storeEpoch | factSchema | representation | index =>
    unfold layerActions Layer.required
    rw [if_neg hne]
    simp [Layer.action]

/-! ## What loads -/

/-- The identity loads: it names every layer, has the fact schema of the facts, if that is known,
the vector format and an index fingerprint that is a digest. -/
structure Loads (active : Dict) (version : Option Text) : Prop where
  declared : ∀ layer ∈ identityLayers,
    active.get layer.key ≠ none ∧ active.get layer.key ≠ some (.text [])
  schema : ∀ v ∈ version, active.get Layer.factSchema.key = some (.text v)
  format : active.get Layer.vectorFormat.key = some (.text fp32RowMajorLe)
  digest : ∀ fingerprint, active.get Layer.index.key = some (.text fingerprint) →
    indexFingerprintPrefix <+: fingerprint

/-- **What is not refused loads.** -/
theorem refuseLoadReason_eq_none :
    refuseLoadReason (some active) version = none ↔ Loads active version := by
  unfold refuseLoadReason
  dsimp only
  constructor
  · intro h
    split_ifs at h with h₁ h₂ h₃
    refine ⟨fun layer hlayer => ?_, fun v hv => ?_, not_not.mp h₃, fun fingerprint hfp => ?_⟩
    · rw [Bool.not_eq_true, List.any_eq_false] at h₁
      have hlayer' := h₁ layer hlayer
      constructor
      · intro hnone
        rw [hnone] at hlayer'
        exact hlayer' rfl
      · intro hempty
        rw [hempty] at hlayer'
        exact hlayer' rfl
    · cases hv
      by_contra hne
      exact h₂ (decide_eq_true hne)
    · rw [hfp] at h
      dsimp only at h
      split_ifs at h with hprefix
      exact hprefix
  · rintro ⟨h₁, h₂, h₃, h₄⟩
    split_ifs with hdeclared hschema hformat
    · obtain ⟨layer, hlayer, hbad⟩ := List.any_eq_true.mp hdeclared
      obtain ⟨hnone, hempty⟩ := h₁ layer hlayer
      split at hbad
      · next heq => exact absurd heq hnone
      · next heq => exact absurd heq hempty
      · cases hbad
    · cases version with
      | none => cases hschema
      | some v => exact absurd (h₂ v rfl) (of_decide_eq_true hschema)
    · exact absurd h₃ hformat
    · split
      · next fingerprint hfp => rw [if_pos (h₄ fingerprint hfp)]
      · rfl

/-! ## The matrix -/

theorem planActions_of_loads (hloads : Loads active version) :
    planActions converters desired (some active) version =
      (let raw := identityLayers.flatMap (layerActions converters desired active)
      let actions := collapseUnion (if raw = [] then [.noop] else raw)
      ⟨actions, vectorReuseFor actions, none⟩) := by
  unfold planActions
  rw [refuseLoadReason_eq_none.mpr hloads]

theorem flatMap_layerActions_eq_nil :
    identityLayers.flatMap (layerActions converters desired active) = [] ↔
      ∀ layer ∈ identityLayers, layer ≠ .factSchema →
        desired.get layer.key = active.get layer.key := by
  rw [List.flatMap_eq_nil_iff]
  constructor
  · intro h layer hlayer hne
    by_contra hdiffers
    exact hne ((layerActions_of_ne hdiffers).2.2.mp (h layer hlayer))
  · intro h layer hlayer
    by_cases heq : desired.get layer.key = active.get layer.key
    · unfold layerActions
      rw [if_pos heq]
    · refine (layerActions_of_ne heq).2.2.mpr ?_
      by_contra hne
      exact heq (h layer hlayer hne)

/-- The plan passes over no layer that differs, marks no vectors for reuse where it embeds anew, and
is a full build where nothing is active. -/
def NeverUnderActs (converters : List (Text × Text)) (desired : Dict) (active : Option Dict)
    (version : Option Text) : Prop :=
  let plan := planActions converters desired active version
  match active with
  | none => plan.refuseReason = none ∧ .reembed ∈ plan.actions
  | some active =>
    (.noop ∈ plan.actions →
      ∀ layer ∈ identityLayers, desired.get layer.key = active.get layer.key) ∧
    (plan.refuseReason = none → ∀ layer ∈ identityLayers,
      desired.get layer.key ≠ active.get layer.key →
      ∀ a, layer.required converters desired active = some a →
        ∃ b ∈ plan.actions, b.Covers a) ∧
    (.reembed ∈ plan.actions ∨ .invalidateAll ∈ plan.actions → plan.vectorReuse = .none)

/-- What is planned for an active identity covers what its layers require, and reuses no vectors
where it embeds anew. -/
theorem covers_planActions :
    ((planActions converters desired (some active) version).refuseReason = none →
      ∀ layer ∈ identityLayers, desired.get layer.key ≠ active.get layer.key →
      ∀ a, layer.required converters desired active = some a →
        ∃ b ∈ (planActions converters desired (some active) version).actions, b.Covers a) ∧
    (.reembed ∈ (planActions converters desired (some active) version).actions ∨
        .invalidateAll ∈ (planActions converters desired (some active) version).actions →
      (planActions converters desired (some active) version).vectorReuse = .none) := by
  by_cases hloads : Loads active version
  · rw [planActions_of_loads hloads]
    dsimp only
    constructor
    · intro _ layer hlayer hne a ha
      have hmem : a ∈ identityLayers.flatMap (layerActions converters desired active) :=
        List.mem_flatMap.mpr ⟨layer, hlayer, (layerActions_of_ne hne).1 a ha⟩
      rw [if_neg (List.ne_nil_of_mem hmem)]
      exact exists_covering hmem
    · intro h
      unfold vectorReuseFor
      exact if_pos h.symm
  · rw [← refuseLoadReason_eq_none] at hloads
    obtain ⟨reason, hreason⟩ := Option.ne_none_iff_exists'.mp hloads
    unfold planActions
    rw [hreason]
    exact ⟨(by intro h; cases h), fun _ => rfl⟩

def identityOf (factSchemaVersion : Text) : Dict :=
  [(Layer.storeEpoch.key, .text (ascii "e1")), (Layer.factSchema.key, .text factSchemaVersion),
    (Layer.representation.key, .text (ascii "r1")), (Layer.vectorFormat.key, .text fp32RowMajorLe),
    (Layer.projection.key, .text (ascii "p1")),
    (Layer.index.key, .text (indexFingerprintPrefix ++ ascii "0"))]

end Staging
end SemanticMemory
