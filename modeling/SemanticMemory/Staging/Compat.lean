import SemanticMemory.Basic

/-!
# Layered identities and the compatibility matrix

`daemon/compat.py`: what a generation is identified by, and what has to be built to come from the
active identity to the desired one.

* An identity is a dictionary, `Dict`.  The identity in a staging record and the layered identity
  that the matrix compares have keys of their own; `Layer.key` are the matrix's.
* `planActions` is the matrix.  Its mismatch report, which only the status shows, is left out.
-/

namespace SemanticMemory
namespace Staging

/-! ## Dictionaries -/

inductive Value where
  | text (value : Text)
  | hlc (point : Hlc)
  | number (value : ℕ)
  /-- An object, by its canonical text. -/
  | params (content : Text)
  deriving DecidableEq

/-- A JSON object. -/
abbrev Dict := List (Text × Value)

/-- `d.get(key)`. -/
def Dict.get (d : Dict) (key : Text) : Option Value := d.lookup key

/-- Looking up a key that a dictionary begins with, or does not. -/
theorem get_cons (key k : Text) (v : Value) (d : Dict) :
    Dict.get ((k, v) :: d) key = if key = k then some v else Dict.get d key := by
  unfold Dict.get
  rw [List.lookup_cons]
  by_cases h : key = k
  · simp [h]
  · rw [if_neg h, beq_eq_false_iff_ne.mpr h]

/-- `FP32_ROW_MAJOR_LE`, which is also `VECTOR_FORMAT`. -/
def fp32RowMajorLe : Text := ascii "fp32-row-major-little-endian"

/-- `INDEX_FINGERPRINT_PREFIX`, with the colon that follows it. -/
def indexFingerprintPrefix : Text := ascii "index-fingerprint-v1:"

/-! ## Layers -/

inductive Layer where
  | storeEpoch | factSchema | representation | vectorFormat | projection | index
  deriving DecidableEq

/-- `LAYER_*`. -/
def Layer.key : Layer → Text
  | .storeEpoch => ascii "store_epoch"
  | .factSchema => ascii "fact_schema_version"
  | .representation => ascii "representation_id"
  | .vectorFormat => ascii "vector_format_version"
  | .projection => ascii "projection_version"
  | .index => ascii "index_fingerprint"

def identityLayers : List Layer :=
  [.storeEpoch, .factSchema, .representation, .vectorFormat, .projection, .index]

/-! ## Actions -/

inductive PlanAction where
  | invalidateAll | reembed | rebuildProjection | reuseVectors | convertVectors | rebuildIndex | noop
  deriving DecidableEq

/-- `_layer_action`; the fact schema has none. -/
def Layer.action : Layer → Option PlanAction
  | .storeEpoch => some .invalidateAll
  | .factSchema => none
  | .representation => some .reembed
  | .vectorFormat => some .convertVectors
  | .projection => some .rebuildProjection
  | .index => some .rebuildIndex

def PlanAction.implies : PlanAction → List PlanAction
  | .invalidateAll =>
    [.reembed, .rebuildProjection, .reuseVectors, .convertVectors, .rebuildIndex]
  | .reembed => [.rebuildProjection, .reuseVectors, .convertVectors, .rebuildIndex]
  | .convertVectors => [.reuseVectors]
  | _ => []

/-- `_collapse_union`: what another action covers goes. -/
def collapseUnion (actions : List PlanAction) : List PlanAction :=
  (actions.filter fun a => !actions.any fun b => b ≠ a && a ∈ b.implies).dedup

inductive VectorReuse where
  | none | eventId | convert
  deriving DecidableEq

def vectorReuseFor (actions : List PlanAction) : VectorReuse :=
  if .invalidateAll ∈ actions ∨ .reembed ∈ actions then .none
  else if .convertVectors ∈ actions then .convert
  else if .reuseVectors ∈ actions then .eventId
  else .none

/-! ## The matrix -/

def refuseLoadReason (active : Option Dict) (factsSchemaVersion : Option Text) : Option Text :=
  match active with
  | none => some (ascii "unknown_identity")
  | some active =>
    if identityLayers.any fun layer =>
        match active.get layer.key with
        | none | some (.text []) => true
        | _ => false then
      some (ascii "missing_compat_declaration")
    else if factsSchemaVersion.any fun version =>
        active.get Layer.factSchema.key ≠ some (.text version) then
      some (ascii "fact_schema_changed")
    else if active.get Layer.vectorFormat.key ≠ some (.text fp32RowMajorLe) then
      some (ascii "unsupported_vector_format")
    else
      match active.get Layer.index.key with
      | some (.text fingerprint) =>
        if indexFingerprintPrefix <+: fingerprint then none else some (ascii "unknown_identity")
      | _ => none

/-- What `plan_actions` returns. -/
structure Plan where
  actions : List PlanAction
  vectorReuse : VectorReuse
  refuseReason : Option Text
  deriving DecidableEq

def layerActions (converters : List (Text × Text)) (desired active : Dict) (layer : Layer) :
    List PlanAction :=
  if desired.get layer.key = active.get layer.key then []
  else
    match layer.action with
    | some .convertVectors =>
      match active.get layer.key, desired.get layer.key with
      | some (.text source), some (.text target) =>
        if (source, target) ∈ converters then [.convertVectors] else [.reembed]
      | _, _ => [.reembed]
    | some .rebuildProjection =>
      if desired.get Layer.representation.key = active.get Layer.representation.key then
        [.rebuildProjection, .reuseVectors]
      else [.rebuildProjection]
    | some action => [action]
    | none => []

/-- `plan_actions`; `converters` is the registry of tested converters. -/
def planActions (converters : List (Text × Text)) (desired : Dict) (active : Option Dict)
    (factsSchemaVersion : Option Text) : Plan :=
  match refuseLoadReason active factsSchemaVersion, active with
  | some reason, _ => ⟨[], .none, some reason⟩
  | none, none => ⟨[.reembed], .none, none⟩
  | none, some active =>
    let raw := identityLayers.flatMap (layerActions converters desired active)
    let actions := collapseUnion (if raw = [] then [.noop] else raw)
    ⟨actions, vectorReuseFor actions, none⟩

/-- The matrix asks for no build. -/
def Plan.idles (plan : Plan) : Bool := plan.actions = [.noop] || plan.actions = [.rebuildIndex]

/-- Two identities with the same layers need nothing. -/
theorem planActions_of_eq {converters : List (Text × Text)} {desired active : Dict}
    {factsSchemaVersion : Option Text}
    (h : ∀ layer ∈ identityLayers, desired.get layer.key = active.get layer.key)
    (hloads : refuseLoadReason (some active) factsSchemaVersion = none) :
    planActions converters desired (some active) factsSchemaVersion = ⟨[.noop], .none, none⟩ := by
  have hraw : identityLayers.flatMap (layerActions converters desired active) = [] := by
    rw [List.flatMap_eq_nil_iff]
    intro layer hlayer
    unfold layerActions
    rw [if_pos (h layer hlayer)]
  unfold planActions
  rw [hloads]
  simp only [hraw, if_true]
  decide

end Staging
end SemanticMemory
