import Mathlib
import SemanticMemory.Operations.Migrate

/-!
# Who reads the schema version

Four functions read `fact_schema_version` out of the meta table and ask the table of steps about it:
`FactStore::Open` and `InspectSnapshotHandle` of `src/fact_store.cc`, `PrepareRestoreFile` of
`src/fact_restore.cc` and `MigrateFile` of `src/fact_migrator.cc`.

## What is modelled, and how

* The stored version is 64 bits wide.  `MigrateFile` compares it with the head as it is.  The other
  three cast it to `int` first and ask `DispositionFor`, so they keep its lower 32 bits.
* `InspectSnapshotHandle` looks at the file besides, before it looks at the version and afterwards;
  what comes of that is an argument.
* What the functions say of a version is one of three classes: current, supported but old, refused.

Up to the greatest `int` the four agree and nothing beyond the head is taken.  Above it they do when
the lower 32 bits are no version that leads to the head: `failsClosed_iff`.
-/

namespace SemanticMemory
namespace Operations
namespace SchemaSeams

open Migrate (Table Store)

/-! ## The step table -/

/-- The greatest `int`. -/
def intMax : ℤ := 2147483647

/-- Steps as they are registered: each starts from a version that is not negative and goes to the
next one, which is an `int`. -/
structure StepTable where
  table : Table
  registered : ∀ s ∈ table.steps, 0 ≤ s.1 ∧ s.1 + 1 ≤ intMax

namespace StepTable

def empty : StepTable := ⟨{}, fun _ hs => absurd hs List.not_mem_nil⟩

/-- `RegisterTestMigrationStep`; a step that starts from the same version is hidden by the new one.
-/
def registerTestMigrationStep (t : StepTable) (start target : ℤ) (changes : Bool)
    (htarget : target ≤ intMax) : StepTable :=
  if h : target = start + 1 ∧ 0 ≤ start then
    ⟨{ steps := (start, changes) :: t.table.steps }, by
      intro s hs
      rcases List.mem_cons.mp hs with rfl | hs
      · exact ⟨h.2, h.1 ▸ htarget⟩
      · exact t.registered s hs⟩
  else t

/-- A version that is the head or leads to it by steps of the table. -/
def Reaches (t : StepTable) (version : ℤ) : Prop :=
  0 ≤ version ∧ version ≤ t.table.head ∧
    ∀ w, version ≤ w → w < t.table.head → w ∈ t.table.steps.map Prod.fst

theorem foldl_max_le {vs : List ℤ} {a bound : ℤ} (ha : a ≤ bound) (h : ∀ v ∈ vs, v ≤ bound) :
    vs.foldl max a ≤ bound := by
  induction vs generalizing a with
  | nil => exact ha
  | cons v vs ih =>
    exact ih (max_le ha (h v List.mem_cons_self)) fun w hw => h w (List.mem_cons_of_mem _ hw)

theorem le_foldl_max {vs : List ℤ} {a : ℤ} : a ≤ vs.foldl max a := by
  induction vs generalizing a with
  | nil => exact le_rfl
  | cons v vs ih => exact (le_max_left a v).trans ih

theorem head_nonneg (t : StepTable) : 0 ≤ t.table.head :=
  (show (0 : ℤ) ≤ FactStore.kFactSchemaVersion by decide).trans le_foldl_max

/-- The head is an `int`. -/
theorem head_le (t : StepTable) : t.table.head ≤ intMax := by
  refine foldl_max_le (by decide) fun v hv => ?_
  obtain ⟨s, hs, rfl⟩ := List.mem_map.mp hv
  exact (t.registered s hs).2

end StepTable

/-! ## The four readers -/

/-- The two rows of the meta table. -/
structure Versions where
  factSchemaVersion : Int64
  eventFormatVersion : Int64

namespace Versions

/-- A row that a reader takes for unreadable. -/
def isUnreadable (m : Versions) : Bool :=
  m.factSchemaVersion.toInt < 0 || m.eventFormatVersion.toInt < 0

def formatIsTooNew (m : Versions) : Bool :=
  FactStore.kEventFormatVersion < m.eventFormatVersion.toInt

end Versions

/-- `static_cast<int>`. -/
def castInt (version : Int64) : ℤ := version.toInt32.toInt

inductive OpenMode where
  | recorder | maintenance
  deriving DecidableEq

/-- What `FactStore::Open` makes of the versions: three statuses, or it goes on. -/
inductive Opened where
  | clockInvalid | unsupportedVersion | needsMigration | proceeds
  deriving DecidableEq

/-- The classification of `FactStore::Open`. -/
def openStore (t : Table) (mode : OpenMode) (m : Versions) : Opened :=
  if m.isUnreadable then .clockInvalid
  else if m.formatIsTooNew then .unsupportedVersion
  else
    let disposition := t.dispositionFor (castInt m.factSchemaVersion)
    if disposition = .unsupported ∨ disposition = .missingStep then .unsupportedVersion
    else if disposition = .needsMigration ∧ mode = .recorder then .needsMigration
    else .proceeds

/-- `InspectSnapshotHandle`: the version in the stats of a valid file.  `sound` is what the other
checks say. -/
def inspectSnapshotHandle (t : Table) (mode : OpenMode) (sound : Bool) (m : Versions) : Option ℤ :=
  if m.isUnreadable then none
  else if m.formatIsTooNew then none
  else
    let disposition := t.dispositionFor (castInt m.factSchemaVersion)
    if disposition = .unsupported ∨ disposition = .missingStep then none
    else if disposition = .needsMigration ∧ mode = .recorder then none
    else if sound then some (castInt m.factSchemaVersion)
    else none

/-- What `PrepareRestoreFile` makes of the versions: three statuses, or it mints. -/
inductive Prepared where
  | dbError | unsupportedVersion | needsMigration | mints

/-- The classification of `PrepareRestoreFile`. -/
def prepareRestoreFile (t : Table) (m : Versions) : Prepared :=
  if m.isUnreadable then .dbError
  else if m.formatIsTooNew then .unsupportedVersion
  else
    let disposition := t.dispositionFor (castInt m.factSchemaVersion)
    if disposition = .needsMigration then .needsMigration
    else if disposition = .unsupported ∨ disposition = .missingStep then .unsupportedVersion
    else .mints

/-! ## Classes -/

inductive SchemaClass where
  | current | old | refused

def dispositionClass : Migrate.Disposition → SchemaClass
  | .current => .current
  | .needsMigration => .old
  | _ => .refused

/-- A recorder opens a current store, is told of an old one, and is refused any other. -/
def openClass (t : Table) (m : Versions) : SchemaClass :=
  match openStore t .recorder m with
  | .proceeds => .current
  | .needsMigration => .old
  | .unsupportedVersion | .clockInvalid => .refused

/-- A sound backup is current; a sound snapshot may be old. -/
def inspectClass (t : Table) (m : Versions) : SchemaClass :=
  if (inspectSnapshotHandle t .recorder true m).isSome then .current
  else if (inspectSnapshotHandle t .maintenance true m).isSome then .old
  else .refused

def prepareClass (t : Table) (m : Versions) : SchemaClass :=
  match prepareRestoreFile t m with
  | .mints => .current
  | .needsMigration => .old
  | .unsupportedVersion | .dbError => .refused

def migrateClass (t : Table) (fresh : Text) (s : Store) : SchemaClass :=
  match t.migrateFile fresh s with
  | .ok (_, .noMigration) => .current
  | .ok (_, .migrated) => .old
  | .error _ => .refused

/-- The event format is one that the program reads. -/
def Versions.Readable (m : Versions) : Prop :=
  0 ≤ m.eventFormatVersion.toInt ∧ m.formatIsTooNew = false

/-- The four readers say the same of a version. -/
def Alike (t : Table) (version : Int64) : Prop :=
  ∀ (m : Versions) (fresh : Text) (s : Store), m.factSchemaVersion = version → m.Readable →
    s.factSchemaVersion = version.toInt →
    openClass t m = migrateClass t fresh s ∧ inspectClass t m = migrateClass t fresh s ∧
      prepareClass t m = migrateClass t fresh s

/-- The version is not opened in any mode, not inspected as valid, not minted and not written. -/
def NeverTaken (t : Table) (version : Int64) : Prop :=
  (∀ m : Versions, m.factSchemaVersion = version →
    (∀ mode, openStore t mode m = .unsupportedVersion ∨ openStore t mode m = .clockInvalid) ∧
    (∀ mode sound, inspectSnapshotHandle t mode sound m = none) ∧
    (prepareRestoreFile t m = .unsupportedVersion ∨ prepareRestoreFile t m = .dbError)) ∧
  ∀ (fresh : Text) (s : Store), s.factSchemaVersion = version.toInt →
    ∃ error, t.migrateFile fresh s = .error error

/-- The readers fail closed on a version: they agree, and beyond the head none of them takes it. -/
def FailsClosed (t : StepTable) (version : Int64) : Prop :=
  Alike t.table version ∧ (t.table.head < version.toInt → NeverTaken t.table version)

/-! ## What the readers say -/

variable {t : Table} {m : Versions}

/-- The version as a reader takes it: unreadable below zero, and else what the table says. -/
def readClass (t : Table) (version cast : ℤ) : SchemaClass :=
  if version < 0 then .refused else dispositionClass (t.dispositionFor cast)

/-- `DispositionFor` has four values. -/
theorem dispositionFor_cases (t : Table) (version : ℤ) :
    t.dispositionFor version = .current ∨ t.dispositionFor version = .needsMigration ∨
      t.dispositionFor version = .unsupported ∨ t.dispositionFor version = .missingStep := by
  unfold Table.dispositionFor
  by_cases hhead : version = t.head
  · exact .inl (if_pos hhead)
  rw [if_neg hhead]
  by_cases hout : t.head < version ∨ version < 0
  · exact .inr (.inr (.inl (if_pos hout)))
  rw [if_neg hout]
  by_cases hcovers : t.covers version = true
  · exact .inr (.inl (if_pos hcovers))
  · exact .inr (.inr (.inr (if_neg hcovers)))

theorem isUnreadable_eq (h : m.Readable) :
    m.isUnreadable = decide (m.factSchemaVersion.toInt < 0) := by
  unfold Versions.isUnreadable
  rw [decide_eq_false (not_lt.mpr h.1), Bool.or_false]

theorem openClass_eq (h : m.Readable) :
    openClass t m = readClass t m.factSchemaVersion.toInt (castInt m.factSchemaVersion) := by
  unfold openClass openStore readClass
  rw [isUnreadable_eq h, h.2]
  by_cases hneg : m.factSchemaVersion.toInt < 0
  · simp [hneg]
  · rcases dispositionFor_cases t (castInt m.factSchemaVersion) with hd | hd | hd | hd <;>
      simp [hneg, hd, dispositionClass]

theorem inspectClass_eq (h : m.Readable) :
    inspectClass t m = readClass t m.factSchemaVersion.toInt (castInt m.factSchemaVersion) := by
  unfold inspectClass inspectSnapshotHandle readClass
  rw [isUnreadable_eq h, h.2]
  by_cases hneg : m.factSchemaVersion.toInt < 0
  · simp [hneg]
  · rcases dispositionFor_cases t (castInt m.factSchemaVersion) with hd | hd | hd | hd <;>
      simp [hneg, hd, dispositionClass]

theorem prepareClass_eq (h : m.Readable) :
    prepareClass t m = readClass t m.factSchemaVersion.toInt (castInt m.factSchemaVersion) := by
  unfold prepareClass prepareRestoreFile readClass
  rw [isUnreadable_eq h, h.2]
  by_cases hneg : m.factSchemaVersion.toInt < 0
  · simp [hneg]
  · rcases dispositionFor_cases t (castInt m.factSchemaVersion) with hd | hd | hd | hd <;>
      simp [hneg, hd, dispositionClass]

/-- `MigrateFile` asks about the version as it is. -/
theorem migrateClass_eq (fresh : Text) (s : Store) :
    migrateClass t fresh s = readClass t s.factSchemaVersion s.factSchemaVersion := by
  unfold migrateClass Table.migrateFile readClass Table.dispositionFor
  by_cases hneg : s.factSchemaVersion < 0
  · simp [hneg]
  by_cases hhead : s.factSchemaVersion = t.head
  · simp [hhead, hhead ▸ hneg, dispositionClass]
  by_cases hout : t.head < s.factSchemaVersion
  · simp [hneg, hhead, hout, dispositionClass]
  by_cases hcovers : t.covers s.factSchemaVersion = true
  · simp [hneg, hhead, hout, hcovers, dispositionClass]
  · simp [hneg, hhead, hout, hcovers, dispositionClass]

variable {version : Int64}

/-- **The four agree** when the cast changes nothing for the table. -/
theorem alike_iff :
    Alike t version ↔
      readClass t version.toInt (castInt version) = readClass t version.toInt version.toInt := by
  constructor
  · intro h
    have hreadable : Versions.Readable ⟨version, 0⟩ := ⟨le_rfl, rfl⟩
    have hopen := (h ⟨version, 0⟩ [] ⟨[], [], version.toInt, 0, []⟩ rfl hreadable rfl).1
    rw [openClass_eq hreadable, migrateClass_eq] at hopen
    exact hopen
  · rintro h m fresh s rfl hreadable hs
    rw [openClass_eq hreadable, inspectClass_eq hreadable, prepareClass_eq hreadable,
      migrateClass_eq, hs]
    exact ⟨h, h, h⟩

/-! ## The cast -/

/-- An `int` is cast to itself. -/
theorem castInt_eq (hneg : 0 ≤ version.toInt) (hmax : version.toInt ≤ intMax) :
    castInt version = version.toInt := by
  unfold castInt
  rw [Int64.toInt_toInt32]
  unfold intMax at hmax
  exact Int.bmod_eq_of_le (by omega) (by omega)

theorem mem_chain {version w : ℤ} : w ∈ t.chain version ↔ version ≤ w ∧ w < t.head := by
  unfold Table.chain
  constructor
  · intro h
    obtain ⟨z, hz, rfl⟩ := List.mem_map.mp h
    obtain ⟨n, hn, hnz⟩ := List.mem_flatMap.mp hz
    have hlt := List.mem_range.mp hn
    have heq : z = (n : ℤ) := List.mem_singleton.mp hnz
    omega
  · rintro ⟨hle, hlt⟩
    refine List.mem_map.mpr ⟨w - version, List.mem_flatMap.mpr ⟨(w - version).toNat, ?_, ?_⟩, ?_⟩
    · exact List.mem_range.mpr (by omega)
    · exact List.mem_singleton.mpr (by omega)
    · omega

theorem lookup_isSome_iff {steps : List (ℤ × Bool)} {w : ℤ} :
    (steps.lookup w).isSome = true ↔ w ∈ steps.map Prod.fst := by
  induction steps with
  | nil => exact ⟨(by intro h; cases h), (by intro h; cases h)⟩
  | cons s steps ih =>
    obtain ⟨from', changes⟩ := s
    rw [List.map_cons, List.mem_cons, List.lookup_cons]
    by_cases heq : w = from'
    · simp [heq]
    · rw [beq_eq_false_iff_ne.mpr heq]
      exact ih.trans ⟨.inr, fun h => h.resolve_left heq⟩

theorem covers_iff {version : ℤ} :
    t.covers version = true ↔
      ∀ w, version ≤ w → w < t.head → w ∈ t.steps.map Prod.fst := by
  unfold Table.covers
  rw [List.all_eq_true]
  constructor
  · intro h w hle hlt
    exact lookup_isSome_iff.mp (h w (mem_chain.mpr ⟨hle, hlt⟩))
  · intro h w hw
    obtain ⟨hle, hlt⟩ := mem_chain.mp hw
    exact lookup_isSome_iff.mpr (h w hle hlt)

/-- **What is not refused** is the head or leads to it. -/
theorem reaches_iff (t : StepTable) (version : ℤ) :
    t.Reaches version ↔ dispositionClass (t.table.dispositionFor version) ≠ .refused := by
  unfold Table.dispositionFor StepTable.Reaches
  rw [← covers_iff]
  by_cases hhead : version = t.table.head
  · have hcovers : t.table.covers version = true :=
      covers_iff.mpr fun w hle hlt => absurd (hhead ▸ hle) (not_le.mpr hlt)
    rw [if_pos hhead]
    constructor
    · intro _ h
      cases h
    · intro _
      exact ⟨hhead ▸ t.head_nonneg, hhead.le, hcovers⟩
  rw [if_neg hhead]
  by_cases hout : t.table.head < version ∨ version < 0
  · rw [if_pos hout]
    simp only [dispositionClass, ne_eq, not_true_eq_false, iff_false, not_and]
    intro h₀ h₁
    omega
  rw [if_neg hout]
  by_cases hcovers : t.table.covers version = true
  · rw [if_pos hcovers]
    simp only [dispositionClass, hcovers]
    constructor
    · intro _ h
      cases h
    · intro _
      exact ⟨by omega, by omega, trivial⟩
  · rw [if_neg hcovers]
    simp [dispositionClass, hcovers]

/-- Beyond the head `MigrateFile` refuses. -/
theorem readClass_of_head_lt {version : ℤ} (h : t.head < version) :
    readClass t version version = .refused := by
  unfold readClass
  by_cases hneg : version < 0
  · exact if_pos hneg
  rw [if_neg hneg]
  unfold Table.dispositionFor
  rw [if_neg h.ne', if_pos (.inl h)]
  rfl

theorem neverTaken_of_refused (hhead : t.head < version.toInt)
    (h : readClass t version.toInt (castInt version) = .refused) : NeverTaken t version := by
  have hcases : version.toInt < 0 ∨ t.dispositionFor (castInt version) = .unsupported ∨
      t.dispositionFor (castInt version) = .missingStep := by
    by_cases hneg : version.toInt < 0
    · exact .inl hneg
    · unfold readClass at h
      rw [if_neg hneg] at h
      rcases dispositionFor_cases t (castInt version) with hd | hd | hd | hd
      · rw [hd] at h
        cases h
      · rw [hd] at h
        cases h
      · exact .inr (.inl hd)
      · exact .inr (.inr hd)
  refine ⟨?_, ?_⟩
  · rintro m rfl
    by_cases hunreadable : m.isUnreadable = true
    · simp [openStore, inspectSnapshotHandle, prepareRestoreFile, hunreadable]
    by_cases hformat : m.formatIsTooNew = true
    · simp [openStore, inspectSnapshotHandle, prepareRestoreFile, hunreadable, hformat]
    have hneg : ¬ m.factSchemaVersion.toInt < 0 := fun hneg => hunreadable (by
      unfold Versions.isUnreadable
      rw [decide_eq_true hneg, Bool.true_or])
    rcases hcases with hcase | hd | hd
    · exact absurd hcase hneg
    · simp [openStore, inspectSnapshotHandle, prepareRestoreFile, hunreadable, hformat, hd]
    · simp [openStore, inspectSnapshotHandle, prepareRestoreFile, hunreadable, hformat, hd]
  · intro fresh s hs
    unfold Table.migrateFile
    rw [hs]
    by_cases hneg : version.toInt < 0
    · exact ⟨_, if_pos hneg⟩
    · rw [if_neg hneg, if_neg hhead.ne', if_pos hhead]
      exact ⟨_, rfl⟩

/-- **When the readers fail closed**: on every version that is an `int`, and beyond that on those
whose lower 32 bits are no version that leads to the head. -/
theorem failsClosed_iff (t : StepTable) (version : Int64) :
    FailsClosed t version ↔ version.toInt ≤ intMax ∨ ¬ t.Reaches (castInt version) := by
  have hlast := t.head_le
  constructor
  · rintro ⟨halike, -⟩
    by_cases hmax : version.toInt ≤ intMax
    · exact .inl hmax
    · refine .inr fun hreaches => (reaches_iff t _).mp hreaches ?_
      have hneg : ¬ version.toInt < 0 := by
        unfold intMax at hmax
        omega
      have h := alike_iff.mp halike
      rw [readClass_of_head_lt (by omega)] at h
      unfold readClass at h
      rw [if_neg hneg] at h
      exact h
  · intro h
    have hclass : readClass t.table version.toInt (castInt version) =
        readClass t.table version.toInt version.toInt := by
      by_cases hneg : version.toInt < 0
      · unfold readClass
        rw [if_pos hneg, if_pos hneg]
      by_cases hmax : version.toInt ≤ intMax
      · rw [castInt_eq (not_lt.mp hneg) hmax]
      · have hrefused := h.resolve_left hmax
        rw [reaches_iff, not_not] at hrefused
        rw [readClass_of_head_lt (by omega)]
        unfold readClass
        rw [if_neg hneg, hrefused]
    refine ⟨alike_iff.mpr hclass, fun hhead => neverTaken_of_refused hhead ?_⟩
    rw [hclass, readClass_of_head_lt hhead]

/-- The version 4294967297 is 1 as an `int`: a recorder opens the store that the migrator takes for
newer than the program. -/
theorem openStore_cast :
    openStore StepTable.empty.table .recorder ⟨4294967297, 1⟩ = .proceeds ∧
    (∀ fresh facts, StepTable.empty.table.migrateFile fresh ⟨[], [], 4294967297, 1, facts⟩ =
      .error (ascii "unsupported_version")) ∧
    ¬ FailsClosed StepTable.empty 4294967297 := by
  have hopen : openStore StepTable.empty.table .recorder ⟨4294967297, 1⟩ = .proceeds := by
    decide +kernel
  refine ⟨hopen, ?_, ?_⟩
  · intro fresh facts
    rfl
  · rintro ⟨-, htaken⟩
    rcases ((htaken (by decide +kernel)).1 ⟨4294967297, 1⟩ rfl).1 .recorder with h | h
    · rw [hopen] at h
      cases h
    · rw [hopen] at h
      cases h

end SchemaSeams
end Operations
end SemanticMemory
