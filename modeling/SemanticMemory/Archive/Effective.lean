import SemanticMemory.Archive.Record
import SemanticMemory.Lib.Runs

/-!
# Whether capture is effective

The collector judges twice whether capture is effective: for the status snapshot, and for the
versioned query surface.  Both read the policy, the flags of the state and the producers that have
polled; the snapshot also asks the management authority, which a restore moves to another
generation, and with which a producer of an earlier generation is fenced.

* `Collector` is what both judgements read, and `step` what changes it: polls of producers, changes
  of the policy, failures of the storage, and restores with their transition.
* `snapshot` and `queryState` are the two judgements at the time `now`.
* `Judged` is what is asked of them, and `judged_iff` says exactly when a state meets it.
-/

namespace SemanticMemory
namespace Archive
namespace Effective

/-- `self._policy["desired"]`. -/
inductive Desired where
  | off
  | enabled
  | paused
  deriving DecidableEq

/-- `collector_effective`. -/
inductive Effectiveness where
  | managementUnavailable
  | storageFailure
  | capacityStop
  | desired (policy : Desired)
  deriving DecidableEq

/-- A value of `self._producers`; the clock counts microseconds. -/
structure Observed where
  revision : Option ℕ
  seen : ℕ

structure Authority where
  generation : ℕ := 0
  /-- The generation of each source that is registered, under its key. -/
  sources : List (Str × ℕ) := []
  failed : Bool := false

/-- What is fixed: the digest of a source, the window of freshness, and how many sources there may
be. -/
structure Config where
  key : Token → Str
  freshnessWindowMs : ℕ := 2000
  maxSources : ℕ := 8192

/-- What the judgements read. -/
structure Collector where
  producers : List (Token × Observed) := []
  desired : Desired := .off
  revision : ℕ := 0
  authority : Authority := {}
  transition : Bool := false
  maintenanceUnavailable : Bool := false
  storageFailure : Bool := false
  capacityStop : Bool := false

/-- An entry of a dictionary is replaced, or comes to its end. -/
def assign {κ α : Type} [DecidableEq κ] (entries : List (κ × α)) (k : κ) (a : α) : List (κ × α) :=
  if entries.any fun e => e.1 = k then entries.map fun e => if e.1 = k then (k, a) else e
  else entries ++ [(k, a)]

variable (c : Config)

/-! ## The authority -/

/-- `self.value["sources"].get(self.key(source))`. -/
def Authority.find (a : Authority) (source : Token) : Option ℕ :=
  (a.sources.find? fun e => e.1 = c.key source).map Prod.snd

def Authority.allowed (a : Authority) (source : Token) : Bool :=
  !a.failed && a.find c source == some a.generation

/-- `register`; `written` says whether the authority can be written. -/
def Authority.register (a : Authority) (source : Token) (written : Bool) : Authority :=
  if a.failed then a
  else if (a.find c source).isSome then a
  else if c.maxSources ≤ a.sources.length then a
  else if written then { a with sources := a.sources ++ [(c.key source, a.generation)] }
  else { a with failed := true }

def Authority.switch (a : Authority) (written : Bool) : Authority :=
  if written then { a with generation := a.generation + 1 } else { a with failed := true }

/-! ## The collector -/

/-- Management is unavailable: `_transition or _maintenance_unavailable or authority.failed`. -/
def Collector.unavailable (s : Collector) : Bool :=
  s.transition || s.maintenanceUnavailable || s.authority.failed

/-- What happens to a collector. -/
inductive Action where
  /-- `policy_observe`; the gate of the content may be taken. -/
  | observe (source : Token) (declared : Option ℕ) (now : ℕ) (busy written : Bool)
  | setPolicy (desired : Desired) (expected : ℕ) (written : Bool)
  | storageFailed
  /-- A publication finds the capacity used up. -/
  | capacityReached
  /-- `_restore_switch` has the locks. -/
  | beginRestore
  /-- The authority is switched, and the flags of the restored state are loaded, or not. -/
  | switch (written : Bool) (loaded : Option (Bool × Bool))
  /-- `_restore_switch` has ended. -/
  | endRestore
  /-- Management has not come up, or a worker outlives a shutdown. -/
  | lose

def step (s : Collector) : Action → Collector
  | .observe source declared now busy written =>
    if s.maintenanceUnavailable || busy then s
    else { s with
      authority := s.authority.register c source written
      producers := assign s.producers source ⟨declared, now⟩ }
  | .setPolicy desired expected written =>
    if expected ≠ s.revision then s
    else if written then { s with desired := desired, revision := expected + 1 }
    else { s with storageFailure := true }
  | .storageFailed => { s with storageFailure := true }
  | .capacityReached => { s with capacityStop := true }
  | .beginRestore => { s with transition := true }
  | .switch written loaded =>
    if !s.transition then s
    else match written, loaded with
      | true, some flags => { s with
          authority := s.authority.switch true
          storageFailure := flags.1
          capacityStop := flags.2 }
      | written, _ => { s with
          authority := s.authority.switch written
          maintenanceUnavailable := true }
  | .endRestore => { s with transition := false }
  | .lose => { s with maintenanceUnavailable := true }

/-! ## The judgements -/

/-- What a judgement comes to. -/
structure View where
  collectorEffective : Effectiveness
  globallyEffective : Bool
  deriving DecidableEq

def Observed.isFresh (o : Observed) (now : ℕ) : Bool := (now - o.seen) / 1000 ≤ c.freshnessWindowMs

def Observed.declares (o : Observed) (s : Collector) : Bool := o.revision == some s.revision

/-- `matches` of the snapshot. -/
def matchesSnapshot (s : Collector) (p : Token × Observed) : Bool :=
  p.2.declares s && s.authority.allowed c p.1

/-- `matches` of the query surface. -/
def matchesQuery (s : Collector) (p : Token × Observed) : Bool := p.2.declares s

/-- `globally`: at least one producer is fresh and matches, and none is stale or does not. -/
def globally (accords : Token × Observed → Bool) (s : Collector) (now : ℕ)
    (effective : Effectiveness) : Bool :=
  s.desired == .enabled && effective == .desired .enabled &&
    decide (1 ≤ (s.producers.filter fun p => p.2.isFresh c now && accords p).length) &&
    decide ((s.producers.filter fun p => !p.2.isFresh c now || !accords p).length = 0)

def snapshot (s : Collector) (now : ℕ) : View :=
  let effective :=
    if s.unavailable then .managementUnavailable
    else if s.storageFailure then .storageFailure
    else if s.capacityStop then .capacityStop
    else .desired s.desired
  ⟨effective, globally c (matchesSnapshot c s) s now effective⟩

def queryState (s : Collector) (now : ℕ) : View :=
  let effective :=
    if s.storageFailure then .storageFailure
    else if s.capacityStop then .capacityStop
    else .desired s.desired
  ⟨effective, globally c (matchesQuery s) s now effective⟩

/-- The gates of `_accept_one` let an item of a source through. -/
def admits (s : Collector) (source : Token) (contentFree : Bool) : Bool :=
  !s.unavailable && s.authority.allowed c source && !s.storageFailure && !s.capacityStop &&
    (contentFree || s.desired == .enabled)

/-- **What a judgement must be sound for**: capture is effective only while every producer is fresh,
declares the revision and is not fenced, and only while some content would be admitted. -/
def Sound (s : Collector) (now : ℕ) (v : View) : Prop :=
  v.globallyEffective = true →
    (∀ p ∈ s.producers, p.2.isFresh c now = true ∧ p.2.declares s = true ∧
      s.authority.allowed c p.1 = true) ∧
    ∃ source, admits c s source false = true

/-- **What is asked of the two judgements**: they agree, and both are sound. -/
structure Judged (s : Collector) (now : ℕ) : Prop where
  agree : snapshot c s now = queryState c s now
  snapshot : Sound c s now (snapshot c s now)
  queryState : Sound c s now (queryState c s now)

/-- Nothing but a fence is in the way: the policy is enabled, the storage takes records, and every
producer that has polled is fresh and declares the revision. -/
def Collector.declared (s : Collector) (now : ℕ) : Prop :=
  s.desired = .enabled ∧ s.storageFailure = false ∧ s.capacityStop = false ∧
    ∀ p ∈ s.producers, p.2.isFresh c now = true ∧ p.2.declares s = true

/-- **When the judgements are right**: management is available, and none of the producers is fenced
while nothing else is in the way. -/
def Unfenced (s : Collector) (now : ℕ) : Prop :=
  s.unavailable = false ∧ (s.declared c now → ∀ p ∈ s.producers, s.authority.allowed c p.1 = true)

/-! ## When they are right -/

variable {c} {s : Collector} {now : ℕ}

/-- **What `globally` says.** -/
theorem globally_iff {accords : Token × Observed → Bool} {effective : Effectiveness} :
    globally c accords s now effective = true ↔
      s.desired = .enabled ∧ effective = .desired .enabled ∧ s.producers ≠ [] ∧
        ∀ p ∈ s.producers, p.2.isFresh c now = true ∧ accords p = true := by
  have hnone : (s.producers.filter fun p => !p.2.isFresh c now || !accords p).length = 0 ↔
      ∀ p ∈ s.producers, p.2.isFresh c now = true ∧ accords p = true := by
    rw [List.length_eq_zero_iff, List.filter_eq_nil_iff]
    refine forall₂_congr fun p _ => ?_
    cases p.2.isFresh c now <;> cases accords p <;> decide
  simp only [globally, Bool.and_eq_true, beq_iff_eq, decide_eq_true_eq, hnone, and_assoc]
  refine and_congr_right fun _ => and_congr_right fun _ => and_congr_left fun hall => ?_
  have hfilter : (s.producers.filter fun p => p.2.isFresh c now && accords p) = s.producers := by
    refine List.filter_eq_self.mpr fun p hp => ?_
    rw [(hall p hp).1, (hall p hp).2]
    rfl
  rw [hfilter, Nat.one_le_iff_ne_zero, ne_eq, List.length_eq_zero_iff]

/-- Without a transition or a failure of the management, both name the same state of capture. -/
theorem effective_eq (h : s.unavailable = false) :
    (snapshot c s now).collectorEffective = (queryState c s now).collectorEffective := by
  show (if s.unavailable = true then Effectiveness.managementUnavailable else _) = _
  rw [h, if_neg Bool.false_ne_true]
  rfl

theorem queryState_ne_unavailable :
    (queryState c s now).collectorEffective ≠ .managementUnavailable := by
  show (if s.storageFailure = true then Effectiveness.storageFailure
    else if s.capacityStop = true then .capacityStop else .desired s.desired) ≠ _
  split_ifs <;> exact nofun

/-- Capture is enabled as far as the query surface can see. -/
theorem queryState_enabled :
    (queryState c s now).collectorEffective = .desired .enabled ↔
      s.storageFailure = false ∧ s.capacityStop = false ∧ s.desired = .enabled := by
  show (if s.storageFailure = true then Effectiveness.storageFailure
    else if s.capacityStop = true then .capacityStop else .desired s.desired) = _ ↔ _
  cases s.storageFailure <;> cases s.capacityStop <;> simp

theorem queryState_globally :
    (queryState c s now).globallyEffective = true ↔ s.producers ≠ [] ∧ s.declared c now := by
  have hglobally : (queryState c s now).globallyEffective =
      globally c (matchesQuery s) s now (queryState c s now).collectorEffective := rfl
  rw [hglobally, globally_iff, queryState_enabled]
  constructor
  · rintro ⟨hdesired, ⟨hstorage, hcapacity, -⟩, hne, hall⟩
    exact ⟨hne, hdesired, hstorage, hcapacity, hall⟩
  · rintro ⟨hne, hdesired, hstorage, hcapacity, hall⟩
    exact ⟨hdesired, ⟨hstorage, hcapacity, hdesired⟩, hne, hall⟩

theorem snapshot_globally :
    (snapshot c s now).globallyEffective = true ↔
      s.unavailable = false ∧ s.producers ≠ [] ∧ s.declared c now ∧
        ∀ p ∈ s.producers, s.authority.allowed c p.1 = true := by
  have hglobally : (snapshot c s now).globallyEffective =
      globally c (matchesSnapshot c s) s now (snapshot c s now).collectorEffective := rfl
  rw [hglobally, globally_iff]
  by_cases hunavailable : s.unavailable = true
  · have heffective : (snapshot c s now).collectorEffective = .managementUnavailable :=
      if_pos hunavailable
    rw [heffective, hunavailable]
    constructor
    · rintro ⟨-, hno, -⟩
      cases hno
    · rintro ⟨hno, -⟩
      cases hno
  have havailable : s.unavailable = false := Bool.eq_false_iff.mpr hunavailable
  rw [effective_eq havailable, queryState_enabled]
  constructor
  · rintro ⟨hdesired, ⟨hstorage, hcapacity, -⟩, hne, hall⟩
    refine ⟨havailable, hne, ⟨hdesired, hstorage, hcapacity, fun p hp => ?_⟩, fun p hp => ?_⟩
    · have hmatches := (hall p hp).2
      rw [matchesSnapshot, Bool.and_eq_true] at hmatches
      exact ⟨(hall p hp).1, hmatches.1⟩
    · have hmatches := (hall p hp).2
      rw [matchesSnapshot, Bool.and_eq_true] at hmatches
      exact hmatches.2
  · rintro ⟨-, hne, ⟨hdesired, hstorage, hcapacity, hall⟩, hallowed⟩
    refine ⟨hdesired, ⟨hstorage, hcapacity, hdesired⟩, hne, fun p hp => ⟨(hall p hp).1, ?_⟩⟩
    rw [matchesSnapshot, Bool.and_eq_true]
    exact ⟨(hall p hp).2, hallowed p hp⟩

/-- **The snapshot is sound** in every state. -/
theorem snapshot_sound : Sound c s now (snapshot c s now) := by
  intro hglobally
  obtain ⟨havailable, hne, ⟨hdesired, hstorage, hcapacity, hall⟩, hallowed⟩ :=
    snapshot_globally.mp hglobally
  refine ⟨fun p hp => ⟨(hall p hp).1, (hall p hp).2, hallowed p hp⟩, ?_⟩
  obtain ⟨p, hp⟩ := List.exists_mem_of_ne_nil _ hne
  refine ⟨p.1, ?_⟩
  rw [admits, havailable, hallowed p hp, hstorage, hcapacity, hdesired]
  rfl

/-- **The judgements are right exactly when** management is available and no producer is fenced while
nothing else is in the way. -/
theorem judged_iff : Judged c s now ↔ Unfenced c s now := by
  constructor
  · intro h
    have havailable : s.unavailable = false := by
      by_contra hne
      have hunavailable : s.unavailable = true := Bool.eq_true_of_not_eq_false hne
      have heffective : (snapshot c s now).collectorEffective = .managementUnavailable :=
        if_pos hunavailable
      rw [h.agree] at heffective
      exact queryState_ne_unavailable heffective
    refine ⟨havailable, fun hdeclared p hp => ?_⟩
    have hne : s.producers ≠ [] := List.ne_nil_of_mem hp
    exact ((h.queryState (queryState_globally.mpr ⟨hne, hdeclared⟩)).1 p hp).2.2
  · rintro ⟨havailable, hallowed⟩
    have hglobally : (snapshot c s now).globallyEffective =
        (queryState c s now).globallyEffective := by
      rw [Bool.eq_iff_iff, snapshot_globally, queryState_globally]
      constructor
      · rintro ⟨-, hne, hdeclared, -⟩
        exact ⟨hne, hdeclared⟩
      · rintro ⟨hne, hdeclared⟩
        exact ⟨havailable, hne, hdeclared, hallowed hdeclared⟩
    have hagree : snapshot c s now = queryState c s now := by
      have heffective : (snapshot c s now).collectorEffective =
          (queryState c s now).collectorEffective := effective_eq havailable
      cases hs : snapshot c s now
      cases hq : queryState c s now
      rw [hs, hq] at hglobally heffective
      cases hglobally
      cases heffective
      rfl
    exact ⟨hagree, snapshot_sound, hagree ▸ snapshot_sound⟩

/-! ## Runs -/

/-- A collector that has just been started, with the policy, the authority and the state that it has
found. -/
def started (desired : Desired) (revision : ℕ) (authority : Authority)
    (storageFailure capacityStop : Bool) : Collector where
  desired := desired
  revision := revision
  authority := authority
  storageFailure := storageFailure
  capacityStop := capacityStop

/-- **Status and overview agree on effectiveness**, and are sound, in exactly those states of a run
in which management is available and no producer is fenced while nothing else is in the way. -/
theorem effectiveness_judged (c : Config) (desired : Desired) (revision : ℕ) (authority : Authority)
    (storageFailure capacityStop : Bool) (acts : List Action) (now : ℕ) :
    Judged c (Runs.run (step c) (started desired revision authority storageFailure capacityStop)
        acts) now ↔
      Unfenced c (Runs.run (step c)
        (started desired revision authority storageFailure capacityStop) acts) now :=
  judged_iff

/-- The source itself as its key. -/
def sampleConfig : Config where
  key := Subtype.val

theorem safeToken_sampleSource : safeToken (Json.units "source-1") = true := by decide

def sampleSource : Token := ⟨Json.units "source-1", safeToken_sampleSource⟩

/-- A producer polls an enabled collector, another archive is restored, and the producer polls
again. -/
def fencedActions : List Action :=
  [.observe sampleSource (some 0) 1000 false true, .beginRestore, .switch true (some (false, false)),
    .endRestore, .observe sampleSource (some 0) 2000 false true]

/-- **A fenced producer** makes the query surface globally effective: the snapshot says that it is
not, and nothing of the producer's is admitted. -/
theorem effectiveness_fenced :
    ¬ ∀ (c : Config) (desired : Desired) (revision : ℕ) (authority : Authority)
      (storageFailure capacityStop : Bool) (acts : List Action) (now : ℕ),
      Judged c (Runs.run (step c) (started desired revision authority storageFailure capacityStop)
        acts) now := by
  intro hall
  have hcase := (hall sampleConfig .enabled 0 {} false false fencedActions 3000).agree
  revert hcase
  decide +kernel

end Effective
end Archive
end SemanticMemory
