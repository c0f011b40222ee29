import SemanticMemory.Lib.Runs
import SemanticMemory.Operations.Clear

/-!
# What a clear leaves on the disk

`_step_cleanup`, `_derived_leftovers` and `_already_clear` of `daemon/clear_operation.py` over the
whole listing of the semantic root, together with everything that puts a copy of the facts there:
the staging directories of `backup`, `restore`, `migrate` and `clear`, the builder's directories,
the delta, the quarantine and the traces.  `Operations/Clear.lean` has the phases of a clear; here
is what the files hold.

* An entry of the root is its name, the files under it with the events whose text or row each holds,
  and how a removal of it goes.  A removal that is refused half way has unlinked what came before.
* Events have identifiers that are drawn once.  `cleared` has those of the stores that clears have
  replaced; a restore that brings events back takes them out.
* A copy is of what the live store or another file holds when it is written.  `restore` alone brings
  events from outside.
* The records under `operations` are left out, as are the run locks: they hold no event.  That their
  removal may fail is part of the cleanup's environment.
* Vectors and row numbers of the sidecar index are not text, and are left out.
-/

namespace SemanticMemory
namespace Operations
namespace Sweep

open Runs
open Clear (Identity Gap Report)

/-! ## The root -/

abbrev EventId := ℕ

/-- How `_remove_entry` ends early. -/
inductive Refusal where
  | cleanupUnavailable | cleanupOwnerRefused | cleanupNotRegular | cleanupRefused
  /-- An exception that is not an `OperationFailed`. -/
  | raises
  deriving DecidableEq

/-- A file under an entry: the rest of its path, and the events it holds something of. -/
structure File where
  path : List Text
  events : List EventId
  deriving DecidableEq

structure Entry where
  name : Text
  files : List File
  /-- A removal is refused after so many files. -/
  stop : Option (ℕ × Refusal) := none
  deriving DecidableEq

structure Store where
  identity : Identity
  events : List EventId

structure Root where
  live : Option Store := none
  entries : List Entry := []
  gap : Gap := .none
  /-- The identifiers drawn so far. -/
  drawn : List EventId := []
  cleared : List EventId := []

/-- The store as `Operations/Clear.lean` has it. -/
def Store.summary (s : Store) : Clear.Store := ⟨s.identity, s.events.isEmpty⟩

/-! ## The names -/

def clearDirname : Text := ascii ".clear"
def backupDirname : Text := ascii ".backup"
def restoreDirname : Text := ascii ".restore"
def migrateDirname : Text := ascii ".migrate"
def factsDb : Text := ascii "facts.sqlite3"
def operationsDirname : Text := ascii "operations"

/-- `_default_derived_root`, from the semantic root. -/
def derivedDirname : Text := ascii "derived"

def derivedDirNames : List Text :=
  [ascii "generations", ascii "staging", ascii "quarantine", ascii "isolated", ascii "traces",
    clearDirname]

def derivedFileNames : List Text :=
  [ascii "active_manifest.json", ascii "rollback_manifest.json", ascii "derived_manifest.json"]

def derivedFilePrefixes : List Text := [ascii "delta", ascii ".snapshot"]

def gapFiles : List Text := [ascii "recording_gap.json", ascii "recording_gap.lock"]
def gapIntentPrefix : Text := ascii ".recording_gap_intent."
def processMarkerPrefix : Text := ascii ".recording_process."

/-- `name.startswith(DERIVED_FILE_PREFIXES)`. -/
def startsDerived (name : Text) : Bool := derivedFilePrefixes.any fun p => p.isPrefixOf name

/-- The second loop of the cleanup takes the name. -/
def isDerivedFile (name : Text) : Bool := name ∈ derivedFileNames || startsDerived name

/-- `_derived_leftovers` passes over the name. -/
def passedOver (name : Text) : Bool :=
  name = factsDb || (factsDb ++ ascii "-").isPrefixOf name || name = ascii "maintenance.lock" ||
    name = operationsDirname || processMarkerPrefix.isPrefixOf name ||
    ((ascii ".operation-").isPrefixOf name && (ascii ".run").isSuffixOf name)

/-- The allow-list of `_derived_leftovers`. -/
def isLeftover (name : Text) : Bool :=
  !passedOver name &&
    (name ∈ derivedDirNames || name ∈ derivedFileNames || startsDerived name ||
      gapIntentPrefix.isPrefixOf name || name ∈ gapFiles)

/-! ## The gate -/

def derivedLeftovers (d : Root) : List Text :=
  let leftovers := (d.entries.map Entry.name).filter isLeftover
  if d.gap ≠ .none ∧ ascii "recording_gap.json" ∉ leftovers then
    leftovers ++ [ascii "recording_gap.json"]
  else leftovers

/-- `_already_clear`, from the live store. -/
def alreadyClear (d : Root) : Bool :=
  match d.live with
  | none => derivedLeftovers d = []
  | some store => store.events.isEmpty && derivedLeftovers d = []

/-! ## The cleanup -/

/-- `_remove_entry`: the files that came before a refusal are gone. -/
def removeEntry (name : Text) (d : Root) : Except (Root × Refusal) Root :=
  match (d.entries.find? fun e => e.name = name).bind Entry.stop with
  | none => .ok { d with entries := d.entries.filter fun e => e.name ≠ name }
  | some (count, refusal) =>
    .error ({ d with
      entries := d.entries.map fun e =>
        if e.name = name then { e with files := e.files.drop count } else e }, refusal)

def removeEntries : List Text → Root → Except (Root × Refusal) Root
  | [], d => .ok d
  | name :: names, d =>
    match removeEntry name d with
    | .error e => .error e
    | .ok d' => removeEntries names d'

/-- What a cleanup meets. -/
structure Env where
  recorderLive : Bool := false
  /-- How `_clean_operations` is refused. -/
  operations : Option Refusal := none
  /-- How `live_identity` fails. -/
  verify : Option Refusal := none
  servingReady : Option Bool := none

/-- The part of the cleanup for the recording gap. -/
def removeGap (env : Env) (expected : Text) (d : Root) : Except (Root × Refusal) Root :=
  if d.gap.belongsTo expected ∧ env.recorderLive = false then
    match removeEntries gapFiles { d with gap := .none } with
    | .error e => .error e
    | .ok d' => removeEntries ((d'.entries.map Entry.name).filter gapIntentPrefix.isPrefixOf) d'
  else .ok d

/-- The removals of `_step_cleanup`. -/
def sweep (env : Env) (expected : Text) (d : Root) : Except (Root × Refusal) Root :=
  match removeEntries derivedDirNames d with
  | .error e => .error e
  | .ok d₁ =>
    match removeEntries ((d₁.entries.map Entry.name).filter isDerivedFile) d₁ with
    | .error e => .error e
    | .ok d₂ => removeGap env expected d₂

/-- `_step_cleanup`: the root it leaves, and the report unless it is refused. -/
def stepCleanup (env : Env) (expected : Text) (d : Root) : Root × Except Refusal Report :=
  match sweep env expected d with
  | .error (d', refusal) => (d', .error refusal)
  | .ok d' =>
    match env.operations <|> env.verify with
    | some refusal => (d', .error refusal)
    | none => (d', .ok (Clear.report expected (d'.live.map Store.summary) env.servingReady))

/-! ## Runs -/

/-- What writes copies of the facts, with the name that holds them. -/
inductive Place where
  | backup | restore | migrate | clear
  | derived
  /-- With the semantic root as the derived root. -/
  | generations | staging | isolated | delta
  | quarantine | traces
  | snapshot

/-- The entry of the root. -/
def Place.name : Place → Text
  | .backup => backupDirname
  | .restore => restoreDirname
  | .migrate => migrateDirname
  | .clear => clearDirname
  | .derived => derivedDirname
  | .generations => ascii "generations"
  | .staging => ascii "staging"
  | .isolated => ascii "isolated"
  | .delta => ascii "delta"
  | .quarantine => ascii "quarantine"
  | .traces => ascii "traces"
  | .snapshot => ascii ".snapshot"

def Root.Holds (d : Root) (event : EventId) : Prop :=
  (∃ store ∈ d.live, event ∈ store.events) ∨ ∃ e ∈ d.entries, ∃ f ∈ e.files, event ∈ f.events

instance (d : Root) (event : EventId) : Decidable (d.Holds event) := by
  unfold Root.Holds
  infer_instance

/-- A file is written, in an entry that is there or is made. -/
def Root.write (d : Root) (name : Text) (f : File) : Root :=
  if d.entries.any fun e => e.name = name then
    { d with
      entries := d.entries.map fun e =>
        if e.name = name then { e with files := f :: e.files } else e }
  else { d with entries := ⟨name, [f], none⟩ :: d.entries }

/-- A recorder appends an event, to a store that it makes if there is none. -/
def Root.record (d : Root) (event : EventId) (identity : Identity) : Root :=
  if event ∈ d.drawn then d
  else
    { d with
      live := some (match d.live with
        | none => ⟨identity, [event]⟩
        | some store => { store with events := store.events ++ [event] })
      drawn := event :: d.drawn }

/-- An entry without facts appears. -/
def Root.mark (d : Root) (name : Text) : Root :=
  if d.entries.any fun e => e.name = name then d
  else { d with entries := ⟨name, [], none⟩ :: d.entries }

/-- The steps of the recorders, of the builders and of the operations, as the root sees them. -/
inductive Step where
  | record (event : EventId) (identity : Identity)
  /-- A copy of what is there: a snapshot, a migrated database, a generation, a trace. -/
  | copy (place : Place) (path : List Text) (events : List EventId)
  /-- The staging step of a restore extracts a backup. -/
  | extract (path : List Text) (events : List EventId)
  /-- A file is removed or moved away: a staging step that is undone, a finished or cancelled
  operation, a generation that is retired. -/
  | remove (name : Text) (path : List Text)
  /-- An entry is removed whole: the cleanup of a restore, the last backup. -/
  | drop (name : Text)
  /-- An entry without facts appears: a manifest, a lock, a marker, an intent. -/
  | mark (name : Text)
  | setGap (gap : Gap)
  /-- Owners and kinds of files change. -/
  | obstruct (name : Text) (stop : Option (ℕ × Refusal))
  | restored (identity : Identity) (events : List EventId)
  | migrated (identity : Identity)
  | published (identity : Identity)
  /-- A clear cleans up. -/
  | cleanup (env : Env) (expected : Text)

def step (d : Root) : Step → Root
  | .record event identity => d.record event identity
  | .copy place path events => d.write place.name ⟨path, events.filter fun event => d.Holds event⟩
  | .extract path events =>
    { d.write restoreDirname ⟨path, events⟩ with drawn := events ++ d.drawn }
  | .remove name path =>
    { d with
      entries := d.entries.map fun e =>
        if e.name = name then { e with files := e.files.filter fun f => f.path ≠ path } else e }
  | .drop name => { d with entries := d.entries.filter fun e => e.name ≠ name }
  | .mark name => d.mark name
  | .setGap gap => { d with gap := gap }
  | .obstruct name stop =>
    { d with
      entries := d.entries.map fun e => if e.name = name then { e with stop := stop } else e }
  | .restored identity events =>
    { d with
      live := some ⟨identity, events⟩
      drawn := events ++ d.drawn
      cleared := d.cleared.filter fun event => event ∉ events }
  | .migrated identity =>
    { d with live := d.live.map fun store => { store with identity := identity } }
  | .published identity =>
    { d with
      live := some ⟨identity, []⟩
      cleared := (d.live.elim [] Store.events) ++ d.cleared }
  | .cleanup env expected => (stepCleanup env expected d).1

def reached (steps : List Step) : Root := run step {} steps

/-- No file under the root, operation records apart, holds anything of a store that was cleared. -/
def Clean (d : Root) : Prop :=
  (∀ e ∈ d.entries, e.name ≠ operationsDirname → ∀ f ∈ e.files, ∀ event ∈ f.events,
    event ∉ d.cleared) ∧
    ∀ store ∈ d.live, ∀ event ∈ store.events, event ∉ d.cleared

/-- The places that are not on the list of the clear. -/
def unlisted : List Text := [backupDirname, restoreDirname, migrateDirname, derivedDirname]

/-- A staging directory of a backup, a restore or a migration, or the default derived root, holds
something of a store that was cleared. -/
def Exposed (d : Root) : Prop :=
  ∃ e ∈ d.entries, e.name ∈ unlisted ∧ ∃ f ∈ e.files, ∃ event ∈ f.events, event ∈ d.cleared

section Invariant

variable {d d' d'' : Root}

/-! ### What removals do -/

/-- The second root has no more than the first. -/
structure Thins (d d' : Root) : Prop where
  live : d'.live = d.live
  drawn : d'.drawn = d.drawn
  cleared : d'.cleared = d.cleared
  entries : ∀ e' ∈ d'.entries, ∃ e ∈ d.entries, e.name = e'.name ∧ e'.files ⊆ e.files

theorem Thins.refl (d : Root) : Thins d d := ⟨rfl, rfl, rfl, fun e he => ⟨e, he, rfl, fun _ => id⟩⟩

theorem Thins.trans (h : Thins d d') (h' : Thins d' d'') : Thins d d'' where
  live := h'.live.trans h.live
  drawn := h'.drawn.trans h.drawn
  cleared := h'.cleared.trans h.cleared
  entries e'' he'' := by
    obtain ⟨e', he', hname', hfiles'⟩ := h'.entries e'' he''
    obtain ⟨e, he, hname, hfiles⟩ := h.entries e' he'
    exact ⟨e, he, hname.trans hname', fun f hf => hfiles (hfiles' hf)⟩

theorem thins_filter (d : Root) (p : Entry → Bool) :
    Thins d { d with entries := d.entries.filter p } :=
  ⟨rfl, rfl, rfl, fun e he => ⟨e, List.mem_of_mem_filter he, rfl, fun _ => id⟩⟩

theorem thins_map (d : Root) {g : Entry → Entry}
    (hg : ∀ e, (g e).name = e.name ∧ (g e).files ⊆ e.files) :
    Thins d { d with entries := d.entries.map g } := by
  refine ⟨rfl, rfl, rfl, fun e' he' => ?_⟩
  obtain ⟨e, he, rfl⟩ := List.mem_map.mp he'
  exact ⟨e, he, (hg e).1.symm, (hg e).2⟩

theorem removeEntry_ok {name : Text} (h : removeEntry name d = .ok d') :
    d' = { d with entries := d.entries.filter fun e => e.name ∉ [name] } := by
  unfold removeEntry at h
  split at h
  · obtain rfl := Except.ok.inj h
    congr 1
    exact List.filter_congr fun e _ => by simp
  · cases h

variable {refusal : Refusal}

theorem removeEntry_error {name : Text} (h : removeEntry name d = .error (d', refusal)) :
    Thins d d' := by
  unfold removeEntry at h
  split at h
  · cases h
  · rename_i count stopped _
    obtain ⟨rfl, -⟩ := Prod.mk.inj (Except.error.inj h)
    refine thins_map d fun e => ?_
    by_cases hname : e.name = name
    · rw [if_pos hname]
      exact ⟨rfl, List.drop_subset count e.files⟩
    · rw [if_neg hname]
      exact ⟨rfl, fun _ => id⟩

variable {names : List Text}

/-- **A loop that ends** has removed the entries of its names, and no other. -/
theorem removeEntries_ok (h : removeEntries names d = .ok d') :
    d' = { d with entries := d.entries.filter fun e => e.name ∉ names } := by
  induction names generalizing d with
  | nil =>
    obtain rfl := Except.ok.inj h
    simp
  | cons name names ih =>
    rw [removeEntries] at h
    cases hremove : removeEntry name d with
    | error e =>
      rw [hremove] at h
      cases h
    | ok d₁ =>
      rw [hremove] at h
      obtain rfl := ih h
      obtain rfl := removeEntry_ok hremove
      dsimp only
      rw [List.filter_filter]
      congr 1
      exact List.filter_congr fun e _ => by
        by_cases hname : e.name = name <;> simp [hname]

theorem removeEntries_error (h : removeEntries names d = .error (d', refusal)) : Thins d d' := by
  induction names generalizing d with
  | nil => cases h
  | cons name names ih =>
    rw [removeEntries] at h
    cases hremove : removeEntry name d with
    | error e =>
      rw [hremove] at h
      obtain rfl := Except.error.inj h
      exact removeEntry_error hremove
    | ok d₁ =>
      rw [hremove] at h
      obtain rfl := removeEntry_ok hremove
      exact (thins_filter d _).trans (ih h)

/-- The names that a cleanup always takes. -/
def swept (name : Text) : Bool := name ∈ derivedDirNames || isDerivedFile name

/-- What a removal of names leaves, where none of them is unlisted. -/
structure Sweeps (d d' : Root) (names : List Text) : Prop where
  live : d'.live = d.live
  cleared : d'.cleared = d.cleared
  drawn : d'.drawn = d.drawn
  entries : d'.entries = d.entries.filter fun e => e.name ∉ names
  listed : ∀ name ∈ names, name ∉ unlisted

theorem Sweeps.trans {names names' : List Text} (h : Sweeps d d' names)
    (h' : Sweeps d' d'' names') : Sweeps d d'' (names ++ names') where
  live := h'.live.trans h.live
  cleared := h'.cleared.trans h.cleared
  drawn := h'.drawn.trans h.drawn
  entries := by
    rw [h'.entries, h.entries, List.filter_filter]
    exact List.filter_congr fun e _ => by
      rw [Bool.and_comm]
      simp only [List.mem_append, not_or, Bool.decide_and]
  listed name hname := (List.mem_append.mp hname).elim (h.listed name) (h'.listed name)

theorem Sweeps.thins (h : Sweeps d d' names) : Thins d d' :=
  ⟨h.live, h.drawn, h.cleared, fun e he =>
    ⟨e, List.mem_of_mem_filter (h.entries ▸ he), rfl, fun _ => id⟩⟩

theorem sweeps_removeEntries (h : removeEntries names d = .ok d')
    (hlisted : ∀ name ∈ names, name ∉ unlisted) : Sweeps d d' names := by
  obtain rfl := removeEntries_ok h
  exact ⟨rfl, rfl, rfl, rfl, hlisted⟩

/-- Removals of names that a test picks, where the test takes no unlisted name. -/
theorem sweeps_picked {p : Text → Bool} (hp : ∀ name ∈ unlisted, p name = false)
    (h : removeEntries ((d.entries.map Entry.name).filter p) d = .ok d') :
    Sweeps d d' ((d.entries.map Entry.name).filter p) := by
  refine sweeps_removeEntries h fun name hname hun => ?_
  exact absurd (List.mem_filter.mp hname).2 (by rw [hp name hun]; decide)

variable {expected : Text} {env : Env}

theorem removeGap_ok (h : removeGap env expected d = .ok d') : ∃ names, Sweeps d d' names := by
  unfold removeGap at h
  by_cases hgap : d.gap.belongsTo expected ∧ env.recorderLive = false
  · rw [if_pos hgap] at h
    cases hfiles : removeEntries gapFiles { d with gap := .none } with
    | error e =>
      rw [hfiles] at h
      cases h
    | ok d₁ =>
      rw [hfiles] at h
      have hstart : Sweeps { d with gap := .none } d₁ gapFiles :=
        sweeps_removeEntries hfiles (by decide)
      have hrest := hstart.trans (sweeps_picked (by decide) h)
      exact ⟨_, hrest.live, hrest.cleared, hrest.drawn, hrest.entries, hrest.listed⟩
  · rw [if_neg hgap] at h
    obtain rfl := Except.ok.inj h
    exact ⟨[], rfl, rfl, rfl, by simp, by simp⟩

theorem removeGap_error (h : removeGap env expected d = .error (d', refusal)) : Thins d d' := by
  unfold removeGap at h
  by_cases hgap : d.gap.belongsTo expected ∧ env.recorderLive = false
  · rw [if_pos hgap] at h
    have hopen : Thins d { d with gap := .none } := ⟨rfl, rfl, rfl, (Thins.refl d).entries⟩
    cases hfiles : removeEntries gapFiles { d with gap := .none } with
    | error e =>
      rw [hfiles] at h
      obtain rfl := Except.error.inj h
      exact hopen.trans (removeEntries_error hfiles)
    | ok d₁ =>
      rw [hfiles] at h
      exact hopen.trans ((sweeps_removeEntries hfiles (by decide)).thins.trans
        (removeEntries_error h))
  · rw [if_neg hgap] at h
    cases h

/-- **A sweep that ends** has removed every entry on the lists, and no unlisted one. -/
theorem sweep_ok (h : sweep env expected d = .ok d') :
    ∃ names, Sweeps d d' names ∧ ∀ e ∈ d.entries, swept e.name = true → e.name ∈ names := by
  unfold sweep at h
  cases hdirs : removeEntries derivedDirNames d with
  | error e =>
    rw [hdirs] at h
    cases h
  | ok d₁ =>
    rw [hdirs] at h
    dsimp only at h
    have hfirst : Sweeps d d₁ derivedDirNames := sweeps_removeEntries hdirs (by decide)
    cases hfiles : removeEntries ((d₁.entries.map Entry.name).filter isDerivedFile) d₁ with
    | error e =>
      rw [hfiles] at h
      cases h
    | ok d₂ =>
      rw [hfiles] at h
      have hsecond := sweeps_picked (by decide) hfiles
      obtain ⟨names, hlast⟩ := removeGap_ok h
      refine ⟨_, (hfirst.trans hsecond).trans hlast, fun e he hswept => ?_⟩
      refine List.mem_append_left _ ?_
      by_cases hdir : e.name ∈ derivedDirNames
      · exact List.mem_append_left _ hdir
      · refine List.mem_append_right _ (List.mem_filter.mpr ⟨?_, ?_⟩)
        · refine List.mem_map_of_mem ?_
          rw [hfirst.entries]
          exact List.mem_filter.mpr ⟨he, by simpa using hdir⟩
        · simpa [swept, hdir] using hswept

theorem sweep_error (h : sweep env expected d = .error (d', refusal)) : Thins d d' := by
  unfold sweep at h
  cases hdirs : removeEntries derivedDirNames d with
  | error e =>
    rw [hdirs] at h
    obtain rfl := Except.error.inj h
    exact removeEntries_error hdirs
  | ok d₁ =>
    rw [hdirs] at h
    dsimp only at h
    have hfirst : Thins d d₁ := (sweeps_removeEntries hdirs (by decide)).thins
    cases hfiles : removeEntries ((d₁.entries.map Entry.name).filter isDerivedFile) d₁ with
    | error e =>
      rw [hfiles] at h
      obtain rfl := Except.error.inj h
      exact hfirst.trans (removeEntries_error hfiles)
    | ok d₂ =>
      rw [hfiles] at h
      exact hfirst.trans ((sweeps_picked (by decide) hfiles).thins.trans (removeGap_error h))

theorem thins_stepCleanup (env : Env) (expected : Text) (d : Root) :
    Thins d (stepCleanup env expected d).1 := by
  unfold stepCleanup
  cases hsweep : sweep env expected d with
  | error e => exact sweep_error hsweep
  | ok d' =>
    obtain ⟨names, hsweeps, -⟩ := sweep_ok hsweep
    dsimp only
    cases env.operations <|> env.verify with
    | none => exact hsweeps.thins
    | some refusal => exact hsweeps.thins

/-- A report comes after a sweep that ended. -/
theorem stepCleanup_ok {report : Report} (h : (stepCleanup env expected d).2 = .ok report) :
    sweep env expected d = .ok (stepCleanup env expected d).1 ∧ report.cleanupComplete = true := by
  unfold stepCleanup at h ⊢
  cases hsweep : sweep env expected d with
  | error e =>
    rw [hsweep] at h
    cases h
  | ok d' =>
    rw [hsweep] at h
    dsimp only at h ⊢
    cases hmet : env.operations <|> env.verify with
    | none =>
      rw [hmet] at h
      obtain rfl := Except.ok.inj h
      refine ⟨rfl, ?_⟩
      unfold Clear.report
      cases d'.live.map Store.summary with
      | none => rfl
      | some store =>
        dsimp only
        split_ifs <;> rfl
    | some refusal =>
      rw [hmet] at h
      cases h

/-! ### The invariant of the root -/

/-- Only the places of `Place` hold anything of an event, what is drawn is not drawn again, and the
live store holds nothing that was cleared. -/
structure Placed (d : Root) : Prop where
  places : ∀ e ∈ d.entries, ∀ f ∈ e.files, f.events ≠ [] → ∃ place : Place, e.name = place.name
  drawn : ∀ store ∈ d.live, ∀ event ∈ store.events, event ∈ d.drawn
  gone : ∀ event ∈ d.cleared, event ∈ d.drawn
  fresh : ∀ store ∈ d.live, ∀ event ∈ store.events, event ∉ d.cleared

theorem Placed.thins (h : Placed d) (ht : Thins d d') : Placed d' where
  places e' he' f hf hevents := by
    obtain ⟨e, he, hname, hfiles⟩ := ht.entries e' he'
    rw [← hname]
    exact h.places e he f (hfiles hf) hevents
  drawn := by
    rw [ht.live, ht.drawn]
    exact h.drawn
  gone := by
    rw [ht.cleared, ht.drawn]
    exact h.gone
  fresh := by
    rw [ht.live, ht.cleared]
    exact h.fresh

theorem write_places (h : Placed d) (place : Place) (f : File) :
    ∀ e ∈ (d.write place.name f).entries, ∀ g ∈ e.files, g.events ≠ [] →
      ∃ place : Place, e.name = place.name := by
  intro e he g hg hevents
  unfold Root.write at he
  split_ifs at he
  · obtain ⟨e₀, he₀, rfl⟩ := List.mem_map.mp he
    by_cases hname : e₀.name = place.name
    · rw [if_pos hname]
      exact ⟨place, hname⟩
    · rw [if_neg hname] at hg ⊢
      exact h.places e₀ he₀ g hg hevents
  · rcases List.mem_cons.mp he with rfl | he
    · exact ⟨place, rfl⟩
    · exact h.places e he g hg hevents

theorem write_rest (d : Root) (name : Text) (f : File) :
    (d.write name f).live = d.live ∧ (d.write name f).drawn = d.drawn ∧
      (d.write name f).cleared = d.cleared := by
  unfold Root.write
  split_ifs
  · exact ⟨rfl, rfl, rfl⟩
  · exact ⟨rfl, rfl, rfl⟩

theorem Placed.record (h : Placed d) (event : EventId) (identity : Identity) :
    Placed (d.record event identity) := by
  unfold Root.record
  by_cases hdrawn : event ∈ d.drawn
  · rw [if_pos hdrawn]
    exact h
  · rw [if_neg hdrawn]
    have hnew : event ∉ d.cleared := fun hno => hdrawn (h.gone event hno)
    refine ⟨h.places, ?_, fun x hx => List.mem_cons_of_mem _ (h.gone x hx), ?_⟩
    · rintro store ⟨rfl⟩ x hx
      cases hlive : d.live with
      | none =>
        rw [hlive] at hx
        exact List.mem_cons.mpr (Or.inl (List.mem_singleton.mp hx))
      | some old =>
        rw [hlive] at hx
        rcases List.mem_append.mp hx with hx | hx
        · exact List.mem_cons_of_mem _ (h.drawn old hlive x hx)
        · exact List.mem_cons.mpr (Or.inl (List.mem_singleton.mp hx))
    · rintro store ⟨rfl⟩ x hx
      cases hlive : d.live with
      | none =>
        rw [hlive] at hx
        rwa [List.mem_singleton.mp hx]
      | some old =>
        rw [hlive] at hx
        rcases List.mem_append.mp hx with hx | hx
        · exact h.fresh old hlive x hx
        · rwa [List.mem_singleton.mp hx]

theorem Placed.mark (h : Placed d) (name : Text) : Placed (d.mark name) := by
  unfold Root.mark
  split_ifs
  · exact h
  · refine ⟨fun e he f hf hevents => ?_, h.drawn, h.gone, h.fresh⟩
    rcases List.mem_cons.mp he with rfl | he
    · cases hf
    · exact h.places e he f hf hevents

/-- **One step.** -/
theorem Placed.step (h : Placed d) (a : Step) : Placed (Sweep.step d a) := by
  cases a with
  | record event identity => exact h.record event identity
  | copy place path events =>
    obtain ⟨hlive, hdrawn, hcleared⟩ := write_rest d place.name
      ⟨path, events.filter fun event => d.Holds event⟩
    refine ⟨write_places h place _, ?_, ?_, ?_⟩
    · exact fun store hstore x hx => hdrawn ▸ h.drawn store (hlive ▸ hstore) x hx
    · exact fun x hx => hdrawn ▸ h.gone x (hcleared ▸ hx)
    · exact fun store hstore x hx hno => h.fresh store (hlive ▸ hstore) x hx (hcleared ▸ hno)
  | extract path events =>
    obtain ⟨hlive, -, hcleared⟩ := write_rest d restoreDirname ⟨path, events⟩
    refine ⟨write_places h .restore _, ?_, ?_, ?_⟩
    · exact fun store hstore x hx =>
        List.mem_append_right _ (h.drawn store (hlive ▸ hstore) x hx)
    · exact fun x hx => List.mem_append_right _ (h.gone x (hcleared ▸ hx))
    · exact fun store hstore x hx hno => h.fresh store (hlive ▸ hstore) x hx (hcleared ▸ hno)
  | remove name path =>
    refine h.thins (thins_map d fun e => ?_)
    by_cases hname : e.name = name
    · rw [if_pos hname]
      exact ⟨rfl, fun f hf => List.mem_of_mem_filter hf⟩
    · rw [if_neg hname]
      exact ⟨rfl, fun _ => id⟩
  | drop name => exact h.thins (thins_filter d _)
  | mark name => exact h.mark name
  | setGap gap => exact ⟨h.places, h.drawn, h.gone, h.fresh⟩
  | obstruct name stop =>
    refine h.thins (thins_map d fun e => ?_)
    by_cases hname : e.name = name
    · rw [if_pos hname]
      exact ⟨rfl, fun _ => id⟩
    · rw [if_neg hname]
      exact ⟨rfl, fun _ => id⟩
  | restored identity events =>
    refine ⟨h.places, ?_, fun x hx => ?_, ?_⟩
    · rintro store ⟨rfl⟩ x hx
      exact List.mem_append_left _ hx
    · exact List.mem_append_right _ (h.gone x (List.mem_of_mem_filter hx))
    · rintro store ⟨rfl⟩ x hx hno
      exact absurd hx (of_decide_eq_true (List.mem_filter.mp hno).2)
  | migrated identity =>
    refine ⟨h.places, ?_, h.gone, ?_⟩
    · intro store hstore x hx
      obtain ⟨old, hold, rfl⟩ := Option.map_eq_some_iff.mp hstore
      exact h.drawn old hold x hx
    · intro store hstore x hx
      obtain ⟨old, hold, rfl⟩ := Option.map_eq_some_iff.mp hstore
      exact h.fresh old hold x hx
  | published identity =>
    refine ⟨h.places, ?_, ?_, ?_⟩
    · rintro store ⟨rfl⟩ x hx
      cases hx
    · intro x hx
      rcases List.mem_append.mp hx with hx | hx
      · cases hlive : d.live with
        | none =>
          rw [hlive] at hx
          cases hx
        | some old =>
          rw [hlive] at hx
          exact h.drawn old hlive x hx
      · exact h.gone x hx
    · rintro store ⟨rfl⟩ x hx
      cases hx
  | cleanup env expected => exact h.thins (thins_stepCleanup env expected d)

/-- **Every root that is reached.** -/
theorem placed_reached (steps : List Step) : Placed (reached steps) :=
  run_invariant (fun _ a h => h.step a)
    (⟨by simp, by simp, by simp, by simp⟩ : Placed {}) steps

/-! ### Reports and answers -/

theorem swept_or_unlisted (place : Place) : swept place.name = true ∨ place.name ∈ unlisted := by
  cases place <;> decide

/-- The allow-list of the gate has the places that a cleanup takes. -/
theorem isLeftover_of_swept (place : Place) (h : swept place.name = true) :
    isLeftover place.name = true := by
  revert h
  cases place <;> decide

theorem ne_operations_of_unlisted {name : Text} (h : name ∈ unlisted) :
    name ≠ operationsDirname := by
  rintro rfl
  revert h
  decide

theorem not_clean_of_exposed (h : Exposed d) : ¬Clean d := by
  obtain ⟨e, he, hname, f, hf, event, hevent, hcleared⟩ := h
  exact fun hno => hno.1 e he (ne_operations_of_unlisted hname) f hf event hevent hcleared

/-- Where no entry has a name on the lists, the root is clean exactly if it is not exposed. -/
theorem clean_iff_of_not_swept (h : Placed d) (hswept : ∀ e ∈ d.entries, ∀ place : Place,
    e.name = place.name → swept e.name = false) : Clean d ↔ ¬Exposed d := by
  refine ⟨fun hclean hexposed => not_clean_of_exposed hexposed hclean, fun hno => ⟨?_, h.fresh⟩⟩
  intro e he _ f hf event hevent hcleared
  obtain ⟨place, hplace⟩ := h.places e he f hf (List.ne_nil_of_mem hevent)
  refine hno ⟨e, he, ?_, f, hf, event, hevent, hcleared⟩
  have hnot := hswept e he place hplace
  rw [hplace] at hnot ⊢
  exact (swept_or_unlisted place).resolve_left (by rw [hnot]; decide)

/-- A cleanup leaves what is unlisted. -/
theorem exposed_iff (h : sweep env expected d = .ok d') : Exposed d' ↔ Exposed d := by
  obtain ⟨names, hsweeps, -⟩ := sweep_ok h
  constructor
  · rintro ⟨e, he, hname, f, hf, event, hevent, hcleared⟩
    refine ⟨e, ?_, hname, f, hf, event, hevent, hsweeps.cleared ▸ hcleared⟩
    exact List.mem_of_mem_filter (hsweeps.entries ▸ he)
  · rintro ⟨e, he, hname, f, hf, event, hevent, hcleared⟩
    refine ⟨e, ?_, hname, f, hf, event, hevent, hsweeps.cleared.symm ▸ hcleared⟩
    rw [hsweeps.entries]
    exact List.mem_filter.mpr ⟨he, decide_eq_true fun hno => hsweeps.listed e.name hno hname⟩

/-- After a sweep that ended, no entry has a name on the lists. -/
theorem not_swept_of_sweep (h : sweep env expected d = .ok d') :
    ∀ e ∈ d'.entries, swept e.name = false := by
  obtain ⟨names, hsweeps, hall⟩ := sweep_ok h
  intro e he
  rw [hsweeps.entries] at he
  obtain ⟨hmem, hkept⟩ := List.mem_filter.mp he
  by_contra hno
  exact of_decide_eq_true hkept (hall e hmem (by simpa using hno))

/-- Where the gate finds nothing, no entry is on its list. -/
theorem not_leftover_of_alreadyClear (h : alreadyClear d = true) :
    ∀ e ∈ d.entries, isLeftover e.name = false := by
  have hnil : derivedLeftovers d = [] := by
    unfold alreadyClear at h
    cases hlive : d.live with
    | none =>
      rw [hlive] at h
      exact of_decide_eq_true h
    | some store =>
      rw [hlive] at h
      exact of_decide_eq_true (Bool.and_eq_true_iff.mp h).2
  have hnames : (d.entries.map Entry.name).filter isLeftover = [] := by
    unfold derivedLeftovers at hnil
    dsimp only at hnil
    split_ifs at hnil with hgap
    · exact absurd hnil (by simp)
    · exact hnil
  intro e he
  have hnot := List.filter_eq_nil_iff.mp hnames e.name (List.mem_map_of_mem he)
  simpa using hnot

end Invariant

/-! ## What is left -/

def sampleIdentity : Identity := ⟨[1], [2], 10, 0⟩

/-- Events are recorded, a backup stages its snapshot and fails, a clear publishes. -/
def sampleSteps : List Step :=
  [.record 1 sampleIdentity, .mark operationsDirname,
    .copy .backup [[7], ascii "snapshot.sqlite3"] [1], .copy .delta [[8]] [1],
    .published ⟨[3], [4], 11, 0⟩]

end Sweep
end Operations
end SemanticMemory
