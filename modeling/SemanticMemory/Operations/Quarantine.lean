import SemanticMemory.Basic
import SemanticMemory.Lib.Framing
import SemanticMemory.Lib.Runs

/-!
# The quarantine of an unreadable store

`publish_quarantine` of `daemon/quarantine.py` inside `_quarantine_and_replace` of
`daemon/restore_operation.py`: attempt after attempt of one restore, with a crash between any two
effects.

## What is modelled, and how

* The live store is the contents of its three files; the quarantine is the directory of this
  operation with the copies and `metadata.json`.
* An attempt begins under the exclusive lease, which keeps everybody else off the files: they change
  between attempts only, and then in any way.  A file keeps what was written to it or, where the
  file system fails silently, something else (`corrupts`); the verification is there for that.
* What SQLite reads off a main file is the parameter `probe`, and the hash is the parameter `sha`.
* The identity, the time and the disposition in the metadata, which nothing reads again, are left out.
* `replacements` is a history: at each rename, the files that `replace_fact_database` was called
  over, and the quarantine at that moment.
-/

namespace SemanticMemory
namespace Operations
namespace Quarantine

open Runs

/-! ## The source files -/

/-- `QUARANTINE_MEMBERS`. -/
inductive Member where
  | db | wal | shm
  deriving DecidableEq

def members : List Member := [.db, .wal, .shm]

theorem mem_members (m : Member) : m ∈ members := by cases m <;> decide

instance : Fintype Member := ⟨⟨members, by decide⟩, mem_members⟩

/-- The contents of the files, as far as they are there. -/
abbrev Source := Member → Option Text

/-- What a member contributes to the fingerprint; an absent sidecar contributes nothing. -/
def Source.payload (s : Source) (m : Member) : Text := (s m).getD []

def prefixWidth : ℕ := 8

/-- `fingerprint_bytes` before the hash; a length that `to_bytes` cannot represent raises. -/
def fingerprintBytes (s : Source) : Option Text :=
  if ∀ m, (s.payload m).length < 256 ^ prefixWidth then
    some (Framing.frames (Framing.bigEndian 256 prefixWidth) (members.map s.payload))
  else none

def fingerprint {D : Type} (sha : Text → D) (s : Source) : Option D := (fingerprintBytes s).map sha

/-- **Files with one fingerprint are alike**, up to a sidecar that is absent in the one and empty in
the other. -/
theorem payload_eq_of_fingerprint {D : Type} {sha : Text → D} (hsha : Function.Injective sha) {s t : Source}
    {f : D} (hs : fingerprint sha s = some f) (ht : fingerprint sha t = some f) :
    s.payload = t.payload := by
  obtain ⟨bytes, hbytes, hf⟩ := Option.map_eq_some_iff.mp hs
  obtain ⟨bytes', hbytes', hf'⟩ := Option.map_eq_some_iff.mp ht
  cases hsha (hf.trans hf'.symm)
  unfold fingerprintBytes at hbytes hbytes'
  split at hbytes
  · next hsmall =>
    split at hbytes'
    · next hsmall' =>
      have hframes := (Option.some.inj hbytes).trans (Option.some.inj hbytes').symm
      have hpayloads := Framing.frames_inj (Framing.code_bigEndian 256 prefixWidth) (by simp)
        (by simpa using fun m _ => hsmall m) (by simpa using fun m _ => hsmall' m) hframes
      funext m
      exact List.map_inj_left.mp hpayloads m (mem_members m)
    · cases hbytes'
  · cases hbytes

/-! ## The quarantine directory -/

/-- `metadata.json`: the fingerprint, and the size and hash of each member that was present. -/
structure Metadata (D : Type) where
  fingerprint : D
  members : Member → Option (ℕ × D)

/-- The directory of the operation under `quarantine`. -/
structure Entry (D : Type) where
  copies : Source := fun _ => none
  metadata : Option (Metadata D) := none

def metadata {D : Type} (sha : Text → D) (fingerprint : D) (s : Source) : Metadata D where
  fingerprint := fingerprint
  members m := (s m).map fun content => (content.length, sha content)

/-- What is removed next. -/
inductive Part where
  | copy (m : Member)
  | metadata

def Entry.erase {D : Type} (e : Entry D) : Part → Entry D
  | .copy m => { e with copies := Function.update e.copies m none }
  | .metadata => { e with metadata := none }

/-! ## An attempt -/

/-- The restore: what it was confirmed for, and what it publishes. -/
structure Setup (D : Type) where
  sha : Text → D
  /-- `expect_current_fingerprint`. -/
  expected : D
  /-- `probe_current_epoch` on a main file; `none` is an unreadable one. -/
  probe : Text → Option Text
  staged : Text

inductive Place where
  | gate
  | openFiles
  | hash
  | ensureDir
  | removeOld
  | mkdir
  | copy (todo : List Member)
  | write (m : Member) (todo : List Member) (written : ℕ)
  | verify (todo : List Member)
  | writeMetadata
  | sync
  | unlinkWal (before : Source)
  | unlinkShm (before : Source)
  | fsyncStaged (before : Source)
  | rename (before : Source)
  | marker
  | discard

/-- An answer of the outside world. -/
inductive Answer where
  | ok
  | fails
  | removes (part : Part)
  /-- The next bytes are written. -/
  | writes (n : ℕ)
  /-- The file system keeps something else. -/
  | corrupts (content : Text)

structure World (D : Type) where
  source : Source
  entry : Option (Entry D) := none
  /-- `published.marker` of the restore. -/
  marker : Bool := false
  attempt : Option Place := none
  replacements : List (Source × Option (Entry D)) := []

inductive Action where
  /-- An attempt gets the lease. -/
  | begins
  | works (answer : Answer)
  | crash
  | changes (source : Source)

variable {D : Type}

namespace World

def goto (w : World D) (place : Place) : World D := { w with attempt := some place }

/-- The attempt is over, in an exception or not. -/
def leave (w : World D) : World D := { w with attempt := none }

/-- The next part is removed; with nothing left the directory is. -/
def removing (w : World D) (answer : Answer) (next failed : World D → World D) : World D :=
  match w.entry, answer with
  | none, _ => next w
  | some e, .removes part =>
    if e.metadata = none ∧ ∀ m, e.copies m = none then next { w with entry := none }
    else { w with entry := some (e.erase part) }
  | some _, .fails => failed w
  | some _, _ => w

def setCopy (w : World D) (m : Member) (content : Text) : World D :=
  { w with
    entry := w.entry.map fun e => { e with copies := Function.update e.copies m (some content) } }

def setMetadata (w : World D) (m : Metadata D) : World D :=
  { w with entry := w.entry.map fun e => { e with metadata := some m } }

def copyOf (w : World D) (m : Member) : Option Text := w.entry.bind fun e => e.copies m

/-- A sidecar is unlinked; one that is not there is passed over. -/
def unlinking (w : World D) (m : Member) (answer : Answer) (next : Place) : World D :=
  match answer with
  | .ok => { w with source := Function.update w.source m none }.goto next
  | _ => if (w.source m).isSome then w.leave else w.goto next

/-- A piece of an attempt. -/
def work [DecidableEq D] (σ : Setup D) (w : World D) (answer : Answer) : Place → World D
  | .gate =>
    match w.source .db with
    | none => w.leave
    | some db =>
      match answer with
      | .ok =>
        -- a readable store is the published one, or an `epoch_mismatch`
        if (σ.probe db).isSome then w.leave
        else if w.marker then w.leave
        else w.goto .openFiles
      | _ => w.leave
  | .openFiles =>
    match answer with
    | .ok => if (w.source .db).isSome then w.goto .hash else w.leave
    | _ => w.leave
  | .hash =>
    match answer with
    | .ok => if fingerprint σ.sha w.source = some σ.expected then w.goto .ensureDir else w.leave
    | _ => w.leave
  | .ensureDir =>
    match answer with
    | .ok => w.goto .removeOld
    | _ => w.goto .discard
  | .removeOld => w.removing answer (·.goto .mkdir) (·.goto .discard)
  | .mkdir =>
    match answer with
    | .ok => { w with entry := some {} }.goto (.copy members)
    | _ => w.goto .discard
  | .copy [] => w.goto (.verify members)
  | .copy (m :: todo) =>
    match w.source m with
    | none => w.goto (.copy todo)
    | some _ =>
      match answer with
      | .ok => (w.setCopy m []).goto (.write m todo 0)
      | _ => w.goto .discard
  | .write m todo written =>
    match answer with
    | .ok =>
      if (w.source.payload m).length ≤ written then w.goto (.copy todo) else w
    | .writes n =>
      let chunk := ((w.source.payload m).drop written).take n
      (w.setCopy m ((w.copyOf m).getD [] ++ chunk)).goto (.write m todo (written + n))
    | .corrupts content => w.setCopy m content
    | _ => w.goto .discard
  | .verify [] => w.goto .writeMetadata
  | .verify (m :: todo) =>
    match w.source m with
    | none => w.goto (.verify todo)
    | some content =>
      match answer, w.copyOf m with
      | .ok, some copy =>
        if copy.length = content.length ∧ σ.sha copy = σ.sha content then w.goto (.verify todo)
        else w.goto .discard
      | _, _ => w.goto .discard
  | .writeMetadata =>
    match answer with
    | .ok =>
      (w.setMetadata (metadata σ.sha σ.expected w.source)).goto .sync
    | _ => w.goto .discard
  | .sync =>
    match answer with
    | .ok => w.goto (.unlinkWal w.source)
    | _ => w.goto .discard
  | .unlinkWal before => w.unlinking .wal answer (.unlinkShm before)
  | .unlinkShm before => w.unlinking .shm answer (.fsyncStaged before)
  | .fsyncStaged before =>
    match answer with
    | .ok => w.goto (.rename before)
    | _ => w.leave
  | .rename before =>
    match answer with
    | .ok =>
      { w with
        source := Function.update w.source .db (some σ.staged)
        replacements := w.replacements ++ [(before, w.entry)] }.goto .marker
    | _ => w.leave
  | .marker =>
    match answer with
    | .ok => { w with marker := true }.leave
    | _ => w.leave
  -- the removal of a partial quarantine stops at the first error
  | .discard => w.removing answer leave leave

def step [DecidableEq D] (σ : Setup D) (w : World D) : Action → World D
  | .begins => if w.attempt.isSome then w else w.goto .gate
  | .works answer =>
    match w.attempt with
    | none => w
    | some place => w.work σ answer place
  | .crash => w.leave
  | .changes source => if w.attempt.isSome then w else { w with source := source }

end World

/-! ## What an attempt keeps -/

/-- The source files are there and are those that the restore was confirmed for. -/
structure Passed (σ : Setup D) (s : Source) : Prop where
  present : (s .db).isSome = true
  fingerprint : fingerprint σ.sha s = some σ.expected

/-- A quarantine that holds the source files. -/
structure Published (σ : Setup D) (s : Source) (e : Entry D) : Prop where
  copies : e.copies = s
  metadata : e.metadata = some (metadata σ.sha σ.expected s)

/-- A replacement of files that a quarantine holds. -/
def Preserved (σ : Setup D) (p : Source × Option (Entry D)) : Prop :=
  Passed σ p.1 ∧ ∃ e, p.2 = some e ∧ Published σ p.1 e

/-- The quarantine has no copy of a file that is not there. -/
def Clean (s : Source) (e : Entry D) : Prop := ∀ m, s m = none → e.copies m = none

def At (σ : Setup D) (w : World D) : Place → Prop
  | .gate | .openFiles | .marker => True
  | .hash => (w.source .db).isSome = true
  | .ensureDir | .removeOld | .mkdir | .discard => Passed σ w.source
  | .copy _ => Passed σ w.source ∧ ∃ e, w.entry = some e ∧ Clean w.source e
  | .write m _ _ =>
    Passed σ w.source ∧ (w.source m).isSome = true ∧ ∃ e, w.entry = some e ∧ Clean w.source e
  | .verify todo =>
    Passed σ w.source ∧ ∃ e, w.entry = some e ∧ Clean w.source e ∧
      ∀ m, m ∉ todo → e.copies m = w.source m
  | .writeMetadata => Passed σ w.source ∧ ∃ e, w.entry = some e ∧ e.copies = w.source
  | .sync => Preserved σ (w.source, w.entry)
  | .unlinkWal before => before = w.source ∧ Preserved σ (before, w.entry)
  | .unlinkShm before | .fsyncStaged before | .rename before => Preserved σ (before, w.entry)

/-- What every action keeps. -/
structure Keeps (σ : Setup D) (w : World D) : Prop where
  attempt : ∀ place, w.attempt = some place → At σ w place
  replacements : ∀ p ∈ w.replacements, Preserved σ p

section Pieces

variable {σ : Setup D} {w : World D}

theorem Keeps.leave (h : Keeps σ w) : Keeps σ w.leave := ⟨nofun, h.replacements⟩

/-- A piece that does nothing but go on. -/
theorem Keeps.goto (h : Keeps σ w) (place : Place) (hat : At σ w place) :
    Keeps σ (w.goto place) :=
  ⟨fun p hp => by cases hp; cases place <;> exact hat, h.replacements⟩

/-- A removal keeps what holds at its place, and goes on without the directory. -/
theorem Keeps.removing (h : Keeps σ w) {answer : Answer} {next failed : World D → World D}
    (hplace : ∀ e, ∀ place, w.attempt = some place → At σ { w with entry := e } place)
    (hnext : ∀ e, Keeps σ (next { w with entry := e })) (hfailed : Keeps σ (failed w)) :
    Keeps σ (w.removing answer next failed) := by
  unfold World.removing
  split
  · next hnone =>
    have hw : w = { w with entry := none } := by rw [← hnone]
    rw [hw]
    exact hnext none
  · split
    · exact hnext none
    · exact ⟨hplace _, h.replacements⟩
  · exact hfailed
  · exact h

theorem Keeps.unlinking (h : Keeps σ w) {m : Member} {answer : Answer} (place : Place)
    (hat : ∀ source, At σ { w with source := source } place) :
    Keeps σ (w.unlinking m answer place) := by
  have hgoto (source : Source) : Keeps σ ({ w with source := source }.goto place) :=
    ⟨fun p hp => by cases hp; cases place <;> exact hat source, h.replacements⟩
  unfold World.unlinking
  split
  · exact hgoto _
  · split
    · exact h.leave
    · exact hgoto w.source

theorem clean_setCopy {e : Entry D} (h : Clean w.source e) {m : Member}
    (hm : (w.source m).isSome = true) (content : Text) :
    Clean w.source { e with copies := Function.update e.copies m (some content) } := by
  intro m' hm'
  have hother : m' ≠ m := by
    rintro rfl
    rw [hm'] at hm
    cases hm
  exact (Function.update_of_ne hother _ _).trans (h m' hm')

/-- A write to a copy, and the place after it. -/
theorem Keeps.setCopy (h : Keeps σ w) (hpassed : Passed σ w.source) {e : Entry D}
    (he : w.entry = some e) (hclean : Clean w.source e) {m : Member}
    (hm : (w.source m).isSome = true) (content : Text) (todo : List Member) (written : ℕ) :
    Keeps σ ((w.setCopy m content).goto (.write m todo written)) := by
  refine ⟨fun p hp => ?_, h.replacements⟩
  cases hp
  refine ⟨hpassed, hm, _, ?_, clean_setCopy hclean hm content⟩
  show w.entry.map _ = _
  rw [he]
  rfl

/-- **A piece of an attempt.** -/
theorem Keeps.work [DecidableEq D] (hsha : Function.Injective σ.sha) (h : Keeps σ w) {place : Place}
    (hplace : w.attempt = some place) (answer : Answer) : Keeps σ (w.work σ answer place) := by
  have hat := h.attempt place hplace
  cases place with
  | gate =>
    simp only [World.work]
    split
    · exact h.leave
    · split
      · split_ifs
        · exact h.leave
        · exact h.leave
        · exact h.goto _ trivial
      · exact h.leave
  | openFiles =>
    simp only [World.work]
    split
    · split
      · next hpresent => exact h.goto _ hpresent
      · exact h.leave
    · exact h.leave
  | hash =>
    simp only [World.work]
    split
    · split
      · next hfingerprint => exact h.goto .ensureDir ⟨hat, hfingerprint⟩
      · exact h.leave
    · exact h.leave
  | ensureDir =>
    simp only [World.work]
    split
    · exact h.goto .removeOld hat
    · exact h.goto .discard hat
  | removeOld =>
    have hdiscard : Keeps σ (w.goto .discard) := h.goto _ hat
    show Keeps σ (w.removing answer (fun w => w.goto .mkdir) fun w => w.goto .discard)
    refine Keeps.removing h (fun e p hp => ?_) (fun e => ?_) hdiscard
    · cases hplace.symm.trans hp
      exact hat
    · exact ⟨fun p hp => by cases hp; exact hat, h.replacements⟩
  | mkdir =>
    simp only [World.work]
    split
    · refine ⟨fun p hp => ?_, h.replacements⟩
      cases hp
      exact ⟨hat, _, rfl, fun m _ => rfl⟩
    · exact h.goto .discard hat
  | copy todo =>
    obtain ⟨hpassed, e, he, hclean⟩ := hat
    cases todo with
    | nil =>
      refine h.goto (.verify members) ⟨hpassed, e, he, hclean, fun m hm => ?_⟩
      exact absurd (mem_members m) hm
    | cons m todo =>
      simp only [World.work]
      split
      · exact h.goto (.copy todo) ⟨hpassed, e, he, hclean⟩
      · next content hcontent =>
        split
        · exact h.setCopy hpassed he hclean (by rw [hcontent]; rfl) _ _ _
        · exact h.goto .discard hpassed
  | write m todo written =>
    obtain ⟨hpassed, hm, e, he, hclean⟩ := hat
    simp only [World.work]
    split
    · split
      · exact h.goto (.copy todo) ⟨hpassed, e, he, hclean⟩
      · exact h
    · exact h.setCopy hpassed he hclean hm _ _ _
    · next content =>
      have hset := h.setCopy hpassed he hclean hm content todo written
      refine ⟨fun p hp => hset.attempt p ?_, h.replacements⟩
      exact (hplace.symm.trans hp).symm ▸ rfl
    · exact h.goto .discard hpassed
  | verify todo =>
    obtain ⟨hpassed, e, he, hclean, hsame⟩ := hat
    cases todo with
    | nil =>
      refine h.goto .writeMetadata ⟨hpassed, e, he, funext fun m => ?_⟩
      exact hsame m List.not_mem_nil
    | cons m todo =>
      have hnext (hm : e.copies m = w.source m) : Keeps σ (w.goto (.verify todo)) := by
        refine h.goto (.verify todo) ⟨hpassed, e, he, hclean, fun m' hm' => ?_⟩
        by_cases heq : m' = m
        · rw [heq, hm]
        · exact hsame m' (by simp [heq, hm'])
      simp only [World.work]
      split
      · next hnone => exact hnext ((hclean m hnone).trans hnone.symm)
      · next content hcontent =>
        split
        · next copy hcopy =>
          have hcopy' : e.copies m = some copy := by
            unfold World.copyOf at hcopy
            rwa [he] at hcopy
          split
          · next hverified =>
            refine hnext ?_
            rw [hcopy', hcontent, hsha hverified.2]
          · exact h.goto .discard hpassed
        · exact h.goto .discard hpassed
  | writeMetadata =>
    obtain ⟨hpassed, e, he, hcopies⟩ := hat
    simp only [World.work]
    split
    · refine ⟨fun p hp => ?_, h.replacements⟩
      cases hp
      refine ⟨hpassed, { e with metadata := some (metadata σ.sha σ.expected w.source) }, ?_, hcopies,
        rfl⟩
      show w.entry.map _ = _
      rw [he]
      rfl
    · exact h.goto .discard hpassed
  | sync =>
    simp only [World.work]
    split
    · exact h.goto (.unlinkWal w.source) ⟨rfl, hat⟩
    · exact h.goto .discard hat.1
  | unlinkWal before => exact h.unlinking (.unlinkShm before) fun _ => hat.2
  | unlinkShm before => exact h.unlinking (.fsyncStaged before) fun _ => hat
  | fsyncStaged before =>
    simp only [World.work]
    split
    · exact h.goto (.rename before) hat
    · exact h.leave
  | rename before =>
    simp only [World.work]
    split
    · refine ⟨fun p hp => (by cases hp; trivial), fun p hp => ?_⟩
      rcases List.mem_append.mp hp with hp | hp
      · exact h.replacements p hp
      · rw [List.mem_singleton.mp hp]
        exact hat
    · exact h.leave
  | marker =>
    simp only [World.work]
    split
    · exact ⟨nofun, h.replacements⟩
    · exact h.leave
  | discard =>
    refine h.removing (fun e p hp => ?_) (fun e => ⟨nofun, h.replacements⟩) h.leave
    cases hplace.symm.trans hp
    exact hat

/-- **An action keeps what every action keeps.** -/
theorem Keeps.step [DecidableEq D] (hsha : Function.Injective σ.sha) (h : Keeps σ w) (a : Action) :
    Keeps σ (w.step σ a) := by
  cases a with
  | begins =>
    simp only [World.step]
    split
    · exact h
    · exact h.goto _ trivial
  | works answer =>
    simp only [World.step]
    cases hplace : w.attempt with
    | none => exact h
    | some place => exact h.work hsha hplace answer
  | crash => exact h.leave
  | changes source =>
    simp only [World.step]
    split
    · exact h
    · next hnone =>
      refine ⟨fun place hplace => ?_, h.replacements⟩
      exact absurd (Option.isSome_of_eq_some hplace) hnone

end Pieces

/-! ## Runs -/

/-- An action touches the quarantine only where the live files are those of the confirmation. -/
theorem passed_of_alters [DecidableEq D] {σ : Setup D} {w : World D} (h : Keeps σ w) {a : Action}
    (halters : (w.step σ a).entry ≠ w.entry) : Passed σ w.source := by
  cases a with
  | begins =>
    refine absurd ?_ halters
    simp only [World.step]
    split <;> rfl
  | crash => exact absurd rfl halters
  | changes source =>
    refine absurd ?_ halters
    simp only [World.step]
    split <;> rfl
  | works answer =>
    cases hplace : w.attempt with
    | none =>
      refine absurd ?_ halters
      simp only [World.step, hplace]
    | some place =>
      have hat := h.attempt place hplace
      have hstep : w.step σ (.works answer) = w.work σ answer place := by
        simp only [World.step, hplace]
      rw [hstep] at halters
      cases place with
      | ensureDir => exact hat
      | removeOld => exact hat
      | mkdir => exact hat
      | discard => exact hat
      | copy todo => exact hat.1
      | write m todo written => exact hat.1
      | verify todo => exact hat.1
      | writeMetadata => exact hat.1
      | sync => exact hat.1
      | unlinkWal before => exact hat.1 ▸ hat.2.1
      | gate =>
        refine absurd ?_ halters
        simp only [World.work]
        split
        · rfl
        · split
          · split_ifs <;> rfl
          · rfl
      | openFiles =>
        refine absurd ?_ halters
        simp only [World.work]
        split
        · split <;> rfl
        · rfl
      | hash =>
        refine absurd ?_ halters
        simp only [World.work]
        split
        · split <;> rfl
        · rfl
      | unlinkShm before =>
        refine absurd ?_ halters
        simp only [World.work, World.unlinking]
        split
        · rfl
        · split <;> rfl
      | fsyncStaged before =>
        refine absurd ?_ halters
        simp only [World.work]
        split <;> rfl
      | rename before =>
        refine absurd ?_ halters
        simp only [World.work]
        split <;> rfl
      | marker =>
        refine absurd ?_ halters
        simp only [World.work]
        split <;> rfl

/-- **An unreadable store is replaced only after it is preserved.**  Over every content and presence
of the three files, every crash, fault and retry: what was replaced was held by a published
quarantine, byte by byte, and had the confirmed fingerprint; files with one fingerprint are alike up
to a sidecar that is absent in the one and empty in the other; and a quarantine is touched only
while the live files are, in the same sense, those that were confirmed. -/
theorem quarantine_preserves [DecidableEq D] (σ : Setup D) (hsha : Function.Injective σ.sha)
    {confirmed : Source} (hconfirmed : fingerprint σ.sha confirmed = some σ.expected) {w : World D}
    (hidle : w.attempt = none) (hnone : w.replacements = []) (acts : List Action) :
    (∀ p ∈ (run (World.step σ) w acts).replacements,
        Preserved σ p ∧ p.1.payload = confirmed.payload) ∧
      (∀ (s t : Source) (f : D), fingerprint σ.sha s = some f → fingerprint σ.sha t = some f →
        s.payload = t.payload) ∧
      ∀ a, (World.step σ (run (World.step σ) w acts) a).entry ≠ (run (World.step σ) w acts).entry →
        (run (World.step σ) w acts).source.payload = confirmed.payload := by
  have hkeeps : Keeps σ w := by
    refine ⟨fun place hplace => ?_, fun p hp => ?_⟩
    · cases hidle.symm.trans hplace
    · rw [hnone] at hp
      cases hp
  have hrun := run_invariant (fun _ a hs => hs.step hsha a) hkeeps acts
  refine ⟨fun p hp => ?_, fun s t f hs ht => payload_eq_of_fingerprint hsha hs ht, fun a ha => ?_⟩
  · have hpreserved := hrun.replacements p hp
    exact ⟨hpreserved, payload_eq_of_fingerprint hsha hpreserved.1.fingerprint hconfirmed⟩
  · exact payload_eq_of_fingerprint hsha (passed_of_alters hrun ha).fingerprint hconfirmed

/-! ### An attempt that is cut -/

/-- A store that nobody can read, and its log. -/
def sampleSource : Source
  | .db => some [1]
  | .wal => some [2, 3]
  | .shm => none

/-- The hash of the samples is the text itself. -/
def sampleSetup : Setup Text where
  sha := id
  expected := ((fingerprintBytes sampleSource).getD [])
  probe _ := none
  staged := [9]

/-- An attempt up to the last effect before the replacement. -/
def samplePublishing : List Action :=
  .begins :: ([.ok, .ok, .ok, .ok, .ok, .ok, .ok, .writes 1, .ok, .ok, .writes 5, .ok, .ok, .ok, .ok,
    .ok, .ok, .ok, .ok, .ok] : List Answer).map .works

/-- The rest of the attempt. -/
def sampleReplacing : List Action := List.replicate 5 (.works .ok)

theorem quarantine_preserves_sample :
    (run (World.step sampleSetup) { source := sampleSource }
        (samplePublishing ++ sampleReplacing)).replacements.length = 1 ∧
      ∀ p ∈ (run (World.step sampleSetup) { source := sampleSource }
          (samplePublishing ++ sampleReplacing)).replacements,
        Preserved sampleSetup p ∧ p.1.payload = sampleSource.payload :=
  ⟨by decide +kernel, (quarantine_preserves sampleSetup Function.injective_id
    (show fingerprint sampleSetup.sha sampleSource = _ by decide +kernel) rfl rfl _).1⟩

/-- The next attempt, up to the removal of the metadata. -/
def sampleRetry : List Action :=
  .crash :: .begins :: List.replicate 4 (.works .ok)

/-- **A quarantine that is rewritten, and two sets of files with one fingerprint.**  The attempt is
cut between the publication and the replacement, and the next one begins with the removal. -/
theorem quarantine_rewritten :
    (∃ s t : Source, s ≠ t ∧ (fingerprint sampleSetup.sha s).isSome = true ∧
        fingerprint sampleSetup.sha s = fingerprint sampleSetup.sha t) ∧
      ¬ ∀ (w : World Text), w.attempt = none → w.replacements = [] →
        ∀ (acts : List Action) (a : Action),
          ((run (World.step sampleSetup) w acts).entry.bind Entry.metadata).isSome = true →
          ((World.step sampleSetup (run (World.step sampleSetup) w acts) a).entry.bind
            Entry.metadata).isSome = true := by
  refine ⟨⟨sampleSource, Function.update sampleSource .shm (some []), by decide, by decide +kernel,
    by decide +kernel⟩, fun h => ?_⟩
  have hcut := h { source := sampleSource } rfl rfl (samplePublishing ++ sampleRetry)
    (.works (.removes .metadata)) (by decide +kernel)
  exact absurd hcut (by decide +kernel)

end Quarantine
end Operations
end SemanticMemory
