import SemanticMemory.Archive.Published

/-!
# Runs that nothing disturbs

A run is undisturbed if every effect on the disk succeeds: it may restart its processes, clean or
not, but no write, append or start fails.  Then the files end where the watermark says, but for what
the batch in flight has added.

* `Settled` is what such a run keeps of the disk and the memory, next to the list of the durable
  observations.  A piece of the publication thread installs the batch it has published
  (`settled_work`), and nothing else adds to that list.
* `Rests` is what it leaves on the disk when the process is gone, and `settled_start` the start from
  there.
-/

namespace SemanticMemory
namespace Archive

/-- No effect of the action fails. -/
def Action.Undisturbed : Action → Prop
  | .start halt write => halt = none ∧ write = .ok
  | .policyFailure => False
  | .work env => env = {}
  | .markClean write => write = .ok
  | _ => True

instance decidableUndisturbed : ∀ a : Action, Decidable a.Undisturbed
  | .start halt write => inferInstanceAs (Decidable (halt = none ∧ write = .ok))
  | .policyFailure => .isFalse id
  | .work env => inferInstanceAs (Decidable (env = {}))
  | .markClean write => inferInstanceAs (Decidable (write = .ok))
  | .crash | .admitItem .. | .refuse | .checkpoint _ | .stop => .isTrue trivial

namespace Thread

/-- The bytes of the batch in flight that are in `observations.jsonl`. -/
def written : Thread → Text
  | .stage laid _ | .hold laid _ _ | .publish laid _ | .install laid _ => laid.observationBytes
  | _ => []

/-- The bytes of the batch in flight that are in `quarantine.jsonl`. -/
def quarantined : Thread → Text
  | .appendObservations laid _ | .stage laid _ | .hold laid _ _ | .publish laid _
  | .install laid _ => laid.quarantineBytes
  | _ => []

def measured : Thread → Option Sizes
  | .appendQuarantine _ before | .appendObservations _ before | .stage _ before
  | .hold _ before _ => some before
  | _ => none

/-- The observations whose watermark is written, and not yet installed. -/
def installing : Thread → List Semantic
  | .install laid _ => laid.semantics
  | _ => []

def reached (w : Watermark) : Thread → Watermark
  | .install _ pending => pending.watermark
  | _ => w

/-- Nothing has failed, and a state that waits to be written is in line with the watermark. -/
def Sound (w : Watermark) : Thread → Prop
  | .failed _ | .dead => False
  | .writeState payload => payload.storageFailure = false ∧ payload.watermark = w
  | .hold laid _ pending | .publish laid pending | .install laid pending =>
    pending.storageFailure = false ∧
      pending.quarantineBytes = w.quarantineBytes + laid.quarantineBytes.length
  | _ => True

end Thread

variable {c : Config} {d : Disk} {m m' : Memory} {ss : List Semantic}

/-- **What an undisturbed run keeps.** -/
structure Settled (c : Config) (d : Disk) (m : Memory) (ss : List Semantic) : Prop where
  holds : Holds c d m ss
  file : ∃ st, d.state = .holds st ∧ st.watermark = m.thread.reached m.state.watermark ∧
    st.storageFailure = false
  observations : regularSize d.observations = m.state.durableOffset + m.thread.written.length
  quarantine : regularSize d.quarantine = m.state.quarantineBytes + m.thread.quarantined.length
  measured : ∀ before ∈ m.thread.measured,
    before = ⟨m.state.durableOffset, m.state.quarantineBytes⟩
  steady : m.state.storageFailure = false
  sound : m.thread.Sound m.state.watermark

theorem Settled.quiet (h : Settled c d m ss) : Settled c d m (ss ++ []) :=
  (List.append_nil ss).symm ▸ h

/-- The memory changes where the publication does not look. -/
theorem Settled.keeps (h : Settled c d m ss) (hk : m.Keeps m')
    (hfailure : m'.state.storageFailure = m.state.storageFailure) : Settled c d m' ss := by
  have hoffset : m'.state.durableOffset = m.state.durableOffset :=
    congrArg Watermark.durableOffset hk.watermark
  have hquarantine : m'.state.quarantineBytes = m.state.quarantineBytes :=
    congrArg Watermark.quarantineBytes hk.watermark
  refine ⟨h.holds.keeps hk, ?_, ?_, ?_, ?_, hfailure.trans h.steady, ?_⟩
  · rw [hk.watermark, hk.thread]
    exact h.file
  · rw [hoffset, hk.thread]
    exact h.observations
  · rw [hquarantine, hk.thread]
    exact h.quarantine
  · rw [hoffset, hquarantine, hk.thread]
    exact h.measured
  · rw [hk.watermark, hk.thread]
    exact h.sound

/-! ## Admission -/

theorem displace_storageFailure (m : Memory) (index : ℕ) :
    (m.displace index).state.storageFailure = m.state.storageFailure := by
  unfold Memory.displace
  split
  · rfl
  · split_ifs <;> rfl

theorem queueLocked_storageFailure (m : Memory) (i : Item) :
    (m.queueLocked c i).1.state.storageFailure = m.state.storageFailure := by
  unfold Memory.queueLocked
  split_ifs
  · rfl
  · split
    · exact displace_storageFailure m _
    · rfl
  · rfl

theorem acceptOne_storageFailure (g : Gate) (m : Memory) (s : Semantic) :
    (acceptOne c g m s).1.state.storageFailure = m.state.storageFailure := by
  unfold acceptOne
  split_ifs
  · rfl
  · rfl
  · rfl
  · rfl
  · rfl
  · rfl
  · split
    · split_ifs
      · rfl
      · exact queueLocked_storageFailure m.countConflict _
    · have hq := queueLocked_storageFailure (c := c) m ⟨s, s.size, false⟩
      dsimp only
      split_ifs
      · exact hq
      · exact hq

theorem Settled.accept (h : Settled c d m ss) (g : Gate) (s : Semantic) :
    Settled c d (acceptOne c g m s).1 ss :=
  h.keeps (keeps_acceptOne g m s) (acceptOne_storageFailure g m s)

/-! ## The publication thread -/

theorem settled_takeBatch (h : Settled c d m ss) (hidle : m.thread = .idle) :
    Settled c d (m.takeBatch c) ss := by
  have hholds := holds_takeBatch h.holds
  have hfile := h.file
  have hobservations := h.observations
  have hquarantine := h.quarantine
  rw [hidle] at hfile hobservations hquarantine
  have hnone (before : Sizes) (hb : before ∈ (none : Option Sizes)) :
      before = ⟨m.state.durableOffset, m.state.quarantineBytes⟩ := nomatch hb
  revert hholds
  unfold Memory.takeBatch
  split_ifs <;> intro hholds
  · exact ⟨hholds, hfile, hobservations, hquarantine, hnone, h.steady, trivial⟩
  · exact h
  · unfold Memory.answered at hholds ⊢
    cases hwaiters : m.waiters <;> rw [hwaiters] at hholds
    · exact ⟨hholds, hfile, hobservations, hquarantine, hnone, h.steady, trivial⟩
    · exact ⟨hholds, hfile, hobservations, hquarantine, hnone, h.steady, trivial⟩
  · exact ⟨hholds, hfile, hobservations, hquarantine, hnone, h.steady, trivial⟩

variable {laid : Laid}

theorem settled_layItem (h : Settled c d m ss) {i : Item} {todo : List Item}
    (hlay : m.thread = .lay (i :: todo) laid) : Settled c d (m.layItem c i todo laid) ss := by
  have hthread := h.holds.thread
  have hfile := h.file
  have hobservations := h.observations
  have hquarantine := h.quarantine
  rw [hlay] at hthread hfile hobservations hquarantine
  have hholds := holds_layItem h.holds i todo hthread
  have hnone (before : Sizes) (hb : before ∈ (none : Option Sizes)) :
      before = ⟨m.state.durableOffset, m.state.quarantineBytes⟩ := nomatch hb
  revert hholds
  unfold Memory.layItem
  dsimp only
  split_ifs <;> intro hholds <;>
    exact ⟨hholds, hfile, hobservations, hquarantine, hnone, h.steady, trivial⟩

theorem pending_sound {s : State} (laid : Laid) :
    (Memory.pending c s laid).storageFailure = s.storageFailure ∧
      (Memory.pending c s laid).quarantineBytes =
        s.quarantineBytes + laid.quarantineBytes.length := by
  unfold Memory.pending
  cases laid.observations.getLast? <;> exact ⟨rfl, rfl⟩

/-- The files after the appends of a batch. -/
theorem settled_appendObservations (h : Settled c d m ss) {before : Sizes}
    (hplace : m.thread = .appendObservations laid before) :
    Settled c { d with observations := appended d.observations laid.observationBytes }
      { m with thread := .stage laid before } ss := by
  have hthread := h.holds.thread
  have hfile := h.file
  have hobservations := h.observations
  have hquarantine := h.quarantine
  have hmeasured := h.measured
  rw [hplace] at hthread hfile hobservations hquarantine hmeasured
  obtain ⟨hlaid, habove⟩ := hthread
  have hend : (content d.observations).length = m.state.watermark.durableOffset := hobservations
  have hlines := lines_appended h.holds.stands hlaid hend
  have hstands := h.holds.stands.append
    (prefix_appended d.observations laid.observationBytes)
  refine ⟨⟨hstands, h.holds.index, hlaid, habove, hlines⟩, hfile, ?_,
    hquarantine, hmeasured, h.steady, trivial⟩
  show (content d.observations ++ laid.observationBytes).length =
    m.state.durableOffset + laid.observationBytes.length
  rw [List.length_append, hend]
  rfl

/-- A held batch is given up when the process stops. -/
theorem settled_hold (h : Settled c d m ss) {before : Sizes} {pending : State}
    (hplace : m.thread = .hold laid before pending) :
    Settled c { d with
        observations := truncated d.observations before.offset
        quarantine := truncated d.quarantine before.quarantine }
      { m with publishingUnits := 0, thread := .idle } ss := by
  have hfile := h.file
  have hobservations := h.observations
  have hquarantine := h.quarantine
  have hmeasured := h.measured
  rw [hplace] at hfile hobservations hquarantine hmeasured
  obtain rfl := hmeasured before rfl
  have hcut (file : Option Text) (n : ℕ) : content (truncated file n) = (content file).take n := by
    cases file with
    | none => exact List.take_nil.symm
    | some t => rfl
  have hsize (file : Option Text) (n k : ℕ) (hn : regularSize file = n + k) :
      regularSize (truncated file n) = n := by
    show (content (truncated file n)).length = n
    have hlength : (content file).length = n + k := hn
    rw [hcut, List.length_take]
    omega
  refine ⟨⟨?_, h.holds.index, trivial⟩, hfile, ?_, ?_, ?_, h.steady, trivial⟩
  · rw [hcut]
    exact h.holds.stands.take (Nat.le_refl _)
  · exact hsize d.observations _ _ hobservations
  · exact hsize d.quarantine _ _ hquarantine
  · exact fun b hb => nomatch hb

theorem settled_installed (h : Settled c d m ss) {pending : State}
    (hplace : m.thread = .install laid pending) :
    Settled c d (m.installed c laid pending) (ss ++ laid.semantics) := by
  have hthread := h.holds.thread
  have hfile := h.file
  have hobservations := h.observations
  have hquarantine := h.quarantine
  have hsound := h.sound
  rw [hplace] at hthread hfile hobservations hquarantine hsound
  obtain ⟨hlaid, hpending⟩ := hthread
  have hholds := holds_installed h.holds hlaid hpending
  have hlines := congrArg List.length (hlaid.lines_append h.holds.stands.seq)
  have hoffset : pending.durableOffset = _ := hpending.offset
  have hoffset' : m.state.durableOffset = _ := h.holds.stands.offset
  rw [List.length_append] at hlines
  have hsteady : (m.rememberAll c laid.observations m.state.durableOffset).state.storageFailure =
      false := by
    rw [rememberAll_eq laid.observations m m.state.durableOffset (m.state.durableSeq + 1)
      hlaid.records hlaid.lines, rememberLines_eq]
    exact h.steady
  have hwritten : regularSize d.observations =
      m.state.durableOffset + laid.observationBytes.length := hobservations
  refine ⟨hholds, hfile, ?_, ?_, fun b hb => (nomatch hb), hsteady, trivial⟩
  · show regularSize d.observations = pending.durableOffset + 0
    omega
  · show regularSize d.quarantine = pending.quarantineBytes + 0
    rw [Nat.add_zero, hsound.2]
    exact hquarantine

/-- **A piece of the publication thread** leaves what is durable alone, or installs a batch. -/
theorem settled_work (h : Settled c d m ss) :
    Settled c (work c {} d m).1 (work c {} d m).2 (ss ++ m.thread.installing) := by
  have hthread := h.holds.thread
  have hfile := h.file
  have hobservations := h.observations
  have hquarantine := h.quarantine
  have hmeasured := h.measured
  have hsound := h.sound
  have hnone (before : Sizes) (hb : before ∈ (none : Option Sizes)) :
      before = ⟨m.state.durableOffset, m.state.quarantineBytes⟩ := nomatch hb
  unfold work
  cases hplace : m.thread with
  | idle => exact .quiet (settled_takeBatch h hplace)
  | persistState =>
    rw [hplace] at hfile hobservations hquarantine
    exact .quiet ⟨⟨h.holds.stands, h.holds.index, ss, h.holds.stands⟩, hfile,
      hobservations, hquarantine, hnone, h.steady, h.steady, rfl⟩
  | writeState payload =>
    rw [hplace] at hobservations hquarantine hsound
    exact .quiet ⟨⟨h.holds.stands, h.holds.index, trivial⟩, ⟨payload, rfl, hsound.2, hsound.1⟩,
      hobservations, hquarantine, hnone, h.steady, trivial⟩
  | lay todo laid =>
    refine .quiet ?_
    cases todo with
    | cons i todo => exact settled_layItem h hplace
    | nil =>
      rw [hplace] at hthread hfile hobservations hquarantine
      exact ⟨⟨h.holds.stands, h.holds.index, hthread⟩, hfile,
        hobservations, hquarantine, hnone, h.steady, trivial⟩
  | measure laid =>
    rw [hplace] at hthread hfile hobservations hquarantine
    refine .quiet ?_
    have hoffset : m.state.durableOffset = regularSize d.observations := hobservations.symm
    have hbytes : m.state.quarantineBytes = regularSize d.quarantine := hquarantine.symm
    refine ⟨⟨h.holds.stands, h.holds.index, hthread, ?_, ?_⟩, hfile,
      hobservations, hquarantine, fun before hb => ?_, h.steady, trivial⟩
    · exact hoffset.le
    · intro st' hst'
      obtain ⟨st, hst, hwatermark, -⟩ := hfile
      obtain rfl : st = st' := StateFile.holds.inj (hst.symm.trans hst')
      rw [hwatermark]
      exact hoffset.le
    · obtain rfl := Option.some.inj hb
      show (⟨_, _⟩ : Sizes) = ⟨m.state.durableOffset, m.state.quarantineBytes⟩
      rw [hoffset, hbytes]
  | appendQuarantine laid before =>
    rw [hplace] at hthread hfile hobservations hquarantine hmeasured
    refine .quiet ?_
    dsimp only
    have hholds (d' : Disk) (hd : d'.observations = d.observations) (hd' : d'.state = d.state) :
        Holds c d' { m with thread := .appendObservations laid before } ss := by
      refine ⟨hd ▸ h.holds.stands, h.holds.index, hthread.1, hthread.2.1, fun st' hst' => ?_⟩
      exact hthread.2.2 st' (hd' ▸ hst')
    by_cases hnil : laid.quarantine = []
    · rw [if_pos hnil]
      refine ⟨hholds d rfl rfl, hfile, hobservations, ?_, hmeasured, h.steady, trivial⟩
      show regularSize d.quarantine = m.state.quarantineBytes + laid.quarantineBytes.length
      rw [Laid.quarantineBytes, hnil]
      exact hquarantine
    · rw [if_neg hnil]
      refine ⟨hholds _ rfl rfl, hfile, hobservations, ?_, hmeasured, h.steady, trivial⟩
      show (content d.quarantine ++ laid.quarantineBytes).length =
        m.state.quarantineBytes + laid.quarantineBytes.length
      have hend : (content d.quarantine).length = m.state.quarantineBytes := hquarantine
      rw [List.length_append, hend]
  | appendObservations laid before =>
    refine .quiet ?_
    dsimp only
    by_cases hnil : laid.observations = []
    · rw [if_pos hnil]
      rw [hplace] at hthread hfile hobservations hquarantine hmeasured
      have hsemantics : laid.semantics = [] := by rw [Laid.semantics, hnil, List.map_nil]
      refine ⟨⟨h.holds.stands, h.holds.index, hthread.1, hthread.2, ?_⟩,
        hfile, ?_, hquarantine, hmeasured, h.steady, trivial⟩
      · rw [hsemantics, List.append_nil]
        exact h.holds.stands.lines
      · show regularSize d.observations = m.state.durableOffset + laid.observationBytes.length
        rw [Laid.observationBytes, hnil]
        exact hobservations
    · rw [if_neg hnil]
      exact settled_appendObservations h hplace
  | failed laid =>
    rw [hplace] at hsound
    exact absurd hsound id
  | stage laid before =>
    rw [hplace] at hthread hfile hobservations hquarantine hmeasured
    refine .quiet ?_
    obtain ⟨hfailure', hbytes⟩ := pending_sound (c := c) (s := m.state) laid
    exact ⟨⟨h.holds.stands, h.holds.index, hthread.1, hthread.2.1,
        hthread.1.pending h.holds.stands hthread.2.2⟩, hfile,
      hobservations, hquarantine, hmeasured, h.steady, hfailure'.trans h.steady, hbytes⟩
  | hold laid before pending =>
    refine .quiet ?_
    dsimp only
    by_cases hstop : c.phaseHold = true ∧
      (laid.observations ≠ [] ∨ laid.quarantine ≠ []) ∧ m.stop = true
    · rw [if_pos hstop]
      exact settled_hold h hplace
    · rw [if_neg hstop]
      rw [hplace] at hthread hfile hobservations hquarantine hsound
      exact ⟨⟨h.holds.stands, h.holds.index, hthread.1, hthread.2.2⟩,
        hfile, hobservations, hquarantine, hnone, h.steady, hsound⟩
  | publish laid pending =>
    rw [hplace] at hthread hobservations hquarantine hsound
    exact .quiet ⟨⟨h.holds.stands, h.holds.index, hthread⟩, ⟨pending, rfl, rfl, hsound.1⟩,
      hobservations, hquarantine, hnone, h.steady, hsound⟩
  | install laid pending => exact settled_installed h hplace
  | done => exact .quiet h
  | dead =>
    rw [hplace] at hsound
    exact absurd hsound id

/-! ## The stop and the start -/

theorem settled_markClean (h : Settled c d m ss) :
    Settled c (markClean .ok d m).1 (markClean .ok d m).2 ss := by
  unfold markClean
  split_ifs with hended
  · have hk : m.Keeps (m.cleaned d) := ⟨rfl, rfl, rfl⟩
    have hs := h.keeps hk rfl
    have hreached : (m.cleaned d).thread.reached (m.cleaned d).state.watermark =
        (m.cleaned d).state.watermark := by
      rcases hended.2 with hplace | hplace <;> rw [hk.thread, hplace] <;> rfl
    have hthread : Tracks c { d with state := .holds (m.cleaned d).state }
        (m.cleaned d).state.watermark ss (m.cleaned d).thread := by
      rcases hended.2 with hplace | hplace <;> rw [hk.thread, hplace] <;> trivial
    exact ⟨⟨hs.holds.stands, hs.holds.index, hthread⟩, ⟨_, rfl, hreached.symm, hs.steady⟩,
      hs.observations, hs.quarantine, hs.measured, hs.steady, hs.sound⟩
  · exact h

/-- **What an undisturbed run leaves on the disk**: nothing before the first start, and then the
lines of the durable observations. -/
inductive Rests (c : Config) (d : Disk) (ss : List Semantic) : Prop where
  | new (hd : d = {}) (hss : ss = [])
  | left (st : State) (hst : d.state = .holds st)
    (hstands : Stands c (content d.observations) st.watermark ss)
    (hquarantine : st.quarantineBytes ≤ regularSize d.quarantine)
    (hsteady : st.storageFailure = false)

/-- The process of an undisturbed run may end at any moment. -/
theorem Settled.rests (h : Settled c d m ss) : Rests c d (ss ++ m.thread.installing) := by
  obtain ⟨st, hst, hwatermark, hfailure⟩ := h.file
  have hthread := h.holds.thread
  have hquarantine := h.quarantine
  have hsound := h.sound
  have hstay (hreached : st.watermark = m.state.watermark) : Rests c d (ss ++ []) := by
    rw [List.append_nil]
    refine .left st hst (hreached ▸ h.holds.stands) ?_ hfailure
    have hbytes : st.quarantineBytes = m.state.quarantineBytes :=
      congrArg Watermark.quarantineBytes hreached
    omega
  cases hplace : m.thread with
  | install laid pending =>
    rw [hplace] at hwatermark hthread hquarantine hsound
    refine .left st hst ?_ ?_ hfailure
    · rw [hwatermark]
      exact hthread.2
    · have hbytes : st.quarantineBytes = pending.quarantineBytes :=
        congrArg Watermark.quarantineBytes hwatermark
      rw [hbytes, hsound.2, hquarantine]
      exact Nat.le_refl _
  | _ =>
    rw [hplace] at hwatermark
    exact hstay hwatermark

/-- The memory of a start from what rests on the disk. -/
theorem settled_prepareServing {s : State} (hstands : Stands c (content d.observations) s.watermark ss)
    (hsteady : s.storageFailure = false)
    (hobservations : regularSize d.observations = s.durableOffset)
    (hquarantine : regularSize d.quarantine = s.quarantineBytes) :
    (prepareServing c d s none .ok).2 = some (Memory.rememberLines c 1 0 ss { state := s }) ∧
      Settled c (prepareServing c d s none .ok).1 (Memory.rememberLines c 1 0 ss { state := s })
        ss := by
  have hstands' : Stands c (content (prepareFiles d).observations) s.watermark ss := hstands
  have heq := rebuildIndex_eq hstands'
  have hrows := rememberLines_eq (c := c) 1 0 ss { state := s }
  have hstate : (Memory.rememberLines c 1 0 ss { state := s }).state = s := by rw [hrows]
  have hserving : prepareServing c d s none .ok =
      ({ prepareFiles d with state := .holds s },
        some (Memory.rememberLines c 1 0 ss { state := s })) := by
    have hserving' : prepareServing c d s none .ok =
        ({ prepareFiles d with
            state := .holds (rebuildIndex c (prepareFiles d).observations s).state },
          some (rebuildIndex c (prepareFiles d).observations s)) := rfl
    rw [hserving', heq, hstate]
  rw [hserving]
  refine ⟨rfl, ?_⟩
  rw [hrows]
  exact ⟨⟨hstands, List.nil_append _, trivial⟩, ⟨s, rfl, rfl, hsteady⟩, hobservations, hquarantine,
    fun b hb => (nomatch hb), hsteady, trivial⟩

/-- A file that is not short is cut to its watermark. -/
theorem reconcile_size {file : Option Text} {watermark : ℕ} (h : watermark ≤ regularSize file) :
    regularSize (reconcile file watermark).1 = watermark ∧
      (reconcile file watermark).2.2 = false := by
  cases file with
  | none =>
    have hzero : watermark = 0 := Nat.le_zero.mp h
    rw [hzero]
    exact ⟨rfl, rfl⟩
  | some t =>
    have hle : watermark ≤ t.length := h
    unfold reconcile
    dsimp only
    split_ifs with hlt
    · refine ⟨?_, rfl⟩
      show (t.take watermark).length = watermark
      rw [List.length_take]
      omega
    · refine ⟨?_, decide_eq_false (by omega)⟩
      show t.length = watermark
      omega

/-- **A start of an undisturbed run** remembers what is durable. -/
theorem settled_prepare (h : Rests c d ss) :
    ∃ st, (prepare c d none .ok).2 = some (Memory.rememberLines c 1 0 ss { state := st }) ∧
      Settled c (prepare c d none .ok).1 (Memory.rememberLines c 1 0 ss { state := st }) ss ∧
      ∀ previous, d.state = .holds previous →
        st.watermark = previous.watermark ∧ st.capacityStop = previous.capacityStop := by
  cases h with
  | new hd hss =>
    subst hd hss
    have hfresh : Stands c (content ({} : Disk).observations) ({} : State).watermark [] :=
      stands_fresh _
    obtain ⟨heq, hsettled⟩ := settled_prepareServing (d := {}) (s := {}) hfresh rfl rfl rfl
    exact ⟨{}, heq, hsettled, fun _ hst => nomatch hst⟩
  | left previous hst hstands hquarantine hsteady =>
    have hprepare : prepare c d none .ok = prepareLoaded c d previous none .ok := by
      unfold prepare
      rw [hst]
      rfl
    have hobservations := reconcile_size hstands.offset_le
    have hquarantine' := reconcile_size hquarantine
    have hstands' := reconcile_stands hstands
    rw [hprepare]
    obtain ⟨heq, hsettled⟩ := settled_prepareServing (c := c)
      (d := { d with
        observations := (reconcile d.observations previous.durableOffset).1
        quarantine := (reconcile d.quarantine previous.quarantineBytes).1 })
      (s := loadedState previous (reconcile d.observations previous.durableOffset).2.1
        (reconcile d.quarantine previous.quarantineBytes).2.1
        ((reconcile d.observations previous.durableOffset).2.2 ||
          (reconcile d.quarantine previous.quarantineBytes).2.2)) hstands'
      (by
        have hobservations' := hobservations.2
        show (previous.storageFailure || (_ || _)) = false
        rw [hsteady, hquarantine'.2, Bool.false_or, Bool.or_false]
        exact hobservations')
      hobservations.1 hquarantine'.1
    refine ⟨_, heq, hsettled, fun previous' hst' => ?_⟩
    obtain rfl : previous = previous' := StateFile.holds.inj (hst.symm.trans hst')
    exact ⟨rfl, rfl⟩

end Archive
end SemanticMemory
