import SemanticMemory.Archive.Settled
import SemanticMemory.Archive.Queues
import SemanticMemory.Lib.Register

/-!
# Capture identities

The collector's map of identities is a register of the observations that are queued, in a batch or
durable.  Admission and publication keep it in line with them; a start makes it again from the
durable records, and passes over the loss notices.

* `Knows` is the register's invariant, next to the observations that are durable and how many of
  them were so when the process was started.  A displacement or a refusal for capacity takes one
  observation out of the line and forgets it (`Drops`).
* `Census` follows a run and keeps what every item was answered.  `Contract` says of a census which
  durable records share an identity, what a repeated identity is answered, and that only admitted
  items become durable; `counted_run` holds it of every undisturbed run.
-/

namespace SemanticMemory
namespace Archive

variable {c : Config} {d : Disk} {m m' : Memory} {ss : List Semantic} {base : ℕ}

/-- An observation that a start passes over. -/
def IsNotice (s : Semantic) : Prop := s.kind = .lossNotice

instance : DecidablePred IsNotice := fun s => inferInstanceAs (Decidable (s.kind = .lossNotice))

/-- **The map of identities knows** what is live and what is durable. -/
abbrev Knows (c : Config) (m : Memory) (ss : List Semantic) (base : ℕ) : Prop :=
  Register.Known Semantic.identity (Semantic.contentHash c.sha256) IsNotice m.identities m.live ss
    base

/-- The map of identities knows nothing else. -/
abbrev KnowsOnly (c : Config) (m : Memory) (ss : List Semantic) (base : ℕ) : Prop :=
  Register.Exact Semantic.identity (Semantic.contentHash c.sha256) IsNotice m.identities m.live ss
    base

/-! ## Records that are remembered -/

theorem kind_json_inj {k k' : Kind} (h : k.json = k'.json) : k = k' := by
  revert h
  cases k <;> cases k' <;> decide

/-- The fields of a record by which its identity is known. -/
theorem record_gets (s : Semantic) (n : ℕ) :
    (record c.sha256 s n).get "content_hash" = .str (s.contentHash c.sha256) ∧
      (record c.sha256 s n).get "observation_kind" = s.kind.json := by
  constructor <;>
    simp (disch := decide) only [record, List.append_assoc, List.cons_append, List.nil_append,
      get_item_self, get_item_of_ne, get_optionalItem_of_ne]

/-- A record is remembered by its identity and content hash, unless it is a loss notice. -/
theorem remembered_record (hsha : ∀ t, c.sha256 t ≠ []) (s : Semantic) (n : ℕ) :
    remembered (record c.sha256 s n) =
      if IsNotice s then none else some (s.identity, s.contentHash c.sha256) := by
  obtain ⟨hhash, hkind⟩ := record_gets (c := c) s n
  rw [remembered, identityOf_record, hhash]
  dsimp only
  rw [hkind]
  by_cases hs : IsNotice s
  · have hjson : s.kind.json = Kind.lossNotice.json := congrArg Kind.json hs
    rw [if_pos hs, if_neg fun h => h.2 hjson]
  · rw [if_neg hs, if_pos ⟨hsha _, fun h => hs (kind_json_inj h)⟩]

theorem rememberLines_identities (hsha : ∀ t, c.sha256 t ≠ []) (n offset : ℕ)
    (ss : List Semantic) (m : Memory) :
    (m.rememberLines c n offset ss).identities = Register.rebuiltFrom Semantic.identity
      (Semantic.contentHash c.sha256) IsNotice m.identities ss := by
  induction ss generalizing n offset m with
  | nil => rfl
  | cons s ss ih =>
    rw [Memory.rememberLines, ih, Register.rebuiltFrom]
    congr 1
    unfold Memory.remember
    rw [remembered_record hsha]
    split_ifs <;> rfl

/-! ## What leaves the line -/

/-- At most one observation leaves the line, and is forgotten. -/
inductive Drops (m m' : Memory) : Prop where
  | none (hids : m'.identities = m.identities) (hlive : m'.live = m.live)
  | one (xs ys : List Semantic) (s : Semantic) (hlive : m.live = xs ++ s :: ys)
    (hlive' : m'.live = xs ++ ys)
    (hids : m'.identities = Function.update m.identities s.identity none)

theorem Drops.knows (h : Drops m m') (hm : Knows c m ss base) : Knows c m' ss base := by
  cases h with
  | none hids hlive =>
    unfold Knows
    rw [hids, hlive]
    exact hm
  | one xs ys s hlive hlive' hids =>
    unfold Knows at hm ⊢
    rw [hlive] at hm
    rw [hids, hlive']
    exact hm.remove

theorem Drops.knowsOnly (h : Drops m m') (hm : KnowsOnly c m ss base) :
    KnowsOnly c m' ss base := by
  cases h with
  | none hids hlive =>
    unfold KnowsOnly
    rw [hids, hlive]
    exact hm
  | one xs ys s hlive hlive' hids =>
    unfold KnowsOnly at hm ⊢
    rw [hlive] at hm
    rw [hids, hlive']
    exact hm.remove

theorem Drops.unknown (h : Drops m m') {i : Identity} (hi : m.identities i = Option.none) :
    m'.identities i = Option.none := by
  cases h with
  | none hids hlive => rw [hids, hi]
  | one xs ys s hlive hlive' hids =>
    rw [hids, Function.update_apply]
    split_ifs
    · rfl
    · exact hi

theorem Drops.subset (h : Drops m m') : m'.live ⊆ m.live := by
  cases h with
  | none hids hlive => exact hlive ▸ List.Subset.refl _
  | one xs ys s hlive hlive' hids =>
    rw [hlive, hlive']
    exact (List.sublist_cons_self s ys).append_left xs |>.subset

/-! ### Admission -/

theorem drops_displace {index : ℕ} (h : m.queue.findIdx? Memory.displaceable = some index) :
    Drops m (m.displace index) := by
  obtain ⟨old, hget, hquarantine, hsplit, herase⟩ := original_of_displaceable h
  unfold Memory.displace
  rw [hget]
  dsimp only
  rw [hquarantine, if_neg Bool.false_ne_true]
  refine .one (m.thread.inFlight ++ original (m.queue.take index))
    (original (m.queue.drop (index + 1))) old.semantic ?_ ?_ rfl
  · show m.thread.inFlight ++ original m.queue = _
    rw [hsplit, List.append_assoc]
  · show m.thread.inFlight ++ original (m.queue.eraseIdx index) = _
    rw [herase, List.append_assoc]

/-- **What `_queue_locked` does**: nothing, or the item goes to the end of the queue once at most one
observation is displaced. -/
theorem queueLocked_cases (c : Config) (m : Memory) (i : Item) :
    m.queueLocked c i = (m, false) ∨ ∃ m', Drops m m' ∧ m'.thread = m.thread ∧
      m.queueLocked c i = (m'.enqueue i, true) := by
  unfold Memory.queueLocked
  split_ifs
  · exact Or.inr ⟨m, .none rfl rfl, rfl, rfl⟩
  · cases hindex : m.queue.findIdx? Memory.displaceable with
    | none => exact Or.inl rfl
    | some index =>
      exact Or.inr ⟨_, drops_displace hindex, (keeps_displace m index).thread, rfl⟩
  · exact Or.inl rfl

theorem live_enqueue_quarantine (m : Memory) (s : Semantic) (size : ℕ) :
    (m.enqueue ⟨s, size, true⟩).live = m.live := by
  show m.thread.inFlight ++ original (m.queue ++ [⟨s, size, true⟩]) = m.live
  rw [original_append]
  show m.thread.inFlight ++ (original m.queue ++ []) = _
  rw [List.append_nil, Memory.live]

theorem live_enqueue (m : Memory) (s : Semantic) (size : ℕ) :
    (m.enqueue ⟨s, size, false⟩).live = m.live ++ [s] := by
  show m.thread.inFlight ++ original (m.queue ++ [⟨s, size, false⟩]) = _
  rw [original_append, ← List.append_assoc]
  rfl

/-- **What an admission does** to the line and the identities: an admitted item joins, once at most
one observation is displaced; any other answer adds nothing. -/
theorem acceptOne_cases (c : Config) (g : Gate) (m : Memory) (s : Semantic) :
    ((acceptOne c g m s).2 ≠ .admitted ∧ Drops m (acceptOne c g m s).1) ∨
      ((acceptOne c g m s).2 = .admitted ∧ m.identities s.identity = none ∧ ∃ m', Drops m m' ∧
        (acceptOne c g m s).1.live = m'.live ++ [s] ∧
        (acceptOne c g m s).1.identities =
          Function.update m'.identities s.identity (some (s.contentHash c.sha256))) := by
  unfold acceptOne
  split_ifs
  · exact Or.inl ⟨nofun, .none rfl rfl⟩
  · exact Or.inl ⟨nofun, .none rfl rfl⟩
  · exact Or.inl ⟨nofun, .none rfl rfl⟩
  · exact Or.inl ⟨nofun, .none rfl rfl⟩
  · exact Or.inl ⟨nofun, .none rfl rfl⟩
  · exact Or.inl ⟨nofun, .none rfl rfl⟩
  · cases hknown : m.identities s.identity with
    | some previous =>
      dsimp only
      by_cases hsame : previous = s.contentHash c.sha256
      · rw [if_pos hsame]
        exact Or.inl ⟨nofun, .none rfl rfl⟩
      · rw [if_neg hsame]
        have hcount : Drops m m.countConflict := .none rfl rfl
        rcases queueLocked_cases c m.countConflict ⟨s, s.size, true⟩ with hq | ⟨m', hdrops, -, hq⟩
        · rw [hq]
          exact Or.inl ⟨nofun, hcount⟩
        · rw [hq]
          refine Or.inl ⟨nofun, ?_⟩
          cases hdrops with
          | none hids hlive =>
            exact .none hids ((live_enqueue_quarantine m' s s.size).trans hlive)
          | one xs ys s' hlive hlive' hids =>
            exact .one xs ys s' hlive ((live_enqueue_quarantine m' s s.size).trans hlive') hids
    | none =>
      dsimp only
      rcases queueLocked_cases c m ⟨s, s.size, false⟩ with hq | ⟨m', hdrops, -, hq⟩
      · rw [hq]
        exact Or.inl ⟨nofun, .none rfl rfl⟩
      · rw [hq]
        exact Or.inr ⟨rfl, rfl, m', hdrops, live_enqueue m' s s.size, rfl⟩

theorem Knows.accept (h : Knows c m ss base) (g : Gate) (s : Semantic) :
    Knows c (acceptOne c g m s).1 ss base := by
  rcases acceptOne_cases c g m s with ⟨-, hdrops⟩ | ⟨-, hnone, m', hdrops, hlive, hids⟩
  · exact hdrops.knows h
  · unfold Knows
    rw [hlive, hids]
    exact (hdrops.knows h).add (hdrops.unknown hnone)

theorem KnowsOnly.accept (h : KnowsOnly c m ss base) (g : Gate) (s : Semantic) :
    KnowsOnly c (acceptOne c g m s).1 ss base := by
  rcases acceptOne_cases c g m s with ⟨-, hdrops⟩ | ⟨-, hnone, m', hdrops, hlive, hids⟩
  · exact hdrops.knowsOnly h
  · unfold KnowsOnly
    rw [hlive, hids]
    exact (hdrops.knowsOnly h).add s

/-! ### The publication thread -/

theorem drops_takeBatch (c : Config) (hidle : m.thread = .idle) : Drops m (m.takeBatch c) := by
  have hlive : m.live = original m.queue := by rw [Memory.live, hidle]; rfl
  unfold Memory.takeBatch
  split_ifs
  · refine .none rfl ?_
    rw [hlive]
    rfl
  · exact .none rfl rfl
  · refine .none rfl ?_
    rw [hlive]
    unfold Memory.answered Memory.live
    cases m.waiters <;> rfl
  · refine .none rfl ?_
    rw [hlive]
    show ([] ++ original (m.queue.take _)) ++ original (m.queue.drop _) = _
    rw [List.nil_append, ← original_append, List.take_append_drop]

theorem drops_layItem {i : Item} {todo : List Item} {laid : Laid}
    (hlay : m.thread = .lay (i :: todo) laid) : Drops m (m.layItem c i todo laid) := by
  have hlive : m.live = laid.semantics ++ original (i :: todo) ++ original m.queue := by
    rw [Memory.live, hlay]
    rfl
  have hcons := original_cons i todo
  unfold Memory.layItem
  dsimp only
  split_ifs with hquarantine hfull hfull
  · refine .none rfl ?_
    rw [hlive, hcons, if_pos hquarantine]
    rfl
  · refine .none rfl ?_
    rw [hlive, hcons, if_pos hquarantine]
    rfl
  · refine .one laid.semantics (original todo ++ original m.queue) i.semantic ?_ ?_ rfl
    · rw [hlive, hcons, if_neg hquarantine, List.append_assoc]
      rfl
    · exact List.append_assoc _ _ _
  · refine .none rfl ?_
    rw [hlive, hcons, if_neg hquarantine]
    show (laid.observations ++ [(_ : ObservationLine)]).map (fun o => o.item.semantic) ++
      original todo ++ original m.queue = _
    rw [List.map_append, List.append_assoc (laid.observations.map fun o => o.item.semantic)]
    rfl

/-- **What an undisturbed piece of the publication thread does** to the line and the identities: at
most one observation is dropped, or a batch is installed, or a held batch is given up by a stop. -/
theorem work_cases (h : Settled c d m ss) :
    (m.thread.installing = [] ∧ Drops m (work c {} d m).2) ∨
      (∃ laid pending, m.thread = .install laid pending ∧
        (work c {} d m).2 = m.installed c laid pending) ∨
      (c.phaseHold = true ∧ m.stop = true ∧ m.thread.installing = [] ∧
        (work c {} d m).2.identities = m.identities ∧
        (work c {} d m).2.live = original m.queue) := by
  have hsound := h.sound
  have hsame (m' : Memory) (hids : m'.identities = m.identities) (hqueue : m'.queue = m.queue)
      (hflight : m'.thread.inFlight = m.thread.inFlight) : Drops m m' := by
    refine .none hids ?_
    rw [Memory.live, hqueue, hflight, Memory.live]
  unfold work
  cases hplace : m.thread with
  | idle => exact Or.inl ⟨rfl, drops_takeBatch c hplace⟩
  | persistState => exact Or.inl ⟨rfl, hsame _ rfl rfl (by rw [hplace]; rfl)⟩
  | writeState payload => exact Or.inl ⟨rfl, hsame _ rfl rfl (by rw [hplace]; rfl)⟩
  | lay todo laid =>
    cases todo with
    | nil => exact Or.inl ⟨rfl, hsame _ rfl rfl (by rw [hplace]; exact (List.append_nil _).symm)⟩
    | cons i todo => exact Or.inl ⟨rfl, drops_layItem hplace⟩
  | measure laid => exact Or.inl ⟨rfl, hsame _ rfl rfl (by rw [hplace]; rfl)⟩
  | appendQuarantine laid before =>
    refine Or.inl ⟨rfl, ?_⟩
    dsimp only
    by_cases hnil : laid.quarantine = []
    · rw [if_pos hnil]
      exact hsame _ rfl rfl (by rw [hplace]; rfl)
    · rw [if_neg hnil]
      exact hsame _ rfl rfl (by rw [hplace]; rfl)
  | appendObservations laid before =>
    refine Or.inl ⟨rfl, ?_⟩
    dsimp only
    by_cases hnil : laid.observations = []
    · rw [if_pos hnil]
      exact hsame _ rfl rfl (by rw [hplace]; rfl)
    · rw [if_neg hnil]
      exact hsame _ rfl rfl (by rw [hplace]; rfl)
  | stage laid before => exact Or.inl ⟨rfl, hsame _ rfl rfl (by rw [hplace]; rfl)⟩
  | hold laid before pending =>
    dsimp only
    by_cases hstop : c.phaseHold = true ∧
      (laid.observations ≠ [] ∨ laid.quarantine ≠ []) ∧ m.stop = true
    · rw [if_pos hstop]
      exact Or.inr (Or.inr ⟨hstop.1, hstop.2.2, rfl, rfl, rfl⟩)
    · rw [if_neg hstop]
      exact Or.inl ⟨rfl, hsame _ rfl rfl (by rw [hplace]; rfl)⟩
  | publish laid pending => exact Or.inl ⟨rfl, hsame _ rfl rfl (by rw [hplace]; rfl)⟩
  | install laid pending => exact Or.inr (Or.inl ⟨laid, pending, rfl, rfl⟩)
  | done => exact Or.inl ⟨rfl, .none rfl rfl⟩
  | failed laid =>
    rw [hplace] at hsound
    exact absurd hsound id
  | dead =>
    rw [hplace] at hsound
    exact absurd hsound id

/-- An installed batch leaves the line; its identities are known already. -/
theorem installed_live (hsha : ∀ t, c.sha256 t ≠ []) (h : Settled c d m ss)
    (hknows : Knows c m ss base) {laid : Laid} {pending : State}
    (hplace : m.thread = .install laid pending) :
    m.live = laid.semantics ++ original m.queue ∧
      (m.installed c laid pending).live = original m.queue ∧
      (m.installed c laid pending).identities = m.identities := by
  have hthread := h.holds.thread
  rw [hplace] at hthread
  have hlive : m.live = laid.semantics ++ original m.queue := by rw [Memory.live, hplace]; rfl
  have hremember := rememberAll_eq laid.observations m m.state.durableOffset
    (m.state.durableSeq + 1) hthread.1.records hthread.1.lines
  refine ⟨hlive, ?_, ?_⟩
  · show [] ++ original (m.rememberAll c laid.observations m.state.durableOffset).queue = _
    rw [hremember, rememberLines_eq]
    rfl
  · show (m.rememberAll c laid.observations m.state.durableOffset).identities = _
    rw [hremember, rememberLines_identities hsha]
    refine Register.rebuiltFrom_of_known fun s hs => hknows.ofLive s ?_
    rw [hlive]
    exact List.mem_append_left _ hs

theorem Knows.work (hsha : ∀ t, c.sha256 t ≠ []) (h : Settled c d m ss)
    (hknows : Knows c m ss base) :
    Knows c (work c {} d m).2 (ss ++ m.thread.installing) base := by
  rcases work_cases h with ⟨hnone, hdrops⟩ | ⟨laid, pending, hplace, hwork⟩ |
    ⟨-, -, hnone, hids, hlive⟩
  · rw [hnone, List.append_nil]
    exact hdrops.knows hknows
  · obtain ⟨hlive, hlive', hids⟩ := installed_live hsha h hknows hplace
    rw [hwork, hplace]
    unfold Knows at hknows ⊢
    rw [hlive] at hknows
    rw [hlive', hids]
    exact hknows.publish
  · rw [hnone, List.append_nil]
    unfold Knows
    rw [hids, hlive]
    exact hknows.sublist (List.sublist_append_right _ _)

theorem KnowsOnly.work (hsha : ∀ t, c.sha256 t ≠ []) (h : Settled c d m ss)
    (hknows : Knows c m ss base) (honly : KnowsOnly c m ss base) (hbase : base ≤ ss.length)
    (hhold : c.phaseHold = false) :
    KnowsOnly c (Archive.work c {} d m).2 (ss ++ m.thread.installing) base := by
  rcases work_cases h with ⟨hnone, hdrops⟩ | ⟨laid, pending, hplace, hwork⟩ | ⟨hhold', -⟩
  · rw [hnone, List.append_nil]
    exact hdrops.knowsOnly honly
  · obtain ⟨hlive, hlive', hids⟩ := installed_live hsha h hknows hplace
    rw [hwork, hplace]
    unfold KnowsOnly at honly ⊢
    rw [hlive] at honly
    rw [hlive', hids]
    exact honly.publish hbase
  · rw [hhold] at hhold'
    cases hhold'

/-- What is live after a piece of the publication thread was so before, and what it installs too. -/
theorem work_subset (h : Settled c d m ss) :
    (Archive.work c {} d m).2.live ⊆ m.live ∧ m.thread.installing ⊆ m.live := by
  rcases work_cases h with ⟨hnone, hdrops⟩ | ⟨laid, pending, hplace, hwork⟩ |
    ⟨-, -, hnone, -, hlive⟩
  · exact ⟨hdrops.subset, hnone ▸ List.nil_subset _⟩
  · have hthread := h.holds.thread
    rw [hplace] at hthread
    have hlive : m.live = laid.semantics ++ original m.queue := by rw [Memory.live, hplace]; rfl
    have hlive' : (m.installed c laid pending).live = original m.queue := by
      show [] ++ original (m.rememberAll c laid.observations m.state.durableOffset).queue = _
      rw [rememberAll_eq laid.observations m m.state.durableOffset (m.state.durableSeq + 1)
        hthread.1.records hthread.1.lines, rememberLines_eq]
      rfl
    rw [hwork, hlive', hlive, hplace]
    exact ⟨List.subset_append_right _ _, List.subset_append_left _ _⟩
  · rw [hlive, hnone, Memory.live]
    exact ⟨List.subset_append_right _ _, List.nil_subset _⟩

/-! ## A census of a run -/

/-- A run, followed together with what its items were answered. -/
structure Census where
  world : World := {}
  /-- How many records were durable when the last process was started. -/
  base : ℕ := 0
  answers : List (Semantic × Code) := []

/-- How many records the state file says are durable. -/
def Disk.durableSeq (d : Disk) : ℕ :=
  match d.state with
  | .holds st => st.durableSeq
  | _ => 0

/-- What an item is answered, if a process runs. -/
def World.answers (c : Config) (w : World) : Action → List (Semantic × Code)
  | .admitItem gate s =>
    match w.process with
    | some m => [(s, (acceptOne c gate m s).2)]
    | none => []
  | _ => []

/-- How many records were durable when the process was started that runs after an action. -/
def Census.nextBase (x : Census) : Action → ℕ
  | .start .. =>
    match x.world.process with
    | none => x.world.disk.durableSeq
    | some _ => x.base
  | _ => x.base

def Census.step (c : Config) (x : Census) (a : Action) : Census where
  world := Archive.step c x.world a
  base := x.nextBase a
  answers := x.answers ++ x.world.answers c a

/-- Two durable records share an identity only if the earlier one is a loss notice that was durable
when the process was started. -/
def Apart (base : ℕ) (ss : List Semantic) : Prop :=
  ∀ i j s s', ss[i]? = some s → ss[j]? = some s' → i < j → s.identity = s'.identity →
    s.kind = .lossNotice ∧ i < base

/-- An observation is live, or durable and no loss notice from before the start. -/
def Taken (m : Memory) (ss : List Semantic) (base : ℕ) (s : Semantic) : Prop :=
  s ∈ m.live ∨ ∃ i, ss[i]? = some s ∧ (s.kind ≠ .lossNotice ∨ base ≤ i)

/-- What an item is answered that bears the identity of a taken observation, unless it is too large
or the capacity is exhausted. -/
def Recognizes (c : Config) (m : Memory) (ss : List Semantic) (base : ℕ) : Prop :=
  ∀ s s', Taken m ss base s' → s'.identity = s.identity → s.size ≤ c.limits.maxEventBytes →
    m.state.capacityStop = false →
      (s.contentHash c.sha256 = s'.contentHash c.sha256 → acceptOne c {} m s = (m, .duplicate)) ∧
      (s.contentHash c.sha256 ≠ s'.contentHash c.sha256 →
        ((acceptOne c {} m s).2 = .identityConflict ∨
          (acceptOne c {} m s).2 = .queueSaturated) ∧ (acceptOne c {} m s).1.live ⊆ m.live)

/-- **The identity contract** of a census: the durable records that `state.json` counts are admitted
items and apart, and the process recognizes what is taken. -/
structure Contract (c : Config) (x : Census) : Prop where
  file : ∀ st, x.world.disk.state = .holds st → ∃ ss,
    Exact c (content x.world.disk.observations) st ss ∧ Apart x.base ss ∧
      ∀ s ∈ ss, (s, Code.admitted) ∈ x.answers
  process : ∀ m, x.world.process = some m → ∃ ss,
    Exact c (content x.world.disk.observations) m.state ss ∧ Apart x.base ss ∧
      (∀ s ∈ m.live ++ ss, (s, Code.admitted) ∈ x.answers) ∧ Recognizes c m ss x.base

/-! ### What one step keeps -/

theorem Rests.exact (h : Rests c d ss) {st : State} (hst : d.state = .holds st) :
    Exact c (content d.observations) st ss := by
  cases h with
  | new hd hss =>
    rw [hd] at hst
    cases hst
  | left st' hst' hstands =>
    obtain rfl : st' = st := StateFile.holds.inj (hst'.symm.trans hst)
    exact hstands.exact

theorem apart_of_known {map : Identity → Option Str} {live : List Semantic}
    (h : Register.Known Semantic.identity (Semantic.contentHash c.sha256) IsNotice map live ss
      base) : Apart base ss := by
  intro i j s s' hs hs' hij heq
  have hnot := h.unique i j s s' hs hs' hij heq
  rw [Register.Counts, not_or, not_not] at hnot
  exact ⟨hnot.1, Nat.lt_of_not_le hnot.2⟩

theorem Knows.taken (h : Knows c m ss base) {s : Semantic} (hs : Taken m ss base s) :
    m.identities s.identity = some (s.contentHash c.sha256) := by
  rcases hs with hs | ⟨i, hi, hcounts⟩
  · exact h.ofLive s hs
  · exact h.ofLog i s hi hcounts

/-- **Whoever knows recognizes.** -/
theorem Knows.recognizes (h : Knows c m ss base) (hsteady : m.state.storageFailure = false) :
    Recognizes c m ss base := by
  intro s s' htaken hidentity hsize hcapacity
  have hknown := h.taken htaken
  rw [hidentity] at hknown
  have hopen : acceptOne c {} m s =
      if s'.contentHash c.sha256 = s.contentHash c.sha256 then (m, .duplicate)
      else ((m.countConflict.queueLocked c ⟨s, s.size, true⟩).1,
        if (m.countConflict.queueLocked c ⟨s, s.size, true⟩).2 then .identityConflict
        else .queueSaturated) := by
    unfold acceptOne
    rw [if_neg (Nat.not_lt.mpr hsize), if_neg Bool.false_ne_true, if_neg (by decide), hsteady,
      if_neg Bool.false_ne_true, hcapacity, if_neg Bool.false_ne_true, Bool.not_true,
      Bool.and_false, if_neg Bool.false_ne_true, hknown]
  refine ⟨fun hsame => ?_, fun hdiffers => ?_⟩
  · rw [hopen, if_pos hsame.symm]
  · have hcode : (acceptOne c {} m s).2 = .identityConflict ∨
        (acceptOne c {} m s).2 = .queueSaturated := by
      rw [hopen, if_neg fun heq => hdiffers heq.symm]
      dsimp only
      split_ifs
      · exact Or.inl rfl
      · exact Or.inr rfl
    refine ⟨hcode, ?_⟩
    rcases acceptOne_cases c {} m s with ⟨-, hdrops⟩ | ⟨hadmitted, -⟩
    · exact hdrops.subset
    · rw [hadmitted] at hcode
      rcases hcode with hcode | hcode <;> cases hcode

/-- What an undisturbed run keeps of a census. -/
inductive Counted (c : Config) (x : Census) : Prop where
  | down (ss : List Semantic) (map : Identity → Option Str) (hprocess : x.world.process = none)
    (hrests : Rests c x.world.disk ss)
    (hknown : Register.Known Semantic.identity (Semantic.contentHash c.sha256) IsNotice map [] ss
      x.base) (hanswers : ∀ s ∈ ss, (s, Code.admitted) ∈ x.answers)
  | up (m : Memory) (ss : List Semantic) (hprocess : x.world.process = some m)
    (hsettled : Settled c x.world.disk m ss) (hknows : Knows c m ss x.base)
    (hanswers : ∀ s ∈ m.live ++ ss, (s, Code.admitted) ∈ x.answers)

/-- What is on the disk of a running process. -/
theorem known_rests (hknows : Knows c m ss base) :
    Register.Known Semantic.identity (Semantic.contentHash c.sha256) IsNotice m.identities []
      (ss ++ m.thread.installing) base := by
  have hdrop (ss' : List Semantic) (live : List Semantic) (h : Register.Known Semantic.identity
      (Semantic.contentHash c.sha256) IsNotice m.identities live ss' base) :
      Register.Known Semantic.identity (Semantic.contentHash c.sha256) IsNotice m.identities []
        ss' base := h.sublist (List.nil_sublist live)
  cases hplace : m.thread with
  | install laid pending =>
    have hlive : m.live = laid.semantics ++ original m.queue := by rw [Memory.live, hplace]; rfl
    unfold Knows at hknows
    rw [hlive] at hknows
    exact hdrop _ _ hknows.publish
  | _ =>
    show Register.Known _ _ _ _ [] (ss ++ []) base
    rw [List.append_nil]
    exact hdrop _ _ hknows

theorem Counted.contract {x : Census} (h : Counted c x) : Contract c x := by
  cases h with
  | down ss map hprocess hrests hknown hanswers =>
    refine ⟨fun st hst => ⟨ss, hrests.exact hst, apart_of_known hknown, hanswers⟩, fun m hm => ?_⟩
    rw [hprocess] at hm
    cases hm
  | up m ss hprocess hsettled hknows hanswers =>
    refine ⟨fun st hst => ?_, fun m' hm' => ?_⟩
    · refine ⟨_, hsettled.rests.exact hst, apart_of_known (known_rests hknows),
        fun s hs => hanswers s ?_⟩
      rcases List.mem_append.mp hs with hs | hs
      · exact List.mem_append_right _ hs
      · exact List.mem_append_left _ ((work_subset hsettled).2 hs)
    · obtain rfl : m = m' := Option.some.inj (hprocess.symm.trans hm')
      exact ⟨ss, hsettled.holds.stands.exact, apart_of_known hknows, hanswers,
        hknows.recognizes hsettled.steady⟩

/-- A step of the process that changes neither the line nor the identities. -/
theorem Counted.same {x x' : Census} {n : Memory} (hsettled : Settled c x'.world.disk n ss)
    (hknows : Knows c m ss x.base) (hanswers : ∀ s ∈ m.live ++ ss, (s, Code.admitted) ∈ x.answers)
    (hprocess : x'.world.process = some n) (hbase : x'.base = x.base)
    (hsub : x.answers ⊆ x'.answers) (hids : n.identities = m.identities)
    (hlive : n.live = m.live) : Counted c x' := by
  refine .up n ss hprocess hsettled ?_ fun s hs => hsub (hanswers s (hlive ▸ hs))
  unfold Knows
  rw [hids, hlive, hbase]
  exact hknows

/-- Without a process only a start changes anything. -/
theorem step_down {w : World} (h : w.process = none) (a : Action)
    (ha : ∀ halt write, a ≠ .start halt write) : Archive.step c w a = w := by
  cases a with
  | start halt write => exact absurd rfl (ha halt write)
  | crash =>
    obtain ⟨d, process⟩ := w
    cases h
    rfl
  | _ => simp only [Archive.step, World.serve, h]

/-- **One undisturbed step.** -/
theorem counted_step (hsha : ∀ t, c.sha256 t ≠ []) {x : Census} (h : Counted c x) (a : Action)
    (ha : a.Undisturbed) : Counted c (x.step c a) := by
  have hsub : x.answers ⊆ (x.step c a).answers := List.subset_append_left _ _
  cases h with
  | down ss map hprocess hrests hknown hanswers =>
    have hidle (hworld : Archive.step c x.world a = x.world) (hbase : x.nextBase a = x.base) :
        Counted c (x.step c a) := by
      have hworld : (x.step c a).world = x.world := hworld
      have hbase : (x.step c a).base = x.base := hbase
      refine .down ss map (hworld ▸ hprocess) (hworld ▸ hrests) ?_ fun s hs => hsub (hanswers s hs)
      rw [hbase]
      exact hknown
    cases a with
    | start halt write =>
      obtain ⟨rfl, rfl⟩ := ha
      obtain ⟨st, hmemory, hsettled, -⟩ := settled_prepare hrests
      have hworld : (x.step c (.start none .ok)).world =
          ⟨(prepare c x.world.disk none .ok).1, (prepare c x.world.disk none .ok).2⟩ := by
        show Archive.step c x.world (.start none .ok) = _
        rw [Archive.step, hprocess]
      have hbase : (x.step c (.start none .ok)).base = ss.length := by
        show x.nextBase (.start none .ok) = _
        rw [Census.nextBase, hprocess]
        dsimp only
        cases hrests with
        | new hd hss => rw [hd, hss]; rfl
        | left st' hst' hstands => rw [Disk.durableSeq, hst']; exact hstands.seq
      have hrows := rememberLines_eq (c := c) 1 0 ss { state := st }
      have hlive : (Memory.rememberLines c 1 0 ss { state := st }).live = [] := by rw [hrows]; rfl
      refine .up _ ss (by rw [hworld]; exact hmemory) (by rw [hworld]; exact hsettled) ?_ ?_
      · unfold Knows
        rw [hlive, hbase, rememberLines_identities hsha]
        exact hknown.rebuild
      · rw [hlive]
        exact fun s hs => hsub (hanswers s hs)
    | _ => exact hidle (step_down hprocess _ fun _ _ h => nomatch h) rfl
  | up m ss hprocess hsettled hknows hanswers =>
    have hserve (f : Disk → Memory → Disk × Memory) : x.world.serve f =
        ⟨(f x.world.disk m).1, some (f x.world.disk m).2⟩ := by
      rw [World.serve, hprocess]
    have hmemory (f : Memory → Memory) (hworld : Archive.step c x.world a =
        x.world.serve fun d m => (d, f m)) (hbase : x.nextBase a = x.base)
        (hk : m.Keeps (f m)) (hfailure : (f m).state.storageFailure = m.state.storageFailure)
        (hids : (f m).identities = m.identities) (hqueue : (f m).queue = m.queue) :
        Counted c (x.step c a) := by
      have hworld : (x.step c a).world = ⟨x.world.disk, some (f m)⟩ := hworld.trans (hserve _)
      have hlive : (f m).live = m.live := by rw [Memory.live, hk.thread, hqueue, Memory.live]
      refine Counted.same (n := f m) ?_ hknows hanswers (by rw [hworld]) hbase hsub hids hlive
      rw [hworld]
      exact hsettled.keeps hk hfailure
    cases a with
    | start halt write =>
      have hworld : (x.step c (.start halt write)).world = x.world := by
        show Archive.step c x.world (.start halt write) = _
        rw [Archive.step, hprocess]
      refine Counted.same (n := m) (hworld ▸ hsettled) hknows hanswers (hworld ▸ hprocess) ?_ hsub
        rfl rfl
      show x.nextBase (.start halt write) = _
      rw [Census.nextBase, hprocess]
    | crash =>
      refine .down (ss ++ m.thread.installing) m.identities rfl hsettled.rests
        (known_rests hknows) fun s hs => hsub (hanswers s ?_)
      rcases List.mem_append.mp hs with hs | hs
      · exact List.mem_append_right _ hs
      · exact List.mem_append_left _ ((work_subset hsettled).2 hs)
    | admitItem gate s =>
      have hworld : (x.step c (.admitItem gate s)).world =
          ⟨x.world.disk, some (acceptOne c gate m s).1⟩ :=
        hserve fun d m => (d, (acceptOne c gate m s).1)
      have hnew : (x.step c (.admitItem gate s)).answers =
          x.answers ++ [(s, (acceptOne c gate m s).2)] := by
        show x.answers ++ x.world.answers c _ = _
        rw [World.answers, hprocess]
      refine .up _ ss (by rw [hworld]) (by rw [hworld]; exact hsettled.accept gate s)
        (hknows.accept gate s) fun s' hs' => ?_
      rcases List.mem_append.mp hs' with hs' | hs'
      · rcases acceptOne_cases c gate m s with ⟨-, hdrops⟩ | ⟨hcode, -, m', hdrops, hlive, -⟩
        · exact hsub (hanswers s' (List.mem_append_left _ (hdrops.subset hs')))
        · rw [hlive] at hs'
          rcases List.mem_append.mp hs' with hs' | hs'
          · exact hsub (hanswers s' (List.mem_append_left _ (hdrops.subset hs')))
          · rw [hnew, List.mem_singleton.mp hs', hcode]
            exact List.mem_append_right _ (List.mem_singleton_self _)
      · exact hsub (hanswers s' (List.mem_append_right _ hs'))
    | refuse => exact hmemory _ rfl rfl ⟨rfl, rfl, rfl⟩ rfl rfl rfl
    | checkpoint waiter => exact hmemory _ rfl rfl ⟨rfl, rfl, rfl⟩ rfl rfl rfl
    | policyFailure => exact absurd ha id
    | stop => exact hmemory _ rfl rfl ⟨rfl, rfl, rfl⟩ rfl rfl rfl
    | work env =>
      obtain rfl : env = {} := ha
      have hworld : (x.step c (.work {})).world =
          ⟨(work c {} x.world.disk m).1, some (work c {} x.world.disk m).2⟩ := hserve (work c {})
      have hsubset := work_subset hsettled
      refine .up _ (ss ++ m.thread.installing) (by rw [hworld]) (by
        rw [hworld]
        exact settled_work hsettled) (hknows.work hsha hsettled) fun s hs => hsub (hanswers s ?_)
      rcases List.mem_append.mp hs with hs | hs
      · exact List.mem_append_left _ (hsubset.1 hs)
      · rcases List.mem_append.mp hs with hs | hs
        · exact List.mem_append_right _ hs
        · exact List.mem_append_left _ (hsubset.2 hs)
    | markClean write =>
      obtain rfl : write = .ok := ha
      have hworld : (x.step c (.markClean .ok)).world =
          ⟨(markClean .ok x.world.disk m).1, some (markClean .ok x.world.disk m).2⟩ :=
        hserve (markClean .ok)
      have hsame : (markClean .ok x.world.disk m).2.identities = m.identities ∧
          (markClean .ok x.world.disk m).2.live = m.live := by
        unfold markClean
        split_ifs <;> exact ⟨rfl, rfl⟩
      refine Counted.same (n := (markClean .ok x.world.disk m).2) ?_ hknows hanswers
        (by rw [hworld]) rfl hsub hsame.1 hsame.2
      rw [hworld]
      exact settled_markClean hsettled

/-- **The identity contract holds in every undisturbed run.** -/
theorem counted_run (hsha : ∀ t, c.sha256 t ≠ []) {acts : List Action}
    (hacts : ∀ a ∈ acts, a.Undisturbed) : Counted c (Runs.run (Census.step c) {} acts) := by
  have hinit : Counted c {} := .down [] (fun _ => none) rfl (.new rfl rfl) Register.known_nil
    (List.forall_mem_nil _)
  have hstep (x : Census) (a : Action) (ha : a.Undisturbed) (h : Counted c x) :
      Counted c (x.step c a) := counted_step hsha h a ha
  exact Runs.run_invariant_along hstep hinit (Runs.along_of_mem hacts _)

end Archive
end SemanticMemory
