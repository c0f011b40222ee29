import SemanticMemory.Archive.Collector

/-!
# The published prefix

`state.json` says how many bytes of `observations.jsonl` are published and how many records they
are.  The offsets are sums of the lengths of lines, and the bytes go to the end of the file, so the
two agree as long as every append starts where the last published line ends and takes all the bytes
it is given.

* `Stands` is the prefix of one watermark: the lines of a list of observations, numbered from one.
* `Inv` says it of the watermark on the disk, of the one in memory and of the one that is pending,
  and that the index has one row for each line.  `inv_step` is kept by every step of a run whose
  appends are whole (`Whole`).
* `published_prefix` is the statement about runs, and `published_prefix_shifted` the run in which an
  append that has failed leaves its bytes in the way of the next one.
-/

namespace SemanticMemory
namespace Archive

/-! ## Lines -/

section Lines

variable (sha256 : Text → Str)

/-- The records of a list of observations, numbered from `n` on. -/
def recordsFrom : ℕ → List Semantic → List Json
  | _, [] => []
  | n, s :: ss => record sha256 s n :: recordsFrom (n + 1) ss

/-- The lines of a list of observations, numbered from `n` on. -/
def linesFrom (n : ℕ) (ss : List Semantic) : Text := (recordsFrom sha256 n ss).flatMap Json.line

/-- The index rows of a list of observations, numbered from `n` on, their lines from the byte
`offset` on. -/
def entriesFrom : ℕ → ℕ → List Semantic → List Entry
  | _, _, [] => []
  | n, offset, s :: ss =>
    entryOf sha256 (record sha256 s n) offset (recordLine sha256 s n).length ::
      entriesFrom (n + 1) (offset + (recordLine sha256 s n).length) ss

theorem recordsFrom_append (n : ℕ) (ss ss' : List Semantic) :
    recordsFrom sha256 n (ss ++ ss') =
      recordsFrom sha256 n ss ++ recordsFrom sha256 (n + ss.length) ss' := by
  induction ss generalizing n with
  | nil => rfl
  | cons s ss ih =>
    rw [List.cons_append, recordsFrom, recordsFrom, ih, List.length_cons, List.cons_append,
      Nat.add_right_comm, Nat.add_assoc]

theorem linesFrom_cons (n : ℕ) (s : Semantic) (ss : List Semantic) :
    linesFrom sha256 n (s :: ss) = recordLine sha256 s n ++ linesFrom sha256 (n + 1) ss := by
  rw [linesFrom, recordsFrom, List.flatMap_cons]
  rfl

theorem linesFrom_append (n : ℕ) (ss ss' : List Semantic) :
    linesFrom sha256 n (ss ++ ss') =
      linesFrom sha256 n ss ++ linesFrom sha256 (n + ss.length) ss' := by
  rw [linesFrom, recordsFrom_append, List.flatMap_append]
  rfl

theorem entriesFrom_append (n offset : ℕ) (ss ss' : List Semantic) :
    entriesFrom sha256 n offset (ss ++ ss') = entriesFrom sha256 n offset ss ++
      entriesFrom sha256 (n + ss.length) (offset + (linesFrom sha256 n ss).length) ss' := by
  induction ss generalizing n offset with
  | nil => rfl
  | cons s ss ih =>
    rw [List.cons_append, entriesFrom, entriesFrom, ih, List.cons_append, linesFrom_cons,
      List.length_append, List.length_cons, Nat.add_right_comm n 1, Nat.add_assoc n,
      Nat.add_assoc offset]

theorem length_entriesFrom (n offset : ℕ) (ss : List Semantic) :
    (entriesFrom sha256 n offset ss).length = ss.length := by
  induction ss generalizing n offset with
  | nil => rfl
  | cons s ss ih => rw [entriesFrom, List.length_cons, List.length_cons, ih]

theorem seqOf_record (s : Semantic) (n : ℕ) : seqOf (record sha256 s n) = n := by
  have hget : (record sha256 s n).get "durable_seq" = .int n := by
    simp (disch := decide) only [record, List.append_assoc, List.cons_append, List.nil_append,
      get_item_self, get_item_of_ne, get_optionalItem_of_ne]
  rw [seqOf, hget]
  rfl

/-- A row delimits the bytes of its record. -/
theorem entriesFrom_delimit {n i : ℕ} {ss : List Semantic} {e : Entry} {s : Semantic}
    (before after : Text) (he : (entriesFrom sha256 n before.length ss)[i]? = some e)
    (hs : ss[i]? = some s) :
    e.durableSeq = n + i ∧ ((before ++ linesFrom sha256 n ss ++ after).drop e.offset).take
      e.length = recordLine sha256 s (n + i) := by
  induction ss generalizing n i before with
  | nil => cases hs
  | cons s' ss ih =>
    rw [linesFrom_cons]
    cases i with
    | zero =>
      obtain rfl : s' = s := Option.some.inj hs
      obtain rfl := Option.some.inj he
      refine ⟨seqOf_record sha256 s' n, ?_⟩
      show ((before ++ (recordLine sha256 s' n ++ _) ++ after).drop before.length).take
        (recordLine sha256 s' n).length = _
      rw [List.append_assoc, List.drop_left, List.append_assoc, List.take_left, Nat.add_zero]
    | succ i =>
      rw [entriesFrom, List.getElem?_cons_succ, ← List.length_append] at he
      rw [List.getElem?_cons_succ] at hs
      obtain ⟨hseq, htake⟩ := ih _ he hs
      rw [Nat.add_right_comm, Nat.add_assoc] at hseq htake
      refine ⟨hseq, ?_⟩
      rw [← List.append_assoc before]
      exact htake

theorem identityOf_record (s : Semantic) (n : ℕ) :
    identityOf (record sha256 s n) = some s.identity := by
  have hget : (record sha256 s n).get "identity" = s.identity.json := by
    simp (disch := decide) only [record, List.append_assoc, List.cons_append, List.nil_append,
      get_item_self, get_item_of_ne, get_optionalItem_of_ne]
  rw [identityOf, hget, Identity.json]
  exact dif_pos s.identity.source.2

theorem seqOf_getLast? {n : ℕ} {ss : List Semantic} {r : Json}
    (h : (recordsFrom sha256 n ss).getLast? = some r) : seqOf r + 1 = n + ss.length := by
  rcases List.eq_nil_or_concat ss with rfl | ⟨ss, s, rfl⟩
  · cases h
  · rw [List.concat_eq_append] at h ⊢
    rw [recordsFrom_append, recordsFrom, recordsFrom, List.getLast?_concat, Option.some.injEq] at h
    rw [← h, seqOf_record, List.length_append, List.length_singleton, Nat.add_assoc]

end Lines

/-! ## Watermarks -/

/-- The part of a state that says what is published. -/
structure Watermark where
  durableSeq : ℕ
  durableOffset : ℕ
  durableBytes : ℕ
  quarantineBytes : ℕ

def State.watermark (s : State) : Watermark :=
  ⟨s.durableSeq, s.durableOffset, s.durableBytes, s.quarantineBytes⟩

variable (c : Config)

/-- The bytes of a file begin with the lines that a watermark says are published, and the bytes of
both files are within the capacity. -/
structure Stands (observations : Text) (w : Watermark) (ss : List Semantic) : Prop where
  lines : linesFrom c.sha256 1 ss <+: observations
  seq : w.durableSeq = ss.length
  offset : w.durableOffset = (linesFrom c.sha256 1 ss).length
  bytes : w.durableBytes = w.durableOffset
  capacity : w.durableBytes + w.quarantineBytes ≤ c.limits.archiveCapacityBytes

variable {c} {w : Watermark} {ss : List Semantic} {t t' : Text}

/-- Bytes at the end of the file change nothing. -/
theorem Stands.append (h : Stands c t w ss) (hle : t <+: t') : Stands c t' w ss :=
  { h with lines := h.lines.trans hle }

/-- The watermark is inside the file. -/
theorem Stands.offset_le (h : Stands c t w ss) : w.durableOffset ≤ t.length :=
  h.offset ▸ h.lines.length_le

/-- A file that is cut behind the watermark keeps what is published. -/
theorem Stands.take (h : Stands c t w ss) {n : ℕ} (hn : w.durableOffset ≤ n) :
    Stands c (t.take n) w ss := by
  refine { h with lines := ?_ }
  have hlength : (linesFrom c.sha256 1 ss).length ≤ n := h.offset ▸ hn
  rw [← List.take_of_length_le hlength]
  exact h.lines.take n

/-- The published bytes are the lines. -/
theorem Stands.take_eq (h : Stands c t w ss) :
    t.take w.durableOffset = linesFrom c.sha256 1 ss := by
  obtain ⟨rest, rfl⟩ := h.lines
  rw [h.offset, List.take_left]

/-! ## The batch in flight -/

/-- The observations of the lines of a batch. -/
def Laid.semantics (l : Laid) : List Semantic := l.observations.map fun o => o.item.semantic

/-- The lines of a batch continue what is published, and fit. -/
structure Lays (c : Config) (w : Watermark) (l : Laid) : Prop where
  records : l.observations.map ObservationLine.record =
    recordsFrom c.sha256 (w.durableSeq + 1) l.semantics
  lines : ∀ o ∈ l.observations, o.line = o.record.line
  nextSeq : l.nextSeq = w.durableSeq + l.observations.length
  used : l.used = w.durableBytes + w.quarantineBytes +
    (l.observationBytes.length + l.quarantineBytes.length)
  capacity : l.used ≤ c.limits.archiveCapacityBytes

variable {l : Laid}

theorem Lays.observationBytes (h : Lays c w l) :
    l.observationBytes = linesFrom c.sha256 (w.durableSeq + 1) l.semantics := by
  rw [linesFrom, ← h.records, Laid.observationBytes, List.flatMap_map]
  exact List.flatMap_congr fun o ho => h.lines o ho

/-- **The published lines and those of a batch are lines in a row.** -/
theorem Lays.lines_append (h : Lays c w l) (hs : w.durableSeq = ss.length) :
    linesFrom c.sha256 1 (ss ++ l.semantics) = linesFrom c.sha256 1 ss ++ l.observationBytes := by
  rw [linesFrom_append, h.observationBytes, hs, Nat.add_comm 1]

/-- A batch without a line. -/
theorem lays_nil (h : Stands c t w ss) :
    Lays c w { used := w.durableBytes + w.quarantineBytes, nextSeq := w.durableSeq } where
  records := rfl
  lines _ ho := absurd ho List.not_mem_nil
  nextSeq := rfl
  used := rfl
  capacity := h.capacity

theorem Lays.quarantine (h : Lays c w l) (i : Item) (line : Text)
    (hfits : l.used + line.length ≤ c.limits.archiveCapacityBytes) :
    Lays c w { l with
      quarantine := l.quarantine ++ [⟨i, line⟩]
      used := l.used + line.length } where
  records := h.records
  lines := h.lines
  nextSeq := h.nextSeq
  used := by
    have := h.used
    simp only [Laid.observationBytes, Laid.quarantineBytes, List.flatMap_append,
      List.flatMap_cons, List.flatMap_nil, List.append_nil, List.length_append] at this ⊢
    omega
  capacity := hfits

theorem Lays.observation (h : Lays c w l) (i : Item)
    (hfits : l.used + (recordLine c.sha256 i.semantic (l.nextSeq + 1)).length ≤
      c.limits.archiveCapacityBytes) :
    Lays c w { l with
      observations := l.observations ++ [⟨i, record c.sha256 i.semantic (l.nextSeq + 1),
        (record c.sha256 i.semantic (l.nextSeq + 1)).line⟩]
      used := l.used + (record c.sha256 i.semantic (l.nextSeq + 1)).line.length
      nextSeq := l.nextSeq + 1 } where
  records := by
    rw [Laid.semantics, List.map_append, List.map_append, recordsFrom_append, h.records,
      h.nextSeq, List.length_map, Nat.add_right_comm]
    rfl
  lines o ho := by
    rcases List.mem_append.mp ho with ho | ho
    · exact h.lines o ho
    · rw [List.mem_singleton.mp ho]
  nextSeq := by
    have := h.nextSeq
    simp only [List.length_append, List.length_singleton]
    omega
  used := by
    have := h.used
    simp only [Laid.observationBytes, Laid.quarantineBytes, List.flatMap_append,
      List.flatMap_cons, List.flatMap_nil, List.append_nil, List.length_append] at this ⊢
    omega
  capacity := hfits

variable {s : State}

/-- **The pending watermark covers the batch**, once its lines are in the file. -/
theorem Lays.pending (h : Lays c s.watermark l) (hs : Stands c t s.watermark ss)
    (ht : linesFrom c.sha256 1 (ss ++ l.semantics) <+: t) :
    Stands c t (Memory.pending c s l).watermark (ss ++ l.semantics) := by
  have hlines := h.lines_append hs.seq
  have hlength := congrArg List.length hlines
  have hoffset : (Memory.pending c s l).watermark.durableOffset =
      s.durableOffset + l.observationBytes.length := by
    unfold Memory.pending State.watermark
    cases l.observations.getLast? <;> rfl
  have hbytes : (Memory.pending c s l).watermark.durableBytes =
      s.durableBytes + l.observationBytes.length := by
    unfold Memory.pending State.watermark
    cases l.observations.getLast? <;> rfl
  have hquarantine : (Memory.pending c s l).watermark.quarantineBytes =
      s.quarantineBytes + l.quarantineBytes.length := by
    unfold Memory.pending State.watermark
    cases l.observations.getLast? <;> rfl
  have hseq : (Memory.pending c s l).watermark.durableSeq =
      s.durableSeq + l.observations.length := by
    have hlast := congrArg List.getLast? h.records
    rw [List.getLast?_map] at hlast
    unfold Memory.pending State.watermark
    cases hl : l.observations.getLast? with
    | none => rw [List.getLast?_eq_none_iff.mp hl]; rfl
    | some o =>
      rw [hl, Option.map_some] at hlast
      have := seqOf_getLast? c.sha256 hlast.symm
      rw [Laid.semantics, List.length_map] at this
      show seqOf o.record = _
      simp only [State.watermark] at this
      omega
  have hused := h.used
  have hcapacity := h.capacity
  have hso : s.durableOffset = (linesFrom c.sha256 1 ss).length := hs.offset
  have hsb : s.durableBytes = s.durableOffset := hs.bytes
  have hsseq : s.durableSeq = ss.length := hs.seq
  simp only [State.watermark] at hused
  rw [List.length_append] at hlength
  refine ⟨ht, ?_, ?_, ?_, ?_⟩
  · rw [hseq, List.length_append, Laid.semantics, List.length_map]
    omega
  · rw [hoffset]
    omega
  · rw [hbytes, hoffset]
    omega
  · rw [hbytes, hquarantine]
    omega

/-! ## The invariant -/

/-- The watermark in memory and the one on the disk lie before the sizes that were measured. -/
def Above (d : Disk) (w : Watermark) (before : Sizes) : Prop :=
  w.durableOffset ≤ before.offset ∧
    ∀ st, d.state = .holds st → st.watermark.durableOffset ≤ before.offset

/-- What the place of the publication thread says of the batch in flight. -/
def Tracks (c : Config) (d : Disk) (w : Watermark) (ss : List Semantic) : Thread → Prop
  | .idle | .persistState | .failed _ | .done | .dead => True
  | .writeState payload => ∃ ss', Stands c (content d.observations) payload.watermark ss'
  | .lay _ laid | .measure laid => Lays c w laid
  | .appendQuarantine laid before | .appendObservations laid before =>
    Lays c w laid ∧ Above d w before
  | .stage laid before =>
    Lays c w laid ∧ Above d w before ∧
      linesFrom c.sha256 1 (ss ++ laid.semantics) <+: content d.observations
  | .hold laid before pending =>
    Lays c w laid ∧ Above d w before ∧
      Stands c (content d.observations) pending.watermark (ss ++ laid.semantics)
  | .publish laid pending | .install laid pending =>
    Lays c w laid ∧ Stands c (content d.observations) pending.watermark (ss ++ laid.semantics)

/-- The memory of a collector is what its watermark says. -/
structure Holds (c : Config) (d : Disk) (m : Memory) (ss : List Semantic) : Prop where
  stands : Stands c (content d.observations) m.state.watermark ss
  index : m.index = entriesFrom c.sha256 1 0 ss
  thread : Tracks c d m.state.watermark ss m.thread

/-- What `state.json` says stands in the file. -/
def FileStands (c : Config) (d : Disk) : Prop :=
  ∀ st, d.state = .holds st → ∃ ss, Stands c (content d.observations) st.watermark ss

/-- **The invariant.** -/
structure Inv (c : Config) (w : World) : Prop where
  file : FileStands c w.disk
  process : ∀ m, w.process = some m → ∃ ss, Holds c w.disk m ss

/-- A change of the memory that leaves the published part and the thread alone. -/
structure Memory.Keeps (m m' : Memory) : Prop where
  watermark : m'.state.watermark = m.state.watermark
  index : m'.index = m.index
  thread : m'.thread = m.thread

theorem Memory.Keeps.refl (m : Memory) : m.Keeps m := ⟨rfl, rfl, rfl⟩

theorem Memory.Keeps.trans {m m' m'' : Memory} (h : m.Keeps m') (h' : m'.Keeps m'') :
    m.Keeps m'' :=
  ⟨h'.watermark.trans h.watermark, h'.index.trans h.index, h'.thread.trans h.thread⟩

theorem Holds.keeps {d : Disk} {m m' : Memory} (h : Holds c d m ss) (hk : m.Keeps m') :
    Holds c d m' ss where
  stands := hk.watermark.symm ▸ h.stands
  index := hk.index.trans h.index
  thread := by
    rw [hk.watermark, hk.thread]
    exact h.thread

/-! ### Admission -/

theorem keeps_displace (m : Memory) (index : ℕ) : m.Keeps (m.displace index) := by
  unfold Memory.displace
  split
  · exact .refl m
  · split_ifs <;> exact ⟨rfl, rfl, rfl⟩

theorem keeps_queueLocked (m : Memory) (i : Item) : m.Keeps (m.queueLocked c i).1 := by
  unfold Memory.queueLocked
  split_ifs
  · exact ⟨rfl, rfl, rfl⟩
  · split
    · exact (keeps_displace m _).trans ⟨rfl, rfl, rfl⟩
    · exact .refl m
  · exact .refl m

/-- **An admission touches nothing that is published.** -/
theorem keeps_acceptOne (g : Gate) (m : Memory) (s : Semantic) :
    m.Keeps (acceptOne c g m s).1 := by
  unfold acceptOne
  split_ifs
  · exact ⟨rfl, rfl, rfl⟩
  · exact .refl m
  · exact .refl m
  · exact .refl m
  · exact ⟨rfl, rfl, rfl⟩
  · exact .refl m
  · split
    · split_ifs
      · exact .refl m
      · have hm : m.Keeps m.countConflict := ⟨rfl, rfl, rfl⟩
        exact hm.trans (keeps_queueLocked m.countConflict _)
    · have hk := keeps_queueLocked (c := c) m ⟨s, s.size, false⟩
      dsimp only
      split_ifs
      · exact hk.trans ⟨rfl, rfl, rfl⟩
      · exact hk.trans ⟨rfl, rfl, rfl⟩

/-! ### The publication thread -/

section Work

variable {d : Disk} {m : Memory}

theorem holds_takeBatch (h : Holds c d m ss) : Holds c d (m.takeBatch c) ss := by
  unfold Memory.takeBatch
  split_ifs
  · exact ⟨h.stands, h.index, trivial⟩
  · exact h
  · refine ⟨h.stands, h.index, ?_⟩
    unfold Memory.answered
    cases m.waiters <;> trivial
  · exact ⟨h.stands, h.index, lays_nil h.stands⟩

theorem holds_layItem (h : Holds c d m ss) (i : Item) (todo : List Item) {laid : Laid}
    (hlaid : Lays c m.state.watermark laid) : Holds c d (m.layItem c i todo laid) ss := by
  unfold Memory.layItem
  dsimp only
  split_ifs with hquarantine hfull hfull
  · exact ⟨h.stands, h.index, hlaid⟩
  · exact ⟨h.stands, h.index, hlaid.quarantine i _ (Nat.le_of_not_lt hfull)⟩
  · exact ⟨h.stands, h.index, hlaid⟩
  · exact ⟨h.stands, h.index, hlaid.observation i (Nat.le_of_not_lt hfull)⟩

theorem forgetAll_keeps (lines : List ObservationLine) (m : Memory) :
    m.Keeps (lines.foldl (fun m l =>
      match identityOf l.record with
      | some identity => m.forget identity
      | none => m) m) := by
  induction lines generalizing m with
  | nil => exact .refl m
  | cons l lines ih =>
    rw [List.foldl_cons]
    refine Memory.Keeps.trans ?_ (ih _)
    split
    · exact ⟨rfl, rfl, rfl⟩
    · exact .refl m

theorem holds_giveUp (h : Holds c d m ss) (laid : Laid) : Holds c d (m.giveUp laid) ss := by
  unfold Memory.giveUp
  refine Holds.keeps ?_ (forgetAll_keeps laid.observations _)
  exact ⟨h.stands, h.index, trivial⟩

theorem holds_die (h : Holds c d m ss) : Holds c d m.die ss :=
  ⟨h.stands, h.index, trivial⟩

/-- The records of observations are remembered one after the other, numbered from `n` on, their
lines from the byte `offset` on. -/
def Memory.rememberLines (c : Config) : ℕ → ℕ → List Semantic → Memory → Memory
  | _, _, [], m => m
  | n, offset, s :: ss, m =>
    Memory.rememberLines c (n + 1) (offset + (recordLine c.sha256 s n).length) ss
      (m.remember c (record c.sha256 s n) offset (recordLine c.sha256 s n).length)

/-- A record that is remembered adds its row and may make its identity known. -/
theorem remember_eq (m : Memory) (r : Json) (offset length : ℕ) :
    m.remember c r offset length = { m with
      index := m.index ++ [entryOf c.sha256 r offset length]
      identities := (m.remember c r offset length).identities } := by
  unfold Memory.remember
  split <;> rfl

/-- Records that are remembered add their rows and may make their identities known. -/
theorem rememberLines_eq (n offset : ℕ) (ss : List Semantic) (m : Memory) :
    m.rememberLines c n offset ss = { m with
      index := m.index ++ entriesFrom c.sha256 n offset ss
      identities := (m.rememberLines c n offset ss).identities } := by
  induction ss generalizing n offset m with
  | nil => rw [Memory.rememberLines, entriesFrom, List.append_nil]
  | cons s ss ih =>
    rw [Memory.rememberLines, ih, remember_eq, entriesFrom, recordLine, List.append_assoc,
      List.singleton_append]

theorem rememberAll_eq (lines : List ObservationLine) (m : Memory) (offset n : ℕ)
    (hrecords : lines.map ObservationLine.record =
      recordsFrom c.sha256 n (lines.map fun o => o.item.semantic))
    (hlines : ∀ o ∈ lines, o.line = o.record.line) :
    m.rememberAll c lines offset =
      m.rememberLines c n offset (lines.map fun o => o.item.semantic) := by
  induction lines generalizing m offset n with
  | nil => rfl
  | cons l lines ih =>
    rw [List.map_cons, List.map_cons, recordsFrom, List.cons.injEq] at hrecords
    obtain ⟨hrecord, hrest⟩ := hrecords
    have hl : l.line = recordLine c.sha256 l.item.semantic n := by
      rw [hlines l List.mem_cons_self, hrecord, recordLine]
    rw [Memory.rememberAll, ih _ _ (n + 1) hrest fun o ho => hlines o (List.mem_cons_of_mem _ ho),
      hrecord, hl, List.map_cons, Memory.rememberLines]

/-- **What is installed is what stands.** -/
theorem holds_installed (h : Holds c d m ss) {laid : Laid} {pending : State}
    (hlaid : Lays c m.state.watermark laid)
    (hpending : Stands c (content d.observations) pending.watermark (ss ++ laid.semantics)) :
    Holds c d (m.installed c laid pending) (ss ++ laid.semantics) := by
  have hrow := rememberAll_eq laid.observations m m.state.durableOffset
    (m.state.durableSeq + 1) hlaid.records hlaid.lines
  have hoffset : m.state.durableOffset = (linesFrom c.sha256 1 ss).length := h.stands.offset
  have hseq : m.state.durableSeq = ss.length := h.stands.seq
  refine ⟨hpending, ?_, trivial⟩
  show (m.rememberAll c laid.observations m.state.durableOffset).index = _
  rw [hrow, rememberLines_eq, h.index, entriesFrom_append, hoffset, hseq, Nat.zero_add,
    Nat.add_comm 1]
  rfl

/-- The disk is as it was. -/
theorem inv_memory (hfile : FileStands c d) {m' : Memory} (h : Holds c d m' ss) :
    Inv c ⟨d, some m'⟩ :=
  ⟨hfile, fun _ hm => ⟨ss, Option.some.inj hm ▸ h⟩⟩

/-- No process runs. -/
theorem inv_down (hfile : FileStands c d) : Inv c ⟨d, none⟩ :=
  ⟨hfile, fun _ hm => nomatch hm⟩

/-- Bytes at the end of the observations. -/
theorem FileStands.append (h : FileStands c d) {d' : Disk} (hstate : d'.state = d.state)
    (hle : content d.observations <+: content d'.observations) : FileStands c d' := by
  intro st hst
  obtain ⟨ss, hs⟩ := h st (hstate ▸ hst)
  exact ⟨ss, hs.append hle⟩

theorem FileStands.write (h : FileStands c d) {payload : State} (write : Write)
    (hpayload : ∃ ss, Stands c (content d.observations) payload.watermark ss) :
    FileStands c { d with state := write.file d.state payload } := by
  intro st hst
  cases write with
  | ok => cases hst; exact hpayload
  | late => cases hst; exact hpayload
  | short => cases hst
  | failed => exact h st hst

theorem prefix_appended (file : Option Text) (bytes : Text) :
    content file <+: content (appended file bytes) :=
  List.prefix_append _ _

/-- An append that has taken all its bytes, to a file that ends at the watermark. -/
theorem lines_appended (hs : Stands c t w ss) {laid : Laid} (hlaid : Lays c w laid)
    (hend : t.length = w.durableOffset) :
    linesFrom c.sha256 1 (ss ++ laid.semantics) <+: t ++ laid.observationBytes := by
  obtain ⟨rest, hrest⟩ := hs.lines
  have hlength := congrArg List.length hrest
  rw [List.length_append, hend, hs.offset] at hlength
  have hnil : rest = [] := List.length_eq_zero_iff.mp (by omega)
  rw [hnil, List.append_nil] at hrest
  rw [hlaid.lines_append hs.seq, hrest]

end Work

/-- The bytes an append was given are all in the file, unless it raises. -/
def Append.IsWhole (data : Text) : Append → Prop
  | .ok | .failed _ => True
  | .short n => data.length ≤ n

theorem Append.IsWhole.bytes_eq {data : Text} {a : Append} (h : a.IsWhole data)
    (hraises : a.raises = false) : a.bytes data = data := by
  cases a with
  | ok => rfl
  | short n => exact List.take_of_length_le h
  | failed n => cases hraises

/-- The batch whose observations are appended next. -/
def Thread.appending : Thread → Option Laid
  | .appendObservations laid _ => some laid
  | _ => none

/-- An append to `observations.jsonl` starts at the watermark and takes all its bytes. -/
def Whole (w : World) : Action → Prop
  | .work env => ∀ m ∈ w.process, ∀ laid ∈ m.thread.appending, laid.observations ≠ [] →
      regularSize w.disk.observations = m.state.durableOffset ∧
        env.append.IsWhole laid.observationBytes
  | _ => True

instance decidableIsWhole (data : Text) : ∀ a : Append, Decidable (a.IsWhole data)
  | .ok | .failed _ => .isTrue trivial
  | .short n => inferInstanceAs (Decidable (data.length ≤ n))

instance decidableWhole (w : World) : ∀ a, Decidable (Whole w a)
  | .work env => inferInstanceAs (Decidable (∀ m ∈ w.process, ∀ laid ∈ m.thread.appending,
      laid.observations ≠ [] → regularSize w.disk.observations = m.state.durableOffset ∧
        env.append.IsWhole laid.observationBytes))
  | .start .. | .crash | .admitItem .. | .refuse | .checkpoint _ | .policyFailure | .stop
  | .markClean _ => .isTrue trivial

/-- **A piece of the publication thread.** -/
theorem inv_work {d : Disk} {m : Memory} (h : Inv c ⟨d, some m⟩) (env : Env)
    (hwhole : Whole ⟨d, some m⟩ (.work env)) :
    Inv c ⟨(work c env d m).1, some (work c env d m).2⟩ := by
  have hfile : FileStands c d := h.file
  obtain ⟨ss, hm⟩ := h.process m rfl
  have hthread := hm.thread
  unfold work
  cases hplace : m.thread with rw [hplace] at hthread
  | idle => exact inv_memory hfile (holds_takeBatch hm)
  | persistState => exact inv_memory hfile ⟨hm.stands, hm.index, ss, hm.stands⟩
  | writeState payload =>
    refine ⟨hfile.write env.write hthread, fun m' hm' => ⟨ss, ?_⟩⟩
    rw [← Option.some.inj hm']
    dsimp only
    split_ifs
    · exact ⟨hm.stands, hm.index, trivial⟩
    · exact ⟨hm.stands, hm.index, trivial⟩
  | lay todo laid =>
    cases todo with
    | nil => exact inv_memory hfile ⟨hm.stands, hm.index, hthread⟩
    | cons i todo => exact inv_memory hfile (holds_layItem hm i todo hthread)
  | measure laid =>
    dsimp only
    split_ifs
    · exact inv_memory hfile (holds_die hm)
    · refine inv_memory hfile ⟨hm.stands, hm.index, hthread, hm.stands.offset_le, ?_⟩
      intro st hst
      obtain ⟨ss', hs'⟩ := hfile st hst
      exact hs'.offset_le
  | appendQuarantine laid before =>
    have hfile' : FileStands c { d with
        quarantine := appended d.quarantine (env.append.bytes laid.quarantineBytes) } := hfile
    dsimp only
    split_ifs
    · exact inv_memory hfile ⟨hm.stands, hm.index, hthread⟩
    · exact inv_memory hfile ⟨hm.stands, hm.index, trivial⟩
    · exact inv_memory hfile' ⟨hm.stands, hm.index, trivial⟩
    · exact inv_memory hfile' ⟨hm.stands, hm.index, hthread⟩
  | appendObservations laid before =>
    obtain ⟨hlaid, habove⟩ := hthread
    have hle := prefix_appended d.observations (env.append.bytes laid.observationBytes)
    have hstands := hm.stands.append hle
    have hfile' : FileStands c { d with
        observations := appended d.observations (env.append.bytes laid.observationBytes) } :=
      hfile.append rfl hle
    dsimp only
    split_ifs with hnil hunsafe hraises
    · refine inv_memory hfile ⟨hm.stands, hm.index, hlaid, habove, ?_⟩
      have hsemantics : laid.semantics = [] := by rw [Laid.semantics, hnil, List.map_nil]
      rw [hsemantics, List.append_nil]
      exact hm.stands.lines
    · exact inv_memory hfile ⟨hm.stands, hm.index, trivial⟩
    · exact inv_memory hfile' ⟨hstands, hm.index, trivial⟩
    · obtain ⟨hend, hbytes⟩ := hwhole m rfl laid (by rw [hplace]; rfl) hnil
      rw [Bool.not_eq_true] at hraises
      refine inv_memory hfile' ⟨hstands, hm.index, hlaid, habove, ?_⟩
      show _ <+: content d.observations ++ env.append.bytes laid.observationBytes
      rw [hbytes.bytes_eq hraises]
      exact lines_appended hm.stands hlaid hend
  | failed laid => exact inv_memory hfile (holds_giveUp hm laid)
  | stage laid before =>
    obtain ⟨hlaid, habove, hlines⟩ := hthread
    exact inv_memory hfile ⟨hm.stands, hm.index, hlaid, habove, hlaid.pending hm.stands hlines⟩
  | hold laid before pending =>
    obtain ⟨hlaid, habove, hpending⟩ := hthread
    dsimp only
    split_ifs
    · exact inv_memory hfile (holds_die hm)
    · -- the files are cut back to where they ended before the batch
      have hcut : content (truncated d.observations before.offset) =
          (content d.observations).take before.offset := by
        cases hobs : d.observations with
        | none => exact (List.take_nil).symm
        | some t => rfl
      refine inv_memory ?_ ⟨?_, hm.index, trivial⟩
      · intro st hst
        obtain ⟨ss', hs'⟩ := hfile st hst
        exact ⟨ss', hcut ▸ hs'.take (habove.2 st hst)⟩
      · exact hcut ▸ hm.stands.take habove.1
    · exact inv_memory hfile ⟨hm.stands, hm.index, hlaid, hpending⟩
  | publish laid pending =>
    obtain ⟨hlaid, hpending⟩ := hthread
    have hfile' : FileStands c { d with state := env.write.file d.state pending } :=
      hfile.write env.write ⟨_, hpending⟩
    dsimp only
    split_ifs
    · exact inv_memory hfile' ⟨hm.stands, hm.index, trivial⟩
    · exact inv_memory hfile' ⟨hm.stands, hm.index, hlaid, hpending⟩
  | install laid pending => exact inv_memory hfile (holds_installed hm hthread.1 hthread.2)
  | done => exact inv_memory hfile hm
  | dead => exact inv_memory hfile hm

/-! ### The start -/

/-- The loop over the lines of published records remembers them one after the other. -/
theorem rebuildFrom_lines (ss : List Semantic) (m : Memory) (n start limit fuel : ℕ) (rest : Text)
    (hlimit : limit = start + (linesFrom c.sha256 n ss).length)
    (hfuel : (linesFrom c.sha256 n ss).length ≤ fuel) :
    rebuildFrom c limit fuel (linesFrom c.sha256 n ss ++ rest) start m =
      m.rememberLines c n start ss := by
  induction ss generalizing m n start fuel with
  | nil =>
    have hstop : ¬ start < limit := by
      rw [hlimit]
      exact Nat.lt_irrefl start
    cases fuel with
    | zero => rfl
    | succ fuel =>
      rw [rebuildFrom, if_neg hstop]
      rfl
  | cons s ss ih =>
    have hpos := Json.line_length_pos (record c.sha256 s n)
    rw [linesFrom_cons, List.length_append, recordLine] at hlimit hfuel
    obtain ⟨fuel, rfl⟩ : ∃ k, fuel = k + 1 := ⟨fuel - 1, by omega⟩
    have hne : (record c.sha256 s n).line ≠ [] := List.ne_nil_of_length_pos hpos
    have hstart : start < limit := by omega
    have hwithin : ¬ limit < start + (record c.sha256 s n).line.length := by omega
    rw [linesFrom_cons, List.append_assoc, recordLine, rebuildFrom, if_pos hstart,
      Json.readLine_line]
    dsimp only
    rw [if_neg hne, if_neg hwithin, Json.loads_line]
    exact ih (m.remember c (record c.sha256 s n) start (record c.sha256 s n).line.length) (n + 1)
      (start + (record c.sha256 s n).line.length) fuel (by omega) (by omega)

variable {file : Option Text}

/-- **The index is rebuilt from what stands.** -/
theorem rebuildIndex_eq (h : Stands c (content file) s.watermark ss) :
    rebuildIndex c file s = Memory.rememberLines c 1 0 ss { state := s } := by
  obtain ⟨rest, hrest⟩ := h.lines
  have hlength := congrArg List.length hrest
  rw [List.length_append] at hlength
  have hlimit : s.durableOffset = 0 + (linesFrom c.sha256 1 ss).length := by
    rw [Nat.zero_add]
    exact h.offset
  have hspec := rebuildFrom_lines ss { state := s } 1 0 s.durableOffset (content file).length rest
    hlimit (by omega)
  rw [hrest] at hspec
  exact hspec

theorem rebuildIndex_spec (h : Stands c (content file) s.watermark ss) :
    (rebuildIndex c file s).index = entriesFrom c.sha256 1 0 ss ∧
      (rebuildIndex c file s).state = s ∧ (rebuildIndex c file s).thread = .idle := by
  rw [rebuildIndex_eq h, rememberLines_eq]
  exact ⟨List.nil_append _, rfl, rfl⟩

/-- A watermark that says that nothing is published. -/
theorem stands_fresh (t : Text) : Stands c t ({} : State).watermark [] where
  lines := List.nil_prefix
  seq := rfl
  offset := rfl
  bytes := rfl
  capacity := Nat.zero_le _

theorem inv_prepareServing {d : Disk} (hfile : FileStands c d)
    (h : Stands c (content d.observations) s.watermark ss) (halt : Option Halt) (write : Write) :
    Inv c ⟨(prepareServing c d s halt write).1, (prepareServing c d s halt write).2⟩ := by
  have hfile' : FileStands c (prepareFiles d) := hfile
  have h' : Stands c (content (prepareFiles d).observations) s.watermark ss := h
  obtain ⟨hindex, hstate, hthread⟩ := rebuildIndex_spec h'
  unfold prepareServing
  dsimp only
  generalize rebuildIndex c (prepareFiles d).observations s = m at hindex hstate hthread
  have hstands : Stands c (content (prepareFiles d).observations) m.state.watermark ss :=
    hstate.symm ▸ h'
  have hwritten := hfile'.write write ⟨ss, hstands⟩
  split_ifs
  · exact inv_down hfile'
  · exact inv_down hwritten
  · refine inv_memory hwritten ⟨hstands, hindex, ?_⟩
    rw [hthread]
    trivial

/-- A file that is at least as long as its watermark is cut to it. -/
theorem reconcile_stands (h : Stands c (content file) w ss) :
    Stands c (content (reconcile file w.durableOffset).1) w ss := by
  unfold reconcile
  split
  · exact h
  · split_ifs
    · exact h.take (Nat.le_refl _)
    · exact h

theorem inv_prepareLoaded {d : Disk} (hfile : FileStands c d) {previous : State}
    (hd : d.state = .holds previous) (halt : Option Halt) (write : Write) :
    Inv c ⟨(prepareLoaded c d previous halt write).1,
      (prepareLoaded c d previous halt write).2⟩ := by
  obtain ⟨ss, hs⟩ := hfile previous hd
  have hcut := reconcile_stands hs
  have hfile₁ (q : Option Text) : FileStands c { d with
      observations := (reconcile d.observations previous.durableOffset).1
      quarantine := q } := by
    intro st hst
    obtain rfl : previous = st := StateFile.holds.inj (hd.symm.trans hst)
    exact ⟨ss, hcut⟩
  unfold prepareLoaded
  dsimp only
  split_ifs
  · exact inv_down (hfile₁ d.quarantine)
  · exact inv_down (hfile₁ _)
  · have hloaded : Stands c _ (loadedState previous
        (reconcile d.observations previous.durableOffset).2.1
        (reconcile d.quarantine previous.quarantineBytes).2.1
        ((reconcile d.observations previous.durableOffset).2.2 ||
          (reconcile d.quarantine previous.quarantineBytes).2.2)).watermark ss := hcut
    exact inv_prepareServing (hfile₁ _) hloaded halt write

/-- **A start keeps what is published.** -/
theorem inv_prepare {d : Disk} (hfile : FileStands c d) (halt : Option Halt) (write : Write) :
    Inv c ⟨(prepare c d halt write).1, (prepare c d halt write).2⟩ := by
  unfold prepare
  split_ifs with hstate
  · exact inv_down hfile
  cases hd : d.state with
  | damaged => exact inv_down hfile
  | absent => exact inv_prepareServing hfile (stands_fresh _) halt write
  | holds previous => exact inv_prepareLoaded hfile hd halt write

/-! ## Runs -/

/-- **One step keeps the prefix**, if its append is whole. -/
theorem inv_step {w : World} (h : Inv c w) (a : Action) (hwhole : Whole w a) :
    Inv c (step c w a) := by
  obtain ⟨d, process⟩ := w
  -- a step of the memory alone
  have hserve (f : Memory → Memory) (hf : ∀ m : Memory, m.Keeps (f m)) :
      Inv c (World.serve ⟨d, process⟩ fun d m => (d, f m)) := by
    cases process with
    | none => exact h
    | some m =>
      obtain ⟨ss, hm⟩ := h.process m rfl
      exact inv_memory h.file (hm.keeps (hf m))
  cases a with
  | start halt write =>
    cases process with
    | none => exact inv_prepare h.file halt write
    | some m => exact h
  | crash => exact inv_down h.file
  | admitItem gate s => exact hserve _ fun m => keeps_acceptOne gate m s
  | refuse => exact hserve _ fun m => ⟨rfl, rfl, rfl⟩
  | checkpoint waiter => exact hserve _ fun m => ⟨rfl, rfl, rfl⟩
  | policyFailure => exact hserve _ fun m => ⟨rfl, rfl, rfl⟩
  | stop => exact hserve _ fun m => ⟨rfl, rfl, rfl⟩
  | work env =>
    cases process with
    | none => exact h
    | some m => exact inv_work h env hwhole
  | markClean write =>
    cases process with
    | none => exact h
    | some m =>
      obtain ⟨ss, hm⟩ := h.process m rfl
      show Inv c ⟨(markClean write d m).1, some (markClean write d m).2⟩
      have hcleaned : m.Keeps (m.cleaned d) := ⟨rfl, rfl, rfl⟩
      have hm' := hm.keeps hcleaned
      unfold markClean
      split_ifs with hended
      · have hfile : FileStands c { d with state := write.file d.state (m.cleaned d).state } :=
          h.file.write write ⟨ss, hm'.stands⟩
        refine inv_memory hfile ⟨hm'.stands, hm'.index, ?_⟩
        rw [hcleaned.thread]
        rcases hended.2 with hended | hended <;> rw [hended] <;> trivial
      · exact h

/-- A state says exactly what is published: the bytes before its offset are the lines of as many
records as it counts, numbered from one, and the archive's files are within the capacity. -/
structure Exact (c : Config) (observations : Text) (st : State) (ss : List Semantic) : Prop where
  seq : st.durableSeq = ss.length
  inside : st.durableOffset ≤ observations.length
  bytes : observations.take st.durableOffset = linesFrom c.sha256 1 ss
  capacity : st.durableBytes + st.quarantineBytes ≤ c.limits.archiveCapacityBytes

/-- The rows of an index delimit the lines of their records. -/
structure Delimits (c : Config) (observations : Text) (index : List Entry)
    (ss : List Semantic) : Prop where
  length : index.length = ss.length
  bytes : ∀ (i : ℕ) (e : Entry) (s : Semantic), index[i]? = some e → ss[i]? = some s →
    e.durableSeq = i + 1 ∧
      (observations.drop e.offset).take e.length = recordLine c.sha256 s (i + 1)

/-- The watermark that `state.json` records and the one in memory are exact, and so is the index. -/
def Published (c : Config) (w : World) : Prop :=
  (∀ st, w.disk.state = .holds st → ∃ ss, Exact c (content w.disk.observations) st ss) ∧
    ∀ m, w.process = some m → ∃ ss, Exact c (content w.disk.observations) m.state ss ∧
      Delimits c (content w.disk.observations) m.index ss

theorem Stands.exact {st : State} (h : Stands c t st.watermark ss) : Exact c t st ss :=
  ⟨h.seq, h.offset_le, h.take_eq, h.capacity⟩

theorem Holds.delimits {d : Disk} {m : Memory} (h : Holds c d m ss) :
    Delimits c (content d.observations) m.index ss where
  length := by rw [h.index, length_entriesFrom]
  bytes i e s he hs := by
    obtain ⟨rest, hrest⟩ := h.stands.lines
    rw [h.index] at he
    have hdelimit := entriesFrom_delimit c.sha256 [] rest he hs
    rw [List.nil_append, hrest, Nat.add_comm 1] at hdelimit
    exact hdelimit

theorem Inv.published {w : World} (h : Inv c w) : Published c w := by
  refine ⟨fun st hst => ?_, fun m hm => ?_⟩
  · obtain ⟨ss, hs⟩ := h.file st hst
    exact ⟨ss, hs.exact⟩
  · obtain ⟨ss, hm⟩ := h.process m hm
    exact ⟨ss, hm.stands.exact, hm.delimits⟩

/-- **The published prefix is exact** in every run whose appends to the observations start at the
watermark and take all their bytes. -/
theorem published_prefix (c : Config) (acts : List Action)
    (hwhole : Runs.Along (step c) Whole {} acts) : Published c (Runs.run (step c) {} acts) := by
  have hinit : Inv c {} := ⟨fun _ hst => (nomatch hst), fun _ hm => (nomatch hm)⟩
  have hstep (w : World) (a : Action) (hwhole : Whole w a) (h : Inv c w) : Inv c (step c w a) :=
    inv_step h a hwhole
  have hinv : Inv c (Runs.run (step c) {} acts) := Runs.run_invariant_along hstep hinit hwhole
  exact hinv.published

/-- Each row of the index reads back a record, of the row's number and of an identity. -/
def ReadsBack (c : Config) (w : World) : Prop :=
  ∀ m, w.process = some m → ∀ i e, m.index[i]? = some e → ∃ s : Semantic,
    Json.loads (((content w.disk.observations).drop e.offset).take e.length) =
        some (record c.sha256 s e.durableSeq) ∧
      e.durableSeq = i + 1 ∧ seqOf (record c.sha256 s e.durableSeq) = e.durableSeq ∧
      identityOf (record c.sha256 s e.durableSeq) = some s.identity

/-- **What is published reads back by its row**, in every run whose appends to the observations start
at the watermark and take all their bytes. -/
theorem rows_read_back (c : Config) (acts : List Action)
    (hwhole : Runs.Along (step c) Whole {} acts) : ReadsBack c (Runs.run (step c) {} acts) := by
  have hinv : Inv c (Runs.run (step c) {} acts) :=
    Runs.run_invariant_along (fun _ a hwhole h => inv_step h a hwhole)
      ⟨fun _ hst => (nomatch hst), fun _ hm => (nomatch hm)⟩ hwhole
  intro m hm i e he
  obtain ⟨ss, -, hdelimits⟩ := hinv.published.2 m hm
  have hi : i < ss.length := hdelimits.length ▸ (List.getElem?_eq_some_iff.mp he).1
  obtain ⟨s, hs⟩ : ∃ s, ss[i]? = some s := ⟨_, List.getElem?_eq_getElem hi⟩
  obtain ⟨hseq, hbytes⟩ := hdelimits.bytes i e s he hs
  refine ⟨s, ?_, hseq, seqOf_record c.sha256 s _, identityOf_record c.sha256 s _⟩
  rw [hbytes, hseq]
  exact Json.loads_line _

/-! ## A collector with two observations -/

/-- A hash by its table, of 64 digits also where the table ends. -/
def hashIn (table : List (Text × String)) (t : Text) : Str :=
  match table.find? fun p => p.1 = t with
  | none => List.replicate 64 48
  | some p => Json.units p.2

def sampleClocks : Json :=
  .obj [item "clock_domain" (.str (Json.units "unknown")), item "event_time" .null,
    item "observation_time" .null]

/-- An input change as a client admits it. -/
def sampleObservation (sequence : ℕ) : Semantic where
  identity := ⟨⟨Json.units "source-1", by decide⟩, sequence⟩
  kind := .inputChange
  processId := ⟨Json.units "process-1", by decide⟩
  clocks := sampleClocks
  outcome := Json.units "input_change"

/-- The digests of two observations. -/
def sampleContents : List (Text × String) :=
  [(canonicalBytes (sampleObservation 1).json,
      "99e92e9a92a0b2a5e8aecb2182bafbfe0fb1e2be633793faf001118c82f11a50"),
    (canonicalBytes (sampleObservation 2).json,
      "f982b9d5804157b88d2056fd494f1d4a2e6203ee694d43963c5830f6e3ab9608")]

/-- The digests of their records. -/
def sampleRecords : List (Text × String) :=
  [(canonicalBytes (record (hashIn sampleContents) (sampleObservation 1) 1),
      "24475115fb9c410aa2046e69df0588ba215033ad0532a6710aef0c9b3a8422de"),
    (canonicalBytes (record (hashIn sampleContents) (sampleObservation 2) 1),
      "6b7d456703eed89f1d64538430881c607b3ab5c0da28bcc5ea8c7efe9902b45c")]

def sampleConfig : Config where
  sha256 := hashIn (sampleContents ++ sampleRecords)

/-- Pieces of the publication thread that nothing disturbs. -/
def undisturbed (n : ℕ) : List Action := List.replicate n (.work {})

/-- An observation is appended whole, and the process ends before its watermark is written; the
next process publishes another one. -/
def sampleActions : List Action :=
  [.start none .ok, .admitItem {} (sampleObservation 1)] ++ undisturbed 6 ++ [.crash] ++
    [.start none .ok, .admitItem {} (sampleObservation 2)] ++ undisturbed 9

/-- `published_prefix` in that run, whose second process publishes one record. -/
theorem published_prefix_sample :
    (Runs.run (step sampleConfig) {} sampleActions).disk.state =
        .holds { durableSeq := 1, durableOffset := 674, durableBytes := 674, maxPublishedSeq := 1,
                 crashTail := true, discardedUnpublishedBytes := 674 } ∧
      Published sampleConfig (Runs.run (step sampleConfig) {} sampleActions) :=
  ⟨by decide +kernel, published_prefix sampleConfig sampleActions (by decide +kernel)⟩

theorem rows_read_back_sample :
    ReadsBack sampleConfig (Runs.run (step sampleConfig) {} sampleActions) :=
  rows_read_back sampleConfig sampleActions (by decide +kernel)

/-- The first append raises once five bytes are in the file, and the next batch is published behind
them. -/
def shiftedActions : List Action :=
  [.start none .ok, .admitItem {} (sampleObservation 1), .work {},
    .admitItem {} (sampleObservation 2)] ++ undisturbed 4 ++
    [.work { append := .failed 5 }] ++ undisturbed 12

theorem getLast?_linesFrom (sha256 : Text → Str) (n : ℕ) {ss : List Semantic} (hss : ss ≠ []) :
    (linesFrom sha256 n ss).getLast? = some 10 := by
  rcases List.eq_nil_or_concat ss with rfl | ⟨ss, s, rfl⟩
  · exact absurd rfl hss
  · rw [List.concat_eq_append, linesFrom_append, linesFrom_cons]
    show (_ ++ ((canonicalBytes _ ++ [10]) ++ [])).getLast? = some 10
    rw [List.append_nil, ← List.append_assoc, List.getLast?_concat]

/-- **A failed append shifts the prefix**: the bytes that `state.json` says are published do not
end with a line. -/
theorem published_prefix_shifted :
    ¬ ∀ (c : Config) (acts : List Action), Published c (Runs.run (step c) {} acts) := by
  intro hall
  obtain ⟨hfile, -⟩ := hall sampleConfig shiftedActions
  have hstate : (Runs.run (step sampleConfig) {} shiftedActions).disk.state =
      .holds { durableSeq := 1, durableOffset := 674, durableBytes := 674, maxPublishedSeq := 1,
               storageFailure := true, storageFailedUnits := 1 } := by
    decide +kernel
  obtain ⟨ss, hexact⟩ := hfile _ hstate
  have hss : ss ≠ [] := by
    rintro rfl
    exact absurd hexact.seq (by decide)
  have hlast := getLast?_linesFrom sampleConfig.sha256 1 hss
  rw [← hexact.bytes] at hlast
  revert hlast
  decide +kernel

end Archive
end SemanticMemory
