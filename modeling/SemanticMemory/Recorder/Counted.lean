import SemanticMemory.Recorder.GapSteps

/-!
# What the gap record counts

While no gap is given up, the counters of the record are the totals of the gaps that the workers
took off `pending_gap_`, less the gaps still in their hands (`Exact`).  `exact_step` keeps this along
every step but two: a crash with a gap in hand, and a gap that is given up without an intent file.
A gap that is given up with an intent file leaves an orphan.
-/

namespace SemanticMemory
namespace Recorder

/-- What the worker holds and the record does not count. -/
def Pc.inHand (pc : Pc) (k : Counter) : ℤ :=
  match pc.uncounted with
  | some gap => gap.counts k
  | none => 0

theorem Pc.inHand_congr {pc pc' : Pc} (h : pc'.uncounted = pc.uncounted) : pc'.inHand = pc.inHand := by
  funext k
  simp only [Pc.inHand, h]

theorem Pc.inHand_of_none {pc : Pc} (h : pc.uncounted = none) (k : Counter) : pc.inHand k = 0 := by
  simp only [Pc.inHand, h]

/-- What the worker has taken and is done with. -/
def Coordinator.counted (c : Coordinator) (k : Counter) : ℤ :=
  gapTotals c.ledger.taken k - c.pc.inHand k

/-- The same over every worker there was. -/
def World.counted (w : World) (k : Counter) : ℤ :=
  gapTotals w.takenBefore k + (w.coordinators.map fun c => c.counted k).sum

theorem gapTotals_taken (w : World) (k : Counter) :
    gapTotals w.taken k =
      gapTotals w.takenBefore k + (w.coordinators.map fun c => gapTotals c.ledger.taken k).sum := by
  rw [World.taken, gapTotals_append]
  congr 1
  induction w.coordinators with
  | nil => rfl
  | cons c l ih => rw [List.flatMap_cons, gapTotals_append, ih, List.map_cons, List.sum_cons]

/-- When no worker holds a gap, everything taken is done with. -/
theorem counted_eq_taken {w : World} (h : ∀ c ∈ w.coordinators, c.pc.uncounted = none)
    (k : Counter) : w.counted k = gapTotals w.taken k := by
  rw [gapTotals_taken, World.counted]
  congr 2
  refine List.map_congr_left fun c hc => ?_
  rw [Coordinator.counted, Pc.inHand_of_none (h c hc), sub_zero]

/-- The record is readable and counts every gap the workers are done with; no gap was given up whose
intent file exists. -/
structure Exact (w : World) : Prop where
  known : w.disk.jsonUnknown = false
  marks : ∀ c ∈ w.coordinators, ∀ gap, c.pc = .markUnknown gap → gap.intent = none
  counts : ∀ k, w.disk.counts k = w.counted k

theorem exact_initial : Exact {} :=
  ⟨rfl, by simp, fun k => by simp [World.counted, Disk.counts]⟩

variable {c c' : Coordinator}

/-- One worker's step changes the total by the change of its own term. -/
theorem counted_set {w w' : World} {i : ℕ} (get : w.coordinators[i]? = some c)
    (coordinators : w'.coordinators = w.coordinators.set i c')
    (takenBefore : w'.takenBefore = w.takenBefore) (k : Counter) :
    w'.counted k = w.counted k - c.counted k + c'.counted k := by
  rw [World.counted, World.counted, coordinators, takenBefore,
    Components.sum_map_set (fun c : Coordinator => c.counted k) get]
  omega

theorem Coordinator.counted_congr (htaken : c'.ledger.taken = c.ledger.taken)
    (huncounted : c'.pc.uncounted = c.pc.uncounted) (k : Counter) : c'.counted k = c.counted k := by
  rw [Coordinator.counted, Coordinator.counted, htaken, Pc.inHand_congr huncounted]

/-- Taking an intent file away does not touch the record. -/
theorem removeGapIntent_frame (name : Option ℕ) (how : Unlink) (d : Disk) :
    (removeGapIntent name how d).2.json = d.json ∧ (removeGapIntent name how d).2.lock = d.lock := by
  unfold removeGapIntent
  split
  · exact ⟨rfl, rfl⟩
  · split <;> exact ⟨rfl, rfl⟩

/-- A step at which no gap is given up or recorded keeps `Exact`. -/
theorem Exact.keep {w w' : World} {i : ℕ} (h : Exact w) (get : w.coordinators[i]? = some c)
    (coordinators : w'.coordinators = w.coordinators.set i c')
    (takenBefore : w'.takenBefore = w.takenBefore) (hcounts : w'.disk.counts = w.disk.counts)
    (hknown : w'.disk.jsonUnknown = w.disk.jsonUnknown)
    (hcounted : ∀ k, c'.counted k = c.counted k)
    (hmarks : ∀ gap, c'.pc = .markUnknown gap → gap.intent = none) : Exact w' := by
  refine ⟨hknown.trans h.known, ?_, fun k => ?_⟩
  · rw [coordinators]
    exact Components.forall_mem_set h.marks hmarks
  · rw [hcounts, h.counts, counted_set get coordinators takenBefore k, hcounted]
    omega

/-- **`Exact` along a step.**  Unless a worker marks the record unknown or the process dies with a
gap in hand, the record stays exact, or the gap that is given up leaves its intent file. -/
theorem exact_step {w : World} (a : Action) (hnames : Names w) (h : Exact w)
    (hmark : ∀ i env c gap, a = .worker i env → w.coordinators[i]? = some c →
      c.pc ≠ .markUnknown gap)
    (hcrash : a = .crash → ∀ c ∈ w.coordinators, c.pc.uncounted = none) :
    Exact (step w a) ∨ Orphan (step w a) := by
  cases step_worldStep w a hnames.fresh with
  | idle coordinators disk takenBefore =>
    refine Or.inl ⟨?_, ?_, fun k => ?_⟩
    · rw [disk]
      exact h.known
    · rw [coordinators]
      exact h.marks
    · rw [World.counted, disk, coordinators, takenBefore]
      exact h.counts k
  | queued i c c' get coordinators disk takenBefore pc taken recorded unrecorded =>
    refine Or.inl (h.keep get coordinators takenBefore (by rw [disk]) (by rw [disk])
      (Coordinator.counted_congr taken (by rw [pc])) fun gap hgap => ?_)
    rw [pc] at hgap
    exact h.marks c (List.mem_of_getElem? get) gap hgap
  | created coordinators disk takenBefore =>
    refine Or.inl ⟨?_, ?_, fun k => ?_⟩
    · rw [disk]
      exact h.known
    · rw [coordinators]
      intro c hc gap hgap
      rcases List.mem_append.mp hc with hc | hc
      · exact h.marks c hc gap hgap
      · rw [List.mem_singleton.mp hc] at hgap
        cases hgap
    · have hnew : ({} : Coordinator).counted k = 0 := rfl
      rw [World.counted, disk, coordinators, takenBefore, List.map_append, List.sum_append,
        List.map_singleton, List.sum_singleton, hnew, add_zero]
      exact h.counts k
  | worked i env c c' action get coordinators gap takenBefore =>
    have hmem := List.mem_of_getElem? get
    cases gap with
    | other files uncounted held taken recorded unrecorded calm =>
      exact Or.inl (h.keep get coordinators takenBefore files.counts files.jsonUnknown
        (Coordinator.counted_congr taken uncounted) fun gap hgap => absurd hgap (calm gap))
    | took gap pc pc' disk taken recorded unrecorded =>
      refine Or.inl (h.keep get coordinators takenBefore (by rw [disk]) (by rw [disk])
        (fun k => ?_) fun g hg => ?_)
      · have hready : c.pc.inHand k = 0 := by rw [pc]; rfl
        have hhand : c'.pc.inHand k = gap.counts k := by rw [pc']; rfl
        rw [Coordinator.counted, Coordinator.counted, taken, gapTotals_append, gapTotals_singleton,
          hready, hhand]
        omega
      · rw [pc'] at hg
        cases hg
    | intentCreated gap name pc pc' mem fresh grows below next json lock ledger =>
      refine Or.inl (h.keep get coordinators takenBefore (Disk.counts_congr json)
        (Disk.jsonUnknown_congr json) (fun k => ?_) fun g hg => ?_)
      · have hhand : c'.pc.inHand k = c.pc.inHand k := by
          rw [pc, pc']
          cases k <;> rfl
        rw [Coordinator.counted, Coordinator.counted, ledger, hhand]
      · rw [pc'] at hg
        cases hg
    | intentRefused gap pc intent pc' refused grows below next json lock ledger =>
      refine Or.inl (h.keep get coordinators takenBefore (Disk.counts_congr json)
        (Disk.jsonUnknown_congr json) (fun k => ?_) fun g hg => ?_)
      · refine Coordinator.counted_congr (by rw [ledger]; rfl) ?_ k
        rw [pc, pc']
        exact if_pos intent
      · rw [pc'] at hg
        cases hg
        exact intent
    | updated gap pc pc' disk ok ledger =>
      -- the update succeeds: the gap moves from the worker's hands into the record
      have hspec := updateGap_spec env.update gap.reason gap.counts w.disk
      obtain ⟨hknown, hcounts⟩ := hspec.counted ok h.known
      rw [← disk] at hknown hcounts
      refine Or.inl ⟨hknown, ?_, fun k => ?_⟩
      · rw [coordinators]
        refine Components.forall_mem_set h.marks fun g hg => ?_
        rw [pc'] at hg
        cases hg
      · have hhand : c.pc.inHand k = gap.counts k := by rw [pc]; rfl
        have hdone : c'.pc.inHand k = 0 := by rw [pc']; rfl
        have htaken : c'.ledger.taken = c.ledger.taken := by rw [ledger]; rfl
        have hc : c'.counted k = c.counted k + gap.counts k := by
          rw [Coordinator.counted, Coordinator.counted, htaken, hhand, hdone]
          omega
        rw [hcounts k, h.counts k, counted_set get coordinators takenBefore k, hc]
        omega
    | updateFailed gap pc pc' disk ledger =>
      -- the update fails: its intent file stays, and nobody holds it any more
      have hspec := updateGap_spec env.update gap.reason gap.counts w.disk
      obtain ⟨name, hname⟩ := Option.isSome_iff_exists.mp
        ((hnames.fresh c hmem).held gap (Or.inl pc))
      have hheld : c.pc.held = some name := by rw [pc]; exact hname
      refine Or.inr (orphan_of_release hnames get coordinators hheld (by rw [pc']; rfl) ?_)
      rw [disk, hspec.intents]
      exact hnames.held c hmem name hheld
    | marked gap pc pc' disk ledger => exact absurd pc (hmark i env c gap action get)
    | removed gap pc persisted pc' disk ledger =>
      obtain ⟨hjson, -⟩ := removeGapIntent_frame gap.intent env.removeIntent w.disk
      refine Or.inl (h.keep get coordinators takenBefore (Disk.counts_congr (by rw [disk]; exact hjson))
        (Disk.jsonUnknown_congr (by rw [disk]; exact hjson)) (fun k => ?_) fun g hg => ?_)
      · exact Coordinator.counted_congr (by rw [ledger]) (by rw [pc, pc']; rfl) k
      · rw [pc'] at hg
        cases hg
  | crashed action coordinators files takenBefore =>
    refine Or.inl ⟨files.jsonUnknown.trans h.known, by rw [coordinators]; simp, fun k => ?_⟩
    rw [files.counts, h.counts k, counted_eq_taken (hcrash action) k, World.counted, coordinators,
      takenBefore]
    simp

end Recorder
end SemanticMemory
