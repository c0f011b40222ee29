import Mathlib
import SemanticMemory.Rerank.Plan

/-!
# The emission order

A replay that accepts emits a permutation of the candidates: `replay_emission`.

* What the validator has seen of the groups is `Grouping`: their members are distinct, ascending in
  each group, and rerankable.  `scanGroups_eq_some` reads it off the pass over the groups, one
  member at a time, and with the check that follows the pass the groups partition the rerankable
  candidates.
* A stable sort of an ascending list breaks ties by the index: `pairwise_insertionSort_of_pairwise`.
* As many words as there are rerankable places fill these places, and nothing else moves:
  `refill_spec`.
-/

namespace SemanticMemory.Rerank

/-! ## What the pass over the groups has seen -/

structure Enters (candidates : List RerankPlanCandidate) (group : RerankPlanGroup) (i : ℕ) :
    Prop where
  lt : i < candidates.length
  rerankable : (candidates.getD i {}).isRerankable = true
  start : (candidates.getD i {}).start = group.start
  stop : (candidates.getD i {}).stop = group.stop
  category : (candidates.getD i {}).category = group.category

/-- The scan after a member. -/
def Scan.step (groupIndex : ℕ) (s : Scan × Option ℕ) (i : ℕ) : Scan × Option ℕ :=
  ({ s.1 with grouped := i :: s.1.grouped, boundary := s.1.bound groupIndex i }, some i)

section Scan

variable {candidates : List RerankPlanCandidate} {group : RerankPlanGroup} {groupIndex : ℕ}

theorem scanMember_eq_some {s s' : Scan × Option ℕ} {i : ℕ} :
    scanMember candidates group groupIndex s i = some s' ↔
      (Enters candidates group i ∧ i ∉ s.1.grouped ∧ ∀ j ∈ s.2, j < i) ∧
        s' = Scan.step groupIndex s i := by
  unfold scanMember
  constructor
  · intro h
    by_cases hin : (decide (candidates.length ≤ i) || decide (i ∈ s.1.grouped)) = true
    · rw [if_pos hin] at h
      cases h
    rw [if_neg hin] at h
    rw [Bool.or_eq_true, decide_eq_true_eq, decide_eq_true_eq, not_or, Nat.not_le] at hin
    dsimp only at h
    split_ifs at h with hbad
    simp only [Bool.or_eq_true, Bool.not_eq_true', decide_eq_true_eq, not_or, ne_eq,
      Decidable.not_not, Bool.not_eq_false] at hbad
    obtain ⟨⟨⟨⟨hr, hstart⟩, hstop⟩, hcategory⟩, hprevious⟩ := hbad
    refine ⟨⟨⟨hin.1, hr, hstart, hstop, hcategory⟩, hin.2, fun j hj => ?_⟩,
      (Option.some.inj h).symm⟩
    rw [Option.mem_def] at hj
    rw [hj] at hprevious
    simpa using hprevious
  · rintro ⟨⟨henters, hnew, hprevious⟩, rfl⟩
    have hlast : s.2.any (fun j => decide (i ≤ j)) = false := by
      rcases h2 : s.2 with - | j
      · rfl
      · exact decide_eq_false (Nat.not_le.mpr (hprevious j h2))
    rw [if_neg (by simpa using ⟨henters.lt, hnew⟩)]
    dsimp only
    rw [henters.rerankable, henters.start, henters.stop, henters.category, hlast,
      if_neg (by simp)]
    rfl

/-- **The pass over a group**: every member may stand in the group and is new, and they ascend. -/
theorem scanMembers_eq_some {s s' : Scan × Option ℕ} {is : List ℕ} :
    scanMembers candidates group groupIndex s is = some s' ↔
      (∀ i ∈ is, Enters candidates group i ∧ i ∉ s.1.grouped ∧ ∀ j ∈ s.2, j < i) ∧
        is.Pairwise (· < ·) ∧ s' = is.foldl (Scan.step groupIndex) s := by
  induction is generalizing s with
  | nil =>
    rw [scanMembers, Option.some_inj]
    exact ⟨fun h => ⟨List.forall_mem_nil _, .nil, h.symm⟩, fun h => h.2.2.symm⟩
  | cons i is ih =>
    rw [scanMembers]
    constructor
    · intro h
      rcases hm : scanMember candidates group groupIndex s i with - | s₁
      · rw [hm] at h
        cases h
      rw [hm] at h
      obtain ⟨hi, rfl⟩ := scanMember_eq_some.mp hm
      obtain ⟨hrest, hpairwise, rfl⟩ := ih.mp h
      have hafter (j : ℕ) (hj : j ∈ is) : i < j := (hrest j hj).2.2 i rfl
      refine ⟨fun j hj => ?_, List.pairwise_cons.mpr ⟨hafter, hpairwise⟩, rfl⟩
      rcases List.mem_cons.mp hj with rfl | hj
      · exact hi
      · exact ⟨(hrest j hj).1, fun hmem => (hrest j hj).2.1 (List.mem_cons_of_mem _ hmem),
          fun k hk => (hi.2.2 k hk).trans (hafter j hj)⟩
    · rintro ⟨hall, hpairwise, rfl⟩
      rw [List.pairwise_cons] at hpairwise
      rw [scanMember_eq_some.mpr ⟨hall i List.mem_cons_self, rfl⟩]
      refine ih.mpr ⟨fun j hj => ?_, hpairwise.2, rfl⟩
      obtain ⟨henters, hnew, -⟩ := hall j (List.mem_cons_of_mem _ hj)
      have hlt := hpairwise.1 j hj
      refine ⟨henters, fun hmem => ?_, fun k hk => ?_⟩
      · rcases List.mem_cons.mp hmem with heq | hmem
        · omega
        · exact hnew hmem
      · cases Option.some.inj hk
        exact hlt

theorem foldl_step_grouped (is : List ℕ) (s : Scan × Option ℕ) :
    (is.foldl (Scan.step groupIndex) s).1.grouped = is.reverse ++ s.1.grouped := by
  induction is generalizing s with
  | nil => rfl
  | cons i is ih =>
    rw [List.foldl_cons, ih, List.reverse_cons, List.append_assoc]
    rfl

theorem foldl_step_previousFirst (is : List ℕ) (s : Scan × Option ℕ) :
    (is.foldl (Scan.step groupIndex) s).1.previousFirst = s.1.previousFirst := by
  induction is generalizing s with
  | nil => rfl
  | cons i is ih => rw [List.foldl_cons, ih]; rfl

end Scan

/-- What the checks of a group say of it. -/
structure GroupOk (host : Host) (schemaId canonicalInput : Text)
    (candidates : List RerankPlanCandidate) (group : RerankPlanGroup) : Prop where
  head : validGroupHead canonicalInput group = true
  enters : ∀ i ∈ group.indexes, Enters candidates group i
  ascending : group.indexes.Pairwise (· < ·)
  identity : group.identity = some (computeGroupIdentity host schemaId group candidates)

def Scan.group (s : Scan) (groupIndex : ℕ) (group : RerankPlanGroup) : Scan :=
  { (group.indexes.foldl (Scan.step groupIndex) (s, none)).1 with
    previousFirst := some (group.indexes.headD 0) }

variable {groups : List RerankPlanGroup}

section Groups

variable {host : Host} {schemaId canonicalInput : Text} {candidates : List RerankPlanCandidate}

theorem scanGroup_eq_some {s s' : Scan} {groupIndex : ℕ} {group : RerankPlanGroup} :
    scanGroup host schemaId canonicalInput candidates s groupIndex group = some s' ↔
      GroupOk host schemaId canonicalInput candidates group ∧
        (∀ i ∈ group.indexes, i ∉ s.grouped) ∧
        (∀ j ∈ s.previousFirst, j < group.indexes.headD 0) ∧ s' = s.group groupIndex group := by
  unfold scanGroup
  constructor
  · intro h
    by_cases hhead : validGroupHead canonicalInput group = true
    swap
    · rw [if_pos (by simpa using hhead)] at h
      cases h
    rw [if_neg (by simpa using hhead)] at h
    rcases hm : scanMembers candidates group groupIndex (s, none) group.indexes with - | s₁
    · rw [hm] at h
      cases h
    rw [hm] at h
    obtain ⟨hmembers, hascending, rfl⟩ := scanMembers_eq_some.mp hm
    dsimp only at h
    rw [foldl_step_previousFirst] at h
    split_ifs at h with hfirst hidentity
    refine ⟨⟨hhead, fun i hi => (hmembers i hi).1, hascending, ?_⟩, fun i hi => (hmembers i hi).2.1,
      fun j hj => ?_, (Option.some.inj h).symm⟩
    · simpa using hidentity
    · rw [Option.mem_def] at hj
      rw [hj] at hfirst
      simpa using hfirst
  · rintro ⟨hok, hnew, hfirst, rfl⟩
    rw [if_neg (by simpa using hok.head)]
    have hm : scanMembers candidates group groupIndex (s, none) group.indexes =
        some (group.indexes.foldl (Scan.step groupIndex) (s, none)) :=
      scanMembers_eq_some.mpr ⟨fun i hi => ⟨hok.enters i hi, hnew i hi, fun j hj => by cases hj⟩,
        hok.ascending, rfl⟩
    rw [hm]
    dsimp only
    rw [foldl_step_previousFirst, if_neg, if_neg]
    · rfl
    · simpa using hok.identity
    · rcases hp : s.previousFirst with - | j
      · simp
      · simpa using hfirst j hp

theorem grouped_group (s : Scan) (groupIndex : ℕ) (group : RerankPlanGroup) :
    (s.group groupIndex group).grouped = group.indexes.reverse ++ s.grouped :=
  foldl_step_grouped group.indexes (s, none)

/-- What the pass over some groups says of them. -/
structure Grouping (host : Host) (schemaId canonicalInput : Text)
    (candidates : List RerankPlanCandidate) (groups : List RerankPlanGroup) : Prop where
  ok : ∀ g ∈ groups, GroupOk host schemaId canonicalInput candidates g
  nodup : (groups.flatMap RerankPlanGroup.indexes).Nodup

/-- **The pass over the groups**: it marks the members of them all, each once. -/
theorem scanGroups_eq_some {s s' : Scan} {groupIndex : ℕ}
    (h : scanGroups host schemaId canonicalInput candidates s groupIndex groups = some s') :
    Grouping host schemaId canonicalInput candidates groups ∧
      (∀ i ∈ groups.flatMap RerankPlanGroup.indexes, i ∉ s.grouped) ∧
      ∀ i, i ∈ s'.grouped ↔ i ∈ groups.flatMap RerankPlanGroup.indexes ∨ i ∈ s.grouped := by
  induction groups generalizing s groupIndex with
  | nil =>
    cases Option.some.inj h
    exact ⟨⟨List.forall_mem_nil _, List.nodup_nil⟩,
      List.forall_mem_nil _, fun i => by simp⟩
  | cons group groups ih =>
    rw [scanGroups] at h
    rcases hg : scanGroup host schemaId canonicalInput candidates s groupIndex group with - | s₁
    · rw [hg] at h
      cases h
    rw [hg] at h
    obtain ⟨hok, hnew, -, rfl⟩ := scanGroup_eq_some.mp hg
    obtain ⟨hrest, hfresh, hmarked⟩ := ih h
    rw [grouped_group] at hfresh
    simp only [List.mem_append, List.mem_reverse, not_or] at hfresh
    refine ⟨⟨fun g hmem => ?_, ?_⟩, fun i hi => ?_, fun i => ?_⟩
    · rcases List.mem_cons.mp hmem with rfl | hmem
      · exact hok
      · exact hrest.ok g hmem
    · rw [List.flatMap_cons, List.nodup_append']
      exact ⟨hok.ascending.imp Nat.ne_of_lt, hrest.nodup, fun i hi hmem => (hfresh i hmem).1 hi⟩
    · rw [List.flatMap_cons, List.mem_append] at hi
      rcases hi with hi | hi
      · exact hnew i hi
      · exact (hfresh i hi).2
    · rw [hmarked i, grouped_group, List.flatMap_cons, List.mem_append, List.mem_append,
        List.mem_reverse]
      tauto

end Groups

/-! ## Stable sorting -/

section Sorting

variable {α : Type*} {r : α → α → Prop} [DecidableRel r] {before : α → α → Prop}

/-- What is inserted before all it is `before` of keeps ties in the order of `before`. -/
theorem pairwise_orderedInsert_of_pairwise (htotal : ∀ a b, r a b ∨ r b a)
    (htrans : ∀ a b c, r a b → r b c → r a c) {a : α} {l : List α} (hbefore : ∀ b ∈ l, before a b)
    (hl : l.Pairwise fun a b => r a b ∧ (r b a → before a b)) :
    (l.orderedInsert r a).Pairwise fun a b => r a b ∧ (r b a → before a b) := by
  induction l with
  | nil => exact List.pairwise_singleton _ a
  | cons b l ih =>
    rw [List.pairwise_cons] at hl
    by_cases hab : r a b
    · rw [List.orderedInsert_cons_of_le r l hab, List.pairwise_cons, List.pairwise_cons]
      refine ⟨fun x hx => ⟨?_, fun _ => hbefore x hx⟩, hl⟩
      rcases List.mem_cons.mp hx with rfl | hx
      · exact hab
      · exact htrans a b x hab (hl.1 x hx).1
    · rw [List.orderedInsert_of_not_le r l hab, List.pairwise_cons]
      refine ⟨fun x hx => ?_, ih (fun x hx => hbefore x (List.mem_cons_of_mem _ hx)) hl.2⟩
      rcases (List.mem_orderedInsert r).mp hx with rfl | hx
      · exact ⟨(htotal x b).resolve_left hab, fun h => absurd h hab⟩
      · exact hl.1 x hx

/-- **An insertion sort is stable**: what ties stays in the order it had. -/
theorem pairwise_insertionSort_of_pairwise (htotal : ∀ a b, r a b ∨ r b a)
    (htrans : ∀ a b c, r a b → r b c → r a c) {l : List α} (hl : l.Pairwise before) :
    (l.insertionSort r).Pairwise fun a b => r a b ∧ (r b a → before a b) := by
  induction l with
  | nil => exact .nil
  | cons a l ih =>
    rw [List.pairwise_cons] at hl
    rw [List.insertionSort_cons]
    exact pairwise_orderedInsert_of_pairwise htotal htrans
      (fun b hb => hl.1 b ((List.mem_insertionSort r).mp hb)) (ih hl.2)

end Sorting

/-! ## The scores -/

def RerankScoreResult.comparison (scores : RerankScoreResult) (i : ℕ) : Binary64 :=
  ((scores.candidateScores.getD []).getD i {}).comparisonScore.getD .zero

/-- Higher scores first, ties by the index. -/
def RerankScoreResult.Precedes (scores : RerankScoreResult) (left right : ℕ) : Prop :=
  Binary64.lt (scores.comparison right) (scores.comparison left) = true ∨
    Binary64.eq (scores.comparison left) (scores.comparison right) = true ∧ left < right

section Scores

variable {host : Host} {gamma : Binary64}

theorem checkScore_eq_some {score : RerankCandidateScore} {x : Binary64}
    (h : checkScore host gamma score = some x) : x.isFinite = true ∧
      (score.comparisonScore.getD .zero).isFinite = true ∧
      (score.comparisonScore.getD .zero).key = x.key := by
  unfold checkScore at h
  rcases score with ⟨base, evidence, comparison⟩
  rcases base with - | base
  · cases h
  rcases evidence with - | evidence
  · cases h
  rcases comparison with - | comparison
  · cases h
  dsimp only at h
  split_ifs at h with hbad heq
  simp only [Bool.or_eq_true, Bool.not_eq_true', not_or, Bool.not_eq_false] at hbad heq
  cases Option.some.inj h
  obtain ⟨⟨⟨-, hcomparison⟩, -⟩, -⟩ := hbad
  obtain ⟨hkey, hfinite⟩ := Binary64.isFinite_of_eq hcomparison heq
  exact ⟨hfinite, hcomparison, hkey⟩

/-- The scores that are compared are those of the result. -/
theorem checkScores_eq_some {scores : List RerankCandidateScore} {xs : List Binary64}
    (h : checkScores host gamma scores = some xs) : xs.length = scores.length ∧
      ∀ i < xs.length, (xs.getD i .zero).isFinite = true ∧
        ((scores.getD i {}).comparisonScore.getD .zero).isFinite = true ∧
        ((scores.getD i {}).comparisonScore.getD .zero).key = (xs.getD i .zero).key := by
  induction scores generalizing xs with
  | nil =>
    cases Option.some.inj h
    exact ⟨rfl, fun i hi => absurd hi (Nat.not_lt_zero i)⟩
  | cons score scores ih =>
    rw [checkScores] at h
    rcases hx : checkScore host gamma score with - | x
    · rw [hx] at h
      cases h
    rw [hx] at h
    obtain ⟨ys, hys, rfl⟩ := Option.map_eq_some_iff.mp h
    obtain ⟨hlength, hall⟩ := ih hys
    refine ⟨congrArg Nat.succ hlength, fun i hi => ?_⟩
    rcases i with - | i
    · exact checkScore_eq_some hx
    · exact hall i (Nat.lt_of_succ_lt_succ hi)

end Scores

/-! ## The arrangement -/

structure Arranged (scores : RerankScoreResult) (group : RerankPlanGroup) (members : List ℕ) :
    Prop where
  perm : members.Perm group.indexes
  sorted : group.isComplete = true → members.Pairwise scores.Precedes
  ascending : group.isComplete = false → members.Pairwise (· < ·)

section Arrange

variable {host : Host} {gamma : Binary64} {scores : RerankScoreResult} {xs : List Binary64}

/-- **The sort of a group**: by descending score, ties by the index. -/
theorem pairwise_stableSort (h : checkScores host gamma (scores.candidateScores.getD []) = some xs)
    {members : List ℕ} (hlt : ∀ i ∈ members, i < xs.length)
    (hascending : members.Pairwise (· < ·)) :
    (stableSort xs members).Pairwise scores.Precedes := by
  obtain ⟨-, hall⟩ := checkScores_eq_some h
  have hfinite (i : ℕ) : (xs.getD i .zero).isFinite = true := by
    by_cases hi : i < xs.length
    · exact (hall i hi).1
    · rw [List.getD_eq_default _ _ (Nat.le_of_not_lt hi)]
      decide
  have hkey (i j : ℕ) : (!Binary64.lt (xs.getD i .zero) (xs.getD j .zero)) = true ↔
      (xs.getD j .zero).key ≤ (xs.getD i .zero).key := by
    rw [Bool.not_eq_true', Bool.eq_false_iff, ne_eq, Binary64.lt_iff (hfinite i) (hfinite j),
      not_lt]
  have hsorted : (stableSort xs members).Pairwise fun left right =>
      (!Binary64.lt (xs.getD left .zero) (xs.getD right .zero)) = true ∧
        ((!Binary64.lt (xs.getD right .zero) (xs.getD left .zero)) = true → left < right) := by
    refine pairwise_insertionSort_of_pairwise (fun i j => ?_) (fun i j k => ?_) hascending
    · rw [hkey, hkey]
      exact le_total _ _
    · rw [hkey, hkey, hkey]
      exact fun hij hjk => hjk.trans hij
  have hmem (i : ℕ) (hi : i ∈ stableSort xs members) : i < xs.length :=
    hlt i ((List.mem_insertionSort _).mp hi)
  refine hsorted.imp_of_mem fun {i j} hi hj hij => ?_
  obtain ⟨-, (hcmpi : (scores.comparison i).isFinite = true),
    (hkeyi : (scores.comparison i).key = _)⟩ := hall i (hmem i hi)
  obtain ⟨-, (hcmpj : (scores.comparison j).isFinite = true),
    (hkeyj : (scores.comparison j).key = _)⟩ := hall j (hmem j hj)
  rw [hkey, hkey, ← hkeyi, ← hkeyj] at hij
  unfold RerankScoreResult.Precedes
  rw [Binary64.lt_iff hcmpj hcmpi, Binary64.eq_iff hcmpi hcmpj]
  rcases hij.1.lt_or_eq with hlt | heq
  · exact .inl hlt
  · exact .inr ⟨heq.symm, hij.2 heq.ge⟩

/-- A complete group is sorted, an incomplete one keeps its order. -/
theorem arrange_spec (h : checkScores host gamma (scores.candidateScores.getD []) = some xs)
    {group : RerankPlanGroup} (hlt : ∀ i ∈ group.indexes, i < xs.length)
    (hascending : group.indexes.Pairwise (· < ·)) :
    ∃ members, arrange xs group = some members ∧ Arranged scores group members := by
  unfold arrange
  by_cases hcomplete : group.isComplete = true
  · rw [if_pos hcomplete, if_pos (List.all_eq_true.mpr fun i hi => decide_eq_true (hlt i hi))]
    exact ⟨_, rfl, List.perm_insertionSort _ _, fun _ => pairwise_stableSort h hlt hascending,
      fun hc => absurd (hcomplete.symm.trans hc) (by decide)⟩
  · rw [if_neg hcomplete]
    exact ⟨_, rfl, .refl _, fun hc => absurd hc hcomplete, fun _ => hascending⟩

/-- The groups are emitted one after the other. -/
theorem wordOrder_spec (h : checkScores host gamma (scores.candidateScores.getD []) = some xs) (hlt : ∀ g ∈ groups, ∀ i ∈ g.indexes, i < xs.length)
    (hascending : ∀ g ∈ groups, g.indexes.Pairwise (· < ·)) :
    ∃ arranged, wordOrder xs groups = some arranged.flatten ∧
      List.Forall₂ (Arranged scores) groups arranged := by
  induction groups with
  | nil => exact ⟨[], rfl, .nil⟩
  | cons group groups ih =>
    obtain ⟨members, hmembers, harranged⟩ := arrange_spec h (hlt group List.mem_cons_self)
      (hascending group List.mem_cons_self)
    obtain ⟨rest, hrest, hforall⟩ := ih (fun g hg => hlt g (List.mem_cons_of_mem _ hg))
      (fun g hg => hascending g (List.mem_cons_of_mem _ hg))
    refine ⟨members :: rest, ?_, .cons harranged hforall⟩
    rw [wordOrder, hmembers]
    dsimp only
    rw [hrest]
    rfl

theorem perm_flatten_of_arranged {arranged : List (List ℕ)}
    (h : List.Forall₂ (Arranged scores) groups arranged) :
    arranged.flatten.Perm (groups.flatMap RerankPlanGroup.indexes) := by
  induction h with
  | nil => exact .nil
  | cons hg _ ih =>
    rw [List.flatten_cons, List.flatMap_cons]
    exact hg.perm.append ih

end Arrange

/-! ## The places -/

/-- The places of the candidates that are, or are not, rerankable, from the one at `i` on. -/
def places (rerankable : Bool) (candidates : List RerankPlanCandidate) (i : ℕ) : List ℕ :=
  ((candidates.zipIdx i).filter fun e => e.1.isRerankable = rerankable).map Prod.snd

section Places

variable {rerankable : Bool} {candidate : RerankPlanCandidate}
  {candidates : List RerankPlanCandidate}

theorem places_cons_of_eq (h : candidate.isRerankable = rerankable) (i : ℕ) :
    places rerankable (candidate :: candidates) i = i :: places rerankable candidates (i + 1) := by
  rw [places, List.zipIdx_cons, List.filter_cons_of_pos (by simpa using h), List.map_cons, places]

theorem places_cons_of_ne (h : candidate.isRerankable ≠ rerankable) (i : ℕ) :
    places rerankable (candidate :: candidates) i = places rerankable candidates (i + 1) := by
  rw [places, List.zipIdx_cons, List.filter_cons_of_neg (by simpa using h), places]

theorem mem_places {i k : ℕ} : k ∈ places rerankable candidates i ↔
    ∃ c, (c, k) ∈ candidates.zipIdx i ∧ c.isRerankable = rerankable := by
  simp only [places, List.mem_map, List.mem_filter, decide_eq_true_eq]
  constructor
  · rintro ⟨⟨c, j⟩, ⟨hmem, hc⟩, rfl⟩
    exact ⟨c, hmem, hc⟩
  · rintro ⟨c, hmem, hc⟩
    exact ⟨(c, k), ⟨hmem, hc⟩, rfl⟩

theorem nodup_places (i : ℕ) : (places rerankable candidates i).Nodup := by
  have hall : ((candidates.zipIdx i).map Prod.snd).Nodup := by
    rw [List.zipIdx_map_snd]
    exact List.nodup_range'
  exact hall.sublist (List.filter_sublist.map _)

/-- Every place is one of a rerankable candidate or of another. -/
theorem perm_places (i : ℕ) : (places true candidates i ++ places false candidates i).Perm
    (List.range' i candidates.length) := by
  have hsplit := List.filter_append_perm (fun e : RerankPlanCandidate × ℕ => e.1.isRerankable = true)
    (candidates.zipIdx i)
  have hmap := hsplit.map Prod.snd
  rw [List.map_append, List.zipIdx_map_snd] at hmap
  refine (List.Perm.append_left _ (List.Perm.of_eq ?_)).trans hmap
  refine congrArg _ (List.filter_congr fun e _ => ?_)
  cases e.1.isRerankable <;> rfl

theorem refill_cons_of_rerankable (h : candidate.isRerankable = true) (i word : ℕ)
    (words : List ℕ) : refill i (candidate :: candidates) (word :: words) =
      (refill (i + 1) candidates words).map (word :: ·) := by
  rw [refill, if_pos h]

theorem refill_cons_of_not_rerankable (h : candidate.isRerankable = false) (i : ℕ)
    (words : List ℕ) : refill i (candidate :: candidates) words =
      (refill (i + 1) candidates words).map (i :: ·) := by
  cases words <;> simp only [refill, h, Bool.false_eq_true, if_false]

/-- **The words fill the rerankable places**, and the others keep their own. -/
theorem refill_spec {words : List ℕ} {i : ℕ}
    (hlength : words.length = (places true candidates i).length) :
    ∃ order, refill i candidates words = some order ∧ order.length = candidates.length ∧
      order.Perm (words ++ places false candidates i) ∧
      (∀ k ∈ places false candidates i, order[k - i]? = some k) ∧
      (places true candidates i).map (fun k => order[k - i]?) = words.map some := by
  induction candidates generalizing i words with
  | nil =>
    obtain rfl := List.length_eq_zero_iff.mp hlength
    exact ⟨[], rfl, rfl, .nil, List.forall_mem_nil _, rfl⟩
  | cons candidate candidates ih =>
    have hle (b : Bool) (k : ℕ) (hk : k ∈ places b candidates (i + 1)) : i + 1 ≤ k := by
      obtain ⟨c, hmem, -⟩ := mem_places.mp hk
      exact (List.mem_zipIdx hmem).1
    have hsucc (x : ℕ) (order : List ℕ) (k : ℕ) (hk : i + 1 ≤ k) :
        (x :: order)[k - i]? = order[k - (i + 1)]? := by
      rw [show k - i = k - (i + 1) + 1 by omega, List.getElem?_cons_succ]
    by_cases hc : candidate.isRerankable = true
    · rw [places_cons_of_eq hc] at hlength ⊢
      rw [places_cons_of_ne (by rw [hc]; decide)]
      cases words with
      | nil => cases hlength
      | cons word words =>
        obtain ⟨order, horder, hlen, hperm, hstays, hwords⟩ := ih (Nat.succ.inj hlength)
        refine ⟨word :: order, ?_, congrArg Nat.succ hlen, hperm.cons word, fun k hk => ?_, ?_⟩
        · rw [refill_cons_of_rerankable hc, horder]
          rfl
        · rw [hsucc word order k (hle false k hk)]
          exact hstays k hk
        · rw [List.map_cons, List.map_cons, ← hwords, Nat.sub_self]
          exact congrArg _ (List.map_congr_left fun k hk => hsucc word order k (hle true k hk))
    · have hf : candidate.isRerankable = false := by simpa using hc
      rw [places_cons_of_ne hc] at hlength ⊢
      rw [places_cons_of_eq hf]
      obtain ⟨order, horder, hlen, hperm, hstays, hwords⟩ := ih hlength
      refine ⟨i :: order, ?_, congrArg Nat.succ hlen, ?_, fun k hk => ?_, ?_⟩
      · rw [refill_cons_of_not_rerankable hf, horder]
        rfl
      · exact (hperm.cons i).trans List.perm_middle.symm
      · rcases List.mem_cons.mp hk with rfl | hk
        · rw [Nat.sub_self]
          rfl
        · rw [hsucc i order k (hle false k hk)]
          exact hstays k hk
      · rw [← hwords]
        exact List.map_congr_left fun k hk => hsucc i order k (hle true k hk)

end Places

/-! ## The replay -/

structure Emission (plan : RerankPlan) (scores : RerankScoreResult) (order : List ℕ) : Prop where
  perm : order.Perm (List.range plan.theCandidates.length)
  /-- A candidate that is not rerankable keeps its place. -/
  stays : ∀ i ∈ places false plan.theCandidates 0, order[i]? = some i
  /-- The groups, each in its order, stand in the rerankable places one after the other. -/
  words : ∃ arranged, List.Forall₂ (Arranged scores) plan.theGroups arranged ∧
    (places true plan.theCandidates 0).map (fun i => order[i]?) = arranged.flatten.map some

section Replay

variable {host : Host} {plan : RerankPlan}

theorem grouping_of_validPlan (h : validPlan host plan = true) :
    Grouping host (plan.schemaId.getD []) plan.theInput plan.theCandidates plan.theGroups ∧
      (plan.theGroups.flatMap RerankPlanGroup.indexes).Perm (places true plan.theCandidates 0) := by
  unfold validPlan at h
  rw [Bool.and_eq_true] at h
  obtain ⟨-, htail⟩ := h
  rcases hs : scanGroups host (plan.schemaId.getD []) plan.theInput plan.theCandidates {} 0
    plan.theGroups with - | s
  · rw [hs] at htail
    cases htail
  rw [hs] at htail
  obtain ⟨hgrouping, -, hmarked⟩ := scanGroups_eq_some hs
  refine ⟨hgrouping, (List.perm_ext_iff_of_nodup hgrouping.nodup (nodup_places 0)).mpr
    fun i => ?_⟩
  unfold validTail at htail
  rw [Bool.and_eq_true, Bool.and_eq_true, List.all_eq_true] at htail
  obtain ⟨⟨hcandidates, -⟩, -⟩ := htail
  have hin := hmarked i
  rw [or_iff_left (show i ∉ ({} : Scan).grouped from List.not_mem_nil)] at hin
  rw [← hin, mem_places]
  constructor
  · intro hi
    obtain ⟨g, hg, hig⟩ := List.mem_flatMap.mp (hin.mp hi)
    have henters := (hgrouping.ok g hg).enters i hig
    refine ⟨plan.theCandidates.getD i {}, ?_, henters.rerankable⟩
    rw [List.getD_eq_getElem _ _ henters.lt, List.mem_zipIdx_iff_getElem?]
    exact List.getElem?_eq_getElem henters.lt
  · rintro ⟨c, hmem, hc⟩
    have hall := hcandidates (c, i) hmem
    rw [decide_eq_true_eq] at hall
    exact of_decide_eq_true (hall.symm.trans hc)

/-- What passes the checks is emitted in the groups' order. -/
theorem emission_of_accepts {scores : RerankScoreResult} {xs : List Binary64}
    (haccepts : acceptsResult host plan scores = true)
    (hxs : checkScores host (plan.thePolicy.gamma.getD .zero)
      (scores.candidateScores.getD []) = some xs) (emissionOrder : List ℕ) :
    ∃ order, replayRerankPlan host plan scores (some emissionOrder) = some (true, some order) ∧
      Emission plan scores order := by
  have hchecks := haccepts
  unfold acceptsResult at hchecks
  simp only [Bool.and_eq_true] at hchecks
  obtain ⟨⟨⟨⟨hvalid, -⟩, -⟩, -⟩, hsize⟩ := hchecks
  obtain ⟨hgrouping, hpartition⟩ := grouping_of_validPlan hvalid
  have hlength : xs.length = plan.theCandidates.length := by
    rw [(checkScores_eq_some hxs).1]
    rcases hs : scores.candidateScores with - | s
    · rw [hs] at hsize
      cases hsize
    · rw [hs] at hsize
      exact of_decide_eq_true hsize
  obtain ⟨arranged, hwords, harranged⟩ := wordOrder_spec hxs
    (fun g hg i hi => hlength ▸ ((hgrouping.ok g hg).enters i hi).lt)
    (fun g hg => (hgrouping.ok g hg).ascending)
  have hperm := (perm_flatten_of_arranged harranged).trans hpartition
  obtain ⟨order, horder, -, hall, hstays, hplaces⟩ := refill_spec hperm.length_eq
  refine ⟨order, ?_, ?_, hstays, arranged, harranged, hplaces⟩
  · unfold replayRerankPlan
    rw [haccepts, if_neg (by simp), hxs]
    dsimp only
    rw [hwords]
    dsimp only
    rw [horder]
  · rw [List.range_eq_range']
    exact hall.trans ((hperm.append_right _).trans (perm_places 0))

/-- **The replay**: what it accepts it emits in the groups' order, and what it refuses leaves the
vector as it was.  It never reads beyond a vector. -/
theorem replay_emission (host : Host) (plan : RerankPlan) (scores : RerankScoreResult)
    (emissionOrder : Option (List ℕ)) :
    replayRerankPlan host plan scores emissionOrder = some (false, emissionOrder) ∨
      ∃ order, replayRerankPlan host plan scores emissionOrder = some (true, some order) ∧
        Emission plan scores order := by
  rcases emissionOrder with - | emissionOrder
  · exact .inl rfl
  by_cases haccepts : acceptsResult host plan scores = true
  swap
  · unfold replayRerankPlan
    rw [if_pos (by simp [haccepts])]
    exact .inl rfl
  rcases hxs : checkScores host (plan.thePolicy.gamma.getD .zero) (scores.candidateScores.getD [])
    with - | xs
  · unfold replayRerankPlan
    rw [haccepts, if_neg (by simp), hxs]
    exact .inl rfl
  · exact .inr (emission_of_accepts haccepts hxs emissionOrder)

end Replay

end SemanticMemory.Rerank
