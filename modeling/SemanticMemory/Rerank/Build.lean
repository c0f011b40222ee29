import Mathlib
import SemanticMemory.Rerank.Plan
import SemanticMemory.Rerank.Replay

/-!
# The builder and the validator agree

What the builder builds from well-formed candidates the replay accepts: `buildRerankPlan_replays`.

* The builder's groups are those of the keys it has met: the members of a key's group are the
  rerankable candidates of this key so far, in ascending order.  `Built` says so after each
  candidate, and `Built.step` is the step of the loop.
* The validator's pass goes through when the groups are as `Grouping` says and their first members
  ascend: `scanGroups_of_grouping`.  The boundary it computes is the group of the last member there
  is: `Bounded`.  The builder's is the group of the last rerankable candidate.
-/

namespace SemanticMemory.Rerank

/-! ## The text before the input -/

theorem scalarStarts_of_decodeOne {bytes : Text} {c : Char} {length : ℕ}
    (h : Utf8.decodeOne bytes = some (c, length)) (fuel position : ℕ) :
    scalarStarts (fuel + 1) position bytes =
      (scalarStarts fuel (position + length) (bytes.drop length)).map (position :: ·) := by
  cases bytes with
  | nil => cases h
  | cons b bytes => simp only [scalarStarts, h]

theorem scalarStarts_encodeAll (s : List Char) {fuel position : ℕ} (hfuel : s.length ≤ fuel) :
    scalarStarts fuel position (Utf8.encodeAll s) =
      some ((List.range s.length).map fun k =>
        position + (Utf8.encodeAll (s.take k)).length) := by
  induction s generalizing fuel position with
  | nil => cases fuel <;> rfl
  | cons c s ih =>
    cases fuel with
    | zero => exact absurd hfuel (Nat.not_succ_le_zero _)
    | succ fuel =>
      rw [List.length_cons] at hfuel
      have hone := Utf8.decodeOne_encodeAll_cons c s []
      rw [List.append_nil] at hone
      rw [scalarStarts_of_decodeOne hone]
      rw [Utf8.encodeAll_cons, List.drop_left, ih (by omega), List.length_cons,
        List.range_succ_eq_map, List.map_cons, List.map_map]
      refine congrArg some (List.cons_eq_cons.mpr ⟨rfl, List.map_congr_left fun k _ => ?_⟩)
      show _ = position + (Utf8.encodeAll (c :: s.take k)).length
      rw [Utf8.encodeAll_cons, List.length_append]
      omega

theorem length_le_length_encodeAll (s : List Char) : s.length ≤ (Utf8.encodeAll s).length := by
  induction s with
  | nil => exact le_rfl
  | cons c s ih =>
    have := Utf8.length_encode_pos c
    rw [Utf8.encodeAll_cons, List.length_append, List.length_cons]
    omega

/-- **The last characters of a string** in UTF-8. -/
theorem lastUnicodeCharacters_encodeAll (s : List Char) (limit : ℕ) :
    lastUnicodeCharacters (Utf8.encodeAll s) limit =
      some (Utf8.encodeAll (s.drop (s.length - limit))) := by
  unfold lastUnicodeCharacters
  rw [scalarStarts_encodeAll s (length_le_length_encodeAll s)]
  dsimp only
  by_cases hlimit : limit = 0
  · rw [if_pos hlimit, hlimit, Nat.sub_zero, List.drop_length]
    rfl
  rw [if_neg hlimit, List.length_map, List.length_range]
  refine congrArg some ?_
  by_cases hlt : limit < s.length
  · rw [if_pos hlt, List.getD_eq_getElem _ _ (by rw [List.length_map, List.length_range]; omega),
      List.getElem_map, List.getElem_range, Nat.zero_add]
    have hsplit : Utf8.encodeAll s = Utf8.encodeAll (s.take (s.length - limit)) ++
        Utf8.encodeAll (s.drop (s.length - limit)) := by
      rw [← Utf8.encodeAll_append, List.take_append_drop]
    rw [hsplit, List.drop_left]
  · rw [if_neg hlt, Nat.sub_eq_zero_of_le (Nat.le_of_not_lt hlt)]
    rfl

/-- What is kept of the preceding text is kept whole. -/
theorem lastUnicodeCharacters_last (s : List Char) (limit : ℕ) :
    lastUnicodeCharacters (Utf8.encodeAll (s.drop (s.length - limit))) limit =
      some (Utf8.encodeAll (s.drop (s.length - limit))) := by
  rw [lastUnicodeCharacters_encodeAll, List.length_drop,
    show s.length - (s.length - limit) - limit = 0 by omega]
  rfl

theorem lowerByte_lowerByte (b : Byte) : lowerByte (lowerByte b) = lowerByte b := by
  unfold lowerByte
  by_cases h : (65 ≤ b.val && b.val ≤ 90) = true
  · rw [if_pos h]
    refine if_neg ?_
    rw [Bool.and_eq_true, decide_eq_true_eq, decide_eq_true_eq] at h
    rw [Bool.and_eq_true, decide_eq_true_eq, decide_eq_true_eq]
    have hval : (Fin.ofNat 256 (b.val + 32)).val = b.val + 32 := Utf8.val_ofNat (by omega)
    omega
  · rw [if_neg h, if_neg h]

theorem canonicalizeInput_canonicalizeInput (input : Text) :
    canonicalizeInput (canonicalizeInput input) = canonicalizeInput input := by
  unfold canonicalizeInput
  rw [List.map_map]
  exact List.map_congr_left fun b _ => lowerByte_lowerByte b

/-! ## When the pass over the groups goes through -/

section Accept

variable {host : Host} {schemaId canonicalInput : Text} {candidates : List RerankPlanCandidate}

/-- **The validator accepts a grouping** whose groups are ordered by their first members. -/
theorem scanGroups_of_grouping {s : Scan} {groupIndex : ℕ} {groups : List RerankPlanGroup}
    (hgrouping : Grouping host schemaId canonicalInput candidates groups)
    (hnew : ∀ i ∈ groups.flatMap RerankPlanGroup.indexes, i ∉ s.grouped)
    (hheads : groups.Pairwise fun g g' => g.indexes.headD 0 < g'.indexes.headD 0)
    (hfirst : ∀ j ∈ s.previousFirst, ∀ g ∈ groups, j < g.indexes.headD 0) :
    ∃ s', scanGroups host schemaId canonicalInput candidates s groupIndex groups = some s' := by
  induction groups generalizing s groupIndex with
  | nil => exact ⟨s, rfl⟩
  | cons group groups ih =>
    rw [List.pairwise_cons] at hheads
    have hnodup := hgrouping.nodup
    rw [List.flatMap_cons, List.nodup_append'] at hnodup
    have hg : scanGroup host schemaId canonicalInput candidates s groupIndex group =
        some (s.group groupIndex group) :=
      scanGroup_eq_some.mpr ⟨hgrouping.ok group List.mem_cons_self,
        fun i hi => hnew i (List.mem_append_left _ hi),
        fun j hj => hfirst j hj group List.mem_cons_self, rfl⟩
    have hrest : ∃ s', scanGroups host schemaId canonicalInput candidates
        (s.group groupIndex group) (groupIndex + 1) groups = some s' := by
      refine ih ⟨fun g hg => hgrouping.ok g (List.mem_cons_of_mem _ hg), hnodup.2.1⟩
        (fun i hi hmem => ?_) hheads.2 (fun j hj g hg => ?_)
      · rw [grouped_group, List.mem_append, List.mem_reverse] at hmem
        rcases hmem with hmem | hmem
        · exact hnodup.2.2 hmem hi
        · exact hnew i (List.mem_append_right _ hi) hmem
      · cases Option.some.inj hj
        exact hheads.1 g hg
    rw [scanGroups, hg]
    exact hrest

/-- The boundary is the group of the last member so far. -/
def Bounded (groups : List RerankPlanGroup) (s : Scan) : Prop :=
  match s.boundary with
  | none => s.grouped = []
  | some (g, c) => c ∈ s.grouped ∧ (∀ k ∈ s.grouped, k ≤ c) ∧
      ∃ group, groups[g]? = some group ∧ c ∈ group.indexes

variable {groups : List RerankPlanGroup} {group : RerankPlanGroup} {groupIndex : ℕ}

theorem Bounded.step {s : Scan × Option ℕ} (h : Bounded groups s.1)
    (hgroup : groups[groupIndex]? = some group) {i : ℕ} (hi : i ∈ group.indexes) :
    Bounded groups (Scan.step groupIndex s i).1 := by
  unfold Bounded Scan.step Scan.bound
  unfold Bounded at h
  rcases hb : s.1.boundary with - | ⟨g, c⟩
  · rw [hb] at h
    dsimp only at h ⊢
    rw [h]
    exact ⟨List.mem_cons_self, fun k hk => (List.mem_singleton.mp hk).le, group, hgroup, hi⟩
  · rw [hb] at h
    obtain ⟨hmem, hmax, hc⟩ := h
    dsimp only
    by_cases hlt : c < i
    · rw [if_pos hlt]
      refine ⟨List.mem_cons_self, fun k hk => ?_, group, hgroup, hi⟩
      rcases List.mem_cons.mp hk with rfl | hk
      · exact le_rfl
      · exact (hmax k hk).trans hlt.le
    · rw [if_neg hlt]
      refine ⟨List.mem_cons_of_mem _ hmem, fun k hk => ?_, hc⟩
      rcases List.mem_cons.mp hk with rfl | hk
      · exact Nat.le_of_not_lt hlt
      · exact hmax k hk

theorem Bounded.steps {is : List ℕ} {s : Scan × Option ℕ} (h : Bounded groups s.1)
    (hgroup : groups[groupIndex]? = some group) (his : ∀ i ∈ is, i ∈ group.indexes) :
    Bounded groups (is.foldl (Scan.step groupIndex) s).1 := by
  induction is generalizing s with
  | nil => exact h
  | cons i is ih =>
    exact ih (h.step hgroup (his i List.mem_cons_self)) fun j hj => his j (List.mem_cons_of_mem _ hj)

theorem Bounded.of_scanGroups {s s' : Scan} {rest : List RerankPlanGroup}
    (h : scanGroups host schemaId canonicalInput candidates s groupIndex rest = some s')
    (hrest : groups.drop groupIndex = rest) (hs : Bounded groups s) : Bounded groups s' := by
  induction rest generalizing s groupIndex with
  | nil =>
    cases Option.some.inj h
    exact hs
  | cons group rest ih =>
    rw [scanGroups] at h
    rcases hg : scanGroup host schemaId canonicalInput candidates s groupIndex group with - | s₁
    · rw [hg] at h
      cases h
    rw [hg] at h
    obtain ⟨-, -, -, rfl⟩ := scanGroup_eq_some.mp hg
    have hget : groups[groupIndex]? = some group := by
      rw [← Nat.add_zero groupIndex, ← List.getElem?_drop, hrest]
      rfl
    refine ih h ?_ ?_
    · rw [← List.tail_drop, hrest]
      rfl
    · have hsteps : Bounded groups (group.indexes.foldl (Scan.step groupIndex) (s, none)).1 :=
        Bounded.steps hs hget fun i hi => hi
      exact hsteps

end Accept

/-! ## The builder's loop -/

/-- A candidate the builder takes: its fields are there, its span lies in the input, and it is
rerankable only as a word. -/
structure WellFormed (canonicalInput : Text) (candidate : RerankPlanCandidate) : Prop where
  span : ∃ start stop, candidate.start = some start ∧ candidate.stop = some stop ∧ start ≤ stop ∧
    stop ≤ canonicalInput.length
  category : ∃ t, candidate.category = some t ∧ t ≠ []
  sourceType : ∃ t, candidate.sourceType = some t ∧ t ≠ []
  text : ∃ t, candidate.text = some t ∧ t ≠ []
  rerankable : ∃ r, candidate.rerankable = some r
  word : candidate.isRerankable = true → candidate.category = some (ascii "word")

/-- The key under which the candidate at `k` is grouped, if it is. -/
def keyAt (candidates : List RerankPlanCandidate) (k : ℕ) : Option GroupKey :=
  let c := candidates.getD k {}
  if c.isRerankable then some (c.start.getD 0, c.stop.getD 0, c.category.getD []) else none

/-- The members of a key's group among the first candidates. -/
def membersOf (candidates : List RerankPlanCandidate) (i : ℕ) (key : GroupKey) : List ℕ :=
  (List.range i).filter fun k => keyAt candidates k = some key

def groupFor (canonicalInput : Text) (candidates : List RerankPlanCandidate) (i : ℕ)
    (key : GroupKey) : RerankPlanGroup where
  start := some key.1
  stop := some key.2.1
  category := some key.2.2
  canonicalInput := some (span canonicalInput key.1 key.2.1)
  complete := some true
  candidateIndexes := some (membersOf candidates i key)

/-- The candidate at `k` after its merge order is set. -/
def RerankPlanCandidate.at (c : RerankPlanCandidate) (k : ℕ) : RerankPlanCandidate :=
  { c with mergeOrder := some k }

/-- The builder after the first candidates, when it has met some keys. -/
structure Built (canonicalInput : Text) (candidates : List RerankPlanCandidate) (i : ℕ)
    (keys : List GroupKey) (b : Building) : Prop where
  ordered : ∀ k, b.candidates[k]? = candidates[k]?.map fun c => if k < i then c.at k else c
  grouped : b.groups = keys.map (groupFor canonicalInput candidates i)
  indexes : b.groupIndexes = keys.zipIdx
  nodup : keys.Nodup
  met : ∀ key, key ∈ keys ↔ membersOf candidates i key ≠ []
  heads : keys.Pairwise fun key key' =>
    (membersOf candidates i key).headD 0 < (membersOf candidates i key').headD 0
  boundary : match b.boundary with
    | none => keys = []
    | some g => ∃ key last, keys[g]? = some key ∧ last < i ∧ keyAt candidates last = some key ∧
        ∀ k < i, (keyAt candidates k).isSome = true → k ≤ last

variable {key : GroupKey}

section Built

variable {canonicalInput : Text} {candidates : List RerankPlanCandidate} {i : ℕ}
  {keys : List GroupKey} {b : Building}

theorem mem_membersOf {k : ℕ} :
    k ∈ membersOf candidates i key ↔ k < i ∧ keyAt candidates k = some key := by
  rw [membersOf, List.mem_filter, List.mem_range, decide_eq_true_eq]

theorem pairwise_membersOf (key : GroupKey) : (membersOf candidates i key).Pairwise (· < ·) :=
  List.pairwise_lt_range.filter _

theorem membersOf_succ_of_eq (h : keyAt candidates i = some key) :
    membersOf candidates (i + 1) key = membersOf candidates i key ++ [i] := by
  rw [membersOf, List.range_succ, List.filter_append, membersOf,
    List.filter_cons_of_pos (by simpa using h), List.filter_nil]

theorem membersOf_succ_of_ne (h : keyAt candidates i ≠ some key) :
    membersOf candidates (i + 1) key = membersOf candidates i key := by
  rw [membersOf, List.range_succ, List.filter_append, membersOf,
    List.filter_cons_of_neg (by simpa using h), List.filter_nil, List.append_nil]

/-- A group that has a member keeps its first one. -/
theorem headD_membersOf_succ (h : membersOf candidates i key ≠ []) :
    (membersOf candidates (i + 1) key).headD 0 = (membersOf candidates i key).headD 0 := by
  by_cases hk : keyAt candidates i = some key
  · rw [membersOf_succ_of_eq hk]
    rcases hm : membersOf candidates i key with - | ⟨m, ms⟩
    · exact absurd hm h
    · rfl
  · rw [membersOf_succ_of_ne hk]

/-- The first member of a group comes before the next candidate. -/
theorem headD_membersOf_lt (h : membersOf candidates i key ≠ []) :
    (membersOf candidates i key).headD 0 < i := by
  rcases hm : membersOf candidates i key with - | ⟨m, ms⟩
  · exact absurd hm h
  · have hmem : m ∈ membersOf candidates i key := hm ▸ List.mem_cons_self
    exact (mem_membersOf.mp hmem).1

theorem groupFor_succ_of_ne (h : keyAt candidates i ≠ some key) :
    groupFor canonicalInput candidates (i + 1) key = groupFor canonicalInput candidates i key := by
  unfold groupFor
  rw [membersOf_succ_of_ne h]

theorem push_groupFor (h : keyAt candidates i = some key) :
    (groupFor canonicalInput candidates i key).push i =
      groupFor canonicalInput candidates (i + 1) key := by
  unfold groupFor RerankPlanGroup.push
  rw [membersOf_succ_of_eq h]
  rfl

/-- The candidates after one more has its merge order. -/
theorem Built.ordered_order (h : Built canonicalInput candidates i keys b) (k : ℕ) :
    (b.order i).candidates[k]? =
      candidates[k]?.map fun c => if k < i + 1 then c.at k else c := by
  unfold Building.order
  dsimp only
  rw [List.getElem?_modify, h.ordered k, Option.map_eq_map, Option.map_map]
  rcases candidates[k]? with - | c
  · rfl
  · refine congrArg some ?_
    show (if i = k then RerankPlanCandidate.at (if k < i then c.at k else c) i
      else if k < i then c.at k else c) = if k < i + 1 then c.at k else c
    rcases lt_trichotomy k i with hlt | rfl | hgt
    · rw [if_neg hlt.ne', if_pos hlt, if_pos (show k < i + 1 by omega)]
    · rw [if_pos rfl, if_neg (lt_irrefl k), if_pos (show k < k + 1 by omega)]
    · rw [if_neg hgt.ne, if_neg (not_lt_of_gt hgt), if_neg (show ¬ k < i + 1 by omega)]

/-- The candidate the builder looks at. -/
theorem Built.getD_order (h : Built canonicalInput candidates i keys b)
    (hi : i < candidates.length) :
    (b.order i).candidates.getD i {} = (candidates.getD i {}).at i := by
  rw [List.getD_eq_getElem?_getD, h.ordered_order, List.getD_eq_getElem?_getD,
    List.getElem?_eq_getElem hi]
  exact if_pos (Nat.lt_succ_self i)

/-- **A candidate that is not grouped** changes no group. -/
theorem Built.skip (h : Built canonicalInput candidates i keys b)
    (hkey : keyAt candidates i = none) :
    Built canonicalInput candidates (i + 1) keys (b.order i) := by
  have hne (key : GroupKey) : keyAt candidates i ≠ some key := by
    rw [hkey]
    exact fun heq => by cases heq
  refine ⟨h.ordered_order, ?_, h.indexes, h.nodup, fun key => ?_, ?_, ?_⟩
  · exact h.grouped.trans (List.map_congr_left fun key _ => (groupFor_succ_of_ne (hne key)).symm)
  · rw [membersOf_succ_of_ne (hne key)]
    exact h.met key
  · refine h.heads.imp fun {key key'} hlt => ?_
    rw [membersOf_succ_of_ne (hne key), membersOf_succ_of_ne (hne key')]
    exact hlt
  · have hboundary := h.boundary
    show match b.boundary with | none => keys = [] | some g => _
    rcases hb : b.boundary with - | g
    · rw [hb] at hboundary
      exact hboundary
    · rw [hb] at hboundary
      obtain ⟨key, last, hget, hlt, hlast, hmax⟩ := hboundary
      refine ⟨key, last, hget, Nat.lt_succ_of_lt hlt, hlast, fun k hk hsome => ?_⟩
      rcases Nat.lt_succ_iff_lt_or_eq.mp hk with hk | rfl
      · exact hmax k hk hsome
      · rw [hkey] at hsome
        cases hsome

/-- What holds of the boundary once the candidate at `i` has entered a group. -/
theorem boundary_enter {g : ℕ} (hkey : keyAt candidates i = some key) (hget : keys[g]? = some key) :
    ∃ key' last, keys[g]? = some key' ∧ last < i + 1 ∧
      keyAt candidates last = some key' ∧
        ∀ k < i + 1, (keyAt candidates k).isSome = true → k ≤ last :=
  ⟨key, i, hget, Nat.lt_succ_self i, hkey, fun _ hk _ => Nat.lt_succ_iff.mp hk⟩

/-- **A candidate enters the group of a key that has been met.** -/
theorem Built.enter (h : Built canonicalInput candidates i keys b)
    (hkey : keyAt candidates i = some key) (hmem : key ∈ keys) :
    Built canonicalInput candidates (i + 1) keys ((b.order i).enter (keys.idxOf key) i) := by
  have hlt : keys.idxOf key < keys.length := List.idxOf_lt_length_iff.mpr hmem
  have hget : keys[keys.idxOf key]? = some key := by
    rw [List.getElem?_eq_getElem hlt, List.getElem_idxOf]
  have hmet (key' : GroupKey) : membersOf candidates (i + 1) key' ≠ [] ↔ key' ∈ keys := by
    by_cases heq : keyAt candidates i = some key'
    · obtain rfl := Option.some.inj (hkey.symm.trans heq)
      rw [membersOf_succ_of_eq heq]
      exact ⟨fun _ => hmem, fun _ => by simp⟩
    · rw [membersOf_succ_of_ne heq, h.met]
  refine ⟨h.ordered_order, ?_, h.indexes, h.nodup, fun key' => (hmet key').symm, ?_,
    boundary_enter hkey hget⟩
  · show (b.groups).modify _ _ = _
    rw [h.grouped]
    refine List.ext_getElem? fun k => ?_
    rw [List.getElem?_modify, List.getElem?_map, List.getElem?_map]
    rcases hk : keys[k]? with - | key'
    · rfl
    · refine congrArg some ?_
      show (if keys.idxOf key = k then _ else _) = _
      by_cases heq : keys.idxOf key = k
      · subst heq
        obtain rfl := Option.some.inj (hget.symm.trans hk)
        rw [if_pos rfl]
        exact push_groupFor hkey
      · rw [if_neg heq]
        refine (groupFor_succ_of_ne fun hsame => heq ?_).symm
        obtain rfl := Option.some.inj (hkey.symm.trans hsame)
        exact (List.getElem?_inj hlt h.nodup).mp (hget.trans hk.symm)
  · refine h.heads.imp_of_mem fun {key₁ key₂} h₁ h₂ hlt => ?_
    rw [headD_membersOf_succ ((h.met key₁).mp h₁), headD_membersOf_succ ((h.met key₂).mp h₂)]
    exact hlt

/-- **A candidate opens the group of a key** that has not been met. -/
theorem Built.open (h : Built canonicalInput candidates i keys b)
    (hkey : keyAt candidates i = some key) (hmem : key ∉ keys) :
    Built canonicalInput candidates (i + 1) (keys ++ [key])
      (((b.order i).open canonicalInput key).enter (b.order i).groups.length i) := by
  have hempty : membersOf candidates i key = [] := by
    by_contra hne
    exact hmem ((h.met key).mpr hne)
  have hne {key' : GroupKey} (hk : key' ∈ keys) : keyAt candidates i ≠ some key' := by
    intro heq
    obtain rfl := Option.some.inj (hkey.symm.trans heq)
    exact hmem hk
  have hlength : (b.order i).groups.length = keys.length := by
    show b.groups.length = _
    rw [h.grouped, List.length_map]
  rw [hlength]
  have hnew : membersOf candidates (i + 1) key = [i] := by
    rw [membersOf_succ_of_eq hkey, hempty]
    rfl
  refine ⟨h.ordered_order, ?_, ?_, ?_, fun key' => ?_, ?_,
    boundary_enter hkey (List.getElem?_concat_length)⟩
  · show ((b.groups ++ [_]).modify _ _ : List RerankPlanGroup) = _
    rw [h.grouped, List.map_append]
    refine List.ext_getElem? fun k => ?_
    rw [List.getElem?_modify]
    rcases lt_trichotomy k keys.length with hlt | rfl | hgt
    · rw [List.getElem?_append_left (by rwa [List.length_map]),
        List.getElem?_append_left (by rwa [List.length_map]), List.getElem?_map, List.getElem?_map,
        List.getElem?_eq_getElem hlt]
      refine congrArg some ?_
      show (if keys.length = k then _ else _) = _
      rw [if_neg hlt.ne']
      exact (groupFor_succ_of_ne (hne (List.getElem_mem hlt))).symm
    · rw [List.getElem?_append_right (by rw [List.length_map]), List.length_map, Nat.sub_self,
        List.getElem?_append_right (by rw [List.length_map]), List.length_map, Nat.sub_self]
      refine congrArg some ?_
      show (if keys.length = keys.length then _ else _) = _
      rw [if_pos rfl]
      unfold groupFor RerankPlanGroup.push
      rw [hnew]
      rfl
    · rw [List.getElem?_eq_none (by simpa using hgt), List.getElem?_eq_none (by simpa using hgt)]
      rfl
  · show b.groupIndexes ++ [(key, b.groups.length)] = _
    rw [h.indexes, h.grouped, List.length_map, List.zipIdx_append, Nat.zero_add]
    rfl
  · rw [List.nodup_append']
    exact ⟨h.nodup, List.nodup_singleton key, fun key' hk hk' => hmem (List.mem_singleton.mp hk' ▸ hk)⟩
  · rw [List.mem_append, List.mem_singleton]
    by_cases heq : key' = key
    · rw [heq, hnew]
      simp
    · rw [membersOf_succ_of_ne fun hsame => heq (Option.some.inj (hsame.symm.trans hkey)), h.met key']
      simp [heq]
  · rw [List.pairwise_append]
    refine ⟨h.heads.imp_of_mem fun {key₁ key₂} h₁ h₂ hlt => ?_, List.pairwise_singleton _ key,
      fun key₁ h₁ key₂ h₂ => ?_⟩
    · rw [headD_membersOf_succ ((h.met key₁).mp h₁), headD_membersOf_succ ((h.met key₂).mp h₂)]
      exact hlt
    · rw [List.mem_singleton.mp h₂, hnew, headD_membersOf_succ ((h.met key₁).mp h₁)]
      exact headD_membersOf_lt ((h.met key₁).mp h₁)

theorem lookup_zipIdx (key : GroupKey) (keys : List GroupKey) (n : ℕ) :
    (keys.zipIdx n).lookup key = if key ∈ keys then some (n + keys.idxOf key) else none := by
  induction keys generalizing n with
  | nil => rfl
  | cons key' keys ih =>
    rw [List.zipIdx_cons]
    by_cases heq : key = key'
    · rw [heq, List.lookup_cons_self, if_pos List.mem_cons_self, List.idxOf_cons_self, Nat.add_zero]
    · rw [List.lookup_cons, beq_false_of_ne heq, ih]
      dsimp only
      by_cases hmem : key ∈ keys
      · rw [if_pos hmem, if_pos (List.mem_cons_of_mem _ hmem),
          List.idxOf_cons_ne _ (fun h => heq h.symm)]
        exact congrArg some (by omega)
      · rw [if_neg hmem, if_neg fun h => (List.mem_cons.mp h).elim heq hmem]

/-- **One candidate of the builder's loop.** -/
theorem Built.step (h : Built canonicalInput candidates i keys b) (hi : i < candidates.length)
    (hc : WellFormed canonicalInput (candidates.getD i {})) :
    ∃ keys' b', buildCandidate canonicalInput b i = .ok b' ∧
      Built canonicalInput candidates (i + 1) keys' b' := by
  obtain ⟨start, stop, hstart, hstop, hle, hinput⟩ := hc.span
  obtain ⟨category, hcategory, -⟩ := hc.category
  obtain ⟨sourceType, hsource, -⟩ := hc.sourceType
  obtain ⟨text, htext, -⟩ := hc.text
  obtain ⟨rerankable, hrerankable⟩ := hc.rerankable
  unfold buildCandidate
  dsimp only
  rw [h.getD_order hi]
  unfold RerankPlanCandidate.at
  dsimp only
  rw [hstart, hstop, hcategory, hrerankable, hsource, htext]
  dsimp only
  rw [if_neg (by simpa using ⟨hle, hinput⟩)]
  cases hr : rerankable with
  | false =>
    have hkey : keyAt candidates i = none := by
      unfold keyAt RerankPlanCandidate.isRerankable
      dsimp only
      rw [hrerankable, hr]
      rfl
    exact ⟨keys, _, rfl, h.skip hkey⟩
  | true =>
    have hkey : keyAt candidates i = some (start, stop, category) := by
      unfold keyAt RerankPlanCandidate.isRerankable
      dsimp only
      rw [hrerankable, hr, hstart, hstop, hcategory]
      rfl
    have hlookup : (b.order i).groupIndexes.lookup (start, stop, category) = _ :=
      (congrArg _ h.indexes).trans (lookup_zipIdx (start, stop, category) keys 0)
    rw [hlookup]
    by_cases hmem : (start, stop, category) ∈ keys
    · rw [if_pos hmem, Nat.zero_add]
      exact ⟨keys, _, rfl, h.enter hkey hmem⟩
    · rw [if_neg hmem]
      exact ⟨_, _, rfl, h.open hkey hmem⟩

/-- **The builder's loop** goes through well-formed candidates to the end. -/
theorem Built.steps (hcandidates : ∀ c ∈ candidates, WellFormed canonicalInput c) {n : ℕ}
    (h : Built canonicalInput candidates i keys b) (hn : i + n = candidates.length) :
    ∃ keys' b', buildCandidates canonicalInput b (List.range' i n) = .ok b' ∧
      Built canonicalInput candidates candidates.length keys' b' := by
  induction n generalizing i keys b with
  | zero => exact ⟨keys, b, rfl, hn ▸ h⟩
  | succ n ih =>
    have hi : i < candidates.length := by omega
    have hc : WellFormed canonicalInput (candidates.getD i {}) := by
      rw [List.getD_eq_getElem _ _ hi]
      exact hcandidates _ (List.getElem_mem hi)
    obtain ⟨keys', b', hb', hbuilt⟩ := h.step hi hc
    obtain ⟨keys'', b'', hb'', hdone⟩ := ih hbuilt (by omega)
    refine ⟨keys'', b'', ?_, hdone⟩
    rw [List.range'_succ, buildCandidates, hb']
    exact hb''

/-- The loop's state at its start. -/
theorem built_start (canonicalInput : Text) (candidates : List RerankPlanCandidate) :
    Built canonicalInput candidates 0 [] { candidates := candidates } := by
  refine ⟨fun k => ?_, rfl, rfl, List.nodup_nil, fun key => ?_, .nil, rfl⟩
  · simp
  · exact ⟨fun h => absurd h List.not_mem_nil, fun h => absurd rfl h⟩

end Built

/-! ## The plan that is built -/

section Plan

variable (host : Host) (schemaId canonicalInput : Text) (candidates : List RerankPlanCandidate)
  (windowTruncated : Bool) (b : Building)

/-- The group of the key at `k` in the plan. -/
def finishedGroup (k : ℕ) (key : GroupKey) : RerankPlanGroup :=
  let g := { groupFor canonicalInput candidates candidates.length key with
    complete := some (!(windowTruncated && b.boundary = some k)) }
  { g with identity := some (computeGroupIdentity host schemaId g b.candidates) }

def finishedGroups : List RerankPlanGroup :=
  (closeBoundary windowTruncated b).map fun g =>
    { g with identity := some (computeGroupIdentity host schemaId g b.candidates) }

variable {host schemaId canonicalInput candidates windowTruncated b}
variable {keys : List GroupKey}

theorem getElem?_closeBoundary (k : ℕ) : (closeBoundary windowTruncated b)[k]? =
    b.groups[k]?.map fun g =>
      if windowTruncated && b.boundary = some k then { g with complete := some false } else g := by
  unfold closeBoundary
  rcases hb : b.boundary with - | g
  · simp
  · cases windowTruncated with
    | false => simp
    | true =>
      dsimp only
      rw [if_pos rfl, List.getElem?_modify]
      refine congrArg (fun f => Option.map f b.groups[k]?) (funext fun group => ?_)
      by_cases heq : g = k
      · rw [if_pos heq, if_pos (by simpa using heq)]
      · rw [if_neg heq, if_neg (by simpa using heq)]

theorem getElem?_finishedGroups
    (h : Built canonicalInput candidates candidates.length keys b) (k : ℕ) :
    (finishedGroups host schemaId windowTruncated b)[k]? =
      keys[k]?.map (finishedGroup host schemaId canonicalInput candidates windowTruncated b k) := by
  unfold finishedGroups
  rw [List.getElem?_map, getElem?_closeBoundary, h.grouped, List.getElem?_map]
  rcases keys[k]? with - | key
  · rfl
  · refine congrArg some ?_
    unfold finishedGroup
    by_cases hb : (windowTruncated && decide (b.boundary = some k)) = true
    · rw [hb]
      rfl
    · rw [Bool.not_eq_true] at hb
      rw [hb]
      rfl

theorem map_indexes_finishedGroups
    (h : Built canonicalInput candidates candidates.length keys b) :
    (finishedGroups host schemaId windowTruncated b).map RerankPlanGroup.indexes =
      keys.map (membersOf candidates candidates.length) := by
  refine List.ext_getElem? fun k => ?_
  rw [List.getElem?_map, List.getElem?_map, getElem?_finishedGroups h, Option.map_map]
  rfl

/-- The members of the groups are the candidates with a key. -/
theorem mem_flatMap_finishedGroups
    (h : Built canonicalInput candidates candidates.length keys b) {k : ℕ} :
    k ∈ (finishedGroups host schemaId windowTruncated b).flatMap RerankPlanGroup.indexes ↔
      k < candidates.length ∧ (candidates.getD k {}).isRerankable = true := by
  rw [List.flatMap_def, map_indexes_finishedGroups h, ← List.flatMap_def, List.mem_flatMap]
  constructor
  · rintro ⟨key, -, hk⟩
    obtain ⟨hlt, hkey⟩ := mem_membersOf.mp hk
    refine ⟨hlt, ?_⟩
    by_contra hr
    unfold keyAt at hkey
    dsimp only at hkey
    rw [if_neg hr] at hkey
    cases hkey
  · rintro ⟨hlt, hr⟩
    have hkey : keyAt candidates k = some ((candidates.getD k {}).start.getD 0,
        (candidates.getD k {}).stop.getD 0, (candidates.getD k {}).category.getD []) := if_pos hr
    have hmem := mem_membersOf.mpr ⟨hlt, hkey⟩
    exact ⟨_, (h.met _).mpr (List.ne_nil_of_mem hmem), hmem⟩

theorem nodup_flatMap_finishedGroups
    (h : Built canonicalInput candidates candidates.length keys b) :
    ((finishedGroups host schemaId windowTruncated b).flatMap RerankPlanGroup.indexes).Nodup := by
  rw [List.flatMap_def, map_indexes_finishedGroups h, ← List.flatMap_def, List.nodup_flatMap]
  refine ⟨fun key _ => (pairwise_membersOf key).imp Nat.ne_of_lt, h.nodup.imp fun hne => ?_⟩
  intro k hk hk'
  exact hne (Option.some.inj ((mem_membersOf.mp hk).2.symm.trans (mem_membersOf.mp hk').2))

theorem getElem?_candidates (h : Built canonicalInput candidates candidates.length keys b) (k : ℕ) :
    b.candidates[k]? = candidates[k]?.map fun c => c.at k := by
  rw [h.ordered k]
  rcases hk : candidates[k]? with - | c
  · rfl
  · exact congrArg some (if_pos (List.getElem?_eq_some_iff.mp hk).1)

theorem getD_candidates (h : Built canonicalInput candidates candidates.length keys b) {k : ℕ}
    (hk : k < candidates.length) : b.candidates.getD k {} = (candidates.getD k {}).at k := by
  rw [List.getD_eq_getElem?_getD, getElem?_candidates h, List.getD_eq_getElem?_getD,
    List.getElem?_eq_getElem hk]
  rfl

theorem length_candidates (h : Built canonicalInput candidates candidates.length keys b) :
    b.candidates.length = candidates.length := by
  refine le_antisymm ?_ ?_
  · refine List.getElem?_eq_none_iff.mp ?_
    rw [getElem?_candidates h, List.getElem?_eq_none le_rfl]
    rfl
  · refine List.getElem?_eq_none_iff.mp ?_
    have hnone := getElem?_candidates h b.candidates.length
    rw [List.getElem?_eq_none le_rfl] at hnone
    exact Option.map_eq_none_iff.mp hnone.symm

theorem contentIdentity_ne_nil (kind : String) (canonical : Text) :
    contentIdentity host kind canonical ≠ [] := by
  unfold contentIdentity
  refine List.append_ne_nil_of_left_ne_nil (List.append_ne_nil_of_right_ne_nil _ ?_) _
  decide

/-- **A group of the plan passes the checks of a group.** -/
theorem groupOk_finishedGroup (h : Built canonicalInput candidates candidates.length keys b)
    (hcandidates : ∀ c ∈ candidates, WellFormed canonicalInput c) (hmem : key ∈ keys) (k : ℕ) :
    GroupOk host schemaId canonicalInput b.candidates
      (finishedGroup host schemaId canonicalInput candidates windowTruncated b k key) := by
  have henters (i : ℕ) (hi : i ∈ membersOf candidates candidates.length key) :
      Enters b.candidates
        (finishedGroup host schemaId canonicalInput candidates windowTruncated b k key) i := by
    obtain ⟨hlt, hkey⟩ := mem_membersOf.mp hi
    have hc : WellFormed canonicalInput (candidates.getD i {}) := by
      rw [List.getD_eq_getElem _ _ hlt]
      exact hcandidates _ (List.getElem_mem hlt)
    obtain ⟨start, stop, hstart, hstop, -⟩ := hc.span
    obtain ⟨category, hcategory, -⟩ := hc.category
    unfold keyAt at hkey
    dsimp only at hkey
    split_ifs at hkey with hr
    rw [hstart, hstop, hcategory] at hkey
    obtain rfl := Option.some.inj hkey
    have hat := getD_candidates h hlt
    exact ⟨length_candidates h ▸ hlt, by rw [hat]; exact hr, by rw [hat]; exact hstart,
      by rw [hat]; exact hstop, by rw [hat]; exact hcategory⟩
  have hne := (h.met key).mp hmem
  refine ⟨?_, henters, pairwise_membersOf key, rfl⟩
  -- the span and the category of a group are those of its first member
  obtain ⟨i, hi⟩ := List.exists_mem_of_ne_nil _ hne
  obtain ⟨hlt, hkey⟩ := mem_membersOf.mp hi
  have hc : WellFormed canonicalInput (candidates.getD i {}) := by
    rw [List.getD_eq_getElem _ _ hlt]
    exact hcandidates _ (List.getElem_mem hlt)
  have henter := henters i hi
  have hat := getD_candidates h hlt
  obtain ⟨start, stop, hstart, hstop, hle, hinput⟩ := hc.span
  have hword := hc.word (by have := henter.rerankable; rwa [hat] at this)
  have hs := henter.start
  have ht := henter.stop
  have hg := henter.category
  rw [hat] at hs ht hg
  obtain ⟨start', stop', category'⟩ := key
  obtain rfl : start = start' := Option.some.inj (hstart.symm.trans hs)
  obtain rfl : stop = stop' := Option.some.inj (hstop.symm.trans ht)
  obtain rfl : ascii "word" = category' := Option.some.inj (hword.symm.trans hg)
  unfold validGroupHead finishedGroup groupFor
  dsimp only
  simp only [Option.any_some, Option.isSome_some, Bool.and_true, Bool.and_eq_true,
    decide_eq_true_eq, and_true]
  exact ⟨⟨⟨contentIdentity_ne_nil _ _, hle⟩, hinput⟩, hne⟩

/-- **The validator's pass goes through the groups of the plan.** -/
theorem grouping_finishedGroups (h : Built canonicalInput candidates candidates.length keys b)
    (hcandidates : ∀ c ∈ candidates, WellFormed canonicalInput c) :
    Grouping host schemaId canonicalInput b.candidates
      (finishedGroups host schemaId windowTruncated b) := by
  refine ⟨fun g hg => ?_, nodup_flatMap_finishedGroups h⟩
  obtain ⟨k, hk⟩ := List.mem_iff_getElem?.mp hg
  rw [getElem?_finishedGroups h] at hk
  obtain ⟨key, hkey, rfl⟩ := Option.map_eq_some_iff.mp hk
  exact groupOk_finishedGroup h hcandidates (List.mem_of_getElem? hkey) k

theorem heads_finishedGroups (h : Built canonicalInput candidates candidates.length keys b) :
    (finishedGroups host schemaId windowTruncated b).Pairwise fun g g' =>
      g.indexes.headD 0 < g'.indexes.headD 0 := by
  have hmap : ((finishedGroups host schemaId windowTruncated b).map
      RerankPlanGroup.indexes).Pairwise fun is is' => is.headD 0 < is'.headD 0 := by
    rw [map_indexes_finishedGroups h, List.pairwise_map]
    exact h.heads
  rw [List.pairwise_map] at hmap
  exact hmap

/-- **Both find the same boundary**: the group of the last rerankable candidate. -/
theorem boundary_finishedGroups (h : Built canonicalInput candidates candidates.length keys b)
    {s : Scan} (hgrouped : ∀ i, i ∈ s.grouped ↔
      i < candidates.length ∧ (candidates.getD i {}).isRerankable = true)
    (hbounded : Bounded (finishedGroups host schemaId windowTruncated b) s) {k : ℕ}
    (hk : k < keys.length) : b.boundary = some k ↔ k = (s.boundary.map Prod.fst).getD 0 := by
  have hsome (i : ℕ) : (keyAt candidates i).isSome = true ↔
      (candidates.getD i {}).isRerankable = true := by
    unfold keyAt
    dsimp only
    by_cases hr : (candidates.getD i {}).isRerankable = true
    · rw [if_pos hr]
      exact ⟨fun _ => hr, fun _ => rfl⟩
    · rw [if_neg hr]
      exact ⟨fun hf => absurd hf (by decide), fun hf => absurd hf hr⟩
  have hboundary := h.boundary
  rcases hb : b.boundary with - | g
  · rw [hb] at hboundary
    rw [show keys = [] from hboundary] at hk
    exact absurd hk (Nat.not_lt_zero k)
  rw [hb] at hboundary
  obtain ⟨key, last, hget, hlt, hlast, hmax⟩ := hboundary
  have hlastmem : last ∈ s.grouped :=
    (hgrouped last).mpr ⟨hlt, (hsome last).mp (by rw [hlast]; rfl)⟩
  unfold Bounded at hbounded
  rcases hs : s.boundary with - | ⟨g', c⟩
  · rw [hs] at hbounded
    rw [show s.grouped = [] from hbounded] at hlastmem
    exact absurd hlastmem List.not_mem_nil
  rw [hs] at hbounded
  obtain ⟨hc, hcmax, group, hgroup, hin⟩ := hbounded
  obtain ⟨hclt, hcr⟩ := (hgrouped c).mp hc
  have hsame : c = last := le_antisymm (hmax c hclt ((hsome c).mpr hcr)) (hcmax last hlastmem)
  rw [getElem?_finishedGroups h] at hgroup
  obtain ⟨key', hkey', rfl⟩ := Option.map_eq_some_iff.mp hgroup
  have hckey : keyAt candidates c = some key' := (mem_membersOf.mp hin).2
  rw [hsame, hlast] at hckey
  obtain rfl := Option.some.inj hckey
  have hglt : g < keys.length := (List.getElem?_eq_some_iff.mp hget).1
  have hgg : g = g' := (List.getElem?_inj hglt h.nodup).mp (hget.trans hkey'.symm)
  rw [hgg, Option.some_inj]
  exact eq_comm

/-- A well-formed candidate passes the checks of a candidate once it has its merge order. -/
theorem validCandidate_at {c : RerankPlanCandidate} (h : WellFormed canonicalInput c) (i : ℕ) :
    validCandidate canonicalInput (c.at i) i = true := by
  obtain ⟨start, stop, hstart, hstop, hle, hinput⟩ := h.span
  obtain ⟨category, hcategory, hcne⟩ := h.category
  obtain ⟨sourceType, hsource, hsne⟩ := h.sourceType
  obtain ⟨text, htext, htne⟩ := h.text
  obtain ⟨rerankable, hrerankable⟩ := h.rerankable
  have hword := h.word
  unfold RerankPlanCandidate.isRerankable at hword
  rw [hrerankable, hcategory] at hword
  unfold validCandidate RerankPlanCandidate.at
  dsimp only
  rw [hstart, hstop, hcategory, hsource, htext, hrerankable]
  dsimp only
  rcases rerankable with - | -
  · simpa using ⟨⟨⟨⟨hle, hcne⟩, hsne⟩, htne⟩, hinput⟩
  · simpa using ⟨⟨⟨⟨⟨hle, hcne⟩, hsne⟩, htne⟩, hinput⟩, Option.some.inj (hword rfl)⟩

/-- The plan that is built from well-formed candidates. -/
def builtPlan (host : Host) (schemaId canonicalInput precedingText previousWord : Text)
    (config : RerankPlanConfig) (scoringPolicy : RerankScoringPolicy) (windowTruncated : Bool)
    (b : Building) : RerankPlan :=
  let plan : RerankPlan := {
    version := some kRerankPlanVersion
    schemaId := some schemaId
    canonicalInput := some canonicalInput
    precedingText := some precedingText
    previousWord := some previousWord
    config := some config
    scoringPolicy := some scoringPolicy
    windowTruncated := some windowTruncated
    candidates := some b.candidates
    groups := some (finishedGroups host schemaId windowTruncated b) }
  { plan with identity := some (computePlanIdentity host plan) }

variable {previousWord : Text} {config : RerankPlanConfig} {scoringPolicy : RerankScoringPolicy}

/-- **The validator accepts the plan that is built.** -/
theorem validPlan_builtPlan (h : Built canonicalInput candidates candidates.length keys b)
    (hcandidates : ∀ c ∈ candidates, WellFormed canonicalInput c)
    (hcanonical : canonicalizeInput canonicalInput = canonicalInput) {precedingText : Text}
    (hpreceding : lastUnicodeCharacters precedingText kPrecedingTextCharacters =
      some precedingText)
    (hschema : schemaId ≠ []) (hconfig : validConfig config = true)
    (hpolicy : validScoringPolicy scoringPolicy = true) :
    validPlan host (builtPlan host schemaId canonicalInput precedingText previousWord config
      scoringPolicy windowTruncated b) = true := by
  have hgrouping : Grouping host schemaId canonicalInput b.candidates
      (finishedGroups host schemaId windowTruncated b) := grouping_finishedGroups h hcandidates
  have hscan : ∃ s, scanGroups host schemaId canonicalInput b.candidates {} 0
      (finishedGroups host schemaId windowTruncated b) = some s :=
    scanGroups_of_grouping hgrouping (fun _ _ => List.not_mem_nil)
      (heads_finishedGroups h) fun j hj => by cases hj
  obtain ⟨s, hs⟩ := hscan
  have hgrouped (i : ℕ) : i ∈ s.grouped ↔
      i < candidates.length ∧ (candidates.getD i {}).isRerankable = true := by
    rw [(scanGroups_eq_some hs).2.2 i, mem_flatMap_finishedGroups h]
    exact or_iff_left List.not_mem_nil
  have hbounded : Bounded (finishedGroups host schemaId windowTruncated b) s :=
    Bounded.of_scanGroups hs rfl rfl
  unfold validPlan
  rw [Bool.and_eq_true, Bool.and_eq_true]
  refine ⟨⟨?_, ?_⟩, ?_⟩
  · unfold validHead builtPlan
    simp only [Option.any_some, Option.isSome_some, Bool.and_eq_true, decide_eq_true_eq, and_true,
      hconfig, hpolicy, hcanonical, hpreceding]
    exact ⟨⟨trivial, contentIdentity_ne_nil _ _⟩, hschema⟩
  · refine List.all_eq_true.mpr fun e he => ?_
    obtain ⟨c, i⟩ := e
    have hget : b.candidates[i]? = some c := List.mem_zipIdx_iff_getElem?.mp he
    rw [getElem?_candidates h] at hget
    obtain ⟨c', hc', rfl⟩ := Option.map_eq_some_iff.mp hget
    exact validCandidate_at (hcandidates c' (List.mem_of_getElem? hc')) i
  · dsimp only [builtPlan, RerankPlan.theInput, RerankPlan.theCandidates, RerankPlan.theGroups,
      Option.getD_some]
    rw [hs]
    dsimp only
    unfold validTail
    rw [Bool.and_eq_true, Bool.and_eq_true, List.all_eq_true, List.all_eq_true]
    refine ⟨⟨fun e he => ?_, fun e he => ?_⟩, decide_eq_true rfl⟩
    · obtain ⟨c, i⟩ := e
      have hget : b.candidates[i]? = some c := List.mem_zipIdx_iff_getElem?.mp he
      have hlt : i < candidates.length := by
        rw [← length_candidates h]
        exact (List.getElem?_eq_some_iff.mp hget).1
      have hc : c = (candidates.getD i {}).at i := by
        rw [← getD_candidates h hlt, List.getD_eq_getElem?_getD, hget]
        rfl
      have hiff := hgrouped i
      rw [decide_eq_true_eq, hc, Bool.eq_iff_iff, decide_eq_true_eq, hiff]
      exact ⟨fun hr => ⟨hlt, hr⟩, fun hr => hr.2⟩
    · obtain ⟨g, k⟩ := e
      have hget : (finishedGroups host schemaId windowTruncated b)[k]? = some g :=
        List.mem_zipIdx_iff_getElem?.mp he
      rw [getElem?_finishedGroups h] at hget
      obtain ⟨key, hkey, rfl⟩ := Option.map_eq_some_iff.mp hget
      have hk : k < keys.length := (List.getElem?_eq_some_iff.mp hkey).1
      have hiff := boundary_finishedGroups h hgrouped hbounded hk
      rw [decide_eq_true_eq]
      show (!(windowTruncated && decide (b.boundary = some k))) =
        (!windowTruncated || decide (k ≠ (s.boundary.map Prod.fst).getD 0))
      rw [Bool.not_and]
      congr 1
      rw [decide_not, Bool.eq_iff_iff]
      simp [hiff]

end Plan

/-! ## The builder and the replay -/

section Replays

variable {host : Host} {schemaId previousWord : Text} {config : RerankPlanConfig}
  {scoringPolicy : RerankScoringPolicy} {candidates : List RerankPlanCandidate}

/-- A score of a finite vector that was made under a gamma, with evidence in `[0, 1)`. -/
def Scored (host : Host) (gamma : Binary64) (score : RerankCandidateScore) : Prop :=
  ∃ base evidence, score = makeRerankCandidateScore host base evidence gamma ∧
    base.isFinite = true ∧ evidence.isFinite = true ∧
    (comparisonScore host base evidence gamma).isFinite = true ∧
    Binary64.le .zero evidence = true ∧ Binary64.lt evidence .one = true

theorem checkScore_of_scored {gamma : Binary64} {score : RerankCandidateScore}
    (h : Scored host gamma score) : ∃ x, checkScore host gamma score = some x := by
  obtain ⟨base, evidence, rfl, hbase, hevidence, hcomparison, hzero, hone⟩ := h
  refine ⟨comparisonScore host base evidence gamma, ?_⟩
  unfold checkScore makeRerankCandidateScore
  dsimp only
  rw [hbase, hevidence, hcomparison, Binary64.eq_self hcomparison,
    Binary64.lt_eq_false_of_le hzero, Binary64.le_eq_false_of_lt hone]
  rfl

theorem checkScores_of_scored {gamma : Binary64} {scores : List RerankCandidateScore}
    (h : ∀ score ∈ scores, Scored host gamma score) :
    ∃ xs, checkScores host gamma scores = some xs := by
  induction scores with
  | nil => exact ⟨[], rfl⟩
  | cons score scores ih =>
    obtain ⟨x, hx⟩ := checkScore_of_scored (h score List.mem_cons_self)
    obtain ⟨xs, hxs⟩ := ih fun s hs => h s (List.mem_cons_of_mem _ hs)
    refine ⟨x :: xs, ?_⟩
    rw [checkScores, hx]
    dsimp only
    rw [hxs]
    rfl

/-- What the builder returns for well-formed candidates. -/
theorem buildRerankPlan_eq (input : Text) (s : List Char) (windowTruncated : Bool)
    (hschema : schemaId ≠ []) (hconfig : validConfig config = true)
    (hpolicy : validScoringPolicy scoringPolicy = true)
    (hcandidates : ∀ c ∈ candidates, WellFormed (canonicalizeInput input) c) :
    ∃ keys b, Built (canonicalizeInput input) candidates candidates.length keys b ∧
      buildRerankPlan host schemaId input (Utf8.encodeAll s) previousWord config scoringPolicy
        candidates windowTruncated = builtPlan host schemaId (canonicalizeInput input)
        (Utf8.encodeAll (s.drop (s.length - kPrecedingTextCharacters))) previousWord config
        scoringPolicy windowTruncated b := by
  obtain ⟨keys, b, hb, hbuilt⟩ := (built_start (canonicalizeInput input) candidates).steps
    hcandidates (Nat.zero_add _)
  refine ⟨keys, b, hbuilt, ?_⟩
  unfold buildRerankPlan
  rw [lastUnicodeCharacters_encodeAll]
  dsimp only
  rw [if_neg (by simp [hschema, hconfig, hpolicy]), List.range_eq_range']
  dsimp only [RerankPlan.theInput, Option.getD_some]
  rw [hb]
  rfl

/-- **The builder and the replay agree**: the replay accepts what the builder returns, with any
scores made under the plan's gamma. -/
theorem buildRerankPlan_replays (host : Host) (schemaId input previousWord : Text)
    (s : List Char) (config : RerankPlanConfig) (scoringPolicy : RerankScoringPolicy)
    (candidates : List RerankPlanCandidate) (windowTruncated : Bool) (gamma : Binary64)
    (scores : List RerankCandidateScore) (emissionOrder : List ℕ)
    (hschema : schemaId ≠ []) (hconfig : validConfig config = true)
    (hpolicy : validScoringPolicy scoringPolicy = true)
    (hgamma : scoringPolicy.gamma = some gamma)
    (hcandidates : ∀ c ∈ candidates, WellFormed (canonicalizeInput input) c)
    (hscores : ∀ score ∈ scores, Scored host gamma score)
    (hlength : scores.length = candidates.length) :
    ∃ order, replayRerankPlan host
      (buildRerankPlan host schemaId input (Utf8.encodeAll s) previousWord config scoringPolicy
        candidates windowTruncated)
      { version := some kRerankScoreResultVersion
        planIdentity := (buildRerankPlan host schemaId input (Utf8.encodeAll s) previousWord config
          scoringPolicy candidates windowTruncated).identity
        candidateScores := some scores }
      (some emissionOrder) = some (true, some order) := by
  obtain ⟨keys, b, hbuilt, hplan⟩ : ∃ keys b,
      Built (canonicalizeInput input) candidates candidates.length keys b ∧
        buildRerankPlan host schemaId input (Utf8.encodeAll s) previousWord config scoringPolicy
          candidates windowTruncated = builtPlan host schemaId (canonicalizeInput input)
          (Utf8.encodeAll (s.drop (s.length - kPrecedingTextCharacters))) previousWord config
          scoringPolicy windowTruncated b :=
    buildRerankPlan_eq input s windowTruncated hschema hconfig hpolicy hcandidates
  rw [hplan]
  generalize hresult : ({
    version := some kRerankScoreResultVersion
    planIdentity := _
    candidateScores := some scores } : RerankScoreResult) = result
  have hvalid : validPlan host (builtPlan host schemaId (canonicalizeInput input)
      (Utf8.encodeAll (s.drop (s.length - kPrecedingTextCharacters))) previousWord config
      scoringPolicy windowTruncated b) = true :=
    validPlan_builtPlan hbuilt hcandidates (canonicalizeInput_canonicalizeInput input)
      (lastUnicodeCharacters_last s kPrecedingTextCharacters) hschema hconfig hpolicy
  have haccepts : acceptsResult host (builtPlan host schemaId (canonicalizeInput input)
      (Utf8.encodeAll (s.drop (s.length - kPrecedingTextCharacters))) previousWord config
      scoringPolicy windowTruncated b) result = true := by
    unfold acceptsResult
    rw [hvalid, ← hresult]
    simp only [Option.any_some, Bool.and_eq_true, decide_eq_true_eq, and_true]
    exact ⟨⟨trivial, rfl⟩, hlength.trans (length_candidates hbuilt).symm⟩
  obtain ⟨xs, hxs⟩ := checkScores_of_scored hscores
  have hsame : checkScores host (scoringPolicy.gamma.getD .zero)
      (result.candidateScores.getD []) = some xs := by
    rw [← hresult, hgamma]
    exact hxs
  obtain ⟨order, horder, -⟩ := emission_of_accepts haccepts hsame emissionOrder
  exact ⟨order, horder⟩

/-- A host with the digests of the two strings a sample plan is hashed over, of 348 and of 743
bytes; the sample's evidence is 0, so its products are 0. -/
def sampleHost : Host where
  sha1 t :=
    if t.length = 348 then
      [72, 55, 94, 230, 107, 189, 189, 245, 254, 199, 35, 90, 40, 64, 198, 62, 235, 69, 118, 162]
    else [71, 62, 19, 174, 148, 66, 1, 93, 192, 2, 194, 56, 138, 57, 91, 252, 96, 67, 94, 122]
  fma _ _ base := base

/-- A word over the two letters of an input. -/
def sampleCandidate (text : Text) : RerankPlanCandidate where
  start := some 0
  stop := some 2
  category := some (ascii "word")
  sourceType := some (ascii "table")
  text := some text
  rerankable := some true

theorem wellFormed_sampleCandidate {text : Text} (h : text ≠ []) :
    WellFormed (canonicalizeInput (ascii "Ni")) (sampleCandidate text) where
  span := ⟨0, 2, rfl, rfl, Nat.zero_le 2, le_rfl⟩
  category := ⟨_, rfl, by decide⟩
  sourceType := ⟨_, rfl, by decide⟩
  text := ⟨text, rfl, h⟩
  rerankable := ⟨true, rfl⟩
  word := fun _ => rfl

/-- Two words, the second with the higher score. -/
theorem buildRerankPlan_replays_sample : ∃ order, replayRerankPlan sampleHost
    (buildRerankPlan sampleHost (ascii "luna") (ascii "Ni") (Utf8.encodeAll ['a']) []
      defaultRerankPlanConfig defaultRerankScoringPolicy
      [sampleCandidate (ascii "n"), sampleCandidate (ascii "m")] false)
    { version := some kRerankScoreResultVersion
      planIdentity := (buildRerankPlan sampleHost (ascii "luna") (ascii "Ni")
        (Utf8.encodeAll ['a']) [] defaultRerankPlanConfig defaultRerankScoringPolicy
        [sampleCandidate (ascii "n"), sampleCandidate (ascii "m")] false).identity
      candidateScores := some [
        makeRerankCandidateScore sampleHost .zero .zero .two,
        makeRerankCandidateScore sampleHost .one .zero .two] }
    (some []) = some (true, some order) := by
  refine buildRerankPlan_replays sampleHost (ascii "luna") (ascii "Ni") [] ['a']
    defaultRerankPlanConfig defaultRerankScoringPolicy
    [sampleCandidate (ascii "n"), sampleCandidate (ascii "m")] false .two
    [makeRerankCandidateScore sampleHost .zero .zero .two,
      makeRerankCandidateScore sampleHost .one .zero .two] []
    (by decide) validConfig_default validScoringPolicy_default rfl (fun c hc => ?_)
    (fun score hscore => ?_) rfl
  · simp only [List.mem_cons, List.not_mem_nil, or_false] at hc
    rcases hc with rfl | rfl
    · exact wellFormed_sampleCandidate (by decide)
    · exact wellFormed_sampleCandidate (by decide)
  · simp only [List.mem_cons, List.not_mem_nil, or_false] at hscore
    rcases hscore with rfl | rfl
    · exact ⟨.zero, .zero, rfl, by decide, by decide, by decide, by decide, by decide +kernel⟩
    · exact ⟨.one, .zero, rfl, by decide +kernel, by decide, by decide +kernel, by decide,
        by decide +kernel⟩

end Replays

end SemanticMemory.Rerank
