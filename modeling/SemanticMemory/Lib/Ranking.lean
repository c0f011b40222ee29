import Mathlib.Data.List.Sort

/-!
# The first entries of a ranking

A list is ranked by a relation that is a linear order on the members that matter only, as the
comparison of floating-point numbers is one on the numbers proper.

* `pairwise_insertionSort_on`, `insertionSort_congr_on`: sorting such members, and that the result
  depends on them alone.
* `insertionSort_filter_on`: sorting a part is taking the part of the sorted list.
* `take_eq_of_subset`: a part that holds the first `k` entries has the same first `k` entries.
* `mem_take_iff_countP`: an entry is among the first `k` when fewer than `k` stand before it.
* `stableSort_eq_iff`: two keys sort an ascending list alike when they order every pair alike.
* `filterMap_zipIdx_of_sorted`: in a strictly sorted list, the distance to the end counts the later
  members.
-/

namespace Ranking

variable {α β : Type*}

/-! ## Sorting members -/

/-- A relation that orders linearly the members that satisfy a property. -/
structure LinearOn (P : α → Prop) (r : α → α → Prop) : Prop where
  total : ∀ a b, P a → P b → r a b ∨ r b a
  trans : ∀ a b c, P a → P b → P c → r a b → r b c → r a c

variable {P : α → Prop} {r : α → α → Prop} [DecidableRel r]

/-- Inserting a member into a sorted list. -/
theorem LinearOn.pairwise_orderedInsert (h : LinearOn P r) {a : α} (ha : P a) :
    ∀ l : List α, (∀ b ∈ l, P b) → l.Pairwise r → (l.orderedInsert r a).Pairwise r
  | [], _, _ => List.pairwise_singleton r a
  | b :: l, hP, hl => by
    have hb : P b := hP b List.mem_cons_self
    have hP' : ∀ c ∈ l, P c := fun c hc => hP c (List.mem_cons_of_mem b hc)
    obtain ⟨hbl, htail⟩ := List.pairwise_cons.mp hl
    by_cases hab : r a b
    · rw [List.orderedInsert_cons, if_pos hab]
      refine List.pairwise_cons.mpr ⟨fun c hc => ?_, hl⟩
      rcases List.mem_cons.mp hc with rfl | hc
      · exact hab
      · exact h.trans a b c ha hb (hP' c hc) hab (hbl c hc)
    · rw [List.orderedInsert_cons, if_neg hab]
      refine List.pairwise_cons.mpr ⟨fun c hc => ?_, h.pairwise_orderedInsert ha l hP' htail⟩
      rcases (List.mem_orderedInsert (r := r)).mp hc with rfl | hc
      · exact (h.total c b ha hb).resolve_left hab
      · exact hbl c hc

/-- The members of a sorted list stand in order. -/
theorem LinearOn.pairwise_insertionSort (h : LinearOn P r) :
    ∀ l : List α, (∀ a ∈ l, P a) → (l.insertionSort r).Pairwise r
  | [], _ => List.Pairwise.nil
  | a :: l, hP => by
    have hP' : ∀ b ∈ l, P b := fun b hb => hP b (List.mem_cons_of_mem a hb)
    exact h.pairwise_orderedInsert (hP a List.mem_cons_self) _
      (fun b hb => hP' b ((List.perm_insertionSort r l).mem_iff.mp hb))
      (h.pairwise_insertionSort l hP')

/-- A sorted list depends on its members alone, when the relation separates them. -/
theorem LinearOn.insertionSort_congr (h : LinearOn P r) {l₁ l₂ : List α} (hP : ∀ a ∈ l₁, P a)
    (hanti : ∀ a ∈ l₁, ∀ b ∈ l₁, r a b → r b a → a = b) (hperm : l₁.Perm l₂) :
    l₁.insertionSort r = l₂.insertionSort r := by
  have hP₂ : ∀ a ∈ l₂, P a := fun a ha => hP a (hperm.mem_iff.mpr ha)
  refine List.Perm.eq_of_pairwise ?_ (h.pairwise_insertionSort l₁ hP)
    (h.pairwise_insertionSort l₂ hP₂)
    ((List.perm_insertionSort r l₁).trans (hperm.trans (List.perm_insertionSort r l₂).symm))
  intro a b ha hb hab hba
  have ha' : a ∈ l₁ := (List.perm_insertionSort r l₁).mem_iff.mp ha
  have hb' : b ∈ l₁ := hperm.mem_iff.mpr ((List.perm_insertionSort r l₂).mem_iff.mp hb)
  exact hanti a ha' b hb' hab hba

theorem LinearOn.insertionSort_filter (h : LinearOn P r) {l : List α} (hP : ∀ a ∈ l, P a)
    (hanti : ∀ a ∈ l, ∀ b ∈ l, r a b → r b a → a = b) (p : α → Bool) :
    (l.filter p).insertionSort r = (l.insertionSort r).filter p := by
  have hmem {a : α} (ha : a ∈ (l.filter p).insertionSort r) : a ∈ l :=
    List.mem_of_mem_filter ((List.perm_insertionSort r _).mem_iff.mp ha)
  have hmem' {a : α} (ha : a ∈ (l.insertionSort r).filter p) : a ∈ l :=
    (List.perm_insertionSort r l).mem_iff.mp (List.mem_of_mem_filter ha)
  refine List.Perm.eq_of_pairwise (fun a b ha hb => hanti a (hmem ha) b (hmem' hb))
    (h.pairwise_insertionSort _ fun a ha => hP a (List.mem_of_mem_filter ha))
    ((h.pairwise_insertionSort l hP).filter p) ?_
  exact (List.perm_insertionSort r _).trans ((List.perm_insertionSort r l).filter p).symm

/-! ## The first entries -/

/-- A part of a list that holds its first entries begins with them. -/
theorem take_eq_of_subset {l' l : List α} (h : List.Sublist l' l) :
    ∀ {k : ℕ}, l.Nodup → l.take k ⊆ l' → l'.take k = l.take k := by
  induction h with
  | slnil =>
    intro k _ _
    rfl
  | @cons l' l a _ ih =>
    rename_i hsub
    intro k hnd hk
    rcases k with _ | k
    · rfl
    · exact absurd (hsub.subset (hk List.mem_cons_self)) (List.nodup_cons.mp hnd).1
  | @cons_cons l' l a _ ih =>
    intro k hnd hk
    obtain ⟨ha, hnd⟩ := List.nodup_cons.mp hnd
    rcases k with _ | k
    · rfl
    · rw [List.take_succ_cons, List.take_succ_cons, ih hnd fun b hb => ?_]
      have hba : b ≠ a := by
        rintro rfl
        exact ha (List.mem_of_mem_take hb)
      exact (List.mem_cons.mp (hk (List.mem_cons_of_mem a hb))).resolve_left hba

/-- The first entries of a ranked part that holds the first entries of the ranked list. -/
theorem LinearOn.take_insertionSort_filter (h : LinearOn P r) {l : List α} (hP : ∀ a ∈ l, P a)
    (hanti : ∀ a ∈ l, ∀ b ∈ l, r a b → r b a → a = b) (hnd : l.Nodup) (p : α → Bool) {k : ℕ}
    (hk : ∀ a ∈ (l.insertionSort r).take k, p a = true) :
    ((l.filter p).insertionSort r).take k = (l.insertionSort r).take k := by
  rw [h.insertionSort_filter hP hanti]
  refine take_eq_of_subset List.filter_sublist
    ((List.perm_insertionSort r l).nodup_iff.mpr hnd) fun a ha => ?_
  exact List.mem_filter.mpr ⟨List.mem_of_mem_take ha, hk a ha⟩

/-- An entry is among the first `k` when fewer than `k` stand before it. -/
theorem mem_take_iff_countP {before : α → α → Prop} [DecidableRel before] :
    ∀ {l : List α}, l.Pairwise before → (∀ a ∈ l, ∀ b ∈ l, before a b → ¬ before b a) →
      ∀ (k : ℕ) (x : α), x ∈ l.take k ↔ x ∈ l ∧ l.countP (fun y => before y x) < k
  | [], _, _, k, x => by simp
  | a :: l, hl, hasymm, 0, x => by simp
  | a :: l, hl, hasymm, k + 1, x => by
    obtain ⟨hal, htail⟩ := List.pairwise_cons.mp hl
    have hirrefl : ¬ before a a := fun h =>
      hasymm a List.mem_cons_self a List.mem_cons_self h h
    have ih := mem_take_iff_countP htail (fun b hb c hc =>
      hasymm b (List.mem_cons_of_mem a hb) c (List.mem_cons_of_mem a hc)) k x
    rw [List.take_succ_cons, List.mem_cons, List.mem_cons, ih]
    by_cases hx : x = a
    · subst hx
      have hzero : l.countP (fun y => before y x) = 0 :=
        List.countP_eq_zero.mpr fun y hy => by
          simpa using hasymm x List.mem_cons_self y (List.mem_cons_of_mem x hy) (hal y hy)
      simp [hirrefl, hzero]
    · by_cases hmem : x ∈ l
      · have hbefore : before a x := hal x hmem
        simp [hx, hmem, hbefore]
      · simp [hx, hmem]

/-! ## Ages -/

/-- In a strictly sorted list, the members after an entry are the later ones. -/
theorem filterMap_zipIdx_of_sorted {κ : Type*} [LinearOrder κ] (key : α → κ)
    (f : α → ℕ → Option β) :
    ∀ {l : List α}, l.Pairwise (fun a b => key a < key b) → ∀ start : ℕ,
      (l.zipIdx start).filterMap (fun entry => f entry.1 (start + l.length - 1 - entry.2)) =
        l.filterMap fun a => f a (l.countP fun b => key a < key b)
  | [], _, _ => rfl
  | a :: l, hl, start => by
    obtain ⟨hal, htail⟩ := List.pairwise_cons.mp hl
    have ih := filterMap_zipIdx_of_sorted key f htail (start + 1)
    have hfirst : (a :: l).countP (fun b => key a < key b) = l.length := by
      rw [List.countP_cons_of_neg (by simp), List.countP_eq_length]
      exact fun b hb => by simpa using hal b hb
    have hrest : l.filterMap (fun b => f b ((a :: l).countP fun c => key b < key c)) =
        l.filterMap fun b => f b (l.countP fun c => key b < key c) :=
      List.filterMap_congr fun b hb => by
        rw [List.countP_cons_of_neg (by simpa using (hal b hb).le)]
    have hlength : start + (a :: l).length - 1 = start + 1 + l.length - 1 := by
      rw [List.length_cons]; omega
    have hage : start + 1 + l.length - 1 - start = l.length := by omega
    rw [List.zipIdx_cons, hlength, List.filterMap_cons, List.filterMap_cons, hfirst, hrest, ih,
      hage]

/-! ## Stable sorts -/

section Stable

variable {κ : Type*} [LinearOrder α] [LinearOrder κ]

/-- Of greater key, or of the same key and earlier. -/
def Before (key : α → κ) (a b : α) : Prop := key b < key a ∨ key a = key b ∧ a < b

theorem Before.asymm {key : α → κ} {a b : α} (h : Before key a b) : ¬ Before key b a := by
  rcases h with h | ⟨heq, hlt⟩
  · rintro (h' | ⟨heq, -⟩)
    · exact lt_asymm h h'
    · exact h.ne heq
  · rintro (h' | ⟨-, hlt'⟩)
    · exact h'.ne heq
    · exact lt_asymm hlt hlt'

/-- What is inserted before later members of the same key keeps the order of ties. -/
theorem pairwise_before_orderedInsert {key : α → κ} {a : α} : ∀ {l : List α},
    (∀ b ∈ l, a < b) → l.Pairwise (Before key) →
      (l.orderedInsert (fun x y => key y ≤ key x) a).Pairwise (Before key)
  | [], _, _ => List.pairwise_singleton _ a
  | b :: l, hlt, hl => by
    obtain ⟨hbl, htail⟩ := List.pairwise_cons.mp hl
    by_cases hle : key b ≤ key a
    · rw [List.orderedInsert_cons, if_pos hle]
      refine List.pairwise_cons.mpr ⟨fun c hc => ?_, hl⟩
      have hca : key c ≤ key a := by
        rcases List.mem_cons.mp hc with rfl | hc
        · exact hle
        · rcases hbl c hc with h | ⟨h, -⟩
          · exact h.le.trans hle
          · exact h ▸ hle
      exact hca.lt_or_eq.imp id fun heq => ⟨heq.symm, hlt c hc⟩
    · rw [List.orderedInsert_cons, if_neg hle]
      refine List.pairwise_cons.mpr ⟨fun c hc => ?_, pairwise_before_orderedInsert
        (fun c hc => hlt c (List.mem_cons_of_mem b hc)) htail⟩
      rcases (List.mem_orderedInsert _).mp hc with rfl | hc
      · exact .inl (not_le.mp hle)
      · exact hbl c hc

/-- **A stable sort of an ascending list.** -/
theorem pairwise_before_insertionSort (key : α → κ) : ∀ {l : List α}, l.Pairwise (· < ·) →
    (l.insertionSort fun a b => key b ≤ key a).Pairwise (Before key)
  | [], _ => List.Pairwise.nil
  | a :: l, hl => by
    obtain ⟨hlt, htail⟩ := List.pairwise_cons.mp hl
    rw [List.insertionSort_cons]
    exact pairwise_before_orderedInsert
      (fun b hb => hlt b ((List.perm_insertionSort _ l).mem_iff.mp hb))
      (pairwise_before_insertionSort key htail)

/-- **Two keys sort an ascending list alike when they order every pair alike.** -/
theorem stableSort_eq_iff {l : List α} (hl : l.Pairwise (· < ·)) (key key' : α → κ) :
    (l.insertionSort fun a b => key b ≤ key a) = (l.insertionSort fun a b => key' b ≤ key' a) ↔
      ∀ a ∈ l, ∀ b ∈ l, a < b → (key a < key b ↔ key' a < key' b) := by
  have hsorted := pairwise_before_insertionSort key hl
  have hsorted' := pairwise_before_insertionSort key' hl
  have hperm := List.perm_insertionSort (fun a b => key b ≤ key a) l
  have hperm' := List.perm_insertionSort (fun a b => key' b ≤ key' a) l
  constructor
  · intro heq a ha b hb hab
    rw [← heq] at hsorted'
    -- one of the two stands first, in the one list that both keys sort
    obtain ⟨i, hi, rfl⟩ := List.getElem_of_mem (hperm.mem_iff.mpr ha)
    obtain ⟨j, hj, rfl⟩ := List.getElem_of_mem (hperm.mem_iff.mpr hb)
    rcases lt_trichotomy i j with hij | rfl | hji
    · have h := List.pairwise_iff_getElem.mp hsorted i j hi hj hij
      have h' := List.pairwise_iff_getElem.mp hsorted' i j hi hj hij
      exact ⟨fun hlt => absurd (.inl hlt) h.asymm, fun hlt => absurd (.inl hlt) h'.asymm⟩
    · exact absurd hab (lt_irrefl _)
    · have h := List.pairwise_iff_getElem.mp hsorted j i hj hi hji
      have h' := List.pairwise_iff_getElem.mp hsorted' j i hj hi hji
      have hfirst := h.resolve_right fun ⟨_, hlt⟩ => lt_asymm hab hlt
      have hfirst' := h'.resolve_right fun ⟨_, hlt⟩ => lt_asymm hab hlt
      exact ⟨fun _ => hfirst', fun _ => hfirst⟩
  · intro h
    have hbefore : ∀ a ∈ l, ∀ b ∈ l, Before key a b → Before key' a b := by
      intro a ha b hb hab
      rcases lt_trichotomy a b with hlt | rfl | hgt
      · have hiff := h a ha b hb hlt
        have hnot : ¬ key a < key b := by
          rcases hab with hab | ⟨heq, -⟩
          · exact hab.not_gt
          · exact fun h => h.ne heq
        have hle := not_lt.mp fun h => hnot (hiff.mpr h)
        exact hle.lt_or_eq.imp id fun heq => ⟨heq.symm, hlt⟩
      · exact absurd hab hab.asymm
      · have hlt := hab.resolve_right fun ⟨_, hlt⟩ => lt_asymm hgt hlt
        exact .inl ((h b hb a ha hgt).mp hlt)
    refine List.Perm.eq_of_pairwise (fun a b _ _ hab hba => absurd hba hab.asymm)
      (hsorted.imp_of_mem fun {a b} ha hb hab =>
        hbefore a (hperm.mem_iff.mp ha) b (hperm.mem_iff.mp hb) hab) hsorted'
      (hperm.trans hperm'.symm)

end Stable

end Ranking
