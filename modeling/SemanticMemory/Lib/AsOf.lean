import Mathlib.Data.List.Sort
import Mathlib.Data.List.Nodup
import Mathlib.Order.Lattice

/-!
# Reading an append-only history as of a point

A history has *entries* and *tombstones*.  Both carry a stamp from a linear order; an entry has a
group, and a tombstone takes its whole group away from its own stamp on.  `activeAsOf p` is what a
reader at point `p` sees: the entries stamped at or before `p` whose group has no tombstone stamped
at or before `p`.

* `activeAsOf_append`: facts stamped after `p` do not change the answer at `p`.
* `mem_activeAsOf_advance`: the answer at a later point `q` from the answer at `p`, the entries in
  `(p, q]` and the tombstones in `(p, q]` --- the rule of an incremental reader.
* `sort_congr`: two duplicate-free answers with the same members sort to the same list, when the
  sort key separates them.
-/

namespace AsOf

universe u v w x

variable {ε : Type u} {ρ : Type v} {κ : Type w} {τ : Type x} [LinearOrder τ]

/-- How entries and tombstones show their stamp and their group. -/
structure Shape (ε : Type u) (ρ : Type v) (κ : Type w) (τ : Type x) where
  stamp : ε → τ
  group : ε → κ
  tombStamp : ρ → τ
  tombGroup : ρ → κ

variable (S : Shape ε ρ κ τ)

/-- A tombstone of the group takes effect at or before `p`. -/
def RetractedAt (tombs : List ρ) (p : τ) (g : κ) : Prop :=
  ∃ r ∈ tombs, S.tombGroup r = g ∧ S.tombStamp r ≤ p

instance [DecidableEq κ] (tombs : List ρ) (p : τ) (g : κ) : Decidable (RetractedAt S tombs p g) :=
  inferInstanceAs (Decidable (∃ r ∈ tombs, S.tombGroup r = g ∧ S.tombStamp r ≤ p))

/-- The entries a reader at `p` sees, in storage order. -/
def activeAsOf [DecidableEq κ] (entries : List ε) (tombs : List ρ) (p : τ) : List ε :=
  entries.filter fun e => S.stamp e ≤ p ∧ ¬ RetractedAt S tombs p (S.group e)

/-- The entries stamped in `(p, q]`. -/
def entriesIn (entries : List ε) (p q : τ) : List ε :=
  entries.filter fun e => p < S.stamp e ∧ S.stamp e ≤ q

/-- The tombstones stamped in `(p, q]`. -/
def tombsIn (tombs : List ρ) (p q : τ) : List ρ :=
  tombs.filter fun r => p < S.tombStamp r ∧ S.tombStamp r ≤ q

variable {S}

variable {tombs : List ρ} {entries : List ε}

theorem mem_activeAsOf [DecidableEq κ] {p : τ} {e : ε} :
    e ∈ activeAsOf S entries tombs p ↔
      e ∈ entries ∧ S.stamp e ≤ p ∧ ¬ RetractedAt S tombs p (S.group e) := by
  simp [activeAsOf]

variable {p q : τ}

theorem mem_entriesIn {e : ε} :
    e ∈ entriesIn S entries p q ↔ e ∈ entries ∧ p < S.stamp e ∧ S.stamp e ≤ q := by
  simp [entriesIn]

theorem mem_tombsIn {r : ρ} :
    r ∈ tombsIn S tombs p q ↔ r ∈ tombs ∧ p < S.tombStamp r ∧ S.tombStamp r ≤ q := by
  simp [tombsIn]

/-- Tombstones stamped after `p` retract nothing at `p`. -/
theorem retractedAt_append {tombs new : List ρ} {p : τ} (hnew : ∀ r ∈ new, p < S.tombStamp r)
    (g : κ) : RetractedAt S (tombs ++ new) p g ↔ RetractedAt S tombs p g := by
  constructor
  · rintro ⟨r, hr, hg, hp⟩
    rcases List.mem_append.mp hr with hr | hr
    · exact ⟨r, hr, hg, hp⟩
    · exact absurd (hnew r hr) (not_lt.mpr hp)
  · rintro ⟨r, hr, hg, hp⟩
    exact ⟨r, List.mem_append_left _ hr, hg, hp⟩

/-- **Facts of the future do not reach back.**  Entries and tombstones stamped after `p` leave the
answer at `p` exactly as it was. -/
theorem activeAsOf_append [DecidableEq κ] {entries newEntries : List ε} {tombs newTombs : List ρ} {p : τ}
    (he : ∀ e ∈ newEntries, p < S.stamp e) (hr : ∀ r ∈ newTombs, p < S.tombStamp r) :
    activeAsOf S (entries ++ newEntries) (tombs ++ newTombs) p = activeAsOf S entries tombs p := by
  have hnew : (newEntries.filter fun e =>
      S.stamp e ≤ p ∧ ¬ RetractedAt S tombs p (S.group e)) = [] :=
    List.filter_eq_nil_iff.mpr fun e hmem => by
      simp [not_le.mpr (he e hmem)]
  simp only [activeAsOf, retractedAt_append hr, List.filter_append, hnew, List.append_nil]

/-- A tombstone at or before `q` is one at or before `p`, or one in `(p, q]`. -/
theorem retractedAt_iff_of_le (hpq : p ≤ q) (g : κ) :
    RetractedAt S tombs q g ↔
      RetractedAt S tombs p g ∨ ∃ r ∈ tombsIn S tombs p q, S.tombGroup r = g := by
  constructor
  · rintro ⟨r, hr, hg, hq⟩
    rcases le_or_gt (S.tombStamp r) p with hp | hp
    · exact Or.inl ⟨r, hr, hg, hp⟩
    · exact Or.inr ⟨r, mem_tombsIn.mpr ⟨hr, hp, hq⟩, hg⟩
  · rintro (⟨r, hr, hg, hp⟩ | ⟨r, hr, hg⟩)
    · exact ⟨r, hr, hg, hp.trans hpq⟩
    · obtain ⟨hr, -, hq⟩ := mem_tombsIn.mp hr
      exact ⟨r, hr, hg, hq⟩

/-- Every tombstone comes strictly after the entries of its group: the discipline of a history
whose tombstones name groups that are already complete. -/
def TombsAfter (S : Shape ε ρ κ τ) (entries : List ε) (tombs : List ρ) : Prop :=
  ∀ e ∈ entries, ∀ r ∈ tombs, S.tombGroup r = S.group e → S.stamp e < S.tombStamp r

/-- **The incremental rule.**  What is active at `q` is what was active at `p`, together with the
entries of `(p, q]`, less every group that a tombstone of `(p, q]` names. -/
theorem mem_activeAsOf_advance [DecidableEq κ] (hpq : p ≤ q) (hafter : TombsAfter S entries tombs)
    {e : ε} :
    e ∈ activeAsOf S entries tombs q ↔
      (e ∈ activeAsOf S entries tombs p ∨ e ∈ entriesIn S entries p q) ∧
        ∀ r ∈ tombsIn S tombs p q, S.tombGroup r ≠ S.group e := by
  rw [mem_activeAsOf, retractedAt_iff_of_le hpq, mem_activeAsOf, mem_entriesIn]
  constructor
  · rintro ⟨hmem, hq, hnot⟩
    rw [not_or] at hnot
    refine ⟨?_, fun r hr hg => hnot.2 ⟨r, hr, hg⟩⟩
    rcases le_or_gt (S.stamp e) p with hp | hp
    · exact Or.inl ⟨hmem, hp, hnot.1⟩
    · exact Or.inr ⟨hmem, hp, hq⟩
  · rintro ⟨⟨hmem, hp, hnot⟩ | ⟨hmem, hp, hq⟩, hin⟩
    · refine ⟨hmem, hp.trans hpq, ?_⟩
      rintro (h | ⟨r, hr, hg⟩)
      · exact hnot h
      · exact hin r hr hg
    · refine ⟨hmem, hq, ?_⟩
      rintro (⟨r, hr, hg, hrp⟩ | ⟨r, hr, hg⟩)
      · exact absurd ((hafter e hmem r hr hg).trans_le hrp) (not_lt.mpr hp.le)
      · exact hin r hr hg

/-! ## Sorted answers -/

/-- A sort by a key that separates the members depends on the members only. -/
theorem sort_congr {β : Type*} [LinearOrder β] {key : ε → β} {l₁ l₂ : List ε}
    (hinj : ∀ a ∈ l₁, ∀ b ∈ l₁, key a = key b → a = b) (hnd₁ : l₁.Nodup) (hnd₂ : l₂.Nodup)
    (hmem : ∀ a, a ∈ l₁ ↔ a ∈ l₂) :
    l₁.insertionSort (fun a b => key a ≤ key b) = l₂.insertionSort (fun a b => key a ≤ key b) := by
  have hperm : l₁.Perm l₂ := (List.perm_ext_iff_of_nodup hnd₁ hnd₂).mpr hmem
  have : IsTrans ε (fun a b => key a ≤ key b) := ⟨fun _ _ _ h h' => le_trans h h'⟩
  have : Std.Total (fun a b : ε => key a ≤ key b) := ⟨fun a b => le_total _ _⟩
  refine List.Perm.eq_of_pairwise ?_
    (List.pairwise_insertionSort _ _) (List.pairwise_insertionSort _ _)
    ((List.perm_insertionSort _ l₁).trans (hperm.trans (List.perm_insertionSort _ l₂).symm))
  intro a b ha hb hab hba
  have ha' : a ∈ l₁ := (List.perm_insertionSort _ l₁).mem_iff.mp ha
  have hb' : b ∈ l₁ := hperm.mem_iff.mpr ((List.perm_insertionSort _ l₂).mem_iff.mp hb)
  exact hinj a ha' b hb' (le_antisymm hab hba)

end AsOf
