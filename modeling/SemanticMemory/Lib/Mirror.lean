import SemanticMemory.Lib.AsOf

/-!
# Incremental mirrors of an append-only history

A reader that does not keep the whole history keeps the answer at a base point `p` and a *mirror*:
entries and tombstones it has read since, up to a point `w`.  The mirror need not hold an entry that
a tombstone it holds takes away, so it may drop entries that were retracted before it read them.

* `Mirror` says what such a mirror must hold; `Mirror.start` is the empty one.
* `Mirror.advance`: what reading `(w, u]` adds, to a store that may hold more than the mirror does.
* `Mirror.mem_activeAsOf`: the answer at `w` from the base and the mirror.
* `Mirror.extend`: a mirror stays one while the history grows above `w`.
* `activeAsOf_map`: answers commute with a change of representation.
-/

namespace AsOf

universe u v w x

variable {ε : Type u} {ρ : Type v} {κ : Type w} {τ : Type x} [LinearOrder τ]
variable (S : Shape ε ρ κ τ)

/-- A mirror of what happened in `(p, w]`. -/
structure Mirror (entries : List ε) (tombs : List ρ) (p w : τ) (held : List ε) (gone : List ρ) :
    Prop where
  base_le : p ≤ w
  nodup : held.Nodup
  sound : ∀ e ∈ held, e ∈ entriesIn S entries p w
  complete : ∀ e ∈ entriesIn S entries p w, ¬ RetractedAt S tombs w (S.group e) → e ∈ held
  tombSound : ∀ r ∈ gone, r ∈ tombs ∧ S.tombStamp r ≤ w
  tombComplete : ∀ r ∈ tombsIn S tombs p w, r ∈ gone

variable {S} {entries : List ε} {tombs : List ρ} {p w u : τ} {held : List ε} {gone : List ρ}

/-- Nothing has been read yet. -/
theorem Mirror.start (S : Shape ε ρ κ τ) (entries : List ε) (tombs : List ρ) (p : τ) :
    Mirror S entries tombs p p [] [] where
  base_le := le_refl p
  nodup := List.nodup_nil
  sound := by simp
  complete e he _ := absurd ((mem_entriesIn.mp he).2.1.trans_le (mem_entriesIn.mp he).2.2)
    (lt_irrefl _)
  tombSound := by simp
  tombComplete r hr := absurd ((mem_tombsIn.mp hr).2.1.trans_le (mem_tombsIn.mp hr).2.2)
    (lt_irrefl _)

/-- **Reading on.**  A store that holds the mirror of `(p, w]`, holds nothing stamped above `u`, and
holds every tombstone of `(w, u]` with every entry of `(w, u]` that none of these takes away, is a
mirror of `(p, u]`. -/
theorem Mirror.advance (h : Mirror S entries tombs p w held gone) (hwu : w ≤ u)
    {held' : List ε} {gone' : List ρ} (hnodup : held'.Nodup)
    (hheld : ∀ e ∈ held, e ∈ held') (hgone : ∀ r ∈ gone, r ∈ gone')
    (hsound : ∀ e ∈ held', e ∈ entriesIn S entries p u)
    (htombSound : ∀ r ∈ gone', r ∈ tombs ∧ S.tombStamp r ≤ u)
    (hnew : ∀ e ∈ entriesIn S entries w u,
      (∀ r ∈ tombsIn S tombs w u, S.tombGroup r ≠ S.group e) → e ∈ held')
    (htombNew : ∀ r ∈ tombsIn S tombs w u, r ∈ gone') :
    Mirror S entries tombs p u held' gone' where
  base_le := h.base_le.trans hwu
  nodup := hnodup
  sound := hsound
  complete e he hnot := by
    obtain ⟨hmem, hp, hu⟩ := mem_entriesIn.mp he
    rw [retractedAt_iff_of_le hwu, not_or] at hnot
    rcases le_or_gt (S.stamp e) w with hw | hw
    · exact hheld e (h.complete e (mem_entriesIn.mpr ⟨hmem, hp, hw⟩) hnot.1)
    · exact hnew e (mem_entriesIn.mpr ⟨hmem, hw, hu⟩) fun r hr hg => hnot.2 ⟨r, hr, hg⟩
  tombSound := htombSound
  tombComplete r hr := by
    obtain ⟨hmem, hp, hu⟩ := mem_tombsIn.mp hr
    rcases le_or_gt (S.tombStamp r) w with hw | hw
    · exact hgone r (h.tombComplete r (mem_tombsIn.mpr ⟨hmem, hp, hw⟩))
    · exact htombNew r (mem_tombsIn.mpr ⟨hmem, hw, hu⟩)

/-- **What a mirror is for.**  The entries active at `w` are those active at the base and those
held, less the groups that a held tombstone names. -/
theorem Mirror.mem_activeAsOf [DecidableEq κ] (h : Mirror S entries tombs p w held gone)
    (hafter : TombsAfter S entries tombs) {e : ε} :
    e ∈ activeAsOf S entries tombs w ↔
      (e ∈ activeAsOf S entries tombs p ∨ e ∈ held) ∧
        ∀ r ∈ gone, S.tombGroup r ≠ S.group e := by
  rw [mem_activeAsOf_advance h.base_le hafter]
  constructor
  · rintro ⟨hmem, hnot⟩
    have hactive : ¬ RetractedAt S tombs w (S.group e) :=
      (AsOf.mem_activeAsOf.mp ((mem_activeAsOf_advance h.base_le hafter).mpr ⟨hmem, hnot⟩)).2.2
    refine ⟨hmem.imp_right fun he => h.complete e he hactive, fun r hr hg => ?_⟩
    exact hactive ⟨r, (h.tombSound r hr).1, hg, (h.tombSound r hr).2⟩
  · rintro ⟨hmem, hnot⟩
    exact ⟨hmem.imp_right (h.sound e), fun r hr => hnot r (h.tombComplete r hr)⟩

/-- A mirror does not see what is stamped above it. -/
theorem Mirror.extend (h : Mirror S entries tombs p w held gone) {newEntries : List ε}
    {newTombs : List ρ} (he : ∀ e ∈ newEntries, w < S.stamp e)
    (hr : ∀ r ∈ newTombs, w < S.tombStamp r) :
    Mirror S (entries ++ newEntries) (tombs ++ newTombs) p w held gone where
  base_le := h.base_le
  nodup := h.nodup
  sound e hmem := by
    obtain ⟨h1, h2⟩ := mem_entriesIn.mp (h.sound e hmem)
    exact mem_entriesIn.mpr ⟨List.mem_append_left _ h1, h2⟩
  complete e hmem hnot := by
    obtain ⟨h1, h2, h3⟩ := mem_entriesIn.mp hmem
    rcases List.mem_append.mp h1 with h1 | h1
    · exact h.complete e (mem_entriesIn.mpr ⟨h1, h2, h3⟩)
        fun hret => hnot ((retractedAt_append hr _).mpr hret)
    · exact absurd (he e h1) (not_lt.mpr h3)
  tombSound r hmem := ⟨List.mem_append_left _ (h.tombSound r hmem).1, (h.tombSound r hmem).2⟩
  tombComplete r hmem := by
    obtain ⟨h1, h2, h3⟩ := mem_tombsIn.mp hmem
    rcases List.mem_append.mp h1 with h1 | h1
    · exact h.tombComplete r (mem_tombsIn.mpr ⟨h1, h2, h3⟩)
    · exact absurd (hr r h1) (not_lt.mpr h3)

/-! ## Change of representation -/

/-- A representation that keeps stamps and groups keeps the answers. -/
theorem activeAsOf_map [DecidableEq κ] {ε' : Type*} {ρ' : Type*} {S' : Shape ε' ρ' κ τ}
    {f : ε → ε'} {g : ρ → ρ'} (hstamp : ∀ e, S'.stamp (f e) = S.stamp e)
    (hgroup : ∀ e, S'.group (f e) = S.group e)
    (htombStamp : ∀ r, S'.tombStamp (g r) = S.tombStamp r)
    (htombGroup : ∀ r, S'.tombGroup (g r) = S.tombGroup r) (entries : List ε) (tombs : List ρ)
    (p : τ) :
    activeAsOf S' (entries.map f) (tombs.map g) p = (activeAsOf S entries tombs p).map f := by
  have hret (c : κ) : RetractedAt S' (tombs.map g) p c ↔ RetractedAt S tombs p c := by
    simp [RetractedAt, htombStamp, htombGroup]
  rw [activeAsOf, activeAsOf, List.filter_map]
  refine congrArg _ (List.filter_congr fun e _ => ?_)
  simp [hstamp, hgroup, hret]

end AsOf
