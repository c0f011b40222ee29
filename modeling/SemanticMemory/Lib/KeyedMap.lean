import Mathlib.Data.List.Basic
import Mathlib.Data.List.Lemmas
import Mathlib.Data.List.Nodup
import Mathlib.Order.Defs.LinearOrder

/-!
# Maps in key order

`KeyedMap κ α` is a finite map whose entries are listed in strictly increasing key order, the way a
`std::map` is walked.  The order is a field, so no operation can build a map that has a key twice.

`find?`, `insert` and `erase` are the map's operations; `find?_insert` and `find?_erase` say what is
found afterwards, and `ext_find?` that a map is what its keys find.
-/

universe u v

/-- A finite map, its entries in increasing key order. -/
structure KeyedMap (κ : Type u) (α : Type v) [LinearOrder κ] where
  entries : List (κ × α) := []
  sorted : entries.Pairwise fun x y => x.1 < y.1 := by exact List.Pairwise.nil

namespace KeyedMap

variable {κ : Type u} {α : Type v} [LinearOrder κ]

instance [DecidableEq α] : DecidableEq (KeyedMap κ α) := fun m m' =>
  decidable_of_iff (m.entries = m'.entries) <| by
    cases m
    cases m'
    simp

/-- The map without entries. -/
def empty : KeyedMap κ α := {}

/-- The value under a key. -/
def find? (m : KeyedMap κ α) (k : κ) : Option α :=
  (m.entries.find? fun e => e.1 = k).map Prod.snd

variable {m : KeyedMap κ α} {k : κ} {a : α}

theorem mem_of_find? (h : m.find? k = some a) : (k, a) ∈ m.entries := by
  obtain ⟨e, he, rfl⟩ := Option.map_eq_some_iff.mp h
  have hk : e.1 = k := by simpa using List.find?_some he
  rw [← hk]
  exact List.mem_of_find?_eq_some he

/-- The keys, in order: a directory's listing. -/
def keys (m : KeyedMap κ α) : List κ := m.entries.map Prod.fst

theorem find?_eq_some_iff : m.find? k = some a ↔ (k, a) ∈ m.entries := by
  refine ⟨mem_of_find?, fun h => ?_⟩
  cases hf : m.find? k with
  | none =>
    have hnone := Option.map_eq_none_iff.mp hf
    exact absurd (decide_eq_true rfl) (List.find?_eq_none.mp hnone _ h)
  | some b =>
    have hkeys : (m.entries.map Prod.fst).Nodup :=
      List.pairwise_map.mpr (m.sorted.imp fun hlt => ne_of_lt hlt)
    have he := List.inj_on_of_nodup_map hkeys h (mem_of_find? hf) rfl
    rw [(Prod.mk.inj he).2]

/-- Put a value under a key, in its place. -/
def insertEntry (k : κ) (a : α) : List (κ × α) → List (κ × α)
  | [] => [(k, a)]
  | e :: es =>
    if k < e.1 then (k, a) :: e :: es
    else if k = e.1 then (k, a) :: es
    else e :: insertEntry k a es

variable {es : List (κ × α)} {e : κ × α}

theorem mem_insertEntry (h : e ∈ insertEntry k a es) : e = (k, a) ∨ e ∈ es := by
  induction es with
  | nil => exact Or.inl (List.mem_singleton.mp h)
  | cons d es ih =>
    unfold insertEntry at h
    split at h
    · exact List.mem_cons.mp h
    · split at h
      · rcases List.mem_cons.mp h with h | h
        · exact Or.inl h
        · exact Or.inr (List.mem_cons_of_mem _ h)
      · rcases List.mem_cons.mp h with h | h
        · exact Or.inr (h ▸ List.mem_cons_self)
        · exact (ih h).imp_right (List.mem_cons_of_mem _)

theorem sorted_insertEntry (k : κ) (a : α) (hes : es.Pairwise fun x y => x.1 < y.1) :
    (insertEntry k a es).Pairwise fun x y => x.1 < y.1 := by
  induction es with
  | nil => exact List.pairwise_singleton _ _
  | cons d es ih =>
    obtain ⟨hd, hes'⟩ := List.pairwise_cons.mp hes
    unfold insertEntry
    split
    · rename_i hk
      refine List.pairwise_cons.mpr ⟨fun e he => ?_, hes⟩
      rcases List.mem_cons.mp he with rfl | he
      · exact hk
      · exact hk.trans (hd e he)
    · rename_i hk
      split
      · rename_i hkd
        exact List.pairwise_cons.mpr ⟨fun e he => by rw [hkd]; exact hd e he, hes'⟩
      · rename_i hkd
        refine List.pairwise_cons.mpr ⟨fun e he => ?_, ih hes'⟩
        rcases mem_insertEntry he with rfl | he
        · exact lt_of_le_of_ne (not_lt.mp hk) (Ne.symm hkd)
        · exact hd e he

theorem mem_insertEntry_iff (hes : es.Pairwise fun x y => x.1 < y.1) :
    e ∈ insertEntry k a es ↔ e = (k, a) ∨ e.1 ≠ k ∧ e ∈ es := by
  induction es with
  | nil => simp [insertEntry]
  | cons d es ih =>
    obtain ⟨hd, hes'⟩ := List.pairwise_cons.mp hes
    unfold insertEntry
    split
    · rename_i hk
      have hne : ∀ x ∈ d :: es, x.1 ≠ k := fun x hx => by
        rcases List.mem_cons.mp hx with rfl | hx
        · exact (ne_of_lt hk).symm
        · exact (ne_of_lt (hk.trans (hd x hx))).symm
      rw [List.mem_cons]
      exact or_congr_right ⟨fun h => ⟨hne e h, h⟩, And.right⟩
    · split
      · rename_i hkd
        have hne : ∀ x ∈ es, x.1 ≠ k := fun x hx => hkd ▸ (ne_of_lt (hd x hx)).symm
        rw [List.mem_cons, List.mem_cons]
        refine or_congr_right ⟨fun h => ⟨hne e h, Or.inr h⟩, ?_⟩
        rintro ⟨hek, rfl | h⟩
        · exact absurd hkd.symm hek
        · exact h
      · rename_i hkd
        rw [List.mem_cons, List.mem_cons, ih hes']
        constructor
        · rintro (rfl | rfl | ⟨hek, h⟩)
          · exact Or.inr ⟨Ne.symm hkd, Or.inl rfl⟩
          · exact Or.inl rfl
          · exact Or.inr ⟨hek, Or.inr h⟩
        · rintro (rfl | ⟨hek, rfl | h⟩)
          · exact Or.inr (Or.inl rfl)
          · exact Or.inl rfl
          · exact Or.inr (Or.inr ⟨hek, h⟩)

/-- `m[k] = a`. -/
def insert (m : KeyedMap κ α) (k : κ) (a : α) : KeyedMap κ α where
  entries := insertEntry k a m.entries
  sorted := sorted_insertEntry k a m.sorted

@[simp] theorem find?_insert (m : KeyedMap κ α) (k k' : κ) (a : α) :
    (m.insert k a).find? k' = if k' = k then some a else m.find? k' := by
  refine Option.ext fun b => ?_
  show _ = some b ↔ _ = some b
  rw [find?_eq_some_iff, insert, mem_insertEntry_iff m.sorted, Prod.mk.injEq]
  split
  · rename_i hk
    simp [hk, eq_comm]
  · rename_i hk
    simp [hk, find?_eq_some_iff]

/-- `m.erase(k)`. -/
def erase (m : KeyedMap κ α) (k : κ) : KeyedMap κ α where
  entries := m.entries.filter fun e => e.1 ≠ k
  sorted := m.sorted.filter _

@[simp] theorem find?_erase (m : KeyedMap κ α) (k k' : κ) :
    (m.erase k).find? k' = if k' = k then none else m.find? k' := by
  refine Option.ext fun b => ?_
  show _ = some b ↔ _ = some b
  rw [find?_eq_some_iff, erase, List.mem_filter]
  split
  · rename_i hk
    simp [hk]
  · rename_i hk
    simp [hk, find?_eq_some_iff]

/-- **Extensionality.**  A map is what its keys find. -/
theorem ext_find? {m m' : KeyedMap κ α} (h : ∀ k, m.find? k = m'.find? k) : m = m' := by
  have hmem : ∀ e, e ∈ m.entries ↔ e ∈ m'.entries := fun e => by
    rw [← find?_eq_some_iff (k := e.1) (a := e.2), h, find?_eq_some_iff]
  have nodup : ∀ m : KeyedMap κ α, m.entries.Nodup := fun m =>
    m.sorted.imp fun hlt he => absurd (he ▸ hlt) (lt_irrefl _)
  have hperm := (List.perm_ext_iff_of_nodup (nodup m) (nodup m')).mpr hmem
  have hentries : m.entries = m'.entries :=
    hperm.eq_of_pairwise (fun _ _ _ _ hxy hyx => absurd (hxy.trans hyx) (lt_irrefl _))
      m.sorted m'.sorted
  cases m
  cases m'
  cases hentries
  rfl
/-! ## Changing every value -/

/-- The map with every value changed in its place. -/
def mapValues (f : κ → α → α) (m : KeyedMap κ α) : KeyedMap κ α :=
  ⟨m.entries.map fun e => (e.1, f e.1 e.2), List.pairwise_map.mpr m.sorted⟩

/-- What is found after every value has changed. -/
@[simp] theorem find?_mapValues (f : κ → α → α) (m : KeyedMap κ α) (k : κ) :
    (m.mapValues f).find? k = (m.find? k).map (f k) := by
  cases h : m.find? k with
  | some a =>
    refine find?_eq_some_iff.mpr (List.mem_map.mpr ⟨(k, a), mem_of_find? h, rfl⟩)
  | none =>
    refine Option.eq_none_iff_forall_ne_some.mpr fun b hb => ?_
    obtain ⟨e, he, heq⟩ := List.mem_map.mp (mem_of_find? hb)
    obtain rfl : e.1 = k := congrArg Prod.fst heq
    rw [find?_eq_some_iff.mpr (show (e.1, e.2) ∈ m.entries from he)] at h
    cases h

end KeyedMap
