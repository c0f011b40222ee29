import Mathlib.Data.List.Basic
import Mathlib.Logic.Function.Basic
import Mathlib.Data.Nat.Basic
import Mathlib.Order.Nat

/-!
# Indexes by first witnesses

A history is numbered upwards.  An index that is kept as the history grows holds, for every edge it
has seen, the number of the first entry that shows the edge.  What a prefix of the history shows is
then read off the index of the whole history: the edges whose first witness is in the prefix.

* `first`, `add`: an edge is noted with its witness, or added to a set of edges.
* `seen w`: the edges with a witness up to `w`, in the order they were noted.
* `seen_first_of_lt`, `seen_first_of_le`: an entry above `w` shows a prefix nothing, and one of the
  prefix shows it the edge.
* `Edges`: the same, for the edges out of every node; an entry may show none.
-/

namespace Witness

universe u v

variable {ι : Type u} {κ : Type v}

/-- The edge is noted, unless it has a witness. -/
def first [DecidableEq κ] (l : List (κ × ℕ)) (k : κ) (n : ℕ) : List (κ × ℕ) :=
  if l.any fun e => e.1 = k then l else l ++ [(k, n)]

/-- The edge joins a set of edges. -/
def add [DecidableEq κ] (s : List κ) (k : κ) : List κ :=
  if s.any fun k' => k' = k then s else s ++ [k]

/-- The edges that the prefix up to `w` shows. -/
def seen (w : ℕ) (l : List (κ × ℕ)) : List κ := (l.filter fun e => e.2 ≤ w).map Prod.fst

/-- The witness of an edge, when it is in the prefix up to `w`. -/
def witness [DecidableEq κ] (w : ℕ) (l : List (κ × ℕ)) (k : κ) : Option ℕ :=
  (l.find? fun e => e.1 = k && e.2 ≤ w).map Prod.snd

/-- Every witness stands below `n`. -/
def Below (n : ℕ) (l : List (κ × ℕ)) : Prop := ∀ e ∈ l, e.2 < n

variable {l : List (κ × ℕ)} {k : κ} {n m w : ℕ}

theorem Below.mono (h : Below n l) (hnm : n ≤ m) : Below m l := fun e he => (h e he).trans_le hnm

theorem Below.first [DecidableEq κ] (h : Below n l) (k : κ) : Below (n + 1) (first l k n) := by
  unfold Witness.first
  split_ifs
  · exact h.mono n.le_succ
  · intro e he
    rcases List.mem_append.mp he with he | he
    · exact (h e he).trans n.lt_succ_self
    · rw [List.mem_singleton.mp he]
      exact n.lt_succ_self

/-- **An entry above the prefix** shows it nothing. -/
theorem seen_first_of_lt [DecidableEq κ] (h : w < n) (l : List (κ × ℕ)) (k : κ) :
    seen w (first l k n) = seen w l := by
  unfold first
  split_ifs
  · rfl
  · simp [seen, List.filter_append, not_le.mpr h]

/-- All of an index below a number of the prefix is seen. -/
theorem seen_eq_map (hn : n ≤ w + 1) (hl : Below n l) : seen w l = l.map Prod.fst := by
  have hall : ∀ e ∈ l, decide (e.2 ≤ w) = true := fun e he =>
    decide_eq_true (Nat.lt_succ_iff.mp ((hl e he).trans_le hn))
  rw [seen, List.filter_eq_self.mpr hall]

variable [DecidableEq κ]

/-- **An entry of the prefix** shows it its edge. -/
theorem seen_first_of_le (h : n ≤ w) (hl : Below n l) (k : κ) :
    seen w (first l k n) = add (seen w l) k := by
  rw [seen_eq_map (Nat.succ_le_succ h) (hl.first k), seen_eq_map (h.trans w.le_succ) hl, first, add,
    List.any_map, Function.comp_def]
  split_ifs
  · rfl
  · rw [List.map_append, List.map_singleton]

theorem witness_first_of_lt (h : w < n) (l : List (κ × ℕ)) (k k' : κ) :
    witness w (first l k n) k' = witness w l k' := by
  unfold first
  split_ifs
  · rfl
  · simp [witness, List.find?_append, not_le.mpr h]

/-- The witness that an entry of the prefix shows: the one that is known, or itself. -/
theorem witness_first_of_le (h : n ≤ w) (hl : Below n l) (k k' : κ) :
    witness w (first l k n) k' =
      if k' = k then some ((witness w l k).getD n) else witness w l k' := by
  have hall : ∀ e ∈ l, decide (e.2 ≤ w) = true := fun e he =>
    decide_eq_true ((hl e he).le.trans h)
  have hknown : ∀ k₀, l.find? (fun e => e.1 = k₀ && e.2 ≤ w) = l.find? fun e => e.1 = k₀ :=
    fun k₀ => by
      rw [← List.head?_filter, ← List.head?_filter,
        List.filter_congr fun e he => by rw [hall e he, Bool.and_true]]
  unfold first
  by_cases hany : l.any (fun e => e.1 = k) = true
  · rw [if_pos hany]
    by_cases hk : k' = k
    · subst hk
      rw [if_pos rfl, witness, hknown]
      obtain ⟨e, he, hek⟩ := List.any_eq_true.mp hany
      obtain ⟨found, hfound⟩ := Option.isSome_iff_exists.mp
        (List.find?_isSome.mpr ⟨e, he, hek⟩ : (l.find? fun e => e.1 = k').isSome = true)
      rw [hfound]
      rfl
    · rw [if_neg hk]
  · rw [if_neg hany, witness, List.find?_append, hknown]
    by_cases hk : k' = k
    · subst hk
      have hnone : l.find? (fun e => e.1 = k') = none := List.find?_eq_none.mpr fun e he hek =>
        hany (List.any_eq_true.mpr ⟨e, he, hek⟩)
      simp [witness, hknown, hnone, h]
    · simp [witness, hknown, hk, Ne.symm hk]

/-! ## Edges out of nodes -/

/-- The witnesses of the edges out of every node. -/
abbrev Edges (ι : Type u) (κ : Type v) := ι → List (κ × ℕ)

namespace Edges

variable [DecidableEq ι]

/-- An entry shows an edge, or none. -/
def note (e : Edges ι κ) (edge : Option (ι × κ)) (n : ℕ) : Edges ι κ :=
  match edge with
  | none => e
  | some (i, k) => Function.update e i (first (e i) k n)

/-- The edges that a prefix shows. -/
def seenAt (w : ℕ) (e : Edges ι κ) : ι → List κ := fun i => seen w (e i)

/-- Every witness stands below `n`. -/
def Below (n : ℕ) (e : Edges ι κ) : Prop := ∀ i, Witness.Below n (e i)

variable {e : Edges ι κ}

theorem Below.note (h : e.Below n) (edge : Option (ι × κ)) : (e.note edge n).Below (n + 1) := by
  intro i
  rcases edge with - | ⟨j, k⟩
  · exact (h i).mono n.le_succ
  · rw [Edges.note, Function.update_apply]
    split_ifs
    · exact (h j).first k
    · exact (h i).mono n.le_succ

theorem seenAt_note_of_lt (h : w < n) (e : Edges ι κ) (edge : Option (ι × κ)) :
    (e.note edge n).seenAt w = e.seenAt w := by
  rcases edge with - | ⟨j, k⟩
  · rfl
  · funext i
    rw [seenAt, note, Function.update_apply]
    split_ifs with hij
    · rw [seen_first_of_lt h, hij, seenAt]
    · rfl

end Edges

variable [DecidableEq ι]

/-- An edge joins the sets of edges out of nodes. -/
def addEdge (s : ι → List κ) (edge : Option (ι × κ)) : ι → List κ :=
  match edge with
  | none => s
  | some (i, k) => Function.update s i (add (s i) k)

theorem Edges.seenAt_note_of_le {e : Edges ι κ} (h : n ≤ w) (he : e.Below n)
    (edge : Option (ι × κ)) : (e.note edge n).seenAt w = addEdge (e.seenAt w) edge := by
  rcases edge with - | ⟨j, k⟩
  · rfl
  · funext i
    rw [seenAt, note, addEdge, Function.update_apply, Function.update_apply]
    split_ifs with hij
    · exact seen_first_of_le h (he j) k
    · rfl

end Witness
