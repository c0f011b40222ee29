import Mathlib.Data.List.Infix
import Mathlib.Tactic

/-!
# The last members of a list and its windows

A history grows at its end, and what is kept of it is its last members.

* `last limit s`: what is kept.  Behind what is kept a new part gives what it gives behind the whole:
  `last_append_last`.
* `HasWindow n P s`: somewhere in the history stand `n` members in a row that are as `P` says.  A
  window that comes up with a new member stands at the end, so it is in what is kept:
  `hasWindow_concat_iff`.  By their positions the windows can be counted off: `hasWindow_iff`.
-/

namespace Windows

universe u

variable {α : Type u}

/-! ## The last members -/

/-- The last members of a list. -/
def last (limit : ℕ) (s : List α) : List α := s.drop (s.length - limit)

theorem length_last (limit : ℕ) (s : List α) : (last limit s).length = min limit s.length := by
  rw [last, List.length_drop]
  omega

theorem last_suffix (limit : ℕ) (s : List α) : last limit s <:+ s := List.drop_suffix _ s

/-- **Only what is kept of the first part counts** for the last members of a concatenation. -/
theorem last_append_last (limit : ℕ) (s u : List α) :
    last limit (last limit s ++ u) = last limit (s ++ u) := by
  unfold last
  rw [List.length_append, List.length_append, List.length_drop]
  by_cases hu : limit ≤ u.length
  · have hlong : s.drop (s.length + u.length - limit) = [] := List.drop_eq_nil_of_le (by omega)
    have hkept : (s.drop (s.length - limit)).drop
        (s.length - (s.length - limit) + u.length - limit) = [] :=
      List.drop_eq_nil_of_le (by rw [List.length_drop]; omega)
    rw [List.drop_append, List.drop_append, hlong, hkept, List.length_drop]
    congr 2
    omega
  · rw [List.drop_append_of_le_length (by rw [List.length_drop]; omega),
      List.drop_append_of_le_length (by omega), List.drop_drop]
    congr 2
    omega

/-- A suffix that is short enough is kept. -/
theorem suffix_last {limit : ℕ} {w s : List α} (h : w <:+ s) (hw : w.length ≤ limit) :
    w <:+ last limit s := by
  obtain ⟨p, rfl⟩ := h
  refine ⟨p.drop ((p ++ w).length - limit), ?_⟩
  rw [last, List.drop_append_of_le_length (by rw [List.length_append]; omega)]

/-! ## Windows -/

/-- Somewhere `n` members in a row are as `P` says. -/
def HasWindow (n : ℕ) (P : List α → Prop) (s : List α) : Prop :=
  ∃ w, w <:+: s ∧ w.length = n ∧ P w

variable {n limit : ℕ} {P : List α → Prop} {s u : List α}

theorem HasWindow.of_infix (h : HasWindow n P u) (hs : u <:+: s) : HasWindow n P s := by
  obtain ⟨w, hw, hlength, hP⟩ := h
  exact ⟨w, hw.trans hs, hlength, hP⟩

/-- **A window that comes up with a new member** stands at the end. -/
theorem hasWindow_concat_iff (hlimit : n ≤ limit) (x : α) :
    HasWindow n P (s ++ [x]) ↔ HasWindow n P s ∨ HasWindow n P (last limit (s ++ [x])) := by
  constructor
  · rintro ⟨w, ⟨p, q, hpq⟩, hlength, hP⟩
    rcases List.eq_nil_or_concat q with rfl | ⟨q', y, rfl⟩
    · refine .inr ⟨w, ?_, hlength, hP⟩
      rw [List.append_nil] at hpq
      exact (suffix_last ⟨p, hpq⟩ (hlength.trans_le hlimit)).isInfix
    · refine .inl ⟨w, ⟨p, q', ?_⟩, hlength, hP⟩
      rw [List.concat_eq_append, ← List.append_assoc] at hpq
      exact (List.append_inj' hpq rfl).1
  · rintro (h | h)
    · exact h.of_infix (List.prefix_append s [x]).isInfix
    · exact h.of_infix (last_suffix limit _).isInfix

theorem hasWindow_iff :
    HasWindow n P s ↔ ∃ start, start + n ≤ s.length ∧ P ((s.drop start).take n) := by
  constructor
  · rintro ⟨w, ⟨p, q, rfl⟩, hlength, hP⟩
    refine ⟨p.length, ?_, ?_⟩
    · rw [List.length_append, List.length_append, hlength]
      omega
    · rw [List.append_assoc, List.drop_left, ← hlength, List.take_left]
      exact hP
  · rintro ⟨start, hle, hP⟩
    refine ⟨(s.drop start).take n, ?_, ?_, hP⟩
    · exact (List.take_prefix _ _).isInfix.trans (List.drop_suffix _ _).isInfix
    · rw [List.length_take, List.length_drop]
      omega

/-! ## Neighbours -/

/-- Two positions in a row, in an ascending list of positions, are neighbours in it. -/
theorem exists_adjacent_iff {l : List ℕ} (h : l.Pairwise (· < ·)) :
    ((l.zip l.tail).any fun p => p.2 = p.1 + 1) = true ↔ ∃ i ∈ l, i + 1 ∈ l := by
  induction l with
  | nil => simp
  | cons a l ih =>
    obtain ⟨ha, hl⟩ := List.pairwise_cons.mp h
    cases l with
    | nil => simp
    | cons b l =>
      have hab : a < b := ha b List.mem_cons_self
      have hb := (List.pairwise_cons.mp hl).1
      rw [List.tail_cons, List.zip_cons_cons, List.any_cons, Bool.or_eq_true, decide_eq_true_eq]
      constructor
      · rintro (hnext | hrest)
        · exact ⟨a, List.mem_cons_self, hnext ▸ List.mem_cons_of_mem _ List.mem_cons_self⟩
        · obtain ⟨i, hi, hnext⟩ := (ih hl).mp hrest
          exact ⟨i, List.mem_cons_of_mem _ hi, List.mem_cons_of_mem _ hnext⟩
      · rintro ⟨i, hi, hnext⟩
        rcases List.mem_cons.mp hi with rfl | hi
        · rcases List.mem_cons.mp hnext with hself | hnext
          · omega
          · rcases List.mem_cons.mp hnext with hhead | hnext
            · exact .inl hhead.symm
            · have := hb _ hnext
              omega
        · refine .inr ((ih hl).mpr ⟨i, hi, ?_⟩)
          rcases List.mem_cons.mp hnext with hself | hnext
          · have := ha i hi
            omega
          · exact hnext

end Windows
