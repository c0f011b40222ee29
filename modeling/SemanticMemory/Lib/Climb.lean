import Mathlib.Data.List.Pairwise
import Mathlib.Order.Basic

/-!
# Strictly climbing sequences

`Climbs a l b`: the entries of `l` climb strictly, from above `a` up to `b`, which is the last of
them, or `a` itself when there is none.  It is the history of a clock that is only ever ticked
forward: `a` is where the clock stood, `l` the points it handed out, `b` where it stands.

Two histories compose (`Climbs.append`), and the facts one wants of the points follow:
`Climbs.pairwise`, `Climbs.lt_of_mem`, `Climbs.le_of_mem`, `Climbs.mem_or`.
-/

universe u

variable {α : Type u} [Preorder α]

/-- The entries of `l` climb strictly from above `a` to `b`. -/
def Climbs : α → List α → α → Prop
  | a, [], b => a = b
  | a, x :: l, b => a < x ∧ Climbs x l b

namespace Climbs

variable {a b : α}

@[simp] theorem nil_iff : Climbs a [] b ↔ a = b := Iff.rfl

theorem refl (a : α) : Climbs a [] a := rfl

theorem single (h : a < b) : Climbs a [b] b := ⟨h, rfl⟩

/-- Climbing histories compose. -/
theorem append {a b c : α} {l m : List α} (hl : Climbs a l b) (hm : Climbs b m c) :
    Climbs a (l ++ m) c := by
  induction l generalizing a with
  | nil => rw [nil_iff.mp hl]; exact hm
  | cons x l ih => exact ⟨hl.1, ih hl.2⟩

variable {l : List α}

theorem le (h : Climbs a l b) : a ≤ b := by
  induction l generalizing a with
  | nil => exact le_of_eq h
  | cons x l ih => exact h.1.le.trans (ih h.2)

/-- Every point is above where the clock stood. -/
theorem lt_of_mem (h : Climbs a l b) : ∀ x ∈ l, a < x := by
  induction l generalizing a with
  | nil => intro x hx; cases hx
  | cons y l ih =>
    intro x hx
    rcases List.mem_cons.mp hx with rfl | hx
    · exact h.1
    · exact h.1.trans (ih h.2 x hx)

/-- No point is above where the clock stands. -/
theorem le_of_mem (h : Climbs a l b) : ∀ x ∈ l, x ≤ b := by
  induction l generalizing a with
  | nil => intro x hx; cases hx
  | cons y l ih =>
    intro x hx
    rcases List.mem_cons.mp hx with rfl | hx
    · exact h.2.le
    · exact ih h.2 x hx

/-- The points are strictly increasing. -/
theorem pairwise (h : Climbs a l b) : l.Pairwise (· < ·) := by
  induction l generalizing a with
  | nil => exact List.Pairwise.nil
  | cons x l ih => exact List.pairwise_cons.mpr ⟨h.2.lt_of_mem, ih h.2⟩

/-- The clock stands at a point it handed out, or never moved. -/
theorem mem_or (h : Climbs a l b) : b ∈ l ∨ l = [] ∧ b = a := by
  induction l generalizing a with
  | nil => exact Or.inr ⟨rfl, (nil_iff.mp h).symm⟩
  | cons x l ih =>
    rcases ih h.2 with hmem | ⟨-, rfl⟩
    · exact Or.inl (List.mem_cons_of_mem _ hmem)
    · exact Or.inl List.mem_cons_self

end Climbs
