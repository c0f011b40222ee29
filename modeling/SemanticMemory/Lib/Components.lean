import Mathlib.Data.List.Basic
import Mathlib.Algebra.BigOperators.Group.List.Basic
import Mathlib.Tactic.Abel

/-!
# One component of a list steps

A system of parallel components is a list of states, and a step of the `i`-th component replaces its
entry.  `forall_mem_set` carries a property of every component over such a step, and `sum_map_set`
says what the step does to a quantity summed over the components.
-/

namespace Components

universe u v

variable {α : Type u} {M : Type v}

/-- A property of every component survives a step to a component that has it. -/
theorem forall_mem_set {P : α → Prop} {l : List α} {i : ℕ} {b : α} (hl : ∀ x ∈ l, P x) (hb : P b) :
    ∀ x ∈ l.set i b, P x := by
  intro x hx
  rcases List.mem_or_eq_of_mem_set hx with hx | rfl
  · exact hl x hx
  · exact hb

/-- A step of one component changes the sum by the change of its term. -/
theorem sum_map_set [AddCommGroup M] (f : α → M) {l : List α} {i : ℕ} {a : α} (h : l[i]? = some a)
    (b : α) : ((l.set i b).map f).sum = (l.map f).sum - f a + f b := by
  induction l generalizing i with
  | nil => simp at h
  | cons x l ih =>
    cases i with
    | zero =>
      have hx : x = a := by simpa using h
      subst hx
      rw [List.set_cons_zero, List.map_cons, List.map_cons, List.sum_cons, List.sum_cons]
      abel
    | succ i =>
      have hi : l[i]? = some a := by simpa using h
      rw [List.set_cons_succ, List.map_cons, List.map_cons, List.sum_cons, List.sum_cons, ih hi]
      abel

end Components
