import Mathlib.Data.List.Basic

/-!
# A pool of threads

The threads of a system as a list of the places where they stand.  A step moves one of them, or
appends a new one.

* `countP_set`, `countP_concat`: how the number of threads of a kind changes.
* `forall_set`, `forall_concat`: what holds of every thread after a step.
-/

namespace Pool

universe u

variable {α : Type u} {threads : List α} {i : ℕ} {a b : α}

variable {p : α → Bool}

/-- One thread moves from `a` to `b`. -/
theorem countP_set (h : threads[i]? = some a) :
    (threads.set i b).countP p + (p a).toNat = threads.countP p + (p b).toNat := by
  induction threads generalizing i with
  | nil => cases h
  | cons x xs ih =>
    cases i with
    | zero =>
      obtain rfl : x = a := Option.some.inj h
      rw [List.set_cons_zero, List.countP_cons, List.countP_cons]
      cases p x <;> cases p b <;> simp
    | succ i =>
      have := ih (i := i) h
      rw [List.set_cons_succ, List.countP_cons, List.countP_cons]
      omega

theorem countP_concat : (threads ++ [b]).countP p = threads.countP p + (p b).toNat := by
  rw [List.countP_append, List.countP_singleton]
  cases p b <;> rfl

theorem countP_pos_of_get (h : threads[i]? = some a) (ha : p a = true) : 0 < threads.countP p :=
  List.countP_pos_iff.mpr ⟨a, List.mem_of_getElem? h, ha⟩

/-- Where a single thread of a kind moves on, no other is of it. -/
theorem not_of_countP_le_one (h : threads[i]? = some a) (ha : p a = true)
    (hle : threads.countP p ≤ 1) (hb : p b = false) : (threads.set i b).countP p = 0 := by
  have := countP_set (b := b) (p := p) h
  rw [ha, hb] at this
  simp only [Bool.toNat_true, Bool.toNat_false] at this
  omega

theorem forall_set {P : α → Prop} (h : ∀ x ∈ threads, P x) (hb : P b) :
    ∀ x ∈ threads.set i b, P x := by
  intro x hx
  rcases List.mem_or_eq_of_mem_set hx with hx | rfl
  · exact h x hx
  · exact hb

theorem forall_concat {P : α → Prop} (h : ∀ x ∈ threads, P x) (hb : P b) :
    ∀ x ∈ threads ++ [b], P x := by
  intro x hx
  rcases List.mem_append.mp hx with hx | hx
  · exact h x hx
  · exact List.mem_singleton.mp hx ▸ hb

end Pool
