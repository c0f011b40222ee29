import Mathlib.Data.List.Basic
import Mathlib.Order.Basic

/-!
# Runs of a step function

A system is a step function `step : σ → α → σ`: a state and one action of the outside world give
the next state.  An action that is not enabled leaves the state alone, so every list of actions is
a run and a statement about all runs is a statement about all lists.

* `run` folds a list of actions; `run_append` splits a run at any moment.
* `run_invariant`: what every step keeps, every run keeps.
* `Along P`: every step of the run meets a condition on the state before it and its action, and
  `run_invariant_along` is the invariant rule for such runs; `along_iff` compares two conditions.
* `run_rel`: a reflexive and transitive relation that every step respects holds between the ends.
* `Reaches`: one action, taken again and again, comes to a state of a kind.
-/

namespace Runs

universe u v

variable {σ : Type u} {α : Type v} {step : σ → α → σ}

/-- The state after a list of actions. -/
def run (step : σ → α → σ) (s : σ) (as : List α) : σ := as.foldl step s

@[simp] theorem run_nil (s : σ) : run step s [] = s := rfl

@[simp] theorem run_cons (s : σ) (a : α) (as : List α) :
    run step s (a :: as) = run step (step s a) as := rfl

/-- A run can be cut at any moment. -/
theorem run_append (s : σ) (as bs : List α) :
    run step s (as ++ bs) = run step (run step s as) bs :=
  List.foldl_append

theorem run_concat (s : σ) (as : List α) (a : α) :
    run step s (as ++ [a]) = step (run step s as) a := by
  rw [run_append, run_cons, run_nil]

variable {I : σ → Prop} {s : σ}

/-- **The invariant rule.**  What every step keeps, every run keeps. -/
theorem run_invariant (hstep : ∀ s a, I s → I (step s a)) (hs : I s) (as : List α) :
    I (run step s as) := by
  induction as generalizing s with
  | nil => exact hs
  | cons a as ih => exact ih (hstep s a hs)

/-! ## Conditional runs -/

/-- Every step of the run from `s` meets `P`, a condition on the state before the step and the
action taken. -/
def Along (step : σ → α → σ) (P : σ → α → Prop) : σ → List α → Prop
  | _, [] => True
  | s, a :: as => P s a ∧ Along step P (step s a) as

@[simp] theorem along_nil (P : σ → α → Prop) (s : σ) : Along step P s [] := trivial

variable {as : List α}

@[simp] theorem along_cons {P : σ → α → Prop} {a : α} :
    Along step P s (a :: as) ↔ P s a ∧ Along step P (step s a) as := Iff.rfl

theorem along_append {P : σ → α → Prop} {as bs : List α} :
    Along step P s (as ++ bs) ↔ Along step P s as ∧ Along step P (run step s as) bs := by
  induction as generalizing s with
  | nil => simp
  | cons a as ih => rw [List.cons_append, along_cons, along_cons, ih, run_cons, and_assoc]

/-- A condition that always holds constrains no run. -/
theorem along_of_forall {P : σ → α → Prop} (h : ∀ s a, P s a) (s : σ) (as : List α) :
    Along step P s as := by
  induction as generalizing s with
  | nil => trivial
  | cons a as ih => exact ⟨h s a, ih _⟩

/-- A condition on the actions alone. -/
theorem along_of_mem {Q : α → Prop} (h : ∀ a ∈ as, Q a) (s : σ) :
    Along step (fun _ a => Q a) s as := by
  induction as generalizing s with
  | nil => trivial
  | cons a as ih =>
    exact ⟨h a (List.mem_cons_self ..), ih (fun b hb => h b (List.mem_cons_of_mem _ hb)) _⟩

theorem along_and {P Q : σ → α → Prop} :
    Along step (fun s a => P s a ∧ Q s a) s as ↔ Along step P s as ∧ Along step Q s as := by
  induction as generalizing s with
  | nil => simp
  | cons a as ih => rw [along_cons, along_cons, along_cons, ih, and_and_and_comm]

instance decidableAlong {P : σ → α → Prop} [∀ s a, Decidable (P s a)] :
    ∀ s as, Decidable (Along step P s as)
  | _, [] => isTrue trivial
  | s, a :: as =>
    have := decidableAlong (P := P) (step s a) as
    inferInstanceAs (Decidable (P s a ∧ Along step P (step s a) as))

/-- **The invariant rule for conditional runs.** -/
theorem run_invariant_along {P : σ → α → Prop} (hstep : ∀ s a, P s a → I s → I (step s a))
    (hs : I s) (has : Along step P s as) : I (run step s as) := by
  induction as generalizing s with
  | nil => exact hs
  | cons a as ih => exact ih (hstep s a has.1 hs) has.2

/-- Two conditions that agree wherever an invariant holds agree along a run, if the one keeps the
invariant. -/
theorem along_iff {P Q : σ → α → Prop} (hiff : ∀ s a, I s → (P s a ↔ Q s a))
    (hstep : ∀ s a, Q s a → I s → I (step s a)) (hs : I s) (as : List α) :
    Along step P s as ↔ Along step Q s as := by
  induction as generalizing s with
  | nil => exact Iff.rfl
  | cons a as ih =>
    rw [along_cons, along_cons, hiff s a hs]
    exact and_congr_right fun hq => ih (hstep s a hq hs)

/-- A relation respected by every step holds between the ends of every run. -/
theorem run_rel {R : σ → σ → Prop} (hrefl : ∀ s, R s s)
    (htrans : ∀ s t w, R s t → R t w → R s w) (hstep : ∀ s a, R s (step s a)) (s : σ)
    (as : List α) : R s (run step s as) := by
  induction as generalizing s with
  | nil => exact hrefl s
  | cons a as ih => exact htrans _ _ _ (hstep s a) (ih _)

/-! ## One action, again and again -/

/-- The action comes to a state of the kind `P` if it is taken often enough. -/
def Reaches (step : σ → α → σ) (a : α) (P : σ → Prop) (s : σ) : Prop :=
  ∃ k, P (run step s (List.replicate k a))

variable {a : α} {P : σ → Prop}

theorem reaches_here (h : P s) : Reaches step a P s := ⟨0, h⟩

/-- A step from a state of another kind changes nothing about what is reached. -/
theorem reaches_step (h : ¬ P s) : Reaches step a P s ↔ Reaches step a P (step s a) := by
  constructor
  · rintro ⟨k, hk⟩
    cases k with
    | zero => exact absurd hk h
    | succ k => exact ⟨k, hk⟩
  · rintro ⟨k, hk⟩
    exact ⟨k + 1, hk⟩

/-- An invariant that excludes a kind of state keeps it from being reached. -/
theorem not_reaches (hstep : ∀ s, I s → I (step s a)) (hno : ∀ s, I s → ¬ P s) (hs : I s) : ¬ Reaches step a P s := by
  rintro ⟨k, hk⟩
  refine hno _ ?_ hk
  induction k generalizing s with
  | zero => exact hs
  | succ k ih => exact ih (hstep s hs) hk

end Runs
