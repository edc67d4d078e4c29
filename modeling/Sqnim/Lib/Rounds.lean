import Sqnim.Lib.Progress

/-!
# A loop turn by turn

Turns that go on, and what a loop returns when they come to its last turn or to an error. The fuel
of the loop is not counted: a loop that does not run out of it does what its turns do.
-/
namespace Sqnim.Lib

variable {σ ω ε β γ : Type} [Judged ω]

/-- Turns of a loop that go on, from an argument and a state to others. -/
inductive Rounds (step : β → Prog σ ω ε Unit (Prog.Turn β γ)) : β → σ → β → σ → Prop
  | refl (x : β) (s : σ) : Rounds step x s x s
  | again {x y z : β} {s t u : σ} (turn : Prog.run (step x) s = (.ok (.again y), t))
    (rest : Rounds step y t z u) : Rounds step x s z u

namespace Rounds

variable {step : β → Prog σ ω ε Unit (Prog.Turn β γ)} {x y z : β} {s t u : σ}

theorem single (turn : Prog.run (step x) s = (.ok (.again y), t)) : Rounds step x s y t :=
  .again turn (.refl y t)

theorem trans (h₁ : Rounds step x s y t) (h₂ : Rounds step y t z u) : Rounds step x s z u := by
  induction h₁ with
  | refl => exact h₂
  | again turn _ ih => exact .again turn (ih h₂)

theorem run_iterate (h : Rounds step x s y t) {r : Except (Stop ω ε Unit) γ × σ}
    (hr : ∀ n, Prog.run (Prog.iterate step (n + 1) y) t = r) (n : Nat) :
    Prog.run (Prog.iterate step n x) s = r ∨
      (Prog.run (Prog.iterate step n x) s).1 = .error (.outOfFuel ()) := by
  induction h generalizing n with
  | refl =>
    cases n with
    | zero => exact .inr rfl
    | succ n => exact .inl (hr n)
  | again turn _ ih =>
    cases n with
    | zero => exact .inr rfl
    | succ n =>
      rw [Prog.iterate, Prog.run_bind, turn, Prog.after_ok]
      exact ih hr n

theorem run_iterate_done {c : γ} (h : Prog.run (step x) s = (.ok (.done c), t)) (n : Nat) :
    Prog.run (Prog.iterate step (n + 1) x) s = (.ok c, t) := by
  rw [Prog.iterate, Prog.run_bind, h, Prog.after_ok, Prog.run_pure]

theorem run_iterate_error {e : Stop ω ε Unit} (h : Prog.run (step x) s = (.error e, t)) (n : Nat) :
    Prog.run (Prog.iterate step (n + 1) x) s = (.error e, t) := by
  rw [Prog.iterate, Prog.run_bind, h, Prog.after_error]

variable [Supply σ]

/-- The turns come to the last one. -/
theorem run_loop {c : γ} (h : Rounds step x s y t)
    (hlast : Prog.run (step y) t = (.ok (.done c), u))
    (hfuel : (Prog.loop step x s).result ≠ .error (.outOfFuel ())) :
    Prog.run (Prog.loop step x) s = (.ok c, u) :=
  (h.run_iterate (run_iterate_done hlast) _).resolve_right hfuel

/-- The first turn is the last one. -/
theorem run_loop_done {c : γ} (h : Prog.run (step x) s = (.ok (.done c), t)) :
    Prog.run (Prog.loop step x) s = (.ok c, t) := run_iterate_done h _

/-- The turns come to an error. -/
theorem run_loop_error {e : Stop ω ε Unit} (h : Rounds step x s y t)
    (hlast : Prog.run (step y) t = (.error e, u))
    (hfuel : (Prog.loop step x s).result ≠ .error (.outOfFuel ())) :
    Prog.run (Prog.loop step x) s = (.error e, u) :=
  (h.run_iterate (run_iterate_error hlast) _).resolve_right hfuel

end Rounds
end Sqnim.Lib
