import Sqnim.Lib.Leads

/-!
# What a run reports

A property of every event of a run, whether the run returns or stops. What follows a program starts
where the program leads, so the rules ask for a condition on the states that stays true.
-/
namespace Sqnim.Lib

variable {σ τ ω ε φ α β γ : Type} [Judged ω]

/-- The events are as `P` says. -/
def Outcome.All (P : ω → Prop) (o : Outcome σ ω ε φ α) : Prop := ∀ w ∈ o.events, P w

/-- The events of every run from a state of `Q` are as `P` says. -/
class Reports (P : ω → Prop) (Q : σ → Prop) (m : Prog σ ω ε φ α) : Prop where
  out : ∀ s, Q s → (m s).All P

/-- Every program stays where nothing is asked of the state. -/
instance (priority := high) (m : Prog σ ω ε φ α) : Leads (Staying fun _ : σ => True) m where
  out _ _ _ _ _ := trivial

theorem Outcome.All.of_nil {P : ω → Prop} {o : Outcome σ ω ε φ α} (h : o.events = []) :
    o.All P := by
  intro w hw
  rw [h] at hw
  cases hw

theorem Outcome.all_bind {P : ω → Prop} {m : Prog σ ω ε φ α} {k : α → Prog σ ω ε φ β} {s : σ}
    (hm : (m s).All P) (hk : ∀ a t, Prog.run m s = (.ok a, t) → (k a t).All P) :
    ((m >>= k) s).All P := by
  show ((m s).andThen k).All P
  intro w hw
  cases hr : (m s).result with
  | ok a =>
    obtain ⟨-, -, hevents⟩ := (m s).andThen_of_ok k hr
    rw [hevents] at hw
    obtain hw | hw := List.mem_append.mp hw
    · exact hm w hw
    · exact hk a _ (Prod.ext hr rfl) w hw
  | error e =>
    rw [((m s).andThen_of_error k hr).2] at hw
    exact hm w hw

namespace Reports

variable {P : ω → Prop} {Q : σ → Prop}

theorem weaken {Q' : σ → Prop} {m : Prog σ ω ε φ α} (h : ∀ s, Q' s → Q s) [hm : Reports P Q m] :
    Reports P Q' m := ⟨fun s hs => hm.out s (h s hs)⟩

theorem report (w : ω) (hw : Judged.met w = true) (h : P w) :
    Reports P Q (Prog.report w hw : Prog σ ω ε φ Unit) where
  out _ _ _ hv := by
    cases List.mem_singleton.mp hv
    exact h

theorem demand (w : ω) (h : P w) : Reports P Q (Prog.demand w : Prog σ ω ε φ Unit) where
  out _ _ _ hv := by
    cases List.mem_singleton.mp hv
    exact h

variable (P Q)

instance (a : α) : Reports P Q (pure a : Prog σ ω ε φ α) := ⟨fun _ _ => .of_nil rfl⟩

instance (f : σ → α) : Reports P Q (Prog.gets f : Prog σ ω ε φ α) := ⟨fun _ _ => .of_nil rfl⟩

instance (f : σ → σ) : Reports P Q (Prog.update f : Prog σ ω ε φ Unit) :=
  ⟨fun _ _ => .of_nil rfl⟩

instance (e : ε) : Reports P Q (Prog.raise e : Prog σ ω ε φ α) := ⟨fun _ _ => .of_nil rfl⟩

instance (f : φ) : Reports P Q (Prog.exhaust f : Prog σ ω ε φ α) := ⟨fun _ _ => .of_nil rfl⟩

instance (m : Prog σ Empty ε φ α) : Reports P Q (Prog.silent m : Prog σ ω ε φ α) :=
  ⟨fun _ _ => .of_nil rfl⟩

instance (m : Prog σ ω ε Empty α) [hm : Reports P Q m] :
    Reports P Q (Prog.total m : Prog σ ω ε φ α) := ⟨hm.out⟩

theorem zoom (S : τ → Prop) (get : σ → τ) (put : σ → τ → σ) (m : Prog τ ω ε φ α)
    [hm : Reports P S m] (h : ∀ s, Q s → S (get s)) : Reports P Q (Prog.zoom get put m) :=
  ⟨fun s hs => hm.out (get s) (h s hs)⟩

theorem bind' (m : Prog σ ω ε φ α) (k : α → Prog σ ω ε φ β) [hm : Reports P Q m]
    [hlead : Leads (Staying Q) m] (hk : ∀ a, Reports P Q (k a)) : Reports P Q (m >>= k) where
  out s hs := Outcome.all_bind (hm.out s hs) fun a t h => (hk a).out t (hlead.out s a t h hs)

instance (m : Prog σ ω ε φ α) (k : α → Prog σ ω ε φ β) [Reports P Q m] [Leads (Staying Q) m]
    [hk : ∀ a, Reports P Q (k a)] : Reports P Q (m >>= k) := bind' P Q m k hk

/-- What follows may use what the program found, and in which state it left. -/
theorem bind_run (m : Prog σ ω ε φ α) (k : α → Prog σ ω ε φ β) [hm : Reports P Q m]
    (hk : ∀ s a t, Q s → Prog.run m s = (.ok a, t) → (k a t).All P) : Reports P Q (m >>= k) :=
  ⟨fun s hs => Outcome.all_bind (hm.out s hs) fun a t h => hk s a t hs h⟩

instance (c : Prop) [Decidable c] (m m' : Prog σ ω ε φ α) [hm : Reports P Q m]
    [hm' : Reports P Q m'] : Reports P Q (if c then m else m') := by
  split
  · exact hm
  · exact hm'

instance (c : Prop) [Decidable c] (m : Prog σ ω ε φ Unit) [Reports P Q m] :
    Reports P Q (Prog.when c m) := by
  unfold Prog.when
  infer_instance

end Reports

/-! ## Loops -/

section Loops

variable (P : ω → Prop) (step : β → Prog σ ω ε Unit (Prog.Turn β γ))

/-- The events of a loop, if every turn starts as `Q` says. -/
theorem all_iterate (Q : β → σ → Prop) (hstep : ∀ x s, Q x s → (step x s).All P)
    (hagain : ∀ x s x' t, Q x s → Prog.run (step x) s = (.ok (.again x'), t) → Q x' t)
    (n : Nat) (x : β) (s : σ) (hs : Q x s) : (Prog.iterate step n x s).All P := by
  induction n generalizing x s with
  | zero => exact .of_nil rfl
  | succ n ih =>
    refine Outcome.all_bind (hstep x s hs) ?_
    intro t u hu
    cases t with
    | again x' => exact ih x' u (hagain x s x' u hs hu)
    | done c => exact .of_nil rfl

/-- Where a loop ends. -/
theorem run_iterate_inv (Q : β → σ → Prop) (R : γ → σ → Prop)
    (hagain : ∀ x s x' t, Q x s → Prog.run (step x) s = (.ok (.again x'), t) → Q x' t)
    (hdone : ∀ x s c t, Q x s → Prog.run (step x) s = (.ok (.done c), t) → R c t)
    (n : Nat) (x : β) (s t : σ) (c : γ) (hs : Q x s)
    (h : Prog.run (Prog.iterate step n x) s = (.ok c, t)) : R c t := by
  induction n generalizing x s with
  | zero => cases congrArg Prod.fst h
  | succ n ih =>
    obtain ⟨r, u, hu, hrest⟩ := Prog.run_bind_inv h
    cases r with
    | again x' => exact ih x' u (hagain x s x' u hs hu) hrest
    | done c' =>
      cases hrest
      exact hdone x s c u hs hu

variable [Supply σ]

instance (Q : σ → Prop) (x : β) [hstep : ∀ x, Reports P Q (step x)]
    [hlead : ∀ x, Leads (Staying Q) (step x)] : Reports P Q (Prog.loop step x) where
  out s := all_iterate P step (fun _ => Q) (fun x => (hstep x).out)
    (fun x s _ t hs h => (hlead x).out s _ t h hs) _ x s

/-- A loop and what follows it, where the values that the turns pass on matter. -/
theorem Reports.bind_loop {α : Type} (Q : σ → Prop) (S : β → σ → Prop) (R : γ → σ → Prop) (x : β)
    (k : γ → Prog σ ω ε Unit α) (hx : ∀ s, Q s → S x s)
    (hstep : ∀ x s, S x s → (step x s).All P)
    (hagain : ∀ x s x' t, S x s → Prog.run (step x) s = (.ok (.again x'), t) → S x' t)
    (hdone : ∀ x s c t, S x s → Prog.run (step x) s = (.ok (.done c), t) → R c t)
    (hk : ∀ c s, R c s → (k c s).All P) : Reports P Q (Prog.loop step x >>= k) where
  out s hs := Outcome.all_bind (all_iterate P step S hstep hagain _ x s (hx s hs)) fun c t h =>
    hk c t (run_iterate_inv step S R hagain hdone _ x s t c (hx s hs) h)

end Loops
end Sqnim.Lib
