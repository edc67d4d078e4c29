import Sqnim.Lib.Progress

/-!
# Programs between related states

A program leads along a relation if every run of it that returns ends in a state that is related to
the one it started in. For a reflexive and transitive relation the instances follow the way a
program is composed.
-/
namespace Sqnim.Lib

variable {σ τ ω ε φ α β γ : Type} [Judged ω]

class Leads (R : σ → σ → Prop) (m : Prog σ ω ε φ α) : Prop where
  out : ∀ s a s', Prog.run m s = (.ok a, s') → R s s'

/-- A relation that may hold along a program of any length. -/
class Journey (R : σ → σ → Prop) : Prop where
  refl : ∀ s, R s s
  trans : ∀ s t u, R s t → R t u → R s u

/-- Element by element. -/
instance (R : σ → σ → Prop) [hR : Journey R] : Journey (List.Forall₂ R) where
  refl l := by
    induction l with
    | nil => exact .nil
    | cons s l ih => exact .cons (hR.refl s) ih
  trans l m n h₁ h₂ := by
    induction h₁ generalizing n with
    | nil => exact h₂
    | cons h _ ih =>
      cases h₂ with
      | cons h' hl' => exact .cons (hR.trans _ _ _ h h') (ih _ hl')

namespace Leads

theorem update {R : σ → σ → Prop} (f : σ → σ) (h : ∀ s, R s (f s)) :
    Leads R (Prog.update f : Prog σ ω ε φ Unit) where
  out s _ _ hrun := by
    cases hrun
    exact h s

variable (R : σ → σ → Prop)

instance (e : ε) : Leads R (Prog.raise e : Prog σ ω ε φ α) where
  out _ _ _ h := by cases congrArg Prod.fst h

instance (f : φ) : Leads R (Prog.exhaust f : Prog σ ω ε φ α) where
  out _ _ _ h := by cases congrArg Prod.fst h

instance (c : Prop) [Decidable c] (m m' : Prog σ ω ε φ α) [hm : Leads R m] [hm' : Leads R m'] :
    Leads R (if c then m else m') := by
  split
  · exact hm
  · exact hm'

instance (m : Prog σ ω ε Empty α) [hm : Leads R m] : Leads R (Prog.total m : Prog σ ω ε φ α) where
  out s a s' h := by
    have hr : (m s).result = .ok a := Prog.total_ok m s (congrArg Prod.fst h)
    have hf : (m s).final = s' := congrArg Prod.snd h
    exact hm.out s a s' (Prod.ext hr hf)

theorem silent (m : Prog σ Empty ε φ α) [hm : Leads R m] :
    Leads R (Prog.silent m : Prog σ ω ε φ α) where
  out s a s' h := by
    have hr : (m s).result = .ok a := Prog.silent_ok m s (congrArg Prod.fst h)
    have hf : (m s).final = s' := congrArg Prod.snd h
    exact hm.out s a s' (Prod.ext hr hf)

/-- A program on a component of the state. -/
theorem zoom (S : τ → τ → Prop) (get : σ → τ) (put : σ → τ → σ) (m : Prog τ ω ε φ α)
    [hm : Leads S m] (h : ∀ s t, S (get s) t → R s (put s t)) :
    Leads R (Prog.zoom get put m) where
  out s a s' hrun := by
    have hr : (m (get s)).result = .ok a := congrArg Prod.fst hrun
    have hf : put s (m (get s)).final = s' := congrArg Prod.snd hrun
    rw [← hf]
    exact h s _ (hm.out (get s) a _ (Prod.ext hr rfl))

variable [hR : Journey R]

instance (a : α) : Leads R (pure a : Prog σ ω ε φ α) where
  out s _ _ h := by
    cases h
    exact hR.refl s

instance (f : σ → α) : Leads R (Prog.gets f : Prog σ ω ε φ α) where
  out s _ _ h := by
    cases h
    exact hR.refl s

instance (w : ω) (hw : Judged.met w = true) : Leads R (Prog.report w hw : Prog σ ω ε φ Unit) where
  out s _ _ h := by
    cases h
    exact hR.refl s

instance (w : ω) : Leads R (Prog.demand w : Prog σ ω ε φ Unit) where
  out s _ s' h := by
    cases congrArg Prod.snd h
    exact hR.refl s

theorem bind' (m : Prog σ ω ε φ α) (k : α → Prog σ ω ε φ β) [hm : Leads R m]
    (hk : ∀ a, Leads R (k a)) : Leads R (m >>= k) where
  out s b s' h := by
    obtain ⟨a, t, ht, hu⟩ := Prog.run_bind_inv h
    exact hR.trans s t s' (hm.out s a t ht) ((hk a).out t b s' hu)

instance (m : Prog σ ω ε φ α) (k : α → Prog σ ω ε φ β) [Leads R m] [hk : ∀ a, Leads R (k a)] :
    Leads R (m >>= k) := bind' R m k hk

theorem report_bind (w : ω) (hw : Judged.met w = true) (k : Unit → Prog σ ω ε φ α)
    [hk : Leads R (k ())] : Leads R (Prog.report w hw >>= k) := bind' R _ _ fun _ => hk

instance (c : Prop) [Decidable c] (m : Prog σ ω ε φ Unit) [Leads R m] :
    Leads R (Prog.when c m) := by
  unfold Prog.when
  infer_instance

theorem iterate (step : β → Prog σ ω ε Unit (Prog.Turn β γ)) (hstep : ∀ x, Leads R (step x))
    (n : Nat) (x : β) : Leads R (Prog.iterate step n x) := by
  induction n generalizing x with
  | zero => exact inferInstanceAs (Leads R (Prog.exhaust () : Prog σ ω ε Unit γ))
  | succ n ih =>
    have := hstep x
    apply bind'
    intro t
    cases t with
    | again x' => exact ih x'
    | done c => exact inferInstanceAs (Leads R (pure c : Prog σ ω ε Unit γ))

instance [Supply σ] (step : β → Prog σ ω ε Unit (Prog.Turn β γ)) (x : β)
    [hstep : ∀ x, Leads R (step x)] : Leads R (Prog.loop step x) where
  out s := (iterate R step hstep _ x).out s

end Leads

/-! ## Conditions that stay true -/

def Staying (P : σ → Prop) (s s' : σ) : Prop := P s → P s'

instance (P : σ → Prop) : Journey (Staying P) where
  refl _ := id
  trans _ _ _ h₁ h₂ := h₂ ∘ h₁

/-! ## From an earlier state -/

/-- What is related to an earlier state stays so. -/
def Since (R : σ → σ → Prop) (b s s' : σ) : Prop := R b s → R b s'

section Since

variable (R : σ → σ → Prop) (b : σ)

instance : Journey (Since R b) where
  refl _ := id
  trans _ _ _ h₁ h₂ := h₂ ∘ h₁

instance (priority := low) [hR : Journey R] (m : Prog σ ω ε φ α) [hm : Leads R m] :
    Leads (Since R b) m where
  out s a s' h hb := hR.trans b s s' hb (hm.out s a s' h)

/-- A program leads along a relation if it does so from every earlier state. -/
theorem Leads.of_since [hR : Journey R] (m : Prog σ ω ε φ α) (h : ∀ b, Leads (Since R b) m) :
    Leads R m where
  out s a s' hrun := (h s).out s a s' hrun (hR.refl s)

end Since

/-! ## Values that are right for an earlier state -/

/-- Every value that the program returns is right for the states that its own state is related
to. -/
class Finds (R : σ → σ → Prop) (m : Prog σ ω ε φ α) (right : σ → α → Prop) : Prop where
  out : ∀ b s a s', R b s → Prog.run m s = (.ok a, s') → right b a

section Finds

variable (R : σ → σ → Prop) (b : σ)

/-- What follows a program may use what the program found. -/
theorem Leads.bind_finds (right : σ → α → Prop) (m : Prog σ ω ε φ α)
    (k : α → Prog σ ω ε φ β) [hm : Leads (Since R b) m] [hf : Finds R m right]
    (hk : ∀ a, right b a → Leads (Since R b) (k a)) : Leads (Since R b) (m >>= k) where
  out s c s' h hb := by
    obtain ⟨a, t, ht, hu⟩ := Prog.run_bind_inv h
    exact (hk a (hf.out b s a t hb ht)).out t c s' hu (hm.out s a t ht hb)

theorem Finds.bind [hR : Journey R] (right : σ → β → Prop) (m : Prog σ ω ε φ α) (k : α → Prog σ ω ε φ β)
    [hm : Leads R m] (hk : ∀ a, Finds R (k a) right) : Finds R (m >>= k) right where
  out b s c s' hb h := by
    obtain ⟨a, t, ht, hu⟩ := Prog.run_bind_inv h
    exact (hk a).out b t c s' (hR.trans b s t hb (hm.out s a t ht)) hu

/-- What follows passes on what the program found. -/
theorem Finds.through (right : σ → α → Prop) (right' : σ → β → Prop) (m : Prog σ ω ε φ α)
    (k : α → Prog σ ω ε φ β) [hm : Finds R m right]
    (hk : ∀ b a, right b a → ∀ s c s', Prog.run (k a) s = (.ok c, s') → right' b c) :
    Finds R (m >>= k) right' where
  out b s c s' hb h := by
    obtain ⟨a, t, ht, hu⟩ := Prog.run_bind_inv h
    exact hk b a (hm.out b s a t hb ht) t c s' hu

/-- A loop whose turns pass on right values only. -/
theorem iterate_finds (right : β → Prop) (right' : γ → Prop)
    (step : β → Prog σ ω ε Unit (Prog.Turn β γ))
    (hstep : ∀ x, right x → Leads (Since R b) (step x))
    (hagain : ∀ x s x' s', right x → R b s → Prog.run (step x) s = (.ok (.again x'), s') →
      right x')
    (hdone : ∀ x s c s', right x → R b s → Prog.run (step x) s = (.ok (.done c), s') → right' c)
    (n : Nat) (x : β) (hx : right x) (s s' : σ) (c : γ) (hb : R b s)
    (h : Prog.run (Prog.iterate step n x) s = (.ok c, s')) : R b s' ∧ right' c := by
  induction n generalizing x s with
  | zero => cases congrArg Prod.fst h
  | succ n ih =>
    obtain ⟨t, u, hu, hrest⟩ := Prog.run_bind_inv h
    have hbu := (hstep x hx).out s t u hu hb
    cases t with
    | again x' => exact ih x' (hagain x s x' u hx hb hu) u hbu hrest
    | done c' =>
      cases hrest
      exact ⟨hbu, hdone x s c _ hx hb hu⟩

theorem Leads.bind_loop [Supply σ] (right : β → Prop) (right' : γ → Prop)
    (step : β → Prog σ ω ε Unit (Prog.Turn β γ)) (x : β) (k : γ → Prog σ ω ε Unit α)
    (hstep : ∀ x, right x → Leads (Since R b) (step x))
    (hagain : ∀ x s x' s', right x → R b s → Prog.run (step x) s = (.ok (.again x'), s') →
      right x')
    (hdone : ∀ x s c s', right x → R b s → Prog.run (step x) s = (.ok (.done c), s') → right' c)
    (hx : right x) (hk : ∀ c, right' c → Leads (Since R b) (k c)) :
    Leads (Since R b) (Prog.loop step x >>= k) where
  out s a s' h hb := by
    obtain ⟨c, t, hloop, hrest⟩ := Prog.run_bind_inv h
    obtain ⟨hbt, hc⟩ := iterate_finds R b right right' step hstep hagain hdone _ x hx s t c hb hloop
    exact (hk c hc).out t a s' hrest hbt

end Finds
end Sqnim.Lib
