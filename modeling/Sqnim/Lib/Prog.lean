import Mathlib

/-!
# Stateful programs that report what they do

A program runs on a state, reports events, and returns a value or stops. It stops
because it raises an error, because a demand of its own is not met, or because a
recursion of the model runs out of fuel. The state and the events before a stop are kept,
and every outcome is honest about its demands.
-/
namespace Sqnim.Lib

/-- Why a program stops before its end. Where `φ` is empty it does not run out of fuel. -/
inductive Stop (ω ε φ : Type) where
  | raised (e : ε)
  | broken (w : ω)
  | outOfFuel (f : φ)
  deriving DecidableEq, Repr

/-- Events, some of which are demands that are not met. -/
class Judged (ω : Type) where
  met : ω → Bool

instance : Judged Empty := ⟨nofun⟩

/-- A demand that is not met is reported if and only if it stopped the program. -/
structure Outcome (σ ω ε φ : Type) [Judged ω] (α : Type) where
  result : Except (Stop ω ε φ) α
  final : σ
  events : List ω
  honest : (∃ w, result = .error (.broken w)) ↔ ∃ w ∈ events, Judged.met w = false

def Prog (σ ω ε φ : Type) [Judged ω] (α : Type) := σ → Outcome σ ω ε φ α

namespace Outcome

variable {σ ω ε φ α β : Type} [Judged ω]

/-- Nothing happened before the value was returned. -/
def ok (a : α) (s : σ) : Outcome σ ω ε φ α := ⟨.ok a, s, [], by simp⟩

theorem met_of_ok (o : Outcome σ ω ε φ α) {a : α} (h : o.result = .ok a) (w : ω)
    (hw : w ∈ o.events) : Judged.met w = true := by
  cases hm : Judged.met w with
  | true => rfl
  | false =>
    obtain ⟨v, hv⟩ := o.honest.mpr ⟨w, hw, hm⟩
    rw [h] at hv
    cases hv

/-- The outcome of a program and of another one after it. -/
def andThen (o : Outcome σ ω ε φ α) (k : α → σ → Outcome σ ω ε φ β) : Outcome σ ω ε φ β :=
  match h : o.result with
  | .ok a =>
    let o' := k a o.final
    ⟨o'.result, o'.final, o.events ++ o'.events, by
      rw [o'.honest]
      constructor
      · intro ⟨w, hw, hn⟩
        exact ⟨w, List.mem_append_right _ hw, hn⟩
      · intro ⟨w, hw, hn⟩
        obtain hl | hr := List.mem_append.mp hw
        · rw [o.met_of_ok h w hl] at hn
          cases hn
        · exact ⟨w, hr, hn⟩⟩
  | .error e => ⟨.error e, o.final, o.events, by simpa [h] using o.honest⟩

theorem andThen_of_ok (o : Outcome σ ω ε φ α) (k : α → σ → Outcome σ ω ε φ β) {a : α}
    (h : o.result = .ok a) :
    (o.andThen k).result = (k a o.final).result ∧ (o.andThen k).final = (k a o.final).final ∧
      (o.andThen k).events = o.events ++ (k a o.final).events := by
  unfold andThen
  split
  · next b hb =>
    rw [h] at hb
    cases hb
    exact ⟨rfl, rfl, rfl⟩
  · next e he =>
    rw [h] at he
    cases he

theorem andThen_of_error (o : Outcome σ ω ε φ α) (k : α → σ → Outcome σ ω ε φ β)
    {e : Stop ω ε φ} (h : o.result = .error e) :
    (o.andThen k).result = .error e ∧ (o.andThen k).events = o.events := by
  unfold andThen
  split
  · next b hb =>
    rw [h] at hb
    cases hb
  · next e' he =>
    rw [h] at he
    cases he
    exact ⟨rfl, rfl⟩

end Outcome

namespace Prog

variable {σ τ ω ε φ α β γ : Type} [Judged ω]

instance : Monad (Prog σ ω ε φ) where
  pure a := fun s => .ok a s
  bind m k := fun s => (m s).andThen k

def raise (e : ε) : Prog σ ω ε φ α := fun s => ⟨.error (.raised e), s, [], by simp⟩

def exhaust (f : φ) : Prog σ ω ε φ α := fun s => ⟨.error (.outOfFuel f), s, [], by simp⟩

def gets (f : σ → α) : Prog σ ω ε φ α := fun s => .ok (f s) s

def update (f : σ → σ) : Prog σ ω ε φ Unit := fun s => .ok () (f s)

/-- Report an event that is no unmet demand. -/
def report (w : ω) (h : Judged.met w = true) : Prog σ ω ε φ Unit := fun s =>
  ⟨.ok (), s, [w], by simp [h]⟩

/-- Report `w`, and go on if it is met. -/
def demand (w : ω) : Prog σ ω ε φ Unit := fun s =>
  ⟨if Judged.met w then .ok () else .error (.broken w), s, [w], by
    cases h : Judged.met w <;> simp [h]⟩

def when (c : Prop) [Decidable c] (m : Prog σ ω ε φ Unit) : Prog σ ω ε φ Unit :=
  if c then m else pure ()

/-- Run `m` on a component of the state. -/
def zoom (get : σ → τ) (put : σ → τ → σ) (m : Prog τ ω ε φ α) : Prog σ ω ε φ α := fun s =>
  let o := m (get s)
  ⟨o.result, put s o.final, o.events, o.honest⟩

/-- A program that does not run out of fuel is one that may. -/
def total (m : Prog σ ω ε Empty α) : Prog σ ω ε φ α := fun s =>
  let o := m s
  ⟨o.result.mapError fun
      | .raised e => .raised e
      | .broken w => .broken w,
    o.final, o.events, by
    rw [← o.honest]
    cases o.result with
    | ok a => simp [Except.mapError]
    | error e => cases e with
      | raised e => simp [Except.mapError]
      | broken w => simp [Except.mapError]
      | outOfFuel f => cases f⟩

/-- A program that can report nothing. -/
def silent (m : Prog σ Empty ε φ α) : Prog σ ω ε φ α := fun s =>
  let o := m s
  ⟨o.result.mapError fun
      | .raised e => .raised e
      | .broken w => nomatch w
      | .outOfFuel f => .outOfFuel f,
    o.final, [], by
    cases o.result with
    | ok a => simp [Except.mapError]
    | error e => cases e with
      | raised e => simp [Except.mapError]
      | broken w => cases w
      | outOfFuel f => simp [Except.mapError]⟩

/-- What a turn of a loop decides. -/
inductive Turn (β γ : Type) where
  | again (b : β)
  | done (c : γ)

/-- At most `fuel` turns of a loop. -/
def iterate (step : β → Prog σ ω ε Unit (Turn β γ)) : Nat → β → Prog σ ω ε Unit γ
  | 0, _ => exhaust ()
  | fuel + 1, b => do
    match ← step b with
    | .again b' => iterate step fuel b'
    | .done c => pure c

theorem total_ok (m : Prog σ ω ε Empty α) (s : σ) {a : α}
    (h : (total m s : Outcome σ ω ε φ α).result = .ok a) : (m s).result = .ok a := by
  change Except.mapError _ (m s).result = _ at h
  cases hr : (m s).result with
  | ok b =>
    rw [hr] at h
    cases h
    rfl
  | error e =>
    rw [hr] at h
    cases h

theorem silent_ok (m : Prog σ Empty ε φ α) (s : σ) {a : α}
    (h : (silent m s : Outcome σ ω ε φ α).result = .ok a) : (m s).result = .ok a := by
  change Except.mapError _ (m s).result = _ at h
  cases hr : (m s).result with
  | ok b =>
    rw [hr] at h
    cases h
    rfl
  | error e =>
    rw [hr] at h
    cases h

theorem silent_outOfFuel (m : Prog σ Empty ε φ α) (s : σ) {f : φ}
    (h : (silent m s : Outcome σ ω ε φ α).result = .error (.outOfFuel f)) :
    (m s).result = .error (.outOfFuel f) := by
  change Except.mapError _ (m s).result = _ at h
  cases hr : (m s).result with
  | ok b =>
    rw [hr] at h
    cases h
  | error e =>
    rw [hr] at h
    cases e with
    | raised e => cases h
    | broken w => cases w
    | outOfFuel f =>
      cases h
      rfl

section Run

variable (m : Prog σ ω ε φ α) (k : α → Prog σ ω ε φ β) (s : σ)

theorem bind_of_ok {a : α} {s' : σ} (h : m s = .ok a s') : (m >>= k) s = k a s' := by
  show (m s).andThen k = _
  rw [h]
  rfl

theorem gets_bind (f : σ → α) : (gets f >>= k) s = k (f s) s := bind_of_ok _ k s rfl

theorem update_bind (f : σ → σ) (k : Unit → Prog σ ω ε φ β) :
    (update f >>= k) s = k () (f s) := bind_of_ok _ k s rfl

theorem bind_ok_inv {b : β} (h : ((m >>= k) s).result = .ok b) :
    ∃ a, (m s).result = .ok a ∧ (k a (m s).final).result = .ok b ∧
      ((m >>= k) s).final = (k a (m s).final).final ∧
      ((m >>= k) s).events = (m s).events ++ (k a (m s).final).events := by
  cases hm : (m s).result with
  | ok a =>
    obtain ⟨hr, hf, he⟩ := (m s).andThen_of_ok k hm
    exact ⟨a, rfl, hr.symm.trans h, hf, he⟩
  | error e =>
    have he := ((m s).andThen_of_error k hm).1
    rw [show ((m s).andThen k).result = _ from h] at he
    cases he

theorem bind_error_inv {e : Stop ω ε φ} (h : ((m >>= k) s).result = .error e) :
    (m s).result = .error e ∨
      ∃ a, (m s).result = .ok a ∧ (k a (m s).final).result = .error e := by
  cases hm : (m s).result with
  | ok a =>
    have hr := ((m s).andThen_of_ok k hm).1
    exact .inr ⟨a, rfl, hr.symm.trans h⟩
  | error e' =>
    have he := ((m s).andThen_of_error k hm).1
    rw [show ((m s).andThen k).result = _ from h] at he
    cases he
    exact .inl rfl

end Run

/-! ## Result and state without the events -/

def run (m : Prog σ ω ε φ α) (s : σ) : Except (Stop ω ε φ) α × σ := ((m s).result, (m s).final)

/-- What follows a run that returned. -/
def after (r : Except (Stop ω ε φ) α × σ) (k : α → σ → Except (Stop ω ε φ) β × σ) :
    Except (Stop ω ε φ) β × σ :=
  match r with
  | (.ok a, s) => k a s
  | (.error e, s) => (.error e, s)

omit [Judged ω] in
@[simp] theorem after_ok (a : α) (s : σ) (k : α → σ → Except (Stop ω ε φ) β × σ) :
    after (.ok a, s) k = k a s := rfl

omit [Judged ω] in
@[simp] theorem after_error (e : Stop ω ε φ) (s : σ) (k : α → σ → Except (Stop ω ε φ) β × σ) :
    after (.error e, s) k = (.error e, s) := rfl

omit [Judged ω] in
theorem after_after (r : Except (Stop ω ε φ) α × σ) (k : α → σ → Except (Stop ω ε φ) β × σ)
    (l : β → σ → Except (Stop ω ε φ) γ × σ) :
    after (after r k) l = after r fun a s => after (k a s) l := by
  match r with
  | (.ok a, s) => rfl
  | (.error e, s) => rfl

omit [Judged ω] in
theorem after_ok_inv {r : Except (Stop ω ε φ) α × σ} {k : α → σ → Except (Stop ω ε φ) β × σ}
    {b : β} {t : σ} (h : after r k = (.ok b, t)) : ∃ a s, r = (.ok a, s) ∧ k a s = (.ok b, t) := by
  match r, h with
  | (.ok a, s), h => exact ⟨a, s, rfl, h⟩
  | (.error e, s), h =>
    rw [after_error] at h
    cases h

@[simp] theorem run_bind (m : Prog σ ω ε φ α) (k : α → Prog σ ω ε φ β) (s : σ) :
    run (m >>= k) s = after (run m s) fun a => run (k a) := by
  show (((m s).andThen k).result, ((m s).andThen k).final) = _
  cases hm : (m s).result with
  | ok a =>
    obtain ⟨hr, hf, -⟩ := (m s).andThen_of_ok k hm
    rw [hr, hf, run, hm]
    rfl
  | error e =>
    have hf : ((m s).andThen k).final = (m s).final := by
      unfold Outcome.andThen
      split
      · next a ha => rw [hm] at ha; cases ha
      · rfl
    rw [((m s).andThen_of_error k hm).1, hf, run, hm]
    rfl

theorem run_demand {w : ω} (h : Judged.met w = true) (s : σ) :
    run (demand w : Prog σ ω ε φ Unit) s = (.ok (), s) := by
  refine Prod.ext ?_ rfl
  show (if Judged.met w then Except.ok () else .error (Stop.broken w)) = _
  rw [if_pos h]

theorem run_demand_inv {w : ω} {s t : σ} {a : Unit}
    (h : run (demand w : Prog σ ω ε φ Unit) s = (.ok a, t)) : Judged.met w = true ∧ t = s := by
  have hr : (if Judged.met w then Except.ok () else .error (Stop.broken w)) =
      (Except.ok a : Except (Stop ω ε φ) Unit) := congrArg Prod.fst h
  refine ⟨?_, (congrArg Prod.snd h).symm⟩
  cases hm : Judged.met w with
  | true => rfl
  | false =>
    rw [hm] at hr
    cases hr

theorem run_bind_fun (m : Prog σ ω ε φ α) (k : α → Prog σ ω ε φ β) :
    run (m >>= k) = fun s => after (run m s) fun a => run (k a) := funext (run_bind m k)

theorem run_bind_inv {m : Prog σ ω ε φ α} {k : α → Prog σ ω ε φ β} {s t : σ} {b : β}
    (h : run (m >>= k) s = (.ok b, t)) : ∃ a u, run m s = (.ok a, u) ∧ run (k a) u = (.ok b, t) :=
  after_ok_inv ((run_bind m k s).symm.trans h)

@[simp] theorem run_pure (a : α) (s : σ) : run (pure a : Prog σ ω ε φ α) s = (.ok a, s) := rfl

@[simp] theorem run_map (f : α → β) (m : Prog σ ω ε φ α) (s : σ) :
    run (f <$> m) s = after (run m s) fun a s' => (.ok (f a), s') := run_bind m (pure ∘ f) s

@[simp] theorem run_gets (f : σ → α) (s : σ) : run (gets f : Prog σ ω ε φ α) s = (.ok (f s), s) :=
  rfl

@[simp] theorem run_update (f : σ → σ) (s : σ) :
    run (update f : Prog σ ω ε φ Unit) s = (.ok (), f s) := rfl

@[simp] theorem run_raise (e : ε) (s : σ) :
    run (raise e : Prog σ ω ε φ α) s = (.error (.raised e), s) := rfl

@[simp] theorem run_report (w : ω) (h : Judged.met w = true) (s : σ) :
    run (report w h : Prog σ ω ε φ Unit) s = (.ok (), s) := rfl

theorem run_gets_bind (f : σ → α) (k : α → Prog σ ω ε φ β) (s : σ) :
    run (gets f >>= k) s = run (k (f s)) s := run_bind (gets f) k s

theorem run_update_bind (f : σ → σ) (k : Unit → Prog σ ω ε φ β) (s : σ) :
    run (update f >>= k) s = run (k ()) (f s) := run_bind (update f) k s

end Prog
end Sqnim.Lib
