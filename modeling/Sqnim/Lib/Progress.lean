import Sqnim.Lib.Prog

/-!
# Programs that end because they use up a supply

A state has a supply, and some steps take from it when something is pending. A loop
or a recursion ends if each of its turns takes at least one unit. The classes below say
this of a program, and their instances follow the way it is composed.
-/
namespace Sqnim.Lib

/-- What is left to take, and whether the next step that takes will find something. -/
class Supply (σ : Type) where
  left : σ → Nat
  pending : σ → Prop

/-- What is known when a program starts: the supply is at most `b`, something is pending as well,
or the supply is already below `b`. -/
inductive Stage where
  | start
  | pending
  | fed

namespace Stage

variable {σ : Type} [Supply σ]

def Holds (b : Nat) : Stage → σ → Prop
  | start, s => Supply.left s ≤ b
  | pending, s => Supply.left s ≤ b ∧ Supply.pending s
  | fed, s => Supply.left s < b

/-- What is still known after a program that may have taken what was pending. -/
@[reducible] def after : Stage → Stage
  | start => start
  | pending => start
  | fed => fed

theorem Holds.le {b : Nat} {st : Stage} {s : σ} (h : st.Holds b s) : Supply.left s ≤ b := by
  cases st with
  | start => exact h
  | pending => exact h.1
  | fed => exact Nat.le_of_lt h

theorem Holds.after {b : Nat} {st : Stage} {s s' : σ} (h : st.Holds b s)
    (hs : Supply.left s' ≤ Supply.left s) : st.after.Holds b s' := by
  cases st with
  | start => exact Nat.le_trans hs h
  | pending => exact Nat.le_trans hs h.1
  | fed => exact Nat.lt_of_le_of_lt hs h

theorem Holds.fed {b : Nat} {st : Stage} {s s' : σ} (h : st.Holds b s)
    (hs : Supply.left s' < Supply.left s) : Stage.fed.Holds b s' :=
  Nat.lt_of_lt_of_le hs h.le

theorem Holds.same {b : Nat} {st : Stage} {s s' : σ} (h : st.Holds b s)
    (hs : Supply.left s' = Supply.left s) (hp : Supply.pending s → Supply.pending s') :
    st.Holds b s' := by
  cases st with
  | start => exact Nat.le_trans (Nat.le_of_eq hs) h
  | pending => exact ⟨Nat.le_trans (Nat.le_of_eq hs) h.1, hp h.2⟩
  | fed => exact Nat.lt_of_le_of_lt (Nat.le_of_eq hs) h

end Stage

section Classes

variable {σ ω ε α β γ : Type} [Judged ω] [Supply σ]

/-- The program ends and takes nothing. -/
class Still (m : Prog σ ω ε Unit α) : Prop where
  fuel : ∀ s, (m s).result ≠ .error (.outOfFuel ())
  same : ∀ s a, (m s).result = .ok a →
    Supply.left (m s).final = Supply.left s ∧
      (Supply.pending s → Supply.pending (m s).final)

/-- The program ends, and returns `a` only after it took `cost a` at least. -/
class Takes (b : Nat) (st : Stage) (cost : α → Nat) (m : Prog σ ω ε Unit α) : Prop where
  fuel : ∀ s, st.Holds b s → (m s).result ≠ .error (.outOfFuel ())
  le : ∀ s a, st.Holds b s → (m s).result = .ok a →
    Supply.left (m s).final + cost a ≤ Supply.left s

def nothing (_ : α) : Nat := 0

def something (_ : α) : Nat := 1

/-- A turn of a loop takes something, unless it is the last one. -/
def turn (cost : γ → Nat) : Prog.Turn β γ → Nat
  | .again _ => 1
  | .done c => cost c

abbrev Ends (b : Nat) (st : Stage) (m : Prog σ ω ε Unit α) : Prop := Takes b st nothing m

abbrev Eats (b : Nat) (st : Stage) (m : Prog σ ω ε Unit α) : Prop := Takes b st something m

abbrev Turns (b : Nat) (st : Stage) (m : Prog σ ω ε Unit (Prog.Turn β γ)) : Prop :=
  Takes b st (turn nothing) m

class AtMostOne (cost : α → Nat) : Prop where
  le : ∀ a, cost a ≤ 1

instance : AtMostOne (nothing : α → Nat) := ⟨fun _ => Nat.zero_le _⟩

instance : AtMostOne (something : α → Nat) := ⟨fun _ => Nat.le_refl _⟩

instance (cost : γ → Nat) [h : AtMostOne cost] :
    AtMostOne (turn cost : Prog.Turn β γ → Nat) where
  le
    | .again _ => Nat.le_refl _
    | .done c => h.le c

end Classes

section Still

variable {σ τ ω ε α β γ : Type} [Judged ω] [Supply σ]

instance (a : α) : Still (pure a : Prog σ ω ε Unit α) where
  fuel _ h := by cases h
  same _ _ _ := ⟨rfl, id⟩

instance (f : σ → α) : Still (Prog.gets f : Prog σ ω ε Unit α) where
  fuel _ h := by cases h
  same _ _ _ := ⟨rfl, id⟩

instance (e : ε) : Still (Prog.raise e : Prog σ ω ε Unit α) where
  fuel _ h := by cases h
  same _ _ h := by cases h

theorem still_update (f : σ → σ) (hl : ∀ s, Supply.left (f s) = Supply.left s)
    (hp : ∀ s, Supply.pending s → Supply.pending (f s)) :
    Still (Prog.update f : Prog σ ω ε Unit Unit) where
  fuel _ h := by cases h
  same s _ _ := ⟨hl s, hp s⟩

instance (m : Prog σ ω ε Unit α) (k : α → Prog σ ω ε Unit β) [hm : Still m]
    [hk : ∀ a, Still (k a)] : Still (m >>= k) where
  fuel s h := by
    obtain h | ⟨a, _, h⟩ := Prog.bind_error_inv m k s h
    · exact hm.fuel s h
    · exact (hk a).fuel _ h
  same s b h := by
    obtain ⟨a, ha, hb, hf, _⟩ := Prog.bind_ok_inv m k s h
    obtain ⟨hl, hp⟩ := hm.same s a ha
    obtain ⟨hl', hp'⟩ := (hk a).same _ b hb
    rw [hf]
    exact ⟨hl'.trans hl, fun h => hp' (hp h)⟩

instance (c : Prop) [Decidable c] (m m' : Prog σ ω ε Unit α) [hm : Still m] [hm' : Still m'] :
    Still (if c then m else m') := by
  split
  · exact hm
  · exact hm'

instance (c : Prop) [Decidable c] (m : Prog σ ω ε Unit Unit) [Still m] :
    Still (Prog.when c m) := by
  unfold Prog.when
  infer_instance

theorem total_fuel (m : Prog τ ω ε Empty α) (t : τ) :
    (Prog.total m t : Outcome τ ω ε Unit α).result ≠ .error (.outOfFuel ()) := by
  show Except.mapError _ (m t).result ≠ _
  cases (m t).result with
  | ok a => simp [Except.mapError]
  | error e => cases e with
    | raised e => simp [Except.mapError]
    | broken w => simp [Except.mapError]
    | outOfFuel f => cases f

/-- A program that runs on a component which is no part of the supply. -/
theorem still_zoom (get : σ → τ) (put : σ → τ → σ) (m : Prog τ ω ε Empty α)
    (hl : ∀ s t, Supply.left (put s t) = Supply.left s)
    (hp : ∀ s t, Supply.pending s → Supply.pending (put s t)) :
    Still (Prog.zoom get put (Prog.total m)) where
  fuel s := total_fuel m (get s)
  same s _ _ := ⟨hl s _, hp s _⟩

end Still

section Takes

variable {σ ω ε α β γ : Type} [Judged ω] [Supply σ] {b : Nat} {st : Stage}

instance (priority := low) (m : Prog σ ω ε Unit α) [hm : Still m] : Ends b st m where
  fuel s _ := hm.fuel s
  le s a _ h := Nat.le_of_eq (hm.same s a h).1

instance (priority := low) (cost : α → Nat) [hc : AtMostOne cost] (m : Prog σ ω ε Unit α)
    [hm : Eats b st m] : Takes b st cost m where
  fuel := hm.fuel
  le s a hs h := Nat.le_trans (Nat.add_le_add_left (hc.le a) _) (hm.le s a hs h)

instance (cost : α → Nat) (e : ε) : Takes b st cost (Prog.raise e : Prog σ ω ε Unit α) where
  fuel _ _ h := by cases h
  le _ _ _ h := by cases h

theorem done_takes (cost : γ → Nat) (c : γ) (hc : cost c = 0) :
    Takes b st (turn cost) (pure (.done c) : Prog σ ω ε Unit (Prog.Turn β γ)) where
  fuel _ _ h := by cases h
  le s a _ h := by
    cases h
    exact Nat.le_of_eq (by simp only [turn, hc]; rfl)

instance (c : γ) : Turns b st (pure (.done c) : Prog σ ω ε Unit (Prog.Turn β γ)) :=
  done_takes nothing c rfl

/-- After a program that takes something, the rest only has to end. -/
theorem Eats.before (cost : β → Nat) [hc : AtMostOne cost] (m : Prog σ ω ε Unit α)
    (k : α → Prog σ ω ε Unit β) [hm : Eats b st m] (hk : ∀ a, Ends b .fed (k a)) :
    Takes b st cost (m >>= k) where
  fuel s hs h := by
    obtain h | ⟨a, ha, h⟩ := Prog.bind_error_inv m k s h
    · exact hm.fuel s hs h
    · exact (hk a).fuel _ (hs.fed (hm.le s a hs ha)) h
  le s c hs h := by
    obtain ⟨a, ha, hr, hf, _⟩ := Prog.bind_ok_inv m k s h
    have h₁ : Supply.left (m s).final + 1 ≤ Supply.left s := hm.le s a hs ha
    have h₂ : Supply.left (k a (m s).final).final + 0 ≤ Supply.left (m s).final :=
      (hk a).le _ c (hs.fed h₁) hr
    have h₃ := hc.le c
    rw [hf]
    omega

instance (priority := high) (cost : β → Nat) [AtMostOne cost] (m : Prog σ ω ε Unit α)
    (k : α → Prog σ ω ε Unit β) [Eats b st m] [hk : ∀ a, Ends b .fed (k a)] :
    Takes b st cost (m >>= k) :=
  Eats.before cost m k hk

theorem Takes.after_still (cost : β → Nat) (m : Prog σ ω ε Unit α) (k : α → Prog σ ω ε Unit β)
    [hm : Still m] (hk : ∀ a, Takes b st cost (k a)) : Takes b st cost (m >>= k) where
  fuel s hs h := by
    obtain h | ⟨a, ha, h⟩ := Prog.bind_error_inv m k s h
    · exact hm.fuel s h
    · exact (hk a).fuel _ (hs.same (hm.same s a ha).1 (hm.same s a ha).2) h
  le s c hs h := by
    obtain ⟨a, ha, hr, hf, _⟩ := Prog.bind_ok_inv m k s h
    obtain ⟨hl, hp⟩ := hm.same s a ha
    rw [hf, ← hl]
    exact (hk a).le _ c (hs.same hl hp) hr

instance (cost : β → Nat) (m : Prog σ ω ε Unit α) (k : α → Prog σ ω ε Unit β) [Still m]
    [hk : ∀ a, Takes b st cost (k a)] : Takes b st cost (m >>= k) :=
  Takes.after_still cost m k hk

instance (priority := low) (cost : β → Nat) (m : Prog σ ω ε Unit α) (k : α → Prog σ ω ε Unit β)
    [hm : Ends b st m] [hk : ∀ a, Takes b st.after cost (k a)] :
    Takes b st cost (m >>= k) where
  fuel s hs h := by
    obtain h | ⟨a, ha, h⟩ := Prog.bind_error_inv m k s h
    · exact hm.fuel s hs h
    · exact (hk a).fuel _ (hs.after (hm.le s a hs ha)) h
  le s c hs h := by
    obtain ⟨a, ha, hr, hf, _⟩ := Prog.bind_ok_inv m k s h
    have h₁ : Supply.left (m s).final ≤ Supply.left s := hm.le s a hs ha
    rw [hf]
    exact Nat.le_trans ((hk a).le _ c (hs.after h₁) hr) h₁

instance (cost : α → Nat) (c : Prop) [Decidable c] (m m' : Prog σ ω ε Unit α)
    [hm : Takes b st cost m] [hm' : Takes b st cost m'] :
    Takes b st cost (if c then m else m') := by
  split
  · exact hm
  · exact hm'

instance (c : Prop) [Decidable c] (m : Prog σ ω ε Unit Unit) [Ends b st m] :
    Ends b st (Prog.when c m) := by
  unfold Prog.when
  infer_instance

instance (cost : α → Nat) (m : Prog σ Empty ε Unit α) [h : Takes b st cost m] :
    Takes b st cost (Prog.silent m : Prog σ ω ε Unit α) where
  fuel s hs hf := h.fuel s hs (Prog.silent_outOfFuel m s hf)
  le s a hs ha := h.le s a hs (Prog.silent_ok m s ha)

/-- What a program takes from any supply up to `b`, it takes whatever else is known. -/
theorem Takes.at_any {cost : α → Nat} {m : Prog σ ω ε Unit α} (h : Takes b .start cost m) :
    Takes b st cost m where
  fuel s hs := h.fuel s hs.le
  le s a hs := h.le s a hs.le

/-- A supply of less than `b + 1` is one of `b` at most. -/
theorem Takes.succ {cost : α → Nat} {m : Prog σ ω ε Unit α} (h : Takes b .start cost m) :
    Takes (b + 1) .fed cost m where
  fuel s hs := h.fuel s (Nat.le_of_lt_succ hs)
  le s a hs := h.le s a (Nat.le_of_lt_succ hs)

/-- No supply is less than 0. -/
theorem takes_zero (cost : α → Nat) (m : Prog σ ω ε Unit α) : Takes 0 .fed cost m where
  fuel _ hs := absurd hs (Nat.not_lt_zero _)
  le _ _ hs := absurd hs (Nat.not_lt_zero _)

end Takes

section Loop

variable {σ ω ε β γ : Type} [Judged ω] [Supply σ] {b : Nat} {st : Stage}

/-- A loop whose turns take something: as many turns as the supply allows, and one more. -/
def Prog.loop (step : β → Prog σ ω ε Unit (Prog.Turn β γ)) (x : β) : Prog σ ω ε Unit γ := fun s =>
  Prog.iterate step (Supply.left s + 1) x s

theorem iterate_takes (cost : γ → Nat) (step : β → Prog σ ω ε Unit (Prog.Turn β γ)) (n : Nat)
    (x : β) (s : σ) (hst : ∀ x, Takes b st.after (turn cost) (step x)) (hs : st.after.Holds b s)
    (hn : Supply.left s < n) :
    (Prog.iterate step n x s).result ≠ .error (.outOfFuel ()) ∧
      ∀ c, (Prog.iterate step n x s).result = .ok c →
        Supply.left (Prog.iterate step n x s).final + cost c ≤ Supply.left s := by
  induction n generalizing x s with
  | zero => omega
  | succ n ih =>
    have turn := hst x
    have next : ∀ x', (step x s).result = .ok (.again x') →
        st.after.Holds b (step x s).final ∧ Supply.left (step x s).final < Supply.left s := by
      intro x' h
      have hlt : Supply.left (step x s).final < Supply.left s := turn.le s _ hs h
      have hh : st.after.after.Holds b (step x s).final := hs.after (Nat.le_of_lt hlt)
      exact ⟨by cases st <;> exact hh, hlt⟩
    constructor
    · intro h
      obtain h | ⟨t, ht, h⟩ := Prog.bind_error_inv (step x) _ s h
      · exact turn.fuel s hs h
      · cases t with
        | done c => cases h
        | again x' =>
          obtain ⟨hh, hlt⟩ := next x' ht
          exact (ih x' _ hh (by omega)).1 h
    · intro c hc
      obtain ⟨t, ht, hr, hf, _⟩ := Prog.bind_ok_inv (step x) _ s hc
      show Supply.left ((step x >>= _) s).final + _ ≤ _
      rw [hf]
      cases t with
      | done c' =>
        cases hr
        exact turn.le s _ hs ht
      | again x' =>
        obtain ⟨hh, hlt⟩ := next x' ht
        exact Nat.le_trans ((ih x' _ hh (by omega)).2 c hr) (Nat.le_of_lt hlt)

theorem loop_takes (cost : γ → Nat) (step : β → Prog σ ω ε Unit (Prog.Turn β γ)) (x : β)
    (hst : ∀ x, Takes b st.after (turn cost) (step x)) : Takes b st cost (Prog.loop step x) where
  fuel s hs :=
    (iterate_takes cost step _ x s hst (hs.after (Nat.le_refl _)) (Nat.lt_succ_self _)).1
  le s c hs h :=
    (iterate_takes cost step _ x s hst (hs.after (Nat.le_refl _)) (Nat.lt_succ_self _)).2 c h

/-- A loop whose first turn takes something takes something. -/
theorem loop_first (step : β → Prog σ ω ε Unit (Prog.Turn β γ)) (x : β) (s : σ)
    (hst : ∀ x, Turns b .start (step x)) (hs : Supply.left s ≤ b)
    (hf : ∀ t, (step x s).result = .ok t →
      Supply.left (step x s).final + 1 ≤ Supply.left s) {c : γ}
    (h : (Prog.loop step x s).result = .ok c) :
    Supply.left (Prog.loop step x s).final + 1 ≤ Supply.left s := by
  obtain ⟨t, ht, hr, he, _⟩ := Prog.bind_ok_inv (step x) _ s h
  have hlt := hf t ht
  show Supply.left ((step x >>= _) s).final + 1 ≤ _
  rw [he]
  cases t with
  | done c' => exact hlt
  | again x' =>
    have hle : Stage.start.Holds b (step x s).final := Nat.le_trans (by omega) hs
    have hst' : ∀ x, Turns b Stage.start.after (step x) := hst
    have := (iterate_takes nothing step _ x' _ hst' hle (by omega)).2 c hr
    exact Nat.le_trans (Nat.succ_le_succ this) hlt

instance (step : β → Prog σ ω ε Unit (Prog.Turn β γ)) (x : β)
    [hst : ∀ x, Turns b st.after (step x)] : Ends b st (Prog.loop step x) :=
  loop_takes nothing step x hst

end Loop

end Sqnim.Lib
