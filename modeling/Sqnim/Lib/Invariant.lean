import Sqnim.Lib.Progress

/-!
# Programs that keep an invariant

An invariant says what is good of the state and of the values that programs pass on,
which events a run may report, and what follows of them. A program keeps it if a run
that reports allowed events only leads from good to good. The instances follow the way
a program is composed.
-/
namespace Sqnim.Lib

/-- What is to hold of the values of a type. -/
class Goodness (α : Type) where
  good : α → Prop

class Good {α : Type} [Goodness α] (a : α) : Prop where
  out : Goodness.good a

/-- The good values of a type: instances can be looked for under a binder of this type. -/
abbrev GoodOnes (α : Type) [Goodness α] := {a : α // Goodness.good a}

instance {α : Type} [Goodness α] (a : GoodOnes α) : Good a.val := ⟨a.property⟩

/-- Nothing is to hold. -/
class Plain (α : Type) [Goodness α] : Prop where
  all : ∀ a : α, Goodness.good a

instance {α : Type} [Goodness α] [h : Plain α] (a : α) : Good a := ⟨h.all a⟩

/-- The events that are allowed, and what holds of them if only these are reported. -/
class Audited (ω : Type) where
  allowed : ω → Prop
  right : ω → Prop

section Values

instance : Goodness Unit := ⟨fun _ => True⟩
instance : Plain Unit := ⟨fun _ => trivial⟩
instance : Goodness Bool := ⟨fun _ => True⟩
instance : Plain Bool := ⟨fun _ => trivial⟩
instance : Goodness Nat := ⟨fun _ => True⟩
instance : Plain Nat := ⟨fun _ => trivial⟩
instance : Goodness Int := ⟨fun _ => True⟩
instance : Plain Int := ⟨fun _ => trivial⟩
instance : Goodness Char := ⟨fun _ => True⟩
instance : Plain Char := ⟨fun _ => trivial⟩
instance {w : Nat} : Goodness (BitVec w) := ⟨fun _ => True⟩
instance {w : Nat} : Plain (BitVec w) := ⟨fun _ => trivial⟩
instance {α β : Type} : Goodness (α → β) := ⟨fun _ => True⟩
instance {α β : Type} : Plain (α → β) := ⟨fun _ => trivial⟩

variable {α β : Type} [Goodness α] [Goodness β]

instance (a : α) [h : Good a] : Good (id a) := h

instance : Goodness (α × β) := ⟨fun p => Goodness.good p.1 ∧ Goodness.good p.2⟩

instance [Plain α] [Plain β] : Plain (α × β) := ⟨fun p => ⟨Plain.all p.1, Plain.all p.2⟩⟩

instance (a : α) (b : β) [Good a] [Good b] : Good (a, b) := ⟨Good.out, Good.out⟩

instance (p : α × β) [h : Good p] : Good p.1 := ⟨h.out.1⟩

instance (p : α × β) [h : Good p] : Good p.2 := ⟨h.out.2⟩

instance : Goodness (Option α) := ⟨fun o => ∀ a, o = some a → Goodness.good a⟩

instance [Plain α] : Plain (Option α) := ⟨fun _ a _ => Plain.all a⟩

instance : Good (none : Option α) := ⟨nofun⟩

instance (a : α) [h : Good a] : Good (some a) where
  out b hb := by
    cases hb
    exact h.out

instance : Goodness (List α) := ⟨fun l => ∀ a ∈ l, Goodness.good a⟩

instance [Plain α] : Plain (List α) := ⟨fun _ a _ => Plain.all a⟩

instance : Good ([] : List α) := ⟨nofun⟩

instance (a : α) (l : List α) [h : Good a] [hl : Good l] : Good (a :: l) where
  out b hb := by
    obtain rfl | hb := List.mem_cons.mp hb
    · exact h.out
    · exact hl.out b hb

instance (l l' : List α) [h : Good l] [h' : Good l'] : Good (l ++ l') where
  out b hb := by
    obtain hb | hb := List.mem_append.mp hb
    · exact h.out b hb
    · exact h'.out b hb

instance (l : List α) [h : Good l] : Good l.tail := ⟨fun b hb => h.out b (List.mem_of_mem_tail hb)⟩

instance (l : List α) [h : Good l] : Good l.dropLast :=
  ⟨fun b hb => h.out b ((List.dropLast_sublist l).mem hb)⟩

instance (l : List α) (n : Nat) [h : Good l] : Good (l.take n) :=
  ⟨fun b hb => h.out b (List.mem_of_mem_take hb)⟩

instance (l : List α) (n : Nat) [h : Good l] : Good (l.drop n) :=
  ⟨fun b hb => h.out b (List.mem_of_mem_drop hb)⟩

instance (l : List α) (a : α) [h : Good l] [ha : Good a] : Good (l.headD a) where
  out := by
    cases l with
    | nil => exact ha.out
    | cons b l => exact h.out b List.mem_cons_self

instance (c : Prop) [Decidable c] (a b : α) [ha : Good a] [hb : Good b] :
    Good (if c then a else b) := by
  split
  · exact ha
  · exact hb

/-- A list that is changed in one place is good if the new element is. -/
theorem good_modify (l : List α) (n : Nat) (f : α → α) (h : Good l)
    (hf : ∀ a, l[n]? = some a → Goodness.good a → Goodness.good (f a)) : Good (l.modify n f) where
  out b hb := by
    obtain ⟨k, hk, rfl⟩ := List.mem_iff_getElem.mp hb
    rw [List.length_modify] at hk
    have hg := h.out _ (List.getElem_mem hk)
    rw [List.getElem_modify]
    split
    · next hn =>
      exact hf _ (hn ▸ List.getElem?_eq_getElem hk) hg
    · exact hg

instance : Goodness (Prog.Turn α β) where
  good
    | .again a => Goodness.good a
    | .done b => Goodness.good b

instance (a : α) [h : Good a] : Good (.again a : Prog.Turn α β) := ⟨h.out⟩

instance (b : β) [h : Good b] : Good (.done b : Prog.Turn α β) := ⟨h.out⟩

end Values

section Programs

variable {σ τ ω ε φ α β γ : Type} [Judged ω] [Audited ω] [Goodness σ] [Goodness τ] [Goodness α]
  [Goodness β] [Goodness γ]

/-- A run of allowed events that returns leads to good values, and its events are right. -/
def Outcome.Sound (o : Outcome σ ω ε φ α) : Prop :=
  ∀ a, (∀ w ∈ o.events, Audited.allowed w) → o.result = .ok a →
    Good a ∧ Good o.final ∧ ∀ w ∈ o.events, Audited.right w

/-- Every run from a good state is sound. -/
class Keeps (m : Prog σ ω ε φ α) : Prop where
  sound : ∀ s, Good s → (m s).Sound

omit [Goodness α] in
theorem sound_update (f : σ → σ) (s : σ) (h : Good (f s)) :
    (Prog.update f s : Outcome σ ω ε φ Unit).Sound :=
  fun _ _ _ => ⟨inferInstance, h, nofun⟩

/-- After an event that is allowed. -/
theorem sound_report (w : ω) (h : Judged.met w = true) (k : Unit → Prog σ ω ε φ α) (s : σ)
    (hw : Audited.allowed w → Audited.right w) (hk : Audited.allowed w → (k () s).Sound) :
    ((Prog.report w h >>= k) s).Sound := by
  intro a he ha
  obtain ⟨_, _, hr, hf, hev⟩ := Prog.bind_ok_inv (Prog.report w h) k s ha
  rw [hev] at he ⊢
  rw [hf]
  have hal := he w (List.mem_append_left _ List.mem_cons_self)
  obtain ⟨hga, hgs, hright⟩ := hk hal a (fun v hv => he v (List.mem_append_right _ hv)) hr
  refine ⟨hga, hgs, ?_⟩
  intro v hv
  obtain hv | hv := List.mem_append.mp hv
  · obtain rfl := List.mem_singleton.mp hv
    exact hw hal
  · exact hright v hv

/-- After a demand that is met. -/
theorem sound_demand (w : ω) (k : Unit → Prog σ ω ε φ α) (s : σ) (hw : Audited.right w)
    (hk : Judged.met w = true → (k () s).Sound) : ((Prog.demand w >>= k) s).Sound := by
  intro a he ha
  obtain ⟨_, hd, hr, hf, hev⟩ := Prog.bind_ok_inv (Prog.demand w) k s ha
  have hm : Judged.met w = true := by
    cases hm : Judged.met w with
    | true => rfl
    | false =>
      have hd : (if Judged.met w then Except.ok () else Except.error (Stop.broken w)) = _ := hd
      rw [hm] at hd
      cases hd
  rw [hev] at he ⊢
  rw [hf]
  obtain ⟨hga, hgs, hright⟩ := hk hm a (fun v hv => he v (List.mem_append_right _ hv)) hr
  refine ⟨hga, hgs, ?_⟩
  intro v hv
  obtain hv | hv := List.mem_append.mp hv
  · obtain rfl := List.mem_singleton.mp hv
    exact hw
  · exact hright v hv

/-- After a check that raises an error. -/
theorem sound_check (c : Prop) [Decidable c] (e : ε) (k : Unit → Prog σ ω ε φ α) (s : σ)
    (hk : ¬ c → (k () s).Sound) : ((Prog.when c (Prog.raise e) >>= k) s).Sound := by
  by_cases hc : c
  · intro a _ ha
    rw [Prog.when, if_pos hc] at ha
    cases ha
  · rw [Prog.when, if_neg hc]
    exact hk hc

instance (a : α) [ha : Good a] : Keeps (pure a : Prog σ ω ε φ α) where
  sound s hs b _ h := by
    cases h
    exact ⟨ha, hs, nofun⟩

instance (e : ε) : Keeps (Prog.raise e : Prog σ ω ε φ α) where
  sound _ _ _ _ h := by cases h

instance (f : φ) : Keeps (Prog.exhaust f : Prog σ ω ε φ α) where
  sound _ _ _ _ h := by cases h

instance (f : σ → α) [hf : ∀ s : GoodOnes σ, Good (f s.val)] :
    Keeps (Prog.gets f : Prog σ ω ε φ α) where
  sound s hs b _ h := by
    cases h
    exact ⟨hf ⟨s, hs.out⟩, hs, nofun⟩

theorem keeps_update (f : σ → σ) (hf : ∀ s, Good s → Good (f s)) :
    Keeps (Prog.update f : Prog σ ω ε φ Unit) where
  sound s hs := sound_update f s (hf s hs)

instance (f : σ → σ) [hf : ∀ s : GoodOnes σ, Good (f s.val)] :
    Keeps (Prog.update f : Prog σ ω ε φ Unit) :=
  keeps_update f fun s hs => hf ⟨s, hs.out⟩

theorem keeps_report (w : ω) (h : Judged.met w = true)
    (hw : Audited.allowed w → Audited.right w) :
    Keeps (Prog.report w h : Prog σ ω ε φ Unit) where
  sound _ hs _ he _ := ⟨inferInstance, hs, fun v hv => by
    obtain rfl := List.mem_singleton.mp hv
    exact hw (he _ hv)⟩

theorem keeps_demand (w : ω) (hw : Audited.right w) :
    Keeps (Prog.demand w : Prog σ ω ε φ Unit) where
  sound _ hs _ _ _ := ⟨inferInstance, hs, fun v hv => by
    obtain rfl := List.mem_singleton.mp hv
    exact hw⟩

theorem Keeps.bind (m : Prog σ ω ε φ α) (k : α → Prog σ ω ε φ β) [hm : Keeps m]
    (hk : ∀ a, Good a → Keeps (k a)) : Keeps (m >>= k) where
  sound s hs b he h := by
    obtain ⟨a, ha, hb, hf, hev⟩ := Prog.bind_ok_inv m k s h
    rw [hev] at he ⊢
    rw [hf]
    obtain ⟨hga, hgs, hr⟩ := hm.sound s hs a (fun w hw => he w (List.mem_append_left _ hw)) ha
    obtain ⟨hgb, hgs', hr'⟩ :=
      (hk a hga).sound _ hgs b (fun w hw => he w (List.mem_append_right _ hw)) hb
    refine ⟨hgb, hgs', ?_⟩
    intro w hw
    obtain hw | hw := List.mem_append.mp hw
    · exact hr w hw
    · exact hr' w hw

instance (m : Prog σ ω ε φ α) (k : α → Prog σ ω ε φ β) [Keeps m]
    [hk : ∀ a : GoodOnes α, Keeps (k a.val)] : Keeps (m >>= k) :=
  Keeps.bind m k fun a ha => hk ⟨a, ha.out⟩

instance (c : Prop) [Decidable c] (m m' : Prog σ ω ε φ α) [hm : Keeps m] [hm' : Keeps m'] :
    Keeps (if c then m else m') := by
  split
  · exact hm
  · exact hm'

instance (c : Prop) [Decidable c] (m : Prog σ ω ε φ Unit) [Keeps m] : Keeps (Prog.when c m) := by
  unfold Prog.when
  infer_instance

instance (m : Prog σ ω ε Empty α) [hm : Keeps m] : Keeps (Prog.total m : Prog σ ω ε φ α) where
  sound s hs a he h := hm.sound s hs a he (Prog.total_ok m s h)

/-- A program on a component of the state. -/
theorem keeps_zoom (get : σ → τ) (put : σ → τ → σ) (m : Prog τ ω ε φ α) [hm : Keeps m]
    (hg : ∀ s, Good s → Good (get s)) (hp : ∀ s t, Good s → Good t → Good (put s t)) :
    Keeps (Prog.zoom get put m) where
  sound s hs a he h := by
    obtain ⟨ha, ht, hr⟩ := hm.sound (get s) (hg s hs) a he h
    exact ⟨ha, hp s _ hs ht, hr⟩

omit [Goodness τ] in
/-- A program that reports nothing, on a component that nothing is to hold of. -/
theorem keeps_silent [Plain α] (get : σ → τ) (put : σ → τ → σ) (m : Prog τ Empty ε φ α)
    (hp : ∀ s t, Good s → Good (put s t)) :
    Keeps (Prog.zoom get put (Prog.silent m) : Prog σ ω ε φ α) where
  sound s hs _ _ _ := ⟨inferInstance, hp s _ hs, nofun⟩

theorem keeps_iterate (step : β → Prog σ ω ε Unit (Prog.Turn β γ)) (n : Nat) (x : β)
    (hx : Good x) (hst : ∀ x, Good x → Keeps (step x)) : Keeps (Prog.iterate step n x) := by
  induction n generalizing x with
  | zero => exact inferInstanceAs (Keeps (Prog.exhaust () : Prog σ ω ε Unit γ))
  | succ n ih =>
    have := hst x hx
    apply Keeps.bind
    intro t ht
    cases t with
    | again x' => exact ih x' ⟨ht.out⟩
    | done c =>
      have : Good c := ⟨ht.out⟩
      exact inferInstanceAs (Keeps (pure c : Prog σ ω ε Unit γ))

instance [Supply σ] (step : β → Prog σ ω ε Unit (Prog.Turn β γ)) (x : β) [hx : Good x]
    [hst : ∀ x : GoodOnes β, Keeps (step x.val)] : Keeps (Prog.loop step x) where
  sound s hs := (keeps_iterate step _ x hx fun x hx => hst ⟨x, hx.out⟩).sound s hs

end Programs

end Sqnim.Lib
