import Sqnim.Lib.Prog

/-!
# Programs that heed alarms

Some events are alarms. A program heeds them if a run that reports one stops with a given error,
and a program with an optional value tells of them if it returns nothing then. The instances
follow the way a program is composed.
-/
namespace Sqnim.Lib

section Classes

variable {σ ω ε φ α : Type} [Judged ω]

/-- The event is one of an outcome. -/
def Outcome.Sees (p : ω → Prop) (o : Outcome σ ω ε φ α) : Prop := ∃ w ∈ o.events, p w

variable (p : ω → Prop) (e : ε)

class Heeds (m : Prog σ ω ε φ α) : Prop where
  heeds : ∀ s, (m s).Sees p → (m s).result = .error (.raised e)

class Tells (m : Prog σ ω ε φ (Option α)) : Prop where
  tells : ∀ s, (m s).Sees p → (m s).result = .ok none ∨ (m s).result = .error (.raised e)

/-- Whatever the state, the program returns nothing or stops with the error. -/
class Refuses (m : Prog σ ω ε φ (Option α)) : Prop where
  refuses : ∀ s, (m s).result = .ok none ∨ (m s).result = .error (.raised e)

class Throws (m : Prog σ ω ε φ α) : Prop where
  throws : ∀ s, (m s).result = .error (.raised e)

/-- The program returns a value from every state. -/
class Returns (m : Prog σ ω ε φ α) : Prop where
  returns : ∀ s, ∃ a, (m s).result = .ok a

end Classes

namespace Prog

variable {σ ω ε φ α β : Type} [Judged ω] {p : ω → Prop} {e : ε}

theorem not_sees_nil {o : Outcome σ ω ε φ α} (h : o.events = []) : ¬o.Sees p := by
  intro ⟨w, hw, _⟩
  rw [h] at hw
  cases hw

/-- An alarm of a composition is one of its first part or one of its second. -/
theorem sees_bind {m : Prog σ ω ε φ α} {k : α → Prog σ ω ε φ β} {s : σ}
    (h : ((m >>= k) s).Sees p) :
    (m s).Sees p ∨ ∃ a, (m s).result = .ok a ∧ (k a (m s).final).Sees p := by
  obtain ⟨w, hw, hp⟩ := h
  change w ∈ ((m s).andThen k).events at hw
  cases hm : (m s).result with
  | ok a =>
    rw [((m s).andThen_of_ok k hm).2.2] at hw
    obtain hl | hr := List.mem_append.mp hw
    · exact .inl ⟨w, hl, hp⟩
    · exact .inr ⟨a, rfl, w, hr, hp⟩
  | error d =>
    rw [((m s).andThen_of_error k hm).2] at hw
    exact .inl ⟨w, hw, hp⟩

theorem result_of_ok {m : Prog σ ω ε φ α} {k : α → Prog σ ω ε φ β} {s : σ} {a : α}
    (h : (m s).result = .ok a) : ((m >>= k) s).result = (k a (m s).final).result :=
  ((m s).andThen_of_ok k h).1

theorem result_of_error {m : Prog σ ω ε φ α} {k : α → Prog σ ω ε φ β} {s : σ} {d : Stop ω ε φ}
    (h : (m s).result = .error d) : ((m >>= k) s).result = .error d :=
  ((m s).andThen_of_error k h).1

/-! ## Programs that return -/

instance returns_pure (a : α) : Returns (pure a : Prog σ ω ε φ α) := ⟨fun _ => ⟨a, rfl⟩⟩

instance returns_gets (f : σ → α) : Returns (gets f : Prog σ ω ε φ α) := ⟨fun s => ⟨f s, rfl⟩⟩

instance returns_update (f : σ → σ) : Returns (update f : Prog σ ω ε φ Unit) :=
  ⟨fun _ => ⟨(), rfl⟩⟩

instance returns_report (w : ω) (h : Judged.met w = true) :
    Returns (report w h : Prog σ ω ε φ Unit) := ⟨fun _ => ⟨(), rfl⟩⟩

instance returns_bind (m : Prog σ ω ε φ α) (k : α → Prog σ ω ε φ β) [hm : Returns m]
    [hk : ∀ a, Returns (k a)] : Returns (m >>= k) where
  returns s := by
    obtain ⟨a, ha⟩ := hm.returns s
    obtain ⟨b, hb⟩ := (hk a).returns (m s).final
    exact ⟨b, (result_of_ok ha).trans hb⟩

instance returns_when (c : Prop) [Decidable c] (m : Prog σ ω ε φ Unit) [Returns m] :
    Returns (when c m) := by
  unfold when
  split <;> infer_instance

/-! ## Programs that stop or return nothing -/

instance throws_raise : Throws e (raise e : Prog σ ω ε φ α) := ⟨fun _ => rfl⟩

instance throws_bind (m : Prog σ ω ε φ α) (k : α → Prog σ ω ε φ β) [hm : Returns m]
    [hk : ∀ a, Throws e (k a)] : Throws e (m >>= k) where
  throws s := by
    obtain ⟨a, ha⟩ := hm.returns s
    exact (result_of_ok ha).trans ((hk a).throws _)

instance throws_first (m : Prog σ ω ε φ α) (k : α → Prog σ ω ε φ β) [hm : Throws e m] :
    Throws e (m >>= k) := ⟨fun s => result_of_error (hm.throws s)⟩

instance refuses_none : Refuses e (pure none : Prog σ ω ε φ (Option α)) := ⟨fun _ => .inl rfl⟩

instance refuses_map_none (f : α → β) :
    Refuses e (pure (Option.map f none) : Prog σ ω ε φ (Option β)) := ⟨fun _ => .inl rfl⟩

instance refuses_bind (m : Prog σ ω ε φ α) (k : α → Prog σ ω ε φ (Option β)) [hm : Returns m]
    [hk : ∀ a, Refuses e (k a)] : Refuses e (m >>= k) where
  refuses s := by
    obtain ⟨a, ha⟩ := hm.returns s
    rw [result_of_ok ha]
    exact (hk a).refuses _

/-! ## Programs that heed alarms -/

instance heeds_pure (a : α) : Heeds p e (pure a : Prog σ ω ε φ α) :=
  ⟨fun _ hs => absurd hs (not_sees_nil rfl)⟩

instance heeds_gets (f : σ → α) : Heeds p e (gets f : Prog σ ω ε φ α) :=
  ⟨fun _ hs => absurd hs (not_sees_nil rfl)⟩

instance heeds_update (f : σ → σ) : Heeds p e (update f : Prog σ ω ε φ Unit) :=
  ⟨fun _ hs => absurd hs (not_sees_nil rfl)⟩

instance heeds_raise (d : ε) : Heeds p e (raise d : Prog σ ω ε φ α) :=
  ⟨fun _ hs => absurd hs (not_sees_nil rfl)⟩

instance heeds_bind (m : Prog σ ω ε φ α) (k : α → Prog σ ω ε φ β) [hm : Heeds p e m]
    [hk : ∀ a, Heeds p e (k a)] : Heeds p e (m >>= k) where
  heeds s hs := by
    obtain h | ⟨a, ha, h⟩ := sees_bind hs
    · exact result_of_error (hm.heeds s h)
    · exact (result_of_ok ha).trans ((hk a).heeds _ h)

/-- What follows a value that tells of alarms looks at it. -/
instance (priority := high) heeds_guard (m : Prog σ ω ε φ (Option α))
    (k : Option α → Prog σ ω ε φ β) [hm : Tells p e m] [hn : Throws e (k none)]
    [hk : ∀ a, Heeds p e (k (some a))] : Heeds p e (m >>= k) where
  heeds s hs := by
    obtain h | ⟨r, hr, h⟩ := sees_bind hs
    · obtain h | h := hm.tells s h
      · exact (result_of_ok h).trans (hn.throws _)
      · exact result_of_error h
    · rw [result_of_ok hr]
      cases r with
      | none => exact hn.throws _
      | some a => exact (hk a).heeds _ h

/-- From a state where nothing is told, what follows need not look. -/
theorem heeded_of_told {m : Prog σ ω ε φ (Option α)} {k : Option α → Prog σ ω ε φ β} {s : σ}
    [hm : Tells p e m] [hk : ∀ a, Heeds p e (k (some a))] (h : (m s).result ≠ .ok none)
    (hs : ((m >>= k) s).Sees p) : ((m >>= k) s).result = .error (.raised e) := by
  obtain hs | ⟨r, hr, hs⟩ := sees_bind hs
  · obtain ht | ht := hm.tells s hs
    · exact absurd ht h
    · exact result_of_error ht
  · rw [result_of_ok hr]
    cases r with
    | none => exact absurd hr h
    | some a => exact (hk a).heeds _ hs

/-- An alarm of the first part is one of the composition. -/
theorem sees_of_left {m : Prog σ ω ε φ α} {k : α → Prog σ ω ε φ β} {s : σ}
    (h : (m s).Sees p) : ((m >>= k) s).Sees p := by
  obtain ⟨w, hw, hp⟩ := h
  refine ⟨w, ?_, hp⟩
  show w ∈ ((m s).andThen k).events
  cases hm : (m s).result with
  | ok a =>
    rw [((m s).andThen_of_ok k hm).2.2]
    exact List.mem_append_left _ hw
  | error d =>
    rw [((m s).andThen_of_error k hm).2]
    exact hw

/-- An alarm of what follows is one of the composition. -/
theorem sees_of_right {m : Prog σ ω ε φ α} {k : α → Prog σ ω ε φ β} {s : σ} {a : α}
    (hm : (m s).result = .ok a) (h : (k a (m s).final).Sees p) : ((m >>= k) s).Sees p := by
  obtain ⟨w, hw, hp⟩ := h
  refine ⟨w, ?_, hp⟩
  show w ∈ ((m s).andThen k).events
  rw [((m s).andThen_of_ok k hm).2.2]
  exact List.mem_append_right _ hw

instance heeds_map (f : α → β) (m : Prog σ ω ε φ α) [Heeds p e m] : Heeds p e (f <$> m) :=
  heeds_bind m fun a => pure (f a)

instance heeds_ite (c : Prop) [Decidable c] (m m' : Prog σ ω ε φ α) [Heeds p e m]
    [Heeds p e m'] : Heeds p e (if c then m else m') := by
  split <;> infer_instance

instance heeds_when (c : Prop) [Decidable c] (m : Prog σ ω ε φ Unit) [Heeds p e m] :
    Heeds p e (when c m) := by
  unfold when
  split <;> infer_instance

/-! ## Programs that tell of alarms -/

instance (priority := low) tells_heeds (m : Prog σ ω ε φ (Option α)) [h : Heeds p e m] :
    Tells p e m := ⟨fun s hs => .inr (h.heeds s hs)⟩

instance tells_ite (c : Prop) [Decidable c] (m m' : Prog σ ω ε φ (Option α)) [Tells p e m]
    [Tells p e m'] : Tells p e (if c then m else m') := by
  split <;> infer_instance

instance tells_bind (m : Prog σ ω ε φ α) (k : α → Prog σ ω ε φ (Option β)) [hm : Heeds p e m]
    [hk : ∀ a, Tells p e (k a)] : Tells p e (m >>= k) where
  tells s hs := by
    obtain h | ⟨a, ha, h⟩ := sees_bind hs
    · exact .inr (result_of_error (hm.heeds s h))
    · rw [result_of_ok ha]
      exact (hk a).tells _ h

instance (priority := high) tells_guard (m : Prog σ ω ε φ (Option α))
    (k : Option α → Prog σ ω ε φ (Option β)) [hm : Tells p e m] [hn : Refuses e (k none)]
    [hk : ∀ a, Tells p e (k (some a))] : Tells p e (m >>= k) where
  tells s hs := by
    obtain h | ⟨r, hr, h⟩ := sees_bind hs
    · obtain h | h := hm.tells s h
      · rw [result_of_ok h]
        exact hn.refuses _
      · exact .inr (result_of_error h)
    · rw [result_of_ok hr]
      cases r with
      | none => exact hn.refuses _
      | some a => exact (hk a).tells _ h

end Prog
end Sqnim.Lib
