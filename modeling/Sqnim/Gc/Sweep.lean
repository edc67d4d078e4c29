import Sqnim.Gc.Drop
import Sqnim.Gc.Resurrect

/-!
# Sweeping

The loop of `CollectGarbage` finalizes the objects that are left on the chain. An object that it has
passed holds only references that outlive `Finalize`; they make no cycle, so that at the end none of
these objects is alive.
-/
namespace Sqnim.Gc

open Sqnim.Object Sqnim.Lib Sqnim.Lib.DoublyLinked
open SQObjectType

section Finalize

theorem close_notMem_finalized (c : SQCollectable) (p : Addr) (v : SQObject) :
    Action.close p v ∉ c.finalized.finalizes ∧ Action.close p v ∉ c.finalized.before ∧
      Action.close p v ∉ c.finalized.after := by
  cases c <;>
    simp [SQCollectable.finalized, SQCollectable.finalizes, SQCollectable.before,
      SQCollectable.after, dropAll, dropPointer, closeOuters]

variable {g : Garbage} {b : Addr} {c : SQCollectable}

theorem holds_finalized_subset (c : SQCollectable) : ∀ a ∈ c.finalized.holds, a ∈ c.holds :=
  fun _ ha => (holds_perm c).mem_iff.mp (List.mem_append_right _ ha)

theorem given_finalizes_subset (c : SQCollectable) : ∀ a ∈ given c.finalizes, a ∈ c.holds :=
  fun _ ha => (holds_perm c).mem_iff.mp (List.mem_append_left _ ha)

theorem Garbage.Proper.finalized (h : g.Proper b c) : g.Proper b c.finalized where
  inside a ha := h.inside a (holds_finalized_subset c a ha)
  finalizes p v hmem := ((close_notMem_finalized c p v).1 hmem).elim
  before p v hmem := ((close_notMem_finalized c p v).2.1 hmem).elim
  after p v hmem := ((close_notMem_finalized c p v).2.2 hmem).elim
  layered a ha := h.layered a (holds_finalized_subset c.finalized a ha)

end Finalize

variable {g : Garbage}

/-- What holds of an object that the loop has passed: it holds only what outlives `Finalize`, and
something holds it. -/
structure Garbage.Passed (g : Garbage) (s : Sweep) (b : Addr) : Prop where
  layered : g.Layered b (s.ss.objects b)
  held : s.refs b ≠ 0

section Turn

variable {s s' : Sweep} {c c' : List Addr} {t : Addr}

theorem Garbage.Passed.step {b : Addr} (h : g.Passed s b) (hstep : g.Step [] s s' c c')
    (hb : b ∈ c') : g.Passed s' b where
  layered := by
    rcases hstep.objects b hb with heq | hlay
    · rw [heq]
      exact h.layered
    · exact hlay
  held hzero := h.held (hstep.refs b hb hzero)

theorem mem_alive_nil {b : Addr} : b ∈ alive c [] ↔ b ∈ c := by
  rw [mem_alive]
  exact and_iff_left List.not_mem_nil

/-- `Finalize` starts by emptying the object. -/
theorem Garbage.Counted.finalize (h : g.Counted s c [] [t]) (ht : t ∈ c) :
    g.Counted (s.setObject t (s.ss.objects t).finalized) c []
        (given (s.ss.objects t).finalizes ++ [t]) ∧
      g.Step [] s (s.setObject t (s.ss.objects t).finalized) c c := by
  have halive := mem_alive_nil.mpr ht
  have hproper := (h.proper t halive).finalized
  refine ⟨h.setObject halive hproper (getType_finalized _) fun a => ?_, ?_⟩
  · rw [← (holds_perm (s.ss.objects t)).count_eq, List.count_append, List.count_append]
    omega
  · refine
      { Garbage.Step.refl g [] s c with
        objects := fun b _ => ?_
        waiting := fun b hb => (List.not_mem_nil hb).elim }
    by_cases hbt : b = t
    · subst hbt
      right
      show g.Layered b (Function.update s.ss.objects b _ b)
      rw [Function.update_self]
      exact (h.proper b halive).layered
    · exact .inl (Function.update_of_ne hbt ..)

/-- A node that stays splits what stays of a list. -/
theorem sublist_split {l l₁ l₂ : List Addr} {b : Addr} (h : l.Sublist (l₁ ++ b :: l₂))
    (hnodup : (l₁ ++ b :: l₂).Nodup) (hb : b ∈ l) :
    ∃ l₁' l₂', l = l₁' ++ b :: l₂' ∧ l₁'.Sublist l₁ ∧ l₂'.Sublist l₂ := by
  obtain ⟨-, hnodup₂, hdisj⟩ := List.nodup_append'.mp hnodup
  obtain ⟨l₁', l', rfl, hsub₁, hsub₂⟩ := List.sublist_append_iff.mp h
  rcases List.mem_append.mp hb with hb | hb
  · exact (hdisj (hsub₁.subset hb) (List.mem_cons_self ..)).elim
  · cases hsub₂ with
    | cons _ hsub₂ => exact ((List.nodup_cons.mp hnodup₂).1 (hsub₂.subset hb)).elim
    | cons_cons _ hsub₂ => exact ⟨l₁', _, rfl, hsub₁, hsub₂⟩

/-- The next object of the chain is held by one reference more. -/
theorem Garbage.Counted.addNext {owed : List Addr} (h : g.Counted s c [] owed) {nx : Option Addr}
    (hnx : ∀ b, nx = some b → b ∈ c) :
    g.Counted (s.addRefs nx.toList) c [] (nx.toList ++ owed) ∧
      g.Step [] s (s.addRefs nx.toList) c c := by
  cases nx with
  | none => exact ⟨h, .refl g [] s c⟩
  | some b =>
    refine ⟨h.addRef (.inl (mem_alive_nil.mpr (hnx b rfl))), ?_⟩
    refine { Garbage.Step.refl g [] s c with refs := fun d _ hzero => ?_ }
    by_cases hdb : d = b
    · subst hdb
      rw [Option.toList_some, Sweep.addRefs, List.foldl_cons, List.foldl_nil,
        Sweep.addRef_self] at hzero
      omega
    · rwa [Option.toList_some, Sweep.addRefs, List.foldl_cons, List.foldl_nil,
        Sweep.addRef_of_ne hdb] at hzero

/-- A turn passes the object `t`: the chain starts with passed objects, and goes on with the next
one, which is still there. -/
theorem turn_passes {depth : Nat} {before rest : List Addr}
    (h : g.Counted s (before ++ t :: rest) [] [t]) (hpassed : ∀ b ∈ before, g.Passed s b)
    (hdepth : (before ++ t :: rest).length < depth) :
    ∃ s' before' rest', Sweep.turn depth t s = some (rest'.head?, s') ∧
      g.Counted s' (before' ++ rest') [] rest'.head?.toList ∧ rest'.Sublist rest ∧
      (∀ b ∈ before', g.Passed s' b) ∧
      g.Step [] s s' (before ++ t :: rest) (before' ++ rest') := by
  have hfits : ∀ c' : List Addr, c'.Sublist (before ++ t :: rest) → (alive c' []).length < depth :=
    fun c' hsub => ((List.length_filter_le ..).trans hsub.length_le).trans_lt hdepth
  have ht : t ∈ before ++ t :: rest := List.mem_append_right _ (List.mem_cons_self ..)
  obtain ⟨hempty, hstep₀⟩ := h.finalize ht
  have hproper := h.proper t (mem_alive_nil.mpr ht)
  obtain ⟨s₁, c₁, hrun₁, h₁, hstep₁⟩ := (g.settles depth []).actAll hempty (guarded_finalizes _)
    hproper.finalizes (fun a ha => hproper.inside a (given_finalizes_subset _ a ha))
    (hfits _ (.refl _))
  have ht₁ : t ∈ c₁ := mem_alive_nil.mp
    (h₁.alive_of_owed (h.lost t ht) (List.mem_singleton_self t))
  obtain ⟨before₁, rest₁, rfl, hbefore₁, hrest₁⟩ := sublist_split hstep₁.sub h.nodup ht₁
  have hnext : s₁.ss.links.next t = rest₁.head? := h₁.chain.links_eq.2
  have hhead : ∀ b, rest₁.head? = some b → b ∈ before₁ ++ t :: rest₁ := fun b hb =>
    List.mem_append_right _ (List.mem_cons_of_mem t (List.mem_of_head? hb))
  obtain ⟨h₂, hstep₂⟩ := h₁.addNext hhead
  have howed := h₂.perm (List.perm_append_singleton t rest₁.head?.toList)
  obtain ⟨s₃, c₃, hrun₃, h₃, hstep₃⟩ := g.settles depth [] _ _ _ t howed
    (.inl (h.lost t ht)) (hfits _ hstep₁.sub)
  have hstep := ((hstep₀.trans hstep₁).trans hstep₂).trans hstep₃
  have hrun : Sweep.turn depth t s = some (rest₁.head?, s₃) := by
    unfold Sweep.turn
    rw [hrun₁, Option.bind_eq_bind, Option.bind_some]
    simp only [hnext, hrun₃]
    rfl
  -- a passed object that is still there was passed before, or is `t`
  have hpassed₃ : ∀ b ∈ c₃, b ∈ before₁ ++ [t] → g.Passed s₃ b := by
    intro b hb hmem
    rcases List.mem_append.mp hmem with hmem | hmem
    · exact (hpassed b (hbefore₁.subset hmem)).step hstep hb
    · obtain rfl := List.mem_singleton.mp hmem
      refine ⟨?_, fun hzero => ?_⟩
      · have hlay : g.Layered b ((s.setObject b (s.ss.objects b).finalized).ss.objects b) := by
          show g.Layered b (Function.update s.ss.objects b _ b)
          rw [Function.update_self]
          exact hproper.layered
        rcases ((hstep₁.trans hstep₂).trans hstep₃).objects b hb with heq | hlay'
        · rw [heq]
          exact hlay
        · exact hlay'
      · exact (howed.refs_pos (.inl (h.lost b ht))).ne' (hstep₃.refs b hb hzero)
  have hnodup₁ : (before₁ ++ [t] ++ rest₁).Nodup := by
    rw [List.append_assoc]
    exact h₁.nodup
  have hsub₃ : c₃.Sublist (before₁ ++ [t] ++ rest₁) := by
    rw [List.append_assoc]
    exact hstep₃.sub
  cases rest₁ with
  | nil =>
    refine ⟨s₃, c₃, [], hrun, ?_, List.nil_sublist rest, fun b hb => hpassed₃ b hb ?_, ?_⟩
    · rw [List.append_nil]
      exact h₃
    · rw [List.append_nil] at hsub₃
      exact hsub₃.subset hb
    · rw [List.append_nil]
      exact hstep
  | cons b rest₁ =>
    have hb : b ∈ c₃ := mem_alive_nil.mp (h₃.alive_of_owed
      (h₁.lost b (hhead b rfl)) (List.mem_singleton_self b))
    obtain ⟨before₃, rest₃, rfl, hbefore₃, hrest₃⟩ := sublist_split hsub₃ hnodup₁ hb
    refine ⟨s₃, before₃, b :: rest₃, hrun, h₃, (hrest₃.cons_cons b).trans hrest₁,
      fun d hd => ?_, hstep⟩
    exact hpassed₃ d (List.mem_append_left _ hd) (hbefore₃.subset hd)

end Turn

/-- The loop passes every object that it does not free. -/
theorem loop_passes {depth fuel n : Nat} {s : Sweep} {before rest : List Addr}
    (h : g.Counted s (before ++ rest) [] rest.head?.toList) (hpassed : ∀ b ∈ before, g.Passed s b)
    (hdepth : (before ++ rest).length < depth) (hfuel : rest.length ≤ fuel) :
    ∃ n' s' c', Sweep.loop depth fuel rest.head? n s = some (n', s') ∧
      g.Counted s' c' [] [] ∧ (∀ b ∈ c', g.Passed s' b) ∧ g.Step [] s s' (before ++ rest) c' ∧
      n' ≤ n + rest.length := by
  induction fuel generalizing s before rest n with
  | zero =>
    obtain rfl : rest = [] := List.length_eq_zero_iff.mp (by omega)
    rw [List.append_nil] at h ⊢
    exact ⟨n, s, before, rfl, h, hpassed, .refl g [] s before, by simp⟩
  | succ fuel ih =>
    cases rest with
    | nil =>
      rw [List.append_nil] at h ⊢
      exact ⟨n, s, before, rfl, h, hpassed, .refl g [] s before, by simp⟩
    | cons t rest =>
      obtain ⟨s₁, before₁, rest₁, hrun₁, h₁, hsub, hpassed₁, hstep₁⟩ :=
        turn_passes h hpassed hdepth
      rw [List.length_cons] at hfuel
      have hlen := hsub.length_le
      obtain ⟨n', s', c', hrun, h', hpassed', hstep, hn⟩ := @ih (n + 1) s₁ before₁ rest₁ h₁ hpassed₁
        (hstep₁.sub.length_le.trans_lt hdepth) (by omega)
      refine ⟨n', s', c', ?_, h', hpassed', hstep₁.trans hstep, by rw [List.length_cons]; omega⟩
      rw [List.head?_cons, Sweep.loop, hrun₁]
      exact hrun

/-- Nothing that the loop has passed is alive once no reference is owed. -/
theorem Garbage.Counted.eq_nil {s : Sweep} {c : List Addr} (h : g.Counted s c [] [])
    (hpassed : ∀ b ∈ c, g.Passed s b) : c = [] := by
  by_contra hne
  obtain ⟨b, hb, hmax⟩ := Finset.exists_max_image c.toFinset g.rank
    ((List.toFinset_nonempty_iff c).mpr hne)
  rw [List.mem_toFinset] at hb
  have hcount := h.counts b (mem_alive_nil.mpr hb)
  have hheld := (hpassed b hb).held
  rw [List.count_nil, Nat.zero_add] at hcount
  obtain ⟨d, hd, hholds⟩ := exists_holder (Nat.pos_of_ne_zero (hcount ▸ hheld))
  have hless := (hpassed d (mem_alive_nil.mp hd)).layered b hholds
  have hle := hmax d (List.mem_toFinset.mpr (mem_alive_nil.mp hd))
  omega

end Sqnim.Gc
