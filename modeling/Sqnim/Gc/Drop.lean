import Sqnim.Gc.Release

/-!
# Giving up a reference

With enough depth `drop` ends and the account holds with one reference less. What it frees leaves
the chain; the other unreachable objects keep their contents, or are variables that a thread has closed.
-/
namespace Sqnim.Gc

open Sqnim.Object Sqnim.Lib.DoublyLinked
open SQObjectType

/-- What giving up references does to the chain `c`; the objects `busy` are being released. -/
structure Garbage.Step (g : Garbage) (busy : List Addr) (s s' : Sweep) (c c' : List Addr) :
    Prop where
  sub : c'.Sublist c
  freed : ∃ new, s'.freed = new ++ s.freed ∧ (new ++ c').Perm c
  objects : ∀ b ∈ c', s'.ss.objects b = s.ss.objects b ∨ g.Layered b (s'.ss.objects b)
  waiting : ∀ b ∈ busy, s'.ss.objects b = s.ss.objects b
  refs : ∀ b ∈ c', s'.refs b = 0 → s.refs b = 0
  roots : s'.ss.roots = s.ss.roots

namespace Garbage.Step

variable {g : Garbage} {busy c c' c'' : List Addr} {s s' s'' : Sweep}

theorem refl (g : Garbage) (busy : List Addr) (s : Sweep) (c : List Addr) :
    g.Step busy s s c c where
  sub := .refl c
  freed := ⟨[], rfl, .refl c⟩
  objects _ _ := .inl rfl
  waiting _ _ := rfl
  refs _ _ h := h
  roots := rfl

theorem trans (h : g.Step busy s s' c c') (h' : g.Step busy s' s'' c' c'') :
    g.Step busy s s'' c c'' where
  sub := h'.sub.trans h.sub
  freed := by
    obtain ⟨new, hfreed, hperm⟩ := h.freed
    obtain ⟨new', hfreed', hperm'⟩ := h'.freed
    refine ⟨new' ++ new, by rw [hfreed', hfreed, List.append_assoc], ?_⟩
    calc (new' ++ new ++ c'').Perm (new ++ (new' ++ c'')) := by
          rw [← List.append_assoc]
          exact List.perm_append_comm.append_right c''
      _ |>.Perm (new ++ c') := hperm'.append_left new
      _ |>.Perm c := hperm
  objects b hb := by
    rcases h'.objects b hb with heq | hlay
    · rw [heq]
      exact h.objects b (h'.sub.subset hb)
    · exact .inr hlay
  waiting b hb := (h'.waiting b hb).trans (h.waiting b hb)
  refs b hb hzero := h.refs b (h'.sub.subset hb) (h'.refs b hb hzero)
  roots := h'.roots.trans h.roots

theorem alive_length_le (h : g.Step busy s s' c c') :
    (alive c' busy).length ≤ (alive c busy).length := (h.sub.filter _).length_le

end Garbage.Step

variable {g : Garbage} {busy : List Addr} {depth : Nat}

/-- Giving up one reference is settled, whatever else is owed. -/
def Garbage.Settles (g : Garbage) (busy : List Addr) (depth : Nat) : Prop :=
  ∀ (s : Sweep) (c owed : List Addr) (a : Addr), g.Counted s c busy (a :: owed) →
    a ∈ g.lost ∨ a ∈ g.kept → (alive c busy).length < depth →
    ∃ s' c', Sweep.drop depth a s = some s' ∧ g.Counted s' c' busy owed ∧ g.Step busy s s' c c'

/-- So is giving up several. -/
theorem Garbage.Settles.drops (hdrop : g.Settles busy depth) {s : Sweep} {c owed as : List Addr}
    (h : g.Counted s c busy (as ++ owed)) (hin : ∀ a ∈ as, a ∈ g.lost ∨ a ∈ g.kept)
    (hdepth : (alive c busy).length < depth) :
    ∃ s' c', as.foldlM (fun s a => Sweep.drop depth a s) s = some s' ∧
      g.Counted s' c' busy owed ∧ g.Step busy s s' c c' := by
  induction as generalizing s c with
  | nil => exact ⟨s, c, rfl, h, .refl g busy s c⟩
  | cons a as ih =>
    obtain ⟨s₁, c₁, hrun₁, h₁, hstep₁⟩ :=
      hdrop s c (as ++ owed) a h (hin a (List.mem_cons_self ..)) hdepth
    obtain ⟨s₂, c₂, hrun₂, h₂, hstep₂⟩ := ih h₁ (fun b hb => hin b (List.mem_cons_of_mem a hb))
      (hstep₁.alive_length_le.trans_lt hdepth)
    refine ⟨s₂, c₂, ?_, h₂, hstep₁.trans hstep₂⟩
    rw [List.foldlM_cons, hrun₁]
    exact hrun₂

section Close

theorem holds_outer (value : Option SQObject) :
    (SQCollectable.outer value).holds = markObjects value.toList := by
  simp [SQCollectable.holds, SQCollectable.before, SQCollectable.after]

theorem Garbage.sane_dropAll (g : Garbage) (os : List SQObject) : g.Sane (dropAll os) :=
  fun p v hmem => (close_notMem_map p v hmem).elim

theorem Garbage.proper_outer {p : Addr} {v : SQObject}
    (hin : ∀ a, markObject v = some a → a ∈ g.lost ∨ a ∈ g.kept) :
    g.Proper p (.outer (some v)) where
  inside a ha := by
    rw [holds_outer] at ha
    obtain ⟨o, ho, hoa⟩ := List.mem_filterMap.mp ha
    exact hin a (List.mem_singleton.mp ho ▸ hoa)
  finalizes := g.sane_dropAll _
  before p v hmem := (List.not_mem_nil hmem).elim
  after := g.sane_dropAll _
  layered a ha := by
    have hnil : (SQCollectable.outer (some v)).finalized.holds = [] := rfl
    rw [hnil] at ha
    cases ha

/-- A variable is closed: its new value counts once more, its old one is given up. -/
theorem Garbage.Counted.close {s : Sweep} {c owed : List Addr} {p : Addr} {v : SQObject}
    {old : Option SQObject} (h : g.Counted s c busy owed) (hp : p ∈ alive c busy)
    (hold : s.ss.objects p = .outer old)
    (hv : ∀ a, markObject v = some a → a ∈ owed ∧ (a ∈ g.lost ∨ a ∈ g.kept)) :
    g.Counted ((s.setObject p (.outer (some v))).addRefs (markObjects [v])) c busy
      (markObjects old.toList ++ owed) := by
  have hproper := g.proper_outer (p := p) fun a ha => (hv a ha).2
  have hholds : (s.ss.objects p).holds = markObjects old.toList := by rw [hold, holds_outer]
  cases hmark : markObject v with
  | none =>
    have hnil : markObjects [v] = [] := by simp [markObjects, hmark]
    rw [hnil]
    refine h.setObject hp hproper (by rw [hold]; rfl) fun a => ?_
    rw [holds_outer, hholds, Option.toList_some, hnil, List.count_append, List.count_nil]
    omega
  | some w =>
    have hone : markObjects [v] = [w] := by simp [markObjects, hmark]
    obtain ⟨howed, hin⟩ := hv w hmark
    have hset : g.Counted (s.setObject p (.outer (some v))) c busy
        (markObjects old.toList ++ owed.erase w) := by
      refine h.setObject hp hproper (by rw [hold]; rfl) fun a => ?_
      have hcount := (List.perm_cons_erase howed).count_eq a
      rw [List.count_cons] at hcount
      rw [holds_outer, hholds, Option.toList_some, hone, List.count_append, List.count_singleton,
        hcount]
      omega
    rw [hone]
    refine (hset.addRef ?_).perm ?_
    · exact hin.imp (fun hl => h.alive_of_owed hl howed) id
    · exact List.perm_middle.symm.trans ((List.perm_cons_erase howed).symm.append_left _)

/-- Closing a variable takes no object off the chain. -/
theorem Garbage.step_close {s : Sweep} {c : List Addr} {p : Addr} {v : SQObject}
    (hp : p ∉ busy) (hrank : ∀ a, markObject v = some a → g.rank a < g.rank p) :
    g.Step busy s ((s.setObject p (.outer (some v))).addRefs (markObjects [v])) c c := by
  have hss : ((s.setObject p (.outer (some v))).addRefs (markObjects [v])).ss =
      (s.setObject p (.outer (some v))).ss := by
    cases hmark : markObject v <;> simp [markObjects, hmark, Sweep.addRefs, Sweep.addRef]
  have hfreed : ((s.setObject p (.outer (some v))).addRefs (markObjects [v])).freed = s.freed := by
    cases hmark : markObject v <;> simp [markObjects, hmark, Sweep.addRefs, Sweep.addRef,
      Sweep.setObject]
  refine
    { sub := .refl c
      freed := ⟨[], hfreed, .refl c⟩
      objects := fun b _ => ?_
      waiting := fun b hb => ?_
      refs := fun b _ hzero => ?_
      roots := by rw [hss]; rfl }
  · rw [hss]
    by_cases hbp : b = p
    · subst hbp
      right
      show g.Layered b (Function.update s.ss.objects b _ b)
      rw [Function.update_self]
      intro a ha
      rw [holds_outer] at ha
      obtain ⟨o, ho, hoa⟩ := List.mem_filterMap.mp ha
      exact hrank a (List.mem_singleton.mp ho ▸ hoa)
    · exact .inl (Function.update_of_ne hbp ..)
  · rw [hss]
    exact Function.update_of_ne (fun heq : b = p => hp (heq ▸ hb)) ..
  · cases hmark : markObject v with
    | none => simpa [markObjects, hmark, Sweep.addRefs, Sweep.setObject] using hzero
    | some w =>
      have hone : markObjects [v] = [w] := by simp [markObjects, hmark]
      rw [hone] at hzero
      by_cases hbw : b = w
      · subst hbw
        rw [Sweep.addRefs, List.foldl_cons, List.foldl_nil, Sweep.addRef_self] at hzero
        omega
      · rw [Sweep.addRefs, List.foldl_cons, List.foldl_nil, Sweep.addRef_of_ne hbw] at hzero
        exact hzero

end Close

/-- So is a list of actions. -/
theorem Garbage.Settles.actAll (hdrop : g.Settles busy depth) {s : Sweep} {c owed : List Addr}
    {xs : List Action} (h : g.Counted s c busy (given xs ++ owed)) (hguarded : Guarded xs)
    (hsane : g.Sane xs) (hin : ∀ a ∈ given xs, a ∈ g.lost ∨ a ∈ g.kept)
    (hdepth : (alive c busy).length < depth) :
    ∃ s' c', Sweep.actAll (Sweep.drop depth) xs s = some s' ∧ g.Counted s' c' busy owed ∧
      g.Step busy s s' c c' := by
  induction xs generalizing s c with
  | nil => exact ⟨s, c, rfl, h, .refl g busy s c⟩
  | cons x xs ih =>
    have hsane' : g.Sane xs := fun p v hmem => hsane p v (List.mem_cons_of_mem x hmem)
    cases x with
    | drop a =>
      obtain ⟨s₁, c₁, hrun₁, h₁, hstep₁⟩ :=
        hdrop s c (given xs ++ owed) a h (hin a (List.mem_cons_self ..)) hdepth
      obtain ⟨s₂, c₂, hrun₂, h₂, hstep₂⟩ := ih h₁ hguarded hsane'
        (fun b hb => hin b (List.mem_cons_of_mem a hb)) (hstep₁.alive_length_le.trans_lt hdepth)
      refine ⟨s₂, c₂, ?_, h₂, hstep₁.trans hstep₂⟩
      rw [Sweep.actAll, List.foldlM_cons, Sweep.act, hrun₁]
      exact hrun₂
    | close p v =>
      obtain ⟨hp, hv, hguarded'⟩ := hguarded
      obtain ⟨hlost, houter, hrank⟩ := hsane p v (List.mem_cons_self ..)
      have halive : p ∈ alive c busy := h.alive_of_owed hlost (List.mem_append_left owed hp)
      obtain ⟨old, hold⟩ : ∃ old, s.ss.objects p = .outer old := by
        have htype := (h.outers p hlost).mpr houter
        cases hobj : s.ss.objects p with
        | outer old => exact ⟨old, rfl⟩
        | _ => rw [hobj] at htype; cases htype
      have hold_in : ∀ a ∈ markObjects old.toList, a ∈ g.lost ∨ a ∈ g.kept := fun a ha => by
        refine (h.proper p halive).inside a ?_
        rw [hold, holds_outer]
        exact ha
      have hclosed := h.close halive hold fun a ha =>
        ⟨List.mem_append_left owed (hv a ha), hin a (hv a ha)⟩
      have hstep₁ := g.step_close (s := s) (c := c) (mem_alive.mp halive).2 hrank
      obtain ⟨s₂, c₂, hrun₂, h₂, hstep₂⟩ := hdrop.drops hclosed hold_in hdepth
      obtain ⟨s₃, c₃, hrun₃, h₃, hstep₃⟩ := ih h₂ hguarded' hsane' hin
        (hstep₂.alive_length_le.trans_lt hdepth)
      refine ⟨s₃, c₃, ?_, h₃, (hstep₁.trans hstep₂).trans hstep₃⟩
      rw [Sweep.actAll, List.foldlM_cons, Sweep.act, hold]
      simp only
      rw [hrun₂]
      exact hrun₃

section Release

variable {s : Sweep} {c owed : List Addr} {a : Addr}

/-- An object whose last reference has gone gives up all it holds, and is freed. -/
theorem Garbage.Counted.release (h : g.Counted s c busy owed) (ha : a ∈ alive c busy)
    (hzero : s.refs a = 0) (hbusy : g.Settles (a :: busy) depth) (hrest : g.Settles busy depth)
    (hdepth : (alive c busy).length ≤ depth) :
    ∃ s₁ s₂ c₂, Sweep.actAll (Sweep.drop depth) (s.ss.objects a).before s = some s₁ ∧
      Sweep.actAll (Sweep.drop depth) (s₁.ss.objects a).after (s₁.removeFromChain a) = some s₂ ∧
      g.Counted (s₂.free a) c₂ busy owed ∧ g.Step busy s (s₂.free a) c c₂ ∧ a ∉ c₂ := by
  have hmem := mem_alive.mp ha
  have hproper := h.proper a ha
  have hsplit : (s.ss.objects a).holds =
      given (s.ss.objects a).before ++ given (s.ss.objects a).after := given_append ..
  have hdetached := h.detach ha hzero
  rw [hsplit, List.append_assoc] at hdetached
  have hin : ∀ b ∈ given (s.ss.objects a).before ++ given (s.ss.objects a).after,
      b ∈ g.lost ∨ b ∈ g.kept := fun b hb => hproper.inside b (hsplit ▸ hb)
  have hless : (alive c (a :: busy)).length < depth := by
    have hpos := List.length_pos_of_mem ha
    rw [alive_cons busy h.nodup, List.length_erase_of_mem ha]
    omega
  obtain ⟨s₁, c₁, hrun₁, h₁, hstep₁⟩ := hbusy.actAll hdetached (guarded_release _).1 hproper.before
    (fun b hb => hin b (List.mem_append_left _ hb)) hless
  have hsame : s₁.ss.objects a = s.ss.objects a := hstep₁.waiting a (List.mem_cons_self ..)
  obtain ⟨l₁, l₂, rfl⟩ := List.append_of_mem (h₁.waiting a (List.mem_cons_self ..))
  have hless₁ : (alive (l₁ ++ l₂) busy).length < depth := by
    rw [alive_unlink busy h₁.nodup]
    exact hstep₁.alive_length_le.trans_lt hless
  have hoff := h₁.removeFromChain hmem.2
  rw [← hsame] at hoff
  obtain ⟨s₂, c₂, hrun₂, h₂, hstep₂⟩ := hrest.actAll hoff (guarded_release _).2
    (hsame ▸ hproper.after) (fun b hb => hin b (List.mem_append_right _ (hsame ▸ hb))) hless₁
  have hfree : g.Counted (s₂.free a) c₂ busy owed :=
    h₂.recount rfl (fun _ _ => rfl) fun _ _ _ => Nat.le_refl _
  have hsub : (l₁ ++ l₂).Sublist (l₁ ++ a :: l₂) :=
    List.Sublist.append_left (List.sublist_cons_self a l₂) l₁
  have hgone : a ∉ c₂ := fun hmem₂ => by
    obtain ⟨-, hnodup₂, hdisj⟩ := List.nodup_append'.mp h₁.nodup
    rcases List.mem_append.mp (hstep₂.sub.subset hmem₂) with hl | hl
    · exact hdisj hl (List.mem_cons_self ..)
    · exact (List.nodup_cons.mp hnodup₂).1 hl
  refine ⟨s₁, s₂, c₂, hrun₁, hrun₂, hfree, ?_, hgone⟩
  exact
    { sub := (hstep₂.sub.trans hsub).trans hstep₁.sub
      freed := by
        obtain ⟨new₁, hfreed₁, hperm₁⟩ := hstep₁.freed
        obtain ⟨new₂, hfreed₂, hperm₂⟩ := hstep₂.freed
        refine ⟨a :: (new₂ ++ new₁), ?_, ?_⟩
        · show a :: s₂.freed = _
          rw [hfreed₂, show (s₁.removeFromChain a).freed = s₁.freed from rfl, hfreed₁]
          simp
        · calc (a :: (new₂ ++ new₁) ++ c₂).Perm (new₁ ++ (a :: (new₂ ++ c₂))) := by
                rw [List.perm_iff_count]
                intro b
                simp only [List.count_append, List.count_cons]
                omega
            _ |>.Perm (new₁ ++ (a :: (l₁ ++ l₂))) := (hperm₂.cons a).append_left new₁
            _ |>.Perm (new₁ ++ (l₁ ++ a :: l₂)) := List.perm_middle.symm.append_left new₁
            _ |>.Perm c := hperm₁
      objects := fun b hb => by
        rcases hstep₂.objects b hb with heq | hlay
        · have hb₁ : b ∈ l₁ ++ a :: l₂ := hsub.subset (hstep₂.sub.subset hb)
          rw [show (s₂.free a).ss.objects b = s₁.ss.objects b from heq]
          exact hstep₁.objects b hb₁
        · exact .inr hlay
      waiting := fun b hb => (hstep₂.waiting b hb).trans
        (hstep₁.waiting b (List.mem_cons_of_mem a hb))
      refs := fun b hb hb0 => hstep₁.refs b (hsub.subset (hstep₂.sub.subset hb))
        (hstep₂.refs b hb hb0)
      roots := hstep₂.roots.trans hstep₁.roots }

end Release

/-- `drop` gives up one reference. -/
theorem Garbage.settles (g : Garbage) (depth : Nat) (busy : List Addr) : g.Settles busy depth := by
  induction depth generalizing busy with
  | zero => exact fun s c owed a _ _ hdepth => absurd hdepth (Nat.not_lt_zero _)
  | succ depth ih =>
    intro s c owed a h ha hdepth
    have hpos := h.refs_pos ha
    have hcounted := h.unref ha
    rw [Sweep.drop, if_neg hpos.ne']
    by_cases hlast : (s.unref a).refs a = 0 ∧ s.ss.marked a = false
    · have hlost : a ∈ g.lost := ha.resolve_right fun hk => by
        rw [h.marked a hk] at hlast
        exact Bool.noConfusion hlast.2
      have halive : a ∈ alive c busy := h.alive_of_owed hlost (List.mem_cons_self ..)
      obtain ⟨s₁, s₂, c₂, hrun₁, hrun₂, h₂, hstep, hgone⟩ :=
        hcounted.release halive hlast.1 (ih (a :: busy)) (ih busy) (by omega)
      refine ⟨s₂.free a, c₂, ?_, h₂, ?_⟩
      · rw [if_pos hlast]
        show (Sweep.actAll (Sweep.drop depth) (s.ss.objects a).before (s.unref a) >>= _) = _
        rw [show s.ss.objects a = (s.unref a).ss.objects a from rfl, hrun₁, Option.bind_eq_bind,
          Option.bind_some]
        show (Sweep.actAll (Sweep.drop depth) (s₁.ss.objects a).after (s₁.removeFromChain a) >>=
          _) = _
        rw [hrun₂]
        rfl
      · refine { hstep with refs := fun b hb hb0 => ?_ }
        have hba : b ≠ a := by
          rintro rfl
          exact hgone hb
        have hold := hstep.refs b hb hb0
        rwa [Sweep.unref_of_ne hba] at hold
    · rw [if_neg hlast]
      refine ⟨s.unref a, c, rfl, hcounted, ?_⟩
      refine { Garbage.Step.refl g busy s c with refs := fun b hb hb0 => ?_ }
      have hba : b ≠ a := by
        rintro rfl
        exact hlast ⟨hb0, h.unmarked b (h.lost b hb)⟩
      rwa [Sweep.unref_of_ne hba] at hb0

end Sqnim.Gc
