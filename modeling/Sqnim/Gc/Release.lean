import Sqnim.Gc.Account

/-!
# Releasing objects

The account while references are given up: `drop` settles one reference, and an object that it frees
settles all it holds. Objects that are reachable only lose counts.
-/
namespace Sqnim.Gc

open Sqnim.Object Sqnim.Lib.DoublyLinked
open SQObjectType

/-- What stays fixed while the unreachable objects `lost` are swept: the reachable objects `kept`
are on the chain `tchain`, have these contents and `base` references from elsewhere. Where a
reference outlives `Finalize`, the rank decreases along it; the rank also decreases from a variable
to the value that a thread moves into it. -/
structure Garbage where
  lost : List Addr
  kept : List Addr
  tchain : Option Addr
  objects : Objects
  base : Addr → Nat
  rank : Addr → Nat
  outers : Addr → Prop

variable {g : Garbage}

/-- Closing variables keeps to unreachable ones, and the rank. -/
def Garbage.Sane (g : Garbage) (xs : List Action) : Prop :=
  ∀ p v, Action.close p v ∈ xs →
    p ∈ g.lost ∧ g.outers p ∧ ∀ a, markObject v = some a → g.rank a < g.rank p

def Garbage.Layered (g : Garbage) (b : Addr) (c : SQCollectable) : Prop :=
  ∀ a ∈ c.holds, g.rank a < g.rank b

structure Garbage.Proper (g : Garbage) (b : Addr) (c : SQCollectable) : Prop where
  inside : ∀ a ∈ c.holds, a ∈ g.lost ∨ a ∈ g.kept
  finalizes : g.Sane c.finalizes
  before : g.Sane c.before
  after : g.Sane c.after
  layered : g.Layered b c.finalized

/-- The account: `c` is the chain, `busy` are the objects on it that are being released, and `owed`
are the references still to be given up. -/
structure Garbage.Counted (g : Garbage) (s : Sweep) (c busy owed : List Addr) : Prop where
  chain : Linked s.ss.links s.ss.gcChain c
  nodup : c.Nodup
  lost : ∀ a ∈ c, a ∈ g.lost
  waiting : ∀ a ∈ busy, a ∈ c
  tchain : Linked s.ss.links g.tchain g.kept
  apart : ∀ a ∈ g.kept, a ∉ g.lost
  unmarked : ∀ a ∈ g.lost, s.ss.marked a = false
  marked : ∀ a ∈ g.kept, s.ss.marked a = true
  counts : ∀ a ∈ alive c busy, s.refs a = owed.count a + heldIn s.ss.objects (alive c busy) a
  dead : ∀ a ∈ g.lost, a ∉ alive c busy →
    owed.count a + heldIn s.ss.objects (alive c busy) a = 0
  keptCounts : ∀ a ∈ g.kept,
    s.refs a = g.base a + owed.count a + heldIn s.ss.objects (alive c busy) a
  proper : ∀ b ∈ alive c busy, g.Proper b (s.ss.objects b)
  outers : ∀ a ∈ g.lost, (s.ss.objects a).getType = otOuter ↔ g.outers a
  same : ∀ a ∈ g.kept, s.ss.objects a = g.objects a

namespace Garbage.Counted

variable {s : Sweep} {c busy owed owed' : List Addr} {a : Addr}

/-- What is counted and what is owed change together. -/
theorem recount (h : g.Counted s c busy owed) {s' : Sweep} (hss : s'.ss = s.ss)
    (hrefs : ∀ a, a ∈ g.lost ∨ a ∈ g.kept →
      s'.refs a + owed.count a = s.refs a + owed'.count a)
    (hdead : ∀ a ∈ g.lost, a ∉ alive c busy → owed'.count a ≤ owed.count a) :
    g.Counted s' c busy owed' where
  chain := hss ▸ h.chain
  nodup := h.nodup
  lost := h.lost
  waiting := h.waiting
  tchain := hss ▸ h.tchain
  apart := h.apart
  unmarked := hss ▸ h.unmarked
  marked := hss ▸ h.marked
  counts a ha := by
    have hold := h.counts a ha
    have hnew := hrefs a (.inl (h.lost a (mem_alive.mp ha).1))
    rw [hss]
    omega
  dead a ha hgone := by
    have hold := h.dead a ha hgone
    have hnew := hdead a ha hgone
    rw [hss]
    omega
  keptCounts a ha := by
    have hold := h.keptCounts a ha
    have hnew := hrefs a (.inr ha)
    rw [hss]
    omega
  proper := hss ▸ h.proper
  outers := hss ▸ h.outers
  same := hss ▸ h.same

theorem perm (h : g.Counted s c busy owed) (hperm : owed.Perm owed') :
    g.Counted s c busy owed' :=
  h.recount rfl (fun a _ => by rw [hperm.count_eq]) fun a _ _ => (hperm.count_eq a).ge

theorem alive_of_owed (h : g.Counted s c busy owed) (ha : a ∈ g.lost) (howed : a ∈ owed) :
    a ∈ alive c busy := by
  by_contra hdead
  have hzero := h.dead a ha hdead
  have hpos := List.count_pos_iff.mpr howed
  omega

theorem refs_pos (h : g.Counted s c busy (a :: owed)) (ha : a ∈ g.lost ∨ a ∈ g.kept) :
    0 < s.refs a := by
  rcases ha with ha | ha
  · rw [h.counts a (h.alive_of_owed ha (List.mem_cons_self ..)), List.count_cons_self]
    omega
  · rw [h.keptCounts a ha, List.count_cons_self]
    omega

theorem unref (h : g.Counted s c busy (a :: owed)) (ha : a ∈ g.lost ∨ a ∈ g.kept) :
    g.Counted (s.unref a) c busy owed := by
  have hpos := h.refs_pos ha
  refine h.recount rfl (fun b _ => ?_) fun b _ _ => List.count_le_count_cons
  by_cases hba : b = a
  · subst hba
    rw [Sweep.unref_self, List.count_cons_self]
    omega
  · rw [Sweep.unref_of_ne hba, List.count_cons_of_ne (Ne.symm hba)]

theorem addRef (h : g.Counted s c busy owed) (ha : a ∈ alive c busy ∨ a ∈ g.kept) :
    g.Counted (s.addRef a) c busy (a :: owed) := by
  refine h.recount rfl (fun b _ => ?_) fun b hb hdead => ?_
  · by_cases hba : b = a
    · subst hba
      rw [Sweep.addRef_self, List.count_cons_self]
      omega
    · rw [Sweep.addRef_of_ne hba, List.count_cons_of_ne (Ne.symm hba)]
  · have hba : b ≠ a := by
      rintro rfl
      rcases ha with ha | ha
      · exact hdead ha
      · exact h.apart b ha hb
    rw [List.count_cons_of_ne (Ne.symm hba)]

/-- New contents of a live object: what it no longer holds is owed. -/
theorem setObject {b : Addr} (h : g.Counted s c busy owed) (hb : b ∈ alive c busy)
    {d : SQCollectable} (hproper : g.Proper b d) (htype : d.getType = (s.ss.objects b).getType)
    (howed : ∀ a, owed'.count a + d.holds.count a =
      owed.count a + (s.ss.objects b).holds.count a) :
    g.Counted (s.setObject b d) c busy owed' := by
  have hlost : b ∈ g.lost := h.lost b (mem_alive.mp hb).1
  have hheld : ∀ a, owed'.count a + heldIn (s.setObject b d).ss.objects (alive c busy) a =
      owed.count a + heldIn s.ss.objects (alive c busy) a := fun a => by
    have hupdate := heldIn_update s.ss.objects (h.nodup.filter _) hb d a
    have ha := howed a
    show _ + heldIn (Function.update s.ss.objects b d) _ a = _
    unfold alive at hupdate ⊢
    omega
  have hne : ∀ a, a ≠ b → (s.setObject b d).ss.objects a = s.ss.objects a := fun a ha =>
    Function.update_of_ne ha ..
  have hself : (s.setObject b d).ss.objects b = d := Function.update_self ..
  refine
    { h with
      counts := fun a ha => ?_
      dead := fun a ha hdead => ?_
      keptCounts := fun a ha => ?_
      proper := fun a ha => ?_
      outers := fun a ha => ?_
      same := fun a ha => ?_ }
  · rw [hheld]
    exact h.counts a ha
  · rw [hheld]
    exact h.dead a ha hdead
  · rw [Nat.add_assoc, hheld, ← Nat.add_assoc]
    exact h.keptCounts a ha
  · by_cases hab : a = b
    · subst hab
      rw [hself]
      exact hproper
    · rw [hne a hab]
      exact h.proper a ha
  · by_cases hab : a = b
    · subst hab
      rw [hself, htype]
      exact h.outers a ha
    · rw [hne a hab]
      exact h.outers a ha
  · rw [hne a fun heq => h.apart a ha (heq ▸ hlost)]
    exact h.same a ha

/-- An object without references starts to give up what it holds. -/
theorem detach (h : g.Counted s c busy owed) (ha : a ∈ alive c busy) (hzero : s.refs a = 0) :
    g.Counted s c (a :: busy) ((s.ss.objects a).holds ++ owed) := by
  have hcount := h.counts a ha
  have hlive : alive c (a :: busy) = (alive c busy).erase a := alive_cons busy h.nodup
  have hheld : ∀ b, ((s.ss.objects a).holds ++ owed).count b +
      heldIn s.ss.objects (alive c (a :: busy)) b =
      owed.count b + heldIn s.ss.objects (alive c busy) b := fun b => by
    rw [hlive, heldIn_erase s.ss.objects ha, List.count_append]
    omega
  have hsub : ∀ b ∈ alive c (a :: busy), b ∈ alive c busy := fun b hb => by
    rw [hlive] at hb
    exact List.mem_of_mem_erase hb
  refine
    { h with
      waiting := fun b hb => ?_
      counts := fun b hb => ?_
      dead := fun b hb hdead => ?_
      keptCounts := fun b hb => ?_
      proper := fun b hb => h.proper b (hsub b hb) }
  · rcases List.mem_cons.mp hb with rfl | hb
    · exact (mem_alive.mp ha).1
    · exact h.waiting b hb
  · rw [hheld]
    exact h.counts b (hsub b hb)
  · rw [hheld]
    by_cases hba : b = a
    · subst hba
      omega
    · refine h.dead b hb fun hmem => hdead ?_
      rw [hlive]
      exact (List.mem_erase_of_ne hba).mpr hmem
  · rw [Nat.add_assoc, hheld, ← Nat.add_assoc]
    exact h.keptCounts b hb

theorem removeFromChain {l₁ l₂ : List Addr} (h : g.Counted s (l₁ ++ a :: l₂) (a :: busy) owed)
    (ha : a ∉ busy) : g.Counted (s.removeFromChain a) (l₁ ++ l₂) busy owed := by
  have hlive := alive_unlink busy h.nodup
  have hsub : ∀ b ∈ l₁ ++ l₂, b ∈ l₁ ++ a :: l₂ := fun b hb => by
    rcases List.mem_append.mp hb with hb | hb
    · exact List.mem_append_left _ hb
    · exact List.mem_append_right l₁ (List.mem_cons_of_mem a hb)
  have hobjects : (s.removeFromChain a).ss.objects = s.ss.objects := rfl
  refine
    { h with
      chain := h.chain.unlink h.nodup
      nodup := h.nodup.sublist
        (List.Sublist.append_left (List.sublist_cons_self a l₂) l₁)
      lost := fun b hb => h.lost b (hsub b hb)
      waiting := fun b hb => ?_
      tchain := h.tchain.unlink_other h.chain h.nodup
        fun b hb hmem => h.apart b hb (h.lost b hmem)
      counts := ?_
      dead := ?_
      keptCounts := ?_
      proper := ?_ }
  · have hmem := h.waiting b (List.mem_cons_of_mem a hb)
    rcases List.mem_append.mp hmem with hmem | hmem
    · exact List.mem_append_left l₂ hmem
    · refine List.mem_append_right l₁ ((List.mem_cons.mp hmem).resolve_left ?_)
      rintro rfl
      exact ha hb
  all_goals rw [hobjects, hlive]
  · exact h.counts
  · exact h.dead
  · exact h.keptCounts
  · exact h.proper

end Garbage.Counted
end Sqnim.Gc
