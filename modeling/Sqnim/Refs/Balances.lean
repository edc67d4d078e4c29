import Sqnim.Refs.Shape

/-!
# Host references are counted exactly

What the table holds is a count for each object. `AddRef` raises one count and
`Release` lowers one, and neither a resize nor a collision disturbs the others.
-/
namespace Sqnim.Refs.Balances

open Sqnim.Lib.LinkedList
open Sqnim.Object
open SQObjectType
open Sqnim.Refs
open RefTable

/-- The nodes count `m`: one node for each tracked object whose count is positive, and no other. -/
structure Counts (tracked : SQObject → Prop) (t : RefTable) (m : SQObject → Nat) : Prop where
  held : ∀ i < t.numofslots, (t.nodes i).obj.type ≠ otNull →
    tracked (t.nodes i).obj ∧ 0 < (t.nodes i).refs ∧ (t.nodes i).refs = m (t.nodes i).obj
  unique : ∀ o, tracked o → 0 < m o → ∃! i, i < t.numofslots ∧ (t.nodes i).obj = o

def Counted (o : SQObject) : Prop := o.type.isRefCounted = true

theorem Counted.ne_null {o : SQObject} (h : Counted o) : o.type ≠ otNull := by
  intro hn
  rw [Counted, hn, isRefCounted_otNull] at h
  cases h

variable {hash : SQObject → Nat} {t t' : RefTable} {free : List Nat} {chain : Nat → List Nat}
  {m : SQObject → Nat} {o : SQObject}

section Counting

theorem absent_iff (hc : Counts Counted t m) (ho : Counted o) : Absent t o ↔ m o = 0 := by
  constructor
  · intro habs
    by_contra hne
    obtain ⟨i, ⟨hi, hobj⟩, -⟩ := hc.unique o ho (by omega)
    exact habs i hi hobj
  · intro hm i hi hobj
    obtain ⟨-, hpos, hrefs⟩ := hc.held i hi (by rw [hobj]; exact ho.ne_null)
    rw [hobj] at hrefs
    omega

/-- An object that is held in one slot has no other count. -/
theorem slot_of_held (hs : Shape hash t free chain) (ho : Counted o) {i j : Nat}
    (hi : i < t.numofslots) (hj : j < t.numofslots) (hobj : (t.nodes i).obj = o)
    (hobj' : (t.nodes j).obj = o) : i = j :=
  hs.distinct i hi j hj (by rw [hobj]; exact ho) (by rw [hobj, hobj'])

/-- The count of one object changes when its node stays. -/
theorem counts_change (hs : Shape hash t free chain) (hc : Counts Counted t m) (ho : Counted o)
    {i : Nat} (hi : i < t.numofslots) (hobj : (t.nodes i).obj = o) (g : Nat → Nat)
    (hg : 0 < g (m o)) :
    Counts Counted (t.modify i fun node => { node with refs := g node.refs })
      (Function.update m o (g (m o))) := by
  have hobjs := modify_refs_obj t i (g := g)
  have hrefs : (t.nodes i).refs = m o := by
    have hheld := hc.held i hi (by rw [hobj]; exact ho.ne_null)
    rw [hheld.2.2, hobj]
  constructor
  · intro j hj hne
    rw [hobjs] at hne ⊢
    by_cases hji : j = i
    · rw [hji, modify_self, hobj, Function.update_self, hrefs]
      exact ⟨ho, hg, rfl⟩
    · have hother : (t.nodes j).obj ≠ o := fun he => hji (slot_of_held hs ho hj hi he hobj)
      rw [modify_of_ne t _ hji, Function.update_of_ne hother]
      exact hc.held j hj hne
  · intro p hp hpos
    by_cases hpo : p = o
    · refine ⟨i, ⟨hi, ?_⟩, ?_⟩
      · rw [hobjs, hobj, hpo]
      · rintro j ⟨hj, hjo⟩
        rw [hobjs, hpo] at hjo
        exact slot_of_held hs ho hj hi hjo hobj
    · rw [Function.update_of_ne hpo] at hpos
      obtain ⟨j, ⟨hj, hjp⟩, hall⟩ := hc.unique p hp hpos
      refine ⟨j, ⟨hj, ?_⟩, ?_⟩
      · rw [hobjs, hjp]
      · rintro k ⟨hk, hkp⟩
        rw [hobjs] at hkp
        exact hall k ⟨hk, hkp⟩

/-- A new node brings the count of its object. -/
theorem counts_added {i r : Nat} (hc : Counts Counted t m) (ho : Counted o) (habs : Absent t o)
    (ha : Added t t' i o) (hr : 0 < r) :
    Counts Counted (t'.modify i ({ · with refs := r })) (Function.update m o r) := by
  have hslot : i < t'.numofslots := ha.size ▸ ha.slot
  have hsame := modify_refs_obj t' i (g := fun _ => r)
  constructor
  · intro j hj hne
    rw [modify_numofslots, ha.size] at hj
    rw [hsame] at hne ⊢
    by_cases hji : j = i
    · rw [hji, modify_self, ha.obj, Function.update_self]
      exact ⟨ho, hr, rfl⟩
    · rw [(ha.others j hji).1] at hne ⊢
      rw [modify_of_ne t' _ hji, (ha.others j hji).2, Function.update_of_ne (habs j hj)]
      exact hc.held j hj hne
  · intro p hp hpos
    by_cases hpo : p = o
    · refine ⟨i, ⟨hslot, ?_⟩, ?_⟩
      · rw [hsame, ha.obj, hpo]
      · rintro j ⟨hj, hjo⟩
        rw [modify_numofslots, ha.size] at hj
        by_contra hji
        rw [hsame, (ha.others j hji).1, hpo] at hjo
        exact habs j hj hjo
    · rw [Function.update_of_ne hpo] at hpos
      obtain ⟨j, ⟨hj, hjp⟩, hall⟩ := hc.unique p hp hpos
      have hji : j ≠ i := by
        rintro rfl
        rw [ha.wasBlank] at hjp
        exact hp.ne_null (hjp ▸ rfl)
      refine ⟨j, ⟨ha.size ▸ hj, ?_⟩, ?_⟩
      · rw [hsame, (ha.others j hji).1, hjp]
      · rintro k ⟨hk, hkp⟩
        rw [modify_numofslots, ha.size] at hk
        have hki : k ≠ i := by
          rintro rfl
          rw [hsame, ha.obj] at hkp
          exact hpo hkp.symm
        rw [hsame, (ha.others k hki).1] at hkp
        exact hall k ⟨hk, hkp⟩

/-- A node that goes takes the count of its object with it. -/
theorem counts_freed {i : Nat} (hs : Shape hash t free chain) (hc : Counts Counted t m)
    (ho : Counted o) (hi : i < t.numofslots) (hobj : (t.nodes i).obj = o) (g : Nat → Nat)
    (hf : Freed (t.modify i fun node => { node with refs := g node.refs }) t' i) :
    Counts Counted t' (Function.update m o 0) := by
  have hold : ∀ j ≠ i, (t'.nodes j).obj = (t.nodes j).obj ∧ (t'.nodes j).refs = (t.nodes j).refs := by
    intro j hji
    have hnode := hf.others j hji
    rwa [modify_of_ne t _ hji] at hnode
  have hsize : t'.numofslots = t.numofslots := hf.size
  constructor
  · intro j hj hne
    rw [hsize] at hj
    have hji : j ≠ i := by
      rintro rfl
      rw [hf.obj] at hne
      exact hne rfl
    have hother : (t.nodes j).obj ≠ o := fun he => hji (slot_of_held hs ho hj hi he hobj)
    rw [(hold j hji).1] at hne ⊢
    rw [(hold j hji).2, Function.update_of_ne hother]
    exact hc.held j hj hne
  · intro p hp hpos
    have hpo : p ≠ o := by
      rintro rfl
      rw [Function.update_self] at hpos
      omega
    rw [Function.update_of_ne hpo] at hpos
    obtain ⟨j, ⟨hj, hjp⟩, hall⟩ := hc.unique p hp hpos
    have hji : j ≠ i := by
      rintro rfl
      exact hpo (hjp.symm.trans hobj)
    refine ⟨j, ⟨hsize ▸ hj, ?_⟩, ?_⟩
    · rw [(hold j hji).1, hjp]
    · rintro k ⟨hk, hkp⟩
      rw [hsize] at hk
      have hki : k ≠ i := by
        rintro rfl
        rw [hf.obj] at hkp
        exact hp.ne_null (hkp ▸ rfl)
      rw [(hold k hki).1] at hkp
      exact hall k ⟨hk, hkp⟩

end Counting

section Lookup

/-- The walk of `Get` along the chain of the object. -/
theorem get_eq (h : Shape hash t free chain) (o : SQObject) (add : Bool) :
    t.get hash o add =
      t.getOrAdd hash o ((chain (t.mainPosition hash o)).find? fun i => (t.nodes i).obj == o)
        (((chain (t.mainPosition hash o)).takeWhile fun i => !(t.nodes i).obj == o).getLast?) add := by
  have hmp := h.mainPosition_lt o
  rw [RefTable.get, locate_eq _ (h.chainLinked _ hmp) (h.chain_length hmp)]
  simp

theorem get_absent (h : Shape hash t free chain) (habs : Absent t o) (add : Bool) :
    ∃ prev, t.get hash o add = t.getOrAdd hash o none prev add := by
  have hnone : ((chain (t.mainPosition hash o)).find? fun i => (t.nodes i).obj == o) = none := by
    rw [List.find?_eq_none]
    intro i hi
    rw [beq_iff_eq]
    exact habs i (h.lt_iff.mpr (.inr ⟨_, h.mainPosition_lt o, hi⟩))
  rw [get_eq h, hnone]
  exact ⟨_, rfl⟩

theorem get_present (h : Shape hash t free chain) (ho : Counted o) {i : Nat}
    (hi : i < t.numofslots) (hobj : (t.nodes i).obj = o) (add : Bool) :
    ∃ prev rest, Through (chain (t.mainPosition hash o)) prev i rest ∧
      t.get hash o add = .ok ⟨t, some i, t.mainPosition hash o, prev⟩ := by
  have hmp := h.mainPosition_lt o
  have hmem : i ∈ chain (t.mainPosition hash o) := by
    have hchain := h.mem_chain hi (by rw [hobj]; exact ho)
    rwa [hobj] at hchain
  obtain ⟨l₁, l₂, hsplit⟩ := List.append_of_mem hmem
  have hbefore : ∀ j ∈ l₁, ((t.nodes j).obj == o) = false := by
    intro j hj
    have hjmem : j ∈ chain (t.mainPosition hash o) := by
      rw [hsplit]
      exact List.mem_append_left _ hj
    have hnodup := h.chain_nodup hmp
    rw [hsplit] at hnodup
    rw [beq_eq_false_iff_ne]
    intro hjo
    have hji := slot_of_held h ho (h.lt_iff.mpr (.inr ⟨_, hmp, hjmem⟩)) hi hjo hobj
    exact (List.nodup_append.mp hnodup).2.2 j hj i (List.mem_cons_self ..) hji
  have hat : ((t.nodes i).obj == o) = true := by rw [hobj, beq_self_eq_true]
  have hlinked := h.chainLinked _ hmp
  have hlength := h.chain_length hmp
  rw [hsplit] at hlinked hlength
  refine ⟨l₁.getLast?, l₁ ++ l₂, ⟨l₁, l₂, hsplit, rfl, rfl⟩, ?_⟩
  rw [RefTable.get, locate_append _ hlinked hlength hbefore hat]
  rfl

end Lookup

/-- The table is well shaped and counts `m`. -/
def Holds (hash : SQObject → Nat) (t : RefTable) (m : SQObject → Nat) : Prop :=
  ∃ free chain, Shape hash t free chain ∧ Counts Counted t m

theorem holds_init (hash : SQObject → Nat) : Holds hash init fun _ => 0 := by
  refine ⟨_, _, shape_allocNodes hash (by decide), fun i _ hne => absurd rfl hne, fun _ _ h => ?_⟩
  omega

section Resize

/-- The counts of the objects in the first `k` nodes. -/
def upTo (t : RefTable) (m : SQObject → Nat) (k : Nat) (o : SQObject) : Nat :=
  if ∃ j < k, (t.nodes j).obj = o then m o else 0

theorem upTo_succ (t : RefTable) (m : SQObject → Nat) (k : Nat) :
    upTo t m (k + 1) = Function.update (upTo t m k) (t.nodes k).obj (m (t.nodes k).obj) := by
  funext p
  by_cases hp : p = (t.nodes k).obj
  · rw [hp, Function.update_self, upTo, if_pos ⟨k, by omega, rfl⟩]
  · rw [Function.update_of_ne hp, upTo, upTo]
    have hiff : (∃ j < k + 1, (t.nodes j).obj = p) ↔ ∃ j < k, (t.nodes j).obj = p := by
      constructor
      · rintro ⟨j, hj, rfl⟩
        have hjk : j ≠ k := by
          rintro rfl
          exact hp rfl
        exact ⟨j, by omega, rfl⟩
      · rintro ⟨j, hj, hobj⟩
        exact ⟨j, by omega, hobj⟩
    simp only [hiff]

/-- What one turn of `Resize` does with an old node. -/
theorem addBack_spec {new : RefTable} {node : RefNode} {n : Nat} {c : SQObject → Nat}
    (nfound : Nat) (hs : Shape hash new (n :: free) chain) (hc : Counts Counted new c) (ho : Counted node.obj)
    (hfresh : c node.obj = 0) (hrefs : 0 < node.refs) :
    ∃ new' chain', addBack hash (new, nfound) node = .ok (new', nfound + 1) ∧
      new'.numofslots = new.numofslots ∧ Shape hash new' free chain' ∧
      Counts Counted new' (Function.update c node.obj node.refs) := by
  have habs := (absent_iff hc ho).mpr hfresh
  have hshape := shape_fill hs ho habs
  have hni : n ∉ free := (List.nodup_cons.mp hs.free_nodup).1
  refine ⟨(new.fill (new.mainPosition hash node.obj) n node.obj).modify n
      ({ · with refs := node.refs }), _, ?_, rfl, hshape.modify_refs hni fun _ => node.refs,
    counts_added hc ho habs (added_fill hs _ _) hrefs⟩
  rw [addBack, if_neg ho.ne_null, if_neg (by omega), add_spec hs]
  rfl

/-- After `k` old nodes, which are all in use, the new table counts what they count. -/
theorem addBack_run (hs : Shape hash t [] chain) (hc : Counts Counted t m) {size k : Nat}
    (hk : k ≤ t.numofslots) (hsize : t.numofslots < size) :
    ∃ new free chain', ((List.range k).map t.nodes).foldlM (addBack hash) (allocNodes size, 0) =
        .ok (new, k) ∧
      new.numofslots = size ∧ free.length + k = size ∧ Shape hash new free chain' ∧
      Counts Counted new (upTo t m k) := by
  induction k with
  | zero =>
    refine ⟨allocNodes size, _, _, rfl, rfl, ?_, shape_allocNodes hash (by omega),
      fun i _ hne => absurd rfl hne, fun o _ hpos => ?_⟩
    · rw [List.length_range, Nat.add_zero]
    · simp [upTo] at hpos
  | succ k ih =>
    obtain ⟨new, free, chain', hrun, hnum, hlen, hshape, hcounts⟩ := ih (by omega)
    have hk' : k < t.numofslots := by omega
    have hnode : Counted (t.nodes k).obj := by
      rcases hs.lt_iff.mp hk' with hfree | ⟨b, hb, hmem⟩
      · cases hfree
      · exact hs.counted b hb k hmem
    obtain ⟨-, hpos, hrefs⟩ := hc.held k hk' hnode.ne_null
    have hfresh : upTo t m k (t.nodes k).obj = 0 := by
      refine if_neg ?_
      rintro ⟨j, hj, hobj⟩
      have hjk := slot_of_held hs hnode (by omega) hk' hobj rfl
      omega
    cases free with
    | nil =>
      rw [List.length_nil] at hlen
      omega
    | cons n free =>
      obtain ⟨new', chain'', hstep, hnum', hshape', hcounts'⟩ :=
        addBack_spec k hshape hcounts hnode hfresh hpos
      refine ⟨new', free, chain'', ?_, hnum'.trans hnum, ?_, hshape', ?_⟩
      · rw [List.range_succ, List.map_append, List.foldlM_append, hrun]
        simp only [List.map_cons, List.map_nil, List.foldlM_cons, List.foldlM_nil]
        exact congrArg (· >>= pure) hstep
      · rw [List.length_cons] at hlen
        omega
      · rw [upTo_succ, ← hrefs]
        exact hcounts'

/-- A resize of a full table keeps every count. -/
theorem resize_spec (hs : Shape hash t [] chain) (hc : Counts Counted t m) (size : Nat)
    (hsize : t.numofslots < size) :
    ∃ new n free chain', t.resize hash size = .ok new ∧ Shape hash new (n :: free) chain' ∧
      Counts Counted new m := by
  obtain ⟨new, free, chain', hrun, hnum, hlen, hshape, hcounts⟩ :=
    addBack_run hs hc (Nat.le_refl _) hsize
  cases free with
  | nil =>
    rw [List.length_nil] at hlen
    omega
  | cons n free =>
    refine ⟨new, n, free, chain', ?_, hshape, ?_⟩
    · rw [resize, hrun]
      exact if_pos rfl
    · constructor
      · intro i hi hne
        obtain ⟨ho, hpos, hrefs⟩ := hcounts.held i hi hne
        have hup : upTo t m t.numofslots (new.nodes i).obj = m (new.nodes i).obj := by
          rw [upTo] at hrefs ⊢
          split at hrefs
          · rw [if_pos ‹_›]
          · omega
        exact ⟨ho, hpos, hrefs.trans hup⟩
      · intro o ho hpos
        obtain ⟨i, ⟨hi, hobj⟩, -⟩ := hc.unique o ho hpos
        refine hcounts.unique o ho ?_
        rw [upTo, if_pos ⟨i, hi, hobj⟩]
        exact hpos

end Resize

section Operations

/-- `Get` adds an object to the table itself, or to what a full table grows into. -/
theorem getOrAdd_fresh (hs : Shape hash t free chain) (hc : Counts Counted t m)
    (prev : Option Nat) : ∃ t₁ n free₁ chain₁, Shape hash t₁ (n :: free₁) chain₁ ∧
      Counts Counted t₁ m ∧ t.getOrAdd hash o none prev true =
        .ok ⟨t₁.fill (t₁.mainPosition hash o) n o, some n, t₁.mainPosition hash o, prev⟩ := by
  have hused := hs.used
  cases free with
  | nil =>
    have hpos := hs.positive
    obtain ⟨t₁, n, free₁, chain₁, hresize, hs₁, hc₁⟩ :=
      resize_spec hs hc (t.numofslots * 2) (by omega)
    have hlist : t.freelist = none := hs.freeLinked
    have hfull : t.numofslots = t.slotused := by
      rw [List.length_nil] at hused
      omega
    refine ⟨t₁, n, free₁, chain₁, hs₁, hc₁, ?_⟩
    simp only [getOrAdd, Option.isNone_none, Bool.and_true, if_true]
    rw [if_pos hfull, hlist, if_neg (by decide), hresize]
    show (t₁.add (t₁.mainPosition hash o) o >>= fun _ => _) = _
    rw [add_spec hs₁]
    rfl
  | cons n free =>
    have hroom : t.numofslots ≠ t.slotused := by
      rw [List.length_cons] at hused
      omega
    refine ⟨t, n, free, chain, hs, hc, ?_⟩
    simp only [getOrAdd, Option.isNone_none, Bool.and_true, if_true]
    rw [if_neg hroom, add_spec hs]
    rfl

theorem addRef_spec (h : Holds hash t m) (ho : Counted o) :
    ∃ t', t.addRef hash o = .ok t' ∧ Holds hash t' (Function.update m o (m o + 1)) := by
  obtain ⟨free, chain, hs, hc⟩ := h
  by_cases hm : m o = 0
  · obtain ⟨prev, hget⟩ := get_absent hs ((absent_iff hc ho).mpr hm) true
    obtain ⟨t₁, n, free₁, chain₁, hs₁, hc₁, hadd⟩ := getOrAdd_fresh hs hc prev (o := o)
    have habs := (absent_iff hc₁ ho).mpr hm
    have hni : n ∉ free₁ := (List.nodup_cons.mp hs₁.free_nodup).1
    have hzero := (added_fill hs₁ (t₁.mainPosition hash o) o).refs
    refine ⟨(t₁.fill (t₁.mainPosition hash o) n o).modify n ({ · with refs := 1 }), ?_, free₁, _,
      (shape_fill hs₁ ho habs).modify_refs hni fun _ => 1, ?_⟩
    · rw [addRef, hget, hadd]
      show Except.ok (RefTable.modify _ n _) = _
      simp only [RefTable.modify, hzero, Nat.zero_add]
    · rw [hm]
      exact counts_added hc₁ ho habs (added_fill hs₁ _ _) (by omega)
  · obtain ⟨i, ⟨hi, hobj⟩, -⟩ := hc.unique o ho (by omega)
    obtain ⟨prev, rest, -, hget⟩ := get_present hs ho hi hobj true
    refine ⟨_, ?_, free, chain, hs.modify_refs (hs.notMem_free (hobj ▸ ho)) (· + 1),
      counts_change hs hc ho hi hobj (· + 1) (by omega)⟩
    rw [addRef, hget]
    rfl

theorem release_spec (h : Holds hash t m) (ho : Counted o) (hm : 0 < m o) :
    ∃ t', t.release hash o = .ok (t', decide (m o = 1)) ∧
      Holds hash t' (Function.update m o (m o - 1)) := by
  obtain ⟨free, chain, hs, hc⟩ := h
  obtain ⟨i, ⟨hi, hobj⟩, -⟩ := hc.unique o ho hm
  obtain ⟨prev, rest, hthrough, hget⟩ := get_present hs ho hi hobj false
  have hrefs : (t.nodes i).refs = m o := by
    have hheld := hc.held i hi (by rw [hobj]; exact ho.ne_null)
    rw [hheld.2.2, hobj]
  let g : Nat → Nat := fun refs => if refs = 0 then 2 ^ 64 - 1 else refs - 1
  have hg : g (m o) = m o - 1 := if_neg (by omega)
  have hleft : ((t.modify i fun node => { node with refs := g node.refs }).nodes i).refs =
      m o - 1 := by
    rw [modify_self, ← hg, ← hrefs]
  have hs' := hs.modify_refs (hs.notMem_free (hobj ▸ ho)) g
  have hrun : t.release hash o =
      if ((t.modify i fun node => { node with refs := g node.refs }).nodes i).refs = 0 then
        .ok ((t.modify i fun node => { node with refs := g node.refs }).freeNode i
          (t.mainPosition hash o) prev, true)
      else .ok (t.modify i fun node => { node with refs := g node.refs }, false) := by
    rw [release, hget]
    rfl
  by_cases hone : m o = 1
  · have hzero : m o - 1 = 0 := by omega
    refine ⟨_, ?_, i :: free, _, shape_freeNode hs' (hs.mainPosition_lt o) hthrough
      (hleft.trans hzero), ?_⟩
    · rw [hrun, if_pos (hleft.trans hzero), decide_eq_true hone]
    · rw [hzero]
      exact counts_freed hs hc ho hi hobj g (freed_freeNode _ i _ prev)
  · refine ⟨_, ?_, free, chain, hs', ?_⟩
    · rw [hrun, if_neg (by omega), decide_eq_false hone]
    · rw [← hg]
      exact counts_change hs hc ho hi hobj g (by omega)

end Operations

section Calls

/-- What a host does with references. -/
inductive Call where
  | addref (po : SQObject)
  | release (po : SQObject)
  deriving DecidableEq, Repr

variable (hash : SQObject → Nat)

def apply (t : RefTable) : Call → Except Fault RefTable
  | .addref po => sqAddref hash t po
  | .release po => (sqRelease hash t po).map Prod.fst

def run (calls : List Call) : Except Fault RefTable := calls.foldlM (apply hash) init

/-- How often an object has been added and not released. -/
def balance (calls : List Call) (o : SQObject) : Nat :=
  calls.count (.addref o) - calls.count (.release o)

/-- No object is released more often than it was added. -/
def Balanced (calls : List Call) : Prop :=
  ∀ k o, (calls.take k).count (.release o) ≤ (calls.take k).count (.addref o)

/-- After the calls, the table counts the balance of each tracked object; its free list and its
chains partition the slots; one more release tells whether the balance drops to zero; and a full
table keeps the counts when it is resized. -/
def CountsExactly (tracked : SQObject → Prop) (calls : List Call) : Prop :=
  ∃ t, run hash calls = .ok t ∧
    Counts tracked t (balance calls) ∧
    (∃ free chain, Partition t free chain) ∧
    (∀ o, tracked o → Balanced (calls ++ [.release o]) →
      ∃ t' answer, sqRelease hash t o = .ok (t', answer) ∧
        (answer = true ↔ balance (calls ++ [.release o]) o = 0)) ∧
    (t.slotused = t.numofslots →
      ∃ t', t.resize hash (t.numofslots * 2) = .ok t' ∧ Counts tracked t' (balance calls))

variable {hash} {calls : List Call} {c : Call}

theorem Balanced.prefix (h : Balanced (calls ++ [c])) : Balanced calls := by
  intro k o
  rcases Nat.le_total k calls.length with hk | hk
  · have hpre := h k o
    rwa [List.take_append_of_le_length hk] at hpre
  · have hpre := h calls.length o
    rw [List.take_left] at hpre
    rwa [List.take_of_length_le hk]

theorem Balanced.count_le (h : Balanced calls) (o : SQObject) :
    calls.count (.release o) ≤ calls.count (.addref o) := by
  have hall := h calls.length o
  rwa [List.take_length] at hall

theorem Balanced.pos (h : Balanced (calls ++ [.release o])) : 0 < balance calls o := by
  have hle := h.count_le o
  simp only [List.count_append, List.count_singleton_self, List.count_singleton] at hle
  rw [balance]
  have hne : ¬ (Call.release o == Call.addref o) = true := by simp
  rw [if_neg hne] at hle
  omega

theorem Balanced.append_addref {calls : List Call} (h : Balanced calls) (o : SQObject) :
    Balanced (calls ++ [.addref o]) := by
  intro k p
  have hle := h k p
  by_cases hk : k ≤ calls.length
  · rwa [List.take_append_of_le_length hk]
  · have hall := h calls.length p
    rw [List.take_length] at hall
    rw [List.take_of_length_le (by simp; omega), List.count_append, List.count_append]
    have hzero : List.count (Call.release p) [Call.addref o] = 0 := by simp
    omega

theorem Balanced.append_release {calls : List Call} (h : Balanced calls) {o : SQObject}
    (ho : 0 < balance calls o) : Balanced (calls ++ [.release o]) := by
  intro k p
  have hle := h k p
  by_cases hk : k ≤ calls.length
  · rwa [List.take_append_of_le_length hk]
  · have hall := h calls.length p
    rw [List.take_length] at hall
    rw [List.take_of_length_le (by simp; omega), List.count_append, List.count_append]
    have hzero : List.count (Call.addref p) [Call.release o] = 0 := by simp
    rw [balance] at ho
    by_cases hp : p = o
    · rw [hp] at hzero hall ⊢
      rw [List.count_singleton_self, hzero]
      omega
    · have hzero' : List.count (Call.release p) [Call.release o] = 0 := by
        simp [Ne.symm hp]
      omega

theorem balance_addref (h : Balanced calls) (o : SQObject) :
    balance (calls ++ [.addref o]) = Function.update (balance calls) o (balance calls o + 1) := by
  funext p
  by_cases hp : p = o
  · have hle := h.count_le o
    rw [hp, Function.update_self]
    simp only [balance, List.count_append, List.count_singleton_self, List.count_singleton]
    rw [if_neg (by simp)]
    omega
  · rw [Function.update_of_ne hp]
    have hne : o ≠ p := Ne.symm hp
    simp [balance, hne]

theorem balance_release (calls : List Call) (o : SQObject) :
    balance (calls ++ [.release o]) = Function.update (balance calls) o (balance calls o - 1) := by
  funext p
  by_cases hp : p = o
  · rw [hp, Function.update_self]
    simp only [balance, List.count_append, List.count_singleton_self, List.count_singleton]
    rw [if_neg (by simp)]
    omega
  · rw [Function.update_of_ne hp]
    have hne : o ≠ p := Ne.symm hp
    simp [balance, hne]

/-- Counts are about reference counted objects only. -/
theorem Holds.congr {m' : SQObject → Nat} (h : Holds hash t m) (heq : ∀ p, Counted p → m' p = m p) :
    Holds hash t m' := by
  obtain ⟨free, chain, hs, hc⟩ := h
  refine ⟨free, chain, hs, fun i hi hne => ?_, fun p hp hpos => ?_⟩
  · obtain ⟨ho, hpos, hrefs⟩ := hc.held i hi hne
    rw [heq _ ho]
    exact ⟨ho, hpos, hrefs⟩
  · exact hc.unique p hp (heq p hp ▸ hpos)

theorem update_of_not_counted (ho : ¬ Counted o) (n : Nat) (p : SQObject) (hp : Counted p) :
    Function.update m o n p = m p := by
  refine Function.update_of_ne ?_ ..
  rintro rfl
  exact ho hp

/-- One call keeps the table counting balances. -/
theorem apply_spec (h : Holds hash t (balance calls)) (hb : Balanced (calls ++ [c])) :
    ∃ t', apply hash t c = .ok t' ∧ Holds hash t' (balance (calls ++ [c])) := by
  cases c with
  | addref o =>
    rw [balance_addref hb.prefix]
    by_cases ho : Counted o
    · obtain ⟨t', hrun, hholds⟩ := addRef_spec h ho
      exact ⟨t', (if_pos ho).trans hrun, hholds⟩
    · exact ⟨t, if_neg ho, h.congr (update_of_not_counted ho _)⟩
  | release o =>
    rw [balance_release]
    by_cases ho : Counted o
    · obtain ⟨t', hrun, hholds⟩ := release_spec h ho hb.pos
      refine ⟨t', ?_, hholds⟩
      have hcall : sqRelease hash t o = t.release hash o := if_pos ho
      rw [apply, hcall, hrun]
      rfl
    · refine ⟨t, ?_, h.congr (update_of_not_counted ho _)⟩
      have hcall : sqRelease hash t o = .ok (t, true) := if_neg ho
      rw [apply, hcall]
      rfl

/-- Every balanced sequence of calls runs through. -/
theorem run_spec (hash : SQObject → Nat) (h : Balanced calls) :
    ∃ t, run hash calls = .ok t ∧ Holds hash t (balance calls) := by
  induction calls using List.reverseRecOn with
  | nil => exact ⟨init, rfl, (holds_init hash).congr fun _ _ => rfl⟩
  | append_singleton calls c ih =>
    obtain ⟨t, hrun, hholds⟩ := ih h.prefix
    obtain ⟨t', hstep, hholds'⟩ := apply_spec hholds h
    refine ⟨t', ?_, hholds'⟩
    rw [run] at hrun ⊢
    rw [List.foldlM_append, hrun]
    exact congrArg (· >>= pure) hstep

/-- The table counts exactly for the objects that have a reference count. For the others a call
does nothing, and a release always answers true. -/
theorem countsExactly (hash : SQObject → Nat) (calls : List Call) (h : Balanced calls) :
    CountsExactly hash Counted calls ∧
      ∀ t o, ¬ Counted o → sqAddref hash t o = .ok t ∧ sqRelease hash t o = .ok (t, true) := by
  obtain ⟨t, hrun, hholds⟩ := run_spec hash h
  have hall := hholds
  obtain ⟨free, chain, hs, hc⟩ := hholds
  refine ⟨⟨t, hrun, hc, ⟨free, chain, hs.toPartition⟩, fun o ho hb => ?_, fun hfull => ?_⟩,
    fun t o ho => ⟨if_neg ho, if_neg ho⟩⟩
  · obtain ⟨t', hrelease, -⟩ := release_spec hall ho hb.pos
    refine ⟨t', _, (if_pos ho).trans hrelease, ?_⟩
    have hpos := hb.pos
    rw [balance_release, Function.update_self, decide_eq_true_iff]
    omega
  · have hused := hs.used
    have hpos := hs.positive
    obtain rfl : free = [] := by
      rw [← List.length_eq_zero_iff]
      omega
    obtain ⟨t', n, free', chain', hresize, -, hc'⟩ :=
      resize_spec hs hc (t.numofslots * 2) (by omega)
    exact ⟨t', hresize, hc'⟩

/-- A string added twice and released once, between calls on another string. -/
theorem countsExactly_strings :
    CountsExactly (fun _ => 0) Counted
      [.addref (.ofString 16), .addref (.ofString 32), .addref (.ofString 16),
        .release (.ofString 16)] :=
  (countsExactly (fun _ => 0) _ (by
    intro k o
    rcases k with _ | _ | _ | _ | k
    all_goals simp [List.count_cons])).1

/-- An integer never enters the table. -/
theorem not_countsExactly :
    ¬ ∀ (hash : SQObject → Nat) (calls : List Call), Balanced calls →
      CountsExactly hash (fun _ => True) calls := by
  intro hall
  obtain ⟨t, hrun, hc, -⟩ := hall (fun _ => 0) [.addref (.ofInteger 7)] (by
    intro k o
    rcases k with _ | k
    all_goals simp)
  obtain rfl : init = t := Except.ok.inj hrun
  obtain ⟨i, ⟨-, hobj⟩, -⟩ := hc.unique (.ofInteger 7) trivial (by decide)
  have hblank : (init.nodes i).obj = .ofNull := rfl
  rw [hblank] at hobj
  exact absurd hobj (by decide)

end Calls

end Sqnim.Refs.Balances
