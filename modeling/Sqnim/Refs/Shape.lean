import Sqnim.Refs.RefTable

/-!
# The shape of the reference table

The free list and the bucket chains partition the slots, each chain holds the
objects that hash to it, and no object is held twice. `Add` and the release of a
node keep this, and each says which slot it fills or empties.
-/
namespace Sqnim.Refs

open Sqnim.Lib.LinkedList
open Sqnim.Object
open SQObjectType
open RefTable

variable {hash : SQObject → Nat} {t t' : RefTable} {free : List Nat} {chain : Nat → List Nat}

/-- The slots, listed along the free list and then along the chain of each bucket. -/
def slots (n : Nat) (free : List Nat) (chain : Nat → List Nat) : List Nat :=
  free ++ (List.range n).flatMap chain

/-- The free list and the bucket chains partition the slots. -/
structure Partition (t : RefTable) (free : List Nat) (chain : Nat → List Nat) : Prop where
  freeLinked : Linked t.links t.freelist free
  chainLinked : ∀ b < t.numofslots, Linked t.links (t.buckets b) (chain b)
  covers : (slots t.numofslots free chain).Perm (List.range t.numofslots)

structure Shape (hash : SQObject → Nat) (t : RefTable) (free : List Nat)
    (chain : Nat → List Nat) : Prop extends Partition t free chain where
  positive : 0 < t.numofslots
  blank : ∀ i ∈ free, (t.nodes i).obj = .ofNull ∧ (t.nodes i).refs = 0
  placed : ∀ b < t.numofslots, ∀ i ∈ chain b, t.mainPosition hash (t.nodes i).obj = b
  counted : ∀ b < t.numofslots, ∀ i ∈ chain b, (t.nodes i).obj.type.isRefCounted = true
  distinct : ∀ i < t.numofslots, ∀ j < t.numofslots, (t.nodes i).obj.type.isRefCounted = true →
    (t.nodes i).obj = (t.nodes j).obj → i = j
  used : t.slotused + free.length = t.numofslots

namespace Shape

theorem mem_slots_iff {n i : Nat} : i ∈ slots n free chain ↔ i ∈ free ∨ ∃ b < n, i ∈ chain b := by
  simp [slots]

theorem lt_iff (h : Shape hash t free chain) {i : Nat} :
    i < t.numofslots ↔ i ∈ free ∨ ∃ b < t.numofslots, i ∈ chain b := by
  rw [← mem_slots_iff, h.covers.mem_iff, List.mem_range]

theorem mainPosition_lt (h : Shape hash t free chain) (o : SQObject) :
    t.mainPosition hash o < t.numofslots := by
  have hle : t.mainPosition hash o ≤ t.numofslots - 1 := Nat.and_le_right
  have hpos := h.positive
  omega

theorem slots_nodup (h : Shape hash t free chain) : (slots t.numofslots free chain).Nodup :=
  h.covers.nodup_iff.mpr List.nodup_range

theorem free_nodup (h : Shape hash t free chain) : free.Nodup :=
  (List.nodup_append.mp h.slots_nodup).1

theorem chain_nodup (h : Shape hash t free chain) {b : Nat} (hb : b < t.numofslots) :
    (chain b).Nodup := by
  have hchains := (List.nodup_append.mp h.slots_nodup).2.1
  exact (List.nodup_flatMap.mp hchains).1 b (List.mem_range.mpr hb)

theorem free_disjoint (h : Shape hash t free chain) {b i : Nat} (hb : b < t.numofslots)
    (hi : i ∈ chain b) : i ∉ free := by
  intro hfree
  have hne := (List.nodup_append.mp h.slots_nodup).2.2 i hfree i
    (List.mem_flatMap.mpr ⟨b, List.mem_range.mpr hb, hi⟩)
  exact hne rfl

/-- A slot on a chain is on that of its own main position. -/
theorem chain_eq (h : Shape hash t free chain) {b c i : Nat} (hb : b < t.numofslots)
    (hc : c < t.numofslots) (hi : i ∈ chain b) (hi' : i ∈ chain c) : b = c := by
  rw [← h.placed b hb i hi, h.placed c hc i hi']

theorem not_counted_of_free (h : Shape hash t free chain) {i : Nat} (hi : i ∈ free) :
    (t.nodes i).obj.type.isRefCounted = false := by
  rw [(h.blank i hi).1]
  exact isRefCounted_otNull

theorem notMem_free (h : Shape hash t free chain) {i : Nat}
    (hi : (t.nodes i).obj.type.isRefCounted = true) : i ∉ free := by
  intro hfree
  rw [h.not_counted_of_free hfree] at hi
  cases hi

/-- The objects that the table holds are on the chains of their main positions. -/
theorem mem_chain (h : Shape hash t free chain) {i : Nat} (hi : i < t.numofslots)
    (hc : (t.nodes i).obj.type.isRefCounted = true) :
    i ∈ chain (t.mainPosition hash (t.nodes i).obj) := by
  rcases h.lt_iff.mp hi with hfree | ⟨b, hb, hmem⟩
  · exact absurd hfree (h.notMem_free hc)
  · rw [h.placed b hb i hmem]
    exact hmem

theorem chain_length (h : Shape hash t free chain) {b : Nat} (hb : b < t.numofslots) :
    (chain b).length < t.numofslots + 1 := by
  have hsub : chain b ⊆ List.range t.numofslots := by
    intro i hi
    exact List.mem_range.mpr (h.lt_iff.mpr (.inr ⟨b, hb, hi⟩))
  have hle := ((h.chain_nodup hb).subperm hsub).length_le
  rw [List.length_range] at hle
  omega

theorem free_lt (h : Shape hash t free chain) {i : Nat} (hi : i < t.numofslots) (hni : i ∉ free) :
    free.length < t.numofslots := by
  have hsub : i :: free ⊆ List.range t.numofslots := by
    intro j hj
    rcases List.mem_cons.mp hj with rfl | hj
    · exact List.mem_range.mpr hi
    · exact List.mem_range.mpr (h.lt_iff.mpr (.inl hj))
  have hle := ((List.nodup_cons.mpr ⟨hni, h.free_nodup⟩).subperm hsub).length_le
  rwa [List.length_range] at hle

end Shape

/-- A fresh table is one free list. -/
theorem linked_range (size k : Nat) (hk : k < size) (t : RefTable)
    (hlinks : ∀ i < size, t.links i = if i + 1 < size then some (i + 1) else none) :
    Linked t.links (some k) (List.range' k (size - k)) := by
  induction hd : size - k generalizing k with
  | zero => omega
  | succ d ih =>
    refine ⟨rfl, ?_⟩
    rw [hlinks k hk]
    by_cases hlast : k + 1 < size
    · rw [if_pos hlast]
      exact ih (k + 1) hlast (by omega)
    · obtain rfl : d = 0 := by omega
      rw [if_neg hlast]
      rfl

theorem shape_allocNodes (hash : SQObject → Nat) {size : Nat} (hsize : 0 < size) :
    Shape hash (allocNodes size) (List.range size) (fun _ => []) where
  freeLinked := by
    have hlinked := linked_range size 0 hsize (allocNodes size) (fun i _ => rfl)
    rwa [Nat.sub_zero, ← List.range_eq_range'] at hlinked
  chainLinked _ _ := rfl
  covers := by
    have hnil : (List.range size).flatMap (fun _ => ([] : List Nat)) = [] :=
      List.flatMap_eq_nil_iff.mpr fun _ _ => rfl
    rw [slots, show (allocNodes size).numofslots = size from rfl, hnil, List.append_nil]
  positive := hsize
  blank _ _ := ⟨rfl, rfl⟩
  placed _ _ i hi := absurd hi List.not_mem_nil
  counted _ _ i hi := absurd hi List.not_mem_nil
  distinct i _ j _ hc _ := by
    rw [show ((allocNodes size).nodes i).obj = .ofNull from rfl] at hc
    cases hc
  used := by simp [allocNodes]

section Modify

@[simp] theorem modify_numofslots (t : RefTable) (i : Nat) (f : RefNode → RefNode) :
    (t.modify i f).numofslots = t.numofslots := rfl

@[simp] theorem modify_freelist (t : RefTable) (i : Nat) (f : RefNode → RefNode) :
    (t.modify i f).freelist = t.freelist := rfl

@[simp] theorem modify_buckets (t : RefTable) (i : Nat) (f : RefNode → RefNode) :
    (t.modify i f).buckets = t.buckets := rfl

@[simp] theorem modify_slotused (t : RefTable) (i : Nat) (f : RefNode → RefNode) :
    (t.modify i f).slotused = t.slotused := rfl

@[simp] theorem modify_mainPosition (t : RefTable) (i : Nat) (f : RefNode → RefNode) :
    (t.modify i f).mainPosition hash = t.mainPosition hash := rfl

theorem modify_self (t : RefTable) (i : Nat) (f : RefNode → RefNode) :
    (t.modify i f).nodes i = f (t.nodes i) := Function.update_self ..

theorem modify_of_ne (t : RefTable) {i j : Nat} (f : RefNode → RefNode) (hij : j ≠ i) :
    (t.modify i f).nodes j = t.nodes j := Function.update_of_ne hij ..

theorem modify_links (t : RefTable) (i : Nat) (f : RefNode → RefNode) :
    (t.modify i f).links = Function.update t.links i (f (t.nodes i)).next := by
  funext j
  by_cases hij : j = i
  · rw [hij, Function.update_self, links, modify_self]
  · rw [Function.update_of_ne hij, links, modify_of_ne t f hij]
    rfl

/-- A new count leaves the object and the link of the node. -/
theorem modify_refs_obj (t : RefTable) (i j : Nat) (g : Nat → Nat) :
    ((t.modify i fun node => { node with refs := g node.refs }).nodes j).obj = (t.nodes j).obj := by
  by_cases hij : j = i
  · rw [hij, modify_self]
  · rw [modify_of_ne t _ hij]

theorem modify_refs_links (t : RefTable) (i : Nat) (g : Nat → Nat) :
    (t.modify i fun node => { node with refs := g node.refs }).links = t.links := by
  rw [modify_links]
  exact Function.update_eq_self i t.links

theorem Shape.modify_refs (h : Shape hash t free chain) {i : Nat} (hi : i ∉ free) (g : Nat → Nat) :
    Shape hash (t.modify i fun node => { node with refs := g node.refs }) free chain where
  freeLinked := by rw [modify_refs_links]; exact h.freeLinked
  chainLinked := by rw [modify_refs_links]; exact h.chainLinked
  covers := h.covers
  positive := h.positive
  blank j hj := by
    have hji : j ≠ i := by
      rintro rfl
      exact hi hj
    rw [modify_of_ne t _ hji]
    exact h.blank j hj
  placed b hb j hj := by
    rw [modify_refs_obj]
    exact h.placed b hb j hj
  counted b hb j hj := by
    rw [modify_refs_obj]
    exact h.counted b hb j hj
  distinct j hj k hk := by
    rw [modify_refs_obj, modify_refs_obj]
    exact h.distinct j hj k hk
  used := h.used

end Modify

/-- No slot holds the object. -/
def Absent (t : RefTable) (o : SQObject) : Prop := ∀ i < t.numofslots, (t.nodes i).obj ≠ o

section Add

/-- What `Add` does to the table: slot `i` leaves the free list for the chain of the object. -/
structure Added (t t' : RefTable) (i : Nat) (o : SQObject) : Prop where
  size : t'.numofslots = t.numofslots
  slot : i < t.numofslots
  wasBlank : (t.nodes i).obj = .ofNull
  obj : (t'.nodes i).obj = o
  refs : (t'.nodes i).refs = 0
  others : ∀ j ≠ i, (t'.nodes j).obj = (t.nodes j).obj ∧ (t'.nodes j).refs = (t.nodes j).refs

theorem fill_self (t : RefTable) (mp i : Nat) (o : SQObject) :
    (t.fill mp i o).nodes i = { t.nodes i with obj := o, next := t.buckets mp } :=
  Function.update_self ..

theorem fill_of_ne (t : RefTable) (mp : Nat) {i j : Nat} (o : SQObject) (hij : j ≠ i) :
    (t.fill mp i o).nodes j = t.nodes j := Function.update_of_ne hij ..

theorem fill_links (t : RefTable) (mp i : Nat) (o : SQObject) :
    (t.fill mp i o).links = Function.update t.links i (t.buckets mp) := by
  funext j
  by_cases hij : j = i
  · rw [hij, Function.update_self, links, fill_self]
  · rw [Function.update_of_ne hij, links, fill_of_ne t mp o hij]
    rfl

theorem added_fill {i : Nat} (h : Shape hash t (i :: free) chain) (mp : Nat) (o : SQObject) :
    Added t (t.fill mp i o) i o where
  size := rfl
  slot := h.lt_iff.mpr (.inl (List.mem_cons_self ..))
  wasBlank := (h.blank i (List.mem_cons_self ..)).1
  obj := by rw [fill_self]
  refs := by
    rw [fill_self]
    exact (h.blank i (List.mem_cons_self ..)).2
  others j hj := by
    rw [fill_of_ne t mp o hj]
    exact ⟨rfl, rfl⟩

theorem partition_fill {i : Nat} (h : Shape hash t (i :: free) chain) {mp : Nat}
    (hmp : mp < t.numofslots) (o : SQObject) :
    Partition (t.fill mp i o) free (Function.update chain mp (i :: chain mp)) := by
  have hifree : i ∉ free := (List.nodup_cons.mp h.free_nodup).1
  have hichain : ∀ b < t.numofslots, i ∉ chain b := by
    intro b hb hmem
    exact h.free_disjoint hb hmem (List.mem_cons_self ..)
  constructor
  · rw [fill_links]
    exact h.freeLinked.tail.update_of_notMem hifree _
  · intro b hb
    rw [fill_links]
    by_cases hbm : b = mp
    · rw [hbm, Function.update_self]
      have hbucket : (t.fill mp i o).buckets mp = some i := Function.update_self ..
      rw [hbucket]
      exact (h.chainLinked mp hmp).push (hichain mp hmp)
    · rw [Function.update_of_ne hbm]
      have hbucket : (t.fill mp i o).buckets b = t.buckets b := Function.update_of_ne hbm ..
      rw [hbucket]
      exact (h.chainLinked b hb).update_of_notMem (hichain b hb) _
  · have hperm := perm_flatMap_update List.nodup_range (List.mem_range.mpr hmp) chain
      (List.Perm.refl (i :: chain mp))
    exact ((hperm.append_left free).trans List.perm_middle).trans h.covers

theorem mem_push_iff {i j mp b : Nat} :
    j ∈ Function.update chain mp (i :: chain mp) b ↔ (b = mp ∧ j = i) ∨ j ∈ chain b := by
  by_cases hb : b = mp
  · rw [hb, Function.update_self, List.mem_cons]
    simp
  · rw [Function.update_of_ne hb]
    simp [hb]

theorem shape_fill {i : Nat} (h : Shape hash t (i :: free) chain) {o : SQObject}
    (ho : o.type.isRefCounted = true) (habs : Absent t o) :
    Shape hash (t.fill (t.mainPosition hash o) i o) free
      (Function.update chain (t.mainPosition hash o) (i :: chain (t.mainPosition hash o))) := by
  have hadd := added_fill h (t.mainPosition hash o) o
  have hold : ∀ b < t.numofslots, ∀ j ∈ chain b, j ≠ i := by
    rintro b hb j hj rfl
    exact h.free_disjoint hb hj (List.mem_cons_self ..)
  refine ⟨partition_fill h (h.mainPosition_lt o) o, h.positive, ?_, ?_, ?_, ?_, ?_⟩
  · intro j hj
    have hji : j ≠ i := by
      rintro rfl
      exact (List.nodup_cons.mp h.free_nodup).1 hj
    rw [(hadd.others j hji).1, (hadd.others j hji).2]
    exact h.blank j (List.mem_cons_of_mem i hj)
  · intro b hb j hj
    rcases mem_push_iff.mp hj with ⟨rfl, rfl⟩ | hj
    · rw [hadd.obj]
      rfl
    · rw [(hadd.others j (hold b hb j hj)).1]
      exact h.placed b hb j hj
  · intro b hb j hj
    rcases mem_push_iff.mp hj with ⟨rfl, rfl⟩ | hj
    · rw [hadd.obj]
      exact ho
    · rw [(hadd.others j (hold b hb j hj)).1]
      exact h.counted b hb j hj
  · intro j hj k hk hc heq
    by_cases hji : j = i
    · by_cases hki : k = i
      · rw [hji, hki]
      · rw [hji, hadd.obj, (hadd.others k hki).1] at heq
        exact absurd heq.symm (habs k hk)
    · rw [(hadd.others j hji).1] at hc heq
      by_cases hki : k = i
      · rw [hki, hadd.obj] at heq
        exact absurd heq (habs j hj)
      · rw [(hadd.others k hki).1] at heq
        exact h.distinct j hj k hk hc heq
  · have hused := h.used
    rw [List.length_cons] at hused
    show t.slotused + 1 + free.length = t.numofslots
    omega

theorem add_spec {i : Nat} (h : Shape hash t (i :: free) chain) (mp : Nat) (o : SQObject) :
    t.add mp o = .ok (t.fill mp i o, i) := by
  rw [add, h.freeLinked.1]
  exact if_pos (h.blank i (List.mem_cons_self ..)).2

end Add

section Free

/-- What the release of the last reference does: slot `i` is blank again. -/
structure Freed (t t' : RefTable) (i : Nat) : Prop where
  size : t'.numofslots = t.numofslots
  obj : (t'.nodes i).obj = .ofNull
  others : ∀ j ≠ i, (t'.nodes j).obj = (t.nodes j).obj ∧ (t'.nodes j).refs = (t.nodes j).refs

/-- The table once the predecessor of `i` skips it. -/
def unlinked (t : RefTable) (i mp : Nat) : Option Nat → RefTable
  | some p => t.modify p ({ · with next := (t.nodes i).next })
  | none => { t with buckets := Function.update t.buckets mp (t.nodes i).next }

theorem freeNode_nodes (t : RefTable) (i mp : Nat) (prev : Option Nat) :
    (t.freeNode i mp prev).nodes = ((unlinked t i mp prev).modify i
      ({ · with next := (unlinked t i mp prev).freelist, obj := .ofNull })).nodes := by
  cases prev <;> rfl

theorem unlinked_node (t : RefTable) (i mp j : Nat) (prev : Option Nat) :
    ((unlinked t i mp prev).nodes j).obj = (t.nodes j).obj ∧
      ((unlinked t i mp prev).nodes j).refs = (t.nodes j).refs := by
  cases prev with
  | none => exact ⟨rfl, rfl⟩
  | some p =>
    by_cases hj : j = p
    · rw [unlinked, hj, modify_self]
      exact ⟨rfl, rfl⟩
    · rw [unlinked, modify_of_ne t _ hj]
      exact ⟨rfl, rfl⟩

theorem freed_freeNode (t : RefTable) (i mp : Nat) (prev : Option Nat) :
    Freed t (t.freeNode i mp prev) i where
  size := by cases prev <;> rfl
  obj := by
    rw [freeNode_nodes, modify_self]
  others j hj := by
    rw [freeNode_nodes, modify_of_ne (unlinked t i mp prev) _ hj]
    exact unlinked_node t i mp j prev

/-- How a chain goes through slot `i`, with the predecessor that the walk finds. -/
structure Through (chain : List Nat) (prev : Option Nat) (i : Nat) (rest : List Nat) : Prop where
  split : ∃ l₁ l₂, chain = l₁ ++ i :: l₂ ∧ prev = l₁.getLast? ∧ rest = l₁ ++ l₂

theorem Through.perm {l rest : List Nat} {prev : Option Nat} {i : Nat}
    (h : Through l prev i rest) : l.Perm (i :: rest) := by
  obtain ⟨l₁, l₂, rfl, -, rfl⟩ := h.split
  exact List.perm_middle

variable {i mp : Nat} {prev : Option Nat} {rest : List Nat}

theorem linked_unlinked (h : Shape hash t free chain) (hmp : mp < t.numofslots)
    (hi : Through (chain mp) prev i rest) :
    Linked (unlinked t i mp prev).links (unlinked t i mp prev).freelist free ∧
      ∀ b < t.numofslots, Linked (unlinked t i mp prev).links ((unlinked t i mp prev).buckets b)
        (Function.update chain mp rest b) := by
  obtain ⟨l₁, l₂, hchain, hprev, rfl⟩ := hi.split
  have hlinked := h.chainLinked mp hmp
  have hnodup := h.chain_nodup hmp
  rw [hchain] at hlinked hnodup
  rcases List.eq_nil_or_concat l₁ with rfl | ⟨l, p, rfl⟩
  · obtain rfl : prev = none := hprev
    refine ⟨h.freeLinked, fun b hb => ?_⟩
    show Linked t.links (Function.update t.buckets mp (t.links i) b) _
    by_cases hbm : b = mp
    · rw [hbm, Function.update_self, Function.update_self]
      exact hlinked.tail
    · rw [Function.update_of_ne hbm, Function.update_of_ne hbm]
      exact h.chainLinked b hb
  · rw [List.concat_eq_append] at hchain hprev hlinked hnodup ⊢
    obtain rfl : prev = some p := by rw [hprev, List.getLast?_concat]
    rw [List.append_assoc, List.singleton_append] at hchain hlinked hnodup ⊢
    have hp : p ∈ chain mp := by
      rw [hchain]
      simp
    rw [unlinked, modify_links]
    refine ⟨h.freeLinked.update_of_notMem (h.free_disjoint hmp hp) _, fun b hb => ?_⟩
    by_cases hbm : b = mp
    · rw [hbm, Function.update_self]
      exact hlinked.unlink hnodup
    · rw [Function.update_of_ne hbm]
      refine (h.chainLinked b hb).update_of_notMem (fun hpb => ?_) _
      exact hbm (h.chain_eq hb hmp hpb hp)

theorem Through.mem_rest {l : List Nat} (h : Through l prev i rest) (hnodup : l.Nodup) {j : Nat} :
    j ∈ rest ↔ j ∈ l ∧ j ≠ i := by
  have hni : i ∉ rest := (List.nodup_cons.mp (h.perm.nodup_iff.mp hnodup)).1
  rw [h.perm.mem_iff, List.mem_cons]
  constructor
  · intro hj
    refine ⟨.inr hj, ?_⟩
    rintro rfl
    exact hni hj
  · rintro ⟨rfl | hj, hne⟩
    · exact absurd rfl hne
    · exact hj

/-- Once the node is off its chain, the other chains are as before. -/
theorem mem_rest_iff (h : Shape hash t free chain) (hmp : mp < t.numofslots)
    (hi : Through (chain mp) prev i rest) {b : Nat} (hb : b < t.numofslots) {j : Nat} :
    j ∈ Function.update chain mp rest b ↔ j ∈ chain b ∧ j ≠ i := by
  by_cases hbm : b = mp
  · rw [hbm, Function.update_self, hi.mem_rest (h.chain_nodup hmp)]
  · have himem : i ∈ chain mp := hi.perm.mem_iff.mpr (List.mem_cons_self ..)
    rw [Function.update_of_ne hbm]
    refine ⟨fun hj => ⟨hj, ?_⟩, fun hj => hj.1⟩
    rintro rfl
    exact hbm (h.chain_eq hb hmp hj himem)

theorem partition_freeNode (h : Shape hash t free chain) (hmp : mp < t.numofslots)
    (hi : Through (chain mp) prev i rest) :
    Partition (t.freeNode i mp prev) (i :: free) (Function.update chain mp rest) := by
  have himem : i ∈ chain mp := hi.perm.mem_iff.mpr (List.mem_cons_self ..)
  obtain ⟨hfree, hchains⟩ := linked_unlinked h hmp hi
  have hlinks : (t.freeNode i mp prev).links =
      Function.update (unlinked t i mp prev).links i (unlinked t i mp prev).freelist := by
    funext j
    rw [links, freeNode_nodes]
    exact congrFun (modify_links (unlinked t i mp prev) i _) j
  have hbuckets : (t.freeNode i mp prev).buckets = (unlinked t i mp prev).buckets := by
    cases prev <;> rfl
  have hsize : (t.freeNode i mp prev).numofslots = t.numofslots :=
    (freed_freeNode t i mp prev).size
  constructor
  · rw [hlinks]
    exact hfree.push (h.free_disjoint hmp himem)
  · intro b hb
    rw [hsize] at hb
    rw [hlinks, hbuckets]
    refine (hchains b hb).update_of_notMem (fun hib => ?_) _
    exact ((mem_rest_iff h hmp hi hb).mp hib).2 rfl
  · rw [hsize]
    have hback : chain = Function.update (Function.update chain mp rest) mp (chain mp) := by simp
    have hperm := perm_flatMap_update List.nodup_range (List.mem_range.mpr hmp)
      (Function.update chain mp rest) (l := chain mp) (x := i)
      (by rw [Function.update_self]; exact hi.perm)
    rw [← hback] at hperm
    exact ((List.perm_middle.symm.trans (hperm.symm.append_left free))).trans h.covers

theorem shape_freeNode (h : Shape hash t free chain) (hmp : mp < t.numofslots)
    (hi : Through (chain mp) prev i rest) (hrefs : (t.nodes i).refs = 0) :
    Shape hash (t.freeNode i mp prev) (i :: free) (Function.update chain mp rest) := by
  have hfreed := freed_freeNode t i mp prev
  have himem : i ∈ chain mp := hi.perm.mem_iff.mpr (List.mem_cons_self ..)
  have hpos : (t.freeNode i mp prev).mainPosition hash = t.mainPosition hash := by
    funext o
    rw [mainPosition, hfreed.size]
    rfl
  refine ⟨partition_freeNode h hmp hi, hfreed.size ▸ h.positive, ?_, ?_, ?_, ?_, ?_⟩
  · intro j hj
    by_cases hji : j = i
    · rw [hji, hfreed.obj]
      refine ⟨rfl, ?_⟩
      rw [freeNode_nodes, modify_self]
      exact (unlinked_node t i mp i prev).2.trans hrefs
    · rw [(hfreed.others j hji).1, (hfreed.others j hji).2]
      exact h.blank j ((List.mem_cons.mp hj).resolve_left hji)
  · intro b hb j hj
    rw [hfreed.size] at hb
    obtain ⟨hj, hji⟩ := (mem_rest_iff h hmp hi hb).mp hj
    rw [hpos, (hfreed.others j hji).1]
    exact h.placed b hb j hj
  · intro b hb j hj
    rw [hfreed.size] at hb
    obtain ⟨hj, hji⟩ := (mem_rest_iff h hmp hi hb).mp hj
    rw [(hfreed.others j hji).1]
    exact h.counted b hb j hj
  · intro j hj k hk hc heq
    rw [hfreed.size] at hj hk
    by_cases hji : j = i
    · rw [hji, hfreed.obj, SQObject.ofNull, isRefCounted_otNull] at hc
      cases hc
    · by_cases hki : k = i
      · rw [heq, hki, hfreed.obj, SQObject.ofNull, isRefCounted_otNull] at hc
        cases hc
      · rw [(hfreed.others j hji).1] at hc heq
        rw [(hfreed.others k hki).1] at heq
        exact h.distinct j hj k hk hc heq
  · have hused := h.used
    have hslots : (t.freeNode i mp prev).slotused = t.slotused - 1 := by
      cases prev <;> rfl
    have hlt := h.free_lt (h.lt_iff.mpr (.inr ⟨mp, hmp, himem⟩)) (h.free_disjoint hmp himem)
    rw [hfreed.size, hslots, List.length_cons]
    omega

end Free

end Sqnim.Refs
