import Sqnim.Table.Model

/-!
# The invariant of a table

Every key is on the chain from its main position, and a key outside its main
position sits in a node that is no key's main position. Links point above the
free pointer, so the free node is on no chain.
-/
namespace Sqnim.Table

open Sqnim.Lib.Chain

variable {K V : Type} (env : Env K V)

namespace SQTable

def keyAt (t : SQTable K V) (i : Nat) : Option K := (t.nodes i).key

def valAt (t : SQTable K V) (i : Nat) : V := (t.nodes i).val

def main (t : SQTable K V) (k : K) : Nat := t.mainPosition env (some k)

/-- The nodes that hold a key. -/
def occupied (t : SQTable K V) : Finset Nat :=
  (Finset.range t.numOfNodes).filter fun i => t.keyAt i ≠ none

/-- The part of the invariant that placing a key keeps, before the free pointer is corrected. -/
structure Chained (t : SQTable K V) : Prop where
  size : ∃ p, t.numOfNodes = 2 ^ (p + 2)
  bounded : ∀ i, t.numOfNodes ≤ i → t.keyAt i = none ∧ t.links i = none
  chains : Chains t.links
  link_lt : ∀ {i j}, t.links i = some j → j < t.numOfNodes
  reachable : ∀ {i k}, t.keyAt i = some k → Reach t.links (t.main env k) i
  unique : ∀ {i j k}, t.keyAt i = some k → t.keyAt j = some k → i = j
  displaced : ∀ {i j k k'}, t.keyAt i = some k → t.main env k ≠ i → t.keyAt j = some k' →
    t.main env k' ≠ i

structure WellFormed (t : SQTable K V) : Prop extends Chained env t where
  firstFree_lt : t.firstFree < t.numOfNodes
  firstFree_free : t.keyAt t.firstFree = none ∧ t.links t.firstFree = none
  above : ∀ {i j}, t.links i = some j → t.firstFree < j
  used : t.usedNodes = t.occupied.card

/-- The finite map that a table stands for. -/
def Contents (t : SQTable K V) (m : K → Option V) : Prop :=
  ∀ k v, m k = some v ↔ ∃ i, t.keyAt i = some k ∧ t.valAt i = v

section Accessors

variable (t : SQTable K V) (i j : Nat) (f : HashNode K V → HashNode K V)

theorem nodes_modify : (t.modify i f).nodes j = if j = i then f (t.nodes i) else t.nodes j :=
  Function.update_apply ..

theorem keyAt_modify :
    (t.modify i f).keyAt j = if j = i then (f (t.nodes i)).key else t.keyAt j := by
  rw [keyAt, nodes_modify, apply_ite HashNode.key, keyAt]

theorem valAt_modify :
    (t.modify i f).valAt j = if j = i then (f (t.nodes i)).val else t.valAt j := by
  rw [valAt, nodes_modify, apply_ite HashNode.val, valAt]

theorem links_modify :
    (t.modify i f).links j = if j = i then (f (t.nodes i)).next else t.links j := by
  rw [links, nodes_modify, apply_ite HashNode.next, links]

end Accessors

theorem main_congr {t t' : SQTable K V} (h : t'.numOfNodes = t.numOfNodes) (k : K) :
    t'.main env k = t.main env k := by
  rw [main, main, mainPosition, mainPosition, h]

theorem mainPosition_lt {t : SQTable K V} (h : ∃ p, t.numOfNodes = 2 ^ (p + 2)) (key : Option K) :
    t.mainPosition env key < t.numOfNodes := by
  obtain ⟨p, hp⟩ := h
  rw [mainPosition, hp, Nat.and_two_pow_sub_one_eq_mod]
  exact Nat.mod_lt _ (Nat.two_pow_pos _)

theorem mem_occupied {t : SQTable K V} {i : Nat} :
    i ∈ t.occupied ↔ i < t.numOfNodes ∧ t.keyAt i ≠ none := by
  rw [occupied, Finset.mem_filter, Finset.mem_range]

section Lookup

variable {env} {t : SQTable K V} (h : Chained env t)
include h

theorem Chained.lt_of_key {i : Nat} {k : K} (hi : t.keyAt i = some k) : i < t.numOfNodes := by
  by_contra hlt
  rw [(h.bounded i (not_lt.mp hlt)).1] at hi
  cases hi

/-- A walk from a node of the table ends: at a node of the chain, or past its last link. -/
theorem Chained.search_spec (p : Nat → Bool) {i : Nat} (hi : i < t.numOfNodes) :
    (∃ j, search t.links p t.numOfNodes i = .at j ∧ Reach t.links i j ∧ p j = true) ∨
      (search t.links p t.numOfNodes i = .nowhere ∧ ∀ j, Reach t.links i j → p j = false) := by
  obtain ⟨rank, hrank, hlt⟩ := h.chains.bounded_rank (Finset.range t.numOfNodes)
    fun hij => Finset.mem_range.mpr (h.link_lt hij)
  refine Lib.Chain.search_spec p hrank ?_
  rw [← Finset.card_range t.numOfNodes]
  exact hlt i (Finset.mem_range.mpr hi)

variable [DecidableEq K]

theorem Chained.getNode_present {i : Nat} {k : K} (hi : t.keyAt i = some k) :
    t.getNode (some k) (t.main env k) = .ok (some i) := by
  rcases h.search_spec (fun i => (t.nodes i).key == some k) (mainPosition_lt env h.size (some k)) with
    ⟨j, hs, -, hj⟩ | ⟨-, hall⟩
  · have hij : j = i := h.unique (beq_iff_eq.mp hj) hi
    rw [getNode, main, hs, hij]
  · have hf := hall i (h.reachable hi)
    rw [← keyAt, hi, beq_self_eq_true] at hf
    cases hf

theorem Chained.getNode_absent {k : K} (hk : ∀ i, t.keyAt i ≠ some k) :
    t.getNode (some k) (t.main env k) = .ok none := by
  rcases h.search_spec (fun i => (t.nodes i).key == some k) (mainPosition_lt env h.size (some k)) with
    ⟨j, -, -, hj⟩ | ⟨hs, -⟩
  · exact absurd (beq_iff_eq.mp hj) (hk j)
  · rw [getNode, main, hs]

omit [DecidableEq K] in
/-- The node before `m` is found when the walk starts below `m` on its chain. -/
theorem Chained.predecessor_spec {i m : Nat} (hi : i < t.numOfNodes) (him : i ≠ m)
    (hr : Reach t.links i m) : ∃ p, t.predecessor i m = .ok p ∧ t.links p = some m := by
  rcases h.search_spec (fun i => t.links i == some m) hi with ⟨j, hs, -, hj⟩ | ⟨-, hall⟩
  · exact ⟨j, by rw [predecessor, hs], beq_iff_eq.mp hj⟩
  · rcases hr.cases_tail with rfl | ⟨c, hc, hcm⟩
    · exact absurd rfl him
    · have hf := hall c hc
      rw [hcm, beq_self_eq_true] at hf
      cases hf

end Lookup

end SQTable

end Sqnim.Table
