import Sqnim.Table.Rehash

/-!
# The operations of a table

Each operation returns, keeps the invariant, and does to the contents what the
same operation does to a finite map. Iteration lists the occupied nodes in the
order of their indices.
-/
namespace Sqnim.Table

open Sqnim.Lib.Chain

variable {K V : Type} {env : Env K V}

namespace SQTable

section Create

theorem pow2Size_spec {want : Int} {fuel p : Nat} (h : want < (2 ^ (p + 2) : Nat) + fuel)
    (hf : 0 < fuel) : ∃ q, pow2Size want fuel (2 ^ (p + 2)) = .ok (2 ^ (q + 2)) := by
  induction fuel generalizing p with
  | zero => omega
  | succ fuel ih =>
    rw [pow2Size]
    split_ifs with hw
    · have hpow : 2 * 2 ^ (p + 2) = 2 ^ (p + 1 + 2) := by ring
      rw [hpow]
      have hpos := Nat.two_pow_pos (p + 2)
      exact ih (by omega) (by omega)
    · exact ⟨p, rfl⟩

/-- `Create` returns an empty table, whatever size it is asked for. -/
theorem create_spec (env : Env K V) (n : Int) :
    ∃ t, create env n = .ok t ∧ WellFormed env t ∧ t.Contents fun _ => none := by
  have hlt : n < (2 ^ (0 + 2) : Nat) + ((n.toNat + 1 : Nat) : Int) := by
    have hpos := Nat.two_pow_pos (0 + 2)
    omega
  obtain ⟨q, hq⟩ := pow2Size_spec hlt (Nat.succ_pos _)
  have hq' : pow2Size n (n.toNat + 1) minPower2 = .ok (2 ^ (q + 2)) := hq
  let blank : SQTable K V := ⟨fun _ => ⟨env.null, none, none⟩, 0, 0, 0, none⟩
  refine ⟨fresh env blank (2 ^ (q + 2)), ?_, wellFormed_fresh blank, contents_fresh blank _⟩
  rw [create, hq']
  rfl

end Create

section Lookup

variable [DecidableEq K] {t : SQTable K V} (h : WellFormed env t) {m : K → Option V}
  (hm : t.Contents m) (k : K) (v : V)

omit [DecidableEq K] in
/-- A key of the map is at one node of the table. -/
theorem contents_some {t : SQTable K V} {m : K → Option V} (hm : t.Contents m) {k : K} {i : Nat}
    (hi : t.keyAt i = some k) : m k = some (t.valAt i) := (hm k _).mpr ⟨i, hi, rfl⟩

omit [DecidableEq K] in
theorem contents_none {t : SQTable K V} {m : K → Option V} (hm : t.Contents m) {k : K}
    (hk : ∀ i, t.keyAt i ≠ some k) : m k = none := by
  rw [Option.eq_none_iff_forall_ne_some]
  intro v hv
  obtain ⟨i, hi, -⟩ := (hm k v).mp hv
  exact hk i hi

include h hm

theorem WellFormed.get_spec : t.get env (some k) = .ok ((m k).map env.realval) := by
  by_cases hk : ∃ i, t.keyAt i = some k
  · obtain ⟨i, hi⟩ := hk
    have hg := h.getNode_present hi
    rw [main] at hg
    rw [contents_some hm hi]
    simp only [get, Option.isNone_some, Bool.false_eq_true, if_false, hg]
    rfl
  · have habsent : ∀ i, t.keyAt i ≠ some k := fun i hi => hk ⟨i, hi⟩
    have hg := h.getNode_absent habsent
    rw [main] at hg
    rw [contents_none hm habsent]
    simp only [get, Option.isNone_some, Bool.false_eq_true, if_false, hg]
    rfl

/-- `Set` changes the value of a key that is there, and tells whether it is. -/
theorem WellFormed.set_spec : ∃ t', t.set env (some k) v = .ok (t', (m k).isSome) ∧
    WellFormed env t' ∧ t'.delegate = t.delegate ∧
      t'.Contents (if (m k).isSome then Function.update m k (some v) else m) := by
  by_cases hk : ∃ i, t.keyAt i = some k
  · obtain ⟨i, hi⟩ := hk
    have hg := h.getNode_present hi
    rw [main] at hg
    rw [contents_some hm hi]
    refine ⟨_, ?_, h.setVal (i := i) v, rfl, contents_setVal v h.toChained hm hi⟩
    simp only [set, hg]
    rfl
  · have habsent : ∀ i, t.keyAt i ≠ some k := fun i hi => hk ⟨i, hi⟩
    have hg := h.getNode_absent habsent
    rw [main] at hg
    rw [contents_none hm habsent]
    refine ⟨t, ?_, h, rfl, hm⟩
    simp only [set, hg]
    rfl

theorem WellFormed.set_absent (hk : m k = none) : t.set env (some k) v = .ok (t, false) := by
  have hg := h.getNode_absent fun i hi => by
    rw [contents_some hm hi] at hk
    cases hk
  rw [main] at hg
  simp only [set, hg]
  rfl

end Lookup

section Remove

/-- The table after `Remove` has nulled a node, before it rehashes. -/
def dropNode (env : Env K V) (t : SQTable K V) (i : Nat) : SQTable K V :=
  { t.modify i (fun x => { x with val := env.null, key := none }) with usedNodes := t.usedNodes - 1 }

variable {t : SQTable K V} {i : Nat} {k : K}

theorem keyAt_dropNode (j : Nat) :
    (t.dropNode env i).keyAt j = if j = i then none else t.keyAt j :=
  keyAt_modify t i j fun x => { x with val := env.null, key := none }

theorem links_dropNode : (t.dropNode env i).links = t.links := by
  funext j
  change (t.modify i fun x => { x with val := env.null, key := none }).links j = t.links j
  rw [links_modify]
  split_ifs with hj
  · rw [hj]
    rfl
  · rfl

theorem valAt_dropNode {j : Nat} (hj : j ≠ i) : (t.dropNode env i).valAt j = t.valAt j := by
  change (t.modify i fun x => { x with val := env.null, key := none }).valAt j = t.valAt j
  rw [valAt_modify, if_neg hj]

theorem keyAt_of_dropNode {j : Nat} {k' : K} (h : (t.dropNode env i).keyAt j = some k') :
    j ≠ i ∧ t.keyAt j = some k' := by
  rw [keyAt_dropNode] at h
  split_ifs at h with hj
  exact ⟨hj, h⟩

/-- A dead node stays on its chain. -/
theorem WellFormed.dropNode (h : WellFormed env t) (hi : t.keyAt i = some k) :
    WellFormed env (t.dropNode env i) := by
  have hl : (t.dropNode env i).links = t.links := links_dropNode
  refine ⟨⟨h.size, ?_, hl ▸ h.chains, ?_, ?_, ?_, ?_⟩, h.firstFree_lt, ?_, ?_, ?_⟩
  · intro j hj
    rw [keyAt_dropNode, hl, (h.bounded j hj).1, ite_self]
    exact ⟨rfl, (h.bounded j hj).2⟩
  · intro j j' hj
    rw [hl] at hj
    exact h.link_lt hj
  · intro j k' hj
    rw [hl]
    exact h.reachable (keyAt_of_dropNode hj).2
  · intro j j' k' hj hj'
    exact h.unique (keyAt_of_dropNode hj).2 (keyAt_of_dropNode hj').2
  · intro j j' k₁ k₂ hj hne hj'
    exact h.displaced (keyAt_of_dropNode hj).2 hne (keyAt_of_dropNode hj').2
  · refine ⟨?_, (congrFun hl _).trans h.firstFree_free.2⟩
    rw [keyAt_dropNode]
    split_ifs
    · rfl
    · exact h.firstFree_free.1
  · intro j j' hj
    rw [hl] at hj
    exact h.above hj
  · have hmem : i ∈ t.occupied := by
      refine mem_occupied.mpr ⟨h.lt_of_key hi, ?_⟩
      rw [hi]
      nofun
    have herase : (t.dropNode env i).occupied = t.occupied.erase i := by
      ext j
      rw [Finset.mem_erase, mem_occupied, mem_occupied, keyAt_dropNode]
      by_cases hj : j = i
      · simp [hj]
      · rw [if_neg hj]
        exact ⟨fun he => ⟨hj, he⟩, And.right⟩
    have hcard := Finset.card_pos.mpr ⟨i, hmem⟩
    have hused := h.used
    rw [herase, Finset.card_erase_of_mem hmem]
    change t.usedNodes - 1 = _
    omega

theorem contents_dropNode [DecidableEq K] (h : WellFormed env t) {m : K → Option V}
    (hm : t.Contents m) (hi : t.keyAt i = some k) :
    (t.dropNode env i).Contents (Function.update m k none) := by
  intro k' v
  by_cases hkk : k' = k
  · subst hkk
    rw [Function.update_self]
    refine iff_of_false nofun ?_
    rintro ⟨j, hj, -⟩
    obtain ⟨hne, hj⟩ := keyAt_of_dropNode hj
    exact hne (h.unique hj hi)
  · rw [Function.update_of_ne hkk, hm]
    constructor
    · rintro ⟨j, hj, hv⟩
      have hne : j ≠ i := by
        rintro rfl
        rw [hi, Option.some.injEq] at hj
        exact hkk hj.symm
      refine ⟨j, ?_, ?_⟩
      · rw [keyAt_dropNode, if_neg hne, hj]
      · rw [valAt_dropNode hne, hv]
    · rintro ⟨j, hj, hv⟩
      obtain ⟨hne, hj⟩ := keyAt_of_dropNode hj
      rw [valAt_dropNode hne] at hv
      exact ⟨j, hj, hv⟩

variable [DecidableEq K]

theorem WellFormed.remove_spec (h : WellFormed env t) {m : K → Option V} (hm : t.Contents m) (k : K)
    (fuel : Nat) : ∃ t', t.remove env (fuel + 1) (some k) = .ok t' ∧ WellFormed env t' ∧
      t'.delegate = t.delegate ∧ t'.Contents (Function.update m k none) := by
  by_cases hk : ∃ i, t.keyAt i = some k
  · obtain ⟨i, hi⟩ := hk
    have hg := h.getNode_present hi
    rw [main] at hg
    have hwf := h.dropNode hi
    have hm' := contents_dropNode h hm hi
    have hstep : t.remove env (fuel + 1) (some k) =
        rehash env (newSlot env (fuel + 1)) (t.dropNode env i) false := by
      simp only [remove, hg]
      rfl
    cases hs : rehashSize (t.dropNode env i).numOfNodes (t.dropNode env i).usedNodes false with
    | none =>
      refine ⟨_, ?_, hwf, rfl, hm'⟩
      obtain ⟨p, hp⟩ := hwf.size
      have hfour : ¬ (t.dropNode env i).numOfNodes < 4 := by
        have hpow : 2 ^ (p + 2) = 4 * 2 ^ p := by ring
        have hpos := Nat.two_pow_pos p
        omega
      rw [hstep]
      simp only [rehash, if_neg hfour, hs]
    | some size =>
      obtain ⟨t', hr, hwf', hdel, hm''⟩ :=
        hwf.rehash_spec fuel hm' false (.inl hwf.used.symm) hs
      exact ⟨t', hstep.trans hr, hwf', hdel, hm''⟩
  · have habsent : ∀ i, t.keyAt i ≠ some k := fun i hi => hk ⟨i, hi⟩
    have hg := h.getNode_absent habsent
    rw [main] at hg
    refine ⟨t, ?_, h, rfl, ?_⟩
    · simp only [remove, hg]
      rfl
    · rwa [Function.update_eq_self_iff.mpr (contents_none hm habsent).symm]

/-- `Clear` nulls every node and allocates the nodes anew. -/
theorem WellFormed.clear_spec (h : WellFormed env t) (fuel : Nat) :
    ∃ t', t.clear env (fuel + 1) = .ok t' ∧ WellFormed env t' ∧ t'.delegate = t.delegate ∧
      t'.Contents fun _ => none := by
  set t₀ : SQTable K V := { t.clearNodes env with usedNodes := 0 } with ht₀
  have hkey : ∀ i, t₀.keyAt i = none := by
    intro i
    simp only [ht₀, keyAt, clearNodes]
    split_ifs with hi
    · rfl
    · exact (h.bounded i (not_lt.mp hi)).1
  have hlinks : t₀.links = t.links := by
    funext i
    simp only [ht₀, links, clearNodes]
    split_ifs <;> rfl
  have hnokey : ∀ {i k}, t₀.keyAt i ≠ some k := by
    intro i k hi
    rw [hkey] at hi
    cases hi
  have hch : Chained env t₀ := by
    refine ⟨h.size, fun i hi => ⟨hkey i, (congrFun hlinks i).trans (h.bounded i hi).2⟩,
      hlinks ▸ h.chains, ?_, fun hi => absurd hi hnokey, fun hi => absurd hi hnokey,
      fun hi => absurd hi hnokey⟩
    intro i j hij
    rw [hlinks] at hij
    exact h.link_lt hij
  have hm : t₀.Contents fun _ => none := by
    intro k v
    refine iff_of_false (Option.some_ne_none v).symm ?_
    rintro ⟨i, hi, -⟩
    exact hnokey hi
  have hocc : t₀.occupied = ∅ := by
    rw [Finset.eq_empty_iff_forall_notMem]
    intro i hi
    exact (mem_occupied.mp hi).2 (hkey i)
  have hused : (t₀.occupied.card : Int) = t₀.usedNodes := by
    rw [hocc]
    rfl
  obtain ⟨size, hs⟩ := rehashSize_force t₀.numOfNodes t₀.usedNodes
  exact hch.rehash_spec fuel hm true (.inl hused) hs

end Remove

end SQTable

end Sqnim.Table
