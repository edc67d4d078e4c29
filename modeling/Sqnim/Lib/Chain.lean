import Mathlib

/-!
# Chains of next links

A function `next` to an optional successor describes the links of a set of
nodes. Chains are acyclic when a rank decreases along every link. Two updates
keep them so: linking a free node behind another, and moving a node into a free
one.
-/
namespace Sqnim.Lib.Chain

variable {α : Type} [DecidableEq α] {next : α → Option α}

abbrev Reach (next : α → Option α) : α → α → Prop :=
  Relation.ReflTransGen fun i j => next i = some j

/-- Links along which some rank decreases. -/
def Ranked (next : α → Option α) : Prop :=
  ∃ rank : α → Nat, ∀ {i j}, next i = some j → rank j < rank i

/-- Links that form chains: no two nodes share a successor and no chain closes. -/
structure Chains (next : α → Option α) : Prop where
  injective : ∀ {i i' j}, next i = some j → next i' = some j → i = i'
  ranked : ∃ rank : α → Nat, ∀ {i j}, next i = some j → rank j < rank i

/-- A node that is on no chain. -/
structure Isolated (next : α → Option α) (n : α) : Prop where
  last : next n = none
  first : ∀ i, next i ≠ some n

omit [DecidableEq α] in
theorem reach_of_isolated {n j : α} (hn : next n = none) (h : Reach next n j) : j = n := by
  rcases h.cases_head with rfl | ⟨c, hc, -⟩
  · rfl
  · rw [hn] at hc
    cases hc

section Relink

omit [DecidableEq α] in
theorem Ranked.acyclic (h : Ranked next) (i : α) :
    ¬ Relation.TransGen (fun i j => next i = some j) i i := by
  obtain ⟨rank, hrank⟩ := h
  have hless : ∀ {i j}, Relation.TransGen (fun i j => next i = some j) i j → rank j < rank i := by
    intro i j hij
    induction hij with
    | single h => exact hrank h
    | tail _ h ih => exact (hrank h).trans ih
  exact fun hi => (hless hi).ne rfl

/-- A link to a node that does not lead back keeps the ranking. -/
theorem Ranked.relink (h : Ranked next) {i j : α} (hj : ¬ Reach next j i) :
    Ranked (Function.update next i (some j)) := by
  classical
  obtain ⟨rank, hrank⟩ := h
  refine ⟨fun x => if Reach next x i then rank x + rank j + 1 else rank x, fun {x y} hxy => ?_⟩
  beta_reduce
  by_cases hxi : x = i
  · rw [hxi, Function.update_self, Option.some.injEq] at hxy
    have hself : Reach next i i := .refl
    rw [hxi, ← hxy, if_neg hj, if_pos hself]
    omega
  · rw [Function.update_of_ne hxi] at hxy
    have hlt := hrank hxy
    by_cases hy : Reach next y i
    · have hx : Reach next x i := hy.head hxy
      rw [if_pos hy, if_pos hx]
      omega
    · have hx : ¬ Reach next x i := by
        intro hx
        rcases hx.cases_head with rfl | ⟨z, hz, hzi⟩
        · exact hxi rfl
        · rw [hxy, Option.some.injEq] at hz
          exact hy (hz ▸ hzi)
      rw [if_neg hy, if_neg hx]
      exact hlt

theorem Ranked.cut (h : Ranked next) (i : α) : Ranked (Function.update next i none) := by
  obtain ⟨rank, hrank⟩ := h
  refine ⟨rank, fun {x y} hxy => ?_⟩
  by_cases hxi : x = i
  · rw [hxi, Function.update_self] at hxy
    cases hxy
  · rw [Function.update_of_ne hxi] at hxy
    exact hrank hxy

end Relink

section InsertAfter

/-- Link `n` behind `m`. -/
def insertAfter (next : α → Option α) (m n : α) : α → Option α :=
  Function.update (Function.update next n (next m)) m (some n)

variable {m n : α} (hmn : m ≠ n)

theorem insertAfter_at (next : α → Option α) (m n : α) : insertAfter next m n m = some n :=
  Function.update_self ..

include hmn in
theorem insertAfter_new (next : α → Option α) : insertAfter next m n n = next m := by
  rw [insertAfter, Function.update_of_ne hmn.symm, Function.update_self]

theorem insertAfter_other {i : α} (hm : i ≠ m) (hn : i ≠ n) : insertAfter next m n i = next i := by
  rw [insertAfter, Function.update_of_ne hm, Function.update_of_ne hn]

include hmn in
/-- A link of the new chains is one of three kinds. -/
theorem insertAfter_cases {i j : α} (h : insertAfter next m n i = some j) :
    (i = m ∧ j = n) ∨ (i = n ∧ next m = some j) ∨ (i ≠ m ∧ i ≠ n ∧ next i = some j) := by
  by_cases him : i = m
  · rw [him, insertAfter_at, Option.some.injEq] at h
    exact .inl ⟨him, h.symm⟩
  · by_cases hin : i = n
    · rw [hin, insertAfter_new hmn] at h
      exact .inr (.inl ⟨hin, h⟩)
    · rw [insertAfter_other him hin] at h
      exact .inr (.inr ⟨him, hin, h⟩)

include hmn in
/-- Every old chain goes on, with `n` after `m`. -/
theorem reach_insertAfter (hn : Isolated next n) {i j : α} (h : Reach next i j) :
    Reach (insertAfter next m n) i j := by
  induction h with
  | refl => exact .refl
  | @tail b c _ hbc ih =>
    by_cases hbm : b = m
    · have hm : insertAfter next m n m = some n := insertAfter_at next m n
      have hnc : insertAfter next m n n = some c := by rw [insertAfter_new hmn, ← hbm, hbc]
      exact (ih.tail (hbm ▸ hm)).tail hnc
    · by_cases hbn : b = n
      · rw [hbn, hn.last] at hbc
        cases hbc
      · exact ih.tail ((insertAfter_other hbm hbn).trans hbc)

include hmn in
theorem chains_insertAfter (h : Chains next) (hn : Isolated next n) :
    Chains (insertAfter next m n) := by
  constructor
  · intro i i' j hi hi'
    rcases insertAfter_cases hmn hi with ⟨rfl, rfl⟩ | ⟨rfl, hj⟩ | ⟨him, hin, hj⟩ <;>
      rcases insertAfter_cases hmn hi' with ⟨h₁, h₂⟩ | ⟨h₁, hj'⟩ | ⟨him', hin', hj'⟩
    · exact h₁.symm
    · exact absurd hj' (hn.first _)
    · exact absurd hj' (hn.first _)
    · exact absurd (h₂ ▸ hj) (hn.first _)
    · exact h₁.symm
    · exact absurd (h.injective hj' hj) him'
    · exact absurd (h₂ ▸ hj) (hn.first i)
    · exact absurd (h.injective hj hj') him
    · exact h.injective hj hj'
  · obtain ⟨rank, hrank⟩ := h.ranked
    refine ⟨fun i => if i = n then 2 * rank m else 2 * rank i + 1, fun {i j} hij => ?_⟩
    beta_reduce
    rcases insertAfter_cases hmn hij with ⟨rfl, rfl⟩ | ⟨rfl, hj⟩ | ⟨him, hin, hj⟩
    · rw [if_pos rfl, if_neg hmn]
      omega
    · have hjn : j ≠ i := fun he => hn.first m (he ▸ hj)
      have := hrank hj
      rw [if_pos rfl, if_neg hjn]
      omega
    · have hjn : j ≠ n := fun he => hn.first i (he ▸ hj)
      have := hrank hj
      rw [if_neg hin, if_neg hjn]
      omega

end InsertAfter

section Replace

/-- Put `n` in the place of `m` behind its predecessor `p`, and free `m`. -/
def replace (next : α → Option α) (p m n : α) : α → Option α :=
  Function.update (Function.update (Function.update next p (some n)) n (next m)) m none

variable {p m n : α} (hmn : m ≠ n) (hpm : next p = some m)

theorem replace_old (next : α → Option α) (p m n : α) : replace next p m n m = none :=
  Function.update_self ..

include hmn in
theorem replace_new (next : α → Option α) (p : α) : replace next p m n n = next m := by
  rw [replace, Function.update_of_ne hmn.symm, Function.update_self]

theorem replace_pred (next : α → Option α) (h : p ≠ m) (h' : p ≠ n) :
    replace next p m n p = some n := by
  rw [replace, Function.update_of_ne h, Function.update_of_ne h', Function.update_self]

theorem replace_other {i : α} (hp : i ≠ p) (hm : i ≠ m) (hn : i ≠ n) :
    replace next p m n i = next i := by
  rw [replace, Function.update_of_ne hm, Function.update_of_ne hn, Function.update_of_ne hp]

omit [DecidableEq α] in
theorem Chains.ne_of_link (h : Chains next) {i j : α} (hij : next i = some j) : i ≠ j := by
  obtain ⟨rank, hrank⟩ := h.ranked
  rintro rfl
  exact (hrank hij).ne rfl

include hmn hpm in
theorem replace_cases (h : Chains next) (hn : Isolated next n) {i j : α}
    (hij : replace next p m n i = some j) :
    (i = p ∧ j = n) ∨ (i = n ∧ next m = some j) ∨
      (i ≠ p ∧ i ≠ m ∧ i ≠ n ∧ next i = some j) := by
  have hne : p ≠ m := h.ne_of_link hpm
  have hpn : p ≠ n := by
    rintro rfl
    rw [hn.last] at hpm
    cases hpm
  by_cases him : i = m
  · rw [him, replace_old] at hij
    cases hij
  · by_cases hin : i = n
    · rw [hin, replace_new hmn] at hij
      exact .inr (.inl ⟨hin, hij⟩)
    · by_cases hip : i = p
      · rw [hip, replace_pred next hne hpn, Option.some.injEq] at hij
        exact .inl ⟨hip, hij.symm⟩
      · rw [replace_other hip him hin] at hij
        exact .inr (.inr ⟨hip, him, hin, hij⟩)

include hmn hpm in
/-- A chain that starts outside `m` goes on, through `n` where it went through `m`. -/
theorem reach_replace (h : Chains next) (hn : Isolated next n) {i j : α} (him : i ≠ m)
    (hij : Reach next i j) : Reach (replace next p m n) i (if j = m then n else j) := by
  have hne : p ≠ m := h.ne_of_link hpm
  have hpn : p ≠ n := by
    rintro rfl
    rw [hn.last] at hpm
    cases hpm
  induction hij with
  | refl =>
    rw [if_neg him]
  | @tail b c _ hbc ih =>
    have hcm : c = m ↔ b = p := by
      constructor
      · rintro rfl
        exact h.injective hbc hpm
      · rintro rfl
        rw [hpm, Option.some.injEq] at hbc
        exact hbc.symm
    by_cases hbp : b = p
    · rw [if_pos (hcm.mpr hbp)]
      rw [hbp, if_neg hne] at ih
      exact ih.tail (replace_pred next hne hpn)
    · rw [if_neg (mt hcm.mp hbp)]
      by_cases hbm : b = m
      · rw [if_pos hbm] at ih
        exact ih.tail ((replace_new hmn next p).trans (hbm ▸ hbc))
      · rw [if_neg hbm] at ih
        have hbn : b ≠ n := by
          rintro rfl
          rw [hn.last] at hbc
          cases hbc
        exact ih.tail ((replace_other hbp hbm hbn).trans hbc)

include hmn hpm in
theorem chains_replace (h : Chains next) (hn : Isolated next n) :
    Chains (replace next p m n) := by
  constructor
  · intro i i' j hi hi'
    rcases replace_cases hmn hpm h hn hi with ⟨rfl, rfl⟩ | ⟨rfl, hj⟩ | ⟨hip, him, hin, hj⟩ <;>
      rcases replace_cases hmn hpm h hn hi' with ⟨h₁, h₂⟩ | ⟨h₁, hj'⟩ | ⟨hip', him', hin', hj'⟩
    · exact h₁.symm
    · exact absurd hj' (hn.first _)
    · exact absurd hj' (hn.first _)
    · exact absurd (h₂ ▸ hj) (hn.first _)
    · exact h₁.symm
    · exact absurd (h.injective hj' hj) him'
    · exact absurd (h₂ ▸ hj) (hn.first i)
    · exact absurd (h.injective hj hj') him
    · exact h.injective hj hj'
  · obtain ⟨rank, hrank⟩ := h.ranked
    refine ⟨fun i => if i = n then rank m else rank i, fun {i j} hij => ?_⟩
    beta_reduce
    have hne : ∀ {a b : α}, next a = some b → b ≠ n := by
      rintro a b hab rfl
      exact hn.first a hab
    rcases replace_cases hmn hpm h hn hij with ⟨rfl, rfl⟩ | ⟨rfl, hj⟩ | ⟨-, -, hin, hj⟩
    · have hpn : i ≠ j := by
        rintro rfl
        rw [hn.last] at hpm
        cases hpm
      rw [if_pos rfl, if_neg hpn]
      exact hrank hpm
    · rw [if_pos rfl, if_neg (hne hj)]
      exact hrank hj
    · rw [if_neg hin, if_neg (hne hj)]
      exact hrank hj

end Replace

section Search

/-- How a walk along the links ends. -/
inductive Found (α : Type) where
  | at (i : α)
  | nowhere
  | outOfFuel
  deriving DecidableEq, Repr

/-- Follow the links from `i` to the first node that satisfies `p`. -/
def search (next : α → Option α) (p : α → Bool) : Nat → α → Found α
  | 0, _ => .outOfFuel
  | fuel + 1, i =>
    if p i then .at i
    else
      match next i with
      | none => .nowhere
      | some j => search next p fuel j

omit [DecidableEq α] in
/-- What the outcome of a walk says about the chain from `i`. -/
theorem search_spec (p : α → Bool) {rank : α → Nat}
    (hrank : ∀ {i j}, next i = some j → rank j < rank i) {fuel : Nat} {i : α} (h : rank i < fuel) :
    (∃ j, search next p fuel i = .at j ∧ Reach next i j ∧ p j = true) ∨
      (search next p fuel i = .nowhere ∧ ∀ j, Reach next i j → p j = false) := by
  induction fuel generalizing i with
  | zero => omega
  | succ fuel ih =>
    by_cases hp : p i = true
    · refine .inl ⟨i, ?_, .refl, hp⟩
      rw [search, if_pos hp]
    · have hpf : p i = false := by simpa using hp
      rw [search, if_neg hp]
      cases hi : next i with
      | none =>
        refine .inr ⟨rfl, fun j hj => ?_⟩
        rw [reach_of_isolated hi hj, hpf]
      | some k =>
        have hk := hrank hi
        rcases ih (i := k) (by omega) with ⟨j, hs, hr, hj⟩ | ⟨hs, hall⟩
        · exact .inl ⟨j, hs, hr.head hi, hj⟩
        · refine .inr ⟨hs, fun j hj => ?_⟩
          rcases hj.cases_head with rfl | ⟨c, hc, hcj⟩
          · exact hpf
          · rw [hi, Option.some.injEq] at hc
            exact hall j (hc ▸ hcj)

omit [DecidableEq α] in
/-- A rank on a finite set of nodes is bounded by the size of the set. -/
theorem Ranked.bounded (h : Ranked next) (nodes : Finset α)
    (hnodes : ∀ {i j}, next i = some j → j ∈ nodes) :
    ∃ rank : α → Nat, (∀ {i j}, next i = some j → rank j < rank i) ∧
      ∀ i ∈ nodes, rank i < nodes.card := by
  obtain ⟨rank, hrank⟩ := h
  refine ⟨fun i => (nodes.filter fun j => rank j < rank i).card, fun {i j} hij => ?_, fun i hi => ?_⟩
  · apply Finset.card_lt_card
    refine Finset.ssubset_iff_subset_ne.mpr ⟨fun x hx => ?_, fun he => ?_⟩
    · rw [Finset.mem_filter] at hx ⊢
      exact ⟨hx.1, hx.2.trans (hrank hij)⟩
    · have hj : j ∈ nodes.filter fun k => rank k < rank i :=
        Finset.mem_filter.mpr ⟨hnodes hij, hrank hij⟩
      rw [← he, Finset.mem_filter] at hj
      exact absurd hj.2 (lt_irrefl _)
  · apply Finset.card_lt_card
    refine Finset.ssubset_iff_subset_ne.mpr ⟨Finset.filter_subset _ _, fun he => ?_⟩
    rw [← he, Finset.mem_filter] at hi
    exact absurd hi.2 (lt_irrefl _)

omit [DecidableEq α] in
theorem Chains.bounded_rank (h : Chains next) (nodes : Finset α)
    (hnodes : ∀ {i j}, next i = some j → j ∈ nodes) :
    ∃ rank : α → Nat, (∀ {i j}, next i = some j → rank j < rank i) ∧
      ∀ i ∈ nodes, rank i < nodes.card := Ranked.bounded h.ranked nodes hnodes

end Search

end Sqnim.Lib.Chain
