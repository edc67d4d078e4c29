import Sqnim.Table.Invariant

/-!
# Placing an absent key

The three ways in which `NewSlot` finds a node for a key: its main position is
free, the colliding node moves to the free node, or the free node is chained
behind the main position. Each keeps the invariant up to the free pointer.
-/
namespace Sqnim.Table

open Sqnim.Lib.Chain

variable {K V : Type} (env : Env K V)

namespace SQTable

/-- The keys of `t` are in `t'` with their values, each at the node it moved to, and `k` is at the
new node `x`. -/
structure Moves (t t' : SQTable K V) (k : K) (x : Nat) (moved : Nat → Nat) : Prop where
  new : t'.keyAt x = some k
  old : ∀ {j k'}, t.keyAt j = some k' →
    t'.keyAt (moved j) = some k' ∧ t'.valAt (moved j) = t.valAt j ∧ moved j ≠ x
  only : ∀ {i k'}, t'.keyAt i = some k' → i ≠ x → ∃ j, t.keyAt j = some k' ∧ moved j = i

structure Placed (t t' : SQTable K V) (k : K) (x : Nat) : Prop where
  chained : Chained env t'
  numOfNodes : t'.numOfNodes = t.numOfNodes
  firstFree : t'.firstFree = t.firstFree
  usedNodes : t'.usedNodes = t.usedNodes
  delegate : t'.delegate = t.delegate
  moves : ∃ moved, Moves t t' k x moved
  above : ∀ {i j}, t'.links i = some j →
    t.firstFree < j ∨ (j = t.firstFree ∧ t'.keyAt j ≠ none)
  occupied : ∀ {i}, t.keyAt i ≠ none → t'.keyAt i ≠ none
  linked : (∀ i, t.keyAt i = none → t.links i = none) → ∀ i, t'.keyAt i = none → t'.links i = none

section Moves

variable {env} {t t' : SQTable K V} {k : K} {x : Nat} {moved : Nat → Nat} (h : Moves t t' k x moved)
include h

theorem Moves.unique (hu : ∀ {i j k}, t.keyAt i = some k → t.keyAt j = some k → i = j)
    (hk : ∀ i, t.keyAt i ≠ some k) {i j : Nat} {k' : K} (hi : t'.keyAt i = some k')
    (hj : t'.keyAt j = some k') : i = j := by
  have hnew : ∀ {a}, t'.keyAt a = some k' → a ≠ x → k' ≠ k := by
    rintro a ha hax rfl
    obtain ⟨b, hb, -⟩ := h.only ha hax
    exact hk b hb
  by_cases hix : i = x <;> by_cases hjx : j = x
  · exact hix.trans hjx.symm
  · rw [hix, h.new, Option.some.injEq] at hi
    exact absurd hi.symm (hnew hj hjx)
  · rw [hjx, h.new, Option.some.injEq] at hj
    exact absurd hj.symm (hnew hi hix)
  · obtain ⟨a, ha, rfl⟩ := h.only hi hix
    obtain ⟨b, hb, rfl⟩ := h.only hj hjx
    rw [hu ha hb]

/-- Storing a value at the new node updates the contents at the new key. -/
theorem Moves.contents [DecidableEq K] (hk : ∀ i, t.keyAt i ≠ some k) {m : K → Option V}
    (hm : t.Contents m) (w : V) :
    (t'.modify x fun y => { y with val := w }).Contents (Function.update m k (some w)) := by
  have hkey : ∀ i, (t'.modify x fun y => { y with val := w }).keyAt i = t'.keyAt i := by
    intro i
    rw [keyAt_modify]
    split_ifs with hi
    · rw [hi]
      rfl
    · rfl
  intro k' v
  simp only [hkey, valAt_modify]
  by_cases hkk : k' = k
  · subst hkk
    rw [Function.update_self, Option.some.injEq]
    constructor
    · rintro rfl
      exact ⟨x, h.new, if_pos rfl⟩
    · rintro ⟨i, hi, hv⟩
      by_cases hix : i = x
      · rwa [if_pos hix] at hv
      · obtain ⟨b, hb, -⟩ := h.only hi hix
        exact absurd hb (hk b)
  · rw [Function.update_of_ne hkk, hm]
    constructor
    · rintro ⟨j, hj, hv⟩
      obtain ⟨hj', hv', hne⟩ := h.old hj
      refine ⟨moved j, hj', ?_⟩
      rw [if_neg hne, hv', hv]
    · rintro ⟨i, hi, hv⟩
      by_cases hix : i = x
      · rw [hix, h.new, Option.some.injEq] at hi
        exact absurd hi.symm hkk
      · obtain ⟨j, hj, rfl⟩ := h.only hi hix
        rw [if_neg hix, (h.old hj).2.1] at hv
        exact ⟨j, hj, hv⟩

theorem Moves.card (ht : Chained env t) (ht' : Chained env t') :
    t'.occupied.card = t.occupied.card + 1 := by
  have hkey : ∀ {s : SQTable K V} {i}, i ∈ s.occupied → ∃ k', s.keyAt i = some k' :=
    fun hi => Option.ne_none_iff_exists'.mp (mem_occupied.mp hi).2
  have himage : t'.occupied = insert x (t.occupied.image moved) := by
    ext i
    rw [Finset.mem_insert, Finset.mem_image]
    constructor
    · intro hi
      obtain ⟨k', hk'⟩ := hkey hi
      by_cases hix : i = x
      · exact .inl hix
      · obtain ⟨j, hj, rfl⟩ := h.only hk' hix
        refine .inr ⟨j, mem_occupied.mpr ⟨ht.lt_of_key hj, ?_⟩, rfl⟩
        rw [hj]
        nofun
    · rintro (rfl | ⟨j, hj, rfl⟩)
      · refine mem_occupied.mpr ⟨ht'.lt_of_key h.new, ?_⟩
        rw [h.new]
        nofun
      · obtain ⟨k', hk'⟩ := hkey hj
        refine mem_occupied.mpr ⟨ht'.lt_of_key (h.old hk').1, ?_⟩
        rw [(h.old hk').1]
        nofun
  have hinj : Set.InjOn moved t.occupied := by
    intro i hi j hj hij
    obtain ⟨ki, hki⟩ := hkey hi
    obtain ⟨kj, hkj⟩ := hkey hj
    have he := (h.old hki).1
    rw [hij, (h.old hkj).1, Option.some.injEq] at he
    exact ht.unique hki (he ▸ hkj)
  have hnot : x ∉ t.occupied.image moved := by
    rw [Finset.mem_image]
    rintro ⟨j, hj, hjx⟩
    obtain ⟨k', hk'⟩ := hkey hj
    exact (h.old hk').2.2 hjx
  rw [himage, Finset.card_insert_of_notMem hnot, Finset.card_image_of_injOn hinj]

end Moves

/-- A key set at an empty node leaves the other keys where they are. -/
theorem moves_of_update {t t' : SQTable K V} {k : K} {x : Nat} (hx : t.keyAt x = none)
    (hkey : ∀ i, t'.keyAt i = if i = x then some k else t.keyAt i)
    (hval : ∀ i, t'.valAt i = t.valAt i) : Moves t t' k x id := by
  constructor
  · rw [hkey, if_pos rfl]
  · intro j k' hj
    have hjx : j ≠ x := by
      rintro rfl
      rw [hx] at hj
      cases hj
    exact ⟨by rw [id, hkey, if_neg hjx, hj], hval j, hjx⟩
  · intro i k' hi hix
    rw [hkey, if_neg hix] at hi
    exact ⟨i, hi, rfl⟩

section Nodes

variable (t : SQTable K V) (k : K) {mp n : Nat}

theorem keyAt_chain (hne : mp ≠ n) (i : Nat) :
    ((t.chain mp n).modify n fun x => { x with key := some k }).keyAt i =
      if i = n then some k else t.keyAt i := by
  rw [keyAt_modify]
  refine if_congr Iff.rfl rfl ?_
  rw [chain, keyAt_modify]
  split_ifs with hi
  · rw [hi, nodes_modify, if_neg hne]
    rfl
  · rw [keyAt_modify]
    split_ifs with hi'
    · rw [hi']
      rfl
    · rfl

theorem links_chain (hne : mp ≠ n) :
    ((t.chain mp n).modify n fun x => { x with key := some k }).links =
      insertAfter t.links mp n := by
  funext i
  simp only [chain, links_modify, nodes_modify, insertAfter, Function.update_apply]
  split_ifs <;> simp_all [links]

theorem keyAt_relocate {c : K} {prev : Nat} (hc : t.keyAt mp = some c) (hpm : prev ≠ mp)
    (i : Nat) :
    ((t.relocate env prev mp n).modify mp fun x => { x with key := some k }).keyAt i =
      if i = mp then some k else if i = n then some c else t.keyAt i := by
  have hc' : (t.nodes mp).key = some c := hc
  simp only [relocate, keyAt_modify, nodes_modify]
  split_ifs <;> simp_all [keyAt]

theorem links_relocate (hne : mp ≠ n) {prev : Nat} (hpm : prev ≠ mp) :
    ((t.relocate env prev mp n).modify mp fun x => { x with key := some k }).links =
      replace t.links prev mp n := by
  funext i
  simp only [relocate, links_modify, nodes_modify, replace, Function.update_apply]
  split_ifs <;> simp_all [links]

end Nodes

section Cases

variable {env} {t : SQTable K V} (h : WellFormed env t) {k : K} (hk : ∀ i, t.keyAt i ≠ some k)
include h

theorem WellFormed.isolated : Isolated t.links t.firstFree := by
  refine ⟨h.firstFree_free.2, fun i hi => ?_⟩
  exact absurd (h.above hi) (lt_irrefl _)

/-- No key has the free node for its main position. -/
theorem WellFormed.main_ne_firstFree {i : Nat} {k' : K} (hi : t.keyAt i = some k') :
    t.main env k' ≠ t.firstFree := by
  intro he
  have hr := h.reachable hi
  rw [he] at hr
  rw [reach_of_isolated h.firstFree_free.2 hr, h.firstFree_free.1] at hi
  cases hi

include hk in
theorem WellFormed.placed_free (hfree : t.keyAt (t.main env k) = none) :
    Placed env t (t.modify (t.main env k) fun x => { x with key := some k }) k (t.main env k) := by
  have hkey : ∀ i, (t.modify (t.main env k) fun x => { x with key := some k }).keyAt i =
      if i = t.main env k then some k else t.keyAt i := fun i => keyAt_modify ..
  have hlinks : (t.modify (t.main env k) fun x => { x with key := some k }).links = t.links := by
    funext i
    rw [links_modify]
    split_ifs with hi
    · rw [hi]
      rfl
    · rfl
  have hval : ∀ i, (t.modify (t.main env k) fun x => { x with key := some k }).valAt i =
      t.valAt i := by
    intro i
    rw [valAt_modify]
    split_ifs with hi
    · rw [hi]
      rfl
    · rfl
  have hlt : t.main env k < t.numOfNodes := mainPosition_lt env h.size _
  have hmoves := moves_of_update hfree hkey hval
  refine ⟨⟨h.size, ?_, hlinks ▸ h.chains, ?_, ?_, hmoves.unique h.unique hk, ?_⟩, rfl, rfl, rfl, rfl,
    ⟨id, hmoves⟩, ?_, ?_, ?_⟩
  · intro i hi
    have hne : i ≠ t.main env k := fun he => absurd hlt (not_lt.mpr (he ▸ hi))
    rw [hkey, if_neg hne, hlinks]
    exact h.bounded i hi
  · intro i j hij
    rw [hlinks] at hij
    exact h.link_lt hij
  · intro i k' hi
    rw [hlinks]
    rw [hkey] at hi
    split_ifs at hi with hix
    · rw [hix, ← Option.some.inj hi]
      exact .refl
    · exact h.reachable hi
  · intro i j k₁ k₂ hi hne hj
    rw [hkey] at hi hj
    split_ifs at hi with hix
    · rw [hix, ← Option.some.inj hi] at hne
      exact absurd rfl hne
    · split_ifs at hj with hjx
      · rw [← Option.some.inj hj]
        exact fun he => hix he.symm
      · exact h.displaced hi hne hj
  · intro i j hij
    rw [hlinks] at hij
    exact .inl (h.above hij)
  · intro i hi
    rw [hkey]
    split_ifs
    · nofun
    · exact hi
  · intro hl i hi
    rw [hkey] at hi
    rw [hlinks]
    split_ifs at hi
    exact hl i hi

/-- A displaced key sits in a node that some link points to. -/
theorem WellFormed.firstFree_lt_of_displaced {i : Nat} {k' : K} (hi : t.keyAt i = some k')
    (hne : t.main env k' ≠ i) : t.firstFree < i := by
  rcases (h.reachable hi).cases_tail with he | ⟨j, -, hj⟩
  · exact absurd he.symm hne
  · exact h.above hj

include hk in
/-- The main position is taken by a key of the same main position. -/
theorem WellFormed.placed_chain {c : K} (hc : t.keyAt (t.main env k) = some c)
    (hmain : t.main env c = t.main env k) :
    Placed env t
      ((t.chain (t.main env k) t.firstFree).modify t.firstFree fun x => { x with key := some k })
      k t.firstFree := by
  set mp := t.main env k with hmp
  set n := t.firstFree with hn
  have hne : mp ≠ n := by
    intro he
    rw [he, h.firstFree_free.1] at hc
    cases hc
  have hiso := h.isolated
  have hkey := t.keyAt_chain k hne
  have hval : ∀ i, ((t.chain mp n).modify n fun x => { x with key := some k }).valAt i =
      t.valAt i := by
    intro i
    simp only [chain, valAt_modify, nodes_modify]
    split_ifs <;> simp_all [valAt]
  have hlinks := t.links_chain k hne
  have hmoves := moves_of_update h.firstFree_free.1 hkey hval
  have hlt : mp < t.numOfNodes := mainPosition_lt env h.size _
  refine ⟨⟨h.size, ?_, ?_, ?_, ?_, hmoves.unique h.unique hk, ?_⟩, rfl, rfl, rfl, rfl,
    ⟨id, hmoves⟩, ?_, ?_, ?_⟩
  · intro i hi
    have him : i ≠ mp := fun he => absurd hlt (not_lt.mpr (he ▸ hi))
    have hin : i ≠ n := fun he => absurd h.firstFree_lt (not_lt.mpr (hn ▸ he ▸ hi))
    rw [hkey, if_neg hin, hlinks, insertAfter_other him hin]
    exact h.bounded i hi
  · rw [hlinks]
    exact chains_insertAfter hne h.chains hiso
  · intro i j hij
    rw [hlinks] at hij
    rcases insertAfter_cases hne hij with ⟨-, rfl⟩ | ⟨-, hj⟩ | ⟨-, -, hj⟩
    · exact h.firstFree_lt
    · exact h.link_lt hj
    · exact h.link_lt hj
  · intro i k' hi
    rw [hlinks]
    rw [hkey] at hi
    split_ifs at hi with hin
    · rw [hin, ← Option.some.inj hi]
      exact Relation.ReflTransGen.single (insertAfter_at t.links mp n)
    · exact reach_insertAfter hne hiso (h.reachable hi)
  · intro i j k₁ k₂ hi hdisp hj
    change t.main env k₁ ≠ i at hdisp
    change t.main env k₂ ≠ i
    rw [hkey] at hi hj
    split_ifs at hi with hin
    · rw [hin]
      split_ifs at hj with hjn
      · rw [← Option.some.inj hj]
        exact hne
      · exact h.main_ne_firstFree hj
    · split_ifs at hj with hjn
      · rw [← Option.some.inj hj]
        rintro rfl
        rw [hc, Option.some.injEq] at hi
        exact hdisp (hi ▸ hmain)
      · exact h.displaced hi hdisp hj
  · intro i j hij
    rw [hlinks] at hij
    rcases insertAfter_cases hne hij with ⟨-, rfl⟩ | ⟨-, hj⟩ | ⟨-, -, hj⟩
    · refine .inr ⟨rfl, ?_⟩
      rw [hkey, if_pos rfl]
      exact Option.some_ne_none _
    · exact .inl (h.above hj)
    · exact .inl (h.above hj)
  · intro i hi
    rw [hkey]
    split_ifs
    · exact Option.some_ne_none _
    · exact hi
  · intro hl i hi
    rw [hkey] at hi
    rw [hlinks]
    split_ifs at hi with hin
    have him : i ≠ mp := by
      rintro rfl
      rw [hc] at hi
      cases hi
    rw [insertAfter_other him hin]
    exact hl i hi

include hk in
/-- The main position is taken by a key of another main position, which moves away. -/
theorem WellFormed.placed_relocate {c : K} {prev : Nat} (hc : t.keyAt (t.main env k) = some c)
    (hmain : t.main env c ≠ t.main env k) (hprev : t.links prev = some (t.main env k)) :
    Placed env t
      ((t.relocate env prev (t.main env k) t.firstFree).modify (t.main env k)
        fun x => { x with key := some k }) k (t.main env k) := by
  set mp := t.main env k with hmp
  set n := t.firstFree with hn
  have hne : mp ≠ n := by
    intro he
    rw [he, h.firstFree_free.1] at hc
    cases hc
  have hiso := h.isolated
  have hpm : prev ≠ mp := h.chains.ne_of_link hprev
  have hpn : prev ≠ n := by
    intro he
    rw [he, h.firstFree_free.2] at hprev
    cases hprev
  set t' := (t.relocate env prev mp n).modify mp fun x => { x with key := some k }
  have hkey : ∀ i, t'.keyAt i = if i = mp then some k else if i = n then some c else t.keyAt i :=
    t.keyAt_relocate env k hc hpm
  have hval : ∀ i, t'.valAt i =
      if i = mp then env.null else if i = n then t.valAt mp else t.valAt i := by
    intro i
    simp only [t', relocate, valAt_modify, nodes_modify]
    split_ifs <;> simp_all [valAt]
  have hlinks : t'.links = replace t.links prev mp n := t.links_relocate env k hne hpm
  have hmoves : Moves t t' k mp fun j => if j = mp then n else j := by
    have hold : ∀ {j k'}, t.keyAt j = some k' → j ≠ n := by
      rintro j k' hj rfl
      rw [h.firstFree_free.1] at hj
      cases hj
    constructor
    · rw [hkey, if_pos rfl]
    · intro j k' hj
      split_ifs with hjm
      · rw [hkey, hval, if_neg hne.symm, if_neg hne.symm, if_pos rfl, if_pos rfl, ← hc, ← hjm]
        exact ⟨hj, rfl, fun he => hne (hjm ▸ he.symm)⟩
      · rw [hkey, hval, if_neg hjm, if_neg hjm, if_neg (hold hj), if_neg (hold hj)]
        exact ⟨hj, rfl, hjm⟩
    · intro i k' hi him
      rw [hkey, if_neg him] at hi
      split_ifs at hi with hin
      · exact ⟨mp, hc.trans hi, by rw [if_pos rfl, hin]⟩
      · exact ⟨i, hi, if_neg him⟩
  have hlt : mp < t.numOfNodes := mainPosition_lt env h.size _
  have hnomain : ∀ {i k'}, t.keyAt i = some k' → t.main env k' ≠ mp :=
    fun hi => h.displaced hc hmain hi
  have hnofree : ∀ {i k'}, t'.keyAt i = some k' → t.main env k' ≠ n := by
    intro i k' hi
    rw [hkey] at hi
    split_ifs at hi
    · rw [← Option.some.inj hi]
      exact hne
    · exact h.main_ne_firstFree (hc.trans hi)
    · exact h.main_ne_firstFree hi
  refine ⟨⟨h.size, ?_, ?_, ?_, ?_, hmoves.unique h.unique hk, ?_⟩, rfl, rfl, rfl, rfl,
    ⟨_, hmoves⟩, ?_, ?_, ?_⟩
  · intro i hi
    have him : i ≠ mp := fun he => absurd hlt (not_lt.mpr (he ▸ hi))
    have hin : i ≠ n := fun he => absurd h.firstFree_lt (not_lt.mpr (hn ▸ he ▸ hi))
    have hold := h.bounded i hi
    have hip : i ≠ prev := by
      rintro rfl
      rw [hold.2] at hprev
      cases hprev
    rw [hkey, if_neg him, if_neg hin, hlinks, replace_other hip him hin]
    exact hold
  · rw [hlinks]
    exact chains_replace hne hprev h.chains hiso
  · intro i j hij
    rw [hlinks] at hij
    rcases replace_cases hne hprev h.chains hiso hij with ⟨-, rfl⟩ | ⟨-, hj⟩ | ⟨-, -, -, hj⟩
    · exact h.firstFree_lt
    · exact h.link_lt hj
    · exact h.link_lt hj
  · intro i k' hi
    change Reach t'.links (t.main env k') i
    rw [hlinks]
    by_cases him : i = mp
    · rw [hkey, if_pos him] at hi
      rw [him, ← Option.some.inj hi]
    · obtain ⟨j, hj, rfl⟩ := hmoves.only hi him
      exact reach_replace hne hprev h.chains hiso (hnomain hj) (h.reachable hj)
  · intro i j k₁ k₂ hi hdisp hj
    change t.main env k₁ ≠ i at hdisp
    change t.main env k₂ ≠ i
    rw [hkey] at hi
    split_ifs at hi with him hin
    · rw [him, ← Option.some.inj hi] at hdisp
      exact absurd rfl hdisp
    · rw [hin]
      exact hnofree hj
    · rw [hkey] at hj
      split_ifs at hj with hjm hjn
      · rw [← Option.some.inj hj]
        exact fun he => him he.symm
      · exact h.displaced hi hdisp (hc.trans hj)
      · exact h.displaced hi hdisp hj
  · intro i j hij
    rw [hlinks] at hij
    rcases replace_cases hne hprev h.chains hiso hij with ⟨-, rfl⟩ | ⟨-, hj⟩ | ⟨-, -, -, hj⟩
    · refine .inr ⟨rfl, ?_⟩
      rw [hkey, if_neg hne.symm, if_pos rfl]
      exact Option.some_ne_none _
    · exact .inl (h.above hj)
    · exact .inl (h.above hj)
  · intro i hi
    rw [hkey]
    split_ifs
    · exact Option.some_ne_none _
    · exact Option.some_ne_none _
    · exact hi
  · intro hl i hi
    rw [hkey] at hi
    rw [hlinks]
    split_ifs at hi with him hin
    have hold := hl i hi
    have hip : i ≠ prev := by
      rintro rfl
      rw [hold] at hprev
      cases hprev
    rw [replace_other hip him hin]
    exact hold

include hk in
/-- An absent key always finds a node, and neither of the two inner walks fails. -/
theorem WellFormed.place_spec : ∃ t₁ x, t.place env (t.main env k) = .ok (t₁, x) ∧
    Placed env t (t₁.modify x fun y => { y with key := some k }) k x := by
  cases hc : t.keyAt (t.main env k) with
  | none =>
    refine ⟨t, t.main env k, ?_, h.placed_free hk hc⟩
    rw [place, show (t.nodes (t.main env k)).key = none from hc]
  | some c =>
    have hkey : (t.nodes (t.main env k)).key = some c := hc
    by_cases hmain : t.main env c = t.main env k
    · refine ⟨_, _, ?_, h.placed_chain hk hc hmain⟩
      have hcond : ¬ (t.main env k > t.firstFree ∧
          t.mainPosition env (some c) ≠ t.main env k) := fun hand => hand.2 hmain
      simp only [place, hkey, if_neg hcond]
      rfl
    · have hgt := h.firstFree_lt_of_displaced hc hmain
      obtain ⟨prev, hp, hprev⟩ := h.predecessor_spec (mainPosition_lt env h.size (some c)) hmain
        (h.reachable hc)
      refine ⟨_, _, ?_, h.placed_relocate hk hc hmain hprev⟩
      have hcond : t.main env k > t.firstFree ∧
          t.mainPosition env (some c) ≠ t.main env k := ⟨hgt, hmain⟩
      simp only [place, hkey, if_pos hcond, hp]
      rfl

end Cases

end SQTable

end Sqnim.Table
