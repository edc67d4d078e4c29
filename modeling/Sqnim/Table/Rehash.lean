import Sqnim.Table.Insert

/-!
# Rebuilding a table

The sizes that `Rehash` chooses leave a free node beside all the old keys, so
every reinsertion settles. `NewSlot` therefore returns at recursion depth two,
and stores its value whether or not the table was rebuilt on the way.
-/
namespace Sqnim.Table

open Sqnim.Lib.Chain

variable {K V : Type} {env : Env K V}

namespace SQTable

section Fresh

/-- Nodes as `AllocNodes` leaves them, with the count reset. -/
def fresh (env : Env K V) (t : SQTable K V) (size : Nat) : SQTable K V :=
  { allocNodes env t size with usedNodes := 0 }

variable (t : SQTable K V) {p : Nat}

theorem occupied_fresh (size : Nat) : (fresh env t size).occupied = ∅ := by
  rw [Finset.eq_empty_iff_forall_notMem]
  intro i hi
  exact (mem_occupied.mp hi).2 rfl

theorem wellFormed_fresh : WellFormed env (fresh env t (2 ^ (p + 2))) := by
  have hpos := Nat.two_pow_pos (p + 2)
  refine ⟨⟨⟨p, rfl⟩, fun i _ => ⟨rfl, rfl⟩, ⟨nofun, ⟨fun _ => 0, nofun⟩⟩, nofun, nofun, nofun, nofun⟩,
    ?_, ⟨rfl, rfl⟩, nofun, ?_⟩
  · change 2 ^ (p + 2) - 1 < 2 ^ (p + 2)
    omega
  · rw [occupied_fresh]
    rfl

theorem dense_fresh (size : Nat) : Dense (fresh env t size) := by
  refine ⟨fun i _ => rfl, fun i hi hlt => ?_⟩
  have hlow : size - 1 < i := hi
  have hhigh : i < size := hlt
  omega

theorem contents_fresh (size : Nat) : (fresh env t size).Contents fun _ => none := by
  intro k v
  refine iff_of_false nofun ?_
  rintro ⟨i, hi, -⟩
  cases hi

end Fresh

/-- Whatever size `Rehash` chooses is a power of two with room for the old keys and one more. -/
theorem rehashSize_room {p c size : Nat} {nelems : Int} {force : Bool} (hle : c ≤ 2 ^ (p + 2))
    (hc : (c : Int) = nelems ∨ (c : Int) = nelems + 1)
    (hs : rehashSize (2 ^ (p + 2)) nelems force = some size) :
    ∃ q, size = 2 ^ (q + 2) ∧ c < size := by
  have hpow : 2 ^ (p + 2) = 4 * 2 ^ p := by ring
  rw [rehashSize] at hs
  split_ifs at hs with hgrow hshrink
  · refine ⟨p + 1, ?_, ?_⟩
    · rw [← Option.some.inj hs]
      ring
    · rw [← Option.some.inj hs]
      have hpos := Nat.two_pow_pos (p + 2)
      omega
  · obtain ⟨hfew, hbig⟩ := hshrink
    rw [minPower2] at hbig
    cases p with
    | zero => omega
    | succ p =>
      have hpow' : 2 ^ (p + 1 + 2) = 8 * 2 ^ p := by ring
      refine ⟨p, ?_, ?_⟩
      · rw [← Option.some.inj hs, hpow']
        have hq : 2 ^ (p + 2) = 4 * 2 ^ p := by ring
        omega
      · rw [← Option.some.inj hs]
        have hpos := Nat.two_pow_pos p
        omega
  · refine ⟨p, (Option.some.inj hs).symm, ?_⟩
    rw [← Option.some.inj hs]
    have hpos := Nat.two_pow_pos p
    omega

theorem rehashSize_force (oldsize : Nat) (nelems : Int) :
    ∃ size, rehashSize oldsize nelems true = some size := by
  rw [rehashSize]
  split_ifs
  · exact ⟨_, rfl⟩
  · exact ⟨_, rfl⟩
  · exact ⟨_, rfl⟩
  · contradiction

section Reinsert

variable [DecidableEq K] {t : SQTable K V} (h : Chained env t) (fuel : Nat)
include h

/-- The old nodes below `i` that hold a key. -/
def occupiedBelow (t : SQTable K V) (i : Nat) : Finset Nat :=
  (Finset.range i).filter fun j => t.keyAt j ≠ none

omit [DecidableEq K] h in
theorem occupiedBelow_succ (i : Nat) : t.occupiedBelow (i + 1) =
    if t.keyAt i ≠ none then insert i (t.occupiedBelow i) else t.occupiedBelow i := by
  rw [occupiedBelow, Finset.range_add_one, Finset.filter_insert]
  rfl

omit [DecidableEq K] h in
theorem exists_below_succ {k : K} {v : V} {i : Nat} (hne : t.keyAt i ≠ some k) :
    (∃ j < i, t.keyAt j = some k ∧ t.valAt j = v) ↔
      ∃ j < i + 1, t.keyAt j = some k ∧ t.valAt j = v := by
  constructor
  · rintro ⟨j, hj, hjk⟩
    exact ⟨j, hj.trans (Nat.lt_succ_self i), hjk⟩
  · rintro ⟨j, hj, hjk⟩
    refine ⟨j, lt_of_le_of_ne (Nat.lt_succ_iff.mp hj) ?_, hjk⟩
    rintro rfl
    exact hne hjk.1

section

variable {insert : SQTable K V → Option K → V → Except Fault (SQTable K V × Bool)}
  {t₀ t' : SQTable K V} {i : Nat} (hrun : reinsert insert t i t₀ = .ok t')
include hrun

omit [DecidableEq K] h in
theorem reinsert_succ_none (hkey : (t.nodes i).key = none) :
    reinsert insert t (i + 1) t₀ = .ok t' := by
  rw [reinsert] at hrun ⊢
  rw [List.range_succ, List.foldlM_append, hrun]
  simp only [List.foldlM_cons, List.foldlM_nil, bind_pure, hkey]
  rfl

omit [DecidableEq K] h in
theorem reinsert_succ_some {k : K} (hkey : (t.nodes i).key = some k) :
    reinsert insert t (i + 1) t₀ = (insert t' (some k) (t.nodes i).val).map Prod.fst := by
  rw [reinsert] at hrun ⊢
  rw [List.range_succ, List.foldlM_append, hrun]
  simp only [List.foldlM_cons, List.foldlM_nil, bind_pure, hkey]
  rfl

end

/-- After the nodes below `i` the new table holds exactly their entries, and every one of them was
a new slot. -/
theorem Chained.reinsert_prefix {q : Nat} (hroom : t.occupied.card < 2 ^ (q + 2)) {i : Nat}
    (hi : i ≤ t.numOfNodes) :
    ∃ t' m, reinsert (newSlot env (fuel + 1)) t i (fresh env t (2 ^ (q + 2))) = .ok t' ∧
      WellFormed env t' ∧ Dense t' ∧ t'.numOfNodes = 2 ^ (q + 2) ∧ t'.delegate = t.delegate ∧
      t'.occupied.card = (t.occupiedBelow i).card ∧ t'.Contents m ∧
      ∀ k v, m k = some v ↔ ∃ j < i, t.keyAt j = some k ∧ t.valAt j = v := by
  induction i with
  | zero =>
    refine ⟨_, _, rfl, wellFormed_fresh t, dense_fresh t _, rfl, rfl, ?_, contents_fresh t _, ?_⟩
    · rw [occupied_fresh]
      rfl
    · intro k v
      refine iff_of_false (Option.some_ne_none v).symm ?_
      rintro ⟨j, hj, -⟩
      exact absurd hj (Nat.not_lt_zero j)
  | succ i ih =>
    obtain ⟨t', m, hrun, hwf, hd, hsize, hdel, hcard, hm, hmem⟩ := ih (by omega)
    cases hkey : (t.nodes i).key with
    | none =>
      have hnone : t.keyAt i = none := hkey
      refine ⟨t', m, reinsert_succ_none hrun hkey, hwf, hd, hsize, hdel, ?_, hm,
        fun k v => (hmem k v).trans ?_⟩
      · rw [hcard, occupiedBelow_succ, if_neg (not_not.mpr hnone)]
      · exact exists_below_succ fun hk => by rw [hnone] at hk; cases hk
    | some k =>
      have hsome : t.keyAt i = some k := hkey
      have hne : t.keyAt i ≠ none := by
        rw [hsome]
        exact Option.some_ne_none k
      have habsent : ∀ a, t'.keyAt a ≠ some k := by
        intro a ha
        obtain ⟨j, hj, hjk, -⟩ := (hmem k (t'.valAt a)).mp ((hm k _).mpr ⟨a, ha, rfl⟩)
        exact absurd (h.unique hjk hsome) hj.ne
      have hnew : (t.occupiedBelow (i + 1)).card = (t.occupiedBelow i).card + 1 := by
        rw [occupiedBelow_succ, if_pos hne, Finset.card_insert_of_notMem]
        simp [occupiedBelow]
      have hbelow : (t.occupiedBelow (i + 1)).card ≤ t.occupied.card :=
        Finset.card_le_card (Finset.filter_subset_filter _ (Finset.range_subset_range.mpr hi))
      obtain ⟨t'', hns, hwf', hd', hsize', hdel', hcard', hm'⟩ :=
        hwf.newSlot_dense (t.nodes i).val fuel hd habsent (by omega) hm
      refine ⟨t'', _, (reinsert_succ_some hrun hkey).trans (congrArg (Except.map Prod.fst) hns),
        hwf', hd', hsize'.trans hsize, hdel'.trans hdel, ?_, hm', ?_⟩
      · rw [hcard', hcard, hnew]
      · intro k' v
        by_cases hkk : k' = k
        · subst hkk
          rw [Function.update_self, Option.some.injEq]
          constructor
          · rintro rfl
            exact ⟨i, Nat.lt_succ_self i, hsome, rfl⟩
          · rintro ⟨j, -, hj, hv⟩
            rw [h.unique hj hsome] at hv
            exact hv
        · rw [Function.update_of_ne hkk, hmem]
          refine exists_below_succ fun hk => hkk ?_
          rw [hsome, Option.some.injEq] at hk
          exact hk.symm

/-- `Rehash` of a table with room for its keys keeps its contents, in a valid table. -/
theorem Chained.rehash_spec {m : K → Option V} (hm : t.Contents m) (force : Bool)
    (hc : (t.occupied.card : Int) = t.usedNodes ∨ (t.occupied.card : Int) = t.usedNodes + 1)
    {size : Nat} (hs : rehashSize t.numOfNodes t.usedNodes force = some size) :
    ∃ t', rehash env (newSlot env (fuel + 1)) t force = .ok t' ∧ WellFormed env t' ∧
      t'.delegate = t.delegate ∧ t'.Contents m := by
  obtain ⟨p, hp⟩ := h.size
  have hle : t.occupied.card ≤ 2 ^ (p + 2) := by
    rw [← hp, ← Finset.card_range t.numOfNodes]
    exact Finset.card_le_card (Finset.filter_subset _ _)
  have hfour : ¬ t.numOfNodes < 4 := by
    have hpow : 2 ^ (p + 2) = 4 * 2 ^ p := by ring
    have hpos := Nat.two_pow_pos p
    omega
  obtain ⟨q, rfl, hroom⟩ := rehashSize_room hle hc (hp ▸ hs)
  obtain ⟨t', m', hrun, hwf, -, -, hdel, -, hm', hmem⟩ :=
    h.reinsert_prefix fuel hroom (le_refl t.numOfNodes)
  refine ⟨t', ?_, hwf, hdel, ?_⟩
  · simp only [rehash, if_neg hfour, hs]
    exact hrun
  · have heq : m' = m := by
      funext k
      refine Option.ext fun v => ?_
      rw [hmem, hm]
      exact ⟨fun ⟨j, _, hj⟩ => ⟨j, hj⟩, fun ⟨j, hj⟩ => ⟨j, h.lt_of_key hj.1, hj⟩⟩
    exact heq ▸ hm'

end Reinsert

section NewSlot

variable [DecidableEq K] {t : SQTable K V} (h : WellFormed env t) {m : K → Option V}
  (hm : t.Contents m) (k : K) (v : V) (fuel : Nat)
include h hm

/-- `NewSlot` stores the value under the key and nothing else, at recursion depth two. It tells that
there is a new slot if the key was absent and a node is still free once it is placed. -/
theorem WellFormed.newSlot_tells : ∃ t' created,
    newSlot env (fuel + 2) t (some k) v = .ok (t', created) ∧ WellFormed env t' ∧
      t'.delegate = t.delegate ∧ t'.Contents (Function.update m k (some v)) ∧
      ((∃ i, t.keyAt i = some k) ∧ created = false ∨
        (∀ i, t.keyAt i ≠ some k) ∧ ∃ t₁ x, t.place env (t.main env k) = .ok (t₁, x) ∧
          created = ((t₁.modify x fun y => { y with key := some k }).correctFirstFree
            t.firstFree).isSome) := by
  by_cases hk : ∃ i, t.keyAt i = some k
  · obtain ⟨i, hi⟩ := hk
    exact ⟨_, _, h.newSlot_present v (fuel + 1) hi, h.setVal v, rfl,
      contents_setVal v h.toChained hm hi, .inl ⟨⟨i, hi⟩, rfl⟩⟩
  · have habsent : ∀ i, t.keyAt i ≠ some k := fun i hi => hk ⟨i, hi⟩
    obtain ⟨t₁, x, t', hplace, ht', hp, hcases⟩ := h.newSlot_absent v (fuel + 1) habsent
    rw [hp.firstFree] at hcases
    obtain ⟨moved, hmoves⟩ := hp.moves
    rcases hcases with ⟨free, hfree, hns⟩ | ⟨hfree, hns⟩
    · refine ⟨_, _, hns, h.settle hp v (hp.firstFree ▸ hfree), hp.delegate,
        hmoves.contents habsent hm v, .inr ⟨habsent, t₁, x, hplace, ?_⟩⟩
      rw [← ht', hfree]
      rfl
    · -- the key is already placed: the rebuilt table holds it, with some value
      set t₀ : SQTable K V := { t' with firstFree := 0 }
      have hch : Chained env t₀ := Chained.congr (t := t') rfl (fun _ => rfl) rfl hp.chained
      have hcard : t₀.occupied.card = t.occupied.card + 1 := hmoves.card h.toChained hp.chained
      have hcontents : t₀.Contents (Function.update m k (some (t'.valAt x))) := by
        have hc := hmoves.contents habsent hm (t'.valAt x)
        intro k' w
        rw [hc k' w]
        refine exists_congr fun i => ?_
        rw [keyAt_setVal, valAt_modify]
        refine and_congr Iff.rfl ?_
        split_ifs with hix
        · rw [hix]
          rfl
        · rfl
      have hused : (t₀.occupied.card : Int) = t₀.usedNodes + 1 := by
        rw [hcard, Nat.cast_succ, ← h.used, ← hp.usedNodes]
      obtain ⟨size, hs⟩ := rehashSize_force t₀.numOfNodes t₀.usedNodes
      obtain ⟨t'', hr, hwf, hdel, hm''⟩ := hch.rehash_spec fuel hcontents true (.inr hused) hs
      have hin : ∃ i, t''.keyAt i = some k ∧ t''.valAt i = t'.valAt x :=
        (hm'' k _).mp (Function.update_self ..)
      obtain ⟨i, hi, -⟩ := hin
      refine ⟨t''.modify i fun x => { x with val := v }, false, ?_, hwf.setVal v,
        hdel.trans hp.delegate, ?_, .inr ⟨habsent, t₁, x, hplace, ?_⟩⟩
      · rw [hns, hr]
        exact hwf.newSlot_present v fuel hi
      · have hset := contents_setVal v hwf.toChained hm'' hi
        rwa [Function.update_idem] at hset
      · rw [← ht', hfree]
        rfl

theorem WellFormed.newSlot_spec : ∃ t' created,
    newSlot env (fuel + 2) t (some k) v = .ok (t', created) ∧ WellFormed env t' ∧
      t'.delegate = t.delegate ∧ t'.Contents (Function.update m k (some v)) := by
  obtain ⟨t', created, hns, hwf, hdel, hm', -⟩ := h.newSlot_tells hm k v fuel
  exact ⟨t', created, hns, hwf, hdel, hm'⟩

end NewSlot

end SQTable

end Sqnim.Table
