import Sqnim.Table.Placement

/-!
# NewSlot and Rehash

A freshly allocated table fills from the top, so it runs out of free nodes only
when every node is taken. The sizes that `Rehash` chooses leave room for all the
old keys, hence the reinsertions never rehash in turn and the recursion has
depth two.
-/
namespace Sqnim.Table

open Sqnim.Lib.Chain

variable {K V : Type} {env : Env K V}

namespace SQTable

section Congruence

variable {t t' : SQTable K V} (hn : t'.numOfNodes = t.numOfNodes)
  (hk : ∀ i, t'.keyAt i = t.keyAt i) (hl : t'.links = t.links)
include hn hk

theorem occupied_congr : t'.occupied = t.occupied := by
  ext i
  rw [mem_occupied, mem_occupied, hn, hk]

include hl

/-- The invariant looks at keys and links only. -/
theorem Chained.congr (h : Chained env t) : Chained env t' := by
  refine ⟨hn ▸ h.size, ?_, hl ▸ h.chains, ?_, ?_, ?_, ?_⟩
  · intro i hi
    rw [hk, hl]
    exact h.bounded i (hn ▸ hi)
  · intro i j hij
    rw [hl] at hij
    exact hn ▸ h.link_lt hij
  · intro i k hi
    rw [hk] at hi
    rw [hl, main_congr env hn]
    exact h.reachable hi
  · intro i j k hi hj
    rw [hk] at hi hj
    exact h.unique hi hj
  · intro i j k k' hi hne hj
    rw [hk] at hi hj
    rw [main_congr env hn] at hne ⊢
    exact h.displaced hi hne hj

theorem WellFormed.congr (h : WellFormed env t) (hf : t'.firstFree = t.firstFree)
    (hu : t'.usedNodes = t.usedNodes) : WellFormed env t' := by
  refine ⟨h.toChained.congr hn hk hl, ?_, ?_, ?_, ?_⟩
  · rw [hf, hn]
    exact h.firstFree_lt
  · rw [hf, hk, hl]
    exact h.firstFree_free
  · intro i j hij
    rw [hl] at hij
    exact hf ▸ h.above hij
  · rw [hu, occupied_congr hn hk]
    exact h.used

end Congruence

section SetVal

variable (t : SQTable K V) (i : Nat) (w : V)

theorem keyAt_setVal (j : Nat) : (t.modify i fun x => { x with val := w }).keyAt j = t.keyAt j := by
  rw [keyAt_modify]
  split_ifs with h
  · rw [h]
    rfl
  · rfl

theorem links_setVal : (t.modify i fun x => { x with val := w }).links = t.links := by
  funext j
  rw [links_modify]
  split_ifs with h
  · rw [h]
    rfl
  · rfl

variable {t i} {k : K} {m : K → Option V}

theorem WellFormed.setVal (h : WellFormed env t) :
    WellFormed env (t.modify i fun x => { x with val := w }) :=
  WellFormed.congr (t := t) rfl (keyAt_setVal t i w) (links_setVal t i w) h rfl rfl

variable [DecidableEq K]

theorem contents_setVal (h : Chained env t) (hm : t.Contents m) (hi : t.keyAt i = some k) :
    (t.modify i fun x => { x with val := w }).Contents (Function.update m k (some w)) := by
  intro k' v
  simp only [keyAt_setVal, valAt_modify]
  by_cases hkk : k' = k
  · subst hkk
    rw [Function.update_self, Option.some.injEq]
    constructor
    · rintro rfl
      exact ⟨i, hi, if_pos rfl⟩
    · rintro ⟨j, hj, hv⟩
      rwa [if_pos (h.unique hj hi)] at hv
  · rw [Function.update_of_ne hkk, hm]
    constructor
    · rintro ⟨j, hj, hv⟩
      refine ⟨j, hj, ?_⟩
      have hne : j ≠ i := by
        rintro rfl
        rw [hi, Option.some.injEq] at hj
        exact hkk hj.symm
      rw [if_neg hne, hv]
    · rintro ⟨j, hj, hv⟩
      refine ⟨j, hj, ?_⟩
      have hne : j ≠ i := by
        rintro rfl
        rw [hi, Option.some.injEq] at hj
        exact hkk hj.symm
      rwa [if_neg hne] at hv

end SetVal

section FirstFree

variable {t : SQTable K V}

theorem isFree_iff {i : Nat} : t.isFree i = true ↔ t.keyAt i = none ∧ t.links i = none := by
  rw [isFree, Bool.and_eq_true, Option.isNone_iff_eq_none, Option.isNone_iff_eq_none]
  rfl

/-- The correction stops at the highest free node at or below the old one. -/
theorem correctFirstFree_some {f free : Nat} (h : t.correctFirstFree f = some free) :
    free ≤ f ∧ t.isFree free = true ∧ ∀ i, free < i → i ≤ f → ¬ t.isFree i = true := by
  induction f with
  | zero =>
    rw [correctFirstFree] at h
    split_ifs at h with hf
    rw [← Option.some.inj h]
    exact ⟨le_refl 0, hf, fun i hi hi' => absurd hi (not_lt.mpr hi')⟩
  | succ f ih =>
    rw [correctFirstFree] at h
    split_ifs at h with hf
    · rw [← Option.some.inj h]
      exact ⟨le_refl _, hf, fun i hi hi' => absurd hi (not_lt.mpr hi')⟩
    · obtain ⟨hle, hfree, habove⟩ := ih h
      refine ⟨hle.trans (Nat.le_succ f), hfree, fun i hi hi' => ?_⟩
      rcases Nat.le_succ_iff.mp hi' with hif | rfl
      · exact habove i hi hif
      · exact hf

theorem correctFirstFree_none {f : Nat} (h : t.correctFirstFree f = none) :
    ∀ i ≤ f, ¬ t.isFree i = true := by
  induction f with
  | zero =>
    rw [correctFirstFree] at h
    split_ifs at h with hf
    intro i hi
    rwa [Nat.le_zero.mp hi]
  | succ f ih =>
    rw [correctFirstFree] at h
    split_ifs at h with hf
    intro i hi
    rcases Nat.le_succ_iff.mp hi with hif | rfl
    · exact ih h i hif
    · exact hf

end FirstFree

/-- A table filled from the top since its nodes were allocated. -/
structure Dense (t : SQTable K V) : Prop where
  linked : ∀ i, t.keyAt i = none → t.links i = none
  filled : ∀ i, t.firstFree < i → i < t.numOfNodes → t.keyAt i ≠ none

/-- The table that `NewSlot` leaves when it still finds a free node. -/
def settle (t' : SQTable K V) (x : Nat) (w : V) (free : Nat) : SQTable K V :=
  { t'.modify x (fun y => { y with val := w }) with
    firstFree := free
    usedNodes := t'.usedNodes + 1 }

theorem keyAt_settle (t' : SQTable K V) (x : Nat) (w : V) (free i : Nat) :
    (t'.settle x w free).keyAt i = t'.keyAt i := keyAt_setVal t' x w i

theorem links_settle (t' : SQTable K V) (x : Nat) (w : V) (free : Nat) :
    (t'.settle x w free).links = t'.links := links_setVal t' x w

theorem occupied_settle (t' : SQTable K V) (x : Nat) (w : V) (free : Nat) :
    (t'.settle x w free).occupied = t'.occupied := occupied_congr rfl (keyAt_settle t' x w free)

section Settle

variable {t t' : SQTable K V} {k : K} {x : Nat} (hp : Placed env t t' k x) (w : V)
include hp

theorem WellFormed.settle (h : WellFormed env t) {free : Nat}
    (hfree : t'.correctFirstFree t'.firstFree = some free) : WellFormed env (t'.settle x w free) := by
  obtain ⟨hle, hisfree, -⟩ := correctFirstFree_some hfree
  obtain ⟨hkey, hlink⟩ := isFree_iff.mp hisfree
  rw [hp.firstFree] at hle
  obtain ⟨moved, hmoves⟩ := hp.moves
  have hk := keyAt_settle t' x w free
  have hl := links_settle t' x w free
  refine ⟨Chained.congr (t := t') rfl hk hl hp.chained, ?_, ?_, ?_, ?_⟩
  · change free < t'.numOfNodes
    rw [hp.numOfNodes]
    exact hle.trans_lt h.firstFree_lt
  · exact ⟨(hk free).trans hkey, (congrFun hl free).trans hlink⟩
  · intro i j hij
    rw [hl] at hij
    rcases hp.above hij with hlt | ⟨rfl, hne⟩
    · exact hle.trans_lt hlt
    · refine lt_of_le_of_ne hle ?_
      rintro rfl
      exact hne hkey
  · rw [occupied_settle, hmoves.card h.toChained hp.chained, Nat.cast_succ, ← h.used,
      ← hp.usedNodes]
    rfl

theorem Dense.settle (hd : Dense t) {free : Nat}
    (hfree : t'.correctFirstFree t'.firstFree = some free) : Dense (t'.settle x w free) := by
  obtain ⟨-, -, habove⟩ := correctFirstFree_some hfree
  have hlinked := hp.linked hd.linked
  constructor
  · intro i hi
    rw [keyAt_settle] at hi
    rw [links_settle]
    exact hlinked i hi
  · intro i hi hlt
    rw [keyAt_settle]
    by_cases hif : i ≤ t'.firstFree
    · intro hnone
      exact habove i hi hif (isFree_iff.mpr ⟨hnone, hlinked i hnone⟩)
    · refine hp.occupied (hd.filled i ?_ ?_)
      · rw [← hp.firstFree]
        exact not_le.mp hif
      · rw [← hp.numOfNodes]
        exact hlt

/-- A table filled from the top is exhausted only when it is full. -/
theorem Dense.card_of_exhausted (hd : Dense t) (hfree : t'.correctFirstFree t'.firstFree = none) :
    t'.occupied.card = t'.numOfNodes := by
  have hlinked := hp.linked hd.linked
  have hall : t'.occupied = Finset.range t'.numOfNodes := by
    ext i
    rw [mem_occupied, Finset.mem_range, and_iff_left_iff_imp]
    intro hlt hnone
    by_cases hif : i ≤ t'.firstFree
    · exact correctFirstFree_none hfree i hif (isFree_iff.mpr ⟨hnone, hlinked i hnone⟩)
    · refine hp.occupied (hd.filled i ?_ ?_) hnone
      · rw [← hp.firstFree]
        exact not_le.mp hif
      · rw [← hp.numOfNodes]
        exact hlt
  rw [hall, Finset.card_range]

end Settle

section NewSlot

variable [DecidableEq K] {t : SQTable K V} (h : WellFormed env t) {k : K} (v : V) (fuel : Nat)
include h

theorem WellFormed.newSlot_present {i : Nat} (hi : t.keyAt i = some k) :
    newSlot env (fuel + 1) t (some k) v =
      .ok (t.modify i fun x => { x with val := v }, false) := by
  have hg := h.getNode_present hi
  rw [main] at hg
  simp only [newSlot, Option.isNone_some, Bool.false_eq_true, if_false, hg]
  rfl

/-- Storing an absent key: the new slot is settled, or the table is rebuilt with the key in it and
the value is stored afterwards. -/
theorem WellFormed.newSlot_absent (hk : ∀ i, t.keyAt i ≠ some k) :
    ∃ t₁ x t', t.place env (t.main env k) = .ok (t₁, x) ∧
      t' = t₁.modify x (fun y => { y with key := some k }) ∧ Placed env t t' k x ∧
      ((∃ free, t'.correctFirstFree t'.firstFree = some free ∧
          newSlot env (fuel + 1) t (some k) v = .ok (t'.settle x v free, true)) ∨
        (t'.correctFirstFree t'.firstFree = none ∧
          newSlot env (fuel + 1) t (some k) v =
            (rehash env (newSlot env fuel) { t' with firstFree := 0 } true).bind
              fun t => newSlot env fuel t (some k) v)) := by
  obtain ⟨t₁, x, hplace, hp⟩ := h.place_spec hk
  have hg := h.getNode_absent hk
  refine ⟨t₁, x, _, hplace, rfl, hp, ?_⟩
  rw [main] at hg hplace
  cases hfree : (t₁.modify x fun y => { y with key := some k }).correctFirstFree
      (t₁.modify x fun y => { y with key := some k }).firstFree with
  | some free =>
    refine .inl ⟨free, rfl, ?_⟩
    simp only [newSlot, Option.isNone_some, Bool.false_eq_true, if_false, hg, hplace, bind,
      Except.bind, hfree]
    rfl
  | none =>
    refine .inr ⟨rfl, ?_⟩
    simp only [newSlot, Option.isNone_some, Bool.false_eq_true, if_false, hg, hplace, bind,
      Except.bind, hfree]

/-- In a table filled from the top with two nodes to spare, `NewSlot` of an absent key settles. -/
theorem WellFormed.newSlot_dense (hd : Dense t) (hk : ∀ i, t.keyAt i ≠ some k)
    (hroom : t.occupied.card + 1 < t.numOfNodes) {m : K → Option V} (hm : t.Contents m) :
    ∃ t', newSlot env (fuel + 1) t (some k) v = .ok (t', true) ∧ WellFormed env t' ∧ Dense t' ∧
      t'.numOfNodes = t.numOfNodes ∧ t'.delegate = t.delegate ∧
      t'.occupied.card = t.occupied.card + 1 ∧ t'.Contents (Function.update m k (some v)) := by
  obtain ⟨-, x, t', -, -, hp, hcases⟩ := h.newSlot_absent v fuel hk
  obtain ⟨moved, hmoves⟩ := hp.moves
  have hcard := hmoves.card h.toChained hp.chained
  rcases hcases with ⟨free, hfree, hns⟩ | ⟨hfree, -⟩
  · refine ⟨_, hns, h.settle hp v hfree, hd.settle hp v hfree, hp.numOfNodes, hp.delegate, ?_, ?_⟩
    · rw [occupied_settle, hcard]
    · exact hmoves.contents hk hm v
  · have hfull := hd.card_of_exhausted hp hfree
    rw [hcard, hp.numOfNodes] at hfull
    omega

end NewSlot

end SQTable

end Sqnim.Table
