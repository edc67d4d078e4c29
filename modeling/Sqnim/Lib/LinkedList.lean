import Sqnim.Lib.Chain

/-!
# Linked lists in an array of nodes

The lists that share a memory of nodes: the nodes on one list in order, a walk
that remembers the predecessor, and the two updates that push a node on a list
and take one out of it. A family of lists over an index set is updated at one
index.
-/
namespace Sqnim.Lib.LinkedList

variable {α : Type} {next next' : α → Option α}

/-- From the link `h`, the nodes are those of the list, in its order. -/
def Linked (next : α → Option α) : Option α → List α → Prop
  | h, [] => h = none
  | h, i :: l => h = some i ∧ Linked next (next i) l

theorem Linked.congr {h : Option α} {l : List α} (hl : Linked next h l)
    (heq : ∀ i ∈ l, next' i = next i) : Linked next' h l := by
  induction l generalizing h with
  | nil => exact hl
  | cons i l ih =>
    obtain ⟨hi, hrest⟩ := hl
    refine ⟨hi, ?_⟩
    rw [heq i (List.mem_cons_self ..)]
    exact ih hrest fun j hj => heq j (List.mem_cons_of_mem i hj)

theorem Linked.unique {h : Option α} {l l' : List α} (hl : Linked next h l)
    (hl' : Linked next h l') : l = l' := by
  induction l generalizing h l' with
  | nil =>
    cases l' with
    | nil => rfl
    | cons j l' => cases hl.symm.trans hl'.1
  | cons i l ih =>
    cases l' with
    | nil => cases hl.1.symm.trans hl'
    | cons j l' =>
      obtain ⟨hi, hrest⟩ := hl
      obtain ⟨hj, hrest'⟩ := hl'
      obtain rfl := Option.some.inj (hi.symm.trans hj)
      rw [ih hrest hrest']

section Reach

open Chain (Reach Ranked)

theorem Linked.mem_of_reach {i j : α} {l : List α} (hl : Linked next (some i) l)
    (hij : Reach next i j) : j ∈ l := by
  induction hij using Relation.ReflTransGen.head_induction_on generalizing l with
  | refl =>
    cases l with
    | nil => cases hl
    | cons k l =>
      obtain ⟨hk, -⟩ := hl
      rw [Option.some.inj hk]
      exact List.mem_cons_self ..
  | head hik _ ih =>
    cases l with
    | nil => cases hl
    | cons k l =>
      obtain ⟨hk, hrest⟩ := hl
      rw [← Option.some.inj hk, hik] at hrest
      exact List.mem_cons_of_mem k (ih hrest)

/-- Ranked links make lists, no longer than the rank. -/
theorem exists_linked {rank : α → Nat} (hrank : ∀ {i j}, next i = some j → rank j < rank i) (i : α) :
    ∃ l, Linked next (some i) l ∧ l.length ≤ rank i + 1 := by
  induction hn : rank i using Nat.strong_induction_on generalizing i with
  | _ n ih =>
    cases hi : next i with
    | none => exact ⟨[i], ⟨rfl, hi⟩, by simp⟩
    | some j =>
      have hlt := hrank hi
      obtain ⟨l, hl, hlen⟩ := ih (rank j) (by omega) j rfl
      refine ⟨i :: l, ⟨rfl, hi ▸ hl⟩, ?_⟩
      rw [List.length_cons]
      omega

end Reach

section Walk

/-- Follow the links to the first node that satisfies `p`; the other result is its predecessor. -/
def locate (next : α → Option α) (p : α → Bool) :
    Nat → Option α → Option α → Option (Option α × Option α)
  | 0, _, _ => none
  | _ + 1, prev, none => some (prev, none)
  | fuel + 1, prev, some i =>
    if p i then some (prev, some i) else locate next p fuel (some i) (next i)

/-- On a list that is shorter than the fuel the walk ends, and finds what the list says. -/
theorem locate_eq (p : α → Bool) {fuel : Nat} {prev h : Option α} {l : List α}
    (hl : Linked next h l) (hfuel : l.length < fuel) :
    locate next p fuel prev h =
      some (((l.takeWhile fun i => !p i).getLast?).or prev, l.find? p) := by
  induction l generalizing fuel prev h with
  | nil =>
    obtain ⟨fuel, rfl⟩ := Nat.exists_eq_succ_of_ne_zero (show fuel ≠ 0 by omega)
    obtain rfl : h = none := hl
    rfl
  | cons i l ih =>
    obtain ⟨fuel, rfl⟩ := Nat.exists_eq_succ_of_ne_zero (show fuel ≠ 0 by omega)
    obtain ⟨rfl, hrest⟩ := hl
    rw [List.length_cons] at hfuel
    by_cases hp : p i = true
    · simp [locate, hp]
    · have hrec := @ih fuel (some i) _ hrest (by omega)
      rw [Bool.not_eq_true] at hp
      simp only [locate, hp, hrec, List.takeWhile_cons, List.find?_cons, List.getLast?_cons,
        Bool.not_false, if_true]
      cases (l.takeWhile fun i => !p i).getLast? <;> simp

/-- The walk stops at the first node that satisfies `p`, with the node before it. -/
theorem locate_append (p : α → Bool) {fuel : Nat} {h : Option α} {l₁ l₂ : List α} {i : α}
    (hl : Linked next h (l₁ ++ i :: l₂)) (hfuel : (l₁ ++ i :: l₂).length < fuel)
    (hbefore : ∀ j ∈ l₁, p j = false) (hi : p i = true) :
    locate next p fuel none h = some (l₁.getLast?, some i) := by
  have hwalk : (l₁ ++ i :: l₂).takeWhile (fun j => !p j) = l₁ := by
    rw [List.takeWhile_append_of_pos fun j hj => by rw [hbefore j hj]; rfl, List.takeWhile_cons, hi]
    exact List.append_nil l₁
  have hfind : (l₁ ++ i :: l₂).find? p = some i := by
    rw [List.find?_eq_some_iff_append]
    refine ⟨hi, l₁, l₂, rfl, fun j hj => ?_⟩
    rw [hbefore j hj]
    rfl
  rw [locate_eq p hl hfuel, hwalk, hfind, Option.or_none]

end Walk

section Update

variable [DecidableEq α]

theorem Linked.push {h : Option α} {l : List α} (hl : Linked next h l) {i : α} (hi : i ∉ l) :
    Linked (Function.update next i h) (some i) (i :: l) := by
  refine ⟨rfl, ?_⟩
  rw [Function.update_self]
  refine hl.congr fun j hj => Function.update_of_ne ?_ ..
  rintro rfl
  exact hi hj

theorem Linked.update_of_notMem {h : Option α} {l : List α} (hl : Linked next h l) {i : α}
    (hi : i ∉ l) (o : Option α) : Linked (Function.update next i o) h l := by
  refine hl.congr fun j hj => Function.update_of_ne ?_ ..
  rintro rfl
  exact hi hj

omit [DecidableEq α] in
theorem Linked.tail {h : Option α} {i : α} {l : List α} (hl : Linked next h (i :: l)) :
    Linked next (next i) l := hl.2

theorem Linked.unlink {h : Option α} {l₁ l₂ : List α} {p i : α}
    (hl : Linked next h (l₁ ++ p :: i :: l₂)) (hnodup : (l₁ ++ p :: i :: l₂).Nodup) :
    Linked (Function.update next p (next i)) h (l₁ ++ p :: l₂) := by
  induction l₁ generalizing h with
  | nil =>
    obtain ⟨hp, -, hrest⟩ := hl
    have hmem : p ∉ l₂ := by
      intro hmem
      exact (List.nodup_cons.mp hnodup).1 (List.mem_cons_of_mem i hmem)
    refine ⟨hp, ?_⟩
    rw [Function.update_self]
    exact hrest.update_of_notMem hmem _
  | cons j l₁ ih =>
    obtain ⟨hj, hrest⟩ := hl
    obtain ⟨hmem, hnodup⟩ := List.nodup_cons.mp hnodup
    refine ⟨hj, ?_⟩
    have hne : j ≠ p := by
      rintro rfl
      exact hmem (by simp)
    rw [Function.update_of_ne hne]
    exact ih hrest hnodup

end Update

section Family

variable {ι : Type} [DecidableEq ι]

/-- A family of lists gains one element when one of them does. -/
theorem perm_flatMap_update {index : List ι} (hnodup : index.Nodup) {b : ι} (hb : b ∈ index)
    (chain : ι → List α) {l : List α} {x : α} (hl : l.Perm (x :: chain b)) :
    (index.flatMap (Function.update chain b l)).Perm (x :: index.flatMap chain) := by
  induction index with
  | nil => cases hb
  | cons a index ih =>
    obtain ⟨ha, hnodup⟩ := List.nodup_cons.mp hnodup
    rw [List.flatMap_cons, List.flatMap_cons]
    by_cases hab : a = b
    · subst hab
      have hsame : index.flatMap (Function.update chain a l) = index.flatMap chain := by
        refine List.flatMap_congr fun c hc => Function.update_of_ne ?_ ..
        rintro rfl
        exact ha hc
      rw [Function.update_self, hsame]
      exact hl.append_right _
    · have hb' : b ∈ index := (List.mem_cons.mp hb).resolve_left (Ne.symm hab)
      rw [Function.update_of_ne hab]
      exact ((ih hnodup hb').append_left (chain a)).trans List.perm_middle

end Family

end Sqnim.Lib.LinkedList
