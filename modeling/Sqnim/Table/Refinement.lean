import Sqnim.Table.Iteration

/-!
# Tables refine finite maps

The tables that a program creates form a store, and every operation acts on one
of them. Whatever the hash values, a run returns and its tables stand for the
maps of the same run on maps.
-/
namespace Sqnim.Table

open SQTable
open Sqnim.Lib.Chain (Chains)

variable {K V : Type} [DecidableEq K]

/-- The operations of a program on its tables, which it names by the order of their creation. -/
inductive Op (K V : Type) where
  | create (nInitialSize : Int)
  | newSlot (table : Nat) (k : K) (v : V)
  | set (table : Nat) (k : K) (v : V)
  | remove (table : Nat) (k : K)
  | clear (table : Nat)
  | clone (table : Nat)

/-- Act on one table; there is nothing to do for a table that does not exist. -/
def onTable (store : List (SQTable K V)) (table : Nat)
    (f : SQTable K V → Except Fault (SQTable K V)) : Except Fault (List (SQTable K V)) :=
  match store[table]? with
  | none => .ok store
  | some t => (f t).map fun t => store.set table t

def step (env : Env K V) (fuel : Nat) (store : List (SQTable K V)) :
    Op K V → Except Fault (List (SQTable K V))
  | .create n => (create env n).map fun t => store ++ [t]
  | .newSlot table k v => onTable store table fun t =>
      (newSlot env fuel t (some k) v).map Prod.fst
  | .set table k v => onTable store table fun t => (t.set env (some k) v).map Prod.fst
  | .remove table k => onTable store table fun t => t.remove env fuel (some k)
  | .clear table => onTable store table fun t => t.clear env fuel
  | .clone table =>
    match store[table]? with
    | none => .ok store
    | some t => (t.clone env fuel).map fun nt => store ++ [nt]

def run (env : Env K V) (fuel : Nat) (ops : List (Op K V)) : Except Fault (List (SQTable K V)) :=
  ops.foldlM (step env fuel) []

/-! The same operations on maps. -/

def onMap (maps : List (K → Option V)) (table : Nat) (f : (K → Option V) → K → Option V) :
    List (K → Option V) :=
  match maps[table]? with
  | none => maps
  | some m => maps.set table (f m)

def stepMap (maps : List (K → Option V)) : Op K V → List (K → Option V)
  | .create _ => maps ++ [fun _ : K => (none : Option V)]
  | .newSlot table k v => onMap maps table fun m => Function.update m k (some v)
  | .set table k v => onMap maps table fun m =>
      if (m k).isSome then Function.update m k (some v) else m
  | .remove table k => onMap maps table fun m => Function.update m k none
  | .clear table => onMap maps table fun _ _ => none
  | .clone table =>
    match maps[table]? with
    | none => maps
    | some m => maps ++ [m]

def runMap (ops : List (Op K V)) : List (K → Option V) := ops.foldl stepMap []

/-- Table by table, the store stands for the maps. -/
structure Refines (env : Env K V) (store : List (SQTable K V)) (maps : List (K → Option V)) :
    Prop where
  length : store.length = maps.length
  table : ∀ {i : Nat} {t m}, store[i]? = some t → maps[i]? = some m → WellFormed env t ∧ t.Contents m

section Step

variable {env : Env K V} {store : List (SQTable K V)} {maps : List (K → Option V)}
  (h : Refines env store maps)
include h

omit [DecidableEq K] in
theorem Refines.append {t : SQTable K V} {m : K → Option V} (ht : WellFormed env t)
    (hm : t.Contents m) : Refines env (store ++ [t]) (maps ++ [m]) := by
  refine ⟨by rw [List.length_append, List.length_append, h.length]; rfl, ?_⟩
  intro i t' m' hi hi'
  rw [List.getElem?_append] at hi hi'
  rw [h.length] at hi
  split_ifs at hi hi'
  · exact h.table hi hi'
  · rw [List.getElem?_singleton] at hi hi'
    split_ifs at hi hi'
    rw [← Option.some.inj hi, ← Option.some.inj hi']
    exact ⟨ht, hm⟩

omit [DecidableEq K] in
/-- An operation that is right on every table is right on a store. -/
theorem Refines.onTable {f : SQTable K V → Except Fault (SQTable K V)}
    {g : (K → Option V) → K → Option V} (table : Nat)
    (hf : ∀ {t m}, WellFormed env t → t.Contents m →
      ∃ t', f t = .ok t' ∧ WellFormed env t' ∧ t'.Contents (g m)) :
    ∃ store', Table.onTable store table f = .ok store' ∧
      Refines env store' (onMap maps table g) := by
  by_cases hlt : table < store.length
  · have hmaps : table < maps.length := h.length ▸ hlt
    obtain ⟨t', ht', hwf, hm⟩ := hf (h.table (List.getElem?_eq_getElem hlt)
      (List.getElem?_eq_getElem hmaps)).1 (h.table (List.getElem?_eq_getElem hlt)
      (List.getElem?_eq_getElem hmaps)).2
    refine ⟨store.set table t', ?_, ?_⟩
    · simp only [Table.onTable, List.getElem?_eq_getElem hlt, ht']
      rfl
    · simp only [onMap, List.getElem?_eq_getElem hmaps]
      refine ⟨by rw [List.length_set, List.length_set, h.length], ?_⟩
      intro i t m hi hi'
      rw [List.getElem?_set] at hi hi'
      split_ifs at hi hi'
      · rw [← Option.some.inj hi, ← Option.some.inj hi']
        exact ⟨hwf, hm⟩
      · exact h.table hi hi'
  · have hmaps : ¬ table < maps.length := h.length ▸ hlt
    refine ⟨store, ?_, ?_⟩
    · simp only [Table.onTable, List.getElem?_eq_none (not_lt.mp hlt)]
    · simp only [onMap, List.getElem?_eq_none (not_lt.mp hmaps)]
      exact h

/-- Every operation returns and refines the operation on maps. -/
theorem Refines.step (fuel : Nat) (op : Op K V) :
    ∃ store', Table.step env (fuel + 2) store op = .ok store' ∧
      Refines env store' (stepMap maps op) := by
  cases op with
  | create n =>
    obtain ⟨t, ht, hwf, hm⟩ := create_spec env n
    refine ⟨store ++ [t], ?_, h.append hwf hm⟩
    rw [Table.step, ht]
    rfl
  | newSlot table k v =>
    refine h.onTable table fun hwf hm => ?_
    obtain ⟨t', created, hns, hwf', -, hm'⟩ := hwf.newSlot_spec hm k v fuel
    exact ⟨t', congrArg (Except.map Prod.fst) hns, hwf', hm'⟩
  | set table k v =>
    refine h.onTable table fun hwf hm => ?_
    obtain ⟨t', hset, hwf', -, hm'⟩ := hwf.set_spec hm k v
    exact ⟨t', congrArg (Except.map Prod.fst) hset, hwf', hm'⟩
  | remove table k =>
    refine h.onTable table fun hwf hm => ?_
    obtain ⟨t', hr, hwf', -, hm'⟩ := hwf.remove_spec hm k (fuel + 1)
    exact ⟨t', hr, hwf', hm'⟩
  | clear table =>
    refine h.onTable table fun hwf hm => ?_
    obtain ⟨t', hr, hwf', -, hm'⟩ := hwf.clear_spec (fuel + 1)
    exact ⟨t', hr, hwf', hm'⟩
  | clone table =>
    by_cases hlt : table < store.length
    · have hmaps : table < maps.length := h.length ▸ hlt
      obtain ⟨hwf, hm⟩ := h.table (List.getElem?_eq_getElem hlt) (List.getElem?_eq_getElem hmaps)
      obtain ⟨nt, hc, hwf', -, hm'⟩ := hwf.clone_spec fuel hm
      refine ⟨store ++ [nt], ?_, ?_⟩
      · simp only [Table.step, List.getElem?_eq_getElem hlt, hc]
        rfl
      · simp only [stepMap, List.getElem?_eq_getElem hmaps]
        exact h.append hwf' hm'
    · have hmaps : ¬ table < maps.length := h.length ▸ hlt
      refine ⟨store, ?_, ?_⟩
      · simp only [Table.step, List.getElem?_eq_none (not_lt.mp hlt)]
      · simp only [stepMap, List.getElem?_eq_none (not_lt.mp hmaps)]
        exact h

theorem Refines.foldl (fuel : Nat) (ops : List (Op K V)) :
    ∃ store', ops.foldlM (Table.step env (fuel + 2)) store = .ok store' ∧
      Refines env store' (ops.foldl stepMap maps) := by
  induction ops generalizing store maps with
  | nil => exact ⟨store, rfl, h⟩
  | cons op ops ih =>
    obtain ⟨store₁, hs, h₁⟩ := h.step fuel op
    obtain ⟨store₂, hs', h₂⟩ := ih h₁
    refine ⟨store₂, ?_, h₂⟩
    rw [List.foldlM_cons, hs]
    exact hs'

end Step

/-- What a program sees of a table and what its internals promise, for a way to read a stored
value. -/
structure StandsFor (env : Env K V) (read : V → V) (t : SQTable K V) (m : K → Option V) : Prop where
  get : ∀ k, t.get env (some k) = .ok ((m k).map read)
  countUsed : ∃ keys : Finset K, (∀ k, k ∈ keys ↔ m k ≠ none) ∧ t.countUsed = keys.card
  next : ∃ entries, t.iterate env (t.numOfNodes + 1) none = .ok entries ∧
    (entries.map Prod.fst).Nodup ∧ ∀ k v, (k, v) ∈ entries ↔ ∃ w, m k = some w ∧ v = read w
  acyclic : Chains t.links
  firstFree : t.firstFree < t.numOfNodes ∧ t.keyAt t.firstFree = none ∧ t.links t.firstFree = none

theorem SQTable.WellFormed.countUsed_spec {env : Env K V} {t : SQTable K V} (h : WellFormed env t)
    {m : K → Option V} (hm : t.Contents m) :
    ∃ keys : Finset K, (∀ k, k ∈ keys ↔ m k ≠ none) ∧ t.countUsed = keys.card := by
  have hkey : ∀ i, i ∈ t.occupied → t.keyAt i ≠ none := fun i hi => (mem_occupied.mp hi).2
  refine ⟨t.occupied.attach.image fun i =>
    (t.keyAt i.1).get (Option.isSome_iff_ne_none.mpr (hkey i.1 i.2)), fun k => ?_, ?_⟩
  · rw [Finset.mem_image]
    constructor
    · rintro ⟨i, -, hi⟩
      have hk : t.keyAt i.1 = some k := by rw [← hi, Option.some_get]
      rw [contents_some hm hk]
      nofun
    · intro hk
      obtain ⟨v, hv⟩ := Option.ne_none_iff_exists'.mp hk
      obtain ⟨i, hi, -⟩ := (hm k v).mp hv
      have hocc : i ∈ t.occupied := by
        refine mem_occupied.mpr ⟨h.lt_of_key hi, ?_⟩
        rw [hi]
        nofun
      refine ⟨⟨i, hocc⟩, Finset.mem_attach _ _, ?_⟩
      simp only [hi, Option.get_some]
  · rw [Finset.card_image_of_injective, Finset.card_attach]
    · exact h.used
    · intro i j hij
      have hi := Option.some_get (Option.isSome_iff_ne_none.mpr (hkey i.1 i.2))
      have hj := Option.some_get (Option.isSome_iff_ne_none.mpr (hkey j.1 j.2))
      exact Subtype.ext (h.unique hi.symm (hj.symm.trans (congrArg some hij.symm)))

theorem SQTable.WellFormed.standsFor {env : Env K V} {t : SQTable K V} (h : WellFormed env t)
    {m : K → Option V} (hm : t.Contents m) : StandsFor env env.realval t m := by
  refine ⟨h.get_spec hm, h.countUsed_spec hm, ?_, h.chains, h.firstFree_lt, h.firstFree_free⟩
  refine ⟨_, iterate_spec none (Nat.lt_succ_self _), nodup_entriesFrom h.unique _ _, fun k v => ?_⟩
  rw [mem_entriesFrom]
  constructor
  · rintro ⟨i, -, -, hi, hv⟩
    exact ⟨_, contents_some hm hi, hv⟩
  · rintro ⟨w, hw, hv⟩
    obtain ⟨i, hi, hwi⟩ := (hm k w).mp hw
    refine ⟨i, Nat.zero_le i, ?_, hi, hwi ▸ hv⟩
    have hlt := h.lt_of_key hi
    simp only [translateIndex]
    omega

end Sqnim.Table
