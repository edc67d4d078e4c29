import Sqnim.Table.Delegation

/-!
# What NewSlot and Set tell

`NewSlot` tells whether it has made a slot, and `Set` whether there was one. `NewSlot` forgets it
where it rebuilds the table, and `Set` takes a node without a key for the slot of the key null.
-/
namespace Sqnim.Table

open Sqnim.Lib.Chain

variable {K V : Type} [DecidableEq K]

/-- A table that a program can make. No operation but `Set` is called with the key null, and
`NewSlot` asserts that it is not. -/
inductive Reachable (env : Env K V) : SQTable K V → Prop
  | create (n : Int) (t : SQTable K V) (h : SQTable.create env n = .ok t) : Reachable env t
  | newSlot (fuel : Nat) (t t' : SQTable K V) (key : Option K) (val : V) (created : Bool)
    (ht : Reachable env t) (h : SQTable.newSlot env (fuel + 2) t key val = .ok (t', created)) :
    Reachable env t'
  | set (t t' : SQTable K V) (key : Option K) (val : V) (done : Bool) (ht : Reachable env t)
    (h : t.set env key val = .ok (t', done)) : Reachable env t'
  | remove (fuel : Nat) (t t' : SQTable K V) (k : K) (ht : Reachable env t)
    (h : t.remove env (fuel + 2) (some k) = .ok t') : Reachable env t'
  | clear (fuel : Nat) (t t' : SQTable K V) (ht : Reachable env t)
    (h : t.clear env (fuel + 2) = .ok t') : Reachable env t'
  | clone (fuel : Nat) (t t' : SQTable K V) (ht : Reachable env t)
    (h : t.clone env (fuel + 2) = .ok t') : Reachable env t'
  | delegate (t : SQTable K V) (mt : Option Nat) (ht : Reachable env t) :
    Reachable env { t with delegate := mt }

namespace SQTable

variable {env : Env K V} {t : SQTable K V}

omit [DecidableEq K] in
theorem contents_setVal_free {m : K → Option V} (hm : t.Contents m) {i : Nat} (w : V)
    (hi : t.keyAt i = none) : (t.modify i fun x => { x with val := w }).Contents m := by
  intro k v
  rw [hm k v]
  refine exists_congr fun j => ?_
  rw [keyAt_setVal, valAt_modify]
  refine and_congr_right fun hj => ?_
  have hne : j ≠ i := by
    rintro rfl
    rw [hi] at hj
    cases hj
  rw [if_neg hne]

/-- A lookup that starts at the main position of a key ends at a node with that key, or there is
none on the chain. -/
theorem Chained.getNode_cases (h : Chained env t) (key : Option K) :
    (∃ i, t.getNode key (t.mainPosition env key) = .ok (some i) ∧ t.keyAt i = key ∧
        Reach t.links (t.mainPosition env key) i) ∨
      (t.getNode key (t.mainPosition env key) = .ok none ∧
        ∀ i, Reach t.links (t.mainPosition env key) i → t.keyAt i ≠ key) := by
  obtain ⟨i, hs, hr, hi⟩ | ⟨hs, hall⟩ :=
    h.search_spec (fun i => (t.nodes i).key == key) (mainPosition_lt env h.size key)
  · refine .inl ⟨i, ?_, beq_iff_eq.mp hi, hr⟩
    rw [getNode, hs]
  · refine .inr ⟨?_, fun i hr hi => ?_⟩
    · rw [getNode, hs]
    · have hf := hall i hr
      rw [← keyAt, hi, beq_self_eq_true] at hf
      cases hf

end SQTable

open SQTable

theorem Reachable.spec {env : Env K V} {t : SQTable K V} (h : Reachable env t) :
    WellFormed env t ∧ ∃ m, t.Contents m := by
  induction h with
  | create n t h =>
    obtain ⟨t', ht', hwf, hm⟩ := create_spec env n
    rw [h] at ht'
    cases ht'
    exact ⟨hwf, _, hm⟩
  | newSlot fuel t t' key val created _ h ih =>
    obtain ⟨hwf, m, hm⟩ := ih
    cases key with
    | none => cases h
    | some k =>
      obtain ⟨t'', created', hns, hwf', -, hm'⟩ := hwf.newSlot_spec hm k val fuel
      rw [h] at hns
      cases hns
      exact ⟨hwf', _, hm'⟩
  | set t t' key val done _ h ih =>
    obtain ⟨hwf, m, hm⟩ := ih
    obtain ⟨i, hg, hi, -⟩ | ⟨hg, -⟩ := hwf.getNode_cases key
    · simp only [SQTable.set, hg] at h
      cases h
      refine ⟨hwf.setVal val, ?_⟩
      cases key with
      | none => exact ⟨m, contents_setVal_free hm val hi⟩
      | some k => exact ⟨_, contents_setVal val hwf.toChained hm hi⟩
    · simp only [SQTable.set, hg] at h
      cases h
      exact ⟨hwf, m, hm⟩
  | remove fuel t t' k _ h ih =>
    obtain ⟨hwf, m, hm⟩ := ih
    obtain ⟨t'', hr, hwf', -, hm'⟩ := hwf.remove_spec hm k (fuel + 1)
    rw [h] at hr
    cases hr
    exact ⟨hwf', _, hm'⟩
  | clear fuel t t' _ h ih =>
    obtain ⟨t'', hc, hwf', -, hm'⟩ := ih.1.clear_spec (fuel + 1)
    rw [h] at hc
    cases hc
    exact ⟨hwf', _, hm'⟩
  | clone fuel t t' _ h ih =>
    obtain ⟨hwf, m, hm⟩ := ih
    obtain ⟨t'', hc, hwf', -, hm'⟩ := hwf.clone_spec fuel hm
    rw [h] at hc
    cases hc
    exact ⟨hwf', _, hm'⟩
  | delegate t mt _ ih =>
    obtain ⟨hwf, m, hm⟩ := ih
    exact ⟨hwf.congr (t := t) rfl (fun _ => rfl) rfl rfl rfl, m, hm⟩

/-! ## NewSlot -/

namespace SQTable

/-- The node that storing an absent key takes away from the free ones. -/
def taken (env : Env K V) (t : SQTable K V) (k : K) : Nat :=
  if t.keyAt (t.main env k) = none then t.main env k else t.firstFree

/-- Another free node stands at or below the free pointer. -/
def HasRoom (env : Env K V) (t : SQTable K V) (k : K) : Prop :=
  ∃ i ≤ t.firstFree, t.isFree i = true ∧ i ≠ t.taken env k

section Room

variable {env : Env K V} {t : SQTable K V} (h : WellFormed env t) {k : K}
include h

omit [DecidableEq K] in
theorem WellFormed.isFree_place {t₁ : SQTable K V} {x : Nat}
    (hplace : t.place env (t.main env k) = .ok (t₁, x)) (i : Nat) :
    (t₁.modify x fun y => { y with key := some k }).isFree i = true ↔
      t.isFree i = true ∧ i ≠ t.taken env k := by
  rw [isFree_iff, isFree_iff, taken]
  cases hc : t.keyAt (t.main env k) with
  | none =>
    rw [place, show (t.nodes (t.main env k)).key = none from hc] at hplace
    cases hplace
    rw [keyAt_modify, links_modify, if_pos rfl]
    by_cases hi : i = t.main env k
    · simp [hi]
    · simp [hi]
  | some c =>
    have hkey : (t.nodes (t.main env k)).key = some c := hc
    have hne : t.main env k ≠ t.firstFree := by
      intro he
      rw [he, h.firstFree_free.1] at hc
      cases hc
    rw [if_neg (Option.some_ne_none c)]
    by_cases hmain : t.main env c = t.main env k
    · have hcond : ¬ (t.main env k > t.firstFree ∧
          t.mainPosition env (some c) ≠ t.main env k) := fun hand => hand.2 hmain
      simp only [place, hkey, if_neg hcond] at hplace
      cases hplace
      rw [keyAt_chain t k hne, links_chain t k hne]
      by_cases hin : i = t.firstFree
      · simp [hin]
      · by_cases him : i = t.main env k
        · simp [him, hc, hne]
        · rw [if_neg hin, insertAfter_other him hin]
          simp [hin]
    · have hgt := h.firstFree_lt_of_displaced hc hmain
      obtain ⟨prev, hp, hprev⟩ := h.predecessor_spec (mainPosition_lt env h.size (some c)) hmain
        (h.reachable hc)
      have hcond : t.main env k > t.firstFree ∧
          t.mainPosition env (some c) ≠ t.main env k := ⟨hgt, hmain⟩
      have hpm : prev ≠ t.main env k := h.chains.ne_of_link hprev
      simp only [place, hkey, if_pos hcond, hp] at hplace
      cases hplace
      rw [keyAt_relocate env t k hc hpm, links_relocate env t k hne hpm]
      by_cases him : i = t.main env k
      · simp [him, hc]
      · by_cases hin : i = t.firstFree
        · simp [hin, hne.symm]
        · rw [if_neg him, if_neg hin]
          by_cases hip : i = prev
          · rw [hip] at hin
            simp [hip, hprev, replace_pred _ hpm hin]
          · rw [replace_other hip him hin]
            simp [hin]

end Room

theorem WellFormed.countUsed_newSlot {env : Env K V} {t t' : SQTable K V} (h : WellFormed env t)
    (h' : WellFormed env t') {m : K → Option V} (hm : t.Contents m) {k : K} {v : V}
    (hm' : t'.Contents (Function.update m k (some v))) :
    t'.countUsed = t.countUsed + if (m k).isSome then 0 else 1 := by
  obtain ⟨keys, hkeys, hcount⟩ := h.countUsed_spec hm
  obtain ⟨keys', hkeys', hcount'⟩ := h'.countUsed_spec hm'
  have hinsert : keys' = insert k keys := by
    ext k'
    rw [hkeys', Finset.mem_insert, hkeys]
    by_cases hkk : k' = k
    · simp [hkk]
    · rw [Function.update_of_ne hkk, or_iff_right hkk]
  rw [hcount', hcount, hinsert]
  by_cases hk : m k = none
  · rw [Finset.card_insert_of_notMem fun hmem => (hkeys k).mp hmem hk, hk]
    rfl
  · rw [Finset.insert_eq_of_mem ((hkeys k).mpr hk), if_pos (Option.isSome_iff_ne_none.mpr hk)]
    exact (Int.add_zero _).symm

omit [DecidableEq K] in
theorem isSome_correctFirstFree (t : SQTable K V) (f : Nat) :
    (t.correctFirstFree f).isSome = true ↔ ∃ i ≤ f, t.isFree i = true := by
  cases hfree : t.correctFirstFree f with
  | none =>
    refine iff_of_false nofun ?_
    rintro ⟨i, hi, hfi⟩
    exact correctFirstFree_none hfree i hi hfi
  | some free =>
    obtain ⟨hle, hfi, -⟩ := correctFirstFree_some hfree
    exact iff_of_true rfl ⟨free, hle, hfi⟩

theorem WellFormed.newSlot_created {env : Env K V} {t : SQTable K V} (h : WellFormed env t)
    {m : K → Option V} (hm : t.Contents m) (k : K) (v : V) (fuel : Nat) :
    ∃ t' created, newSlot env (fuel + 2) t (some k) v = .ok (t', created) ∧
      (created = true ↔ m k = none ∧ t.HasRoom env k) ∧
        t'.countUsed = t.countUsed + if (m k).isSome then 0 else 1 := by
  obtain ⟨t', created, hns, hwf, -, hm', htells⟩ := h.newSlot_tells hm k v fuel
  refine ⟨t', created, hns, ?_, h.countUsed_newSlot hwf hm hm'⟩
  obtain ⟨⟨i, hi⟩, rfl⟩ | ⟨habsent, t₁, x, hplace, rfl⟩ := htells
  · rw [contents_some hm hi]
    exact ⟨by rintro ⟨⟩, by rintro ⟨⟨⟩, -⟩⟩
  · rw [isSome_correctFirstFree, and_iff_right (contents_none hm habsent), HasRoom]
    exact exists_congr fun i => and_congr_right fun _ => h.isFree_place hplace i

end SQTable

/-- The property of `NewSlot`: it returns true if and only if the key was absent, and `CountUsed`
grows by one exactly then. -/
def NewSlotTells (env : Env K V) (fuel : Nat) (t : SQTable K V) (k : K) (v : V) : Prop :=
  ∃ t' created, newSlot env (fuel + 2) t (some k) v = .ok (t', created) ∧
    (created = true ↔ t.get env (some k) = .ok none) ∧
    (t.get env (some k) = .ok none → t'.countUsed = t.countUsed + 1) ∧
    (t.get env (some k) ≠ .ok none → t'.countUsed = t.countUsed)

theorem SQTable.WellFormed.get_none_iff {env : Env K V} {t : SQTable K V} (h : WellFormed env t)
    {m : K → Option V} (hm : t.Contents m) (k : K) :
    t.get env (some k) = .ok none ↔ m k = none := by
  rw [h.get_spec hm k, Except.ok.injEq, Option.map_eq_none_iff]

/-- `NewSlot` tells the truth in every table that a program can make, if and only if the key is
present or another free node stands at or below the free pointer. -/
theorem newSlotTells_iff {env : Env K V} {t : SQTable K V} (ht : Reachable env t) (fuel : Nat)
    (k : K) (v : V) :
    NewSlotTells env fuel t k v ↔ (t.get env (some k) = .ok none → t.HasRoom env k) := by
  obtain ⟨hwf, m, hm⟩ := ht.spec
  obtain ⟨t', created, hns, hcreated, hcount⟩ := hwf.newSlot_created hm k v fuel
  rw [NewSlotTells, hwf.get_none_iff hm]
  constructor
  · rintro ⟨t'', created', hns', htells, -⟩ habsent
    rw [hns] at hns'
    cases hns'
    exact (hcreated.mp (htells.mpr habsent)).2
  · intro hroom
    refine ⟨t', created, hns, ?_, ?_, ?_⟩
    · rw [hcreated]
      exact ⟨And.left, fun habsent => ⟨habsent, hroom habsent⟩⟩
    · intro habsent
      rw [hcount, habsent]
      rfl
    · intro hpresent
      have hsome : m k ≠ none := fun hnone => hpresent ((hwf.get_none_iff hm k).mpr hnone)
      rw [hcount, if_pos (Option.isSome_iff_ne_none.mpr hsome), Int.add_zero]

def natEnv : Env Nat Nat := ⟨id, 0, id⟩

def withKey (t : SQTable Nat Nat) (k : Nat) : SQTable Nat Nat :=
  match newSlot natEnv 2 t (some k) k with
  | .ok (t', _) => t'
  | .error _ => t

def emptyTable : SQTable Nat Nat := allocNodes natEnv ⟨fun _ => ⟨0, none, none⟩, 0, 0, 0, none⟩ 4

def twoKeys : SQTable Nat Nat := withKey (withKey emptyTable 0) 1

def threeKeys : SQTable Nat Nat := withKey twoKeys 2

theorem reachable_emptyTable : Reachable natEnv emptyTable := .create 0 _ rfl

theorem Reachable.withKey {t : SQTable Nat Nat} (ht : Reachable natEnv t) (k : Nat) :
    Reachable natEnv (Table.withKey t k) := by
  unfold Table.withKey
  split
  · next t' created h => exact .newSlot 0 t t' (some k) k created ht h
  · exact ht

theorem reachable_twoKeys : Reachable natEnv twoKeys :=
  (reachable_emptyTable.withKey 0).withKey 1

theorem reachable_threeKeys : Reachable natEnv threeKeys := reachable_twoKeys.withKey 2

/-- The fourth key takes the last node, and `NewSlot` returns false. -/
theorem not_newSlotTells : Reachable natEnv threeKeys ∧ ¬ NewSlotTells natEnv 0 threeKeys 3 3 := by
  refine ⟨reachable_threeKeys, ?_⟩
  rintro ⟨t', created, hns, htells, -⟩
  have habsent : threeKeys.get natEnv (some 3) = .ok none := rfl
  have hfalse : (newSlot natEnv 2 threeKeys (some 3) 3).map Prod.snd = .ok false := rfl
  rw [hns] at hfalse
  cases hfalse
  cases htells.mpr habsent

/-- The main position of 4 has the key 0; the last node takes it, and the third stays free. The key
1 is in the table. -/
theorem newSlotTells_twoKeys : NewSlotTells natEnv 0 twoKeys 4 4 ∧ NewSlotTells natEnv 0 twoKeys 1 5 :=
  ⟨(newSlotTells_iff reachable_twoKeys 0 4 4).mpr fun _ => ⟨2, by decide, rfl, by decide⟩,
    (newSlotTells_iff reachable_twoKeys 0 1 5).mpr fun habsent => absurd habsent (by decide)⟩

/-! ## Set -/

/-- How an assignment ends: it succeeds, raises the error of a missing index, or leaves the error of
a metamethod. -/
inductive SetAnswer (K : Type) where
  | done
  | missing (key : Option K)
  | failed

namespace World

variable (env : Env K V) (vm : Vm K V)

/-- `SQVM::Set` on a table or a userdata, with the error that it raises. -/
def assign (fuel : Nat) (w : World K V) (self : Delegable) (key : Option K) (val : V)
    (selfidx : Int) : Except Fault (SetAnswer K × World K V) := do
  match ← w.setOwn env self key val with
  | (true, w) => .ok (.done, w)
  | (false, w) =>
    match ← w.fallBackSet env vm (fun w d => set env vm fuel w d key val dontFallBack) self key
      val with
    | (.ok (), w) => .ok (.done, w)
    | (.error, w) => .ok (.failed, w)
    | (.noMatch, w) =>
      if selfidx = 0 then do
        match ← w.setOwn env (.table vm.roottable) key val with
        | (true, w) => .ok (.done, w)
        | (false, w) => .ok (.missing key, w)
      else .ok (.missing key, w)

theorem set_eq_assign (fuel : Nat) (w : World K V) (self : Delegable) (key : Option K) (val : V)
    (selfidx : Int) : w.set env vm (fuel + 1) self key val selfidx =
      (w.assign env vm fuel self key val selfidx).map fun r =>
        (match r.1 with | .done => true | _ => false, r.2) := by
  rw [set, assign]
  cases w.setOwn env self key val with
  | error e => rfl
  | ok own =>
    obtain ⟨done, w₁⟩ := own
    cases done with
    | true => rfl
    | false =>
      show (w₁.fallBackSet env vm _ self key val >>= _) =
        Except.map _ (w₁.fallBackSet env vm _ self key val >>= _)
      cases w₁.fallBackSet env vm (fun w d => set env vm fuel w d key val dontFallBack) self key
        val with
      | error e => rfl
      | ok fallback =>
        obtain ⟨answer, w₂⟩ := fallback
        cases answer with
        | ok dest => rfl
        | error => rfl
        | noMatch =>
          by_cases hself : selfidx = 0
          · simp only [hself, if_true, bind, Except.bind]
            cases w₂.setOwn env (.table vm.roottable) key val with
            | error e => rfl
            | ok root =>
              obtain ⟨done, w₃⟩ := root
              cases done with
              | true => rfl
              | false => rfl
          · simp only [hself, if_false, bind, Except.bind]
            rfl

end World

/-- The property of `Set`: it returns true if and only if `Get` succeeds just before, and then only
the value of the key changes; else nothing changes, and the assignment raises the error of a missing
index. -/
def SetTells (env : Env K V) (t : SQTable K V) (key : Option K) (val : V) : Prop :=
  ∃ t' done, t.set env key val = .ok (t', done) ∧
    (done = true ↔ ∃ x, t.get env key = .ok (some x)) ∧
    (done = true → ∃ i, t.keyAt i = key ∧ t' = t.modify i fun x => { x with val := val }) ∧
    (done = false → t' = t) ∧
    ∀ (vm : Vm K V) (w : World K V) (a fuel : Nat) (selfidx : Int),
      w.tables[a]? = some t → selfidx ≠ 0 →
        w.assign env vm fuel (.table a) key val selfidx =
          .ok (if done then .done else .missing key, { w with tables := w.tables.set a t' })

/-- An assignment to a table without a delegate, other than `this`, does what `Set` does. -/
theorem World.assign_eq {env : Env K V} {vm : Vm K V} {w : World K V} {a fuel : Nat}
    {t t' : SQTable K V} {key : Option K} {val : V} {done : Bool} {selfidx : Int}
    (hw : w.tables[a]? = some t) (hd : t'.delegate = none)
    (hset : t.set env key val = .ok (t', done)) (hself : selfidx ≠ 0) :
    w.assign env vm fuel (.table a) key val selfidx =
      .ok (if done then .done else .missing key, { w with tables := w.tables.set a t' }) := by
  have hown : w.setOwn env (.table a) key val =
      .ok (done, { w with tables := w.tables.set a t' }) := by
    simp only [setOwn, hw, hset]
    rfl
  cases done with
  | true =>
    simp only [assign, hown]
    rfl
  | false =>
    obtain ⟨hlt, -⟩ := List.getElem?_eq_some_iff.mp hw
    have hnext : ({ w with tables := w.tables.set a t' } : World K V).next a = none := by
      rw [next, List.getElem?_set_self hlt]
      exact hd
    have hfall : ∀ set, World.fallBackSet env vm set { w with tables := w.tables.set a t' }
        (.table a) key val = .ok (.noMatch, { w with tables := w.tables.set a t' }) := by
      intro set
      simp only [fallBackSet, hnext, setByMetaMethod, getMetaMethod, delegateOf]
      rfl
    simp only [assign, hown]
    show (World.fallBackSet env vm _ _ (.table a) key val >>= _) = _
    rw [hfall]
    exact if_neg hself

/-- `Set` tells the truth of every key other than null; of null it does if and only if no node
without a key is on the chain from the first node. -/
theorem setTells_iff {env : Env K V} {t : SQTable K V} (ht : Reachable env t)
    (hd : t.delegate = none) (key : Option K) (val : V) :
    SetTells env t key val ↔ (key = none → ∀ i, Reach t.links 0 i → t.keyAt i ≠ none) := by
  obtain ⟨hwf, m, hm⟩ := ht.spec
  have hmain : t.mainPosition env none = 0 := Nat.zero_and _
  obtain ⟨i, hg, hi, hr⟩ | ⟨hg, hall⟩ := hwf.getNode_cases key
  · have hset : t.set env key val = .ok (t.modify i fun x => { x with val := val }, true) := by
      simp only [SQTable.set, hg]
      rfl
    cases key with
    | none =>
      refine iff_of_false ?_ fun hno => hno rfl i (hmain ▸ hr) hi
      rintro ⟨t', done, hset', htells, -⟩
      rw [hset] at hset'
      cases hset'
      obtain ⟨x, hx⟩ := htells.mp rfl
      cases hx
    | some k =>
      refine iff_of_true ⟨_, true, hset, ?_, fun _ => ⟨i, hi, rfl⟩, by rintro ⟨⟩, ?_⟩ (by rintro ⟨⟩)
      case refine_2 => exact fun vm w a fuel selfidx hw hself => World.assign_eq hw hd hset hself
      rw [hwf.get_spec hm k, contents_some hm hi]
      exact iff_of_true rfl ⟨_, rfl⟩
  · have hset : t.set env key val = .ok (t, false) := by
      simp only [SQTable.set, hg]
      rfl
    have hget : t.get env key = .ok none := by
      cases key with
      | none => rfl
      | some k =>
        simp only [SQTable.get, Option.isNone_some, Bool.false_eq_true, if_false, hg]
        rfl
    refine iff_of_true ⟨t, false, hset, ?_, by rintro ⟨⟩, fun _ => rfl, ?_⟩ ?_
    · rw [hget]
      exact iff_of_false Bool.false_ne_true (by rintro ⟨_, ⟨⟩⟩)
    · intro vm w a fuel selfidx hw hself
      exact World.assign_eq hw hd hset hself
    · rintro rfl j hj
      exact hall j (hmain.symm ▸ hj)

/-- `t[null] = 5` succeeds on an empty table, and writes the first node. -/
theorem not_setTells : Reachable natEnv emptyTable ∧ emptyTable.delegate = none ∧
    ¬ SetTells natEnv emptyTable none 5 := by
  refine ⟨reachable_emptyTable, rfl, ?_⟩
  rintro ⟨t', done, hset, htells, -⟩
  have htrue : (emptyTable.set natEnv none 5).map Prod.snd = .ok true := rfl
  rw [hset] at htrue
  cases htrue
  obtain ⟨x, hx⟩ := htells.mp rfl
  cases hx

theorem setTells_threeKeys : SetTells natEnv threeKeys none 5 :=
  (setTells_iff reachable_threeKeys rfl none 5).mpr fun _ i hi hfree => by
    have hlink : threeKeys.links 0 = none := rfl
    obtain rfl := reach_of_isolated hlink hi
    cases hfree

end Sqnim.Table
