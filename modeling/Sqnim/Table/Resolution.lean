import Sqnim.Table.Delegation

/-!
# Delegation is well-founded and resolves to the nearest table

Whatever is linked, in whatever order, no chain of delegates closes. A key that
is not in a table is looked up, or assigned, in the first table of the chain
that has it.
-/
namespace Sqnim.Table

open SQTable
open Sqnim.Lib.Chain (Ranked Reach)
open Sqnim.Lib.LinkedList

variable {K V : Type} {env : Env K V} {w w' : World K V}
  {maps : List (K → Option V)}

/-- The tables stand for maps, and their delegates are tables and lead down. -/
structure Sound (env : Env K V) (w : World K V) (maps : List (K → Option V)) : Prop where
  refines : Refines env w.tables maps
  ranked : Ranked w.next
  exists_next : ∀ {a b}, w.next a = some b → b < w.tables.length

section Chains

/-- The chain of a table passes through no more tables than there are. -/
theorem Sound.chain (h : Sound env w maps) {a : Nat} (ha : a < w.tables.length) :
    ∃ l, Linked w.next (some a) l ∧ l.length ≤ w.tables.length := by
  obtain ⟨rank, hrank, hbound⟩ := h.ranked.bounded (Finset.range w.tables.length)
    fun hab => Finset.mem_range.mpr (h.exists_next hab)
  obtain ⟨l, hl, hlen⟩ := exists_linked hrank a
  have hlt := hbound a (Finset.mem_range.mpr ha)
  rw [Finset.card_range] at hlt
  exact ⟨l, hl, by omega⟩

end Chains

section SetDelegate

theorem leadsTo_eq (this : Delegable) {fuel : Nat} {start : Option Nat} {l : List Nat}
    (hl : Linked w.next start l) (hfuel : l.length < fuel) :
    w.leadsTo this fuel start =
      .ok (l.any fun b => (w.next b).map Delegable.table == some this) := by
  induction l generalizing fuel start with
  | nil =>
    obtain ⟨fuel, rfl⟩ := Nat.exists_eq_succ_of_ne_zero (show fuel ≠ 0 by omega)
    obtain rfl : start = none := hl
    rfl
  | cons a l ih =>
    obtain ⟨fuel, rfl⟩ := Nat.exists_eq_succ_of_ne_zero (show fuel ≠ 0 by omega)
    obtain ⟨rfl, hrest⟩ := hl
    rw [List.length_cons] at hfuel
    rw [World.leadsTo, List.any_cons]
    by_cases hthis : (w.next a).map Delegable.table = some this
    · rw [if_pos hthis, beq_iff_eq.mpr hthis, Bool.true_or]
    · rw [if_neg hthis, ih hrest (by omega), beq_false_of_ne hthis, Bool.false_or]

theorem next_setLink {a : Nat} (ha : a < w.tables.length) (mt : Option Nat) :
    (w.setLink (.table a) mt).next = Function.update w.next a mt := by
  funext b
  rw [World.next, World.setLink]
  by_cases hb : b = a
  · rw [hb, Function.update_self, List.getElem?_modify_eq, List.getElem?_eq_getElem ha]
    rfl
  · rw [Function.update_of_ne hb, List.getElem?_modify_ne _ _ (Ne.symm hb), World.next]

theorem refines_setLink (h : Refines env w.tables maps) (this : Delegable) (mt : Option Nat) :
    Refines env (w.setLink this mt).tables maps := by
  cases this with
  | userdata u => exact h
  | table a =>
    refine ⟨?_, fun {i t m} hi hm => ?_⟩
    · rw [← h.length]
      exact List.length_modify ..
    · rw [World.setLink] at hi
      by_cases hia : i = a
      · rw [hia, List.getElem?_modify_eq] at hi
        obtain ⟨t₀, ht₀, rfl⟩ := Option.map_eq_some_iff.mp hi
        obtain ⟨hwf, hcontents⟩ := h.table ht₀ (hia ▸ hm)
        exact ⟨WellFormed.congr (t := t₀) rfl (fun _ => rfl) rfl hwf rfl rfl, hcontents⟩
      · rw [List.getElem?_modify_ne _ _ (Ne.symm hia)] at hi
        exact h.table hi hm

theorem length_setLink (this : Delegable) (mt : Option Nat) :
    (w.setLink this mt).tables.length = w.tables.length := by
  cases this with
  | userdata u => rfl
  | table a => exact List.length_modify ..

/-- A link that `SetDelegate` does not refuse leads to no cycle. -/
theorem Sound.setLink (h : Sound env w maps) {a : Nat} (ha : a < w.tables.length)
    {mt : Option Nat} (hmt : ∀ b ∈ mt, b < w.tables.length)
    (hback : ∀ b ∈ mt, ¬ Reach w.next b a) : Sound env (w.setLink (.table a) mt) maps := by
  refine ⟨refines_setLink h.refines _ _, ?_, fun {i j} hij => ?_⟩
  · rw [next_setLink ha]
    cases mt with
    | none => exact h.ranked.cut a
    | some b => exact h.ranked.relink (hback b rfl)
  · rw [length_setLink]
    rw [next_setLink ha] at hij
    by_cases hia : i = a
    · rw [hia, Function.update_self] at hij
      exact hmt j hij
    · rw [Function.update_of_ne hia] at hij
      exact h.exists_next hij

/-- Nothing delegates to a userdata, so that it is on no cycle either. -/
theorem Sound.acyclic (h : Sound env w maps) (d : Delegable) :
    ¬ Relation.TransGen (fun d e => (w.delegateOf d).map Delegable.table = some e) d d := by
  have hlink : ∀ {d e}, (w.delegateOf d).map Delegable.table = some e →
      ∃ b, e = .table b ∧ w.delegateOf d = some b := by
    intro d e hde
    obtain ⟨b, hb, rfl⟩ := Option.map_eq_some_iff.mp hde
    exact ⟨b, rfl, hb⟩
  have hlift : ∀ {a : Nat} {e},
      Relation.TransGen (fun d e => (w.delegateOf d).map Delegable.table = some e) (.table a) e →
        ∃ b, e = .table b ∧ Relation.TransGen (fun i j => w.next i = some j) a b := by
    intro a e hae
    induction hae with
    | single hstep =>
      obtain ⟨b, rfl, hb⟩ := hlink hstep
      exact ⟨b, rfl, .single hb⟩
    | tail _ hstep ih =>
      obtain ⟨b, rfl, hab⟩ := ih
      obtain ⟨c, rfl, hc⟩ := hlink hstep
      exact ⟨c, rfl, .tail hab hc⟩
  intro hcycle
  obtain ⟨e, -, hed⟩ := Relation.TransGen.tail'_iff.mp hcycle
  obtain ⟨a, rfl, -⟩ := hlink hed
  obtain ⟨b, hb, hab⟩ := hlift hcycle
  obtain rfl := Delegable.table.inj hb
  exact h.ranked.acyclic a hab

theorem not_reach {a b : Nat} {l : List Nat}
    (hl : Linked w.next (some b) l) (hne : b ≠ a)
    (hcycle : (l.any fun c => (w.next c).map Delegable.table == some (.table a)) = false) :
    ¬ Reach w.next b a := by
  intro hreach
  rcases hreach.cases_tail with heq | ⟨c, hc, hca⟩
  · exact hne heq.symm
  · have hmem := hl.mem_of_reach hc
    have hall := List.any_eq_false.mp hcycle c hmem
    rw [hca] at hall
    simp at hall

/-- `SetDelegate` returns; a refused link changes nothing, and no link closes a chain. -/
theorem Sound.setDelegate (h : Sound env w maps) {this : Delegable} (hthis : w.holds this)
    {mt : Option Nat} (hmt : ∀ b ∈ mt, b < w.tables.length) :
    ∃ w' done, w.setDelegate this mt = .ok (w', done) ∧ Sound env w' maps ∧
      w'.tables.length = w.tables.length ∧ (done = false → w' = w) := by
  rw [World.setDelegate]
  by_cases hself : mt.map Delegable.table = some this
  · rw [if_pos hself]
    exact ⟨w, false, rfl, h, rfl, fun _ => rfl⟩
  · rw [if_neg hself]
    obtain ⟨l, hl, hlen⟩ : ∃ l, Linked w.next mt l ∧ l.length ≤ w.tables.length := by
      cases mt with
      | none => exact ⟨[], rfl, Nat.zero_le _⟩
      | some b => exact h.chain (hmt b rfl)
    rw [leadsTo_eq this hl (by omega)]
    cases hcycle : l.any fun b => (w.next b).map Delegable.table == some this with
    | true => exact ⟨w, false, rfl, h, rfl, fun _ => rfl⟩
    | false =>
      refine ⟨w.setLink this mt, true, rfl, ?_, length_setLink _ _, nofun⟩
      cases this with
      | userdata u => exact ⟨h.refines, h.ranked, h.exists_next⟩
      | table a =>
        refine h.setLink hthis hmt fun b hb => ?_
        obtain rfl : mt = some b := hb
        refine not_reach hl ?_ hcycle
        rintro rfl
        exact hself rfl

end SetDelegate

section Acts

theorem create_delegate {n : Int} {t : SQTable K V} (h : create env n = .ok t) :
    t.delegate = none := by
  rw [create] at h
  cases hsize : pow2Size n (n.toNat + 1) minPower2 with
  | error f =>
    rw [hsize] at h
    cases h
  | ok size =>
    rw [hsize] at h
    obtain rfl := Except.ok.inj h
    rfl

theorem next_set {a : Nat} {t t' : SQTable K V} (ht : w.tables[a]? = some t)
    (hd : t'.delegate = t.delegate) : ({ w with tables := w.tables.set a t' } : World K V).next =
      w.next := by
  funext b
  rw [World.next, World.next]
  by_cases hb : b = a
  · have hlt := (List.getElem?_eq_some_iff.mp ht).1
    rw [hb, ht, List.getElem?_set_self hlt]
    exact hd
  · rw [List.getElem?_set_ne (Ne.symm hb)]

theorem next_append {t : SQTable K V} (hd : t.delegate = none) :
    ({ w with tables := w.tables ++ [t] } : World K V).next = w.next := by
  funext b
  rw [World.next, World.next, List.getElem?_append]
  split
  · rfl
  · rw [List.getElem?_eq_none (by omega : w.tables.length ≤ b), List.getElem?_singleton]
    split
    · exact hd
    · rfl

theorem Sound.append (h : Sound env w maps) {t : SQTable K V} {m : K → Option V}
    (hwf : WellFormed env t) (hm : t.Contents m) (hd : t.delegate = none) :
    Sound env { w with tables := w.tables ++ [t] } (maps ++ [m]) := by
  refine ⟨h.refines.append hwf hm, ?_, fun {i j} hij => ?_⟩
  · rw [next_append hd]
    exact h.ranked
  · rw [next_append hd] at hij
    have hlt := h.exists_next hij
    rw [List.length_append]
    omega

theorem Sound.onTable (h : Sound env w maps) {f : SQTable K V → Except Fault (SQTable K V)}
    {g : (K → Option V) → K → Option V} (a : Nat)
    (hf : ∀ {t m}, WellFormed env t → t.Contents m →
      ∃ t', f t = .ok t' ∧ WellFormed env t' ∧ t'.delegate = t.delegate ∧ t'.Contents (g m)) :
    ∃ tables, Table.onTable w.tables a f = .ok tables ∧
      Sound env { w with tables } (onMap maps a g) := by
  obtain ⟨tables, hrun, hrefines⟩ := h.refines.onTable a fun {t m} hwf hm => by
    obtain ⟨t', hft, hwf', -, hm'⟩ := hf hwf hm
    exact ⟨t', hft, hwf', hm'⟩
  refine ⟨tables, hrun, ?_⟩
  cases ht : w.tables[a]? with
  | none =>
    rw [Table.onTable, ht] at hrun
    obtain rfl := Except.ok.inj hrun
    exact ⟨hrefines, h.ranked, h.exists_next⟩
  | some t =>
    have hlt := (List.getElem?_eq_some_iff.mp ht).1
    obtain ⟨hwf, hm⟩ := h.refines.table ht (List.getElem?_eq_getElem (h.refines.length ▸ hlt))
    obtain ⟨t', hft, -, hd, -⟩ := hf hwf hm
    simp only [Table.onTable, ht, hft] at hrun
    obtain rfl : w.tables.set a t' = tables := Except.ok.inj hrun
    refine ⟨hrefines, ?_, fun {i j} hij => ?_⟩
    · rw [next_set ht hd]
      exact h.ranked
    · rw [next_set ht hd] at hij
      rw [List.length_set]
      exact h.exists_next hij

variable [DecidableEq K]

/-- A clone is a new table, so its delegate is not refused. -/
theorem Sound.clone (h : Sound env w maps) (fuel a : Nat) :
    ∃ w' maps', w.act env (fuel + 2) (.onTables (.clone a)) = .ok w' ∧ Sound env w' maps' := by
  rw [World.act]
  cases ht : w.tables[a]? with
  | none => exact ⟨w, maps, rfl, h⟩
  | some t =>
    have hlt := (List.getElem?_eq_some_iff.mp ht).1
    obtain ⟨hwf, hm⟩ := h.refines.table ht (List.getElem?_eq_getElem (h.refines.length ▸ hlt))
    obtain ⟨nt, hclone, hwf', -, hm'⟩ := hwf.clone_spec fuel hm
    have hnew : Sound env { w with tables := w.tables ++ [{ nt with delegate := none }] } _ :=
      h.append (t := { nt with delegate := none })
        (WellFormed.congr (t := nt) rfl (fun _ => rfl) rfl hwf' rfl rfl) hm' rfl
    have hlen : (w.tables ++ [{ nt with delegate := none }]).length = w.tables.length + 1 :=
      List.length_append
    have hdelegate : ∀ b ∈ t.delegate, b < w.tables.length := by
      intro b hb
      have hnext : w.next a = some b := by
        rw [World.next, ht]
        exact hb
      exact h.exists_next hnext
    have hholds : World.holds { w with tables := w.tables ++ [{ nt with delegate := none }] }
        (.table w.tables.length) := by
      show w.tables.length < (w.tables ++ _).length
      rw [hlen]
      omega
    obtain ⟨w', done, hset, hsound, -⟩ := hnew.setDelegate hholds fun b hb => by
      have hb' := hdelegate b hb
      rw [hlen]
      omega
    refine ⟨w', _, ?_, hsound⟩
    show (t.clone env (fuel + 2) >>= fun nt => _) = _
    rw [hclone]
    exact congrArg (Except.map Prod.fst) hset

/-- Every act returns and keeps the delegates sound. -/
theorem Sound.act (h : Sound env w maps) (fuel : Nat) (act : Act K V) :
    ∃ w' maps', w.act env (fuel + 2) act = .ok w' ∧ Sound env w' maps' := by
  have hrun : ∀ {f : SQTable K V → Except Fault (SQTable K V)} (g : (K → Option V) → K → Option V)
      (a : Nat), (∀ {t m}, WellFormed env t → t.Contents m →
        ∃ t', f t = .ok t' ∧ WellFormed env t' ∧ t'.delegate = t.delegate ∧ t'.Contents (g m)) →
      ∃ w' maps', ((Table.onTable w.tables a f).map fun tables => { w with tables }) = .ok w' ∧
        Sound env w' maps' := by
    intro f g a hf
    obtain ⟨tables, hon, hsound⟩ := h.onTable a hf
    exact ⟨_, _, by rw [hon]; rfl, hsound⟩
  cases act with
  | onTables op =>
    cases op with
    | clone a => exact h.clone fuel a
    | create n =>
      obtain ⟨t, hcreate, hwf, hm⟩ := create_spec env n
      refine ⟨_, _, ?_, h.append hwf hm (create_delegate hcreate)⟩
      show ((create env n).map fun t => w.tables ++ [t]).map _ = _
      rw [hcreate]
      rfl
    | newSlot a k v =>
      refine hrun (fun m => Function.update m k (some v)) a fun hwf hm => ?_
      obtain ⟨t', created, hns, hwf', hd, hm'⟩ := hwf.newSlot_spec hm k v fuel
      exact ⟨t', congrArg (Except.map Prod.fst) hns, hwf', hd, hm'⟩
    | set a k v =>
      refine hrun (fun m => if (m k).isSome then Function.update m k (some v) else m) a fun hwf hm => ?_
      obtain ⟨t', hset, hwf', hd, hm'⟩ := hwf.set_spec hm k v
      exact ⟨t', congrArg (Except.map Prod.fst) hset, hwf', hd, hm'⟩
    | remove a k =>
      refine hrun (fun m => Function.update m k none) a fun hwf hm => ?_
      exact hwf.remove_spec hm k (fuel + 1)
    | clear a =>
      refine hrun (fun _ _ => none) a fun hwf _ => ?_
      exact hwf.clear_spec (fuel + 1)
  | newUserdata => exact ⟨_, maps, rfl, h.refines, h.ranked, h.exists_next⟩
  | setDelegate self mt =>
    rw [World.act]
    split
    · obtain ⟨w', done, hset, hsound, -⟩ := h.setDelegate ‹_ ∧ _›.1 ‹_ ∧ _›.2
      exact ⟨w', maps, congrArg (Except.map Prod.fst) hset, hsound⟩
    · exact ⟨w, maps, rfl, h⟩

/-- Every run returns, in a world whose delegates are sound. -/
theorem run_sound (env : Env K V) (fuel : Nat) (acts : List (Act K V)) :
    ∃ w maps, World.run env (fuel + 2) acts = .ok w ∧ Sound env w maps := by
  obtain ⟨t, hcreate, hwf, hm⟩ := create_spec env 0
  have hstart : Sound env (⟨[t], []⟩ : World K V) [fun _ => none] := by
    have hempty : Sound env (⟨[], []⟩ : World K V) [] := ⟨⟨rfl, nofun⟩, ⟨fun _ => 0, nofun⟩, nofun⟩
    exact hempty.append hwf hm (create_delegate hcreate)
  have hfold : ∀ {w : World K V} {maps}, Sound env w maps →
      ∃ w' maps', acts.foldlM (World.act env (fuel + 2)) w = .ok w' ∧ Sound env w' maps' := by
    induction acts with
    | nil => exact fun {w maps} h => ⟨w, maps, rfl, h⟩
    | cons act acts ih =>
      intro w maps h
      obtain ⟨w₁, maps₁, hact, h₁⟩ := h.act fuel act
      obtain ⟨w₂, maps₂, hrest, h₂⟩ := ih h₁
      refine ⟨w₂, maps₂, ?_, h₂⟩
      rw [List.foldlM_cons, hact]
      exact hrest
  obtain ⟨w, maps, hrun, h⟩ := hfold hstart
  refine ⟨w, maps, ?_, h⟩
  rw [World.run, hcreate]
  exact hrun

end Acts

section Lookup

def valueIn (maps : List (K → Option V)) (k : K) (a : Nat) : Option V := maps[a]?.bind (· k)

/-- The value from the first table that has the key, or else from the default delegate. -/
def resolve (maps : List (K → Option V)) (chain : List Nat) (k : K) : Option V :=
  (chain.findSome? (valueIn maps k)).or (valueIn maps k tableDdel)

variable [DecidableEq K] {vm : Vm K V} {k : K}

theorem getOwn_eq (h : Refines env w.tables maps) (k : K) (a : Nat) :
    w.getOwn env (.table a) (some k) = .ok ((valueIn maps k a).map env.realval) := by
  rw [World.getOwn, valueIn]
  cases ht : w.tables[a]? with
  | none =>
    have hmaps : maps[a]? = none := by
      rw [List.getElem?_eq_none_iff] at ht ⊢
      exact h.length ▸ ht
    rw [hmaps]
    rfl
  | some t =>
    have hlt := (List.getElem?_eq_some_iff.mp ht).1
    have hm := List.getElem?_eq_getElem (h.length ▸ hlt)
    obtain ⟨hwf, hcontents⟩ := h.table ht hm
    rw [hm]
    exact hwf.get_spec hcontents k

theorem getMetaMethod_absent (h : Refines env w.tables maps) {self : Delegable} {mm : K}
    (habs : ∀ d ∈ w.delegateOf self, valueIn maps mm d = none) :
    w.getMetaMethod env self mm = .ok none := by
  rw [World.getMetaMethod]
  cases hd : w.delegateOf self with
  | none => rfl
  | some d =>
    show w.getOwn env (.table d) (some mm) = _
    rw [getOwn_eq h, habs d hd]
    rfl

def fromRoot (env : Env K V) (vm : Vm K V) (fuel : Nat) (w : World K V) (k : K)
    (flags : GetFlags) (selfidx : Int) : Except Fault (Answer V × World K V) :=
  w.getFromRoot vm (fun w d => w.get env vm fuel d (some k) ⟨false, false⟩ dontFallBack) flags
    selfidx

theorem fromRoot_of_ne {fuel : Nat} {flags : GetFlags} {selfidx : Int} (hne : selfidx ≠ 0) :
    fromRoot env vm fuel w k flags selfidx = .ok (.missing (!flags.doNotRaiseError), w) :=
  if_neg hne

/-- With `GET_FLAG_RAW` a table is looked in alone. -/
theorem get_raw (h : Refines env w.tables maps) (a fuel : Nat) (flags : GetFlags)
    (selfidx : Int) (hraw : flags.raw = true) :
    w.get env vm (fuel + 1) (.table a) (some k) flags selfidx =
      match valueIn maps k a with
      | some v => .ok (.found (env.realval v), w)
      | none => fromRoot env vm fuel w k flags selfidx := by
  rw [World.get, getOwn_eq h]
  cases valueIn maps k a with
  | some v => rfl
  | none => exact if_pos hraw

/-- A key that neither the table nor its delegate has is looked up in the default delegate. -/
theorem get_of_noMatch (h : Refines env w.tables maps) {a fuel : Nat} {flags : GetFlags}
    {selfidx : Int} (hraw : flags.raw = false) (hown : valueIn maps k a = none)
    (hfall : w.fallBackGet env vm
      (fun w d => w.get env vm fuel d (some k) ⟨false, true⟩ dontFallBack) (.table a) (some k) =
        .ok (.noMatch, w)) :
    w.get env vm (fuel + 1) (.table a) (some k) flags selfidx =
      match valueIn maps k tableDdel with
      | some v => .ok (.found (env.realval v), w)
      | none => fromRoot env vm fuel w k flags selfidx := by
  rw [World.get, getOwn_eq h, hown]
  simp only [hraw, Option.map_none, bind, Except.bind, Bool.false_eq_true, if_false, hfall,
    World.invokeDefaultDelegate, getOwn_eq h]
  cases valueIn maps k tableDdel with
  | some v => rfl
  | none => rfl

/-- `Get` follows the chain: the nearest table that has the key answers. -/
theorem get_chain (h : Refines env w.tables maps) {chain : List Nat} {a fuel : Nat}
    (flags : GetFlags) (selfidx : Int) (hl : Linked w.next (some a) chain)
    (hmm : ∀ b ∈ chain.tail, valueIn maps vm.mtGet b = none) (hfuel : chain.length ≤ fuel)
    (hraw : flags.raw = false) :
    w.get env vm (fuel + 1) (.table a) (some k) flags selfidx =
      match resolve maps chain k with
      | some v => .ok (.found (env.realval v), w)
      | none => fromRoot env vm fuel w k flags selfidx := by
  induction chain generalizing a fuel flags selfidx with
  | nil => cases hl
  | cons c rest ih =>
    obtain ⟨hc, hrest⟩ := hl
    obtain rfl := Option.some.inj hc
    rw [resolve, List.findSome?_cons]
    cases hown : valueIn maps k a with
    | some v =>
      rw [World.get, getOwn_eq h, hown]
      rfl
    | none =>
      cases rest with
      | nil =>
        have hnext : w.next a = none := hrest
        refine get_of_noMatch h hraw hown ?_
        rw [World.fallBackGet, World.delegateOf, hnext]
      | cons d rest =>
        obtain ⟨hnext, hrest⟩ := hrest
        obtain ⟨fuel, rfl⟩ := Nat.exists_eq_succ_of_ne_zero (n := fuel) (by
          rw [List.length_cons] at hfuel
          omega)
        have hget := @ih d fuel ⟨false, true⟩ dontFallBack ⟨rfl, hrest⟩
          (fun b hb => hmm b (List.mem_of_mem_tail hb))
          (by simp only [List.length_cons] at hfuel ⊢; omega) rfl
        rw [fromRoot_of_ne (by decide)] at hget
        cases hres : resolve maps (d :: rest) k with
        | some v =>
          rw [hres] at hget
          rw [World.get, getOwn_eq h, hown]
          simp only [hraw, Option.map_none, bind, Except.bind, Bool.false_eq_true, if_false,
            World.fallBackGet, World.delegateOf, hnext, hget]
          rw [resolve] at hres
          rw [hres]
        | none =>
          rw [hres] at hget
          obtain ⟨hchain, hddel⟩ := Option.or_eq_none_iff.mp hres
          rw [hchain]
          refine get_of_noMatch h hraw hown ?_
          rw [World.fallBackGet, World.delegateOf, hnext]
          have hmeta : w.getMetaMethod env (.table a) vm.mtGet = .ok none :=
            getMetaMethod_absent h fun b hb => by
              obtain rfl : b = d := Option.some.inj (hb.symm.trans hnext)
              exact hmm b (List.mem_cons_self ..)
          simp only [hget, bind, Except.bind, World.getByMetaMethod, hmeta]

end Lookup

section Assign

variable [DecidableEq K] {vm : Vm K V} {k : K} {v : V}

/-- A table that has the key takes the value; the others, and all links, stay. -/
theorem setOwn_present (h : Sound env w maps) {a : Nat} (hk : (valueIn maps k a).isSome) :
    ∃ t, w.setOwn env (.table a) (some k) v = .ok (true, { w with tables := w.tables.set a t }) ∧
      Sound env { w with tables := w.tables.set a t }
        (onMap maps a fun m => Function.update m k (some v)) := by
  rw [valueIn] at hk
  cases hm : maps[a]? with
  | none =>
    rw [hm] at hk
    cases hk
  | some m =>
    have hlt : a < w.tables.length := h.refines.length ▸ (List.getElem?_eq_some_iff.mp hm).1
    have ht := List.getElem?_eq_getElem hlt
    obtain ⟨hwf, hcontents⟩ := h.refines.table ht hm
    obtain ⟨t', hset, -⟩ := hwf.set_spec hcontents k v
    have hmk : (m k).isSome := by
      rw [hm] at hk
      exact hk
    obtain ⟨tables, hon, hsound⟩ := h.onTable (f := fun t => (t.set env (some k) v).map Prod.fst)
      (g := fun m => if (m k).isSome then Function.update m k (some v) else m) a
      fun {t m} hwf hm => by
        obtain ⟨t', hset, hwf', hd, hm'⟩ := hwf.set_spec hm k v
        exact ⟨t', congrArg (Except.map Prod.fst) hset, hwf', hd, hm'⟩
    have hon' : w.tables.set a t' = tables := by
      simp only [Table.onTable, ht, hset] at hon
      exact Except.ok.inj hon
    have honMap : onMap maps a (fun m => if (m k).isSome then Function.update m k (some v) else m) =
        onMap maps a fun m => Function.update m k (some v) := by
      rw [onMap, onMap, hm]
      simp only [hmk, if_true]
    refine ⟨t', ?_, ?_⟩
    · simp only [World.setOwn, ht, hset, hmk, bind, Except.bind]
    · rw [hon', ← honMap]
      exact hsound

theorem setOwn_absent (h : Refines env w.tables maps) {a : Nat} (hk : valueIn maps k a = none) :
    w.setOwn env (.table a) (some k) v = .ok (false, w) := by
  rw [World.setOwn]
  cases ht : w.tables[a]? with
  | none => rfl
  | some t =>
    have hlt := (List.getElem?_eq_some_iff.mp ht).1
    have hm := List.getElem?_eq_getElem (h.length ▸ hlt)
    obtain ⟨hwf, hcontents⟩ := h.table ht hm
    rw [valueIn, hm] at hk
    simp only [hwf.set_absent hcontents k v hk, bind, Except.bind]
    obtain ⟨hlt, rfl⟩ := List.getElem?_eq_some_iff.mp ht
    rw [List.set_getElem_self]

/-- What an assignment does to a chain: it changes the first table that has the key. -/
def Assigned (env : Env K V) (w : World K V) (maps : List (K → Option V)) (k : K) (v : V)
    (result : Except Fault (Bool × World K V)) : Option Nat → Prop
  | some b => ∃ t, result = .ok (true, { w with tables := w.tables.set b t }) ∧
      Sound env { w with tables := w.tables.set b t }
        (onMap maps b fun m => Function.update m k (some v))
  | none => result = .ok (false, w)

/-- `Set` follows the chain: the nearest table that has the key changes. -/
theorem set_chain (h : Sound env w maps) {chain : List Nat} {a fuel : Nat} {selfidx : Int}
    (hl : Linked w.next (some a) chain)
    (hmm : ∀ b ∈ chain.tail, valueIn maps vm.mtSet b = none) (hfuel : chain.length ≤ fuel)
    (hne : selfidx ≠ 0) :
    Assigned env w maps k v (w.set env vm fuel (.table a) (some k) v selfidx)
      (chain.find? fun b => (valueIn maps k b).isSome) := by
  induction chain generalizing a fuel selfidx with
  | nil => cases hl
  | cons c rest ih =>
    obtain ⟨hc, hrest⟩ := hl
    obtain rfl := Option.some.inj hc
    obtain ⟨fuel, rfl⟩ := Nat.exists_eq_succ_of_ne_zero (n := fuel) (by
      rw [List.length_cons] at hfuel
      omega)
    rw [List.length_cons] at hfuel
    rw [List.find?_cons]
    cases hown : valueIn maps k a with
    | some v' =>
      obtain ⟨t, hset, hsound⟩ := setOwn_present (v := v) h (k := k) (a := a) (by rw [hown]; rfl)
      refine ⟨t, ?_, hsound⟩
      simp only [World.set, hset, bind, Except.bind]
    | none =>
      have habsent := setOwn_absent (v := v) h.refines hown
      have hmeta : w.getMetaMethod env (.table a) vm.mtSet = .ok none :=
        getMetaMethod_absent h.refines fun b hb => by
          rw [show w.next a = some b from hb] at hrest
          cases rest with
          | nil => cases hrest
          | cons d rest =>
            obtain rfl := Option.some.inj hrest.1
            exact hmm b (List.mem_cons_self ..)
      have hcall : w.setByMetaMethod env vm (.table a) (some k) v = .ok (.noMatch, w) := by
        simp only [World.setByMetaMethod, hmeta, bind, Except.bind]
      cases rest with
      | nil =>
        have hnext : w.next a = none := hrest
        show _ = _
        simp only [World.set, habsent, World.fallBackSet, hnext, hcall, bind, Except.bind,
          if_neg hne]
      | cons d rest =>
        obtain ⟨hnext, hrest⟩ := hrest
        have hset := @ih d fuel dontFallBack ⟨rfl, hrest⟩
          (fun b hb => hmm b (List.mem_of_mem_tail hb)) (by omega) (by decide)
        cases hfind : (d :: rest).find? fun b => (valueIn maps k b).isSome with
        | some b =>
          rw [hfind] at hset
          obtain ⟨t, hset, hsound⟩ := hset
          refine ⟨t, ?_, hsound⟩
          simp only [World.set, habsent, World.fallBackSet, hnext, hset, bind, Except.bind]
        | none =>
          rw [hfind] at hset
          replace hset : w.set env vm fuel (.table d) (some k) v dontFallBack = .ok (false, w) :=
            hset
          show _ = _
          simp only [World.set, habsent, World.fallBackSet, hnext, hset, hcall, bind, Except.bind,
            if_neg hne]

end Assign

section Resolves

variable [DecidableEq K]

/-- `Get` on a table returns what the nearest table of its chain has; only then it looks in the
default delegate, in the chain of the root for the frame's own `this`, and nowhere else. -/
def answer (env : Env K V) (vm : Vm K V) (maps : List (K → Option V)) (chain rootChain : List Nat)
    (k : K) (flags : GetFlags) (selfidx : Int) : Answer V :=
  match resolve maps chain k with
  | some v => .found (env.realval v)
  | none =>
    match if selfidx = 0 ∧ vm.root.isSome then resolve maps rootChain k else none with
    | some v => .found (env.realval v)
    | none => .missing (!flags.doNotRaiseError)

/-- What `Get` with these flags does on every table and key, where no metamethod steps in. -/
def GetResolves (env : Env K V) (w : World K V) (maps : List (K → Option V)) (flags : GetFlags) :
    Prop :=
  ∀ (vm : Vm K V) (a : Nat) (chain rootChain : List Nat) (k : K) (selfidx : Int) (fuel : Nat),
    Linked w.next (some a) chain → Linked w.next vm.root rootChain →
    (∀ b ∈ chain.tail ++ rootChain.tail, valueIn maps vm.mtGet b = none) →
    chain.length + rootChain.length ≤ fuel →
    w.get env vm (fuel + 1) (.table a) (some k) flags selfidx =
      .ok (answer env vm maps chain rootChain k flags selfidx, w)

def SetResolves (env : Env K V) (w : World K V) (maps : List (K → Option V)) : Prop :=
  ∀ (vm : Vm K V) (a : Nat) (chain : List Nat) (k : K) (v : V) (selfidx : Int) (fuel : Nat),
    Linked w.next (some a) chain → (∀ b ∈ chain.tail, valueIn maps vm.mtSet b = none) →
    selfidx ≠ 0 → chain.length ≤ fuel →
    Assigned env w maps k v (w.set env vm fuel (.table a) (some k) v selfidx)
      (chain.find? fun b => (valueIn maps k b).isSome)

theorem fromRoot_chain {vm : Vm K V} {k : K} {selfidx : Int} (h : Refines env w.tables maps)
    {rootChain : List Nat} (hroot : Linked w.next vm.root rootChain)
    (hmm : ∀ b ∈ rootChain.tail, valueIn maps vm.mtGet b = none) {fuel : Nat}
    (hfuel : rootChain.length ≤ fuel) (flags : GetFlags) :
    fromRoot env vm (fuel + 1) w k flags selfidx =
      .ok (match if selfidx = 0 ∧ vm.root.isSome then resolve maps rootChain k else none with
        | some v => .found (env.realval v)
        | none => .missing (!flags.doNotRaiseError), w) := by
  by_cases hself : selfidx = 0
  · cases hr : vm.root with
    | none =>
      simp only [fromRoot, World.getFromRoot, hself, hr, if_true, Option.isSome_none,
        Bool.false_eq_true, and_false, if_false]
    | some r =>
      rw [hr] at hroot
      have hget := get_chain (k := k) h ⟨false, false⟩ dontFallBack hroot hmm hfuel rfl
      rw [fromRoot_of_ne (by decide)] at hget
      simp only [fromRoot, World.getFromRoot, hself, hr, if_true, Option.isSome_some, and_self,
        hget, bind, Except.bind]
      cases resolve maps rootChain k with
      | some v => rfl
      | none => rfl
  · rw [fromRoot_of_ne hself, if_neg (fun hand => hself hand.1)]

theorem getResolves (h : Refines env w.tables maps) {flags : GetFlags} (hraw : flags.raw = false) :
    GetResolves env w maps flags := by
  intro vm a chain rootChain k selfidx fuel hl hroot hmm hfuel
  have hpos : 0 < chain.length := List.length_pos_iff.mpr (by rintro rfl; cases hl)
  obtain ⟨fuel, rfl⟩ := Nat.exists_eq_succ_of_ne_zero (show fuel ≠ 0 by omega)
  rw [get_chain h flags selfidx hl (fun b hb => hmm b (List.mem_append_left _ hb)) (by omega) hraw, answer]
  cases resolve maps chain k with
  | some v => rfl
  | none =>
    exact fromRoot_chain h hroot (fun b hb => hmm b (List.mem_append_right _ hb)) (by omega) flags

/-- Whatever is created, cloned and linked, no delegates run in a circle; without metamethods on
the chain, `Get` and `Set` return, with what the nearest table says. -/
theorem delegation_resolves (env : Env K V) (fuel : Nat) (acts : List (Act K V)) :
    ∃ w maps, World.run env (fuel + 2) acts = .ok w ∧ Refines env w.tables maps ∧
      (∀ d, ¬ Relation.TransGen
        (fun d e => (w.delegateOf d).map Delegable.table = some e) d d) ∧
      (∀ a < w.tables.length, ∃ chain, Linked w.next (some a) chain ∧
        chain.length ≤ w.tables.length) ∧
      (∀ flags, flags.raw = false → GetResolves env w maps flags) ∧ SetResolves env w maps := by
  obtain ⟨w, maps, hrun, h⟩ := run_sound env fuel acts
  refine ⟨w, maps, hrun, h.refines, h.acyclic, fun a ha => h.chain ha,
    fun flags hraw => getResolves h.refines hraw, ?_⟩
  intro vm a chain k v selfidx fuel hl hmm hne hfuel
  exact set_chain h hl hmm hfuel hne

/-- Keys and values are numbers, and the hash of a key is the key. -/
def numbers : Env Nat Nat := ⟨id, 0, id⟩

/-- Table 1 delegates to table 2, which has the key 7. -/
def delegating : List (Act Nat Nat) :=
  [.onTables (.create 0), .onTables (.create 0), .onTables (.newSlot 2 7 5),
    .setDelegate (.table 1) (some 2)]

def noMetamethods : Vm Nat Nat :=
  ⟨100, 101, fun _ _ _ w => (none, false, w), fun _ _ _ _ w => (false, false, w), none, 0⟩

/-- The delegate has the key 7, and no metamethod. -/
theorem delegating_world {w : World Nat Nat} {maps : List (Nat → Option Nat)}
    (hrun : World.run numbers 2 delegating = .ok w) (h : Refines numbers w.tables maps) :
    Linked w.next (some 1) [1, 2] ∧ (∀ b ∈ [2], valueIn maps noMetamethods.mtGet b = none) ∧
      valueIn maps 7 1 = none ∧ resolve maps [1, 2] 7 = some 5 := by
  have hfact : ∀ {β : Type} (f : World Nat Nat → β) (b : β),
      (World.run numbers 2 delegating).map f = .ok b → f w = b := by
    intro β f b hf
    rw [hrun] at hf
    exact Except.ok.inj hf
  have hvalue : ∀ (k a : Nat) (o : Option Nat),
      (World.run numbers 2 delegating).map (fun w => w.getOwn numbers (.table a) (some k)) =
        .ok (.ok o) → valueIn maps k a = o := by
    intro k a o hget
    have hown := hfact _ _ hget
    rw [getOwn_eq h] at hown
    have hmap := Except.ok.inj hown
    rwa [show numbers.realval = id from rfl, Option.map_id] at hmap
  refine ⟨⟨rfl, hfact (fun w => w.next 1) (some 2) rfl, hfact (fun w => w.next 2) none rfl⟩, ?_,
    hvalue 7 1 none rfl, ?_⟩
  · intro b hb
    obtain rfl := List.mem_singleton.mp hb
    exact hvalue 100 2 none rfl
  · rw [resolve, List.findSome?_cons, hvalue 7 1 none rfl, List.findSome?_cons,
      hvalue 7 2 (some 5) rfl]
    rfl

/-- With `GET_FLAG_RAW`, as for the operator `in`, the delegate is not asked. -/
theorem not_getResolves_raw : ∃ w maps, World.run numbers 2 delegating = .ok w ∧
    Refines numbers w.tables maps ∧ ¬ GetResolves numbers w maps ⟨true, true⟩ := by
  obtain ⟨w, maps, hrun, h⟩ := run_sound numbers 0 delegating
  refine ⟨w, maps, hrun, h.refines, fun hget => ?_⟩
  obtain ⟨hl, hmm, hown, hres⟩ := delegating_world hrun h.refines
  have hfound := hget noMetamethods 1 [1, 2] [] 7 dontFallBack 2 hl rfl hmm (by decide)
  rw [answer, hres, get_raw h.refines 1 2 ⟨true, true⟩ _ rfl, hown] at hfound
  replace hfound := Prod.mk.inj (Except.ok.inj ((fromRoot_of_ne (by decide)).symm.trans hfound))
  cases hfound.1

theorem delegation_resolves_delegating : ∃ w, World.run numbers 2 delegating = .ok w ∧
    w.get numbers noMetamethods 3 (.table 1) (some 7) ⟨false, true⟩ dontFallBack =
      .ok (.found 5, w) := by
  obtain ⟨w, maps, hrun, hrefines, -, -, hget, -⟩ := delegation_resolves numbers 0 delegating
  obtain ⟨hl, hmm, -, hres⟩ := delegating_world hrun hrefines
  refine ⟨w, hrun, ?_⟩
  rw [hget _ rfl noMetamethods 1 [1, 2] [] 7 dontFallBack 2 hl rfl hmm (by decide), answer, hres]
  rfl

end Resolves

end Sqnim.Table
