import Sqnim.Api.State
import Sqnim.Object.Members

/-!
# SQ_OK means done

After `sq_newslot` or `sq_rawset` has returned `SQ_OK`, a raw lookup gives the value back, unless the
object is a class that has refused the member, or not one that `sq_newslot` stores in.
-/
namespace Sqnim.Api

open Sqnim.Object Sqnim.Table
open SQObjectType
open SQClass (isFunction)

/-- The tables and classes are well formed. A class with an instance is locked, and the instance has
a value for each field. -/
structure Valid (env : Env) (h : Heap) : Prop where
  tables : ∀ a, SQTable.WellFormed (h.env env.ss) (h.tables a) ∧ ∃ m, (h.tables a).Contents m
  classes : ∀ a, (h.classes a).Valid env.ss h
  locked : ∀ a, (h.classes (h.instances a).cls).locked = true
  values : ∀ a, (h.instances a).values.length =
    (h.classes (h.instances a).cls).defaultvalues.length

/-- What a raw lookup gives of a value that has been stored: the referent of a weak reference, and of
a method what the class keeps, which is a clone with its base for a closure in a class with one. -/
def GivenBack (env : Env) (h h' : Heap) (self key val : SQObject) (bstatic : Bool) (r : SQObject) :
    Prop :=
  let c := h.classes self.addr
  if self.type = otClass ∧ c.hasField env.ss h key = false ∧ (isFunction val || bstatic) = true then
    match c.base with
    | some base =>
      if val.type = otClosure then
        r.type = otClosure ∧
          h'.closures r.addr = { (h.closures val.addr).clone with base := some base }
      else r = val
    | none => r = val
  else r = h.realval val

/-- Exactly the key and the value are gone from the stack. -/
def Popped (v v' : SQVM) : Prop :=
  v'.top = v.top - 2 ∧ v'.stackbase = v.stackbase ∧ ∀ i < v.top - 2, v'.slots i = v.slots i

/-- What is left aside: tables with a `_newslot` metamethod, and class members that are
metamethods. -/
structure Ordinary (env : Env) (v : SQVM) (o key val : SQObject) : Prop where
  table : o.type = otTable → v.getMetaMethod env (v.heap.tables o.addr) mtNewslot = .ok none
  member : o.type = otClass → isFunction val = true → env.ss.getMetaMethodIdxByName key = none

/-- The call returns. When it returns `SQ_OK` to something that it takes, a raw lookup gives what
`gives` says and the stack is popped; when it returns an error, no object has changed. -/
def OkMeansDone (env : Env) (v : SQVM) (self key : SQObject) (gives : SQVM → SQObject → Prop)
    (takes : Prop) (run : Except Fault (SQRESULT × SQVM)) : Prop :=
  ∃ res v', run = .ok (res, v') ∧ Valid env v'.heap ∧
    (res = .ok → takes →
      (∃ r, rawGet env v'.heap self key = .ok (some r) ∧ gives v' r) ∧ Popped v v') ∧
    (res = .error → v'.heap = v.heap)

def Done (env : Env) (v v' : SQVM) (self key val : SQObject) (bstatic : Bool) : Prop :=
  (∃ r, rawGet env v'.heap self key = .ok (some r) ∧
    GivenBack env v.heap v'.heap self key val bstatic r) ∧ Popped v v'

variable {env : Env} {v : SQVM} {self key val : SQObject} {bstatic : Bool} {malloc : BitVec 64}

theorem popped_pop {v v' : SQVM} (htop : v'.top = v.top) (hbase : v'.stackbase = v.stackbase)
    (hslots : v'.slots = v.slots) : Popped v (v'.pop 2) := by
  refine ⟨?_, hbase, fun i hi => ?_⟩
  · rw [← htop]
    rfl
  · rw [← hslots]
    refine if_neg fun hin => ?_
    rw [htop] at hin
    have hlow : v.top - 2 ≤ i := hin.1
    omega

theorem givenBack_of_ne (hself : self.type ≠ otClass) (h' : Heap) :
    GivenBack env v.heap h' self key val bstatic (v.heap.realval val) :=
  (if_neg fun hand => hself hand.1).mpr rfl

theorem givenBack_kept (hself : self.type = otClass) {h' : Heap}
    (hclosures : h'.closures =
      ((v.heap.classes self.addr).kept env.ss v.heap malloc key val bstatic).2) :
    GivenBack env v.heap h' self key val bstatic
      ((v.heap.classes self.addr).kept env.ss v.heap malloc key val bstatic).1 := by
  rw [SQClass.kept, SQClass.theval] at hclosures
  rw [GivenBack, SQClass.kept, SQClass.theval]
  by_cases hmethod : (v.heap.classes self.addr).hasField env.ss v.heap key = false ∧
      (isFunction val || bstatic) = true
  · rw [if_pos ⟨hself, hmethod⟩]
    rw [hmethod.1, hmethod.2] at hclosures ⊢
    simp only [Bool.not_true, Bool.or_false, Bool.false_eq_true, if_false] at hclosures ⊢
    cases hbase : (v.heap.classes self.addr).base with
    | none => rfl
    | some base =>
      rw [hbase] at hclosures
      by_cases hval : val.type = otClosure
      · simp only [if_pos hval] at hclosures ⊢
        refine ⟨trivial, ?_⟩
        rw [hclosures]
        exact Function.update_self ..
      · simp only [if_neg hval]
  · rw [if_neg fun hand => hmethod hand.2, if_pos]
    cases hfield : (v.heap.classes self.addr).hasField env.ss v.heap key with
    | true => rfl
    | false =>
      cases hbelongs : isFunction val || bstatic with
      | false => rfl
      | true => exact absurd ⟨hfield, hbelongs⟩ hmethod

/-! ## Tables -/

theorem Valid.newSlot_table (hv : Valid env v.heap) (hkey : key.type ≠ otNull) (a : Nat)
    (val : SQObject) :
    ∃ t created, (v.heap.tables a).newSlot (v.heap.env env.ss) SQClass.depth key.key val =
        .ok (t, created) ∧ Valid env (v.setTable a t).heap ∧
      t.get (v.heap.env env.ss) key.key = .ok (some (v.heap.realval val)) := by
  obtain ⟨hwf, m, hm⟩ := hv.tables a
  obtain ⟨t, created, hrun, hwf', -, hm'⟩ := hwf.newSlot_spec hm key val 0
  rw [SQClass.key_eq hkey]
  refine ⟨t, created, hrun, ⟨fun b => ?_, fun b => (hv.classes b).congr (by rfl), hv.locked,
    hv.values⟩, ?_⟩
  · show SQTable.WellFormed (v.heap.env env.ss) (Function.update v.heap.tables a t b) ∧
      ∃ m, (Function.update v.heap.tables a t b).Contents m
    by_cases hb : b = a
    · rw [hb, Function.update_self]
      exact ⟨hwf', _, hm'⟩
    · rw [Function.update_of_ne hb]
      exact hv.tables b
  · rw [hwf'.get_spec hm', Function.update_self]
    rfl

theorem Valid.get_table (env : Env) {h : Heap} (hself : self.type = otTable) :
    rawGet env h self key = (h.tables self.addr).get (h.env env.ss) key.key := by
  rw [rawGet, hself]

/-- A table of a valid heap takes any key but null. -/
theorem Valid.done_table (hv : Valid env v.heap) (hself : self.type = otTable)
    (hkey : key.type ≠ otNull) (bstatic : Bool) :
    ∃ t created, (v.heap.tables self.addr).newSlot (v.heap.env env.ss) SQClass.depth key.key val =
        .ok (t, created) ∧ Valid env (v.setTable self.addr t).heap ∧
      Done env v ((v.setTable self.addr t).pop 2) self key val bstatic := by
  obtain ⟨t, created, hrun, hvalid, hget⟩ := hv.newSlot_table hkey self.addr val
  refine ⟨t, created, hrun, hvalid, ⟨v.heap.realval val, ?_, ?_⟩, popped_pop rfl rfl rfl⟩
  · have ht : ((v.setTable self.addr t).pop 2).heap.tables self.addr = t := Function.update_self ..
    rw [Valid.get_table env hself, ht]
    exact hget
  · exact givenBack_of_ne (by rw [hself]; nofun) _

/-! ## Classes -/

theorem Valid.setClass (hv : Valid env v.heap) {a : Nat} {c : SQClass}
    (closures : Nat → SQClosure) (hc : c.Valid env.ss v.heap)
    (hlocked : c.locked = (v.heap.classes a).locked)
    (hlength : c.locked = true → c.defaultvalues.length = (v.heap.classes a).defaultvalues.length) :
    Valid env (v.setClass a c closures).heap where
  tables := hv.tables
  classes := by
    intro b
    show (Function.update v.heap.classes a c b).Valid env.ss _
    by_cases hb : b = a
    · rw [hb, Function.update_self]
      exact hc.congr (by rfl)
    · rw [Function.update_of_ne hb]
      exact (hv.classes b).congr (by rfl)
  locked := by
    intro i
    show (Function.update v.heap.classes a c (v.heap.instances i).cls).locked = true
    by_cases hb : (v.heap.instances i).cls = a
    · rw [hb, Function.update_self, hlocked, ← hb]
      exact hv.locked i
    · rw [Function.update_of_ne hb]
      exact hv.locked i
  values := by
    intro i
    show (v.heap.instances i).values.length =
      (Function.update v.heap.classes a c (v.heap.instances i).cls).defaultvalues.length
    rw [hv.values i]
    by_cases hb : (v.heap.instances i).cls = a
    · have hcl : c.locked = true := by
        rw [hlocked, ← hb]
        exact hv.locked i
      rw [hb, Function.update_self, hlength hcl]
    · rw [Function.update_of_ne hb]

/-- A class of a valid heap takes what it accepts, and stays as it is otherwise. -/
theorem Valid.done_class (hv : Valid env v.heap) (hself : self.type = otClass)
    (hkey : key.type ≠ otNull)
    (hmm : isFunction val = true → env.ss.getMetaMethodIdxByName key = none) :
    ∃ stored c closures, (v.heap.classes self.addr).newSlot env.ss v.heap malloc key val bstatic =
        .ok (stored, c, closures) ∧ Valid env (v.setClass self.addr c closures).heap ∧
      ((v.heap.classes self.addr).Accepts env.ss v.heap key val bstatic → stored = true ∧
        Done env v ((v.setClass self.addr c closures).pop 2) self key val bstatic) ∧
      (¬ (v.heap.classes self.addr).Accepts env.ss v.heap key val bstatic →
        (v.setClass self.addr c closures).heap = v.heap) := by
  obtain ⟨hrefuses, hrun⟩ | ⟨haccepts, c, hrun, htakes⟩ :=
    @SQClass.Valid.newSlot _ _ _ key val bstatic malloc (hv.classes self.addr) hkey hmm
  · refine ⟨false, _, _, hrun, ?_, fun haccepts => absurd haccepts hrefuses, fun _ => ?_⟩
    · exact hv.setClass _ (hv.classes self.addr) rfl fun _ => rfl
    · rw [SQVM.setClass, Function.update_eq_self]
  · have hlength := fun hl => htakes.length (htakes.locked ▸ hl)
    refine ⟨true, c, _, hrun, hv.setClass _ htakes.valid htakes.locked hlength, fun _ => ⟨rfl, ?_⟩,
      absurd haccepts⟩
    refine ⟨⟨_, ?_, givenBack_kept hself rfl⟩, popped_pop rfl rfl rfl⟩
    have hc : ((v.setClass self.addr c
        ((v.heap.classes self.addr).kept env.ss v.heap malloc key val bstatic).2).pop 2).heap.classes
          self.addr = c := Function.update_self ..
    rw [rawGet, hself]
    simp only [hc]
    exact htakes.get

/-! ## Instances and arrays -/

theorem Valid.setInstance (hv : Valid env v.heap) {a : Nat} {i : SQInstance}
    (hcls : i.cls = (v.heap.instances a).cls)
    (hvalues : i.values.length = (v.heap.instances a).values.length) :
    Valid env (v.setInstance a i).heap where
  tables := hv.tables
  classes := fun b => (hv.classes b).congr (by rfl)
  locked := by
    intro b
    show (v.heap.classes (Function.update v.heap.instances a i b).cls).locked = true
    by_cases hb : b = a
    · rw [hb, Function.update_self, hcls]
      exact hv.locked a
    · rw [Function.update_of_ne hb]
      exact hv.locked b
  values := by
    intro b
    show (Function.update v.heap.instances a i b).values.length =
      (v.heap.classes (Function.update v.heap.instances a i b).cls).defaultvalues.length
    by_cases hb : b = a
    · rw [hb, Function.update_self, hcls, hvalues]
      exact hv.values a
    · rw [Function.update_of_ne hb]
      exact hv.values b

theorem Valid.done_instance (hv : Valid env v.heap) (hself : self.type = otInstance)
    (hkey : key.type ≠ otNull) (bstatic : Bool) :
    (v.heap.instances self.addr).set env.ss v.heap key val = .ok none ∨
      ∃ i, (v.heap.instances self.addr).set env.ss v.heap key val = .ok (some i) ∧
        Valid env (v.setInstance self.addr i).heap ∧
        Done env v ((v.setInstance self.addr i).pop 2) self key val bstatic := by
  obtain ⟨m, fields, makers, hM⟩ := hv.classes (v.heap.instances self.addr).cls
  have hset : (v.heap.instances self.addr).set env.ss v.heap key val =
      .ok (((m key).filter SQClass.isfield).map fun temp =>
        { v.heap.instances self.addr with
          values := (v.heap.instances self.addr).values.set (SQClass.memberIdx temp) val }) := by
    rw [SQInstance.set, SQClass.key_eq hkey, hM.get_members]
    rfl
  rw [hset]
  cases htemp : (m key).filter SQClass.isfield with
  | none => exact .inl rfl
  | some temp =>
    right
    obtain ⟨hmem, hisfield⟩ := Option.filter_eq_some_iff.mp htemp
    obtain ⟨j, hj, rfl⟩ := hM.field_index hmem hisfield
    have hj24 := hj.trans hM.defaultvalues_lt
    have hidx := SQClass.memberIdx_makeFieldIdx hj24
    obtain ⟨i, hi⟩ : ∃ i : SQInstance, { v.heap.instances self.addr with
        values := (v.heap.instances self.addr).values.set j val } = i := ⟨_, rfl⟩
    have hcls : i.cls = (v.heap.instances self.addr).cls := by rw [← hi]
    have hvalues : i.values = (v.heap.instances self.addr).values.set j val := by rw [← hi]
    have hlength : i.values.length = (v.heap.instances self.addr).values.length := by
      rw [hvalues, List.length_set]
    refine ⟨i, ?_, hv.setInstance hcls hlength, ⟨⟨v.heap.realval val, ?_, ?_⟩,
      popped_pop rfl rfl rfl⟩⟩
    · simp only [Option.map_some, hidx, hi]
    · have hinstance : ((v.setInstance self.addr i).pop 2).heap.instances self.addr = i :=
        Function.update_self ..
      have hget : (v.heap.classes i.cls).members.get
          (((v.setInstance self.addr i).pop 2).heap.env env.ss) (some key) = .ok (m key) := by
        rw [hcls]
        exact hM.get_members key
      have hj' : j < (v.heap.instances self.addr).values.length := by rwa [hv.values]
      have hclasses : ((v.setInstance self.addr i).pop 2).heap.classes = v.heap.classes := rfl
      rw [rawGet, hself]
      simp only [SQInstance.get, hinstance, SQClass.key_eq hkey, hclasses, hget, hmem, pure,
        Except.pure, bind, Except.bind, Option.map_some, SQClass.isfield_makeFieldIdx, if_true,
        hidx, hvalues]
      simp [hj']
      rfl
    · exact givenBack_of_ne (by rw [hself]; decide) _

theorem Valid.done_array (hv : Valid env v.heap) (hself : self.type = otArray) (bstatic : Bool) :
    ((v.setElement env self key val).1 = false ∧ (v.setElement env self key val).2.heap = v.heap) ∨
      ((v.setElement env self key val).1 = true ∧ Valid env (v.setElement env self key val).2.heap ∧
        Done env v ((v.setElement env self key val).2.pop 2) self key val bstatic) := by
  rw [SQVM.setElement]
  split_ifs with hnum
  · simp only [SQArray.set]
    split_ifs with hin
    · right
      refine ⟨rfl, ⟨hv.tables, fun b => (hv.classes b).congr (by rfl), hv.locked, hv.values⟩,
        ⟨⟨v.heap.realval val, ?_, ?_⟩, popped_pop rfl rfl rfl⟩⟩
      · rw [rawGet, hself]
        have hlt : (BaseLib.Conversion.tointeger env.convert key).toInt.toNat <
            (v.heap.arrays self.addr).length := by omega
        simp only [SQVM.pop, SQVM.setArray, Function.update_self, SQArray.get, if_pos hnum,
          List.length_set, if_pos hin]
        simp [hlt]
        rfl
      · exact givenBack_of_ne (by rw [hself]; nofun) _
    · exact .inl ⟨rfl, rfl⟩
  · exact .inl ⟨rfl, rfl⟩

/-! ## The calls -/

theorem newSlotMetaMethod_eq (hv : Valid env v.heap) (hkey : key.type ≠ otNull) {a : Nat}
    (hmm : v.getMetaMethod env (v.heap.tables a) mtNewslot = .ok none) :
    v.newSlotMetaMethod env (v.heap.tables a) key = .ok none := by
  obtain ⟨hwf, m, hm⟩ := hv.tables a
  rw [SQVM.newSlotMetaMethod, SQClass.key_eq hkey, hwf.get_spec hm]
  split_ifs
  · cases m key with
    | none => exact hmm
    | some _ => rfl
  · rfl

theorem newSlot_table (hv : Valid env v.heap) (hself : self.type = otTable)
    (hkey : key.type ≠ otNull)
    (hmm : v.getMetaMethod env (v.heap.tables self.addr) mtNewslot = .ok none)
    {t : SQTable SQObject SQObject} {created : Bool}
    (hrun : (v.heap.tables self.addr).newSlot (v.heap.env env.ss) SQClass.depth key.key val =
      .ok (t, created)) :
    v.newSlot env malloc self key val bstatic = .ok (true, v.setTable self.addr t) := by
  rw [SQVM.newSlot, if_neg hkey, hself]
  simp only [newSlotMetaMethod_eq hv hkey hmm, hrun, bind, Except.bind, pure, Except.pure]

theorem newSlot_class (hself : self.type = otClass) (hkey : key.type ≠ otNull) {stored : Bool}
    {c : SQClass} {closures : Nat → SQClosure}
    (hrun : (v.heap.classes self.addr).newSlot env.ss v.heap malloc key val bstatic =
      .ok (stored, c, closures)) :
    ∃ v', v.newSlot env malloc self key val bstatic = .ok (stored, v') ∧
      v' = if stored then v.setClass self.addr c closures else { v with lasterror := v'.lasterror } := by
  rw [SQVM.newSlot, if_neg hkey, hself]
  simp only [hrun, bind, Except.bind, pure, Except.pure]
  cases stored with
  | true => exact ⟨_, rfl, rfl⟩
  | false =>
    cases c.locked with
    | true => exact ⟨_, rfl, rfl⟩
    | false => exact ⟨_, rfl, rfl⟩

theorem sqNewslot_spec (hv : Valid env v.heap) {idx : Int}
    (ho : Ordinary env v (v.stackGet idx) (v.getUp (-2)) (v.getUp (-1))) (bstatic : Bool) :
    OkMeansDone env v (v.stackGet idx) (v.getUp (-2))
      (fun v' => GivenBack env v.heap v'.heap (v.stackGet idx) (v.getUp (-2)) (v.getUp (-1)) bstatic)
      ((v.stackGet idx).type = otTable ∨ (v.stackGet idx).type = otClass ∧
        (v.heap.classes (v.stackGet idx).addr).Accepts env.ss v.heap (v.getUp (-2)) (v.getUp (-1))
          bstatic)
      (sqNewslot env malloc v idx bstatic) := by
  by_cases hfew : v.gettop < 3
  · exact ⟨_, _, if_pos hfew, hv, by rintro ⟨⟩, fun _ => rfl⟩
  by_cases hself : (v.stackGet idx).type = otTable ∨ (v.stackGet idx).type = otClass
  · by_cases hkey : (v.getUp (-2)).type = otNull
    · refine ⟨.error, v.raiseError (Vm.Compare.ascii "null is not a valid key"), ?_, hv,
        by rintro ⟨⟩, fun _ => rfl⟩
      simp only [sqNewslot, if_neg hfew, if_pos hself, if_pos hkey]
    · have hcall : sqNewslot env malloc v idx bstatic =
          v.newSlot env malloc (v.stackGet idx) (v.getUp (-2)) (v.getUp (-1)) bstatic >>=
            fun r => return (.ok, r.2.pop 2) := by
        simp only [sqNewslot, if_neg hfew, if_pos hself, if_neg hkey]
      obtain htable | hclass := hself
      · obtain ⟨t, created, hrun, hvalid, hdone⟩ := hv.done_table htable hkey bstatic
        refine ⟨.ok, (v.setTable (v.stackGet idx).addr t).pop 2, ?_, hvalid, fun _ _ => hdone,
          by rintro ⟨⟩⟩
        rw [hcall, newSlot_table hv htable hkey (ho.table htable) hrun]
        rfl
      · obtain ⟨stored, c, closures, hrun, hvalid, hdone, -⟩ :=
          hv.done_class hclass hkey (ho.member hclass)
        obtain ⟨v', hnew, hv'⟩ := newSlot_class hclass hkey hrun
        refine ⟨.ok, v'.pop 2, ?_, ?_, fun _ htakes => ?_, by rintro ⟨⟩⟩
        · rw [hcall, hnew]
          rfl
        · cases stored with
          | true =>
            rw [hv']
            exact hvalid
          | false =>
            rw [hv']
            exact hv
        · obtain ⟨rfl, htaken⟩ := hdone (htakes.resolve_left (by rw [hclass]; decide)).2
          rw [hv']
          exact htaken
  · refine ⟨.ok, v, ?_, hv, fun _ htakes => absurd (htakes.imp id And.left) hself,
      by rintro ⟨⟩⟩
    simp only [sqNewslot, if_neg hfew, if_neg hself]

theorem sqRawset_spec (hv : Valid env v.heap) {idx : Int}
    (ho : Ordinary env v (v.stackGet idx) (v.getUp (-2)) (v.getUp (-1))) :
    OkMeansDone env v (v.stackGet idx) (v.getUp (-2))
      (fun v' => GivenBack env v.heap v'.heap (v.stackGet idx) (v.getUp (-2)) (v.getUp (-1)) false)
      ((v.stackGet idx).type = otClass →
        (v.heap.classes (v.stackGet idx).addr).Accepts env.ss v.heap (v.getUp (-2)) (v.getUp (-1))
          false)
      (sqRawset env malloc v idx) := by
  by_cases hkey : (v.getUp (-2)).type = otNull
  · exact ⟨_, _, if_pos hkey, hv, nofun, fun _ => rfl⟩
  simp only [sqRawset, if_neg hkey]
  cases hself : (v.stackGet idx).type with
  | otTable =>
    obtain ⟨t, created, hrun, hvalid, hdone⟩ := hv.done_table hself hkey false
    refine ⟨.ok, (v.setTable (v.stackGet idx).addr t).pop 2, ?_, hvalid, fun _ _ => hdone, nofun⟩
    rw [hrun]
    rfl
  | otClass =>
    obtain ⟨stored, c, closures, hrun, hvalid, hdone, -⟩ :=
      hv.done_class hself hkey (ho.member hself)
    refine ⟨.ok, (v.setClass (v.stackGet idx).addr c closures).pop 2, ?_, hvalid,
      fun _ htakes => (hdone (htakes rfl)).2, nofun⟩
    rw [hrun]
    rfl
  | otInstance =>
    obtain hrun | ⟨i, hrun, hvalid, hdone⟩ := hv.done_instance hself hkey false
    · refine ⟨.error, v.raiseIdxError env (v.getUp (-2)), ?_, hv, nofun, fun _ => rfl⟩
      rw [hrun]
      rfl
    · refine ⟨.ok, (v.setInstance (v.stackGet idx).addr i).pop 2, ?_, hvalid, fun _ _ => hdone, nofun⟩
      rw [hrun]
      rfl
  | otArray =>
    cases hset : v.setElement env (v.stackGet idx) (v.getUp (-2)) (v.getUp (-1)) with
    | mk stored v' =>
      obtain ⟨hfails, hheap⟩ | ⟨hdoes, hvalid, hdone⟩ := hv.done_array hself false
      · rw [hset] at hfails hheap
        obtain rfl : stored = false := hfails
        refine ⟨.error, v'.raiseIdxError env (v'.getUp (-2)), rfl, ?_, nofun, fun _ => hheap⟩
        show Valid env v'.heap
        rw [show v'.heap = v.heap from hheap]
        exact hv
      · rw [hset] at hdoes hvalid hdone
        obtain rfl : stored = true := hdoes
        exact ⟨.ok, v'.pop 2, rfl, hvalid, fun _ _ => hdone, nofun⟩
  | _ => exact ⟨_, _, rfl, hv, nofun, fun _ => rfl⟩

/-- A class that refuses the member stays as it is, and `sq_rawset` returns `SQ_OK` all the same. -/
theorem sqRawset_refused (hv : Valid env v.heap) {idx : Int}
    (ho : Ordinary env v (v.stackGet idx) (v.getUp (-2)) (v.getUp (-1)))
    (hclass : (v.stackGet idx).type = otClass) (hkey : (v.getUp (-2)).type ≠ otNull)
    (hrefuses : ¬ (v.heap.classes (v.stackGet idx).addr).Accepts env.ss v.heap (v.getUp (-2))
      (v.getUp (-1)) false) :
    ∃ v', sqRawset env malloc v idx = .ok (.ok, v') ∧ v'.heap = v.heap ∧ Popped v v' := by
  obtain ⟨stored, c, closures, hrun, -, -, hsame⟩ := hv.done_class hclass hkey (ho.member hclass)
  refine ⟨(v.setClass (v.stackGet idx).addr c closures).pop 2, ?_, hsame hrefuses,
    popped_pop rfl rfl rfl⟩
  simp only [sqRawset, if_neg hkey, hclass]
  rw [hrun]
  rfl

/-- `sq_newslot` on a table, or on a class that accepts the member, and `sq_rawset` on anything but a
class that refuses it do what `SQ_OK` says, and an error leaves all objects as they were. -/
theorem okMeansDone (hv : Valid env v.heap) (idx : Int) (bstatic : Bool) (malloc : BitVec 64)
    (ho : Ordinary env v (v.stackGet idx) (v.getUp (-2)) (v.getUp (-1))) :
    OkMeansDone env v (v.stackGet idx) (v.getUp (-2))
        (fun v' =>
          GivenBack env v.heap v'.heap (v.stackGet idx) (v.getUp (-2)) (v.getUp (-1)) bstatic)
        ((v.stackGet idx).type = otTable ∨ (v.stackGet idx).type = otClass ∧
          (v.heap.classes (v.stackGet idx).addr).Accepts env.ss v.heap (v.getUp (-2)) (v.getUp (-1))
            bstatic)
        (sqNewslot env malloc v idx bstatic) ∧
      OkMeansDone env v (v.stackGet idx) (v.getUp (-2))
        (fun v' => GivenBack env v.heap v'.heap (v.stackGet idx) (v.getUp (-2)) (v.getUp (-1)) false)
        ((v.stackGet idx).type = otClass →
          (v.heap.classes (v.stackGet idx).addr).Accepts env.ss v.heap (v.getUp (-2)) (v.getUp (-1))
            false)
        (sqRawset env malloc v idx) :=
  ⟨sqNewslot_spec hv ho bstatic, sqRawset_spec hv ho⟩

section Sample

/-- An environment without strings and metamethods. -/
def sampleEnv : Env where
  ss := ⟨SQObject.addr, [], .ofNull⟩
  print := ⟨.empty, fun _ _ => .absent, fun _ => []⟩
  convert := ⟨fun _ => 0, fun _ _ => none, fun _ => none, .empty⟩
  callMetaMethod := fun v _ _ => (true, v)

def emptyTable : SQTable SQObject SQObject :=
  SQTable.fresh ⟨SQObject.addr, .ofNull, id⟩ ⟨fun _ => ⟨.ofNull, none, none⟩, 0, 0, 0, none⟩ 4

/-- Tables and classes without members. The class 1 has the class 0 as its base. -/
def sampleHeap : Heap where
  tables := fun _ => emptyTable
  arrays := fun _ => []
  classes := fun a => ⟨emptyTable, if a = 1 then some 0 else none, [], [], fun _ => .ofNull, true, -1⟩
  instances := fun _ => ⟨0, []⟩
  closures := fun _ => ⟨0, none, none, none, [], []⟩
  weakrefs := fun _ => .ofInteger 7

/-- An object, the key 1 and a value. -/
def sample (self val : SQObject) : SQVM where
  heap := sampleHeap
  slots := fun i => if i = 0 then self else if i = 1 then .ofInteger 1 else val
  top := 3
  stackbase := 0
  lasterror := []

theorem wellFormed_emptyTable :
    SQTable.WellFormed (sampleHeap.env sampleEnv.ss) emptyTable ∧ emptyTable.Contents fun _ => none :=
  ⟨SQTable.wellFormed_fresh (p := 0) _, SQTable.contents_fresh _ 4⟩

theorem valid_sample : Valid sampleEnv sampleHeap where
  tables := fun _ => ⟨wellFormed_emptyTable.1, _, wellFormed_emptyTable.2⟩
  classes := fun _ => ⟨fun _ => none, [], [], wellFormed_emptyTable.1, wellFormed_emptyTable.2, nofun,
    List.nodup_nil, rfl, nofun, List.nodup_nil, rfl, nofun, show (0 : Int) ≤ 0x00FFFFFF by decide⟩
  locked := fun _ => rfl
  values := fun _ => rfl

theorem ordinary_sample (self val : SQObject) :
    Ordinary sampleEnv (sample self val) self (.ofInteger 1) val :=
  ⟨fun _ => rfl, fun _ _ => rfl⟩

theorem rawGet_weakref : (sqRawset sampleEnv 9 (sample ⟨otTable, 5⟩ ⟨otWeakRef, 6⟩) 1).map
    (fun p => (p.1, rawGet sampleEnv p.2.heap ⟨otTable, 5⟩ (.ofInteger 1))) =
      .ok (.ok, .ok (some (.ofInteger 7))) := by
  rfl

theorem rawGet_method : (sqNewslot sampleEnv 9 (sample ⟨otClass, 1⟩ ⟨otClosure, 6⟩) 1 false).map
    (fun p => (p.1, rawGet sampleEnv p.2.heap ⟨otClass, 1⟩ (.ofInteger 1))) =
      .ok (.ok, .ok (some ⟨otClosure, 9⟩)) := by
  rfl

theorem not_okMeansDone_of_lookup {run : Except Fault (SQRESULT × SQVM)} {x : SQObject}
    (hrun : run.map (fun p => (p.1, rawGet env p.2.heap self key)) = .ok (.ok, .ok (some x)))
    (hx : x ≠ val) : ¬ OkMeansDone env v self key (fun _ r => r = val) True run := by
  rintro ⟨res, v', rfl, -, hok, -⟩
  obtain ⟨hres, hget⟩ := Prod.mk.inj (Except.ok.inj hrun)
  obtain ⟨⟨r, hr, hval⟩, -⟩ := hok hres trivial
  have hxr := Option.some.inj (Except.ok.inj (hget.symm.trans hr))
  exact hx (hxr.trans hval)

/-- A table gives the referent of a weak reference, and a class with a base a clone of a closure. -/
theorem not_okMeansDone :
    (Valid sampleEnv (sample ⟨otTable, 5⟩ ⟨otWeakRef, 6⟩).heap ∧
      Ordinary sampleEnv (sample ⟨otTable, 5⟩ ⟨otWeakRef, 6⟩) ⟨otTable, 5⟩ (.ofInteger 1)
        ⟨otWeakRef, 6⟩ ∧
      ¬ OkMeansDone sampleEnv (sample ⟨otTable, 5⟩ ⟨otWeakRef, 6⟩) ⟨otTable, 5⟩ (.ofInteger 1)
        (fun _ r => r = ⟨otWeakRef, 6⟩) True
        (sqRawset sampleEnv 9 (sample ⟨otTable, 5⟩ ⟨otWeakRef, 6⟩) 1)) ∧
    (Valid sampleEnv (sample ⟨otClass, 1⟩ ⟨otClosure, 6⟩).heap ∧
      Ordinary sampleEnv (sample ⟨otClass, 1⟩ ⟨otClosure, 6⟩) ⟨otClass, 1⟩ (.ofInteger 1)
        ⟨otClosure, 6⟩ ∧
      ¬ OkMeansDone sampleEnv (sample ⟨otClass, 1⟩ ⟨otClosure, 6⟩) ⟨otClass, 1⟩ (.ofInteger 1)
        (fun _ r => r = ⟨otClosure, 6⟩) True
        (sqNewslot sampleEnv 9 (sample ⟨otClass, 1⟩ ⟨otClosure, 6⟩) 1 false)) :=
  ⟨⟨valid_sample, ordinary_sample _ _, not_okMeansDone_of_lookup rawGet_weakref (by decide)⟩,
    valid_sample, ordinary_sample _ _, not_okMeansDone_of_lookup rawGet_method (by decide)⟩

theorem okMeansDone_sample :
    OkMeansDone sampleEnv (sample ⟨otClass, 1⟩ ⟨otClosure, 6⟩) ⟨otClass, 1⟩ (.ofInteger 1)
      (fun v' => GivenBack sampleEnv sampleHeap v'.heap ⟨otClass, 1⟩ (.ofInteger 1) ⟨otClosure, 6⟩
        false)
      (SQClass.Accepts sampleEnv.ss sampleHeap (sampleHeap.classes 1) (.ofInteger 1) ⟨otClosure, 6⟩
        false)
      (sqRawset sampleEnv 9 (sample ⟨otClass, 1⟩ ⟨otClosure, 6⟩) 1) := by
  have h := (okMeansDone valid_sample 1 false 9 (ordinary_sample ⟨otClass, 1⟩ ⟨otClosure, 6⟩)).2
  obtain ⟨res, v', hrun, hvalid, hok, herr⟩ := h
  exact ⟨res, v', hrun, hvalid, fun hres htakes => hok hres fun _ => htakes, herr⟩

end Sample

end Sqnim.Api
