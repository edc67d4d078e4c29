import Sqnim.Object.Class
import Sqnim.Table.Refinement

/-!
# The members of a class

The index of a member says where its value is, as long as there are fewer than 2^24 methods and
fields: every method and every field was made for a member of its own.
-/
namespace Sqnim.Object

open Sqnim.Table
open SQObjectType

namespace SQClass

section Index

theorem toNat_tag_or {tag : BitVec 64} (htag : tag.toNat % 2 ^ 24 = 0) {i : Nat} (hi : i < 2 ^ 24) :
    ((tag ||| BitVec.ofNat 64 i) &&& 0x00FFFFFF).toNat = i := by
  have hi64 : i % 2 ^ 64 = i := Nat.mod_eq_of_lt (by omega)
  have hmask : (0x00FFFFFF : BitVec 64).toNat = 2 ^ 24 - 1 := rfl
  rw [BitVec.toNat_and, BitVec.toNat_or, BitVec.toNat_ofNat, hi64, hmask,
    Nat.and_two_pow_sub_one_eq_mod, Nat.or_mod_two_pow, htag, Nat.zero_or, Nat.mod_eq_of_lt hi]

theorem memberIdx_makeMethodIdx {i : Nat} (hi : i < 2 ^ 24) : memberIdx (makeMethodIdx i) = i :=
  toNat_tag_or (by decide) hi

theorem memberIdx_makeFieldIdx {i : Nat} (hi : i < 2 ^ 24) : memberIdx (makeFieldIdx i) = i :=
  toNat_tag_or (by decide) hi

theorem isfield_makeFieldIdx (i : Nat) : isfield (makeFieldIdx i) = true := by
  rw [isfield, decide_eq_true_eq]
  intro hzero
  have hbit : ((memberTypeField ||| BitVec.ofNat 64 i) &&& memberTypeField).getLsbD 25 = true := by
    have htag : memberTypeField.getLsbD 25 = true := rfl
    rw [BitVec.getLsbD_and, BitVec.getLsbD_or, htag]
    rfl
  rw [show (memberTypeField ||| BitVec.ofNat 64 i) &&& memberTypeField = 0 from hzero] at hbit
  cases hbit

theorem isfield_makeMethodIdx {i : Nat} (hi : i < 2 ^ 24) : isfield (makeMethodIdx i) = false := by
  have hi64 : i % 2 ^ 64 = i := Nat.mod_eq_of_lt (by omega)
  have hlt : memberTypeMethod.toNat ||| i < 2 ^ 25 := Nat.or_lt_two_pow (by decide) (by omega)
  have hzero : (memberTypeMethod ||| BitVec.ofNat 64 i) &&& memberTypeField = 0 := by
    apply BitVec.eq_of_toNat_eq
    have htag : memberTypeField.toNat = 2 ^ 25 := rfl
    rw [BitVec.toNat_and, BitVec.toNat_or, BitVec.toNat_ofNat, hi64, htag, Nat.and_two_pow,
      Nat.testBit_lt_two_pow hlt]
    rfl
  rw [isfield, decide_eq_false_iff_not, not_not]
  exact hzero

end Index

/-- The members of a class by their keys, with the key that each field has and the key that each
method was made for. -/
structure Members (ss : SQSharedState) (h : Heap) (c : SQClass)
    (m : SQObject → Option SQObject) (fields makers : List SQObject) : Prop where
  wellFormed : SQTable.WellFormed (h.env ss) c.members
  contents : c.members.Contents m
  index : ∀ {k v}, m k = some v → (∃ i < c.methods.length, v = makeMethodIdx i) ∨
    ∃ i < c.defaultvalues.length, v = makeFieldIdx i
  fields_nodup : fields.Nodup
  fields_length : fields.length = c.defaultvalues.length
  field : ∀ k ∈ fields, ∃ i, m k = some (makeFieldIdx i)
  makers_nodup : makers.Nodup
  makers_length : makers.length = c.methods.length
  maker : ∀ k ∈ makers, m k ≠ none
  room : c.members.countUsed ≤ memberMaxCount

/-- What `NewSlot` leaves of a class. -/
def Valid (ss : SQSharedState) (h : Heap) (c : SQClass) : Prop :=
  ∃ m fields makers, Members ss h c m fields makers

variable {ss : SQSharedState} {h : Heap} {c : SQClass} {m : SQObject → Option SQObject}
  {fields makers : List SQObject}

/-- There are no more methods and fields than members. -/
theorem Members.length_le (hM : Members ss h c m fields makers) {keys : List SQObject}
    (hnodup : keys.Nodup) (hkeys : ∀ k ∈ keys, m k ≠ none) :
    (keys.length : Int) ≤ c.members.countUsed := by
  obtain ⟨used, hused, hcount⟩ := hM.wellFormed.countUsed_spec hM.contents
  have hsub : keys.toFinset ⊆ used := by
    intro k hk
    exact (hused k).mpr (hkeys k (List.mem_toFinset.mp hk))
  have hcard := Finset.card_le_card hsub
  rw [List.toFinset_card_of_nodup hnodup] at hcard
  rw [hcount]
  exact_mod_cast hcard

theorem Members.methods_le (hM : Members ss h c m fields makers) :
    (c.methods.length : Int) ≤ c.members.countUsed := by
  rw [← hM.makers_length]
  exact hM.length_le hM.makers_nodup hM.maker

theorem Members.defaultvalues_le (hM : Members ss h c m fields makers) :
    (c.defaultvalues.length : Int) ≤ c.members.countUsed := by
  rw [← hM.fields_length]
  refine hM.length_le hM.fields_nodup fun k hk => ?_
  obtain ⟨i, hi⟩ := hM.field k hk
  rw [hi]
  nofun

/-- Every index fits in its 24 bits. -/
theorem Members.methods_lt (hM : Members ss h c m fields makers) : c.methods.length < 2 ^ 24 := by
  have hle := hM.methods_le
  have hroom := hM.room
  rw [memberMaxCount] at hroom
  omega

theorem Members.defaultvalues_lt (hM : Members ss h c m fields makers) :
    c.defaultvalues.length < 2 ^ 24 := by
  have hle := hM.defaultvalues_le
  have hroom := hM.room
  rw [memberMaxCount] at hroom
  omega

/-- A heap with the same weak references has the same classes. -/
theorem Valid.congr {h' : Heap} (hw : h'.weakrefs = h.weakrefs) (hc : c.Valid ss h) :
    c.Valid ss h' := by
  obtain ⟨m, fields, makers, hM⟩ := hc
  have henv : h'.env ss = h.env ss := by
    have hreal : h'.realval = h.realval := by
      funext o
      rw [Heap.realval, Heap.realval, hw]
    rw [Heap.env, Heap.env, hreal]
  exact ⟨m, fields, makers, { hM with wellFormed := henv ▸ hM.wellFormed }⟩

section Lookup

theorem realval_index {v : SQObject} (hv : v.type = otInteger) : h.realval v = v := by
  rw [Heap.realval, if_pos]
  rw [hv]
  nofun

theorem key_eq {key : SQObject} (hkey : key.type ≠ otNull) : key.key = some key := if_neg hkey

theorem Members.type_index (hM : Members ss h c m fields makers) {k v : SQObject}
    (hv : m k = some v) : v.type = otInteger := by
  obtain ⟨i, -, rfl⟩ | ⟨i, -, rfl⟩ := hM.index hv
  · rfl
  · rfl

theorem Members.get_members (hM : Members ss h c m fields makers) (k : SQObject) :
    c.members.get (h.env ss) (some k) = .ok (m k) := by
  rw [hM.wellFormed.get_spec hM.contents]
  cases hk : m k with
  | none => rfl
  | some v => exact congrArg (fun v => Except.ok (some v)) (realval_index (hM.type_index hk))

theorem Members.field_index (hM : Members ss h c m fields makers) {k v : SQObject}
    (hv : m k = some v) (hfield : isfield v = true) :
    ∃ i < c.defaultvalues.length, v = makeFieldIdx i := by
  obtain ⟨i, hi, rfl⟩ | hidx := hM.index hv
  · rw [isfield_makeMethodIdx (hi.trans hM.methods_lt)] at hfield
    cases hfield
  · exact hidx

theorem Members.method_index (hM : Members ss h c m fields makers) {k v : SQObject}
    (hv : m k = some v) (hmethod : isfield v = false) :
    ∃ i < c.methods.length, v = makeMethodIdx i := by
  obtain hidx | ⟨i, -, rfl⟩ := hM.index hv
  · exact hidx
  · rw [isfield_makeFieldIdx] at hmethod
    cases hmethod

/-- The value of a member, given its index. -/
def value (h : Heap) (c : SQClass) (temp : SQObject) : SQObject :=
  if isfield temp then h.realval (c.defaultvalues.getD (memberIdx temp) .ofNull)
  else c.methods.getD (memberIdx temp) .ofNull

theorem Members.get_eq (hM : Members ss h c m fields makers) {key : SQObject}
    (hkey : key.type ≠ otNull) : c.get ss h key = .ok ((m key).map (c.value h)) := by
  rw [SQClass.get, key_eq hkey, hM.get_members]
  rfl

theorem Members.hasField_eq (hM : Members ss h c m fields makers) {key : SQObject}
    (hkey : key.type ≠ otNull) : c.hasField ss h key = ((m key).filter isfield).isSome := by
  rw [hasField, key_eq hkey, hM.get_members]
  cases m key with
  | none => rfl
  | some v => rw [Option.isSome_filter, Option.any_some]

end Lookup

/-! ## NewSlot -/

section NewSlot

variable {key val : SQObject} {bstatic : Bool} {malloc : BitVec 64}

/-- The class takes the member: it is not locked, or the member is a method or static, and it is not
full, or the member is a field already. -/
def Accepts (ss : SQSharedState) (h : Heap) (c : SQClass) (key val : SQObject) (bstatic : Bool) :
    Prop :=
  (c.locked = true → (isFunction val || bstatic) = true) ∧
    (c.hasField ss h key = true ∨ c.members.countUsed < memberMaxCount)

/-- A field that is there gets the value. -/
theorem Members.setField (hM : Members ss h c m fields makers) (i : Nat) (val : SQObject) :
    Members ss h { c with defaultvalues := c.defaultvalues.set i val } m fields makers where
  wellFormed := hM.wellFormed
  contents := hM.contents
  index := by
    intro k v hv
    obtain hmethod | ⟨j, hj, rfl⟩ := hM.index hv
    · exact .inl hmethod
    · exact .inr ⟨j, by rwa [List.length_set], rfl⟩
  fields_nodup := hM.fields_nodup
  fields_length := by rw [hM.fields_length, List.length_set]
  field := hM.field
  makers_nodup := hM.makers_nodup
  makers_length := hM.makers_length
  maker := hM.maker
  room := hM.room

theorem Members.setMethod (hM : Members ss h c m fields makers) (i : Nat) (val : SQObject) :
    Members ss h { c with methods := c.methods.set i val } m fields makers where
  wellFormed := hM.wellFormed
  contents := hM.contents
  index := by
    intro k v hv
    obtain ⟨j, hj, rfl⟩ | hfield := hM.index hv
    · exact .inl ⟨j, by rwa [List.length_set], rfl⟩
    · exact .inr hfield
  fields_nodup := hM.fields_nodup
  fields_length := hM.fields_length
  field := hM.field
  makers_nodup := hM.makers_nodup
  makers_length := by rw [hM.makers_length, List.length_set]
  maker := hM.maker
  room := hM.room

/-- The members after an index has been stored under a key. -/
theorem Members.room_newSlot (hM : Members ss h c m fields makers) {t : SQTable SQObject SQObject}
    {idx : SQObject} (hroom : c.members.countUsed < memberMaxCount)
    (hwf : SQTable.WellFormed (h.env ss) t) (hm : t.Contents (Function.update m key (some idx))) :
    t.countUsed ≤ memberMaxCount := by
  obtain ⟨used, hused, hcount⟩ := hM.wellFormed.countUsed_spec hM.contents
  obtain ⟨used', hused', hcount'⟩ := hwf.countUsed_spec hm
  have hsub : used' ⊆ insert key used := by
    intro k hk
    rw [Finset.mem_insert]
    by_cases hkk : k = key
    · exact .inl hkk
    · right
      rw [hused]
      have hk' := (hused' k).mp hk
      rwa [Function.update_of_ne hkk] at hk'
  have hcard := (Finset.card_le_card hsub).trans (Finset.card_insert_le key used)
  omega

/-- A new method goes behind the others. -/
theorem Members.pushMethod (hM : Members ss h c m fields makers)
    (hroom : c.members.countUsed < memberMaxCount) (habsent : m key = none)
    {t : SQTable SQObject SQObject} (hwf : SQTable.WellFormed (h.env ss) t)
    (hm : t.Contents (Function.update m key (some (makeMethodIdx c.methods.length))))
    (constructoridx : Int) (val : SQObject) :
    Members ss h { c with constructoridx, members := t, methods := c.methods ++ [val] }
      (Function.update m key (some (makeMethodIdx c.methods.length))) fields (makers ++ [key]) where
  wellFormed := hwf
  contents := hm
  index := by
    intro k v hv
    rw [List.length_append, List.length_singleton]
    by_cases hk : k = key
    · rw [hk, Function.update_self] at hv
      exact .inl ⟨_, Nat.lt_succ_self _, (Option.some.inj hv).symm⟩
    · rw [Function.update_of_ne hk] at hv
      obtain ⟨j, hj, rfl⟩ | hfield := hM.index hv
      · exact .inl ⟨j, Nat.lt_succ_of_lt hj, rfl⟩
      · exact .inr hfield
  fields_nodup := hM.fields_nodup
  fields_length := hM.fields_length
  field := by
    intro k hk
    obtain ⟨i, hi⟩ := hM.field k hk
    refine ⟨i, ?_⟩
    rw [Function.update_of_ne, hi]
    rintro rfl
    rw [habsent] at hi
    cases hi
  makers_nodup := by
    rw [List.nodup_append]
    refine ⟨hM.makers_nodup, List.nodup_singleton key, ?_⟩
    rintro k hk k' hk' rfl
    rw [List.mem_singleton.mp hk'] at hk
    exact hM.maker key hk habsent
  makers_length := by
    rw [List.length_append, List.length_append, hM.makers_length]
    rfl
  maker := by
    intro k hk
    by_cases hkk : k = key
    · rw [hkk, Function.update_self]
      nofun
    · rw [Function.update_of_ne hkk]
      refine hM.maker k ((List.mem_append.mp hk).resolve_right fun hk' => hkk ?_)
      exact List.mem_singleton.mp hk'
  room := hM.room_newSlot hroom hwf hm

/-- A new field goes behind the others. -/
theorem Members.pushField (hM : Members ss h c m fields makers)
    (hroom : c.members.countUsed < memberMaxCount)
    (hother : ∀ i, m key ≠ some (makeFieldIdx i)) {t : SQTable SQObject SQObject}
    (hwf : SQTable.WellFormed (h.env ss) t)
    (hm : t.Contents (Function.update m key (some (makeFieldIdx c.defaultvalues.length))))
    (val : SQObject) :
    Members ss h { c with members := t, defaultvalues := c.defaultvalues ++ [val] }
      (Function.update m key (some (makeFieldIdx c.defaultvalues.length))) (fields ++ [key])
      makers where
  wellFormed := hwf
  contents := hm
  index := by
    intro k v hv
    rw [List.length_append, List.length_singleton]
    by_cases hk : k = key
    · rw [hk, Function.update_self] at hv
      exact .inr ⟨_, Nat.lt_succ_self _, (Option.some.inj hv).symm⟩
    · rw [Function.update_of_ne hk] at hv
      obtain hmethod | ⟨j, hj, rfl⟩ := hM.index hv
      · exact .inl hmethod
      · exact .inr ⟨j, Nat.lt_succ_of_lt hj, rfl⟩
  fields_nodup := by
    rw [List.nodup_append]
    refine ⟨hM.fields_nodup, List.nodup_singleton key, ?_⟩
    rintro k hk k' hk' rfl
    rw [List.mem_singleton.mp hk'] at hk
    obtain ⟨i, hi⟩ := hM.field key hk
    exact hother i hi
  fields_length := by
    rw [List.length_append, List.length_append, hM.fields_length]
    rfl
  field := by
    intro k hk
    by_cases hkk : k = key
    · exact ⟨_, by rw [hkk, Function.update_self]⟩
    · rw [Function.update_of_ne hkk]
      refine hM.field k ((List.mem_append.mp hk).resolve_right fun hk' => hkk ?_)
      exact List.mem_singleton.mp hk'
  makers_nodup := hM.makers_nodup
  makers_length := hM.makers_length
  maker := by
    intro k hk
    by_cases hkk : k = key
    · rw [hkk, Function.update_self]
      nofun
    · rw [Function.update_of_ne hkk]
      exact hM.maker k hk
  room := hM.room_newSlot hroom hwf hm

/-- The value that a lookup gives after `NewSlot` has stored `val`, and the closures that it
leaves. -/
def kept (ss : SQSharedState) (h : Heap) (malloc : BitVec 64) (c : SQClass) (key val : SQObject)
    (bstatic : Bool) : SQObject × (Nat → SQClosure) :=
  if c.hasField ss h key || !(isFunction val || bstatic) then (h.realval val, h.closures)
  else theval h malloc c val

/-- What `NewSlot` makes of a class that accepts the member. -/
structure Takes (ss : SQSharedState) (h : Heap) (malloc : BitVec 64) (c : SQClass)
    (key val : SQObject) (bstatic : Bool) (c' : SQClass) : Prop where
  valid : c'.Valid ss h
  locked : c'.locked = c.locked
  length : c.locked = true → c'.defaultvalues.length = c.defaultvalues.length
  get : c'.get ss h key = .ok (some (c.kept ss h malloc key val bstatic).1)

theorem value_field {c : SQClass} {i : Nat} (hi : i < 2 ^ 24) :
    c.value h (makeFieldIdx i) = h.realval (c.defaultvalues.getD i .ofNull) := by
  rw [value, isfield_makeFieldIdx, if_pos rfl, memberIdx_makeFieldIdx hi]

theorem value_method {c : SQClass} {i : Nat} (hi : i < 2 ^ 24) :
    c.value h (makeMethodIdx i) = c.methods.getD i .ofNull := by
  rw [value, isfield_makeMethodIdx hi, if_neg Bool.false_ne_true, memberIdx_makeMethodIdx hi]

theorem Members.newSlot_refused (hM : Members ss h c m fields makers) (hkey : key.type ≠ otNull)
    (hrefused : ¬ c.Accepts ss h key val bstatic) :
    c.newSlot ss h malloc key val bstatic = .ok (false, c, h.closures) := by
  simp only [newSlot, key_eq hkey, hM.get_members, pure, Except.pure, bind, Except.bind]
  by_cases hlocked : (c.locked && !(isFunction val || bstatic)) = true
  · rw [if_pos hlocked]
  · rw [Accepts, hM.hasField_eq hkey, not_and_or, not_or] at hrefused
    obtain hopen | ⟨hfield, hfull⟩ := hrefused
    · rw [Bool.and_eq_true, Bool.not_eq_true', not_and, Bool.not_eq_false] at hlocked
      exact absurd hlocked hopen
    · rw [Option.not_isSome_iff_eq_none] at hfield
      rw [if_neg hlocked, hfield]
      exact if_pos (not_lt.mp hfull)

theorem Members.newSlot_field (hM : Members ss h c m fields makers) (hkey : key.type ≠ otNull)
    (haccepts : c.Accepts ss h key val bstatic) (hfield : c.hasField ss h key = true) :
    ∃ c', c.newSlot ss h malloc key val bstatic =
        .ok (true, c', (c.kept ss h malloc key val bstatic).2) ∧
      Takes ss h malloc c key val bstatic c' := by
  have hopen : ¬ (c.locked && !(isFunction val || bstatic)) = true := by
    rw [Bool.and_eq_true, Bool.not_eq_true', not_and, Bool.not_eq_false]
    exact haccepts.1
  have hkept : c.kept ss h malloc key val bstatic = (h.realval val, h.closures) := by
    rw [kept, hfield, Bool.true_or, if_pos rfl]
  obtain ⟨temp, htemp⟩ := Option.isSome_iff_exists.mp (hM.hasField_eq hkey ▸ hfield)
  obtain ⟨hmem, hisfield⟩ := Option.filter_eq_some_iff.mp htemp
  obtain ⟨i, hi, rfl⟩ := hM.field_index hmem hisfield
  have hi24 := hi.trans hM.defaultvalues_lt
  have hM' := hM.setField i val
  refine ⟨{ c with defaultvalues := c.defaultvalues.set i val }, ?_, ⟨_, _, _, hM'⟩, rfl,
    fun _ => List.length_set, ?_⟩
  · simp only [newSlot, key_eq hkey, hM.get_members, pure, Except.pure, bind, Except.bind]
    rw [if_neg hopen, htemp, hkept]
    simp only [memberIdx_makeFieldIdx hi24]
  · rw [hM'.get_eq hkey, hmem, hkept, Option.map_some, value_field hi24]
    simp [hi]

theorem Members.newSlot_newField (hM : Members ss h c m fields makers) (hkey : key.type ≠ otNull)
    (haccepts : c.Accepts ss h key val bstatic) (hfield : c.hasField ss h key = false)
    (hbelongs : (isFunction val || bstatic) = false) :
    ∃ c', c.newSlot ss h malloc key val bstatic =
        .ok (true, c', (c.kept ss h malloc key val bstatic).2) ∧
      Takes ss h malloc c key val bstatic c' := by
  have hunlocked : c.locked = false := by
    by_contra hl
    have hopen := haccepts.1 (Bool.eq_true_of_not_eq_false hl)
    rw [hbelongs] at hopen
    cases hopen
  have hroom := haccepts.2.resolve_left (Bool.eq_false_iff.mp hfield)
  have hkept : c.kept ss h malloc key val bstatic = (h.realval val, h.closures) := by
    rw [kept, hbelongs, Bool.not_false, Bool.or_true, if_pos rfl]
  rw [hM.hasField_eq hkey, Option.isSome_eq_false_iff, Option.isNone_iff_eq_none] at hfield
  have hother : ∀ i, m key ≠ some (makeFieldIdx i) := by
    intro i hi
    rw [hi, Option.filter_some, isfield_makeFieldIdx] at hfield
    cases hfield
  obtain ⟨t, created, hrun, hwf, -, hm⟩ :=
    hM.wellFormed.newSlot_spec hM.contents key (makeFieldIdx c.defaultvalues.length) 0
  have hM' := hM.pushField hroom hother hwf hm val
  refine ⟨_, ?_, ⟨_, _, _, hM'⟩, rfl, fun hl => ?_, ?_⟩
  · simp only [newSlot, key_eq hkey, hM.get_members, pure, Except.pure, bind, Except.bind]
    rw [hunlocked, hfield, hbelongs, hkept]
    simp only [Bool.false_and, Bool.false_eq_true, if_false, if_neg (not_le.mpr hroom), depth, hrun]
  · rw [hunlocked] at hl
    cases hl
  · rw [hM'.get_eq hkey, Function.update_self, hkept, Option.map_some,
      value_field hM.defaultvalues_lt]
    simp

theorem Members.newSlot_method (hM : Members ss h c m fields makers) (hkey : key.type ≠ otNull)
    (haccepts : c.Accepts ss h key val bstatic) (hfield : c.hasField ss h key = false)
    (hbelongs : (isFunction val || bstatic) = true)
    (hmm : isFunction val = true → ss.getMetaMethodIdxByName key = none) :
    ∃ c', c.newSlot ss h malloc key val bstatic =
        .ok (true, c', (c.kept ss h malloc key val bstatic).2) ∧
      Takes ss h malloc c key val bstatic c' := by
  have hroom := haccepts.2.resolve_left (Bool.eq_false_iff.mp hfield)
  have hkept : c.kept ss h malloc key val bstatic = theval h malloc c val := by
    rw [kept, hfield, hbelongs, Bool.not_true, Bool.or_false, if_neg Bool.false_ne_true]
  have hno : (if isFunction val = true then ss.getMetaMethodIdxByName key else none) = none := by
    split_ifs with hfun
    · exact hmm hfun
    · rfl
  rw [hM.hasField_eq hkey, Option.isSome_eq_false_iff, Option.isNone_iff_eq_none] at hfield
  cases hmem : m key with
  | none =>
    obtain ⟨t, created, hrun, hwf, -, hm⟩ :=
      hM.wellFormed.newSlot_spec hM.contents key (makeMethodIdx c.methods.length) 0
    have hM' := hM.pushMethod hroom hmem hwf hm
      (if Vm.Compare.isEqual ss.constructoridx key then (c.methods.length : Int)
        else c.constructoridx) (theval h malloc c val).1
    refine ⟨_, ?_, ⟨_, _, _, hM'⟩, rfl, fun _ => rfl, ?_⟩
    · simp only [newSlot, key_eq hkey, hM.get_members, pure, Except.pure, bind, Except.bind]
      rw [hfield, hbelongs, hno, hmem, hkept]
      simp only [Bool.not_true, Bool.and_false, Bool.false_eq_true, if_false, if_true,
        if_neg (not_le.mpr hroom), depth, hrun]
    · rw [hM'.get_eq hkey, Function.update_self, hkept, Option.map_some,
        value_method hM.methods_lt]
      simp
  | some temp =>
    have hmethod : isfield temp = false := by
      cases hidx : isfield temp with
      | false => rfl
      | true =>
        rw [hmem, Option.filter_some, hidx] at hfield
        cases hfield
    obtain ⟨i, hi, rfl⟩ := hM.method_index hmem hmethod
    have hi24 := hi.trans hM.methods_lt
    have hM' := hM.setMethod i (theval h malloc c val).1
    refine ⟨_, ?_, ⟨_, _, _, hM'⟩, rfl, fun _ => rfl, ?_⟩
    · simp only [newSlot, key_eq hkey, hM.get_members, pure, Except.pure, bind, Except.bind]
      rw [hfield, hbelongs, hno, hmem, hkept]
      simp only [Bool.not_true, Bool.and_false, Bool.false_eq_true, if_false, if_true,
        if_neg (not_le.mpr hroom), memberIdx_makeMethodIdx hi24]
    · rw [hM'.get_eq hkey, hmem, hkept, Option.map_some, value_method hi24]
      simp [hi]

/-- `NewSlot` stores a member that the class accepts, and tells so; otherwise nothing changes. -/
theorem Valid.newSlot (hc : c.Valid ss h) (hkey : key.type ≠ otNull)
    (hmm : isFunction val = true → ss.getMetaMethodIdxByName key = none) :
    (¬ c.Accepts ss h key val bstatic ∧
        c.newSlot ss h malloc key val bstatic = .ok (false, c, h.closures)) ∨
      (c.Accepts ss h key val bstatic ∧ ∃ c', c.newSlot ss h malloc key val bstatic =
          .ok (true, c', (c.kept ss h malloc key val bstatic).2) ∧
        Takes ss h malloc c key val bstatic c') := by
  obtain ⟨m, fields, makers, hM⟩ := hc
  by_cases haccepts : c.Accepts ss h key val bstatic
  · right
    refine ⟨haccepts, ?_⟩
    cases hfield : c.hasField ss h key with
    | true => exact hM.newSlot_field hkey haccepts hfield
    | false =>
      cases hbelongs : isFunction val || bstatic with
      | true => exact hM.newSlot_method hkey haccepts hfield hbelongs hmm
      | false => exact hM.newSlot_newField hkey haccepts hfield hbelongs
  · exact .inl ⟨haccepts, hM.newSlot_refused hkey haccepts⟩

end NewSlot

end SQClass

end Sqnim.Object
