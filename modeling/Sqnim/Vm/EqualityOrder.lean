import Sqnim.Vm.ScalarOrder

/-!
# Equality against the order

`IsEqual` converts with `tofloat` and compares string pointers, `ObjCmp` reads
payload bytes and calls `strcmp`. They agree except on integers whose low four
bytes spell a float zero or one, and on strings that differ after a zero byte.
-/
namespace Sqnim.Vm.EqualityOrder

open Sqnim.Lib Sqnim.Object Sqnim.Vm.Compare Sqnim.Vm.ScalarOrder
open Binary32 (one)
open CString (cstr strcmp strcmp_eq_zero)
open SQObjectType

/-- A null, a bool, an integer or a live string. -/
inductive Plain (h : StringHeap) where
  | scalar (a : Scalar)
  | string (s : LiveString h)

def Plain.toObject {h : StringHeap} : Plain h → SQObject
  | .scalar a => a.toObject
  | .string s => .ofString s.ptr

/-- Where the comparison succeeds, it is zero on equal values only. -/
def AgreeAt (env : Env) (a b : Plain env.strings) : Prop :=
  ∀ r, objCmp env a.toObject b.toObject = .ok r → (r = 0 ↔ isEqual a.toObject b.toObject = true)

/-- The low four bytes of an integer on the left are not the float one against `true`, nor a
float zero against null and `false` unless it is zero; strings differ before a zero byte. -/
def AgreeCondition {h : StringHeap} : Plain h → Plain h → Prop
  | .scalar (.integer _), .scalar (.integer _) => True
  | .scalar (.integer n), .scalar (.bool true) => n.setWidth 32 ≠ 0x3F800000#32
  | .scalar (.integer n), .scalar _ =>
      n.setWidth 32 = 0#32 ∨ n.setWidth 32 = 0x80000000#32 → n = 0
  | .string s, .string t => cstr s.content = cstr t.content → s.content = t.content
  | _, _ => True

theorem stringval_ofString {h : StringHeap} (s : LiveString h) :
    h.stringval (.ofString s.ptr) = s.content := by
  rw [StringHeap.stringval, SQObject.ofString, s.live, Option.getD_some]

/-- Two live strings are compared by content unless they are one string. -/
theorem agree_strings (env : Env) (s t : LiveString env.strings) :
    AgreeAt env (.string s) (.string t) ↔ (cstr s.content = cstr t.content → s.content = t.content) := by
  have heq : isEqual (.ofString s.ptr) (.ofString t.ptr) = true ↔ s.content = t.content := by
    rw [← s.ptr_eq_iff t]
    simp [isEqual, SQObject.ofString, SQObject.rawval]
  by_cases hp : s.ptr = t.ptr
  · have hcontent := (s.ptr_eq_iff t).mp hp
    refine iff_of_true (fun r hr => ?_) fun _ => hcontent
    have hzero : objCmp env (.ofString s.ptr) (.ofString t.ptr) = .ok 0 :=
      (if_pos rfl).trans (if_pos hp)
    have hr0 : r = 0 := (Except.ok.inj (hzero.symm.trans hr)).symm
    exact iff_of_true hr0 (heq.mpr hcontent)
  · have hcmp : objCmp env (.ofString s.ptr) (.ofString t.ptr) =
        .ok (strcmp (env.strings.stringval (.ofString s.ptr))
          (env.strings.stringval (.ofString t.ptr))) := (if_pos rfl).trans (if_neg hp)
    rw [stringval_ofString, stringval_ofString] at hcmp
    constructor
    · intro h hc
      exact heq.mp ((h _ hcmp).mp ((strcmp_eq_zero _ _).mpr hc))
    · intro h r hr
      have hrc : r = strcmp s.content t.content := Except.ok.inj (hr.symm.trans hcmp)
      refine hrc ▸ (strcmp_eq_zero _ _).trans (Iff.trans ?_ heq.symm)
      exact ⟨h, fun he => he ▸ rfl⟩

section Scalars

variable {x y : Scalar} (hx : NotInteger x) (hy : NotInteger y) (n : BitVec 64)

theorem agree_scalars (env : Env) (a b : Scalar) :
    AgreeAt env (.scalar a) (.scalar b) ↔
      (scalarCmp a b = 0 ↔ isEqual a.toObject b.toObject = true) := by
  constructor
  · intro h
    exact h _ (objCmp_scalar env a b)
  · intro h r hr
    have hrc : r = scalarCmp a b := Except.ok.inj (hr.symm.trans (objCmp_scalar env a b))
    exact hrc ▸ h

/-- A float read from a null or bool is zero or the least subnormal, an integer never is the
latter. -/
theorem ofInt_eq_level : Binary32.eq (Binary32.ofInt n.toInt) (.finite (level y)) = true ↔
    n = 0 ∧ level y = 0 := by
  obtain ⟨v, hv, hneg, hzero, hpos⟩ := ofInt_cases (natAbs_toInt_lt n)
  have hone : 1 < one := by decide
  have hn : n = 0 ↔ n.toInt = 0 := by
    rw [← BitVec.toInt_inj]
    rfl
  rw [hv, Binary32.eq_finite, decide_eq_true_eq, hn]
  rcases level_cases y with h | ⟨h, -⟩ <;> rw [h] <;>
    rcases lt_trichotomy n.toInt 0 with hlt | heq | hgt
  · have := hneg hlt; omega
  · have := hzero heq; omega
  · have := hpos hgt; omega
  · have := hneg hlt; omega
  · have := hzero heq; omega
  · have := hpos hgt; omega

theorem tofloat_level (hy : NotInteger y) : y.toObject.tofloat = .finite (level y) := by
  rcases y with _ | b | m
  · decide
  · cases b <;> decide
  · exact absurd rfl (hy m)

theorem tofloat_integer : (Scalar.integer n).toObject.tofloat = Binary32.ofInt n.toInt := rfl

theorem isEqual_mixed {o p : SQObject} (hne : o.type ≠ p.type) (ho : o.type.isNumeric = true)
    (hp : p.type.isNumeric = true) : isEqual o p = Binary32.eq o.tofloat p.tofloat := by
  rw [isEqual, if_neg hne, ho, hp, Bool.and_self, if_pos rfl]

theorem isNumeric_scalar (a : Scalar) : a.toObject.type.isNumeric = true := by
  cases a
  · exact isNumeric_otNull
  · exact isNumeric_otBool
  · exact isNumeric_otInteger

theorem type_ne_integer (hy : NotInteger y) : y.toObject.type ≠ otInteger := by
  cases y with
  | integer m => exact absurd rfl (hy m)
  | _ => nofun

theorem isEqual_integers (m n : BitVec 64) :
    isEqual (Scalar.integer m).toObject (Scalar.integer n).toObject = true ↔ m = n := by
  simp [isEqual, Scalar.toObject, SQObject.ofInteger, SQObject.rawval]

theorem isEqual_integer_level (hy : NotInteger y) :
    isEqual (Scalar.integer n).toObject y.toObject = true ↔ n = 0 ∧ level y = 0 := by
  rw [isEqual_mixed (type_ne_integer hy).symm (isNumeric_scalar _) (isNumeric_scalar _),
    tofloat_integer, tofloat_level hy, ofInt_eq_level]

theorem isEqual_level_integer (hy : NotInteger y) :
    isEqual y.toObject (Scalar.integer n).toObject = true ↔ n = 0 ∧ level y = 0 := by
  rw [isEqual_mixed (type_ne_integer hy) (isNumeric_scalar _) (isNumeric_scalar _),
    tofloat_integer, tofloat_level hy, Binary32.eq_comm, ofInt_eq_level]

theorem isEqual_levels (hx : NotInteger x) (hy : NotInteger y) :
    isEqual x.toObject y.toObject = true ↔ level x = level y := by
  rcases x with _ | (_ | _) | m <;> rcases y with _ | (_ | _) | n
  all_goals first
    | exact absurd rfl (hx _)
    | exact absurd rfl (hy _)
    | decide

/-- Zero of an integer on the left against a level: the low bytes are that level as a float. -/
theorem agree_integer_level (env : Env) (hy : NotInteger y) :
    AgreeAt env (.scalar (.integer n)) (.scalar y) ↔
      AgreeCondition (h := env.strings) (.scalar (.integer n)) (.scalar y) := by
  rw [agree_scalars, scalarCmp_integer_left hy, floatSign_eq_zero, isEqual_integer_level n hy]
  rcases level_cases y with h | ⟨h, rfl⟩
  · have hcond : AgreeCondition (h := env.strings) (.scalar (.integer n)) (.scalar y) ↔
        (n.setWidth 32 = 0#32 ∨ n.setWidth 32 = 0x80000000#32 → n = 0) := by
      rcases y with _ | (_ | _) | m
      · exact Iff.rfl
      · exact Iff.rfl
      · cases h
      · exact absurd rfl (hy m)
    rw [hcond, h, zero_mul, lowFloat, Binary32.eq_zero_iff]
    constructor
    · intro hiff hlow
      exact (hiff.mp hlow).1
    · intro hlow
      refine ⟨fun hz => ⟨hlow hz, rfl⟩, ?_⟩
      rintro ⟨rfl, -⟩
      exact .inl rfl
  · have hone : Binary32.eq (lowFloat n) (.finite (level (.bool true) * one)) = true ↔
        n.setWidth 32 = 0x3F800000#32 := by
      rw [h, Int.one_mul]
      exact Binary32.eq_one_iff _
    have hcond : AgreeCondition (h := env.strings) (.scalar (.integer n)) (.scalar (.bool true)) ↔
        n.setWidth 32 ≠ 0x3F800000#32 := Iff.rfl
    rw [hone, hcond, h]
    constructor
    · intro hiff hlow
      exact absurd (hiff.mp hlow).2 one_ne_zero
    · intro hlow
      exact iff_of_false hlow fun hz => absurd hz.2 one_ne_zero

/-- An integer on the right is converted by both sides. -/
theorem agree_level_integer (env : Env) (hx : NotInteger x) :
    AgreeAt env (.scalar x) (.scalar (.integer n)) := by
  have hn : n = 0 ↔ n.toInt = 0 := by
    rw [← BitVec.toInt_inj]
    rfl
  rw [agree_scalars, scalarCmp_integer_right hx, isEqual_level_integer n hx, hn]
  rcases level_cases x with h | ⟨h, -⟩
  · simp [h]
  · rw [if_pos h, h]
    split_ifs <;> simp

end Scalars

theorem agree_scalar_iff (env : Env) (a b : Scalar) :
    AgreeAt env (.scalar a) (.scalar b) ↔
      AgreeCondition (h := env.strings) (.scalar a) (.scalar b) := by
  rcases integer_or_not a with ⟨m, rfl⟩ | ha <;> rcases integer_or_not b with ⟨n, rfl⟩ | hb
  · rw [agree_scalars, isEqual_integers, ← BitVec.toInt_inj]
    refine iff_of_true ?_ trivial
    change (m.toInt - n.toInt).sign = 0 ↔ m.toInt = n.toInt
    rw [Int.sign_eq_zero_iff_zero, sub_eq_zero]
  · exact agree_integer_level m env hb
  · refine iff_of_true (agree_level_integer n env ha) ?_
    cases a with
    | integer m => exact absurd rfl (ha m)
    | _ => trivial
  · rw [agree_scalars, scalarCmp_levels ha hb, isEqual_levels ha hb]
    refine iff_of_true (Int.sign_eq_zero_iff_zero.trans sub_eq_zero) ?_
    cases a with
    | integer m => exact absurd rfl (ha m)
    | _ => trivial

/-- A string is never equal to a scalar, and only null is ordered against it. -/
theorem agree_string_scalar (env : Env) {o p : SQObject} (hne : o.type ≠ p.type)
    (h : o.type = otString ∨ p.type = otString) (r : Int) (hr : objCmp env o p = .ok r) :
    r = 0 ↔ isEqual o p = true := by
  have hstring : otString.isNumeric = false := by decide
  have hnum : (o.type.isNumeric && p.type.isNumeric) = false := by
    rcases h with h | h <;> rw [h, hstring]
    · exact Bool.false_and _
    · exact Bool.and_false _
  have heq : isEqual o p = false := by
    rw [isEqual, if_neg hne, hnum, if_neg Bool.false_ne_true]
  rw [objCmp, if_neg hne, hnum, if_neg Bool.false_ne_true] at hr
  rw [heq]
  refine iff_of_false ?_ Bool.false_ne_true
  split_ifs at hr
  · rw [← Except.ok.inj hr]
    decide
  · rw [← Except.ok.inj hr]
    decide

/-- `ObjCmp` is zero exactly on the pairs that `IsEqual` accepts, unless an integer on the left
spells zero or one in its low four bytes or two strings share a prefix up to a zero byte. -/
theorem agreeAt_iff (env : Env) (a b : Plain env.strings) :
    AgreeAt env a b ↔ AgreeCondition a b := by
  cases a with
  | scalar a =>
    cases b with
    | scalar b => exact agree_scalar_iff env a b
    | string t =>
      have hne : a.toObject.type ≠ otString := by cases a <;> nofun
      refine iff_of_true (agree_string_scalar env hne (.inr rfl)) ?_
      cases a <;> trivial
  | string s =>
    cases b with
    | scalar b =>
      have hne : otString ≠ b.toObject.type := by cases b <;> nofun
      exact iff_of_true (agree_string_scalar env hne (.inl rfl)) trivial
    | string t => exact agree_strings env s t

/-- The integer `2^32` compares equal to null but is not equal to it. -/
theorem not_agree : ¬ ∀ (env : Env) (a b : Plain env.strings), AgreeAt env a b := by
  intro h
  have hagree := (agreeAt_iff ⟨.empty, fun _ _ => .absent, fun _ => []⟩
    (.scalar (.integer 0x100000000)) (.scalar .null)).mp (h _ _ _)
  exact absurd (hagree (.inl (by decide))) (by decide)

end Sqnim.Vm.EqualityOrder
