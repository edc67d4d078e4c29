import Sqnim.Vm.EqualityOrder
import Sqnim.Vm.NativeCheck

/-!
# Conversions to integers and floats

`sq_getinteger`, `sq_getfloat`, `sq_objtointeger`, `sq_objtofloat` and the methods `tointeger` and
`tofloat` of the default delegates. `tointeger` reads the integer member of the union unless the
type is float, `tofloat` reads the float member unless the type is integer: of `true` they read the
integer 1 and the least subnormal float.
-/
namespace Sqnim.BaseLib.Conversion

open Sqnim.Lib Sqnim.Object
open Vm Vm.Compare Vm.EqualityOrder Vm.ScalarOrder
open SQObjectType

/-- What conversions use of the compiler and the C library. `strtol` and `strtod` have no result
where they consume nothing. -/
structure ConvertEnv where
  integerOfFloat : BitVec 32 → BitVec 64
  strtol : List UInt8 → Int → Option (BitVec 64)
  strtod : List UInt8 → Option (BitVec 32)
  strings : StringHeap

variable (env : ConvertEnv)

def tointeger (o : SQObject) : BitVec 64 :=
  if o.type = otFloat then env.integerOfFloat o.floatBits else o.rawval

/-- The value `sq_getinteger` stores, unless it fails. -/
def sqGetinteger (o : SQObject) : Option (BitVec 64) :=
  if o.type.isNumeric then some (tointeger env o)
  else if o.type = otBool then some (if isFalse o then 0 else 1)
  else if o.type = otNull then some 0
  else none

/-- The value `sq_getfloat` stores, unless it fails. -/
def sqGetfloat (o : SQObject) : Option Binary32.Value :=
  if o.type.isNumeric then some o.tofloat else none

def sqObjtointeger (o : SQObject) : BitVec 64 := if o.type.isNumeric then tointeger env o else 0

def sqObjtofloat (o : SQObject) : Binary32.Value := if o.type.isNumeric then o.tofloat else .finite 0

/-! ## The methods -/

/-- What a conversion pushes. -/
inductive Pushed where
  | null
  | integer (n : BitVec 64)
  | float (f : Binary32.Value)
  deriving DecidableEq

inductive ConvertError where
  | param (e : ParamError)
  | cannotConvert
  deriving DecidableEq, Repr

def ConvertError.message : ConvertError → List UInt8
  | .param e => e.message
  | .cannotConvert => ascii "cannot convert the string"

/-- `str2num`: a point or, below base 14, an `e` makes a float. -/
def str2num (s : List UInt8) (base : Int) : Option SQObject :=
  let floating (c : UInt8) : Bool :=
    c == '.'.toUInt8 || (base ≤ 13 && (c == 'E'.toUInt8 || c == 'e'.toUInt8))
  if (CString.cstr s).any floating then (env.strtod (CString.cstr s)).map .ofFloat
  else (env.strtol (CString.cstr s) base).map .ofInteger

def defaultDelegateTofloat (o : SQObject) : Except ConvertError Pushed :=
  match o.type with
  | otString =>
    match str2num env (env.strings.stringval o) 10 with
    | some res => .ok (.float res.tofloat)
    | none => .error .cannotConvert
  | otInteger | otFloat => .ok (.float o.tofloat)
  | otBool => .ok (.float (Binary32.ofInt (if o.integer ≠ 0 then 1 else 0)))
  | _ => .ok .null

/-- A base that `sq_getinteger` does not accept leaves ten. -/
def defaultDelegateTointeger (o : SQObject) (base : Option SQObject) : Except ConvertError Pushed :=
  let base := ((base.bind (sqGetinteger env)).getD 10).toInt
  match o.type with
  | otString =>
    match str2num env (env.strings.stringval o) base with
    | some res => .ok (.integer (tointeger env res))
    | none => .error .cannotConvert
  | otInteger | otFloat => .ok (.integer (tointeger env o))
  | otBool => .ok (.integer (if o.integer ≠ 0 then 1 else 0))
  | _ => .ok .null

/-- The entries `tointeger` of the default delegates that `InvokeDefaultDelegate` looks in. -/
def tointegerMethod : SQObjectType → Option SQRegFunction
  | otString => some ⟨"tointeger", -1, some "sn"⟩
  | otInteger | otFloat | otBool => some ⟨"tointeger", 1, some "n|b"⟩
  | _ => none

def tofloatMethod : SQObjectType → Option SQRegFunction
  | otString => some ⟨"tofloat", 1, some "s"⟩
  | otInteger | otFloat | otBool => some ⟨"tofloat", 1, some "n|b"⟩
  | _ => none

/-- `o.f()`, where `o` has the method `f`. -/
def callMethod (f : Option SQRegFunction) (o : SQObject) (body : Except ConvertError Pushed) :
    Option (Except ConvertError Pushed) :=
  (f.bind fun f => f.check [o]).map fun
    | .ok () => body
    | .error e => .error (.param e)

def callTointeger (o : SQObject) : Option (Except ConvertError Pushed) :=
  callMethod (tointegerMethod o.type) o (defaultDelegateTointeger env o none)

def callTofloat (o : SQObject) : Option (Except ConvertError Pushed) :=
  callMethod (tofloatMethod o.type) o (defaultDelegateTofloat env o)

/-! ## Where they agree -/

/-- The number a null, bool or integer stands for. -/
def number : Scalar → BitVec 64
  | .null => 0
  | .bool b => if b then 1 else 0
  | .integer n => n

/-- Every conversion gives what `sq_getinteger` stores, or that as a float. -/
structure ConversionsAgree (o : SQObject) (n : BitVec 64) : Prop where
  getinteger : sqGetinteger env o = some n
  objtointeger : sqObjtointeger env o = n
  getfloat : sqGetfloat o = some (Binary32.ofInt n.toInt)
  objtofloat : sqObjtofloat o = Binary32.ofInt n.toInt
  tointeger : ∀ r, callTointeger env o = some r → r = .ok (.integer n)
  tofloat : ∀ r, callTofloat env o = some r → r = .ok (.float (Binary32.ofInt n.toInt))

theorem sqGetinteger_scalar (a : Scalar) : sqGetinteger env a.toObject = some (number a) := by
  unfold sqGetinteger
  rw [if_pos (isNumeric_scalar a)]
  rcases a with _ | (_ | _) | n <;> rfl

theorem sqObjtointeger_scalar (a : Scalar) : sqObjtointeger env a.toObject = number a := by
  unfold sqObjtointeger
  rw [if_pos (isNumeric_scalar a)]
  rcases a with _ | (_ | _) | n <;> rfl

/-- The typemask of the two methods of numbers excludes none of them. -/
theorem callMethod_number (name : String) (o : SQObject) (body : Except ConvertError Pushed)
    {t : SQObjectType} (ht : o.type = t)
    (hpasses : typePasses (otFloat.rawType ||| otInteger.rawType ||| otBool.rawType) t = true) :
    callMethod (some ⟨name, 1, some "n|b"⟩) o body = some body := by
  have hcompiled : compileTypemask "n|b".toList 0 =
      some [otFloat.rawType ||| otInteger.rawType ||| otBool.rawType] := by decide
  have hcheck : (SQRegFunction.mk name 1 (some "n|b")).check [o] = some (.ok ()) := by
    simp only [SQRegFunction.check, SQRegFunction.typecheck, hcompiled, Option.map_some]
    rw [checkParams, List.length_singleton, if_pos (by decide), checkTypes, ht, if_pos hpasses,
      checkTypes]
    exact nofun
  simp only [callMethod, Option.bind_some, hcheck, Option.map_some]

/-- Null has neither method; the others pass the check. -/
theorem callTointeger_scalar (a : Scalar) (r : Except ConvertError Pushed)
    (h : callTointeger env a.toObject = some r) : r = .ok (.integer (number a)) := by
  rcases a with _ | b | n
  · cases h
  · have hcall := callMethod_number "tointeger" (.ofBool b)
      (defaultDelegateTointeger env (.ofBool b) none) (t := otBool) rfl (by decide)
    rw [← Option.some.inj (hcall.symm.trans h)]
    cases b <;> rfl
  · have hcall := callMethod_number "tointeger" (.ofInteger n)
      (defaultDelegateTointeger env (.ofInteger n) none) (t := otInteger) rfl (by decide)
    exact (Option.some.inj (hcall.symm.trans h)).symm

theorem callTofloat_scalar (a : Scalar) (r : Except ConvertError Pushed)
    (h : callTofloat env a.toObject = some r) :
    r = .ok (.float (Binary32.ofInt (number a).toInt)) := by
  rcases a with _ | b | n
  · cases h
  · have hcall := callMethod_number "tofloat" (.ofBool b) (defaultDelegateTofloat env (.ofBool b))
      (t := otBool) rfl (by decide)
    rw [← Option.some.inj (hcall.symm.trans h)]
    cases b <;> rfl
  · have hcall := callMethod_number "tofloat" (.ofInteger n)
      (defaultDelegateTofloat env (.ofInteger n)) (t := otInteger) rfl (by decide)
    exact (Option.some.inj (hcall.symm.trans h)).symm

/-- Of all nulls, bools and integers `true` alone has two readings. -/
theorem tofloat_scalar (a : Scalar) :
    a.toObject.tofloat = Binary32.ofInt (number a).toInt ↔ a ≠ .bool true := by
  rcases a with _ | (_ | _) | n
  · decide
  · decide
  · decide
  · exact iff_of_true rfl nofun

theorem conversionsAgree_scalar (a : Scalar) :
    ConversionsAgree env a.toObject (number a) ↔ a ≠ .bool true := by
  rw [← tofloat_scalar]
  constructor
  · intro h
    have hfloat := h.objtofloat
    rwa [sqObjtofloat, if_pos (isNumeric_scalar a)] at hfloat
  · intro h
    exact {
      getinteger := sqGetinteger_scalar env a
      objtointeger := sqObjtointeger_scalar env a
      getfloat := by rw [sqGetfloat, if_pos (isNumeric_scalar a), h]
      objtofloat := by rw [sqObjtofloat, if_pos (isNumeric_scalar a), h]
      tointeger := callTointeger_scalar env a
      tofloat := callTofloat_scalar env a }

/-! ## Equality -/

/-- `IsEqual` compares what `sq_getinteger` stores, where both are small enough to be floats. -/
def EqualityAgrees (a b : SQObject) : Prop :=
  ∀ m n, sqGetinteger env a = some m → sqGetinteger env b = some n → m.toInt.natAbs < 2^24 →
    n.toInt.natAbs < 2^24 → (isEqual a b = true ↔ m = n)

theorem equalityAgrees_scalar (a b : Scalar) :
    EqualityAgrees env a.toObject b.toObject ↔
      ((number a).toInt.natAbs < 2^24 → (number b).toInt.natAbs < 2^24 →
        (isEqual a.toObject b.toObject = true ↔ number a = number b)) := by
  constructor
  · intro h
    exact h _ _ (sqGetinteger_scalar env a) (sqGetinteger_scalar env b)
  · intro h m n hm hn
    rw [sqGetinteger_scalar] at hm hn
    obtain rfl := Option.some.inj hm
    obtain rfl := Option.some.inj hn
    exact h

/-- An integer equals what is read as zero if it is zero, and never what is read as the least
subnormal. -/
theorem integer_matches {y : Scalar} (hy : NotInteger y) (n : BitVec 64) :
    (n.toInt.natAbs < 2^24 → (number y).toInt.natAbs < 2^24 →
      (n = 0 ∧ level y = 0 ↔ n = number y)) ↔ ¬(n = 1 ∧ y = .bool true) := by
  rcases y with _ | (_ | _) | m
  · exact iff_of_true (fun _ _ => and_iff_left rfl) nofun
  · exact iff_of_true (fun _ _ => and_iff_left rfl) nofun
  · have hlevel : level (.bool true) ≠ 0 := by decide
    constructor
    · rintro h ⟨rfl, -⟩
      exact hlevel ((h (by decide) (by decide)).mpr rfl).2
    · intro h _ _
      exact iff_of_false (fun hz => hlevel hz.2) fun hn => h ⟨hn, rfl⟩
  · exact absurd rfl (hy m)

theorem levels_match {x y : Scalar} (hx : NotInteger x) (hy : NotInteger y) :
    level x = level y ↔ number x = number y := by
  rcases x with _ | (_ | _) | m <;> rcases y with _ | (_ | _) | n
  all_goals first
    | exact absurd rfl (hx _)
    | exact absurd rfl (hy _)
    | decide

theorem equalityAgrees_iff (a b : Scalar) (hne : a.toObject.type ≠ b.toObject.type) :
    EqualityAgrees env a.toObject b.toObject ↔
      ¬(a = .integer 1 ∧ b = .bool true) ∧ ¬(b = .integer 1 ∧ a = .bool true) := by
  rw [equalityAgrees_scalar]
  rcases integer_or_not a with ⟨m, rfl⟩ | ha <;> rcases integer_or_not b with ⟨n, rfl⟩ | hb
  · exact absurd rfl hne
  · rw [isEqual_integer_level m hb]
    refine (integer_matches hb m).trans ?_
    rw [Scalar.integer.injEq, and_iff_left fun h => hb 1 h.1]
  · rw [isEqual_level_integer n ha, eq_comm (a := number a), forall_comm]
    refine (integer_matches ha n).trans ?_
    rw [Scalar.integer.injEq, and_iff_right fun h => ha 1 h.1]
  · rw [isEqual_levels ha hb, levels_match ha hb]
    exact iff_of_true (fun _ _ => Iff.rfl) ⟨fun h => ha 1 h.1, fun h => hb 1 h.1⟩

/-- All conversions of `a` agree, and equality with a `b` of another type agrees with them. -/
structure AllAgree (a b : Scalar) : Prop where
  conversions : ∃ n, ConversionsAgree env a.toObject n
  equality : a.toObject.type ≠ b.toObject.type → EqualityAgrees env a.toObject b.toObject

theorem allAgree_iff (a b : Scalar) :
    AllAgree env a b ↔ a ≠ .bool true ∧ ¬(a = .integer 1 ∧ b = .bool true) := by
  constructor
  · rintro ⟨⟨n, hn⟩, hequality⟩
    obtain rfl := Option.some.inj ((sqGetinteger_scalar env a).symm.trans hn.getinteger)
    refine ⟨(conversionsAgree_scalar env a).mp hn, ?_⟩
    rintro ⟨rfl, rfl⟩
    have hne : (Scalar.integer 1).toObject.type ≠ (Scalar.bool true).toObject.type := nofun
    exact ((equalityAgrees_iff env _ _ hne).mp (hequality hne)).1 ⟨rfl, rfl⟩
  · rintro ⟨ha, hone⟩
    refine ⟨⟨_, (conversionsAgree_scalar env a).mpr ha⟩, fun hne => ?_⟩
    exact (equalityAgrees_iff env a b hne).mpr ⟨hone, fun h => ha h.2⟩

/-- `sq_getfloat` stores the least subnormal for `true`. -/
theorem not_allAgree : ¬∀ (env : ConvertEnv) (a b : Scalar), AllAgree env a b := by
  intro h
  have env : ConvertEnv := ⟨fun _ => 0, fun _ _ => none, fun _ => none, .empty⟩
  obtain ⟨n, hn⟩ := (h env (.bool true) .null).conversions
  obtain rfl := Option.some.inj ((sqGetinteger_scalar env _).symm.trans hn.getinteger)
  exact absurd hn.getfloat (by decide)

end Sqnim.BaseLib.Conversion
