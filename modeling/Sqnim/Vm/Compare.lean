import Sqnim.Lib.CString
import Sqnim.Object.Value

/-!
# ObjCmp, CMP_OP, IsEqual and IsFalse

The mixed branch of `ObjCmp` reads its first operand with `_float` and its second
with `_integer`, whatever their types. On an integer that comes first, `_float`
decodes the low four bytes of the payload.
-/
namespace Sqnim.Vm.Compare

open Sqnim.Lib Sqnim.Object
open CString (cstr strcmp)
open SQObjectType

/-- The outcome of `GetMetaMethod(MT_CMP)` followed by `CallMetaMethod`. -/
inductive CmpCall where
  | absent
  | failed
  | returned (res : SQObject)

/-- What `ObjCmp` reads beyond its operands: the strings, the metamethods of the
delegates, and the text `%.14g` prints for a float. -/
structure Env where
  strings : StringHeap
  cmpMetaMethod : SQObject → SQObject → CmpCall
  floatText : BitVec 32 → List UInt8

inductive CmpError where
  | raised (message : List UInt8)
  | metaMethodFailed
  deriving DecidableEq, Repr

def ascii (s : String) : List UInt8 := s.toUTF8.toList

/-- `IdType2Name`. -/
def typeName : SQObjectType → String
  | otNull => "null"
  | otInteger => "integer"
  | otFloat => "float"
  | otBool => "bool"
  | otString => "string"
  | otTable => "table"
  | otArray => "array"
  | otGenerator => "generator"
  | otClosure | otNativeClosure => "function"
  | otUserData | otUserPointer => "userdata"
  | otThread => "thread"
  | otFuncProto => "function"
  | otClass => "class"
  | otInstance => "instance"
  | otWeakRef => "weakref"
  | otOuter => "outer"

def printObjVal (env : Env) (o : SQObject) : List UInt8 :=
  match o.type with
  | otString => env.strings.stringval o
  | otInteger => ascii (toString o.integer)
  | otFloat => env.floatText o.floatBits
  | t => ascii (typeName t)

/-- `%.50s` -/
def formatted (s : List UInt8) : List UInt8 := (cstr s).take 50

def raiseCompareError (env : Env) (o1 o2 : SQObject) : CmpError :=
  .raised (ascii "comparison between '" ++ formatted (printObjVal env o1) ++ ascii "' and '" ++
    formatted (printObjVal env o2) ++ ascii "'")

/-- Three-way comparison by `==` and then `<`. A NaN is neither, hence the 1. -/
def floatSign (x y : Binary32.Value) : Int :=
  if Binary32.eq x y then 0 else if Binary32.lt x y then -1 else 1

/-- The switch of `ObjCmp` for two operands of one type with different payloads. -/
def objCmpSame (env : Env) (o1 o2 : SQObject) : Except CmpError Int :=
  let pointers : Int := if o1.unVal.toNat < o2.unVal.toNat then -1 else 1
  match o1.type with
  | otString => .ok (strcmp (env.strings.stringval o1) (env.strings.stringval o2))
  | otInteger => .ok (if o1.integer < o2.integer then -1 else 1)
  | otFloat => .ok (if Binary32.lt o1.float o2.float then -1 else 1)
  | otTable | otUserData | otInstance =>
    match env.cmpMetaMethod o1 o2 with
    | .absent => .ok pointers
    | .failed => .error .metaMethodFailed
    | .returned res =>
      if res.type = otInteger then .ok res.integer
      else .error (.raised (ascii "_cmp must return an integer"))
  | _ => .ok pointers

def objCmp (env : Env) (o1 o2 : SQObject) : Except CmpError Int :=
  if o1.type = o2.type then
    if o1.rawval = o2.rawval then .ok 0 else objCmpSame env o1 o2
  else if o1.type.isNumeric && o2.type.isNumeric then
    if o1.type = otInteger ∧ o2.type = otFloat then
      .ok (floatSign (Binary32.ofInt o1.integer) o2.float)
    else .ok (floatSign o1.float (Binary32.ofInt o2.integer))
  else if o1.type = otNull then .ok (-1)
  else if o2.type = otNull then .ok 1
  else .error (raiseCompareError env o1 o2)

inductive CmpOP where
  | cmpG | cmpGE | cmpL | cmpLE | cmp3W
  deriving DecidableEq, Repr

def cmpOp (env : Env) (op : CmpOP) (o1 o2 : SQObject) : Except CmpError SQObject :=
  (objCmp env o1 o2).map fun r =>
    match op with
    | .cmpG => .ofBool (decide (r > 0))
    | .cmpGE => .ofBool (decide (r ≥ 0))
    | .cmpL => .ofBool (decide (r < 0))
    | .cmpLE => .ofBool (decide (r ≤ 0))
    | .cmp3W => .ofInteger (BitVec.ofInt 64 r)

def isEqual (o1 o2 : SQObject) : Bool :=
  if o1.type = o2.type then
    if o1.type = otFloat then Binary32.eq o1.float o2.float else o1.rawval == o2.rawval
  else if o1.type.isNumeric && o2.type.isNumeric then Binary32.eq o1.tofloat o2.tofloat
  else false

/-- The second disjunct of the source reads the integer payload of every type. -/
def isFalse (o : SQObject) : Bool :=
  (o.type.code &&& canBeFalse != 0 && (o.type == otFloat && Binary32.eq o.float (.finite 0)))
    || o.integer == 0

end Sqnim.Vm.Compare
