import Sqnim.Lib.Binary32

/-!
# Script values as squirrel.h lays them out

The build is `_SQ64` with single precision floats on a little-endian machine: a
value is a 32-bit tag and a 64-bit union, an integer fills the union, and a
float is read from its low four bytes.
-/
namespace Sqnim.Object

open Sqnim.Lib

/-- `SQObjectType`, one constructor for each `OT_` constant. -/
inductive SQObjectType where
  | otNull | otInteger | otFloat | otBool | otString | otTable | otArray | otUserData
  | otClosure | otNativeClosure | otGenerator | otUserPointer | otThread | otFuncProto
  | otClass | otInstance | otWeakRef | otOuter
  deriving DecidableEq, Repr

def refCounted : BitVec 32 := 0x08000000
def numeric : BitVec 32 := 0x04000000
def delegable : BitVec 32 := 0x02000000
def canBeFalse : BitVec 32 := 0x01000000

namespace SQObjectType

def all : List SQObjectType :=
  [otNull, otInteger, otFloat, otBool, otString, otTable, otArray, otUserData, otClosure,
    otNativeClosure, otGenerator, otUserPointer, otThread, otFuncProto, otClass, otInstance,
    otWeakRef, otOuter]

theorem mem_all (t : SQObjectType) : t ∈ all := by cases t <;> decide

/-- The `_RT_` bit of a type. -/
def rawType : SQObjectType → BitVec 32
  | otNull => 0x00000001
  | otInteger => 0x00000002
  | otFloat => 0x00000004
  | otBool => 0x00000008
  | otString => 0x00000010
  | otTable => 0x00000020
  | otArray => 0x00000040
  | otUserData => 0x00000080
  | otClosure => 0x00000100
  | otNativeClosure => 0x00000200
  | otGenerator => 0x00000400
  | otUserPointer => 0x00000800
  | otThread => 0x00001000
  | otFuncProto => 0x00002000
  | otClass => 0x00004000
  | otInstance => 0x00008000
  | otWeakRef => 0x00010000
  | otOuter => 0x00020000

/-- The tag stored in `_type`. This tree marks null and bool as numeric too. -/
def code : SQObjectType → BitVec 32
  | otNull => otNull.rawType ||| numeric ||| canBeFalse
  | otInteger => otInteger.rawType ||| numeric ||| canBeFalse
  | otFloat => otFloat.rawType ||| numeric ||| canBeFalse
  | otBool => otBool.rawType ||| numeric ||| canBeFalse
  | otString => otString.rawType ||| refCounted
  | otTable => otTable.rawType ||| refCounted ||| delegable
  | otArray => otArray.rawType ||| refCounted
  | otUserData => otUserData.rawType ||| refCounted ||| delegable
  | otClosure => otClosure.rawType ||| refCounted
  | otNativeClosure => otNativeClosure.rawType ||| refCounted
  | otGenerator => otGenerator.rawType ||| refCounted
  | otUserPointer => otUserPointer.rawType
  | otThread => otThread.rawType ||| refCounted
  | otFuncProto => otFuncProto.rawType ||| refCounted
  | otClass => otClass.rawType ||| refCounted
  | otInstance => otInstance.rawType ||| refCounted ||| delegable
  | otWeakRef => otWeakRef.rawType ||| refCounted
  | otOuter => otOuter.rawType ||| refCounted

theorem code_injective : Function.Injective code := by
  intro a b
  cases a <;> cases b <;> decide

/-- `sq_isnumeric`. -/
def isNumeric (t : SQObjectType) : Bool := t.code &&& numeric != 0

/-- `ISREFCOUNTED`. -/
def isRefCounted (t : SQObjectType) : Bool := t.code &&& refCounted != 0

theorem isRefCounted_otNull : otNull.isRefCounted = false := by decide

theorem isNumeric_otNull : otNull.isNumeric = true := by decide

theorem isNumeric_otInteger : otInteger.isNumeric = true := by decide

theorem isNumeric_otBool : otBool.isNumeric = true := by decide

end SQObjectType

/-- `SQObject`: the tag and the raw bits of the union. -/
structure SQObject where
  type : SQObjectType
  unVal : BitVec 64
  deriving DecidableEq, Repr

namespace SQObject
open SQObjectType

def rawval (o : SQObject) : BitVec 64 := o.unVal

/-- `_integer(o)`, whatever the type of `o`. -/
def integer (o : SQObject) : Int := o.unVal.toInt

/-- The four bytes of the union that `fFloat` overlays. -/
def floatBits (o : SQObject) : BitVec 32 := o.unVal.setWidth 32

/-- `_float(o)`, whatever the type of `o`. -/
def float (o : SQObject) : Binary32.Value := Binary32.decode o.floatBits

def tofloat (o : SQObject) : Binary32.Value :=
  if o.type = otInteger then Binary32.ofInt o.integer else o.float

/-! The constructors of `SQObjectPtr` for the values a script writes directly. -/

def ofNull : SQObject := ⟨otNull, 0⟩
def ofBool (b : Bool) : SQObject := ⟨otBool, if b then 1 else 0⟩
def ofInteger (n : BitVec 64) : SQObject := ⟨otInteger, n⟩
/-- `SQ_OBJECT_RAWINIT` clears the union before the four bytes are stored. -/
def ofFloat (f : BitVec 32) : SQObject := ⟨otFloat, f.setWidth 64⟩
def ofString (p : BitVec 64) : SQObject := ⟨otString, p⟩

end SQObject

/-- Null, bool and integer: what `SQOBJECT_NUMERIC` marks besides floats. Only
the payloads that the constructors of `SQObjectPtr` make are expressible. -/
inductive Scalar where
  | null
  | bool (b : Bool)
  | integer (n : BitVec 64)
  deriving DecidableEq, Repr

def Scalar.toObject : Scalar → SQObject
  | .null => .ofNull
  | .bool b => .ofBool b
  | .integer n => .ofInteger n

/-- The strings alive in a shared state, by address. The string table keeps one
string for each content. -/
structure StringHeap where
  val : BitVec 64 → Option (List UInt8)
  interned : ∀ {p q : BitVec 64} {s : List UInt8}, val p = some s → val q = some s → p = q

/-- A heap without strings. -/
def StringHeap.empty : StringHeap := ⟨fun _ => none, nofun⟩

/-- `_stringval`, up to but not including the terminator that the string table appends. -/
def StringHeap.stringval (h : StringHeap) (o : SQObject) : List UInt8 := (h.val o.unVal).getD []

/-- A live string of a heap, with its address and content. -/
structure LiveString (h : StringHeap) where
  ptr : BitVec 64
  content : List UInt8
  live : h.val ptr = some content

theorem LiveString.ptr_eq_iff {h : StringHeap} (s t : LiveString h) :
    s.ptr = t.ptr ↔ s.content = t.content := by
  constructor
  · intro he
    have hs := s.live
    rw [he, t.live] at hs
    exact (Option.some.inj hs).symm
  · intro he
    exact h.interned s.live (he ▸ t.live)

end Sqnim.Object
