import Sqnim.Object.Value

/-!
# The Nim copy of the tag encoding

`sqnim.nim` redeclares `SQObject` as `HSQOBJECT` and repeats the `OT_` constants
by hand. Both sides address the same sixteen bytes: the tag at offset 0 and the
union at offset 8.
-/
namespace Sqnim.Host.NimObject

open Sqnim.Object
open SQObjectType

/-- The bytes of an `SQObject`, least significant first. The padding is arbitrary. -/
def image (o : SQObject) (padding : BitVec 32) : BitVec 128 := o.unVal ++ (padding ++ o.type.code)

/-- `HSQOBJECT` as Nim declares it. -/
structure HSQOBJECT where
  objType : BitVec 32
  value : BitVec 64
  deriving DecidableEq, Repr

def HSQOBJECT.ofImage (bytes : BitVec 128) : HSQOBJECT :=
  ⟨bytes.extractLsb' 0 32, bytes.extractLsb' 64 64⟩

namespace HSQOBJECT

/-! The fields of the Nim union `SQObjectValue`. Every pointer field overlays all eight bytes. -/

def nInteger (h : HSQOBJECT) : Int := h.value.toInt

def fFloat (h : HSQOBJECT) : BitVec 32 := h.value.extractLsb' 0 32

def pointer (h : HSQOBJECT) : BitVec 64 := h.value

end HSQOBJECT

/-- `sq_getstackobj` assigns the whole structure. -/
def sqGetstackobj (o : SQObject) (padding : BitVec 32) : HSQOBJECT := .ofImage (image o padding)

@[simp] theorem objType_getstackobj (o : SQObject) (padding : BitVec 32) :
    (sqGetstackobj o padding).objType = o.type.code := by
  change (o.unVal ++ (padding ++ o.type.code)).extractLsb' 0 32 = o.type.code
  rw [BitVec.extractLsb'_append_eq_of_add_le (by decide),
    BitVec.extractLsb'_append_eq_of_add_le (by decide), BitVec.extractLsb'_eq_self]

@[simp] theorem value_getstackobj (o : SQObject) (padding : BitVec 32) :
    (sqGetstackobj o padding).value = o.unVal := BitVec.extractLsb'_append_eq_left

/-- The `OT_` constants of `sqnim.nim`: `OT_BOOL` lacks the numeric bit. -/
def ot : SQObjectType → BitVec 32
  | otNull => otNull.rawType ||| numeric ||| canBeFalse
  | otInteger => otInteger.rawType ||| numeric ||| canBeFalse
  | otFloat => otFloat.rawType ||| numeric ||| canBeFalse
  | otBool => otBool.rawType ||| canBeFalse
  | otString => otString.rawType ||| refCounted
  | otTable => otTable.rawType ||| refCounted ||| delegable
  | otArray => otArray.rawType ||| refCounted
  | otUserData => otUserData.rawType ||| refCounted ||| delegable
  | otClosure => otClosure.rawType ||| refCounted
  | otNativeClosure => otNativeClosure.rawType ||| refCounted
  | otGenerator => otGenerator.rawType ||| refCounted
  | otUserPointer => otUserPointer.rawType
  | otThread => otThread.rawType ||| refCounted
  | otFuncProto => otFuncProto.rawType ||| refCounted
  | otClass => otClass.rawType ||| refCounted
  | otInstance => otInstance.rawType ||| refCounted ||| delegable
  | otWeakRef => otWeakRef.rawType ||| refCounted
  | otOuter => otOuter.rawType ||| refCounted

/-- The common body of the Nim predicates. -/
def hasType (t : SQObjectType) (o : HSQOBJECT) : Bool := o.objType == ot t

def sqIsnumeric (o : HSQOBJECT) : Bool := o.objType &&& numeric == numeric
def sqIstable : HSQOBJECT → Bool := hasType otTable
def sqIsarray : HSQOBJECT → Bool := hasType otArray
def sqIsfunction : HSQOBJECT → Bool := hasType otFuncProto
def sqIsclosure : HSQOBJECT → Bool := hasType otClosure
def sqIsgenerator : HSQOBJECT → Bool := hasType otGenerator
def sqIsnativeclosure : HSQOBJECT → Bool := hasType otNativeClosure
def sqIsstring : HSQOBJECT → Bool := hasType otString
def sqIsinteger : HSQOBJECT → Bool := hasType otInteger
def sqIsfloat : HSQOBJECT → Bool := hasType otFloat
def sqIsuserpointer : HSQOBJECT → Bool := hasType otUserPointer
def sqIsuserdata : HSQOBJECT → Bool := hasType otUserData
def sqIsthread : HSQOBJECT → Bool := hasType otThread
def sqIsnull : HSQOBJECT → Bool := hasType otNull
def sqIsclass : HSQOBJECT → Bool := hasType otClass
def sqIsinstance : HSQOBJECT → Bool := hasType otInstance
def sqIsbool : HSQOBJECT → Bool := hasType otBool
def sqIsweakref : HSQOBJECT → Bool := hasType otWeakRef

/-- The predicates that test for one type. Both languages have one for each. -/
inductive Predicate where
  | isNull | isInteger | isFloat | isBool | isString | isTable | isArray | isUserData | isClosure
  | isNativeClosure | isGenerator | isUserPointer | isThread | isFunction | isClass | isInstance
  | isWeakRef
  deriving DecidableEq, Repr

namespace Predicate

def nim : Predicate → HSQOBJECT → Bool
  | isNull => sqIsnull
  | isInteger => sqIsinteger
  | isFloat => sqIsfloat
  | isBool => sqIsbool
  | isString => sqIsstring
  | isTable => sqIstable
  | isArray => sqIsarray
  | isUserData => sqIsuserdata
  | isClosure => sqIsclosure
  | isNativeClosure => sqIsnativeclosure
  | isGenerator => sqIsgenerator
  | isUserPointer => sqIsuserpointer
  | isThread => sqIsthread
  | isFunction => sqIsfunction
  | isClass => sqIsclass
  | isInstance => sqIsinstance
  | isWeakRef => sqIsweakref

/-- The type that the macro of `squirrel.h` compares with. -/
def type : Predicate → SQObjectType
  | isNull => otNull
  | isInteger => otInteger
  | isFloat => otFloat
  | isBool => otBool
  | isString => otString
  | isTable => otTable
  | isArray => otArray
  | isUserData => otUserData
  | isClosure => otClosure
  | isNativeClosure => otNativeClosure
  | isGenerator => otGenerator
  | isUserPointer => otUserPointer
  | isThread => otThread
  | isFunction => otFuncProto
  | isClass => otClass
  | isInstance => otInstance
  | isWeakRef => otWeakRef

def macroC (p : Predicate) (o : SQObject) : Bool := o.type.code == p.type.code

theorem nim_eq_hasType (p : Predicate) : p.nim = hasType p.type := by cases p <;> rfl

theorem type_injective : Function.Injective type := by
  intro p q
  cases p <;> cases q <;> decide

theorem exists_type {t : SQObjectType} (h : t ≠ otOuter) : ∃ p : Predicate, p.type = t := by
  cases t with
  | otNull => exact ⟨isNull, rfl⟩
  | otInteger => exact ⟨isInteger, rfl⟩
  | otFloat => exact ⟨isFloat, rfl⟩
  | otBool => exact ⟨isBool, rfl⟩
  | otString => exact ⟨isString, rfl⟩
  | otTable => exact ⟨isTable, rfl⟩
  | otArray => exact ⟨isArray, rfl⟩
  | otUserData => exact ⟨isUserData, rfl⟩
  | otClosure => exact ⟨isClosure, rfl⟩
  | otNativeClosure => exact ⟨isNativeClosure, rfl⟩
  | otGenerator => exact ⟨isGenerator, rfl⟩
  | otUserPointer => exact ⟨isUserPointer, rfl⟩
  | otThread => exact ⟨isThread, rfl⟩
  | otFuncProto => exact ⟨isFunction, rfl⟩
  | otClass => exact ⟨isClass, rfl⟩
  | otInstance => exact ⟨isInstance, rfl⟩
  | otWeakRef => exact ⟨isWeakRef, rfl⟩
  | otOuter => exact absurd rfl h

end Predicate

/-- A Nim constant meets the tag of its own type, bool excepted, and of no other. -/
theorem ot_eq_code_iff (s t : SQObjectType) : ot s = t.code ↔ s = t ∧ t ≠ otBool := by
  revert s t
  have h : ∀ s ∈ all, ∀ t ∈ all, (ot s = t.code ↔ s = t ∧ t ≠ otBool) := by decide
  exact fun s t => h s (mem_all s) t (mem_all t)

theorem nim_getstackobj (p : Predicate) (o : SQObject) (padding : BitVec 32) :
    p.nim (sqGetstackobj o padding) = true ↔ p.type = o.type ∧ o.type ≠ otBool := by
  rw [p.nim_eq_hasType, hasType, objType_getstackobj, beq_iff_eq, eq_comm, ot_eq_code_iff]

theorem macroC_iff (p : Predicate) (o : SQObject) : p.macroC o = true ↔ p.type = o.type := by
  rw [Predicate.macroC, beq_iff_eq, code_injective.eq_iff, eq_comm]

theorem isnumeric_getstackobj (o : SQObject) (padding : BitVec 32) :
    sqIsnumeric (sqGetstackobj o padding) = o.type.isNumeric := by
  rw [sqIsnumeric, objType_getstackobj, isNumeric]
  cases o.type <;> decide

section Values

variable {heap : StringHeap}

/-- What a Nim host can push. An `SQBool` is any 32-bit word, a `cstring` may be nil, and the bytes
of any other are in the heap once `SQString::Create` has returned. -/
inductive HostValue (heap : StringHeap) where
  | integer (n : BitVec 64)
  | float (f : BitVec 32)
  | bool (b : BitVec 32)
  | string (s : Option (LiveString heap))

/-- `sq_pushinteger`, `sq_pushfloat`, `sq_pushbool` and `sq_pushstring`. -/
def push : HostValue heap → SQObject
  | .integer n => .ofInteger n
  | .float f => .ofFloat f
  | .bool b => .ofBool (b != 0)
  | .string none => .ofNull
  | .string (some s) => .ofString s.ptr

/-- Where a host's object comes from: a script's result, or a value of its own. -/
inductive Source (heap : StringHeap) where
  | returned (o : SQObject)
  | pushed (v : HostValue heap)

def Source.object : Source heap → SQObject
  | .returned o => o
  | .pushed v => push v

/-- The matching field holds the value: by its type for a result, and the value itself for what
was pushed. -/
def PayloadRead : Source heap → HSQOBJECT → Prop
  | .returned o, h =>
      match o.type with
      | otNull => True
      | otInteger | otBool => h.nInteger = o.integer
      | otFloat => h.fFloat = o.floatBits
      | _ => h.pointer = o.unVal
  | .pushed (.integer n), h => h.nInteger = n.toInt
  | .pushed (.float f), h => h.fFloat = f
  | .pushed (.bool b), h => h.nInteger = if b = 0 then 0 else 1
  | .pushed (.string none), _ => True
  | .pushed (.string (some s)), h => heap.val h.pointer = some s.content

/-- Nim and the C macros give an object the same type and the same payload. -/
structure Agrees (source : Source heap) (h : HSQOBJECT) : Prop where
  unique : ∃! p : Predicate, p.nim h = true
  macroC : ∀ p : Predicate, p.nim h = true → p.macroC source.object = true
  numeric : sqIsnumeric h = source.object.type.isNumeric
  payload : PayloadRead source h

theorem fFloat_getstackobj (o : SQObject) (padding : BitVec 32) :
    (sqGetstackobj o padding).fFloat = o.floatBits := by
  rw [HSQOBJECT.fFloat, value_getstackobj]
  exact (BitVec.setWidth_eq_extractLsb' (by decide)).symm

/-- The payload crosses the boundary whatever the tag. -/
theorem payload_getstackobj (source : Source heap) (padding : BitVec 32) :
    PayloadRead source (sqGetstackobj source.object padding) := by
  have hv := value_getstackobj source.object padding
  have hn : (sqGetstackobj source.object padding).nInteger = source.object.integer :=
    congrArg BitVec.toInt hv
  rcases source with o | ⟨n⟩ | ⟨f⟩ | ⟨b⟩ | ⟨_ | s⟩
  · have hf := fFloat_getstackobj o padding
    simp only [Source.object] at hv hn
    simp only [PayloadRead, Source.object, HSQOBJECT.pointer, hn, hf, hv]
    cases o.type <;> trivial
  · exact hn
  · refine (fFloat_getstackobj _ padding).trans ?_
    exact BitVec.setWidth_setWidth_of_le f (by decide)
  · refine hn.trans ?_
    by_cases hb : b = 0
    · rw [hb]
      rfl
    · have hne : (b != 0) = true := bne_iff_ne.mpr hb
      rw [if_neg hb, Source.object, push, hne]
      rfl
  · trivial
  · change heap.val (sqGetstackobj _ padding).value = some s.content
    rw [hv]
    exact s.live

/-- Nim and the VM agree on an object exactly when it is neither a bool nor an `SQOuter`, which
the VM keeps to itself. -/
theorem agrees_iff (source : Source heap) (padding : BitVec 32) :
    Agrees source (sqGetstackobj source.object padding) ↔
      source.object.type ≠ otBool ∧ source.object.type ≠ otOuter := by
  constructor
  · intro h
    obtain ⟨p, hp, -⟩ := h.unique
    obtain ⟨htype, hbool⟩ := (nim_getstackobj p _ padding).mp hp
    refine ⟨hbool, ?_⟩
    rw [← htype]
    cases p <;> nofun
  · rintro ⟨hbool, houter⟩
    refine ⟨?_, ?_, isnumeric_getstackobj _ _, payload_getstackobj source padding⟩
    · obtain ⟨p, hp⟩ := Predicate.exists_type houter
      refine ⟨p, (nim_getstackobj p _ padding).mpr ⟨hp, hbool⟩, ?_⟩
      intro q hq
      apply Predicate.type_injective
      rw [((nim_getstackobj q _ padding).mp hq).1, hp]
    · intro p hp
      exact (macroC_iff p _).mpr ((nim_getstackobj p _ padding).mp hp).1

/-- No Nim predicate holds of a bool that a script returns. -/
theorem not_agrees : ¬ ∀ (heap : StringHeap) (source : Source heap) (padding : BitVec 32),
    Agrees source (sqGetstackobj source.object padding) := by
  intro h
  have hu := (h .empty (.returned (.ofBool true)) 0).unique
  obtain ⟨p, hp, -⟩ := hu
  exact absurd rfl ((nim_getstackobj p _ 0).mp hp).2

end Values

end Sqnim.Host.NimObject
