import Sqnim.Vm.Compare

/-!
# The parameter check of CallNative

`CompileTypemask` makes a mask for each parameter, and `CallNative` looks at the number of arguments
and then at their types. The arguments include `this`.
-/
namespace Sqnim.Vm

open Sqnim.Object
open Compare (ascii typeName)
open SQObjectType

/-- The `_RT_` bits a character of a typemask adds. -/
def typemaskBits : Char → Option (BitVec 32)
  | 'o' => some otNull.rawType
  | 'i' => some otInteger.rawType
  | 'f' => some otFloat.rawType
  | 'n' => some (otFloat.rawType ||| otInteger.rawType)
  | 's' => some otString.rawType
  | 't' => some otTable.rawType
  | 'a' => some otArray.rawType
  | 'u' => some otUserData.rawType
  | 'c' => some (otClosure.rawType ||| otNativeClosure.rawType)
  | 'b' => some otBool.rawType
  | 'g' => some otGenerator.rawType
  | 'p' => some otUserPointer.rawType
  | 'v' => some otThread.rawType
  | 'x' => some otInstance.rawType
  | 'y' => some otClass.rawType
  | 'r' => some otWeakRef.rawType
  | _ => none

/-- `CompileTypemask`. A mask of -1 lets any type pass. -/
def compileTypemask : List Char → BitVec 32 → Option (List (BitVec 32))
  | [], _ => some []
  | '.' :: cs, _ => (compileTypemask cs 0).map (-1 :: ·)
  | ' ' :: cs, mask => compileTypemask cs mask
  | c :: cs, mask =>
    (typemaskBits c).bind fun bits =>
      match cs with
      | ['|'] => none
      | '|' :: cs => compileTypemask cs (mask ||| bits)
      | cs => (compileTypemask cs 0).map ((mask ||| bits) :: ·)

structure SQRegFunction where
  name : String
  nparamscheck : Int
  typemask : Option String
  deriving DecidableEq, Repr

/-- `_typecheck` of the native closure that `CreateDefaultDelegate` makes. -/
def SQRegFunction.typecheck (f : SQRegFunction) : Option (List (BitVec 32)) :=
  match f.typemask with
  | none => some []
  | some mask => compileTypemask mask.toList 0

inductive ParamError where
  | wrongNumber
  | paramType (nparam : Nat) (typemask : BitVec 32) (type : SQObjectType)
  deriving DecidableEq, Repr

/-- The names `Raise_ParamTypeError` lists: the types of the low sixteen bits, by bit. -/
def expectedTypes (typemask : BitVec 32) : List String :=
  (all.take 16).filterMap fun t =>
    if typemask &&& t.rawType != 0 then some (typeName t) else none

/-- The text recorded. `Raise_Error` prints into a buffer of the length of the format and 100
more. -/
def ParamError.message : ParamError → List UInt8
  | .wrongNumber => ascii "wrong number of parameters"
  | .paramType nparam typemask type =>
    let format := "parameter %d has an invalid type '%s' ; expected: '%s'"
    (ascii ("parameter " ++ toString nparam ++ " has an invalid type '" ++ typeName type ++
      "' ; expected: '" ++ String.intercalate "|" (expectedTypes typemask) ++ "'")).take
        (format.length + 99)

def countPasses (nparamscheck : Int) (nargs : Nat) : Bool :=
  nparamscheck == 0 || (nparamscheck > 0 && nparamscheck == nargs) ||
    (nparamscheck < 0 && -nparamscheck ≤ nargs)

def typePasses (mask : BitVec 32) (t : SQObjectType) : Bool :=
  mask == -1 || t.code &&& mask != 0

def checkTypes : Nat → List (BitVec 32) → List SQObject → Except ParamError Unit
  | i, mask :: masks, o :: os =>
    if typePasses mask o.type then checkTypes (i + 1) masks os else .error (.paramType i mask o.type)
  | _, _, _ => .ok ()

def checkParams (nparamscheck : Int) (typecheck : List (BitVec 32)) (args : List SQObject) :
    Except ParamError Unit :=
  if countPasses nparamscheck args.length then checkTypes 0 typecheck args
  else .error .wrongNumber

/-- The call of a default delegate's function; `none` where the typemask does not compile. -/
def SQRegFunction.check (f : SQRegFunction) (args : List SQObject) :
    Option (Except ParamError Unit) :=
  f.typecheck.map fun typecheck => checkParams f.nparamscheck typecheck args

end Sqnim.Vm
