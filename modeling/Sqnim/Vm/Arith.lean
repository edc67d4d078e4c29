import Sqnim.Vm.Frame
import Sqnim.Compiler.State

/-!
# Arithmetic on registers

`_ARITH_`, `_ARITH_NOZERO`, `ARITH_OP` and what is built from them. An activation of `Execute`
runs on the machine and its local `traps`. It stops where it jumps to `exception_trap`, and where
C++ gives an operation no meaning. Sums and products of integers wrap, as on the targets of the
build; a division or remainder that C++ leaves undefined is not given a value.
-/
namespace Sqnim.Vm

open Sqnim.Lib Sqnim.Object Sqnim.Compiler
open SQObjectType
open Prog (raise gets update report)

/-- Functions that return a bool to report failure. -/
inductive Operation where
  | stringCat | arithMetaMethod | arithOp | bwOp | negOp | cmpOp | plocalInc | derefInc
  | get | set | newSlot | newSlotA | deleteSlot | clone | typeOf | closureOp | classOp | call
  | startCall | callNative | createClassInstance | callMetaMethod | foreachOp | yield | resume
  deriving DecidableEq, Repr

structure Report where
  operation : Operation
  succeeded : Bool
  deriving DecidableEq, Repr

instance : Judged Report := ⟨fun _ => true⟩

inductive Fault where
  /-- `goto exception_trap` -/
  | trap
  /-- undefined behaviour, or an assertion that does not hold -/
  | undefined
  deriving DecidableEq, Repr

structure Activation (ρ : Type) where
  machine : Machine ρ
  traps : Int

abbrev Exec (ρ α : Type) := Prog (Activation ρ) Report Fault Empty α

/-- The arithmetic unit and the functions that arithmetic falls back on. -/
structure ArithEnv (ρ : Type) extends Platform ρ where
  floatOfInteger : BitVec 64 → BitVec 32
  floatOp : Char → BitVec 32 → BitVec 32 → BitVec 32
  fmod : BitVec 32 → BitVec 32 → BitVec 32
  typeName : SQObject → String
  stringCat : SQObject → SQObject → Call ρ SQObject
  /-- `GetMetaMethod` on a delegable operand with a delegate, followed by `CallMetaMethod`; nothing
  where there is no metamethod. -/
  arithMetaMethod : Int → SQObject → SQObject → Machine ρ → Option (Option SQObject × Machine ρ)
  deriving Inhabited

variable {ρ α : Type}

def stk (a : Int) : Exec ρ SQObject := gets fun s => s.machine.stk a

def modify (f : Machine ρ → Machine ρ) : Exec ρ Unit :=
  update fun s => { s with machine := f s.machine }

def setStk (a : Int) (v : SQObject) : Exec ρ Unit := modify (·.setStk a v)

def raiseError (P : Platform ρ) (text : String) : Exec ρ Unit := modify (·.raiseError P text)

def returned (op : Operation) (r : Option α) : Exec ρ (Option α) := do
  report ⟨op, r.isSome⟩ rfl
  pure r

def invoke (op : Operation) (f : Call ρ α) : Exec ρ (Option α) := do
  let (r, m) ← gets fun s => f s.machine
  modify fun _ => m
  returned op r

/-- `SQ_THROW`. -/
def throwTrap : Exec ρ α := raise .trap

/-- `_GUARD`. -/
def guard : Option α → Exec ρ α
  | some a => pure a
  | none => throwTrap

/-- `Raise_Error` and `SQ_THROW`. -/
def raiseAndThrow (P : Platform ρ) (text : String) : Exec ρ α := do
  raiseError P text
  throwTrap

/-! ## Integers -/

/-- `INT_MIN`, a 32-bit constant. -/
def intMin32 : BitVec 64 := BitVec.ofInt 64 (-2147483648)

def intMin64 : BitVec 64 := BitVec.intMin 64

/-- Operands for which C++ does not define `/` and `%`. -/
def undefinedDivision (a b : BitVec 64) : Bool := b == 0 || (a == intMin64 && b == -1)

/-- `a / b` as C++ evaluates it. -/
def divide (a b : BitVec 64) : Exec ρ (BitVec 64) :=
  if undefinedDivision a b then raise .undefined else pure (a.sdiv b)

/-- `a % b` as C++ evaluates it. -/
def remainder (a b : BitVec 64) : Exec ρ (BitVec 64) :=
  if undefinedDivision a b then raise .undefined else pure (a.srem b)

/-- What `switch(tmask)` distinguishes. -/
inductive ArithMask where
  | integers | floats | other
  deriving DecidableEq, Repr

def tmask (o1 o2 : SQObject) : ArithMask :=
  let mask := o1.type.code ||| o2.type.code
  if mask = otInteger.code then .integers
  else if mask = otFloat.code ||| otInteger.code ∨ mask = otFloat.code then .floats
  else .other

section
variable (env : ArithEnv ρ)

def floatBits (o : SQObject) : BitVec 32 :=
  if o.type = otInteger then env.floatOfInteger o.unVal else o.floatBits

def arithIntegers (op : Int) (i1 i2 : BitVec 64) : Exec ρ (Option (BitVec 64)) :=
  if op = '+'.toNat then pure (some (i1 + i2))
  else if op = '-'.toNat then pure (some (i1 - i2))
  else if op = '/'.toNat then
    if i2 = 0 then do
      raiseError env.toPlatform "division by zero"
      pure none
    else if i2 = -1 ∧ i1 = intMin32 then do
      raiseError env.toPlatform "integer overflow"
      pure none
    else some <$> divide i1 i2
  else if op = '*'.toNat then pure (some (i1 * i2))
  else if op = '%'.toNat then
    if i2 = 0 then do
      raiseError env.toPlatform "modulo by zero"
      pure none
    else if i2 = -1 ∧ i1 = intMin32 then pure (some 0)
    else some <$> remainder i1 i2
  else pure (some 0xDEADBEEF)

def arithFloats (op : Int) (f1 f2 : BitVec 32) : BitVec 32 :=
  if op = '+'.toNat then env.floatOp '+' f1 f2
  else if op = '-'.toNat then env.floatOp '-' f1 f2
  else if op = '/'.toNat then env.floatOp '/' f1 f2
  else if op = '*'.toNat then env.floatOp '*' f1 f2
  else if op = '%'.toNat then env.fmod f1 f2
  else env.floatOfInteger 0x0f

def arithMetaMethod (op : Int) (o1 o2 : SQObject) : Call ρ SQObject := fun m =>
  match env.arithMetaMethod op o1 o2 m with
  | some r => r
  | none => (none, m.raiseError env.toPlatform
      s!"arith op {Char.ofNat op.toNat} on between '{env.typeName o1}' and '{env.typeName o2}'")

def arithOther (op : Int) (o1 o2 : SQObject) : Exec ρ (Option SQObject) :=
  if op = '+'.toNat ∧ (o1.type.code ||| o2.type.code) &&& otString.rawType ≠ 0 then
    invoke .stringCat (env.stringCat o1 o2)
  else invoke .arithMetaMethod (arithMetaMethod env op o1 o2)

/-- The value `ARITH_OP` stores in `trg`, if it returns true. -/
def arithResult (op : Int) (o1 o2 : SQObject) : Exec ρ (Option SQObject) :=
  match tmask o1 o2 with
  | .integers => do
    let res ← arithIntegers env op o1.unVal o2.unVal
    pure (res.map SQObject.ofInteger)
  | .floats => pure (some (.ofFloat (arithFloats env op (floatBits env o1) (floatBits env o2))))
  | .other => arithOther env op o1 o2

def arithOp (op : Int) (o1 o2 : SQObject) : Exec ρ (Option SQObject) := do
  let res ← arithResult env op o1 o2
  returned .arithOp res

/-- `_GUARD(ARITH_OP(op, trg, o1, o2))`. -/
def guardedArith (op : Int) (o1 o2 : SQObject) : Exec ρ SQObject := do
  let res ← arithOp env op o1 o2
  guard res

/-- `_ARITH_`, for the operator with integer function `ints`. -/
def arithMacro (op : Char) (ints : BitVec 64 → BitVec 64 → BitVec 64) (o1 o2 : SQObject) :
    Exec ρ SQObject :=
  match tmask o1 o2 with
  | .integers => pure (.ofInteger (ints o1.unVal o2.unVal))
  | .floats => pure (.ofFloat (env.floatOp op (floatBits env o1) (floatBits env o2)))
  | .other => guardedArith env op.toNat o1 o2

/-- `_ARITH_NOZERO` with `/`. -/
def arithNoZero (err : String) (o1 o2 : SQObject) : Exec ρ SQObject :=
  match tmask o1 o2 with
  | .integers =>
    if o2.unVal = 0 then raiseAndThrow env.toPlatform err
    else SQObject.ofInteger <$> divide o1.unVal o2.unVal
  | .floats => pure (.ofFloat (env.floatOp '/' (floatBits env o1) (floatBits env o2)))
  | .other => guardedArith env '/'.toNat o1 o2

end
end Sqnim.Vm
