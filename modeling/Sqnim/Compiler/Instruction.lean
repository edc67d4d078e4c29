import Mathlib

/-!
# SQInstruction

The instructions of `sqopcodes.h`. Beside its encoded value every operand keeps what it was
emitted for; the compiler and the virtual machine never look at that.
-/
namespace Sqnim.Compiler

inductive SQOpcode where
  | opLine | opLoad | opLoadint | opLoadfloat | opDload | opTailcall | opCall | opPrepcall
  | opPrepcallk | opGetk | opMove | opNewslot | opDelete | opSet | opGet | opEq | opNe | opAdd
  | opSub | opMul | opDiv | opMod | opBitw | opReturn | opLoadnulls | opLoadroot | opLoadbool
  | opDmove | opJmp | opJcmp | opJz | opSetouter | opGetouter | opNewobj | opAppendarray
  | opComparith | opInc | opIncl | opPinc | opPincl | opCmp | opExists | opInstanceof | opAnd
  | opOr | opNeg | opNot | opBwnot | opClosure | opYield | opResume | opForeach | opPostforeach
  | opClone | opTypeof | opPushtrap | opPoptrap | opThrow | opNewslota | opGetbase | opClose
  deriving DecidableEq, Repr

def bwAnd : Int := 0
def bwOr : Int := 2
def bwXor : Int := 3
def bwShiftl : Int := 4
def bwShiftr : Int := 5
def bwUshiftr : Int := 6

def cmpG : Int := 0
def cmpGe : Int := 2
def cmpL : Int := 3
def cmpLe : Int := 4
def cmp3w : Int := 5

def notTable : Int := 0
def notArray : Int := 1
def notClass : Int := 2

def aatStack : Int := 0
def aatLiteral : Int := 1
def aatInt : Int := 2
def aatFloat : Int := 3
def aatBool : Int := 4

def maxFuncStacksize : Int := 0xFF
def maxLiterals : Int := 0x7FFFFFFF

def newSlotAttributesFlag : Int := 0x01
def newSlotStaticFlag : Int := 0x02

/-- A position on the stack of a function, as the compiler counts them. -/
structure StackPos where
  idx : Nat
  deriving DecidableEq, Repr

/-- What an operand was emitted for: a plain number, a stack position, or the two positions that
`_OP_COMPARITH` packs into one operand. -/
inductive Origin where
  | plain
  | reg (p : StackPos)
  | pair (src val : StackPos)
  deriving DecidableEq, Repr

structure Operand where
  value : Int
  origin : Origin
  deriving DecidableEq, Repr

namespace Operand

def imm (v : Int) : Operand := ⟨v, .plain⟩

def reg (p : StackPos) : Operand := ⟨p.idx, .reg p⟩

/-- `(src<<16)|val`. -/
def pair (src val : StackPos) : Operand := ⟨((src.idx <<< 16 ||| val.idx : Nat) : Int), .pair src val⟩

/-- The sentinel 0xFF. -/
def none : Operand := imm maxFuncStacksize

/-- The conversion to `unsigned char`. -/
def narrow8 (o : Operand) : Operand := { o with value := o.value % 256 }

/-- The conversion to `SQInt32`. -/
def narrow32 (o : Operand) : Operand := { o with value := Int.bmod o.value (2 ^ 32) }

@[simp] theorem narrow8_origin (o : Operand) : o.narrow8.origin = o.origin := rfl

@[simp] theorem narrow32_origin (o : Operand) : o.narrow32.origin = o.origin := rfl

end Operand

structure SQInstruction where
  op : SQOpcode
  arg0 : Operand
  arg1 : Operand
  arg2 : Operand
  arg3 : Operand
  deriving DecidableEq, Repr

namespace SQInstruction

/-- The constructor, whose operands are 0 where none is given. -/
def make (op : SQOpcode) (args : List Operand) : SQInstruction where
  op
  arg0 := (args.getD 0 (.imm 0)).narrow8
  arg1 := (args.getD 1 (.imm 0)).narrow32
  arg2 := (args.getD 2 (.imm 0)).narrow8
  arg3 := (args.getD 3 (.imm 0)).narrow8

end SQInstruction
end Sqnim.Compiler
