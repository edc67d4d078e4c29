import Sqnim.Lib.Prog
import Sqnim.Object.Value

/-!
# The state of a thread

The fields of `SQVM` and of the heap objects that calls, generators and captured variables move
between. A stack lives in a buffer that `sqvector` reallocates, so a slot address is a buffer and
an index. The call stack and the vectors used as stacks are lists with their top first. `ci` points
to the head of the call stack, whose own buffer `callsAddr` moves when it grows.
-/
namespace Sqnim.Vm

open Sqnim.Object

/-- The address of a heap object, as `_unVal` holds it. -/
abbrev Addr := BitVec 64

instance : Inhabited SQObject := ⟨.ofNull⟩

def maxNativeCalls : Int := 100
def minStackOverhead : Int := 15
def dontFallBack : Int := 666

structure SQExceptionTrap where
  stackbase : Int
  stacksize : Int
  ip : Int
  extarget : Int
  deriving DecidableEq, Repr, Inhabited

/-- `SQVM::CallInfo`. `_ip` is an index into the instructions of the function of `_closure`, and
`_literals` are the literals of that function. -/
structure CallInfo where
  ip : Int
  closure : SQObject
  generator : Option Addr
  etraps : Int
  prevstkbase : Int
  prevtop : Int
  target : Int
  ncalls : Int
  root : Bool
  deriving DecidableEq, Repr, Inhabited

/-- The address of a slot of some stack. -/
structure SlotAddr where
  buffer : Nat
  idx : Int
  deriving DecidableEq, Repr, Inhabited

/-- `_valptr` points into a stack or to `_value`. -/
inductive ValPtr where
  | slot (p : SlotAddr)
  | own
  deriving DecidableEq, Repr, Inhabited

structure SQOuter where
  valptr : ValPtr
  idx : Int
  value : SQObject
  deriving DecidableEq, Repr, Inhabited

inductive SQGeneratorState where
  | eRunning | eSuspended | eDead
  deriving DecidableEq, Repr, Inhabited

structure SQGenerator where
  closure : SQObject
  stack : List SQObject
  ci : CallInfo
  etraps : List SQExceptionTrap
  state : SQGeneratorState
  deriving DecidableEq, Repr, Inhabited

/-- `_stack`: the buffer that holds the slots, its length and its capacity. -/
structure SQObjectPtrVec where
  vals : Nat
  size : Int
  allocated : Int
  deriving DecidableEq, Repr, Inhabited

structure SQVM where
  stack : SQObjectPtrVec
  top : Int
  stackbase : Int
  openouters : List Addr
  roottable : SQObject
  lasterror : SQObject
  debughook : Bool
  tempReg : SQObject
  callsstack : List CallInfo
  callsAddr : Nat
  alloccallsstacksize : Nat
  etraps : List SQExceptionTrap
  nnativecalls : Int
  nmetamethodscall : Int
  suspended : Bool
  suspendedRoot : Bool
  suspendedTarget : Int
  suspendedTraps : Int
  deriving DecidableEq, Repr, Inhabited

/-- The memory that all threads share: stack buffers, and the objects by address. `rest` is every
other object. -/
structure Heap (ρ : Type) where
  cells : Nat → Int → SQObject
  outers : Addr → SQOuter
  generators : Addr → SQGenerator
  weakrefs : Addr → SQObject
  rest : ρ
  deriving Inhabited

structure Machine (ρ : Type) where
  vm : SQVM
  heap : Heap ρ
  deriving Inhabited

namespace Machine

variable {ρ : Type} (m : Machine ρ)

/-- `_stack._vals[i]`. -/
def slot (i : Int) : SQObject := m.heap.cells m.vm.stack.vals i

def setSlot (i : Int) (v : SQObject) : Machine ρ :=
  { m with heap := { m.heap with
      cells := Function.update m.heap.cells m.vm.stack.vals
        (Function.update (m.heap.cells m.vm.stack.vals) i v) } }

/-- `STK(a)`, and `TARGET` where `a` is `arg0`. -/
def stk (a : Int) : SQObject := m.slot (m.vm.stackbase + a)

def setStk (a : Int) (v : SQObject) : Machine ρ := m.setSlot (m.vm.stackbase + a) v

def ci : Option CallInfo := m.vm.callsstack.head?

/-- The pointer `ci`: a buffer and the number of frames up to it, or nothing for `NULL`. -/
def ciAddr : Option (Nat × Nat) :=
  if m.vm.callsstack = [] then none else some (m.vm.callsAddr, m.vm.callsstack.length)

def updateCi (f : CallInfo → CallInfo) : Machine ρ :=
  { m with vm := { m.vm with callsstack := match m.vm.callsstack with
      | [] => []
      | c :: cs => f c :: cs } }

def push (v : SQObject) : Machine ρ :=
  let m' := m.setSlot m.vm.top v
  { m' with vm := { m'.vm with top := m'.vm.top + 1 } }

def pop : Machine ρ :=
  let m' := { m with vm := { m.vm with top := m.vm.top - 1 } }
  m'.setSlot m'.vm.top .ofNull

def popN : Nat → Machine ρ → Machine ρ
  | 0, m => m
  | n + 1, m => popN n m.pop

variable {m}

@[simp] theorem setSlot_vm (i : Int) (v : SQObject) : (m.setSlot i v).vm = m.vm := rfl

@[simp] theorem setStk_vm (a : Int) (v : SQObject) : (m.setStk a v).vm = m.vm := rfl

@[simp] theorem updateCi_heap (f : CallInfo → CallInfo) : (m.updateCi f).heap = m.heap := rfl

theorem slot_setSlot (i j : Int) (v : SQObject) :
    (m.setSlot i v).slot j = if j = i then v else m.slot j := by
  simp [slot, setSlot, Function.update_apply]

@[simp] theorem stk_setStk_same (a : Int) (v : SQObject) : (m.setStk a v).stk a = v := by
  simp [stk, setStk, slot_setSlot]

theorem stk_setStk (a b : Int) (v : SQObject) :
    (m.setStk a v).stk b = if b = a then v else m.stk b := by
  simp [stk, setStk, slot_setSlot]

end Machine
end Sqnim.Vm
