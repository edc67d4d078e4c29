import Sqnim.Bytecode.Proto
import Sqnim.Vm.Frame

/-!
# Closures and their streams

A closure is a prototype and the state it captured. `sq_writeclosure` and
`sq_readclosure` of `sqapi.cpp` go through `SQClosure::Save` and
`SQClosure::Load`. `StartCall` places the parameters of a call.
-/
namespace Sqnim.Bytecode

open Sqnim.Lib.Codec
open Sqnim.Object
open Sqnim.Vm

structure SQClosure where
  function : SQFunctionProto
  env : Option Addr
  root : Addr
  base : Option Addr
  outervalues : List.Vector SQObject function.counts.noutervalues
  defaultparams : List.Vector SQObject function.counts.ndefaultparams

namespace SQClosure

/-- `Create`: the vectors are constructed with nulls. -/
def create (func : SQFunctionProto) (root : Addr) : SQClosure where
  function := func
  env := none
  root := root
  base := none
  outervalues := List.Vector.replicate _ .ofNull
  defaultparams := List.Vector.replicate _ .ofNull

def save (c : SQClosure) : Put Fault :=
  puts [writeTag closureStreamHead, writeTag 1, writeTag 8, writeTag 4, c.function.save,
    writeTag closureStreamTail]

/-- `root` is the weak reference to the root table of the thread. -/
def load (memory : BitVec 32) (depth : Nat) (root : Addr) : Get Fault SQClosure := do
  checkTag closureStreamHead
  checkTag 1
  checkTag 8
  checkTag 4
  let func ← Bytecode.load memory depth
  checkTag closureStreamTail
  pure (create func root)

end SQClosure

def bytecodeStreamTag : BitVec 16 := 0xFAFA

def writeClosure (c : SQClosure) : Put Fault :=
  if c.function.counts.noutervalues ≠ 0 then
    .error (.raised "a closure with free variables bound cannot be serialized")
  else puts [putWord bytecodeStreamTag, c.save]

def readClosure (memory : BitVec 32) (depth : Nat) (root : Addr) : Get Fault SQClosure := do
  let tag ← getWord (.raised "io error") 16
  if tag = bytecodeStreamTag then SQClosure.load memory depth root
  else throw (.raised "invalid stream")

section StartCall

variable {ρ : Type} (P : Platform ρ) (createArray : List SQObject → Machine ρ → SQObject × Machine ρ)

/-- `(int)n`, printed. -/
def intText (n : Int) : String := toString (n.bmod (2 ^ 32))

/-- The loop that moves `n` arguments from `pbase` into an array, and the array in their place. -/
def gatherVarargs (pbase nvargs : Int) (m : Machine ρ) : Machine ρ :=
  let values := (List.range nvargs.toNat).map fun n => m.slot (pbase + n)
  let (arr, m') := createArray values (m.nullSlots pbase (pbase + nvargs - 1))
  m'.setSlot pbase arr

/-- The loop that stores default values from slot `first` on. -/
def storeDefaults (first : Int) : List SQObject → Machine ρ → Machine ρ
  | [], m => m
  | v :: vs, m => storeDefaults (first + 1) vs (m.setSlot first v)

/-- A closure with an environment calls with that as `this`. -/
def bindThis (c : SQClosure) (stackbase : Int) (m : Machine ρ) : Machine ρ :=
  match c.env with
  | none => m
  | some w => m.setSlot stackbase (m.heap.weakrefs w)

/-- `StartCall`, up to the frame: the parameters are in their slots, or the count is wrong. -/
def placeParameters (c : SQClosure) (args stackbase : Int) : Call ρ Unit := fun m =>
  let nparameters : Int := c.function.counts.nparameters
  let ndef : Int := c.function.counts.ndefaultparams
  if c.function.members.varparams ≠ 0 then
    if args < nparameters - 1 then
      (none, m.raiseError P ("wrong number of parameters (" ++ intText args ++
        " passed, at least " ++ intText (nparameters - 1) ++ " required)"))
    else
      (some (), bindThis c stackbase
        (gatherVarargs createArray (stackbase + (nparameters - 1)) (args - (nparameters - 1)) m))
  else if nparameters = args then
    (some (), bindThis c stackbase m)
  else if ndef ≠ 0 ∧ args < nparameters ∧ nparameters - args ≤ ndef then
    (some (), bindThis c stackbase (storeDefaults (stackbase + args)
      (c.defaultparams.toList.drop (ndef - (nparameters - args)).toNat) m))
  else
    (none, m.raiseError P ("wrong number of parameters (" ++ intText args ++ " passed, " ++
      intText nparameters ++ " required)"))

end StartCall

end Sqnim.Bytecode
