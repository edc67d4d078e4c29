import Sqnim.BaseLib.Conversion
import Sqnim.Object.Class

/-!
# sq_newslot and sq_rawset

The functions of `sqapi.cpp` that store a value under a key: the key and the value are on top of the
stack, and the object that they go to is at an index.
-/
namespace Sqnim.Api

open Sqnim.Object Sqnim.Table
open SQObjectType
open Vm.Compare (ascii formatted printObjVal typeName)

/-- The part of a thread that the API works on. Slots below `top` are in use, and the current frame
starts at `stackbase`. -/
structure SQVM where
  heap : Heap
  slots : Int → SQObject
  top : Int
  stackbase : Int
  lasterror : List UInt8

/-- What the API uses of the rest of the machine. `callMetaMethod` pushes the objects and calls the
closure with them. -/
structure Env where
  ss : SQSharedState
  print : Vm.Compare.Env
  convert : BaseLib.Conversion.ConvertEnv
  callMetaMethod : SQVM → SQObject → List SQObject → Bool × SQVM

inductive SQRESULT where
  | ok
  | error
  deriving DecidableEq, Repr

def mtNewslot : Nat := 13

namespace SQVM

def raiseError (v : SQVM) (message : List UInt8) : SQVM := { v with lasterror := message }

/-- `Raise_IdxError` -/
def raiseIdxError (env : Env) (v : SQVM) (o : SQObject) : SQVM :=
  v.raiseError (ascii "the index '" ++ formatted (printObjVal env.print o) ++
    ascii "' does not exist")

def gettop (v : SQVM) : Int := v.top - v.stackbase

def getAt (v : SQVM) (n : Int) : SQObject := v.slots n

def getUp (v : SQVM) (n : Int) : SQObject := v.slots (v.top + n)

/-- `stack_get` -/
def stackGet (v : SQVM) (idx : Int) : SQObject :=
  if idx ≥ 0 then v.getAt (idx + v.stackbase - 1) else v.getUp idx

/-- `Pop` empties the slots that it takes from the stack. -/
def pop (v : SQVM) (n : Nat) : SQVM :=
  { v with
    top := v.top - n
    slots := fun i => if v.top - n ≤ i ∧ i < v.top then .ofNull else v.slots i }

def setTable (v : SQVM) (a : Nat) (t : SQTable SQObject SQObject) : SQVM :=
  { v with heap := { v.heap with tables := Function.update v.heap.tables a t } }

def setArray (v : SQVM) (a : Nat) (values : List SQObject) : SQVM :=
  { v with heap := { v.heap with arrays := Function.update v.heap.arrays a values } }

def setInstance (v : SQVM) (a : Nat) (i : SQInstance) : SQVM :=
  { v with heap := { v.heap with instances := Function.update v.heap.instances a i } }

def setClass (v : SQVM) (a : Nat) (c : SQClass) (closures : Nat → SQClosure) : SQVM :=
  { v with heap := { v.heap with classes := Function.update v.heap.classes a c, closures } }

/-- `SQDelegable::GetMetaMethod` -/
def getMetaMethod (env : Env) (v : SQVM) (t : SQTable SQObject SQObject) (mm : Nat) :
    Except Fault (Option SQObject) :=
  match t.delegate with
  | some d => (v.heap.tables d).get (v.heap.env env.ss) (env.ss.metamethods.getD mm .ofNull).key
  | none => .ok none

/-- The metamethod that `NewSlot` calls instead of storing: that of a table without the key. -/
def newSlotMetaMethod (env : Env) (v : SQVM) (t : SQTable SQObject SQObject) (key : SQObject) :
    Except Fault (Option SQObject) :=
  if t.delegate.isSome then do
    match ← t.get (v.heap.env env.ss) key.key with
    | none => v.getMetaMethod env t mtNewslot
    | some _ => return none
  else .ok none

/-- `SQVM::NewSlot` -/
def newSlot (env : Env) (malloc : BitVec 64) (v : SQVM) (self key val : SQObject) (bstatic : Bool) :
    Except Fault (Bool × SQVM) :=
  if key.type = otNull then .ok (false, v.raiseError (ascii "null cannot be used as index"))
  else match self.type with
  | otTable => do
    let t := v.heap.tables self.addr
    match ← v.newSlotMetaMethod env t key with
    | some closure => return env.callMetaMethod v closure [self, key, val]
    | none =>
      let (t, _) ← t.newSlot (v.heap.env env.ss) SQClass.depth key.key val
      return (true, v.setTable self.addr t)
  | otInstance =>
    let closure := (v.heap.classes (v.heap.instances self.addr).cls).metamethods mtNewslot
    if closure.type ≠ otNull then .ok (env.callMetaMethod v closure [self, key, val])
    else .ok (false, v.raiseError (ascii "class instances do not support the new slot operator"))
  | otClass => do
    let c := v.heap.classes self.addr
    let (stored, c, closures) ← c.newSlot env.ss v.heap malloc key val bstatic
    if stored then return (true, v.setClass self.addr c closures)
    else if c.locked then
      return (false, v.raiseError
        (ascii "trying to modify a class that has already been instantiated"))
    else
      return (false, v.raiseError (ascii "the property '" ++
        Lib.CString.cstr (printObjVal env.print key) ++ ascii "' already exists"))
  | _ => .ok (false, v.raiseError (ascii "indexing " ++ ascii (typeName self.type) ++
      ascii " with " ++ ascii (typeName key.type)))

/-- The branch of `SQVM::Set` for an array. -/
def setElement (env : Env) (v : SQVM) (self key val : SQObject) : Bool × SQVM :=
  if key.type.isNumeric then
    let nidx := (BaseLib.Conversion.tointeger env.convert key).toInt
    match SQArray.set (v.heap.arrays self.addr) nidx val with
    | some values => (true, v.setArray self.addr values)
    | none => (false, v.raiseIdxError env key)
  else (false, v.raiseError (ascii "indexing " ++ ascii (typeName self.type) ++ ascii " with " ++
    ascii (typeName key.type)))

end SQVM

/-- `sq_newslot`. What `NewSlot` tells is not looked at. -/
def sqNewslot (env : Env) (malloc : BitVec 64) (v : SQVM) (idx : Int) (bstatic : Bool) :
    Except Fault (SQRESULT × SQVM) :=
  if v.gettop < 3 then .ok (.error, v.raiseError (ascii "not enough params in the stack"))
  else
    let self := v.stackGet idx
    if self.type = otTable ∨ self.type = otClass then
      let key := v.getUp (-2)
      if key.type = otNull then .ok (.error, v.raiseError (ascii "null is not a valid key"))
      else do
        let (_, v) ← v.newSlot env malloc self key (v.getUp (-1)) bstatic
        return (.ok, v.pop 2)
    else .ok (.ok, v)

/-- `sq_rawset` -/
def sqRawset (env : Env) (malloc : BitVec 64) (v : SQVM) (idx : Int) : Except Fault (SQRESULT × SQVM) :=
  let self := v.stackGet idx
  let key := v.getUp (-2)
  let val := v.getUp (-1)
  let refused (v : SQVM) : SQRESULT × SQVM := (.error, v.raiseIdxError env (v.getUp (-2)))
  if key.type = otNull then .ok (.error, (v.pop 2).raiseError (ascii "null key"))
  else match self.type with
  | otTable => do
    let (t, _) ← (v.heap.tables self.addr).newSlot (v.heap.env env.ss) SQClass.depth key.key val
    return (.ok, (v.setTable self.addr t).pop 2)
  | otClass => do
    let (_, c, closures) ←
      (v.heap.classes self.addr).newSlot env.ss v.heap malloc key val false
    return (.ok, (v.setClass self.addr c closures).pop 2)
  | otInstance => do
    match ← (v.heap.instances self.addr).set env.ss v.heap key val with
    | some i => return (.ok, (v.setInstance self.addr i).pop 2)
    | none => return refused v
  | otArray =>
    match v.setElement env self key val with
    | (true, v) => .ok (.ok, v.pop 2)
    | (false, v) => .ok (refused v)
  | _ => .ok (.error, (v.pop 2).raiseError
      (ascii "rawset works only on array/table/class and instance"))

/-- The value that `sq_rawget` finds under a key. -/
def rawGet (env : Env) (h : Heap) (self key : SQObject) : Except Fault (Option SQObject) :=
  match self.type with
  | otTable => (h.tables self.addr).get (h.env env.ss) key.key
  | otClass => (h.classes self.addr).get env.ss h key
  | otInstance => (h.instances self.addr).get env.ss h key
  | otArray =>
    if key.type.isNumeric then
      .ok (SQArray.get h (h.arrays self.addr) (BaseLib.Conversion.tointeger env.convert key).toInt)
    else .ok none
  | _ => .ok none

end Sqnim.Api
