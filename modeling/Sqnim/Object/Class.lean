import Sqnim.Table.Model
import Sqnim.Vm.Compare

/-!
# SQClass and SQInstance

A class keeps an index for each member, which says whether the member is a method or a field and
where its value is. `NewSlot` refuses a field of a class that is locked, and a member of a class that
is full.
-/
namespace Sqnim.Object

open Sqnim.Table
open SQObjectType

/-- Closures have a base when they are methods of a class with one. -/
structure SQClosure where
  function : Nat
  root : Option Nat
  env : Option Nat
  base : Option Nat
  outervalues : List SQObject
  defaultparams : List SQObject
  deriving DecidableEq

/-- `Clone` makes a closure without a base. -/
def SQClosure.clone (c : SQClosure) : SQClosure := { c with base := none }

structure SQClass where
  members : SQTable SQObject SQObject
  base : Option Nat
  defaultvalues : List SQObject
  methods : List SQObject
  metamethods : Nat → SQObject
  locked : Bool
  constructoridx : Int

structure SQInstance where
  cls : Nat
  values : List SQObject

/-- The objects by their addresses. -/
structure Heap where
  tables : Nat → SQTable SQObject SQObject
  arrays : Nat → List SQObject
  classes : Nat → SQClass
  instances : Nat → SQInstance
  closures : Nat → SQClosure
  weakrefs : Nat → SQObject

/-- `HashObj`, the names of the metamethods, and the string `constructor`. -/
structure SQSharedState where
  hash : SQObject → Nat
  metamethods : List SQObject
  constructoridx : SQObject

def SQObject.addr (o : SQObject) : Nat := o.unVal.toNat

/-- The key of a table, which is `none` for null. -/
def SQObject.key (o : SQObject) : Option SQObject := if o.type = otNull then none else some o

namespace Heap

/-- `_realval` -/
def realval (h : Heap) (o : SQObject) : SQObject :=
  if o.type ≠ otWeakRef then o else h.weakrefs o.addr

def env (ss : SQSharedState) (h : Heap) : Env SQObject SQObject := ⟨ss.hash, .ofNull, h.realval⟩

end Heap

/-- `GetMetaMethodIdxByName` -/
def SQSharedState.getMetaMethodIdxByName (ss : SQSharedState) (name : SQObject) : Option Nat :=
  if name.type ≠ otString then none else ss.metamethods.findIdx? (· = name)

namespace SQClass

def memberTypeMethod : BitVec 64 := 0x01000000
def memberTypeField : BitVec 64 := 0x02000000
def memberMaxCount : Int := 0x00FFFFFF

def isfield (o : SQObject) : Bool := o.unVal &&& memberTypeField ≠ 0
def makeMethodIdx (i : Nat) : SQObject := .ofInteger (memberTypeMethod ||| BitVec.ofNat 64 i)
def makeFieldIdx (i : Nat) : SQObject := .ofInteger (memberTypeField ||| BitVec.ofNat 64 i)
def memberIdx (o : SQObject) : Nat := (o.unVal &&& 0x00FFFFFF).toNat

/-- The recursion of a table's `NewSlot` through `Rehash` has this depth. -/
def depth : Nat := 2

/-- A key that is a field keeps being one, whatever is stored under it. -/
def hasField (ss : SQSharedState) (h : Heap) (c : SQClass) (key : SQObject) : Bool :=
  match c.members.get (h.env ss) key.key with
  | .ok (some temp) => isfield temp
  | _ => false

def isFunction (o : SQObject) : Bool := o.type = otClosure || o.type = otNativeClosure

/-- The value that becomes a method: in a class with a base, a closure is cloned into the memory at
`malloc` and gets the base. -/
def theval (h : Heap) (malloc : BitVec 64) (c : SQClass) (val : SQObject) :
    SQObject × (Nat → SQClosure) :=
  match c.base with
  | some base =>
    if val.type = otClosure then
      (⟨otClosure, malloc⟩, Function.update h.closures malloc.toNat
        { (h.closures val.addr).clone with base := some base })
    else (val, h.closures)
  | none => (val, h.closures)

/-- `NewSlot`, with the closures as it leaves them. -/
def newSlot (ss : SQSharedState) (h : Heap) (malloc : BitVec 64) (c : SQClass) (key val : SQObject)
    (bstatic : Bool) : Except Fault (Bool × SQClass × (Nat → SQClosure)) := do
  let belongsToStaticTable := isFunction val || bstatic
  if c.locked && !belongsToStaticTable then return (false, c, h.closures)
  let temp ← c.members.get (h.env ss) key.key
  match temp.filter isfield with
  | some temp =>
    return (true, { c with defaultvalues := c.defaultvalues.set (memberIdx temp) val }, h.closures)
  | none =>
    if c.members.countUsed ≥ memberMaxCount then return (false, c, h.closures)
    if belongsToStaticTable then
      match (if isFunction val then ss.getMetaMethodIdxByName key else none) with
      | some mmidx =>
        return (true, { c with metamethods := Function.update c.metamethods mmidx val }, h.closures)
      | none =>
        let (theval, closures) := theval h malloc c val
        match temp with
        | none =>
          let isconstructor := Vm.Compare.isEqual ss.constructoridx key
          let constructoridx := if isconstructor then (c.methods.length : Int) else c.constructoridx
          let (members, _) ← c.members.newSlot (h.env ss) depth key.key
            (makeMethodIdx c.methods.length)
          return (true, { c with constructoridx, members, methods := c.methods ++ [theval] },
            closures)
        | some temp =>
          return (true, { c with methods := c.methods.set (memberIdx temp) theval }, closures)
    else
      let (members, _) ← c.members.newSlot (h.env ss) depth key.key
        (makeFieldIdx c.defaultvalues.length)
      return (true, { c with members, defaultvalues := c.defaultvalues ++ [val] }, h.closures)

def get (ss : SQSharedState) (h : Heap) (c : SQClass) (key : SQObject) :
    Except Fault (Option SQObject) := do
  let temp ← c.members.get (h.env ss) key.key
  return temp.map fun temp =>
    if isfield temp then h.realval (c.defaultvalues.getD (memberIdx temp) .ofNull)
    else c.methods.getD (memberIdx temp) .ofNull

end SQClass

namespace SQInstance

def get (ss : SQSharedState) (h : Heap) (i : SQInstance) (key : SQObject) :
    Except Fault (Option SQObject) := do
  let c := h.classes i.cls
  let temp ← c.members.get (h.env ss) key.key
  return temp.map fun temp =>
    if SQClass.isfield temp then h.realval (i.values.getD (SQClass.memberIdx temp) .ofNull)
    else c.methods.getD (SQClass.memberIdx temp) .ofNull

def set (ss : SQSharedState) (h : Heap) (i : SQInstance) (key val : SQObject) :
    Except Fault (Option SQInstance) := do
  let temp ← (h.classes i.cls).members.get (h.env ss) key.key
  return (temp.filter SQClass.isfield).map fun temp =>
    { i with values := i.values.set (SQClass.memberIdx temp) val }

end SQInstance

namespace SQArray

def get (h : Heap) (values : List SQObject) (nidx : Int) : Option SQObject :=
  if 0 ≤ nidx ∧ nidx < values.length then some (h.realval (values.getD nidx.toNat .ofNull))
  else none

def set (values : List SQObject) (nidx : Int) (val : SQObject) : Option (List SQObject) :=
  if 0 ≤ nidx ∧ nidx < values.length then some (values.set nidx.toNat val) else none

end SQArray

end Sqnim.Object
