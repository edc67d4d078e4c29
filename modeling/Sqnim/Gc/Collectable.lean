import Sqnim.Lib.DoublyLinked
import Sqnim.Object.Class

/-!
# Collectable objects

The objects that the garbage collector knows, with the references that `Mark` follows, and the
chain of `sqstate.cpp` on which they are linked. An object is an address; the mark is the upper bit
of its reference count.
-/
namespace Sqnim.Gc

open Sqnim.Object Sqnim.Lib.DoublyLinked
open SQObjectType

abbrev Addr := Nat

/-- The subclasses of `SQCollectable`. A node of a table is a key with its value, a member of a class
a value with its attributes, an open variable of a thread is one with its position on the stack. The
members and the class are null after `Finalize` only. -/
inductive SQCollectable where
  | thread (lasterror errorhandler debughookClosure roottable tempReg : SQObject)
      (stack callsstack : List SQObject) (openouters : List (Addr × Nat))
  | array (values : List SQObject)
  | table (delegate : Option Addr) (nodes : List (SQObject × SQObject))
  | cls (members base : Option Addr) (attributes : SQObject)
      (defaultvalues methods : List (SQObject × SQObject)) (metamethods : List SQObject)
  | inst (cls : Option Addr) (values : List SQObject)
  | generator (stack : List SQObject) (closure ciClosure : SQObject)
  | funcproto (literals functions : List SQObject)
  | closure (base : Option Addr) (function : Addr) (outervalues defaultparams : List SQObject)
  | nativeclosure (outervalues : List SQObject)
  /-- The value is in the variable once it is closed; before, it is on a stack. -/
  | outer (value : Option SQObject)
  | userdata (delegate : Option Addr)
  deriving Inhabited

abbrev Objects := Addr → SQCollectable

def SQCollectable.getType : SQCollectable → SQObjectType
  | .thread .. => otThread
  | .array .. => otArray
  | .table .. => otTable
  | .cls .. => otClass
  | .inst .. => otInstance
  | .generator .. => otGenerator
  | .funcproto .. => otFuncProto
  | .closure .. => otClosure
  | .nativeclosure .. => otNativeClosure
  | .outer .. => otOuter
  | .userdata .. => otUserData

/-- The object that `MarkObject` marks, if it is one of the types it looks at. -/
def markObject (o : SQObject) : Option Addr :=
  match o.type with
  | otTable | otArray | otUserData | otClosure | otNativeClosure | otGenerator | otThread | otClass
  | otInstance | otOuter | otFuncProto => some o.addr
  | _ => none

def markObjects (os : List SQObject) : List Addr := os.filterMap markObject

def pairs (ps : List (SQObject × SQObject)) : List SQObject := ps.flatMap fun p => [p.1, p.2]

/-- The objects that `Mark` of an object marks, between `START_MARK` and `END_MARK`. -/
def marks : SQCollectable → List Addr
  | .thread lasterror errorhandler debughookClosure roottable tempReg stack callsstack _ =>
    markObjects [lasterror, errorhandler, debughookClosure, roottable, tempReg] ++
      markObjects stack ++ markObjects callsstack
  | .array values => markObjects values
  | .table delegate nodes => delegate.toList ++ markObjects (pairs nodes)
  | .cls members base attributes defaultvalues methods metamethods =>
    members.toList ++ base.toList ++ markObjects [attributes] ++ markObjects (pairs defaultvalues) ++
      markObjects (pairs methods) ++ markObjects metamethods
  | .inst c values => c.toList ++ markObjects values
  | .generator stack closure _ => markObjects stack ++ markObjects [closure]
  | .funcproto literals functions => markObjects literals ++ markObjects functions
  | .closure base function outervalues defaultparams =>
    base.toList ++ function :: markObjects outervalues ++ markObjects defaultparams
  | .nativeclosure outervalues => markObjects outervalues
  | .outer value => markObjects value.toList
  | .userdata delegate => delegate.toList

/-- The parts of `SQSharedState` that the collector reads, with the heap. -/
structure SQSharedState where
  objects : Objects
  marked : Addr → Bool
  links : Links Addr
  gcChain : Option Addr
  rootVm : Addr
  /-- the objects in the nodes of `_refs_table` -/
  refsTable : List SQObject
  registry : SQObject
  consts : SQObject
  metamethodsmap : SQObject
  tableDefaultDelegate : SQObject
  arrayDefaultDelegate : SQObject
  stringDefaultDelegate : SQObject
  numberDefaultDelegate : SQObject
  generatorDefaultDelegate : SQObject
  threadDefaultDelegate : SQObject
  closureDefaultDelegate : SQObject
  classDefaultDelegate : SQObject
  instanceDefaultDelegate : SQObject
  weakrefDefaultDelegate : SQObject

namespace SQSharedState

def children (ss : SQSharedState) (a : Addr) : List Addr := marks (ss.objects a)

def roots (ss : SQSharedState) : List Addr :=
  ss.rootVm :: markObjects ss.refsTable ++ markObjects [ss.registry, ss.consts, ss.metamethodsmap,
    ss.tableDefaultDelegate, ss.arrayDefaultDelegate, ss.stringDefaultDelegate,
    ss.numberDefaultDelegate, ss.generatorDefaultDelegate, ss.threadDefaultDelegate,
    ss.closureDefaultDelegate, ss.classDefaultDelegate, ss.instanceDefaultDelegate,
    ss.weakrefDefaultDelegate]

def addToChain (ss : SQSharedState) (c : Addr) : SQSharedState :=
  { ss with links := (ss.links.push ss.gcChain c).1, gcChain := (ss.links.push ss.gcChain c).2 }

def removeFromChain (ss : SQSharedState) (c : Addr) : SQSharedState :=
  { ss with links := (ss.links.unlink ss.gcChain c).1, gcChain := (ss.links.unlink ss.gcChain c).2 }

end SQSharedState

/-- The state while marking: `tchain` is the chain of the objects that have been marked. -/
structure Marking where
  ss : SQSharedState
  tchain : Option Addr

namespace Marking

def startMark (a : Addr) (s : Marking) : Marking :=
  { s with ss := { s.ss with marked := Function.update s.ss.marked a true } }

def endMark (a : Addr) (s : Marking) : Marking :=
  let ss := s.ss.removeFromChain a
  { ss := { ss with links := (ss.links.push s.tchain a).1 }, tchain := (ss.links.push s.tchain a).2 }

/-- `Mark`; `depth` bounds how deep the calls nest. -/
def mark : Nat → Addr → Marking → Option Marking
  | 0, _, _ => none
  | depth + 1, a, s =>
    if s.ss.marked a then some s
    else ((s.ss.children a).foldlM (fun s b => mark depth b s) (s.startMark a)).map (endMark a)

end Marking

namespace SQSharedState

def runMark (depth : Nat) (ss : SQSharedState) : Option Marking :=
  ss.roots.foldlM (fun s a => Marking.mark depth a s) ⟨ss, none⟩

/-- The loop that calls `UnMark`, from an object of the chain on. -/
def unMarkLoop : Nat → Option Addr → SQSharedState → Option SQSharedState
  | _, none, ss => some ss
  | 0, some _, _ => none
  | fuel + 1, some t, ss =>
    unMarkLoop fuel (ss.links.next t) { ss with marked := Function.update ss.marked t false }

structure Resurrected where
  rlast : Option Addr
  values : List SQObject
  n : Nat

def sqo (ss : SQSharedState) (t : Addr) : SQObject := ⟨(ss.objects t).getType, BitVec.ofNat 64 t⟩

/-- Function prototypes and captured variables are not given to the script. -/
def visible (ss : SQSharedState) (t : Addr) : Bool :=
  (ss.objects t).getType != otFuncProto && (ss.objects t).getType != otOuter

def resurrectLoop (ss : SQSharedState) : Nat → Option Addr → Resurrected → Option Resurrected
  | _, none, r => some r
  | 0, some _, _ => none
  | fuel + 1, some t, r =>
    resurrectLoop ss fuel (ss.links.next t)
      ⟨some t, if ss.visible t then r.values ++ [ss.sqo t] else r.values, r.n + 1⟩

/-- Create the array of the unreachable objects and put these in front of the chain. -/
def relinkResurrected (malloc : Addr) (resurrected : Addr) (r : Resurrected) (ss : SQSharedState) :
    SQSharedState :=
  let ss := { ss with
    objects := Function.update ss.objects malloc (.array r.values)
    marked := Function.update ss.marked malloc false }
  let ss := ss.addToChain malloc
  { ss with
    links := match r.rlast with
      | some rlast => ss.links.join rlast ss.gcChain
      | none => ss.links
    gcChain := some resurrected }

/-- `ResurrectUnreachable`: the number of unreachable objects, and the array it pushes, which is null
if there are none. A new array takes the address `malloc`. -/
def resurrectUnreachable (fuel : Nat) (malloc : Addr) (ss : SQSharedState) :
    Option (Nat × SQObject × SQSharedState) := do
  let s ← ss.runMark fuel
  let ss := { s.ss with gcChain := s.tchain }
  match s.ss.gcChain with
  | none =>
    let ss ← unMarkLoop fuel ss.gcChain ss
    pure (0, .ofNull, ss)
  | some resurrected =>
    let r ← ss.resurrectLoop fuel (some resurrected) ⟨none, [], 0⟩
    let ss := relinkResurrected malloc resurrected r ss
    let ss ← unMarkLoop fuel ss.gcChain ss
    pure (r.n, ⟨otArray, BitVec.ofNat 64 malloc⟩, ss)

end SQSharedState
end Sqnim.Gc
