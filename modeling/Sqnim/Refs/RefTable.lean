import Sqnim.Lib.LinkedList
import Sqnim.Object.Value

/-!
# RefTable

The table of the objects that the host holds, of `sqstate.cpp`, with the calls
of `sqapi.cpp` on it. Bucket chains and the free list run through one array of
nodes, whose addresses are indices here. Counts and sizes are naturals: neither
a balance nor an allocation reaches a machine word.
-/
namespace Sqnim.Refs

open Sqnim.Lib.LinkedList
open Sqnim.Object
open SQObjectType

structure RefNode where
  obj : SQObject
  refs : Nat
  next : Option Nat

structure RefTable where
  numofslots : Nat
  slotused : Nat
  nodes : Nat → RefNode
  freelist : Option Nat
  buckets : Nat → Option Nat

/-- The ways in which an operation does not return: a failed assertion, a null pointer followed, a
walk that never ends. -/
inductive Fault where
  | assertion
  | nullPointer
  | walk
  deriving DecidableEq, Repr

/-- What `Get` returns, with the table that it may have grown. -/
structure Lookup where
  table : RefTable
  ref : Option Nat
  mainpos : Nat
  prev : Option Nat

namespace RefTable

def modify (t : RefTable) (i : Nat) (f : RefNode → RefNode) : RefTable :=
  { t with nodes := Function.update t.nodes i (f (t.nodes i)) }

def links (t : RefTable) (i : Nat) : Option Nat := (t.nodes i).next

def allocNodes (size : Nat) : RefTable where
  numofslots := size
  slotused := 0
  nodes n := ⟨.ofNull, 0, if n + 1 < size then some (n + 1) else none⟩
  freelist := some 0
  buckets _ := none

/-- The constructor. -/
def init : RefTable := allocNodes 4

/-- Take the first free node for `obj` and put it in front of its chain. -/
def fill (t : RefTable) (mainpos newnode : Nat) (obj : SQObject) : RefTable :=
  { t with
    nodes := Function.update t.nodes newnode
      { t.nodes newnode with obj := obj, next := t.buckets mainpos }
    buckets := Function.update t.buckets mainpos (some newnode)
    freelist := (t.nodes newnode).next
    slotused := t.slotused + 1 }

def add (t : RefTable) (mainpos : Nat) (obj : SQObject) : Except Fault (RefTable × Nat) :=
  match t.freelist with
  | none => .error .nullPointer
  | some newnode =>
    if (t.nodes newnode).refs = 0 then .ok (t.fill mainpos newnode obj, newnode)
    else .error .assertion

section Hashing

variable (hash : SQObject → Nat)

def mainPosition (t : RefTable) (obj : SQObject) : Nat := hash obj &&& (t.numofslots - 1)

/-- One turn of the loop of `Resize`: the table, the number of nodes found, an old node. -/
def addBack (s : RefTable × Nat) (old : RefNode) : Except Fault (RefTable × Nat) := do
  if old.obj.type = otNull then
    .ok s
  else if old.refs = 0 then
    .error .assertion
  else
    let (t, nn) ← s.1.add (s.1.mainPosition hash old.obj) old.obj
    .ok (t.modify nn ({ · with refs := old.refs }), s.2 + 1)

def resize (t : RefTable) (size : Nat) : Except Fault RefTable := do
  let (new, nfound) ← ((List.range t.numofslots).map t.nodes).foldlM (addBack hash)
    (allocNodes size, 0)
  if nfound = t.numofslots then .ok new else .error .assertion

/-- The part of `Get` after the walk. -/
def getOrAdd (t : RefTable) (obj : SQObject) (ref prev : Option Nat) (add : Bool) :
    Except Fault Lookup := do
  if ref.isNone && add then
    if t.numofslots = t.slotused then
      if t.freelist.isSome then
        .error .assertion
      else
        let grown ← t.resize hash (t.numofslots * 2)
        let mainpos := grown.mainPosition hash obj
        let (table, ref) ← grown.add mainpos obj
        .ok ⟨table, some ref, mainpos, prev⟩
    else
      let mainpos := t.mainPosition hash obj
      let (table, ref) ← t.add mainpos obj
      .ok ⟨table, some ref, mainpos, prev⟩
  else
    .ok ⟨t, ref, t.mainPosition hash obj, prev⟩

/-- A walk that is not over after all slots runs in a circle. -/
def get (t : RefTable) (obj : SQObject) (add : Bool) : Except Fault Lookup :=
  match locate t.links (fun i => (t.nodes i).obj == obj) (t.numofslots + 1) none
      (t.buckets (t.mainPosition hash obj)) with
  | none => .error .walk
  | some (prev, ref) => t.getOrAdd hash obj ref prev add

def addRef (t : RefTable) (obj : SQObject) : Except Fault RefTable := do
  let l ← t.get hash obj true
  match l.ref with
  | none => .error .nullPointer
  | some ref => .ok (l.table.modify ref fun node => { node with refs := node.refs + 1 })

/-- Take a node whose count is zero off its chain and put it on the free list. -/
def freeNode (t : RefTable) (ref mainpos : Nat) (prev : Option Nat) : RefTable :=
  let next := (t.nodes ref).next
  let t := match prev with
    | some p => t.modify p ({ · with next := next })
    | none => { t with buckets := Function.update t.buckets mainpos next }
  let t := t.modify ref ({ · with next := t.freelist, obj := .ofNull })
  { t with freelist := some ref, slotused := t.slotused - 1 }

/-- The count wraps below zero as an unsigned word does. -/
def release (t : RefTable) (obj : SQObject) : Except Fault (RefTable × Bool) := do
  let l ← t.get hash obj false
  match l.ref with
  | none => .error .assertion
  | some ref =>
    let t := l.table.modify ref fun node =>
      { node with refs := if node.refs = 0 then 2 ^ 64 - 1 else node.refs - 1 }
    if (t.nodes ref).refs = 0 then .ok (t.freeNode ref l.mainpos l.prev, true)
    else .ok (t, false)

end Hashing

end RefTable

section Api

variable (hash : SQObject → Nat)

def sqAddref (t : RefTable) (po : SQObject) : Except Fault RefTable :=
  if po.type.isRefCounted then t.addRef hash po else .ok t

def sqRelease (t : RefTable) (po : SQObject) : Except Fault (RefTable × Bool) :=
  if po.type.isRefCounted then t.release hash po else .ok (t, true)

end Api

end Sqnim.Refs
