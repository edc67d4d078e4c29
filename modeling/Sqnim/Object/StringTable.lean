import Sqnim.Lib.CString
import Sqnim.Lib.LinkedList

/-!
# SQStringTable

The table of all strings of a shared state, of `sqstate.cpp`: a string of each content, on the chain
of the bucket of its hash. Strings are named by their addresses, and the address of a new one comes
from the allocator.
-/
namespace Sqnim.Object

open Sqnim.Lib Sqnim.Lib.LinkedList

variable {α : Type} [DecidableEq α]

structure SQString (α : Type) where
  next : Option α
  len : Nat
  hash : BitVec 64
  /-- The bytes and the terminator. -/
  val : List UInt8

structure SQStringTable (α : Type) where
  strings : α → SQString α
  buckets : Nat → Option α
  numofslots : Nat
  slotused : Nat

namespace SQStringTable

/-- The ways in which an operation does not return: a failed assertion, a read behind the end of a
buffer, a walk that never ends. -/
inductive Fault where
  | assertion
  | overread
  | walk
  deriving DecidableEq, Repr

/-- `(unsigned short)` of a signed character. -/
def ushort (c : UInt8) : BitVec 64 := (c.toBitVec.signExtend 16).setWidth 64

/-- The loop of `_hashstr` over the bytes below `l1`, of which `fuel` are still to come at most. -/
def hashLoop (s : List UInt8) (step : Nat) : Nat → Nat → BitVec 64 → BitVec 64
  | 0, _, h => h
  | fuel + 1, l1, h =>
    if l1 ≥ step then
      hashLoop s step fuel (l1 - step) (h ^^^ ((h <<< 5) + (h >>> 2) + ushort (s.getD (l1 - 1) 0)))
    else h

def hashstr (s : List UInt8) : BitVec 64 :=
  hashLoop s ((s.length >>> 5) + 1) s.length s.length (BitVec.ofNat 64 s.length)

def links (t : SQStringTable α) (s : α) : Option α := (t.strings s).next

def slot (t : SQStringTable α) (hash : BitVec 64) : Nat := hash.toNat &&& (t.numofslots - 1)

def allocNodes (t : SQStringTable α) (size : Nat) : SQStringTable α :=
  { t with numofslots := size, buckets := fun _ => none }

/-- The constructor. Nothing is read of the memory that is not a string. -/
def init (strings : α → SQString α) : SQStringTable α :=
  allocNodes { strings, buckets := fun _ => none, numofslots := 0, slotused := 0 } 4

def push (t : SQStringTable α) (s : α) : SQStringTable α :=
  let h := t.slot (t.strings s).hash
  { t with
    strings := Function.update t.strings s { t.strings s with next := t.buckets h }
    buckets := Function.update t.buckets h (some s) }

/-- The inner loop of `Resize`, from the string `p`. -/
def relink (t : SQStringTable α) : Nat → Option α → Except Fault (SQStringTable α)
  | 0, _ => .error .walk
  | _ + 1, none => .ok t
  | fuel + 1, some p => (t.push p).relink fuel (t.links p)

/-- A chain has at most one string more than there were slots. -/
def resize (t : SQStringTable α) (size : Nat) : Except Fault (SQStringTable α) :=
  (List.range t.numofslots).foldlM (fun new i => new.relink (t.numofslots + 2) (t.buckets i))
    (t.allocNodes size)

/-- The bytes that `Add` is given: up to the terminator when the length is negative. -/
def given (news : List UInt8) (len : Int) : Except Fault (List UInt8) :=
  if len < 0 then if 0 ∈ news then .ok (CString.cstr news) else .error .overread
  else if len ≤ news.length then .ok (news.take len.toNat)
  else .error .overread

def sameBytes (t : SQStringTable α) (content : List UInt8) (s : α) : Bool :=
  (t.strings s).len == content.length && (t.strings s).val.take content.length == content

/-- `Add`; `malloc` is the address of the memory that it gets if it makes a string. -/
def add (t : SQStringTable α) (malloc : α) (news : List UInt8) (len : Int) :
    Except Fault (SQStringTable α × α) := do
  let content ← given news len
  let hash := hashstr content
  match locate t.links (t.sameBytes content) (t.numofslots + 1) none (t.buckets (t.slot hash)) with
  | none => .error .walk
  | some (_, some s) => .ok (t, s)
  | some (_, none) =>
    let made : SQString α := { next := none, len := content.length, hash, val := content ++ [0] }
    let t := { t with strings := Function.update t.strings malloc made }.push malloc
    let t := { t with slotused := t.slotused + 1 }
    if t.slotused > t.numofslots then do
      let t ← t.resize (t.numofslots * 2)
      .ok (t, malloc)
    else .ok (t, malloc)

def unlink (t : SQStringTable α) (s : α) (h : Nat) (prev : Option α) : SQStringTable α :=
  let next := (t.strings s).next
  let t := match prev with
    | some p => { t with strings := Function.update t.strings p { t.strings p with next } }
    | none => { t with buckets := Function.update t.buckets h next }
  { t with slotused := t.slotused - 1 }

def remove (t : SQStringTable α) (bs : α) : Except Fault (SQStringTable α) :=
  let h := t.slot (t.strings bs).hash
  match locate t.links (· == bs) (t.numofslots + 1) none (t.buckets h) with
  | none => .error .walk
  | some (_, none) => .error .assertion
  | some (prev, some s) => .ok (t.unlink s h prev)

end SQStringTable

end Sqnim.Object
