import Sqnim.Lib.Chain

/-!
# SQTable

The scatter table of `sqtable.cpp`: nodes with in-place chaining, and a pointer
to a free node that only moves down until the nodes are allocated anew. Node
addresses are indices, and a null key is `none`. Sizes are naturals: a table
whose size overflows a machine word cannot be allocated.
-/
namespace Sqnim.Table

open Sqnim.Lib.Chain (Found search)

variable {K V : Type} [DecidableEq K]

/-- What the table asks of its keys and values: `HashObj` on a key other than null, the null
object as a value, and `_realval`. -/
structure Env (K V : Type) where
  hash : K → Nat
  null : V
  realval : V → V

structure HashNode (K V : Type) where
  val : V
  key : Option K
  next : Option Nat

structure SQTable (K V : Type) where
  nodes : Nat → HashNode K V
  numOfNodes : Nat
  firstFree : Nat
  usedNodes : Int
  delegate : Option Nat

/-- The ways in which an operation does not return: a failed assertion, a walk that never ends, a
recursion that never ends. -/
inductive Fault where
  | assertion
  | walk
  | recursion
  deriving DecidableEq, Repr

def minPower2 : Nat := 4

/-- The pointer of a null key is 0, and so is its hash. -/
def hashObj (env : Env K V) : Option K → Nat
  | none => 0
  | some k => env.hash k

namespace SQTable

def modify (t : SQTable K V) (i : Nat) (f : HashNode K V → HashNode K V) : SQTable K V :=
  { t with nodes := Function.update t.nodes i (f (t.nodes i)) }

def mainPosition (env : Env K V) (t : SQTable K V) (key : Option K) : Nat :=
  hashObj env key &&& (t.numOfNodes - 1)

def links (t : SQTable K V) (i : Nat) : Option Nat := (t.nodes i).next

/-- The node that holds `key` on the chain from `h` (`_Get`). -/
def getNode (t : SQTable K V) (key : Option K) (h : Nat) : Except Fault (Option Nat) :=
  match search t.links (fun i => (t.nodes i).key == key) t.numOfNodes h with
  | .at n => .ok (some n)
  | .nowhere => .ok none
  | .outOfFuel => .error .walk

def allocNodes (env : Env K V) (t : SQTable K V) (size : Nat) : SQTable K V :=
  { t with
    nodes := fun _ => ⟨env.null, none, none⟩
    numOfNodes := size
    firstFree := size - 1 }

/-- The doubling loop of the constructor. -/
def pow2Size (want : Int) : Nat → Nat → Except Fault Nat
  | 0, _ => .error .walk
  | fuel + 1, size => if want > size then pow2Size want fuel (2 * size) else .ok size

def create (env : Env K V) (nInitialSize : Int) : Except Fault (SQTable K V) := do
  let size ← pow2Size nInitialSize (nInitialSize.toNat + 1) minPower2
  return allocNodes env ⟨fun _ => ⟨env.null, none, none⟩, 0, 0, 0, none⟩ size

/-- The search for the node before `mp`, which asserts that it meets no null link. -/
def predecessor (t : SQTable K V) (othern mp : Nat) : Except Fault Nat :=
  match search t.links (fun i => t.links i == some mp) t.numOfNodes othern with
  | .at prev => .ok prev
  | .nowhere => .error .assertion
  | .outOfFuel => .error .walk

/-- Move the node at `mp` to the free node `n`, behind `prev`. -/
def relocate (env : Env K V) (t : SQTable K V) (prev mp n : Nat) : SQTable K V :=
  let t := t.modify prev fun x => { x with next := some n }
  let moved := t.nodes mp
  let t := t.modify n fun _ => { key := moved.key, val := moved.val, next := moved.next }
  t.modify mp fun _ => { key := none, val := env.null, next := none }

/-- Chain the free node `n` behind `mp`. -/
def chain (t : SQTable K V) (mp n : Nat) : SQTable K V :=
  let t := t.modify n fun x => { x with next := (t.nodes mp).next }
  t.modify mp fun x => { x with next := some n }

/-- The node for a key whose main position is `mp`: `mp` itself if it is free or can be freed, else
the free node. -/
def place (env : Env K V) (t : SQTable K V) (mp : Nat) : Except Fault (SQTable K V × Nat) :=
  match (t.nodes mp).key with
  | none => .ok (t, mp)
  | some colliding => do
    let n := t.firstFree
    let othern := t.mainPosition env (some colliding)
    if mp > n ∧ othern ≠ mp then
      let prev ← t.predecessor othern mp
      return (t.relocate env prev mp n, mp)
    else return (t.chain mp n, n)

def isFree (t : SQTable K V) (i : Nat) : Bool := (t.nodes i).key.isNone && (t.nodes i).next.isNone

/-- The first free node at or below a position. -/
def correctFirstFree (t : SQTable K V) : Nat → Option Nat
  | 0 => if t.isFree 0 then some 0 else none
  | i + 1 => if t.isFree (i + 1) then some (i + 1) else t.correctFirstFree i

/-- The size that `Rehash` allocates, if it does. -/
def rehashSize (oldsize : Nat) (nelems : Int) (force : Bool) : Option Nat :=
  if nelems ≥ oldsize - (oldsize / 4 : Nat) then some (oldsize * 2)
  else if nelems ≤ (oldsize / 4 : Nat) ∧ oldsize > minPower2 then some (oldsize / 2)
  else if force then some oldsize
  else none

/-- Store every old node again, in the order of the nodes. -/
def reinsert (insert : SQTable K V → Option K → V → Except Fault (SQTable K V × Bool))
    (old : SQTable K V) (oldsize : Nat) (fresh : SQTable K V) : Except Fault (SQTable K V) :=
  (List.range oldsize).foldlM (fun t i =>
    match (old.nodes i).key with
    | none => .ok t
    | some k => (insert t (some k) (old.nodes i).val).map Prod.fst) fresh

def rehash (env : Env K V)
    (insert : SQTable K V → Option K → V → Except Fault (SQTable K V × Bool))
    (t : SQTable K V) (force : Bool) : Except Fault (SQTable K V) :=
  let oldsize := if t.numOfNodes < 4 then 4 else t.numOfNodes
  match rehashSize oldsize t.usedNodes force with
  | none => .ok t
  | some size => reinsert insert t oldsize { allocNodes env t size with usedNodes := 0 }

/-- `NewSlot`. The depth of its recursion through `Rehash` is the fuel. -/
def newSlot (env : Env K V) : Nat → SQTable K V → Option K → V → Except Fault (SQTable K V × Bool)
  | 0, _, _, _ => .error .recursion
  | fuel + 1, t, key, val =>
    if key.isNone then .error .assertion
    else do
      let h := t.mainPosition env key
      match ← t.getNode key h with
      | some n => return (t.modify n fun x => { x with val := val }, false)
      | none =>
        let (t, mp) ← t.place env h
        let t := t.modify mp fun x => { x with key := key }
        match t.correctFirstFree t.firstFree with
        | some free =>
          let t := t.modify mp fun x => { x with val := val }
          return ({ t with firstFree := free, usedNodes := t.usedNodes + 1 }, true)
        | none =>
          let t ← rehash env (newSlot env fuel) { t with firstFree := 0 } true
          newSlot env fuel t key val

def get (env : Env K V) (t : SQTable K V) (key : Option K) : Except Fault (Option V) :=
  if key.isNone then .ok none
  else do
    let n ← t.getNode key (t.mainPosition env key)
    return n.map fun n => env.realval (t.nodes n).val

/-- `Set` makes no check for null. -/
def set (env : Env K V) (t : SQTable K V) (key : Option K) (val : V) :
    Except Fault (SQTable K V × Bool) := do
  match ← t.getNode key (t.mainPosition env key) with
  | some n => return (t.modify n fun x => { x with val := val }, true)
  | none => return (t, false)

def remove (env : Env K V) (fuel : Nat) (t : SQTable K V) (key : Option K) :
    Except Fault (SQTable K V) := do
  match ← t.getNode key (t.mainPosition env key) with
  | some n =>
    let t := t.modify n fun x => { x with val := env.null, key := none }
    rehash env (newSlot env fuel) { t with usedNodes := t.usedNodes - 1 } false
  | none => return t

def countUsed (t : SQTable K V) : Int := t.usedNodes

/-- `_ClearNodes` leaves the links alone. -/
def clearNodes (env : Env K V) (t : SQTable K V) : SQTable K V :=
  { t with nodes := fun i =>
      if i < t.numOfNodes then { t.nodes i with key := none, val := env.null } else t.nodes i }

def clear (env : Env K V) (fuel : Nat) (t : SQTable K V) : Except Fault (SQTable K V) :=
  rehash env (newSlot env fuel) { t.clearNodes env with usedNodes := 0 } true

/-- `TranslateIndex` on the iterator that `sq_next` keeps. -/
def translateIndex : Option Nat → Nat
  | none => 0
  | some idx => idx

/-- The loop of `Next` over `steps` nodes from `idx`. -/
def nextFrom (t : SQTable K V) : Nat → Nat → Option (Nat × K × V)
  | 0, _ => none
  | steps + 1, idx =>
    match (t.nodes idx).key with
    | some k => some (idx + 1, k, (t.nodes idx).val)
    | none => t.nextFrom steps (idx + 1)

/-- The position for the next call, the key and the value; `none` stands for -1. -/
def next (env : Env K V) (t : SQTable K V) (getweakrefs : Bool) (refpos : Option Nat) :
    Option (Nat × K × V) :=
  let idx := translateIndex refpos
  (t.nextFrom (t.numOfNodes - idx) idx).map fun (pos, k, v) =>
    (pos, k, if getweakrefs then v else env.realval v)

/-- Calls of `sq_next` from a position until one fails. -/
def iterate (env : Env K V) (t : SQTable K V) : Nat → Option Nat → Except Fault (List (K × V))
  | 0, _ => .error .walk
  | fuel + 1, refpos =>
    match t.next env false refpos with
    | none => .ok []
    | some (pos, k, v) => do
      let rest ← t.iterate env fuel (some pos)
      return (k, v) :: rest

def cloneLoop (env : Env K V)
    (insert : SQTable K V → Option K → V → Except Fault (SQTable K V × Bool)) (t : SQTable K V) :
    Nat → Nat → SQTable K V → Except Fault (SQTable K V)
  | 0, _, _ => .error .walk
  | fuel + 1, ridx, nt =>
    match t.next env true (some ridx) with
    | none => .ok nt
    | some (ridx, k, v) => do
      let (nt, _) ← insert nt (some k) v
      t.cloneLoop env insert fuel ridx nt

def clone (env : Env K V) (fuel : Nat) (t : SQTable K V) : Except Fault (SQTable K V) := do
  let nt ← create env t.numOfNodes
  let nt ← t.cloneLoop env (newSlot env fuel) (t.numOfNodes + 1) 0 nt
  return { nt with delegate := t.delegate }

end SQTable

end Sqnim.Table
