import Sqnim.Lib.LinkedList
import Sqnim.Table.Refinement

/-!
# Delegates

Tables and userdata delegate to tables. `SetDelegate` and `sq_setdelegate` link
them, `SQVM::Get` and `SQVM::Set` follow the links, each through a fallback of
its own. A program names its tables and userdata by the order of their creation.
-/
namespace Sqnim.Table

variable {K V : Type} [DecidableEq K]

/-- An `SQDelegable` that is not an instance. -/
inductive Delegable where
  | table (a : Nat)
  | userdata (u : Nat)
  deriving DecidableEq, Repr

structure World (K V : Type) where
  tables : List (SQTable K V)
  userdata : List (Option Nat)

namespace World

def next (w : World K V) (a : Nat) : Option Nat := w.tables[a]?.bind SQTable.delegate

def delegateOf (w : World K V) : Delegable → Option Nat
  | .table a => w.next a
  | .userdata u => w.userdata[u]?.join

/-- The loop of `SetDelegate`: whether the delegate of some table from `temp` on is `this`. -/
def leadsTo (w : World K V) (this : Delegable) : Nat → Option Nat → Except Fault Bool
  | 0, _ => .error .walk
  | _ + 1, none => .ok false
  | fuel + 1, some temp =>
    if (w.next temp).map Delegable.table = some this then .ok true
    else w.leadsTo this fuel (w.next temp)

def setLink (w : World K V) (this : Delegable) (mt : Option Nat) : World K V :=
  match this with
  | .table a => { w with tables := w.tables.modify a ({ · with delegate := mt }) }
  | .userdata u => { w with userdata := w.userdata.set u mt }

/-- `SetDelegate`; a walk that is not over after all tables runs in a circle. -/
def setDelegate (w : World K V) (this : Delegable) (mt : Option Nat) :
    Except Fault (World K V × Bool) :=
  if mt.map Delegable.table = some this then .ok (w, false)
  else do
    let cycle ← w.leadsTo this (w.tables.length + 1) mt
    .ok (if cycle then (w, false) else (w.setLink this mt, true))

def holds (w : World K V) : Delegable → Prop
  | .table a => a < w.tables.length
  | .userdata u => u < w.userdata.length

instance (w : World K V) (d : Delegable) : Decidable (w.holds d) := by
  cases d <;> exact inferInstanceAs (Decidable (_ < _))

end World

/-- What a program does with its tables and userdata. -/
inductive Act (K V : Type) where
  | onTables (op : Op K V)
  | newUserdata
  | setDelegate (self : Delegable) (mt : Option Nat)

/-- `sq_setdelegate`, which `table.setdelegate` calls. A refused link is an error for a table and
nothing for a userdata: either way the link is the old one. -/
def sqSetdelegate (w : World K V) (self : Delegable) (mt : Option Nat) : Except Fault (World K V) :=
  (w.setDelegate self mt).map Prod.fst

/-- `SQTable::Clone` links the new table at its end. The objects of the other acts exist. -/
def World.act (env : Env K V) (fuel : Nat) (w : World K V) : Act K V → Except Fault (World K V)
  | .onTables (.clone a) =>
    match w.tables[a]? with
    | none => .ok w
    | some t => do
      let nt ← t.clone env fuel
      sqSetdelegate { w with tables := w.tables ++ [{ nt with delegate := none }] }
        (.table w.tables.length) t.delegate
  | .onTables op => (step env fuel w.tables op).map fun tables => { w with tables }
  | .newUserdata => .ok { w with userdata := w.userdata ++ [none] }
  | .setDelegate self mt =>
    if w.holds self ∧ ∀ a ∈ mt, a < w.tables.length then sqSetdelegate w self mt else .ok w

/-- A program begins with the default delegate of tables. -/
def World.run (env : Env K V) (fuel : Nat) (acts : List (Act K V)) : Except Fault (World K V) := do
  let ddel ← SQTable.create env 0
  acts.foldlM (World.act env fuel) ⟨[ddel], []⟩

def tableDdel : Nat := 0

/-- What `Get` and `Set` use besides the tables: the names of the metamethods, a call of one (its
result, whether it leaves an error, the world after it), the root of the running closure and that
of the thread. -/
structure Vm (K V : Type) where
  mtGet : K
  mtSet : K
  callGet : V → Delegable → Option K → World K V → Option V × Bool × World K V
  callSet : V → Delegable → Option K → V → World K V → Bool × Bool × World K V
  root : Option Nat
  roottable : Nat

/-- What `Get` finds; where it finds nothing, whether an error is raised. -/
inductive Answer (V : Type) where
  | found (dest : V)
  | missing (raised : Bool)

inductive Fallback (V : Type) where
  | ok (dest : V)
  | noMatch
  | error

structure GetFlags where
  raw : Bool
  doNotRaiseError : Bool
  deriving DecidableEq, Repr

def dontFallBack : Int := 666

section Access

variable (env : Env K V) (vm : Vm K V)

namespace World

/-- `_table(self)->Get`, and no match for a userdata. -/
def getOwn (w : World K V) (self : Delegable) (key : Option K) : Except Fault (Option V) :=
  match self with
  | .table a =>
    match w.tables[a]? with
    | none => .ok none
    | some t => t.get env key
  | .userdata _ => .ok none

def getMetaMethod (w : World K V) (self : Delegable) (mm : K) : Except Fault (Option V) :=
  match w.delegateOf self with
  | none => .ok none
  | some d => w.getOwn env (.table d) (some mm)

def getByMetaMethod (w : World K V) (self : Delegable) (key : Option K) :
    Except Fault (Fallback V × World K V) := do
  match ← w.getMetaMethod env self vm.mtGet with
  | none => .ok (.noMatch, w)
  | some closure =>
    match vm.callGet closure self key w with
    | (some dest, _, w) => .ok (.ok dest, w)
    | (none, true, w) => .ok (.error, w)
    | (none, false, w) => .ok (.noMatch, w)

def fallBackGet (get : World K V → Delegable → Except Fault (Answer V × World K V))
    (w : World K V) (self : Delegable) (key : Option K) : Except Fault (Fallback V × World K V) :=
  match w.delegateOf self with
  | none => .ok (.noMatch, w)
  | some d => do
    match ← get w (.table d) with
    | (.found dest, w) => .ok (.ok dest, w)
    | (.missing _, w) => w.getByMetaMethod env vm self key

def invokeDefaultDelegate (w : World K V) (self : Delegable) (key : Option K) :
    Except Fault (Option V) :=
  match self with
  | .table _ => w.getOwn env (.table tableDdel) key
  | .userdata _ => .ok none

/-- The end of `Get`: the root of the running closure, and then an error. -/
def getFromRoot (get : World K V → Delegable → Except Fault (Answer V × World K V))
    (w : World K V) (flags : GetFlags) (selfidx : Int) : Except Fault (Answer V × World K V) :=
  let missing : Answer V := .missing (!flags.doNotRaiseError)
  if selfidx = 0 then
    match vm.root with
    | none => .ok (missing, w)
    | some r => do
      match ← get w (.table r) with
      | (.found dest, w) => .ok (.found dest, w)
      | (.missing _, w) => .ok (missing, w)
  else .ok (missing, w)

/-- `SQVM::Get` on a table or a userdata. The fuel bounds its recursion. -/
def get : Nat → World K V → Delegable → Option K → GetFlags → Int →
    Except Fault (Answer V × World K V)
  | 0, _, _, _, _, _ => .error .recursion
  | fuel + 1, w, self, key, flags, selfidx => do
    let inner (flags : GetFlags) (w : World K V) (d : Delegable) :=
      get fuel w d key flags dontFallBack
    match ← w.getOwn env self key with
    | some dest => .ok (.found dest, w)
    | none =>
      if flags.raw then w.getFromRoot vm (inner ⟨false, false⟩) flags selfidx
      else
        match ← w.fallBackGet env vm (inner ⟨false, true⟩) self key with
        | (.ok dest, w) => .ok (.found dest, w)
        | (.error, w) => .ok (.missing true, w)
        | (.noMatch, w) =>
          match ← w.invokeDefaultDelegate env self key with
          | some dest => .ok (.found dest, w)
          | none => w.getFromRoot vm (inner ⟨false, false⟩) flags selfidx

/-- `_table(self)->Set`, and no match for a userdata. -/
def setOwn (w : World K V) (self : Delegable) (key : Option K) (val : V) :
    Except Fault (Bool × World K V) :=
  match self with
  | .table a =>
    match w.tables[a]? with
    | none => .ok (false, w)
    | some t => do
      let (t, done) ← t.set env key val
      .ok (done, { w with tables := w.tables.set a t })
  | .userdata _ => .ok (false, w)

def setByMetaMethod (w : World K V) (self : Delegable) (key : Option K) (val : V) :
    Except Fault (Fallback Unit × World K V) := do
  match ← w.getMetaMethod env self vm.mtSet with
  | none => .ok (.noMatch, w)
  | some closure =>
    match vm.callSet closure self key val w with
    | (true, _, w) => .ok (.ok (), w)
    | (false, true, w) => .ok (.error, w)
    | (false, false, w) => .ok (.noMatch, w)

/-- A userdata does not pass an assignment on to its delegate. -/
def fallBackSet (set : World K V → Delegable → Except Fault (Bool × World K V))
    (w : World K V) (self : Delegable) (key : Option K) (val : V) :
    Except Fault (Fallback Unit × World K V) :=
  match self with
  | .table a =>
    match w.next a with
    | none => w.setByMetaMethod env vm self key val
    | some d => do
      match ← set w (.table d) with
      | (true, w) => .ok (.ok (), w)
      | (false, w) => w.setByMetaMethod env vm self key val
  | .userdata _ => w.setByMetaMethod env vm self key val

/-- `SQVM::Set` on a table or a userdata: whether it succeeds. -/
def set : Nat → World K V → Delegable → Option K → V → Int → Except Fault (Bool × World K V)
  | 0, _, _, _, _, _ => .error .recursion
  | fuel + 1, w, self, key, val, selfidx => do
    match ← w.setOwn env self key val with
    | (true, w) => .ok (true, w)
    | (false, w) =>
      match ← w.fallBackSet env vm (fun w d => set fuel w d key val dontFallBack) self key val with
      | (.ok (), w) => .ok (true, w)
      | (.error, w) => .ok (false, w)
      | (.noMatch, w) =>
        if selfidx = 0 then w.setOwn env (.table vm.roottable) key val else .ok (false, w)

end World

end Access

end Sqnim.Table
