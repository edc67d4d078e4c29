import Sqnim.Gc.Collectable

/-!
# CollectGarbage

What `Finalize`, `Release` and the destructors of the collectable objects do with the references
that these hold, and the collector on top of them. An object whose last reference goes releases what it
holds, as deep as that leads. Release hooks are left out; strings and weak references hold no
collectable object.
-/
namespace Sqnim.Gc

open Sqnim.Object Sqnim.Lib.DoublyLinked

/-- What giving up references is made of. -/
inductive Action where
  /-- `__Release` or `__ObjRelease` -/
  | drop (a : Addr)
  /-- `CloseOuters` moves a value from the stack into a variable. -/
  | close (p : Addr) (value : SQObject)
  deriving DecidableEq

def dropAll (os : List SQObject) : List Action := (markObjects os).map .drop

def dropPointer (p : Option Addr) : List Action := p.toList.map .drop

/-- `CloseOuters(&_stack._vals[0])` -/
def closeOuters (stack : List SQObject) (openouters : List (Addr × Nat)) : List Action :=
  openouters.flatMap fun (p, idx) => [.close p (stack.getD idx .ofNull), .drop p]

namespace SQCollectable

def nulls (os : List SQObject) : List SQObject := os.map fun _ => .ofNull

def nullPairs (ps : List (SQObject × SQObject)) : List (SQObject × SQObject) :=
  ps.map fun _ => (.ofNull, .ofNull)

/-- What `Finalize` gives up, in its order. -/
def finalizes : SQCollectable → List Action
  | .thread lasterror errorhandler debughookClosure roottable tempReg stack callsstack openouters =>
    closeOuters stack openouters ++
      dropAll [roottable, lasterror, errorhandler, debughookClosure, tempReg] ++
      dropAll callsstack ++ dropAll stack
  | .array values => dropAll values
  | .table delegate nodes => dropAll (pairs nodes) ++ dropPointer delegate
  | .cls members base attributes defaultvalues methods metamethods =>
    dropAll [attributes] ++ dropAll (pairs defaultvalues) ++
      dropAll (pairs (methods.map Prod.swap)) ++ dropAll metamethods ++ dropPointer members ++
      dropPointer base
  | .inst c values => dropPointer c ++ dropAll values
  | .generator stack clos _ => dropAll stack ++ dropAll [clos]
  | .funcproto literals _ => dropAll literals
  | .closure _ _ outervalues defaultparams => dropAll outervalues ++ dropAll defaultparams
  | .nativeclosure outervalues => dropAll outervalues
  | .outer value => dropAll value.toList
  | .userdata delegate => dropPointer delegate

/-- The object after `Finalize`. -/
def finalized : SQCollectable → SQCollectable
  | .thread _ _ _ _ _ stack _ _ =>
    .thread .ofNull .ofNull .ofNull .ofNull .ofNull (nulls stack) [] []
  | .array _ => .array []
  | .table _ nodes => .table none (nullPairs nodes)
  | .cls _ _ _ defaultvalues _ metamethods =>
    .cls none none .ofNull (nullPairs defaultvalues) [] (nulls metamethods)
  | .inst _ values => .inst none (nulls values)
  | .generator _ _ ciClosure => .generator [] .ofNull ciClosure
  | .funcproto literals functions => .funcproto (nulls literals) functions
  | .closure base function outervalues defaultparams =>
    .closure base function (nulls outervalues) (nulls defaultparams)
  | .nativeclosure outervalues => .nativeclosure (nulls outervalues)
  | .outer value => .outer (value.map fun _ => .ofNull)
  | .userdata _ => .userdata none

/-- What `Release` gives up before the destructor takes the object off the chain. -/
def before : SQCollectable → List Action
  | c@(.thread ..) => c.finalizes
  | .table delegate _ => dropPointer delegate
  | .funcproto literals functions => dropAll literals ++ dropAll functions
  | .closure base function outervalues defaultparams =>
    dropAll outervalues ++ dropAll defaultparams ++ [.drop function] ++ dropPointer base
  | .nativeclosure outervalues => dropAll outervalues
  | _ => []

/-- What the destructor gives up after that. -/
def after : SQCollectable → List Action
  | .array values => dropAll values
  | .table _ nodes => dropAll (pairs nodes)
  | c@(.cls ..) => c.finalizes
  | c@(.inst ..) => c.finalizes
  | .generator stack clos ciClosure => dropAll [ciClosure] ++ dropAll stack ++ dropAll [clos]
  | .outer value => dropAll value.toList
  | .userdata delegate => dropPointer delegate
  | _ => []

end SQCollectable

/-- The state of the sweep: the reference counts without the mark, and the objects that have been
freed, the last one first. -/
structure Sweep where
  ss : SQSharedState
  refs : Addr → Nat
  freed : List Addr

namespace Sweep

def setObject (p : Addr) (c : SQCollectable) (s : Sweep) : Sweep :=
  { s with ss := { s.ss with objects := Function.update s.ss.objects p c } }

/-- `_uiRef++` -/
def addRef (a : Addr) (s : Sweep) : Sweep :=
  { s with refs := Function.update s.refs a (s.refs a + 1) }

def addRefs (as : List Addr) (s : Sweep) : Sweep := as.foldl (fun s a => s.addRef a) s

/-- `--_uiRef` -/
def unref (a : Addr) (s : Sweep) : Sweep :=
  { s with refs := Function.update s.refs a (s.refs a - 1) }

@[simp] theorem addRef_self (a : Addr) (s : Sweep) : (s.addRef a).refs a = s.refs a + 1 :=
  Function.update_self ..

theorem addRef_of_ne {a b : Addr} (h : b ≠ a) (s : Sweep) : (s.addRef a).refs b = s.refs b :=
  Function.update_of_ne h ..

@[simp] theorem unref_self (a : Addr) (s : Sweep) : (s.unref a).refs a = s.refs a - 1 :=
  Function.update_self ..

theorem unref_of_ne {a b : Addr} (h : b ≠ a) (s : Sweep) : (s.unref a).refs b = s.refs b :=
  Function.update_of_ne h ..

def removeFromChain (a : Addr) (s : Sweep) : Sweep := { s with ss := s.ss.removeFromChain a }

def free (a : Addr) (s : Sweep) : Sweep := { s with freed := a :: s.freed }

/-- One action, where `drop` gives up a reference. The variable that is closed gives up its old
value. -/
def act (drop : Addr → Sweep → Option Sweep) (x : Action) (s : Sweep) : Option Sweep :=
  match x with
  | .drop a => drop a s
  | .close p value =>
    match s.ss.objects p with
    | .outer old =>
      (markObjects old.toList).foldlM (fun s a => drop a s)
        ((s.setObject p (.outer (some value))).addRefs (markObjects [value]))
    | _ => none

def actAll (drop : Addr → Sweep → Option Sweep) (xs : List Action) (s : Sweep) : Option Sweep :=
  xs.foldlM (fun s x => act drop x s) s

/-- Give up one reference: with the last one the object is released. The mark is a bit of the count,
so that a marked object never is. There is no result where a count would fall below zero. -/
def drop : Nat → Addr → Sweep → Option Sweep
  | 0, _, _ => none
  | depth + 1, a, s =>
    if s.refs a = 0 then none
    else if (s.unref a).refs a = 0 ∧ s.ss.marked a = false then do
      let s ← actAll (drop depth) (s.ss.objects a).before (s.unref a)
      let c := s.ss.objects a
      let s ← actAll (drop depth) c.after (s.removeFromChain a)
      pure (s.free a)
    else some (s.unref a)

/-- One turn of the loop of `CollectGarbage`. -/
def turn (depth : Nat) (t : Addr) (s : Sweep) : Option (Option Addr × Sweep) := do
  let s ← actAll (drop depth) (s.ss.objects t).finalizes
    (s.setObject t (s.ss.objects t).finalized)
  let nx := s.ss.links.next t
  let s ← drop depth t (s.addRefs nx.toList)
  pure (nx, s)

/-- The loop, from the object `t` on, which is held by one reference more; `n` counts its turns. -/
def loop (depth : Nat) : Nat → Option Addr → Nat → Sweep → Option (Nat × Sweep)
  | _, none, n, s => some (n, s)
  | 0, some _, _, _ => none
  | fuel + 1, some t, n, s => do
    let (nx, s) ← turn depth t s
    loop depth fuel nx (n + 1) s

end Sweep

namespace SQSharedState

/-- `CollectGarbage`: the number of turns, and what is left. -/
def collectGarbage (fuel : Nat) (refs : Addr → Nat) (ss : SQSharedState) :
    Option (Nat × Sweep) := do
  let m ← ss.runMark fuel
  let t := m.ss.gcChain
  let (n, s) ← Sweep.loop fuel fuel t 0 (Sweep.addRefs t.toList ⟨m.ss, refs, []⟩)
  let ss ← unMarkLoop fuel m.tchain s.ss
  pure (n, { s with ss := { ss with gcChain := m.tchain } })

end SQSharedState
end Sqnim.Gc
