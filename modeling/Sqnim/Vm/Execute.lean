import Sqnim.Vm.Arith
import Sqnim.Vm.Compare

/-!
# SQVM::Execute

The instructions of the interpreter loop, the four ways into it and `exception_trap`. The functions
that `Execute` calls are fields of `ExecEnv`; they may change the machine in any way and report
success or failure.
-/
namespace Sqnim.Vm

open Sqnim.Lib Sqnim.Object Sqnim.Compiler
open SQObjectType
open Compare (isFalse isEqual)
open Prog (raise gets update when)

variable {ρ : Type}

instance : Inhabited SQInstruction := ⟨.make .opLine []⟩

/-- Whether `Get` may call metamethods and raise an error. -/
inductive GetFlags where
  | normal
  | rawDoNotRaise
  deriving DecidableEq, Repr

inductive SQMetaMethod where
  | mtUnm | mtCall | mtNexti
  deriving DecidableEq, Repr

/-- What `CallNative` returns beside success. `_SUSPEND_FLAG` and `_TAILCALL_FLAG` are told apart;
a tail call sets no `retval`. -/
structure NativeReturn where
  retval : Option SQObject
  suspend : Bool
  tailcall : Bool
  deriving Inhabited

/-- Creation of an instance leaves the constructor, or null, in its out-parameter. -/
structure NewInstance where
  inst : SQObject
  constructor : SQObject
  deriving Inhabited

structure ExecEnv (ρ : Type) extends ArithEnv ρ where
  instructionAt : Machine ρ → Int → SQInstruction
  literal : Machine ρ → Int → SQObject
  isGeneratorFunction : Machine ρ → SQObject → Bool
  outerOf : Machine ρ → Int → Addr
  rootOf : Machine ρ → SQObject
  baseOf : Machine ρ → SQObject
  get : SQObject → SQObject → GetFlags → Int → Call ρ SQObject
  set : SQObject → SQObject → SQObject → Int → Call ρ Unit
  newSlot : SQObject → SQObject → SQObject → Bool → Call ρ Unit
  newSlotA : SQObject → SQObject → SQObject → SQObject → Bool → Bool → Call ρ Unit
  deleteSlot : SQObject → SQObject → Call ρ SQObject
  clone : SQObject → Call ρ SQObject
  typeOf : SQObject → Call ρ SQObject
  objCmp : SQObject → SQObject → Call ρ Int
  floatNeg : BitVec 32 → BitVec 32
  startCall : SQObject → Int → Int → Int → Bool → Call ρ Unit
  callNative : SQObject → Int → Int → Int → Call ρ NativeReturn
  createClassInstance : SQObject → Call ρ NewInstance
  call : SQObject → Int → Int → Call ρ SQObject
  callMetaMethod : SQObject → Int → Call ρ SQObject
  /-- The metamethod of an object that has a delegate, if there is one. -/
  getMetaMethod : Machine ρ → SQObject → SQMetaMethod → Option SQObject
  hasDelegate : Machine ρ → SQObject → Bool
  /-- `Next` of a table, an array, a string or a class: the key, the value and the next position. -/
  next : Machine ρ → SQObject → SQObject → Option (SQObject × SQObject × Int)
  createTable : Int → Machine ρ → SQObject × Machine ρ
  createArray : Int → Machine ρ → SQObject × Machine ρ
  appendArray : SQObject → SQObject → Machine ρ → Machine ρ
  createClass : Option SQObject → Machine ρ → SQObject × Machine ρ
  inheritedMetaMethod : Machine ρ → SQObject → SQObject
  setAttributes : SQObject → SQObject → Machine ρ → Machine ρ
  instanceOf : Machine ρ → SQObject → SQObject → Bool
  /-- `CLOSURE_OP` up to the bound environment: a closure of the `i`-th inner function. -/
  createClosure : Int → Machine ρ → SQObject × Machine ρ
  bindEnv : SQObject → SQObject → Machine ρ → Machine ρ
  notifyAllExceptions : Machine ρ → Bool
  callErrorHandler : SQObject → Machine ρ → Machine ρ
  deriving Inhabited

/-- What an instruction leaves to the loop: the next instruction, or `return true` with `outres`. -/
inductive Control where
  | next
  | finish (outres : SQObject)
  deriving DecidableEq, Repr

def continue' : Exec ρ Control := pure .next

/-- `ci->_ip += d`. -/
def jump (d : Int) : Exec ρ Unit := modify (·.updateCi fun c => { c with ip := c.ip + d })

def setTempReg (v : SQObject) : Exec ρ Unit :=
  modify fun m => { m with vm := { m.vm with tempReg := v } }

def addTraps (d : Int) : Exec ρ Unit := update fun s => { s with traps := s.traps + d }

def setTop (f : SQVM → Int) : Exec ρ Unit := modify fun m => { m with vm := { m.vm with top := f m.vm } }

/-- An assertion. -/
def assertThat (c : Prop) [Decidable c] : Exec ρ Unit := when (¬c) (raise .undefined)

/-- `_GUARD` of a function that is called on the machine. -/
def guarded (op : Operation) (f : Call ρ α) : Exec ρ α := do
  let r ← invoke op f
  guard r

/-- Run a function that cannot fail. -/
def perform (f : Machine ρ → SQObject × Machine ρ) : Exec ρ SQObject := do
  let (v, m) ← gets fun s => f s.machine
  modify fun _ => m
  pure v

/-- `STK(a) = v`, unless the result is not wanted. -/
def setStkUnless (none : Prop) [Decidable none] (a : Int) (v : SQObject) : Exec ρ Unit :=
  when (¬none) (setStk a v)

/-- `SQObjectPtr` from an operand that is a signed integer. -/
def ofInt (n : Int) : SQObject := .ofInteger (BitVec.ofInt 64 n)

def sarg (n : Int) : Int := Int.bmod n 256

section
variable (env : ExecEnv ρ)

def literal (i : Int) : Exec ρ SQObject := gets fun s => env.literal s.machine i

/-! ## Operators -/

def bwIntegers (op : Int) (i1 i2 : BitVec 64) : Exec ρ (Option (BitVec 64)) :=
  if op = bwAnd then pure (some (i1 &&& i2))
  else if op = bwOr then pure (some (i1 ||| i2))
  else if op = bwXor then pure (some (i1 ^^^ i2))
  else if op = bwShiftl ∨ op = bwShiftr ∨ op = bwUshiftr then
    -- C++ does not define a shift by 64 or more, which includes every negative count
    if 64 ≤ i2.toNat then raise .undefined
    else if op = bwShiftl then pure (some (i1 <<< i2.toNat))
    else if op = bwShiftr then pure (some (i1.sshiftRight i2.toNat))
    else pure (some (i1 >>> i2.toNat))
  else do
    raiseError env.toPlatform "internal vm error bitwise op failed"
    pure none

def bwResult (op : Int) (o1 o2 : SQObject) : Exec ρ (Option SQObject) :=
  if tmask o1 o2 = .integers then do
    let res ← bwIntegers env op o1.unVal o2.unVal
    pure (res.map SQObject.ofInteger)
  else do
    raiseError env.toPlatform
      s!"bitwise op between '{env.typeName o1}' and '{env.typeName o2}'"
    pure none

def bwOp (op : Int) (o1 o2 : SQObject) : Exec ρ (Option SQObject) := do
  let res ← bwResult env op o1 o2
  returned .bwOp res

def negError (o : SQObject) : Exec ρ (Option SQObject) := do
  raiseError env.toPlatform s!"attempt to negate a {env.typeName o}"
  pure none

def negMetaMethod (o : SQObject) : Exec ρ (Option SQObject) := do
  let mm ← gets fun s => env.getMetaMethod s.machine o .mtUnm
  match mm with
  | none => negError env o
  | some closure => do
    modify (·.push o)
    invoke .callMetaMethod (env.callMetaMethod closure 1)

def negResult (o : SQObject) : Exec ρ (Option SQObject) :=
  match o.type with
  | otInteger => pure (some (.ofInteger (-o.unVal)))
  | otFloat => pure (some (.ofFloat (env.floatNeg o.floatBits)))
  | otTable | otUserData | otInstance => negMetaMethod env o
  | _ => negError env o

def negOp (o : SQObject) : Exec ρ (Option SQObject) := do
  let res ← negResult env o
  returned .negOp res

def cmpValue (op r : Int) : Exec ρ (Option SQObject) :=
  if op = cmpG then pure (some (.ofBool (decide (r > 0))))
  else if op = cmpGe then pure (some (.ofBool (decide (r ≥ 0))))
  else if op = cmpL then pure (some (.ofBool (decide (r < 0))))
  else if op = cmpLe then pure (some (.ofBool (decide (r ≤ 0))))
  else if op = cmp3w then pure (some (ofInt r))
  else raise .undefined

def cmpResult (op : Int) (o1 o2 : SQObject) : Exec ρ (Option SQObject) := do
  let r ← invoke .cmpOp (env.objCmp o1 o2)
  match r with
  | none => pure none
  | some r => cmpValue op r

def cmpOp (op : Int) (o1 o2 : SQObject) : Exec ρ (Option SQObject) := do
  let res ← cmpResult env op o1 o2
  returned .cmpOp res

/-- The number that `_OP_CMP` has for an operator. -/
def Compare.CmpOP.code : Compare.CmpOP → Int
  | .cmpG => Compiler.cmpG
  | .cmpGE => Compiler.cmpGe
  | .cmpL => Compiler.cmpL
  | .cmpLE => Compiler.cmpLe
  | .cmp3W => Compiler.cmp3w

/-- Where `ObjCmp` answers as it does on values alone, `CMP_OP` comes to the same as there. -/
theorem run_cmpOp {values : Compare.Env} {o1 o2 : SQObject} {s : Activation ρ}
    (h : (env.objCmp o1 o2 s.machine).1 = (Compare.objCmp values o1 o2).toOption)
    (op : Compare.CmpOP) :
    (Prog.run (cmpOp env op.code o1 o2) s).1 = .ok (Compare.cmpOp values op o1 o2).toOption := by
  have hinvoke : Prog.run (invoke .cmpOp (env.objCmp o1 o2)) s =
      (.ok (env.objCmp o1 o2 s.machine).1,
        { s with machine := (env.objCmp o1 o2 s.machine).2 }) := rfl
  simp only [cmpOp, cmpResult, Prog.run_bind, hinvoke, h, Compare.cmpOp]
  cases hcmp : Compare.objCmp values o1 o2 with
  | error e => rfl
  | ok r => cases op <;> rfl

/-- `PLOCAL_INC` of `STK(arg1)`, whose old value goes to `TARGET`. -/
def plocalInc (arg0 arg1 : Int) (incr : SQObject) : Exec ρ (Option Unit) := do
  let a ← stk arg1
  let res ← arithOp env.toArithEnv '+'.toNat a incr
  match res with
  | none => returned .plocalInc none
  | some v => do
    let a ← stk arg1
    setStk arg0 a
    setStk arg1 v
    returned .plocalInc (some ())

/-- What `DerefInc` stores in `target` and in the slot of `self`. -/
def derefIncStore (arg0 : Int) (self key tmp : SQObject) (isPostfix : Bool) (selfidx : Int)
    (res : Option SQObject) : Exec ρ (Option Unit) :=
  match res with
  | none => pure none
  | some v => do
    setStk arg0 v
    let ok ← invoke .set (env.set self key v selfidx)
    when (ok.isSome ∧ isPostfix) (setStk arg0 tmp)
    pure ok

def derefIncBody (op arg0 : Int) (self key : SQObject) (incr : Exec ρ SQObject) (isPostfix : Bool)
    (selfidx : Int) : Exec ρ (Option Unit) := do
  let tmp ← invoke .get (env.get self key .normal selfidx)
  match tmp with
  | none => pure none
  | some tmp => do
    let incr ← incr
    let res ← arithOp env.toArithEnv op tmp incr
    derefIncStore env arg0 self key tmp isPostfix selfidx res

/-- `DerefInc`; `incr` is read when `ARITH_OP` is called. -/
def derefInc (op arg0 : Int) (self key : SQObject) (incr : Exec ρ SQObject) (isPostfix : Bool)
    (selfidx : Int) : Exec ρ (Option Unit) := do
  let ok ← derefIncBody env op arg0 self key incr isPostfix selfidx
  returned .derefInc ok

/-! ## Objects -/

def bindError (o : SQObject) : Exec ρ (Option SQObject) := do
  raiseError env.toPlatform s!"cannot bind a {Compare.typeName o.type} as environment object"
  pure none

def canBind (t : SQObjectType) : Bool :=
  t == otTable || t == otClass || t == otInstance || t == otArray

def closureBind (closure : SQObject) (boundtarget : Int) : Exec ρ (Option SQObject) :=
  if boundtarget = 0xFF then pure (some closure)
  else do
    let val ← stk boundtarget
    if canBind val.type then do
      modify (env.bindEnv closure val)
      pure (some closure)
    else bindError env val

def closureOp (i boundtarget : Int) : Exec ρ (Option SQObject) := do
  let closure ← perform (env.createClosure i)
  let res ← closureBind env closure boundtarget
  returned .closureOp res

/-- The call of `_inherited`. The arguments are popped whether it succeeds or not. -/
def callInherited (mm attrs target : SQObject) : Exec ρ (Option Unit) := do
  modify fun m => (m.push target).push attrs
  let top ← gets fun s => s.machine.vm.top
  let r ← invoke .call (env.call mm 2 (top - 2))
  modify (Machine.popN 2)
  pure (r.map fun _ => ())

/-- `CLASS_OP` from the creation of the class on. -/
def createClassOp (arg0 : Int) (base : Option SQObject) (attrs : SQObject) :
    Exec ρ (Option Unit) := do
  let target ← perform (env.createClass base)
  setStk arg0 target
  let mm ← gets fun s => env.inheritedMetaMethod s.machine target
  let ok ← if mm.type = otNull then pure (some ()) else callInherited env mm attrs target
  when ok.isSome (modify (env.setAttributes target attrs))
  pure ok

def classAttributes (attributes : Int) : Exec ρ SQObject :=
  if attributes = maxFuncStacksize then pure .ofNull else stk attributes

def classBody (arg0 baseclass attributes : Int) : Exec ρ (Option Unit) :=
  if baseclass = -1 then do
    let attrs ← classAttributes attributes
    createClassOp env arg0 none attrs
  else do
    let base ← stk baseclass
    if base.type = otClass then do
      let attrs ← classAttributes attributes
      createClassOp env arg0 (some base) attrs
    else do
      raiseError env.toPlatform s!"trying to inherit from a {env.typeName base}"
      pure none

def classOp (arg0 baseclass attributes : Int) : Exec ρ (Option Unit) := do
  let ok ← classBody env arg0 baseclass attributes
  returned .classOp ok

/-! ## Generators -/

/-- `Resume`; `target` is the offset of `dest` from the base of the frame. It is asserted to be near
the base after a dead or running generator has been refused. -/
def resume (g : Addr) (target : Int) : Exec ρ (Option Unit) := do
  let state ← gets fun s => (s.machine.heap.generators g).state
  when (state = .eSuspended) (assertThat (0 ≤ target ∧ target ≤ 255))
  invoke .resume (fun m => m.resumeGenerator env.toPlatform g target)

def generatorState (g : SQObject) : Exec ρ SQGeneratorState :=
  gets fun s => (s.machine.heap.generators g.unVal).state

/-- The number of traps in the current frame. -/
def frameTraps : Exec ρ Int := gets fun s => (s.machine.ci.map CallInfo.etraps).getD 0

/-! ## foreach

The operands of `FOREACH_OP` are slots: `o1` is `STK(arg0)`, and `o2`, `o3` and `o4` are `STK(arg2)`
and the two slots after it. -/

def storeNext (arg2 exitpos : Int) : Option (SQObject × SQObject × Int) → Exec ρ (Option Int)
  | none => pure (some exitpos)
  | some (key, val, nrefidx) => do
    setStk arg2 key
    setStk (arg2 + 1) val
    setStk (arg2 + 2) (ofInt nrefidx)
    pure (some 1)

def iterateNext (arg2 : Int) (o1 : SQObject) (exitpos : Int) : Exec ρ (Option Int) := do
  let o4 ← stk (arg2 + 2)
  let r ← gets fun s => env.next s.machine o1 o4
  storeNext arg2 exitpos r

/-- What follows a call of `_nexti` that returned `itr`. -/
def iterateItr (arg2 : Int) (o1 itr : SQObject) (exitpos : Int) : Exec ρ (Option Int) := do
  setStk arg2 itr
  setStk (arg2 + 2) itr
  if itr.type = otNull then pure (some exitpos)
  else do
    let v ← invoke .get (env.get o1 itr .normal dontFallBack)
    match v with
    | none => do
      raiseError env.toPlatform "_nexti returned an invalid idx"
      pure none
    | some v => do
      setStk (arg2 + 1) v
      pure (some 1)

def iterateMetaMethod (arg2 : Int) (o1 : SQObject) (exitpos : Int) : Exec ρ (Option Int) := do
  let mm ← gets fun s => env.getMetaMethod s.machine o1 .mtNexti
  match mm with
  | none => do
    raiseError env.toPlatform "_nexti failed"
    pure none
  | some closure => do
    let o4 ← stk (arg2 + 2)
    modify fun m => (m.push o1).push o4
    let itr ← invoke .callMetaMethod (env.callMetaMethod closure 2)
    match itr with
    | none => pure none
    | some itr => iterateItr env arg2 o1 itr exitpos

def iterateDelegable (arg2 : Int) (o1 : SQObject) (exitpos : Int) : Exec ρ (Option Int) := do
  let delegate ← gets fun s => env.hasDelegate s.machine o1
  if delegate then iterateMetaMethod env arg2 o1 exitpos else pure none

def cannotIterate (o1 : SQObject) : Exec ρ (Option Int) := do
  raiseError env.toPlatform s!"cannot iterate {env.typeName o1}"
  pure none

/-- The position of the value that a generator is resumed for. -/
def generatorPosition (o4 : SQObject) : SQObject :=
  if o4.type = otInteger then .ofInteger (o4.unVal + 1) else ofInt 0

/-- The generator is resumed for `o3`, whatever `Resume` returns. -/
def iterateSuspended (arg2 : Int) (o1 : SQObject) : Exec ρ (Option Int) := do
  let o4 ← stk (arg2 + 2)
  setStk arg2 (generatorPosition o4)
  setStk (arg2 + 2) (generatorPosition o4)
  let _ ← resume env o1.unVal (arg2 + 1)
  pure (some 0)

def iterateGenerator (arg2 : Int) (o1 : SQObject) (exitpos : Int) : Exec ρ (Option Int) := do
  let state ← generatorState o1
  match state with
  | .eDead => pure (some exitpos)
  | .eSuspended => iterateSuspended env arg2 o1
  | .eRunning => cannotIterate env o1

def foreachBody (arg2 : Int) (o1 : SQObject) (exitpos : Int) : Exec ρ (Option Int) :=
  match o1.type with
  | otTable | otArray | otString | otClass => iterateNext env arg2 o1 exitpos
  | otUserData | otInstance => iterateDelegable env arg2 o1 exitpos
  | otGenerator => iterateGenerator env arg2 o1 exitpos
  | _ => cannotIterate env o1

/-- `FOREACH_OP`, which returns how far to jump. -/
def foreachOp (arg2 : Int) (o1 : SQObject) (exitpos : Int) : Exec ρ (Option Int) := do
  let r ← foreachBody env arg2 o1 exitpos
  returned .foreachOp r

/-! ## Calls -/

/-- A native call that suspended the thread ends `Execute`. -/
def suspendCall (sarg0 : Int) (clo : SQObject) : Exec ρ Control := do
  update fun s => { s with machine := { s.machine with vm := { s.machine.vm with
    suspended := true
    suspendedTarget := sarg0
    suspendedRoot := (s.machine.ci.map CallInfo.root).getD false
    suspendedTraps := s.traps } } }
  pure (.finish clo)

def callNativeOp (arg0 arg2 arg3 : Int) (clo : SQObject) : Exec ρ Control := do
  let base ← gets fun s => s.machine.vm.stackbase
  let r ← guarded .callNative (env.callNative clo arg3 (base + arg2) (sarg arg0))
  let retval := r.retval.getD clo
  if r.suspend then suspendCall (sarg arg0) retval
  else do
    setStkUnless (sarg arg0 = -1 ∨ r.tailcall) arg0 retval
    continue'

/-- The call of the constructor, whose `this` is the instance. -/
def callConstructor (arg2 arg3 : Int) (inst clo : SQObject) : Exec ρ Unit := do
  let base ← gets fun s => s.machine.vm.stackbase
  match clo.type with
  | otClosure => do
    setStk arg2 inst
    guarded .startCall (env.startCall clo (-1) arg3 (base + arg2) false)
  | otNativeClosure => do
    setStk arg2 inst
    let _ ← guarded .callNative (env.callNative clo arg3 (base + arg2) (-1))
  | _ => pure ()

def callClassOp (arg0 arg2 arg3 : Int) (clo : SQObject) : Exec ρ Control := do
  let r ← guarded .createClassInstance (env.createClassInstance clo)
  setStkUnless (sarg arg0 = -1) arg0 r.inst
  callConstructor env arg2 arg3 r.inst r.constructor
  continue'

def attemptToCall (clo : SQObject) : Exec ρ Control :=
  raiseAndThrow env.toPlatform s!"attempt to call '{env.typeName clo}'"

/-- The slots from `arg2` on are pushed. -/
def pushArguments (arg2 : Int) : Nat → Int → Exec ρ Unit
  | 0, _ => pure ()
  | n + 1, i => do
    let v ← stk (arg2 + i)
    modify (·.push v)
    pushArguments arg2 n (i + 1)

def callDelegableOp (arg0 arg2 arg3 : Int) (clo : SQObject) : Exec ρ Control := do
  let mm ← gets fun s => env.getMetaMethod s.machine clo .mtCall
  match mm with
  | none => attemptToCall env clo
  | some closure => do
    modify (·.push clo)
    pushArguments arg2 arg3.toNat 0
    let v ← guarded .callMetaMethod (env.callMetaMethod closure (arg3 + 1))
    setStkUnless (sarg arg0 = -1) arg0 v
    continue'

/-- `switch(sq_type(clo))` -/
def callValue (arg0 arg2 arg3 : Int) (clo : SQObject) : Exec ρ Control :=
  match clo.type with
  | otClosure => do
    let base ← gets fun s => s.machine.vm.stackbase
    guarded .startCall (env.startCall clo (sarg arg0) arg3 (base + arg2) false)
    continue'
  | otNativeClosure => callNativeOp env arg0 arg2 arg3 clo
  | otClass => callClassOp env arg0 arg2 arg3 clo
  | otTable | otUserData | otInstance => callDelegableOp env arg0 arg2 arg3 clo
  | _ => attemptToCall env clo

/-- `_OP_CALL` -/
def callOp (arg0 arg1 arg2 arg3 : Int) : Exec ρ Control := do
  let clo ← stk arg1
  callValue env arg0 arg2 arg3 clo

/-- The arguments become the first slots of the frame. -/
def moveArguments (arg2 : Int) : Nat → Int → Exec ρ Unit
  | 0, _ => pure ()
  | n + 1, i => do
    let v ← stk (arg2 + i)
    setStk i v
    moveArguments arg2 n (i + 1)

/-- `_OP_TAILCALL` of a closure that makes no generator. -/
def tailcallClosure (arg2 arg3 : Int) (clo : SQObject) : Exec ρ Control := do
  let lastTop ← gets fun s => s.machine.vm.top
  modify fun m => m.closeOuters m.vm.stackbase
  moveArguments arg2 arg3.toNat 0
  let target ← gets fun s => (s.machine.ci.map CallInfo.target).getD (-1)
  let base ← gets fun s => s.machine.vm.stackbase
  guarded .startCall (env.startCall clo target arg3 base true)
  setTop fun vm => if vm.top ≤ lastTop then lastTop else vm.top
  continue'

def tailcallOp (arg0 arg1 arg2 arg3 : Int) : Exec ρ Control := do
  let t ← stk arg1
  let generator ← gets fun s => env.isGeneratorFunction s.machine t
  if t.type = otClosure ∧ generator = false then tailcallClosure env arg2 arg3 t
  else callOp env arg0 arg1 arg2 arg3

/-! ## Leaving a frame -/

/-- `Return`; the loop ends where it returns true, and every trap has been popped there. -/
def returnOp (arg0 arg1 : Int) : Exec ρ Control := do
  let retval ← gets fun s => s.machine.vm.tempReg
  let (root, retval, m) ← gets fun s => s.machine.returnFrame env.toPlatform arg0 arg1 retval
  modify fun _ => m
  setTempReg retval
  if root then do
    let traps ← gets fun s => s.traps
    assertThat (traps = 0)
    pure (.finish retval)
  else continue'

def killOwnGenerator : Exec ρ Unit := modify fun m =>
  match m.ci.bind CallInfo.generator with
  | some g => m.killGenerator g
  | none => m

/-- The frame is saved in its generator and left. -/
def yieldFrame (arg0 arg1 arg2 : Int) (g : Addr) : Exec ρ Control := do
  let v ← stk arg1
  when (arg1 ≠ maxFuncStacksize) (setTempReg v)
  modify fun m => m.closeOuters m.vm.stackbase
  guarded .yield (fun m => m.yieldGenerator env.toPlatform g arg2)
  let n ← frameTraps
  addTraps (-n)
  let saved ← gets fun s => s.machine.vm.tempReg
  let nulled ← stk arg1
  when (arg1 ≠ maxFuncStacksize) (do
    setStk arg1 saved
    setTempReg nulled)
  returnOp env arg0 arg1

/-- `_OP_YIELD` -/
def yieldOp (arg0 arg1 arg2 : Int) : Exec ρ Control := do
  let generator ← gets fun s => s.machine.ci.bind CallInfo.generator
  match generator with
  | some g => yieldFrame env arg0 arg1 arg2 g
  | none =>
    -- the error message is formatted from the null generator, whose assertion fails
    raise .undefined

/-- `_OP_RESUME` -/
def resumeOp (arg0 arg1 : Int) : Exec ρ Control := do
  let g ← stk arg1
  if g.type = otGenerator then do
    let ok ← resume env g.unVal arg0
    guard ok
    let n ← frameTraps
    addTraps n
    continue'
  else
    raiseAndThrow env.toPlatform
      s!"trying to resume a '{env.typeName g}',only genenerator can be resumed"

/-! ## Traps -/

/-- `_OP_PUSHTRAP` -/
def pushTrap (arg0 arg1 : Int) : Exec ρ Control := do
  modify fun m =>
    let ip := (m.ci.map CallInfo.ip).getD 0 + arg1
    { m with vm := { m.vm with etraps :=
      { stacksize := m.vm.top, stackbase := m.vm.stackbase, ip, extarget := arg0 } ::
        m.vm.etraps } }
  addTraps 1
  modify (·.updateCi fun c => { c with etraps := c.etraps + 1 })
  continue'

/-- `_OP_POPTRAP` -/
def popTraps (arg0 : Int) : Exec ρ Control := do
  modify fun m => { m with vm := { m.vm with etraps := m.vm.etraps.drop arg0.toNat } }
  addTraps (-arg0)
  modify (·.updateCi fun c => { c with etraps := c.etraps - arg0 })
  continue'

/-! ## The switch -/

/-- The result of an arithmetic macro goes to `TARGET`. -/
def storeTarget (arg0 : Int) (v : Exec ρ SQObject) : Exec ρ Control := do
  let v ← v
  setStk arg0 v
  continue'

/-- `_GUARD` of a function that fills `TARGET`. -/
def guardTarget (arg0 : Int) (r : Exec ρ (Option SQObject)) : Exec ρ Control :=
  storeTarget arg0 (r >>= guard)

/-- `_GUARD` of a function that returns nothing else. -/
def guardUnit (r : Exec ρ (Option Unit)) : Exec ρ Control := do
  let r ← r
  guard r
  continue'

/-- The operands of an operator: `STK(arg2)` is on the left. -/
def binary (f : SQObject → SQObject → Exec ρ α) (arg1 arg2 : Int) : Exec ρ α := do
  let o1 ← stk arg2
  let o2 ← stk arg1
  f o1 o2

/-- `_OP_MOD` does not look at what `ARITH_OP` returns. -/
def modOp (arg0 arg1 arg2 : Int) : Exec ρ Control := do
  let r ← binary (arithOp env.toArithEnv '%'.toNat) arg1 arg2
  match r with
  | some v => do
    setStk arg0 v
    continue'
  | none => continue'

/-- `COND_LITERAL` -/
def condLiteral (arg1 arg3 : Int) : Exec ρ SQObject := if arg3 = 0 then stk arg1 else literal env arg1

def equalityOp (arg0 arg1 arg2 arg3 : Int) (negated : Bool) : Exec ρ Control := do
  let o1 ← stk arg2
  let o2 ← condLiteral env arg1 arg3
  setStk arg0 (.ofBool (isEqual o1 o2 != negated))
  continue'

def getOp (arg0 selfidx : Int) (key : Exec ρ SQObject) : Exec ρ Control := do
  let self ← stk selfidx
  let key ← key
  let v ← guarded .get (env.get self key .normal selfidx)
  setStk arg0 v
  continue'

def prepcallOp (arg0 arg2 arg3 : Int) (key : Exec ρ SQObject) : Exec ρ Control := do
  let o ← stk arg2
  let key ← key
  let v ← guarded .get (env.get o key .normal arg2)
  let o ← stk arg2
  setStk arg3 o
  setStk arg0 v
  continue'

def setOp (arg0 arg1 arg2 arg3 : Int) : Exec ρ Control := do
  let self ← stk arg1
  let key ← stk arg2
  let val ← stk arg3
  guarded .set (env.set self key val arg1)
  let val ← stk arg3
  setStkUnless (arg0 = 0xFF) arg0 val
  continue'

def newSlotOp (arg0 arg1 arg2 arg3 : Int) : Exec ρ Control := do
  let self ← stk arg1
  let key ← stk arg2
  let val ← stk arg3
  guarded .newSlot (env.newSlot self key val false)
  let val ← stk arg3
  setStkUnless (arg0 = 0xFF) arg0 val
  continue'

/-- Bits of `arg0` are the flags of `_OP_NEWSLOTA`. -/
def hasFlag (arg0 flag : Int) : Bool := arg0.toNat &&& flag.toNat != 0

def newSlotAOp (arg0 arg1 arg2 arg3 : Int) : Exec ρ Control := do
  let self ← stk arg1
  let key ← stk arg2
  let val ← stk arg3
  let attrs ← stk (arg2 - 1)
  guarded .newSlotA (env.newSlotA self key val
    (if hasFlag arg0 newSlotAttributesFlag then attrs else .ofNull)
    (hasFlag arg0 newSlotStaticFlag) false)
  continue'

def deleteOp (arg0 arg1 arg2 : Int) : Exec ρ Control := do
  let self ← stk arg1
  let key ← stk arg2
  let v ← guarded .deleteSlot (env.deleteSlot self key)
  setStk arg0 v
  continue'

/-- `Get` here neither calls metamethods nor raises an error: false is an answer. -/
def existsOp (arg0 arg1 arg2 : Int) : Exec ρ Control := do
  let self ← stk arg1
  let key ← stk arg2
  let (v, m) ← gets fun s => env.get self key .rawDoNotRaise dontFallBack s.machine
  modify fun _ => m
  setStk arg0 (.ofBool v.isSome)
  continue'

def instanceofOp (arg0 arg1 arg2 : Int) : Exec ρ Control := do
  let cls ← stk arg1
  let o ← stk arg2
  if cls.type = otClass then do
    let r ← gets fun s => o.type == otInstance && env.instanceOf s.machine o cls
    setStk arg0 (.ofBool r)
    continue'
  else
    raiseAndThrow env.toPlatform
      s!"cannot apply instanceof between a {env.typeName cls} and a {env.typeName o}"

/-- `_OP_AND` and `_OP_OR`: the operand decides whether to jump. -/
def shortCircuit (arg0 arg1 arg2 : Int) (jumpIfFalse : Bool) : Exec ρ Control := do
  let o ← stk arg2
  when (isFalse o = jumpIfFalse) (do
    setStk arg0 o
    jump arg1)
  continue'

def bwnotOp (arg0 arg1 : Int) : Exec ρ Control := do
  let o ← stk arg1
  if o.type = otInteger then do
    setStk arg0 (.ofInteger (~~~o.unVal))
    continue'
  else raiseAndThrow env.toPlatform s!"attempt to perform a bitwise op on a {env.typeName o}"

def inclOp (sarg3 arg1 : Int) : Exec ρ Control := do
  let a ← stk arg1
  if a.type = otInteger then do
    setStk arg1 (.ofInteger (a.unVal + BitVec.ofInt 64 sarg3))
    continue'
  else storeTarget arg1 (arithMacro env.toArithEnv '+' (· + ·) a (ofInt sarg3))

def pinclOp (arg0 sarg3 arg1 : Int) : Exec ρ Control := do
  let a ← stk arg1
  if a.type = otInteger then do
    setStk arg0 a
    -- `a` is a reference: where `TARGET` is the same slot it is read again
    let a ← stk arg1
    setStk arg1 (.ofInteger (a.unVal + BitVec.ofInt 64 sarg3))
    continue'
  else guardUnit (plocalInc env arg0 arg1 (ofInt sarg3))

def incOp (arg0 arg1 arg2 sarg3 : Int) (isPostfix : Bool) : Exec ρ Control := do
  let self ← stk arg1
  let key ← stk arg2
  guardUnit (derefInc env '+'.toNat arg0 self key (pure (ofInt sarg3)) isPostfix arg1)

/-- `_OP_COMPARITH`: the upper and the lower half of `arg1` are two slots. -/
def comparithOp (arg0 arg1 arg2 arg3 : Int) : Exec ρ Control := do
  let selfidx := arg1 % 2 ^ 32 / 2 ^ 16
  let self ← stk selfidx
  let key ← stk arg2
  guardUnit (derefInc env arg3 arg0 self key (stk (arg1 % 2 ^ 16)) false selfidx)

def jcmpOp (arg0 arg1 arg2 arg3 : Int) : Exec ρ Control := do
  let o1 ← stk arg2
  let o2 ← stk arg0
  let r ← cmpOp env arg3 o1 o2
  let v ← guard r
  setTempReg v
  when (isFalse v = true) (jump arg1)
  continue'

def jzOp (arg0 arg1 : Int) : Exec ρ Control := do
  let o ← stk arg0
  when (isFalse o = true) (jump arg1)
  continue'

def getOuterOp (arg0 arg1 : Int) : Exec ρ Control := do
  let v ← gets fun s => s.machine.outerValue (s.machine.heap.outers (env.outerOf s.machine arg1))
  setStk arg0 v
  continue'

def setOuterOp (arg0 arg1 arg2 : Int) : Exec ρ Control := do
  let v ← stk arg2
  modify fun m => m.assignOuter (env.outerOf m arg1) v
  let v ← stk arg2
  setStkUnless (arg0 = 0xFF) arg0 v
  continue'

def newobjOp (arg0 arg1 arg2 arg3 : Int) : Exec ρ Control :=
  if arg3 = notTable then storeTarget arg0 (perform (env.createTable arg1))
  else if arg3 = notArray then storeTarget arg0 (perform (env.createArray arg1))
  else if arg3 = notClass then guardUnit (classOp env arg0 arg1 arg2)
  else raise .undefined

/-- The value that `_OP_APPENDARRAY` appends. -/
def appendValue (arg1 arg2 : Int) : Exec ρ SQObject :=
  if arg2 = aatStack then stk arg1
  else if arg2 = aatLiteral then literal env arg1
  else if arg2 = aatInt then pure (ofInt arg1)
  else if arg2 = aatFloat then pure (.ofFloat (BitVec.ofInt 32 arg1))
  else if arg2 = aatBool then pure ⟨otBool, BitVec.ofInt 64 arg1⟩
  else raise .undefined

def appendOp (arg0 arg1 arg2 : Int) : Exec ρ Control := do
  let v ← appendValue env arg1 arg2
  let a ← stk arg0
  modify (env.appendArray a v)
  continue'

def loadRootOp (arg0 : Int) : Exec ρ Control := do
  let v ← gets fun s =>
    let root := env.rootOf s.machine
    if root.type = otNull then s.machine.vm.roottable else root
  setStk arg0 v
  continue'

def foreachInstr (arg0 arg1 arg2 : Int) : Exec ρ Control := do
  let o1 ← stk arg0
  let r ← foreachOp env arg2 o1 arg1
  let tojump ← guard r
  jump tojump
  continue'

def postforeachOp (arg0 arg1 : Int) : Exec ρ Control := do
  let g ← stk arg0
  assertThat (g.type = otGenerator)
  let state ← generatorState g
  when (state = .eDead) (jump (arg1 - 1))
  continue'

def throwOp (arg0 : Int) : Exec ρ Control := do
  let v ← stk arg0
  modify fun m => { m with vm := { m.vm with lasterror := v } }
  throwTrap

def lineOp (arg1 : Int) : Exec ρ Control := do
  modify fun m => if m.vm.debughook then env.callDebugHook 'l' arg1 m else m
  continue'

def returnInstr (arg0 arg1 : Int) : Exec ρ Control := do
  killOwnGenerator
  returnOp env arg0 arg1

/-- `switch(_i_.op)`, with the operands as the instruction encodes them. -/
def switch (op : SQOpcode) (arg0 arg1 arg2 arg3 : Int) : Exec ρ Control :=
  match op with
  | .opLine => lineOp env arg1
  | .opLoad => storeTarget arg0 (literal env arg1)
  | .opLoadint => storeTarget arg0 (pure (ofInt arg1))
  | .opLoadfloat => storeTarget arg0 (pure (.ofFloat (BitVec.ofInt 32 arg1)))
  | .opDload => do
    let _ ← storeTarget arg0 (literal env arg1)
    storeTarget arg2 (literal env arg3)
  | .opTailcall => tailcallOp env arg0 arg1 arg2 arg3
  | .opCall => callOp env arg0 arg1 arg2 arg3
  | .opPrepcall => prepcallOp env arg0 arg2 arg3 (stk arg1)
  | .opPrepcallk => prepcallOp env arg0 arg2 arg3 (literal env arg1)
  | .opGetk => getOp env arg0 arg2 (literal env arg1)
  | .opMove => storeTarget arg0 (stk arg1)
  | .opNewslot => newSlotOp env arg0 arg1 arg2 arg3
  | .opDelete => deleteOp env arg0 arg1 arg2
  | .opSet => setOp env arg0 arg1 arg2 arg3
  | .opGet => getOp env arg0 arg1 (stk arg2)
  | .opEq => equalityOp env arg0 arg1 arg2 arg3 false
  | .opNe => equalityOp env arg0 arg1 arg2 arg3 true
  | .opAdd => storeTarget arg0 (binary (arithMacro env.toArithEnv '+' (· + ·)) arg1 arg2)
  | .opSub => storeTarget arg0 (binary (arithMacro env.toArithEnv '-' (· - ·)) arg1 arg2)
  | .opMul => storeTarget arg0 (binary (arithMacro env.toArithEnv '*' (· * ·)) arg1 arg2)
  | .opDiv => storeTarget arg0 (binary (arithNoZero env.toArithEnv "division by zero") arg1 arg2)
  | .opMod => modOp env arg0 arg1 arg2
  | .opBitw => guardTarget arg0 (binary (bwOp env arg3) arg1 arg2)
  | .opReturn => returnInstr env arg0 arg1
  | .opLoadnulls => do
    modify fun m => m.nullSlots (m.vm.stackbase + arg0) (m.vm.stackbase + arg0 + arg1 - 1)
    continue'
  | .opLoadroot => loadRootOp env arg0
  | .opLoadbool => storeTarget arg0 (pure (.ofBool (arg1 != 0)))
  | .opDmove => do
    let _ ← storeTarget arg0 (stk arg1)
    storeTarget arg2 (stk arg3)
  | .opJmp => do
    jump arg1
    continue'
  | .opJcmp => jcmpOp env arg0 arg1 arg2 arg3
  | .opJz => jzOp arg0 arg1
  | .opGetouter => getOuterOp env arg0 arg1
  | .opSetouter => setOuterOp env arg0 arg1 arg2
  | .opNewobj => newobjOp env arg0 arg1 arg2 arg3
  | .opAppendarray => appendOp env arg0 arg1 arg2
  | .opComparith => comparithOp env arg0 arg1 arg2 arg3
  | .opInc => incOp env arg0 arg1 arg2 (sarg arg3) false
  | .opIncl => inclOp env (sarg arg3) arg1
  | .opPinc => incOp env arg0 arg1 arg2 (sarg arg3) true
  | .opPincl => pinclOp env arg0 (sarg arg3) arg1
  | .opCmp => guardTarget arg0 (binary (cmpOp env arg3) arg1 arg2)
  | .opExists => existsOp env arg0 arg1 arg2
  | .opInstanceof => instanceofOp env arg0 arg1 arg2
  | .opAnd => shortCircuit arg0 arg1 arg2 true
  | .opOr => shortCircuit arg0 arg1 arg2 false
  | .opNeg => guardTarget arg0 (stk arg1 >>= negOp env)
  | .opNot => storeTarget arg0 ((fun o => .ofBool (isFalse o)) <$> stk arg1)
  | .opBwnot => bwnotOp env arg0 arg1
  | .opClosure => guardTarget arg0 (closureOp env arg1 arg2)
  | .opYield => yieldOp env arg0 arg1 arg2
  | .opResume => resumeOp env arg0 arg1
  | .opForeach => foreachInstr env arg0 arg1 arg2
  | .opPostforeach => postforeachOp arg0 arg1
  | .opClone => storeTarget arg0 (stk arg1 >>= fun o => guarded .clone (env.clone o))
  | .opTypeof => storeTarget arg0 (stk arg1 >>= fun o => guarded .typeOf (env.typeOf o))
  | .opPushtrap => pushTrap arg0 arg1
  | .opPoptrap => popTraps arg0
  | .opThrow => throwOp arg0
  | .opNewslota => newSlotAOp env arg0 arg1 arg2 arg3
  | .opGetbase => storeTarget arg0 (gets fun s => env.baseOf s.machine)
  | .opClose => do
    modify fun m => m.closeOuters (m.vm.stackbase + arg1)
    continue'

/-- `const SQInstruction &_i_ = *ci->_ip++`. -/
def fetch : Exec ρ SQInstruction := do
  let ci ← gets fun s => s.machine.ci
  match ci with
  | none => raise .undefined
  | some c => do
    let i ← gets fun s => env.instructionAt s.machine c.ip
    jump 1
    pure i

/-- One turn of the loop. -/
def stepLoop : Exec ρ Control := do
  let i ← fetch env
  switch env i.op i.arg0.value i.arg1.value i.arg2.value i.arg3.value

/-! ## exception_trap -/

/-- Where `exception_trap` ends: at `exception_restore`, or with the frames up to a root left. -/
inductive Landing (ρ : Type) where
  | caught (s : Activation ρ)
  | left (m : Machine ρ)
  /-- a frame counts a trap that the vector of traps does not have -/
  | undefined

/-- The trap on top catches the error. -/
def landOn (s : Activation ρ) (t : SQExceptionTrap) (currerror : SQObject) (lastTop : Int) :
    Activation ρ :=
  let m := s.machine.updateCi fun c => { c with ip := t.ip, etraps := c.etraps - 1 }
  let m := { m with vm := { m.vm with
    top := t.stacksize, stackbase := t.stackbase, etraps := m.vm.etraps.tail } }
  let m := (m.setStk t.extarget currerror).nullSlots t.stacksize lastTop
  ⟨m, s.traps - 1⟩

/-- A frame without traps is left. -/
def abandonFrame (c : CallInfo) (m : Machine ρ) : Machine ρ :=
  let m := if m.vm.debughook then m.callReturnHooks env.toPlatform c.ncalls.toNat else m
  let m := match c.generator with
    | some g => m.killGenerator g
    | none => m
  m.leaveFrame

/-- The loop over the frames of the activation, the innermost first. -/
def unwind (currerror : SQObject) (lastTop : Int) : Nat → Activation ρ → Landing ρ
  | 0, s => .left s.machine
  | n + 1, s =>
    match s.machine.ci with
    | none => .left s.machine
    | some c =>
      if c.etraps > 0 then
        match s.machine.vm.etraps with
        | [] => .undefined
        | t :: _ => .caught (landOn s t currerror lastTop)
      else if c.root then .left (abandonFrame env c s.machine)
      else unwind currerror lastTop n { s with machine := abandonFrame env c s.machine }

/-- The error handler is called for every error, or for one that no trap of the activation will
catch by its count. -/
def notifies (raiseerror : Bool) (s : Activation ρ) : Bool :=
  env.notifyAllExceptions s.machine || (s.traps == 0 && raiseerror)

def exceptionTrap (raiseerror : Bool) (s : Activation ρ) : Landing ρ :=
  let currerror := s.machine.vm.lasterror
  let lastTop := s.machine.vm.top
  let m := if notifies env raiseerror s then env.callErrorHandler currerror s.machine
    else s.machine
  match unwind env currerror lastTop m.vm.callsstack.length ⟨m, s.traps⟩ with
  | .left m => .left { m with vm := { m.vm with lasterror := currerror } }
  | l => l

/-! ## Entry -/

inductive ExecutionType where
  /-- `closure`, `nargs` and `stackbase` -/
  | call (closure : SQObject) (nargs stackbase : Int)
  /-- the generator, and where `outres` lies above the base of the frame -/
  | resumeGenerator (g : Addr) (target : Int)
  | resumeVm
  | resumeThrowVm

/-- What precedes the loop: it is entered, or `Execute` returns. -/
inductive Entry where
  | loop
  | finish (outres : SQObject)
  | fail
  deriving DecidableEq, Repr

/-- `ci->_root = root`, through a pointer that may be null. -/
def setRoot (root : Bool) : Exec ρ Unit := do
  let ci ← gets fun s => s.machine.ciAddr
  if ci = none then raise .undefined else modify (·.updateCi fun c => { c with root })

/-- What follows `StartCall`; `prevci` is what `ci` pointed to before. -/
def afterStartCall (prevci : Option (Nat × Nat)) (nargs : Int) : Option Unit → Exec ρ Entry
  | none => do
    modify fun m => if m.ciAddr = none then env.callErrorHandler m.vm.lasterror m else m
    pure .fail
  | some () => do
    let ci ← gets fun s => s.machine.ciAddr
    if ci = prevci then do
      let top ← gets fun s => s.machine.vm.top
      let outres ← stk (top - nargs)
      pure (.finish outres)
    else do
      setRoot true
      pure .loop

/-- `ET_CALL` -/
def enterCall (closure : SQObject) (nargs stackbase : Int) : Exec ρ Entry := do
  let prevci ← gets fun s => s.machine.ciAddr
  let top ← gets fun s => s.machine.vm.top
  setTempReg closure
  let ok ← invoke .startCall (env.startCall closure (top - nargs) nargs stackbase false)
  afterStartCall env prevci nargs ok

/-- What follows `Resume`. -/
def afterResume : Exec ρ Entry := do
  setRoot true
  let n ← frameTraps
  addTraps n
  pure .loop

/-- `ET_RESUME_GENERATOR`: what `Resume` returns is not looked at. -/
def enterGenerator (g : Addr) (target : Int) : Exec ρ Entry := do
  let _ ← resume env g target
  afterResume

/-- `ET_RESUME_VM` and `ET_RESUME_THROW_VM` -/
def enterVm (throws : Bool) : Exec ρ Entry := do
  let vm ← gets fun s => s.machine.vm
  update fun s => { s with traps := vm.suspendedTraps }
  setRoot vm.suspendedRoot
  modify fun m => { m with vm := { m.vm with suspended := false } }
  if throws then throwTrap else pure .loop

def enter : ExecutionType → Exec ρ Entry
  | .call closure nargs stackbase => enterCall env closure nargs stackbase
  | .resumeGenerator g target => enterGenerator env g target
  | .resumeVm => enterVm false
  | .resumeThrowVm => enterVm true

/-! ## The whole function -/

/-- Where a run of `Execute` stands. -/
inductive Phase (ρ : Type) where
  /-- the next instruction is about to run -/
  | loop (s : Activation ρ)
  /-- at `exception_trap` -/
  | trap (s : Activation ρ)
  | returned (succeeded : Bool) (outres : Option SQObject) (m : Machine ρ)
  | undefined

/-- `AutoDec` undoes the count of native calls. -/
def leaveExecute (m : Machine ρ) : Machine ρ :=
  { m with vm := { m.vm with nnativecalls := m.vm.nnativecalls - 1 } }

def afterInstruction (o : Outcome (Activation ρ) Report Fault Empty Control) : Phase ρ :=
  match o.result with
  | .ok .next => .loop o.final
  | .ok (.finish outres) => .returned true (some outres) (leaveExecute o.final.machine)
  | .error (.raised .trap) => .trap o.final
  | .error _ => .undefined

def afterEntry (o : Outcome (Activation ρ) Report Fault Empty Entry) : Phase ρ :=
  match o.result with
  | .ok .loop => .loop o.final
  | .ok (.finish outres) => .returned true (some outres) (leaveExecute o.final.machine)
  | .ok .fail => .returned false none (leaveExecute o.final.machine)
  | .error (.raised .trap) => .trap o.final
  | .error _ => .undefined

def afterTrap : Landing ρ → Phase ρ
  | .caught s => .loop s
  | .left m => .returned false none (leaveExecute m)
  | .undefined => .undefined

/-- One turn of the loop, or `exception_trap`. -/
def Phase.next (raiseerror : Bool) : Phase ρ → Phase ρ
  | .loop s => afterInstruction (stepLoop env s)
  | .trap s => afterTrap (exceptionTrap env raiseerror s)
  | p => p

/-- The activation that the entry runs on. -/
def entryActivation (m : Machine ρ) : Activation ρ where
  machine := { m with vm := { m.vm with nnativecalls := m.vm.nnativecalls + 1 } }
  traps := 0

/-- `Execute` up to the loop. -/
def start (et : ExecutionType) (m : Machine ρ) : Phase ρ :=
  if maxNativeCalls < m.vm.nnativecalls + 1 then
    .returned false none (m.raiseError env.toPlatform "Native stack overflow")
  else afterEntry (enter env et (entryActivation m))

/-- `Execute` after so many turns. -/
def execute (raiseerror : Bool) (et : ExecutionType) (m : Machine ρ) : Nat → Phase ρ
  | 0 => start env et m
  | n + 1 => (execute raiseerror et m n).next env raiseerror

end
end Sqnim.Vm
