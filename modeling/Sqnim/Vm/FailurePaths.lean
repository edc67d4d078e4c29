import Sqnim.Lib.Heed
import Sqnim.Vm.Execute

/-!
# Every failure reaches exception_trap
-/
namespace Sqnim.Vm.FailurePaths

open Sqnim.Lib Sqnim.Object Sqnim.Compiler
open SQObjectType
open Prog (raise gets update when report)

variable {ρ α : Type}

def Failed (r : Report) : Prop := r.succeeded = false

abbrev Guards (m : Exec ρ α) : Prop := Heeds Failed Fault.trap m

abbrev Reports (m : Exec ρ (Option α)) : Prop := Tells Failed Fault.trap m

instance (f : Machine ρ → Machine ρ) : Guards (modify f) := Prog.heeds_update _
instance (f : Machine ρ → Machine ρ) : Returns (modify f) := Prog.returns_update _
instance (a : Int) : Guards (stk a : Exec ρ SQObject) := Prog.heeds_gets _
instance (a : Int) : Returns (stk a : Exec ρ SQObject) := Prog.returns_gets _
instance (a : Int) (v : SQObject) : Guards (setStk a v : Exec ρ Unit) := Prog.heeds_update _
instance (a : Int) (v : SQObject) : Returns (setStk a v : Exec ρ Unit) := Prog.returns_update _
instance (P : Platform ρ) (t : String) : Guards (raiseError P t) := Prog.heeds_update _
instance (P : Platform ρ) (t : String) : Returns (raiseError P t) := Prog.returns_update _
instance (v : SQObject) : Guards (setTempReg v : Exec ρ Unit) := Prog.heeds_update _
instance (d : Int) : Guards (addTraps d : Exec ρ Unit) := Prog.heeds_update _
instance (d : Int) : Guards (jump d : Exec ρ Unit) := Prog.heeds_update _
instance (f : SQVM → Int) : Guards (setTop f : Exec ρ Unit) := Prog.heeds_update _
instance : Throws Fault.trap (throwTrap : Exec ρ α) := Prog.throws_raise
instance : Guards (throwTrap : Exec ρ α) := Prog.heeds_raise _
instance : Guards (continue' : Exec ρ Control) := Prog.heeds_pure _
instance : Throws Fault.trap (guard none : Exec ρ α) := Prog.throws_raise
instance (a : α) : Guards (guard (some a) : Exec ρ α) := Prog.heeds_pure _
instance (P : Platform ρ) (t : String) : Guards (raiseAndThrow P t : Exec ρ α) := by
  unfold raiseAndThrow
  infer_instance
instance (c : Prop) [Decidable c] : Guards (assertThat c : Exec ρ Unit) := by
  unfold assertThat
  infer_instance

/-- A report of failure is the report of nothing. -/
theorem none_of_failed {op : Operation} {r : Option α} {w : Report} (hw : w ∈ [⟨op, r.isSome⟩])
    (hf : Failed w) : r = none := by
  obtain rfl := List.mem_singleton.mp hw
  exact Option.isNone_iff_eq_none.mp (Option.isSome_eq_false_iff.mp hf)

instance (op : Operation) (r : Option α) : Reports (returned op r : Exec ρ (Option α)) where
  tells s h := by
    obtain ⟨w, hw, hf⟩ := h
    exact .inl (congrArg Except.ok (none_of_failed hw hf))

instance (op : Operation) : Refuses Fault.trap (returned op (none : Option α) : Exec ρ _) :=
  ⟨fun _ => .inl rfl⟩

instance (op : Operation) (f : Call ρ α) : Reports (invoke op f) where
  tells s h := by
    obtain ⟨w, hw, hf⟩ := h
    have hr : (f s.machine).1 = none := none_of_failed hw hf
    exact .inl (congrArg Except.ok hr)

instance (op : Operation) (f : Call ρ α) : Guards (guarded op f) := by
  unfold guarded
  infer_instance

section
variable (env : ExecEnv ρ)

instance (op : Int) (o1 o2 : SQObject) : Reports (arithOther env.toArithEnv op o1 o2) := by
  unfold arithOther
  infer_instance

instance (a b : BitVec 64) : Guards (divide a b : Exec ρ _) := by
  unfold divide
  infer_instance

instance (a b : BitVec 64) : Guards (remainder a b : Exec ρ _) := by
  unfold remainder
  infer_instance

instance (op : Int) (a b : BitVec 64) : Guards (arithIntegers env.toArithEnv op a b) := by
  unfold arithIntegers
  infer_instance

instance (op : Int) (o1 o2 : SQObject) : Reports (arithResult env.toArithEnv op o1 o2) := by
  unfold arithResult
  split <;> infer_instance

instance (op : Int) (o1 o2 : SQObject) : Reports (arithOp env.toArithEnv op o1 o2) := by
  unfold arithOp
  infer_instance

instance (op : Int) (o1 o2 : SQObject) : Guards (guardedArith env.toArithEnv op o1 o2) := by
  unfold guardedArith
  infer_instance

instance (op : Char) (ints : BitVec 64 → BitVec 64 → BitVec 64) (o1 o2 : SQObject) :
    Guards (arithMacro env.toArithEnv op ints o1 o2) := by
  unfold arithMacro
  split <;> infer_instance

instance (err : String) (o1 o2 : SQObject) :
    Guards (arithNoZero env.toArithEnv err o1 o2) := by
  unfold arithNoZero
  split <;> infer_instance

instance (op : Int) (a b : BitVec 64) : Guards (bwIntegers env op a b) := by
  unfold bwIntegers
  infer_instance

instance (op : Int) (o1 o2 : SQObject) : Reports (bwOp env op o1 o2) := by
  unfold bwOp bwResult
  infer_instance

instance (o : SQObject) : Reports (negMetaMethod env o) := by
  unfold negMetaMethod negError
  infer_instance

instance (o : SQObject) : Reports (negResult env o) := by
  unfold negResult negError
  split <;> infer_instance

instance (o : SQObject) : Reports (negOp env o) := by
  unfold negOp
  infer_instance

instance (op : Int) (o1 o2 : SQObject) : Reports (cmpOp env op o1 o2) := by
  unfold cmpOp cmpResult cmpValue
  infer_instance

instance (arg0 arg1 : Int) (incr : SQObject) : Reports (plocalInc env arg0 arg1 incr) := by
  unfold plocalInc
  infer_instance

instance (arg0 : Int) (self key tmp : SQObject) (isPostfix : Bool) (selfidx : Int)
    (res : Option SQObject) :
    Reports (derefIncStore env arg0 self key tmp isPostfix selfidx res) := by
  unfold derefIncStore
  split <;> infer_instance

instance (arg0 : Int) (self key tmp : SQObject) (isPostfix : Bool) (selfidx : Int) :
    Refuses Fault.trap (derefIncStore env arg0 self key tmp isPostfix selfidx none) :=
  ⟨fun _ => .inl rfl⟩

instance (op arg0 : Int) (self key : SQObject) (incr : Exec ρ SQObject) [Guards incr]
    (isPostfix : Bool) (selfidx : Int) :
    Reports (derefInc env op arg0 self key incr isPostfix selfidx) := by
  unfold derefInc derefIncBody
  infer_instance

/-! ## Objects -/

instance (f : Machine ρ → SQObject × Machine ρ) : Guards (perform f) := by
  unfold perform
  infer_instance

instance (closure : SQObject) (boundtarget : Int) :
    Reports (closureBind env closure boundtarget) := by
  unfold closureBind bindError
  infer_instance

instance (i boundtarget : Int) : Reports (closureOp env i boundtarget) := by
  unfold closureOp
  infer_instance

instance (mm attrs target : SQObject) : Reports (callInherited env mm attrs target) := by
  unfold callInherited
  infer_instance

instance (arg0 : Int) (base : Option SQObject) (attrs : SQObject) :
    Reports (createClassOp env arg0 base attrs) := by
  unfold createClassOp
  infer_instance

instance (attributes : Int) : Guards (classAttributes attributes : Exec ρ _) := by
  unfold classAttributes
  infer_instance

instance (arg0 baseclass attributes : Int) : Reports (classBody env arg0 baseclass attributes) := by
  unfold classBody
  infer_instance

instance (arg0 baseclass attributes : Int) : Reports (classOp env arg0 baseclass attributes) := by
  unfold classOp
  infer_instance

instance (g : Addr) (target : Int) : Reports (resume env g target) := by
  unfold resume
  infer_instance

instance (g : SQObject) : Guards (generatorState g : Exec ρ _) := Prog.heeds_gets _

instance : Guards (frameTraps : Exec ρ Int) := Prog.heeds_gets _

/-! ## Iteration -/

instance (arg2 exitpos : Int) (r : Option (SQObject × SQObject × Int)) :
    Reports (storeNext arg2 exitpos r : Exec ρ _) := by
  unfold storeNext
  split <;> infer_instance

instance (arg2 : Int) (o1 : SQObject) (exitpos : Int) :
    Reports (iterateNext env arg2 o1 exitpos) := by
  unfold iterateNext
  infer_instance

instance (arg2 : Int) (o1 itr : SQObject) (exitpos : Int) :
    Reports (iterateItr env arg2 o1 itr exitpos) := by
  unfold iterateItr
  infer_instance

instance (arg2 : Int) (o1 : SQObject) (exitpos : Int) :
    Reports (iterateMetaMethod env arg2 o1 exitpos) := by
  unfold iterateMetaMethod
  infer_instance

instance (arg2 : Int) (o1 : SQObject) (exitpos : Int) :
    Reports (iterateDelegable env arg2 o1 exitpos) := by
  unfold iterateDelegable
  infer_instance

instance (o1 : SQObject) : Reports (cannotIterate env o1) := by
  unfold cannotIterate
  infer_instance

/-! ## Calls -/

instance (none : Prop) [Decidable none] (a : Int) (v : SQObject) :
    Guards (setStkUnless none a v : Exec ρ Unit) := by
  unfold setStkUnless
  infer_instance

instance (sarg0 : Int) (clo : SQObject) : Guards (suspendCall sarg0 clo : Exec ρ _) := by
  unfold suspendCall
  infer_instance

instance (arg0 arg2 arg3 : Int) (clo : SQObject) : Guards (callNativeOp env arg0 arg2 arg3 clo) := by
  unfold callNativeOp
  infer_instance

instance (arg2 arg3 : Int) (inst clo : SQObject) :
    Guards (callConstructor env arg2 arg3 inst clo) := by
  unfold callConstructor
  cases clo.type <;> infer_instance

instance (arg0 arg2 arg3 : Int) (clo : SQObject) : Guards (callClassOp env arg0 arg2 arg3 clo) := by
  unfold callClassOp
  infer_instance

instance (clo : SQObject) : Guards (attemptToCall env clo) := by
  unfold attemptToCall
  infer_instance

instance (arg2 : Int) (n : Nat) (i : Int) : Guards (pushArguments arg2 n i : Exec ρ _) := by
  induction n generalizing i with
  | zero => exact Prog.heeds_pure _
  | succ n ih =>
    unfold pushArguments
    infer_instance

instance (clo : SQObject) : Throws Fault.trap (attemptToCall env clo) := by
  unfold attemptToCall raiseAndThrow
  infer_instance

instance (arg0 arg2 arg3 : Int) (clo : SQObject) :
    Guards (callDelegableOp env arg0 arg2 arg3 clo) := by
  unfold callDelegableOp
  infer_instance

instance (arg0 arg2 arg3 : Int) (clo : SQObject) : Guards (callValue env arg0 arg2 arg3 clo) := by
  unfold callValue
  cases clo.type <;> infer_instance

instance (arg0 arg1 arg2 arg3 : Int) : Guards (callOp env arg0 arg1 arg2 arg3) := by
  unfold callOp
  infer_instance

instance (arg2 : Int) (n : Nat) (i : Int) : Guards (moveArguments arg2 n i : Exec ρ _) := by
  induction n generalizing i with
  | zero => exact Prog.heeds_pure _
  | succ n ih =>
    unfold moveArguments
    infer_instance

instance (arg2 arg3 : Int) (clo : SQObject) : Guards (tailcallClosure env arg2 arg3 clo) := by
  unfold tailcallClosure
  infer_instance

instance (arg0 arg1 arg2 arg3 : Int) : Guards (tailcallOp env arg0 arg1 arg2 arg3) := by
  unfold tailcallOp
  infer_instance

/-! ## Frames and traps -/

instance (arg0 arg1 : Int) : Guards (returnOp env arg0 arg1) := by
  unfold returnOp
  infer_instance

instance : Guards (killOwnGenerator : Exec ρ Unit) := Prog.heeds_update _

set_option synthInstance.maxSize 1000 in
instance (arg0 arg1 arg2 : Int) (g : Addr) : Guards (yieldFrame env arg0 arg1 arg2 g) := by
  unfold yieldFrame
  infer_instance

instance (arg0 arg1 arg2 : Int) : Guards (yieldOp env arg0 arg1 arg2) where
  heeds s h := by
    have hg : Guards (match s.machine.ci.bind CallInfo.generator with
        | some g => yieldFrame env arg0 arg1 arg2 g
        | none => raise .undefined) := by
      split <;> infer_instance
    exact hg.heeds s h

instance (arg0 arg1 : Int) : Guards (resumeOp env arg0 arg1) := by
  unfold resumeOp
  infer_instance

instance (arg0 arg1 : Int) : Guards (pushTrap arg0 arg1 : Exec ρ _) := by
  unfold pushTrap
  infer_instance

instance (arg0 : Int) : Guards (popTraps arg0 : Exec ρ _) := by
  unfold popTraps
  infer_instance

/-! ## Instructions -/

instance (arg0 : Int) (v : Exec ρ SQObject) [Guards v] : Guards (storeTarget arg0 v) := by
  unfold storeTarget
  infer_instance

instance (arg0 : Int) (r : Exec ρ (Option SQObject)) [Reports r] : Guards (guardTarget arg0 r) := by
  unfold guardTarget
  infer_instance

instance (r : Exec ρ (Option Unit)) [Reports r] : Guards (guardUnit r) := by
  unfold guardUnit
  infer_instance

instance (f : SQObject → SQObject → Exec ρ α) [∀ o1 o2, Guards (f o1 o2)] (arg1 arg2 : Int) :
    Guards (binary f arg1 arg2) := by
  unfold binary
  infer_instance

instance (f : SQObject → SQObject → Exec ρ (Option α)) [∀ o1 o2, Reports (f o1 o2)]
    (arg1 arg2 : Int) : Reports (binary f arg1 arg2) := by
  unfold binary
  infer_instance

instance (i : Int) : Guards (literal env i) := Prog.heeds_gets _

instance (arg1 arg3 : Int) : Guards (condLiteral env arg1 arg3) := by
  unfold condLiteral
  infer_instance

instance (arg0 arg1 arg2 arg3 : Int) (negated : Bool) :
    Guards (equalityOp env arg0 arg1 arg2 arg3 negated) := by
  unfold equalityOp
  infer_instance

instance (arg0 selfidx : Int) (key : Exec ρ SQObject) [Guards key] :
    Guards (getOp env arg0 selfidx key) := by
  unfold getOp
  infer_instance

instance (arg0 arg2 arg3 : Int) (key : Exec ρ SQObject) [Guards key] :
    Guards (prepcallOp env arg0 arg2 arg3 key) := by
  unfold prepcallOp
  infer_instance

instance (arg0 arg1 : Int) : Guards (getOuterOp env arg0 arg1) := by
  unfold getOuterOp
  infer_instance

instance (arg0 arg1 arg2 : Int) : Guards (setOuterOp env arg0 arg1 arg2) := by
  unfold setOuterOp
  infer_instance

instance (arg0 arg1 arg2 arg3 : Int) : Guards (setOp env arg0 arg1 arg2 arg3) := by
  unfold setOp
  infer_instance

instance (arg0 arg1 arg2 arg3 : Int) : Guards (newSlotOp env arg0 arg1 arg2 arg3) := by
  unfold newSlotOp
  infer_instance

instance (arg0 arg1 arg2 arg3 : Int) : Guards (newSlotAOp env arg0 arg1 arg2 arg3) := by
  unfold newSlotAOp
  infer_instance

instance (arg0 arg1 arg2 : Int) : Guards (deleteOp env arg0 arg1 arg2) := by
  unfold deleteOp
  infer_instance

instance (arg0 arg1 arg2 : Int) : Guards (existsOp env arg0 arg1 arg2) := by
  unfold existsOp
  infer_instance

instance (arg0 arg1 arg2 : Int) : Guards (instanceofOp env arg0 arg1 arg2) := by
  unfold instanceofOp
  infer_instance

instance (arg0 arg1 : Int) : Guards (bwnotOp env arg0 arg1) := by
  unfold bwnotOp
  infer_instance

instance (sarg3 arg1 : Int) : Guards (inclOp env sarg3 arg1) := by
  unfold inclOp
  infer_instance

instance (arg0 sarg3 arg1 : Int) : Guards (pinclOp env arg0 sarg3 arg1) := by
  unfold pinclOp
  infer_instance

instance (arg0 arg1 arg2 sarg3 : Int) (isPostfix : Bool) : Guards (incOp env arg0 arg1 arg2 sarg3 isPostfix) := by
  unfold incOp
  infer_instance

instance (arg0 arg1 arg2 arg3 : Int) : Guards (comparithOp env arg0 arg1 arg2 arg3) := by
  unfold comparithOp
  infer_instance

instance (arg0 arg1 arg2 arg3 : Int) : Guards (jcmpOp env arg0 arg1 arg2 arg3) := by
  unfold jcmpOp
  infer_instance

instance (arg0 arg1 arg2 arg3 : Int) : Guards (newobjOp env arg0 arg1 arg2 arg3) := by
  unfold newobjOp
  infer_instance

instance (arg1 arg2 : Int) : Guards (appendValue env arg1 arg2) := by
  unfold appendValue
  infer_instance

instance (arg0 arg1 arg2 : Int) : Guards (appendOp env arg0 arg1 arg2) := by
  unfold appendOp
  infer_instance

instance (arg0 : Int) : Guards (loadRootOp env arg0) := by
  unfold loadRootOp
  infer_instance

instance (arg1 : Int) : Guards (lineOp env arg1) := by
  unfold lineOp
  infer_instance

instance (arg0 arg1 : Int) : Guards (returnInstr env arg0 arg1) := by
  unfold returnInstr
  infer_instance

instance (arg0 arg1 arg2 : Int) (jumpIfFalse : Bool) : Guards (shortCircuit arg0 arg1 arg2 jumpIfFalse : Exec ρ _) := by
  unfold shortCircuit
  infer_instance

instance (arg0 arg1 : Int) : Guards (jzOp arg0 arg1 : Exec ρ _) := by
  unfold jzOp
  infer_instance

instance (arg0 arg1 : Int) : Guards (postforeachOp arg0 arg1 : Exec ρ _) := by
  unfold postforeachOp
  infer_instance

instance (arg0 : Int) : Guards (throwOp arg0 : Exec ρ _) := by
  unfold throwOp
  infer_instance

/-- Every instruction but two heeds failures. -/
theorem switch_guards (op : SQOpcode) (hm : op ≠ .opMod) (hf : op ≠ .opForeach)
    (arg0 arg1 arg2 arg3 : Int) : Guards (switch env op arg0 arg1 arg2 arg3) := by
  cases op
  case opMod => exact absurd rfl hm
  case opForeach => exact absurd rfl hf
  all_goals
    unfold switch
    infer_instance

end

/-! ## The two instructions that go on -/

/-- From this state a reported failure reaches `exception_trap`. -/
def HeededAt (m : Exec ρ α) (s : Activation ρ) : Prop :=
  (m s).Sees Failed → (m s).result = .error (.raised .trap)

/-- `ARITH_OP('%', ..)` returns false: an integer divisor is 0, or there is no metamethod that
succeeds. -/
def ModFails (env : ExecEnv ρ) (m : Machine ρ) (o1 o2 : SQObject) : Prop :=
  match tmask o1 o2 with
  | .integers => o2.unVal = 0
  | .floats => False
  | .other => (arithMetaMethod env.toArithEnv '%'.toNat o1 o2 m).1 = none

/-- The frame of a generator has no room on the stack, which cannot grow in a metamethod. -/
def NoRoom (m : Machine ρ) (g : Addr) : Prop :=
  m.vm.nmetamethodscall ≠ 0 ∧
    m.vm.stack.size < m.vm.top + (m.heap.generators g).stack.length + minStackOverhead

section
variable (env : ExecEnv ρ)

theorem arithIntegers_mod (a b : BitVec 64) (s : Activation ρ) :
    (Prog.run (arithIntegers env.toArithEnv '%'.toNat a b) s).1 = .ok none ↔ b = 0 := by
  show (Prog.run (if b = 0 then _ else if b = -1 ∧ a = intMin32 then pure (some 0)
    else some <$> remainder a b) s).1 = _ ↔ _
  split
  · next h => exact iff_of_true rfl h
  · next h =>
    split
    · exact iff_of_false nofun h
    · rw [Prog.run_map]
      unfold remainder
      split
      · exact iff_of_false nofun h
      · exact iff_of_false nofun h

theorem arithResult_mod (o1 o2 : SQObject) (s : Activation ρ) :
    (arithResult env.toArithEnv '%'.toNat o1 o2 s).result = .ok none ↔
      ModFails env s.machine o1 o2 := by
  unfold arithResult ModFails
  cases tmask o1 o2 with
  | integers =>
    show (Prog.run (arithIntegers env.toArithEnv '%'.toNat o1.unVal o2.unVal >>= _) s).1 = _ ↔
      o2.unVal = 0
    rw [← arithIntegers_mod env o1.unVal o2.unVal s, Prog.run_bind]
    generalize Prog.run (arithIntegers env.toArithEnv '%'.toNat o1.unVal o2.unVal) s = x
    obtain ⟨r, s'⟩ := x
    cases r with
    | ok n => cases n with
      | none => exact iff_of_true rfl rfl
      | some n => exact iff_of_false nofun nofun
    | error d => exact iff_of_false nofun nofun
  | floats => exact iff_of_false nofun id
  | other =>
    show Except.ok (arithMetaMethod env.toArithEnv '%'.toNat o1 o2 s.machine).1 = Except.ok none ↔
      (arithMetaMethod env.toArithEnv '%'.toNat o1 o2 s.machine).1 = none
    rw [Except.ok.injEq]

/-- `ARITH_OP` returns what it has computed. -/
theorem result_of_arithOp {op : Int} {o1 o2 : SQObject} {s : Activation ρ}
    {r : Option SQObject} (h : (arithOp env.toArithEnv op o1 o2 s).result = .ok r) :
    (arithResult env.toArithEnv op o1 o2 s).result = .ok r := by
  obtain ⟨r', hr, hk, -⟩ := Prog.bind_ok_inv _ _ s h
  cases hk
  exact hr

theorem modOp_heeded_iff (arg0 arg1 arg2 : Int) (s : Activation ρ) :
    HeededAt (modOp env arg0 arg1 arg2) s ↔
      ¬ModFails env s.machine (s.machine.stk arg2) (s.machine.stk arg1) := by
  have hf := arithResult_mod env (s.machine.stk arg2) (s.machine.stk arg1) s
  have hbin : binary (arithOp env.toArithEnv '%'.toNat) arg1 arg2 s =
      arithOp env.toArithEnv '%'.toNat (s.machine.stk arg2) (s.machine.stk arg1) s := rfl
  rw [← hf]
  constructor
  · intro h hn
    have hres : (binary (arithOp env.toArithEnv '%'.toNat) arg1 arg2 s).result = .ok none := by
      rw [hbin]
      exact Prog.result_of_ok hn
    have hsees : (binary (arithOp env.toArithEnv '%'.toNat) arg1 arg2 s).Sees Failed := by
      rw [hbin]
      exact Prog.sees_of_right hn ⟨⟨.arithOp, false⟩, List.mem_singleton_self _, rfl⟩
    have ht := h (Prog.sees_of_left hsees)
    rw [show (modOp env arg0 arg1 arg2 s).result = _ from Prog.result_of_ok hres] at ht
    cases ht
  · intro hn hs
    refine Prog.heeded_of_told (fun hres => hn ?_) hs
    rw [hbin] at hres
    exact result_of_arithOp env hres

theorem resume_none_iff (P : Platform ρ) (m : Machine ρ) (g : Addr) (target : Int) :
    (m.resumeGenerator P g target).1 = none ↔
      (m.heap.generators g).state ≠ .eSuspended ∨ NoRoom m g := by
  have hf := m.enterFrame_none_iff P m.vm.top (m.vm.top + (m.heap.generators g).stack.length) false
  unfold Machine.resumeGenerator
  cases hstate : (m.heap.generators g).state with
  | eDead =>
    simp only [hstate]
    exact iff_of_true trivial (.inl nofun)
  | eRunning =>
    simp only [hstate]
    exact iff_of_true trivial (.inl nofun)
  | eSuspended =>
    simp only [hstate, ne_eq, not_true_eq_false, false_or]
    show _ ↔ m.vm.nmetamethodscall ≠ 0 ∧ _
    rw [← hf]
    split
    · next he => exact iff_of_true rfl (by rw [he])
    · next he => exact iff_of_false nofun (by rw [he]; nofun)

/-- Resuming a generator in a loop fails, and the loop goes on. -/
def ForeachFails (m : Machine ρ) (arg0 arg2 : Int) : Prop :=
  (m.stk arg0).type = otGenerator ∧
    (m.heap.generators (m.stk arg0).unVal).state = .eSuspended ∧
    (0 ≤ arg2 + 1 ∧ arg2 + 1 ≤ 255) ∧ NoRoom m (m.stk arg0).unVal

theorem assertThat_eq {c : Prop} [Decidable c] (h : c) : (assertThat c : Exec ρ Unit) = pure () :=
  if_neg (not_not_intro h)

theorem assertThat_ne {c : Prop} [Decidable c] (h : ¬c) :
    (assertThat c : Exec ρ Unit) = raise .undefined := if_pos h

theorem bind_congr {α β : Type} {m m' : Exec ρ α} {s s' : Activation ρ} (h : m s = m' s')
    (k : α → Exec ρ β) : (m >>= k) s = (m' >>= k) s' := congrArg (Outcome.andThen · k) h

theorem resume_asserts (g : Addr) (target : Int) (s : Activation ρ)
    (hstate : (s.machine.heap.generators g).state = .eSuspended)
    (h : ¬(0 ≤ target ∧ target ≤ 255)) : resume env g target s = raise .undefined s := by
  rw [resume, Prog.gets_bind, when, if_pos hstate, assertThat_ne h]
  rfl

/-- A generator that is not suspended is refused, wherever the value would go. -/
theorem resume_eq (g : Addr) (target : Int) (s : Activation ρ)
    (h : (s.machine.heap.generators g).state = .eSuspended → 0 ≤ target ∧ target ≤ 255) :
    resume env g target s =
      invoke .resume (fun m => m.resumeGenerator env.toPlatform g target) s := by
  rw [resume, Prog.gets_bind]
  by_cases hstate : (s.machine.heap.generators g).state = .eSuspended
  · rw [when, if_pos hstate, assertThat_eq (h hstate)]
    rfl
  · rw [when, if_neg hstate]
    rfl

/-- The machine when the generator of a loop is resumed. -/
def beforeResume (arg2 : Int) (m : Machine ρ) : Machine ρ :=
  (m.setStk arg2 (generatorPosition (m.stk (arg2 + 2)))).setStk (arg2 + 2)
    (generatorPosition (m.stk (arg2 + 2)))

theorem foreachBody_other (arg2 : Int) (o1 : SQObject) (exitpos : Int) (h : o1.type ≠ otGenerator) :
    Reports (foreachBody env arg2 o1 exitpos) := by
  unfold foreachBody
  cases ht : o1.type
  case otGenerator => exact absurd ht h
  all_goals infer_instance

/-- The instruction, with the body of `FOREACH_OP`. -/
def foreachWith (body : Exec ρ (Option Int)) : Exec ρ Control := do
  let r ← (do
    let r ← body
    returned .foreachOp r)
  let tojump ← guard r
  jump tojump
  continue'

theorem foreachInstr_eq (arg0 arg1 arg2 : Int) (s : Activation ρ) :
    foreachInstr env arg0 arg1 arg2 s =
      foreachWith (foreachBody env arg2 (s.machine.stk arg0) arg1) s := rfl

instance (body : Exec ρ (Option Int)) [Reports body] : Guards (foreachWith body) := by
  unfold foreachWith
  infer_instance

/-- The body of a suspended generator: its operands are set, and then it is resumed. -/
theorem iterateSuspended_eq (arg2 : Int) (o1 : SQObject) (s : Activation ρ) :
    iterateSuspended env arg2 o1 s =
      (do
        let _ ← resume env o1.unVal (arg2 + 1)
        pure (some 0)) { s with machine := beforeResume arg2 s.machine } := rfl

theorem foreachWith_congr {body body' : Exec ρ (Option Int)} {s s' : Activation ρ}
    (h : body s = body' s') : foreachWith body s = foreachWith body' s' := by
  show ((body s).andThen _).andThen _ = ((body' s').andThen _).andThen _
  rw [h]

theorem iterateSuspended_asserts (arg2 : Int) (o1 : SQObject) (s : Activation ρ)
    (hstate : (s.machine.heap.generators o1.unVal).state = .eSuspended)
    (h : ¬(0 ≤ arg2 + 1 ∧ arg2 + 1 ≤ 255)) : iterateSuspended env arg2 o1 s =
      raise .undefined { s with machine := beforeResume arg2 s.machine } := by
  rw [iterateSuspended_eq]
  exact bind_congr (resume_asserts env o1.unVal (arg2 + 1)
    { s with machine := beforeResume arg2 s.machine } hstate h) _

theorem iterateSuspended_heeded (arg2 : Int) (o1 : SQObject) (s : Activation ρ)
    (hstate : (s.machine.heap.generators o1.unVal).state = .eSuspended)
    (h : ¬(0 ≤ arg2 + 1 ∧ arg2 + 1 ≤ 255)) :
    HeededAt (foreachWith (iterateSuspended env arg2 o1)) s := by
  intro hs
  rw [foreachWith_congr (iterateSuspended_asserts env arg2 o1 s hstate h)] at hs
  exact absurd hs (Prog.not_sees_nil rfl)

/-- `FOREACH_OP` returns true whatever `Resume` returns. -/
theorem iterateSuspended_heeded_iff (arg2 : Int) (o1 : SQObject) (s : Activation ρ)
    (h : 0 ≤ arg2 + 1 ∧ arg2 + 1 ≤ 255) :
    HeededAt (foreachWith (iterateSuspended env arg2 o1)) s ↔
      ((beforeResume arg2 s.machine).resumeGenerator env.toPlatform o1.unVal (arg2 + 1)).1 ≠
        none := by
  have hbody := (iterateSuspended_eq env arg2 o1 s).trans
    (bind_congr (resume_eq env o1.unVal (arg2 + 1) _ fun _ => h) _)
  have hw := foreachWith_congr hbody
  generalize hr : (beforeResume arg2 s.machine).resumeGenerator env.toPlatform o1.unVal (arg2 + 1)
    = r at hw
  have hres : (foreachWith (iterateSuspended env arg2 o1) s).result = .ok .next := by
    rw [hw]
    rfl
  have hev : (foreachWith (iterateSuspended env arg2 o1) s).events =
      [⟨.resume, r.1.isSome⟩, ⟨.foreachOp, true⟩] := by
    rw [hw, ← hr]
    rfl
  constructor
  · intro hh hn
    have hs : (foreachWith (iterateSuspended env arg2 o1) s).Sees Failed := by
      refine ⟨⟨.resume, r.1.isSome⟩, ?_, ?_⟩
      · rw [hev]
        exact List.mem_cons_self
      · rw [hn]
        rfl
    have ht := hh hs
    rw [hres] at ht
    cases ht
  · intro hn ⟨w, hw, hf⟩
    rw [hev] at hw
    obtain rfl | hw := List.mem_cons.mp hw
    · exact absurd (Option.isNone_iff_eq_none.mp (Option.isSome_eq_false_iff.mp hf)) hn
    · obtain rfl := List.mem_singleton.mp hw
      cases hf

theorem beforeResume_noRoom (arg2 : Int) (m : Machine ρ) (g : Addr) :
    NoRoom (beforeResume arg2 m) g ↔ NoRoom m g := Iff.rfl

section

variable {o1 : SQObject} {s : Activation ρ}

theorem iterateGenerator_dead (h : (s.machine.heap.generators o1.unVal).state = .eDead)
    (arg2 exitpos : Int) :
    iterateGenerator env arg2 o1 exitpos s = (pure (some exitpos) : Exec ρ (Option Int)) s := by
  rw [iterateGenerator, generatorState, Prog.gets_bind, h]

theorem iterateGenerator_running (h : (s.machine.heap.generators o1.unVal).state = .eRunning)
    (arg2 exitpos : Int) : iterateGenerator env arg2 o1 exitpos s = cannotIterate env o1 s := by
  rw [iterateGenerator, generatorState, Prog.gets_bind, h]

theorem iterateGenerator_suspended (h : (s.machine.heap.generators o1.unVal).state = .eSuspended)
    (arg2 exitpos : Int) :
    iterateGenerator env arg2 o1 exitpos s = iterateSuspended env arg2 o1 s := by
  rw [iterateGenerator, generatorState, Prog.gets_bind, h]

end

/-- A loop over a generator goes on after a failure only where the generator is resumed. -/
theorem iterateGenerator_heeded_iff (arg2 : Int) (o1 : SQObject) (exitpos : Int)
    (s : Activation ρ) :
    HeededAt (foreachWith (iterateGenerator env arg2 o1 exitpos)) s ↔
      ¬((s.machine.heap.generators o1.unVal).state = .eSuspended ∧
        (0 ≤ arg2 + 1 ∧ arg2 + 1 ≤ 255) ∧ NoRoom s.machine o1.unVal) := by
  unfold HeededAt
  cases hstate : (s.machine.heap.generators o1.unVal).state with
  | eDead =>
    rw [foreachWith_congr (iterateGenerator_dead env hstate arg2 exitpos)]
    have hg : Guards (foreachWith (pure (some exitpos) : Exec ρ (Option Int))) := inferInstance
    exact iff_of_true (hg.heeds s) (by rintro ⟨⟨⟩, -⟩)
  | eRunning =>
    rw [foreachWith_congr (iterateGenerator_running env hstate arg2 exitpos)]
    have hg : Guards (foreachWith (cannotIterate env o1)) := inferInstance
    exact iff_of_true (hg.heeds s) (by rintro ⟨⟨⟩, -⟩)
  | eSuspended =>
    rw [foreachWith_congr (iterateGenerator_suspended env hstate arg2 exitpos)]
    by_cases hr : 0 ≤ arg2 + 1 ∧ arg2 + 1 ≤ 255
    · have hi := iterateSuspended_heeded_iff env arg2 o1 s hr
      rw [ne_eq, resume_none_iff, beforeResume_noRoom] at hi
      refine Iff.trans hi ?_
      show ¬((s.machine.heap.generators o1.unVal).state ≠ _ ∨ _) ↔ _
      rw [hstate]
      tauto
    · exact iff_of_true (iterateSuspended_heeded env arg2 o1 s hstate hr) fun h => hr h.2.1

theorem foreachInstr_heeded_iff (arg0 arg1 arg2 : Int) (s : Activation ρ) :
    HeededAt (foreachInstr env arg0 arg1 arg2) s ↔ ¬ForeachFails s.machine arg0 arg2 := by
  have hw := foreachInstr_eq env arg0 arg1 arg2 s
  unfold HeededAt ForeachFails
  rw [hw]
  by_cases ht : (s.machine.stk arg0).type = otGenerator
  · have hb : foreachBody env arg2 (s.machine.stk arg0) arg1 =
        iterateGenerator env arg2 (s.machine.stk arg0) arg1 := by
      unfold foreachBody
      rw [ht]
    rw [hb]
    have hi := iterateGenerator_heeded_iff env arg2 (s.machine.stk arg0) arg1 s
    refine Iff.trans hi ?_
    tauto
  · have hb := foreachBody_other env arg2 (s.machine.stk arg0) arg1 ht
    have hg : Guards (foreachWith (foreachBody env arg2 (s.machine.stk arg0) arg1)) := inferInstance
    exact iff_of_true (hg.heeds s) fun h => ht h.1

/-! ## Steps -/

/-- The instruction fails and the loop goes on. -/
def GoesOn (m : Machine ρ) (i : SQInstruction) : Prop :=
  match i.op with
  | .opMod => ModFails env m (m.stk i.arg2.value) (m.stk i.arg1.value)
  | .opForeach => ForeachFails m i.arg0.value i.arg2.value
  | _ => False

theorem switch_heeded_iff (i : SQInstruction) (s : Activation ρ) :
    HeededAt (switch env i.op i.arg0.value i.arg1.value i.arg2.value i.arg3.value) s ↔
      ¬GoesOn env s.machine i := by
  by_cases hm : i.op = .opMod
  · unfold GoesOn
    rw [hm]
    exact modOp_heeded_iff env i.arg0.value i.arg1.value i.arg2.value s
  by_cases hf : i.op = .opForeach
  · unfold GoesOn
    rw [hf]
    exact foreachInstr_heeded_iff env i.arg0.value i.arg1.value i.arg2.value s
  · refine iff_of_true ((switch_guards env _ hm hf _ _ _ _).heeds s) ?_
    unfold GoesOn
    split
    · next h => exact absurd h hm
    · next h => exact absurd h hf
    · exact id

/-- The next instruction of an activation fails and the loop goes on. -/
def StepGoesOn (s : Activation ρ) : Prop :=
  ∃ c, s.machine.ci = some c ∧
    GoesOn env (s.machine.updateCi fun c => { c with ip := c.ip + 1 })
      (env.instructionAt s.machine c.ip)

theorem fetch_some (s : Activation ρ) {c : CallInfo} (hc : s.machine.ci = some c) :
    fetch env s = .ok (env.instructionAt s.machine c.ip)
      { s with machine := s.machine.updateCi fun c => { c with ip := c.ip + 1 } } := by
  rw [fetch, Prog.gets_bind, hc]
  rfl

theorem fetch_none (s : Activation ρ) (hc : s.machine.ci = none) :
    fetch env s = raise .undefined s := by
  rw [fetch, Prog.gets_bind, hc]

theorem stepLoop_heeded_iff (s : Activation ρ) :
    HeededAt (stepLoop env) s ↔ ¬StepGoesOn env s := by
  cases hc : s.machine.ci with
  | none =>
    have hf := fetch_none env s hc
    have hs : stepLoop env s = raise .undefined s := by
      show (fetch env s).andThen _ = _
      rw [hf]
      rfl
    refine iff_of_true ?_ ?_
    · intro h
      rw [hs] at h
      exact absurd h (Prog.not_sees_nil rfl)
    · intro ⟨c, hci, _⟩
      rw [hc] at hci
      cases hci
  | some c =>
    have hs : stepLoop env s = _ := Prog.bind_of_ok _ _ s (fetch_some env s hc)
    have hi := switch_heeded_iff env (env.instructionAt s.machine c.ip)
      { s with machine := s.machine.updateCi fun c => { c with ip := c.ip + 1 } }
    unfold HeededAt
    rw [hs]
    refine Iff.trans hi (not_congr ?_)
    constructor
    · intro h
      exact ⟨c, hc, h⟩
    · intro ⟨c', hc', h⟩
      rw [hc] at hc'
      cases hc'
      exact h

/-- Entering `Execute` fails and the loop is entered all the same. -/
def EntryGoesOn (et : ExecutionType) (m : Machine ρ) : Prop :=
  match et with
  | .resumeGenerator g target => m.vm.nnativecalls + 1 ≤ maxNativeCalls ∧
      ((m.heap.generators g).state = .eSuspended → (0 ≤ target ∧ target ≤ 255) ∧ NoRoom m g)
  | _ => False

/-- A failure on entry reaches `exception_trap` or ends `Execute`. -/
def EntryHeeded (et : ExecutionType) (s : Activation ρ) : Prop :=
  (enter env et s).Sees Failed →
    (enter env et s).result = .error (.raised .trap) ∨ (enter env et s).result = .ok .fail

instance (root : Bool) : Guards (setRoot root : Exec ρ Unit) := by
  unfold setRoot
  infer_instance

instance (prevci : Option (Nat × Nat)) (nargs : Int) (u : Unit) :
    Guards (afterStartCall env prevci nargs (some u)) := by
  unfold afterStartCall
  infer_instance

theorem enterCall_heeded (closure : SQObject) (nargs stackbase : Int) (s : Activation ρ) :
    EntryHeeded env (.call closure nargs stackbase) s := by
  intro hs
  have he : enter env (.call closure nargs stackbase) s =
      (invoke .startCall (env.startCall closure (s.machine.vm.top - nargs) nargs stackbase false) >>=
        afterStartCall env s.machine.ciAddr nargs)
      { s with machine := { s.machine with vm := { s.machine.vm with tempReg := closure } } } := rfl
  rw [he] at hs ⊢
  generalize Activation.mk _ _ = s1 at hs ⊢
  cases hr : (invoke .startCall
    (env.startCall closure (s.machine.vm.top - nargs) nargs stackbase false) s1).result with
  | error d => cases hr
  | ok r =>
    cases r with
    | none => exact .inr (Prog.result_of_ok hr)
    | some u =>
      left
      refine Prog.heeded_of_told ?_ hs
      rw [hr]
      nofun

theorem enterVm_heeded (throws : Bool) : Guards (enterVm throws : Exec ρ Entry) := by
  unfold enterVm
  infer_instance

instance : Guards (afterResume : Exec ρ Entry) := by
  unfold afterResume
  infer_instance

theorem afterResume_result (s : Activation ρ) :
    (afterResume s).result = .ok .loop ∨ (afterResume s).result = .error (.raised .undefined) := by
  by_cases hc : s.machine.ciAddr = none
  · right
    have hr : setRoot true s = raise .undefined s := by
      show (if s.machine.ciAddr = none then _ else _ : Exec ρ Unit) s = _
      rw [if_pos hc]
    exact Prog.result_of_error (by rw [hr]; rfl)
  · left
    have hr : setRoot true s = modify (·.updateCi fun c => { c with root := true }) s := by
      show (if s.machine.ciAddr = none then _ else _ : Exec ρ Unit) s = _
      rw [if_neg hc]
    exact Prog.result_of_ok (a := ()) (by rw [hr]; rfl)

theorem afterResume_calm (s : Activation ρ) : ¬(afterResume s).Sees Failed := by
  intro h
  have ht := (inferInstance : Guards (afterResume : Exec ρ Entry)).heeds s h
  obtain hr | hr := afterResume_result s <;> rw [hr] at ht <;> cases ht

theorem enterGenerator_heeded_iff (g : Addr) (target : Int) (s : Activation ρ) :
    EntryHeeded env (.resumeGenerator g target) s ↔
      ¬((s.machine.heap.generators g).state = .eSuspended →
        (0 ≤ target ∧ target ≤ 255) ∧ NoRoom s.machine g) := by
  have he : enter env (.resumeGenerator g target) s = (resume env g target >>= fun _ =>
      afterResume) s := rfl
  unfold EntryHeeded
  rw [he]
  by_cases hr : (s.machine.heap.generators g).state = .eSuspended → 0 ≤ target ∧ target ≤ 255
  · have hnone : ((s.machine.heap.generators g).state = .eSuspended →
        (0 ≤ target ∧ target ≤ 255) ∧ NoRoom s.machine g) ↔
        (s.machine.resumeGenerator env.toPlatform g target).1 = none := by
      rw [resume_none_iff]
      tauto
    have hrun : (resume env g target >>= fun _ => afterResume) s =
        (invoke .resume (fun m => m.resumeGenerator env.toPlatform g target) >>= fun _ =>
          afterResume) s := bind_congr (resume_eq env g target s hr) _
    rw [hrun, hnone]
    generalize hf : s.machine.resumeGenerator env.toPlatform g target = r
    have hres : (invoke .resume (fun m => m.resumeGenerator env.toPlatform g target) s).result =
        .ok r.1 := by
      rw [← hf]
      rfl
    have hev : (invoke .resume (fun m => m.resumeGenerator env.toPlatform g target) s).events =
        [⟨.resume, r.1.isSome⟩] := by
      rw [← hf]
      rfl
    constructor
    · intro h hn
      have hsees : (invoke .resume (fun m => m.resumeGenerator env.toPlatform g target) s).Sees
          Failed := by
        refine ⟨⟨.resume, r.1.isSome⟩, by rw [hev]; exact List.mem_singleton_self _, ?_⟩
        rw [hn]
        rfl
      have ht := h (Prog.sees_of_left hsees)
      rw [Prog.result_of_ok hres] at ht
      obtain hl | hl := afterResume_result
        (invoke .resume (fun m => m.resumeGenerator env.toPlatform g target) s).final
      all_goals
        rw [hl] at ht
        obtain ht | ht := ht <;> cases ht
    · intro hn hs
      obtain ⟨w, hw, hp⟩ | ⟨_, _, hs⟩ := Prog.sees_bind hs
      · rw [hev] at hw
        exact absurd (none_of_failed hw hp) hn
      · exact absurd hs (afterResume_calm _)
  · obtain ⟨hstate, hfar⟩ := Classical.not_imp.mp hr
    have ha := resume_asserts env g target s hstate hfar
    refine iff_of_true (fun hs => ?_) fun h => hfar (h hstate).1
    obtain hs | ⟨r, hres, _⟩ := Prog.sees_bind hs
    · rw [ha] at hs
      exact absurd hs (Prog.not_sees_nil rfl)
    · rw [ha] at hres
      cases hres

/-- The error of a failed operation is thrown before the next instruction of the frame: `Execute`
goes to `exception_trap`, and from there to a handler or out of the frames. -/
structure Contained (raiseerror : Bool) (et : ExecutionType) (m : Machine ρ) : Prop where
  entry : m.vm.nnativecalls + 1 ≤ maxNativeCalls → EntryHeeded env et (entryActivation m)
  step : ∀ n s, execute env raiseerror et m n = .loop s → (stepLoop env s).Sees Failed →
    execute env raiseerror et m (n + 1) = .trap (stepLoop env s).final
  trap : ∀ n s s', execute env raiseerror et m n = .trap s →
    execute env raiseerror et m (n + 1) = .loop s' → exceptionTrap env raiseerror s = .caught s'

theorem afterInstruction_trap_iff (o : Outcome (Activation ρ) Report Fault Empty Control) :
    afterInstruction o = .trap o.final ↔ o.result = .error (.raised .trap) := by
  unfold afterInstruction
  split <;> simp_all

theorem afterTrap_loop {l : Landing ρ} {s : Activation ρ} (h : afterTrap l = .loop s) :
    l = .caught s := by
  cases l with
  | caught s' =>
    cases h
    rfl
  | left m => cases h
  | undefined => cases h

theorem entry_heeded_iff (et : ExecutionType) (m : Machine ρ) :
    (m.vm.nnativecalls + 1 ≤ maxNativeCalls → EntryHeeded env et (entryActivation m)) ↔
      ¬EntryGoesOn et m := by
  cases et with
  | call closure nargs stackbase =>
    exact iff_of_true (fun _ => enterCall_heeded env closure nargs stackbase _) id
  | resumeGenerator g target =>
    rw [enterGenerator_heeded_iff]
    exact not_and.symm
  | resumeVm =>
    exact iff_of_true (fun _ hs => .inl ((enterVm_heeded false).heeds _ hs)) id
  | resumeThrowVm =>
    exact iff_of_true (fun _ hs => .inl ((enterVm_heeded true).heeds _ hs)) id

theorem execute_succ {raiseerror : Bool} {et : ExecutionType} {m : Machine ρ} {n : Nat}
    {p : Phase ρ} (h : execute env raiseerror et m n = p) :
    execute env raiseerror et m (n + 1) = p.next env raiseerror := by
  show (execute env raiseerror et m n).next env raiseerror = _
  rw [h]

theorem Contained.not_goesOn {raiseerror : Bool} {et : ExecutionType} {m : Machine ρ}
    (h : Contained env raiseerror et m) {n : Nat} {s : Activation ρ}
    (hn : execute env raiseerror et m n = .loop s) : ¬StepGoesOn env s := by
  refine (stepLoop_heeded_iff env s).mp fun hs => ?_
  have ht := h.step n s hn hs
  rw [execute_succ env hn] at ht
  exact (afterInstruction_trap_iff _).mp ht

/-- Failures are contained in exactly the runs that meet none of the three that go on. -/
theorem contained_iff (raiseerror : Bool) (et : ExecutionType) (m : Machine ρ) :
    Contained env raiseerror et m ↔ ¬EntryGoesOn et m ∧
      ∀ n s, execute env raiseerror et m n = .loop s → ¬StepGoesOn env s := by
  constructor
  · intro h
    exact ⟨(entry_heeded_iff env et m).mp h.entry, fun n s hn => h.not_goesOn env hn⟩
  · intro ⟨he, hs⟩
    refine ⟨(entry_heeded_iff env et m).mpr he, fun n s hn hsees => ?_, fun n s s' hn hl => ?_⟩
    · rw [execute_succ env hn]
      exact (afterInstruction_trap_iff _).mpr ((stepLoop_heeded_iff env s).mpr (hs n s hn) hsees)
    · rw [execute_succ env hn] at hl
      exact afterTrap_loop hl

end

/-! ### A run that goes on -/

/-- Every instruction is `STK(0) = STK(0) % STK(1)`. -/
def remainders : ExecEnv Unit :=
  { (default : ExecEnv Unit) with
    instructionAt := fun _ _ => .make .opMod [.imm 0, .imm 1, .imm 0] }

/-- A suspended frame with the operands 1 and 0. -/
def oneByZero : Machine Unit where
  vm := { (default : SQVM) with callsstack := [default], suspended := true }
  heap := { (default : Heap Unit) with
    cells := fun _ i => if i = 0 then .ofInteger 1 else if i = 1 then .ofInteger 0 else .ofNull }

/-- `1 % 0` records an error and the next instruction runs. -/
theorem not_contained : ¬∀ (ρ : Type) (env : ExecEnv ρ) (raiseerror : Bool) (et : ExecutionType)
    (m : Machine ρ), Contained env raiseerror et m := by
  intro h
  have hc := h Unit remainders false .resumeVm oneByZero
  have hs : ∃ s, execute remainders false .resumeVm oneByZero 0 = .loop s ∧
      StepGoesOn remainders s := ⟨_, rfl, _, rfl, rfl⟩
  obtain ⟨s, hn, hg⟩ := hs
  exact hc.not_goesOn remainders hn hg

end Sqnim.Vm.FailurePaths
