import Sqnim.Lib.Leads
import Sqnim.Compiler.Statement

/-!
# Where emitting code leads

The functions that emit code, for every relation that holds along one more instruction, along a
pause of the optimiser, and along what does not concern the code.
-/
namespace Sqnim.Compiler

open Sqnim.Lib
open SQFuncState

set_option synthInstance.maxSize 1600

/-- A condition on the arguments of a function that is decided where it is used. -/
class IsTrue (b : Bool) : Prop where
  out : b = true

instance : IsTrue true := ⟨rfl⟩

/-- Only `AddLineInfos` emits `_OP_LINE`. -/
@[reducible] def notLine (op : SQOpcode) : Bool :=
  match op with
  | .opLine => false
  | _ => true

namespace SQFuncState

/-- The parts of a function state that emitting code is about. -/
def emitted (fs : SQFuncState) : List SQInstruction × Bool × List Int × List Int ×
    List SQLineInfo × Int × List SQFunctionProto :=
  (fs.instructions, fs.optimization, fs.unresolvedbreaks, fs.unresolvedcontinues, fs.lineinfos,
    fs.lastline, fs.functions)

end SQFuncState

/-- The relations along which code is emitted. -/
class Edits (R : SQFuncState → SQFuncState → Prop) : Prop extends Journey R where
  same : ∀ fs fs', fs'.emitted = fs.emitted → R fs fs'
  snooze : Leads R snoozeOpt
  add : ∀ op args [IsTrue (notLine op)], Leads R (addInstruction op args)
  drop : ∀ target fs, R fs (fs.dropTarget target)

attribute [instance] Edits.snooze Edits.add

variable (R : SQFuncState → SQFuncState → Prop) [hR : Edits R]

namespace SQFuncState

theorem leads_of_same (f : SQFuncState → SQFuncState) (h : ∀ fs, (f fs).emitted = fs.emitted) :
    Leads R (Prog.update f : FuncM Unit) := .update f fun fs => hR.same fs _ (h fs)

instance (size : Nat) : Leads R (back size) := by
  unfold back
  infer_instance

instance : Leads R getCurrentPos := inferInstanceAs (Leads R (Prog.gets _))

instance : Leads R getStackSize := inferInstanceAs (Leads R (Prog.gets _))

instance (cons : Scalar) : Leads R (getConstant cons) := by
  apply Leads.bind'
  intro lits
  split
  · infer_instance
  · have := leads_of_same R (fun fs => { fs with literals := fs.literals ++ [cons] }) fun _ => rfl
    infer_instance

instance : Leads R allocStackPos := by
  have := leads_of_same R (fun fs => { fs with vlocals := fs.vlocals ++ [temporary] }) fun _ => rfl
  have (npos : Nat) := leads_of_same R
    (fun fs => { fs with stacksize := max fs.stacksize (npos + 1) }) fun _ => rfl
  apply Leads.bind'
  intro npos
  apply Leads.bind'
  intro stacksize
  apply Leads.report_bind

instance (n : StackPos) : Leads R (pushTargetAt n) := by
  have := leads_of_same R (fun fs => { fs with targetstack := n :: fs.targetstack }) fun _ => rfl
  unfold pushTargetAt
  infer_instance

instance : Leads R pushTarget := by
  unfold pushTarget
  infer_instance

instance : Leads R topTarget := by
  unfold topTarget
  infer_instance

instance : Leads R popTarget := by
  have (npos : StackPos) := leads_of_same R (fun fs => { fs with
    vlocals := if fs.isTemporary npos then fs.vlocals.dropLast else fs.vlocals
    targetstack := fs.targetstack.tail }) fun _ => rfl
  unfold popTarget
  infer_instance

instance : Leads R discardTarget := by
  have (target : StackPos) : Leads R (Prog.update (dropTarget target) : FuncM Unit) :=
    .update _ (hR.drop target)
  apply Leads.bind'
  intro target
  apply Leads.bind'
  intro fs
  apply Leads.report_bind

instance (i : Option SQInstruction) : Leads R (reportPatch i) where
  out fs _ _ h := by
    cases i <;> (cases h; exact Journey.refl fs)

theorem emitted_dropLocal (fs : SQFuncState) (lvi : SQLocalVarInfo) :
    (fs.dropLocal lvi).emitted = fs.emitted := by
  unfold dropLocal
  split
  · rfl
  · rfl

theorem emitted_foldl_dropLocal (l : List SQLocalVarInfo) (fs : SQFuncState) :
    (l.foldl dropLocal fs).emitted = fs.emitted := by
  induction l generalizing fs with
  | nil => rfl
  | cons lvi l ih => rw [List.foldl_cons, ih, emitted_dropLocal]

instance (n : Nat) : Leads R (setStackSize n) :=
  leads_of_same R _ fun fs => emitted_foldl_dropLocal _ fs

instance (name : Text) : Leads R (pushLocalVariable name) := by
  have (pos : Nat) (current : Int) := leads_of_same R (fun fs => { fs with
    vlocals := fs.vlocals ++ [⟨some name, current + 1, 0, pos⟩]
    stacksize := max fs.stacksize (pos + 1) }) fun _ => rfl
  apply Leads.bind'
  intro pos
  apply Leads.bind'
  intro current
  apply Leads.report_bind

instance (name : Text) : Leads R (addParameter name) := by
  have := leads_of_same R (fun fs => { fs with parameters := fs.parameters ++ [name] }) fun _ => rfl
  unfold addParameter
  infer_instance

instance (trg : StackPos) : Leads R (addDefaultParam trg) := leads_of_same R _ fun _ => rfl

include hR in
/-- Looking for a variable of the functions around marks it there. -/
theorem forall₂_getOuterVariable (name : Text) (fs : SQFuncState) (parents : List SQFuncState) :
    List.Forall₂ R (fs :: parents) ((getOuterVariable name fs parents).2.1 ::
      (getOuterVariable name fs parents).2.2) := by
  induction parents generalizing fs with
  | nil =>
    unfold getOuterVariable
    split
    · exact Journey.refl _
    · exact Journey.refl _
  | cons parent rest ih =>
    unfold getOuterVariable
    split
    · exact Journey.refl _
    · dsimp only
      split
      · exact .cons (hR.same _ _ rfl) (.cons (hR.same _ _ rfl) (Journey.refl _))
      · have hrest := ih parent
        split
        · next hres =>
          rw [hres] at hrest
          exact .cons (hR.same _ _ rfl) hrest
        · next hres =>
          rw [hres] at hrest
          exact .cons (hR.same _ _ rfl) hrest

end SQFuncState

instance (tok : Token) : IsTrue (notLine (chooseArithOpByToken tok)) where
  out := by
    unfold chooseArithOpByToken
    split <;> rfl

instance (stacksize : Nat) : Leads R (closeStack stacksize) := by
  unfold closeStack
  infer_instance

instance (scope : SQScope) : Leads R (resolveOuters scope) := by
  unfold resolveOuters
  infer_instance

instance (scope : SQScope) (close : Bool) : Leads R (leaveScope scope close) := by
  unfold leaveScope
  infer_instance

instance (offset : Int) : Leads R (jump offset) := by
  unfold jump
  infer_instance

instance : Leads R beginBreakable := by
  have := leads_of_same R (fun fs => { fs with
    breaktargets := 0 :: fs.breaktargets, continuetargets := 0 :: fs.continuetargets }) fun _ => rfl
  unfold beginBreakable
  infer_instance

instance (trg src : StackPos) : Leads R (moveTo trg src) := by
  unfold moveTo
  infer_instance

instance : Leads R moveIfCurrentTargetIsLocal := by
  unfold moveIfCurrentTargetIsLocal
  infer_instance

instance (op : SQOpcode) [IsTrue (notLine op)] : Leads R (emitDerefOp op) := by
  unfold emitDerefOp
  infer_instance

instance (op : SQOpcode) [IsTrue (notLine op)] (p3 : Int) : Leads R (emit2ArgsOP op p3) := by
  unfold emit2ArgsOP
  infer_instance

instance (op : SQOpcode) [IsTrue (notLine op)] (op3 : Int) : Leads R (emitBinExp op op3) := by
  unfold emitBinExp
  infer_instance

instance (op : SQOpcode) [IsTrue (notLine op)] : Leads R (emitUnaryOP op) := by
  unfold emitUnaryOP
  infer_instance

instance (cons : Scalar) : Leads R (emitLoad cons) := by
  unfold emitLoad
  infer_instance

instance (value : Int) (target : StackPos) : Leads R (emitLoadConstInt value target) := by
  unfold emitLoadConstInt
  infer_instance

instance (bits : BitVec 32) (target : StackPos) :
    Leads R (emitLoadConstFloat bits target) := by
  unfold emitLoadConstFloat
  infer_instance

instance (value : Int) : Leads R (emitInt value) := by
  unfold emitInt
  infer_instance

instance (bits : BitVec 32) : Leads R (emitFloat bits) := by
  unfold emitFloat
  infer_instance

instance (v : Scalar) (target : StackPos) : Leads R (emitConstant v target) := by
  unfold emitConstant
  split <;> infer_instance

instance (tok : Token) : Leads R (emitCompoundLocal tok) := by
  unfold emitCompoundLocal
  infer_instance

instance (tok : Token) : Leads R (emitCompoundField tok) := by
  unfold emitCompoundField
  infer_instance

instance (tok : Token) (pos : Int) : Leads R (emitCompoundOuter tok pos) := by
  unfold emitCompoundOuter
  infer_instance

instance (tok : Token) (etype : EType) (pos : Int) :
    Leads R (emitCompoundArith tok etype pos) := by
  unfold emitCompoundArith
  split <;> infer_instance

instance (etype : EType) (pos : Int) : Leads R (emitAssign etype pos) := by
  unfold emitAssign
  split <;> infer_instance

instance (boundtarget : Operand) : Leads R (emitClosure boundtarget) := by
  unfold emitClosure
  infer_instance

instance (n : Nat) : Leads R (popTargets n) := by
  induction n with
  | zero => exact inferInstanceAs (Leads R (pure () : FuncM Unit))
  | succ n ih =>
    unfold popTargets
    infer_instance

instance (nargs : Nat) : Leads R (emitCall nargs) := by
  unfold emitCall
  infer_instance

instance : Leads R addVarparams := by
  have := leads_of_same R (fun fs => { fs with varparams := true }) fun _ => rfl
  unfold addVarparams
  infer_instance

instance (boundtarget : Operand) (defparams : Nat) :
    Leads R (popHeader boundtarget defparams) := by
  unfold popHeader
  infer_instance

instance (separator : Token) (hasattrs isstatic : Bool) :
    Leads R (emitMember separator hasattrs isstatic) := by
  unfold emitMember
  infer_instance

instance (base attrs : Option StackPos) : Leads R (emitClass base attrs) := by
  unfold emitClass
  infer_instance

instance (es : SQExpState) (diff : Int) : Leads R (emitPrefixIncDec es diff) := by
  unfold emitPrefixIncDec
  split <;> infer_instance

instance (es : SQExpState) (diff : Int) : Leads R (emitPostIncDec es diff) := by
  unfold emitPostIncDec
  split <;> infer_instance

instance (es : SQExpState) : Leads R (emitCallee es) := by
  unfold emitCallee
  split <;> infer_instance

instance (op : SQOpcode) [IsTrue (notLine op)] : Leads R (emitShortCircuit op) := by
  unfold emitShortCircuit
  infer_instance

instance : Leads R emitCondition := by
  unfold emitCondition
  infer_instance

instance (trg : StackPos) : Leads R (emitFirstBranch trg) := by
  unfold emitFirstBranch
  infer_instance

instance : Leads R emitJz := by
  unfold emitJz
  infer_instance

instance (pos : Int) : Leads R (jumpBack pos) := by
  unfold jumpBack
  infer_instance

instance : Leads R jumpHole := by
  unfold jumpHole
  infer_instance

instance (name : Text) : Leads R (pushNullVariable name) := by
  unfold pushNullVariable
  infer_instance

instance (idxname valname : Text) : Leads R (emitForeach idxname valname) := by
  unfold emitForeach
  infer_instance

instance : Leads R beginSwitch := by
  have := leads_of_same R (fun fs => { fs with breaktargets := 0 :: fs.breaktargets }) fun _ => rfl
  unfold beginSwitch
  infer_instance

instance : Leads R beginTry := by
  have := leads_of_same R (fun fs => { fs with
    traps := fs.traps + 1
    breaktargets := addTraps 1 fs.breaktargets
    continuetargets := addTraps 1 fs.continuetargets }) fun _ => rfl
  unfold beginTry
  infer_instance

instance (op : SQOpcode) [IsTrue (notLine op)] (retexp : Option Int) : Leads R (emitReturn op retexp) := by
  have := leads_of_same R (fun fs => { fs with returnexp := retexp.getD (-1) }) fun _ => rfl
  unfold emitReturn
  infer_instance

instance : Leads R setGenerator := leads_of_same R _ fun _ => rfl

instance (traps : Int) (scope : SQScope) : Leads R (emitBreak traps scope) := by
  unfold emitBreak
  infer_instance

instance : Leads R mainParameters := by
  have := leads_of_same R (fun fs => { fs with varparams := true }) fun _ => rfl
  unfold mainParameters
  infer_instance

end Sqnim.Compiler
