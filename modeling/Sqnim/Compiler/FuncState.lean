import Sqnim.Compiler.Lexer
import Sqnim.Compiler.Instruction

/-!
# SQFuncState

The state of a function that is being compiled, and the operations of `sqfuncstate.cpp`. A vector
that is used as a stack only is a list with its top first. Every access to an element of a vector
is an event, because the source does not check it beyond an assertion, and no build file of the
repository turns assertions off; one of the target stack is an event of its own.
-/
namespace Sqnim.Compiler

open Sqnim.Lib
open Prog (raise gets update when report demand)

/-- The values of `const` and `enum` declarations, and of literals. -/
inductive Scalar where
  | int (v : Int)
  | float (bits : BitVec 32)
  | bool (v : Bool)
  | str (s : Text)
  deriving DecidableEq, Repr

/-- `_name` is `none` for a temporary; `_end_op` is -1 for a variable that a closure captures. -/
structure SQLocalVarInfo where
  name : Option Text
  startOp : Int
  endOp : Int
  pos : Nat
  deriving DecidableEq, Repr

structure SQLineInfo where
  line : Int
  op : Int
  deriving DecidableEq, Repr

inductive SQOuterType where
  | otLocal | otOuter
  deriving DecidableEq, Repr

structure SQOuterVar where
  name : Text
  src : Nat
  type : SQOuterType
  deriving DecidableEq, Repr

/-- `SQFunctionProto`, as `BuildProto` fills it. -/
inductive SQFunctionProto where
  | mk (stacksize : Nat) (name : Option Text) (sourcename : Text) (bgenerator varparams : Bool)
    (literals : List Scalar) (parameters : List Text) (functions : List SQFunctionProto)
    (outervalues : List SQOuterVar) (localvarinfos : List SQLocalVarInfo)
    (lineinfos : List SQLineInfo) (defaultparams : List StackPos)
    (instructions : List SQInstruction)

namespace SQFunctionProto

def functions : SQFunctionProto → List SQFunctionProto
  | .mk _ _ _ _ _ _ _ functions _ _ _ _ _ => functions

def lineinfos : SQFunctionProto → List SQLineInfo
  | .mk _ _ _ _ _ _ _ _ _ _ lineinfos _ _ => lineinfos

def instructions : SQFunctionProto → List SQInstruction
  | .mk _ _ _ _ _ _ _ _ _ _ _ _ instructions => instructions

end SQFunctionProto

structure SQFuncState where
  returnexp : Int
  vlocals : List SQLocalVarInfo
  targetstack : List StackPos
  stacksize : Nat
  varparams : Bool
  bgenerator : Bool
  unresolvedbreaks : List Int
  unresolvedcontinues : List Int
  functions : List SQFunctionProto
  parameters : List Text
  outervalues : List SQOuterVar
  instructions : List SQInstruction
  localvarinfos : List SQLocalVarInfo
  literals : List Scalar
  name : Option Text
  sourcename : Text
  lineinfos : List SQLineInfo
  hasParent : Bool
  breaktargets : List Int
  continuetargets : List Int
  defaultparams : List StackPos
  lastline : Int
  traps : Int
  outers : Int
  optimization : Bool

/-- What a compilation reports: an access to an element of a vector, a look at the top of the target
stack, a target that is popped, an `assert`, a stack position handed out while `inUse` others are,
an instruction given to `AddInstruction`, one whose operand 0 was set later, and a
`DiscardTarget`. -/
inductive Event where
  | access (index : Int) (size : Nat)
  | top (fs : SQFuncState)
  | pop (fs : SQFuncState)
  | assertion (holds : Bool)
  | alloc (inUse : Nat)
  | emit (fs : SQFuncState) (i : SQInstruction)
  | patch (i : SQInstruction)
  | discard (fs : SQFuncState) (target : StackPos)

/-- The top of the target stack names a position in use. -/
def SQFuncState.hasTarget (fs : SQFuncState) : Bool :=
  fs.targetstack.head?.any fun target => target.idx < fs.vlocals.length

/-- An access needs an index below the size, and an `assert` its condition. -/
def Event.holds : Event → Bool
  | access index size => 0 ≤ index ∧ index < size
  | top fs => fs.targetstack ≠ []
  | pop fs => fs.hasTarget
  | assertion holds => holds
  | _ => true

instance : Judged Event := ⟨Event.holds⟩

namespace SQFuncState

/-- The operations of a function state have no loop that could go on for ever. -/
abbrev FuncM := Prog SQFuncState Event String Empty

/-- The constructor. -/
def create (hasParent : Bool) (name : Option Text) (sourcename : Text) : SQFuncState where
  returnexp := 0
  vlocals := []
  targetstack := []
  stacksize := 0
  varparams := false
  bgenerator := false
  unresolvedbreaks := []
  unresolvedcontinues := []
  functions := []
  parameters := []
  outervalues := []
  instructions := []
  localvarinfos := []
  literals := []
  name
  sourcename
  lineinfos := []
  hasParent
  breaktargets := []
  continuetargets := []
  defaultparams := []
  lastline := 0
  traps := 0
  outers := 0
  optimization := true

/-- Access the last element of a vector. -/
def back (size : Nat) : FuncM Unit := demand (.access (size - 1 : Int) size)

def getCurrentPos : FuncM Int := gets fun fs => (fs.instructions.length : Int) - 1

def getStackSize : FuncM Nat := gets fun fs => fs.vlocals.length

def snoozeOpt : FuncM Unit := update fun fs => { fs with optimization := false }

/-- `GetConstant` and `GetNumericConstant`. -/
def getConstant (cons : Scalar) : FuncM Int := do
  let lits ← gets literals
  match lits.idxOf? cons with
  | some i => pure i
  | none => do
    update fun fs => { fs with literals := fs.literals ++ [cons] }
    when ((lits.length + 1 : Int) > maxLiterals)
      (raise "internal compiler error: too many literals")
    pure lits.length

def setInstructionParams (pos : Int) (arg0 arg1 arg2 arg3 : Operand) : FuncM Unit := do
  let size ← gets fun fs => fs.instructions.length
  demand (.access pos size)
  update fun fs => { fs with
    instructions := fs.instructions.modify pos.toNat fun i => { i with
      arg0 := arg0.narrow8, arg1 := arg1.narrow32, arg2 := arg2.narrow8, arg3 := arg3.narrow8 } }

/-- An instruction with another operand 0. -/
def withArg0 (val : Operand) (i : SQInstruction) : SQInstruction := { i with arg0 := val.narrow8 }

def reportPatch : Option SQInstruction → FuncM Unit
  | some i => report (.patch i) rfl
  | none => pure ()

/-- `SetInstructionParam` for the operands that the compiler sets, 0 and 1. -/
def setInstructionParam0 (pos : Int) (val : Operand) : FuncM Unit := do
  let is ← gets instructions
  demand (.access pos is.length)
  reportPatch (is[pos.toNat]?.map (withArg0 val))
  update fun fs => { fs with instructions := fs.instructions.modify pos.toNat (withArg0 val) }

def setInstructionParam1 (pos val : Int) : FuncM Unit := do
  let size ← gets fun fs => fs.instructions.length
  demand (.access pos size)
  update fun fs => { fs with
    instructions := fs.instructions.modify pos.toNat fun i =>
      { i with arg1 := (Operand.imm val).narrow32 } }

def temporary : SQLocalVarInfo := ⟨none, 0, 0, 0⟩

/-- The limit is checked only when the stack grows, and before the new position is counted. -/
def allocStackPos : FuncM StackPos := do
  let npos ← gets fun fs => fs.vlocals.length
  let stacksize ← gets stacksize
  report (.alloc npos) rfl
  update fun fs => { fs with vlocals := fs.vlocals ++ [temporary] }
  when (npos + 1 > stacksize ∧ (stacksize : Int) > maxFuncStacksize)
    (raise "internal compiler error: too many locals")
  update fun fs => { fs with stacksize := max fs.stacksize (npos + 1) }
  pure ⟨npos⟩

/-- `PushTarget(n)`. -/
def pushTargetAt (n : StackPos) : FuncM StackPos := do
  update fun fs => { fs with targetstack := n :: fs.targetstack }
  pure n

/-- `PushTarget()`. -/
def pushTarget : FuncM StackPos := do
  let n ← allocStackPos
  pushTargetAt n

def topTarget : FuncM StackPos := do
  let fs ← gets id
  demand (.top fs)
  pure (fs.targetstack.headD ⟨0⟩)

def isTemporary (fs : SQFuncState) (pos : StackPos) : Bool :=
  (fs.vlocals[pos.idx]?.getD temporary).name.isNone

/-- `PopTarget`, which asserts that the target is a position in use before it looks there. -/
def popTarget : FuncM StackPos := do
  let npos ← topTarget
  let fs ← gets id
  demand (.pop fs)
  update fun fs => { fs with
    vlocals := if fs.isTemporary npos then fs.vlocals.dropLast else fs.vlocals
    targetstack := fs.targetstack.tail }
  pure npos

/-- `_end_op == UINT_MINUS_ONE`. -/
def isOuter (lvi : SQLocalVarInfo) : Bool := lvi.endOp = -1

def countOuters (fs : SQFuncState) (stacksize : Nat) : Nat :=
  (fs.vlocals.drop stacksize).countP isOuter

/-- One turn of the loop of `SetStackSize`, for the last variable. -/
def dropLocal (fs : SQFuncState) (lvi : SQLocalVarInfo) : SQFuncState :=
  if lvi.name.isSome then
    { fs with
      outers := if isOuter lvi then fs.outers - 1 else fs.outers
      localvarinfos := fs.localvarinfos ++ [{ lvi with endOp := (fs.instructions.length : Int) - 1 }]
      vlocals := fs.vlocals.dropLast }
  else { fs with vlocals := fs.vlocals.dropLast }

def setStackSize (n : Nat) : FuncM Unit :=
  update fun fs => (fs.vlocals.drop n).reverse.foldl dropLocal fs

def isLocal (fs : SQFuncState) (stkpos : Nat) : Bool :=
  match fs.vlocals[stkpos]? with
  | some lvi => lvi.name.isSome
  | none => false

/-- Unlike `AllocStackPos` this has no limit. -/
def pushLocalVariable (name : Text) : FuncM StackPos := do
  let pos ← gets fun fs => fs.vlocals.length
  let current ← getCurrentPos
  report (.alloc pos) rfl
  update fun fs => { fs with
    vlocals := fs.vlocals ++ [⟨some name, current + 1, 0, pos⟩]
    stacksize := max fs.stacksize (pos + 1) }
  pure ⟨pos⟩

/-- The innermost variable of a name. -/
def getLocalVariable (fs : SQFuncState) (name : Text) : Option StackPos :=
  (fs.vlocals.reverse.findIdx? fun lvi => lvi.name = some name).map fun k =>
    ⟨fs.vlocals.length - 1 - k⟩

def markLocalAsOuter (fs : SQFuncState) (pos : StackPos) : SQFuncState :=
  { fs with
    vlocals := fs.vlocals.modify pos.idx fun lvi => { lvi with endOp := -1 }
    outers := fs.outers + 1 }

def addOuterValue (fs : SQFuncState) (v : SQOuterVar) : SQFuncState :=
  { fs with outervalues := fs.outervalues ++ [v] }

/-- `GetOuterVariable` of a function state, given its parents from the inside out. -/
def getOuterVariable (name : Text) :
    SQFuncState → List SQFuncState → Option Nat × SQFuncState × List SQFuncState
  | fs, parents =>
    match fs.outervalues.findIdx? fun v => v.name = name with
    | some i => (some i, fs, parents)
    | none =>
      match parents with
      | [] => (none, fs, [])
      | parent :: rest =>
        match parent.getLocalVariable name with
        | some pos =>
          (some fs.outervalues.length, fs.addOuterValue ⟨name, pos.idx, .otLocal⟩,
            parent.markLocalAsOuter pos :: rest)
        | none =>
          match getOuterVariable name parent rest with
          | (some pos, parent', rest') =>
            (some fs.outervalues.length, fs.addOuterValue ⟨name, pos, .otOuter⟩, parent' :: rest')
          | (none, parent', rest') => (none, fs, parent' :: rest')

def addParameter (name : Text) : FuncM Unit := do
  let _ ← pushLocalVariable name
  update fun fs => { fs with parameters := fs.parameters ++ [name] }

def addDefaultParam (trg : StackPos) : FuncM Unit :=
  update fun fs => { fs with defaultparams := fs.defaultparams ++ [trg] }

/-- What `AddInstruction` does with the previous instruction and the new one. -/
inductive Fusion where
  /-- Append an instruction. -/
  | push (i : SQInstruction)
  /-- One instruction takes the place of both. -/
  | merge (pi : SQInstruction)
  /-- One takes the place of both, and the next one will not be merged into it. -/
  | retarget (pi : SQInstruction)
  /-- The previous instruction changes, and the new one is appended. -/
  | change (pi i : SQInstruction)
  /-- The new line takes the place of the previous one. -/
  | line (i : SQInstruction)
  deriving DecidableEq, Repr

/-- The instructions whose target a following `_OP_MOVE` may replace. -/
def retargets : SQOpcode → Bool
  | .opGet | .opAdd | .opSub | .opMul | .opDiv | .opMod | .opBitw | .opLoadint | .opLoadfloat
  | .opLoadbool | .opLoad => true
  | _ => false

/-- The kind of literal that `_OP_APPENDARRAY` takes from a load. -/
def literalKind : SQOpcode → Option Int
  | .opLoad => some aatLiteral
  | .opLoadint => some aatInt
  | .opLoadbool => some aatBool
  | .opLoadfloat => some aatFloat
  | _ => none

/-- The register that an instruction writes holds no local variable. -/
def targetIsTemp (fs : SQFuncState) (pi : SQInstruction) : Bool := !fs.isLocal pi.arg0.value.toNat

/-- The optimiser of `AddInstruction`, by the new instruction. -/
def peephole (fs : SQFuncState) (pi i : SQInstruction) : Fusion :=
  match i.op with
  | .opJz =>
    if pi.op = .opCmp ∧ pi.arg1.value < 0xFF then
      .merge { pi with op := .opJcmp, arg0 := pi.arg1.narrow8, arg1 := i.arg1 }
    else .push i
  | .opSet | .opNewslot =>
    if i.arg0.value = i.arg3.value then .push { i with arg0 := .none } else .push i
  | .opSetouter =>
    if i.arg0.value = i.arg2.value then .push { i with arg0 := .none } else .push i
  | .opReturn =>
    if fs.hasParent ∧ i.arg0.value ≠ maxFuncStacksize ∧ pi.op = .opCall ∧
        fs.returnexp < (fs.instructions.length : Int) - 1 then
      .change { pi with op := .opTailcall } i
    else if pi.op = .opClose then .merge i
    else .push i
  | .opGet =>
    if pi.op = .opLoad ∧ pi.arg0.value = i.arg2.value ∧ fs.targetIsTemp pi then
      .merge { pi with op := .opGetk, arg0 := i.arg0, arg2 := i.arg1.narrow8 }
    else .push i
  | .opPrepcall =>
    if pi.op = .opLoad ∧ pi.arg0.value = i.arg1.value ∧ fs.targetIsTemp pi then
      .merge { pi with op := .opPrepcallk, arg0 := i.arg0, arg2 := i.arg2, arg3 := i.arg3 }
    else .push i
  | .opAppendarray =>
    match literalKind pi.op with
    | some aat =>
      if pi.arg0.value = i.arg1.value ∧ fs.targetIsTemp pi then
        .merge { pi with op := .opAppendarray, arg0 := i.arg0, arg2 := .imm aat, arg3 := .none }
      else .push i
    | none => .push i
  | .opMove =>
    if retargets pi.op ∧ pi.arg0.value = i.arg1.value then .retarget { pi with arg0 := i.arg0 }
    else if pi.op = .opMove then
      .merge { pi with op := .opDmove, arg2 := i.arg0, arg3 := i.arg1.narrow8 }
    else .push i
  | .opLoad =>
    if pi.op = .opLoad ∧ i.arg1.value < 256 then
      .merge { pi with op := .opDload, arg2 := i.arg0, arg3 := i.arg1.narrow8 }
    else .push i
  | .opEq | .opNe =>
    if pi.op = .opLoad ∧ pi.arg0.value = i.arg1.value ∧ fs.targetIsTemp pi then
      .merge { pi with op := i.op, arg0 := i.arg0, arg2 := i.arg2, arg3 := .none }
    else .push i
  | .opLoadnulls =>
    if pi.op = .opLoadnulls ∧ pi.arg0.value + pi.arg1.value = i.arg0.value then
      .merge { pi with arg1 := .imm (pi.arg1.value + 1) }
    else .push i
  | .opLine => if pi.op = .opLine then .line i else .push i
  | _ => .push i

/-- What to do with a new instruction: the optimiser looks at the previous one, if it may. -/
def fusion (fs : SQFuncState) (i : SQInstruction) : Fusion :=
  match fs.instructions.getLast? with
  | some pi => if fs.optimization then fs.peephole pi i else .push i
  | none => .push i

def pushInstruction (i : SQInstruction) (fs : SQFuncState) : SQFuncState :=
  { fs with optimization := true, instructions := fs.instructions ++ [i] }

def setLast (pi : SQInstruction) (fs : SQFuncState) : SQFuncState :=
  { fs with instructions := fs.instructions.dropLast ++ [pi] }

/-- The instructions after a fusion. -/
def apply (fs : SQFuncState) : Fusion → SQFuncState
  | .push i => fs.pushInstruction i
  | .merge pi => fs.setLast pi
  | .retarget pi => { fs.setLast pi with optimization := false }
  | .change pi i => (fs.setLast pi).pushInstruction i
  | .line i =>
    pushInstruction i { fs with
      instructions := fs.instructions.dropLast, lineinfos := fs.lineinfos.dropLast }

/-- `AddInstruction(SQInstruction &)`. -/
def addSQInstruction (i : SQInstruction) : FuncM Unit := do
  let fs ← gets id
  report (.emit fs i) rfl
  -- only the fusion of two lines accesses another vector
  when (fs.fusion i = .line i) (back fs.lineinfos.length)
  update fun fs => fs.apply (fs.fusion i)

def addInstruction (op : SQOpcode) (args : List Operand) : FuncM Unit :=
  addSQInstruction (.make op args)

def addLineInfos (line : Int) (lineop force : Bool) : FuncM Unit := do
  let lastline ← gets lastline
  when (lastline ≠ line ∨ force) (do
    let current ← getCurrentPos
    when lineop (addInstruction .opLine [.imm 0, .imm line])
    when (lastline ≠ line) (update fun fs => { fs with
      lineinfos := fs.lineinfos ++ [⟨line, current + 1⟩] })
    update fun fs => { fs with lastline := line })

/-- The instructions whose result `DiscardTarget` can drop. -/
def discards : SQOpcode → Bool
  | .opSet | .opNewslot | .opSetouter | .opCall => true
  | _ => false

/-- The instructions after the discarded target is dropped from the last one. -/
def dropTarget (target : StackPos) (fs : SQFuncState) : SQFuncState :=
  match fs.instructions.getLast? with
  | some pi =>
    if fs.optimization ∧ discards pi.op ∧ pi.arg0.value = target.idx then
      fs.setLast { pi with arg0 := .none }
    else fs
  | none => fs

def discardTarget : FuncM Unit := do
  let target ← popTarget
  let fs ← gets id
  report (.discard fs target) rfl
  update (dropTarget target)

def buildProto (fs : SQFuncState) : SQFunctionProto :=
  .mk fs.stacksize fs.name fs.sourcename fs.bgenerator fs.varparams fs.literals fs.parameters
    fs.functions fs.outervalues fs.localvarinfos fs.lineinfos fs.defaultparams fs.instructions

end SQFuncState
end Sqnim.Compiler
