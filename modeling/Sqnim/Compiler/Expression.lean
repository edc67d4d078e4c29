import Sqnim.Compiler.State

/-!
# SQCompiler: expressions

The functions that call each other recursively take the ones they call again from `Self`, and
every other function they call directly.
-/
namespace Sqnim.Compiler

open Sqnim.Lib
open Prog (raise gets update when report demand loop Turn)
open SQFuncState

/-- The functions that are called again from inside a function they call. -/
structure Self where
  statement : Bool → CompM Unit
  expression : CompM Unit
  commaExpr : CompM Unit
  prefixedExpr : CompM Unit
  logicalAndExp : CompM Unit
  logicalOrExp : CompM Unit
  parseTableOrClass : Token → Token → CompM Unit

variable (self : Self)

/-! ## Calls and functions -/

/-- One argument of a call, and the comma after it. -/
def callArg : CompM Unit := do
  self.expression
  onFunc moveIfCurrentTargetIsLocal
  when ((← token) = .ch ',') (do
    lex
    when ((← token) = .ch ')') (error "expression expected, found ')'"))

def popTargets : Nat → FuncM Unit
  | 0 => pure ()
  | n + 1 => do
    let _ ← popTarget
    popTargets n

/-- The instruction of a call with `nargs` arguments, `this` among them. -/
def emitCall (nargs : Nat) : FuncM Unit := do
  popTargets (nargs - 1)
  let stackbase ← popTarget
  let closure ← popTarget
  let trg ← pushTarget
  addInstruction .opCall [.reg trg, .reg closure, .reg stackbase, .imm nargs]

/-- The key and the value of an initialiser, in brackets or by name. -/
def keyAndValue : CompM Unit := do
  if (← token) = .ch '[' then do
    lex
    self.commaExpr
    expect (.ch ']')
    expect (.ch '=')
    self.expression
  else do
    let trg ← onFunc pushTarget
    let id ← expectText .tkIdentifier
    onFunc (do
      let k ← getConstant (.str id)
      addInstruction .opLoad [.reg trg, .imm k])
    expect (.ch '=')
    self.expression

/-- The initialiser after a call. -/
def postCall : CompM Unit := do
  let retval ← onFunc topTarget
  lex
  loop (fun _ => do
    if (← token) = .ch '}' then pure (.done ())
    else do
      keyAndValue self
      when ((← token) = .ch ',') lex
      onFunc (do
        let val ← popTarget
        let key ← popTarget
        addInstruction .opSet [.none, .reg retval, .reg key, .reg val])
      pure (.again ())) ()
  lex

def functionCallArgs (rawcall : Bool) : CompM Unit := do
  let nargs ← loop (fun nargs => do
    if (← token) = .ch ')' then pure (.done nargs)
    else do
      callArg self
      pure (.again (nargs + 1))) 1
  lex
  when (rawcall ∧ nargs < 3) (error "rawcall requires at least 2 parameters (callee and this)")
  onFunc (emitCall (if rawcall then nargs - 2 else nargs))
  when ((← token) = .ch '{') (postCall self)

def parseBindEnv : CompM Operand := do
  lex
  self.expression
  let boundtarget ← onFunc topTarget
  expect (.ch ']')
  pure (.reg boundtarget)

/-- The bound environment, if there is one. -/
def bindEnv : CompM Operand := do
  if (← token) = .ch '[' then parseBindEnv self else pure .none

/-- The default value of a parameter, which is computed in the enclosing function. -/
def paramDefault (child : SQFuncState) (defparams : Nat) : CompM (SQFuncState × Nat) := do
  if (← token) = .ch '=' then do
    lex
    self.expression
    let trg ← onFunc topTarget
    let child ← onChild child (addDefaultParam trg)
    pure (child, defparams + 1)
  else do
    when (defparams > 0) (error "expected '='")
    pure (child, defparams)

def addVarparams : FuncM Unit := do
  addParameter ['v', 'a', 'r', 'g', 'v']
  update fun fs => { fs with varparams := true }

/-- A turn of the loop of `CreateFunction`: the function state with its parameters so far, and the
number of their defaults. -/
def parameterTurn (r : SQFuncState × Nat) :
    CompM (Turn (SQFuncState × Nat) (SQFuncState × Nat)) := do
  let t ← token
  if t = .ch ')' then pure (.done r)
  else if t = .tkVarparams then do
    when (r.2 > 0)
      (error "function with default parameters cannot have variable number of parameters")
    let child ← onChild r.1 addVarparams
    lex
    when ((← token) ≠ .ch ')') (error "expected ')'")
    pure (.done (child, r.2))
  else do
    let paramname ← expectText .tkIdentifier
    let child ← onChild r.1 (addParameter paramname)
    let r ← paramDefault self child r.2
    let t ← token
    when (t ≠ .ch ',' ∧ t ≠ .ch ')') (error "expected ')' or ','")
    when (t = .ch ',') lex
    pure (.again r)

/-- The code after the body of a function. -/
def finishFunction (line : Int) (lineinfo : Bool) : FuncM Unit := do
  addLineInfos line lineinfo true
  addInstruction .opReturn [.imm (-1)]
  setStackSize 0

/-- `child` becomes `_fs`. -/
def enterChildState (child : SQFuncState) : CompM Unit :=
  update fun s => { s with fs := child, parents := s.fs :: s.parents }

/-- `_fs` becomes one of the functions of the function state around it. -/
def leaveChildState : CompM Unit := update fun s =>
  let currchunk := s.parents.headD s.fs
  { s with
    fs := { currchunk with functions := currchunk.functions ++ [s.fs.buildProto] }
    parents := s.parents.tail }

/-- The body of a function. -/
def functionBody (child : SQFuncState) : CompM Unit := do
  enterChildState child
  self.statement false
  let l ← gets (·.lexer)
  let lineinfo ← gets (·.lineinfo)
  onFunc (finishFunction (if l.prevtoken = .ch '\n' then l.lasttokenline else l.currentline)
    lineinfo)
  leaveChildState

/-- The targets of the bound environment and of the defaults are popped before the body. -/
def popHeader (boundtarget : Operand) (defparams : Nat) : FuncM Unit := do
  when (boundtarget.value ≠ maxFuncStacksize) (popTargets 1)
  popTargets defparams

def createFunction (name : Option Text) (boundtarget : Operand) : CompM Unit := do
  let sourcename ← gets (·.sourcename)
  let child ← onChild (.create true name sourcename) (addParameter ['t', 'h', 'i', 's'])
  let r ← loop (parameterTurn self) (child, 0)
  expect (.ch ')')
  onFunc (popHeader boundtarget r.2)
  functionBody self r.1

def functionExp : CompM Unit := do
  lex
  let boundtarget ← bindEnv self
  expect (.ch '(')
  createFunction self none boundtarget
  onFunc (emitClosure boundtarget)

/-! ## Tables and classes -/

def methodName (tk : Token) : CompM Text :=
  if tk = .tkFunction then expectText .tkIdentifier
  else pure ['c', 'o', 'n', 's', 't', 'r', 'u', 'c', 't', 'o', 'r']

/-- A method of a table or a class: its key and its closure. -/
def parseMethod : CompM Unit := do
  let tk ← token
  lex
  let id ← methodName tk
  onFunc (emitLoad (.str id))
  let boundtarget ← bindEnv self
  expect (.ch '(')
  createFunction self (some id) boundtarget
  onFunc (emitClosure boundtarget)

/-- The attributes of a class member, if there are any. -/
def memberAttributes (separator : Token) : CompM Bool := do
  if separator = .ch ';' ∧ (← token) = .tkAttrOpen then do
    onFunc (do
      let trg ← pushTarget
      addInstruction .opNewobj [.reg trg, .imm 0, .imm notTable])
    lex
    self.parseTableOrClass (.ch ',') .tkAttrClose
    pure true
  else pure false

def memberStatic (separator : Token) : CompM Bool := do
  if separator = .ch ';' ∧ (← token) = .tkStatic then do
    lex
    pure true
  else pure false

/-- The key and the value of a member. A string key is known to tables only. -/
def member (separator : Token) : CompM Unit := do
  let t ← token
  if t = .tkFunction ∨ t = .tkConstructor then parseMethod self
  else if t = .tkStringLiteral ∧ separator = .ch ',' then do
    let trg ← onFunc pushTarget
    let id ← expectText .tkStringLiteral
    onFunc (do
      let k ← getConstant (.str id)
      addInstruction .opLoad [.reg trg, .imm k])
    expect (.ch ':')
    self.expression
  else keyAndValue self

/-- The instruction that stores a member. -/
def emitMember (separator : Token) (hasattrs isstatic : Bool) : FuncM Unit := do
  let val ← popTarget
  let key ← popTarget
  when hasattrs (do
    let attrs ← popTarget
    demand (.assertion (attrs.idx + 1 = key.idx)))
  let table ← topTarget
  if separator = .ch ',' then
    addInstruction .opNewslot [.none, .reg table, .reg key, .reg val]
  else
    addInstruction .opNewslota [
      .imm ((if hasattrs then newSlotAttributesFlag else 0) +
        (if isstatic then newSlotStaticFlag else 0)),
      .reg table, .reg key, .reg val]

/-- One member, with its optional separator. -/
def parseMember (separator : Token) : CompM Unit := do
  let hasattrs ← memberAttributes self separator
  let isstatic ← memberStatic separator
  member self separator
  when ((← token) = separator) lex
  onFunc (emitMember separator hasattrs isstatic)

def parseTableOrClass (separator terminator : Token) : CompM Unit := do
  let tpos ← onFunc getCurrentPos
  let nkeys ← loop (fun nkeys => do
    if (← token) = terminator then pure (.done nkeys)
    else do
      parseMember self separator
      pure (.again (nkeys + 1))) 0
  when (separator = .ch ',') (onFunc (setInstructionParam1 tpos nkeys))
  lex

/-- The base of a class, if it extends one. -/
def classBase : CompM (Option StackPos) := do
  if (← token) = .tkExtends then do
    lex
    self.expression
    let base ← onFunc topTarget
    pure (some base)
  else pure none

/-- The attributes of a class, if there are any. -/
def classAttributes : CompM (Option StackPos) := do
  if (← token) = .tkAttrOpen then do
    lex
    onFunc (do
      let trg ← pushTarget
      addInstruction .opNewobj [.reg trg, .imm 0, .imm notTable])
    parseTableOrClass self (.ch ',') .tkAttrClose
    let attrs ← onFunc topTarget
    pure (some attrs)
  else pure none

/-- -1 where there is no position. -/
def optionalReg (p : Option StackPos) : Operand := (p.map Operand.reg).getD (.imm (-1))

def emitClass (base attrs : Option StackPos) : FuncM Unit := do
  when attrs.isSome (popTargets 1)
  when base.isSome (popTargets 1)
  let trg ← pushTarget
  addInstruction .opNewobj [.reg trg, optionalReg base, optionalReg attrs, .imm notClass]

def classExp : CompM Unit := do
  let base ← classBase self
  let attrs ← classAttributes self
  expect (.ch '{')
  onFunc (emitClass base attrs)
  parseTableOrClass self (.ch ';') (.ch '}')

/-! ## Factors -/

def unaryOP (op : SQOpcode) : CompM Unit := do
  self.prefixedExpr
  onFunc (emitUnaryOP op)

/-- What `delete` does to the kind of expression it finds. -/
def deleteTarget (etype : EType) : CompM Unit :=
  if etype = .expr then error "can't delete an expression"
  else if etype = .object ∨ etype = .base then onFunc (emit2ArgsOP .opDelete 0)
  else error "cannot delete an (outer) local"

def deleteExpr : CompM Unit := do
  lex
  let es ← gets (·.es)
  setDonotGet
  self.prefixedExpr
  let etype ← gets (·.es.etype)
  deleteTarget etype
  setEs es

/-- The code of `++` and `--` before an expression. -/
def emitPrefixIncDec (es : SQExpState) (diff : Int) : FuncM Unit :=
  match es.etype with
  | .object | .base => emit2ArgsOP .opInc diff
  | .local => do
    let src ← topTarget
    addInstruction .opIncl [.reg src, .reg src, .imm 0, .imm diff]
  | .outer => do
    let tmp ← pushTarget
    addInstruction .opGetouter [.reg tmp, .imm es.epos]
    addInstruction .opIncl [.reg tmp, .reg tmp, .imm 0, .imm diff]
    addInstruction .opSetouter [.reg tmp, .imm es.epos, .reg tmp]
  | .expr => pure ()

def prefixIncDec (tok : Token) : CompM Unit := do
  lex
  let es ← gets (·.es)
  setDonotGet
  self.prefixedExpr
  let found ← gets (·.es)
  when (found.etype = .expr) (error "can't '++' or '--' an expression")
  onFunc (emitPrefixIncDec found (if tok = .tkMinusminus then -1 else 1))
  setEs es

/-- `GetOuterVariable` of `_fs`, which may mark variables of the functions around it. -/
def getOuter (name : Text) : CompM (Option Nat) := do
  let r ← gets fun s => getOuterVariable name s.fs s.parents
  update fun s => { s with fs := r.2.1, parents := r.2.2 }
  pure r.1

/-- The value of a constant, whose name may be followed by a field of it. -/
def constantValue (id : Text) : Constant → CompM Scalar
  | .value v => pure v
  | .table fields => do
    expect (.ch '.')
    let constid ← expectText .tkIdentifier
    match fields.lookup constid with
    | some v => pure v
    | none =>
      error ("invalid constant [" ++ String.ofList id ++ "." ++ String.ofList constid ++ "]")

def localFactor (pos : StackPos) : CompM Unit := do
  let _ ← onFunc (pushTargetAt pos)
  setEtype .local
  setEpos pos.idx

def outerFactor (pos : Nat) : CompM Unit := do
  if ← gets needGet then do
    let trg ← onFunc pushTarget
    setEpos trg.idx
    onFunc (addInstruction .opGetouter [.reg trg, .imm pos])
  else do
    setEtype .outer
    setEpos pos

def constantFactor (id : Text) (constant : Constant) : CompM Unit := do
  let constval ← constantValue id constant
  let trg ← onFunc pushTarget
  setEpos trg.idx
  onFunc (emitConstant constval trg)
  setEtype .expr

/-- A field of `this`, which is always found at position 0. -/
def fieldFactor (id : Text) : CompM Unit := do
  onFunc (do
    let _ ← pushTargetAt ⟨0⟩
    emitLoad (.str id))
  when (← gets needGet) (onFunc (emit2ArgsOP .opGet 0))
  setEtype .object

def identifier (id : Text) : CompM Unit := do
  lex
  match (← gets (·.fs)).getLocalVariable id with
  | some pos => localFactor pos
  | none => do
    match ← getOuter id with
    | some pos => outerFactor pos
    | none => do
      match (← gets (·.consts)).lookup id with
      | some constant => constantFactor id constant
      | none => fieldFactor id

/-- `[` … `]` -/
def arrayLiteral : CompM Unit := do
  let apos ← onFunc (do
    let trg ← pushTarget
    addInstruction .opNewobj [.reg trg, .imm 0, .imm 0, .imm notArray]
    getCurrentPos)
  lex
  let key ← loop (fun key => do
    if (← token) = .ch ']' then pure (.done key)
    else do
      self.expression
      when ((← token) = .ch ',') lex
      onFunc (do
        let val ← popTarget
        let array ← topTarget
        addInstruction .opAppendarray [.reg array, .reg val, .imm aatStack])
      pure (.again (key + 1))) 0
  onFunc (setInstructionParam1 apos key)
  lex

def tableLiteral : CompM Unit := do
  onFunc (do
    let trg ← pushTarget
    addInstruction .opNewobj [.reg trg, .imm 0, .imm notTable])
  lex
  parseTableOrClass self (.ch ',') (.ch '}')

def minusFactor : CompM Unit := do
  lex
  let t ← token
  if t = .tkInteger then do
    let v ← gets (·.lexer.nvalue)
    onFunc (emitInt (negInt v))
    lex
  else if t = .tkFloat then do
    let v ← gets (·.lexer.fvalue)
    onFunc (emitFloat (negFloat v))
    lex
  else unaryOP self .opNeg

def tildeFactor : CompM Unit := do
  lex
  if (← token) = .tkInteger then do
    let v ← gets (·.lexer.nvalue)
    onFunc (emitInt (notInt v))
    lex
  else unaryOP self .opBwnot

def parenthesized : CompM Unit := do
  lex
  self.commaExpr
  expect (.ch ')')

/-- A factor that is one token, and the code for it. -/
def tokenFactor (m : FuncM Unit) : CompM Unit := do
  onFunc m
  lex

def lexThen (m : CompM Unit) : CompM Unit := do
  lex
  m

/-- The factors after which `Factor` sets the type of the expression. -/
def plainFactor (t : Token) : CompM Unit := do
  let l ← gets (·.lexer)
  match t with
  | .tkStringLiteral => tokenFactor (emitLoad (.str l.longstr))
  | .tkNull => tokenFactor (do
      let trg ← pushTarget
      addInstruction .opLoadnulls [.reg trg, .imm 1])
  | .tkInteger => tokenFactor (emitInt l.nvalue)
  | .tkFloat => tokenFactor (emitFloat l.fvalue)
  | .tkTrue | .tkFalse => tokenFactor (do
      let trg ← pushTarget
      addInstruction .opLoadbool [.reg trg, .imm (if t = .tkTrue then 1 else 0)])
  | .ch '[' => arrayLiteral self
  | .ch '{' => tableLiteral self
  | .tkFunction | .ch '@' => functionExp self
  | .tkClass => lexThen (classExp self)
  | .ch '-' => minusFactor self
  | .ch '!' => lexThen (unaryOP self .opNot)
  | .ch '~' => tildeFactor self
  | .tkTypeof => lexThen (unaryOP self .opTypeof)
  | .tkResume => lexThen (unaryOP self .opResume)
  | .tkClone => lexThen (unaryOP self .opClone)
  | .tkRawcall => do
    lex
    expect (.ch '(')
    functionCallArgs self true
  | .tkMinusminus | .tkPlusplus => prefixIncDec self t
  | .tkDelete => deleteExpr self
  | .ch '(' => parenthesized self
  | .tkLine => tokenFactor (emitInt l.currentline)
  | .tkFile => do
    let sourcename ← gets (·.sourcename)
    tokenFactor (emitLoad (.str sourcename))
  | _ => error "expression expected"

def baseFactor : CompM Unit := do
  lex
  let trg ← onFunc (do
    let trg ← pushTarget
    addInstruction .opGetbase [.reg trg]
    topTarget)
  setEtype .base
  setEpos trg.idx

/-- `::`, which becomes a `.` for `PrefixedExpr` to go on with. -/
def rootFactor : CompM Unit := do
  onFunc (do
    let trg ← pushTarget
    addInstruction .opLoadroot [.reg trg])
  setEtype .object
  setToken (.ch '.')
  setEpos (-1)

/-- The switch of `Factor`. -/
def factorOf (t : Token) : CompM Unit :=
  match t with
  | .tkBase => baseFactor
  | .tkIdentifier | .tkConstructor | .tkThis => do
    let s ← gets (·.lexer.svalue)
    identifier (if t = .tkThis then ['t', 'h', 'i', 's']
      else if t = .tkConstructor then ['c', 'o', 'n', 's', 't', 'r', 'u', 'c', 't', 'o', 'r']
      else s)
  | .tkDoubleColon => rootFactor
  | _ => do
    plainFactor self t
    setEtype .expr

/-- `Factor`. The position that it returns is stored by `PrefixedExpr` and never read. -/
def factor : CompM Unit := do
  let t ← token
  factorOf self t

/-! ## Operators -/

/-- What follows a field or an index: the value of a field of `base` is taken at once. -/
def derefField : CompM Unit := do
  if (← gets (·.es.etype)) = .base then do
    let pos ← onFunc (do
      emit2ArgsOP .opGet 0
      topTarget)
    setEtype .expr
    setEpos pos.idx
  else do
    when (← gets needGet) (onFunc (emit2ArgsOP .opGet 0))
    setEtype .object

/-- The code of `++` and `--` after an expression. -/
def emitPostIncDec (es : SQExpState) (diff : Int) : FuncM Unit :=
  match es.etype with
  | .expr => raise "can't '++' or '--' an expression"
  | .object | .base => do
    when es.donotGet (raise "can't '++' or '--' an expression")
    emit2ArgsOP .opPinc diff
  | .local => do
    let src ← popTarget
    let trg ← pushTarget
    addInstruction .opPincl [.reg trg, .reg src, .imm 0, .imm diff]
  | .outer => do
    let tmp1 ← pushTarget
    let tmp2 ← pushTarget
    addInstruction .opGetouter [.reg tmp2, .imm es.epos]
    addInstruction .opPincl [.reg tmp1, .reg tmp2, .imm 0, .imm diff]
    addInstruction .opSetouter [.reg tmp2, .imm es.epos, .reg tmp2]
    let _ ← popTarget
    pure ()

/-- The registers of a call: the closure, and `this`. -/
def emitCallee (es : SQExpState) : FuncM Unit :=
  match es.etype with
  | .object => do
    let key ← popTarget
    let table ← popTarget
    let closure ← pushTarget
    let ttarget ← pushTarget
    addInstruction .opPrepcall [.reg closure, .reg key, .reg table, .reg ttarget]
  | .outer => do
    let closure ← pushTarget
    addInstruction .opGetouter [.reg closure, .imm es.epos]
    let this ← pushTarget
    addInstruction .opMove [.reg this, .reg ⟨0⟩]
  | _ => do
    let this ← pushTarget
    addInstruction .opMove [.reg this, .reg ⟨0⟩]

/-- `.` and the name of a field. -/
def dotTurn : CompM (Turn Unit Unit) := do
  lex
  let trg ← onFunc pushTarget
  let id ← expectText .tkIdentifier
  onFunc (do
    let k ← getConstant (.str id)
    addInstruction .opLoad [.reg trg, .imm k])
  derefField
  pure (.again ())

/-- A turn of the loop of `PrefixedExpr`. -/
def prefixedTurn : CompM (Turn Unit Unit) := do
  let t ← token
  match t with
  | .ch '.' => dotTurn
  | .ch '[' => do
    when ((← prevtoken) = .ch '\n')
      (error "cannot break deref/or comma needed after [exp]=exp slot declaration")
    lex
    self.expression
    expect (.ch ']')
    derefField
    pure (.again ())
  | .tkMinusminus | .tkPlusplus => do
    if ← gets isEndOfStatement then pure (.done ())
    else do
      lex
      let es ← gets (·.es)
      onFunc (emitPostIncDec es (if t = .tkMinusminus then -1 else 1))
      pure (.done ())
  | .ch '(' => do
    let es ← gets (·.es)
    onFunc (emitCallee es)
    setEtype .expr
    lex
    functionCallArgs self false
    pure (.again ())
  | _ => pure (.done ())

def prefixedExpr : CompM Unit := do
  factor self
  loop (fun _ => prefixedTurn self) ()

/-- `BIN_EXP` -/
def binExp (op : SQOpcode) (f : CompM Unit) (op3 : Int) : CompM Unit := do
  lex
  invokeExp f
  onFunc (emitBinExp op op3)
  setEtype .expr

/-- A level of left-associative operators over the level `f`. -/
def binLevel (f : CompM Unit) (ops : Token → Option (SQOpcode × Int)) : CompM Unit := do
  f
  loop (fun _ => do
    match ops (← token) with
    | some (op, op3) => do
      binExp op f op3
      pure (.again ())
    | none => pure (.done ())) ()

def multExp : CompM Unit := binLevel (prefixedExpr self) fun
  | .ch '*' => some (.opMul, 0)
  | .ch '/' => some (.opDiv, 0)
  | .ch '%' => some (.opMod, 0)
  | _ => none

def plusExp : CompM Unit := binLevel (multExp self) fun
  | .ch '+' => some (.opAdd, 0)
  | .ch '-' => some (.opSub, 0)
  | _ => none

def shiftExp : CompM Unit := binLevel (plusExp self) fun
  | .tkUshiftr => some (.opBitw, bwUshiftr)
  | .tkShiftl => some (.opBitw, bwShiftl)
  | .tkShiftr => some (.opBitw, bwShiftr)
  | _ => none

def compExp : CompM Unit := binLevel (shiftExp self) fun
  | .ch '>' => some (.opCmp, cmpG)
  | .ch '<' => some (.opCmp, cmpL)
  | .tkGe => some (.opCmp, cmpGe)
  | .tkLe => some (.opCmp, cmpLe)
  | .tkIn => some (.opExists, 0)
  | .tkInstanceof => some (.opInstanceof, 0)
  | _ => none

def eqExp : CompM Unit := binLevel (compExp self) fun
  | .tkEq => some (.opEq, 0)
  | .tkNe => some (.opNe, 0)
  | .tk3wayscmp => some (.opCmp, cmp3w)
  | _ => none

def bitwiseAndExp : CompM Unit := binLevel (eqExp self) fun
  | .ch '&' => some (.opBitw, bwAnd)
  | _ => none

def bitwiseXorExp : CompM Unit := binLevel (bitwiseAndExp self) fun
  | .ch '^' => some (.opBitw, bwXor)
  | _ => none

def bitwiseOrExp : CompM Unit := binLevel (bitwiseXorExp self) fun
  | .ch '|' => some (.opBitw, bwOr)
  | _ => none

/-- The jump over the right operand of `&&` or `||`. -/
def emitShortCircuit (op : SQOpcode) : FuncM (StackPos × Int) := do
  let firstExp ← popTarget
  let trg ← pushTarget
  addInstruction op [.reg trg, .imm 0, .reg firstExp, .imm 0]
  let jpos ← getCurrentPos
  moveTo trg firstExp
  pure (trg, jpos)

def endShortCircuit (trg : StackPos) (jpos : Int) : FuncM Unit := do
  snoozeOpt
  let secondExp ← popTarget
  moveTo trg secondExp
  snoozeOpt
  let current ← getCurrentPos
  setInstructionParam1 jpos (current - jpos)

/-- `&&` and `||`, whose right operand is again of their own level. -/
def shortCircuit (op : SQOpcode) (again : CompM Unit) : CompM Unit := do
  let r ← onFunc (emitShortCircuit op)
  lex
  invokeExp again
  onFunc (endShortCircuit r.1 r.2)
  setEtype .expr

def logicalAndExp : CompM Unit := do
  bitwiseOrExp self
  when ((← token) = .tkAnd) (shortCircuit .opAnd self.logicalAndExp)

def logicalOrExp : CompM Unit := do
  logicalAndExp self
  when ((← token) = .tkOr) (shortCircuit .opOr self.logicalOrExp)

/-! ## Assignments and conditional expressions -/

def compoundTokens : List Token := [.tkMinuseq, .tkPluseq, .tkMuleq, .tkDiveq, .tkModeq]

def assignment (op : Token) : CompM Unit := do
  let es ← gets (·.es)
  when (es.etype = .expr) (error "can't assign expression")
  when (es.etype = .base) (error "'base' cannot be modified")
  lex
  self.expression
  if op = .tkNewslot then
    if es.etype = .object then onFunc (emitDerefOp .opNewslot)
    else error "can't 'create' a local slot"
  else if op = .ch '=' then onFunc (emitAssign es.etype es.epos)
  else onFunc (emitCompoundArith op es.etype es.epos)

/-- The jump over the first branch of `?:`, and the target of both. -/
def emitCondition : FuncM (Int × StackPos) := do
  let cond ← popTarget
  addInstruction .opJz [.reg cond]
  let jzpos ← getCurrentPos
  let trg ← pushTarget
  pure (jzpos, trg)

/-- The end of the first branch: the positions of its end and of the jump after it. -/
def emitFirstBranch (trg : StackPos) : FuncM Int := do
  let firstExp ← popTarget
  moveTo trg firstExp
  let endfirstexp ← getCurrentPos
  jump 0
  pure endfirstexp

def emitSecondBranch (trg : StackPos) (jzpos endfirstexp jmppos : Int) : FuncM Unit := do
  let secondExp ← popTarget
  moveTo trg secondExp
  let current ← getCurrentPos
  setInstructionParam1 jmppos (current - jmppos)
  setInstructionParam1 jzpos (endfirstexp - jzpos + 1)
  snoozeOpt

def conditional : CompM Unit := do
  lex
  let r ← onFunc emitCondition
  self.expression
  let endfirstexp ← onFunc (emitFirstBranch r.2)
  expect (.ch ':')
  let jmppos ← onFunc getCurrentPos
  self.expression
  onFunc (emitSecondBranch r.2 r.1 endfirstexp jmppos)

def expression : CompM Unit := invokeExp (do
  logicalOrExp self
  let t ← token
  if t = .ch '=' ∨ t = .tkNewslot ∨ t ∈ compoundTokens then assignment self t
  else when (t = .ch '?') (conditional self))

def commaExpr : CompM Unit := do
  expression self
  loop (fun _ => do
    if (← token) = .ch ',' then do
      let _ ← onFunc popTarget
      lex
      self.commaExpr
      pure (.again ())
    else pure (.done ())) ()

end Sqnim.Compiler
