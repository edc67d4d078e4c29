import Sqnim.Compiler.Expression

/-!
# SQCompiler: statements

The statements, the recursion of the parser, and `Compile`.
-/
namespace Sqnim.Compiler

open Sqnim.Lib
open Prog (raise gets update when report demand loop Turn)
open SQFuncState

variable (self : Self)

def statements : CompM Unit :=
  loop (fun _ => do
    let t ← token
    if t = .ch '}' ∨ t = .tkDefault ∨ t = .tkCase then pure (.done ())
    else do
      self.statement true
      endOfStatement
      pure (.again ())) ()

/-- A block in braces. -/
def block (close : Bool) : CompM Unit := do
  let old ← beginScope
  lex
  statements self
  expect (.ch '}')
  endScope old close

/-- A condition in parentheses. -/
def condition : CompM Unit := do
  expect (.ch '(')
  commaExpr self
  expect (.ch ')')

/-- The jump over what a condition guards, and its position. -/
def emitJz : FuncM Int := do
  let cond ← popTarget
  addInstruction .opJz [.reg cond]
  getCurrentPos

/-- Let the jump at a position lead here. -/
def landHere (pos : Int) : FuncM Unit := do
  let current ← getCurrentPos
  setInstructionParam1 pos (current - pos)

/-- The jump back to a position. -/
def jumpBack (pos : Int) : FuncM Unit := do
  let current ← getCurrentPos
  jump (pos - current - 1)

def jumpHole : FuncM Int := do
  jump 0
  getCurrentPos

/-! ## Branches and loops -/

def ifBlock : CompM Unit := do
  if (← token) = .ch '{' then block self true
  else do
    self.statement true
    endOfStatement

/-- The branch after `else`, if there is one: whether there is one. -/
def elseBlock : CompM Bool := do
  if (← token) = .tkElse then do
    let jmppos ← onFunc (do
      addInstruction .opJmp []
      getCurrentPos)
    lex
    ifBlock self
    onFunc (landHere jmppos)
    pure true
  else pure false

def ifStatement : CompM Unit := do
  lex
  condition self
  let jnepos ← onFunc emitJz
  ifBlock self
  let endifblock ← onFunc getCurrentPos
  let haselse ← elseBlock self
  onFunc (setInstructionParam1 jnepos (endifblock - jnepos + if haselse then 1 else 0))

/-- A statement with a scope of its own. -/
def scopedStatement : CompM Unit := do
  let old ← beginScope
  self.statement true
  endScope old true

def whileStatement : CompM Unit := do
  let jmppos ← onFunc getCurrentPos
  lex
  condition self
  let before ← onFunc beginBreakable
  let jzpos ← onFunc emitJz
  scopedStatement self
  onFunc (do
    jumpBack jmppos
    landHere jzpos
    endBreakable before jmppos)

/-- The end of a `do` loop without a condition tests the register 1. -/
def endDo (jmptrg : Int) (before : Nat × Nat) : FuncM Unit := do
  let continuetrg ← getCurrentPos
  addInstruction .opJz [.reg ⟨1⟩, .imm 1]
  jumpBack jmptrg
  endBreakable before continuetrg

def endDoWhile (jmptrg continuetrg : Int) (before : Nat × Nat) : FuncM Unit := do
  let cond ← popTarget
  addInstruction .opJz [.reg cond, .imm 1]
  jumpBack jmptrg
  endBreakable before continuetrg

def doWhileStatement : CompM Unit := do
  lex
  let jmptrg ← onFunc getCurrentPos
  let before ← onFunc beginBreakable
  scopedStatement self
  if (← token) = .tkWhile then do
    expect .tkWhile
    let continuetrg ← onFunc getCurrentPos
    condition self
    onFunc (endDoWhile jmptrg continuetrg before)
  else onFunc (endDo jmptrg before)

/-- `local function` does not pop the target of its bound environment. -/
def localFunction : CompM Unit := do
  lex
  let varname ← expectText .tkIdentifier
  let boundtarget ← bindEnv self
  expect (.ch '(')
  createFunction self (some varname) .none
  onFunc (do
    emitClosure boundtarget
    let _ ← popTarget
    let _ ← pushLocalVariable varname
    pure ())

/-- The value of a local variable. -/
def localValue : CompM Unit := do
  if (← token) = .ch '=' then do
    lex
    self.expression
    onFunc (do
      let src ← popTarget
      let dest ← pushTarget
      moveTo dest src)
  else onFunc (do
    let trg ← pushTarget
    addInstruction .opLoadnulls [.reg trg, .imm 1])

def localVariables : CompM Unit :=
  loop (fun _ => do
    let varname ← expectText .tkIdentifier
    localValue self
    onFunc (do
      let _ ← popTarget
      let _ ← pushLocalVariable varname
      pure ())
    if (← token) = .ch ',' then do
      lex
      pure (.again ())
    else pure (.done ())) ()

def localDeclStatement : CompM Unit := do
  lex
  if (← token) = .tkFunction then localFunction self else localVariables self

/-- An expression of which the value is not used. -/
def droppedExpr : CompM Unit := do
  commaExpr self
  let _ ← onFunc popTarget
  pure ()

def forInit : CompM Unit := do
  let t ← token
  if t = .tkLocal then localDeclStatement self
  else when (t ≠ .ch ';') (droppedExpr self)

/-- The position of the jump out of a `for` loop, or -1. -/
def forCondition : CompM Int := do
  if (← token) = .ch ';' then pure (-1)
  else do
    commaExpr self
    onFunc emitJz

/-- Take the instructions from a position on. -/
def cutInstructions (start : Int) : FuncM (List SQInstruction) := do
  let exp ← gets fun fs => fs.instructions.drop start.toNat
  update fun fs => { fs with instructions := fs.instructions.take start.toNat }
  pure exp

/-- `PopInstructions` of the step of a `for` loop. -/
def forStep : CompM (List SQInstruction) := do
  let expstart ← onFunc getCurrentPos
  when ((← token) ≠ .ch ')') (droppedExpr self)
  expect (.ch ')')
  onFunc (do
    snoozeOpt
    cutInstructions (expstart + 1))

def addInstructions : List SQInstruction → FuncM Unit
  | [] => pure ()
  | i :: is => do
    addSQInstruction i
    addInstructions is

/-- The end of a `for` loop: its step, and the jumps. -/
def endFor (exp : List SQInstruction) (jmppos jzpos : Int) (before : Nat × Nat) : FuncM Unit := do
  let continuetrg ← getCurrentPos
  addInstructions exp
  jumpBack jmppos
  when (jzpos > 0) (landHere jzpos)
  endBreakable before continuetrg

/-- The parts of a `for` statement between its parentheses: the start of the loop, the jump out of
it, and the instructions of its step. -/
def forHeader : CompM (Int × Int × List SQInstruction) := do
  expect (.ch '(')
  forInit self
  expect (.ch ';')
  onFunc snoozeOpt
  let jmppos ← onFunc getCurrentPos
  let jzpos ← forCondition self
  expect (.ch ';')
  onFunc snoozeOpt
  let exp ← forStep self
  pure (jmppos, jzpos, exp)

def forStatement : CompM Unit := do
  lex
  let old ← beginScope
  let h ← forHeader self
  let before ← onFunc beginBreakable
  self.statement true
  onFunc (endFor h.2.2 h.1 h.2.1 before)
  endScope old true

/-- The names of the index and of the value of a `foreach` loop. -/
def foreachNames : CompM (Text × Text) := do
  let valname ← expectText .tkIdentifier
  if (← token) = .ch ',' then do
    lex
    let second ← expectText .tkIdentifier
    pure (valname, second)
  else pure (['@', 'I', 'N', 'D', 'E', 'X', '@'], valname)

/-- A hidden local variable that starts as null. -/
def pushNullVariable (name : Text) : FuncM StackPos := do
  let pos ← pushLocalVariable name
  addInstruction .opLoadnulls [.reg pos, .imm 1]
  pure pos

/-- The variables of a `foreach` loop and its first instructions: the start of the loop, and the
position of `_OP_FOREACH`. -/
def emitForeach (idxname valname : Text) : FuncM (Int × Int) := do
  let container ← topTarget
  let indexpos ← pushNullVariable idxname
  let _ ← pushNullVariable valname
  let _ ← pushNullVariable ['@', 'I', 'T', 'E', 'R', 'A', 'T', 'O', 'R', '@']
  let jmppos ← getCurrentPos
  addInstruction .opForeach [.reg container, .imm 0, .reg indexpos]
  let foreachpos ← getCurrentPos
  addInstruction .opPostforeach [.reg container, .imm 0, .reg indexpos]
  pure (jmppos, foreachpos)

def endForeach (jmppos foreachpos : Int) (before : Nat × Nat) : FuncM Unit := do
  jumpBack jmppos
  let current ← getCurrentPos
  setInstructionParam1 foreachpos (current - foreachpos)
  setInstructionParam1 (foreachpos + 1) (current - foreachpos)
  endBreakable before (foreachpos - 1)
  popTargets 1

def forEachStatement : CompM Unit := do
  lex
  expect (.ch '(')
  let names ← foreachNames
  expect .tkIn
  let old ← beginScope
  self.expression
  expect (.ch ')')
  let r ← onFunc (emitForeach names.1 names.2)
  let before ← onFunc beginBreakable
  self.statement true
  onFunc (endForeach r.1 r.2 before)
  endScope old true

/-! ## `switch` -/

/-- The jumps of a `switch` that wait for their targets; -1 where there is none. -/
structure CaseJumps where
  bfirst : Bool
  tonextcondjmp : Int
  skipcondjmp : Int

/-- Before a case that is not the first one, the case before it jumps into its statements. -/
def beginCase (c : CaseJumps) : FuncM Int := do
  if c.bfirst then pure c.skipcondjmp
  else do
    let skipcondjmp ← jumpHole
    landHere c.tonextcondjmp
    pure skipcondjmp

/-- The comparison of a case; a local variable needs an extra register. -/
def emitCase (expr : StackPos) (skipcondjmp : Int) : FuncM Int := do
  let trg ← popTarget
  let fs ← gets id
  let eqtarget ← caseTarget (fs.isLocal trg.idx) trg
  addInstruction .opEq [.reg eqtarget, .reg trg, .reg expr]
  addInstruction .opJz [.reg eqtarget, .imm 0]
  when (fs.isLocal trg.idx) (popTargets 1)
  when (skipcondjmp ≠ -1) (landHere skipcondjmp)
  getCurrentPos
where
  caseTarget (islocal : Bool) (trg : StackPos) : FuncM StackPos :=
    if islocal then pushTarget else pure trg

/-- The statements of a case, in a scope of their own. -/
def scopedStatements : CompM Unit := do
  let old ← beginScope
  statements self
  endScope old true

def caseTurn (expr : StackPos) (c : CaseJumps) : CompM (Turn CaseJumps CaseJumps) := do
  if (← token) = .tkCase then do
    let skipcondjmp ← onFunc (beginCase c)
    lex
    self.expression
    expect (.ch ':')
    let tonextcondjmp ← onFunc (emitCase expr skipcondjmp)
    scopedStatements self
    pure (.again ⟨false, tonextcondjmp, skipcondjmp⟩)
  else pure (.done c)

def defaultCase : CompM Unit := do
  when ((← token) = .tkDefault) (do
    lex
    expect (.ch ':')
    scopedStatements self)

/-- A `switch` is a target of `break` only. -/
def beginSwitch : FuncM (StackPos × Nat) := do
  let expr ← topTarget
  let fs ← gets id
  update fun fs => { fs with breaktargets := 0 :: fs.breaktargets }
  pure (expr, fs.unresolvedbreaks.length)

def endSwitch (nbreaks : Nat) : FuncM Unit := do
  popTargets 1
  let fs ← gets id
  resolveBreaks (fs.unresolvedbreaks.length - nbreaks)
  update fun fs => { fs with breaktargets := fs.breaktargets.tail }

def switchStatement : CompM Unit := do
  lex
  condition self
  expect (.ch '{')
  let r ← onFunc beginSwitch
  let c ← loop (caseTurn self r.1) ⟨true, -1, -1⟩
  onFunc (when (c.tonextcondjmp ≠ -1) (landHere c.tonextcondjmp))
  defaultCase self
  expect (.ch '}')
  onFunc (endSwitch r.2)

/-! ## Declarations -/

/-- The key of a function or of one of its qualifiers. -/
def functionKey (id : Text) : CompM Unit := do
  onFunc (emitLoad (.str id))
  when ((← token) = .tkDoubleColon) (onFunc (emit2ArgsOP .opGet 0))

def functionName : CompM Text := do
  let id ← expectText .tkIdentifier
  onFunc (do
    let _ ← pushTargetAt ⟨0⟩
    pure ())
  functionKey id
  loop (fun id => do
    if (← token) = .tkDoubleColon then do
      lex
      let id ← expectText .tkIdentifier
      functionKey id
      pure (.again id)
    else pure (.done id)) id

def functionStatement : CompM Unit := do
  lex
  let id ← functionName
  let boundtarget ← bindEnv self
  expect (.ch '(')
  createFunction self (some id) boundtarget
  onFunc (do
    emitClosure boundtarget
    emitDerefOp .opNewslot
    popTargets 1)

/-- What `class` does with the kind of expression that names it. -/
def classTarget (etype : EType) : CompM Unit := do
  if etype = .expr then error "invalid class name"
  else if etype = .object ∨ etype = .base then do
    classExp self
    onFunc (do
      emitDerefOp .opNewslot
      popTargets 1)
  else error "cannot create a class in a local with the syntax(class <local>)"

def classStatement : CompM Unit := do
  lex
  let es ← gets (·.es)
  setDonotGet
  prefixedExpr self
  let etype ← gets (·.es.etype)
  classTarget self etype
  setEs es

/-- A number after its sign. -/
def negativeScalar : CompM Scalar := do
  let s ← gets id
  match s.token with
  | .tkInteger => pure (.int (negInt s.lexer.nvalue))
  | .tkFloat => pure (.float (negFloat s.lexer.fvalue))
  | _ => error "scalar expected : integer, float"

def scalar : CompM Scalar := do
  let s ← gets id
  match s.token with
  | .tkInteger => pure (.int s.lexer.nvalue)
  | .tkFloat => pure (.float s.lexer.fvalue)
  | .tkStringLiteral => pure (.str s.lexer.svalue)
  | .tkTrue => pure (.bool true)
  | .tkFalse => pure (.bool false)
  | .ch '-' => do
    lex
    negativeScalar
  | _ => error "scalar expected : integer, float, or string"

def expectScalar : CompM Scalar := do
  let val ← scalar
  lex
  pure val

/-- `NewSlot` on a table of named values. -/
def newSlot {α : Type} (key : Text) (val : α) (t : List (Text × α)) : List (Text × α) :=
  (key, val) :: t.filter fun e => e.1 ≠ key

def newConstant (id : Text) (c : Constant) : CompM Unit :=
  update fun s => { s with consts := newSlot id c s.consts }

def constStatement : CompM Unit := do
  lex
  let id ← expectText .tkIdentifier
  expect (.ch '=')
  let val ← expectScalar
  optionalSemicolon
  newConstant id (.value val)

/-- The value of a field of an enumeration, and the number of the next one without a value. -/
def enumValue (nval : Int) : CompM (Scalar × Int) := do
  if (← token) = .ch '=' then do
    lex
    let val ← expectScalar
    pure (val, nval)
  else pure (.int nval, nval + 1)

def enumStatement : CompM Unit := do
  lex
  let id ← expectText .tkIdentifier
  expect (.ch '{')
  let table ← loop (fun r => do
    if (← token) = .ch '}' then pure (.done r.1)
    else do
      let key ← expectText .tkIdentifier
      let v ← enumValue r.2
      when ((← token) = .ch ',') lex
      pure (.again (newSlot key v.1 r.1, v.2))) (([], 0) : List (Text × Scalar) × Int)
  newConstant id (.table table)
  lex

/-! ## Jumps out of a block -/

/-- Add to the number of traps of the innermost loop or `switch`. -/
def addTraps (n : Int) : List Int → List Int
  | [] => []
  | t :: ts => (t + n) :: ts

/-- The start of a `try` block: the position of its trap. -/
def beginTry : FuncM Int := do
  addInstruction .opPushtrap [.imm 0, .imm 0]
  update fun fs => { fs with
    traps := fs.traps + 1
    breaktargets := addTraps 1 fs.breaktargets
    continuetargets := addTraps 1 fs.continuetargets }
  getCurrentPos

/-- The end of a `try` block: the position of the jump over the `catch` block. -/
def endTry (trappos : Int) : FuncM Int := do
  update fun fs => { fs with traps := fs.traps - 1 }
  addInstruction .opPoptrap [.imm 1, .imm 0]
  update fun fs => { fs with
    breaktargets := addTraps (-1) fs.breaktargets
    continuetargets := addTraps (-1) fs.continuetargets }
  let jmppos ← jumpHole
  landHere trappos
  pure jmppos

def beginCatch (exid : Text) (trappos : Int) : FuncM Unit := do
  let exTarget ← pushLocalVariable exid
  setInstructionParam0 trappos (.reg exTarget)

def endCatch (jmppos : Int) : FuncM Unit := do
  let current ← getCurrentPos
  setInstructionParams jmppos (.imm 0) (.imm (current - jmppos)) (.imm 0) (.imm 0)

def tryCatchStatement : CompM Unit := do
  lex
  let trappos ← onFunc beginTry
  scopedStatement self
  let jmppos ← onFunc (endTry trappos)
  expect .tkCatch
  expect (.ch '(')
  let exid ← expectText .tkIdentifier
  expect (.ch ')')
  let old ← beginScope
  onFunc (beginCatch exid trappos)
  self.statement true
  onFunc (endCatch jmppos)
  endScope old true

/-- The instruction of `return` or `yield`, with a value or without one. -/
def emitReturn (op : SQOpcode) (retexp : Option Int) : FuncM Unit := do
  let fs ← gets id
  when (op = .opReturn ∧ fs.traps > 0) (addInstruction .opPoptrap [.imm fs.traps, .imm 0])
  update fun fs => { fs with returnexp := retexp.getD (-1) }
  if retexp.isSome then do
    -- the value is still a temporary when its frame is measured
    let size ← getStackSize
    let value ← popTarget
    addInstruction op [.imm 1, .reg value, .imm size]
  else do
    let size ← getStackSize
    addInstruction op [.none, .imm 0, .imm size]

def setGenerator : FuncM Unit := update fun fs => { fs with bgenerator := true }

def returnStatement (op : SQOpcode) : CompM Unit := do
  onFunc (when (op = .opYield) setGenerator)
  lex
  if ← gets isEndOfStatement then onFunc (emitReturn op none)
  else do
    let pos ← onFunc getCurrentPos
    commaExpr self
    onFunc (emitReturn op (some (pos + 1)))

/-- The instructions of `break` or `continue` that leads out of `traps` traps. -/
def emitBreak (traps : Int) (scope : SQScope) : FuncM Int := do
  when (traps > 0) (addInstruction .opPoptrap [.imm traps, .imm 0])
  resolveOuters scope
  jump (-1234)
  getCurrentPos

def breakStatement : CompM Unit := do
  let s ← gets id
  when (s.fs.breaktargets = []) (error "'break' has to be in a loop block")
  onFunc (do
    let pos ← emitBreak (s.fs.breaktargets.headD 0) s.scope
    update fun fs => { fs with unresolvedbreaks := pos :: fs.unresolvedbreaks })
  lex

def continueStatement : CompM Unit := do
  let s ← gets id
  when (s.fs.continuetargets = []) (error "'continue' has to be in a loop block")
  onFunc (do
    let pos ← emitBreak (s.fs.continuetargets.headD 0) s.scope
    update fun fs => { fs with unresolvedcontinues := pos :: fs.unresolvedcontinues })
  lex

def throwStatement : CompM Unit := do
  lex
  commaExpr self
  onFunc (do
    let value ← popTarget
    addInstruction .opThrow [.reg value])

def exprStatement : CompM Unit := do
  commaExpr self
  onFunc discardTarget

/-! ## The recursion -/

/-- The switch of `Statement`. -/
def statementBody (closeframe : Bool) : CompM Unit := do
  let t ← token
  match t with
  | .ch ';' => lex
  | .tkIf => ifStatement self
  | .tkWhile => whileStatement self
  | .tkDo => doWhileStatement self
  | .tkFor => forStatement self
  | .tkForeach => forEachStatement self
  | .tkSwitch => switchStatement self
  | .tkLocal => localDeclStatement self
  | .tkReturn => returnStatement self .opReturn
  | .tkYield => returnStatement self .opYield
  | .tkBreak => breakStatement
  | .tkContinue => continueStatement
  | .tkFunction => functionStatement self
  | .tkClass => classStatement self
  | .tkEnum => enumStatement
  | .ch '{' => block self closeframe
  | .tkTry => tryCatchStatement self
  | .tkThrow => throwStatement self
  | .tkConst => constStatement
  | _ => exprStatement self

/-- `AddLineInfos` at the current line. -/
def markLine (force : Bool) : CompM Unit := do
  let s ← gets id
  onFunc (addLineInfos s.lexer.currentline s.lineinfo force)

def statement (closeframe : Bool) : CompM Unit := do
  markLine false
  statementBody self closeframe
  onFunc snoozeOpt

/-- The functions of the parser, which call each other to a depth of `n` at most. -/
def selfAt : Nat → Self
  | 0 =>
    { statement := fun _ => Prog.exhaust ()
      expression := Prog.exhaust ()
      commaExpr := Prog.exhaust ()
      prefixedExpr := Prog.exhaust ()
      logicalAndExp := Prog.exhaust ()
      logicalOrExp := Prog.exhaust ()
      parseTableOrClass := fun _ _ => Prog.exhaust () }
  | n + 1 =>
    { statement := statement (selfAt n)
      expression := expression (selfAt n)
      commaExpr := commaExpr (selfAt n)
      prefixedExpr := prefixedExpr (selfAt n)
      logicalAndExp := logicalAndExp (selfAt n)
      logicalOrExp := logicalOrExp (selfAt n)
      parseTableOrClass := parseTableOrClass (selfAt n) }

/-- The loop of `Compile`. -/
def mainLoop : CompM Unit :=
  loop (fun _ => do
    if (← token) = .eob then pure (.done ())
    else do
      self.statement true
      endOfStatement
      pure (.again ())) ()

/-- The parameters of the main function. -/
def mainParameters : FuncM Nat := do
  addParameter ['t', 'h', 'i', 's']
  addParameter ['v', 'a', 'r', 'g', 'v']
  update fun fs => { fs with varparams := true }
  getStackSize

def finishMain (line : Int) (lineinfo : Bool) (stacksize : Nat) : FuncM SQFunctionProto := do
  setStackSize stacksize
  addLineInfos line lineinfo true
  addInstruction .opReturn [.none]
  setStackSize 0
  gets buildProto

/-- `Compile`, after the first `Next` of the lexer. -/
def compileMain : CompM SQFunctionProto := do
  onLexer SQLexer.next
  let stacksize ← onFunc mainParameters
  lex
  mainLoop self
  let s ← gets id
  onFunc (finishMain s.lexer.currentline s.lineinfo stacksize)

/-- What a compilation starts from: `strtod`, the arguments of `Compile`, the constants known so
far, and whatever the members of the compiler and the lexer hold that have no initial value. -/
structure Config where
  strtod : Text → BitVec 32
  sourcename : Text
  lineinfo : Bool
  consts : List (Text × Constant)
  es : SQExpState
  curtoken : Token
  token : Token
  nvalue : Int
  fvalue : BitVec 32

def Config.initial (cfg : Config) (source : List UInt8) : SQCompiler where
  strtod := cfg.strtod
  sourcename := cfg.sourcename
  lineinfo := cfg.lineinfo
  token := cfg.token
  lexer := .init source cfg.curtoken cfg.nvalue cfg.fvalue
  fs := .create false (some ['m', 'a', 'i', 'n']) cfg.sourcename
  parents := []
  es := cfg.es
  scope := ⟨0, 0⟩
  consts := cfg.consts

/-- The run of `Compile` on a source text, with calls nested to a depth of `n` at most. -/
def compile (n : Nat) (cfg : Config) (source : List UInt8) :
    Outcome SQCompiler Event String Unit SQFunctionProto :=
  compileMain (selfAt n) (cfg.initial source)

end Sqnim.Compiler
