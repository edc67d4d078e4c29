import Sqnim.Compiler.FuncState

/-!
# SQCompiler: its state and what it emits

The members of `SQCompiler` in `sqcompiler.cpp`, the reading of tokens, and the code that only
emits instructions. C++ does not fix the order in which the arguments of a call are evaluated; it
shows in `return` and `yield` alone, where they are taken from right to left, as in the build.
-/
namespace Sqnim.Compiler

open Sqnim.Lib
open Prog (raise gets update when report demand zoom total silent loop)

/-- The values of `SQExpState.etype`. -/
inductive EType where
  | expr | object | base | local | outer
  deriving DecidableEq, Repr

structure SQExpState where
  etype : EType
  epos : Int
  donotGet : Bool
  deriving DecidableEq, Repr

structure SQScope where
  outers : Int
  stacksize : Nat
  deriving DecidableEq, Repr

/-- An entry of the table of constants: a value, or the table of an enumeration. -/
inductive Constant where
  | value (v : Scalar)
  | table (fields : List (Text × Scalar))
  deriving DecidableEq, Repr

/-- `fs` is `_fs`, and `parents` the function states around it, from the inside out. -/
structure SQCompiler where
  strtod : Text → BitVec 32
  sourcename : Text
  lineinfo : Bool
  token : Token
  lexer : SQLexer
  fs : SQFuncState
  parents : List SQFuncState
  es : SQExpState
  scope : SQScope
  consts : List (Text × Constant)

abbrev CompM := Prog SQCompiler Event String Unit

open SQFuncState

/-- The tokens and characters not used yet. -/
instance : Supply SQCompiler where
  left s := s.lexer.charsLeft + if s.token = .eob then 0 else 1
  pending s := s.token ≠ .eob

section Parts

variable {α : Type}

def onFunc (m : FuncM α) : CompM α := zoom (·.fs) (fun s fs => { s with fs }) (total m)

def onLexer (m : SQLexer.LexM α) : CompM α :=
  zoom (·.lexer) (fun s lexer => { s with lexer }) (silent m)

/-- Operations on a function state that is not `_fs`: the state after them. -/
def onChild (child : SQFuncState) (m : FuncM Unit) : CompM SQFuncState :=
  zoom (fun _ => child) (fun s _ => s) (total (do
    m
    gets id))

end Parts

/-! ## Tokens -/

def token : CompM Token := gets (·.token)

def prevtoken : CompM Token := gets (·.lexer.prevtoken)

def setToken (t : Token) : CompM Unit := update fun s => { s with token := t }

def lex : CompM Unit := do
  let strtod ← gets (·.strtod)
  let t ← onLexer (SQLexer.lex strtod)
  setToken t

/-- `Error`, with the size of `_compilererror`. -/
def error {α : Type} (s : String) : CompM α := raise (String.ofList (s.toList.take 255))

def tok2Str (tok : Token) : String :=
  ((keywords.find? fun k => k.2 = tok).map fun k => String.ofList k.1).getD "(null)"

def expectedName : Token → String
  | .tkIdentifier => "IDENTIFIER"
  | .tkStringLiteral => "STRING_LITERAL"
  | .tkInteger => "INTEGER"
  | .tkFloat => "FLOAT"
  | .ch c => c.toString
  | tok => tok2Str tok

/-- A constructor may stand where an identifier is expected. -/
def accepts (tok found : Token) : Bool :=
  found = tok || (tok = .tkIdentifier && found = .tkConstructor)

/-- `Expect`, of which most callers do not use the value. -/
def expect (tok : Token) : CompM Unit := do
  let found ← token
  when (!accepts tok found) (error ("expected '" ++ expectedName tok ++ "'"))
  lex

/-- `Expect` for a token whose value is the text of the lexer. -/
def expectText (tok : Token) : CompM Text := do
  let s ← gets (·.lexer.svalue)
  expect tok
  pure s

def isEndOfStatement (s : SQCompiler) : Bool :=
  s.lexer.prevtoken = .ch '\n' || s.token = .eob || s.token = .ch '}' || s.token = .ch ';'

def optionalSemicolon : CompM Unit := do
  when ((← token) = .ch ';') lex

/-- The semicolon after a statement that does not end in a brace or one. -/
def endOfStatement : CompM Unit := do
  let t ← prevtoken
  when (t ≠ .ch '}' ∧ t ≠ .ch ';') optionalSemicolon

/-! ## The state of an expression -/

def setEs (es : SQExpState) : CompM Unit := update fun s => { s with es }

def setEtype (etype : EType) : CompM Unit := update fun s => { s with es := { s.es with etype } }

def setEpos (epos : Int) : CompM Unit := update fun s => { s with es := { s.es with epos } }

def setDonotGet : CompM Unit := update fun s => { s with es := { s.es with donotGet := true } }

/-- `INVOKE_EXP`, and the body of `Expression`. -/
def invokeExp (f : CompM Unit) : CompM Unit := do
  let es ← gets (·.es)
  setEs ⟨.expr, -1, false⟩
  f
  setEs es

/-- The tokens after which `NeedGet` is false. -/
def assignTokens : List Token :=
  [.ch '=', .ch '(', .tkNewslot, .tkModeq, .tkMuleq, .tkDiveq, .tkMinuseq, .tkPluseq]

def needGet (s : SQCompiler) : Bool :=
  if s.token ∈ assignTokens then false
  else if (s.token = .tkPlusplus ∨ s.token = .tkMinusminus) ∧ !isEndOfStatement s then false
  else !s.es.donotGet || s.token = .ch '.' || s.token = .ch '['

/-! ## Scopes and jumps -/

/-- `BEGIN_SCOPE`, which returns the scope it replaces. -/
def beginScope : CompM SQScope := do
  let old ← gets (·.scope)
  update fun s => { s with scope := ⟨s.fs.outers, s.fs.vlocals.length⟩ }
  pure old

def closeStack (stacksize : Nat) : FuncM Unit := addInstruction .opClose [.imm 0, .imm stacksize]

/-- `RESOLVE_OUTERS` -/
def resolveOuters (scope : SQScope) : FuncM Unit := do
  let fs ← gets id
  when (fs.vlocals.length ≠ scope.stacksize ∧ fs.countOuters scope.stacksize ≠ 0)
    (closeStack scope.stacksize)

/-- The part of `END_SCOPE` that concerns the function state. -/
def leaveScope (scope : SQScope) (close : Bool) : FuncM Unit := do
  let old ← gets id
  when (old.vlocals.length ≠ scope.stacksize) (do
    setStackSize scope.stacksize
    let outers ← gets (·.outers)
    when (close ∧ old.outers ≠ outers) (closeStack scope.stacksize))

/-- `END_SCOPE`, or `END_SCOPE_NO_CLOSE`. -/
def endScope (old : SQScope) (close : Bool) : CompM Unit := do
  let scope ← gets (·.scope)
  onFunc (leaveScope scope close)
  update fun s => { s with scope := old }

def jump (offset : Int) : FuncM Unit := addInstruction .opJmp [.imm 0, .imm offset]

/-- The jumps recorded in a list, for `ResolveBreaks` and `ResolveContinues`. -/
def resolveJumps (get : SQFuncState → List Int) (put : List Int → SQFuncState → SQFuncState)
    (target : Int) : Nat → FuncM Unit
  | 0 => pure ()
  | n + 1 => do
    let jumps ← gets get
    back jumps.length
    let pos := jumps.headD 0
    update (put jumps.tail)
    setInstructionParams pos (.imm 0) (.imm (target - pos)) (.imm 0) (.imm 0)
    resolveJumps get put target n

def resolveBreaks (n : Nat) : FuncM Unit := do
  let target ← getCurrentPos
  resolveJumps (·.unresolvedbreaks) (fun l fs => { fs with unresolvedbreaks := l }) target n

def resolveContinues (n : Nat) (target : Int) : FuncM Unit :=
  resolveJumps (·.unresolvedcontinues) (fun l fs => { fs with unresolvedcontinues := l }) target n

/-- `BEGIN_BREAKBLE_BLOCK`, which returns the numbers of jumps that are unresolved before it. -/
def beginBreakable : FuncM (Nat × Nat) := do
  let fs ← gets id
  update fun fs => { fs with
    breaktargets := 0 :: fs.breaktargets, continuetargets := 0 :: fs.continuetargets }
  pure (fs.unresolvedbreaks.length, fs.unresolvedcontinues.length)

/-- `END_BREAKBLE_BLOCK` -/
def endBreakable (before : Nat × Nat) (continueTarget : Int) : FuncM Unit := do
  let fs ← gets id
  resolveContinues (fs.unresolvedcontinues.length - before.2) continueTarget
  resolveBreaks (fs.unresolvedbreaks.length - before.1)
  update fun fs => { fs with
    breaktargets := fs.breaktargets.tail, continuetargets := fs.continuetargets.tail }

/-! ## Emitting -/

/-- `MOVE`, unless the value is in its place. -/
def moveTo (trg src : StackPos) : FuncM Unit :=
  when (trg ≠ src) (addInstruction .opMove [.reg trg, .reg src])

def moveIfCurrentTargetIsLocal : FuncM Unit := do
  let trg ← topTarget
  let fs ← gets id
  when (fs.isLocal trg.idx) (do
    let trg ← popTarget
    let new ← pushTarget
    addInstruction .opMove [.reg new, .reg trg])

def emitDerefOp (op : SQOpcode) : FuncM Unit := do
  let val ← popTarget
  let key ← popTarget
  let src ← popTarget
  let trg ← pushTarget
  addInstruction op [.reg trg, .reg src, .reg key, .reg val]

def emit2ArgsOP (op : SQOpcode) (p3 : Int) : FuncM Unit := do
  let p2 ← popTarget
  let p1 ← popTarget
  let trg ← pushTarget
  addInstruction op [.reg trg, .reg p1, .reg p2, .imm p3]

/-- The instruction of `BIN_EXP`. -/
def emitBinExp (op : SQOpcode) (op3 : Int) : FuncM Unit := do
  let op1 ← popTarget
  let op2 ← popTarget
  let trg ← pushTarget
  addInstruction op [.reg trg, .reg op1, .reg op2, .imm op3]

/-- The instruction of `UnaryOP`. -/
def emitUnaryOP (op : SQOpcode) : FuncM Unit := do
  let src ← popTarget
  let trg ← pushTarget
  addInstruction op [.reg trg, .reg src]

def emitLoad (cons : Scalar) : FuncM Unit := do
  let trg ← pushTarget
  let k ← getConstant cons
  addInstruction .opLoad [.reg trg, .imm k]

/-- Does it fit in 32 bits? -/
def fitsInt (value : Int) : Bool := value ≤ 2147483647 ∧ value > -2147483648

/-- `EmitLoadConstInt`, with its target. -/
def emitLoadConstInt (value : Int) (target : StackPos) : FuncM Unit := do
  if fitsInt value then addInstruction .opLoadint [.reg target, .imm value]
  else do
    let k ← getConstant (.int value)
    addInstruction .opLoad [.reg target, .imm k]

/-- `EmitLoadConstFloat`: `SQFloat` has the size of `SQInt32`. -/
def emitLoadConstFloat (bits : BitVec 32) (target : StackPos) : FuncM Unit :=
  addInstruction .opLoadfloat [.reg target, .imm bits.toInt]

/-- A value is loaded to a new target. -/
def emitInt (value : Int) : FuncM Unit := do
  let trg ← pushTarget
  emitLoadConstInt value trg

def emitFloat (bits : BitVec 32) : FuncM Unit := do
  let trg ← pushTarget
  emitLoadConstFloat bits trg

/-- The code of a named constant. -/
def emitConstant (v : Scalar) (target : StackPos) : FuncM Unit :=
  match v with
  | .int i => emitLoadConstInt i target
  | .float bits => emitLoadConstFloat bits target
  | .bool b => addInstruction .opLoadbool [.reg target, .imm (if b then 1 else 0)]
  | .str s => do
    let k ← getConstant (.str s)
    addInstruction .opLoad [.reg target, .imm k]

/-- `-v` and `~v` on a machine word. -/
def negInt (v : Int) : Int := Int.bmod (-v) (2 ^ 64)

def notInt (v : Int) : Int := -v - 1

/-- The sign bit of a float is flipped. -/
def negFloat (bits : BitVec 32) : BitVec 32 := bits ^^^ 0x80000000

def chooseArithOpByToken : Token → SQOpcode
  | .tkMinuseq | .ch '-' => .opSub
  | .tkMuleq | .ch '*' => .opMul
  | .tkDiveq | .ch '/' => .opDiv
  | .tkModeq | .ch '%' => .opMod
  | _ => .opAdd

def chooseCompArithCharByToken : Token → Int
  | .tkMinuseq => '-'.toNat
  | .tkPluseq => '+'.toNat
  | .tkMuleq => '*'.toNat
  | .tkDiveq => '/'.toNat
  | .tkModeq => '%'.toNat
  | _ => 0

def emitCompoundLocal (tok : Token) : FuncM Unit := do
  let p2 ← popTarget
  let p1 ← popTarget
  let _ ← pushTargetAt p1
  addInstruction (chooseArithOpByToken tok) [.reg p1, .reg p2, .reg p1, .imm 0]
  snoozeOpt

def emitCompoundField (tok : Token) : FuncM Unit := do
  let val ← popTarget
  let key ← popTarget
  let src ← popTarget
  let trg ← pushTarget
  addInstruction .opComparith
    [.reg trg, .pair src val, .reg key, .imm (chooseCompArithCharByToken tok)]

def emitCompoundOuter (tok : Token) (pos : Int) : FuncM Unit := do
  let val ← topTarget
  let tmp ← pushTarget
  addInstruction .opGetouter [.reg tmp, .imm pos]
  addInstruction (chooseArithOpByToken tok) [.reg tmp, .reg val, .reg tmp, .imm 0]
  let _ ← popTarget
  let _ ← popTarget
  let trg ← pushTarget
  addInstruction .opSetouter [.reg trg, .imm pos, .reg tmp]

def emitCompoundArith (tok : Token) (etype : EType) (pos : Int) : FuncM Unit :=
  match etype with
  | .local => emitCompoundLocal tok
  | .object | .base => emitCompoundField tok
  | .outer => emitCompoundOuter tok pos
  | .expr => pure ()

/-- The code of `=`, by the kind of expression on its left. -/
def emitAssign (etype : EType) (pos : Int) : FuncM Unit :=
  match etype with
  | .local => do
    let src ← popTarget
    let dst ← topTarget
    addInstruction .opMove [.reg dst, .reg src]
  | .object | .base => emitDerefOp .opSet
  | .outer => do
    let src ← popTarget
    let dst ← pushTarget
    addInstruction .opSetouter [.reg dst, .imm pos, .reg src]
  | .expr => pure ()

/-- The closure of the function compiled last. -/
def emitClosure (boundtarget : Operand) : FuncM Unit := do
  let trg ← pushTarget
  let n ← gets fun fs => fs.functions.length
  addInstruction .opClosure [.reg trg, .imm ((n : Int) - 1), boundtarget]

end Sqnim.Compiler
