import Sqnim.Compiler.Positions
import Sqnim.Compiler.Termination

/-!
# Every operand is readable

The compiler passes on good positions and operands only, so the code of an accepted program is
readable as long as every position that is handed out is below the sentinel, and every call returns
to a position that fits a signed field.
-/
namespace Sqnim.Compiler

open Sqnim.Lib
open Prog (raise gets update when report demand loop Turn)
open SQFuncState

-- the search follows every step of a function
set_option synthInstance.maxSize 6400
set_option synthInstance.maxHeartbeats 100000

/-! ## The code that only emits -/

section Emit

instance (stacksize : Nat) : Keeps (closeStack stacksize) := by
  unfold closeStack
  infer_instance

instance : Goodness SQScope := ⟨fun _ => True⟩
instance : Plain SQScope := ⟨fun _ => trivial⟩

instance (scope : SQScope) : Keeps (resolveOuters scope) := by
  unfold resolveOuters
  infer_instance

instance (scope : SQScope) (close : Bool) : Keeps (leaveScope scope close) := by
  unfold leaveScope
  infer_instance

instance (offset : Int) : Keeps (jump offset) := by
  unfold jump
  infer_instance

theorem keeps_resolveJumps (get : SQFuncState → List Int)
    (put : List Int → SQFuncState → SQFuncState) (target : Int) (n : Nat)
    (hp : ∀ l fs, Good fs → Good (put l fs)) : Keeps (resolveJumps get put target n) := by
  induction n with
  | zero => exact inferInstanceAs (Keeps (pure ()))
  | succ n ih =>
    have hu (l : List Int) : Keeps (update (put l) : FuncM Unit) := keeps_update _ (hp l)
    unfold resolveJumps
    infer_instance

instance (n : Nat) : Keeps (resolveBreaks n) := by
  have h (target : Int) : Keeps (resolveJumps (·.unresolvedbreaks)
      (fun l fs => { fs with unresolvedbreaks := l }) target n) :=
    keeps_resolveJumps _ _ target n fun _ _ _ => inferInstance
  unfold resolveBreaks
  infer_instance

instance (n : Nat) (target : Int) : Keeps (resolveContinues n target) :=
  keeps_resolveJumps _ _ target n fun _ _ _ => inferInstance

instance : Keeps beginBreakable := by
  unfold beginBreakable
  infer_instance

instance (before : Nat × Nat) (continueTarget : Int) :
    Keeps (endBreakable before continueTarget) := by
  unfold endBreakable
  infer_instance

instance (trg src : StackPos) [Good trg] [Good src] : Keeps (moveTo trg src) := by
  unfold moveTo
  infer_instance

instance : Keeps moveIfCurrentTargetIsLocal := by
  unfold moveIfCurrentTargetIsLocal
  infer_instance

instance (op : SQOpcode) : Keeps (emitDerefOp op) := by
  unfold emitDerefOp
  infer_instance

instance (op : SQOpcode) (p3 : Int) : Keeps (emit2ArgsOP op p3) := by
  unfold emit2ArgsOP
  infer_instance

instance (op : SQOpcode) (op3 : Int) : Keeps (emitBinExp op op3) := by
  unfold emitBinExp
  infer_instance

instance (op : SQOpcode) : Keeps (emitUnaryOP op) := by
  unfold emitUnaryOP
  infer_instance

instance (cons : Scalar) : Keeps (emitLoad cons) := by
  unfold emitLoad
  infer_instance

instance (value : Int) (target : StackPos) [Good target] :
    Keeps (emitLoadConstInt value target) := by
  unfold emitLoadConstInt
  infer_instance

instance (bits : BitVec 32) (target : StackPos) [Good target] :
    Keeps (emitLoadConstFloat bits target) := by
  unfold emitLoadConstFloat
  infer_instance

instance (value : Int) : Keeps (emitInt value) := by
  unfold emitInt
  infer_instance

instance (bits : BitVec 32) : Keeps (emitFloat bits) := by
  unfold emitFloat
  infer_instance

instance (v : Scalar) (target : StackPos) [Good target] : Keeps (emitConstant v target) := by
  cases v <;> unfold emitConstant <;> infer_instance

instance (tok : Token) : Keeps (emitCompoundLocal tok) := by
  unfold emitCompoundLocal
  infer_instance

/-- Only here two positions share an operand. -/
theorem keeps_comparith (trg src val key : StackPos) (n : Int) [ht : Good trg] [hs : Good src]
    [hv : Good val] [hk : Good key] : Keeps (addInstruction .opComparith
      [.reg trg, .pair src val, .reg key, .imm n]) := by
  apply keeps_addSQInstruction
  exact {
    arg0 := (Operand.reg_fits trg ht.out).narrow8
    arg1 := (Operand.pair_fits src val hs.out hv.out).narrow32
    narrow := fun h => absurd rfl h
    arg2 := (Operand.reg_fits key hk.out).narrow8
    arg3 := trivial }

instance (tok : Token) : Keeps (emitCompoundField tok) := by
  have h (trg src val key : GoodOnes StackPos) : Keeps (addInstruction .opComparith
      [.reg trg.val, .pair src.val val.val, .reg key.val, .imm (chooseCompArithCharByToken tok)]) :=
    keeps_comparith _ _ _ _ _
  unfold emitCompoundField
  infer_instance

instance (tok : Token) (pos : Int) : Keeps (emitCompoundOuter tok pos) := by
  unfold emitCompoundOuter
  infer_instance

instance (tok : Token) (etype : EType) (pos : Int) : Keeps (emitCompoundArith tok etype pos) := by
  cases etype <;> unfold emitCompoundArith <;> infer_instance

instance (etype : EType) (pos : Int) : Keeps (emitAssign etype pos) := by
  cases etype <;> unfold emitAssign <;> infer_instance

instance (boundtarget : Operand) [Good boundtarget] : Keeps (emitClosure boundtarget) := by
  unfold emitClosure
  infer_instance

instance (n : Nat) : Keeps (popTargets n) := by
  induction n with
  | zero => exact inferInstanceAs (Keeps (pure ()))
  | succ n ih =>
    unfold popTargets
    infer_instance

instance (nargs : Nat) : Keeps (emitCall nargs) := by
  unfold emitCall
  infer_instance

instance : Keeps addVarparams := by
  unfold addVarparams
  infer_instance

instance (line : Int) (lineinfo : Bool) : Keeps (finishFunction line lineinfo) := by
  unfold finishFunction
  infer_instance

instance (boundtarget : Operand) (defparams : Nat) : Keeps (popHeader boundtarget defparams) := by
  unfold popHeader
  infer_instance

instance (separator : Token) (hasattrs isstatic : Bool) :
    Keeps (emitMember separator hasattrs isstatic) := by
  have (b : Bool) : Keeps (demand (.assertion b) : FuncM Unit) := keeps_demand _ trivial
  unfold emitMember
  infer_instance

instance (p : Option StackPos) [h : Good p] : Good (optionalReg p) where
  out := by
    cases p with
    | none => exact Operand.imm_fits _
    | some p => exact Operand.reg_fits p (h.out p rfl)

instance (base attrs : Option StackPos) [Good base] [Good attrs] : Keeps (emitClass base attrs) := by
  unfold emitClass
  infer_instance

instance (es : SQExpState) (diff : Int) : Keeps (emitPrefixIncDec es diff) := by
  unfold emitPrefixIncDec
  split <;> infer_instance

instance (es : SQExpState) (diff : Int) : Keeps (emitPostIncDec es diff) := by
  unfold emitPostIncDec
  split <;> infer_instance

instance (es : SQExpState) : Keeps (emitCallee es) := by
  unfold emitCallee
  split <;> infer_instance

instance (op : SQOpcode) : Keeps (emitShortCircuit op) := by
  unfold emitShortCircuit
  infer_instance

instance (trg : StackPos) (jpos : Int) [Good trg] : Keeps (endShortCircuit trg jpos) := by
  unfold endShortCircuit
  infer_instance

instance : Keeps emitCondition := by
  unfold emitCondition
  infer_instance

instance (trg : StackPos) [Good trg] : Keeps (emitFirstBranch trg) := by
  unfold emitFirstBranch
  infer_instance

instance (trg : StackPos) (jzpos endfirstexp jmppos : Int) [Good trg] :
    Keeps (emitSecondBranch trg jzpos endfirstexp jmppos) := by
  unfold emitSecondBranch
  infer_instance

instance : Keeps emitJz := by
  unfold emitJz
  infer_instance

instance (pos : Int) : Keeps (landHere pos) := by
  unfold landHere
  infer_instance

instance (pos : Int) : Keeps (jumpBack pos) := by
  unfold jumpBack
  infer_instance

instance : Keeps jumpHole := by
  unfold jumpHole
  infer_instance

instance (jmptrg : Int) (before : Nat × Nat) : Keeps (endDo jmptrg before) := by
  unfold endDo
  infer_instance

instance (jmptrg continuetrg : Int) (before : Nat × Nat) :
    Keeps (endDoWhile jmptrg continuetrg before) := by
  unfold endDoWhile
  infer_instance

instance (start : Int) : Keeps (cutInstructions start) := by
  unfold cutInstructions
  infer_instance

theorem keeps_addInstructions (is : List SQInstruction) (h : ∀ i ∈ is, Goodness.good i) :
    Keeps (addInstructions is) := by
  induction is with
  | nil => exact inferInstanceAs (Keeps (pure ()))
  | cons i is ih =>
    have := ih fun j hj => h j (List.mem_cons_of_mem _ hj)
    have := keeps_addSQInstruction i (h i List.mem_cons_self).1
    unfold addInstructions
    infer_instance

instance (is : List SQInstruction) [h : Good is] : Keeps (addInstructions is) :=
  keeps_addInstructions is h.out

instance (exp : List SQInstruction) (jmppos jzpos : Int) (before : Nat × Nat) [Good exp] :
    Keeps (endFor exp jmppos jzpos before) := by
  unfold endFor
  infer_instance

instance (name : Text) : Keeps (pushNullVariable name) := by
  unfold pushNullVariable
  infer_instance

instance (idxname valname : Text) : Keeps (emitForeach idxname valname) := by
  unfold emitForeach
  infer_instance

instance (jmppos foreachpos : Int) (before : Nat × Nat) :
    Keeps (endForeach jmppos foreachpos before) := by
  unfold endForeach
  infer_instance

instance (c : CaseJumps) : Keeps (beginCase c) := by
  unfold beginCase
  infer_instance

instance (islocal : Bool) (trg : StackPos) [Good trg] :
    Keeps (emitCase.caseTarget islocal trg) := by
  unfold emitCase.caseTarget
  infer_instance

instance (expr : StackPos) (skipcondjmp : Int) [Good expr] : Keeps (emitCase expr skipcondjmp) := by
  unfold emitCase
  infer_instance

instance : Keeps beginSwitch := by
  unfold beginSwitch
  infer_instance

instance (nbreaks : Nat) : Keeps (endSwitch nbreaks) := by
  unfold endSwitch
  infer_instance

instance : Keeps beginTry := by
  unfold beginTry
  infer_instance

instance (trappos : Int) : Keeps (endTry trappos) := by
  unfold endTry
  infer_instance

instance (exid : Text) (trappos : Int) : Keeps (beginCatch exid trappos) := by
  unfold beginCatch
  infer_instance

instance (jmppos : Int) : Keeps (endCatch jmppos) := by
  unfold endCatch
  infer_instance

instance (op : SQOpcode) (retexp : Option Int) : Keeps (emitReturn op retexp) := by
  unfold emitReturn
  infer_instance

instance : Keeps setGenerator := by
  unfold setGenerator
  infer_instance

instance (traps : Int) (scope : SQScope) : Keeps (emitBreak traps scope) := by
  unfold emitBreak
  infer_instance

instance : Keeps mainParameters := by
  unfold mainParameters
  infer_instance

instance (line : Int) (lineinfo : Bool) (stacksize : Nat) :
    Keeps (finishMain line lineinfo stacksize) := by
  unfold finishMain
  infer_instance

end Emit

/-! ## The compiler -/

section Compiler

instance : Goodness Token := ⟨fun _ => True⟩
instance : Plain Token := ⟨fun _ => trivial⟩
instance : Goodness SQLexer := ⟨fun _ => True⟩
instance : Plain SQLexer := ⟨fun _ => trivial⟩
instance : Goodness SQExpState := ⟨fun _ => True⟩
instance : Plain SQExpState := ⟨fun _ => trivial⟩
instance : Goodness EType := ⟨fun _ => True⟩
instance : Plain EType := ⟨fun _ => trivial⟩
instance : Goodness Constant := ⟨fun _ => True⟩
instance : Plain Constant := ⟨fun _ => trivial⟩
instance : Goodness CaseJumps := ⟨fun _ => True⟩
instance : Plain CaseJumps := ⟨fun _ => trivial⟩

instance : Goodness SQCompiler := ⟨fun s => Good s.fs ∧ Good s.parents⟩

instance (s : SQCompiler) [h : Good s] : Good s.fs := h.out.1

instance (s : SQCompiler) [h : Good s] : Good s.parents := h.out.2

instance (strtod : Text → BitVec 32) (sourcename : Text) (lineinfo : Bool) (token : Token)
    (lexer : SQLexer) (fs : SQFuncState) (parents : List SQFuncState) (es : SQExpState)
    (scope : SQScope) (consts : List (Text × Constant)) [hf : Good fs] [hp : Good parents] :
    Good (SQCompiler.mk strtod sourcename lineinfo token lexer fs parents es scope consts) :=
  ⟨hf, hp⟩

variable {α : Type} [Goodness α]

instance (m : FuncM α) [Keeps m] : Keeps (onFunc m) :=
  keeps_zoom _ _ _ (fun _ h => h.out.1) fun _ _ h ht => ⟨ht, h.out.2⟩

instance [Plain α] (m : SQLexer.LexM α) : Keeps (onLexer m) :=
  keeps_silent _ _ _ fun _ _ h => ⟨h.out.1, h.out.2⟩

instance (child : SQFuncState) (m : FuncM Unit) [hc : Good child] [Keeps m] :
    Keeps (onChild child m) :=
  keeps_zoom _ _ _ (fun _ _ => hc) fun _ _ h _ => h

instance : Keeps token := inferInstanceAs (Keeps (gets _))

instance : Keeps prevtoken := inferInstanceAs (Keeps (gets _))

instance (t : Token) : Keeps (setToken t) := by
  unfold setToken
  infer_instance

instance : Keeps lex := by
  unfold lex
  infer_instance

instance (s : String) : Keeps (error s : CompM α) := by
  unfold error
  infer_instance

instance (tok : Token) : Keeps (expect tok) := by
  unfold expect
  infer_instance

instance (tok : Token) : Keeps (expectText tok) := by
  unfold expectText
  infer_instance

instance : Keeps optionalSemicolon := by
  unfold optionalSemicolon
  infer_instance

instance : Keeps endOfStatement := by
  unfold endOfStatement
  infer_instance

instance (es : SQExpState) : Keeps (setEs es) := by
  unfold setEs
  infer_instance

instance (etype : EType) : Keeps (setEtype etype) := by
  unfold setEtype
  infer_instance

instance (epos : Int) : Keeps (setEpos epos) := by
  unfold setEpos
  infer_instance

instance : Keeps setDonotGet := by
  unfold setDonotGet
  infer_instance

instance (f : CompM Unit) [Keeps f] : Keeps (invokeExp f) := by
  unfold invokeExp
  infer_instance

instance : Keeps beginScope := by
  unfold beginScope
  infer_instance

instance (old : SQScope) (close : Bool) : Keeps (endScope old close) := by
  unfold endScope
  infer_instance

/-! ## Expressions -/

/-- What the functions that are called again keep. -/
class Self.Keeping (self : Self) : Prop where
  statement : ∀ close, Keeps (self.statement close)
  expression : Keeps self.expression
  commaExpr : Keeps self.commaExpr
  prefixedExpr : Keeps self.prefixedExpr
  logicalAndExp : Keeps self.logicalAndExp
  logicalOrExp : Keeps self.logicalOrExp
  parseTableOrClass : ∀ separator terminator, Keeps (self.parseTableOrClass separator terminator)

attribute [instance] Self.Keeping.statement Self.Keeping.expression Self.Keeping.commaExpr
  Self.Keeping.prefixedExpr Self.Keeping.logicalAndExp Self.Keeping.logicalOrExp
  Self.Keeping.parseTableOrClass

variable (self : Self) [self.Keeping]

instance : Keeps (callArg self) := by
  unfold callArg
  infer_instance

instance : Keeps (keyAndValue self) := by
  unfold keyAndValue
  infer_instance

instance : Keeps (postCall self) := by
  unfold postCall
  infer_instance

instance (rawcall : Bool) : Keeps (functionCallArgs self rawcall) := by
  unfold functionCallArgs
  infer_instance

instance : Keeps (parseBindEnv self) := by
  unfold parseBindEnv
  infer_instance

instance : Keeps (bindEnv self) := by
  unfold bindEnv
  infer_instance

instance (child : SQFuncState) (defparams : Nat) [Good child] :
    Keeps (paramDefault self child defparams) := by
  unfold paramDefault
  infer_instance

instance (r : SQFuncState × Nat) [Good r] : Keeps (parameterTurn self r) := by
  unfold parameterTurn
  infer_instance

instance (child : SQFuncState) [Good child] : Keeps (enterChildState child) := by
  unfold enterChildState
  infer_instance

instance : Keeps leaveChildState := by
  unfold leaveChildState
  infer_instance

instance (child : SQFuncState) [Good child] : Keeps (functionBody self child) := by
  unfold functionBody
  infer_instance

instance (name : Option Text) (boundtarget : Operand) :
    Keeps (createFunction self name boundtarget) := by
  unfold createFunction
  infer_instance

instance : Keeps (functionExp self) := by
  unfold functionExp
  infer_instance

instance (tk : Token) : Keeps (methodName tk) := by
  unfold methodName
  infer_instance

instance : Keeps (parseMethod self) := by
  unfold parseMethod
  infer_instance

instance (separator : Token) : Keeps (memberAttributes self separator) := by
  unfold memberAttributes
  infer_instance

instance (separator : Token) : Keeps (memberStatic separator) := by
  unfold memberStatic
  infer_instance

instance (separator : Token) : Keeps (member self separator) := by
  unfold member
  infer_instance

instance (separator : Token) : Keeps (parseMember self separator) := by
  unfold parseMember
  infer_instance

instance (separator terminator : Token) :
    Keeps (parseTableOrClass self separator terminator) := by
  unfold parseTableOrClass
  infer_instance

instance : Keeps (classBase self) := by
  unfold classBase
  infer_instance

instance : Keeps (classAttributes self) := by
  unfold classAttributes
  infer_instance

instance : Keeps (classExp self) := by
  unfold classExp
  infer_instance

instance (op : SQOpcode) : Keeps (unaryOP self op) := by
  unfold unaryOP
  infer_instance

instance (etype : EType) : Keeps (deleteTarget etype) := by
  unfold deleteTarget
  infer_instance

instance : Keeps (deleteExpr self) := by
  unfold deleteExpr
  infer_instance

instance (tok : Token) : Keeps (prefixIncDec self tok) := by
  unfold prefixIncDec
  infer_instance

instance (name : Text) : Keeps (getOuter name) where
  sound s hs := by
    obtain ⟨h₁, h₂⟩ := good_getOuterVariable name s.fs s.parents hs.out.1 hs.out.2
    unfold getOuter
    rw [Prog.gets_bind, Prog.update_bind]
    apply Keeps.sound
    infer_instance

instance (id : Text) (constant : Constant) : Keeps (constantValue id constant) := by
  cases constant with
  | value v =>
    unfold constantValue
    infer_instance
  | table fields =>
    have h (constid : Text) : Keeps (match fields.lookup constid with
      | some v => pure v
      | none => error ("invalid constant [" ++ String.ofList id ++ "." ++ String.ofList constid ++
          "]") : CompM Scalar) := by
      split
      · infer_instance
      · infer_instance
    unfold constantValue
    infer_instance

instance (pos : StackPos) [Good pos] : Keeps (localFactor pos) := by
  unfold localFactor
  infer_instance

instance (pos : Nat) : Keeps (outerFactor pos) := by
  unfold outerFactor
  infer_instance

instance (id : Text) (constant : Constant) : Keeps (constantFactor id constant) := by
  unfold constantFactor
  infer_instance

instance (id : Text) : Keeps (fieldFactor id) := by
  unfold fieldFactor
  infer_instance

/-- The position of a local variable comes from a good function state. -/
instance (id : Text) : Keeps (identifier id) := by
  apply Keeps.bind
  intro _ _
  apply Keeps.bind
  intro fs hfs
  split
  · next pos hpos =>
    have := good_getLocalVariable fs id pos hfs hpos
    infer_instance
  · apply Keeps.bind
    intro r _
    split
    · infer_instance
    · apply Keeps.bind
      intro consts _
      split
      · infer_instance
      · infer_instance

instance : Keeps (arrayLiteral self) := by
  unfold arrayLiteral
  infer_instance

instance : Keeps (tableLiteral self) := by
  unfold tableLiteral
  infer_instance

instance : Keeps (minusFactor self) := by
  unfold minusFactor
  infer_instance

instance : Keeps (tildeFactor self) := by
  unfold tildeFactor
  infer_instance

instance : Keeps (parenthesized self) := by
  unfold parenthesized
  infer_instance

instance (m : FuncM Unit) [Keeps m] : Keeps (tokenFactor m) := by
  unfold tokenFactor
  infer_instance

instance (m : CompM Unit) [Keeps m] : Keeps (lexThen m) := by
  unfold lexThen
  infer_instance

instance (t : Token) : Keeps (plainFactor self t) := by
  apply Keeps.bind
  intro l _
  split <;> infer_instance

instance : Keeps baseFactor := by
  unfold baseFactor
  infer_instance

instance : Keeps rootFactor := by
  unfold rootFactor
  infer_instance

instance (t : Token) : Keeps (factorOf self t) := by
  unfold factorOf
  split <;> infer_instance

instance : Keeps (factor self) := by
  unfold factor
  infer_instance

instance : Keeps derefField := by
  unfold derefField
  infer_instance

instance : Keeps dotTurn := by
  unfold dotTurn
  infer_instance

instance : Keeps (prefixedTurn self) := by
  apply Keeps.bind
  intro t _
  split <;> infer_instance

instance : Keeps (prefixedExpr self) := by
  unfold prefixedExpr
  infer_instance

section Levels

omit self

variable (f : CompM Unit) [Keeps f]

instance (op : SQOpcode) (op3 : Int) : Keeps (binExp op f op3) := by
  unfold binExp
  infer_instance

instance (ops : Token → Option (SQOpcode × Int)) : Keeps (binLevel f ops) := by
  have hturn (t : Token) : Keeps (match ops t with
    | some (op, op3) => do
      binExp op f op3
      pure (.again ())
    | none => pure (.done ()) : CompM (Turn Unit Unit)) := by
    split
    · infer_instance
    · infer_instance
  unfold binLevel
  infer_instance

instance (op : SQOpcode) : Keeps (shortCircuit op f) := by
  unfold shortCircuit
  infer_instance

end Levels

instance : Keeps (bitwiseOrExp self) := by
  unfold bitwiseOrExp bitwiseXorExp bitwiseAndExp eqExp compExp shiftExp plusExp multExp
  infer_instance

instance : Keeps (logicalAndExp self) := by
  unfold logicalAndExp
  infer_instance

instance : Keeps (logicalOrExp self) := by
  unfold logicalOrExp
  infer_instance

instance (op : Token) : Keeps (assignment self op) := by
  unfold assignment
  infer_instance

instance : Keeps (conditional self) := by
  unfold conditional
  infer_instance

instance : Keeps (expression self) := by
  unfold expression
  infer_instance

instance : Keeps (commaExpr self) := by
  unfold commaExpr
  infer_instance

/-! ## Statements -/

instance : Keeps (statements self) := by
  unfold statements
  infer_instance

instance (close : Bool) : Keeps (block self close) := by
  unfold block
  infer_instance

instance : Keeps (condition self) := by
  unfold condition
  infer_instance

instance : Keeps (ifBlock self) := by
  unfold ifBlock
  infer_instance

instance : Keeps (elseBlock self) := by
  unfold elseBlock
  infer_instance

instance : Keeps (ifStatement self) := by
  unfold ifStatement
  infer_instance

instance : Keeps (scopedStatement self) := by
  unfold scopedStatement
  infer_instance

instance : Keeps (whileStatement self) := by
  unfold whileStatement
  infer_instance

instance : Keeps (doWhileStatement self) := by
  unfold doWhileStatement
  infer_instance

instance : Keeps (localFunction self) := by
  unfold localFunction
  infer_instance

instance : Keeps (localValue self) := by
  unfold localValue
  infer_instance

instance : Keeps (localVariables self) := by
  unfold localVariables
  infer_instance

instance : Keeps (localDeclStatement self) := by
  unfold localDeclStatement
  infer_instance

instance : Keeps (droppedExpr self) := by
  unfold droppedExpr
  infer_instance

instance : Keeps (forInit self) := by
  unfold forInit
  infer_instance

instance : Keeps (forCondition self) := by
  unfold forCondition
  infer_instance

instance : Keeps (forStep self) := by
  unfold forStep
  infer_instance

instance : Keeps (forHeader self) := by
  unfold forHeader
  infer_instance

instance : Keeps (forStatement self) := by
  unfold forStatement
  infer_instance

instance : Keeps foreachNames := by
  unfold foreachNames
  infer_instance

instance : Keeps (forEachStatement self) := by
  unfold forEachStatement
  infer_instance

instance : Keeps (scopedStatements self) := by
  unfold scopedStatements
  infer_instance

instance (expr : StackPos) (c : CaseJumps) [Good expr] : Keeps (caseTurn self expr c) := by
  unfold caseTurn
  infer_instance

instance : Keeps (defaultCase self) := by
  unfold defaultCase
  infer_instance

instance : Keeps (switchStatement self) := by
  unfold switchStatement
  infer_instance

instance (id : Text) : Keeps (functionKey id) := by
  unfold functionKey
  infer_instance

instance : Keeps functionName := by
  unfold functionName
  infer_instance

instance : Keeps (functionStatement self) := by
  unfold functionStatement
  infer_instance

instance (etype : EType) : Keeps (classTarget self etype) := by
  unfold classTarget
  infer_instance

instance : Keeps (classStatement self) := by
  unfold classStatement
  infer_instance

instance : Keeps negativeScalar := by
  apply Keeps.bind
  intro s _
  split <;> infer_instance

instance : Keeps scalar := by
  apply Keeps.bind
  intro s _
  split <;> infer_instance

instance : Keeps expectScalar := by
  unfold expectScalar
  infer_instance

instance (id : Text) (c : Constant) : Keeps (newConstant id c) := by
  unfold newConstant
  infer_instance

instance : Keeps constStatement := by
  unfold constStatement
  infer_instance

instance (nval : Int) : Keeps (enumValue nval) := by
  unfold enumValue
  infer_instance

instance : Keeps enumStatement := by
  unfold enumStatement
  infer_instance

instance : Keeps (tryCatchStatement self) := by
  unfold tryCatchStatement
  infer_instance

instance (op : SQOpcode) : Keeps (returnStatement self op) := by
  unfold returnStatement
  infer_instance

instance : Keeps breakStatement := by
  unfold breakStatement
  infer_instance

instance : Keeps continueStatement := by
  unfold continueStatement
  infer_instance

instance : Keeps (throwStatement self) := by
  unfold throwStatement
  infer_instance

instance : Keeps (exprStatement self) := by
  unfold exprStatement
  infer_instance

instance (closeframe : Bool) : Keeps (statementBody self closeframe) := by
  apply Keeps.bind
  intro t _
  split <;> infer_instance

instance (force : Bool) : Keeps (markLine force) := by
  unfold markLine
  infer_instance

instance (closeframe : Bool) : Keeps (statement self closeframe) := by
  unfold statement
  infer_instance

instance : Keeps (mainLoop self) := by
  unfold mainLoop
  infer_instance

instance : Keeps (compileMain self) := by
  unfold compileMain
  infer_instance

end Compiler

/-! ## The recursion -/

theorem keeps_exhaust {α : Type} [Goodness α] : Keeps (Prog.exhaust () : CompM α) := inferInstance

theorem selfAt_keeping (n : Nat) : (selfAt n).Keeping := by
  induction n with
  | zero =>
    exact {
      statement := fun _ => keeps_exhaust
      expression := keeps_exhaust
      commaExpr := keeps_exhaust
      prefixedExpr := keeps_exhaust
      logicalAndExp := keeps_exhaust
      logicalOrExp := keeps_exhaust
      parseTableOrClass := fun _ _ => keeps_exhaust }
  | succ n ih =>
    exact {
      statement := fun close => inferInstanceAs (Keeps (statement (selfAt n) close))
      expression := inferInstanceAs (Keeps (expression (selfAt n)))
      commaExpr := inferInstanceAs (Keeps (commaExpr (selfAt n)))
      prefixedExpr := inferInstanceAs (Keeps (prefixedExpr (selfAt n)))
      logicalAndExp := inferInstanceAs (Keeps (logicalAndExp (selfAt n)))
      logicalOrExp := inferInstanceAs (Keeps (logicalOrExp (selfAt n)))
      parseTableOrClass := fun separator terminator =>
        inferInstanceAs (Keeps (parseTableOrClass (selfAt n) separator terminator)) }

instance (cfg : Config) (source : List UInt8) : Good (cfg.initial source) where
  out := by
    have hf : Good (cfg.initial source).fs := by
      unfold Config.initial
      infer_instance
    exact ⟨hf, inferInstanceAs (Good [])⟩

/-- The property of an accepted program: every position handed out and every instruction emitted
can be encoded, and all the code of the prototype is readable. -/
structure Encodes (events : List Event) (proto : SQFunctionProto) : Prop where
  events : ∀ w ∈ events, w.Encoded
  code : proto.Encoded

/-- `local a,…,a=a()`, with 127 variables: the call returns to position 128. -/
def manyLocals : List UInt8 :=
  [108, 111, 99, 97, 108, 32] ++ (List.replicate 126 [97, 44]).flatten ++ [97, 61, 97, 40, 41]

end Sqnim.Compiler
