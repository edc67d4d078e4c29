import Sqnim.Compiler.Edits

/-!
# Where parsing leads

The functions of the parser that only read tokens, emit code and call each other, for every relation
that holds along the reading of a token and along the emission of code.
-/
namespace Sqnim.Compiler

open Sqnim.Lib
open Prog (raise gets update when report demand loop Turn)
open SQFuncState

-- the search follows every step of a function
set_option synthInstance.maxSize 6400
set_option synthInstance.maxHeartbeats 100000

section Parts

variable {α : Type}

theorem run_onFunc_inv {m : FuncM α} {s s' : SQCompiler} {a : α}
    (h : Prog.run (onFunc m) s = (.ok a, s')) :
    ∃ fs, Prog.run m s.fs = (.ok a, fs) ∧ s' = { s with fs } := by
  have hr : (Prog.total m s.fs : Outcome _ Event String Unit α).result = .ok a :=
    congrArg Prod.fst h
  exact ⟨(m s.fs).final, Prod.ext (Prog.total_ok m s.fs hr) rfl, (congrArg Prod.snd h).symm⟩

theorem run_bind_onFunc_inv {β : Type} {m : FuncM α} {k : α → CompM β} {s s' : SQCompiler} {b : β}
    (h : Prog.run (onFunc m >>= k) s = (.ok b, s')) :
    ∃ a fs, Prog.run m s.fs = (.ok a, fs) ∧ Prog.run (k a) { s with fs } = (.ok b, s') := by
  obtain ⟨a, t, hm, hk⟩ := Prog.run_bind_inv h
  obtain ⟨fs, hfs, ht⟩ := run_onFunc_inv hm
  rw [ht] at hk
  exact ⟨a, fs, hfs, hk⟩

theorem run_onChild_inv {child child' : SQFuncState} {m : FuncM Unit} {s s' : SQCompiler}
    (h : Prog.run (onChild child m) s = (.ok child', s')) :
    s' = s ∧ Prog.run m child = (.ok (), child') := by
  have hr : ((m >>= fun _ => gets id : FuncM SQFuncState) child).result = .ok child' :=
    Prog.total_ok _ child (congrArg Prod.fst h)
  obtain ⟨_, fs, hm, hid⟩ := Prog.run_bind_inv (m := m) (s := child)
    (show Prog.run (m >>= fun _ => gets id : FuncM SQFuncState) child = (.ok child', _) from
      Prod.ext hr rfl)
  cases congrArg Prod.fst hid
  exact ⟨(congrArg Prod.snd h).symm, hm⟩

end Parts

/-- The relations along which tokens are read, and that do not look at the members which only the
parser uses. -/
class Reads (R : SQCompiler → SQCompiler → Prop) : Prop extends Journey R where
  same : ∀ s s' : SQCompiler,
    s'.fs = s.fs → s'.parents = s.parents → s'.lexer = s.lexer → R s s'
  lex : Leads R lex

/-- The relations along which code is emitted for the function that is compiled, where the emission
leads along `S`. -/
class Parses (R : SQCompiler → SQCompiler → Prop)
    (S : outParam (SQFuncState → SQFuncState → Prop)) : Prop extends Reads R where
  edits : Edits S
  onFunc : ∀ {α : Type} (m : FuncM α) [Leads S m], Leads R (onFunc m)
  getOuter : ∀ name, Leads R (getOuter name)

attribute [instance] Reads.lex Parses.edits Parses.onFunc Parses.getOuter

section Reads

variable (R : SQCompiler → SQCompiler → Prop) [hS : Reads R] {α : Type}

instance (child : SQFuncState) (m : FuncM Unit) : Leads R (onChild child m) where
  out s _ s' h := by
    rw [← show _ = s' from congrArg Prod.snd h]
    exact hS.same _ _ rfl rfl rfl

instance : Leads R token := inferInstanceAs (Leads R (gets _))

instance : Leads R prevtoken := inferInstanceAs (Leads R (gets _))

instance (t : Token) : Leads R (setToken t) := .update _ fun _ => hS.same _ _ rfl rfl rfl

instance (s : String) : Leads R (error s : CompM α) := by
  unfold error
  infer_instance

instance (tok : Token) : Leads R (expect tok) := by
  unfold expect
  infer_instance

instance (tok : Token) : Leads R (expectText tok) := by
  unfold expectText
  infer_instance

instance : Leads R optionalSemicolon := by
  unfold optionalSemicolon
  infer_instance

instance : Leads R endOfStatement := by
  unfold endOfStatement
  infer_instance

instance (es : SQExpState) : Leads R (setEs es) := .update _ fun _ => hS.same _ _ rfl rfl rfl

instance (etype : EType) : Leads R (setEtype etype) := .update _ fun _ => hS.same _ _ rfl rfl rfl

instance (epos : Int) : Leads R (setEpos epos) := .update _ fun _ => hS.same _ _ rfl rfl rfl

instance : Leads R setDonotGet := .update _ fun _ => hS.same _ _ rfl rfl rfl

instance (f : CompM Unit) [Leads R f] : Leads R (invokeExp f) := by
  unfold invokeExp
  infer_instance

instance : Leads R beginScope := by
  have : Leads R (update fun s => { s with scope := ⟨s.fs.outers, s.fs.vlocals.length⟩ } :
      CompM Unit) := .update _ fun _ => hS.same _ _ rfl rfl rfl
  unfold beginScope
  infer_instance

end Reads

section Parses

variable (R : SQCompiler → SQCompiler → Prop) {S : SQFuncState → SQFuncState → Prop}
  [hP : Parses R S]

instance (old : SQScope) (close : Bool) : Leads R (endScope old close) := by
  have : Leads R (update fun s => { s with scope := old } : CompM Unit) :=
    .update _ fun _ => hP.same _ _ rfl rfl rfl
  unfold endScope
  infer_instance

/-! ## Expressions -/

/-- The functions that are called again and only lead along a relation. -/
class Self.Leading (self : Self) : Prop where
  expression : Leads R self.expression
  commaExpr : Leads R self.commaExpr
  prefixedExpr : Leads R self.prefixedExpr
  logicalAndExp : Leads R self.logicalAndExp
  logicalOrExp : Leads R self.logicalOrExp

attribute [instance] Self.Leading.expression Self.Leading.commaExpr Self.Leading.prefixedExpr
  Self.Leading.logicalAndExp Self.Leading.logicalOrExp

variable (self : Self) [self.Leading R]

instance : Leads R (callArg self) := by
  unfold callArg
  infer_instance

instance : Leads R (keyAndValue self) := by
  unfold keyAndValue
  infer_instance

instance : Leads R (postCall self) := by
  unfold postCall
  infer_instance

instance (rawcall : Bool) : Leads R (functionCallArgs self rawcall) := by
  unfold functionCallArgs
  infer_instance

instance : Leads R (parseBindEnv self) := by
  unfold parseBindEnv
  infer_instance

instance : Leads R (bindEnv self) := by
  unfold bindEnv
  infer_instance

instance (child : SQFuncState) (defparams : Nat) :
    Leads R (paramDefault self child defparams) := by
  unfold paramDefault
  infer_instance

instance (r : SQFuncState × Nat) : Leads R (parameterTurn self r) := by
  unfold parameterTurn
  infer_instance

instance (tk : Token) : Leads R (methodName tk) := by
  unfold methodName
  infer_instance

instance (separator : Token) : Leads R (memberStatic separator) := by
  unfold memberStatic
  infer_instance

instance : Leads R (classBase self) := by
  unfold classBase
  infer_instance

instance (op : SQOpcode) [IsTrue (notLine op)] : Leads R (unaryOP self op) := by
  unfold unaryOP
  infer_instance

instance (etype : EType) : Leads R (deleteTarget etype) := by
  unfold deleteTarget
  infer_instance

instance : Leads R (deleteExpr self) := by
  unfold deleteExpr
  infer_instance

instance (tok : Token) : Leads R (prefixIncDec self tok) := by
  unfold prefixIncDec
  infer_instance

instance (id : Text) (constant : Constant) : Leads R (constantValue id constant) := by
  cases constant with
  | value v =>
    unfold constantValue
    infer_instance
  | table fields =>
    have h (constid : Text) : Leads R (match fields.lookup constid with
      | some v => pure v
      | none => error ("invalid constant [" ++ String.ofList id ++ "." ++ String.ofList constid ++
          "]") : CompM Scalar) := by
      split
      · infer_instance
      · infer_instance
    unfold constantValue
    infer_instance

instance (pos : StackPos) : Leads R (localFactor pos) := by
  unfold localFactor
  infer_instance

instance (pos : Nat) : Leads R (outerFactor pos) := by
  unfold outerFactor
  infer_instance

instance (id : Text) (constant : Constant) : Leads R (constantFactor id constant) := by
  unfold constantFactor
  infer_instance

instance (id : Text) : Leads R (fieldFactor id) := by
  unfold fieldFactor
  infer_instance

instance (id : Text) : Leads R (identifier id) := by
  apply Leads.bind'
  intro _
  apply Leads.bind'
  intro fs
  split
  · infer_instance
  · apply Leads.bind'
    intro r
    split
    · infer_instance
    · apply Leads.bind'
      intro consts
      split
      · infer_instance
      · infer_instance

instance : Leads R (minusFactor self) := by
  unfold minusFactor
  infer_instance

instance : Leads R (tildeFactor self) := by
  unfold tildeFactor
  infer_instance

instance : Leads R (parenthesized self) := by
  unfold parenthesized
  infer_instance

instance (m : FuncM Unit) [Leads S m] : Leads R (tokenFactor m) := by
  unfold tokenFactor
  infer_instance

instance (m : CompM Unit) [Leads R m] : Leads R (lexThen m) := by
  unfold lexThen
  infer_instance

instance : Leads R baseFactor := by
  unfold baseFactor
  infer_instance

instance : Leads R rootFactor := by
  unfold rootFactor
  infer_instance

instance : Leads R derefField := by
  unfold derefField
  infer_instance

instance : Leads R dotTurn := by
  unfold dotTurn
  infer_instance

instance : Leads R (prefixedTurn self) := by
  apply Leads.bind'
  intro t
  split <;> infer_instance

section Functions

variable [∀ name boundtarget, Leads R (createFunction self name boundtarget)]

instance : Leads R (functionExp self) := by
  unfold functionExp
  infer_instance

instance : Leads R (parseMethod self) := by
  unfold parseMethod
  infer_instance

instance (separator : Token) : Leads R (member self separator) := by
  unfold member
  infer_instance

instance (separator : Token) [Leads R (memberAttributes self separator)] :
    Leads R (parseMember self separator) := by
  unfold parseMember
  infer_instance

end Functions

section Levels

omit self

variable (f : CompM Unit) [Leads R f]

instance (op : SQOpcode) [IsTrue (notLine op)] (op3 : Int) : Leads R (binExp op f op3) := by
  unfold binExp
  infer_instance

include hP in
theorem leads_binLevel (ops : Token → Option (SQOpcode × Int))
    (hops : ∀ t, (ops t).all (fun r => notLine r.1) = true := by intro t; split <;> rfl) :
    Leads R (binLevel f ops) := by
  have hloop (turn : Token → CompM (Turn Unit Unit)) (hturn : ∀ t, Leads R (turn t)) :
      Leads R (do f; loop (fun _ => do turn (← token)) ()) := inferInstance
  unfold binLevel
  refine hloop _ fun t => ?_
  split
  · next op op3 h =>
    have : IsTrue (notLine op) := ⟨by simpa only [h, Option.all_some] using hops t⟩
    infer_instance
  · infer_instance

end Levels

section Operators

omit [self.Leading R]

variable [Leads R (prefixedExpr self)]

instance : Leads R (multExp self) := leads_binLevel R _ _

instance : Leads R (plusExp self) := leads_binLevel R _ _

instance : Leads R (shiftExp self) := leads_binLevel R _ _

instance : Leads R (compExp self) := leads_binLevel R _ _

instance : Leads R (eqExp self) := leads_binLevel R _ _

instance : Leads R (bitwiseAndExp self) := leads_binLevel R _ _

instance : Leads R (bitwiseXorExp self) := leads_binLevel R _ _

instance : Leads R (bitwiseOrExp self) := leads_binLevel R _ _

end Operators

instance (t : Token) [Leads R (plainFactor self t)] : Leads R (factorOf self t) := by
  unfold factorOf
  split <;> infer_instance

instance [∀ t, Leads R (plainFactor self t)] : Leads R (factor self) := by
  unfold factor
  infer_instance

instance [Leads R (factor self)] : Leads R (prefixedExpr self) := by
  unfold prefixedExpr
  infer_instance

instance [Leads R (bitwiseOrExp self)] [Leads R (shortCircuit .opAnd self.logicalAndExp)] :
    Leads R (logicalAndExp self) := by
  unfold logicalAndExp
  infer_instance

instance [Leads R (logicalAndExp self)] [Leads R (shortCircuit .opOr self.logicalOrExp)] :
    Leads R (logicalOrExp self) := by
  unfold logicalOrExp
  infer_instance

instance (op : Token) : Leads R (assignment self op) := by
  unfold assignment
  infer_instance

instance [Leads R (logicalOrExp self)] [Leads R (conditional self)] : Leads R (expression self) := by
  unfold expression
  infer_instance

/-! ## Statements -/

variable [Leads R (expression self)]

instance : Leads R (commaExpr self) := by
  unfold commaExpr
  infer_instance

instance : Leads R (condition self) := by
  unfold condition
  infer_instance

instance : Leads R (droppedExpr self) := by
  unfold droppedExpr
  infer_instance

instance : Leads R (localValue self) := by
  unfold localValue
  infer_instance

instance : Leads R (localVariables self) := by
  unfold localVariables
  infer_instance

instance (op : SQOpcode) [IsTrue (notLine op)] : Leads R (returnStatement self op) := by
  unfold returnStatement
  infer_instance

instance : Leads R (throwStatement self) := by
  unfold throwStatement
  infer_instance

instance : Leads R (exprStatement self) := by
  unfold exprStatement
  infer_instance

instance : Leads R foreachNames := by
  unfold foreachNames
  infer_instance

instance (id : Text) : Leads R (functionKey id) := by
  unfold functionKey
  infer_instance

instance : Leads R functionName := by
  unfold functionName
  infer_instance

instance : Leads R negativeScalar := by
  apply Leads.bind'
  intro s
  split <;> infer_instance

instance : Leads R scalar := by
  apply Leads.bind'
  intro s
  split <;> infer_instance

instance : Leads R expectScalar := by
  unfold expectScalar
  infer_instance

instance (id : Text) (c : Constant) : Leads R (newConstant id c) :=
  .update _ fun _ => hP.same _ _ rfl rfl rfl

instance : Leads R constStatement := by
  unfold constStatement
  infer_instance

instance (nval : Int) : Leads R (enumValue nval) := by
  unfold enumValue
  infer_instance

instance : Leads R enumStatement := by
  unfold enumStatement
  infer_instance

section Functions

variable [∀ name boundtarget, Leads R (createFunction self name boundtarget)]

instance : Leads R (localFunction self) := by
  unfold localFunction
  infer_instance

instance : Leads R (localDeclStatement self) := by
  unfold localDeclStatement
  infer_instance

instance : Leads R (forInit self) := by
  unfold forInit
  infer_instance

instance : Leads R (functionStatement self) := by
  unfold functionStatement
  infer_instance

end Functions

section Classes

variable [Leads R (classExp self)] [Leads R (prefixedExpr self)]

instance (etype : EType) : Leads R (classTarget self etype) := by
  unfold classTarget
  infer_instance

instance : Leads R (classStatement self) := by
  unfold classStatement
  infer_instance

end Classes

variable [∀ close, Leads R (self.statement close)]

instance : Leads R (statements self) := by
  unfold statements
  infer_instance

instance (close : Bool) : Leads R (block self close) := by
  unfold block
  infer_instance

instance : Leads R (ifBlock self) := by
  unfold ifBlock
  infer_instance

instance : Leads R (scopedStatement self) := by
  unfold scopedStatement
  infer_instance

instance : Leads R (scopedStatements self) := by
  unfold scopedStatements
  infer_instance

instance : Leads R (defaultCase self) := by
  unfold defaultCase
  infer_instance

instance : Leads R (mainLoop self) := by
  unfold mainLoop
  infer_instance

end Parses

end Sqnim.Compiler
