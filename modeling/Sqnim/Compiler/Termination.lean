import Sqnim.Compiler.Progress

/-!
# Compile ends

Every statement uses a token, so the main loop ends, and the calls of the parser are not nested
deeper than there are characters in the source text.
-/
namespace Sqnim.Compiler

open Sqnim.Lib
open Prog (raise gets update when report demand loop Turn)
open SQFuncState

variable {b : Nat} {st : Stage}

section Statements

variable (self : Self) [Progresses b self]

-- the search follows every step of a function
set_option synthInstance.maxSize 800

instance : Ends b .fed (statements self) := by
  unfold statements
  infer_instance

instance (close : Bool) : Eats b .pending (block self close) := by
  unfold block
  infer_instance

instance (close : Bool) : Ends b .fed (block self close) := by
  unfold block
  infer_instance

instance : Ends b .fed (condition self) := by
  unfold condition
  infer_instance

instance : Ends b .fed (ifBlock self) := by
  unfold ifBlock
  infer_instance

instance : Ends b .fed (elseBlock self) := by
  unfold elseBlock
  infer_instance

instance : Eats b .pending (ifStatement self) := by
  unfold ifStatement
  infer_instance

instance : Ends b .fed (scopedStatement self) := by
  unfold scopedStatement
  infer_instance

instance : Eats b .pending (whileStatement self) := by
  unfold whileStatement
  infer_instance

instance : Eats b .pending (doWhileStatement self) := by
  unfold doWhileStatement
  infer_instance

instance : Ends b .fed (localFunction self) := by
  unfold localFunction
  infer_instance

instance : Ends b .fed (localValue self) := by
  unfold localValue
  infer_instance

instance : Ends b .fed (localVariables self) := by
  unfold localVariables
  infer_instance

instance : Eats b .pending (localDeclStatement self) := by
  unfold localDeclStatement
  infer_instance

instance : Ends b .fed (localDeclStatement self) := by
  unfold localDeclStatement
  infer_instance

instance : Ends b .fed (droppedExpr self) := by
  unfold droppedExpr
  infer_instance

instance : Ends b .fed (forInit self) := by
  unfold forInit
  infer_instance

instance : Ends b .fed (forCondition self) := by
  unfold forCondition
  infer_instance

instance : Ends b .fed (forStep self) := by
  unfold forStep
  infer_instance

instance : Ends b .fed (forHeader self) := by
  unfold forHeader
  infer_instance

instance : Eats b .pending (forStatement self) := by
  unfold forStatement
  infer_instance

instance : Ends b .fed foreachNames := by
  unfold foreachNames
  infer_instance

instance : Eats b .pending (forEachStatement self) := by
  unfold forEachStatement
  infer_instance

instance : Ends b .fed (scopedStatements self) := by
  unfold scopedStatements
  infer_instance

instance (expr : StackPos) (c : CaseJumps) : Turns b .fed (caseTurn self expr c) := by
  unfold caseTurn
  infer_instance

instance : Ends b .fed (defaultCase self) := by
  unfold defaultCase
  infer_instance

instance : Eats b .pending (switchStatement self) := by
  unfold switchStatement
  infer_instance

instance (id : Text) : Still (functionKey id) := by
  unfold functionKey
  infer_instance

instance : Ends b .fed functionName := by
  unfold functionName
  infer_instance

instance : Eats b .pending (functionStatement self) := by
  unfold functionStatement
  infer_instance

instance (etype : EType) : Ends b .fed (classTarget self etype) := by
  unfold classTarget
  infer_instance

instance : Eats b .pending (classStatement self) := by
  unfold classStatement
  infer_instance

instance : Ends b st negativeScalar := by
  apply Takes.after_still
  intro s
  split <;> infer_instance

instance : Ends b st scalar := by
  apply Takes.after_still
  intro s
  split <;> infer_instance

instance : Ends b st expectScalar := by
  unfold expectScalar
  infer_instance

instance (id : Text) (c : Constant) : Still (newConstant id c) :=
  still_member _ (fun _ => rfl) fun _ => rfl

instance : Eats b .pending constStatement := by
  unfold constStatement
  infer_instance

instance (nval : Int) : Ends b st (enumValue nval) := by
  unfold enumValue
  infer_instance

instance : Eats b .pending enumStatement := by
  unfold enumStatement
  infer_instance

instance : Eats b .pending (tryCatchStatement self) := by
  unfold tryCatchStatement
  infer_instance

instance (op : SQOpcode) : Eats b .pending (returnStatement self op) := by
  unfold returnStatement
  infer_instance

instance : Eats b .pending breakStatement := by
  unfold breakStatement
  infer_instance

instance : Eats b .pending continueStatement := by
  unfold continueStatement
  infer_instance

instance : Eats b .pending (throwStatement self) := by
  unfold throwStatement
  infer_instance

instance : Eats b st (exprStatement self) := by
  unfold exprStatement
  infer_instance

instance (closeframe : Bool) : Eats b st (statementBody self closeframe) := by
  apply Takes.at_any
  apply takes_token
  · exact inferInstanceAs (Eats b .start (exprStatement self))
  · intro t _
    split <;> infer_instance

instance (force : Bool) : Still (markLine force) := by
  unfold markLine
  infer_instance

instance (closeframe : Bool) : Eats b st (statement self closeframe) := by
  unfold statement
  infer_instance

instance : Ends b .fed (mainLoop self) := by
  unfold mainLoop
  infer_instance

end Statements

/-! ## The recursion -/

/-- Calls nested to a depth of `n` are enough where at most `n` tokens and characters are left. -/
theorem selfAt_progresses (n : Nat) : Progresses n (selfAt n) := by
  induction n with
  | zero =>
    exact {
      statement := fun _ => takes_zero _ _
      expression := takes_zero _ _
      commaExpr := takes_zero _ _
      prefixedExpr := takes_zero _ _
      logicalAndExp := takes_zero _ _
      logicalOrExp := takes_zero _ _
      parseTableOrClass := fun _ _ => takes_zero _ _ }
  | succ n ih =>
    exact {
      statement := fun close =>
        Takes.succ (inferInstanceAs (Eats n .start (statement (selfAt n) close)))
      expression := Takes.succ (inferInstanceAs (Eats n .start (expression (selfAt n))))
      commaExpr := Takes.succ (inferInstanceAs (Eats n .start (commaExpr (selfAt n))))
      prefixedExpr := Takes.succ (inferInstanceAs (Eats n .start (prefixedExpr (selfAt n))))
      logicalAndExp := Takes.succ (inferInstanceAs (Eats n .start (logicalAndExp (selfAt n))))
      logicalOrExp := Takes.succ (inferInstanceAs (Eats n .start (logicalOrExp (selfAt n))))
      parseTableOrClass := fun separator terminator => Takes.succ
        (inferInstanceAs (Ends n .start (parseTableOrClass (selfAt n) separator terminator))) }

instance (m : SQLexer.LexM Unit) [h : ∀ b, Ends b .start m] : Ends b st (onLexer m) where
  fuel s _ hf := (h _).fuel s.lexer (Nat.le_refl _) (Prog.silent_outOfFuel m _ hf)
  le s a _ hr := by
    have hle : (m s.lexer).final.charsLeft ≤ s.lexer.charsLeft :=
      (h _).le s.lexer a (Nat.le_refl _) (Prog.silent_ok m _ hr)
    exact Nat.add_le_add_right hle _

instance : Ends b st (SQLexer.next : SQLexer.LexM Unit) where
  fuel l _ h := by
    rw [SQLexer.next_run] at h
    cases h
  le l a _ _ := by
    have := SQLexer.charsLeft_stepped l
    rw [SQLexer.next_run]
    show SQLexer.charsLeft (SQLexer.stepped l) ≤ SQLexer.charsLeft l
    omega

instance (self : Self) [Progresses b self] : Ends b .fed (compileMain self) := by
  unfold compileMain
  infer_instance

/-! ## What Compile and the functions below it return -/

/-- A value or a compile error. -/
def Returns {σ α : Type} (o : Outcome σ Event String Unit α) : Prop :=
  (∃ a, o.result = .ok a) ∨ ∃ e, o.result = .error (.raised e)

/-- `Lex` reads a character, or returns the end of the input or an error. -/
def LexAdvances (strtod : Text → BitVec 32) (l : SQLexer) : Prop :=
  (SQLexer.lex strtod l : Outcome _ Empty _ _ _).result ≠ .error (.outOfFuel ()) ∧
    ∀ t, (SQLexer.lex strtod l : Outcome _ Empty _ _ _).result = .ok t → t ≠ .eob →
      (SQLexer.lex strtod l : Outcome _ Empty _ _ _).final.charsLeft < l.charsLeft

/-- `Statement` uses a token, or ends in an error. -/
def StatementAdvances (n : Nat) (s : SQCompiler) : Prop :=
  ∀ close, ((selfAt n).statement close s).result ≠ .error (.outOfFuel ()) ∧
    (((selfAt n).statement close s).result = .ok () →
      Supply.left ((selfAt n).statement close s).final < Supply.left s)

/-- `Compile` with calls nested to a depth of `n` at most. -/
structure Terminates (n : Nat) (cfg : Config) (source : List UInt8) : Prop where
  lex : ∀ l, LexAdvances cfg.strtod l
  statement : ∀ s, Supply.left s < n → StatementAdvances n s
  returns : Returns (compile n cfg source)

theorem lex_advances (strtod : Text → BitVec 32) (l : SQLexer) : LexAdvances strtod l := by
  have h : Takes l.charsLeft .start SQLexer.tokenCost
    (SQLexer.lex strtod : SQLexer.LexM Token) := inferInstance
  constructor
  · exact h.fuel l (Nat.le_refl _)
  · intro t ht hn
    have hle := h.le l t (Nat.le_refl _) ht
    have hc : SQLexer.tokenCost t = 1 := if_neg hn
    rw [hc] at hle
    exact hle

theorem statement_advances (n : Nat) (s : SQCompiler) (hs : Supply.left s < n) :
    StatementAdvances n s := by
  intro close
  have := selfAt_progresses n
  have h : Eats n .fed ((selfAt n).statement close) := inferInstance
  exact ⟨h.fuel s hs, h.le s () hs⟩

theorem left_initial (cfg : Config) (source : List UInt8) :
    Supply.left (cfg.initial source) ≤ source.length + 1 := by
  show source.length + 0 + (if cfg.token = .eob then 0 else 1) ≤ _
  split <;> omega

theorem compile_fuel (n : Nat) (cfg : Config) (source : List UInt8) (hn : source.length + 1 < n) :
    (compile n cfg source).result ≠ .error (.outOfFuel ()) := by
  have := selfAt_progresses n
  have h : Ends n .fed (compileMain (selfAt n)) := inferInstance
  exact h.fuel _ (Nat.lt_of_le_of_lt (left_initial cfg source) hn)

/-- A run that does not run out of fuel returns if and only if every demand is met. -/
theorem returns_iff {σ α : Type} (o : Outcome σ Event String Unit α)
    (hf : o.result ≠ .error (.outOfFuel ())) :
    Returns o ↔ ∀ w ∈ o.events, w.holds = true := by
  have hb := o.honest
  constructor
  · intro h w hw
    cases hh : w.holds with
    | true => rfl
    | false =>
      obtain ⟨v, hv⟩ := hb.mpr ⟨w, hw, hh⟩
      obtain ⟨a, ha⟩ | ⟨e, he⟩ := h
      · cases ha.symm.trans hv
      · cases he.symm.trans hv
  · intro h
    cases hr : o.result with
    | ok a => exact .inl ⟨a, hr⟩
    | error e => cases e with
      | raised e => exact .inr ⟨e, hr⟩
      | broken w =>
        obtain ⟨v, hv, hn⟩ := hb.mp ⟨w, hr⟩
        cases (h v hv).symm.trans hn
      | outOfFuel f => exact absurd hr hf

def plainConfig : Config where
  strtod _ := 0
  sourcename := ['t']
  lineinfo := false
  consts := []
  es := ⟨.expr, -1, false⟩
  curtoken := .none
  token := .none
  nvalue := 0
  fvalue := 0

def isOk {σ α : Type} (o : Outcome σ Event String Unit α) : Bool :=
  match o.result with
  | .ok _ => true
  | .error _ => false

theorem exists_of_isOk {σ α : Type} (o : Outcome σ Event String Unit α) (h : isOk o = true) :
    ∃ a, o.result = .ok a := by
  unfold isOk at h
  split at h
  · next a ha => exact ⟨a, ha⟩
  · cases h

/-- A compilation is accepted, and the prototype is as `p` says. -/
def okAnd {σ α : Type} (p : α → Prop) [DecidablePred p] (o : Outcome σ Event String Unit α) :
    Bool :=
  match o.result with
  | .ok a => p a
  | .error _ => false

theorem exists_of_okAnd {σ α : Type} (p : α → Prop) [DecidablePred p]
    (o : Outcome σ Event String Unit α) (h : okAnd p o = true) : ∃ a, o.result = .ok a ∧ p a := by
  unfold okAnd at h
  split at h
  · next a ha => exact ⟨a, ha, of_decide_eq_true h⟩
  · cases h

/-- A program with a local function, which captures a variable, and a loop that calls it. -/
def sampleProgram : List UInt8 :=
  ("local a=1\nlocal function f(x)\x7breturn x+a\x7d\n" ++
    "for(local i=0;i<3;i++)\n  a=f(i)\n").toList.map fun c => c.toNat.toUInt8

end Sqnim.Compiler
