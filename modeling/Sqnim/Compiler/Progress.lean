import Sqnim.Compiler.LexProgress
import Sqnim.Compiler.Statement

/-!
# The parser ends

Every statement and every expression uses a token or raises an error, so a loop of the parser
cannot turn more often than there are tokens, nor its recursion go deeper.
-/
namespace Sqnim.Compiler

open Sqnim.Lib
open Prog (raise gets update when report demand loop Turn)
open SQFuncState

variable {b : Nat} {st : Stage} {α : Type}

instance (m : FuncM α) : Still (onFunc m) := still_zoom _ _ m (fun _ _ => rfl) fun _ _ => id

instance (child : SQFuncState) (m : FuncM Unit) : Still (onChild child m) :=
  still_zoom _ _ _ (fun _ _ => rfl) fun _ _ => id

instance : Still token := inferInstanceAs (Still (gets _))

instance : Still prevtoken := inferInstanceAs (Still (gets _))

instance (s : String) : Still (error s : CompM α) := inferInstanceAs (Still (raise _))

instance (s : String) (cost : α → Nat) : Takes b st cost (error s : CompM α) :=
  inferInstanceAs (Takes b st cost (raise _))

/-- An update of the compiler that leaves its token and its lexer alone. -/
theorem still_member (f : SQCompiler → SQCompiler) (ht : ∀ s, (f s).token = s.token)
    (hl : ∀ s, (f s).lexer = s.lexer) : Still (update f : CompM Unit) := by
  apply still_update
  · intro s
    show (f s).lexer.charsLeft + (if (f s).token = .eob then 0 else 1) = _
    rw [ht, hl]
    rfl
  · intro s h
    show (f s).token ≠ .eob
    rw [ht]
    exact h

/-- The supply of the lexer after a token, and that token. -/
theorem lex_run (s : SQCompiler) :
    (∀ a, (lex s).result = .ok a →
      Supply.left (lex s).final + (if s.token = .eob then 0 else 1) ≤ Supply.left s) ∧
      (lex s).result ≠ .error (.outOfFuel ()) := by
  have hl : Takes s.lexer.charsLeft .start SQLexer.tokenCost
      (Prog.silent (SQLexer.lex s.strtod) : Prog SQLexer Event String Unit Token) := inferInstance
  constructor
  · intro a h
    obtain ⟨st, hst, h, hf, _⟩ := Prog.bind_ok_inv (gets (·.strtod)) _ s h
    cases hst
    obtain ⟨t, ht, h, hf', _⟩ := Prog.bind_ok_inv (onLexer (SQLexer.lex s.strtod)) setToken s h
    have hle := hl.le s.lexer t (Nat.le_refl _) ht
    have hc : Supply.left (SQLexer.lex s.strtod s.lexer).final +
      (if t = .eob then 0 else 1) ≤ s.lexer.charsLeft := hle
    have he : (lex s).final = (setToken t (onLexer (SQLexer.lex s.strtod) s).final).final :=
      hf.trans hf'
    rw [he]
    show Supply.left (SQLexer.lex s.strtod s.lexer).final +
      (if t = .eob then 0 else 1) + _ ≤ s.lexer.charsLeft + (if s.token = .eob then 0 else 1)
    omega
  · intro h
    obtain h | ⟨st, hst, h⟩ := Prog.bind_error_inv (gets (·.strtod)) _ s h
    · cases h
    · cases hst
      obtain h | ⟨t, _, h⟩ :=
        Prog.bind_error_inv (onLexer (SQLexer.lex s.strtod)) setToken s h
      · exact hl.fuel s.lexer (Nat.le_refl _) h
      · cases h

instance : Ends b st lex where
  fuel s _ := (lex_run s).2
  le s a _ h := Nat.le_trans (Nat.le_add_right _ _) ((lex_run s).1 a h)

instance : Eats b .pending lex where
  fuel s _ := (lex_run s).2
  le s a hs h := by
    have hle := (lex_run s).1 a h
    rw [if_neg hs.2] at hle
    exact hle

theorem token_bind (k : Token → CompM α) (s : SQCompiler) : (token >>= k) s = k s.token s :=
  Prog.bind_of_ok token k s rfl

/-- A case analysis of the current token: where it is not the end of the input, there is something
to use. -/
theorem takes_token (cost : α → Nat) (k : Token → CompM α) (he : Takes b .start cost (k .eob))
    (hk : ∀ t, t ≠ .eob → Takes b .pending cost (k t)) :
    Takes b .start cost (token >>= k) where
  fuel s hs := by
    rw [token_bind]
    by_cases hn : s.token = .eob
    · rw [hn]
      exact he.fuel s hs
    · exact (hk _ hn).fuel s ⟨hs, hn⟩
  le s a hs := by
    rw [token_bind]
    by_cases hn : s.token = .eob
    · rw [hn]
      exact he.le s a hs
    · exact (hk _ hn).le s a ⟨hs, hn⟩

/-- A test for a token that is not the end of the input. -/
theorem takes_ifToken (cost : α → Nat) (t : Token) (ht : t ≠ .eob) (m m' : CompM α)
    (hm : Takes b .pending cost m) (hm' : Takes b .start cost m') :
    Takes b .start cost (do if (← token) = t then m else m') := by
  apply takes_token
  · rw [if_neg fun h => ht h.symm]
    exact hm'
  · intro t' _
    split
    · exact hm
    · exact hm'.at_any

/-- A token of the text, not its end. -/
class Visible (tok : Token) : Prop where
  ne : tok ≠ .eob

instance (c : Char) : Visible (.ch c) := ⟨nofun⟩

instance : Visible .tkIdentifier := ⟨nofun⟩

instance : Visible .tkStringLiteral := ⟨nofun⟩

instance : Visible .tkIn := ⟨nofun⟩

instance : Visible .tkWhile := ⟨nofun⟩

instance : Visible .tkCatch := ⟨nofun⟩

instance (tok : Token) [h : Visible tok] : Eats b st (expect tok) := by
  apply Takes.at_any
  unfold expect
  apply takes_token
  · have hn : ¬ accepts tok .eob = true := by
      simp only [accepts, Bool.or_eq_true, decide_eq_true_eq, Bool.and_eq_true, reduceCtorEq,
        and_false, or_false]
      exact fun he => h.ne he.symm
    simp only [hn, Bool.not_false, when, ↓reduceIte]
    infer_instance
  · intro t _
    infer_instance

instance (tok : Token) [Visible tok] : Eats b st (expectText tok) := by
  unfold expectText
  infer_instance

instance : Ends b st optionalSemicolon := by
  unfold optionalSemicolon
  infer_instance

instance : Ends b st endOfStatement := by
  unfold endOfStatement
  infer_instance

instance (es : SQExpState) : Still (setEs es) := still_member _ (fun _ => rfl) fun _ => rfl

instance (etype : EType) : Still (setEtype etype) :=
  still_member _ (fun _ => rfl) fun _ => rfl

instance (epos : Int) : Still (setEpos epos) := still_member _ (fun _ => rfl) fun _ => rfl

instance : Still setDonotGet := still_member _ (fun _ => rfl) fun _ => rfl

instance (f : CompM Unit) [Eats b st f] : Eats b st (invokeExp f) := by
  unfold invokeExp
  infer_instance

instance : Still beginScope := by
  have h : Still (update fun s => { s with scope := ⟨s.fs.outers, s.fs.vlocals.length⟩ } :
      CompM Unit) := still_member _ (fun _ => rfl) fun _ => rfl
  unfold beginScope
  infer_instance

instance (old : SQScope) (close : Bool) : Still (endScope old close) := by
  have h : Still (update fun s => { s with scope := old } : CompM Unit) :=
    still_member _ (fun _ => rfl) fun _ => rfl
  unfold endScope
  infer_instance

/-! ## Expressions -/

/-- What the functions that are called again do if fewer than `b` tokens and characters are
left. -/
class Progresses (b : Nat) (self : Self) : Prop where
  statement : ∀ close, Eats b .fed (self.statement close)
  expression : Eats b .fed self.expression
  commaExpr : Eats b .fed self.commaExpr
  prefixedExpr : Eats b .fed self.prefixedExpr
  logicalAndExp : Eats b .fed self.logicalAndExp
  logicalOrExp : Eats b .fed self.logicalOrExp
  parseTableOrClass : ∀ separator terminator,
    Ends b .fed (self.parseTableOrClass separator terminator)

attribute [instance] Progresses.statement Progresses.expression Progresses.commaExpr
  Progresses.prefixedExpr Progresses.logicalAndExp Progresses.logicalOrExp
  Progresses.parseTableOrClass

variable (self : Self) [Progresses b self]

-- the search follows every step of a function
set_option synthInstance.maxSize 800

instance : Eats b .fed (callArg self) := by
  unfold callArg
  infer_instance

instance : Eats b st (keyAndValue self) := by
  apply Takes.at_any
  apply takes_ifToken
  · exact nofun
  · infer_instance
  · infer_instance

instance : Ends b .fed (postCall self) := by
  unfold postCall
  infer_instance

instance (rawcall : Bool) : Ends b .fed (functionCallArgs self rawcall) := by
  unfold functionCallArgs
  infer_instance

instance : Ends b .fed (parseBindEnv self) := by
  unfold parseBindEnv
  infer_instance

instance : Ends b .fed (bindEnv self) := by
  unfold bindEnv
  infer_instance

instance (child : SQFuncState) (defparams : Nat) :
    Ends b .fed (paramDefault self child defparams) := by
  unfold paramDefault
  infer_instance

instance (r : SQFuncState × Nat) : Turns b .fed (parameterTurn self r) := by
  unfold parameterTurn
  infer_instance

instance (child : SQFuncState) : Still (enterChildState child) :=
  still_member _ (fun _ => rfl) fun _ => rfl

instance : Still leaveChildState := still_member _ (fun _ => rfl) fun _ => rfl

instance (child : SQFuncState) : Ends b .fed (functionBody self child) := by
  unfold functionBody
  infer_instance

instance (name : Option Text) (boundtarget : Operand) :
    Ends b .fed (createFunction self name boundtarget) := by
  unfold createFunction
  infer_instance

instance : Eats b .pending (functionExp self) := by
  unfold functionExp
  infer_instance

instance (tk : Token) : Ends b st (methodName tk) := by
  unfold methodName
  infer_instance

instance : Eats b .pending (parseMethod self) := by
  unfold parseMethod
  infer_instance

instance (separator : Token) : Ends b st (memberAttributes self separator) := by
  apply Takes.at_any
  apply takes_token
  · simp only [reduceCtorEq, and_false, ↓reduceIte]
    infer_instance
  · intro t _
    infer_instance

instance (separator : Token) : Ends b st (memberStatic separator) := by
  unfold memberStatic
  infer_instance

instance (separator : Token) : Eats b st (member self separator) := by
  apply Takes.at_any
  apply takes_token
  · simp only [reduceCtorEq, false_or, false_and, ↓reduceIte]
    infer_instance
  · intro t _
    infer_instance

instance (separator : Token) : Eats b st (parseMember self separator) := by
  unfold parseMember
  infer_instance

instance (separator terminator : Token) :
    Ends b st (parseTableOrClass self separator terminator) := by
  unfold parseTableOrClass
  infer_instance

instance : Ends b .fed (classBase self) := by
  unfold classBase
  infer_instance

instance : Ends b .fed (classAttributes self) := by
  unfold classAttributes
  infer_instance

instance : Ends b .fed (classExp self) := by
  unfold classExp
  infer_instance

instance (op : SQOpcode) : Ends b .fed (unaryOP self op) := by
  unfold unaryOP
  infer_instance

instance (etype : EType) : Still (deleteTarget etype) := by
  unfold deleteTarget
  infer_instance

instance : Eats b .pending (deleteExpr self) := by
  unfold deleteExpr
  infer_instance

instance (tok : Token) : Eats b .pending (prefixIncDec self tok) := by
  unfold prefixIncDec
  infer_instance

instance (name : Text) : Still (getOuter name) := by
  have h (fs : SQFuncState) (parents : List SQFuncState) :
      Still (update fun s => { s with fs, parents } : CompM Unit) :=
    still_member _ (fun _ => rfl) fun _ => rfl
  unfold getOuter
  infer_instance

instance (id : Text) (constant : Constant) : Ends b st (constantValue id constant) := by
  cases constant with
  | value v =>
    unfold constantValue
    infer_instance
  | table fields =>
    have h (constid : Text) : Still (match fields.lookup constid with
      | some v => pure v
      | none => error ("invalid constant [" ++ String.ofList id ++ "." ++ String.ofList constid ++
          "]") : CompM Scalar) := by
      split
      · infer_instance
      · infer_instance
    unfold constantValue
    infer_instance

instance (pos : StackPos) : Still (localFactor pos) := by
  unfold localFactor
  infer_instance

instance (pos : Nat) : Still (outerFactor pos) := by
  unfold outerFactor
  infer_instance

instance (id : Text) (constant : Constant) : Ends b st (constantFactor id constant) := by
  unfold constantFactor
  infer_instance

instance (id : Text) : Still (fieldFactor id) := by
  unfold fieldFactor
  infer_instance

instance (id : Text) : Eats b .pending (identifier id) := by
  unfold identifier
  apply Eats.before
  intro _
  apply Takes.after_still
  intro s
  split
  · infer_instance
  · apply Takes.after_still
    intro r
    split
    · infer_instance
    · apply Takes.after_still
      intro consts
      split
      · infer_instance
      · infer_instance

instance : Eats b .pending (arrayLiteral self) := by
  unfold arrayLiteral
  infer_instance

instance : Eats b .pending (tableLiteral self) := by
  unfold tableLiteral
  infer_instance

instance : Eats b .pending (minusFactor self) := by
  unfold minusFactor
  infer_instance

instance : Eats b .pending (tildeFactor self) := by
  unfold tildeFactor
  infer_instance

instance : Eats b .pending (parenthesized self) := by
  unfold parenthesized
  infer_instance

instance (m : FuncM Unit) : Eats b .pending (tokenFactor m) := by
  unfold tokenFactor
  infer_instance

instance (m : CompM Unit) [Ends b .fed m] : Eats b .pending (lexThen m) := by
  unfold lexThen
  infer_instance

instance (t : Token) : Eats b .pending (plainFactor self t) := by
  apply Takes.after_still
  intro l
  split <;> infer_instance

instance : Eats b .pending baseFactor := by
  unfold baseFactor
  infer_instance

/-- `::` becomes a `.` that is not used yet. -/
theorem rootFactor_run (s : SQCompiler) (hs : s.token ≠ .eob) :
    (rootFactor s).result ≠ .error (.outOfFuel ()) ∧ ∀ a, (rootFactor s).result = .ok a →
      Supply.left (rootFactor s).final = Supply.left s ∧ (rootFactor s).final.token = .ch '.' := by
  constructor
  · intro h
    obtain h | ⟨_, _, h⟩ := Prog.bind_error_inv (onFunc _) _ s h
    · exact Still.fuel s h
    · cases h
  · intro a h
    obtain ⟨_, _, _, hf, _⟩ := Prog.bind_ok_inv (onFunc _) _ s h
    have hl : Supply.left s = s.lexer.charsLeft + 1 := congrArg _ (if_neg hs)
    rw [show (rootFactor s).final = _ from hf, hl]
    exact ⟨rfl, rfl⟩

instance : Ends b .pending rootFactor where
  fuel s hs := (rootFactor_run s hs.2).1
  le s a hs h := Nat.le_of_eq ((rootFactor_run s hs.2).2 a h).1

instance (cost : Unit → Nat) : Takes b st cost (factorOf self .eob) where
  fuel _ _ h := by cases h
  le _ _ _ h := by cases h

theorem factorOf_eats (t : Token) (ht : t ≠ .tkDoubleColon) : Eats b .pending (factorOf self t) := by
  unfold factorOf
  split
  · infer_instance
  · infer_instance
  · infer_instance
  · infer_instance
  · exact absurd rfl ht
  · infer_instance

instance : Ends b st (factor self) := by
  apply Takes.at_any
  apply takes_token
  · infer_instance
  · intro t _
    by_cases ht : t = .tkDoubleColon
    · rw [ht]
      exact inferInstanceAs (Ends b .pending rootFactor)
    · have h := factorOf_eats (b := b) self t ht
      infer_instance

/-- `Factor` uses a token, or leaves a `.` to use. -/
theorem factor_run (s : SQCompiler) (hs : Supply.left s ≤ b) (a : Unit)
    (h : (factor self s).result = .ok a) :
    Supply.left (factor self s).final + 1 ≤ Supply.left s ∨
      Supply.left (factor self s).final = Supply.left s ∧
        (factor self s).final.token = .ch '.' := by
  have hf : factor self s = factorOf self s.token s := token_bind _ s
  rw [hf] at h ⊢
  by_cases hn : s.token = .eob
  · rw [hn] at h ⊢
    have he : Eats b .start (factorOf self .eob) := inferInstance
    exact .inl (he.le s a hs h)
  · by_cases ht : s.token = .tkDoubleColon
    · rw [ht] at h ⊢
      exact .inr ((rootFactor_run s hn).2 a h)
    · exact .inl ((factorOf_eats self s.token ht).le s a ⟨hs, hn⟩ h)

instance : Still derefField := by
  unfold derefField
  infer_instance

instance : Eats b .pending dotTurn := by
  unfold dotTurn
  infer_instance

instance : Turns b st (prefixedTurn self) := by
  apply Takes.at_any
  apply takes_token
  · exact done_takes nothing () rfl
  · intro t _
    split <;> infer_instance

instance : Eats b st (prefixedExpr self) := by
  apply Takes.at_any
  have hends : Ends b .start (prefixedExpr self) := by
    unfold prefixedExpr
    infer_instance
  refine ⟨hends.fuel, ?_⟩
  intro s a hs h
  obtain ⟨_, hf, hl, he, _⟩ := Prog.bind_ok_inv (factor self) _ s h
  rw [show (prefixedExpr self s).final = _ from he]
  have hloop : Ends b .start (loop (fun _ => prefixedTurn self) ()) := inferInstance
  obtain hlt | ⟨heq, hdot⟩ := factor_run self s hs _ hf
  · have hle : Supply.left (loop (fun _ => prefixedTurn self) () (factor self s).final).final + 0 ≤
        Supply.left (factor self s).final :=
      hloop.le _ a (Nat.le_trans (Nat.le_of_succ_le hlt) hs) hl
    exact Nat.le_trans (Nat.succ_le_succ hle) hlt
  · have hle : Supply.left (factor self s).final ≤ b := heq ▸ hs
    have hp : prefixedTurn self (factor self s).final = dotTurn (factor self s).final := by
      rw [show prefixedTurn self _ = _ from token_bind _ _, hdot]
      rfl
    have hdt : Eats b .pending dotTurn := inferInstance
    have hfirst := loop_first (b := b) (fun _ => prefixedTurn self) () _ (fun _ => inferInstance) hle
      (fun t ht => by
        rw [hp] at ht ⊢
        exact hdt.le _ t ⟨hle, fun he => nomatch hdot.symm.trans he⟩ ht) hl
    rw [heq] at hfirst
    exact hfirst

section Levels

omit self

variable (f : CompM Unit) [h : Eats b .start f]

instance (op : SQOpcode) (op3 : Int) : Eats b st (binExp op f op3) := by
  have hf : Eats b .start f := h
  apply Takes.at_any
  unfold binExp
  infer_instance

instance (ops : Token → Option (SQOpcode × Int)) : Eats b st (binLevel f ops) := by
  have hf : Eats b .start f := h
  have hturn (t : Token) : Turns b .fed (match ops t with
    | some (op, op3) => do
      binExp op f op3
      pure (.again ())
    | none => pure (.done ()) : CompM (Turn Unit Unit)) := by
    split
    · infer_instance
    · infer_instance
  apply Takes.at_any
  unfold binLevel
  infer_instance

end Levels

instance : Eats b st (bitwiseOrExp self) := by
  unfold bitwiseOrExp bitwiseXorExp bitwiseAndExp eqExp compExp shiftExp plusExp multExp
  infer_instance

instance (op : SQOpcode) (again : CompM Unit) [Ends b .fed again] :
    Ends b .fed (shortCircuit op again) := by
  unfold shortCircuit invokeExp
  infer_instance

instance : Eats b st (logicalAndExp self) := by
  unfold logicalAndExp
  infer_instance

instance : Eats b st (logicalOrExp self) := by
  unfold logicalOrExp
  infer_instance

instance (op : Token) : Ends b .fed (assignment self op) := by
  unfold assignment
  infer_instance

instance : Ends b .fed (conditional self) := by
  unfold conditional
  infer_instance

instance : Eats b st (expression self) := by
  unfold expression
  infer_instance

instance : Eats b st (commaExpr self) := by
  unfold commaExpr
  infer_instance

end Sqnim.Compiler
