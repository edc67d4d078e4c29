import Sqnim.Compiler.Accesses
import Sqnim.Compiler.LineFrames

/-!
# Compile looks only at what is there

Whatever the source text, the function states hold the elements that the compiler looks at, but for
the targets: only these and an `assert` can stop it.
-/
namespace Sqnim.Compiler

open Sqnim.Lib
open Prog (raise gets update when report demand loop Turn)
open SQFuncState

-- the search follows every step of a function
set_option synthInstance.maxSize 6400
set_option synthInstance.maxHeartbeats 100000

/-- The line tables and the jumps that wait are in order, and instructions are at some positions. -/
structure Held (ps : List Int) (s : SQCompiler) : Prop where
  lined : WellLined s
  fs : Ready ps s.fs
  parents : ∀ fs ∈ s.parents, fs.JumpsPlaced

/-- A program that looks only at what is there. -/
abbrev Careful {α : Type} (m : CompM α) : Prop := Reports Event.InRange (Held []) m

section Parts

variable {α β : Type} {e : Bool} (ps : List Int)

/-- An element of the second list is related to one of the first. -/
theorem exists_of_forall₂ {R : α → β → Prop} {l : List α} {l' : List β} (h : List.Forall₂ R l l')
    {b : β} (hb : b ∈ l') : ∃ a ∈ l, R a b := by
  induction h with
  | nil => cases hb
  | cons hr _ ih =>
    obtain rfl | hb := List.mem_cons.mp hb
    · exact ⟨_, List.mem_cons_self, hr⟩
    · obtain ⟨a, ha, hab⟩ := ih hb
      exact ⟨a, List.mem_cons_of_mem _ ha, hab⟩

theorem Held.of_frames {s t : SQCompiler} (hframes : Frames e s t) (hlines : LineFrames e s t)
    (hs : Held ps s) : Held ps t := by
  refine ⟨hlines.wellLined hs.lined, hs.fs.of_frame hframes.fs, ?_⟩
  intro fs' hfs'
  obtain ⟨fs, hfs, hframe⟩ := exists_of_forall₂ hframes.parents hfs'
  exact (hs.parents fs hfs).of_frame hframe

/-- A position that may be there. -/
theorem Held.exists_with {s : SQCompiler} (hs : Held [] s) {c : Prop} {pos : Int}
    (h : c → s.fs.Placed pos) : ∃ ps, Held ps s ∧ (c → pos ∈ ps) := by
  by_cases hc : c
  · refine ⟨[pos], ⟨hs.lined, ⟨hs.fs.jumps, ?_⟩, hs.parents⟩, fun _ => List.mem_cons_self⟩
    intro p hp
    rw [List.mem_singleton.mp hp]
    exact h hc
  · exact ⟨[], hs, fun h => absurd h hc⟩

instance (priority := low) (m : CompM α) [hm : Leads (Frames false) m]
    [hl : Leads (LineFrames false) m] : Leads (Staying (Held ps)) m where
  out s a t h hs := hs.of_frames ps (hm.out s a t h) (hl.out s a t h)

instance (priority := low) (m : CompM α) [Careful m] : Reports Event.InRange (Held ps) m :=
  .weaken (Q := Held []) fun _ hs => ⟨hs.lined, ⟨hs.fs.jumps, by simp⟩, hs.parents⟩

instance (m : FuncM α) [Reports Event.InRange (Ready ps) m] :
    Reports Event.InRange (Held ps) (onFunc m) := .zoom _ _ (Ready ps) _ _ _ fun _ hs => hs.fs

instance (child : SQFuncState) (m : FuncM Unit) [hm : Quiet m] : Careful (onChild child m) :=
  have : Quiet (do m; gets id) := inferInstance
  .zoom _ _ (fun _ => True) _ _ _ fun _ _ => trivial

instance (m : SQLexer.LexM α) : Careful (onLexer m) :=
  .zoom _ _ (fun _ => True) _ _ _ fun _ _ => trivial

/-- Only the members of the parser change. -/
theorem leads_member (f : SQCompiler → SQCompiler) (hfs : ∀ s, (f s).fs = s.fs)
    (hparents : ∀ s, (f s).parents = s.parents) (hlexer : ∀ s, (f s).lexer = s.lexer) :
    Leads (Staying (Held [])) (update f : CompM Unit) := by
  have : Leads (Frames false) (update f : CompM Unit) :=
    .update _ fun s => Reads.same _ _ (hfs s) (hparents s) (hlexer s)
  have : Leads (LineFrames false) (update f : CompM Unit) :=
    .update _ fun s => Reads.same _ _ (hfs s) (hparents s) (hlexer s)
  infer_instance

end Parts

instance : Careful token := inferInstanceAs (Careful (gets _))

instance : Careful prevtoken := inferInstanceAs (Careful (gets _))

instance (t : Token) : Careful (setToken t) := inferInstanceAs (Careful (update _))

instance : Careful lex := by
  unfold lex
  infer_instance

instance (s : String) : Careful (error s : CompM α) := by
  unfold error
  infer_instance

instance (tok : Token) : Careful (expect tok) := by
  unfold expect
  infer_instance

instance (tok : Token) : Careful (expectText tok) := by
  unfold expectText
  infer_instance

instance : Careful optionalSemicolon := by
  unfold optionalSemicolon
  infer_instance

instance : Careful endOfStatement := by
  unfold endOfStatement
  infer_instance

instance (es : SQExpState) : Careful (setEs es) := inferInstanceAs (Careful (update _))

instance (etype : EType) : Careful (setEtype etype) := inferInstanceAs (Careful (update _))

instance (epos : Int) : Careful (setEpos epos) := inferInstanceAs (Careful (update _))

instance : Careful setDonotGet := inferInstanceAs (Careful (update _))

instance (f : CompM Unit) [Careful f] [Leads (Staying (Held [])) f] : Careful (invokeExp f) := by
  unfold invokeExp
  infer_instance

instance : Careful beginScope := by
  have := leads_member (fun s => { s with scope := ⟨s.fs.outers, s.fs.vlocals.length⟩ })
    (fun _ => rfl) (fun _ => rfl) fun _ => rfl
  unfold beginScope
  infer_instance

instance (old : SQScope) (close : Bool) : Careful (endScope old close) := by
  unfold endScope
  infer_instance

/-! ## Calls and functions -/

/-- The functions that are called again look only at what is there; a table or a class starts after
the instruction that makes it. -/
class Self.Caring (self : Self) : Prop where
  statement : ∀ close, Careful (self.statement close)
  expression : Careful self.expression
  commaExpr : Careful self.commaExpr
  prefixedExpr : Careful self.prefixedExpr
  logicalAndExp : Careful self.logicalAndExp
  logicalOrExp : Careful self.logicalOrExp
  parseTableOrClass : ∀ separator terminator,
    Reports Event.InRange (Held [0]) (self.parseTableOrClass separator terminator)

attribute [instance] Self.Caring.statement Self.Caring.expression Self.Caring.commaExpr
  Self.Caring.prefixedExpr Self.Caring.logicalAndExp Self.Caring.logicalOrExp
  Self.Caring.parseTableOrClass

variable (self : Self) [self.Framing] [self.Lining] [self.Caring]

instance : Careful (callArg self) := by
  unfold callArg
  infer_instance

instance : Careful (keyAndValue self) := by
  unfold keyAndValue
  infer_instance

instance : Careful (postCall self) := by
  unfold postCall
  infer_instance

instance (rawcall : Bool) : Careful (functionCallArgs self rawcall) := by
  unfold functionCallArgs
  infer_instance

instance : Careful (parseBindEnv self) := by
  unfold parseBindEnv
  infer_instance

instance : Careful (bindEnv self) := by
  unfold bindEnv
  infer_instance

instance (child : SQFuncState) (defparams : Nat) :
    Careful (paramDefault self child defparams) := by
  unfold paramDefault
  infer_instance

instance (r : SQFuncState × Nat) : Careful (parameterTurn self r) := by
  unfold parameterTurn
  infer_instance

/-- The function inside is compiled with a state of its own. -/
theorem all_functionBody {child : SQFuncState} (hlined : child.Lined) (hjumps : child.JumpsPlaced)
    {s : SQCompiler} (hs : Held [] s) : (functionBody self child s).All Event.InRange := by
  rw [functionBody, enterChildState, Prog.update_bind]
  have henter : Held [] { s with fs := child, parents := s.fs :: s.parents } :=
    ⟨⟨hs.lined.lexer, hlined, List.forall_mem_cons.mpr ⟨hs.lined.fs, hs.lined.parents⟩⟩,
      ⟨hjumps, by simp⟩, List.forall_mem_cons.mpr ⟨hs.fs.jumps, hs.parents⟩⟩
  refine Outcome.all_bind (Reports.out (Q := Held []) _ henter) ?_
  intro _ t ht
  have hheld := Leads.out (R := Staying (Held [])) _ _ _ ht henter
  rw [Prog.gets_bind, Prog.gets_bind]
  refine Outcome.all_bind ?_ fun _ u _ => .of_nil rfl
  exact all_finishFunction hheld.lined.fs _ _

instance (name : Option Text) (boundtarget : Operand) :
    Careful (createFunction self name boundtarget) := by
  apply Reports.bind'
  intro sourcename
  apply Reports.bind_run
  intro s child t hs hchild
  obtain ⟨rfl, hthis⟩ := run_onChild_inv hchild
  have hlined := (Leads.out (R := LinesKept) _ _ _ hthis).lined (lined_create ..)
  have hjumps := JumpsPlaced.of_frame (Leads.out (R := CodeFrame false) _ _ _ hthis)
    ⟨by simp [create], by simp [create]⟩
  have hloop := Reports.bind_loop Event.InRange (parameterTurn self) (Held [])
    (fun r s => Held [] s ∧ r.1.Lined ∧ r.1.JumpsPlaced)
    (fun r s => Held [] s ∧ r.1.Lined ∧ r.1.JumpsPlaced) (child, 0)
    (fun r => do
      expect (.ch ')')
      onFunc (popHeader boundtarget r.2)
      functionBody self r.1)
    (fun s hs => ⟨hs, hlined, hjumps⟩)
    (fun r s h => Reports.out (Q := Held []) s h.1)
    (fun r s r' t h hturn => ⟨Leads.out (R := Staying (Held [])) _ _ _ hturn h.1,
      (child_of_parameterTurn self LinesKept hturn).lined h.2.1,
      h.2.2.of_frame (child_of_parameterTurn self (CodeFrame false) hturn)⟩)
    (fun r s r' t h hturn => ⟨Leads.out (R := Staying (Held [])) _ _ _ hturn h.1,
      (child_of_parameterTurn self LinesKept hturn).lined h.2.1,
      h.2.2.of_frame (child_of_parameterTurn self (CodeFrame false) hturn)⟩)
    (fun r s h => by
      have hbody : Reports Event.InRange (Held []) (functionBody self r.1) :=
        ⟨fun _ => all_functionBody self h.2.1 h.2.2⟩
      exact Reports.out (Q := Held []) s h.1)
  exact hloop.out t hs

instance : Careful (functionExp self) := by
  unfold functionExp
  infer_instance

instance (tk : Token) : Careful (methodName tk) := by
  unfold methodName
  infer_instance

instance : Careful (parseMethod self) := by
  unfold parseMethod
  infer_instance

/-! ## Tables and classes -/

section Finding

omit self

variable {α β : Type} (ps : List Int)

/-- What follows may set the instructions that were found. -/
theorem reports_find (found : α → List Int) (m : FuncM α) (k : α → CompM β)
    [Reports Event.InRange (Ready ps) m] [hlead : Leads (Staying (Ready ps)) m]
    [hlines : Leads LinesKept m] [hm : Marks ps m found]
    (hk : ∀ a, Reports Event.InRange (Held (found a ++ ps)) (k a)) :
    Reports Event.InRange (Held ps) (onFunc m >>= k) := by
  apply Reports.bind_run
  intro s a t hs h
  obtain ⟨fs, hrun, rfl⟩ := run_onFunc_inv h
  have hfs := hlead.out _ _ _ hrun hs.fs
  refine (hk a).out _ ⟨⟨hs.lined.lexer, ?_, hs.lined.parents⟩, ⟨hfs.jumps, ?_⟩, hs.parents⟩
  · exact (hlines.out _ _ _ hrun).lined hs.lined.fs
  · intro p hp
    obtain hp | hp := List.mem_append.mp hp
    · exact hm.out _ _ _ hs.fs hrun p hp
    · exact hfs.placed p hp

/-- What follows looks at targets only. -/
theorem reports_before {P : Event → Prop} {Q : SQCompiler → Prop} (m : CompM α) (k : α → CompM β)
    [Reports P Q m] (hk : ∀ a, Reports P (fun _ => True) (k a)) : Reports P Q (m >>= k) :=
  Reports.bind_run P Q m k fun _ a t _ _ => (hk a).out t trivial

instance (m : FuncM α) [Quiet m] : Reports Event.InRange (fun _ => True) (onFunc m) :=
  .zoom _ _ (fun _ => True) _ _ _ fun _ _ => trivial

instance (m : FuncM α) [hm : Leads (Staying (Ready ps)) m] [hlines : Leads LinesKept m] :
    Leads (Staying (Held ps)) (onFunc m) where
  out s a t h hs := by
    obtain ⟨fs, hrun, rfl⟩ := run_onFunc_inv h
    exact ⟨⟨hs.lined.lexer, (hlines.out _ _ _ hrun).lined hs.lined.fs, hs.lined.parents⟩,
      hm.out _ _ _ hrun hs.fs, hs.parents⟩

end Finding

instance : Marks [] (do
    let trg ← pushTarget
    addInstruction .opNewobj [.reg trg, .imm 0, .imm notTable]) fun _ => [0] :=
  marks_bind [] _ _ _ fun _ => inferInstance

instance (separator : Token) : Careful (memberAttributes self separator) := by
  apply Reports.bind'
  intro t
  split
  · refine reports_find [] (fun _ => [0]) _ _ fun _ => ?_
    show Reports Event.InRange (Held [0]) _
    apply Reports.bind'
    intro _
    have : Reports Event.InRange (Held [0]) (self.parseTableOrClass (.ch ',') .tkAttrClose) :=
      inferInstance
    exact reports_before _ _ fun _ => inferInstance
  · infer_instance

instance (separator : Token) : Careful (memberStatic separator) := by
  unfold memberStatic
  infer_instance

instance (separator : Token) : Careful (member self separator) := by
  unfold member
  infer_instance

instance (separator : Token) : Careful (parseMember self separator) := by
  unfold parseMember
  infer_instance

/-- The instruction before is the one whose size is set. -/
instance (separator terminator : Token) :
    Reports Event.InRange (Held [0]) (parseTableOrClass self separator terminator) := by
  refine reports_find [0] (fun tpos => [tpos]) _ _ fun tpos => ?_
  show Reports Event.InRange (Held [tpos, 0]) _
  infer_instance

instance : Careful (classBase self) := by
  unfold classBase
  infer_instance

instance : Careful (classAttributes self) := by
  apply Reports.bind'
  intro t
  split
  · apply Reports.bind'
    intro _
    refine reports_find [] (fun _ => [0]) _ _ fun _ => ?_
    show Reports Event.InRange (Held [0]) _
    have : Reports Event.InRange (Held [0]) (parseTableOrClass self (.ch ',') .tkAttrClose) :=
      inferInstance
    exact reports_before _ _ fun _ => inferInstance
  · infer_instance

instance (base attrs : Option StackPos) : Marks [] (emitClass base attrs) fun _ => [0] := by
  refine marks_bind [] _ _ _ fun _ => marks_bind [] _ _ _ fun _ => marks_bind [] _ _ _ fun _ => ?_
  infer_instance

instance : Careful (classExp self) := by
  apply Reports.bind'
  intro base
  apply Reports.bind'
  intro attrs
  apply Reports.bind'
  intro _
  refine reports_find [] (fun _ => [0]) _ _ fun _ => ?_
  exact inferInstanceAs (Reports Event.InRange (Held [0]) (parseTableOrClass self _ _))

/-! ## Factors -/

instance (op : SQOpcode) [IsTrue (notLine op)] : Careful (unaryOP self op) := by
  unfold unaryOP
  infer_instance

instance (etype : EType) : Careful (deleteTarget etype) := by
  unfold deleteTarget
  infer_instance

instance : Careful (deleteExpr self) := by
  unfold deleteExpr
  infer_instance

instance (tok : Token) : Careful (prefixIncDec self tok) := by
  unfold prefixIncDec
  infer_instance

instance (id : Text) (constant : Constant) : Careful (constantValue id constant) := by
  cases constant with
  | value v =>
    unfold constantValue
    infer_instance
  | table fields =>
    have h (constid : Text) : Careful (match fields.lookup constid with
      | some v => pure v
      | none => error ("invalid constant [" ++ String.ofList id ++ "." ++ String.ofList constid ++
          "]") : CompM Scalar) := by
      split
      · infer_instance
      · infer_instance
    unfold constantValue
    infer_instance

instance (pos : StackPos) : Careful (localFactor pos) := by
  unfold localFactor
  infer_instance

instance (pos : Nat) : Careful (outerFactor pos) := by
  unfold outerFactor
  infer_instance

instance (id : Text) (constant : Constant) : Careful (constantFactor id constant) := by
  unfold constantFactor
  infer_instance

instance (id : Text) : Careful (fieldFactor id) := by
  unfold fieldFactor
  infer_instance

instance (name : Text) : Careful (getOuter name) := ⟨fun _ _ => .of_nil rfl⟩

instance (id : Text) : Careful (identifier id) := by
  apply Reports.bind'
  intro _
  apply Reports.bind'
  intro fs
  split
  · infer_instance
  · apply Reports.bind'
    intro r
    split
    · infer_instance
    · apply Reports.bind'
      intro consts
      split
      · infer_instance
      · infer_instance

instance : Marks [] (do
    let trg ← pushTarget
    addInstruction .opNewobj [.reg trg, .imm 0, .imm 0, .imm notArray]
    getCurrentPos) fun pos => [pos] := marks_bind [] _ _ _ fun _ => marks_current [] _ _

instance : Careful (arrayLiteral self) := by
  refine reports_find [] (fun apos => [apos]) _ _ fun apos => ?_
  show Reports Event.InRange (Held [apos]) _
  infer_instance

instance : Careful (tableLiteral self) := by
  refine reports_find [] (fun _ => [0]) _ _ fun _ => ?_
  show Reports Event.InRange (Held [0]) _
  apply Reports.bind'
  intro _
  exact inferInstanceAs (Reports Event.InRange (Held [0]) (parseTableOrClass self _ _))

instance : Careful (minusFactor self) := by
  unfold minusFactor
  infer_instance

instance : Careful (tildeFactor self) := by
  unfold tildeFactor
  infer_instance

instance : Careful (parenthesized self) := by
  unfold parenthesized
  infer_instance

instance (m : FuncM Unit) [Quiet m] [Leads (CodeFrame false) m] [Leads LinesKept m] :
    Careful (tokenFactor m) := by
  unfold tokenFactor
  infer_instance

instance (m : CompM Unit) [Careful m] : Careful (lexThen m) := by
  unfold lexThen
  infer_instance

instance (t : Token) : Careful (plainFactor self t) := by
  apply Reports.bind'
  intro l
  split <;> infer_instance

instance : Careful baseFactor := by
  unfold baseFactor
  infer_instance

instance : Careful rootFactor := by
  unfold rootFactor
  infer_instance

instance (t : Token) : Careful (factorOf self t) := by
  unfold factorOf
  split <;> infer_instance

instance : Careful (factor self) := by
  unfold factor
  infer_instance

/-! ## Operators -/

instance : Careful derefField := by
  unfold derefField
  infer_instance

instance : Careful dotTurn := by
  unfold dotTurn
  infer_instance

instance : Careful (prefixedTurn self) := by
  apply Reports.bind'
  intro t
  split <;> infer_instance

instance : Careful (prefixedExpr self) := by
  unfold prefixedExpr
  infer_instance

section Levels

omit self

variable (f : CompM Unit) [Careful f] [Leads (Frames false) f] [Leads (LineFrames false) f]

instance (op : SQOpcode) [IsTrue (notLine op)] (op3 : Int) : Careful (binExp op f op3) := by
  unfold binExp
  infer_instance

theorem careful_binLevel (ops : Token → Option (SQOpcode × Int))
    (hops : ∀ t, (ops t).all (fun r => notLine r.1) = true := by intro t; split <;> rfl) :
    Careful (binLevel f ops) := by
  have hloop (turn : Token → CompM (Turn Unit Unit)) (hturn : ∀ t, Careful (turn t))
      (hlead : ∀ t, Leads (Staying (Held [])) (turn t)) :
      Careful (do f; loop (fun _ => do turn (← token)) ()) := inferInstance
  unfold binLevel
  refine hloop _ (fun t => ?_) fun t => ?_
  all_goals
    split
    · next op op3 h =>
      have : IsTrue (notLine op) := ⟨by simpa only [h, Option.all_some] using hops t⟩
      infer_instance
    · infer_instance

instance (op : SQOpcode) [IsTrue (notLine op)] : Careful (shortCircuit op f) := by
  refine reports_find [] (fun r => [r.2]) _ _ fun r => ?_
  show Reports Event.InRange (Held [r.2]) _
  infer_instance

end Levels

instance : Careful (multExp self) := careful_binLevel _ _

instance : Careful (plusExp self) := careful_binLevel _ _

instance : Careful (shiftExp self) := careful_binLevel _ _

instance : Careful (compExp self) := careful_binLevel _ _

instance : Careful (eqExp self) := careful_binLevel _ _

instance : Careful (bitwiseAndExp self) := careful_binLevel _ _

instance : Careful (bitwiseXorExp self) := careful_binLevel _ _

instance : Careful (bitwiseOrExp self) := careful_binLevel _ _

instance : Careful (logicalAndExp self) := by
  unfold logicalAndExp
  infer_instance

instance : Careful (logicalOrExp self) := by
  unfold logicalOrExp
  infer_instance

instance (op : Token) : Careful (assignment self op) := by
  unfold assignment
  infer_instance

instance : Careful (conditional self) := by
  apply Reports.bind'
  intro _
  refine reports_find [] (fun r => [r.1]) _ _ fun r => ?_
  show Reports Event.InRange (Held [r.1]) _
  apply Reports.bind'
  intro _
  refine reports_find [r.1] (fun _ => [0]) _ _ fun endfirstexp => ?_
  show Reports Event.InRange (Held [0, r.1]) _
  apply Reports.bind'
  intro _
  refine reports_find [0, r.1] (fun jmppos => [jmppos]) _ _ fun jmppos => ?_
  show Reports Event.InRange (Held [jmppos, 0, r.1]) _
  infer_instance

instance : Careful (expression self) := by
  unfold expression
  infer_instance

instance : Careful (commaExpr self) := by
  unfold commaExpr
  infer_instance

/-! ## Statements -/

instance : Careful (condition self) := by
  unfold condition
  infer_instance

instance : Careful (droppedExpr self) := by
  unfold droppedExpr
  infer_instance

instance : Careful (localFunction self) := by
  unfold localFunction
  infer_instance

instance : Careful (localValue self) := by
  unfold localValue
  infer_instance

instance : Careful (localVariables self) := by
  unfold localVariables
  infer_instance

instance : Careful (localDeclStatement self) := by
  unfold localDeclStatement
  infer_instance

instance (op : SQOpcode) [IsTrue (notLine op)] : Careful (returnStatement self op) := by
  unfold returnStatement
  infer_instance

instance : Careful (throwStatement self) := by
  unfold throwStatement
  infer_instance

instance : Careful (exprStatement self) := by
  unfold exprStatement
  infer_instance

instance : Careful foreachNames := by
  unfold foreachNames
  infer_instance

instance (id : Text) : Careful (functionKey id) := by
  unfold functionKey
  infer_instance

instance : Careful functionName := by
  unfold functionName
  infer_instance

instance : Careful (functionStatement self) := by
  unfold functionStatement
  infer_instance

instance (etype : EType) : Careful (classTarget self etype) := by
  unfold classTarget
  infer_instance

instance : Careful (classStatement self) := by
  unfold classStatement
  infer_instance

instance : Careful negativeScalar := by
  apply Reports.bind'
  intro s
  split <;> infer_instance

instance : Careful scalar := by
  apply Reports.bind'
  intro s
  split <;> infer_instance

instance : Careful expectScalar := by
  unfold expectScalar
  infer_instance

instance (id : Text) (c : Constant) : Careful (newConstant id c) :=
  inferInstanceAs (Careful (update _))

instance : Careful constStatement := by
  unfold constStatement
  infer_instance

instance (nval : Int) : Careful (enumValue nval) := by
  unfold enumValue
  infer_instance

instance : Careful enumStatement := by
  unfold enumStatement
  infer_instance

instance : Careful (statements self) := by
  unfold statements
  infer_instance

instance (close : Bool) : Careful (block self close) := by
  unfold block
  infer_instance

instance : Careful (ifBlock self) := by
  unfold ifBlock
  infer_instance

instance : Careful (scopedStatement self) := by
  unfold scopedStatement
  infer_instance

instance : Careful (scopedStatements self) := by
  unfold scopedStatements
  infer_instance

instance : Careful (defaultCase self) := by
  unfold defaultCase
  infer_instance

instance : Careful (mainLoop self) := by
  unfold mainLoop
  infer_instance

instance : Marks [] (do
    addInstruction .opJmp []
    getCurrentPos) fun pos => [pos] := marks_current [] _ _

instance : Careful (elseBlock self) := by
  apply Reports.bind'
  intro t
  split
  · refine reports_find [] (fun jmppos => [jmppos]) _ _ fun jmppos => ?_
    show Reports Event.InRange (Held [jmppos]) _
    infer_instance
  · infer_instance

instance : Careful (ifStatement self) := by
  apply Reports.bind'
  intro _
  apply Reports.bind'
  intro _
  refine reports_find [] (fun jnepos => [jnepos]) _ _ fun jnepos => ?_
  show Reports Event.InRange (Held [jnepos]) _
  infer_instance

instance : Careful (whileStatement self) := by
  apply Reports.bind'
  intro jmppos
  apply Reports.bind'
  intro _
  apply Reports.bind'
  intro _
  apply Reports.bind'
  intro before
  refine reports_find [] (fun jzpos => [jzpos]) _ _ fun jzpos => ?_
  show Reports Event.InRange (Held [jzpos]) _
  infer_instance

instance : Careful (doWhileStatement self) := by
  unfold doWhileStatement
  infer_instance

instance : Careful (forInit self) := by
  unfold forInit
  infer_instance

instance : Careful (forCondition self) := by
  unfold forCondition
  infer_instance

instance : Careful (forStep self) := by
  have (start : Int) : Quiet (cutInstructions start) := by
    unfold cutInstructions
    infer_instance
  unfold forStep
  infer_instance

instance : Careful (forHeader self) := by
  unfold forHeader
  infer_instance

instance : Careful (forEachStatement self) := by
  apply Reports.bind'
  intro _
  apply Reports.bind'
  intro _
  apply Reports.bind'
  intro names
  apply Reports.bind'
  intro _
  apply Reports.bind'
  intro old
  apply Reports.bind'
  intro _
  apply Reports.bind'
  intro _
  refine reports_find [] (fun r => [r.2, r.2 + 1]) _ _ fun r => ?_
  show Reports Event.InRange (Held [r.2, r.2 + 1]) _
  infer_instance

instance : Careful (tryCatchStatement self) := by
  apply Reports.bind'
  intro _
  refine reports_find [] (fun trappos => [trappos]) _ _ fun trappos => ?_
  show Reports Event.InRange (Held [trappos]) _
  apply Reports.bind'
  intro _
  refine reports_find [trappos] (fun jmppos => [jmppos]) _ _ fun jmppos => ?_
  show Reports Event.InRange (Held [jmppos, trappos]) _
  infer_instance

omit [self.Caring] in
/-- The jump out of the loop is there when the header ends. -/
theorem placed_of_forHeader {s t : SQCompiler} {h : Int × Int × List SQInstruction}
    (hs : Held [] s) (hrun : Prog.run (forHeader self) s = (.ok h, t)) (hpos : h.2.1 > 0) :
    t.fs.Placed h.2.1 := by
  obtain ⟨_, s₁, h₁, hrun⟩ := Prog.run_bind_inv hrun
  have hs₁ := Leads.out (R := Staying (Held [])) _ _ _ h₁ hs
  obtain ⟨_, s₂, h₂, hrun⟩ := Prog.run_bind_inv hrun
  have hs₂ := Leads.out (R := Staying (Held [])) _ _ _ h₂ hs₁
  obtain ⟨_, s₃, h₃, hrun⟩ := Prog.run_bind_inv hrun
  have hs₃ := Leads.out (R := Staying (Held [])) _ _ _ h₃ hs₂
  obtain ⟨_, s₄, h₄, hrun⟩ := Prog.run_bind_inv hrun
  have hs₄ := Leads.out (R := Staying (Held [])) _ _ _ h₄ hs₃
  obtain ⟨jmppos, s₅, h₅, hrun⟩ := Prog.run_bind_inv hrun
  have hs₅ := Leads.out (R := Staying (Held [])) _ _ _ h₅ hs₄
  obtain ⟨jzpos, s₆, hcondition, hrun⟩ := Prog.run_bind_inv hrun
  obtain ⟨_, s₇, h₇, hrun⟩ := Prog.run_bind_inv hrun
  obtain ⟨_, s₈, h₈, hrun⟩ := Prog.run_bind_inv hrun
  obtain ⟨exp, s₉, h₉, hrun⟩ := Prog.run_bind_inv hrun
  cases hrun
  have hplaced : s₆.fs.Placed jzpos := by
    rw [forCondition, token, Prog.run_gets_bind] at hcondition
    split at hcondition
    · cases hcondition
      cases hpos
    · obtain ⟨_, u, hexpr, hjz⟩ := Prog.run_bind_inv hcondition
      have hu := Leads.out (R := Staying (Held [])) _ _ _ hexpr hs₅
      obtain ⟨fs, hemit, rfl⟩ := run_onFunc_inv hjz
      have hmarks : Marks [] emitJz fun pos => [pos] := inferInstance
      exact hmarks.out _ _ _ hu.fs hemit _ List.mem_cons_self
  have h₇ : Frames false s₆ s₇ := Leads.out _ _ _ h₇
  have h₈ : Frames false s₇ s₈ := Leads.out _ _ _ h₈
  have h₉ : Frames false s₈ s₉ := Leads.out _ _ _ h₉
  exact hplaced.of_length (Journey.trans _ _ _ h₇ (Journey.trans _ _ _ h₈ h₉)).fs.length

instance : Careful (forStatement self) := by
  apply Reports.bind'
  intro _
  apply Reports.bind'
  intro old
  apply Reports.bind_run
  intro s h t hs hrun
  have ht := Leads.out (R := Staying (Held [])) _ _ _ hrun hs
  have hfinds : Finds (LineFrames false) (forHeader self) fun _ h => NoLines h.2.2 := inferInstance
  have hexp : NoLines h.2.2 := hfinds.out s s h t (Journey.refl s) hrun
  obtain ⟨ps, hps, hmem⟩ := ht.exists_with (placed_of_forHeader self hs hrun)
  have (before : Nat × Nat) := reports_endFor ps h.2.2 hexp h.1 h.2.1 before hmem
  have (before : Nat × Nat) := keeps_endFor h.2.2 hexp h.1 h.2.1 before
  exact Reports.out (Q := Held ps) t hps

/-- The jumps of a `switch` that wait for their targets are there. -/
structure CasesHeld (c : CaseJumps) (s : SQCompiler) : Prop where
  held : Held [] s
  first : c.bfirst = true → c.skipcondjmp = -1
  later : c.bfirst = false → s.fs.Placed c.tonextcondjmp
  next : c.tonextcondjmp ≠ -1 → s.fs.Placed c.tonextcondjmp

instance (ps : List Int) (expr : StackPos) (c : CaseJumps) :
    Leads (Staying (Held ps)) (caseTurn self expr c) := by
  unfold caseTurn
  infer_instance

theorem all_caseTurn (expr : StackPos) {c : CaseJumps} {s : SQCompiler} (hc : CasesHeld c s) :
    (caseTurn self expr c s).All Event.InRange := by
  rw [caseTurn, token, Prog.gets_bind]
  split
  · obtain ⟨ps, hps, hmem⟩ := hc.held.exists_with hc.later
    have := reports_beginCase ps c hmem
    refine Outcome.all_bind (Reports.out (Q := Held ps) s hps) ?_
    intro skipcondjmp t hbegin
    have ht := Leads.out (R := Staying (Held [])) _ _ _ hbegin hc.held
    obtain ⟨fs, hrun, rfl⟩ := run_onFunc_inv hbegin
    obtain ⟨qs, hqs, hskip⟩ := ht.exists_with (placed_of_beginCase ps hc.first hps.fs hrun)
    have := reports_emitCase qs expr hskip
    exact Reports.out (Q := Held qs) _ hqs
  · exact .of_nil rfl

omit [self.Caring] in
/-- The jump of a case is that of its test. -/
theorem casesHeld_of_caseTurn (expr : StackPos) {c : CaseJumps} {s s' : SQCompiler}
    {t : Turn CaseJumps CaseJumps} (hc : CasesHeld c s)
    (h : Prog.run (caseTurn self expr c) s = (.ok t, s')) :
    match t with
    | .again c' => CasesHeld c' s'
    | .done c' => CasesHeld c' s' := by
  have hs' := Leads.out (R := Staying (Held [])) _ _ _ h hc.held
  rw [caseTurn, token, Prog.run_gets_bind] at h
  split at h
  · obtain ⟨skipcondjmp, s₁, h₁, h⟩ := Prog.run_bind_inv h
    have hs₁ := Leads.out (R := Staying (Held [])) _ _ _ h₁ hc.held
    obtain ⟨_, s₂, h₂, h⟩ := Prog.run_bind_inv h
    have hs₂ := Leads.out (R := Staying (Held [])) _ _ _ h₂ hs₁
    obtain ⟨_, s₃, h₃, h⟩ := Prog.run_bind_inv h
    have hs₃ := Leads.out (R := Staying (Held [])) _ _ _ h₃ hs₂
    obtain ⟨_, s₄, h₄, h⟩ := Prog.run_bind_inv h
    have hs₄ := Leads.out (R := Staying (Held [])) _ _ _ h₄ hs₃
    obtain ⟨tonextcondjmp, s₅, h₅, h⟩ := Prog.run_bind_inv h
    obtain ⟨_, s₆, h₆, h⟩ := Prog.run_bind_inv h
    cases h
    obtain ⟨fs, hrun, rfl⟩ := run_onFunc_inv h₅
    have hmarks : Marks [] (emitCase expr skipcondjmp) fun pos => [pos] := inferInstance
    have hplaced := hmarks.out _ _ _ hs₄.fs hrun _ List.mem_cons_self
    have h₆ : Frames false _ s₆ := Leads.out _ _ _ h₆
    have hplaced := hplaced.of_length h₆.fs.length
    exact ⟨hs', fun h => (by cases h), fun _ => hplaced, fun _ => hplaced⟩
  · cases h
    exact hc

instance : Careful (switchStatement self) := by
  apply Reports.bind'
  intro _
  apply Reports.bind'
  intro _
  apply Reports.bind'
  intro _
  apply Reports.bind'
  intro r
  refine Reports.bind_loop Event.InRange _ _ CasesHeld CasesHeld ⟨true, -1, -1⟩ _
    (fun s hs => ⟨hs, fun _ => rfl, fun h => (by cases h), fun h => absurd rfl h⟩)
    (fun c s hc => all_caseTurn self r.1 hc)
    (fun c s c' s' hc h => casesHeld_of_caseTurn self r.1 hc h)
    (fun c s c' s' hc h => casesHeld_of_caseTurn self r.1 hc h) ?_
  intro c s hc
  obtain ⟨ps, hps, hmem⟩ := hc.held.exists_with hc.next
  have := reports_landSkip ps hmem
  exact Reports.out (Q := Held ps) s hps

instance : Careful breakStatement := by
  apply Reports.bind'
  intro s
  have := leads_recordBreak (s.fs.breaktargets.headD 0) s.scope
  have (pos : Int) : Leads LinesKept (update fun fs => { fs with
    unresolvedbreaks := pos :: fs.unresolvedbreaks } : FuncM Unit) :=
    .update _ fun _ => .of_lined rfl
  infer_instance

instance : Careful continueStatement := by
  apply Reports.bind'
  intro s
  have := leads_recordContinue (s.fs.continuetargets.headD 0) s.scope
  have (pos : Int) : Leads LinesKept (update fun fs => { fs with
    unresolvedcontinues := pos :: fs.unresolvedcontinues } : FuncM Unit) :=
    .update _ fun _ => .of_lined rfl
  infer_instance

instance (closeframe : Bool) : Careful (statementBody self closeframe) := by
  apply Reports.bind'
  intro t
  split <;> infer_instance

omit self in
instance (force : Bool) : Careful (markLine force) where
  out s hs := by
    rw [markLine, Prog.gets_bind]
    exact all_addLineInfos hs.lined.fs _ _ _

instance (closeframe : Bool) : Careful (statement self closeframe) := by
  unfold statement
  infer_instance

/-! ## The recursion -/

instance (n : Nat) : (selfAt n).Caring := by
  induction n with
  | zero =>
    exact {
      statement := fun _ => inferInstanceAs (Careful (Prog.exhaust ()))
      expression := inferInstanceAs (Careful (Prog.exhaust ()))
      commaExpr := inferInstanceAs (Careful (Prog.exhaust ()))
      prefixedExpr := inferInstanceAs (Careful (Prog.exhaust ()))
      logicalAndExp := inferInstanceAs (Careful (Prog.exhaust ()))
      logicalOrExp := inferInstanceAs (Careful (Prog.exhaust ()))
      parseTableOrClass := fun _ _ =>
        inferInstanceAs (Reports Event.InRange (Held [0]) (Prog.exhaust ())) }
  | succ n ih =>
    exact {
      statement := fun close => inferInstanceAs (Careful (statement (selfAt n) close))
      expression := inferInstanceAs (Careful (expression (selfAt n)))
      commaExpr := inferInstanceAs (Careful (commaExpr (selfAt n)))
      prefixedExpr := inferInstanceAs (Careful (prefixedExpr (selfAt n)))
      logicalAndExp := inferInstanceAs (Careful (logicalAndExp (selfAt n)))
      logicalOrExp := inferInstanceAs (Careful (logicalOrExp (selfAt n)))
      parseTableOrClass := fun separator terminator => inferInstanceAs (Reports Event.InRange
        (Held [0]) (parseTableOrClass (selfAt n) separator terminator)) }

instance : Careful (compileMain self) := by
  have (line : Int) (lineinfo : Bool) (stacksize : Nat) :
      Careful (onFunc (finishMain line lineinfo stacksize)) :=
    ⟨fun _ hs => all_finishMain hs.lined.fs line lineinfo stacksize⟩
  unfold compileMain
  infer_instance

/-- Every element that a compilation looks at is there, but for the targets. -/
theorem all_compile (n : Nat) (cfg : Config) (source : List UInt8) :
    (compile n cfg source).All Event.InRange := by
  have hparents : ∀ fs ∈ (cfg.initial source).parents, fs.Lined ∧ fs.JumpsPlaced := by
    intro fs hfs
    cases hfs
  refine Reports.out (Q := Held []) (cfg.initial source) ⟨⟨?_, lined_create .., ?_⟩, ?_, ?_⟩
  · exact ⟨Int.le_refl _, Int.le_refl _⟩
  · exact fun fs hfs => (hparents fs hfs).1
  · exact ⟨⟨by simp [Config.initial, create], by simp [Config.initial, create]⟩, by simp⟩
  · exact fun fs hfs => (hparents fs hfs).2

/-! ## Compile returns -/

/-- What is asked where a target is looked at or popped, and by an `assert`. -/
def Event.Targeted : Event → Prop
  | .top fs => fs.targetstack ≠ []
  | .pop fs => fs.hasTarget = true
  | .assertion holds => holds = true
  | _ => True

theorem holds_iff (w : Event) : w.holds = true ↔ w.InRange ∧ w.Targeted := by
  cases w <;> simp [Event.holds, Event.InRange, Event.Targeted]

/-- `Compile` returns after finitely many steps if and only if every target that is looked at is on
the target stack, every popped one names a position in use, and every `assert` holds. -/
theorem terminates_iff (n : Nat) (cfg : Config) (source : List UInt8)
    (hn : source.length + 1 < n) :
    Terminates n cfg source ↔ ∀ w ∈ (compile n cfg source).events, w.Targeted := by
  have hholds : (∀ w ∈ (compile n cfg source).events, w.holds = true) ↔
      ∀ w ∈ (compile n cfg source).events, w.Targeted :=
    forall₂_congr fun w hw => (holds_iff w).trans (and_iff_right (all_compile n cfg source w hw))
  rw [← hholds, ← returns_iff _ (compile_fuel n cfg source hn)]
  constructor
  · exact Terminates.returns
  · intro h
    exact ⟨lex_advances cfg.strtod, statement_advances n, h⟩

/-- `delete base`: the operand of `delete` left one target, and two are popped. -/
def deleteBase : List UInt8 := [100, 101, 108, 101, 116, 101, 32, 98, 97, 115, 101]

theorem not_terminates : ¬ Terminates 13 plainConfig deleteBase := by
  intro h
  have hw : ((compile 13 plainConfig deleteBase).events.all Event.holds) = false := by
    decide +kernel
  have hall := (returns_iff _ (compile_fuel 13 plainConfig deleteBase (by decide))).mp h.returns
  rw [List.all_eq_true.mpr hall] at hw
  cases hw

theorem terminates_sampleProgram : Terminates 80 plainConfig sampleProgram ∧
    ∃ proto, (compile 80 plainConfig sampleProgram).result = .ok proto ∧
      proto.functions.length = 1 := by
  have hheld : (compile 80 plainConfig sampleProgram).events.all Event.holds = true := by
    decide +kernel
  refine ⟨(terminates_iff 80 plainConfig sampleProgram (by decide +kernel)).2 ?_, ?_⟩
  · intro w hw
    exact ((holds_iff w).mp (List.all_eq_true.mp hheld w hw)).2
  · exact exists_of_okAnd (fun p : SQFunctionProto => p.functions.length = 1) _ (by decide +kernel)

end Sqnim.Compiler
