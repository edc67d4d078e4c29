import Sqnim.Bytecode.GetLine
import Sqnim.Compiler.LineInfos
import Sqnim.Compiler.Frames
import Sqnim.Compiler.Termination

/-!
# The line tables that the compiler makes

Expressions leave the table of their own function alone, and the functions compiled inside it have
tables of their own.
-/
namespace Sqnim.Compiler

open Sqnim.Lib
open Prog (raise gets update when loop Turn)
open SQFuncState
open Bytecode

-- the search follows every step of a function
set_option synthInstance.maxSize 6400
set_option synthInstance.maxHeartbeats 100000

/-- No code is lost, and an expression adds no line. -/
structure LineFrame (e : Bool) (fs fs' : SQFuncState) : Prop where
  length : fs.instructions.length ≤ fs'.instructions.length
  same : e = true → fs'.lineinfos = fs.lineinfos ∧ fs'.lastline = fs.lastline ∧
    ∀ j, fs'.LineAt j → fs.LineAt j

/-- Every table that is being filled is in order. -/
structure WellLined (s : SQCompiler) : Prop where
  lexer : s.lexer.Counted
  fs : s.fs.Lined
  parents : ∀ fs ∈ s.parents, fs.Lined

/-- Frames of the line tables, for `_fs` and for each function state around it. -/
structure LineFrames (e : Bool) (s s' : SQCompiler) : Prop where
  fs : LineFrame e s.fs s'.fs
  parents : List.Forall₂ (LineFrame true) s.parents s'.parents
  wellLined : WellLined s → WellLined s'

variable {e : Bool}

instance : Journey (LineFrame e) where
  refl _ := ⟨Nat.le_refl _, fun _ => ⟨rfl, rfl, fun _ => id⟩⟩
  trans _ _ _ h₁ h₂ := by
    refine ⟨Nat.le_trans h₁.length h₂.length, fun he => ?_⟩
    obtain ⟨hinfos, hlast, hlines⟩ := h₁.same he
    obtain ⟨hinfos', hlast', hlines'⟩ := h₂.same he
    exact ⟨hinfos'.trans hinfos, hlast'.trans hlast, fun j => hlines j ∘ hlines' j⟩

instance : Journey (LineFrames e) where
  refl _ := ⟨Journey.refl _, Journey.refl _, id⟩
  trans _ _ _ h₁ h₂ := ⟨Journey.trans _ _ _ h₁.fs h₂.fs, Journey.trans _ _ _ h₁.parents h₂.parents,
    h₂.wellLined ∘ h₁.wellLined⟩

theorem LineFrame.of_kept {fs fs' : SQFuncState} (h : LinesKept fs fs') : LineFrame e fs fs' :=
  ⟨h.length, fun _ => ⟨h.lineinfos, h.lastline, h.lines⟩⟩

theorem LineFrame.of_expression {fs fs' : SQFuncState} (h : LineFrame true fs fs') :
    LineFrame e fs fs' := ⟨h.length, fun _ => h.same rfl⟩

/-- Only the members of the parser change. -/
theorem LineFrames.of_same {s s' : SQCompiler} (hf : s'.fs = s.fs) (hp : s'.parents = s.parents)
    (hl : s.lexer.Counted → s'.lexer.Counted) : LineFrames e s s' := by
  refine ⟨?_, ?_, fun h => ⟨hl h.lexer, ?_, ?_⟩⟩
  · rw [hf]
    exact Journey.refl _
  · rw [hp]
    exact Journey.refl _
  · rw [hf]
    exact h.fs
  · rw [hp]
    exact h.parents

theorem LineFrames.of_fs {s : SQCompiler} {fs : SQFuncState} (h : LineFrame e s.fs fs)
    (hl : s.fs.Lined → fs.Lined) : LineFrames e s { s with fs } :=
  ⟨h, Journey.refl _, fun hs => ⟨hs.lexer, hl hs.fs, hs.parents⟩⟩

section Parts

variable {α : Type}

instance (m : FuncM α) [hm : Leads LinesKept m] : Leads (LineFrames e) (onFunc m) where
  out s a s' h := by
    obtain ⟨fs, hrun, rfl⟩ := run_onFunc_inv h
    have hkept := hm.out _ _ _ hrun
    exact .of_fs (.of_kept hkept) hkept.lined

instance (m : SQLexer.LexM α) [Leads (Staying SQLexer.Counted) m] :
    Leads (LineFrames e) (onLexer m) :=
  have := Leads.silent (ω := Event) (Staying SQLexer.Counted) m
  .zoom (LineFrames e) (Staying SQLexer.Counted) _ _ _ fun _ _ h => .of_same rfl rfl h

theorem forall₂_of_kept {l l' : List SQFuncState} (h : List.Forall₂ LinesKept l l') :
    List.Forall₂ (LineFrame true) l l' ∧ ((∀ fs ∈ l, fs.Lined) → ∀ fs ∈ l', fs.Lined) := by
  induction h with
  | nil => exact ⟨.nil, fun _ => nofun⟩
  | cons hkept _ ih =>
    refine ⟨.cons (.of_kept hkept) ih.1, fun hl => ?_⟩
    rw [List.forall_mem_cons] at hl ⊢
    exact ⟨hkept.lined hl.1, ih.2 hl.2⟩

instance (name : Text) : Leads (LineFrames e) (getOuter name) where
  out s a s' h := by
    rw [getOuter, Prog.run_gets_bind, Prog.run_update_bind] at h
    cases h
    have hall := forall₂_getOuterVariable LinesKept name s.fs s.parents
    cases hall with
    | cons hfs hparents =>
      obtain ⟨hframes, hlined⟩ := forall₂_of_kept hparents
      exact ⟨.of_kept hfs, hframes, fun h => ⟨h.lexer, hfs.lined h.fs, hlined h.parents⟩⟩

instance : Parses (LineFrames e) LinesKept where
  same _ _ hf hp hl := .of_same hf hp fun h => by
    rw [hl]
    exact h
  lex := by
    have (t : Token) : Leads (LineFrames e) (setToken t) := .update _ fun _ => .of_same rfl rfl id
    unfold lex
    infer_instance
  edits := inferInstance
  onFunc _ := inferInstance
  getOuter _ := inferInstance

end Parts

/-! ## Functions -/

/-- The optimiser pauses at the end. -/
def Paused (_ s' : SQCompiler) : Prop := s'.fs.optimization = false

/-- What the functions that are called again do to the line tables. -/
class Self.Lining (self : Self) : Prop where
  statement : ∀ close, Leads (LineFrames false) (self.statement close)
  paused : ∀ close, Leads Paused (self.statement close)
  expression : ∀ e, Leads (LineFrames e) self.expression
  commaExpr : ∀ e, Leads (LineFrames e) self.commaExpr
  prefixedExpr : ∀ e, Leads (LineFrames e) self.prefixedExpr
  logicalAndExp : ∀ e, Leads (LineFrames e) self.logicalAndExp
  logicalOrExp : ∀ e, Leads (LineFrames e) self.logicalOrExp
  parseTableOrClass : ∀ e separator terminator,
    Leads (LineFrames e) (self.parseTableOrClass separator terminator)

attribute [instance] Self.Lining.statement Self.Lining.paused Self.Lining.expression
  Self.Lining.commaExpr Self.Lining.prefixedExpr Self.Lining.logicalAndExp
  Self.Lining.logicalOrExp Self.Lining.parseTableOrClass

instance (self : Self) [self.Lining] : self.Leading (LineFrames e) where
  expression := inferInstance
  commaExpr := inferInstance
  prefixedExpr := inferInstance
  logicalAndExp := inferInstance
  logicalOrExp := inferInstance

variable (self : Self) [self.Lining]

/-- The function inside becomes a prototype with a table. -/
theorem leads_functionBody (child : SQFuncState) (hchild : child.Lined) :
    Leads (LineFrames e) (functionBody self child) where
  out s _ s' h := by
    rw [functionBody, enterChildState, Prog.run_update_bind] at h
    obtain ⟨_, t, hbody, h⟩ := Prog.run_bind_inv h
    have hframe : LineFrames false _ t := (Self.Lining.statement false).out _ _ _ hbody
    have hpaused : t.fs.optimization = false := (Self.Lining.paused false).out _ _ _ hbody
    rw [Prog.run_gets_bind, Prog.run_gets_bind] at h
    obtain ⟨_, u, hfinish, h⟩ := Prog.run_bind_inv h
    obtain ⟨fs, hfinish', rfl⟩ := run_onFunc_inv hfinish
    cases h
    have hparents : List.Forall₂ (LineFrame true) (s.fs :: s.parents) t.parents := hframe.parents
    obtain ⟨p, ps, ht, hp, hps⟩ : ∃ p ps, t.parents = p :: ps ∧ LineFrame true s.fs p ∧
        List.Forall₂ (LineFrame true) s.parents ps := by
      generalize t.parents = l at hparents
      cases hparents with
      | cons hp hps => exact ⟨_, _, rfl, hp, hps⟩
    have hhead : t.parents.headD fs = p := by
      rw [ht]
      rfl
    have htail : t.parents.tail = ps := by
      rw [ht]
      rfl
    refine ⟨?_, ?_, fun hs => ?_⟩
    · show LineFrame e s.fs { t.parents.headD fs with
        functions := (t.parents.headD fs).functions ++ [fs.buildProto] }
      rw [hhead]
      exact ⟨hp.length, fun _ => hp.same rfl⟩
    · show List.Forall₂ (LineFrame true) s.parents t.parents.tail
      rw [htail]
      exact hps
    · have henter : WellLined { s with fs := child, parents := s.fs :: s.parents } :=
        ⟨hs.lexer, hchild, List.forall_mem_cons.mpr ⟨hs.fs, hs.parents⟩⟩
      have hleave := hframe.wellLined henter
      have hproto : LineTables fs.buildProto := by
        refine lineTables_finishFunction hleave.fs hpaused ?_ hfinish'
        split
        · exact hleave.lexer.2
        · exact hleave.lexer.1
      have hall := hleave.parents
      rw [ht, List.forall_mem_cons] at hall
      refine ⟨hleave.lexer, ?_, ?_⟩
      · show SQFuncState.Lined { t.parents.headD fs with
          functions := (t.parents.headD fs).functions ++ [fs.buildProto] }
        rw [hhead]
        refine ⟨hall.1.sorted, hall.1.bound, hall.1.first, hall.1.unlined, ?_⟩
        intro q hq
        obtain hq | hq := List.mem_append.mp hq
        · exact hall.1.nested q hq
        · rw [List.mem_singleton.mp hq]
          exact hproto
      · show ∀ fs' ∈ t.parents.tail, fs'.Lined
        rw [htail]
        exact hall.2

omit [self.Lining] in
/-- Only code is emitted for the function that is declared. -/
theorem child_of_parameterTurn (R : SQFuncState → SQFuncState → Prop) [Edits R]
    {r : SQFuncState × Nat} {s s' : SQCompiler} {t : Turn (SQFuncState × Nat) (SQFuncState × Nat)}
    (h : Prog.run (parameterTurn self r) s = (.ok t, s')) :
    match t with
    | .again r' => R r.1 r'.1
    | .done r' => R r.1 r'.1 := by
  rw [parameterTurn, token, Prog.run_gets_bind] at h
  split at h
  · cases h
    exact Journey.refl _
  · split at h
    · obtain ⟨_, _, _, h⟩ := Prog.run_bind_inv h
      obtain ⟨child, _, hchild, h⟩ := Prog.run_bind_inv h
      obtain ⟨_, hchild⟩ := run_onChild_inv hchild
      obtain ⟨_, _, _, h⟩ := Prog.run_bind_inv h
      rw [Prog.run_gets_bind] at h
      obtain ⟨_, _, _, h⟩ := Prog.run_bind_inv h
      cases h
      exact Leads.out (R := R) _ _ _ hchild
    · obtain ⟨_, _, _, h⟩ := Prog.run_bind_inv h
      obtain ⟨child, _, hchild, h⟩ := Prog.run_bind_inv h
      obtain ⟨_, hchild⟩ := run_onChild_inv hchild
      have hparameter := Leads.out (R := R) _ _ _ hchild
      obtain ⟨r', _, hdefault, h⟩ := Prog.run_bind_inv h
      have hr' : R r.1 r'.1 := by
        rw [paramDefault, token, Prog.run_gets_bind] at hdefault
        split at hdefault
        · obtain ⟨_, _, _, hdefault⟩ := Prog.run_bind_inv hdefault
          obtain ⟨_, _, _, hdefault⟩ := Prog.run_bind_inv hdefault
          obtain ⟨_, _, _, hdefault⟩ := Prog.run_bind_inv hdefault
          obtain ⟨_, _, hadd, hdefault⟩ := Prog.run_bind_inv hdefault
          obtain ⟨_, hadd⟩ := run_onChild_inv hadd
          cases hdefault
          exact Journey.trans _ _ _ hparameter (Leads.out (R := R) _ _ _ hadd)
        · obtain ⟨_, _, _, hdefault⟩ := Prog.run_bind_inv hdefault
          cases hdefault
          exact hparameter
      rw [Prog.run_gets_bind] at h
      obtain ⟨_, _, _, h⟩ := Prog.run_bind_inv h
      obtain ⟨_, _, _, h⟩ := Prog.run_bind_inv h
      cases h
      exact hr'

/-- The parameters and the body of a function. -/
theorem leads_parameters (boundtarget : Operand) (child : SQFuncState) (hchild : child.Lined) :
    Leads (LineFrames e) (do
      let r ← loop (parameterTurn self) (child, 0)
      expect (.ch ')')
      onFunc (popHeader boundtarget r.2)
      functionBody self r.1) := by
  apply Leads.of_since
  intro b
  refine Leads.bind_loop (LineFrames e) b (fun r => r.1.Lined) (fun r => r.1.Lined) _ _ _
    (fun _ _ => inferInstance)
    (fun _ _ _ _ hr _ h => (child_of_parameterTurn self LinesKept h).lined hr)
    (fun _ _ _ _ hr _ h => (child_of_parameterTurn self LinesKept h).lined hr) hchild ?_
  intro r hr
  have := leads_functionBody (e := e) self r.1 hr
  infer_instance

instance (name : Option Text) (boundtarget : Operand) :
    Leads (LineFrames e) (createFunction self name boundtarget) where
  out s a s' h := by
    rw [createFunction, Prog.run_gets_bind] at h
    obtain ⟨child, t, hchild, hrest⟩ := Prog.run_bind_inv h
    obtain ⟨ht, hthis⟩ := run_onChild_inv hchild
    have hlined := (Leads.out (R := LinesKept) _ _ _ hthis).lined (lined_create ..)
    rw [ht] at hrest
    exact (leads_parameters self boundtarget child hlined).out s a s' hrest

/-! ## Expressions -/

instance (separator : Token) : Leads (LineFrames e) (memberAttributes self separator) := by
  unfold memberAttributes
  infer_instance

instance (separator terminator : Token) :
    Leads (LineFrames e) (parseTableOrClass self separator terminator) := by
  unfold parseTableOrClass
  infer_instance

instance : Leads (LineFrames e) (classAttributes self) := by
  unfold classAttributes
  infer_instance

instance : Leads (LineFrames e) (classExp self) := by
  unfold classExp
  infer_instance

instance : Leads (LineFrames e) (arrayLiteral self) := by
  unfold arrayLiteral
  infer_instance

instance : Leads (LineFrames e) (tableLiteral self) := by
  unfold tableLiteral
  infer_instance

instance (t : Token) : Leads (LineFrames e) (plainFactor self t) := by
  apply Leads.bind'
  intro l
  split <;> infer_instance

instance (op : SQOpcode) [IsTrue (notLine op)] (f : CompM Unit) [Leads (LineFrames e) f] :
    Leads (LineFrames e) (shortCircuit op f) := by
  unfold shortCircuit
  infer_instance

instance : Leads (LineFrames e) (conditional self) := by
  unfold conditional
  infer_instance

/-! ## Statements -/

instance : Leads (LineFrames false) (elseBlock self) := by
  unfold elseBlock
  infer_instance

instance : Leads (LineFrames false) (ifStatement self) := by
  unfold ifStatement
  infer_instance

instance : Leads (LineFrames false) (whileStatement self) := by
  unfold whileStatement
  infer_instance

instance : Leads (LineFrames false) (doWhileStatement self) := by
  unfold doWhileStatement
  infer_instance

instance : Leads (LineFrames e) (forCondition self) := by
  unfold forCondition
  infer_instance

/-- The instructions of the step of a `for` loop. -/
def NoLines (exp : List SQInstruction) : Prop := ∀ i ∈ exp, i.op ≠ .opLine

omit self in
theorem run_cut (start : Int) (fs : SQFuncState) : Prog.run (do
    snoozeOpt
    cutInstructions start) fs = (.ok (fs.instructions.drop start.toNat), { fs with
      optimization := false, instructions := fs.instructions.take start.toNat }) := rfl

theorem run_forStep_inv {s s' : SQCompiler} {exp : List SQInstruction}
    (h : Prog.run (forStep self) s = (.ok exp, s')) : ∃ v : SQCompiler, LineFrames true s v ∧
      exp = v.fs.instructions.drop s.fs.instructions.length ∧
      s' = { v with fs := { v.fs with optimization := false
                                      instructions := v.fs.instructions.take
                                        s.fs.instructions.length } } := by
  obtain ⟨expstart, t, hpos, h⟩ := Prog.run_bind_inv h
  obtain ⟨fs, hpos, rfl⟩ := run_onFunc_inv hpos
  cases hpos
  rw [token, Prog.run_gets_bind] at h
  obtain ⟨_, u, hstep, h⟩ := Prog.run_bind_inv h
  obtain ⟨_, v, hexpect, h⟩ := Prog.run_bind_inv h
  obtain ⟨fs, hcut, rfl⟩ := run_onFunc_inv h
  have hlead : Leads (LineFrames true) (when (s.token ≠ .ch ')') (droppedExpr self)) :=
    inferInstance
  have hlead' : Leads (LineFrames true) (expect (.ch ')')) := inferInstance
  have hstart : ((s.fs.instructions.length : Int) - 1 + 1).toNat = s.fs.instructions.length := by
    omega
  refine ⟨v, Journey.trans _ _ _ (hlead.out s _ u hstep) (hlead'.out u _ v hexpect), ?_⟩
  rw [run_cut, hstart] at hcut
  cases hcut
  exact ⟨rfl, rfl⟩

/-- The step has no lines, and the table does not depend on it. -/
instance : Leads (LineFrames false) (forStep self) where
  out s exp s' h := by
    obtain ⟨v, hframe, -, rfl⟩ := run_forStep_inv self h
    obtain ⟨hinfos, hlast, -⟩ := hframe.fs.same rfl
    have hlength := hframe.fs.length
    have hcut : (v.fs.instructions.take s.fs.instructions.length).length =
        s.fs.instructions.length := List.length_take_of_le hlength
    refine ⟨⟨Nat.le_of_eq hcut.symm, nofun⟩, hframe.parents, fun hs => ?_⟩
    have hv := hframe.wellLined hs
    refine ⟨hv.lexer, ⟨hv.fs.sorted, ?_, hv.fs.first, ?_, hv.fs.nested⟩, hv.parents⟩
    · intro li hli
      show li.op ≤ (v.fs.instructions.take s.fs.instructions.length).length
      rw [hcut]
      have hold : li ∈ s.fs.lineinfos := by
        rw [← hinfos]
        exact hli
      exact hs.fs.bound li hold
    · intro hnil j hj
      have hold : v.fs.LineAt j := lines_of_prefix (List.take_prefix _ _) (by simp)
        (List.append_nil _).symm j hj
      exact hv.fs.unlined hnil j hold

instance : Finds (LineFrames false) (forStep self) fun _ exp => NoLines exp where
  out b s exp s' _ h := by
    obtain ⟨v, hframe, hexp, -⟩ := run_forStep_inv self h
    intro i hi hop
    rw [hexp] at hi
    obtain ⟨j, hj⟩ := List.mem_iff_getElem?.mp hi
    rw [List.getElem?_drop] at hj
    obtain ⟨i', hi', -⟩ := (hframe.fs.same rfl).2.2 _ ⟨i, hj, hop⟩
    have := (List.getElem?_eq_some_iff.mp hi').1
    omega

instance : Leads (LineFrames false) (forHeader self) := by
  unfold forHeader
  infer_instance

instance : Finds (LineFrames false) (forHeader self) fun _ h => NoLines h.2.2 := by
  apply Finds.bind
  intro _
  apply Finds.bind
  intro _
  apply Finds.bind
  intro _
  apply Finds.bind
  intro _
  apply Finds.bind
  intro jmppos
  apply Finds.bind
  intro jzpos
  apply Finds.bind
  intro _
  apply Finds.bind
  intro _
  refine Finds.through (LineFrames false) (fun _ exp => NoLines exp) _ (forStep self) _ ?_
  intro b exp hexp s r s' h
  cases h
  exact hexp

instance : Leads (LineFrames false) (forStatement self) := by
  apply Leads.of_since
  intro b
  apply Leads.bind'
  intro _
  apply Leads.bind'
  intro old
  refine Leads.bind_finds (LineFrames false) b (fun _ h => NoLines h.2.2) _ _ ?_
  intro h hh
  have (before : Nat × Nat) := keeps_endFor h.2.2 hh h.1 h.2.1 before
  infer_instance

instance : Leads (LineFrames false) (forEachStatement self) := by
  unfold forEachStatement
  infer_instance

instance (expr : StackPos) (c : CaseJumps) : Leads (LineFrames false) (caseTurn self expr c) := by
  unfold caseTurn
  infer_instance

instance : Leads (LineFrames false) (switchStatement self) := by
  unfold switchStatement
  infer_instance

instance : Leads (LineFrames false) (tryCatchStatement self) := by
  unfold tryCatchStatement
  infer_instance

instance : Leads (LineFrames false) breakStatement := by
  have (pos : Int) : Leads LinesKept (update fun fs => { fs with
    unresolvedbreaks := pos :: fs.unresolvedbreaks } : FuncM Unit) := .update _ fun _ => .of_lined rfl
  unfold breakStatement
  infer_instance

instance : Leads (LineFrames false) continueStatement := by
  have (pos : Int) : Leads LinesKept (update fun fs => { fs with
    unresolvedcontinues := pos :: fs.unresolvedcontinues } : FuncM Unit) :=
    .update _ fun _ => .of_lined rfl
  unfold continueStatement
  infer_instance

instance (closeframe : Bool) : Leads (LineFrames false) (statementBody self closeframe) := by
  apply Leads.bind'
  intro t
  split <;> infer_instance

omit self in
/-- The line of a statement is not forced. -/
instance : Leads (LineFrames false) (markLine false) where
  out s a s' h := by
    rw [markLine, Prog.run_gets_bind] at h
    obtain ⟨fs, hrun, rfl⟩ := run_onFunc_inv h
    have hlead : Leads (CodeFrame false) (addLineInfos s.lexer.currentline s.lineinfo false) :=
      inferInstance
    refine ⟨⟨(hlead.out _ _ _ hrun).length, nofun⟩, Journey.refl _, fun hs => ?_⟩
    refine ⟨hs.lexer, ?_, hs.parents⟩
    exact (lined_addLineInfos hs.lexer.1 hs.fs
      (fun hforce : false = true => nomatch hforce) hrun).1

instance (closeframe : Bool) : Leads (LineFrames false) (statement self closeframe) := by
  unfold statement
  infer_instance

/-! ## The recursion -/

instance (close : Bool) : Leads Paused (statement self close) where
  out s u s' h := by
    obtain ⟨_, _, _, h⟩ := Prog.run_bind_inv h
    obtain ⟨_, t, _, h⟩ := Prog.run_bind_inv h
    obtain ⟨fs, hsnooze, rfl⟩ := run_onFunc_inv h
    cases hsnooze
    rfl

instance (n : Nat) : (selfAt n).Lining := by
  induction n with
  | zero =>
    exact {
      statement := fun _ => inferInstanceAs (Leads (LineFrames false) (Prog.exhaust ()))
      paused := fun _ => inferInstanceAs (Leads Paused (Prog.exhaust ()))
      expression := fun e => inferInstanceAs (Leads (LineFrames e) (Prog.exhaust ()))
      commaExpr := fun e => inferInstanceAs (Leads (LineFrames e) (Prog.exhaust ()))
      prefixedExpr := fun e => inferInstanceAs (Leads (LineFrames e) (Prog.exhaust ()))
      logicalAndExp := fun e => inferInstanceAs (Leads (LineFrames e) (Prog.exhaust ()))
      logicalOrExp := fun e => inferInstanceAs (Leads (LineFrames e) (Prog.exhaust ()))
      parseTableOrClass := fun e _ _ => inferInstanceAs (Leads (LineFrames e) (Prog.exhaust ())) }
  | succ n ih =>
    exact {
      statement := fun close =>
        inferInstanceAs (Leads (LineFrames false) (statement (selfAt n) close))
      paused := fun close => inferInstanceAs (Leads Paused (statement (selfAt n) close))
      expression := fun e => inferInstanceAs (Leads (LineFrames e) (expression (selfAt n)))
      commaExpr := fun e => inferInstanceAs (Leads (LineFrames e) (commaExpr (selfAt n)))
      prefixedExpr := fun e => inferInstanceAs (Leads (LineFrames e) (prefixedExpr (selfAt n)))
      logicalAndExp := fun e => inferInstanceAs (Leads (LineFrames e) (logicalAndExp (selfAt n)))
      logicalOrExp := fun e => inferInstanceAs (Leads (LineFrames e) (logicalOrExp (selfAt n)))
      parseTableOrClass := fun e separator terminator => inferInstanceAs
        (Leads (LineFrames e) (parseTableOrClass (selfAt n) separator terminator)) }

/-- The main function has no code yet, or the optimiser pauses. -/
def AtRest (s : SQCompiler) : Prop := s.fs.optimization = false ∨ s.fs.instructions = []

instance : Reads (Staying AtRest) where
  same s s' hf _ _ hs := by
    rw [AtRest, hf]
    exact hs
  lex := ⟨fun s _ s' h hs => by
    have hsame : s'.fs = s.fs := (inferInstance : Leads SameFunc lex).out _ _ _ h
    rw [AtRest, hsame]
    exact hs⟩

instance : Leads (Staying AtRest) (mainLoop self) := by
  have : Leads (Staying AtRest) (self.statement true) :=
    ⟨fun s u s' h _ => .inl ((Self.Lining.paused true).out s u s' h)⟩
  unfold mainLoop
  infer_instance

/-- The prototypes of a compilation have tables that are not empty and in order. -/
theorem lineTables_of_compile {n : Nat} {cfg : Config} {source : List UInt8} {p : SQFunctionProto}
    (h : (compile n cfg source).result = .ok p) : LineTables p := by
  have hrun : Prog.run (compileMain (selfAt n)) (cfg.initial source) = (.ok p, _) := Prod.ext h rfl
  obtain ⟨_, s₁, hnext, hrun⟩ := Prog.run_bind_inv hrun
  obtain ⟨stacksize, s₂, hparams, hrun⟩ := Prog.run_bind_inv hrun
  obtain ⟨_, s₃, hlex, hrun⟩ := Prog.run_bind_inv hrun
  obtain ⟨_, s₄, hmain, hrun⟩ := Prog.run_bind_inv hrun
  rw [Prog.run_gets_bind] at hrun
  obtain ⟨fs, hfinish, -⟩ := run_onFunc_inv hrun
  have hinit : WellLined (cfg.initial source) :=
    ⟨⟨Int.le_refl _, Int.le_refl _⟩, lined_create .., nofun⟩
  have hwell : WellLined s₄ := by
    have h₁ : LineFrames false _ s₁ := Leads.out _ _ _ hnext
    have h₂ : LineFrames false _ s₂ := Leads.out _ _ _ hparams
    have h₃ : LineFrames false _ s₃ := Leads.out _ _ _ hlex
    have h₄ : LineFrames false _ s₄ := Leads.out _ _ _ hmain
    exact h₄.wellLined (h₃.wellLined (h₂.wellLined (h₁.wellLined hinit)))
  have hrest : AtRest s₄ := by
    have hfs₁ : s₁.fs = _ := (inferInstance : Leads SameFunc (onLexer SQLexer.next)).out _ _ _ hnext
    obtain ⟨fs₂, hparams, rfl⟩ := run_onFunc_inv hparams
    have hsame : fs₂.instructions = s₁.fs.instructions := by
      cases hparams
      rfl
    have hcode : fs₂.instructions = [] := hsame.trans (congrArg (·.instructions) hfs₁)
    have h₃ := Leads.out (R := Staying AtRest) _ _ _ hlex (.inr hcode)
    exact Leads.out (R := Staying AtRest) _ _ _ hmain h₃
  exact lineTables_finishMain hwell.fs hrest hwell.lexer.1 hfinish

/-- Every function that the compiler makes has a table that is not empty and in order, and in such a
table `GetLine` finds the line of the last entry before an instruction, or of the first entry. -/
theorem lineTables_and_getLine :
    (∀ n cfg source proto, (compile n cfg source).result = .ok proto → LineTables proto) ∧
      ∀ t : List SQLineInfo, t ≠ [] → t.Pairwise (·.op ≤ ·.op) → ∀ p : Int,
        GetLine.getLine t p = GetLine.lineBefore t p ∧ (GetLine.getLine t p).isSome :=
  ⟨fun _ _ _ _ => lineTables_of_compile, fun _ hne hs p => GetLine.getLine_eq hne hs p⟩

/-- A program of five lines with a loop and a nested function, and a table with two entries at one
offset. -/
theorem lineTables_and_getLine_sample :
    (∃ proto, (compile 80 plainConfig sampleProgram).result = .ok proto ∧
      (proto.lineinfos = [⟨1, 0⟩, ⟨2, 1⟩, ⟨3, 2⟩, ⟨4, 5⟩, ⟨5, 10⟩] ∧
        proto.functions.map (·.lineinfos) = [[⟨2, 0⟩]]) ∧ LineTables proto) ∧
      GetLine.getLine [⟨1, 0⟩, ⟨2, 3⟩, ⟨4, 3⟩, ⟨5, 6⟩] 5 = some 4 := by
  obtain ⟨proto, h, hproto⟩ := exists_of_okAnd
    (fun proto => proto.lineinfos = [⟨1, 0⟩, ⟨2, 1⟩, ⟨3, 2⟩, ⟨4, 5⟩, ⟨5, 10⟩] ∧
      proto.functions.map (·.lineinfos) = [[⟨2, 0⟩]])
    (compile 80 plainConfig sampleProgram) (by decide +kernel)
  refine ⟨⟨proto, h, hproto, lineTables_and_getLine.1 80 plainConfig sampleProgram proto h⟩, ?_⟩
  exact (lineTables_and_getLine.2 [⟨1, 0⟩, ⟨2, 3⟩, ⟨4, 3⟩, ⟨5, 6⟩] (by decide) (by decide) 5).1.trans
    (by decide)

end Sqnim.Compiler
