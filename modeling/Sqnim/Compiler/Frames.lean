import Sqnim.Compiler.CodeFrame
import Sqnim.Compiler.Parsing

/-!
# What compiling a part leaves alone

The code frames of the function that is compiled and of the functions around it, for every function
of the parser.
-/
namespace Sqnim.Compiler

open Sqnim.Lib
open Prog (raise gets update when report demand loop Turn)
open SQFuncState

-- the search follows every step of a function
set_option synthInstance.maxSize 6400
set_option synthInstance.maxHeartbeats 100000

/-- A code frame for `_fs`, and for each function state around it, where an expression is being
compiled. -/
structure Frames (e : Bool) (s s' : SQCompiler) : Prop where
  fs : CodeFrame e s.fs s'.fs
  parents : List.Forall₂ (CodeFrame true) s.parents s'.parents

variable {e : Bool}

instance : Journey (Frames e) where
  refl _ := ⟨Journey.refl _, Journey.refl _⟩
  trans _ _ _ h₁ h₂ := ⟨Journey.trans _ _ _ h₁.fs h₂.fs, Journey.trans _ _ _ h₁.parents h₂.parents⟩

theorem Frames.of_fs {s s' : SQCompiler} (h : CodeFrame e s.fs s'.fs) (hp : s'.parents = s.parents) :
    Frames e s s' := by
  refine ⟨h, ?_⟩
  rw [hp]
  exact Journey.refl _

/-- The function states are the same. -/
def SameFunc (s s' : SQCompiler) : Prop := s'.fs = s.fs

instance : Journey SameFunc where
  refl _ := rfl
  trans _ _ _ h₁ h₂ := Eq.trans h₂ h₁

section Parts

variable {α : Type}

variable (b : SQCompiler)

instance (m : FuncM α) [Leads (CodeFrame e) m] : Leads (Frames e) (onFunc m) :=
  .zoom (Frames e) (CodeFrame e) _ _ _ fun _ _ h => .of_fs h rfl

instance (m : FuncM α) [Leads (Since (CodeFrame e) b.fs) m] : Leads (Since (Frames e) b) (onFunc m) :=
  .zoom (Since (Frames e) b) (Since (CodeFrame e) b.fs) _ _ _ fun _ _ h hb =>
    ⟨h hb.fs, hb.parents⟩

theorem finds_onFunc (right : SQFuncState → α → Prop) (m : FuncM α)
    [hm : Finds (CodeFrame e) m right] : Finds (Frames e) (onFunc m) fun b a => right b.fs a where
  out b s a s' hb h := by
    obtain ⟨fs, hrun, -⟩ := run_onFunc_inv h
    exact hm.out b.fs s.fs a fs hb.fs hrun

/-- What follows a program on the function state may use the positions that it found. -/
theorem leads_bind_onFunc {β : Type} (right : SQFuncState → α → Prop) (m : FuncM α)
    (k : α → CompM β) [Leads (Since (CodeFrame e) b.fs) m] [Finds (CodeFrame e) m right]
    (hk : ∀ a, right b.fs a → Leads (Since (Frames e) b) (k a)) :
    Leads (Since (Frames e) b) (onFunc m >>= k) :=
  have : Finds (Frames e) (onFunc m) fun b a => right b.fs a := finds_onFunc right m
  Leads.bind_finds (Frames e) b (fun b a => right b.fs a) _ k hk

/-- What follows may use the position of the last instruction. -/
theorem leads_after_emit {β γ : Type} (m : FuncM α) (n : CompM β) (k : α → Int → CompM γ)
    [hm : Leads (CodeFrame e) m] [he : Emits m] [hn : Leads SameFunc n] [hn' : Leads (Frames e) n]
    (hk : ∀ a pos, Fresh b.fs pos → Leads (Since (Frames e) b) (k a pos)) :
    Leads (Since (Frames e) b) (onFunc m >>= fun a => n >>= fun _ => onFunc getCurrentPos >>= k a) where
  out s c s' h hb := by
    obtain ⟨a, t, hemit, h⟩ := Prog.run_bind_inv h
    obtain ⟨fs, hrun, rfl⟩ := run_onFunc_inv hemit
    have hfresh := he.out b.fs s.fs a fs hb.fs.statement hrun
    have hb₁ : Frames e b { s with fs } := Journey.trans b s _ hb (.of_fs (hm.out _ _ _ hrun) rfl)
    obtain ⟨x, u, hn₁, h⟩ := Prog.run_bind_inv h
    have hsame : u.fs = fs := hn.out _ x u hn₁
    obtain ⟨pos, v, hpos, h⟩ := Prog.run_bind_inv h
    obtain ⟨fs', hpos, rfl⟩ := run_onFunc_inv hpos
    cases hpos
    rw [← hsame] at hfresh
    exact (hk a _ hfresh).out _ c s' h (Journey.trans b _ u hb₁ (hn'.out _ x u hn₁))

instance (m : SQLexer.LexM α) : Leads (Frames e) (onLexer m) where
  out s _ s' h := by
    rw [← show _ = s' from congrArg Prod.snd h]
    exact .of_fs (Journey.refl _) rfl

instance (m : SQLexer.LexM α) : Leads SameFunc (onLexer m) where
  out s _ s' h := by
    rw [← show _ = s' from congrArg Prod.snd h]
    rfl

end Parts

instance (name : Text) : Leads (Frames e) (getOuter name) where
  out s a s' h := by
    rw [getOuter, Prog.run_gets_bind, Prog.run_update_bind] at h
    cases h
    have hall := forall₂_getOuterVariable (CodeFrame true) name s.fs s.parents
    cases hall with
    | cons hfs hparents => exact ⟨hfs.of_expression, hparents⟩

instance : Reads SameFunc where
  same _ _ hf _ _ := hf
  lex := by
    have (t : Token) : Leads SameFunc (setToken t) := .update _ fun _ => rfl
    unfold lex
    infer_instance

instance : Parses (Frames e) (CodeFrame e) where
  same _ _ hf hp _ := .of_fs (by rw [hf]; exact Journey.refl _) hp
  lex := by
    have (t : Token) : Leads (Frames e) (setToken t) :=
      .update _ fun _ => .of_fs (Journey.refl _) rfl
    unfold lex
    infer_instance
  edits := inferInstance
  onFunc _ := inferInstance
  getOuter _ := inferInstance

/-! ## Literals that are filled in later -/

/-- The last instruction may still be changed, which is the literal whose size is set at the end. -/
def Filling (e : Bool) (s s' : SQCompiler) : Prop :=
  ∀ b, Frames e b s → Fresh b.fs ((s.fs.instructions.length : Int) - 1) → Frames e b s'

section Filling

variable {α β : Type}

theorem filling_after (m : CompM α) (k : α → CompM β) [hm : Leads SameFunc m]
    [hf : Leads (Frames e) m] (hk : ∀ a, Leads (Filling e) (k a)) : Leads (Filling e) (m >>= k) where
  out s c s' h b hb hfresh := by
    obtain ⟨a, t, ht, hu⟩ := Prog.run_bind_inv h
    have hsame : t.fs = s.fs := hm.out s a t ht
    refine (hk a).out t c s' hu b (Journey.trans b s t hb (hf.out s a t ht)) ?_
    rw [hsame]
    exact hfresh

theorem filling_then (m : CompM α) (k : α → CompM β) [hm : Leads (Filling e) m]
    [hk : ∀ a, Leads (Frames e) (k a)] : Leads (Filling e) (m >>= k) where
  out s c s' h b hb hfresh := by
    obtain ⟨a, t, ht, hu⟩ := Prog.run_bind_inv h
    exact Journey.trans b t s' (hm.out s a t ht b hb hfresh) ((hk a).out t c s' hu)

/-- A literal is emitted, and then filled in. -/
theorem leads_literal (m : FuncM Unit) [hm : Leads (CodeFrame e) m] [he : Emits m] (k : CompM α)
    [hk : Leads (Filling e) k] : Leads (Frames e) (onFunc m >>= fun _ => k) := by
  apply Leads.of_since
  intro b
  constructor
  intro s c s' h hb
  obtain ⟨_, t, hemit, hk'⟩ := Prog.run_bind_inv h
  obtain ⟨fs, hrun, rfl⟩ := run_onFunc_inv hemit
  refine hk.out _ c s' hk' b ?_ (he.out b.fs s.fs _ fs hb.fs.statement hrun)
  exact Journey.trans b s _ hb (.of_fs (hm.out _ _ _ hrun) rfl)

end Filling

/-! ## Expressions -/

/-- What the functions that are called again leave alone. -/
class Self.Framing (self : Self) : Prop where
  statement : ∀ close, Leads (Frames false) (self.statement close)
  expression : ∀ e, Leads (Frames e) self.expression
  commaExpr : ∀ e, Leads (Frames e) self.commaExpr
  prefixedExpr : ∀ e, Leads (Frames e) self.prefixedExpr
  logicalAndExp : ∀ e, Leads (Frames e) self.logicalAndExp
  logicalOrExp : ∀ e, Leads (Frames e) self.logicalOrExp
  parseTableOrClass : ∀ e separator terminator,
    Leads (Filling e) (self.parseTableOrClass separator terminator)

attribute [instance] Self.Framing.statement Self.Framing.expression Self.Framing.commaExpr
  Self.Framing.prefixedExpr Self.Framing.logicalAndExp Self.Framing.logicalOrExp
  Self.Framing.parseTableOrClass

instance (self : Self) [self.Framing] : self.Leading (Frames e) where
  expression := inferInstance
  commaExpr := inferInstance
  prefixedExpr := inferInstance
  logicalAndExp := inferInstance
  logicalOrExp := inferInstance

variable (self : Self) [self.Framing]

/-- The function states around the body of a function are those that were there before it. -/
instance (child : SQFuncState) : Leads (Frames e) (functionBody self child) where
  out s _ s' h := by
    rw [functionBody, enterChildState, Prog.run_update_bind] at h
    obtain ⟨_, t, hbody, h⟩ := Prog.run_bind_inv h
    have hframe : Frames false _ t := (Self.Framing.statement false).out _ _ _ hbody
    rw [Prog.run_gets_bind, Prog.run_gets_bind] at h
    obtain ⟨_, u, hfinish, h⟩ := Prog.run_bind_inv h
    have hlead : Leads (Frames false) (onFunc (finishFunction (if t.lexer.prevtoken = .ch '\n'
        then t.lexer.lasttokenline else t.lexer.currentline) t.lineinfo)) := inferInstance
    have hall := Journey.trans _ _ _ hframe (hlead.out _ _ _ hfinish)
    cases h
    have hparents : List.Forall₂ (CodeFrame true) (s.fs :: s.parents) u.parents := hall.parents
    cases hu : u.parents with
    | nil =>
      rw [hu] at hparents
      cases hparents
    | cons p ps =>
      rw [hu] at hparents
      cases hparents with
      | cons hp hps =>
        have hcode : (u.parents.headD u.fs).code = p.code := by
          rw [hu]
          rfl
        refine ⟨Journey.trans _ _ _ hp.of_expression (.of_code hcode), ?_⟩
        show List.Forall₂ (CodeFrame true) s.parents u.parents.tail
        rw [hu]
        exact hps

instance (name : Option Text) (boundtarget : Operand) :
    Leads (Frames e) (createFunction self name boundtarget) := by
  unfold createFunction
  infer_instance

instance (separator terminator : Token) {α : Type} (a : α) : Leads (Filling e) (do
    lex
    self.parseTableOrClass separator terminator
    pure a) := by
  apply filling_after
  intro _
  apply filling_then

instance (separator : Token) : Leads (Frames e) (memberAttributes self separator) := by
  apply Leads.bind'
  intro t
  split
  · exact leads_literal _ _
  · infer_instance

/-- The literal before is the last instruction when it starts. -/
instance (separator terminator : Token) :
    Leads (Filling e) (parseTableOrClass self separator terminator) where
  out s a s' h b hb hfresh := by
    rw [parseTableOrClass] at h
    obtain ⟨tpos, t, hpos, h⟩ := Prog.run_bind_inv h
    obtain ⟨fs, hpos, rfl⟩ := run_onFunc_inv hpos
    cases hpos
    exact Leads.out (R := Since (Frames e) b) _ _ _ h hb

instance : Leads (Frames e) (classAttributes self) := by
  have : Leads (Filling e) (do
      parseTableOrClass self (.ch ',') .tkAttrClose
      let attrs ← onFunc topTarget
      pure (some attrs)) := filling_then _ _
  apply Leads.bind'
  intro t
  split
  · apply Leads.bind'
    intro _
    exact leads_literal _ _
  · infer_instance

instance (base attrs : Option StackPos) : Emits (emitClass base attrs) := by
  unfold emitClass
  infer_instance

instance (base attrs : Option StackPos) (separator terminator : Token) : Leads (Frames e) (do
    onFunc (emitClass base attrs)
    parseTableOrClass self separator terminator) := leads_literal _ _

instance : Leads (Frames e) (classExp self) := by
  unfold classExp
  infer_instance

instance : Finds (CodeFrame e) (do
    let trg ← pushTarget
    addInstruction .opNewobj [.reg trg, .imm 0, .imm 0, .imm notArray]
    getCurrentPos) Fresh := .bind _ _ _ _ fun _ => finds_current _ _

instance : Leads (Frames e) (arrayLiteral self) := by
  apply Leads.of_since
  intro b
  refine leads_bind_onFunc b Fresh _ _ ?_
  intro apos hapos
  infer_instance

instance : Leads (Frames e) (tableLiteral self) := by
  have : Leads (Filling e) (do
      lex
      parseTableOrClass self (.ch ',') (.ch '}')) := filling_after _ _ fun _ => inferInstance
  exact leads_literal _ _

instance (m : CompM Unit) [Leads (Frames e) m] : Leads (Frames e) (lexThen m) := by
  unfold lexThen
  infer_instance

instance (t : Token) : Leads (Frames e) (plainFactor self t) := by
  apply Leads.bind'
  intro l
  split <;> infer_instance

section Levels

omit self

variable (f : CompM Unit) [Leads (Frames e) f]

instance (op : SQOpcode) [IsTrue (notLine op)] : Leads (Frames e) (shortCircuit op f) := by
  apply Leads.of_since
  intro b
  refine leads_bind_onFunc b (fun b r => Fresh b r.2) _ _ ?_
  intro r hr
  infer_instance

end Levels

instance : Leads (Frames e) (conditional self) := by
  apply Leads.bind'
  intro _
  apply Leads.of_since
  intro b
  refine leads_bind_onFunc b (fun b r => Fresh b r.1) _ _ ?_
  intro r hr
  apply Leads.bind'
  intro _
  refine leads_after_emit b _ _ _ ?_
  intro endfirstexp jmppos hjmppos
  infer_instance

/-! ## Statements -/

instance (args : List Operand) : Finds (CodeFrame e) (do
    addInstruction .opJmp args
    getCurrentPos) Fresh := finds_current _ _

instance : Leads (Frames false) (elseBlock self) := by
  apply Leads.bind'
  intro t
  split
  · apply Leads.of_since
    intro b
    refine leads_bind_onFunc b Fresh _ _ ?_
    intro jmppos hjmppos
    infer_instance
  · infer_instance

instance : Leads (Frames false) (ifStatement self) := by
  apply Leads.bind'
  intro _
  apply Leads.bind'
  intro _
  apply Leads.of_since
  intro b
  refine leads_bind_onFunc b Fresh _ _ ?_
  intro jnepos hjnepos
  infer_instance

instance : Finds (CodeFrame e) beginBreakable Before where
  out b fs before gs hb h := by
    rw [beginBreakable, Prog.run_gets_bind, Prog.run_update_bind] at h
    cases h
    obtain ⟨new, hnew, -⟩ := hb.breaks
    obtain ⟨new', hnew', -⟩ := hb.continues
    refine ⟨?_, ?_⟩
    · show _ ≤ fs.unresolvedbreaks.length
      rw [hnew, List.length_append]
      omega
    · show _ ≤ fs.unresolvedcontinues.length
      rw [hnew', List.length_append]
      omega

instance : Leads (Frames false) (whileStatement self) := by
  apply Leads.of_since
  intro b
  apply Leads.bind'
  intro jmppos
  apply Leads.bind'
  intro _
  apply Leads.bind'
  intro _
  refine leads_bind_onFunc b Before _ _ ?_
  intro before hbefore
  refine leads_bind_onFunc b Fresh _ _ ?_
  intro jzpos hjzpos
  infer_instance

instance : Leads (Frames false) (doWhileStatement self) := by
  apply Leads.of_since
  intro b
  apply Leads.bind'
  intro _
  apply Leads.bind'
  intro jmptrg
  refine leads_bind_onFunc b Before _ _ ?_
  intro before hbefore
  infer_instance

instance : Leads (Frames e) (forCondition self) := by
  unfold forCondition
  infer_instance

/-- The instructions of the step are cut out, and nothing was recorded in it. -/
instance : Leads (Frames false) (forStep self) where
  out s exp s' h := by
    obtain ⟨expstart, t, hpos, h⟩ := Prog.run_bind_inv h
    obtain ⟨fs, hpos, rfl⟩ := run_onFunc_inv hpos
    cases hpos
    rw [token, Prog.run_gets_bind] at h
    obtain ⟨_, u, hstep, h⟩ := Prog.run_bind_inv h
    obtain ⟨_, v, hexpect, h⟩ := Prog.run_bind_inv h
    obtain ⟨fs, hcut, rfl⟩ := run_onFunc_inv h
    cases hcut
    have hlead : Leads (Frames true) (when (s.token ≠ .ch ')') (droppedExpr self)) := inferInstance
    have hlead' : Leads (Frames true) (expect (.ch ')')) := inferInstance
    have hframe : Frames true s v :=
      Journey.trans _ _ _ (hlead.out s _ u hstep) (hlead'.out u _ v hexpect)
    obtain ⟨hbreaks, hcontinues⟩ := hframe.fs.same rfl
    refine ⟨.of_lists ?_ ?_ hbreaks hcontinues, hframe.parents⟩
    · show s.fs.instructions.length ≤
        (v.fs.instructions.take ((s.fs.instructions.length : Int) - 1 + 1).toNat).length
      have hlen := hframe.fs.length
      rw [List.length_take]
      omega
    · intro j hj
      obtain ⟨⟨i, hi, -⟩, hsame⟩ := hframe.fs.settled j hj
      have hlt := hj.lt
      have htake : (v.fs.instructions.take ((s.fs.instructions.length : Int) - 1 + 1).toNat)[j]? =
          v.fs.instructions[j]? := List.getElem?_take_of_lt (by omega)
      exact ⟨⟨i, htake.trans hi, .inr (.inl rfl)⟩, htake.trans hsame⟩

instance : Leads (Frames false) (forHeader self) := by
  unfold forHeader
  infer_instance

instance : Finds (Frames false) (forCondition self) fun b jzpos =>
    jzpos > 0 → Fresh b.fs jzpos where
  out b s jzpos s' hb h := by
    rw [forCondition, token, Prog.run_gets_bind] at h
    split at h
    · cases h
      intro hpos
      cases hpos
    · obtain ⟨_, t, hexpr, h⟩ := Prog.run_bind_inv h
      have hlead : Leads (Frames false) (commaExpr self) := inferInstance
      have hfinds : Finds (Frames false) (onFunc emitJz) fun b a => Fresh b.fs a :=
        finds_onFunc Fresh emitJz
      exact fun _ => hfinds.out b t jzpos s' (Journey.trans _ _ _ hb (hlead.out s _ t hexpr)) h

instance : Finds (Frames false) (forHeader self) fun b h => h.2.1 > 0 → Fresh b.fs h.2.1 := by
  apply Finds.bind
  intro _
  apply Finds.bind
  intro _
  apply Finds.bind
  intro _
  apply Finds.bind
  intro _
  apply Finds.bind
  intro jmppos
  refine Finds.through (Frames false) (fun b jzpos => jzpos > 0 → Fresh b.fs jzpos) _
    (forCondition self) _ ?_
  intro b jzpos hjzpos s r s' h
  obtain ⟨_, _, _, h⟩ := Prog.run_bind_inv h
  obtain ⟨_, _, _, h⟩ := Prog.run_bind_inv h
  obtain ⟨_, _, _, h⟩ := Prog.run_bind_inv h
  cases h
  exact hjzpos

instance : Leads (Frames false) (forStatement self) := by
  apply Leads.of_since
  intro b
  apply Leads.bind'
  intro _
  apply Leads.bind'
  intro old
  refine Leads.bind_finds (Frames false) b (fun b h => h.2.1 > 0 → Fresh b.fs h.2.1) _ _ ?_
  intro h hh
  refine leads_bind_onFunc b Before _ _ ?_
  intro before hbefore
  have := leads_endFor b.fs h.2.2 h.1 h.2.1 before hh
  infer_instance

instance : Leads (Frames false) (forEachStatement self) := by
  apply Leads.of_since
  intro b
  apply Leads.bind'
  intro _
  apply Leads.bind'
  intro _
  apply Leads.bind'
  intro names
  apply Leads.bind'
  intro _
  apply Leads.bind'
  intro old
  apply Leads.bind'
  intro _
  apply Leads.bind'
  intro _
  refine leads_bind_onFunc b (fun b r => Fresh b r.2 ∧ Fresh b (r.2 + 1)) _ _ ?_
  intro r ⟨hr, hr'⟩
  refine leads_bind_onFunc b Before _ _ ?_
  intro before hbefore
  infer_instance

theorem leads_caseTurn (b : SQCompiler) (expr : StackPos) (c : CaseJumps)
    (hc : CasesFresh b.fs c) : Leads (Since (Frames false) b) (caseTurn self expr c) := by
  apply Leads.bind'
  intro t
  split
  · have := leads_beginCase (e := false) b.fs c hc
    constructor
    intro s a s' h hb
    obtain ⟨skipcondjmp, u, hbegin, h⟩ := Prog.run_bind_inv h
    have hbu := Leads.out (R := Since (Frames false) b) _ _ _ hbegin hb
    obtain ⟨fs, hbegin, -⟩ := run_onFunc_inv hbegin
    have := leads_emitCase (e := false) b.fs expr (skipFresh_of_beginCase b.fs hc hb.fs hbegin)
    exact Leads.out (R := Since (Frames false) b) _ _ _ h hbu
  · infer_instance

theorem casesFresh_of_caseTurn (b : SQCompiler) (expr : StackPos) (c : CaseJumps)
    (hc : CasesFresh b.fs c) (s s' : SQCompiler) (t : Turn CaseJumps CaseJumps)
    (hb : Frames false b s) (h : Prog.run (caseTurn self expr c) s = (.ok t, s')) :
    match t with
    | .again c' => CasesFresh b.fs c'
    | .done c' => CasesFresh b.fs c' := by
  rw [caseTurn, token, Prog.run_gets_bind] at h
  split at h
  · have := leads_beginCase (e := false) b.fs c hc
    obtain ⟨skipcondjmp, u, hbegin, h⟩ := Prog.run_bind_inv h
    have hbu := Leads.out (R := Since (Frames false) b) _ _ _ hbegin hb
    obtain ⟨_, s₁, h₁, h⟩ := Prog.run_bind_inv h
    obtain ⟨_, s₂, h₂, h⟩ := Prog.run_bind_inv h
    obtain ⟨_, s₃, h₃, h⟩ := Prog.run_bind_inv h
    obtain ⟨tonextcondjmp, s₄, h₄, h⟩ := Prog.run_bind_inv h
    obtain ⟨_, _, _, h⟩ := Prog.run_bind_inv h
    cases h
    have hb₁ := Journey.trans _ _ _ hbu (Leads.out (R := Frames false) _ _ _ h₁)
    have hb₂ := Journey.trans _ _ _ hb₁ (Leads.out (R := Frames false) _ _ _ h₂)
    have hb₃ := Journey.trans _ _ _ hb₂ (Leads.out (R := Frames false) _ _ _ h₃)
    obtain ⟨fs, hcase, -⟩ := run_onFunc_inv h₄
    have hfresh := fresh_of_emitCase b.fs hb₃.fs hcase
    exact ⟨nofun, fun _ => hfresh, fun _ => hfresh⟩
  · cases h
    exact hc

instance : Leads (Frames false) (switchStatement self) := by
  apply Leads.of_since
  intro b
  apply Leads.bind'
  intro _
  apply Leads.bind'
  intro _
  apply Leads.bind'
  intro _
  refine leads_bind_onFunc (e := false) b (fun b r => b.unresolvedbreaks.length ≤ r.2) _ _ ?_
  intro r hr
  refine Leads.bind_loop (Frames false) b (CasesFresh b.fs) (CasesFresh b.fs) _ _ _
    (leads_caseTurn self b r.1)
    (fun c s c' s' hc hb h => casesFresh_of_caseTurn self b r.1 c hc s s' _ hb h)
    (fun c s c' s' hc hb h => casesFresh_of_caseTurn self b r.1 c hc s s' _ hb h)
    (casesFresh_start b.fs) ?_
  intro c hc
  have := leads_landSkip (e := false) b.fs hc.next
  have := leads_endSwitch b.fs r.2 hr
  infer_instance

instance : Leads (Frames false) (tryCatchStatement self) := by
  apply Leads.of_since
  intro b
  apply Leads.bind'
  intro _
  refine leads_bind_onFunc b Fresh _ _ ?_
  intro trappos htrappos
  apply Leads.bind'
  intro _
  refine leads_bind_onFunc b Fresh _ _ ?_
  intro jmppos hjmppos
  infer_instance

instance : Leads (Frames false) breakStatement := by
  apply Leads.bind'
  intro s
  have := leads_recordBreak (s.fs.breaktargets.headD 0) s.scope
  infer_instance

instance : Leads (Frames false) continueStatement := by
  apply Leads.bind'
  intro s
  have := leads_recordContinue (s.fs.continuetargets.headD 0) s.scope
  infer_instance

instance (closeframe : Bool) : Leads (Frames false) (statementBody self closeframe) := by
  apply Leads.bind'
  intro t
  split <;> infer_instance

instance (force : Bool) : Leads (Frames false) (markLine force) := by
  unfold markLine
  infer_instance

instance (closeframe : Bool) : Leads (Frames false) (statement self closeframe) := by
  unfold statement
  infer_instance

instance : Leads (Frames false) (compileMain self) := by
  unfold compileMain
  infer_instance


/-! ## The recursion -/

instance (n : Nat) : (selfAt n).Framing := by
  induction n with
  | zero =>
    exact {
      statement := fun _ => inferInstanceAs (Leads (Frames false) (Prog.exhaust ()))
      expression := fun e => inferInstanceAs (Leads (Frames e) (Prog.exhaust ()))
      commaExpr := fun e => inferInstanceAs (Leads (Frames e) (Prog.exhaust ()))
      prefixedExpr := fun e => inferInstanceAs (Leads (Frames e) (Prog.exhaust ()))
      logicalAndExp := fun e => inferInstanceAs (Leads (Frames e) (Prog.exhaust ()))
      logicalOrExp := fun e => inferInstanceAs (Leads (Frames e) (Prog.exhaust ()))
      parseTableOrClass := fun e _ _ => inferInstanceAs (Leads (Filling e) (Prog.exhaust ())) }
  | succ n ih =>
    exact {
      statement := fun close => inferInstanceAs (Leads (Frames false) (statement (selfAt n) close))
      expression := fun e => inferInstanceAs (Leads (Frames e) (expression (selfAt n)))
      commaExpr := fun e => inferInstanceAs (Leads (Frames e) (commaExpr (selfAt n)))
      prefixedExpr := fun e => inferInstanceAs (Leads (Frames e) (prefixedExpr (selfAt n)))
      logicalAndExp := fun e => inferInstanceAs (Leads (Frames e) (logicalAndExp (selfAt n)))
      logicalOrExp := fun e => inferInstanceAs (Leads (Frames e) (logicalOrExp (selfAt n)))
      parseTableOrClass := fun e separator terminator =>
        inferInstanceAs (Leads (Filling e) (parseTableOrClass (selfAt n) separator terminator)) }

end Sqnim.Compiler
