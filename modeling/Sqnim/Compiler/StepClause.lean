import Sqnim.Compiler.AddInstruction
import Sqnim.Compiler.Addressing

/-!
# The step of a for loop

The instructions of the third clause are cut out and given to `AddInstruction` again after the body.
The optimiser then looks at pairs of instructions that `SnoozeOpt` kept apart in place: the last
instruction before the target of a jump, and the move behind it.
-/
namespace Sqnim.Compiler.StepClause

open Sqnim.Lib
open SQFuncState

/-! ## What the step adds -/

/-- The function state after the instructions of a step have been added. -/
def moved (fs : SQFuncState) (exp : List SQInstruction) : SQFuncState :=
  (Prog.run (addInstructions exp) fs).2

theorem moved_nil (fs : SQFuncState) : moved fs [] = fs := rfl

theorem moved_cons (fs : SQFuncState) (i : SQInstruction) (is : List SQInstruction) :
    moved fs (i :: is) = if fs.fusion i = .line i ∧ fs.lineinfos = [] then fs
      else moved (fs.apply (fs.fusion i)) is := by
  have hstep : moved fs (i :: is) = (Prog.after (Prog.run (addSQInstruction i) fs)
      fun _ => Prog.run (addInstructions is)).2 :=
    congrArg Prod.snd (Prog.run_bind (addSQInstruction i) (fun _ => addInstructions is) fs)
  rw [hstep, run_addSQInstruction]
  split
  · rfl
  · rfl

theorem length_moved (fs : SQFuncState) (is : List SQInstruction) :
    (moved fs is).instructions.length ≤ fs.instructions.length + is.length := by
  induction is generalizing fs with
  | nil => simp [moved_nil]
  | cons i is ih =>
    have hlen : (fs.apply (fs.fusion i)).instructions.length ≤ fs.instructions.length + 1 := by
      cases added fs i with
      | pushed i' h hop => simp [h, apply, pushInstruction]
      | replaced pi p hlast hopt hjump h =>
        rw [h]
        exact Nat.le_succ_of_le (Nat.le_of_eq (length_setLast hlast p))
      | changed pi hlast hopt hop h =>
        have hpos := length_pos_of_last hlast
        rw [h, instructions_change, List.length_append, List.length_dropLast]
        simp
        omega
    have hrest := ih (fs.apply (fs.fusion i))
    rw [moved_cons, List.length_cons]
    split
    · omega
    · omega

/-- What more instructions leave of those before them: only a call in the last place may become a
tail call. -/
structure Kept (before after : List SQInstruction) : Prop where
  inner : ∀ j, j + 1 < before.length → after[j]? = before[j]?
  last : ∀ pi, before.getLast? = some pi → ∃ qi, after[before.length - 1]? = some qi ∧
    (qi = pi ∨ (pi.op = .opCall ∧ qi.op = .opTailcall))

theorem Kept.refl (before : List SQInstruction) : Kept before before where
  inner _ _ := rfl
  last pi hlast := ⟨pi, by rw [← List.getLast?_eq_getElem?, hlast], .inl rfl⟩

/-- When no instruction is absorbed, the earlier ones are kept. -/
theorem kept_of_length (fs : SQFuncState) (is : List SQInstruction)
    (hlen : (moved fs is).instructions.length = fs.instructions.length + is.length) :
    Kept fs.instructions (moved fs is).instructions := by
  induction is generalizing fs with
  | nil => exact .refl _
  | cons i is ih =>
    rw [moved_cons, List.length_cons] at hlen
    rw [moved_cons]
    split at hlen
    · omega
    next hgo =>
    rw [if_neg hgo]
    have hle := length_moved (fs.apply (fs.fusion i)) is
    cases added fs i with
    | replaced pi p hlast hopt hjump h =>
      have hshort : (fs.apply (fs.fusion i)).instructions.length = fs.instructions.length := by
        rw [h]
        exact length_setLast hlast p
      omega
    | pushed i' h hop =>
      have hins := instructions_push fs i'
      rw [← h] at hins
      have hnext := congrArg List.length hins
      rw [List.length_append, List.length_singleton] at hnext
      have hkept := ih (fs.apply (fs.fusion i)) (by omega)
      have hold : ∀ j, j < fs.instructions.length →
          (moved (fs.apply (fs.fusion i)) is).instructions[j]? = fs.instructions[j]? := by
        intro j hj
        rw [hkept.inner j (by omega), hins, List.getElem?_append_left hj]
      constructor
      · intro j hj
        exact hold j (by omega)
      · intro pi hlast
        have hpos := length_pos_of_last hlast
        refine ⟨pi, ?_, .inl rfl⟩
        rw [hold _ (by omega), ← List.getLast?_eq_getElem?, hlast]
    | changed pi hlast hopt hop h =>
      have hpos := length_pos_of_last hlast
      have hins := instructions_change fs { pi with op := .opTailcall } i
      rw [← h] at hins
      have hnext : (fs.apply (fs.fusion i)).instructions.length = fs.instructions.length + 1 := by
        rw [hins, List.length_append, List.length_dropLast, List.length_cons, List.length_singleton]
        omega
      have hkept := ih (fs.apply (fs.fusion i)) (by omega)
      constructor
      · intro j hj
        rw [hkept.inner j (by omega), hins, List.getElem?_append_left (by simp; omega),
          List.getElem?_dropLast, if_pos (by omega)]
      · intro qi hlast'
        rw [hlast] at hlast'
        cases hlast'
        refine ⟨{ pi with op := .opTailcall }, ?_, .inr ⟨hop, rfl⟩⟩
        rw [hkept.inner _ (by omega), hins, List.getElem?_append_right (by simp)]
        simp

/-! ## The condition -/

/-- The optimiser leaves neighbouring instructions of a list as they are. -/
def Apart (fs : SQFuncState) : List SQInstruction → Prop
  | pi :: i :: is =>
    (fs.pushInstruction pi).peephole pi i = .push i ∧ Apart (fs.pushInstruction pi) (i :: is)
  | _ => True

/-- Every instruction is appended as it is. -/
def Pushed (fs : SQFuncState) : List SQInstruction → Prop
  | [] => True
  | i :: is => fs.fusion i = .push i ∧ Pushed (fs.pushInstruction i) is

theorem fusion_pushInstruction (fs : SQFuncState) (pi i : SQInstruction) :
    (fs.pushInstruction pi).fusion i = (fs.pushInstruction pi).peephole pi i := by
  simp [fusion, pushInstruction]

theorem pushed_pushInstruction (fs : SQFuncState) (pi : SQInstruction) (is : List SQInstruction) :
    Pushed (fs.pushInstruction pi) is ↔ Apart fs (pi :: is) := by
  induction is generalizing fs pi with
  | nil => simp [Pushed, Apart]
  | cons i is ih => rw [Pushed, Apart, fusion_pushInstruction, ih]

theorem fusion_of_snoozed (fs : SQFuncState) (i : SQInstruction) (h : fs.optimization = false) :
    fs.fusion i = .push i := by
  unfold fusion
  split
  · rw [if_neg (by simp [h])]
  · rfl

/-- The first instruction is never merged, because every statement ends with `SnoozeOpt`. -/
theorem pushed_iff_apart (fs : SQFuncState) (is : List SQInstruction)
    (h : fs.optimization = false) : Pushed fs is ↔ Apart fs is := by
  cases is with
  | nil => simp [Pushed, Apart]
  | cons i is => rw [Pushed, pushed_pushInstruction, and_iff_right (fusion_of_snoozed fs i h)]

theorem moved_of_pushed (fs : SQFuncState) (is : List SQInstruction) (h : Pushed fs is) :
    (moved fs is).instructions = fs.instructions ++ is := by
  induction is generalizing fs with
  | nil => rw [moved_nil, List.append_nil]
  | cons i is ih =>
    have hgo : ¬ (fs.fusion i = .line i ∧ fs.lineinfos = []) := by
      rw [h.1]
      intro hline
      cases hline.1
    rw [moved_cons, if_neg hgo, h.1]
    show (moved (fs.pushInstruction i) is).instructions = _
    rw [ih _ h.2]
    exact List.append_assoc fs.instructions [i] is

theorem pushed_of_moved (fs : SQFuncState) (is : List SQInstruction)
    (h : (moved fs is).instructions = fs.instructions ++ is) : Pushed fs is := by
  induction is generalizing fs with
  | nil => trivial
  | cons i is ih =>
    have hlen := congrArg List.length h
    rw [List.length_append, List.length_cons] at hlen
    rw [moved_cons] at h hlen
    split at hlen
    · omega
    next hgo =>
    rw [if_neg hgo] at h
    have hle := length_moved (fs.apply (fs.fusion i)) is
    have hgot : ∀ j : Nat, (moved (fs.apply (fs.fusion i)) is).instructions[j]? =
        (fs.instructions ++ i :: is)[j]? := fun j => by rw [h]
    cases added fs i with
    | replaced pi p hlast hopt hjump h =>
      have hshort : (fs.apply (fs.fusion i)).instructions.length = fs.instructions.length := by
        rw [h]
        exact length_setLast hlast p
      omega
    | pushed i' hpush hop =>
      have hins := instructions_push fs i'
      rw [← hpush] at hins
      have hnext := congrArg List.length hins
      rw [List.length_append, List.length_singleton] at hnext
      have hkept := kept_of_length (fs.apply (fs.fusion i)) is (by omega)
      obtain ⟨qi, hqi, hsame⟩ := hkept.last i' (by rw [hins]; simp)
      have hi : i = qi := by
        rw [hgot, hnext] at hqi
        simpa using hqi
      have hi' : i = i' := by
        obtain hqi' | ⟨hcall, htail⟩ := hsame
        · exact hi.trans hqi'
        · rw [hop, hi, htail] at hcall
          cases hcall
      rw [← hi'] at hpush
      rw [hpush] at h
      refine ⟨hpush, ih _ ?_⟩
      show (moved (fs.apply (.push i)) is).instructions = fs.instructions ++ [i] ++ is
      rw [h, List.append_assoc]
      rfl
    | changed pi hlast hopt hop hchange =>
      have hpos := length_pos_of_last hlast
      have hins := instructions_change fs { pi with op := .opTailcall } i
      rw [← hchange] at hins
      have hnext : (fs.apply (fs.fusion i)).instructions.length = fs.instructions.length + 1 := by
        rw [hins, List.length_append, List.length_dropLast, List.length_cons, List.length_singleton]
        omega
      have hkept := kept_of_length (fs.apply (fs.fusion i)) is (by omega)
      have hin := hkept.inner (fs.instructions.length - 1) (by omega)
      rw [hgot, List.getElem?_append_left (by omega), ← List.getLast?_eq_getElem?, hlast, hins,
        List.getElem?_append_right (by simp)] at hin
      simp only [List.length_dropLast, Nat.sub_self, List.getElem?_cons_zero,
        Option.some.injEq] at hin
      rw [hin] at hop
      cases hop

/-! ## The statement -/

/-- What `ForStatement` holds when its body is compiled: the scope to return to, the parts of its
header, and the numbers of unresolved jumps. -/
structure ForParts where
  old : SQScope
  jmppos : Int
  jzpos : Int
  exp : List SQInstruction
  before : Nat × Nat

/-- `ForStatement` to the end of its body. -/
def forParts (self : Self) : CompM ForParts := do
  lex
  let old ← beginScope
  let h ← forHeader self
  let before ← onFunc beginBreakable
  self.statement true
  pure ⟨old, h.1, h.2.1, h.2.2, before⟩

/-- The rest of `ForStatement`, which begins with the instructions of the step. -/
def forRest (p : ForParts) : CompM Unit := do
  onFunc (endFor p.exp p.jmppos p.jzpos p.before)
  endScope p.old true

theorem run_forStatement (self : Self) (s : SQCompiler) :
    Prog.run (forStatement self) s =
      Prog.after (Prog.run (forParts self) s) fun p => Prog.run (forRest p) := by
  simp only [forStatement, forParts, Prog.run_bind_fun, Prog.after_after, forRest, Prog.run_pure,
    Prog.after_ok]

theorem snoozed_of_statement (n : Nat) (close : Bool) (s s' : SQCompiler)
    (h : Prog.run ((selfAt n).statement close) s = (.ok (), s')) :
    s'.fs.optimization = false := by
  cases n with
  | zero => cases congrArg Prod.fst h
  | succ n =>
    have hrun : Prog.run (statement (selfAt n) close) s = (.ok (), s') := h
    obtain ⟨_, s₁, -, hrun⟩ := Prog.run_bind_inv hrun
    obtain ⟨_, s₂, -, hrun⟩ := Prog.run_bind_inv hrun
    cases hrun
    rfl

theorem snoozed_of_forParts (n : Nat) (s s' : SQCompiler) (p : ForParts)
    (h : Prog.run (forParts (selfAt n)) s = (.ok p, s')) : s'.fs.optimization = false := by
  obtain ⟨_, s₁, -, h⟩ := Prog.run_bind_inv h
  obtain ⟨_, s₂, -, h⟩ := Prog.run_bind_inv h
  obtain ⟨_, s₃, -, h⟩ := Prog.run_bind_inv h
  obtain ⟨_, s₄, -, h⟩ := Prog.run_bind_inv h
  obtain ⟨_, s₅, hbody, h⟩ := Prog.run_bind_inv h
  cases h
  exact snoozed_of_statement n true s₄ s₅ hbody

/-- The property of a `for` statement in a state of the compiler: if its body is accepted, the
instructions after the body are those compiled for the step, in their order. -/
def StepMoved (n : Nat) (s : SQCompiler) : Prop :=
  ∀ p s', Prog.run (forParts (selfAt n)) s = (.ok p, s') →
    (moved s'.fs p.exp).instructions = s'.fs.instructions ++ p.exp

/-- The condition: the optimiser would not combine two neighbouring instructions of the step. -/
def StepApart (n : Nat) (s : SQCompiler) : Prop :=
  ∀ p s', Prog.run (forParts (selfAt n)) s = (.ok p, s') → Apart s'.fs p.exp

theorem stepMoved_iff (n : Nat) (s : SQCompiler) : StepMoved n s ↔ StepApart n s := by
  have hone : ∀ p s', Prog.run (forParts (selfAt n)) s = (.ok p, s') →
      ((moved s'.fs p.exp).instructions = s'.fs.instructions ++ p.exp ↔ Apart s'.fs p.exp) := by
    intro p s' h
    rw [← pushed_iff_apart s'.fs p.exp (snoozed_of_forParts n s s' p h)]
    exact ⟨pushed_of_moved s'.fs p.exp, moved_of_pushed s'.fs p.exp⟩
  constructor
  · intro hmoved p s' h
    exact (hone p s' h).mp (hmoved p s' h)
  · intro hapart p s' h
    exact (hone p s' h).mpr (hapart p s' h)

/-- `for(local i=0,c=1;;i=c?1:2);` -/
def stepTernary : List UInt8 :=
  [102, 111, 114, 40, 108, 111, 99, 97, 108, 32, 105, 61, 48, 44, 99, 61, 49, 59, 59, 105, 61, 99,
    63, 49, 58, 50, 41, 59]

/-- The compiler before the body of its first statement, as `Compile` and `Statement` bring it
there. -/
def firstStatement (cfg : Config) (source : List UInt8) : SQCompiler :=
  (Prog.run (do
    onLexer SQLexer.next
    let _ ← onFunc mainParameters
    lex
    markLine false : CompM Unit) (cfg.initial source)).2

/-- Is the step of the `for` statement, if the statement is accepted, among its instructions? -/
def stepMovedCheck (n : Nat) (s : SQCompiler) : Bool :=
  match Prog.run (forParts (selfAt n)) s with
  | (.ok p, s') => (moved s'.fs p.exp).instructions = s'.fs.instructions ++ p.exp
  | (.error _, _) => true

theorem stepMovedCheck_of_stepMoved (n : Nat) (s : SQCompiler) (h : StepMoved n s) :
    stepMovedCheck n s = true := by
  unfold stepMovedCheck
  split
  · next p s' hrun => exact decide_eq_true (h p s' hrun)
  · rfl

/-- The value 2 was loaded to a temporary, where the jump after the load of 1 leads to the move
behind it. The optimiser combines the second load with the move. -/
theorem not_stepMoved : ∃ proto, (compile 30 plainConfig stepTernary).result = .ok proto ∧
    (firstStatement plainConfig stepTernary).token = .tkFor ∧
    ¬ StepMoved 28 (firstStatement plainConfig stepTernary) := by
  obtain ⟨proto, h⟩ := exists_of_isOk (compile 30 plainConfig stepTernary) (by decide +kernel)
  refine ⟨proto, h, by decide +kernel, ?_⟩
  intro hmoved
  have hcheck := stepMovedCheck_of_stepMoved _ _ hmoved
  rw [show stepMovedCheck 28 (firstStatement plainConfig stepTernary) = false by
    decide +kernel] at hcheck
  cases hcheck

end Sqnim.Compiler.StepClause
