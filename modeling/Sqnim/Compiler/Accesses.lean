import Sqnim.Lib.Reports
import Sqnim.Compiler.LineInfos
import Sqnim.Compiler.CodeFrame

/-!
# The elements that the compiler looks at

Emitting code looks at targets only. The positions that are set later are those of instructions,
because no instruction goes away before they are set, and so are the jumps that wait for their
targets.
-/
namespace Sqnim.Compiler

open Sqnim.Lib
open Prog (raise gets update when report demand)
open SQFuncState

-- the search follows every step of a function
set_option synthInstance.maxSize 1600

/-- The element that is looked at is there. Nothing is asked of targets and assertions. -/
def Event.InRange : Event → Prop
  | .access index size => 0 ≤ index ∧ index < size
  | _ => True

/-- A program that looks at no element but targets. -/
abbrev Quiet {α : Type} (m : FuncM α) : Prop := Reports Event.InRange (fun _ => True) m

namespace SQFuncState

instance : Quiet getCurrentPos := inferInstanceAs (Quiet (gets _))

instance : Quiet getStackSize := inferInstanceAs (Quiet (gets _))

instance : Quiet snoozeOpt := inferInstanceAs (Quiet (update _))

instance (cons : Scalar) : Quiet (getConstant cons) := by
  apply Reports.bind'
  intro lits
  split
  · infer_instance
  · infer_instance

instance (i : Option SQInstruction) : Quiet (reportPatch i) := by
  cases i with
  | none => exact inferInstanceAs (Quiet (pure ()))
  | some i => exact .report (Event.patch i) rfl trivial

instance : Quiet allocStackPos := by
  have (npos : Nat) : Quiet (report (.alloc npos) rfl) := .report _ _ trivial
  unfold allocStackPos
  infer_instance

instance (n : StackPos) : Quiet (pushTargetAt n) := by
  unfold pushTargetAt
  infer_instance

instance : Quiet pushTarget := by
  unfold pushTarget
  infer_instance

instance : Quiet topTarget := by
  have (fs : SQFuncState) : Quiet (demand (.top fs)) := .demand _ trivial
  unfold topTarget
  infer_instance

instance : Quiet popTarget := by
  have (fs : SQFuncState) : Quiet (demand (.pop fs)) := .demand _ trivial
  unfold popTarget
  infer_instance

instance (n : Nat) : Quiet (setStackSize n) := inferInstanceAs (Quiet (update _))

instance (name : Text) : Quiet (pushLocalVariable name) := by
  have (npos : Nat) : Quiet (report (.alloc npos) rfl) := .report _ _ trivial
  unfold pushLocalVariable
  infer_instance

instance (name : Text) : Quiet (addParameter name) := by
  unfold addParameter
  infer_instance

instance (trg : StackPos) : Quiet (addDefaultParam trg) := inferInstanceAs (Quiet (update _))

/-- Only the fusion of two lines looks at another vector. -/
theorem quiet_addSQInstruction {i : SQInstruction} (hi : i.op ≠ .opLine) :
    Quiet (addSQInstruction i) := by
  have hemit (fs : SQFuncState) : Quiet (report (.emit fs i) rfl) := .report _ _ trivial
  have hline (fs : SQFuncState) :
      Quiet (when (fs.fusion i = .line i) (back fs.lineinfos.length)) := by
    have hplain := plain_fusion fs i hi
    rw [when, if_neg]
    · infer_instance
    · intro hline
      rw [hline] at hplain
      exact hplain
  unfold addSQInstruction
  infer_instance

instance (op : SQOpcode) (args : List Operand) [hop : IsTrue (notLine op)] :
    Quiet (addInstruction op args) :=
  quiet_addSQInstruction fun (h : op = .opLine) => by
    rw [h] at hop
    cases hop.out

instance : Quiet discardTarget := by
  have (fs : SQFuncState) (target : StackPos) : Quiet (report (.discard fs target) rfl) :=
    .report _ _ trivial
  unfold discardTarget
  infer_instance

end SQFuncState

/-! ## Emitting -/

instance (stacksize : Nat) : Quiet (closeStack stacksize) := by
  unfold closeStack
  infer_instance

instance (scope : SQScope) : Quiet (resolveOuters scope) := by
  unfold resolveOuters
  infer_instance

instance (scope : SQScope) (close : Bool) : Quiet (leaveScope scope close) := by
  unfold leaveScope
  infer_instance

instance (offset : Int) : Quiet (jump offset) := by
  unfold jump
  infer_instance

instance : Quiet beginBreakable := by
  unfold beginBreakable
  infer_instance

instance (trg src : StackPos) : Quiet (moveTo trg src) := by
  unfold moveTo
  infer_instance

instance : Quiet moveIfCurrentTargetIsLocal := by
  unfold moveIfCurrentTargetIsLocal
  infer_instance

instance (op : SQOpcode) [IsTrue (notLine op)] : Quiet (emitDerefOp op) := by
  unfold emitDerefOp
  infer_instance

instance (op : SQOpcode) [IsTrue (notLine op)] (p3 : Int) : Quiet (emit2ArgsOP op p3) := by
  unfold emit2ArgsOP
  infer_instance

instance (op : SQOpcode) [IsTrue (notLine op)] (op3 : Int) : Quiet (emitBinExp op op3) := by
  unfold emitBinExp
  infer_instance

instance (op : SQOpcode) [IsTrue (notLine op)] : Quiet (emitUnaryOP op) := by
  unfold emitUnaryOP
  infer_instance

instance (cons : Scalar) : Quiet (emitLoad cons) := by
  unfold emitLoad
  infer_instance

instance (value : Int) (target : StackPos) : Quiet (emitLoadConstInt value target) := by
  unfold emitLoadConstInt
  infer_instance

instance (bits : BitVec 32) (target : StackPos) :
    Quiet (emitLoadConstFloat bits target) := by
  unfold emitLoadConstFloat
  infer_instance

instance (value : Int) : Quiet (emitInt value) := by
  unfold emitInt
  infer_instance

instance (bits : BitVec 32) : Quiet (emitFloat bits) := by
  unfold emitFloat
  infer_instance

instance (v : Scalar) (target : StackPos) : Quiet (emitConstant v target) := by
  unfold emitConstant
  split <;> infer_instance

instance (tok : Token) : Quiet (emitCompoundLocal tok) := by
  unfold emitCompoundLocal
  infer_instance

instance (tok : Token) : Quiet (emitCompoundField tok) := by
  unfold emitCompoundField
  infer_instance

instance (tok : Token) (pos : Int) : Quiet (emitCompoundOuter tok pos) := by
  unfold emitCompoundOuter
  infer_instance

instance (tok : Token) (etype : EType) (pos : Int) :
    Quiet (emitCompoundArith tok etype pos) := by
  unfold emitCompoundArith
  split <;> infer_instance

instance (etype : EType) (pos : Int) : Quiet (emitAssign etype pos) := by
  unfold emitAssign
  split <;> infer_instance

instance (boundtarget : Operand) : Quiet (emitClosure boundtarget) := by
  unfold emitClosure
  infer_instance

instance (n : Nat) : Quiet (popTargets n) := by
  induction n with
  | zero => exact inferInstanceAs (Quiet (pure () : FuncM Unit))
  | succ n ih =>
    unfold popTargets
    infer_instance

instance (nargs : Nat) : Quiet (emitCall nargs) := by
  unfold emitCall
  infer_instance

instance : Quiet addVarparams := by
  unfold addVarparams
  infer_instance

instance (boundtarget : Operand) (defparams : Nat) :
    Quiet (popHeader boundtarget defparams) := by
  unfold popHeader
  infer_instance

instance (separator : Token) (hasattrs isstatic : Bool) :
    Quiet (emitMember separator hasattrs isstatic) := by
  have (b : Bool) : Quiet (demand (.assertion b)) := .demand _ trivial
  unfold emitMember
  infer_instance

instance (base attrs : Option StackPos) : Quiet (emitClass base attrs) := by
  unfold emitClass
  infer_instance

instance (es : SQExpState) (diff : Int) : Quiet (emitPrefixIncDec es diff) := by
  unfold emitPrefixIncDec
  split <;> infer_instance

instance (es : SQExpState) (diff : Int) : Quiet (emitPostIncDec es diff) := by
  unfold emitPostIncDec
  split <;> infer_instance

instance (es : SQExpState) : Quiet (emitCallee es) := by
  unfold emitCallee
  split <;> infer_instance

instance (op : SQOpcode) [IsTrue (notLine op)] : Quiet (emitShortCircuit op) := by
  unfold emitShortCircuit
  infer_instance

instance : Quiet emitCondition := by
  unfold emitCondition
  infer_instance

instance (trg : StackPos) : Quiet (emitFirstBranch trg) := by
  unfold emitFirstBranch
  infer_instance

instance : Quiet emitJz := by
  unfold emitJz
  infer_instance

instance (pos : Int) : Quiet (jumpBack pos) := by
  unfold jumpBack
  infer_instance

instance : Quiet jumpHole := by
  unfold jumpHole
  infer_instance

instance (name : Text) : Quiet (pushNullVariable name) := by
  unfold pushNullVariable
  infer_instance

instance (idxname valname : Text) : Quiet (emitForeach idxname valname) := by
  unfold emitForeach
  infer_instance

instance : Quiet beginSwitch := by
  unfold beginSwitch
  infer_instance

instance : Quiet beginTry := by
  unfold beginTry
  infer_instance

instance (op : SQOpcode) [IsTrue (notLine op)] (retexp : Option Int) :
    Quiet (emitReturn op retexp) := by
  unfold emitReturn
  infer_instance

instance : Quiet setGenerator := inferInstanceAs (Quiet (update _))

instance (traps : Int) (scope : SQScope) : Quiet (emitBreak traps scope) := by
  unfold emitBreak
  infer_instance

instance : Quiet mainParameters := by
  unfold mainParameters
  infer_instance

/-! ## Positions that are set later -/

namespace SQFuncState

/-- The position of an instruction. -/
def Placed (fs : SQFuncState) (pos : Int) : Prop := 0 ≤ pos ∧ pos < fs.instructions.length

/-- The jumps that wait for their targets are there. -/
structure JumpsPlaced (fs : SQFuncState) : Prop where
  breaks : ∀ p ∈ fs.unresolvedbreaks, fs.Placed p
  continues : ∀ p ∈ fs.unresolvedcontinues, fs.Placed p

/-- So are the instructions at some positions. -/
structure Ready (ps : List Int) (fs : SQFuncState) : Prop where
  jumps : fs.JumpsPlaced
  placed : ∀ p ∈ ps, fs.Placed p

/-- One of the positions. -/
class Among (pos : Int) (ps : List Int) : Prop where
  mem : pos ∈ ps

instance (pos : Int) (ps : List Int) : Among pos (pos :: ps) := ⟨List.mem_cons_self⟩

instance (pos p : Int) (ps : List Int) [h : Among pos ps] : Among pos (p :: ps) :=
  ⟨List.mem_cons_of_mem p h.mem⟩

theorem Placed.of_length {fs gs : SQFuncState} {pos : Int} (h : fs.Placed pos)
    (hlength : fs.instructions.length ≤ gs.instructions.length) : gs.Placed pos :=
  ⟨h.1, Int.lt_of_lt_of_le h.2 (Int.ofNat_le.mpr hlength)⟩

theorem Recorded.placed {fs gs : SQFuncState} {pos : Int} (h : Recorded fs gs pos) :
    gs.Placed pos :=
  ⟨Int.le_trans (Int.natCast_nonneg _) h.le, h.lt⟩

theorem Records.placed {fs gs : SQFuncState} {l l' : List Int} (h : Records fs gs l l')
    (hlength : fs.instructions.length ≤ gs.instructions.length) (hl : ∀ p ∈ l, fs.Placed p) :
    ∀ p ∈ l', gs.Placed p := by
  obtain ⟨new, rfl, hnew⟩ := h
  intro p hp
  obtain hp | hp := List.mem_append.mp hp
  · exact (hnew p hp).placed
  · exact (hl p hp).of_length hlength

variable {e : Bool}

theorem JumpsPlaced.of_frame {fs gs : SQFuncState} (h : CodeFrame e fs gs) (hp : fs.JumpsPlaced) :
    gs.JumpsPlaced :=
  ⟨h.breaks.placed h.length hp.breaks, h.continues.placed h.length hp.continues⟩

theorem Ready.of_frame {ps : List Int} {fs gs : SQFuncState} (h : CodeFrame e fs gs)
    (hp : Ready ps fs) : Ready ps gs :=
  ⟨hp.jumps.of_frame h, fun p hmem => (hp.placed p hmem).of_length h.length⟩

variable (ps : List Int)

instance (priority := low) {α : Type} (m : FuncM α) [hm : Leads (CodeFrame false) m] :
    Leads (Staying (Ready ps)) m where
  out fs a gs h hfs := hfs.of_frame (hm.out fs a gs h)

instance (priority := low) {α : Type} (m : FuncM α) [Quiet m] :
    Reports Event.InRange (Ready ps) m := .weaken fun _ _ => trivial

/-- An instruction that is there is changed. -/
theorem all_demand {pos : Int} {fs : SQFuncState} (h : fs.Placed pos) (m : FuncM Unit)
    [hm : Quiet m] :
    ((demand (.access pos fs.instructions.length) >>= fun _ => m) fs).All Event.InRange :=
  Outcome.all_bind ((Reports.demand (Q := fun _ => True) (Event.access pos _) h).out fs trivial)
    fun _ t _ => hm.out t trivial

theorem leads_setInstruction (n : Nat) (f : SQInstruction → SQInstruction) :
    Leads (Staying (Ready ps)) (update fun fs => { fs with
      instructions := fs.instructions.modify n f } : FuncM Unit) := .update _ fun fs h => by
  have hlength : fs.instructions.length ≤ (fs.instructions.modify n f).length :=
    Nat.le_of_eq (List.length_modify ..).symm
  exact ⟨⟨fun p hp => (h.jumps.breaks p hp).of_length hlength,
    fun p hp => (h.jumps.continues p hp).of_length hlength⟩,
    fun p hp => (h.placed p hp).of_length hlength⟩

section Setting

variable (pos : Int) [hpos : Among pos ps]

instance (arg0 arg1 arg2 arg3 : Operand) :
    Reports Event.InRange (Ready ps) (setInstructionParams pos arg0 arg1 arg2 arg3) where
  out fs h := by
    rw [setInstructionParams, Prog.gets_bind]
    exact all_demand (h.placed pos hpos.mem) _

instance (val : Operand) : Reports Event.InRange (Ready ps) (setInstructionParam0 pos val) where
  out fs h := by
    rw [setInstructionParam0, Prog.gets_bind]
    exact all_demand (h.placed pos hpos.mem) _

instance (val : Int) : Reports Event.InRange (Ready ps) (setInstructionParam1 pos val) where
  out fs h := by
    rw [setInstructionParam1, Prog.gets_bind]
    exact all_demand (h.placed pos hpos.mem) _

instance : Reports Event.InRange (Ready ps) (landHere pos) := by
  unfold landHere
  infer_instance

end Setting

instance (pos : Int) (arg0 arg1 arg2 arg3 : Operand) :
    Leads (Staying (Ready ps)) (setInstructionParams pos arg0 arg1 arg2 arg3) := by
  have := leads_setInstruction ps pos.toNat fun i => { i with
    arg0 := arg0.narrow8, arg1 := arg1.narrow32, arg2 := arg2.narrow8, arg3 := arg3.narrow8 }
  unfold setInstructionParams
  infer_instance

instance (pos : Int) (val : Operand) :
    Leads (Staying (Ready ps)) (setInstructionParam0 pos val) := by
  have := leads_setInstruction ps pos.toNat (withArg0 val)
  unfold setInstructionParam0
  infer_instance

instance (pos val : Int) : Leads (Staying (Ready ps)) (setInstructionParam1 pos val) := by
  have := leads_setInstruction ps pos.toNat fun i =>
    { i with arg1 := (Operand.imm val).narrow32 }
  unfold setInstructionParam1
  infer_instance

instance (pos : Int) : Leads (Staying (Ready ps)) (landHere pos) := by
  unfold landHere
  infer_instance

/-! ## Jumps out of a loop -/

theorem all_back {size : Nat} (h : 0 < size) (fs : SQFuncState) :
    (back size fs).All Event.InRange := by
  have hlast : Event.InRange (.access (size - 1 : Int) size) := by
    constructor <;> omega
  exact (Reports.demand (Q := fun _ => True) _ hlast).out fs trivial

/-- The jumps that get their targets are there. -/
theorem all_resolveJumps (L : JumpList) (target : Int) (n : Nat) (fs : SQFuncState)
    (hn : n ≤ (L.get fs).length) (hplaced : ∀ p ∈ L.get fs, fs.Placed p) :
    (resolveJumps L.get L.put target n fs).All Event.InRange := by
  induction n generalizing fs with
  | zero => exact .of_nil rfl
  | succ n ih =>
    rw [resolveJumps, Prog.gets_bind]
    cases hl : L.get fs with
    | nil =>
      rw [hl] at hn
      cases hn
    | cons p l =>
      rw [hl] at hn hplaced
      refine Outcome.all_bind (all_back (Nat.succ_pos l.length) fs) ?_
      intro _ fs₁ hback
      rw [run_back, if_neg (by simp)] at hback
      cases hback
      rw [Prog.update_bind]
      have hput (q : Int) (hq : q ∈ p :: l) : (L.put l fs).Placed q := by
        rw [Placed, L.code_put]
        exact hplaced q hq
      refine Outcome.all_bind ?_ ?_
      · rw [setInstructionParams, Prog.gets_bind]
        exact all_demand (hput p List.mem_cons_self) _
      · intro _ fs₂ hset
        have hfs₂ := run_setInstructionParams p target _ fs₂ hset
        have hget : L.get fs₂ = l := by rw [hfs₂, L.get_code, L.get_put, List.tail_cons]
        refine ih fs₂ ?_ ?_
        · rw [hget]
          exact Nat.le_of_succ_le_succ hn
        · rw [hget, hfs₂]
          intro q hq
          have hold := hput q (List.mem_cons_of_mem p hq)
          exact hold.of_length (Nat.le_of_eq (List.length_modify ..).symm)

theorem all_resolveBreaks {n : Nat} {fs : SQFuncState} (h : fs.JumpsPlaced)
    (hn : n ≤ fs.unresolvedbreaks.length) : (resolveBreaks n fs).All Event.InRange := by
  rw [resolveBreaks, getCurrentPos, Prog.gets_bind]
  exact all_resolveJumps breakList _ n fs hn h.breaks

instance (before : Nat × Nat) (continueTarget : Int) :
    Reports Event.InRange (Ready ps) (endBreakable before continueTarget) where
  out fs h := by
    rw [endBreakable, Prog.gets_bind]
    refine Outcome.all_bind (all_resolveJumps continueList _ _ fs (Nat.sub_le _ _)
      h.jumps.continues) ?_
    intro _ fs₁ hresolve
    have hfs₁ := (run_resolveJumps continueList _ _ fs fs₁ hresolve).2
    refine Outcome.all_bind ?_ fun _ t _ => .of_nil rfl
    rw [resolveBreaks, getCurrentPos, Prog.gets_bind]
    refine all_resolveJumps breakList _ _ fs₁ ?_ ?_
    · rw [hfs₁]
      exact Nat.sub_le _ _
    · rw [hfs₁]
      intro p hp
      exact (h.jumps.breaks p hp).of_length (Nat.le_of_eq (length_resolved ..).symm)

instance (before : Nat × Nat) (continueTarget : Int) :
    Leads (Staying (Ready ps)) (endBreakable before continueTarget) where
  out fs _ gs hrun h := by
    rw [run_endBreakable before continueTarget fs gs hrun]
    have hlength := (length_resolved ((fs.instructions.length : Int) - 1)
      (fs.unresolvedbreaks.take (fs.unresolvedbreaks.length - before.1)) _).trans
      (length_resolved continueTarget
        (fs.unresolvedcontinues.take (fs.unresolvedcontinues.length - before.2)) fs.instructions)
    refine ⟨⟨?_, ?_⟩, ?_⟩
    · intro p hp
      exact (h.jumps.breaks p (List.mem_of_mem_drop hp)).of_length (Nat.le_of_eq hlength.symm)
    · intro p hp
      exact (h.jumps.continues p (List.mem_of_mem_drop hp)).of_length (Nat.le_of_eq hlength.symm)
    · intro p hp
      exact (h.placed p hp).of_length (Nat.le_of_eq hlength.symm)

instance (nbreaks : Nat) : Reports Event.InRange (Ready ps) (endSwitch nbreaks) where
  out fs h := by
    have hpop : Quiet (popTargets 1) := inferInstance
    refine Outcome.all_bind (hpop.out fs trivial) ?_
    intro _ fs₁ hrun
    have h₁ := Leads.out (R := Staying (Ready ps)) fs _ fs₁ hrun h
    rw [Prog.gets_bind]
    exact Outcome.all_bind (all_resolveBreaks h₁.jumps (Nat.sub_le _ _)) fun _ t _ => .of_nil rfl

/-! ## The ends of expressions and statements -/

instance (trg : StackPos) (jpos : Int) [Among jpos ps] :
    Reports Event.InRange (Ready ps) (endShortCircuit trg jpos) := by
  unfold endShortCircuit
  infer_instance

instance (trg : StackPos) (jzpos endfirstexp jmppos : Int) [Among jzpos ps] [Among jmppos ps] :
    Reports Event.InRange (Ready ps) (emitSecondBranch trg jzpos endfirstexp jmppos) := by
  unfold emitSecondBranch
  infer_instance

instance (jmptrg : Int) (before : Nat × Nat) :
    Reports Event.InRange (Ready ps) (endDo jmptrg before) := by
  unfold endDo
  infer_instance

instance (jmptrg continuetrg : Int) (before : Nat × Nat) :
    Reports Event.InRange (Ready ps) (endDoWhile jmptrg continuetrg before) := by
  unfold endDoWhile
  infer_instance

theorem quiet_addInstructions (exp : List SQInstruction) (hexp : ∀ i ∈ exp, i.op ≠ .opLine) :
    Quiet (addInstructions exp) := by
  induction exp with
  | nil => exact inferInstanceAs (Quiet (pure ()))
  | cons i is ih =>
    have := quiet_addSQInstruction (hexp i List.mem_cons_self)
    have := ih fun i' hi' => hexp i' (List.mem_cons_of_mem i hi')
    unfold addInstructions
    infer_instance

theorem reports_endFor (exp : List SQInstruction) (hexp : ∀ i ∈ exp, i.op ≠ .opLine)
    (jmppos jzpos : Int) (before : Nat × Nat) (hjz : jzpos > 0 → jzpos ∈ ps) :
    Reports Event.InRange (Ready ps) (endFor exp jmppos jzpos before) := by
  have := quiet_addInstructions exp hexp
  have hland : Reports Event.InRange (Ready ps) (when (jzpos > 0) (landHere jzpos)) := by
    unfold when
    split
    · next hpos =>
      have : Among jzpos ps := ⟨hjz hpos⟩
      infer_instance
    · infer_instance
  unfold endFor
  infer_instance

instance (jmppos foreachpos : Int) (before : Nat × Nat) [Among foreachpos ps]
    [Among (foreachpos + 1) ps] :
    Reports Event.InRange (Ready ps) (endForeach jmppos foreachpos before) := by
  unfold endForeach
  infer_instance

instance (trappos : Int) [Among trappos ps] :
    Reports Event.InRange (Ready ps) (endTry trappos) := by
  unfold endTry
  infer_instance

instance (exid : Text) (trappos : Int) [Among trappos ps] :
    Reports Event.InRange (Ready ps) (beginCatch exid trappos) := by
  unfold beginCatch
  infer_instance

instance (jmppos : Int) [Among jmppos ps] :
    Reports Event.InRange (Ready ps) (endCatch jmppos) := by
  unfold endCatch
  infer_instance

/-! ## What they leave in place -/

instance (trg : StackPos) (jpos : Int) : Leads (Staying (Ready ps)) (endShortCircuit trg jpos) := by
  unfold endShortCircuit
  infer_instance

instance (exp : List SQInstruction) (jmppos jzpos : Int) (before : Nat × Nat) :
    Leads (Staying (Ready ps)) (endFor exp jmppos jzpos before) := by
  unfold endFor
  infer_instance

instance (jmppos foreachpos : Int) (before : Nat × Nat) :
    Leads (Staying (Ready ps)) (endForeach jmppos foreachpos before) := by
  unfold endForeach
  infer_instance

instance (trappos : Int) : Leads (Staying (Ready ps)) (endTry trappos) := by
  unfold endTry
  infer_instance

instance (exid : Text) (trappos : Int) : Leads (Staying (Ready ps)) (beginCatch exid trappos) := by
  unfold beginCatch
  infer_instance

instance (jmppos : Int) : Leads (Staying (Ready ps)) (endCatch jmppos) := by
  unfold endCatch
  infer_instance

instance (c : CaseJumps) : Leads (Staying (Ready ps)) (beginCase c) := by
  unfold beginCase
  infer_instance

instance (expr : StackPos) (skipcondjmp : Int) :
    Leads (Staying (Ready ps)) (emitCase expr skipcondjmp) := by
  unfold emitCase
  infer_instance

/-! ## Positions that are found -/

/-- The positions that a program finds are there when it returns. -/
class Marks {α : Type} (ps : List Int) (m : FuncM α) (found : α → List Int) : Prop where
  out : ∀ fs a gs, Ready ps fs → Prog.run m fs = (.ok a, gs) → ∀ p ∈ found a, gs.Placed p

theorem placed_last {fs : SQFuncState} (h : 0 < fs.instructions.length) :
    fs.Placed ((fs.instructions.length : Int) - 1) := by
  constructor <;> omega

/-- There is an instruction after one was emitted. -/
theorem length_pos_of_emit {op : SQOpcode} {args : List Operand} {fs gs : SQFuncState} {u : Unit}
    (h : Prog.run (addInstruction op args) fs = (.ok u, gs)) : 0 < gs.instructions.length := by
  have hrun : Prog.run (addSQInstruction (.make op args)) fs = (.ok u, gs) := h
  rw [run_addSQInstruction] at hrun
  split at hrun
  · cases congrArg Prod.fst hrun
  · cases hrun
    cases fs.fusion (.make op args) <;> simp [apply, setLast, pushInstruction]

theorem length_pos_of_zero {fs : SQFuncState} (h : fs.Placed 0) : 0 < fs.instructions.length :=
  Int.ofNat_lt.mp h.2

theorem placed_zero {fs : SQFuncState} (h : 0 < fs.instructions.length) : fs.Placed 0 :=
  ⟨Int.le_refl 0, Int.ofNat_lt.mpr h⟩

section Found

variable {α β : Type}

instance (op : SQOpcode) (args : List Operand) :
    Marks ps (addInstruction op args) fun _ => [0] where
  out fs _ gs _ h p hp := by
    rw [List.mem_singleton.mp hp]
    exact placed_zero (length_pos_of_emit h)

instance [hz : Among 0 ps] : Marks ps getCurrentPos fun pos => [pos] where
  out fs pos gs hfs h p hp := by
    rw [List.mem_singleton.mp hp]
    cases h
    exact placed_last (length_pos_of_zero (hfs.placed 0 hz.mem))

theorem marks_pure (found : α → List Int) (a : α) (h : ∀ p ∈ found a, p ∈ ps) :
    Marks ps (pure a : FuncM α) found where
  out fs _ gs hfs hrun p hp := by
    cases hrun
    exact hfs.placed p (h p hp)

/-- What comes before leaves the instructions there. -/
theorem marks_bind (found : β → List Int) (m : FuncM α) (k : α → FuncM β)
    [hm : Leads (Staying (Ready ps)) m] (hk : ∀ a, Marks ps (k a) found) :
    Marks ps (m >>= k) found where
  out fs b gs hfs h := by
    obtain ⟨a, fs₁, h₁, h₂⟩ := Prog.run_bind_inv h
    exact (hk a).out fs₁ b gs (hm.out fs a fs₁ h₁ hfs) h₂

/-- What comes after knows the positions that were found before. -/
theorem marks_through (found : α → List Int) (found' : β → List Int) (m : FuncM α)
    (k : α → FuncM β) [hm : Marks ps m found] [hlead : Leads (Staying (Ready ps)) m]
    (hk : ∀ a, Marks (found a ++ ps) (k a) found') : Marks ps (m >>= k) found' where
  out fs b gs hfs h := by
    obtain ⟨a, fs₁, h₁, h₂⟩ := Prog.run_bind_inv h
    have hfs₁ := hlead.out fs a fs₁ h₁ hfs
    refine (hk a).out fs₁ b gs ⟨hfs₁.jumps, ?_⟩ h₂
    intro p hp
    obtain hp | hp := List.mem_append.mp hp
    · exact hm.out fs a fs₁ hfs h₁ p hp
    · exact hfs₁.placed p hp

theorem marks_current (op : SQOpcode) (args : List Operand) :
    Marks ps (addInstruction op args >>= fun _ => getCurrentPos) fun pos => [pos] :=
  marks_through ps (fun _ => [0]) _ _ _ fun _ => inferInstanceAs (Marks (0 :: ps) getCurrentPos _)

/-- The position of an instruction that was emitted is passed on. -/
theorem marks_emit (found : β → List Int) (op : SQOpcode) (args : List Operand)
    (k : Int → FuncM β) (hk : ∀ pos, Marks (pos :: 0 :: ps) (k pos) found) :
    Marks ps (addInstruction op args >>= fun _ => getCurrentPos >>= k) found := by
  refine marks_through ps (fun _ => [0]) found _ _ fun _ => ?_
  exact marks_through (0 :: ps) (fun pos => [pos]) found getCurrentPos k hk

end Found

instance : Marks ps emitJz fun pos => [pos] := marks_bind ps _ _ _ fun _ => marks_current ps _ _

instance : Marks ps jumpHole fun pos => [pos] := marks_current ps _ _

instance (op : SQOpcode) : Marks ps (emitShortCircuit op) fun r => [r.2] := by
  refine marks_bind ps _ _ _ fun firstExp => marks_bind ps _ _ _ fun trg => ?_
  refine marks_emit ps _ _ _ _ fun jpos => marks_bind _ _ _ _ fun _ => ?_
  exact marks_pure _ _ _ (by simp)

instance : Marks ps emitCondition fun r => [r.1] := by
  refine marks_bind ps _ _ _ fun cond => ?_
  refine marks_emit ps _ _ _ _ fun jzpos => marks_bind _ _ _ _ fun _ => ?_
  exact marks_pure _ _ _ (by simp)

instance (trg : StackPos) : Marks ps (emitFirstBranch trg) fun _ => [0] := by
  refine marks_bind ps _ _ _ fun firstExp => marks_bind ps _ _ _ fun _ => ?_
  refine marks_bind ps _ _ _ fun endfirstexp => ?_
  refine marks_through ps (fun _ => [0]) _ (addInstruction .opJmp _) _ fun _ => ?_
  exact marks_pure _ _ _ (by simp)

instance : Marks ps beginTry fun pos => [pos] := by
  have : Leads (CodeFrame false) (update fun fs => { fs with
    traps := fs.traps + 1
    breaktargets := addTraps 1 fs.breaktargets
    continuetargets := addTraps 1 fs.continuetargets } : FuncM Unit) :=
    leads_of_code false _ fun _ => rfl
  refine marks_through ps (fun _ => [0]) _ _ _ fun _ => marks_bind _ _ _ _ fun _ => ?_
  exact inferInstanceAs (Marks (0 :: ps) getCurrentPos _)

instance (trappos : Int) : Marks ps (endTry trappos) fun pos => [pos] := by
  refine marks_bind ps _ _ _ fun _ => marks_bind ps _ _ _ fun _ => marks_bind ps _ _ _ fun _ => ?_
  refine marks_through ps (fun pos => [pos]) _ _ _ fun jmppos => marks_bind _ _ _ _ fun _ => ?_
  exact marks_pure _ _ _ (by simp)

instance (expr : StackPos) (skipcondjmp : Int) :
    Marks ps (emitCase expr skipcondjmp) fun pos => [pos] := by
  refine marks_bind ps _ _ _ fun trg => marks_bind ps _ _ _ fun fs => ?_
  refine marks_bind ps _ _ _ fun eqtarget => ?_
  refine marks_through ps (fun _ => [0]) _ _ _ fun _ => marks_bind _ _ _ _ fun _ => ?_
  refine marks_bind _ _ _ _ fun _ => marks_bind _ _ _ _ fun _ => ?_
  exact inferInstanceAs (Marks (0 :: ps) getCurrentPos _)

theorem fusion_postforeach (fs : SQFuncState) (args : List Operand) :
    fs.fusion (.make .opPostforeach args) = .push (.make .opPostforeach args) := by
  unfold fusion
  split
  · split
    · rfl
    · rfl
  · rfl

theorem length_postforeach {fs gs : SQFuncState} {args : List Operand} {u : Unit}
    (h : Prog.run (addInstruction .opPostforeach args) fs = (.ok u, gs)) :
    gs.instructions.length = fs.instructions.length + 1 := by
  have hrun : Prog.run (addSQInstruction (.make .opPostforeach args)) fs = (.ok u, gs) := h
  rw [run_addSQInstruction, fusion_postforeach, if_neg (fun h => by cases h.1)] at hrun
  cases hrun
  rw [instructions_push, List.length_append, List.length_singleton]

/-- `_OP_POSTFOREACH` takes the place after `_OP_FOREACH`. -/
instance (idxname valname : Text) :
    Marks ps (emitForeach idxname valname) fun r => [r.2, r.2 + 1] := by
  refine marks_bind ps _ _ _ fun container => marks_bind ps _ _ _ fun indexpos => ?_
  refine marks_bind ps _ _ _ fun _ => marks_bind ps _ _ _ fun _ => marks_bind ps _ _ _ fun _ => ?_
  constructor
  intro fs r gs _ h
  obtain ⟨_, fs₁, hadd, h⟩ := Prog.run_bind_inv h
  rw [getCurrentPos, Prog.run_gets_bind] at h
  obtain ⟨_, fs₂, hpost, h⟩ := Prog.run_bind_inv h
  obtain rfl : fs₂ = gs := congrArg Prod.snd h
  cases congrArg Prod.fst h
  have hpos := length_pos_of_emit hadd
  have hlength := length_postforeach hpost
  intro p hp
  obtain rfl | hp := List.mem_cons.mp hp
  · constructor <;> omega
  · obtain rfl := List.mem_singleton.mp hp
    constructor <;> omega

/-! ## The cases of a `switch` -/

theorem reports_landSkip {skipcondjmp : Int} (hskip : skipcondjmp ≠ -1 → skipcondjmp ∈ ps) :
    Reports Event.InRange (Ready ps) (when (skipcondjmp ≠ -1) (landHere skipcondjmp)) := by
  unfold when
  split
  · next hne =>
    have : Among skipcondjmp ps := ⟨hskip hne⟩
    infer_instance
  · infer_instance

theorem reports_beginCase (c : CaseJumps) (hc : c.bfirst = false → c.tonextcondjmp ∈ ps) :
    Reports Event.InRange (Ready ps) (beginCase c) := by
  unfold beginCase
  split
  · infer_instance
  · next hfirst =>
    have : Among c.tonextcondjmp ps := ⟨hc (Bool.eq_false_iff.mpr hfirst)⟩
    infer_instance

theorem reports_emitCase (expr : StackPos) {skipcondjmp : Int}
    (hskip : skipcondjmp ≠ -1 → skipcondjmp ∈ ps) :
    Reports Event.InRange (Ready ps) (emitCase expr skipcondjmp) := by
  have := reports_landSkip ps hskip
  have (islocal : Bool) (trg : StackPos) : Quiet (emitCase.caseTarget islocal trg) := by
    unfold emitCase.caseTarget
    infer_instance
  unfold emitCase
  infer_instance

/-- The jump over the next test is there, if there is one. -/
theorem placed_of_beginCase {c : CaseJumps} (hc : c.bfirst = true → c.skipcondjmp = -1)
    {fs gs : SQFuncState} {skipcondjmp : Int} (hfs : Ready ps fs)
    (h : Prog.run (beginCase c) fs = (.ok skipcondjmp, gs)) (hne : skipcondjmp ≠ -1) :
    gs.Placed skipcondjmp := by
  unfold beginCase at h
  split at h
  · next hfirst =>
    cases h
    exact absurd (hc hfirst) hne
  · have hmarks : Marks ps (do
        let skipcondjmp ← jumpHole
        landHere c.tonextcondjmp
        pure skipcondjmp) fun pos => [pos] := by
      refine marks_through ps (fun pos => [pos]) _ _ _ fun pos => marks_bind _ _ _ _ fun _ => ?_
      exact marks_pure _ _ _ (by simp)
    exact hmarks.out fs _ gs hfs h _ List.mem_cons_self

/-! ## Lines -/

/-- A line takes the place of another one only where there is one. -/
theorem all_addLine {fs : SQFuncState} (h : fs.Lined) (args : List Operand) :
    (addInstruction .opLine args fs).All Event.InRange := by
  obtain ⟨i, hi⟩ : ∃ i, SQInstruction.make .opLine args = i := ⟨_, rfl⟩
  have hop : i.op = .opLine := by
    rw [← hi]
    rfl
  have hback : (when (fs.fusion i = .line i) (back fs.lineinfos.length) fs).All Event.InRange := by
    unfold when
    split
    · next hline =>
      refine all_back (List.length_pos_iff.mpr fun hnil => ?_) fs
      unfold fusion at hline
      split at hline
      · next pi hlast =>
        split at hline
        · rw [peephole_line fs pi hop] at hline
          split at hline
          · next hpi =>
            rw [List.getLast?_eq_getElem?] at hlast
            exact h.unlined hnil _ ⟨pi, hlast, hpi⟩
          · cases hline
        · cases hline
      · cases hline
    · exact .of_nil rfl
  show (addSQInstruction (.make .opLine args) fs).All Event.InRange
  rw [hi, addSQInstruction, Prog.gets_bind]
  have hemit : Quiet (report (.emit fs i) rfl) := .report _ _ trivial
  refine Outcome.all_bind (hemit.out fs trivial) fun _ t ht => ?_
  cases ht
  exact Outcome.all_bind hback fun _ t _ => .of_nil rfl

theorem all_addLineInfos {fs : SQFuncState} (h : fs.Lined) (line : Int) (lineop force : Bool) :
    (addLineInfos line lineop force fs).All Event.InRange := by
  have hadd : ((when lineop (addInstruction .opLine [.imm 0, .imm line])) fs).All
      Event.InRange := by
    unfold when
    split
    · exact all_addLine h _
    · exact .of_nil rfl
  rw [addLineInfos, Prog.gets_bind]
  unfold when at hadd ⊢
  split
  · rw [getCurrentPos, Prog.gets_bind]
    exact Outcome.all_bind hadd fun _ t _ => Reports.out (Q := fun _ => True) t trivial
  · exact .of_nil rfl

theorem all_finishFunction {fs : SQFuncState} (h : fs.Lined) (line : Int) (lineinfo : Bool) :
    (finishFunction line lineinfo fs).All Event.InRange :=
  Outcome.all_bind (all_addLineInfos h line lineinfo true) fun _ t _ =>
    Reports.out (Q := fun _ => True) t trivial

theorem all_finishMain {fs : SQFuncState} (h : fs.Lined) (line : Int) (lineinfo : Bool)
    (stacksize : Nat) : (finishMain line lineinfo stacksize fs).All Event.InRange := by
  refine Outcome.all_bind (Reports.out (Q := fun _ => True) fs trivial) fun _ fs₁ hsize => ?_
  have hlined := (Leads.out (R := LinesKept) _ _ _ hsize).lined h
  exact Outcome.all_bind (all_addLineInfos hlined line lineinfo true) fun _ t _ =>
    Reports.out (Q := fun _ => True) t trivial

end SQFuncState
end Sqnim.Compiler
