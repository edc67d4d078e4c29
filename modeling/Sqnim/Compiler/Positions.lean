import Sqnim.Compiler.Encoding
import Sqnim.Compiler.State

/-!
# Positions on the stack of a function

The function state keeps every operand readable as long as no position reaches the sentinel, and
no call returns to a position that does not fit a signed field.
-/
namespace Sqnim.Compiler

open Sqnim.Lib
open Prog (raise gets update when report demand)

namespace SQFuncState

/-! ## The function state -/

/-- No position is above the sentinel. -/
class Bounded (vlocals : List SQLocalVarInfo) : Prop where
  le : vlocals.length ≤ 255

instance : Goodness SQFuncState where
  good fs := Bounded fs.vlocals ∧ Good fs.targetstack ∧ Good fs.instructions ∧ Good fs.functions

section State

variable (fs : SQFuncState)

instance [h : Good fs] : Bounded fs.vlocals := h.out.1

instance [h : Good fs] : Good fs.targetstack := h.out.2.1

instance [h : Good fs] : Good fs.instructions := h.out.2.2.1

instance [h : Good fs] : Good fs.functions := h.out.2.2.2

instance (returnexp : Int) (vlocals : List SQLocalVarInfo) (targetstack : List StackPos)
    (stacksize : Nat) (varparams bgenerator : Bool) (unresolvedbreaks unresolvedcontinues : List Int)
    (functions : List SQFunctionProto) (parameters : List Text) (outervalues : List SQOuterVar)
    (instructions : List SQInstruction) (localvarinfos : List SQLocalVarInfo)
    (literals : List Scalar) (name : Option Text) (sourcename : Text) (lineinfos : List SQLineInfo)
    (hasParent : Bool) (breaktargets continuetargets : List Int) (defaultparams : List StackPos)
    (lastline traps outers : Int) (optimization : Bool) [hv : Bounded vlocals]
    [ht : Good targetstack] [hi : Good instructions] [hf : Good functions] :
    Good (SQFuncState.mk returnexp vlocals targetstack stacksize varparams bgenerator
      unresolvedbreaks unresolvedcontinues functions parameters outervalues instructions
      localvarinfos literals name sourcename lineinfos hasParent breaktargets continuetargets
      defaultparams lastline traps outers optimization) := ⟨hv, ht, hi, hf⟩

instance : Bounded [] := ⟨Nat.zero_le _⟩

instance (vlocals : List SQLocalVarInfo) [h : Bounded vlocals] : Bounded vlocals.dropLast where
  le := by
    have := h.le
    rw [List.length_dropLast]
    omega

instance (c : Prop) [Decidable c] (l l' : List SQLocalVarInfo) [h : Bounded l] [h' : Bounded l'] :
    Bounded (if c then l else l') := by
  split
  · exact h
  · exact h'

instance (hasParent : Bool) (name : Option Text) (sourcename : Text) :
    Good (create hasParent name sourcename) := by
  unfold create
  infer_instance

instance [h : Good fs] (i : SQInstruction) [Good i] : Good (fs.pushInstruction i) := by
  unfold pushInstruction
  infer_instance

instance [h : Good fs] (i : SQInstruction) [Good i] : Good (fs.setLast i) := by
  unfold setLast
  infer_instance

theorem apply_good [h : Good fs] (f : Fusion) (hf : Goodness.good f) : Good (fs.apply f) := by
  unfold apply
  split
  · next i =>
    have : Good i := ⟨hf⟩
    infer_instance
  · next i =>
    have : Good i := ⟨hf⟩
    infer_instance
  · next i =>
    have : Good i := ⟨hf⟩
    infer_instance
  · next i j =>
    have : Good i := ⟨hf.1⟩
    have : Good j := ⟨hf.2⟩
    infer_instance
  · next i =>
    have : Good i := ⟨hf⟩
    infer_instance

theorem fusion_good [h : Good fs] (i : SQInstruction) (hi : Goodness.good i) :
    Goodness.good (fs.fusion i) := by
  unfold fusion
  split
  · next pi hpi =>
    split
    · exact fs.peephole_good pi i (h.out.2.2.1.out pi (List.mem_of_getLast? hpi)) hi
    · exact hi
  · exact hi

instance [h : Good fs] (target : StackPos) : Good (fs.dropTarget target) := by
  unfold dropTarget
  split
  · next pi hpi =>
    split
    · have : Good { pi with arg0 := .none } :=
        ⟨good_dropTarget pi (h.out.2.2.1.out pi (List.mem_of_getLast? hpi))⟩
      infer_instance
    · exact h
  · exact h

instance [h : Good fs] : Good fs.buildProto where
  out := .mk _ _ _ _ _ _ _ _ _ _ _ _ _ (fun i hi => (h.out.2.2.1.out i hi).1.encoded
    (h.out.2.2.1.out i hi).2) h.out.2.2.2.out

end State

/-! ## Its operations -/

-- the search follows every step of a function
set_option synthInstance.maxSize 800

instance : Audited Event := ⟨Event.Addressable, Event.Encoded⟩

instance (size : Nat) : Keeps (back size) := keeps_demand _ trivial

instance : Keeps getCurrentPos := inferInstanceAs (Keeps (gets _))

instance : Keeps getStackSize := inferInstanceAs (Keeps (gets _))

instance : Keeps snoozeOpt := inferInstanceAs (Keeps (update _))

instance (cons : Scalar) : Keeps (getConstant cons) := by
  apply Keeps.bind
  intro lits _
  split
  · infer_instance
  · infer_instance

/-- A jump or a count is set: operand 0 is a number afterwards. -/
theorem good_setNumbers (i : SQInstruction) (v0 v1 v2 v3 : Int) : Goodness.good { i with
    arg0 := (Operand.imm v0).narrow8, arg1 := (Operand.imm v1).narrow32
    arg2 := (Operand.imm v2).narrow8, arg3 := (Operand.imm v3).narrow8 } :=
  ⟨⟨trivial, trivial, fun _ => trivial, trivial, trivial⟩, fun _ _ h => by cases h⟩

instance (pos v0 v1 v2 v3 : Int) :
    Keeps (setInstructionParams pos (.imm v0) (.imm v1) (.imm v2) (.imm v3)) := by
  have (size : Nat) : Keeps (demand (.access pos size) : FuncM Unit) := keeps_demand _ trivial
  have (fs : GoodOnes SQFuncState) : Good (fs.val.instructions.modify pos.toNat fun i => { i with
      arg0 := (Operand.imm v0).narrow8, arg1 := (Operand.imm v1).narrow32
      arg2 := (Operand.imm v2).narrow8, arg3 := (Operand.imm v3).narrow8 }) :=
    good_modify _ _ _ inferInstance fun i _ _ => good_setNumbers i v0 v1 v2 v3
  unfold setInstructionParams
  infer_instance

instance (pos val : Int) : Keeps (setInstructionParam1 pos val) := by
  have (size : Nat) : Keeps (demand (.access pos size) : FuncM Unit) := keeps_demand _ trivial
  have (fs : GoodOnes SQFuncState) : Good (fs.val.instructions.modify pos.toNat fun i =>
      { i with arg1 := (Operand.imm val).narrow32 }) :=
    good_modify _ _ _ inferInstance fun i _ hi =>
      ⟨⟨hi.1.arg0, trivial, fun _ => trivial, hi.1.arg2, hi.1.arg3⟩, hi.2⟩
  unfold setInstructionParam1
  infer_instance

theorem fits_withArg0 (val : Operand) (i : SQInstruction) (hv : val.Fits) (hi : i.Fits) :
    (withArg0 val i).Fits :=
  ⟨hv.narrow8, hi.arg1, hi.narrow, hi.arg2, hi.arg3⟩

instance (pos : Int) (val : Operand) [hv : Good val] : Keeps (setInstructionParam0 pos val) where
  sound fs hs := by
    unfold setInstructionParam0
    rw [Prog.gets_bind]
    apply sound_demand _ _ _ trivial
    intro hm
    have hpos : 0 ≤ pos ∧ pos < fs.instructions.length := of_decide_eq_true hm
    have hlt : pos.toNat < fs.instructions.length := by omega
    have hi : Goodness.good fs.instructions[pos.toNat] :=
      hs.out.2.2.1.out _ (List.getElem_mem hlt)
    have hf := fits_withArg0 val _ hv.out hi.1
    rw [List.getElem?_eq_getElem hlt]
    show ((report (Event.patch (withArg0 val fs.instructions[pos.toNat])) rfl >>= _ :
      FuncM Unit) fs).Sound
    apply sound_report _ _ _ _ hf.encoded
    intro hr
    apply sound_update
    have hl : Good (fs.instructions.modify pos.toNat (withArg0 val)) := by
      apply good_modify _ _ _ inferInstance
      intro i hget _
      rw [List.getElem?_eq_getElem hlt] at hget
      cases hget
      exact ⟨hf, hr⟩
    infer_instance

/-- A position below the sentinel can be handed out. -/
theorem encoded_alloc (inUse : Nat) (h : inUse < 255) : (Event.alloc inUse).Encoded := by
  show (inUse : Int) % 256 = inUse ∧ (inUse : Int) ≠ 255
  omega

instance : Keeps allocStackPos where
  sound fs hs := by
    unfold allocStackPos
    rw [Prog.gets_bind, Prog.gets_bind]
    apply sound_report _ _ _ _ (encoded_alloc _)
    intro hlt
    have hlt : fs.vlocals.length < 255 := hlt
    have hb : Bounded (fs.vlocals ++ [temporary]) := ⟨by simp; omega⟩
    rw [Prog.update_bind]
    apply sound_check
    intro _
    have : Good (⟨fs.vlocals.length⟩ : StackPos) := ⟨hlt⟩
    apply Keeps.sound
    infer_instance

instance (n : StackPos) [Good n] : Keeps (pushTargetAt n) := by
  unfold pushTargetAt
  infer_instance

instance : Keeps pushTarget := by
  unfold pushTarget
  infer_instance

instance : Keeps topTarget := by
  have (fs : SQFuncState) : Keeps (demand (.top fs) : FuncM Unit) := keeps_demand _ trivial
  unfold topTarget
  infer_instance

instance : Keeps popTarget := by
  have (fs : SQFuncState) : Keeps (demand (.pop fs) : FuncM Unit) := keeps_demand _ trivial
  unfold popTarget
  infer_instance

theorem good_dropLocal (fs : SQFuncState) (lvi : SQLocalVarInfo) (h : Good fs) :
    Good (dropLocal fs lvi) := by
  unfold dropLocal
  split
  · infer_instance
  · infer_instance

theorem good_dropLocals (lvis : List SQLocalVarInfo) (fs : SQFuncState) (h : Good fs) :
    Good (lvis.foldl dropLocal fs) := by
  induction lvis generalizing fs with
  | nil => exact h
  | cons lvi lvis ih => exact ih _ (good_dropLocal fs lvi h)

instance (n : Nat) : Keeps (setStackSize n) :=
  keeps_update _ fun fs hs => good_dropLocals _ fs hs

instance (name : Text) : Keeps (pushLocalVariable name) where
  sound fs hs := by
    unfold pushLocalVariable getCurrentPos
    rw [Prog.gets_bind, Prog.gets_bind]
    show ((report (Event.alloc fs.vlocals.length) rfl >>= _ : FuncM StackPos) fs).Sound
    apply sound_report _ _ _ _ (encoded_alloc _)
    intro hlt
    have hlt : fs.vlocals.length < 255 := hlt
    have hb (lvi : SQLocalVarInfo) : Bounded (fs.vlocals ++ [lvi]) := ⟨by simp; omega⟩
    rw [Prog.update_bind]
    have : Good (⟨fs.vlocals.length⟩ : StackPos) := ⟨hlt⟩
    apply Keeps.sound
    infer_instance

theorem good_getLocalVariable (fs : SQFuncState) (name : Text) (pos : StackPos) (h : Good fs)
    (hp : fs.getLocalVariable name = some pos) : Good pos where
  out := by
    obtain ⟨k, hk, rfl⟩ := Option.map_eq_some_iff.mp hp
    obtain ⟨hlt, _⟩ := List.findIdx?_eq_some_iff_getElem.mp hk
    rw [List.length_reverse] at hlt
    have := h.out.1.le
    show fs.vlocals.length - 1 - k < 255
    omega

theorem good_markLocalAsOuter (fs : SQFuncState) (pos : StackPos) (h : Good fs) :
    Good (fs.markLocalAsOuter pos) := by
  have : Bounded (fs.vlocals.modify pos.idx fun lvi => { lvi with endOp := -1 }) :=
    ⟨by rw [List.length_modify]; exact h.out.1.le⟩
  unfold markLocalAsOuter
  infer_instance

theorem good_getOuterVariable (name : Text) (fs : SQFuncState) (parents : List SQFuncState)
    (h : Good fs) (hp : Good parents) :
    Good (getOuterVariable name fs parents).2.1 ∧ Good (getOuterVariable name fs parents).2.2 := by
  induction parents generalizing fs with
  | nil =>
    unfold getOuterVariable
    split
    · exact ⟨h, hp⟩
    · exact ⟨h, hp⟩
  | cons parent rest ih =>
    have hparent : Good parent := ⟨hp.out parent List.mem_cons_self⟩
    have hrest : Good rest := ⟨fun p hp' => hp.out p (List.mem_cons_of_mem _ hp')⟩
    have hout (v : SQOuterVar) : Good (fs.addOuterValue v) := by
      unfold addOuterValue
      infer_instance
    obtain ⟨h₁, h₂⟩ := ih parent hparent hrest
    simp only [getOuterVariable]
    split
    · exact ⟨h, hp⟩
    · split
      · next pos hpos =>
        have := good_markLocalAsOuter parent pos hparent
        exact ⟨hout _, inferInstance⟩
      · split
        · next pos parent' rest' he =>
          rw [he] at h₁ h₂
          have : Good parent' := h₁
          have : Good rest' := h₂
          exact ⟨hout _, inferInstance⟩
        · next parent' rest' he =>
          rw [he] at h₁ h₂
          have : Good parent' := h₁
          have : Good rest' := h₂
          exact ⟨h, inferInstance⟩

instance (name : Text) : Keeps (addParameter name) := by
  unfold addParameter
  infer_instance

instance (trg : StackPos) : Keeps (addDefaultParam trg) := by
  unfold addDefaultParam
  infer_instance

theorem keeps_addSQInstruction (i : SQInstruction) (hi : i.Fits) : Keeps (addSQInstruction i) where
  sound fs hs := by
    unfold addSQInstruction
    rw [Prog.gets_bind]
    apply sound_report _ _ _ _ hi.encoded
    intro hr
    have hr : i.Returnable := hr
    have hf := fusion_good fs i ⟨hi, hr⟩
    have hu : ((update fun fs => fs.apply (fs.fusion i) : FuncM Unit) fs).Sound :=
      sound_update _ fs (fs.apply_good _ hf)
    unfold Prog.when
    split
    · exact sound_demand _ _ _ trivial fun _ => hu
    · exact hu

instance (op : SQOpcode) (args : List Operand) [h : Good args] : Keeps (addInstruction op args) :=
  keeps_addSQInstruction _ (SQInstruction.make_fits op args h.out)

instance (line : Int) (lineop force : Bool) : Keeps (addLineInfos line lineop force) := by
  unfold addLineInfos
  infer_instance

instance : Keeps discardTarget := by
  have (fs : SQFuncState) (target : StackPos) :
      Keeps (report (.discard fs target) rfl : FuncM Unit) := keeps_report _ _ id
  unfold discardTarget
  infer_instance

end SQFuncState
end Sqnim.Compiler
