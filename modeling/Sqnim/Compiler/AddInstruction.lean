import Sqnim.Compiler.FuncState

/-!
# AddInstruction

What a new instruction makes of the instructions before it, by what the optimiser does.
-/
namespace Sqnim.Compiler

open Sqnim.Lib

namespace SQFuncState

/-- The jumps whose target is set later. The optimiser never changes one of them. -/
def jumps : SQOpcode → Bool
  | .opJmp | .opJz | .opJcmp => true
  | _ => false

/-- The instruction is appended, but for its operand 0; or it makes one with the instruction before
it; or the call before a return becomes a tail call. -/
inductive Added (fs : SQFuncState) (i : SQInstruction) : Prop where
  | pushed (i' : SQInstruction) (h : fs.fusion i = .push i') (hop : i'.op = i.op)
  | replaced (pi p : SQInstruction) (hlast : fs.instructions.getLast? = some pi)
      (hopt : fs.optimization = true) (hjump : jumps pi.op = false)
      (h : (fs.apply (fs.fusion i)).instructions = fs.instructions.dropLast ++ [p])
  | changed (pi : SQInstruction) (hlast : fs.instructions.getLast? = some pi)
      (hopt : fs.optimization = true) (hop : pi.op = .opCall)
      (h : fs.fusion i = .change { pi with op := .opTailcall } i)

theorem length_pos_of_last {fs : SQFuncState} {pi : SQInstruction}
    (hlast : fs.instructions.getLast? = some pi) : 0 < fs.instructions.length :=
  List.length_pos_iff.mpr (List.ne_nil_of_mem (List.mem_of_getLast? hlast))

theorem length_setLast {fs : SQFuncState} {pi : SQInstruction}
    (hlast : fs.instructions.getLast? = some pi) (p : SQInstruction) :
    (fs.setLast p).instructions.length = fs.instructions.length := by
  have hpos := length_pos_of_last hlast
  rw [setLast, List.length_append, List.length_dropLast, List.length_singleton]
  omega

theorem instructions_push (fs : SQFuncState) (i : SQInstruction) :
    (fs.apply (.push i)).instructions = fs.instructions ++ [i] := rfl

theorem instructions_change (fs : SQFuncState) (pi i : SQInstruction) :
    (fs.apply (.change pi i)).instructions = fs.instructions.dropLast ++ [pi, i] := by
  show fs.instructions.dropLast ++ [pi] ++ [i] = _
  rw [List.append_assoc]
  rfl

/-- What the optimiser may make of a new instruction behind `pi`. -/
inductive Peephole (fs : SQFuncState) (pi i : SQInstruction) : Prop where
  | push (i' : SQInstruction) (h : fs.peephole pi i = .push i') (hop : i'.op = i.op)
  | merge (p : SQInstruction) (h : fs.peephole pi i = .merge p) (hjump : jumps pi.op = false)
  | retarget (p : SQInstruction) (h : fs.peephole pi i = .retarget p) (hjump : jumps pi.op = false)
  | line (h : fs.peephole pi i = .line i) (hjump : jumps pi.op = false)
  | change (h : fs.peephole pi i = .change { pi with op := .opTailcall } i) (hop : pi.op = .opCall)

theorem jumps_of_op {pi : SQInstruction} {op : SQOpcode} (h : pi.op = op)
    (hop : jumps op = false) : jumps pi.op = false := by
  rw [h]
  exact hop

theorem jumps_of_retargets {op : SQOpcode} (h : retargets op = true) : jumps op = false := by
  cases op <;> first | rfl | cases h

theorem jumps_of_literalKind {op : SQOpcode} {aat : Int} (h : literalKind op = some aat) :
    jumps op = false := by
  cases op <;> first | rfl | cases h

theorem peephole_cases (fs : SQFuncState) (pi i : SQInstruction) : Peephole fs pi i := by
  have hp : fs.peephole pi i = fs.peephole pi i := rfl
  conv at hp => rhs; unfold peephole
  split at hp
  case h_1 =>
    split at hp
    next hc => exact .merge _ hp (jumps_of_op hc.1 rfl)
    next => exact .push i hp rfl
  case h_2 | h_3 | h_4 =>
    split at hp
    next => exact .push _ hp rfl
    next => exact .push i hp rfl
  case h_5 =>
    split at hp
    next hc => exact .change hp hc.2.2.1
    next =>
      split at hp
      next hc => exact .merge _ hp (jumps_of_op hc rfl)
      next => exact .push i hp rfl
  case h_8 =>
    split at hp
    next aat hkind =>
      split at hp
      next => exact .merge _ hp (jumps_of_literalKind hkind)
      next => exact .push i hp rfl
    next => exact .push i hp rfl
  case h_9 =>
    split at hp
    next hc => exact .retarget _ hp (jumps_of_retargets hc.1)
    next =>
      split at hp
      next hc => exact .merge _ hp (jumps_of_op hc rfl)
      next => exact .push i hp rfl
  case h_14 =>
    split at hp
    next hc => exact .line hp (jumps_of_op hc rfl)
    next => exact .push i hp rfl
  case h_6 | h_7 | h_10 | h_11 | h_12 | h_13 =>
    split at hp
    next hc => exact .merge _ hp (jumps_of_op hc.1 rfl)
    next => exact .push i hp rfl
  case h_15 => exact .push i hp rfl

theorem added (fs : SQFuncState) (i : SQInstruction) : Added fs i := by
  cases hlast : fs.instructions.getLast? with
  | none =>
    refine .pushed i ?_ rfl
    rw [fusion, hlast]
  | some pi =>
    by_cases hopt : fs.optimization = true
    · have hfusion : fs.fusion i = fs.peephole pi i := by
        rw [fusion, hlast]
        exact if_pos hopt
      cases peephole_cases fs pi i with
      | push i' h hop => exact .pushed i' (hfusion.trans h) hop
      | merge p h hjump =>
        refine .replaced pi p hlast hopt hjump ?_
        rw [hfusion, h]
        rfl
      | retarget p h hjump =>
        refine .replaced pi p hlast hopt hjump ?_
        rw [hfusion, h]
        rfl
      | line h hjump =>
        refine .replaced pi i hlast hopt hjump ?_
        rw [hfusion, h]
        rfl
      | change h hop => exact .changed pi hlast hopt hop (hfusion.trans h)
    · refine .pushed i ?_ rfl
      rw [fusion, hlast]
      exact if_neg hopt

theorem run_back (fs : SQFuncState) (size : Nat) :
    Prog.run (back size) fs =
      (if size = 0 then .error (.broken (.access (size - 1 : Int) size)) else .ok (), fs) := by
  have hmet : Judged.met (Event.access (size - 1 : Int) size) = true ↔ size ≠ 0 := by
    show decide _ = true ↔ _
    rw [decide_eq_true_iff]
    omega
  refine Prod.ext ?_ rfl
  show (if Judged.met (Event.access (size - 1 : Int) size) = true then _ else _) = _
  by_cases hz : size = 0
  · rw [if_neg (fun h => hmet.mp h hz), if_pos hz]
  · rw [if_pos (hmet.mpr hz), if_neg hz]

/-- A line that should replace one where there is none stops the compiler. -/
theorem run_addSQInstruction (fs : SQFuncState) (i : SQInstruction) :
    Prog.run (addSQInstruction i) fs = if fs.fusion i = .line i ∧ fs.lineinfos = []
      then (.error (.broken (.access (-1) 0)), fs) else (.ok (), fs.apply (fs.fusion i)) := by
  have hrest : Prog.run (addSQInstruction i) fs =
      Prog.after (Prog.run (Prog.when (fs.fusion i = .line i) (back fs.lineinfos.length)) fs)
        fun _ fs => (.ok (), fs.apply (fs.fusion i)) :=
    Prog.run_bind (Prog.when (fs.fusion i = .line i) (back fs.lineinfos.length)) _ fs
  rw [hrest, Prog.when]
  by_cases hline : fs.fusion i = .line i
  · cases hinfos : fs.lineinfos with
    | nil => simp [hline, run_back]
    | cons l ls => simp [hline, run_back]
  · simp [hline]

end SQFuncState
end Sqnim.Compiler
