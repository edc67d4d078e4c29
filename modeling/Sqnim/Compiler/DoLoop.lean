import Sqnim.Compiler.Frames
import Sqnim.Compiler.StepClause
import Sqnim.Vm.Jumps

/-!
# A do loop without a condition

The loop ends with `_OP_JZ 1, 1` and a jump back. The operand 1 is read as a register: the loop goes
on as long as the value in the register 1 of the function is true.
-/
namespace Sqnim.Compiler.SQFuncState

open Sqnim.Lib

/-! ## The instructions of the end -/

@[simp] theorem landAt_landAt (target pos : Int) (i : SQInstruction) :
    landAt target pos (landAt target pos i) = landAt target pos i := rfl

/-- What stands at a position after some jumps got their target. -/
theorem getElem?_resolved (target : Int) (jumps : List Int) (hjumps : ∀ p ∈ jumps, 0 ≤ p)
    (is : List SQInstruction) (j : Nat) : (resolved target jumps is)[j]? =
      if (j : Int) ∈ jumps then is[j]?.map (landAt target j) else is[j]? := by
  induction jumps generalizing is with
  | nil => rfl
  | cons p ps ih =>
    have hp := hjumps p List.mem_cons_self
    have hrest := ih (fun q hq => hjumps q (List.mem_cons_of_mem p hq))
      (is.modify p.toNat (landAt target p))
    refine hrest.trans ?_
    by_cases hpj : (j : Int) = p
    · have hmod : (is.modify p.toNat (landAt target p))[j]? = is[j]?.map (landAt target j) := by
        rw [List.getElem?_modify, ← hpj]
        simp
      have hmem : (j : Int) ∈ p :: ps := by
        rw [hpj]
        exact List.mem_cons_self
      rw [hmod, if_pos hmem]
      split
      · simp [Function.comp_def]
      · rfl
    · rw [List.getElem?_modify_ne _ _ (by omega)]
      simp [hpj]

/-- The last instruction is not combined with a test behind it. -/
def Quiet (fs : SQFuncState) : Prop :=
  fs.optimization = false ∨ ∀ pi, fs.instructions.getLast? = some pi → pi.op ≠ .opCmp

/-- An offset that a conversion to `SQInt32` keeps. -/
def Fits (offset : Int) : Prop := -2 ^ 31 ≤ offset ∧ offset < 2 ^ 31

theorem narrow32_eq_iff (offset : Int) : (Operand.imm offset).narrow32.value = offset ↔
    Fits offset := by
  have hlt := Int.bmod_lt (x := offset) (m := 2 ^ 32) (by decide)
  have hle := Int.le_bmod (x := offset) (m := 2 ^ 32) (by decide)
  show Int.bmod offset (2 ^ 32) = offset ↔ _
  constructor
  · intro h
    rw [h] at hlt hle
    unfold Fits
    omega
  · intro h
    unfold Fits at h
    exact Int.bmod_eq_of_le (by omega) (by omega)

theorem fusion_jz (fs : SQFuncState) (args : List Operand)
    (h : Quiet fs) :
    fs.fusion (.make .opJz args) = .push (.make .opJz args) := by
  unfold fusion
  split
  · next pi hlast =>
    split
    · next hopt =>
      obtain hopt' | hlast' := h
      · rw [hopt] at hopt'
        cases hopt'
      · show SQFuncState.peephole fs pi (.make .opJz args) = _
        unfold peephole
        exact if_neg fun hc => hlast' pi hlast hc.1
    · rfl
  · rfl

theorem getLast?_push (fs : SQFuncState) (i : SQInstruction) :
    (fs.apply (.push i)).instructions.getLast? = some i := by
  rw [instructions_push, List.getLast?_concat]

/-- The code up to the end of a `do` loop without a condition, before the jumps out of its body are
led to their targets. -/
def withDoEnd (jmptrg : Int) (fs : SQFuncState) : List SQInstruction :=
  fs.instructions ++ [.make .opJz [.reg ⟨1⟩, .imm 1],
    .make .opJmp [.imm 0, .imm (jmptrg - fs.instructions.length - 1)]]

theorem run_endDo (jmptrg : Int) (before : Nat × Nat) (fs gs : SQFuncState) (hquiet : Quiet fs)
    (h : Prog.run (endDo jmptrg before) fs = (.ok (), gs)) :
    gs.instructions = resolved (fs.instructions.length + 1)
      (fs.unresolvedbreaks.take (fs.unresolvedbreaks.length - before.1))
      (resolved (fs.instructions.length - 1)
        (fs.unresolvedcontinues.take (fs.unresolvedcontinues.length - before.2))
        (withDoEnd jmptrg fs)) := by
  rw [endDo, getCurrentPos, Prog.run_gets_bind] at h
  obtain ⟨_, fs₁, hjz, h⟩ := Prog.run_bind_inv h
  have hfs₁ : fs₁ = fs.pushInstruction (.make .opJz [.reg ⟨1⟩, .imm 1]) := by
    have hrun : Prog.run (addSQInstruction (.make .opJz [.reg ⟨1⟩, .imm 1])) fs = (.ok (), fs₁) :=
      hjz
    rw [run_addSQInstruction, fusion_jz fs _ hquiet, if_neg (fun h => by cases h.1)] at hrun
    exact (congrArg Prod.snd hrun).symm
  obtain ⟨_, fs₂, hback, h⟩ := Prog.run_bind_inv h
  rw [jumpBack, getCurrentPos, Prog.run_gets_bind, run_jump] at hback
  have hfs₂ : fs₂ = fs₁.pushInstruction
      (.make .opJmp [.imm 0, .imm (jmptrg - (fs₁.instructions.length - 1) - 1)]) :=
    (congrArg Prod.snd hback).symm
  rw [run_endBreakable before _ fs₂ gs h, hfs₂, hfs₁]
  have hcount : (fs.instructions.length : Int) + 2 - 1 = fs.instructions.length + 1 := by omega
  simp [pushInstruction, withDoEnd, hcount]

/-- After a scope was left, the last instruction was made by a statement or closes the scope. -/
theorem quiet_of_leaveScope {scope : SQScope} {close : Bool} {fs gs : SQFuncState} {u : Unit}
    (hopt : fs.optimization = false) (h : Prog.run (leaveScope scope close) fs = (.ok u, gs)) :
    Quiet gs := by
  rw [leaveScope, Prog.run_gets_bind, Prog.when] at h
  split at h
  · rw [setStackSize, Prog.run_update_bind, Prog.run_gets_bind, Prog.when] at h
    have hopt' : ((fs.vlocals.drop scope.stacksize).reverse.foldl dropLocal fs).optimization =
        false :=
      (congrArg (·.2.1) (emitted_foldl_dropLocal _ fs)).trans hopt
    split at h
    · have hrun : Prog.run (addSQInstruction _) _ = (.ok u, gs) := h
      rw [run_addSQInstruction, StepClause.fusion_of_snoozed _ _ hopt',
        if_neg (fun h => by cases h.1)] at hrun
      obtain rfl := congrArg Prod.snd hrun
      refine .inr ?_
      intro pi hlast
      rw [getLast?_push] at hlast
      cases hlast
      nofun
    · cases h
      exact .inl hopt'
  · cases h
    exact .inl hopt

end Sqnim.Compiler.SQFuncState

namespace Sqnim.Compiler.DoLoop

open Sqnim.Lib Sqnim.Vm
open Compare (isFalse)
open SQFuncState

/-! ## The statement -/

/-- `DoWhileStatement` to the end of its body: where the body begins, less one, and the numbers of
unresolved jumps before it. -/
def doParts (self : Self) : CompM (Int × Nat × Nat) := do
  lex
  let jmptrg ← onFunc getCurrentPos
  let before ← onFunc beginBreakable
  scopedStatement self
  pure (jmptrg, before)

/-- The rest of `DoWhileStatement`. -/
def doRest (self : Self) (p : Int × Nat × Nat) : CompM Unit := do
  if (← token) = .tkWhile then do
    expect .tkWhile
    let continuetrg ← onFunc getCurrentPos
    condition self
    onFunc (endDoWhile p.1 continuetrg p.2)
  else onFunc (endDo p.1 p.2)

theorem run_doWhileStatement (self : Self) (s : SQCompiler) :
    Prog.run (doWhileStatement self) s =
      Prog.after (Prog.run (doParts self) s) fun p => Prog.run (doRest self p) := by
  simp only [doWhileStatement, doParts, Prog.run_bind_fun, Prog.after_after, doRest, Prog.run_pure,
    Prog.after_ok]

theorem quiet_of_scopedStatement (n : Nat) (s s' : SQCompiler)
    (h : Prog.run (scopedStatement (selfAt n)) s = (.ok (), s')) : s'.fs.Quiet := by
  obtain ⟨old, s₁, -, h⟩ := Prog.run_bind_inv h
  obtain ⟨_, s₂, hbody, h⟩ := Prog.run_bind_inv h
  have hopt := StepClause.snoozed_of_statement n true s₁ s₂ hbody
  rw [endScope, Prog.run_gets_bind] at h
  obtain ⟨_, s₃, hleave, h⟩ := Prog.run_bind_inv h
  obtain ⟨fs, hleave, hs₃⟩ := run_onFunc_inv hleave
  have hfs : s'.fs = fs := by
    cases h
    rw [hs₃]
    rfl
  rw [hfs]
  exact quiet_of_leaveScope hopt hleave

theorem run_doParts {n : Nat} {s s₁ : SQCompiler} {parts : Int × Nat × Nat}
    (h : Prog.run (doParts (selfAt n)) s = (.ok parts, s₁)) :
    parts = ((s.fs.instructions.length : Int) - 1, s.fs.unresolvedbreaks.length,
      s.fs.unresolvedcontinues.length) ∧ CodeFrame false s.fs s₁.fs ∧ s₁.fs.Quiet := by
  obtain ⟨_, t₁, hlex, h⟩ := Prog.run_bind_inv h
  have hsame : t₁.fs = s.fs := Leads.out (R := SameFunc) _ _ _ hlex
  obtain ⟨jmptrg, fs₂, hpos, h⟩ := run_bind_onFunc_inv h
  cases hpos
  obtain ⟨before, fs₃, hbegin, h⟩ := run_bind_onFunc_inv h
  obtain ⟨_, t₄, hbody, h⟩ := Prog.run_bind_inv h
  cases h
  have hframe : CodeFrame false t₁.fs fs₃ := Leads.out (R := CodeFrame false) _ _ _ hbegin
  have hscoped : Frames false _ t₄ := Leads.out (R := Frames false) _ _ _ hbody
  rw [beginBreakable, Prog.run_gets_bind, Prog.run_update_bind] at hbegin
  have hbefore : before = (t₁.fs.unresolvedbreaks.length, t₁.fs.unresolvedcontinues.length) := by
    cases hbegin
    rfl
  rw [hbefore]
  rw [hsame] at hframe ⊢
  exact ⟨rfl, Journey.trans _ _ _ hframe hscoped.fs, quiet_of_scopedStatement n _ t₄ hbody⟩

theorem run_doRest {self : Self} {parts : Int × Nat × Nat} {s₁ s₂ : SQCompiler}
    (alone : s₁.token ≠ .tkWhile) (h : Prog.run (doRest self parts) s₁ = (.ok (), s₂)) :
    Prog.run (endDo parts.1 parts.2) s₁.fs = (.ok (), s₂.fs) := by
  rw [doRest, token, Prog.run_gets_bind, if_neg alone] at h
  obtain ⟨fs, hrun, rfl⟩ := run_onFunc_inv h
  exact hrun

/-- The positions of the `continue`s in a body that lead to its end. -/
def continues (s s₁ : SQCompiler) : List Int :=
  since s.fs.unresolvedcontinues s₁.fs.unresolvedcontinues

/-- The code around the end of a body. -/
structure DoCode (s s₁ s₂ : SQCompiler) : Prop where
  start : s.fs.instructions.length ≤ s₁.fs.instructions.length
  jz : s₂.fs.instructions[s₁.fs.instructions.length]? = some (.make .opJz [.reg ⟨1⟩, .imm 1])
  jmp : s₂.fs.instructions[s₁.fs.instructions.length + 1]? = some (.make .opJmp [.imm 0,
    .imm ((s.fs.instructions.length : Int) - 1 - s₁.fs.instructions.length - 1)])
  back : ∀ p ∈ continues s s₁, ∃ j : Nat, p = j ∧ s.fs.instructions.length ≤ j ∧
    j < s₁.fs.instructions.length ∧ ∃ i, s₂.fs.instructions[j]? = some i ∧ i.op = .opJmp ∧
      i.arg1 = (Operand.imm ((s₁.fs.instructions.length : Int) - 1 - j)).narrow32
  settled : ∀ j ≤ s₁.fs.instructions.length + 1, s₂.fs.Settled j

theorem doCode {n : Nat} {s s₁ s₂ : SQCompiler} {parts : Int × Nat × Nat}
    (body : Prog.run (doParts (selfAt n)) s = (.ok parts, s₁)) (alone : s₁.token ≠ .tkWhile)
    (rest : Prog.run (doRest (selfAt n) parts) s₁ = (.ok (), s₂)) : DoCode s s₁ s₂ := by
  obtain ⟨rfl, hframe, hquiet⟩ := run_doParts body
  have hcode := run_endDo _ _ _ _ hquiet (run_doRest alone rest)
  obtain ⟨nb, hb, hnb⟩ := hframe.breaks
  obtain ⟨nc, hc, hnc⟩ := hframe.continues
  have hapart := hframe.apart
  rw [hb, hc, since_append, since_append] at hapart
  rw [hb, hc, List.length_append, List.length_append, Nat.add_sub_cancel, Nat.add_sub_cancel,
    List.take_left, List.take_left] at hcode
  have hnb0 : ∀ p ∈ nb, 0 ≤ p := by
    intro p hp
    have := (hnb p hp).le
    omega
  have hnc0 : ∀ p ∈ nc, 0 ≤ p := by
    intro p hp
    have := (hnc p hp).le
    omega
  -- behind the body, no jump out of it stands
  have hend : ∀ k : Nat, s₂.fs.instructions[s₁.fs.instructions.length + k]? =
      (withDoEnd (s.fs.instructions.length - 1) s₁.fs)[s₁.fs.instructions.length + k]? := by
    intro k
    have hnotb : ((s₁.fs.instructions.length + k : Nat) : Int) ∉ nb := by
      intro hp
      have := (hnb _ hp).lt
      omega
    have hnotc : ((s₁.fs.instructions.length + k : Nat) : Int) ∉ nc := by
      intro hp
      have := (hnc _ hp).lt
      omega
    rw [hcode, getElem?_resolved _ _ hnb0, if_neg hnotb, getElem?_resolved _ _ hnc0, if_neg hnotc]
  have hlen : s₂.fs.instructions.length = s₁.fs.instructions.length + 2 := by
    rw [hcode, length_resolved, length_resolved, withDoEnd, List.length_append]
    rfl
  have hjmp : s₂.fs.instructions[s₁.fs.instructions.length + 1]? = some (.make .opJmp [.imm 0,
      .imm ((s.fs.instructions.length : Int) - 1 - s₁.fs.instructions.length - 1)]) := by
    rw [hend 1, withDoEnd, List.getElem?_append_right (Nat.le_add_right _ _),
      Nat.add_sub_cancel_left]
    rfl
  refine ⟨hframe.length, ?_, hjmp, ?_, ?_⟩
  · rw [← Nat.add_zero s₁.fs.instructions.length, hend 0, withDoEnd,
      List.getElem?_append_right (Nat.le_add_right _ _), Nat.add_zero, Nat.sub_self]
    rfl
  · intro p hp
    rw [continues, hc, since_append] at hp
    obtain ⟨j, rfl, hj, i, hi, hop⟩ := hnc p hp
    have hlt := (List.getElem?_eq_some_iff.mp hi).1
    refine ⟨j, rfl, hj, hlt, landAt (s₁.fs.instructions.length - 1) j i, ?_, hop, rfl⟩
    rw [hcode, getElem?_resolved _ _ hnb0, if_neg fun hb => hapart _ hb hp,
      getElem?_resolved _ _ hnc0, if_pos hp, withDoEnd, List.getElem?_append_left hlt, hi]
    rfl
  · intro j hj
    obtain ⟨i, hi⟩ : ∃ i, s₂.fs.instructions[j]? = some i :=
      ⟨_, List.getElem?_eq_getElem (by omega)⟩
    obtain hlt | rfl := Nat.lt_or_eq_of_le hj
    · exact ⟨i, hi, .inl (by omega)⟩
    · exact settled_of_jump hjmp rfl

/-! ## Running it -/

/-- A moment at which the body of a `do` loop without a condition is completed: the statement was
compiled, the function runs the code of which it became a part, and control stands behind the body
or at a `continue` of it. -/
structure BodyEnd (ρ : Type) where
  n : Nat
  s : SQCompiler
  s₁ : SQCompiler
  s₂ : SQCompiler
  parts : Int × Nat × Nat
  body : Prog.run (doParts (selfAt n)) s = (.ok parts, s₁)
  alone : s₁.token ≠ .tkWhile
  rest : Prog.run (doRest (selfAt n) parts) s₁ = (.ok (), s₂)
  code : List SQInstruction
  kept : ∀ j, s₂.fs.Settled j → code[j]? = s₂.fs.instructions[j]?
  env : ExecEnv ρ
  raiseerror : Bool
  a : Activation ρ
  inCode : InCode env code a
  completed : a.ip? = some (s₁.fs.instructions.length : Int) ∨
    ∃ p ∈ continues s s₁, a.ip? = some p

/-- What is compiled behind the statement keeps its code. -/
theorem kept_of_codeFrame {fs gs : SQFuncState} (h : CodeFrame false fs gs) (j : Nat)
    (hj : fs.Settled j) : gs.instructions[j]? = fs.instructions[j]? :=
  (h.settled j hj).2

namespace BodyEnd

variable {ρ : Type} (e : BodyEnd ρ)

/-- Where the body starts. -/
def start : Int := e.s.fs.instructions.length

/-- Behind the body. -/
def fin : Int := e.s₁.fs.instructions.length

/-- Control comes to the end of the body, and from there, by the instructions behind it, to its
start. -/
def LoopsBack : Prop :=
  ∃ a', (a' = e.a ∨ (Phase.loop e.a).next e.env e.raiseerror = .loop a') ∧ a'.ip? = some e.fin ∧
    Reaches e.env e.raiseerror e.fin (e.fin + 2) e.start a'

theorem code_eq : DoCode e.s e.s₁ e.s₂ := doCode e.body e.alone e.rest

/-- The offset of the jump back. -/
def offset : Int := (Operand.imm (e.start - 1 - e.fin - 1)).narrow32.value

section

variable {e} {a' : Activation ρ}

theorem next_fin (hcode : InCode e.env e.code a') (hip : a'.ip? = some e.fin) :
    (Phase.loop a').next e.env e.raiseerror = .loop (a'.atIp
      (e.fin + 1 + if isFalse (a'.machine.stk 1) = true then 1 else 0)) := by
  have hc := e.code_eq
  have hjz := (e.kept _ (hc.settled _ (Nat.le_succ _))).trans hc.jz
  exact next_jz hcode hip hjz rfl e.raiseerror

theorem next_jump (hcode : InCode e.env e.code a') (hip : a'.ip? = some e.fin) :
    (Phase.loop (a'.atIp (e.fin + 1))).next e.env e.raiseerror =
      .loop (a'.atIp (e.fin + 2 + e.offset)) := by
  have hc := e.code_eq
  have hjmp := (e.kept _ (hc.settled _ (Nat.le_refl _))).trans hc.jmp
  have hnext : (a'.atIp (e.fin + 1)).ip? =
      some ((e.s₁.fs.instructions.length + 1 : Nat) : Int) := Activation.ip?_atIp hip _
  have hstep := next_jmp (hcode.atIp _) hnext hjmp rfl e.raiseerror
  rw [Activation.atIp_atIp] at hstep
  rw [hstep]
  rfl

/-- When the jump back comes to the start, its offset is right. -/
theorem offset_of_reaches (hcode : InCode e.env e.code a') (hip : a'.ip? = some e.fin)
    (htrue : isFalse (a'.machine.stk 1) = false) {b : Activation ρ}
    (hreach : Reaches e.env e.raiseerror e.fin (e.fin + 2) e.start b)
    (hb : b = a' ∨ b = a'.atIp (e.fin + 1)) : e.offset = e.start - 1 - e.fin - 1 := by
  have hle : e.start ≤ e.fin := Int.ofNat_le.mpr e.code_eq.start
  have hstep := next_fin hcode hip
  rw [htrue, if_neg Bool.false_ne_true, Int.add_zero] at hstep
  have hstep' := next_jump hcode hip
  induction hreach with
  | last b b' pc hpc hin hnext hto =>
    obtain rfl | rfl := hb
    · rw [hstep] at hnext
      cases hnext
      rw [Activation.ip?_atIp hip] at hto
      have := Option.some.inj hto
      omega
    · rw [hstep'] at hnext
      cases hnext
      rw [Activation.ip?_atIp hip] at hto
      have := Option.some.inj hto
      omega
  | step b b' pc hpc hin hnext hrest ih =>
    obtain rfl | rfl := hb
    · rw [hstep] at hnext
      cases hnext
      exact ih (.inr rfl)
    · rw [hstep'] at hnext
      cases hnext
      -- the jump stays behind the body
      obtain ⟨pc, hpc, hlo, hhi⟩ := hrest.range
      rw [Activation.ip?_atIp hip] at hpc
      obtain rfl := Option.some.inj hpc
      by_cases hfin : e.fin + 2 + e.offset = e.fin
      · rw [hfin, Activation.atIp_self hip] at ih
        exact ih (.inl rfl)
      · rw [show e.fin + 2 + e.offset = e.fin + 1 by omega] at ih
        exact ih (.inr rfl)

/-- Behind the body, the register 1 decides. -/
theorem reaches_iff (hcode : InCode e.env e.code a') (hip : a'.ip? = some e.fin) :
    Reaches e.env e.raiseerror e.fin (e.fin + 2) e.start a' ↔
      isFalse (a'.machine.stk 1) = false ∧ Fits (e.start - 1 - e.fin - 1) := by
  have hle : e.start ≤ e.fin := Int.ofNat_le.mpr e.code_eq.start
  have hstep := next_fin hcode hip
  constructor
  · intro hreach
    cases hfalse : isFalse (a'.machine.stk 1) with
    | false =>
      have hoff := offset_of_reaches hcode hip hfalse hreach (.inl rfl)
      exact ⟨rfl, (narrow32_eq_iff _).mp hoff⟩
    | true =>
      exfalso
      rw [hfalse, if_pos rfl] at hstep
      have hout := Activation.ip?_atIp hip (e.fin + 1 + 1)
      obtain hto | hrest := hreach.next hstep
      · rw [hout] at hto
        have := Option.some.inj hto
        omega
      · obtain ⟨pc, hpc, -, hlt⟩ := hrest.range
        rw [hout] at hpc
        have := Option.some.inj hpc
        omega
  · rintro ⟨htrue, hfits⟩
    rw [htrue, if_neg Bool.false_ne_true, Int.add_zero] at hstep
    have hoff : e.offset = e.start - 1 - e.fin - 1 := (narrow32_eq_iff _).mpr hfits
    have hnext := Activation.ip?_atIp hip (e.fin + 1)
    have hto := Activation.ip?_atIp hip (e.fin + 2 + e.offset)
    refine .step a' _ e.fin hip ⟨Int.le_refl _, by omega⟩ hstep (.last _ _ (e.fin + 1) hnext
      ⟨by omega, by omega⟩ (next_jump hcode hip) (hto.trans (congrArg some ?_)))
    omega

/-- The property where the body came to its end. -/
theorem loopsBack_of_fin (hip : e.a.ip? = some e.fin) : e.LoopsBack ↔
    isFalse (e.a.machine.stk 1) = false ∧ Fits (e.start - 1 - e.fin - 1) := by
  rw [← reaches_iff e.inCode hip]
  constructor
  · intro ⟨a', ha', hfin, hreach⟩
    obtain rfl | hnext := ha'
    · exact hreach
    · exfalso
      rw [next_fin e.inCode hip] at hnext
      cases hnext
      rw [Activation.ip?_atIp hip] at hfin
      have := Option.some.inj hfin
      split at this <;> omega
  · intro hreach
    exact ⟨e.a, .inl rfl, hip, hreach⟩

end

/-- A do loop without a condition loops back if and only if the value in the register 1 is not false
when its body is completed (and its code is not too long for the jump). -/
theorem loopsBack_iff : e.LoopsBack ↔
    isFalse (e.a.machine.stk 1) = false ∧ e.fin - e.start + 2 ≤ 2 ^ 31 := by
  have hle : e.start ≤ e.fin := Int.ofNat_le.mpr e.code_eq.start
  have hfits : Fits (e.start - 1 - e.fin - 1) ↔ e.fin - e.start + 2 ≤ 2 ^ 31 := by
    unfold Fits
    omega
  rw [← hfits]
  obtain hip | ⟨p, hp, hip⟩ := e.completed
  · exact loopsBack_of_fin hip
  · obtain ⟨j, rfl, hj, hlt, i, hi, hop, harg⟩ := e.code_eq.back p hp
    have hcode := (e.kept j (e.code_eq.settled j (by omega))).trans hi
    have hstep := next_jmp e.inCode hip hcode hop e.raiseerror
    have hstart : e.start ≤ j := Int.ofNat_le.mpr hj
    have hfin : (j : Int) < e.fin := Int.ofNat_lt.mpr hlt
    rw [harg] at hstep
    constructor
    · intro ⟨a', ha', hto, hreach⟩
      obtain rfl | hnext := ha'
      · rw [hip] at hto
        have := Option.some.inj hto
        omega
      · rw [hstep] at hnext
        cases hnext
        exact (reaches_iff (e.inCode.atIp _) hto).mp hreach
    · intro h
      have hoff : (Operand.imm (e.fin - 1 - j)).narrow32.value = e.fin - 1 - j := by
        rw [narrow32_eq_iff]
        have := h.2
        unfold Fits at this ⊢
        omega
      have hland : (Phase.loop e.a).next e.env e.raiseerror = .loop (e.a.atIp e.fin) := by
        refine hstep.trans (congrArg (fun x => Phase.loop (e.a.atIp x)) ?_)
        show (j : Int) + 1 + (Operand.imm (e.fin - 1 - j)).narrow32.value = e.fin
        rw [hoff]
        omega
      have hto := Activation.ip?_atIp hip e.fin
      exact ⟨_, .inr hland, hto, (reaches_iff (e.inCode.atIp _) hto).mpr h⟩

end BodyEnd

/-! ### A loop that goes on, and one that is left -/

/-- `do vargv=1;` or `do vargv=0;` -/
def doVargv (on : Bool) : List UInt8 :=
  [100, 111, 32, 118, 97, 114, 103, 118, 61, if on then 49 else 48, 59]

section Vargv

variable (on : Bool)

def beforeDo : SQCompiler := StepClause.firstStatement plainConfig (doVargv on)

def inDo : SQCompiler := (Prog.run (doParts (selfAt 28)) (beforeDo on)).2

def afterDo : SQCompiler := (Prog.run (doRest (selfAt 28) (-1, 0, 0)) (inDo on)).2

/-- Its code: `vargv` is in the register 1. -/
def vargvCode : List SQInstruction :=
  [.make .opLoadint [.reg ⟨1⟩, .imm on.toNat], .make .opJz [.reg ⟨1⟩, .imm 1],
    .make .opJmp [.imm 0, .imm (-3)]]

def vargvEnv : ExecEnv Unit :=
  { (default : ExecEnv Unit) with
    instructionAt := fun _ ip => (vargvCode on).getD ip.toNat (.make .opLine []) }

/-- The function at its first instruction. -/
def atVargv : Activation Unit where
  machine := { (default : Machine Unit) with
    vm := { (default : SQVM) with callsstack := [default] } }
  traps := 0

/-- Behind the body, which assigns 1 or 0 to the register 1. -/
def behindVargv : Activation Unit := ⟨(atVargv.machine.setStk 1 (.ofInteger on.toNat)).atIp 1, 0⟩

theorem next_vargv : (Phase.loop atVargv).next (vargvEnv on) false = .loop (behindVargv on) := by
  cases on <;> rfl

theorem exists_run {α : Type} (m : CompM α) (s : SQCompiler) (h : isOk (m s) = true) :
    ∃ a, Prog.run m s = (.ok a, (Prog.run m s).2) := by
  obtain ⟨a, ha⟩ := exists_of_isOk (m s) h
  exact ⟨a, Prod.ext ha rfl⟩

theorem inCode_vargv (a : Activation Unit) : InCode (vargvEnv on) (vargvCode on) a := by
  intro ip j i hi
  show (vargvCode on).getD (j : Int).toNat _ = i
  rw [Int.toNat_natCast, List.getD_eq_getElem?_getD, hi]
  rfl

theorem exists_bodyEnd : ∃ proto, (compile 30 plainConfig (doVargv on)).result = .ok proto ∧
    ∃ e : BodyEnd Unit, e.s = beforeDo on ∧ e.a.ip? = some e.fin ∧
      (∃ a, a.ip? = some e.start ∧ (Phase.loop a).next e.env e.raiseerror = .loop e.a) ∧
      e.a.machine.stk 1 = .ofInteger on.toNat ∧ e.fin = e.start + 1 := by
  have hok : ∀ on, isOk (compile 30 plainConfig (doVargv on)) = true := by decide +kernel
  have hdo : ∀ on, isOk (doParts (selfAt 28) (beforeDo on)) = true := by decide +kernel
  have hbehind : ∀ on, isOk (doRest (selfAt 28) (-1, 0, 0) (inDo on)) = true := by decide +kernel
  have hbefore : ∀ on, (beforeDo on).fs.instructions = [] ∧
      (beforeDo on).fs.unresolvedbreaks = [] ∧ (beforeDo on).fs.unresolvedcontinues = [] := by
    decide +kernel
  have hin : ∀ on, (inDo on).token ≠ .tkWhile ∧ (inDo on).fs.instructions.length = 1 := by
    decide +kernel
  have hcode : ∀ on, vargvCode on = (afterDo on).fs.instructions := by decide +kernel
  obtain ⟨proto, hproto⟩ := exists_of_isOk _ (hok on)
  obtain ⟨parts, body⟩ := exists_run (doParts (selfAt 28)) (beforeDo on) (hdo on)
  obtain ⟨_, rest⟩ := exists_run (doRest (selfAt 28) (-1, 0, 0)) (inDo on) (hbehind on)
  rw [← inDo] at body
  rw [← afterDo] at rest
  obtain ⟨hcode₀, hbreaks, hcontinues⟩ := hbefore on
  obtain ⟨alone, hfin⟩ := hin on
  have hparts : parts = (-1, 0, 0) := by
    rw [(run_doParts body).1, hcode₀, hbreaks, hcontinues]
    rfl
  rw [hparts] at body
  have hend : ((inDo on).fs.instructions.length : Int) = 1 := congrArg Nat.cast hfin
  obtain ⟨e, hs, hs₁, henv, hraise, ha⟩ : ∃ e : BodyEnd Unit, e.s = beforeDo on ∧ e.s₁ = inDo on ∧
      e.env = vargvEnv on ∧ e.raiseerror = false ∧ e.a = behindVargv on :=
    ⟨{ n := 28, s := beforeDo on, s₁ := inDo on, s₂ := afterDo on, parts := (-1, 0, 0), body
       alone
       rest
       code := vargvCode on
       kept := fun _ _ => by rw [hcode on]
       env := vargvEnv on
       raiseerror := false
       a := behindVargv on
       inCode := inCode_vargv on _
       completed := .inl (congrArg some hend.symm) }, by simp only [and_self]⟩
  have hestart : e.start = 0 := by
    rw [BodyEnd.start, hs, hcode₀]
    rfl
  have hefin : e.fin = 1 := by
    rw [BodyEnd.fin, hs₁, hend]
  refine ⟨proto, hproto, e, hs, ?_, ⟨atVargv, ?_, ?_⟩, ?_, ?_⟩
  · rw [ha, hefin]
    rfl
  · rw [hestart]
    rfl
  · rw [henv, hraise, ha]
    exact next_vargv on
  · rw [ha]
    exact Machine.stk_setStk_same 1 _
  · rw [hefin, hestart]
    rfl

end Vargv

theorem loopsBack_vargv : ∃ proto, (compile 30 plainConfig (doVargv true)).result = .ok proto ∧
    ∃ e : BodyEnd Unit, e.s = beforeDo true ∧ e.LoopsBack := by
  obtain ⟨proto, hproto, e, hs, -, -, hone, hfin⟩ := exists_bodyEnd true
  refine ⟨proto, hproto, e, hs, e.loopsBack_iff.mpr ⟨?_, by omega⟩⟩
  rw [hone]
  decide

/-- The loop is left behind its body. -/
theorem not_loopsBack : ∃ proto, (compile 30 plainConfig (doVargv false)).result = .ok proto ∧
    ∃ e : BodyEnd Unit, e.s = beforeDo false ∧ e.a.ip? = some e.fin ∧
      (∃ a, a.ip? = some e.start ∧ (Phase.loop a).next e.env e.raiseerror = .loop e.a) ∧
      ¬ e.LoopsBack := by
  obtain ⟨proto, hproto, e, hs, hip, hstep, hzero, -⟩ := exists_bodyEnd false
  refine ⟨proto, hproto, e, hs, hip, hstep, fun hloops => ?_⟩
  have htrue := ((BodyEnd.loopsBack_of_fin hip).mp hloops).1
  have hfalse : isFalse (.ofInteger 0) = true := by decide
  rw [hzero] at htrue
  exact absurd (htrue.symm.trans hfalse) Bool.false_ne_true

end Sqnim.Compiler.DoLoop
