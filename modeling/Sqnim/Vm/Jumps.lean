import Sqnim.Vm.Execute

/-!
# Jumps in the code of a function

Where `_OP_JMP` and `_OP_JZ` lead, for an activation that runs given code. Only the instruction
pointer of the frame changes.
-/
namespace Sqnim.Vm

open Sqnim.Lib Sqnim.Object Sqnim.Compiler
open Compare (isFalse)

variable {ρ : Type}

namespace Machine

/-- The frame on top goes on at an instruction. -/
def atIp (m : Machine ρ) (ip : Int) : Machine ρ := m.updateCi fun c => { c with ip }

@[simp] theorem atIp_atIp (m : Machine ρ) (x y : Int) : (m.atIp x).atIp y = m.atIp y := by
  unfold atIp updateCi
  cases m.vm.callsstack <;> rfl

@[simp] theorem stk_atIp (m : Machine ρ) (ip k : Int) : (m.atIp ip).stk k = m.stk k := rfl

theorem atIp_self {m : Machine ρ} {c : CallInfo} (hc : m.ci = some c) : m.atIp c.ip = m := by
  obtain ⟨vm, heap⟩ := m
  obtain ⟨cs, hcs⟩ := List.head?_eq_some_iff.mp hc
  unfold atIp updateCi
  simp only at hcs ⊢
  rw [hcs]
  simp only
  rw [← hcs]

theorem ci_atIp {m : Machine ρ} {c : CallInfo} (hc : m.ci = some c) (ip : Int) :
    (m.atIp ip).ci = some { c with ip } := by
  obtain ⟨cs, hcs⟩ := List.head?_eq_some_iff.mp hc
  unfold atIp updateCi ci
  simp only [hcs]
  rfl

end Machine

namespace Activation

def ip? (a : Activation ρ) : Option Int := a.machine.ci.map (·.ip)

def atIp (a : Activation ρ) (ip : Int) : Activation ρ := { a with machine := a.machine.atIp ip }

@[simp] theorem atIp_atIp (a : Activation ρ) (x y : Int) : (a.atIp x).atIp y = a.atIp y := by
  unfold atIp
  rw [Machine.atIp_atIp]

theorem exists_ci {a : Activation ρ} {ip : Int} (h : a.ip? = some ip) :
    ∃ c, a.machine.ci = some c ∧ c.ip = ip := by
  obtain ⟨c, hc, hip⟩ := Option.map_eq_some_iff.mp h
  exact ⟨c, hc, hip⟩

theorem ip?_atIp {a : Activation ρ} {ip : Int} (h : a.ip? = some ip) (x : Int) :
    (a.atIp x).ip? = some x := by
  obtain ⟨c, hc, -⟩ := exists_ci h
  exact congrArg (Option.map CallInfo.ip) (Machine.ci_atIp hc x)

theorem atIp_self {a : Activation ρ} {ip : Int} (h : a.ip? = some ip) : a.atIp ip = a := by
  obtain ⟨c, hc, rfl⟩ := exists_ci h
  unfold atIp
  rw [Machine.atIp_self hc]

end Activation

/-- The frame on top runs this code, wherever it stands. -/
def InCode (env : ExecEnv ρ) (code : List SQInstruction) (a : Activation ρ) : Prop :=
  ∀ (ip : Int) (j : Nat) (i : SQInstruction), code[j]? = some i →
    env.instructionAt (a.machine.atIp ip) j = i

theorem InCode.atIp {env : ExecEnv ρ} {code : List SQInstruction} {a : Activation ρ}
    (h : InCode env code a) (x : Int) : InCode env code (a.atIp x) := by
  intro ip j i hi
  rw [Activation.atIp, Machine.atIp_atIp]
  exact h ip j i hi

section Step

theorem run_jump {a : Activation ρ} {ip : Int} (hip : a.ip? = some ip) (d : Int) :
    Prog.run (jump d) a = (.ok (), a.atIp (ip + d)) := by
  obtain ⟨m, traps⟩ := a
  obtain ⟨c, hc, rfl⟩ := Activation.exists_ci hip
  obtain ⟨cs, hcs⟩ := List.head?_eq_some_iff.mp hc
  rw [jump, modify, Prog.run_update]
  unfold Activation.atIp Machine.atIp Machine.updateCi
  simp only at hcs ⊢
  rw [hcs]

variable {env : ExecEnv ρ} {code : List SQInstruction} {a : Activation ρ} {j : Nat}
  {i : SQInstruction}

theorem run_fetch (hcode : InCode env code a) (hip : a.ip? = some (j : Int))
    (hi : code[j]? = some i) : Prog.run (fetch env) a = (.ok i, a.atIp (j + 1)) := by
  obtain ⟨c, hc, hj⟩ := Activation.exists_ci hip
  have hread := hcode c.ip j i hi
  rw [Machine.atIp_self hc, ← hj] at hread
  rw [fetch, Prog.run_gets_bind, hc]
  show Prog.run (Prog.gets (fun s => env.instructionAt s.machine c.ip) >>= _) a = _
  rw [Prog.run_gets_bind, hread, Prog.run_bind, run_jump hip, Prog.after_ok, Prog.run_pure]

theorem run_stepLoop (hcode : InCode env code a) (hip : a.ip? = some (j : Int))
    (hi : code[j]? = some i) : Prog.run (stepLoop env) a =
      Prog.run (switch env i.op i.arg0.value i.arg1.value i.arg2.value i.arg3.value)
        (a.atIp (j + 1)) := by
  rw [stepLoop, Prog.run_bind, run_fetch hcode hip hi, Prog.after_ok]

theorem next_of_run {a' : Activation ρ} (raiseerror : Bool)
    (h : Prog.run (stepLoop env) a = (.ok .next, a')) :
    (Phase.loop a).next env raiseerror = .loop a' := by
  have hr : (stepLoop env a).result = .ok .next := congrArg Prod.fst h
  have hf : (stepLoop env a).final = a' := congrArg Prod.snd h
  rw [Phase.next, afterInstruction, hr, hf]

/-- `_OP_JMP` -/
theorem next_jmp (hcode : InCode env code a) (hip : a.ip? = some (j : Int))
    (hi : code[j]? = some i) (hop : i.op = .opJmp) (raiseerror : Bool) :
    (Phase.loop a).next env raiseerror = .loop (a.atIp (j + 1 + i.arg1.value)) := by
  apply next_of_run
  rw [run_stepLoop hcode hip hi, hop]
  show Prog.run (jump i.arg1.value >>= fun _ => continue') _ = _
  rw [Prog.run_bind, run_jump (Activation.ip?_atIp hip _), Prog.after_ok, Activation.atIp_atIp]
  rfl

/-- `_OP_JZ` -/
theorem next_jz (hcode : InCode env code a) (hip : a.ip? = some (j : Int))
    (hi : code[j]? = some i) (hop : i.op = .opJz) (raiseerror : Bool) :
    (Phase.loop a).next env raiseerror = .loop (a.atIp
      (j + 1 + if isFalse (a.machine.stk i.arg0.value) = true then i.arg1.value else 0)) := by
  apply next_of_run
  rw [run_stepLoop hcode hip hi, hop]
  show Prog.run (jzOp i.arg0.value i.arg1.value) _ = _
  rw [jzOp, stk, Prog.run_gets_bind]
  show Prog.run (Prog.when (isFalse (a.machine.stk i.arg0.value) = true) (jump i.arg1.value) >>=
    fun _ => continue') _ = _
  rw [Prog.when]
  split
  · rw [Prog.run_bind, run_jump (Activation.ip?_atIp hip _), Prog.after_ok, Activation.atIp_atIp]
    rfl
  · rw [Prog.run_bind, Prog.run_pure, Prog.after_ok, Int.add_zero]
    rfl

end Step

/-! ## Where control goes -/

/-- Control comes to an instruction by one or more instructions of a range. -/
inductive Reaches (env : ExecEnv ρ) (raiseerror : Bool) (lo hi ip : Int) : Activation ρ → Prop
  | last (a a' : Activation ρ) (pc : Int) (hpc : a.ip? = some pc) (hin : lo ≤ pc ∧ pc < hi)
    (hstep : (Phase.loop a).next env raiseerror = .loop a') (hip : a'.ip? = some ip) :
    Reaches env raiseerror lo hi ip a
  | step (a a' : Activation ρ) (pc : Int) (hpc : a.ip? = some pc) (hin : lo ≤ pc ∧ pc < hi)
    (hstep : (Phase.loop a).next env raiseerror = .loop a')
    (hrest : Reaches env raiseerror lo hi ip a') : Reaches env raiseerror lo hi ip a

section Reaches

variable {env : ExecEnv ρ} {raiseerror : Bool} {lo hi ip : Int} {a a' : Activation ρ}

theorem Reaches.range (h : Reaches env raiseerror lo hi ip a) :
    ∃ pc, a.ip? = some pc ∧ lo ≤ pc ∧ pc < hi := by
  cases h with
  | last _ _ pc hpc hin _ _ => exact ⟨pc, hpc, hin⟩
  | step _ _ pc hpc hin _ _ => exact ⟨pc, hpc, hin⟩

/-- Control goes one way only. -/
theorem Reaches.next (h : Reaches env raiseerror lo hi ip a)
    (hnext : (Phase.loop a).next env raiseerror = .loop a') :
    a'.ip? = some ip ∨ Reaches env raiseerror lo hi ip a' := by
  cases h with
  | last _ _ _ _ _ hstep hip =>
    rw [hnext] at hstep
    cases hstep
    exact .inl hip
  | step _ _ _ _ _ hstep hrest =>
    rw [hnext] at hstep
    cases hstep
    exact .inr hrest

end Reaches

end Sqnim.Vm
