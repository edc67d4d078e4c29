import Sqnim.Vm.Jumps

/-!
# Loads of literals

What the instructions that load a literal or append one to an array do, for an activation that runs
given code with given literals.
-/
namespace Sqnim.Vm

open Sqnim.Lib Sqnim.Object Sqnim.Compiler

variable {ρ : Type}

namespace Activation

def setStk (a : Activation ρ) (k : Int) (v : SQObject) : Activation ρ :=
  { a with machine := a.machine.setStk k v }

end Activation

/-- A machine that differs from another in registers and the instruction pointer. -/
def SameButRegisters (m m' : Machine ρ) : Prop :=
  ∃ (ip : Int) (cells : Nat → Int → SQObject),
    m' = { m.atIp ip with heap := { m.heap with cells } }

theorem SameButRegisters.atIp (m : Machine ρ) (ip : Int) : SameButRegisters m (m.atIp ip) :=
  ⟨ip, m.heap.cells, rfl⟩

theorem SameButRegisters.setStk {m m' : Machine ρ} (h : SameButRegisters m m') (k : Int)
    (v : SQObject) : SameButRegisters m (m'.setStk k v) := by
  obtain ⟨ip, cells, rfl⟩ := h
  exact ⟨ip, _, rfl⟩

theorem SameButRegisters.atIp_right {m m' : Machine ρ} (h : SameButRegisters m m') (ip : Int) :
    SameButRegisters m (m'.atIp ip) := by
  obtain ⟨x, cells, rfl⟩ := h
  exact ⟨ip, cells, congrArg (fun n : Machine ρ => { n with heap := { m.heap with cells } })
    (Machine.atIp_atIp m x ip)⟩

theorem SameButRegisters.trans {m m' m'' : Machine ρ} (h : SameButRegisters m m')
    (h' : SameButRegisters m' m'') : SameButRegisters m m'' := by
  obtain ⟨x, cells, rfl⟩ := h
  obtain ⟨ip, cells', rfl⟩ := h'
  exact ⟨ip, cells', congrArg (fun n : Machine ρ => { n with heap := { m.heap with cells := cells' } })
    (Machine.atIp_atIp m x ip)⟩

/-- The frame on top has these integers among its literals, whatever its registers hold. -/
def InLiterals (env : ExecEnv ρ) (lits : List Compiler.Scalar) (a : Activation ρ) : Prop :=
  ∀ m, SameButRegisters a.machine m → ∀ (k : Nat) (v : Int), lits[k]? = some (.int v) →
    env.literal m k = ofInt v

/-- The frame on top runs this code with these literals, whatever its registers hold. -/
structure Running (env : ExecEnv ρ) (code : List SQInstruction) (lits : List Compiler.Scalar)
    (a : Activation ρ) : Prop where
  code : ∀ m, SameButRegisters a.machine m → ∀ (j : Nat) (i : SQInstruction), code[j]? = some i →
    env.instructionAt m j = i
  literals : InLiterals env lits a

theorem Running.inCode {env : ExecEnv ρ} {code : List SQInstruction} {lits : List Compiler.Scalar}
    {a : Activation ρ} (h : Running env code lits a) : InCode env code a :=
  fun ip j i => h.code _ (.atIp a.machine ip) j i

theorem Running.of_same {env : ExecEnv ρ} {code : List SQInstruction}
    {lits : List Compiler.Scalar} {a a' : Activation ρ} (h : Running env code lits a)
    (hsame : SameButRegisters a.machine a'.machine) : Running env code lits a' where
  code m hm := h.code m (hsame.trans hm)
  literals m hm := h.literals m (hsame.trans hm)

section Step

variable {env : ExecEnv ρ} {code : List SQInstruction} {lits : List Compiler.Scalar} {a : Activation ρ}
  {j k : Nat} {i : SQInstruction} {v : Int}

/-- The next instruction, by its switch. -/
theorem next_of_switch {a' : Activation ρ} (raiseerror : Bool) (hcode : InCode env code a)
    (hip : a.ip? = some (j : Int)) (hi : code[j]? = some i)
    (h : Prog.run (switch env i.op i.arg0.value i.arg1.value i.arg2.value i.arg3.value)
      (a.atIp (j + 1)) = (.ok .next, a')) :
    (Phase.loop a).next env raiseerror = .loop a' :=
  next_of_run raiseerror ((run_stepLoop hcode hip hi).trans h)

/-- `_OP_LOADINT` -/
theorem next_loadint (raiseerror : Bool) (hcode : InCode env code a)
    (hip : a.ip? = some (j : Int)) (hi : code[j]? = some i) (hop : i.op = .opLoadint) :
    (Phase.loop a).next env raiseerror =
      .loop ((a.atIp (j + 1)).setStk i.arg0.value (ofInt i.arg1.value)) := by
  apply next_of_switch raiseerror hcode hip hi
  rw [hop]
  rfl

/-- `_OP_LOAD` of an integer -/
theorem next_load (raiseerror : Bool) (hcode : InCode env code a) (hlits : InLiterals env lits a)
    (hip : a.ip? = some (j : Int)) (hi : code[j]? = some i) (hop : i.op = .opLoad)
    (harg : i.arg1.value = k) (hk : lits[k]? = some (.int v)) :
    (Phase.loop a).next env raiseerror =
      .loop ((a.atIp (j + 1)).setStk i.arg0.value (ofInt v)) := by
  apply next_of_switch raiseerror hcode hip hi
  have hlit : env.literal (a.machine.atIp (j + 1)) k = ofInt v :=
    hlits _ (.atIp a.machine _) k v hk
  rw [hop, harg, ← hlit]
  rfl

/-- `_OP_DLOAD` whose second literal is an integer -/
theorem next_dload (raiseerror : Bool) (hcode : InCode env code a) (hlits : InLiterals env lits a)
    (hip : a.ip? = some (j : Int)) (hi : code[j]? = some i) (hop : i.op = .opDload)
    (harg : i.arg3.value = k) (hk : lits[k]? = some (.int v)) :
    (Phase.loop a).next env raiseerror =
      .loop (((a.atIp (j + 1)).setStk i.arg0.value
        (env.literal (a.machine.atIp (j + 1)) i.arg1.value)).setStk i.arg2.value (ofInt v)) := by
  apply next_of_switch raiseerror hcode hip hi
  have hlit : env.literal ((a.machine.atIp (j + 1)).setStk i.arg0.value
      (env.literal (a.machine.atIp (j + 1)) i.arg1.value)) k = ofInt v :=
    hlits _ ((SameButRegisters.atIp a.machine _).setStk _ _) k v hk
  rw [hop, harg, ← hlit]
  rfl

/-- The state after `_OP_APPENDARRAY`. -/
def appended (env : ExecEnv ρ) (a : Activation ρ) (arr : Int) (v : SQObject) : Activation ρ :=
  { a with machine := env.appendArray (a.machine.stk arr) v a.machine }

/-- `_OP_APPENDARRAY` -/
theorem next_appendarray {v : SQObject} (raiseerror : Bool) (hcode : InCode env code a)
    (hip : a.ip? = some (j : Int)) (hi : code[j]? = some i) (hop : i.op = .opAppendarray)
    (hv : Prog.run (appendValue env i.arg1.value i.arg2.value) (a.atIp (j + 1)) =
      (.ok v, a.atIp (j + 1))) :
    (Phase.loop a).next env raiseerror = .loop (appended env (a.atIp (j + 1)) i.arg0.value v) := by
  apply next_of_switch raiseerror hcode hip hi
  rw [hop]
  show Prog.run (appendOp env i.arg0.value i.arg1.value i.arg2.value) _ = _
  rw [appendOp, Prog.run_bind, hv]
  rfl

end Step
end Sqnim.Vm
