import Sqnim.Vm.Execute

/-!
# Arithmetic on registers and on slots

An operator is compiled to an instruction of its own for operands in registers, and to
`_OP_COMPARITH` where the left operand is a slot of an object. Both are compared with exact
arithmetic.
-/
namespace Sqnim.Vm.ArithAgreement

open Sqnim.Lib Sqnim.Object Sqnim.Compiler
open SQObjectType
open Prog (run)

variable {ρ : Type}

inductive Operator where
  | add | sub | mul | div | mod
  deriving DecidableEq, Repr

namespace Operator

def opcode : Operator → SQOpcode
  | add => .opAdd
  | sub => .opSub
  | mul => .opMul
  | div => .opDiv
  | mod => .opMod

def symbol : Operator → Char
  | add => '+'
  | sub => '-'
  | mul => '*'
  | div => '/'
  | mod => '%'

/-- The token of the compound assignment. -/
def token : Operator → Token
  | add => .tkPluseq
  | sub => .tkMinuseq
  | mul => .tkMuleq
  | div => .tkDiveq
  | mod => .tkModeq

theorem opcode_eq (op : Operator) : chooseArithOpByToken op.token = op.opcode := by
  cases op <;> rfl

theorem symbol_eq (op : Operator) : chooseCompArithCharByToken op.token = op.symbol.toNat := by
  cases op <;> rfl

/-- The operator on unbounded integers. -/
def exact : Operator → Int → Int → Int
  | add, a, b => a + b
  | sub, a, b => a - b
  | mul, a, b => a * b
  | div, a, b => a.tdiv b
  | mod, a, b => a.tmod b

end Operator

open Operator

/-- A 64-bit integer. -/
def Fits (n : Int) : Prop := -2 ^ 63 ≤ n ∧ n < 2 ^ 63

instance : DecidablePred Fits := fun _ => inferInstanceAs (Decidable (_ ∧ _))

/-- The operator has no result. -/
def NoResult (op : Operator) (a b : BitVec 64) : Prop :=
  (op = div ∨ op = mod) ∧ (b = 0 ∨ ¬ Fits (a.toInt.tdiv b.toInt))

instance (op : Operator) (a b : BitVec 64) : Decidable (NoResult op a b) :=
  inferInstanceAs (Decidable ((op = div ∨ op = mod) ∧ (b = 0 ∨ ¬Fits (a.toInt.tdiv b.toInt))))

/-- What an evaluation comes to. An error is told by the object that is thrown. -/
inductive Answer where
  | value (v : SQObject)
  | error (e : SQObject)
  | undefined
  deriving DecidableEq, Repr

def answerOf (arg0 : Int) (r : Except (Stop Report Fault Empty) Control × Activation ρ) : Answer :=
  match r with
  | (.ok _, s) => .value (s.machine.stk arg0)
  | (.error (.raised .trap), s) => .error s.machine.vm.lasterror
  | (.error _, _) => .undefined

/-- An activation whose registers hold the operands. `arg0` may be one of the other two. -/
structure RegisterSite (env : ExecEnv ρ) (a b : BitVec 64) where
  start : Activation ρ
  arg0 : Int
  arg1 : Int
  arg2 : Int
  left : start.machine.stk arg2 = .ofInteger a
  right : start.machine.stk arg1 = .ofInteger b

/-- `a op b` on registers. -/
def RegisterSite.run {env : ExecEnv ρ} {a b : BitVec 64} (r : RegisterSite env a b)
    (op : Operator) : Except (Stop Report Fault Empty) Control × Activation ρ :=
  Prog.run (switch env op.opcode r.arg0 r.arg1 r.arg2 0) r.start

/-- An activation where `STK(selfidx)` has a slot for the key in `STK(arg2)` that holds the left
operand and can be assigned, and the lower half of `arg1` names the right operand. -/
structure SlotSite (env : ExecEnv ρ) (a b : BitVec 64) where
  start : Activation ρ
  arg0 : Int
  arg1 : Int
  arg2 : Int
  assigned : SQObject → Machine ρ
  right : start.machine.stk (arg1 % 2 ^ 16) = .ofInteger b
  get : env.get (start.machine.stk (arg1 % 2 ^ 32 / 2 ^ 16)) (start.machine.stk arg2) .normal
    (arg1 % 2 ^ 32 / 2 ^ 16) start.machine = (some (.ofInteger a), start.machine)
  set : ∀ v, env.set (start.machine.stk (arg1 % 2 ^ 32 / 2 ^ 16)) (start.machine.stk arg2) v
    (arg1 % 2 ^ 32 / 2 ^ 16) (start.machine.setStk arg0 v) = (some (), assigned v)
  target : ∀ v, (assigned v).stk arg0 = v

/-- `x[k] op= b`, and `x.k op= b`. -/
def SlotSite.run {env : ExecEnv ρ} {a b : BitVec 64} (f : SlotSite env a b)
    (op : Operator) : Except (Stop Report Fault Empty) Control × Activation ρ :=
  Prog.run (switch env .opComparith f.arg0 f.arg1 f.arg2 op.symbol.toNat) f.start

/-- The answer is the exact result modulo 2^64, or an error exactly where there is no result. -/
structure Specified (op : Operator) (a b : BitVec 64) (answer : Answer) : Prop where
  value : ∀ v, answer = .value v → v = .ofInteger (BitVec.ofInt 64 (op.exact a.toInt b.toInt))
  error : (∃ e, answer = .error e) ↔ NoResult op a b
  defined : answer ≠ .undefined

/-- The operator means the same on registers and on slots, and what it should mean. -/
def SameMeaning (op : Operator) (a b : BitVec 64) : Prop :=
  ∀ (ρ : Type) (env : ExecEnv ρ) (r : RegisterSite env a b) (f : SlotSite env a b),
    answerOf r.arg0 (r.run op) = answerOf f.arg0 (f.run op) ∧
      Specified op a b (answerOf r.arg0 (r.run op))

/-- The operands on which the two paths agree. -/
def Condition : Operator → BitVec 64 → BitVec 64 → Prop
  | .div, a, b => ¬(b = -1 ∧ (a = intMin64 ∨ a = intMin32))
  | .mod, a, b => b ≠ 0 ∧ ¬(b = -1 ∧ a = intMin64)
  | _, _, _ => True

/-! ## Evaluation -/

theorem run_stk (a : Int) (s : Activation ρ) :
    run (stk a) s = (.ok (s.machine.stk a), s) := rfl

theorem run_setStk (a : Int) (v : SQObject) (s : Activation ρ) :
    run (setStk a v) s = (.ok (), { s with machine := s.machine.setStk a v }) := rfl

theorem run_invoke {α : Type} (op : Operation) (f : Call ρ α) (s : Activation ρ) :
    run (invoke op f) s = (.ok (f s.machine).1, { s with machine := (f s.machine).2 }) := rfl

theorem tmask_integers (a b : BitVec 64) :
    tmask (.ofInteger a) (.ofInteger b) = .integers := by
  have h : otInteger.code ||| otInteger.code = otInteger.code := by decide
  exact if_pos h

/-- What an integer operation of the virtual machine comes to. -/
inductive IntResult where
  | value (n : BitVec 64)
  | raised (text : String)
  | undefined

/-- `/` where C++ evaluates it. -/
def quotient (a b : BitVec 64) : IntResult :=
  if undefinedDivision a b then .undefined else .value (a.sdiv b)

/-- `%` where C++ evaluates it. -/
def rest (a b : BitVec 64) : IntResult :=
  if undefinedDivision a b then .undefined else .value (a.srem b)

def functionDivide (a b : BitVec 64) : IntResult :=
  if b = 0 then .raised "division by zero"
  else if b = -1 ∧ a = intMin32 then .raised "integer overflow"
  else quotient a b

def functionRemainder (a b : BitVec 64) : IntResult :=
  if b = 0 then .raised "modulo by zero"
  else if b = -1 ∧ a = intMin32 then .value 0
  else rest a b

/-- The integer branch of `ARITH_OP`. -/
def functionResult : Operator → BitVec 64 → BitVec 64 → IntResult
  | .add, a, b => .value (a + b)
  | .sub, a, b => .value (a - b)
  | .mul, a, b => .value (a * b)
  | .div, a, b => functionDivide a b
  | .mod, a, b => functionRemainder a b

/-- The same for the instructions on registers; a failed `_OP_MOD` is not an error. -/
def macroResult : Operator → BitVec 64 → BitVec 64 → IntResult
  | .div, a, b => if b = 0 then .raised "division by zero" else quotient a b
  | op, a, b => functionResult op a b

def toAnswer (env : ExecEnv ρ) : IntResult → Answer
  | .value n => .value (.ofInteger n)
  | .raised text => .error (env.newString text)
  | .undefined => .undefined

theorem run_divide (a b : BitVec 64) (s : Activation ρ) :
    run (divide a b) s = if undefinedDivision a b then (.error (.raised .undefined), s)
      else (.ok (a.sdiv b), s) := by
  unfold divide
  split <;> rfl

theorem run_remainder (a b : BitVec 64) (s : Activation ρ) :
    run (remainder a b) s = if undefinedDivision a b then (.error (.raised .undefined), s)
      else (.ok (a.srem b), s) := by
  unfold remainder
  split <;> rfl

/-- `ARITH_OP` with a result of the integer branch, and what it leaves of the activation. -/
def arithRun (env : ArithEnv ρ) (s : Activation ρ) :
    IntResult → Except (Stop Report Fault Empty) (Option (BitVec 64)) × Activation ρ
  | .value n => (.ok (some n), s)
  | .raised text => (.ok none, { s with machine := s.machine.raiseError env.toPlatform text })
  | .undefined => (.error (.raised .undefined), s)

theorem run_guardedDivide (env : ArithEnv ρ) (a b : BitVec 64) (s : Activation ρ) :
    run (arithIntegers env '/'.toNat a b) s = arithRun env s (functionDivide a b) := by
  show run (if b = 0 then _ else if b = -1 ∧ a = intMin32 then _ else some <$> divide a b) s = _
  unfold functionDivide
  split
  · rfl
  · split
    · rfl
    · rw [Prog.run_map, run_divide, quotient]
      split <;> rfl

theorem run_guardedRemainder (env : ArithEnv ρ) (a b : BitVec 64) (s : Activation ρ) :
    run (arithIntegers env '%'.toNat a b) s = arithRun env s (functionRemainder a b) := by
  show run (if b = 0 then _ else if b = -1 ∧ a = intMin32 then pure (some 0)
    else some <$> remainder a b) s = _
  unfold functionRemainder
  split
  · rfl
  · split
    · rfl
    · rw [Prog.run_map, run_remainder, rest]
      split <;> rfl

theorem run_arithIntegers (env : ArithEnv ρ) (op : Operator) (a b : BitVec 64)
    (s : Activation ρ) :
    run (arithIntegers env op.symbol.toNat a b) s = arithRun env s (functionResult op a b) := by
  cases op with
  | add => rfl
  | sub => rfl
  | mul => rfl
  | div => exact run_guardedDivide env a b s
  | mod => exact run_guardedRemainder env a b s

theorem run_arithOp (env : ArithEnv ρ) (op : Operator) (a b : BitVec 64) (s : Activation ρ) :
    run (arithOp env op.symbol.toNat (.ofInteger a) (.ofInteger b)) s =
      Prog.after (arithRun env s (functionResult op a b))
        fun r s' => (.ok (r.map SQObject.ofInteger), s') := by
  have hres : arithResult env op.symbol.toNat (.ofInteger a) (.ofInteger b) =
      (do
        let res ← arithIntegers env op.symbol.toNat a b
        pure (res.map SQObject.ofInteger)) := by
    unfold arithResult
    rw [tmask_integers]
    rfl
  rw [arithOp, hres, Prog.run_bind, Prog.run_bind, run_arithIntegers]
  cases functionResult op a b <;> rfl

/-! ## The two paths -/

theorem run_binary {α : Type} (f : SQObject → SQObject → Exec ρ α) {env : ExecEnv ρ}
    {a b : BitVec 64} (r : RegisterSite env a b) :
    run (binary f r.arg1 r.arg2) r.start = run (f (.ofInteger a) (.ofInteger b)) r.start := by
  rw [binary, Prog.run_bind, run_stk, Prog.after_ok, Prog.run_bind, run_stk, Prog.after_ok,
    r.left, r.right]

/-- The answer of an instruction that stores a value in `TARGET`. -/
def valueAnswer : Except (Stop Report Fault Empty) SQObject × Activation ρ → Answer
  | (.ok v, _) => .value v
  | (.error (.raised .trap), s) => .error s.machine.vm.lasterror
  | (.error _, _) => .undefined

theorem answer_storeTarget (arg0 : Int) (v : Exec ρ SQObject) (s : Activation ρ) :
    answerOf arg0 (run (storeTarget arg0 v) s) = valueAnswer (run v s) := by
  rw [storeTarget, Prog.run_bind]
  obtain ⟨r, s'⟩ := run v s
  cases r with
  | ok v =>
    show Answer.value ((s'.machine.setStk arg0 v).stk arg0) = _
    rw [Machine.stk_setStk_same]
    rfl
  | error e =>
    cases e with
    | raised f => cases f <;> rfl
    | broken w => rfl
    | outOfFuel f => rfl

theorem run_arithMacro (env : ArithEnv ρ) (op : Char) (ints : BitVec 64 → BitVec 64 → BitVec 64)
    (a b : BitVec 64) (s : Activation ρ) :
    run (arithMacro env op ints (.ofInteger a) (.ofInteger b)) s =
      (.ok (.ofInteger (ints a b)), s) := by
  rw [arithMacro, tmask_integers]
  rfl

theorem run_arithNoZero (env : ArithEnv ρ) (a b : BitVec 64) (s : Activation ρ) :
    run (arithNoZero env "division by zero" (.ofInteger a) (.ofInteger b)) s =
      if b = 0 then (.error (.raised .trap),
        { s with machine := s.machine.raiseError env.toPlatform "division by zero" })
      else if undefinedDivision a b then (.error (.raised .undefined), s)
      else (.ok (.ofInteger (a.sdiv b)), s) := by
  rw [arithNoZero, tmask_integers]
  show run (if b = 0 then _ else SQObject.ofInteger <$> divide a b) s = _
  split
  · rfl
  · rw [Prog.run_map, run_divide]
    split <;> rfl

theorem register_divide {env : ExecEnv ρ} {a b : BitVec 64} (r : RegisterSite env a b) :
    answerOf r.arg0 (r.run .div) = toAnswer env (macroResult .div a b) := by
  show answerOf r.arg0 (run (storeTarget r.arg0 _) r.start) = _
  rw [answer_storeTarget, run_binary, run_arithNoZero]
  show _ = toAnswer env (if b = 0 then _ else if undefinedDivision a b then _ else _)
  split
  · rfl
  · split <;> rfl

/-- On registers every operator but `%` stops on an error. -/
theorem register_answer {env : ExecEnv ρ} {a b : BitVec 64} (r : RegisterSite env a b)
    (op : Operator) (hop : op ≠ .mod) :
    answerOf r.arg0 (r.run op) = toAnswer env (macroResult op a b) := by
  cases op with
  | add =>
    show answerOf r.arg0 (run (storeTarget r.arg0 _) r.start) = _
    rw [answer_storeTarget, run_binary, run_arithMacro]
    rfl
  | sub =>
    show answerOf r.arg0 (run (storeTarget r.arg0 _) r.start) = _
    rw [answer_storeTarget, run_binary, run_arithMacro]
    rfl
  | mul =>
    show answerOf r.arg0 (run (storeTarget r.arg0 _) r.start) = _
    rw [answer_storeTarget, run_binary, run_arithMacro]
    rfl
  | div => exact register_divide r
  | mod => exact absurd rfl hop

/-- `%` on registers leaves `TARGET` as it was where `ARITH_OP` raises an error. -/
theorem register_mod {env : ExecEnv ρ} {a b : BitVec 64} (r : RegisterSite env a b) :
    answerOf r.arg0 (r.run .mod) = match functionRemainder a b with
      | .raised _ => .value (r.start.machine.stk r.arg0)
      | res => toAnswer env res := by
  show answerOf r.arg0 (run (modOp env r.arg0 r.arg1 r.arg2) r.start) = _
  rw [modOp, Prog.run_bind, run_binary]
  erw [run_arithOp env.toArithEnv .mod]
  show answerOf r.arg0 (Prog.after (Prog.after (arithRun _ _ (functionRemainder a b)) _) _) = _
  cases functionRemainder a b with
  | value n =>
    show Answer.value ((r.start.machine.setStk r.arg0 _).stk r.arg0) = _
    rw [Machine.stk_setStk_same]
    rfl
  | raised text => rfl
  | undefined => rfl

theorem slot_answer {env : ExecEnv ρ} {a b : BitVec 64} (f : SlotSite env a b) (op : Operator) :
    answerOf f.arg0 (f.run op) = toAnswer env (functionResult op a b) := by
  show answerOf f.arg0 (run (comparithOp env f.arg0 f.arg1 f.arg2 op.symbol.toNat) f.start) = _
  simp only [comparithOp, guardUnit, derefInc, derefIncBody, Prog.run_bind, run_stk, run_invoke,
    Prog.after_ok, f.get, f.right, run_arithOp]
  cases functionResult op a b with
  | value n =>
    simp only [arithRun, Prog.after_ok, Option.map_some, derefIncStore, Prog.run_bind, run_setStk,
      run_invoke, f.set]
    show Answer.value ((f.assigned (.ofInteger n)).stk f.arg0) = _
    rw [f.target]
    rfl
  | raised text => rfl
  | undefined => rfl

/-! ## Exact arithmetic -/

theorem fits_toInt (n : BitVec 64) : Fits n.toInt := by
  have hlo := n.le_toInt
  have hhi := n.toInt_lt
  unfold Fits
  omega

/-- The only quotient outside the 64-bit integers is that of the least one by -1. -/
theorem fits_quotient (a b : BitVec 64) :
    Fits (a.toInt.tdiv b.toInt) ↔ ¬(a = intMin64 ∧ b = -1) := by
  by_cases h : a = intMin64 ∧ b = -1
  · obtain ⟨rfl, rfl⟩ := h
    decide
  · have hs : a ≠ intMin64 ∨ b ≠ -1 := by
      rcases Classical.em (a = intMin64) with ha | ha
      · exact .inr fun hb => h ⟨ha, hb⟩
      · exact .inl ha
    have ht : (a.sdiv b).toInt = a.toInt.tdiv b.toInt := BitVec.toInt_sdiv_of_ne_or_ne a b hs
    rw [← ht]
    exact ⟨fun _ => h, fun _ => fits_toInt _⟩

theorem undefinedDivision_iff (op : Operator) (h : op = .div ∨ op = .mod) (a b : BitVec 64) :
    undefinedDivision a b = true ↔ NoResult op a b := by
  have hf := fits_quotient a b
  unfold undefinedDivision NoResult
  simp only [Bool.or_eq_true, Bool.and_eq_true, beq_iff_eq, h, true_and]
  tauto

theorem sdiv_exact (a b : BitVec 64) : a.sdiv b = BitVec.ofInt 64 (a.toInt.tdiv b.toInt) := by
  apply BitVec.eq_of_toInt_eq
  rw [BitVec.toInt_sdiv, BitVec.toInt_ofInt]

theorem srem_exact (a b : BitVec 64) : a.srem b = BitVec.ofInt 64 (a.toInt.tmod b.toInt) := by
  rw [← BitVec.toInt_srem, BitVec.ofInt_toInt]

theorem add_exact (a b : BitVec 64) : a + b = BitVec.ofInt 64 (a.toInt + b.toInt) := by
  rw [BitVec.ofInt_add, BitVec.ofInt_toInt, BitVec.ofInt_toInt]

theorem sub_exact (a b : BitVec 64) : a - b = BitVec.ofInt 64 (a.toInt - b.toInt) := by
  apply BitVec.eq_of_toInt_eq
  rw [BitVec.toInt_sub, BitVec.toInt_ofInt]

theorem mul_exact (a b : BitVec 64) : a * b = BitVec.ofInt 64 (a.toInt * b.toInt) := by
  rw [BitVec.ofInt_mul, BitVec.ofInt_toInt, BitVec.ofInt_toInt]

/-! ## Agreement -/

/-- A result that is the specified one. -/
def Right (op : Operator) (a b : BitVec 64) : IntResult → Prop
  | .value n => n = BitVec.ofInt 64 (op.exact a.toInt b.toInt) ∧ ¬NoResult op a b
  | .raised _ => NoResult op a b
  | .undefined => False

theorem specified_iff (env : ExecEnv ρ) (op : Operator) (a b : BitVec 64) (res : IntResult) :
    Specified op a b (toAnswer env res) ↔ Right op a b res := by
  cases res with
  | value n =>
    constructor
    · intro h
      have hv := h.value _ rfl
      refine ⟨congrArg SQObject.unVal hv, fun hn => ?_⟩
      obtain ⟨e, he⟩ := h.error.mpr hn
      cases he
    · intro ⟨hn, hr⟩
      exact ⟨fun v hv => by cases hv; rw [hn], ⟨fun ⟨e, he⟩ => (by cases he), fun h => absurd h hr⟩,
        nofun⟩
  | raised text =>
    constructor
    · intro h
      exact h.error.mp ⟨_, rfl⟩
    · intro hr
      exact ⟨nofun, ⟨fun _ => hr, fun _ => ⟨_, rfl⟩⟩, nofun⟩
  | undefined =>
    constructor
    · intro h
      exact absurd rfl h.defined
    · intro h
      exact h.elim

theorem right_quotient (a b : BitVec 64) :
    Right .div a b (quotient a b) ↔ ¬NoResult .div a b := by
  have hu := undefinedDivision_iff .div (.inl rfl) a b
  unfold quotient
  split
  · next h => exact ⟨False.elim, fun hn => hn (hu.mp h)⟩
  · next h =>
    have hn : ¬NoResult .div a b := fun hn => h (hu.mpr hn)
    exact ⟨fun _ => hn, fun _ => ⟨sdiv_exact a b, hn⟩⟩

theorem right_rest (a b : BitVec 64) : Right .mod a b (rest a b) ↔ ¬NoResult .mod a b := by
  have hu := undefinedDivision_iff .mod (.inr rfl) a b
  unfold rest
  split
  · next h => exact ⟨False.elim, fun hn => hn (hu.mp h)⟩
  · next h =>
    have hn : ¬NoResult .mod a b := fun hn => h (hu.mpr hn)
    exact ⟨fun _ => hn, fun _ => ⟨srem_exact a b, hn⟩⟩

theorem noResult_iff (op : Operator) (a b : BitVec 64) :
    NoResult op a b ↔ (op = .div ∨ op = .mod) ∧ (b = 0 ∨ (a = intMin64 ∧ b = -1)) := by
  have h := fits_quotient a b
  unfold NoResult
  tauto

/-- Sums, differences and products need no condition. -/
theorem sameMeaning_of_value (op : Operator) (a b n : BitVec 64) (hop : op ≠ .div ∧ op ≠ .mod)
    (hf : functionResult op a b = .value n) (hm : macroResult op a b = .value n)
    (hn : n = BitVec.ofInt 64 (op.exact a.toInt b.toInt)) : SameMeaning op a b := by
  intro ρ env r f
  have hr : ¬NoResult op a b := fun h => h.1.elim hop.1 hop.2
  rw [register_answer r op hop.2, slot_answer, hf, hm]
  exact ⟨rfl, (specified_iff env op a b _).mpr ⟨hn, hr⟩⟩

/-! ### Sites

Activations for given operands, with an environment whose only slot holds the left one. -/

/-- A heap with one slot, which holds `a`. -/
def slotEnv (a : BitVec 64) : ExecEnv Unit :=
  { (default : ExecEnv Unit) with
    newString := fun text => ⟨otString, BitVec.ofNat 64 text.length⟩
    get := fun _ _ _ _ m => (some (.ofInteger a), m)
    set := fun _ _ _ _ m => (some (), m) }

/-- The left operand in the first register and the right one in the second. -/
def operands (a b : BitVec 64) : Activation Unit where
  machine := { (default : Machine Unit) with heap := { (default : Heap Unit) with
    cells := fun _ i => if i = 0 then .ofInteger a else if i = 1 then .ofInteger b else .ofNull } }
  traps := 0

def registers (a b : BitVec 64) : RegisterSite (slotEnv a) a b where
  start := operands a b
  arg0 := 2
  arg1 := 1
  arg2 := 0
  left := rfl
  right := rfl

def slot (a b : BitVec 64) : SlotSite (slotEnv a) a b where
  start := operands a b
  arg0 := 2
  arg1 := 1
  arg2 := 3
  assigned := fun v => (operands a b).machine.setStk 2 v
  right := rfl
  get := rfl
  set := fun _ => rfl
  target := fun _ => Machine.stk_setStk_same 2 _

theorem not_sameMeaning_zero (a b : BitVec 64) (hb : b = 0) : ¬SameMeaning .mod a b := by
  intro h
  have hs := (h Unit (slotEnv a) (registers a b) (slot a b)).1
  have hf : functionRemainder a b = .raised "modulo by zero" := if_pos hb
  rw [register_mod, slot_answer, functionResult, hf] at hs
  cases hs

/-- Where `%` does not stop on an error, both paths compute the same. -/
theorem sameMeaning_rest (a b : BitVec 64) (hb : b ≠ 0) :
    SameMeaning .mod a b ↔ ¬NoResult .mod a b := by
  have hr : ∀ (ρ : Type) (env : ExecEnv ρ) (r : RegisterSite env a b),
      answerOf r.arg0 (r.run .mod) = toAnswer env (functionRemainder a b) := by
    intro ρ env r
    rw [register_mod, functionRemainder, if_neg hb]
    split
    · next h => unfold rest at h; split at h <;> (try split at h) <;> cases h
    · rfl
  have hright : Right .mod a b (functionRemainder a b) ↔ ¬NoResult .mod a b := by
    rw [functionRemainder, if_neg hb]
    split
    · next h =>
      obtain ⟨rfl, rfl⟩ := h
      exact iff_of_true ⟨by decide, by decide⟩ (by decide)
    · exact right_rest a b
  constructor
  · intro h
    have hs := (h Unit (slotEnv a) (registers a b) (slot a b)).2
    rw [hr, specified_iff] at hs
    exact hright.mp hs
  · intro h ρ env r f
    rw [hr, slot_answer]
    exact ⟨rfl, (specified_iff env .mod a b _).mpr (hright.mpr h)⟩

theorem sameMeaning_mod (a b : BitVec 64) :
    SameMeaning .mod a b ↔ b ≠ 0 ∧ ¬(b = -1 ∧ a = intMin64) := by
  by_cases hb : b = 0
  · exact iff_of_false (not_sameMeaning_zero a b hb) fun h => h.1 hb
  · rw [sameMeaning_rest a b hb, noResult_iff]
    tauto

/-- A quotient of `-INT_MIN` is an error on slots only. -/
theorem not_sameMeaning_overflow : ¬SameMeaning .div intMin32 (-1) := by
  intro h
  have hs := (h Unit (slotEnv intMin32) (registers _ _) (slot _ _)).1
  rw [register_answer _ _ (by decide), slot_answer] at hs
  have hm : macroResult .div intMin32 (-1) = .value (intMin32.sdiv (-1)) := rfl
  have hf : functionResult .div intMin32 (-1) = .raised "integer overflow" := rfl
  rw [hm, hf] at hs
  cases hs

theorem sameMeaning_quotient (a b : BitVec 64) (h : ¬(b = -1 ∧ a = intMin32)) :
    SameMeaning .div a b ↔ b = 0 ∨ ¬NoResult .div a b := by
  have hsame : functionResult .div a b = macroResult .div a b := by
    show functionDivide a b = if b = 0 then _ else _
    rw [functionDivide, if_neg h]
  have hright : Right .div a b (macroResult .div a b) ↔ b = 0 ∨ ¬NoResult .div a b := by
    show Right .div a b (if b = 0 then _ else _) ↔ _
    split
    · next hb => exact iff_of_true ⟨.inl rfl, .inl hb⟩ (.inl hb)
    · next hb => rw [right_quotient]; exact ⟨.inr, fun ho => ho.resolve_left hb⟩
  constructor
  · intro hag
    have hs := (hag Unit (slotEnv a) (registers a b) (slot a b)).2
    rw [register_answer _ _ (by decide), specified_iff] at hs
    exact hright.mp hs
  · intro hn ρ env r f
    rw [register_answer r _ (by decide), slot_answer, hsame]
    exact ⟨rfl, (specified_iff env .div a b _).mpr (hright.mpr hn)⟩

theorem sameMeaning_div (a b : BitVec 64) :
    SameMeaning .div a b ↔ ¬(b = -1 ∧ (a = intMin64 ∨ a = intMin32)) := by
  by_cases h : b = -1 ∧ a = intMin32
  · obtain ⟨rfl, rfl⟩ := h
    exact iff_of_false not_sameMeaning_overflow fun hn => hn ⟨rfl, .inr rfl⟩
  · rw [sameMeaning_quotient a b h, noResult_iff]
    have hz : b = 0 → ¬b = -1 := by
      intro hb
      rw [hb]
      decide
    tauto

/-- Both paths of an operator give what exact arithmetic gives, on these operands only. -/
theorem sameMeaning_iff (op : Operator) (a b : BitVec 64) :
    SameMeaning op a b ↔ Condition op a b := by
  cases op with
  | add =>
    exact iff_of_true (sameMeaning_of_value .add a b _ (by decide) rfl rfl (add_exact a b)) trivial
  | sub =>
    exact iff_of_true (sameMeaning_of_value .sub a b _ (by decide) rfl rfl (sub_exact a b)) trivial
  | mul =>
    exact iff_of_true (sameMeaning_of_value .mul a b _ (by decide) rfl rfl (mul_exact a b)) trivial
  | div => exact sameMeaning_div a b
  | mod => exact sameMeaning_mod a b

/-- `1 % 0` on registers is no error. -/
theorem not_sameMeaning : ¬∀ (op : Operator) (a b : BitVec 64), SameMeaning op a b := by
  intro h
  exact not_sameMeaning_zero 1 0 rfl (h .mod 1 0)

end Sqnim.Vm.ArithAgreement
