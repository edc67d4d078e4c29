import Sqnim.Compiler.Numeral
import Sqnim.Compiler.AddInstruction
import Sqnim.Compiler.Parsing
import Sqnim.Vm.Loads

/-!
# What an integer literal is worth

From the numeral in the text to the instruction that loads it or appends it to an array, and to the
value in the register.
-/
namespace Sqnim.Compiler.SQFuncState

open Sqnim.Lib Sqnim.Vm Sqnim.Object
open Prog (raise gets update when report demand)

/-! ## The load -/

/-- The compiler's own limits leave one more register and one more literal. -/
structure Room (fs : SQFuncState) : Prop where
  stack : fs.vlocals.length + 1 ≤ fs.stacksize ∨ (fs.stacksize : Int) ≤ maxFuncStacksize
  literals : (fs.literals.length : Int) < maxLiterals

/-- A new register on the stack of targets. -/
def withTarget (fs : SQFuncState) : SQFuncState :=
  { fs with
    vlocals := fs.vlocals ++ [temporary]
    stacksize := max fs.stacksize (fs.vlocals.length + 1)
    targetstack := ⟨fs.vlocals.length⟩ :: fs.targetstack }

variable {fs : SQFuncState} {w : Int}

theorem run_pushTarget (h : fs.Room) :
    Prog.run pushTarget fs = (.ok ⟨fs.vlocals.length⟩, fs.withTarget) := by
  have hroom : ¬ (fs.vlocals.length + 1 > fs.stacksize ∧
      (fs.stacksize : Int) > maxFuncStacksize) := by
    obtain h | h := h.stack <;> omega
  have halloc : Prog.run allocStackPos fs = (.ok ⟨fs.vlocals.length⟩, { fs with
      vlocals := fs.vlocals ++ [temporary]
      stacksize := max fs.stacksize (fs.vlocals.length + 1) }) := by
    rw [allocStackPos, Prog.run_gets_bind, Prog.run_gets_bind, Prog.run_bind]
    show Prog.run (update _ >>= fun _ => _) fs = _
    rw [Prog.run_update_bind, when, if_neg hroom]
    rfl
  rw [pushTarget, Prog.run_bind, halloc]
  rfl

/-- The table of literals has an entry for a constant. -/
theorem run_getConstant (fs : SQFuncState) (c : Scalar) (h : (fs.literals.length : Int) < maxLiterals) :
    ∃ (k : Nat) (lits : List Scalar), Prog.run (getConstant c) fs =
      (.ok (k : Int), { fs with literals := lits }) ∧ lits[k]? = some c ∧
        (k : Int) < maxLiterals := by
  cases hfind : fs.literals.idxOf? c with
  | some k =>
    obtain ⟨hlt, hk, -⟩ := List.idxOf?_eq_some_iff.mp hfind
    refine ⟨k, fs.literals, ?_, ?_, by omega⟩
    · rw [getConstant, Prog.run_gets_bind, hfind]
      rfl
    · rw [List.getElem?_eq_getElem hlt, hk]
  | none =>
    have hfull : ¬ ((fs.literals.length + 1 : Int) > maxLiterals) := by omega
    refine ⟨fs.literals.length, fs.literals ++ [c], ?_, ?_, h⟩
    · rw [getConstant, Prog.run_gets_bind, hfind]
      show Prog.run (update _ >>= fun _ => _) fs = _
      rw [Prog.run_update_bind, when, if_neg hfull]
      rfl
    · rw [List.getElem?_append_right (Nat.le_refl _), Nat.sub_self]
      rfl

/-- How the instruction that ends the code loads an integer to a register. -/
inductive LoadedBy (w : Int) (t : Nat) (lits : List Scalar) (i : SQInstruction) : Prop
  | loadint (hop : i.op = .opLoadint) (htarget : i.arg0.value = (t : Int) % 256)
      (hvalue : i.arg1.value = w)
  | load (k : Nat) (hop : i.op = .opLoad) (htarget : i.arg0.value = (t : Int) % 256)
      (hindex : i.arg1.value = k) (hk : lits[k]? = some (.int w))
  | dload (k : Nat) (hop : i.op = .opDload) (htarget : i.arg2.value = (t : Int) % 256)
      (hindex : i.arg3.value = k) (hk : lits[k]? = some (.int w))

/-- An integer is loaded to a new register by the last instruction of the code. -/
structure Emitted (w : Int) (fs gs : SQFuncState) : Prop where
  targetstack : gs.targetstack = ⟨fs.vlocals.length⟩ :: fs.targetstack
  vlocals : gs.vlocals = fs.vlocals ++ [temporary]
  last : ∃ i, gs.instructions.getLast? = some i ∧ LoadedBy w fs.vlocals.length gs.literals i ∧
    (i.op ≠ .opDload → gs.optimization = true) ∧
    ((∀ p ∈ fs.instructions, p.arg0.value < 256) → i.arg0.value < 256)

theorem narrow32_of_fits {v : Int} (hle : -2 ^ 31 ≤ v) (hlt : v < 2 ^ 31) :
    (Operand.imm v).narrow32.value = v := by
  have h : v.bmod (2 ^ 32) = v := Int.bmod_eq_of_le (by omega) (by omega)
  exact h

theorem arg1_make (op : SQOpcode) (o : Operand) (v : Int) :
    (SQInstruction.make op [o, .imm v]).arg1 = (Operand.imm v).narrow32 := rfl

theorem arg0_make_lt (op : SQOpcode) (args : List Operand) :
    (SQInstruction.make op args).arg0.value < 256 := Int.emod_lt_of_pos _ (by decide)

theorem fusion_loadint (fs : SQFuncState) (args : List Operand) :
    fs.fusion (.make .opLoadint args) = .push (.make .opLoadint args) := by
  rw [fusion]
  split
  · split <;> rfl
  · rfl

theorem fusion_load (fs : SQFuncState) (args : List Operand) :
    fs.fusion (.make .opLoad args) = .push (.make .opLoad args) ∨
      ∃ pi ∈ fs.instructions, (SQInstruction.make .opLoad args).arg1.value < 256 ∧
        fs.fusion (.make .opLoad args) = .merge { pi with
          op := .opDload, arg2 := (SQInstruction.make .opLoad args).arg0,
          arg3 := (SQInstruction.make .opLoad args).arg1.narrow8 } := by
  rw [fusion]
  split
  · next pi hlast =>
    split
    · by_cases h : pi.op = .opLoad ∧ (SQInstruction.make .opLoad args).arg1.value < 256
      · exact .inr ⟨pi, List.mem_of_getLast? hlast, h.2, if_pos h⟩
      · exact .inl (if_neg h)
    · exact .inl rfl
  · exact .inl rfl

theorem run_addInstruction (op : SQOpcode) (args : List Operand)
    (h : fs.fusion (.make op args) ≠ .line (.make op args)) :
    Prog.run (addInstruction op args) fs = (.ok (), fs.apply (fs.fusion (.make op args))) := by
  rw [addInstruction, run_addSQInstruction, if_neg (fun hline => h hline.1)]

/-- `EmitLoadConstInt` -/
theorem run_emitLoadConstInt (w : Int) (hroom : fs.Room) : ∃ gs : SQFuncState,
    Prog.run (emitLoadConstInt w ⟨fs.vlocals.length⟩) fs.withTarget = (.ok (), gs) ∧
      Emitted w fs gs := by
  rw [emitLoadConstInt]
  by_cases hfits : fitsInt w = true
  · rw [if_pos hfits]
    have hpush := fusion_loadint fs.withTarget [.reg ⟨fs.vlocals.length⟩, .imm w]
    refine ⟨_, run_addInstruction _ _ (by rw [hpush]; nofun), ?_⟩
    rw [hpush]
    refine ⟨rfl, rfl, _, List.getLast?_concat, .loadint rfl rfl ?_, fun _ => rfl,
      fun _ => arg0_make_lt _ _⟩
    simp only [fitsInt, decide_eq_true_eq] at hfits
    rw [arg1_make]
    exact narrow32_of_fits (by omega) (by omega)
  · rw [if_neg hfits]
    obtain ⟨k, lits, hrun, hk, hmax⟩ := run_getConstant fs.withTarget (.int w)
      hroom.literals
    rw [Prog.run_bind, hrun, Prog.after_ok]
    have hvalue : (SQInstruction.make .opLoad
        [.reg ⟨fs.vlocals.length⟩, .imm (k : Int)]).arg1.value = k := by
      have hk31 : (k : Int) < 2 ^ 31 := by
        have : maxLiterals = 2 ^ 31 - 1 := rfl
        omega
      rw [arg1_make]
      exact narrow32_of_fits (by omega) hk31
    obtain hpush | ⟨pi, hmem, hsmall, hmerge⟩ := fusion_load { fs.withTarget with literals := lits }
      [.reg ⟨fs.vlocals.length⟩, .imm (k : Int)]
    · refine ⟨_, run_addInstruction _ _ (by rw [hpush]; nofun), ?_⟩
      rw [hpush]
      exact ⟨rfl, rfl, _, List.getLast?_concat, .load k rfl rfl hvalue hk, fun _ => rfl,
        fun _ => arg0_make_lt _ _⟩
    · refine ⟨_, run_addInstruction _ _ (by rw [hmerge]; nofun), ?_⟩
      rw [hmerge]
      refine ⟨rfl, rfl, _, List.getLast?_concat, .dload k rfl rfl ?_ hk,
        fun h => absurd rfl h, fun h => h pi hmem⟩
      show (SQInstruction.make .opLoad
        [.reg ⟨fs.vlocals.length⟩, .imm (k : Int)]).arg1.value % 256 = k
      rw [hvalue] at hsmall ⊢
      omega

theorem run_emitInt (w : Int) (hroom : fs.Room) : ∃ gs : SQFuncState,
    Prog.run (emitInt w) fs = (.ok (), gs) ∧ Emitted w fs gs := by
  obtain ⟨gs, hrun, hemitted⟩ := run_emitLoadConstInt w hroom
  refine ⟨gs, ?_, hemitted⟩
  rw [emitInt, Prog.run_bind, run_pushTarget hroom, Prog.after_ok, hrun]

/-! ## The value in the register -/

section Evaluation

variable {ρ : Type} {env : ExecEnv ρ} {code : List SQInstruction} {lits : List Scalar}
  {a : Activation ρ} {j t : Nat} {i : SQInstruction}

/-- What a machine does at the instruction that loads an integer. -/
structure Loaded (w : Int) (t : Nat) (i : SQInstruction) (j : Nat) (a a' : Activation ρ) :
    Prop where
  ip : a'.ip? = some ((j : Int) + 1)
  traps : a'.traps = a.traps
  same : SameButRegisters a.machine a'.machine
  value : a'.machine.stk ((t : Int) % 256) = ofInt w
  /-- Only registers that an operand can name change. -/
  others : i.arg0.value < 256 → ∀ r : Int, 256 ≤ r → a'.machine.stk r = a.machine.stk r

theorem next_of_loadedBy {w : Int} (raiseerror : Bool) (h : LoadedBy w t lits i)
    (hcode : InCode env code a) (hlits : InLiterals env lits a) (hip : a.ip? = some (j : Int))
    (hi : code[j]? = some i) : ∃ a' : Activation ρ,
      (Phase.loop a).next env raiseerror = .loop a' ∧ Loaded w t i j a a' := by
  have hnext : (a.atIp ((j : Int) + 1)).ip? = some ((j : Int) + 1) := Activation.ip?_atIp hip _
  have hsame := SameButRegisters.atIp a.machine ((j : Int) + 1)
  have hset : ∀ {m : Machine ρ} {k r : Int} {v : SQObject}, k < 256 → 256 ≤ r →
      (m.setStk k v).stk r = m.stk r := fun hk hr => by
    rw [Machine.stk_setStk, if_neg (by omega)]
  cases h with
  | loadint hop htarget hvalue =>
    refine ⟨_, next_loadint raiseerror hcode hip hi hop, hnext, rfl, hsame.setStk _ _, ?_,
      fun hbyte r hr => hset hbyte hr⟩
    rw [← htarget, hvalue]
    exact Machine.stk_setStk_same _ _
  | load k hop htarget hindex hk =>
    refine ⟨_, next_load raiseerror hcode hlits hip hi hop hindex hk, hnext, rfl,
      hsame.setStk _ _, ?_, fun hbyte r hr => hset hbyte hr⟩
    rw [← htarget]
    exact Machine.stk_setStk_same _ _
  | dload k hop htarget hindex hk =>
    refine ⟨_, next_dload raiseerror hcode hlits hip hi hop hindex hk, hnext, rfl,
      (hsame.setStk _ _).setStk _ _, ?_,
      fun hbyte r hr => (hset (by omega) hr).trans (hset hbyte hr)⟩
    rw [← htarget]
    exact Machine.stk_setStk_same _ _

end Evaluation

/-- The last instruction of the code puts an integer in the register on top of the targets. -/
def Loads (v : Int) (fs gs : SQFuncState) : Prop :=
  gs.targetstack = ⟨fs.vlocals.length⟩ :: fs.targetstack ∧
    ∃ i, gs.instructions.getLast? = some i ∧
      ∀ (ρ : Type) (env : ExecEnv ρ) (raiseerror : Bool) (code : List SQInstruction)
        (a : Activation ρ) (j : Nat), Running env code gs.literals a → code[j]? = some i →
        a.ip? = some (j : Int) → ∃ a' : Activation ρ,
          (Phase.loop a).next env raiseerror = .loop a' ∧ a'.ip? = some ((j : Int) + 1) ∧
            a'.machine.stk fs.vlocals.length = .ofInteger (BitVec.ofInt 64 v)

theorem Emitted.loads {v : Int} {gs : SQFuncState} (h : Emitted w fs gs)
    (hv : BitVec.ofInt 64 w = BitVec.ofInt 64 v) (hbyte : fs.vlocals.length < 256) :
    Loads v fs gs := by
  obtain ⟨i, hlast, hloaded, -⟩ := h.last
  refine ⟨h.targetstack, i, hlast, ?_⟩
  intro ρ env raiseerror code a j hrunning hi hip
  obtain ⟨a', hnext, hload⟩ :=
    next_of_loadedBy raiseerror hloaded hrunning.inCode hrunning.literals hip hi
  refine ⟨a', hnext, hload.ip, ?_⟩
  have hvalue := hload.value
  rw [show (fs.vlocals.length : Int) % 256 = fs.vlocals.length by omega, ofInt, hv] at hvalue
  exact hvalue

/-! ### A register that no operand can name -/

/-- The machine of a function with this code and these integers, and null in every register. -/
def literalEnv (lits : List Scalar) (code : List SQInstruction) : ExecEnv Unit :=
  { (default : ExecEnv Unit) with
    instructionAt := fun _ ip => code.getD ip.toNat (.make .opLine [])
    literal := fun _ k => match lits[k.toNat]? with
      | some (.int v) => ofInt v
      | _ => .ofNull }

def atInstruction (ip : Int) : Activation Unit where
  machine := { (default : Machine Unit) with
    vm := { (default : SQVM) with callsstack := [{ (default : CallInfo) with ip }] } }
  traps := 0

theorem running_literalEnv (lits : List Scalar) (code : List SQInstruction) (a : Activation Unit) :
    Running (literalEnv lits code) code lits a where
  code m _ j i hi := by
    show code.getD (j : Int).toNat _ = i
    rw [Int.toNat_natCast, List.getD_eq_getElem?_getD, hi]
    rfl
  literals m _ k v hk := by
    show (match lits[(k : Int).toNat]? with
      | some (.int v) => ofInt v
      | _ => .ofNull) = ofInt v
    rw [Int.toNat_natCast, hk]

theorem Emitted.not_loads {v : Int} {gs : SQFuncState} (h : Emitted w fs gs)
    (hbytes : ∀ i ∈ fs.instructions, i.arg0.value < 256) (hbyte : 256 ≤ fs.vlocals.length) :
    ¬ Loads v fs gs := by
  rintro ⟨-, i, hlast, hloads⟩
  obtain ⟨i', hlast', hloaded, -, hlow⟩ := h.last
  cases Option.some.inj (hlast.symm.trans hlast')
  have hi : gs.instructions[gs.instructions.length - 1]? = some i := by
    rw [← List.getLast?_eq_getElem?, hlast]
  have hrunning := running_literalEnv gs.literals gs.instructions
    (atInstruction (gs.instructions.length - 1 : Nat))
  obtain ⟨a, hnext, -, hvalue⟩ := hloads Unit _ false _ _ _ hrunning hi rfl
  obtain ⟨a', hnext', hload⟩ :=
    next_of_loadedBy false hloaded hrunning.inCode hrunning.literals rfl hi
  cases hnext.symm.trans hnext'
  rw [hload.others (hlow hbytes) _ (by omega)] at hvalue
  cases hvalue

/-! ## An element of an array -/

/-- The end of an element of an array. -/
def appendElement : FuncM Unit := do
  let val ← popTarget
  let array ← topTarget
  addInstruction .opAppendarray [.reg array, .reg val, .imm aatStack]

/-- The instructions at the end of the code append an integer to the array on top of the targets,
and change nothing else but registers. -/
def Appends (v : Int) (fs hs : SQFuncState) : Prop :=
  ∃ (arr : StackPos) (pre suffix : List SQInstruction), fs.targetstack.head? = some arr ∧
    hs.targetstack = fs.targetstack ∧ hs.instructions = pre ++ suffix ∧ suffix ≠ [] ∧
      ∀ (ρ : Type) (env : ExecEnv ρ) (raiseerror : Bool) (code : List SQInstruction)
        (a : Activation ρ) (j : Nat), Running env code hs.literals a →
        (∀ (k : Nat) (i : SQInstruction), suffix[k]? = some i → code[j + k]? = some i) →
        a.ip? = some (j : Int) → ∃ m : Activation ρ, SameButRegisters a.machine m.machine ∧
          m.traps = a.traps ∧ m.ip? = some ((j + suffix.length : Nat) : Int) ∧
            (Phase.next env raiseerror)^[suffix.length] (.loop a) =
              .loop (appended env m (Operand.reg arr).narrow8.value
                (.ofInteger (BitVec.ofInt 64 v)))

theorem run_topTarget (fs : SQFuncState) {p : StackPos} {ts : List StackPos}
    (h : fs.targetstack = p :: ts) : Prog.run topTarget fs = (.ok p, fs) := by
  have hmet : Judged.met (Event.top fs) = true := by
    show decide (fs.targetstack ≠ []) = true
    rw [h]
    rfl
  rw [topTarget, Prog.run_gets_bind, id_eq, Prog.run_bind, Prog.run_demand hmet, Prog.after_ok, h]
  rfl

theorem run_popTarget {gs : SQFuncState} (h : Emitted w fs gs) : Prog.run popTarget gs =
    (.ok ⟨fs.vlocals.length⟩,
      { gs with vlocals := fs.vlocals, targetstack := fs.targetstack }) := by
  have hlen : gs.vlocals.length = fs.vlocals.length + 1 := by
    rw [h.vlocals, List.length_append, List.length_singleton]
  have htemp : gs.isTemporary ⟨fs.vlocals.length⟩ = true := by
    rw [isTemporary, h.vlocals, List.getElem?_concat_length]
    rfl
  have hmet : Judged.met (Event.pop gs) = true := by
    show gs.hasTarget = true
    rw [hasTarget, h.targetstack]
    show decide (fs.vlocals.length < gs.vlocals.length) = true
    rw [decide_eq_true_iff]
    omega
  rw [popTarget, Prog.run_bind, run_topTarget gs h.targetstack, Prog.after_ok,
    Prog.run_gets_bind, id_eq, Prog.run_bind, Prog.run_demand hmet, Prog.after_ok,
    Prog.run_update_bind, htemp, if_pos rfl, h.targetstack, h.vlocals, List.dropLast_concat]
  rfl

/-- The optimiser takes the load before `_OP_APPENDARRAY` into it. -/
theorem fusion_appendarray (fs : SQFuncState) {i : SQInstruction} {aat : Int} (args : List Operand)
    (hlast : fs.instructions.getLast? = some i) (hopt : fs.optimization = true)
    (hkind : literalKind i.op = some aat)
    (hsame : i.arg0.value = (SQInstruction.make .opAppendarray args).arg1.value)
    (htemp : fs.targetIsTemp i = true) :
    fs.fusion (.make .opAppendarray args) = .merge { i with
      op := .opAppendarray, arg0 := (SQInstruction.make .opAppendarray args).arg0,
      arg2 := .imm aat, arg3 := .none } := by
  rw [fusion, hlast]
  show (if fs.optimization = true then _ else _) = _
  rw [if_pos hopt]
  simp only [peephole, SQInstruction.make, hkind]
  exact if_pos ⟨hsame, htemp⟩

theorem fusion_appendarray_dload (fs : SQFuncState) {i : SQInstruction} (args : List Operand)
    (hlast : fs.instructions.getLast? = some i) (hop : i.op = .opDload) :
    fs.fusion (.make .opAppendarray args) = .push (.make .opAppendarray args) := by
  rw [fusion, hlast]
  show (if fs.optimization = true then _ else _) = _
  split
  · simp only [peephole, SQInstruction.make, hop, literalKind]
  · rfl

/-- The state after the target of an element is popped. -/
def popped (fs gs : SQFuncState) : SQFuncState :=
  { gs with vlocals := fs.vlocals, targetstack := fs.targetstack }

/-- The instruction that appends an element that is in a register. -/
def appendFrom (arr : StackPos) (t : Nat) : SQInstruction :=
  .make .opAppendarray [.reg arr, .reg ⟨t⟩, .imm aatStack]

theorem run_appendElement {gs hs : SQFuncState} (h : Emitted w fs gs)
    (hrun : Prog.run appendElement gs = (.ok (), hs)) : ∃ arr : StackPos,
      fs.targetstack.head? = some arr ∧
        hs = (fs.popped gs).apply ((fs.popped gs).fusion (appendFrom arr fs.vlocals.length)) := by
  rw [appendElement, Prog.run_bind, run_popTarget h, Prog.after_ok] at hrun
  obtain ⟨arr, u, htop, hadd⟩ := Prog.run_bind_inv hrun
  cases hts : fs.targetstack with
  | nil =>
    rw [topTarget, Prog.run_gets_bind] at htop
    obtain ⟨_, _, hdemand, _⟩ := Prog.run_bind_inv htop
    have hmet : decide (fs.targetstack ≠ []) = true := (Prog.run_demand_inv hdemand).1
    rw [hts] at hmet
    cases hmet
  | cons p ts =>
    rw [run_topTarget { gs with vlocals := _, targetstack := _ } hts] at htop
    cases htop
    refine ⟨_, rfl, ?_⟩
    rw [addInstruction, run_addSQInstruction] at hadd
    split at hadd
    · cases hadd
    · exact (congrArg Prod.snd hadd).symm

section Append

variable {ρ : Type} {env : ExecEnv ρ} {code : List SQInstruction} {a : Activation ρ} {j t : Nat}
  {i : SQInstruction} {arr : StackPos}

theorem targetIsTemp_popped {gs : SQFuncState} (hi : i.arg0.value = fs.vlocals.length) :
    (fs.popped gs).targetIsTemp i = true := by
  have hnone : (fs.popped gs).vlocals[fs.vlocals.length]? = none :=
    List.getElem?_eq_none (Nat.le_refl _)
  rw [targetIsTemp, hi, Int.toNat_natCast, isLocal, hnone]
  rfl

/-- The fused instruction appends what the load would have loaded. -/
theorem next_fused {lits : List Scalar} {aat : Int} (raiseerror : Bool)
    (h : LoadedBy w t lits i) (hkind : literalKind i.op = some aat)
    (hrunning : Running env code lits a) (hip : a.ip? = some (j : Int))
    (hi : code[j]? = some { i with
      op := .opAppendarray, arg0 := (Operand.reg arr).narrow8, arg2 := .imm aat, arg3 := .none }) :
    (Phase.loop a).next env raiseerror =
      .loop (appended env (a.atIp (j + 1)) (Operand.reg arr).narrow8.value (ofInt w)) := by
  apply next_appendarray raiseerror hrunning.inCode hip hi rfl
  cases h with
  | loadint hop htarget hvalue =>
    rw [hop] at hkind
    cases hkind
    show Prog.run (appendValue env i.arg1.value aatInt) _ = _
    rw [hvalue]
    rfl
  | load k hop htarget hindex hk =>
    rw [hop] at hkind
    cases hkind
    show Prog.run (appendValue env i.arg1.value aatLiteral) _ = _
    have hlit := hrunning.literals _ (.atIp a.machine ((j : Int) + 1)) k w hk
    rw [hindex, ← hlit]
    rfl
  | dload k hop htarget hindex hk =>
    rw [hop] at hkind
    cases hkind

end Append

theorem Emitted.appends {v : Int} {gs hs : SQFuncState} (h : Emitted w fs gs)
    (hv : BitVec.ofInt 64 w = BitVec.ofInt 64 v) (hbyte : fs.vlocals.length < 256)
    (hrun : Prog.run appendElement gs = (.ok (), hs)) : Appends v fs hs := by
  obtain ⟨arr, harr, rfl⟩ := run_appendElement h hrun
  obtain ⟨i, hlast, hloaded, hopt, -⟩ := h.last
  have hw : ofInt w = .ofInteger (BitVec.ofInt 64 v) := congrArg SQObject.ofInteger hv
  have harg : (appendFrom arr fs.vlocals.length).arg1.value = fs.vlocals.length :=
    narrow32_of_fits (v := fs.vlocals.length) (by omega) (by omega)
  by_cases hop : i.op = .opDload
  · have hfusion := fusion_appendarray_dload (fs.popped gs)
      [.reg arr, .reg ⟨fs.vlocals.length⟩, .imm aatStack] hlast hop
    have happly := congrArg (fs.popped gs).apply hfusion
    refine ⟨arr, gs.instructions.dropLast, [i, appendFrom arr fs.vlocals.length], harr,
      (congrArg SQFuncState.targetstack happly :), ?_, by simp, ?_⟩
    · refine (congrArg instructions happly).trans ?_
      have hends : gs.instructions.dropLast ++ [i] = gs.instructions :=
        List.dropLast_append_getLast? i hlast
      rw [List.append_cons, hends]
      rfl
    · intro ρ env raiseerror code a j hrunning hcode hip
      have hlits : Running env code gs.literals a := by
        have hl := congrArg literals happly
        exact ⟨hrunning.code, hl ▸ hrunning.literals⟩
      obtain ⟨a', hnext, hload⟩ := next_of_loadedBy raiseerror hloaded hlits.inCode hlits.literals
        hip (hcode 0 i rfl)
      have hip' : a'.ip? = some ((j + 1 : Nat) : Int) := hload.ip
      have hvalue : a'.machine.stk fs.vlocals.length = ofInt w := by
        have hvalue := hload.value
        rwa [show (fs.vlocals.length : Int) % 256 = fs.vlocals.length by omega] at hvalue
      have happend : Prog.run (appendValue env (appendFrom arr fs.vlocals.length).arg1.value
          (appendFrom arr fs.vlocals.length).arg2.value) (a'.atIp ((j + 1 : Nat) + 1)) =
          (.ok (ofInt w), a'.atIp ((j + 1 : Nat) + 1)) := by
        rw [harg, ← hvalue]
        rfl
      have hlast' := next_appendarray raiseerror (hlits.of_same hload.same).inCode hip'
        (hcode 1 _ rfl) rfl happend
      refine ⟨a'.atIp ((j + 1 : Nat) + 1), hload.same.atIp_right _, hload.traps,
        Activation.ip?_atIp hip' _, ?_⟩
      rw [← hw]
      show ((Phase.loop a).next env raiseerror).next env raiseerror = _
      rw [hnext, hlast']
      rfl
  · have hkind : ∃ aat, literalKind i.op = some aat ∧ i.arg0.value = fs.vlocals.length := by
      cases hloaded with
      | loadint hop htarget _ => exact ⟨aatInt, by rw [hop]; rfl, by rw [htarget]; omega⟩
      | load k hop htarget _ _ => exact ⟨aatLiteral, by rw [hop]; rfl, by rw [htarget]; omega⟩
      | dload _ hdload _ _ _ => exact absurd hdload hop
    obtain ⟨aat, hkind, harg0⟩ := hkind
    have hfusion := fusion_appendarray (fs.popped gs)
      [.reg arr, .reg ⟨fs.vlocals.length⟩, .imm aatStack] hlast (hopt hop) hkind
      (harg0.trans harg.symm) (targetIsTemp_popped harg0)
    have happly := congrArg (fs.popped gs).apply hfusion
    refine ⟨arr, gs.instructions.dropLast, [_], harr, ?_, congrArg instructions happly, by simp, ?_⟩
    · exact (congrArg SQFuncState.targetstack happly :)
    · intro ρ env raiseerror code a j hrunning hcode hip
      have hi := hcode 0 _ rfl
      have hlits : Running env code gs.literals a := by
        have hl := congrArg literals happly
        exact ⟨hrunning.code, hl ▸ hrunning.literals⟩
      refine ⟨a.atIp (j + 1), .atIp a.machine _, rfl, Activation.ip?_atIp hip _, ?_⟩
      rw [← hw]
      exact next_fused raiseerror hloaded hkind hlits hip hi

end Sqnim.Compiler.SQFuncState
