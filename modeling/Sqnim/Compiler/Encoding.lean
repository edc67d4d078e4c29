import Sqnim.Lib.Invariant
import Sqnim.Compiler.FuncState

/-!
# How operands are encoded

An operand that was emitted for a stack position is read back by the virtual machine from
a field of the instruction, and the optimiser moves operands from field to field.
-/
namespace Sqnim.Compiler

open Sqnim.Lib
open Prog (raise gets update when report demand)

/-! ## What the virtual machine reads -/

/-- The operand `found` is what the operand was emitted for, and not the sentinel. -/
def Operand.Names (o : Operand) (found : Int) : Prop :=
  match o.origin with
  | .plain => True
  | .reg p => found = p.idx ∧ found ≠ maxFuncStacksize
  | .pair src val =>
    found / 65536 = src.idx ∧ found % 65536 = val.idx ∧ (src.idx : Int) ≠ maxFuncStacksize ∧
      (val.idx : Int) ≠ maxFuncStacksize

namespace SQInstruction

/-- The instructions whose operand 0 is read as `sarg0`: a tail call goes on as a call if its callee
is not a closure. -/
def isCall (op : SQOpcode) : Bool := op = .opCall || op = .opTailcall

/-- `sarg0` -/
def sarg0 (i : SQInstruction) : Int := Int.bmod i.arg0.value 256

/-- The register of operand 0. -/
def target (i : SQInstruction) : Int := if isCall i.op then i.sarg0 else i.arg0.value

/-- Every register that the virtual machine finds in an instruction is the one it was emitted
for. -/
structure Encoded (i : SQInstruction) : Prop where
  arg0 : i.arg0.Names i.target
  arg1 : i.arg1.Names i.arg1.value
  arg2 : i.arg2.Names i.arg2.value
  arg3 : i.arg3.Names i.arg3.value

/-- The position a call returns to fits a signed field. -/
def Returnable (i : SQInstruction) : Prop :=
  isCall i.op → ∀ p, i.arg0.origin = .reg p → p.idx < 128

/-- The same, as a test. -/
def returnable (i : SQInstruction) : Bool :=
  match i.arg0.origin with
  | .reg p => !isCall i.op || p.idx < 128
  | _ => true

theorem returnable_iff (i : SQInstruction) : i.returnable = true ↔ i.Returnable := by
  unfold returnable Returnable
  split
  · next p hp =>
    simp only [hp, Bool.or_eq_true, Bool.not_eq_true', decide_eq_true_eq]
    constructor
    · rintro (hcall | hlt) h q hq
      · exact absurd h (by rw [hcall]; exact Bool.false_ne_true)
      · rwa [← Origin.reg.inj hq]
    · intro h
      cases hcall : isCall i.op with
      | false => exact .inl rfl
      | true => exact .inr (h hcall p rfl)
  · next hother => exact iff_of_true rfl fun _ p hp => absurd hp (hother p)

instance (i : SQInstruction) : Decidable i.Returnable := decidable_of_iff _ i.returnable_iff

end SQInstruction

/-- A function and the functions inside it. -/
inductive SQFunctionProto.Encoded : SQFunctionProto → Prop where
  | mk (stacksize : Nat) (name : Option Text) (sourcename : Text) (bgenerator varparams : Bool)
    (literals : List Scalar) (parameters : List Text) (functions : List SQFunctionProto)
    (outervalues : List SQOuterVar) (localvarinfos : List SQLocalVarInfo)
    (lineinfos : List SQLineInfo) (defaultparams : List StackPos)
    (instructions : List SQInstruction) (hi : ∀ i ∈ instructions, i.Encoded)
    (hf : ∀ f ∈ functions, f.Encoded) :
    (SQFunctionProto.mk stacksize name sourcename bgenerator varparams literals parameters functions
      outervalues localvarinfos lineinfos defaultparams instructions).Encoded

namespace Event

/-- Every position that is handed out fits an unsigned field and is not the sentinel, and every
instruction is readable when it is emitted and when its operand 0 is set. -/
def Encoded : Event → Prop
  | .alloc inUse => (inUse : Int) % 256 = inUse ∧ (inUse : Int) ≠ maxFuncStacksize
  | .emit _ i => i.Encoded
  | .patch i => i.Encoded
  | _ => True

/-- A position is handed out below 255, and a call returns to one below 128. -/
def Addressable : Event → Prop
  | .alloc inUse => inUse < 255
  | .emit _ i => i.Returnable
  | .patch i => i.Returnable
  | _ => True

instance : DecidablePred Addressable
  | .alloc inUse => inferInstanceAs (Decidable (inUse < 255))
  | .emit _ i | .patch i => inferInstanceAs (Decidable i.Returnable)
  | .access .. | .top _ | .pop _ | .assertion _ | .discard .. => inferInstanceAs (Decidable True)

end Event

/-- Nothing that is readable could have been out of range. -/
theorem returnable_of_encoded (i : SQInstruction) (h : i.Encoded) : i.Returnable := by
  intro hc p hp
  have hn := h.arg0
  unfold Operand.Names SQInstruction.target SQInstruction.sarg0 at hn
  rw [hp, if_pos hc] at hn
  have hlt := Int.bmod_lt (x := i.arg0.value) (m := 256) (by decide)
  have := hn.1
  omega

theorem addressable_of_encoded (w : Event) (h : w.Encoded) : w.Addressable := by
  cases w with
  | alloc inUse =>
    have := h.1
    have := h.2
    unfold maxFuncStacksize at this
    show inUse < 255
    omega
  | emit fs i => exact returnable_of_encoded i h
  | patch i => exact returnable_of_encoded i h
  | access => trivial
  | top => trivial
  | pop => trivial
  | assertion => trivial
  | discard => trivial

/-! ## What the compiler keeps -/

namespace Operand

/-- A position below 255, and not a pair of them. -/
def Fits (o : Operand) : Prop :=
  match o.origin with
  | .plain => True
  | .reg p => o.value = p.idx ∧ p.idx < 255
  | .pair _ _ => False

/-- Two positions may be packed into a field of 32 bits. -/
def FitsWide (o : Operand) : Prop :=
  match o.origin with
  | .pair src val => o.value = src.idx * 65536 + val.idx ∧ src.idx < 255 ∧ val.idx < 255
  | _ => o.Fits

theorem Fits.wide {o : Operand} (h : o.Fits) : o.FitsWide := by
  obtain ⟨v, origin⟩ := o
  cases origin with
  | plain => exact h
  | reg p => exact h
  | pair src val => exact h.elim

theorem FitsWide.names {o : Operand} (h : o.FitsWide) : o.Names o.value := by
  obtain ⟨v, origin⟩ := o
  cases origin with
  | plain => trivial
  | reg p =>
    obtain ⟨hv, hp⟩ : v = p.idx ∧ p.idx < 255 := h
    show v = p.idx ∧ v ≠ 255
    omega
  | pair src val =>
    obtain ⟨hv, hs, ht⟩ : v = src.idx * 65536 + val.idx ∧ src.idx < 255 ∧ val.idx < 255 := h
    show v / 65536 = src.idx ∧ v % 65536 = val.idx ∧ (src.idx : Int) ≠ 255 ∧ (val.idx : Int) ≠ 255
    omega

theorem imm_fits (v : Int) : (imm v).Fits := trivial

theorem reg_fits (p : StackPos) (h : p.idx < 255) : (reg p).Fits := ⟨rfl, h⟩

theorem pair_fits (src val : StackPos) (hs : src.idx < 255) (ht : val.idx < 255) :
    (pair src val).FitsWide := by
  have hlt : val.idx < 2 ^ 16 := Nat.lt_trans ht (by decide)
  have hor : src.idx <<< 16 ||| val.idx = src.idx * 2 ^ 16 + val.idx := by
    rw [← Nat.shiftLeft_add_eq_or_of_lt hlt, Nat.shiftLeft_eq]
  refine ⟨?_, hs, ht⟩
  show ((src.idx <<< 16 ||| val.idx : Nat) : Int) = src.idx * 65536 + val.idx
  omega

theorem Fits.narrow8 {o : Operand} (h : o.Fits) : o.narrow8.Fits := by
  obtain ⟨v, origin⟩ := o
  cases origin with
  | plain => trivial
  | reg p =>
    obtain ⟨hv, hp⟩ : v = p.idx ∧ p.idx < 255 := h
    show v % 256 = p.idx ∧ p.idx < 255
    omega
  | pair src val => exact h.elim

theorem FitsWide.narrow32 {o : Operand} (h : o.FitsWide) : o.narrow32.FitsWide := by
  obtain ⟨v, origin⟩ := o
  cases origin with
  | plain => trivial
  | reg p =>
    obtain ⟨hv, hp⟩ : v = p.idx ∧ p.idx < 255 := h
    refine ⟨?_, hp⟩
    show Int.bmod v (2 ^ 32) = p.idx
    rw [hv]
    exact Int.bmod_eq_of_le (by omega) (by omega)
  | pair src val =>
    obtain ⟨hv, hs, ht⟩ : v = src.idx * 65536 + val.idx ∧ src.idx < 255 ∧ val.idx < 255 := h
    refine ⟨?_, hs, ht⟩
    show Int.bmod v (2 ^ 32) = src.idx * 65536 + val.idx
    rw [hv]
    exact Int.bmod_eq_of_le (by omega) (by omega)

theorem Fits.narrow32 {o : Operand} (h : o.Fits) : o.narrow32.Fits := by
  have hw := h.wide.narrow32
  obtain ⟨v, origin⟩ := o
  cases origin with
  | plain => trivial
  | reg p => exact hw
  | pair src val => exact h.elim

end Operand

namespace SQInstruction

/-- Only `_OP_COMPARITH` has a pair of positions, in operand 1. -/
structure Fits (i : SQInstruction) : Prop where
  arg0 : i.arg0.Fits
  arg1 : i.arg1.FitsWide
  narrow : i.op ≠ .opComparith → i.arg1.Fits
  arg2 : i.arg2.Fits
  arg3 : i.arg3.Fits

theorem Fits.encoded {i : SQInstruction} (h : i.Fits) (hr : i.Returnable) : i.Encoded where
  arg0 := by
    unfold target
    split
    · next hc =>
      have h0 := h.arg0
      unfold Operand.Fits at h0
      unfold Operand.Names sarg0 maxFuncStacksize
      cases ho : i.arg0.origin with
      | plain => trivial
      | reg p =>
        rw [ho] at h0
        obtain ⟨hv, hp⟩ := h0
        have hp := hr hc p ho
        have hb : Int.bmod i.arg0.value 256 = p.idx := by
          rw [hv]
          exact Int.bmod_eq_of_le (by omega) (by omega)
        show _ ∧ _
        omega
      | pair src val =>
        rw [ho] at h0
        exact h0.elim
    · exact h.arg0.wide.names
  arg1 := h.arg1.names
  arg2 := h.arg2.wide.names
  arg3 := h.arg3.wide.names

theorem getD_fits (args : List Operand) (n : Nat) (h : ∀ o ∈ args, o.Fits) :
    (args.getD n (.imm 0)).Fits := by
  rw [List.getD_eq_getElem?_getD]
  cases ho : args[n]? with
  | none => exact Operand.imm_fits 0
  | some o => exact h o (List.mem_of_getElem? ho)

theorem make_fits (op : SQOpcode) (args : List Operand) (h : ∀ o ∈ args, o.Fits) :
    (make op args).Fits where
  arg0 := (getD_fits args 0 h).narrow8
  arg1 := (getD_fits args 1 h).narrow32.wide
  narrow _ := (getD_fits args 1 h).narrow32
  arg2 := (getD_fits args 2 h).narrow8
  arg3 := (getD_fits args 3 h).narrow8

theorem Fits.narrowed {i : SQInstruction} (h : i.Fits) {op : SQOpcode} (hop : i.op = op)
    (hn : op ≠ .opComparith) : i.arg1.Fits :=
  h.narrow (hop ▸ hn)

end SQInstruction

/-! ## The optimiser -/

section Values

instance : Goodness StackPos := ⟨fun p => p.idx < 255⟩
instance : Goodness Operand := ⟨Operand.Fits⟩
instance : Goodness SQInstruction := ⟨fun i => i.Fits ∧ i.Returnable⟩
instance : Goodness SQFunctionProto := ⟨SQFunctionProto.Encoded⟩
instance : Goodness Scalar := ⟨fun _ => True⟩
instance : Plain Scalar := ⟨fun _ => trivial⟩
instance : Goodness SQOuterVar := ⟨fun _ => True⟩
instance : Plain SQOuterVar := ⟨fun _ => trivial⟩
instance : Goodness SQLocalVarInfo := ⟨fun _ => True⟩
instance : Plain SQLocalVarInfo := ⟨fun _ => trivial⟩
instance : Goodness SQLineInfo := ⟨fun _ => True⟩
instance : Plain SQLineInfo := ⟨fun _ => trivial⟩

instance (v : Int) : Good (Operand.imm v) := ⟨trivial⟩

instance : Good Operand.none := ⟨trivial⟩

instance (p : StackPos) [h : Good p] : Good (Operand.reg p) := ⟨⟨rfl, h.out⟩⟩

instance : Good (⟨0⟩ : StackPos) := ⟨show 0 < 255 by decide⟩

instance : Good (⟨1⟩ : StackPos) := ⟨show 1 < 255 by decide⟩

instance : Goodness SQFuncState.Fusion where
  good
    | .push i => Goodness.good i
    | .merge i => Goodness.good i
    | .retarget i => Goodness.good i
    | .change i j => Goodness.good i ∧ Goodness.good j
    | .line i => Goodness.good i

end Values

namespace SQFuncState

/-- An instruction that is no call and has no pair of positions. -/
theorem good_instruction (i : SQInstruction) (h0 : i.arg0.Fits) (h1 : i.arg1.Fits)
    (h2 : i.arg2.Fits) (h3 : i.arg3.Fits) (hc : SQInstruction.isCall i.op = false) :
    Goodness.good i :=
  ⟨⟨h0, h1.wide, fun _ => h1, h2, h3⟩, fun h => by rw [hc] at h; cases h⟩

/-- An instruction whose target is another register, and is no call. -/
theorem good_withTarget (i : SQInstruction) (t : Operand) (hi : Goodness.good i) (ht : t.Fits)
    (hc : SQInstruction.isCall i.op = false) : Goodness.good { i with arg0 := t } :=
  ⟨⟨ht, hi.1.arg1, hi.1.narrow, hi.1.arg2, hi.1.arg3⟩, fun h => by rw [hc] at h; cases h⟩

/-- A target may be dropped from any instruction. -/
theorem good_dropTarget (i : SQInstruction) (hi : Goodness.good i) :
    Goodness.good { i with arg0 := .none } :=
  ⟨⟨trivial, hi.1.arg1, hi.1.narrow, hi.1.arg2, hi.1.arg3⟩, fun _ _ h => by cases h⟩

theorem isCall_retargets (op : SQOpcode) (h : retargets op = true) :
    SQInstruction.isCall op = false := by
  cases op <;> first | rfl | cases h

theorem literalKind_ne (op : SQOpcode) {aat : Int} (h : literalKind op = some aat) :
    op ≠ .opComparith := by
  intro he
  rw [he] at h
  cases h

theorem peephole_good (fs : SQFuncState) (pi i : SQInstruction) (hp : Goodness.good pi)
    (hi : Goodness.good i) : Goodness.good (fs.peephole pi i) := by
  have p := hp.1
  have c := hi.1
  unfold peephole
  split
  · next hop =>
    split
    · next h =>
      exact good_instruction _ (p.narrowed h.1 nofun).narrow8 (c.narrowed hop nofun) p.arg2 p.arg3
        rfl
    · exact hi
  · split
    · exact good_dropTarget i hi
    · exact hi
  · split
    · exact good_dropTarget i hi
    · exact hi
  · split
    · exact good_dropTarget i hi
    · exact hi
  · split
    · next h =>
      obtain ⟨_, _, hcall, _⟩ := h
      have hr : SQInstruction.Returnable { pi with op := .opTailcall } := by
        intro _ q hq
        exact hp.2 (by rw [hcall]; rfl) q hq
      have h1 := p.narrowed hcall nofun
      exact ⟨⟨⟨p.arg0, h1.wide, fun _ => h1, p.arg2, p.arg3⟩, hr⟩, hi⟩
    · split
      · exact hi
      · exact hi
  · next hop =>
    split
    · next h =>
      exact good_instruction _ c.arg0 (p.narrowed h.1 nofun) (c.narrowed hop nofun).narrow8 p.arg3
        rfl
    · exact hi
  · split
    · next h => exact good_instruction _ c.arg0 (p.narrowed h.1 nofun) c.arg2 c.arg3 rfl
    · exact hi
  · split
    · next aat haat =>
      split
      · exact good_instruction _ c.arg0 (p.narrow (literalKind_ne _ haat)) trivial trivial rfl
      · exact hi
    · exact hi
  · next hop =>
    split
    · next h => exact good_withTarget pi i.arg0 hp c.arg0 (isCall_retargets _ h.1)
    · split
      · next h =>
        exact good_instruction _ p.arg0 (p.narrowed h nofun) c.arg0
          (c.narrowed hop nofun).narrow8 rfl
      · exact hi
  · next hop =>
    split
    · next h =>
      exact good_instruction _ p.arg0 (p.narrowed h.1 nofun) c.arg0 (c.narrowed hop nofun).narrow8
        rfl
    · exact hi
  · next hop =>
    split
    · next h =>
      exact good_instruction _ c.arg0 (p.narrowed h.1 nofun) c.arg2 trivial (by rw [hop]; rfl)
    · exact hi
  · next hop =>
    split
    · next h =>
      exact good_instruction _ c.arg0 (p.narrowed h.1 nofun) c.arg2 trivial (by rw [hop]; rfl)
    · exact hi
  · split
    · next h =>
      exact good_instruction _ p.arg0 trivial p.arg2 p.arg3 (by
        show SQInstruction.isCall pi.op = false
        rw [h.1]
        rfl)
    · exact hi
  · split
    · exact hi
    · exact hi
  · exact hi

end SQFuncState
end Sqnim.Compiler
