import Sqnim.Bytecode.StartCall
import Sqnim.Compiler.FuncState
import Sqnim.Object.Class

/-!
# From the compiler to calls

`BuildProto` copies a function state into a prototype. In memory its texts are string objects, its
numbers have 64 bits and its instructions eight bytes. All of it can be serialised, and the default
values of its closures are the registers that `AddDefaultParam` was given. A class stores a clone of
a closure, which is called in the same way.
-/
namespace Sqnim.Bytecode.Built

open Sqnim.Lib.Codec
open Sqnim.Object
open Sqnim.Vm
open RoundTrip
open StartCall hiding createArray

/-- The string object of a text, unless that is longer than an `SQInteger` can say. -/
def string (s : Compiler.Text) : Option Constant :=
  let chars := s.map fun c => UInt8.ofNat c.toNat
  if short : chars.length < 2 ^ 63 then some (.string ⟨chars, short⟩) else none

def name : Option Compiler.Text → Option Constant
  | none => some .null
  | some s => string s

def literal : Compiler.Scalar → Option Constant
  | .int v => some (.integer (BitVec.ofInt 64 v))
  | .float bits => some (.float bits)
  | .bool v => some (.bool (if v then 1 else 0))
  | .str s => string s

def outerType : Compiler.SQOuterType → BitVec 32
  | .otLocal => otLocal
  | .otOuter => otOuter

def outerVar (memory : BitVec 32) (ov : Compiler.SQOuterVar) : Option SQOuterVar := do
  let name ← string ov.name
  some ⟨outerType ov.type, memory, name, .integer (BitVec.ofNat 64 ov.src)⟩

def localVarInfo (lvi : Compiler.SQLocalVarInfo) : Option SQLocalVarInfo := do
  let name ← name lvi.name
  some ⟨name, BitVec.ofInt 64 lvi.startOp, BitVec.ofInt 64 lvi.endOp, BitVec.ofNat 64 lvi.pos⟩

def lineInfo (li : Compiler.SQLineInfo) : SQLineInfo :=
  ⟨BitVec.ofInt 64 li.line, BitVec.ofInt 64 li.op⟩

def instruction (i : Compiler.SQInstruction) : SQInstruction where
  arg1 := BitVec.ofInt 32 i.arg1.value
  op := BitVec.ofNat 8 i.op.ctorIdx
  arg0 := BitVec.ofInt 8 i.arg0.value
  arg2 := BitVec.ofInt 8 i.arg2.value
  arg3 := BitVec.ofInt 8 i.arg3.value

mutual

/-- The prototype in memory, unless that is too small for it. -/
def proto (memory : BitVec 32) : Compiler.SQFunctionProto → Option SQFunctionProto
  | .mk stacksize fname sourcename bgenerator varparams literals parameters functions outervalues
      localvarinfos lineinfos defaultparams instructions => do
    let sourcename ← string sourcename
    let fname ← name fname
    let literals ← literals.mapM literal
    let parameters ← parameters.mapM string
    let outervalues ← outervalues.mapM (outerVar memory)
    let localvarinfos ← localvarinfos.mapM localVarInfo
    let functions ← protos memory functions
    let n : Counts := ⟨literals.length, parameters.length, outervalues.length,
      localvarinfos.length, lineinfos.length, defaultparams.length, instructions.length,
      functions.length⟩
    if allocated : n.size < 2 ^ 63 then
      some (.mk n allocated
        { sourcename, name := fname
          literals := ⟨literals, rfl⟩
          parameters := ⟨parameters, rfl⟩
          outervalues := ⟨outervalues, rfl⟩
          localvarinfos := ⟨localvarinfos, rfl⟩
          lineinfos := ⟨lineinfos.map lineInfo, List.length_map _⟩
          defaultparams := ⟨defaultparams.map fun p => BitVec.ofNat 64 p.idx, List.length_map _⟩
          instructions := ⟨instructions.map instruction, List.length_map _⟩
          stacksize := BitVec.ofNat 64 stacksize
          bgenerator
          varparams := if varparams then 1 else 0 }
        functions.get)
    else none

def protos (memory : BitVec 32) : List Compiler.SQFunctionProto → Option (List SQFunctionProto)
  | [] => some []
  | p :: ps => do
    let q ← proto memory p
    let qs ← protos memory ps
    some (q :: qs)

end

section Saved

variable {memory : BitVec 32}

theorem serializable_string {s : Compiler.Text} {o : Constant} (h : string s = some o) :
    serializable o.type = true := by
  unfold string at h
  dsimp only at h
  split at h
  · cases h
    rfl
  · cases h

theorem serializable_name {s : Option Compiler.Text} {o : Constant} (h : name s = some o) :
    serializable o.type = true := by
  cases s with
  | none =>
    cases h
    rfl
  | some s => exact serializable_string h

theorem serializable_literal {v : Compiler.Scalar} {o : Constant} (h : literal v = some o) :
    serializable o.type = true := by
  cases v with
  | str s => exact serializable_string h
  | _ =>
    cases h
    rfl

/-- What holds of every result holds of each of them. -/
theorem forall_of_mapM {α β : Type} {f : α → Option β} {P : β → Prop}
    (hf : ∀ a b, f a = some b → P b) {as : List α} {bs : List β} (h : as.mapM f = some bs) :
    ∀ b ∈ bs, P b := by
  induction as generalizing bs with
  | nil =>
    cases h
    simp
  | cons a as ih =>
    rw [List.mapM_cons] at h
    obtain ⟨b, hb, h⟩ := Option.bind_eq_some_iff.mp h
    obtain ⟨bs, hbs, h⟩ := Option.bind_eq_some_iff.mp h
    cases h
    exact List.forall_mem_cons.mpr ⟨hf a b hb, ih hbs⟩

theorem proto_of_mem_protos {ps : List Compiler.SQFunctionProto} {qs : List SQFunctionProto}
    (h : protos memory ps = some qs) : ∀ q ∈ qs, ∃ p, proto memory p = some q := by
  induction ps generalizing qs with
  | nil =>
    cases h
    simp
  | cons p ps ih =>
    unfold protos at h
    obtain ⟨q, hq, h⟩ := Option.bind_eq_some_iff.mp h
    obtain ⟨qs, hqs, h⟩ := Option.bind_eq_some_iff.mp h
    cases h
    exact List.forall_mem_cons.mpr ⟨⟨p, hq⟩, ih hqs⟩

theorem of_outerVar {ov : Compiler.SQOuterVar} {v : SQOuterVar}
    (h : outerVar memory ov = some v) : serializable v.name.type = true ∧
      serializable v.src.type = true ∧ { v with padding := memory } = v := by
  obtain ⟨o, ho, h⟩ := Option.bind_eq_some_iff.mp h
  cases h
  exact ⟨serializable_string ho, rfl, rfl⟩

/-- Everything that the compiler puts in a prototype can be serialised. -/
theorem plain_proto {p : Compiler.SQFunctionProto} {q : SQFunctionProto}
    (h : proto memory p = some q) : PlainProto q := by
  induction q generalizing p with
  | mk n allocated members functions ih =>
    cases p
    unfold proto at h
    simp only [Option.bind_eq_bind, Option.bind_eq_some_iff, Option.dite_none_right_eq_some] at h
    obtain ⟨sourcename, hsource, fname, hname, literals, hliterals, parameters, hparameters,
      outervalues, houters, localvarinfos, hlocals, functions, hfunctions, allocated, h⟩ := h
    cases h
    refine ⟨⟨serializable_string hsource, serializable_name hname,
      forall_of_mapM (fun _ _ => serializable_literal) hliterals,
      forall_of_mapM (fun _ _ => serializable_string) hparameters,
      forall_of_mapM (fun _ _ hv => (of_outerVar hv).1) houters,
      forall_of_mapM (fun _ _ hv => (of_outerVar hv).2.1) houters,
      forall_of_mapM (fun lvi v hv => ?_) hlocals⟩, fun i => ?_⟩
    · obtain ⟨o, ho, hv⟩ := Option.bind_eq_some_iff.mp hv
      cases hv
      exact serializable_name ho
    · obtain ⟨p, hp⟩ := proto_of_mem_protos hfunctions _ (List.get_mem functions i)
      exact ih i hp

/-- What the padding holds when a prototype is built is what it holds when that is read back. -/
theorem repadded_proto {p : Compiler.SQFunctionProto} {q : SQFunctionProto}
    (h : proto memory p = some q) : repadded memory q = q := by
  induction q generalizing p with
  | mk n allocated members functions ih =>
    cases p
    unfold proto at h
    simp only [Option.bind_eq_bind, Option.bind_eq_some_iff, Option.dite_none_right_eq_some] at h
    obtain ⟨_, _, _, _, _, _, _, _, outervalues, houters, _, _, functions, hfunctions, _, h⟩ := h
    cases h
    have hpadding := forall_of_mapM (fun _ _ hv => (of_outerVar hv).2.2) houters
    rw [repadded]
    congr 1
    · congr 1
      exact Subtype.ext ((List.map_congr_left (g := id) hpadding).trans (List.map_id _))
    · funext i
      obtain ⟨p, hp⟩ := proto_of_mem_protos hfunctions _ (List.get_mem functions i)
      exact ih i hp

/-- `Load` reads what `Save` writes of a prototype that was built. -/
theorem fits_built {p : Compiler.SQFunctionProto} {q : SQFunctionProto}
    (h : proto memory p = some q) : Fits q.save (load memory q.depth) q := by
  have hfits := fits_proto memory q (plain_proto h) le_rfl
  rwa [repadded_proto h] at hfits

example : (proto 0 (Compiler.SQFuncState.create false none []).buildProto).isSome = true := by
  decide

end Saved

section Created

variable {ρ : Type} {env : CallEnv ρ} {m m' : Machine ρ} {memory : BitVec 32}
  {func : SQFunctionProto} {c : SQClosure} {boundtarget : Int}

/-- The defaults of a closure are what the registers given to `AddDefaultParam` held. -/
theorem defaults_of_closureOp {fs : Compiler.SQFuncState}
    (hbuilt : proto memory fs.buildProto = some func)
    (hsmall : ∀ trg ∈ fs.defaultparams, trg.idx < 2 ^ 63)
    (h : closureOp env func boundtarget m = (some c, m')) :
    c.defaultparams.toList = fs.defaultparams.map fun trg => m.stk trg.idx := by
  obtain ⟨hfunc, hkeeps⟩ := closureOp_keeps h
  have hproto : func.members.defaultparams.toList =
      fs.defaultparams.map fun trg => BitVec.ofNat 64 trg.idx := by
    unfold Compiler.SQFuncState.buildProto proto at hbuilt
    simp only [Option.bind_eq_bind, Option.bind_eq_some_iff, Option.dite_none_right_eq_some]
      at hbuilt
    obtain ⟨_, _, _, _, _, _, _, _, _, _, _, _, _, _, _, hmk⟩ := hbuilt
    cases hmk
    rfl
  rw [hkeeps.defaults, hfunc, hproto, List.map_map]
  refine List.map_congr_left fun trg htrg => ?_
  have hlt := hsmall trg htrg
  have hidx : (BitVec.ofNat 64 trg.idx).toInt = trg.idx := by
    rw [BitVec.toInt_ofNat', Int.bmod_eq_of_le] <;> omega
  exact congrArg m.stk hidx

end Created

section Methods

variable {address : SQFunctionProto → Nat} {c : SQClosure} {o : Object.SQClosure}

/-- A closure among the members of a class. -/
structure Represents (address : SQFunctionProto → Nat) (c : SQClosure) (o : Object.SQClosure) :
    Prop where
  function : o.function = address c.function
  root : o.root = some c.root.toNat
  env : o.env = c.env.map BitVec.toNat
  base : o.base = c.base.map BitVec.toNat
  outervalues : o.outervalues = c.outervalues.toList
  defaultparams : o.defaultparams = c.defaultparams.toList

theorem Represents.clone (h : Represents address c o) :
    Represents address { c with base := none } o.clone :=
  { h with base := rfl }

/-- A call of the clone that a class stores starts as one of the closure. -/
theorem startCall_clone {ρ : Type} (env : CallEnv ρ) (closure : SQObject) (c : SQClosure)
    (target args stackbase : Int) (tailcall : Bool) :
    startCall env closure { c with base := none } target args stackbase tailcall =
      startCall env closure c target args stackbase tailcall := rfl

end Methods

end Sqnim.Bytecode.Built
