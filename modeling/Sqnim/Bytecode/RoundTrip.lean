import Sqnim.Bytecode.Proto

/-!
# Prototypes survive serialisation

Every reader fits its writer, field by field, so `Load` gives back what `Save`
wrote and runs short on every part of it. Only the padding of outer variables is
not read back.
-/
namespace Sqnim.Bytecode.RoundTrip

open Sqnim.Lib.Codec
open Sqnim.Object
open SQObjectType
open Sqnim.Bytecode

/-- `r` reads what `w` writes. -/
abbrev Fits {α : Type} (w : Put Fault) (r : Get Fault α) (a : α) : Prop := Codes readFailure w r a

variable {α β : Type}

section Fields

theorem fits_tag (tag : BitVec 32) : Fits (writeTag tag) (checkTag tag) () :=
  (codes_word readFailure (by decide) tag).ends (if_pos rfl)

theorem fits_integer (n : BitVec 64) : Fits (writeInteger n) readInteger n :=
  codes_word readFailure (by decide) n

theorem fits_count {n : Nat} (hn : n < 2 ^ 64) : Fits (writeCount n) readCount n := by
  have hmap := (fits_integer (BitVec.ofNat 64 n)).map BitVec.toNat
  rwa [BitVec.toNat_ofNat, Nat.mod_eq_of_lt hn] at hmap

theorem fits_chars (s : Text) : Fits (.ok s.chars) (readChars (BitVec.ofNat 64 s.chars.length)) s := by
  have hlen : (BitVec.ofNat 64 s.chars.length).toNat = s.chars.length := by
    have hshort := s.short
    rw [BitVec.toNat_ofNat]
    omega
  rw [readChars, hlen]
  exact (codes_bytes readFailure s.chars).ends (dif_pos s.short)

theorem fits_payload (o : Constant) (ho : serializable o.type = true) :
    Fits (writePayload o) (readPayload o.type.code) o := by
  cases o with
  | null => exact codes_nil _
  | bool n => exact (fits_integer n).cons (codes_nil _)
  | integer n => exact (fits_integer n).cons (codes_nil _)
  | float f => exact (codes_word readFailure (by decide) f).cons (codes_nil _)
  | string s => exact (fits_integer _).cons ((fits_chars s).cons (codes_nil _))
  | object t other o =>
    rw [Constant.type, other] at ho
    cases ho

theorem fits_object (o : Constant) (ho : serializable o.type = true) :
    Fits (writeObject o) readObject o := by
  exact (codes_word readFailure (by decide) o.type.code).cons (fits_payload o ho).single

/-- The kind takes the low half of the word, whatever the other half is. -/
theorem fits_outerVar (memory : BitVec 32) (ov : SQOuterVar)
    (hname : serializable ov.name.type = true) (hsrc : serializable ov.src.type = true) :
    Fits (writeOuterVar ov) (readOuterVar memory) { ov with padding := memory } := by
  have hkind : (ov.padding ++ ov.type).setWidth 32 = ov.type := by
    apply BitVec.eq_of_getLsbD_eq
    intro i hi
    rw [BitVec.getLsbD_setWidth, BitVec.getLsbD_append, if_pos hi, decide_eq_true hi,
      Bool.true_and]
  have hword := codes_word readFailure (w := 64) (by decide) (ov.padding ++ ov.type)
  refine hword.cons ((fits_object ov.src hsrc).cons ((fits_object ov.name hname).ends ?_).single)
  rw [hkind]

theorem fits_localVarInfo (lvi : SQLocalVarInfo) (hname : serializable lvi.name.type = true) :
    Fits (writeLocalVarInfo lvi) readLocalVarInfo lvi :=
  (fits_object lvi.name hname).cons ((fits_integer lvi.pos).cons
    ((fits_integer lvi.startOp).cons ((fits_integer lvi.endOp).cons (codes_nil lvi))))

theorem fits_lineInfo (li : SQLineInfo) : Fits (writeLineInfo li) readLineInfo li :=
  (fits_integer li.line).cons ((fits_integer li.op).cons (codes_nil li))

theorem fits_instruction (i : SQInstruction) : Fits (writeInstruction i) readInstruction i := by
  have hword : ∀ {w : Nat} (v : BitVec w), 8 ∣ w → Fits (putWord v) (getWord readFailure w) v :=
    fun v hw => codes_word readFailure hw v
  exact (hword i.arg1 (by decide)).cons ((hword i.op (by decide)).cons
    ((hword i.arg0 (by decide)).cons ((hword i.arg2 (by decide)).cons
      ((hword i.arg3 (by decide)).cons (codes_nil i)))))

theorem fits_bool (b : Bool) : Fits (putWord (if b then 1#8 else 0#8)) readBool b :=
  (codes_word readFailure (by decide) _).ends (by cases b <;> rfl)

theorem fits_array {n : Nat} {write : α → Put Fault} {read : Get Fault β} (v : List.Vector α n)
    (g : α → β) (h : ∀ a ∈ v.toList, Fits (write a) read (g a)) :
    Fits (writeArray write v) (repeatGet read n) (v.map g) := codes_repeat v write g h

/-- An allocation bounds the counts of its arrays. -/
theorem fits_counts {n : Counts} (hn : n.size < 2 ^ 63) : Fits (writeCounts n) readCounts n := by
  rw [Counts.size] at hn
  refine (fits_count ?_).cons ((fits_count ?_).cons ((fits_count ?_).cons ((fits_count ?_).cons
    ((fits_count ?_).cons ((fits_count ?_).cons ((fits_count ?_).cons ((fits_count ?_).cons
      (codes_nil n))))))))
  all_goals omega

end Fields

section Prototypes

/-- Its literals, names and outer sources are null, bool, integer, float or string. -/
structure Plain {n : Counts} (p : Members n) : Prop where
  sourcename : serializable p.sourcename.type = true
  name : serializable p.name.type = true
  literals : ∀ o ∈ p.literals.toList, serializable o.type = true
  parameters : ∀ o ∈ p.parameters.toList, serializable o.type = true
  outerNames : ∀ ov ∈ p.outervalues.toList, serializable ov.name.type = true
  outerSources : ∀ ov ∈ p.outervalues.toList, serializable ov.src.type = true
  localNames : ∀ lvi ∈ p.localvarinfos.toList, serializable lvi.name.type = true

/-- A prototype is plain when its members are, and the functions inside it. -/
def PlainProto : SQFunctionProto → Prop
  | .mk _ _ p functions => Plain p ∧ ∀ i, PlainProto (functions i)

/-- The same prototype with other bytes behind the kinds of its outer variables. -/
def repadded (memory : BitVec 32) : SQFunctionProto → SQFunctionProto
  | .mk n allocated p functions =>
    .mk n allocated
      { p with outervalues := p.outervalues.map ({ · with padding := memory }) }
      fun i => repadded memory (functions i)

theorem fits_functions {n : Nat} (functions : Fin n → SQFunctionProto)
    {read : Get Fault SQFunctionProto} (g : SQFunctionProto → SQFunctionProto)
    (h : ∀ i, Fits (functions i).save read (g (functions i))) :
    Fits (puts (List.ofFn fun i => (functions i).save)) (repeatGet read n)
      ((List.Vector.ofFn functions).map g) := by
  have hlist : (List.ofFn fun i => (functions i).save) =
      (List.Vector.ofFn functions).toList.map SQFunctionProto.save := by
    rw [List.Vector.toList_ofFn, List.map_ofFn]
    rfl
  rw [hlist]
  refine codes_repeat _ SQFunctionProto.save g fun f hf => ?_
  rw [List.Vector.toList_ofFn, List.mem_ofFn] at hf
  obtain ⟨i, rfl⟩ := hf
  exact h i

/-- `Load` reads what `Save` wrote, by induction on the functions inside the prototype. -/
theorem fits_proto (memory : BitVec 32) (p : SQFunctionProto) (hp : PlainProto p) {depth : Nat}
    (hdepth : p.depth ≤ depth) : Fits p.save (load memory depth) (repadded memory p) := by
  induction p generalizing depth with
  | mk n allocated p functions ih =>
    obtain ⟨hmembers, hfunctions⟩ := hp
    rw [SQFunctionProto.depth] at hdepth
    obtain ⟨depth, rfl⟩ := Nat.exists_eq_succ_of_ne_zero (show depth ≠ 0 by omega)
    have hnested : ∀ i, Fits (functions i).save (load memory depth)
        (repadded memory (functions i)) := by
      intro i
      have hle : (functions i).depth ≤ Finset.univ.sup fun i => (functions i).depth :=
        Finset.le_sup (f := fun i => (functions i).depth) (Finset.mem_univ i)
      exact ih i (hfunctions i) (by omega)
    have htag := fits_tag closureStreamPart
    have hobjects : ∀ {n : Nat} (v : List.Vector Constant n),
        (∀ o ∈ v.toList, serializable o.type = true) →
          Fits (writeArray writeObject v) (repeatGet readObject n) v := by
      intro n v hv
      have harray := fits_array v id fun o ho => fits_object o (hv o ho)
      rwa [List.Vector.map_id] at harray
    have houters := fits_array p.outervalues ({ · with padding := memory }) fun ov hov =>
      fits_outerVar memory ov (hmembers.outerNames ov hov) (hmembers.outerSources ov hov)
    have hlocals := fits_array p.localvarinfos id fun lvi hlvi =>
      fits_localVarInfo lvi (hmembers.localNames lvi hlvi)
    have hlines := fits_array p.lineinfos id fun li _ => fits_lineInfo li
    have hdefaults := fits_array p.defaultparams id fun i _ => fits_integer i
    have hcode := fits_array p.instructions id fun i _ => fits_instruction i
    have hinner := fits_functions functions (repadded memory) hnested
    simp only [List.Vector.map_id] at hlocals hlines hdefaults hcode
    refine htag.cons ((fits_object p.sourcename hmembers.sourcename).cons
      ((fits_object p.name hmembers.name).cons (htag.cons
        ((fits_counts allocated).cons (Codes.silent (dif_pos allocated) ?_)))))
    refine htag.cons ((hobjects p.literals hmembers.literals).cons
      (htag.cons ((hobjects p.parameters hmembers.parameters).cons ?_)))
    refine htag.cons (houters.cons (htag.cons (hlocals.cons (htag.cons (hlines.cons ?_)))))
    refine htag.cons (hdefaults.cons (htag.cons (hcode.cons (htag.cons (hinner.cons ?_)))))
    refine (fits_integer p.stacksize).cons ((fits_bool p.bgenerator).cons
      ((fits_integer p.varparams).ends ?_).single)
    have hget : ((List.Vector.ofFn functions).map (repadded memory)).get =
        fun i => repadded memory (functions i) := by
      funext i
      rw [List.Vector.get_map, List.Vector.get_ofFn]
    rw [repadded, ← hget]

/-- Prototypes survive serialisation: `Load` reads the bytes of `Save`, whatever follows them, and
fails on a proper part of them. Nesting is the only thing it needs room for. -/
theorem load_save (memory : BitVec 32) (p : SQFunctionProto) (hp : PlainProto p) :
    ∃ bytes, p.save = .ok bytes ∧ ∀ depth ≥ p.depth,
      (∀ rest, (load memory depth).run (bytes ++ rest) = .ok (repadded memory p, rest)) ∧
      ∀ part, part <+: bytes → part ≠ bytes →
        (load memory depth).run part = .error readFailure := by
  obtain ⟨bytes, hsave, -⟩ := fits_proto memory p hp (Nat.le_refl _)
  refine ⟨bytes, hsave, fun depth hdepth => ?_⟩
  obtain ⟨bytes', hsave', hreads⟩ := fits_proto memory p hp hdepth
  obtain rfl : bytes = bytes' := Except.ok.inj (hsave.symm.trans hsave')
  exact ⟨hreads.whole, hreads.cut⟩

/-- A function of one parameter that returns, with a string and a float among its literals. -/
def leafProto : SQFunctionProto :=
  .mk ⟨2, 1, 0, 0, 1, 0, 1, 0⟩ (by decide)
    { sourcename := .string ⟨[109, 97, 105, 110], by decide⟩
      name := .null
      literals := ⟨[.string ⟨[104, 105], by decide⟩, .float 0x3FC00000], rfl⟩
      parameters := ⟨[.string ⟨[116, 104, 105, 115], by decide⟩], rfl⟩
      outervalues := List.Vector.nil
      localvarinfos := List.Vector.nil
      lineinfos := ⟨[⟨3, 0⟩], rfl⟩
      defaultparams := List.Vector.nil
      instructions := ⟨[⟨0, 0x17, 0xFF, 0, 0⟩], rfl⟩
      stacksize := 2
      bgenerator := false
      varparams := 0 }
    fun i => i.elim0

/-- The function that makes a closure of it, which captures a variable and has a default. -/
def outerProto : SQFunctionProto :=
  .mk ⟨0, 2, 1, 1, 0, 1, 2, 1⟩ (by decide)
    { sourcename := .string ⟨[109, 97, 105, 110], by decide⟩
      name := .string ⟨[102], by decide⟩
      literals := List.Vector.nil
      parameters := ⟨[.string ⟨[116, 104, 105, 115], by decide⟩, .string ⟨[120], by decide⟩], rfl⟩
      outervalues := ⟨[⟨otLocal, 0xCDCDCDCD, .string ⟨[118], by decide⟩, .integer 4⟩], rfl⟩
      localvarinfos := ⟨[⟨.string ⟨[120], by decide⟩, 0, 2, 1⟩], rfl⟩
      lineinfos := List.Vector.nil
      defaultparams := ⟨[5], rfl⟩
      instructions := ⟨[⟨0, 0x30, 2, 0xFF, 0⟩, ⟨2, 0x17, 1, 0, 0⟩], rfl⟩
      stacksize := 3
      bgenerator := true
      varparams := 0 }
    fun _ => leafProto

theorem load_save_outerProto :
    ∃ bytes, outerProto.save = .ok bytes ∧ ∀ depth ≥ outerProto.depth,
      (∀ rest, (load 0 depth).run (bytes ++ rest) = .ok (repadded 0 outerProto, rest)) ∧
      ∀ part, part <+: bytes → part ≠ bytes →
        (load 0 depth).run part = .error readFailure :=
  load_save 0 outerProto (by
    refine ⟨⟨?_, ?_, ?_, ?_, ?_, ?_, ?_⟩, fun _ => ⟨⟨?_, ?_, ?_, ?_, ?_, ?_, ?_⟩, fun i => i.elim0⟩⟩
    all_goals decide)

end Prototypes

end Sqnim.Bytecode.RoundTrip
