import Sqnim.Compiler.AddInstruction
import Sqnim.Compiler.Edits

/-!
# The line table of a function

The lexer counts lines from 1. `AddLineInfos` alone adds to the table, and only a line that takes
the place of another one takes an entry away. The entries stay in order and none of them lies behind
the code.
-/
namespace Sqnim.Compiler

open Sqnim.Lib
open Prog (raise gets update when loop Turn)

-- the search follows every step of a function
set_option synthInstance.maxSize 6400
set_option synthInstance.maxHeartbeats 100000

/-! ## The lexer -/

namespace SQLexer

/-- Lines are counted from 1. -/
def Counted (l : SQLexer) : Prop := 1 ≤ l.currentline ∧ 1 ≤ l.lasttokenline

/-- An update that leaves the lines alone. -/
theorem counted_note (f : SQLexer → SQLexer) (hc : ∀ l, (f l).currentline = l.currentline)
    (hl : ∀ l, (f l).lasttokenline = l.lasttokenline) :
    Leads (Staying Counted) (update f : LexM Unit) := .update f fun l h => by
  rw [Counted, hc l, hl l]
  exact h

instance : Leads (Staying Counted) next := by
  have (t : Int) := counted_note (fun l => { l with
    input := l.input.tail, currdata := lexChar t }) (fun _ => rfl) fun _ => rfl
  unfold next readf
  infer_instance

instance : Leads (Staying Counted) advance := by
  have := counted_note (fun l => { l with currentcolumn := l.currentcolumn + 1 }) (fun _ => rfl)
    fun _ => rfl
  unfold advance
  infer_instance

instance : Leads (Staying Counted) curChar := inferInstanceAs (Leads _ (gets _))

instance : Leads (Staying Counted) initTempString := counted_note _ (fun _ => rfl) fun _ => rfl

instance (s : Text) : Leads (Staying Counted) (appendText s) :=
  counted_note _ (fun _ => rfl) fun _ => rfl

instance (c : Char) : Leads (Staying Counted) (appendChar c) :=
  inferInstanceAs (Leads _ (appendText _))

instance : Leads (Staying Counted) countLine := .update _ fun _ ⟨hc, hl⟩ =>
  ⟨Int.le_trans hc (Int.le_add_one (Int.le_refl _)), hl⟩

instance (t : Token) : Leads (Staying Counted) (setToken t) :=
  counted_note _ (fun _ => rfl) fun _ => rfl

instance (v : Text → Int) : Leads (Staying Counted) (setNvalue v) :=
  counted_note _ (fun _ => rfl) fun _ => rfl

instance (v : Text → BitVec 32) : Leads (Staying Counted) (setFvalue v) :=
  counted_note _ (fun _ => rfl) fun _ => rfl

instance : Leads (Staying Counted) setSvalue := counted_note _ (fun _ => rfl) fun _ => rfl

instance (n : Int) : Leads (Staying Counted) (setColumn n) :=
  counted_note _ (fun _ => rfl) fun _ => rfl

instance : Leads (Staying Counted) startToken := .update _ fun _ h => ⟨h.1, h.1⟩

instance (t : Token) : Leads (Staying Counted) (returnToken t) := by
  unfold returnToken
  infer_instance

instance : Leads (Staying Counted) lexBlockComment := by
  unfold lexBlockComment
  infer_instance

instance : Leads (Staying Counted) skipLine := by
  unfold skipLine
  infer_instance

instance : Leads (Staying Counted) lexLineComment := by
  unfold lexLineComment
  infer_instance

instance (n : Nat) : Leads (Staying Counted) (processStringHexEscape n) := by
  unfold processStringHexEscape
  infer_instance

instance : Leads (Staying Counted) escapeSequence := by
  unfold escapeSequence
  infer_instance

instance (ndelim : Char) (verbatim : Bool) : Leads (Staying Counted) (stringBody ndelim verbatim) := by
  unfold stringBody
  infer_instance

instance (ndelim : Char) : Leads (Staying Counted) (stringToken ndelim) := by
  unfold stringToken
  infer_instance

instance (ndelim : Char) (verbatim : Bool) : Leads (Staying Counted) (stringPiece ndelim verbatim) := by
  unfold stringPiece
  infer_instance

instance (ndelim : Char) (verbatim : Bool) : Leads (Staying Counted) (readString ndelim verbatim) := by
  unfold readString
  infer_instance

instance (p : Char → Bool) : Leads (Staying Counted) (readWhile p) := by
  unfold readWhile
  infer_instance

instance : Leads (Staying Counted) readExponent := by
  unfold readExponent
  infer_instance

instance : Leads (Staying Counted) readDecimal := by
  unfold readDecimal
  infer_instance

instance (strtod : Text → BitVec 32) : Leads (Staying Counted) (readNumber strtod) := by
  unfold readNumber
  infer_instance

instance : Leads (Staying Counted) readID := by
  unfold readID
  infer_instance

instance (one : Token) (c : Char) (two : Token) : Leads (Staying Counted) (oneOrTwo one c two) := by
  unfold oneOrTwo
  infer_instance

instance : Leads (Staying Counted) lexNewline := by
  unfold lexNewline
  infer_instance

instance : Leads (Staying Counted) lexSlash := by
  unfold lexSlash
  infer_instance

instance : Leads (Staying Counted) lexLess := by
  unfold lexLess
  infer_instance

instance : Leads (Staying Counted) lexGreater := by
  unfold lexGreater
  infer_instance

instance : Leads (Staying Counted) lexAt := by
  unfold lexAt
  infer_instance

instance : Leads (Staying Counted) lexDot := by
  unfold lexDot
  infer_instance

instance (sign : Char) (eq double : Token) : Leads (Staying Counted) (lexSign sign eq double) := by
  unfold lexSign
  infer_instance

instance (strtod : Text → BitVec 32) (c : Char) : Leads (Staying Counted) (lexOther strtod c) := by
  unfold lexOther
  infer_instance

instance (strtod : Text → BitVec 32) : Leads (Staying Counted) (lexTurn strtod) := by
  unfold lexTurn
  infer_instance

instance (strtod : Text → BitVec 32) : Leads (Staying Counted) (lex strtod) := by
  unfold lex
  infer_instance

end SQLexer

/-! ## Code without lines -/

namespace SQFuncState

/-- `_OP_LINE` at a position. -/
def LineAt (fs : SQFuncState) (j : Nat) : Prop :=
  ∃ i, fs.instructions[j]? = some i ∧ i.op = .opLine

/-- Code that is no line was emitted, and nothing that the line table depends on is gone. -/
structure LinesKept (fs fs' : SQFuncState) : Prop where
  length : fs.instructions.length ≤ fs'.instructions.length
  lineinfos : fs'.lineinfos = fs.lineinfos
  lastline : fs'.lastline = fs.lastline
  functions : fs'.functions = fs.functions
  lines : ∀ j, fs'.LineAt j → fs.LineAt j

instance : Journey LinesKept where
  refl _ := ⟨Nat.le_refl _, rfl, rfl, rfl, fun _ => id⟩
  trans _ _ _ h₁ h₂ := {
    length := Nat.le_trans h₁.length h₂.length
    lineinfos := h₂.lineinfos.trans h₁.lineinfos
    lastline := h₂.lastline.trans h₁.lastline
    functions := h₂.functions.trans h₁.functions
    lines := fun j => h₁.lines j ∘ h₂.lines j }

/-- The parts of a function state that the line table depends on. -/
def lined (fs : SQFuncState) : List SQInstruction × List SQLineInfo × Int × List SQFunctionProto :=
  (fs.instructions, fs.lineinfos, fs.lastline, fs.functions)

theorem LinesKept.of_lined {fs fs' : SQFuncState} (h : fs'.lined = fs.lined) :
    LinesKept fs fs' := by
  simp only [lined, Prod.mk.injEq] at h
  refine ⟨Nat.le_of_eq (congrArg List.length h.1.symm), h.2.1, h.2.2.1, h.2.2.2, fun j hj => ?_⟩
  rwa [LineAt, ← h.1]

/-- Instructions that are no lines take the place of those behind a position. -/
theorem lines_of_prefix {fs fs' : SQFuncState} {is news : List SQInstruction}
    (his : is <+: fs.instructions) (hnews : ∀ i ∈ news, i.op ≠ .opLine)
    (h : fs'.instructions = is ++ news) (j : Nat) (hj : fs'.LineAt j) : fs.LineAt j := by
  obtain ⟨i, hi, hop⟩ := hj
  obtain ⟨rest, hrest⟩ := his
  refine ⟨i, ?_, hop⟩
  rw [h] at hi
  by_cases hlt : j < is.length
  · rw [List.getElem?_append_left hlt] at hi
    rw [← hrest, List.getElem?_append_left hlt, hi]
  · rw [List.getElem?_append_right (Nat.le_of_not_lt hlt)] at hi
    exact absurd hop (hnews i (List.mem_of_getElem? hi))

/-- A fusion without a line. -/
def Fusion.Plain : Fusion → Prop
  | .push i => i.op ≠ .opLine
  | .merge pi | .retarget pi => pi.op ≠ .opLine
  | .change pi i => pi.op ≠ .opLine ∧ i.op ≠ .opLine
  | .line _ => False

theorem plain_peephole (fs : SQFuncState) (pi i : SQInstruction) (hi : i.op ≠ .opLine) :
    (fs.peephole pi i).Plain := by
  unfold peephole
  split
  case h_2 | h_3 | h_4 =>
    split
    next => exact hi
    next => exact hi
  case h_5 =>
    split
    next => exact ⟨nofun, hi⟩
    next =>
      split
      next => exact hi
      next => exact hi
  case h_8 =>
    split
    next =>
      split
      next => exact fun h => by cases h
      next => exact hi
    next => exact hi
  case h_9 =>
    split
    next hc =>
      refine fun (hop : pi.op = .opLine) => ?_
      rw [hop] at hc
      cases hc.1
    next =>
      split
      next => exact fun h => by cases h
      next => exact hi
  case h_13 =>
    split
    next hc => exact fun (hop : pi.op = .opLine) => by cases hc.1.symm.trans hop
    next => exact hi
  case h_11 | h_12 =>
    split
    next => exact hi
    next => exact hi
  case h_1 | h_6 | h_7 | h_10 =>
    split
    next => exact fun h => by cases h
    next => exact hi
  case h_14 hop => exact absurd hop hi
  case h_15 => exact hi

theorem plain_fusion (fs : SQFuncState) (i : SQInstruction) (hi : i.op ≠ .opLine) :
    (fs.fusion i).Plain := by
  unfold fusion
  split
  · split
    · exact plain_peephole fs _ i hi
    · exact hi
  · exact hi

theorem linesKept_setLast {fs : SQFuncState} {pi p : SQInstruction}
    (hlast : fs.instructions.getLast? = some pi) (hp : p.op ≠ .opLine) :
    LinesKept fs (fs.setLast p) where
  length := Nat.le_of_eq (length_setLast hlast p).symm
  lineinfos := rfl
  lastline := rfl
  functions := rfl
  lines := lines_of_prefix (List.dropLast_prefix _) (by simpa using hp) rfl

theorem linesKept_push (fs : SQFuncState) {i : SQInstruction} (hi : i.op ≠ .opLine) :
    LinesKept fs (fs.pushInstruction i) where
  length := Nat.le_of_lt (by simp [pushInstruction])
  lineinfos := rfl
  lastline := rfl
  functions := rfl
  lines := lines_of_prefix List.prefix_rfl (by simpa using hi) rfl

/-- The optimiser changes nothing if there is no instruction before. -/
theorem fusion_of_nil {fs : SQFuncState} (h : fs.instructions.getLast? = none) (i : SQInstruction) :
    fs.fusion i = .push i := by
  rw [fusion, h]

theorem linesKept_apply (fs : SQFuncState) (i : SQInstruction) (hi : i.op ≠ .opLine) :
    LinesKept fs (fs.apply (fs.fusion i)) := by
  have hplain := plain_fusion fs i hi
  cases hlast : fs.instructions.getLast? with
  | none =>
    rw [fusion_of_nil hlast i]
    exact linesKept_push fs hi
  | some pi =>
    cases hf : fs.fusion i with
    | push i' =>
      rw [hf] at hplain
      exact linesKept_push fs hplain
    | merge p =>
      rw [hf] at hplain
      exact linesKept_setLast hlast hplain
    | retarget p =>
      rw [hf] at hplain
      have hset := linesKept_setLast hlast hplain
      exact ⟨hset.length, hset.lineinfos, hset.lastline, hset.functions, hset.lines⟩
    | change p i' =>
      rw [hf] at hplain
      exact Journey.trans _ _ _ (linesKept_setLast hlast hplain.1) (linesKept_push _ hplain.2)
    | line i' =>
      rw [hf] at hplain
      cases hplain

theorem leads_addSQInstruction {i : SQInstruction} (hi : i.op ≠ .opLine) :
    Leads LinesKept (addSQInstruction i) where
  out fs a fs' h := by
    rw [run_addSQInstruction] at h
    split at h
    · cases congrArg Prod.fst h
    · cases h
      exact linesKept_apply fs i hi

theorem linesKept_dropTarget (target : StackPos) (fs : SQFuncState) :
    LinesKept fs (fs.dropTarget target) := by
  unfold dropTarget
  split
  · next pi hlast =>
    split
    · next hc =>
      refine linesKept_setLast hlast fun (hop : pi.op = .opLine) => ?_
      rw [hop] at hc
      cases hc.2.1
    · exact Journey.refl fs
  · exact Journey.refl fs

instance : Edits LinesKept where
  same _ _ h := by
    simp only [emitted, Prod.mk.injEq] at h
    refine .of_lined ?_
    simp only [lined, h]
  snooze := .update _ fun _ => .of_lined rfl
  add op _ h := leads_addSQInstruction fun (hop : op = .opLine) => by
    rw [hop] at h
    cases h.out
  drop := linesKept_dropTarget

/-- Changes of operands. -/
theorem leads_modify (n : Nat) (f : SQInstruction → SQInstruction) (hf : ∀ i, (f i).op = i.op) :
    Leads LinesKept (update fun fs => { fs with instructions := fs.instructions.modify n f } :
      FuncM Unit) := .update _ fun fs => by
  refine ⟨Nat.le_of_eq (List.length_modify ..).symm, rfl, rfl, rfl, fun j ⟨i, hi, hop⟩ => ?_⟩
  rw [List.getElem?_modify] at hi
  cases hj : fs.instructions[j]? with
  | none =>
    rw [hj] at hi
    cases hi
  | some i' =>
    rw [hj] at hi
    refine ⟨i', hj, ?_⟩
    cases hi
    split at hop
    · exact (hf i').symm.trans hop
    · exact hop

instance (pos : Int) (arg0 arg1 arg2 arg3 : Operand) :
    Leads LinesKept (setInstructionParams pos arg0 arg1 arg2 arg3) := by
  have := leads_modify pos.toNat (fun i => { i with
    arg0 := arg0.narrow8, arg1 := arg1.narrow32, arg2 := arg2.narrow8, arg3 := arg3.narrow8 })
    fun _ => rfl
  unfold setInstructionParams
  infer_instance

instance (pos : Int) (val : Operand) : Leads LinesKept (setInstructionParam0 pos val) := by
  have := leads_modify pos.toNat (withArg0 val) fun _ => rfl
  unfold setInstructionParam0
  infer_instance

instance (pos val : Int) : Leads LinesKept (setInstructionParam1 pos val) := by
  have := leads_modify pos.toNat (fun i => { i with arg1 := (Operand.imm val).narrow32 })
    fun _ => rfl
  unfold setInstructionParam1
  infer_instance

instance (pos : Int) : Leads LinesKept (landHere pos) := by
  unfold landHere
  infer_instance

instance (get : SQFuncState → List Int) (put : List Int → SQFuncState → SQFuncState)
    (target : Int) (n : Nat) [hput : ∀ l, Leads LinesKept (update (put l) : FuncM Unit)] :
    Leads LinesKept (resolveJumps get put target n) := by
  induction n with
  | zero => exact inferInstanceAs (Leads LinesKept (pure () : FuncM Unit))
  | succ n ih =>
    unfold resolveJumps
    infer_instance

instance (before : Nat × Nat) (continueTarget : Int) :
    Leads LinesKept (endBreakable before continueTarget) := by
  have (l : List Int) : Leads LinesKept (update fun fs => { fs with unresolvedbreaks := l } :
    FuncM Unit) := .update _ fun _ => .of_lined rfl
  have (l : List Int) : Leads LinesKept (update fun fs => { fs with unresolvedcontinues := l } :
    FuncM Unit) := .update _ fun _ => .of_lined rfl
  have : Leads LinesKept (update fun fs => { fs with
    breaktargets := fs.breaktargets.tail, continuetargets := fs.continuetargets.tail } :
    FuncM Unit) := .update _ fun _ => .of_lined rfl
  unfold endBreakable resolveContinues resolveBreaks
  infer_instance

instance (nbreaks : Nat) : Leads LinesKept (endSwitch nbreaks) := by
  have (l : List Int) : Leads LinesKept (update fun fs => { fs with unresolvedbreaks := l } :
    FuncM Unit) := .update _ fun _ => .of_lined rfl
  have : Leads LinesKept (update fun fs => { fs with breaktargets := fs.breaktargets.tail } :
    FuncM Unit) := .update _ fun _ => .of_lined rfl
  unfold endSwitch resolveBreaks
  infer_instance

instance (trg : StackPos) (jpos : Int) : Leads LinesKept (endShortCircuit trg jpos) := by
  unfold endShortCircuit
  infer_instance

instance (trg : StackPos) (jzpos endfirstexp jmppos : Int) :
    Leads LinesKept (emitSecondBranch trg jzpos endfirstexp jmppos) := by
  unfold emitSecondBranch
  infer_instance

instance (jmptrg : Int) (before : Nat × Nat) : Leads LinesKept (endDo jmptrg before) := by
  unfold endDo
  infer_instance

instance (jmptrg continuetrg : Int) (before : Nat × Nat) :
    Leads LinesKept (endDoWhile jmptrg continuetrg before) := by
  unfold endDoWhile
  infer_instance

theorem leads_addInstructions (is : List SQInstruction) (his : ∀ i ∈ is, i.op ≠ .opLine) :
    Leads LinesKept (addInstructions is) := by
  induction is with
  | nil => exact inferInstanceAs (Leads LinesKept (pure () : FuncM Unit))
  | cons i is ih =>
    have := leads_addSQInstruction (his i List.mem_cons_self)
    have := ih fun i' hi' => his i' (List.mem_cons_of_mem i hi')
    unfold addInstructions
    infer_instance

theorem keeps_endFor (exp : List SQInstruction) (hexp : ∀ i ∈ exp, i.op ≠ .opLine)
    (jmppos jzpos : Int) (before : Nat × Nat) :
    Leads LinesKept (endFor exp jmppos jzpos before) := by
  have := leads_addInstructions exp hexp
  unfold endFor
  infer_instance

instance (jmppos foreachpos : Int) (before : Nat × Nat) :
    Leads LinesKept (endForeach jmppos foreachpos before) := by
  unfold endForeach
  infer_instance

instance (c : CaseJumps) : Leads LinesKept (beginCase c) := by
  unfold beginCase
  infer_instance

instance (expr : StackPos) (skipcondjmp : Int) : Leads LinesKept (emitCase expr skipcondjmp) := by
  unfold emitCase emitCase.caseTarget
  infer_instance

instance (trappos : Int) : Leads LinesKept (endTry trappos) := by
  have : Leads LinesKept (update fun fs => { fs with traps := fs.traps - 1 } : FuncM Unit) :=
    .update _ fun _ => .of_lined rfl
  have : Leads LinesKept (update fun fs => { fs with
    breaktargets := addTraps (-1) fs.breaktargets
    continuetargets := addTraps (-1) fs.continuetargets } : FuncM Unit) :=
    .update _ fun _ => .of_lined rfl
  unfold endTry
  infer_instance

instance (exid : Text) (trappos : Int) : Leads LinesKept (beginCatch exid trappos) := by
  unfold beginCatch
  infer_instance

instance (jmppos : Int) : Leads LinesKept (endCatch jmppos) := by
  unfold endCatch
  infer_instance

end SQFuncState

/-! ## Tables -/

/-- The table of every function of a prototype is there and in order. -/
inductive LineTables : SQFunctionProto → Prop
  | mk (stacksize : Nat) (name : Option Text) (sourcename : Text) (bgenerator varparams : Bool)
    (literals : List Scalar) (parameters : List Text) (functions : List SQFunctionProto)
    (outervalues : List SQOuterVar) (localvarinfos : List SQLocalVarInfo)
    (lineinfos : List SQLineInfo) (defaultparams : List StackPos)
    (instructions : List SQInstruction) (entry : lineinfos ≠ [])
    (sorted : lineinfos.Pairwise (·.op ≤ ·.op)) (nested : ∀ p ∈ functions, LineTables p) :
    LineTables (.mk stacksize name sourcename bgenerator varparams literals parameters functions
      outervalues localvarinfos lineinfos defaultparams instructions)

namespace SQFuncState

/-- The table so far is in order and not behind the code; if it is empty, the last line was never
set, and no line was emitted. -/
structure Lined (fs : SQFuncState) : Prop where
  sorted : fs.lineinfos.Pairwise (·.op ≤ ·.op)
  bound : ∀ li ∈ fs.lineinfos, li.op ≤ fs.instructions.length
  first : fs.lineinfos = [] → fs.lastline = 0
  unlined : fs.lineinfos = [] → ∀ j, ¬ fs.LineAt j
  nested : ∀ p ∈ fs.functions, LineTables p

theorem lined_create (hasParent : Bool) (name : Option Text) (sourcename : Text) :
    (create hasParent name sourcename).Lined where
  sorted := .nil
  bound := nofun
  first _ := rfl
  unlined _ j h := by
    obtain ⟨i, hi, -⟩ := h
    cases hi
  nested := nofun

theorem LinesKept.lined {fs fs' : SQFuncState} (h : LinesKept fs fs') (hl : fs.Lined) :
    fs'.Lined := by
  refine ⟨?_, ?_, ?_, ?_, ?_⟩
  · rw [h.lineinfos]
    exact hl.sorted
  · intro li hli
    rw [h.lineinfos] at hli
    have := hl.bound li hli
    have := h.length
    omega
  · rw [h.lineinfos, h.lastline]
    exact hl.first
  · rw [h.lineinfos]
    exact fun hnil j hj => hl.unlined hnil j (h.lines j hj)
  · rw [h.functions]
    exact hl.nested

theorem Lined.lineTables {fs : SQFuncState} (h : fs.Lined) (hne : fs.lineinfos ≠ []) :
    LineTables fs.buildProto :=
  .mk _ _ _ _ _ _ _ _ _ _ _ _ _ hne h.sorted h.nested

/-- `AddLineInfos` after the instruction. -/
def markedAt (line op : Int) (fs : SQFuncState) : SQFuncState where
  __ := fs
  lineinfos := if fs.lastline ≠ line then fs.lineinfos ++ [⟨line, op⟩] else fs.lineinfos
  lastline := line

/-- An entry for code that starts at the end of what was there before. -/
theorem lined_markedAt {fs fs₁ : SQFuncState} {line : Int} (hline : 1 ≤ line) (h : fs.Lined)
    (hlength : fs.instructions.length ≤ fs₁.instructions.length)
    (hinfos : fs₁.lineinfos = fs.lineinfos ∨
      fs.lastline ≠ line ∧ fs₁.lineinfos = fs.lineinfos.dropLast)
    (hlast : fs₁.lastline = fs.lastline) (hfunctions : fs₁.functions = fs.functions) :
    (fs₁.markedAt line fs.instructions.length).Lined ∧
      (fs₁.markedAt line fs.instructions.length).lineinfos ≠ [] := by
  have hsub : fs₁.lineinfos <+: fs.lineinfos := by
    obtain h | ⟨-, h⟩ := hinfos
    · exact ⟨[], (List.append_nil _).trans h⟩
    · rw [h]
      exact List.dropLast_prefix _
  have hsorted := h.sorted.sublist hsub.sublist
  have hbound (li) (hli : li ∈ fs₁.lineinfos) := h.bound li (hsub.subset hli)
  have hnested : ∀ p ∈ fs₁.functions, LineTables p := by
    rw [hfunctions]
    exact h.nested
  by_cases hnew : fs₁.lastline ≠ line
  · have hins : (fs₁.markedAt line fs.instructions.length).lineinfos =
        fs₁.lineinfos ++ [⟨line, fs.instructions.length⟩] := if_pos hnew
    have hne : (fs₁.markedAt line fs.instructions.length).lineinfos ≠ [] := by
      rw [hins]
      exact List.append_ne_nil_of_right_ne_nil _ nofun
    refine ⟨⟨?_, ?_, fun h => absurd h hne, fun h => absurd h hne, hnested⟩, hne⟩
    · rw [hins, List.pairwise_append]
      refine ⟨hsorted, List.pairwise_singleton .., ?_⟩
      intro li hli li' hli'
      rw [List.mem_singleton.mp hli']
      exact hbound li hli
    · rw [hins]
      intro li hli
      show li.op ≤ fs₁.instructions.length
      obtain hli | hli := List.mem_append.mp hli
      · have := hbound li hli
        omega
      · rw [List.mem_singleton.mp hli]
        show (fs.instructions.length : Int) ≤ fs₁.instructions.length
        omega
  · have hold : fs.lastline = line := by
      rw [← hlast]
      exact Decidable.not_not.mp hnew
    have hins : (fs₁.markedAt line fs.instructions.length).lineinfos = fs.lineinfos := by
      refine (if_neg hnew).trans ?_
      obtain h | ⟨hne, -⟩ := hinfos
      · exact h
      · exact absurd hold hne
    have hne : (fs₁.markedAt line fs.instructions.length).lineinfos ≠ [] := by
      rw [hins]
      intro hnil
      have := h.first hnil
      omega
    refine ⟨⟨?_, ?_, fun h => absurd h hne, fun h => absurd h hne, hnested⟩, hne⟩
    · rw [hins]
      exact h.sorted
    · rw [hins]
      intro li hli
      have := h.bound li hli
      show li.op ≤ fs₁.instructions.length
      omega

theorem peephole_line (fs : SQFuncState) (pi : SQInstruction) {i : SQInstruction}
    (hop : i.op = .opLine) :
    fs.peephole pi i = if pi.op = .opLine then .line i else .push i := by
  obtain ⟨op, arg0, arg1, arg2, arg3⟩ := i
  cases hop
  rfl

/-- What `_OP_LINE` does to the table. -/
theorem lineinfos_of_line {line : Int} {fs fs₁ : SQFuncState} {args : List Operand} {u : Unit}
    (hnew : fs.optimization = true → fs.instructions ≠ [] → fs.lastline ≠ line)
    (h : Prog.run (addInstruction .opLine args) fs = (.ok u, fs₁)) :
    fs.instructions.length ≤ fs₁.instructions.length ∧
      (fs₁.lineinfos = fs.lineinfos ∨
        fs.lastline ≠ line ∧ fs₁.lineinfos = fs.lineinfos.dropLast) ∧
      fs₁.lastline = fs.lastline ∧ fs₁.functions = fs.functions := by
  obtain ⟨i, hi⟩ : ∃ i, SQInstruction.make .opLine args = i := ⟨_, rfl⟩
  have hop : i.op = .opLine := by
    rw [← hi]
    rfl
  have hrun : Prog.run (addSQInstruction i) fs = (.ok u, fs₁) := by
    rw [← hi]
    exact h
  rw [run_addSQInstruction] at hrun
  split at hrun
  · cases congrArg Prod.fst hrun
  · obtain rfl := congrArg Prod.snd hrun
    have hpush : fs.fusion i = .push i ∨
        (∃ pi, fs.instructions.getLast? = some pi) ∧ fs.optimization = true ∧
          fs.fusion i = .line i := by
      unfold fusion
      split
      · next pi hlast =>
        split
        · next hopt =>
          rw [peephole_line fs pi hop]
          split
          · exact .inr ⟨⟨pi, hlast⟩, hopt, rfl⟩
          · exact .inl rfl
        · exact .inl rfl
      · exact .inl rfl
    obtain hpush | ⟨⟨pi, hlast⟩, hopt, hline⟩ := hpush
    · rw [hpush]
      exact ⟨Nat.le_of_lt (by simp [apply, pushInstruction]), .inl rfl, rfl, rfl⟩
    · rw [hline]
      have hpos := length_pos_of_last hlast
      refine ⟨?_, .inr ⟨hnew hopt (List.length_pos_iff.mp hpos), rfl⟩, rfl, rfl⟩
      show fs.instructions.length ≤ (fs.instructions.dropLast ++ [i]).length
      rw [List.length_append, List.length_dropLast, List.length_singleton]
      omega

/-- A forced line is never combined with one before it, because the optimiser pauses. -/
theorem lined_addLineInfos {line : Int} {lineop force : Bool} {fs gs : SQFuncState} {u : Unit}
    (hline : 1 ≤ line) (h : fs.Lined)
    (hforce : force = true → fs.optimization = false ∨ fs.instructions = [])
    (hrun : Prog.run (addLineInfos line lineop force) fs = (.ok u, gs)) :
    gs.Lined ∧ gs.lineinfos ≠ [] := by
  rw [addLineInfos, Prog.run_gets_bind, Prog.when] at hrun
  split at hrun
  · next hc =>
    rw [getCurrentPos, Prog.run_gets_bind] at hrun
    obtain ⟨_, fs₁, hadd, hrun⟩ := Prog.run_bind_inv hrun
    have hnew : fs.optimization = true → fs.instructions ≠ [] → fs.lastline ≠ line := by
      intro hopt hne
      obtain hc | hc := hc
      · exact hc
      · obtain hopt' | hnil := hforce hc
        · rw [hopt] at hopt'
          cases hopt'
        · exact absurd hnil hne
    have hstep : fs.instructions.length ≤ fs₁.instructions.length ∧
        (fs₁.lineinfos = fs.lineinfos ∨
          fs.lastline ≠ line ∧ fs₁.lineinfos = fs.lineinfos.dropLast) ∧
        fs₁.lastline = fs.lastline ∧ fs₁.functions = fs.functions := by
      rw [Prog.when] at hadd
      split at hadd
      · exact lineinfos_of_line hnew hadd
      · cases hadd
        exact ⟨Nat.le_refl _, .inl rfl, rfl, rfl⟩
    have hgs : gs = fs₁.markedAt line fs.instructions.length := by
      have hpos : (fs.instructions.length : Int) - 1 + 1 = fs.instructions.length := by omega
      obtain ⟨_, fs₂, hinfos, hrun⟩ := Prog.run_bind_inv hrun
      have hlast : { fs₂ with lastline := line } = gs := congrArg Prod.snd hrun
      rw [Prog.when] at hinfos
      split at hinfos
      · next hne =>
        have hentry : { fs₁ with lineinfos := fs₁.lineinfos ++ [⟨line, _⟩] } = fs₂ :=
          congrArg Prod.snd hinfos
        simp only [← hlast, ← hentry, markedAt, hstep.2.2.1, if_pos hne, hpos]
      · next hne =>
        have hentry : fs₁ = fs₂ := congrArg Prod.snd hinfos
        simp only [← hlast, ← hentry, markedAt, hstep.2.2.1, if_neg hne]
    rw [hgs]
    exact lined_markedAt hline h hstep.1 hstep.2.1 hstep.2.2.1 hstep.2.2.2
  · next hc =>
    cases hrun
    refine ⟨h, fun hnil => ?_⟩
    have hlast : fs.lastline = line := Decidable.not_not.mp fun hne => hc (.inl hne)
    have := h.first hnil
    omega

/-- The function is complete. -/
theorem lineTables_finishFunction {line : Int} {lineinfo : Bool} {fs gs : SQFuncState} {u : Unit}
    (h : fs.Lined) (hopt : fs.optimization = false) (hline : 1 ≤ line)
    (hrun : Prog.run (finishFunction line lineinfo) fs = (.ok u, gs)) :
    LineTables gs.buildProto := by
  obtain ⟨_, fs₁, hadd, hrun⟩ := Prog.run_bind_inv hrun
  obtain ⟨hlined, hne⟩ := lined_addLineInfos hline h (fun _ => .inl hopt) hadd
  have hkept : Leads LinesKept (do
    addInstruction .opReturn [.imm (-1)]
    setStackSize 0) := inferInstance
  have hkept := hkept.out _ _ _ hrun
  refine (hkept.lined hlined).lineTables ?_
  rw [hkept.lineinfos]
  exact hne

theorem lineTables_finishMain {line : Int} {lineinfo : Bool} {stacksize : Nat}
    {fs gs : SQFuncState} {p : SQFunctionProto} (h : fs.Lined)
    (hopt : fs.optimization = false ∨ fs.instructions = []) (hline : 1 ≤ line)
    (hrun : Prog.run (finishMain line lineinfo stacksize) fs = (.ok p, gs)) : LineTables p := by
  obtain ⟨_, fs₁, hsize, hrun⟩ := Prog.run_bind_inv hrun
  cases hsize
  have hsame := emitted_foldl_dropLocal (fs.vlocals.drop stacksize).reverse fs
  obtain ⟨_, fs₂, hadd, hrun⟩ := Prog.run_bind_inv hrun
  obtain ⟨hlined, hne⟩ := lined_addLineInfos hline
    ((Edits.same (R := LinesKept) _ _ hsame).lined h) (fun _ => by
      simp only [emitted, Prod.mk.injEq] at hsame
      rw [hsame.1, hsame.2.1]
      exact hopt) hadd
  obtain ⟨_, fs₃, hret, hrun⟩ := Prog.run_bind_inv hrun
  obtain ⟨_, fs₄, hsize, hrun⟩ := Prog.run_bind_inv hrun
  cases hrun
  have hret := Leads.out (R := LinesKept) _ _ _ hret
  have hkept : LinesKept fs₂ fs₄ := Journey.trans _ _ _ hret (Leads.out _ _ _ hsize)
  refine (hkept.lined hlined).lineTables ?_
  rw [hkept.lineinfos]
  exact hne

end SQFuncState
end Sqnim.Compiler
