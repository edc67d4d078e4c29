import Sqnim.Compiler.AddInstruction
import Sqnim.Compiler.Edits

/-!
# What code leaves alone

Compiling more code keeps the instructions there are, but for the last one, which the optimiser
may change. The jumps of `break` and `continue` that wait for their targets are recorded on top of
those recorded before.
-/
namespace Sqnim.Compiler

open Sqnim.Lib
open SQFuncState

set_option synthInstance.maxSize 1600

namespace SQFuncState

/-- An instruction that later code leaves alone. -/
def Settled (fs : SQFuncState) (j : Nat) : Prop :=
  ∃ i, fs.instructions[j]? = some i ∧
    (j + 1 < fs.instructions.length ∨ fs.optimization = false ∨ jumps i.op = true)

/-- The position of a jump emitted since `fs`. -/
def Recorded (fs fs' : SQFuncState) (p : Int) : Prop :=
  ∃ j : Nat, p = j ∧ fs.instructions.length ≤ j ∧
    ∃ i, fs'.instructions[j]? = some i ∧ i.op = .opJmp

/-- A list of positions has grown by recorded ones. -/
def Records (fs fs' : SQFuncState) (l l' : List Int) : Prop :=
  ∃ new, l' = new ++ l ∧ ∀ p ∈ new, Recorded fs fs' p

/-- The positions recorded on top of a list. -/
def since (l l' : List Int) : List Int := l'.take (l'.length - l.length)

@[simp] theorem since_append (l new : List Int) : since l (new ++ l) = new := by
  simp [since]

@[simp] theorem since_self (l : List Int) : since l l = [] := by
  simp [since]

/-- Compiling goes from one state to another; with `e`, the jumps that wait for their targets are
the same, as after an expression. -/
structure CodeFrame (e : Bool) (fs fs' : SQFuncState) : Prop where
  length : fs.instructions.length ≤ fs'.instructions.length
  settled : ∀ j, Settled fs j → Settled fs' j ∧ fs'.instructions[j]? = fs.instructions[j]?
  breaks : Records fs fs' fs.unresolvedbreaks fs'.unresolvedbreaks
  continues : Records fs fs' fs.unresolvedcontinues fs'.unresolvedcontinues
  apart : ∀ p ∈ since fs.unresolvedbreaks fs'.unresolvedbreaks,
    p ∉ since fs.unresolvedcontinues fs'.unresolvedcontinues
  same : e = true → fs'.unresolvedbreaks = fs.unresolvedbreaks ∧
    fs'.unresolvedcontinues = fs.unresolvedcontinues

variable {e : Bool}

theorem Settled.lt {fs : SQFuncState} {j : Nat} (h : Settled fs j) :
    j < fs.instructions.length := by
  obtain ⟨i, hi, -⟩ := h
  exact (List.getElem?_eq_some_iff.mp hi).1

theorem settled_of_jump {fs : SQFuncState} {j : Nat} {i : SQInstruction}
    (hi : fs.instructions[j]? = some i) (hop : jumps i.op = true) : Settled fs j :=
  ⟨i, hi, .inr (.inr hop)⟩

theorem Records.refl (fs fs' : SQFuncState) (l : List Int) : Records fs fs' l l := ⟨[], rfl, nofun⟩

/-- A recorded jump stays one. -/
theorem Records.trans {fs gs hs : SQFuncState} {l m n : List Int}
    (hlen : fs.instructions.length ≤ gs.instructions.length)
    (hset : ∀ j, Settled gs j → hs.instructions[j]? = gs.instructions[j]?)
    (h₁ : Records fs gs l m) (h₂ : Records gs hs m n) : Records fs hs l n := by
  obtain ⟨new₁, rfl, hnew₁⟩ := h₁
  obtain ⟨new₂, rfl, hnew₂⟩ := h₂
  refine ⟨new₂ ++ new₁, (List.append_assoc _ _ _).symm, ?_⟩
  intro p hp
  obtain hp | hp := List.mem_append.mp hp
  · obtain ⟨j, hpj, hj, hi⟩ := hnew₂ p hp
    exact ⟨j, hpj, Nat.le_trans hlen hj, hi⟩
  · obtain ⟨j, hpj, hj, i, hi, hop⟩ := hnew₁ p hp
    refine ⟨j, hpj, hj, i, ?_, hop⟩
    rw [hset j (settled_of_jump hi (by rw [hop]; rfl)), hi]

theorem Recorded.lt {fs gs : SQFuncState} {p : Int} (h : Recorded fs gs p) :
    p < gs.instructions.length := by
  obtain ⟨j, rfl, -, i, hi, -⟩ := h
  exact Int.ofNat_lt.mpr (List.getElem?_eq_some_iff.mp hi).1

theorem Recorded.le {fs gs : SQFuncState} {p : Int} (h : Recorded fs gs p) :
    fs.instructions.length ≤ p := by
  obtain ⟨j, rfl, hj, -⟩ := h
  exact Int.ofNat_le.mpr hj

theorem CodeFrame.of_lists {fs fs' : SQFuncState}
    (hlen : fs.instructions.length ≤ fs'.instructions.length)
    (hset : ∀ j, Settled fs j → Settled fs' j ∧ fs'.instructions[j]? = fs.instructions[j]?)
    (hb : fs'.unresolvedbreaks = fs.unresolvedbreaks)
    (hc : fs'.unresolvedcontinues = fs.unresolvedcontinues) : CodeFrame e fs fs' where
  length := hlen
  settled := hset
  breaks := ⟨[], hb, nofun⟩
  continues := ⟨[], hc, nofun⟩
  apart := by
    rw [hb, since_self]
    exact nofun
  same _ := ⟨hb, hc⟩

/-- The two kinds of jumps stay apart: a later one stands behind the earlier ones. -/
theorem apart_trans {fs gs hs : SQFuncState} (h₁ : CodeFrame e fs gs) (h₂ : CodeFrame e gs hs) :
    ∀ p ∈ since fs.unresolvedbreaks hs.unresolvedbreaks,
      p ∉ since fs.unresolvedcontinues hs.unresolvedcontinues := by
  obtain ⟨nb₁, hb₁, hrb₁⟩ := h₁.breaks
  obtain ⟨nc₁, hc₁, hrc₁⟩ := h₁.continues
  obtain ⟨nb₂, hb₂, hrb₂⟩ := h₂.breaks
  obtain ⟨nc₂, hc₂, hrc₂⟩ := h₂.continues
  have hapart₁ := h₁.apart
  have hapart₂ := h₂.apart
  rw [hb₁, hc₁, since_append, since_append] at hapart₁
  rw [hb₂, hc₂, since_append, since_append] at hapart₂
  rw [hb₂, hc₂, hb₁, hc₁, ← List.append_assoc, ← List.append_assoc, since_append, since_append]
  intro p hp hp'
  obtain hp | hp := List.mem_append.mp hp <;> obtain hp' | hp' := List.mem_append.mp hp'
  · exact hapart₂ p hp hp'
  · have hle := (hrb₂ p hp).le
    have hlt := (hrc₁ p hp').lt
    omega
  · have hle := (hrc₂ p hp').le
    have hlt := (hrb₁ p hp).lt
    omega
  · exact hapart₁ p hp hp'

instance : Journey (CodeFrame e) where
  refl fs := .of_lists (Nat.le_refl _) (fun _ h => ⟨h, rfl⟩) rfl rfl
  trans fs gs hs h₁ h₂ := by
    have hset : ∀ j, Settled gs j → hs.instructions[j]? = gs.instructions[j]? :=
      fun j hj => (h₂.settled j hj).2
    refine ⟨Nat.le_trans h₁.length h₂.length, ?_, h₁.breaks.trans h₁.length hset h₂.breaks,
      h₁.continues.trans h₁.length hset h₂.continues, apart_trans h₁ h₂, fun he =>
        ⟨(h₂.same he).1.trans (h₁.same he).1, (h₂.same he).2.trans (h₁.same he).2⟩⟩
    intro j hj
    obtain ⟨hg, hsame⟩ := h₁.settled j hj
    obtain ⟨hh, hsame'⟩ := h₂.settled j hg
    exact ⟨hh, hsame'.trans hsame⟩

theorem CodeFrame.of_expression {fs fs' : SQFuncState} (h : CodeFrame true fs fs') :
    CodeFrame e fs fs' :=
  ⟨h.length, h.settled, h.breaks, h.continues, h.apart, fun _ => h.same rfl⟩

theorem CodeFrame.statement {fs fs' : SQFuncState} (h : CodeFrame e fs fs') :
    CodeFrame false fs fs' :=
  ⟨h.length, h.settled, h.breaks, h.continues, h.apart, nofun⟩

/-- The part of a function state that a code frame is about. -/
def code (fs : SQFuncState) : List SQInstruction × Bool × List Int × List Int :=
  (fs.instructions, fs.optimization, fs.unresolvedbreaks, fs.unresolvedcontinues)

theorem CodeFrame.of_code {fs fs' : SQFuncState} (h : fs'.code = fs.code) : CodeFrame e fs fs' := by
  obtain ⟨hi, ho, hb, hc⟩ : fs'.instructions = fs.instructions ∧
      fs'.optimization = fs.optimization ∧ fs'.unresolvedbreaks = fs.unresolvedbreaks ∧
      fs'.unresolvedcontinues = fs.unresolvedcontinues := by
    simpa only [code, Prod.mk.injEq] using h
  refine .of_lists (Nat.le_of_eq (congrArg List.length hi.symm)) ?_ hb hc
  intro j hj
  rw [Settled, hi, ho]
  exact ⟨hj, rfl⟩

theorem leads_of_code (e : Bool) (f : SQFuncState → SQFuncState) (h : ∀ fs, (f fs).code = fs.code) :
    Leads (CodeFrame e) (Prog.update f : FuncM Unit) := .update f fun fs => .of_code (h fs)

/-! ## Operations on a function state -/

instance : Leads (CodeFrame e) snoozeOpt := .update _ fun fs => by
  refine .of_lists (Nat.le_refl _) ?_ rfl rfl
  intro j ⟨i, hi, _⟩
  exact ⟨⟨i, hi, .inr (.inl rfl)⟩, rfl⟩

/-- The last instruction may be changed if the optimiser is on and it is no jump. -/
theorem settled_of_dropLast {fs : SQFuncState} {pi : SQInstruction} (is : List SQInstruction)
    (hlast : fs.instructions.getLast? = some pi) (hopt : fs.optimization = true)
    (hjump : jumps pi.op = false) (p : SQInstruction) {gs : SQFuncState}
    (hins : gs.instructions = fs.instructions.dropLast ++ p :: is) (j : Nat) (hj : Settled fs j) :
    Settled gs j ∧ gs.instructions[j]? = fs.instructions[j]? := by
  have hpos := length_pos_of_last hlast
  obtain ⟨i, hi, hkept⟩ := hj
  have hlt : j + 1 < fs.instructions.length := by
    obtain hlt | hopt' | hjump' := hkept
    · exact hlt
    · rw [hopt] at hopt'
      cases hopt'
    · refine Nat.lt_of_not_le fun hle => ?_
      have hlt' := (List.getElem?_eq_some_iff.mp hi).1
      rw [show j = fs.instructions.length - 1 by omega, ← List.getLast?_eq_getElem?, hlast] at hi
      cases hi
      rw [hjump] at hjump'
      cases hjump'
  have hsame : gs.instructions[j]? = fs.instructions[j]? := by
    rw [hins, List.getElem?_append_left (by simp; omega), List.getElem?_dropLast, if_pos (by omega)]
  refine ⟨⟨i, hsame.trans hi, .inl ?_⟩, hsame⟩
  rw [hins, List.length_append, List.length_dropLast, List.length_cons]
  omega

theorem codeFrame_apply (fs : SQFuncState) (i : SQInstruction) :
    CodeFrame e fs (fs.apply (fs.fusion i)) := by
  have hbreaks : (fs.apply (fs.fusion i)).unresolvedbreaks = fs.unresolvedbreaks := by
    cases fs.fusion i <;> rfl
  have hcontinues : (fs.apply (fs.fusion i)).unresolvedcontinues = fs.unresolvedcontinues := by
    cases fs.fusion i <;> rfl
  cases added fs i with
  | pushed i' h hop =>
    have hins := instructions_push fs i'
    rw [← h] at hins
    refine .of_lists (by rw [hins]; simp) ?_ hbreaks hcontinues
    intro j hj
    have hlt := hj.lt
    obtain ⟨pi, hi, -⟩ := hj
    have hsame : (fs.apply (fs.fusion i)).instructions[j]? = fs.instructions[j]? := by
      rw [hins, List.getElem?_append_left hlt]
    refine ⟨⟨pi, hsame.trans hi, .inl ?_⟩, hsame⟩
    rw [hins, List.length_append, List.length_singleton]
    omega
  | replaced pi p hlast hopt hjump h =>
    refine .of_lists ?_ (settled_of_dropLast [] hlast hopt hjump p h) hbreaks hcontinues
    rw [h]
    exact Nat.le_of_eq (length_setLast hlast p).symm
  | changed pi hlast hopt hop h =>
    have hins := instructions_change fs { pi with op := .opTailcall } i
    rw [← h] at hins
    refine .of_lists ?_ (settled_of_dropLast [i] hlast hopt (jumps_of_op hop rfl) _ hins) hbreaks
      hcontinues
    have hpos := length_pos_of_last hlast
    rw [hins, List.length_append, List.length_dropLast, List.length_cons, List.length_singleton]
    omega

instance (i : SQInstruction) : Leads (CodeFrame e) (addSQInstruction i) where
  out fs a fs' h := by
    rw [run_addSQInstruction] at h
    split at h
    · cases congrArg Prod.fst h
    · cases h
      exact codeFrame_apply fs i

instance (op : SQOpcode) (args : List Operand) : Leads (CodeFrame e) (addInstruction op args) :=
  inferInstanceAs (Leads (CodeFrame e) (addSQInstruction _))

theorem codeFrame_dropTarget (target : StackPos) (fs : SQFuncState) :
    CodeFrame e fs (fs.dropTarget target) := by
  unfold dropTarget
  split
  · next pi hlast =>
    split
    · next hc =>
      have hjump : jumps pi.op = false := by
        cases hop : pi.op <;> first | rfl | (have hd := hc.2.1; rw [hop] at hd; cases hd)
      exact .of_lists (Nat.le_of_eq (length_setLast hlast _).symm)
        (settled_of_dropLast [] hlast hc.1 hjump _ rfl) rfl rfl
    · exact Journey.refl fs
  · exact Journey.refl fs

end SQFuncState

instance : Edits (CodeFrame e) where
  same fs fs' h := by
    simp only [emitted, Prod.mk.injEq] at h
    refine .of_code ?_
    simp only [code, h]
  snooze := inferInstance
  add _ _ := inferInstance
  drop := codeFrame_dropTarget

instance (line : Int) (lineop force : Bool) : Leads (CodeFrame e) (addLineInfos line lineop force) := by
  have (current : Int) := leads_of_code e (fun fs => { fs with
    lineinfos := fs.lineinfos ++ [⟨line, current + 1⟩] }) fun _ => rfl
  have := leads_of_code e (fun fs => { fs with lastline := line }) fun _ => rfl
  unfold addLineInfos
  infer_instance

instance (line : Int) (lineinfo : Bool) : Leads (CodeFrame e) (finishFunction line lineinfo) := by
  unfold finishFunction
  infer_instance

instance (is : List SQInstruction) : Leads (CodeFrame e) (addInstructions is) := by
  induction is with
  | nil => exact inferInstanceAs (Leads (CodeFrame e) (pure () : FuncM Unit))
  | cons i is ih =>
    unfold addInstructions
    infer_instance

instance (line : Int) (lineinfo : Bool) (stacksize : Nat) :
    Leads (CodeFrame e) (finishMain line lineinfo stacksize) := by
  unfold finishMain
  infer_instance

/-! ## Setting targets -/

namespace SQFuncState

/-- A position whose instruction may still be changed. -/
class Fresh (b : SQFuncState) (pos : Int) : Prop where
  out : ¬ b.Settled pos.toNat

theorem codeFrame_modify {b fs : SQFuncState} (h : CodeFrame e b fs) (n : Nat)
    (g : SQInstruction → SQInstruction) (hg : ∀ i, (g i).op = i.op) (hn : ¬ b.Settled n) :
    CodeFrame e b { fs with instructions := fs.instructions.modify n g } := by
  have hjumps : ∀ {l l'}, Records b fs l l' →
      Records b { fs with instructions := fs.instructions.modify n g } l l' := by
    intro l l' ⟨new, hl, hnew⟩
    refine ⟨new, hl, ?_⟩
    intro p hp
    obtain ⟨j, hpj, hj, i, hi, hop⟩ := hnew p hp
    refine ⟨j, hpj, hj, if n = j then g i else i, ?_, ?_⟩
    · show (fs.instructions.modify n g)[j]? = _
      rw [List.getElem?_modify, hi]
      split <;> rfl
    · split
      · exact (hg i).trans hop
      · exact hop
  refine ⟨?_, ?_, hjumps h.breaks, hjumps h.continues, h.apart, h.same⟩
  · show _ ≤ (fs.instructions.modify n g).length
    rw [List.length_modify]
    exact h.length
  · intro j hj
    obtain ⟨⟨i, hi, hkept⟩, hsame⟩ := h.settled j hj
    have hne : n ≠ j := by
      intro he
      rw [he] at hn
      exact hn hj
    have hsame' : (fs.instructions.modify n g)[j]? = fs.instructions[j]? :=
      List.getElem?_modify_ne g _ hne
    refine ⟨⟨i, hsame'.trans hi, ?_⟩, hsame'.trans hsame⟩
    show j + 1 < (fs.instructions.modify n g).length ∨ _
    rw [List.length_modify]
    exact hkept

variable (b : SQFuncState)

instance (pos : Int) (arg0 arg1 arg2 arg3 : Operand) [hp : Fresh b pos] :
    Leads (Since (CodeFrame e) b) (setInstructionParams pos arg0 arg1 arg2 arg3) := by
  have : Leads (Since (CodeFrame e) b) (Prog.update fun fs => { fs with
      instructions := fs.instructions.modify pos.toNat fun i => { i with
        arg0 := arg0.narrow8, arg1 := arg1.narrow32, arg2 := arg2.narrow8, arg3 := arg3.narrow8 } } :
      FuncM Unit) := .update _ fun _ h => codeFrame_modify h _ _ (fun _ => rfl) hp.out
  unfold setInstructionParams
  infer_instance

instance (pos val : Int) [hp : Fresh b pos] :
    Leads (Since (CodeFrame e) b) (setInstructionParam1 pos val) := by
  have : Leads (Since (CodeFrame e) b) (Prog.update fun fs => { fs with
      instructions := fs.instructions.modify pos.toNat fun i =>
        { i with arg1 := (Operand.imm val).narrow32 } } : FuncM Unit) :=
    .update _ fun _ h => codeFrame_modify h _ _ (fun _ => rfl) hp.out
  unfold setInstructionParam1
  infer_instance

instance (pos : Int) (val : Operand) [hp : Fresh b pos] :
    Leads (Since (CodeFrame e) b) (setInstructionParam0 pos val) := by
  have : Leads (Since (CodeFrame e) b) (Prog.update fun fs => { fs with
      instructions := fs.instructions.modify pos.toNat (withArg0 val) } : FuncM Unit) :=
    .update _ fun _ h => codeFrame_modify h _ _ (fun _ => rfl) hp.out
  unfold setInstructionParam0
  infer_instance

instance (pos : Int) [Fresh b pos] : Leads (Since (CodeFrame e) b) (landHere pos) := by
  unfold landHere
  infer_instance

/-! ## Jumps out of a loop -/

/-- A list of the positions of jumps in a function state. -/
structure JumpList where
  get : SQFuncState → List Int
  put : List Int → SQFuncState → SQFuncState
  get_put : ∀ l fs, get (put l fs) = l
  get_code : ∀ is fs, get { fs with instructions := is } = get fs
  put_put : ∀ l l' fs, put l (put l' fs) = put l fs
  put_get : ∀ fs, put (get fs) fs = fs
  put_code : ∀ l is fs, { put l fs with instructions := is } = put l { fs with instructions := is }
  code_put : ∀ l fs, (put l fs).instructions = fs.instructions

def breakList : JumpList where
  get fs := fs.unresolvedbreaks
  put l fs := { fs with unresolvedbreaks := l }
  get_put _ _ := rfl
  get_code _ _ := rfl
  put_put _ _ _ := rfl
  put_get _ := rfl
  put_code _ _ _ := rfl
  code_put _ _ := rfl

def continueList : JumpList where
  get fs := fs.unresolvedcontinues
  put l fs := { fs with unresolvedcontinues := l }
  get_put _ _ := rfl
  get_code _ _ := rfl
  put_put _ _ _ := rfl
  put_get _ := rfl
  put_code _ _ _ := rfl
  code_put _ _ := rfl

/-- The jump at a position, to a target. -/
def landAt (target pos : Int) (i : SQInstruction) : SQInstruction where
  op := i.op
  arg0 := (Operand.imm 0).narrow8
  arg1 := (Operand.imm (target - pos)).narrow32
  arg2 := (Operand.imm 0).narrow8
  arg3 := (Operand.imm 0).narrow8

/-- The instructions after some jumps got their target. -/
def resolved (target : Int) (jumps : List Int) (is : List SQInstruction) : List SQInstruction :=
  jumps.foldl (fun is p => is.modify p.toNat (landAt target p)) is

theorem run_setInstructionParams (pos target : Int) (fs gs : SQFuncState)
    (h : Prog.run (setInstructionParams pos (.imm 0) (.imm (target - pos)) (.imm 0) (.imm 0)) fs =
      (.ok (), gs)) :
    gs = { fs with instructions := fs.instructions.modify pos.toNat (landAt target pos) } := by
  rw [setInstructionParams, Prog.run_gets_bind] at h
  obtain ⟨_, _, hd, h⟩ := Prog.run_bind_inv h
  rw [(Prog.run_demand_inv hd).2] at h
  cases h
  rfl

theorem run_resolveJumps (L : JumpList) (target : Int) (n : Nat) (fs gs : SQFuncState)
    (h : Prog.run (resolveJumps L.get L.put target n) fs = (.ok (), gs)) :
    n ≤ (L.get fs).length ∧ gs = L.put ((L.get fs).drop n)
      { fs with instructions := resolved target ((L.get fs).take n) fs.instructions } := by
  induction n generalizing fs with
  | zero =>
    cases h
    refine ⟨Nat.zero_le _, ?_⟩
    rw [List.take_zero, List.drop_zero]
    exact (L.put_get fs).symm
  | succ n ih =>
    rw [resolveJumps, Prog.run_gets_bind] at h
    obtain ⟨_, _, hback, h⟩ := Prog.run_bind_inv h
    rw [run_back] at hback
    cases hl : L.get fs with
    | nil =>
      rw [hl] at hback
      cases congrArg Prod.fst hback
    | cons p ps =>
      rw [hl] at hback h
      cases hback
      rw [Prog.run_update_bind] at h
      obtain ⟨_, fs', hset, h⟩ := Prog.run_bind_inv h
      have hfs' := run_setInstructionParams _ _ _ _ hset
      rw [L.code_put, L.put_code, List.headD_cons, List.tail_cons] at hfs'
      obtain ⟨hn, hgs⟩ := ih fs' h
      have hps : L.get fs' = ps := by rw [hfs', L.get_put]
      rw [hps] at hn hgs
      refine ⟨Nat.succ_le_succ hn, ?_⟩
      rw [hgs, hfs', L.put_code, L.put_put, L.code_put]
      rfl

theorem codeFrame_resolved {b fs : SQFuncState} (h : CodeFrame e b fs) (target : Int)
    (jumps : List Int) (hj : ∀ p ∈ jumps, ¬ b.Settled p.toNat) :
    CodeFrame e b { fs with instructions := resolved target jumps fs.instructions } := by
  induction jumps generalizing fs with
  | nil => exact h
  | cons p ps ih =>
    have hp := codeFrame_modify h p.toNat (landAt target p) (fun _ => rfl) (hj p List.mem_cons_self)
    exact ih hp fun q hq => hj q (List.mem_cons_of_mem _ hq)

theorem not_settled_of_recorded {b fs : SQFuncState} {p : Int} (h : Recorded b fs p) :
    ¬ b.Settled p.toNat := by
  obtain ⟨j, rfl, hj, -⟩ := h
  intro hs
  have hlt := hs.lt
  rw [Int.toNat_natCast] at hlt
  omega

/-- The jumps on top that were not there before. -/
theorem Records.take {b fs : SQFuncState} {l l' : List Int} (h : Records b fs l l') {n : Nat}
    (hn : n ≤ l'.length - l.length) : ∀ p ∈ l'.take n, Recorded b fs p := by
  obtain ⟨new, rfl, hnew⟩ := h
  intro p hp
  rw [List.length_append, Nat.add_sub_cancel] at hn
  rw [List.take_append_of_le_length hn] at hp
  exact hnew p (List.mem_of_mem_take hp)

theorem Records.drop {b fs : SQFuncState} {l l' : List Int} (h : Records b fs l l') {n : Nat}
    (hn : n ≤ l'.length - l.length) : Records b fs l (l'.drop n) := by
  obtain ⟨new, rfl, hnew⟩ := h
  rw [List.length_append, Nat.add_sub_cancel] at hn
  refine ⟨new.drop n, List.drop_append_of_le_length hn, ?_⟩
  intro p hp
  exact hnew p (List.mem_of_mem_drop hp)

theorem Records.mem_since {b fs : SQFuncState} {l l' : List Int} (h : Records b fs l l') {n : Nat}
    (hn : n ≤ l'.length - l.length) {p : Int} (hp : p ∈ since l (l'.drop n)) : p ∈ since l l' := by
  obtain ⟨new, rfl, -⟩ := h
  rw [List.length_append, Nat.add_sub_cancel] at hn
  rw [List.drop_append_of_le_length hn, since_append] at hp
  rw [since_append]
  exact List.mem_of_mem_drop hp

/-- The numbers of unresolved jumps do not go below those of an earlier state. -/
class Before (b : SQFuncState) (before : Nat × Nat) : Prop where
  breaks : b.unresolvedbreaks.length ≤ before.1
  continues : b.unresolvedcontinues.length ≤ before.2

theorem length_resolved (target : Int) (jumps : List Int) (is : List SQInstruction) :
    (resolved target jumps is).length = is.length := by
  induction jumps generalizing is with
  | nil => rfl
  | cons p ps ih => exact (ih _).trans (List.length_modify _ _ _)

theorem run_resolveBreaks (n : Nat) (fs gs : SQFuncState)
    (h : Prog.run (resolveBreaks n) fs = (.ok (), gs)) :
    gs = { fs with
      unresolvedbreaks := fs.unresolvedbreaks.drop n
      instructions := resolved ((fs.instructions.length : Int) - 1) (fs.unresolvedbreaks.take n)
        fs.instructions } := by
  rw [resolveBreaks, getCurrentPos, Prog.run_gets_bind] at h
  exact (run_resolveJumps breakList _ n fs gs h).2

theorem run_endBreakable (before : Nat × Nat) (continueTarget : Int) (fs gs : SQFuncState)
    (h : Prog.run (endBreakable before continueTarget) fs = (.ok (), gs)) :
    gs = { fs with
      unresolvedbreaks := fs.unresolvedbreaks.drop (fs.unresolvedbreaks.length - before.1)
      unresolvedcontinues :=
        fs.unresolvedcontinues.drop (fs.unresolvedcontinues.length - before.2)
      instructions := resolved ((fs.instructions.length : Int) - 1)
        (fs.unresolvedbreaks.take (fs.unresolvedbreaks.length - before.1))
        (resolved continueTarget
          (fs.unresolvedcontinues.take (fs.unresolvedcontinues.length - before.2)) fs.instructions)
      breaktargets := fs.breaktargets.tail
      continuetargets := fs.continuetargets.tail } := by
  rw [endBreakable, Prog.run_gets_bind] at h
  obtain ⟨_, fs₁, hc, h⟩ := Prog.run_bind_inv h
  have hfs₁ := (run_resolveJumps continueList _ _ fs fs₁ hc).2
  obtain ⟨_, fs₂, hb, h⟩ := Prog.run_bind_inv h
  have hfs₂ := run_resolveBreaks _ fs₁ fs₂ hb
  have hlen : fs₁.instructions.length = fs.instructions.length := by
    rw [hfs₁]
    exact length_resolved _ _ _
  cases h
  rw [hlen] at hfs₂
  rw [hfs₂, hfs₁]
  rfl

instance (before : Nat × Nat) (continueTarget : Int) [hbefore : Before b before] :
    Leads (Since (CodeFrame false) b) (endBreakable before continueTarget) where
  out fs _ gs h hb := by
    rw [run_endBreakable before continueTarget fs gs h]
    have hnc : fs.unresolvedcontinues.length - before.2 ≤
        fs.unresolvedcontinues.length - b.unresolvedcontinues.length := by
      have := hbefore.continues
      omega
    have hnb : fs.unresolvedbreaks.length - before.1 ≤
        fs.unresolvedbreaks.length - b.unresolvedbreaks.length := by
      have := hbefore.breaks
      omega
    have hcode := codeFrame_resolved (codeFrame_resolved hb continueTarget _ fun p hp =>
      not_settled_of_recorded (hb.continues.take hnc p hp)) ((fs.instructions.length : Int) - 1) _
      fun p hp => not_settled_of_recorded (hb.breaks.take hnb p hp)
    exact ⟨hcode.length, hcode.settled, hcode.breaks.drop hnb, hcode.continues.drop hnc,
      fun p hp hp' => hcode.apart p (hcode.breaks.mem_since hnb hp)
        (hcode.continues.mem_since hnc hp'), nofun⟩

theorem codeFrame_resolveBreaks {b fs gs : SQFuncState} {nbreaks : Nat}
    (hn : b.unresolvedbreaks.length ≤ nbreaks) (hb : CodeFrame false b fs)
    (h : Prog.run (resolveBreaks (fs.unresolvedbreaks.length - nbreaks)) fs = (.ok (), gs)) :
    CodeFrame false b gs := by
  rw [run_resolveBreaks _ fs gs h]
  have hnb : fs.unresolvedbreaks.length - nbreaks ≤
      fs.unresolvedbreaks.length - b.unresolvedbreaks.length := by omega
  have hcode := codeFrame_resolved hb ((fs.instructions.length : Int) - 1) _ fun p hp =>
    not_settled_of_recorded (hb.breaks.take hnb p hp)
  exact ⟨hcode.length, hcode.settled, hcode.breaks.drop hnb, hcode.continues,
    fun p hp => hcode.apart p (hcode.breaks.mem_since hnb hp), nofun⟩

theorem leads_endSwitch (nbreaks : Nat) (hn : b.unresolvedbreaks.length ≤ nbreaks) :
    Leads (Since (CodeFrame false) b) (endSwitch nbreaks) where
  out fs _ gs h hb := by
    obtain ⟨_, fs₁, hpop, h⟩ := Prog.run_bind_inv h
    have hpops : Leads (Since (CodeFrame false) b) (popTargets 1) := inferInstance
    have hb₁ := hpops.out fs _ fs₁ hpop hb
    rw [Prog.run_gets_bind] at h
    obtain ⟨_, fs₂, hresolve, h⟩ := Prog.run_bind_inv h
    have hb₂ := codeFrame_resolveBreaks hn hb₁ hresolve
    cases h
    exact Journey.trans b fs₂ _ hb₂ (.of_code rfl)

/-! ## The ends of expressions and statements -/

instance (trg : StackPos) (jpos : Int) [Fresh b jpos] :
    Leads (Since (CodeFrame e) b) (endShortCircuit trg jpos) := by
  unfold endShortCircuit
  infer_instance

instance (trg : StackPos) (jzpos endfirstexp jmppos : Int) [Fresh b jzpos] [Fresh b jmppos] :
    Leads (Since (CodeFrame e) b) (emitSecondBranch trg jzpos endfirstexp jmppos) := by
  unfold emitSecondBranch
  infer_instance

instance (jmptrg : Int) (before : Nat × Nat) [Before b before] :
    Leads (Since (CodeFrame false) b) (endDo jmptrg before) := by
  unfold endDo
  infer_instance

instance (jmptrg continuetrg : Int) (before : Nat × Nat) [Before b before] :
    Leads (Since (CodeFrame false) b) (endDoWhile jmptrg continuetrg before) := by
  unfold endDoWhile
  infer_instance

theorem leads_endFor (exp : List SQInstruction) (jmppos jzpos : Int) (before : Nat × Nat)
    [Before b before] (hjz : jzpos > 0 → Fresh b jzpos) :
    Leads (Since (CodeFrame false) b) (endFor exp jmppos jzpos before) := by
  have hland : Leads (Since (CodeFrame false) b) (Prog.when (jzpos > 0) (landHere jzpos)) := by
    unfold Prog.when
    split
    · next hpos =>
      have := hjz hpos
      infer_instance
    · infer_instance
  unfold endFor
  infer_instance

instance (jmppos foreachpos : Int) (before : Nat × Nat) [Before b before] [Fresh b foreachpos]
    [Fresh b (foreachpos + 1)] :
    Leads (Since (CodeFrame false) b) (endForeach jmppos foreachpos before) := by
  unfold endForeach
  infer_instance

instance : Leads (CodeFrame e)
    (Prog.update fun fs => { fs with traps := fs.traps - 1 } : FuncM Unit) :=
  leads_of_code e _ fun _ => rfl

instance (d : Int) : Leads (CodeFrame e) (Prog.update fun fs => { fs with
    breaktargets := addTraps d fs.breaktargets
    continuetargets := addTraps d fs.continuetargets } : FuncM Unit) :=
  leads_of_code e _ fun _ => rfl

instance (trappos : Int) [Fresh b trappos] : Leads (Since (CodeFrame e) b) (endTry trappos) := by
  unfold endTry
  infer_instance

instance (exid : Text) (trappos : Int) [Fresh b trappos] :
    Leads (Since (CodeFrame e) b) (beginCatch exid trappos) := by
  unfold beginCatch
  infer_instance

instance (jmppos : Int) [Fresh b jmppos] : Leads (Since (CodeFrame e) b) (endCatch jmppos) := by
  unfold endCatch
  infer_instance

/-! ## Positions of new instructions -/

omit b

/-- The last instruction after another one is added is new, or was none to be left alone. -/
theorem fresh_of_emit {b fs gs : SQFuncState} {op : SQOpcode} {args : List Operand} {u : Unit}
    (hb : CodeFrame e b fs) (h : Prog.run (addInstruction op args) fs = (.ok u, gs)) :
    Fresh b ((gs.instructions.length : Int) - 1) := by
  have hrun : Prog.run (addSQInstruction (.make op args)) fs = (.ok u, gs) := h
  rw [run_addSQInstruction] at hrun
  split at hrun
  · cases congrArg Prod.fst hrun
  cases hrun
  constructor
  intro hs
  have hlt := (hb.settled _ hs).1.lt
  cases added fs (.make op args) with
  | pushed i' h hop =>
    rw [h, instructions_push, List.length_append, List.length_singleton] at hlt
    omega
  | changed pi hlast hopt hop h =>
    have hpos := length_pos_of_last hlast
    rw [h, instructions_change, List.length_append, List.length_dropLast, List.length_cons,
      List.length_singleton] at hlt
    omega
  | replaced pi p hlast hopt hjump h =>
    have hpos := length_pos_of_last hlast
    have hlen : (fs.apply (fs.fusion (.make op args))).instructions.length =
        fs.instructions.length := by
      rw [h]
      exact length_setLast hlast p
    obtain ⟨i, hi, hkept⟩ := (hb.settled _ hs).1
    rw [hlen, show ((fs.instructions.length : Int) - 1).toNat = fs.instructions.length - 1 by omega]
      at hi hkept
    rw [← List.getLast?_eq_getElem?, hlast] at hi
    cases hi
    obtain hlt' | hopt' | hjump' := hkept
    · omega
    · rw [hopt] at hopt'
      cases hopt'
    · rw [hjump] at hjump'
      cases hjump'

/-- A program that ends with a new instruction. -/
class Emits {α : Type} (m : FuncM α) : Prop where
  out : ∀ b fs a gs, CodeFrame false b fs → Prog.run m fs = (.ok a, gs) →
    Fresh b ((gs.instructions.length : Int) - 1)

instance (op : SQOpcode) (args : List Operand) : Emits (addInstruction op args) :=
  ⟨fun _ _ _ _ hb h => fresh_of_emit hb h⟩

instance {α β : Type} (m : FuncM α) (k : α → FuncM β) [hm : Leads (CodeFrame false) m]
    [hk : ∀ a, Emits (k a)] : Emits (m >>= k) where
  out b fs c gs hb h := by
    obtain ⟨a, fs₁, h₁, h⟩ := Prog.run_bind_inv h
    exact (hk a).out b fs₁ c gs (Journey.trans _ _ _ hb (hm.out _ _ _ h₁)) h

theorem emits_pure {α β : Type} (m : FuncM α) [hm : Emits m] (c : β) :
    Emits (m >>= fun _ => pure c) where
  out b fs _ gs hb h := by
    obtain ⟨a, fs₁, h₁, h⟩ := Prog.run_bind_inv h
    cases h
    exact hm.out b fs a fs₁ hb h₁

instance (trg : StackPos) : Emits (emitFirstBranch trg) := by
  have (pos : Int) : Emits (jump 0 >>= fun _ => pure pos) := by
    have : Emits (jump 0) := inferInstanceAs (Emits (addInstruction _ _))
    exact emits_pure _ _
  unfold emitFirstBranch
  infer_instance

theorem finds_emit {α : Type} (right : SQFuncState → α → Prop) (op : SQOpcode)
    (args : List Operand) (k : Int → FuncM α)
    (hk : ∀ b pos, Fresh b pos → ∀ fs a gs, Prog.run (k pos) fs = (.ok a, gs) → right b a) :
    Finds (CodeFrame e) (addInstruction op args >>= fun _ => getCurrentPos >>= k) right where
  out b fs a gs hb h := by
    obtain ⟨_, fs₁, hadd, h⟩ := Prog.run_bind_inv h
    rw [getCurrentPos, Prog.run_gets_bind] at h
    exact hk b _ (fresh_of_emit hb hadd) _ a gs h

theorem finds_current (op : SQOpcode) (args : List Operand) :
    Finds (CodeFrame e) (addInstruction op args >>= fun _ => getCurrentPos) Fresh where
  out b fs a gs hb h := by
    obtain ⟨_, fs₁, hadd, h⟩ := Prog.run_bind_inv h
    cases h
    exact fresh_of_emit hb hadd

instance : Finds (CodeFrame e) emitJz Fresh := .bind _ _ _ _ fun _ => finds_current _ _

instance : Finds (CodeFrame e) jumpHole Fresh := finds_current _ _

instance (op : SQOpcode) : Finds (CodeFrame e) (emitShortCircuit op) fun b r => Fresh b r.2 := by
  apply Finds.bind
  intro firstExp
  apply Finds.bind
  intro trg
  refine finds_emit _ _ _ _ ?_
  intro b pos hpos fs a gs h
  obtain ⟨_, _, _, h⟩ := Prog.run_bind_inv h
  cases h
  exact hpos

instance : Finds (CodeFrame e) emitCondition fun b r => Fresh b r.1 := by
  apply Finds.bind
  intro cond
  refine finds_emit _ _ _ _ ?_
  intro b pos hpos fs a gs h
  obtain ⟨_, _, _, h⟩ := Prog.run_bind_inv h
  cases h
  exact hpos

instance : Finds (CodeFrame e) beginTry Fresh where
  out b fs a gs hb h := by
    obtain ⟨_, fs₁, hadd, h⟩ := Prog.run_bind_inv h
    have hfresh := fresh_of_emit hb hadd
    rw [Prog.run_update_bind] at h
    cases h
    exact hfresh

instance (trappos : Int) : Finds (CodeFrame e) (endTry trappos) Fresh := by
  apply Finds.bind
  intro _
  apply Finds.bind
  intro _
  apply Finds.bind
  intro _
  refine Finds.through _ Fresh _ _ _ ?_
  intro b jmppos hjmppos fs pos gs h
  obtain ⟨_, _, _, h⟩ := Prog.run_bind_inv h
  cases h
  exact hjmppos

/-! ## The cases of a `switch` -/

/-- The number of instructions is the same. -/
def SameLength (fs gs : SQFuncState) : Prop := gs.instructions.length = fs.instructions.length

instance : Journey SameLength where
  refl _ := rfl
  trans _ _ _ h₁ h₂ := Eq.trans h₂ h₁

instance : Leads SameLength popTarget := by
  have : Leads SameLength topTarget := by
    unfold topTarget
    infer_instance
  have (npos : StackPos) : Leads SameLength (Prog.update fun fs => { fs with
      vlocals := if fs.isTemporary npos then fs.vlocals.dropLast else fs.vlocals
      targetstack := fs.targetstack.tail } : FuncM Unit) := .update _ fun _ => rfl
  unfold popTarget
  infer_instance

instance (n : Nat) : Leads SameLength (popTargets n) := by
  induction n with
  | zero => exact inferInstanceAs (Leads SameLength (pure () : FuncM Unit))
  | succ n ih =>
    unfold popTargets
    infer_instance

instance (pos : Int) : Leads SameLength (landHere pos) := by
  have : Leads SameLength getCurrentPos := inferInstanceAs (Leads SameLength (Prog.gets _))
  have (val : Int) : Leads SameLength (Prog.update fun fs => { fs with
      instructions := fs.instructions.modify pos.toNat fun i =>
        { i with arg1 := (Operand.imm val).narrow32 } } : FuncM Unit) :=
    .update _ fun _ => List.length_modify _ _ _
  unfold landHere setInstructionParam1
  infer_instance

/-- A jump over a test, if there is one. -/
def SkipFresh (b : SQFuncState) (skipcondjmp : Int) : Prop :=
  skipcondjmp ≠ -1 → Fresh b skipcondjmp

/-- The jumps of a `switch` that wait for their targets. -/
structure CasesFresh (b : SQFuncState) (c : CaseJumps) : Prop where
  first : c.bfirst = true → c.skipcondjmp = -1
  later : c.bfirst = false → Fresh b c.tonextcondjmp
  next : SkipFresh b c.tonextcondjmp

instance : Finds (CodeFrame e) beginSwitch fun b r => b.unresolvedbreaks.length ≤ r.2 where
  out b fs r gs hb h := by
    obtain ⟨expr, fs₁, htop, h⟩ := Prog.run_bind_inv h
    have hb₁ := Journey.trans _ _ _ hb (Leads.out (R := CodeFrame e) _ _ _ htop)
    obtain ⟨new, hnew, -⟩ := hb₁.breaks
    rw [Prog.run_gets_bind, Prog.run_update_bind] at h
    cases h
    show b.unresolvedbreaks.length ≤ fs₁.unresolvedbreaks.length
    rw [hnew, List.length_append]
    omega

theorem casesFresh_start (b : SQFuncState) : CasesFresh b ⟨true, -1, -1⟩ :=
  ⟨fun _ => rfl, nofun, fun h => absurd rfl h⟩

section Cases

variable (b : SQFuncState)

theorem leads_beginCase (c : CaseJumps) (hc : CasesFresh b c) :
    Leads (Since (CodeFrame e) b) (beginCase c) := by
  unfold beginCase
  split
  · infer_instance
  · next hfirst =>
    have := hc.later (Bool.eq_false_iff.mpr hfirst)
    infer_instance

theorem skipFresh_of_beginCase {c : CaseJumps} (hc : CasesFresh b c) {fs gs : SQFuncState}
    {skipcondjmp : Int} (hb : CodeFrame e b fs)
    (h : Prog.run (beginCase c) fs = (.ok skipcondjmp, gs)) : SkipFresh b skipcondjmp := by
  unfold beginCase at h
  split at h
  · next hfirst =>
    cases h
    intro hne
    exact absurd (hc.first hfirst) hne
  · obtain ⟨pos, fs₁, hhole, h⟩ := Prog.run_bind_inv h
    obtain ⟨_, _, _, h⟩ := Prog.run_bind_inv h
    cases h
    have hfinds : Finds (CodeFrame e) jumpHole Fresh := inferInstance
    exact fun _ => hfinds.out b fs _ fs₁ hb hhole

theorem leads_landSkip {skipcondjmp : Int} (hskip : SkipFresh b skipcondjmp) :
    Leads (Since (CodeFrame e) b) (Prog.when (skipcondjmp ≠ -1) (landHere skipcondjmp)) := by
  unfold Prog.when
  split
  · next hne =>
    have := hskip hne
    infer_instance
  · infer_instance

instance (islocal : Bool) (trg : StackPos) :
    Leads (CodeFrame e) (emitCase.caseTarget islocal trg) := by
  unfold emitCase.caseTarget
  infer_instance

theorem leads_emitCase (expr : StackPos) {skipcondjmp : Int} (hskip : SkipFresh b skipcondjmp) :
    Leads (Since (CodeFrame e) b) (emitCase expr skipcondjmp) := by
  have := leads_landSkip (e := e) b hskip
  unfold emitCase
  infer_instance

/-- The position that a case passes on is that of its `_OP_JZ`. -/
theorem fresh_of_emitCase {expr : StackPos} {skipcondjmp tonextcondjmp : Int}
    {fs gs : SQFuncState} (hb : CodeFrame false b fs)
    (h : Prog.run (emitCase expr skipcondjmp) fs = (.ok tonextcondjmp, gs)) :
    Fresh b tonextcondjmp := by
  obtain ⟨trg, fs₁, h₁, h⟩ := Prog.run_bind_inv h
  rw [Prog.run_gets_bind] at h
  obtain ⟨eqtarget, fs₂, h₂, h⟩ := Prog.run_bind_inv h
  obtain ⟨_, fs₃, h₃, h⟩ := Prog.run_bind_inv h
  obtain ⟨_, fs₄, h₄, h⟩ := Prog.run_bind_inv h
  obtain ⟨_, fs₅, h₅, h⟩ := Prog.run_bind_inv h
  obtain ⟨_, fs₆, h₆, h⟩ := Prog.run_bind_inv h
  cases h
  have hb₁ := Journey.trans _ _ _ hb (Leads.out (R := CodeFrame false) _ _ _ h₁)
  have hb₂ := Journey.trans _ _ _ hb₁ (Leads.out (R := CodeFrame false) _ _ _ h₂)
  have hb₃ := Journey.trans _ _ _ hb₂ (Leads.out (R := CodeFrame false) _ _ _ h₃)
  have hlen₅ : fs₅.instructions.length = fs₄.instructions.length :=
    Leads.out (R := SameLength) _ _ _ h₅
  have hlen₆ : fs₆.instructions.length = fs₅.instructions.length :=
    Leads.out (R := SameLength) _ _ _ h₆
  have hfresh := fresh_of_emit hb₃ h₄
  rw [← hlen₅, ← hlen₆] at hfresh
  exact hfresh

end Cases

/-- `_OP_POSTFOREACH` follows `_OP_FOREACH`. -/
instance (idxname valname : Text) : Finds (CodeFrame e) (emitForeach idxname valname)
    fun b r => Fresh b r.2 ∧ Fresh b (r.2 + 1) := by
  apply Finds.bind
  intro container
  apply Finds.bind
  intro indexpos
  apply Finds.bind
  intro _
  apply Finds.bind
  intro _
  apply Finds.bind
  intro jmppos
  constructor
  intro b fs a gs hb h
  obtain ⟨_, fs₁, hadd, h⟩ := Prog.run_bind_inv h
  rw [getCurrentPos, Prog.run_gets_bind] at h
  obtain ⟨_, fs₂, hpost, h⟩ := Prog.run_bind_inv h
  cases h
  refine ⟨fresh_of_emit hb hadd, ?_⟩
  have hlead : Leads (CodeFrame e) (addInstruction .opForeach
    [.reg container, .imm 0, .reg indexpos]) := inferInstance
  have hb₁ := (Journey.trans b fs fs₁ hb (hlead.out fs _ fs₁ hadd)).length
  constructor
  intro hs
  have hlt := hs.lt
  omega

theorem fusion_jmp (fs : SQFuncState) (args : List Operand) :
    fs.fusion (.make .opJmp args) = .push (.make .opJmp args) := by
  unfold fusion
  split
  · split
    · rfl
    · rfl
  · rfl

theorem run_jump (offset : Int) (fs : SQFuncState) : Prog.run (jump offset) fs =
    (.ok (), fs.pushInstruction (.make .opJmp [.imm 0, .imm offset])) := by
  show Prog.run (addSQInstruction _) fs = _
  rw [run_addSQInstruction, fusion_jmp, if_neg (fun h => by cases h.1)]
  rfl

/-- The jump of a `break` or `continue` is the last instruction. -/
theorem run_emitBreak {traps : Int} {scope : SQScope} {fs gs : SQFuncState} {pos : Int}
    (h : Prog.run (emitBreak traps scope) fs = (.ok pos, gs)) :
    CodeFrame true fs gs ∧ Recorded fs gs pos := by
  have hlead : Leads (CodeFrame true) (emitBreak traps scope) := inferInstance
  refine ⟨hlead.out fs pos gs h, ?_⟩
  obtain ⟨_, fs₁, h₁, h⟩ := Prog.run_bind_inv h
  obtain ⟨_, fs₂, h₂, h⟩ := Prog.run_bind_inv h
  have hlead₁ : Leads (CodeFrame true) (Prog.when (traps > 0)
    (addInstruction .opPoptrap [.imm traps, .imm 0])) := inferInstance
  have hlead₂ : Leads (CodeFrame true) (resolveOuters scope) := inferInstance
  have hlen := Nat.le_trans (hlead₁.out fs _ fs₁ h₁).length (hlead₂.out fs₁ _ fs₂ h₂).length
  rw [Prog.run_bind, run_jump, Prog.after_ok, getCurrentPos, Prog.run_gets] at h
  cases h
  exact ⟨fs₂.instructions.length, by simp [pushInstruction], hlen,
    .make .opJmp [.imm 0, .imm (-1234)], by simp [pushInstruction], rfl⟩

theorem leads_recordBreak (traps : Int) (scope : SQScope) : Leads (CodeFrame false) (do
    let pos ← emitBreak traps scope
    Prog.update fun fs => { fs with unresolvedbreaks := pos :: fs.unresolvedbreaks } :
      FuncM Unit) where
  out fs _ gs h := by
    obtain ⟨pos, fs₁, hbreak, h⟩ := Prog.run_bind_inv h
    obtain ⟨hframe, hpos⟩ := run_emitBreak hbreak
    cases h
    obtain ⟨hb, hc⟩ := hframe.same rfl
    refine ⟨hframe.length, hframe.settled, ⟨[pos], congrArg (pos :: ·) hb, ?_⟩,
      hframe.continues, ?_, nofun⟩
    · intro p hp
      obtain rfl := List.mem_singleton.mp hp
      exact hpos
    · intro p _ hp
      have hnone : p ∈ since fs.unresolvedcontinues fs₁.unresolvedcontinues := hp
      rw [hc, since_self] at hnone
      cases hnone

theorem leads_recordContinue (traps : Int) (scope : SQScope) : Leads (CodeFrame false) (do
    let pos ← emitBreak traps scope
    Prog.update fun fs => { fs with unresolvedcontinues := pos :: fs.unresolvedcontinues } :
      FuncM Unit) where
  out fs _ gs h := by
    obtain ⟨pos, fs₁, hbreak, h⟩ := Prog.run_bind_inv h
    obtain ⟨hframe, hpos⟩ := run_emitBreak hbreak
    cases h
    obtain ⟨hb, hc⟩ := hframe.same rfl
    refine ⟨hframe.length, hframe.settled, hframe.breaks,
      ⟨[pos], congrArg (pos :: ·) hc, ?_⟩, ?_, nofun⟩
    · intro p hp
      obtain rfl := List.mem_singleton.mp hp
      exact hpos
    · intro p hp
      have hnone : p ∈ since fs.unresolvedbreaks fs₁.unresolvedbreaks := hp
      rw [hb, since_self] at hnone
      cases hnone

end SQFuncState
end Sqnim.Compiler
