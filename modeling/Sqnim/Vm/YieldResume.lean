import Sqnim.Vm.Generator
import Sqnim.Vm.FailurePaths

/-!
# Yield and resume are inverse

A generator is resumed by an instruction, by a loop or by the host. Each of them finds the frame of
the last yield again, and an error where there is none, if it looks at what `Resume` returns. The
loop and the host do not.
-/
namespace Sqnim.Vm.Generator

open Sqnim.Lib Sqnim.Object
open SQObjectType
open Prog (raise gets update)
open FailurePaths (NoRoom ForeachFails EntryGoesOn beforeResume)

variable {ρ α : Type}

/-- Who resumes a generator: `_OP_RESUME`, `_OP_FOREACH`, or the host through `sq_resume`. -/
inductive Resumer where
  | script (arg0 arg1 : Int)
  | foreach (arg0 arg1 arg2 : Int)
  | host (g : Addr) (target : Int)

namespace Resumer

/-- The generator in a slot. -/
def inSlot (m : Machine ρ) (a : Int) : Option Addr :=
  if (m.stk a).type = otGenerator then some (m.stk a).unVal else none

def generator (m : Machine ρ) : Resumer → Option Addr
  | .script _ arg1 => inSlot m arg1
  | .foreach arg0 _ _ => inSlot m arg0
  | .host g _ => some g

/-- Where the yielded value goes. -/
def target : Resumer → Int
  | .script arg0 _ => arg0
  | .foreach _ _ arg2 => arg2 + 1
  | .host _ target => target

/-- The machine that `Resume` is called on. -/
def ready (m : Machine ρ) : Resumer → Machine ρ
  | .script _ _ => m
  | .foreach _ _ arg2 => beforeResume arg2 m
  | .host _ _ => (entryActivation m).machine

/-- What is done to a frame after it is resumed, before it runs. -/
def continues (m : Machine ρ) : Resumer → Machine ρ
  | .script _ _ => m
  | .foreach _ _ _ => m.updateCi fun c => { c with ip := c.ip + 0 }
  | .host _ _ => m.updateCi fun c => { c with root := true }

/-- Where `Execute` stands when the resumer is done. -/
def phase (env : ExecEnv ρ) (s : Activation ρ) : Resumer → Phase ρ
  | .script arg0 arg1 => afterInstruction (resumeOp env arg0 arg1 s)
  | .foreach arg0 arg1 arg2 => afterInstruction (foreachInstr env arg0 arg1 arg2 s)
  | .host g target => start env (.resumeGenerator g target) s.machine

/-- The resumer does not go on after a `Resume` that failed. -/
def GoesWell (m : Machine ρ) : Resumer → Prop
  | .script _ _ => True
  | .foreach arg0 _ arg2 => ¬ForeachFails m arg0 arg2
  | .host g target => ¬EntryGoesOn (.resumeGenerator g target) m

end Resumer

/-- An error is raised, and nothing else changes. -/
def Refused (P : Platform ρ) (m : Machine ρ) : Phase ρ → Prop
  | .trap s => ∃ text, s.machine = m.raiseError P text
  | .returned succeeded _ m' => succeeded = false ∧ ∃ text, m' = m.raiseError P text
  | _ => False

/-- What a resumer does to a generator that is not suspended. A loop over a dead one ends, and does
not resume it. -/
def Refuses (P : Platform ρ) (s : Activation ρ) (state : SQGeneratorState) :
    Resumer → Phase ρ → Prop
  | .foreach _ exitpos _, p =>
    if state = .eDead then
      p = .loop { s with machine := s.machine.updateCi fun c => { c with ip := c.ip + exitpos } }
    else Refused P s.machine p
  | _, p => Refused P s.machine p

/-- The debug hook sees the frame first. -/
def hooked (P : Platform ρ) (m : Machine ρ) : Machine ρ :=
  if m.vm.debughook then P.callDebugHook 'c' 0 m else m

/-- A suspended generator goes on with the frame of its last yield; any other is refused. -/
def ResumesRight (env : ExecEnv ρ) (h : History ρ) (traps : Int) (who : Resumer) : Prop :=
  ∀ g, who.generator h.machine = some g →
    if (h.machine.heap.generators g).state = .eSuspended then
      ∀ s, who.phase env ⟨h.machine, traps⟩ = .loop s →
        ∃ y m, (who.ready h.machine).resumedFrame env.toPlatform g who.target = some m ∧
          h.last g = some y ∧ Restored y g (who.ready h.machine) m ∧
          s.machine = who.continues (hooked env.toPlatform m)
    else Refuses env.toPlatform ⟨h.machine, traps⟩ (h.machine.heap.generators g).state who
      (who.phase env ⟨h.machine, traps⟩)

/-! ## Yield -/

theorem run_invoke (op : Operation) (f : Call ρ α) (s : Activation ρ) :
    Prog.run (invoke op f) s = (.ok (f s.machine).1, { s with machine := (f s.machine).2 }) := rfl

/-- `_OP_YIELD` after `Yield`. -/
def afterYield (env : ExecEnv ρ) (arg0 arg1 : Int) : Exec ρ Control := do
  let n ← frameTraps
  addTraps (-n)
  let saved ← gets fun s => s.machine.vm.tempReg
  let nulled ← stk arg1
  Prog.when (arg1 ≠ Compiler.maxFuncStacksize) (do
    setStk arg1 saved
    setTempReg nulled)
  returnOp env arg0 arg1

/-- The instruction calls `Yield` on its frame, whose captured variables are closed. -/
theorem run_yieldFrame (env : ExecEnv ρ) (arg0 arg1 arg2 : Int) (g : Addr) (m : Machine ρ)
    (traps : Int) : Prog.run (yieldFrame env arg0 arg1 arg2 g) ⟨m, traps⟩ =
      match (m.beforeYield arg1).yieldGenerator env.toPlatform g arg2 with
      | (none, m') => (.error (.raised .trap), ⟨m', traps⟩)
      | (some (), m') => Prog.run (afterYield env arg0 arg1) ⟨m', traps⟩ := by
  have hframe : yieldFrame env arg0 arg1 arg2 g = (do
      let v ← stk arg1
      Prog.when (arg1 ≠ Compiler.maxFuncStacksize) (setTempReg v)
      modify fun m => m.closeOuters m.vm.stackbase
      guarded .yield (fun m => m.yieldGenerator env.toPlatform g arg2)
      afterYield env arg0 arg1) := rfl
  have hbefore : Prog.run (yieldFrame env arg0 arg1 arg2 g) ⟨m, traps⟩ =
      Prog.run (do
        guarded .yield (fun m => m.yieldGenerator env.toPlatform g arg2)
        afterYield env arg0 arg1) ⟨m.beforeYield arg1, traps⟩ := by
    rw [hframe]
    unfold Machine.beforeYield Prog.when
    by_cases hv : arg1 ≠ Compiler.maxFuncStacksize
    · simp only [if_pos hv]
      rfl
    · simp only [if_neg hv]
      rfl
  rw [hbefore, Prog.run_bind, guarded, Prog.run_bind, run_invoke, Prog.after_ok]
  cases hr : (m.beforeYield arg1).yieldGenerator env.toPlatform g arg2 with
  | mk ok m' =>
    cases ok with
    | none => rfl
    | some u => rfl

/-! ## Resume -/

section
variable {P : Platform ρ} {m : Machine ρ} {g : Addr} {target : Int}

theorem resumeGenerator_refused (P : Platform ρ) (target : Int)
    (h : (m.heap.generators g).state ≠ .eSuspended) :
    ∃ text, m.resumeGenerator P g target = (none, m.raiseError P text) := by
  unfold Machine.resumeGenerator
  cases hstate : (m.heap.generators g).state with
  | eDead =>
    simp only [hstate]
    exact ⟨_, rfl⟩
  | eRunning =>
    simp only [hstate]
    exact ⟨_, rfl⟩
  | eSuspended => exact absurd hstate h

theorem resumeGenerator_eq {m' : Machine ρ} (h : m.resumedFrame P g target = some m') :
    m.resumeGenerator P g target = (some (), hooked P m') := by
  unfold Machine.resumedFrame at h
  unfold Machine.resumeGenerator
  cases hstate : (m.heap.generators g).state with
  | eDead =>
    simp only [hstate] at h
    cases h
  | eRunning =>
    simp only [hstate] at h
    cases h
  | eSuspended =>
    simp only [hstate] at h
    simp only [hstate]
    cases henter : m.enterFrame P m.vm.top (m.vm.top + (m.heap.generators g).stack.length)
      false with
    | mk u m₁ =>
      rw [henter] at h
      cases u with
      | none => cases h
      | some u =>
        have hgen : m₁.heap.generators g = m.heap.generators g := by
          rw [(enterFrame_entered henter).generators]
        obtain rfl := Option.some.inj h
        simp only [hooked, Machine.restoreFrame, hgen]

/-- A suspended generator has no frame only where there is no room for it. -/
theorem resumedFrame_none_iff (hstate : (m.heap.generators g).state = .eSuspended) :
    m.resumedFrame P g target = none ↔ NoRoom m g := by
  have hf := m.enterFrame_none_iff P m.vm.top (m.vm.top + (m.heap.generators g).stack.length) false
  unfold Machine.resumedFrame
  simp only [hstate]
  show _ ↔ m.vm.nmetamethodscall ≠ 0 ∧ _
  rw [← hf]
  split
  · next he => exact iff_of_true rfl (by rw [he])
  · next he => exact iff_of_false nofun (by rw [he]; nofun)

/-- In a run, `Resume` finds the frame of the last yield. -/
theorem Run.resumed {h : History ρ} (hrun : Run P h) {m m' : Machine ρ}
    (hgen : m.heap.generators = h.machine.heap.generators)
    (hweak : m.heap.weakrefs = h.machine.heap.weakrefs)
    (hresume : m.resumedFrame P g target = some m') :
    ∃ y, h.last g = some y ∧ Restored y g m m' := by
  obtain ⟨hstate, m₁, hentered, rfl⟩ := resumedFrame_some hresume
  rw [hgen] at hstate
  obtain ⟨y, hlast, hstored⟩ := hrun.faithful g hstate
  refine ⟨y, hlast, Stored.restored ?_ hentered⟩
  rw [hgen]
  exact hstored.congr fun _ => .inl (by rw [hweak])

end

/-! ## The resumers -/

section
variable (env : ExecEnv ρ)

theorem afterEntry_loop {p : Exec ρ Entry} {s s' : Activation ρ}
    (h : Prog.run p s = (.ok .loop, s')) : afterEntry (p s) = .loop s' := by
  obtain ⟨hr, hs⟩ := Prod.mk.inj h
  rw [afterEntry, hr, hs]

theorem afterEntry_undefined {p : Exec ρ Entry} {s t : Activation ρ}
    (h : Prog.run p s = (.error (.raised .undefined), t)) : afterEntry (p s) = .undefined := by
  obtain ⟨hr, hs⟩ := Prod.mk.inj h
  rw [afterEntry, hr]

theorem afterInstruction_next {p : Exec ρ Control} {s s' : Activation ρ}
    (h : Prog.run p s = (.ok .next, s')) : afterInstruction (p s) = .loop s' := by
  obtain ⟨hr, hs⟩ := Prod.mk.inj h
  rw [afterInstruction, hr, hs]

theorem afterInstruction_undefined {p : Exec ρ Control} {s t : Activation ρ}
    (h : Prog.run p s = (.error (.raised .undefined), t)) :
    afterInstruction (p s) = .undefined := by
  obtain ⟨hr, hs⟩ := Prod.mk.inj h
  rw [afterInstruction, hr]

theorem afterInstruction_trap {p : Exec ρ Control} {s s' : Activation ρ}
    (h : Prog.run p s = (.error (.raised .trap), s')) : afterInstruction (p s) = .trap s' := by
  obtain ⟨hr, hs⟩ := Prod.mk.inj h
  rw [afterInstruction, hr, hs]

/-- After a `Resume` the frame is made the root of the activation, if there is a frame. -/
theorem run_afterResume (s : Activation ρ) : Prog.run afterResume s =
    if s.machine.ciAddr = none then (.error (.raised .undefined), s)
    else (.ok .loop, ⟨s.machine.updateCi fun c => { c with root := true },
      s.traps + (s.machine.ci.map CallInfo.etraps).getD 0⟩) := by
  unfold afterResume setRoot
  simp only [Prog.run_bind, Prog.run_gets, Prog.after_ok]
  split
  · rw [Prog.run_raise, Prog.after_error]
  · next hc =>
    obtain ⟨⟨vm, heap⟩, traps⟩ := s
    cases vm with
    | mk _ _ _ _ _ _ _ _ callsstack =>
      cases callsstack with
      | nil => exact absurd rfl hc
      | cons c cs => rfl

theorem run_resume {g : Addr} {target : Int} {s : Activation ρ}
    (h : (s.machine.heap.generators g).state = .eSuspended → 0 ≤ target ∧ target ≤ 255) :
    Prog.run (resume env g target) s =
      (.ok (s.machine.resumeGenerator env.toPlatform g target).1,
        { s with machine := (s.machine.resumeGenerator env.toPlatform g target).2 }) := by
  rw [Prog.run, FailurePaths.resume_eq env g target s h]
  rfl

/-- A suspended generator whose value would go far from the base. -/
theorem run_resume_far {g : Addr} {target : Int} {s : Activation ρ}
    (hstate : (s.machine.heap.generators g).state = .eSuspended)
    (hfar : ¬(0 ≤ target ∧ target ≤ 255)) :
    Prog.run (resume env g target) s = (.error (.raised .undefined), s) := by
  rw [Prog.run, FailurePaths.resume_asserts env g target s hstate hfar]
  rfl

/-- Where the host's `Execute` stands when the loop begins. -/
theorem start_eq {m : Machine ρ} {g : Addr} {target : Int}
    (hlimit : m.vm.nnativecalls + 1 ≤ maxNativeCalls)
    (hrange : (m.heap.generators g).state = .eSuspended → 0 ≤ target ∧ target ≤ 255) :
    start env (.resumeGenerator g target) m =
      (let m' := ((entryActivation m).machine.resumeGenerator env.toPlatform g target).2
      if m'.ciAddr = none then .undefined
      else .loop ⟨m'.updateCi fun c => { c with root := true },
        0 + (m'.ci.map CallInfo.etraps).getD 0⟩) := by
  rw [start, if_neg (by omega)]
  have hrun : Prog.run (enter env (.resumeGenerator g target)) (entryActivation m) =
      Prog.run afterResume ⟨((entryActivation m).machine.resumeGenerator env.toPlatform g target).2,
        0⟩ := by
    show Prog.run (resume env g target >>= fun _ => afterResume) (entryActivation m) = _
    rw [Prog.run_bind, run_resume env hrange, Prog.after_ok]
    rfl
  rw [run_afterResume] at hrun
  dsimp only
  split
  · next hc =>
    rw [if_pos hc] at hrun
    exact afterEntry_undefined hrun
  · next hc =>
    rw [if_neg hc] at hrun
    exact afterEntry_loop hrun

theorem start_far {m : Machine ρ} {g : Addr} {target : Int}
    (hlimit : m.vm.nnativecalls + 1 ≤ maxNativeCalls)
    (hstate : (m.heap.generators g).state = .eSuspended) (hfar : ¬(0 ≤ target ∧ target ≤ 255)) :
    start env (.resumeGenerator g target) m = .undefined := by
  rw [start, if_neg (by omega)]
  refine afterEntry_undefined (t := entryActivation m) ?_
  show Prog.run (resume env g target >>= fun _ => afterResume) (entryActivation m) = _
  rw [Prog.run_bind, run_resume_far env hstate hfar, Prog.after_error]

section

variable {m : Machine ρ} (traps arg0 arg1 arg2 : Int)

theorem resumeOp_eq (ht : (m.stk arg1).type = otGenerator) :
    Prog.run (resumeOp env arg0 arg1) ⟨m, traps⟩ =
      Prog.run (do
        let ok ← resume env (m.stk arg1).unVal arg0
        guard ok
        let n ← frameTraps
        addTraps n
        continue') ⟨m, traps⟩ := by
  show Prog.run (if (m.stk arg1).type = otGenerator then _ else _ : Exec ρ Control) ⟨m, traps⟩ = _
  rw [if_pos ht]

/-- `_OP_RESUME` looks at what `Resume` returns. -/
theorem run_resumeOp (ht : (m.stk arg1).type = otGenerator)
    (hrange : (m.heap.generators (m.stk arg1).unVal).state = .eSuspended → 0 ≤ arg0 ∧ arg0 ≤ 255) :
    Prog.run (resumeOp env arg0 arg1) ⟨m, traps⟩ =
      match m.resumeGenerator env.toPlatform (m.stk arg1).unVal arg0 with
      | (none, m') => (.error (.raised .trap), ⟨m', traps⟩)
      | (some (), m') => (.ok .next, ⟨m', traps + (m'.ci.map CallInfo.etraps).getD 0⟩) := by
  rw [resumeOp_eq env traps arg0 arg1 ht, Prog.run_bind, run_resume env hrange, Prog.after_ok]
  cases hr : m.resumeGenerator env.toPlatform (m.stk arg1).unVal arg0 with
  | mk ok m' =>
    cases ok with
    | none => rfl
    | some u => rfl

theorem resumeOp_far (ht : (m.stk arg1).type = otGenerator)
    (hstate : (m.heap.generators (m.stk arg1).unVal).state = .eSuspended)
    (hfar : ¬(0 ≤ arg0 ∧ arg0 ≤ 255)) :
    afterInstruction (resumeOp env arg0 arg1 ⟨m, traps⟩) = .undefined := by
  refine afterInstruction_undefined (t := ⟨m, traps⟩) ?_
  rw [resumeOp_eq env traps arg0 arg1 ht, Prog.run_bind, run_resume_far env hstate hfar,
    Prog.after_error]

theorem foreachBody_generator (ht : (m.stk arg0).type = otGenerator) :
    foreachInstr env arg0 arg1 arg2 ⟨m, traps⟩ =
      FailurePaths.foreachWith (iterateGenerator env arg2 (m.stk arg0) arg1) ⟨m, traps⟩ := by
  rw [FailurePaths.foreachInstr_eq, foreachBody, ht]

/-- A loop over a generator, by the state it finds. -/
theorem run_foreachInstr (ht : (m.stk arg0).type = otGenerator)
    (hrange : (m.heap.generators (m.stk arg0).unVal).state = .eSuspended →
      0 ≤ arg2 + 1 ∧ arg2 + 1 ≤ 255) :
    Prog.run (foreachInstr env arg0 arg1 arg2) ⟨m, traps⟩ =
      match (m.heap.generators (m.stk arg0).unVal).state with
      | .eDead => (.ok .next,
          ⟨m.updateCi fun c => { c with ip := c.ip + arg1 }, traps⟩)
      | .eRunning => (.error (.raised .trap), ⟨m.raiseError env.toPlatform
          s!"cannot iterate {env.typeName (m.stk arg0)}", traps⟩)
      | .eSuspended => (.ok .next, ⟨((beforeResume arg2 m).resumeGenerator env.toPlatform
          (m.stk arg0).unVal (arg2 + 1)).2.updateCi fun c => { c with ip := c.ip + 0 },
          traps⟩) := by
  rw [Prog.run, foreachBody_generator env traps arg0 arg1 arg2 ht]
  cases hstate : (m.heap.generators (m.stk arg0).unVal).state with
  | eDead =>
    rw [FailurePaths.foreachWith_congr (FailurePaths.iterateGenerator_dead env hstate arg2 arg1)]
    rfl
  | eRunning =>
    rw [FailurePaths.foreachWith_congr (FailurePaths.iterateGenerator_running env hstate arg2 arg1)]
    rfl
  | eSuspended =>
    have hresume := FailurePaths.resume_eq env (m.stk arg0).unVal (arg2 + 1)
      ⟨beforeResume arg2 m, traps⟩ fun _ => hrange hstate
    have hbody := ((FailurePaths.iterateGenerator_suspended env (s := ⟨m, traps⟩) hstate arg2
      arg1).trans (FailurePaths.iterateSuspended_eq env arg2 (m.stk arg0) ⟨m, traps⟩)).trans
        (FailurePaths.bind_congr hresume _)
    rw [FailurePaths.foreachWith_congr hbody]
    rfl

theorem foreachInstr_far (ht : (m.stk arg0).type = otGenerator)
    (hstate : (m.heap.generators (m.stk arg0).unVal).state = .eSuspended)
    (hfar : ¬(0 ≤ arg2 + 1 ∧ arg2 + 1 ≤ 255)) :
    afterInstruction (foreachInstr env arg0 arg1 arg2 ⟨m, traps⟩) = .undefined := by
  have hbody := (FailurePaths.iterateGenerator_suspended env (s := ⟨m, traps⟩) hstate arg2
    arg1).trans (FailurePaths.iterateSuspended_asserts env arg2 (m.stk arg0) ⟨m, traps⟩ hstate hfar)
  rw [foreachBody_generator env traps arg0 arg1 arg2 ht, FailurePaths.foreachWith_congr hbody]
  rfl

end

theorem inSlot_some {m : Machine ρ} {a : Int} {g : Addr} (h : Resumer.inSlot m a = some g) :
    (m.stk a).type = otGenerator ∧ (m.stk a).unVal = g := by
  unfold Resumer.inSlot at h
  split at h
  · next ht => exact ⟨ht, Option.some.inj h⟩
  · cases h

variable {env}

/-- A resumer that goes on with a frame goes on with the frame of the last yield. -/
theorem Run.goesOn {h : History ρ} (hrun : Run env.toPlatform h) (who : Resumer) {g : Addr}
    (hready : (who.ready h.machine).heap.generators = h.machine.heap.generators ∧
      (who.ready h.machine).heap.weakrefs = h.machine.heap.weakrefs) {m : Machine ρ}
    (hresume : (who.ready h.machine).resumedFrame env.toPlatform g who.target = some m) :
    ∃ y m', (who.ready h.machine).resumedFrame env.toPlatform g who.target = some m' ∧
      h.last g = some y ∧ Restored y g (who.ready h.machine) m' ∧
      who.continues (hooked env.toPlatform m) = who.continues (hooked env.toPlatform m') := by
  obtain ⟨y, hlast, hrestored⟩ := hrun.resumed hready.1 hready.2 hresume
  exact ⟨y, m, hresume, hlast, hrestored, rfl⟩

theorem script_resumesRight {h : History ρ} (hrun : Run env.toPlatform h) (traps arg0 arg1 : Int) :
    ResumesRight env h traps (.script arg0 arg1) := by
  intro g hg
  obtain ⟨ht, rfl⟩ := inSlot_some hg
  split
  · next hstate =>
    intro s hs
    by_cases hrange : 0 ≤ arg0 ∧ arg0 ≤ 255
    · have hop := run_resumeOp env traps arg0 arg1 ht fun _ => hrange
      generalize (h.machine.stk arg1).unVal = g at hop hstate ⊢
      cases hframe : h.machine.resumedFrame env.toPlatform g arg0 with
      | none =>
        have hroom := (resumedFrame_none_iff hstate).mp hframe
        have hnone :=
          (FailurePaths.resume_none_iff env.toPlatform h.machine g arg0).mpr (.inr hroom)
        rw [show h.machine.resumeGenerator env.toPlatform g arg0 = (none, _) from
          Prod.ext hnone rfl] at hop
        cases (afterInstruction_trap hop).symm.trans hs
      | some m =>
        rw [resumeGenerator_eq hframe] at hop
        obtain rfl := Phase.loop.inj ((afterInstruction_next hop).symm.trans hs)
        exact hrun.goesOn (.script arg0 arg1) ⟨rfl, rfl⟩ hframe
    · cases (resumeOp_far env traps arg0 arg1 ht hstate hrange).symm.trans hs
  · next hstate =>
    have hop := run_resumeOp env traps arg0 arg1 ht fun hsusp => absurd hsusp hstate
    obtain ⟨text, htext⟩ := resumeGenerator_refused env.toPlatform arg0 hstate
    rw [htext] at hop
    show Refused env.toPlatform h.machine (afterInstruction (resumeOp env arg0 arg1 _))
    rw [afterInstruction_trap hop]
    exact ⟨text, rfl⟩

theorem foreach_resumesRight_iff {h : History ρ} (hrun : Run env.toPlatform h)
    (traps arg0 arg1 arg2 : Int) :
    ResumesRight env h traps (.foreach arg0 arg1 arg2) ↔ ¬ForeachFails h.machine arg0 arg2 := by
  constructor
  · intro hright ⟨ht, hstate, hrange, hroom⟩
    have hop := run_foreachInstr env traps arg0 arg1 arg2 ht fun _ => hrange
    rw [hstate] at hop
    have hg := hright (h.machine.stk arg0).unVal (if_pos ht)
    rw [if_pos hstate] at hg
    obtain ⟨y, m, hframe, -⟩ := hg _ (afterInstruction_next hop)
    have hready : ((beforeResume arg2 h.machine).heap.generators
        (h.machine.stk arg0).unVal).state = .eSuspended := hstate
    have hnone : (beforeResume arg2 h.machine).resumedFrame env.toPlatform
        (h.machine.stk arg0).unVal (arg2 + 1) = none := (resumedFrame_none_iff hready).mpr hroom
    cases hnone.symm.trans hframe
  · intro hnot g hg
    obtain ⟨ht, rfl⟩ := inSlot_some hg
    cases hstate : (h.machine.heap.generators (h.machine.stk arg0).unVal).state with
    | eDead =>
      have hop := run_foreachInstr env traps arg0 arg1 arg2 ht fun hsusp => by
        cases hstate.symm.trans hsusp
      rw [hstate] at hop
      exact afterInstruction_next hop
    | eRunning =>
      have hop := run_foreachInstr env traps arg0 arg1 arg2 ht fun hsusp => by
        cases hstate.symm.trans hsusp
      rw [hstate] at hop
      rw [if_neg nofun]
      show Refused env.toPlatform h.machine (afterInstruction (foreachInstr env arg0 arg1 arg2 _))
      rw [afterInstruction_trap hop]
      exact ⟨_, rfl⟩
    | eSuspended =>
      rw [if_pos rfl]
      intro s hs
      by_cases hrange : 0 ≤ arg2 + 1 ∧ arg2 + 1 ≤ 255
      · have hop := run_foreachInstr env traps arg0 arg1 arg2 ht fun _ => hrange
        rw [hstate] at hop
        cases hframe : (beforeResume arg2 h.machine).resumedFrame env.toPlatform
          (h.machine.stk arg0).unVal (arg2 + 1) with
        | none =>
          have hready : ((beforeResume arg2 h.machine).heap.generators
              (h.machine.stk arg0).unVal).state = .eSuspended := hstate
          have hroom := (resumedFrame_none_iff hready).mp hframe
          exact absurd ⟨ht, hstate, hrange, hroom⟩ hnot
        | some m =>
          rw [resumeGenerator_eq hframe] at hop
          obtain rfl := Phase.loop.inj ((afterInstruction_next hop).symm.trans hs)
          exact hrun.goesOn (.foreach arg0 arg1 arg2) ⟨rfl, rfl⟩ hframe
      · cases (foreachInstr_far env traps arg0 arg1 arg2 ht hstate hrange).symm.trans hs

/-- Where there is no room for a frame, `EnterFrame` has opened it all the same. -/
theorem ciAddr_of_noRoom {P : Platform ρ} {m : Machine ρ} {g : Addr} (target : Int)
    (hstate : (m.heap.generators g).state = .eSuspended) (h : NoRoom m g) :
    (m.resumeGenerator P g target).2.ciAddr ≠ none := by
  have henter := (m.enterFrame_none_iff P m.vm.top
    (m.vm.top + (m.heap.generators g).stack.length) false).mpr h
  have hcalls := enterFrame_callsstack P m m.vm.top
    (m.vm.top + (m.heap.generators g).stack.length)
  have hresume : m.resumeGenerator P g target = (none, (m.enterFrame P m.vm.top
      (m.vm.top + (m.heap.generators g).stack.length) false).2) := by
    unfold Machine.resumeGenerator
    simp only [hstate]
    split
    · next he => rw [he]
    · next he => cases henter.symm.trans (congrArg Prod.fst he)
  rw [hresume, Machine.ciAddr, hcalls, if_neg (List.cons_ne_nil _ _)]
  exact Option.some_ne_none _

theorem host_resumesRight_iff {h : History ρ} (hrun : Run env.toPlatform h) (traps : Int)
    (g : Addr) (target : Int) : ResumesRight env h traps (.host g target) ↔
      ¬EntryGoesOn (.resumeGenerator g target) h.machine := by
  constructor
  · intro hright ⟨hlimit, hfails⟩
    have hstart := start_eq env (g := g) hlimit fun hstate => (hfails hstate).1
    have hg := hright g rfl
    by_cases hstate : (h.machine.heap.generators g).state = .eSuspended
    · have hroom : NoRoom (entryActivation h.machine).machine g := (hfails hstate).2
      rw [if_pos hstate] at hg
      have hready : ((entryActivation h.machine).machine.heap.generators g).state = .eSuspended :=
        hstate
      dsimp only at hstart
      rw [if_neg (ciAddr_of_noRoom target hready hroom)] at hstart
      obtain ⟨y, m, hframe, -⟩ := hg _ hstart
      cases ((resumedFrame_none_iff hready).mpr hroom).symm.trans hframe
    · rw [if_neg hstate] at hg
      replace hg : Refused env.toPlatform h.machine (start env (.resumeGenerator g target)
        h.machine) := hg
      rw [hstart] at hg
      dsimp only at hg
      split at hg
      · exact hg
      · exact hg
  · intro hnot g' hg
    obtain rfl : g = g' := Option.some.inj hg
    by_cases hlimit : h.machine.vm.nnativecalls + 1 ≤ maxNativeCalls
    · obtain ⟨hstate, hgood⟩ := Classical.not_imp.mp fun hfails => hnot ⟨hlimit, hfails⟩
      rw [if_pos hstate]
      intro s hs
      by_cases hrange : 0 ≤ target ∧ target ≤ 255
      · have hstart := start_eq env (g := g) hlimit fun _ => hrange
        cases hframe : (entryActivation h.machine).machine.resumedFrame env.toPlatform g target with
        | none => exact absurd ⟨hrange, (resumedFrame_none_iff
            (m := (entryActivation h.machine).machine) hstate).mp hframe⟩ hgood
        | some m =>
          rw [resumeGenerator_eq hframe] at hstart
          have hphase := hstart.symm.trans hs
          dsimp only at hphase
          split at hphase
          · cases hphase
          · obtain rfl := Phase.loop.inj hphase
            exact hrun.goesOn (.host g target) ⟨rfl, rfl⟩ hframe
      · cases (start_far env hlimit hstate hrange).symm.trans hs
    · have hstart : start env (.resumeGenerator g target) h.machine = .returned false none
          (h.machine.raiseError env.toPlatform "Native stack overflow") := if_pos (by omega)
      split
      · intro s hs
        cases hstart.symm.trans hs
      · show Refused env.toPlatform h.machine (start env (.resumeGenerator g target) h.machine)
        rw [hstart]
        exact ⟨rfl, _, rfl⟩

/-- In every run, a resumer goes on with the frame of the last yield, or finds its error, exactly
where it does not overlook that `Resume` failed. -/
theorem resumesRight_iff {h : History ρ} (hrun : Run env.toPlatform h) (traps : Int)
    (who : Resumer) : ResumesRight env h traps who ↔ who.GoesWell h.machine := by
  cases who with
  | script arg0 arg1 => exact iff_of_true (script_resumesRight hrun traps arg0 arg1) trivial
  | foreach arg0 arg1 arg2 => exact foreach_resumesRight_iff hrun traps arg0 arg1 arg2
  | host g target => exact host_resumesRight_iff hrun traps g target

end

/-! ### A dead generator and a new one -/

/-- A thread in its first frame, with slots for a frame of three. -/
def inFirstFrame : Machine Unit where
  vm := { (default : SQVM) with
    callsstack := [default], top := 3, stack := ⟨0, 100, 100⟩ }
  heap := default

def noGenerators : History Unit := ⟨inFirstFrame, fun _ => none⟩

theorem run_noGenerators : Run (default : ExecEnv Unit).toPlatform noGenerators := .init nofun

/-- The host resumes a generator that is not suspended, and the frame that is there goes on. -/
theorem not_resumesRight : ¬∀ (ρ : Type) (env : ExecEnv ρ) (h : History ρ) (traps : Int)
    (who : Resumer), Run env.toPlatform h → ResumesRight env h traps who := by
  intro hall
  have hright := hall Unit default noGenerators 0 (.host 7 0) run_noGenerators
  exact (host_resumesRight_iff run_noGenerators 0 7 0).mp hright ⟨by decide, nofun⟩

/-- The call of a generator function makes generator 7. -/
def newlyCreated : Machine Unit :=
  ((inFirstFrame.setGenerator 7 (newGenerator .ofNull)).yieldGenerator
    (default : ExecEnv Unit).toPlatform 7 3).2

/-- It is resumed: its frame starts at 3. -/
def resumed : Machine Unit :=
  (newlyCreated.resumedFrame (default : ExecEnv Unit).toPlatform 7 0).getD default

/-- Two values and a trap in the frame. -/
def working : Machine Unit :=
  let m := ((resumed.setStk 1 (.ofInteger 5)).setStk 2 (.ofInteger 6)).updateCi fun c =>
    { c with etraps := 1 }
  { m with vm := { m.vm with etraps := [⟨3, 6, 8, 2⟩] } }

/-- It has yielded, and the thread has left its frame and pushed a value. -/
def elsewhere : Machine Unit :=
  (((working.beforeYield 0xFF).yieldGenerator
    (default : ExecEnv Unit).toPlatform 7 3).2.leaveFrame).push (.ofInteger 1)

theorem resumesRight_iff_elsewhere : ∃ h : History Unit, h.machine = elsewhere ∧
    ResumesRight default h 0 (.host 7 0) ∧
    ∃ s, (Resumer.host 7 0).phase default ⟨h.machine, 0⟩ = .loop s ∧
      s.machine.vm.stackbase = 4 ∧ s.machine.vm.etraps = [⟨4, 7, 8, 2⟩] ∧
      s.machine.stk 1 = .ofInteger 5 ∧ s.machine.stk 2 = .ofInteger 6 := by
  have hstart : CanYield (default : ExecEnv Unit).toPlatform
      (inFirstFrame.setGenerator 7 (newGenerator .ofNull)) 3 :=
    ⟨by decide, by decide, fun c hc => by
      obtain rfl := Option.some.inj hc
      decide, nofun⟩
  have hcan : CanYield (default : ExecEnv Unit).toPlatform (working.beforeYield 0xFF) 3 :=
    ⟨by decide, by decide, fun c hc => by
      obtain rfl := Option.some.inj hc
      decide, nofun⟩
  have hcreated : Run (default : ExecEnv Unit).toPlatform ⟨newlyCreated, _⟩ :=
    run_noGenerators.start hstart rfl
  have hresumed : Run (default : ExecEnv Unit).toPlatform ⟨resumed, _⟩ :=
    hcreated.resume (g := 7) rfl
  have hworking : Run (default : ExecEnv Unit).toPlatform ⟨working, _⟩ :=
    hresumed.other ⟨rfl, fun _ _ => .inl rfl⟩
  have hrun : Run (default : ExecEnv Unit).toPlatform ⟨elsewhere, _⟩ :=
    (hworking.yield (g := 7) hcan rfl).other ⟨rfl, fun _ _ => .inl rfl⟩
  refine ⟨_, rfl, (resumesRight_iff hrun 0 (.host 7 0)).mpr ?_, _, rfl, ?_⟩
  · rintro ⟨-, hfails⟩
    exact (hfails rfl).2.1 rfl
  · decide

end Sqnim.Vm.Generator
