import Sqnim.Lib.CString

/-!
# Print hooks of the host

`setprintfunc` installs the two forwarding functions in the shared state of one
VM, and stores the host's callbacks in two variables of the process. A message
finds its callback through both.
-/
namespace Sqnim.Host.Print

open Sqnim.Lib.CString

variable {Vm Callback : Type} [DecidableEq Vm]

/-- The forwarding functions of `util.cpp`: `_printfunc` and `_errorfunc` hold no other here. -/
inductive Hook where
  | printexfunc
  | errorexfunc
  deriving DecidableEq, Repr

/-- The hooks of an `SQSharedState`. -/
structure SharedState where
  printfunc : Option Hook
  errorfunc : Option Hook

structure Process (Vm Callback : Type) where
  gPrintfunc : Option Callback
  gErrfunc : Option Callback
  ss : Vm → SharedState

/-- What becomes of a call: nothing, a message at a callback, or undefined behaviour. -/
inductive Outcome (Vm Callback : Type) where
  | silent
  | delivered (callback : Callback) (v : Vm) (text : List UInt8)
  | overflow
  | nilCall

/-- A host's calls and a script's messages, in the order in which they happen. -/
inductive Event (Vm Callback : Type) where
  | sqOpen (v : Vm)
  | setprintfunc (v : Vm) (printfunc errfunc : Option Callback)
  | basePrint (v : Vm) (str : List UInt8)
  | baseError (v : Vm) (str : List UInt8)

def bufferSize : Nat := 1024

/-- Both forwarding functions format before they call. -/
def forward (callback : Option Callback) (v : Vm) (s : List UInt8) : Outcome Vm Callback :=
  match sprintf bufferSize s with
  | none => .overflow
  | some buf =>
    match callback with
    | none => .nilCall
    | some f => .delivered f v buf

def printexfunc (p : Process Vm Callback) (v : Vm) (s : List UInt8) : Outcome Vm Callback :=
  if p.gPrintfunc.isSome then forward p.gPrintfunc v s else .silent

/-- The guard is the one of `printexfunc`, the call goes to `gErrfunc`. -/
def errorexfunc (p : Process Vm Callback) (v : Vm) (s : List UInt8) : Outcome Vm Callback :=
  if p.gPrintfunc.isSome then forward p.gErrfunc v s else .silent

def Hook.call (p : Process Vm Callback) : Hook → Vm → List UInt8 → Outcome Vm Callback
  | .printexfunc => Print.printexfunc p
  | .errorexfunc => Print.errorexfunc p

def basePrint (p : Process Vm Callback) (v : Vm) (str : List UInt8) : Outcome Vm Callback :=
  match (p.ss v).printfunc with
  | none => .silent
  | some hook => hook.call p v str

def baseError (p : Process Vm Callback) (v : Vm) (str : List UInt8) : Outcome Vm Callback :=
  match (p.ss v).errorfunc with
  | none => .silent
  | some hook => hook.call p v str

/-- A fresh `SQSharedState` has no hooks. -/
def sqOpen (p : Process Vm Callback) (v : Vm) : Process Vm Callback :=
  { p with ss := Function.update p.ss v ⟨none, none⟩ }

def setprintfunc (p : Process Vm Callback) (v : Vm) (printfunc errfunc : Option Callback) :
    Process Vm Callback where
  gPrintfunc := printfunc
  gErrfunc := errfunc
  ss := Function.update p.ss v ⟨some .printexfunc, some .errorexfunc⟩

def step (p : Process Vm Callback) : Event Vm Callback → Process Vm Callback × Outcome Vm Callback
  | .sqOpen v => (sqOpen p v, .silent)
  | .setprintfunc v printfunc errfunc => (setprintfunc p v printfunc errfunc, .silent)
  | .basePrint v str => (p, basePrint p v str)
  | .baseError v str => (p, baseError p v str)

/-- A process starts with nil callbacks and no VM. -/
def start : Process Vm Callback := ⟨none, none, fun _ => ⟨none, none⟩⟩

def Outcome.isUndefined : Outcome Vm Callback → Bool
  | .overflow | .nilCall => true
  | _ => false

/-- The outcomes of a run, which ends with the first undefined one. -/
def run (p : Process Vm Callback) : List (Event Vm Callback) → List (Outcome Vm Callback)
  | [] => []
  | e :: es =>
    let (p', o) := step p e
    o :: if o.isUndefined then [] else run p' es

/-! What a host expects, from the events so far with the latest first. -/

/-- The callbacks that the latest `setprintfunc` on any VM registered. -/
def latest : List (Event Vm Callback) → Option Callback × Option Callback
  | [] => (none, none)
  | .setprintfunc _ printfunc errfunc :: _ => (printfunc, errfunc)
  | _ :: past => latest past

/-- The callbacks that the latest `setprintfunc` on `v` registered, since `v` was opened. -/
def registered (v : Vm) : List (Event Vm Callback) → Option (Option Callback × Option Callback)
  | [] => none
  | .setprintfunc w printfunc errfunc :: past =>
    if v = w then some (printfunc, errfunc) else registered v past
  | .sqOpen w :: past => if v = w then none else registered v past
  | _ :: past => registered v past

def deliver (callback : Option Callback) (v : Vm) (str : List UInt8) : Outcome Vm Callback :=
  match callback with
  | none => .silent
  | some f => .delivered f v str

/-- A message reaches the callback that its own VM registered, whole; nil drops it. -/
def expected (past : List (Event Vm Callback)) : Event Vm Callback → Outcome Vm Callback
  | .basePrint v str => deliver ((registered v past).bind Prod.fst) v str
  | .baseError v str => deliver ((registered v past).bind Prod.snd) v str
  | _ => .silent

def expectedRun (past : List (Event Vm Callback)) :
    List (Event Vm Callback) → List (Outcome Vm Callback)
  | [] => []
  | e :: es => expected past e :: expectedRun (e :: past) es

/-- The text survives `vsprintf` into the buffer. -/
def Fits (str : List UInt8) : Prop := str.length < bufferSize ∧ 0 ∉ str

/-- The state of the registrations in which a message is handled as expected: the print callbacks
decide whether it is forwarded, and the latest callback must be the VM's own. -/
def StepCondition (past : List (Event Vm Callback)) : Event Vm Callback → Prop
  | .basePrint v str =>
      match registered v past with
      | none => True
      | some (own, _) =>
          (latest past).1 = own ∧ (own ≠ none → Fits str)
  | .baseError v str =>
      match registered v past with
      | none => True
      | some (_, own) =>
          if (latest past).1 = none then own = none
          else own ≠ none ∧ (latest past).2 = own ∧ Fits str
  | _ => True

def RunCondition (past : List (Event Vm Callback)) : List (Event Vm Callback) → Prop
  | [] => True
  | e :: es => StepCondition past e ∧ RunCondition (e :: past) es

/-- The variables of the process hold the latest callbacks, and a VM has hooks once registered. -/
structure Tracks (past : List (Event Vm Callback)) (p : Process Vm Callback) : Prop where
  gPrintfunc : p.gPrintfunc = (latest past).1
  gErrfunc : p.gErrfunc = (latest past).2
  hooks : ∀ v, p.ss v = if (registered v past).isSome then
    ⟨some .printexfunc, some .errorexfunc⟩ else ⟨none, none⟩

theorem tracks_start : Tracks [] (start : Process Vm Callback) := ⟨rfl, rfl, fun _ => rfl⟩

theorem tracks_step {past : List (Event Vm Callback)} {p : Process Vm Callback}
    (h : Tracks past p) (e : Event Vm Callback) : Tracks (e :: past) (step p e).1 := by
  cases e with
  | sqOpen w =>
    refine ⟨h.gPrintfunc, h.gErrfunc, fun v => ?_⟩
    by_cases hv : v = w
    · simp [step, sqOpen, registered, hv]
    · simp [step, sqOpen, registered, hv, h.hooks v]
  | setprintfunc w printfunc errfunc =>
    refine ⟨rfl, rfl, fun v => ?_⟩
    by_cases hv : v = w
    · simp [step, setprintfunc, registered, hv]
    · simp [step, setprintfunc, registered, hv, h.hooks v]
  | basePrint w str => exact ⟨h.gPrintfunc, h.gErrfunc, h.hooks⟩
  | baseError w str => exact ⟨h.gPrintfunc, h.gErrfunc, h.hooks⟩

omit [DecidableEq Vm] in
/-- A forwarded message arrives whole iff there is a callback and the buffer holds the text. -/
theorem forward_eq_delivered {callback : Option Callback} {f : Callback} {v : Vm}
    {str : List UInt8} :
    forward callback v str = .delivered f v str ↔ callback = some f ∧ Fits str := by
  have hfits : sprintf bufferSize str = some str ↔ Fits str := sprintf_eq_self
  rw [forward, ← hfits]
  cases sprintf bufferSize str with
  | none => simp
  | some buf =>
    cases callback with
    | none => simp
    | some g => simp

omit [DecidableEq Vm] in
theorem forward_ne_silent (callback : Option Callback) (v : Vm) (str : List UInt8) :
    forward callback v str ≠ .silent := by
  rw [forward]
  cases sprintf bufferSize str with
  | none => nofun
  | some buf => cases callback <;> nofun

omit [DecidableEq Vm] in
/-- Forwarding matches the delivery to `own` only when `own` is called and the text fits. -/
theorem forward_eq_deliver {callback own : Option Callback} {v : Vm} {str : List UInt8} :
    forward callback v str = deliver own v str ↔ own ≠ none ∧ callback = own ∧ Fits str := by
  cases own with
  | none =>
    refine iff_of_false (forward_ne_silent callback v str) ?_
    exact fun h => h.1 rfl
  | some f =>
    refine forward_eq_delivered.trans ?_
    exact ⟨fun h => ⟨nofun, h⟩, And.right⟩

omit [DecidableEq Vm] in
theorem silent_eq_deliver {own : Option Callback} {v : Vm} {str : List UInt8} :
    .silent = deliver own v str ↔ own = none := by
  cases own with
  | none => exact iff_of_true rfl rfl
  | some f => exact iff_of_false nofun nofun

section Steps

variable {past : List (Event Vm Callback)} {p : Process Vm Callback} (h : Tracks past p) (v : Vm)
  (str : List UInt8)
include h

theorem basePrint_eq_expected :
    basePrint p v str = expected past (.basePrint v str) ↔ StepCondition past (.basePrint v str) := by
  simp only [basePrint, h.hooks v, expected, StepCondition]
  cases hr : registered v past with
  | none => exact iff_of_true rfl trivial
  | some own =>
    simp only [Option.isSome_some, if_true, Hook.call, printexfunc, h.gPrintfunc, Option.bind_some]
    cases hg : (latest past).1 with
    | none =>
      refine silent_eq_deliver.trans ⟨fun he => ⟨he.symm, fun hne => absurd he hne⟩, ?_⟩
      exact fun he => he.1.symm
    | some f =>
      change forward (some f) v str = deliver own.1 v str ↔ _
      refine forward_eq_deliver.trans ⟨fun he => ⟨he.2.1, fun _ => he.2.2⟩, fun he => ?_⟩
      have hne : own.1 ≠ none := by
        rw [← he.1]
        nofun
      exact ⟨hne, he.1, he.2 hne⟩

theorem baseError_eq_expected :
    baseError p v str = expected past (.baseError v str) ↔ StepCondition past (.baseError v str) := by
  simp only [baseError, h.hooks v, expected, StepCondition]
  cases hr : registered v past with
  | none => exact iff_of_true rfl trivial
  | some own =>
    simp only [Option.isSome_some, if_true, Hook.call, errorexfunc, h.gPrintfunc, h.gErrfunc,
      Option.bind_some]
    cases hg : (latest past).1 with
    | none => exact silent_eq_deliver
    | some f => exact forward_eq_deliver

/-- One step yields what the host expects exactly under the step condition. -/
theorem step_eq_expected (e : Event Vm Callback) :
    (step p e).2 = expected past e ↔ StepCondition past e := by
  cases e with
  | sqOpen w => exact iff_of_true rfl trivial
  | setprintfunc w printfunc errfunc => exact iff_of_true rfl trivial
  | basePrint w str => exact basePrint_eq_expected h w str
  | baseError w str => exact baseError_eq_expected h w str

end Steps

theorem expected_defined (past : List (Event Vm Callback)) (e : Event Vm Callback) :
    (expected past e).isUndefined = false := by
  have hd : ∀ (own : Option Callback) (v : Vm) (str : List UInt8),
      (deliver own v str).isUndefined = false := by
    intro own v str
    cases own <;> rfl
  cases e with
  | sqOpen w => rfl
  | setprintfunc w printfunc errfunc => rfl
  | basePrint w str => exact hd _ w str
  | baseError w str => exact hd _ w str

theorem run_eq_expectedRun {past : List (Event Vm Callback)} {p : Process Vm Callback}
    (h : Tracks past p) (es : List (Event Vm Callback)) :
    run p es = expectedRun past es ↔ RunCondition past es := by
  induction es generalizing past p with
  | nil => exact iff_of_true rfl trivial
  | cons e es ih =>
    rw [run, expectedRun, List.cons.injEq, step_eq_expected h e, RunCondition]
    refine and_congr_right fun hc => ?_
    have ho := (step_eq_expected h e).mpr hc
    rw [ho, expected_defined, if_neg Bool.false_ne_true]
    exact ih (tracks_step h e)

/-- From the start of the process, every message of a run is handled as its VM registered exactly
in the runs whose messages all meet the step condition. -/
theorem run_start_iff (es : List (Event Vm Callback)) :
    run start es = expectedRun [] es ↔ RunCondition [] es :=
  run_eq_expectedRun tracks_start es

/-- The second VM's callback receives the first VM's message. -/
theorem not_expectedRun : ¬ ∀ es : List (Event Nat Nat), run start es = expectedRun [] es := by
  intro h
  have hrun := (run_start_iff _).mp (h [.sqOpen 1, .setprintfunc 1 (some 1) (some 1), .sqOpen 2,
    .setprintfunc 2 (some 2) (some 2), .basePrint 1 [104, 105]])
  have hcallback : some 2 = some 1 := hrun.2.2.2.2.1.1
  exact absurd hcallback (by decide)

end Sqnim.Host.Print
