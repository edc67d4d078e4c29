import Sqnim.Vm.Frame

/-!
# array.map and array.apply

`__map_array` pushes arguments by the number of parameters of the callback, up to four, and
announces that number to `sq_call`, which finds the function to call below as many values.
-/
namespace Sqnim.BaseLib.MapArray

open Sqnim.Object
open Vm (Addr Machine)
open SQObjectType

/-- The arrays, and the rest of the heap. -/
structure ArrayHeap (σ : Type) where
  arrays : Addr → Array SQObject
  rest : σ
  deriving Inhabited

variable {σ : Type}

abbrev State (σ : Type) := Machine (ArrayHeap σ)

/-- How `SQVM::Call` ends. A native function that tail calls returns before the closure it calls has
run, which `CallNative` reports. -/
inductive CallEnd where
  | failed
  | returned (res : SQObject) (tailcall : Bool)

/-- What `__map_array` uses of the program: the parameters of a function, the check of a native
one, the address of a new array, and `SQVM::Call`. -/
structure MapEnv (σ : Type) where
  nparameters : State σ → Addr → Int
  nparamscheck : State σ → Addr → Int
  newArray : State σ → Addr
  call : SQObject → Int → Int → State σ → CallEnd × State σ

def arrayObject (a : Addr) : SQObject := ⟨otArray, a⟩

section State

variable (m : State σ)

def getUp (n : Int) : SQObject := m.slot (m.vm.top + n)

def array (a : Addr) : Array SQObject := m.heap.rest.arrays a

def setArray (a : Addr) (values : Array SQObject) : State σ :=
  { m with heap := { m.heap with rest :=
      { m.heap.rest with arrays := Function.update m.heap.rest.arrays a values } } }

def realval (o : SQObject) : SQObject := if o.type = otWeakRef then m.heap.weakrefs o.unVal else o

/-- `SQArray::Get` -/
def element (a : Addr) (n : Nat) : Option SQObject := (array m a)[n]?.map (realval m)

end State

variable (env : MapEnv σ)

def sqCall (params : Int) (m : State σ) : Bool × State σ :=
  match env.call (getUp m (-(params + 1))) params (m.vm.top - params) m with
  | (.failed, m) => (false, m.popN params.toNat)
  | (.returned res _, m) => (true, (if m.vm.suspended then m else m.popN params.toNat).push res)

def nArgsOf (m : State σ) (closure : SQObject) : Int :=
  match closure.type with
  | otClosure => env.nparameters m closure.unVal
  | otNativeClosure =>
    let nParamsCheck := env.nparamscheck m closure.unVal
    if nParamsCheck > 0 then nParamsCheck else 4
  | _ => 0

def pushArgs (src : Addr) (nArgs : Int) (n : Nat) (temp : SQObject) (m : State σ) : State σ :=
  let m := (m.push (arrayObject src)).push temp
  let m := if nArgs ≥ 3 then m.push (.ofInteger n) else m
  if nArgs ≥ 4 then m.push (arrayObject src) else m

/-- One round of the loop. `temp` keeps its value where the array has become shorter. -/
def mapStep (dest src : Addr) (nArgs : Int) (n : Nat) (temp : SQObject) (m : State σ) :
    Option SQObject × State σ :=
  let temp := (element m src n).getD temp
  match sqCall env nArgs (pushArgs src nArgs n temp m) with
  | (false, m) => (none, m)
  | (true, m) =>
    (some temp, (setArray m dest ((array m dest).setIfInBounds n (getUp m (-1)))).pop)

/-- The rounds from `n` on, as many as are left. -/
def mapLoop (dest src : Addr) (nArgs : Int) : Nat → Nat → SQObject → State σ → Bool × State σ
  | 0, _, _, m => (true, m.pop)
  | left + 1, n, temp, m =>
    match mapStep env dest src nArgs n temp m with
    | (none, m) => (false, m)
    | (some temp, m) => mapLoop dest src nArgs left (n + 1) temp m

/-- `__map_array`: whether it succeeds. -/
def mapArray (dest src : Addr) (m : State σ) : Bool × State σ :=
  let size := (array m src).size
  let closure := m.stk 1
  let m := m.push closure
  mapLoop env dest src (nArgsOf env m closure) size 0 .ofNull m

/-- `array_map`: whether it returns the value it has pushed. -/
def arrayMap (m : State σ) : Bool × State σ :=
  let src := (m.stk 0).unVal
  let ret := env.newArray m
  let m := setArray m ret (Array.replicate (array m src).size .ofNull)
  match mapArray env ret src m with
  | (false, m) => (false, m)
  | (true, m) => (true, m.push (arrayObject ret))

/-- `array_apply`, which leaves the array on top. -/
def arrayApply (m : State σ) : Bool × State σ :=
  let src := (m.stk 0).unVal
  match mapArray env src src m with
  | (false, m) => (false, m)
  | (true, m) => (true, m.popN 1)

/-- The library functions that map an array. -/
inductive ArrayFunction where
  | map | apply
  deriving DecidableEq

namespace ArrayFunction

/-- The function itself. -/
def run : ArrayFunction → State σ → Bool × State σ
  | map => arrayMap env
  | apply => arrayApply env

/-- The array that takes the results. -/
def dest : ArrayFunction → State σ → Addr
  | map, m => env.newArray m
  | apply, m => (m.stk 0).unVal

/-- The state in which `__map_array` is called. -/
def entered : ArrayFunction → State σ → State σ
  | map, m => setArray m (env.newArray m) (Array.replicate (array m (m.stk 0).unVal).size .ofNull)
  | apply, m => m

end ArrayFunction

/-! ## The calls that are made -/

/-- The state in which a round begins. -/
structure Round (σ : Type) where
  n : Nat
  temp : SQObject
  machine : State σ

/-- The rounds that `mapLoop` begins. -/
def loopRounds (dest src : Addr) (nArgs : Int) : Nat → Nat → SQObject → State σ → List (Round σ)
  | 0, _, _, _ => []
  | left + 1, n, temp, m =>
    ⟨n, temp, m⟩ ::
      match mapStep env dest src nArgs n temp m with
      | (none, _) => []
      | (some temp, m) => loopRounds dest src nArgs left (n + 1) temp m

namespace Round

variable (src : Addr) (nArgs : Int) (t : Round σ)

/-- The state in which `sq_call` is called. -/
def pushed : State σ :=
  pushArgs src nArgs t.n ((element t.machine src t.n).getD t.temp) t.machine

/-- What `sq_call` takes to be the function. -/
def callee : SQObject := getUp (t.pushed src nArgs) (-(nArgs + 1))

/-- Where it takes the arguments to begin. -/
def base : Int := (t.pushed src nArgs).vm.top - nArgs

/-- What it takes to be the arguments. -/
def args : List SQObject :=
  (List.range nArgs.toNat).map fun i : Nat => (t.pushed src nArgs).slot (t.base src nArgs + i)

/-- The call of the round. -/
def called : CallEnd × State σ :=
  env.call (t.callee src nArgs) nArgs (t.base src nArgs) (t.pushed src nArgs)

end Round

/-- The array and the element, and what else a callback with `nArgs` parameters takes. -/
def expectedArgs (src : Addr) (nArgs : Int) (n : Nat) (o : SQObject) : List SQObject :=
  [arrayObject src, o] ++ (if nArgs ≥ 3 then [.ofInteger n] else []) ++
    if nArgs ≥ 4 then [arrayObject src] else []

/-- The callback is called with the element of the round, and the stack is as high afterwards, in
the same frame. -/
structure CallsRight (dest src : Addr) (callback : SQObject) (nArgs : Int) (t : Round σ) :
    Prop where
  argument : ∃ o, element t.machine src t.n = some o ∧
    t.args src nArgs = expectedArgs src nArgs t.n o
  callee : t.callee src nArgs = callback
  height : ∀ temp m, mapStep env dest src nArgs t.n t.temp t.machine = (some temp, m) →
    m.vm.top = t.machine.vm.top ∧ m.vm.stackbase = t.machine.vm.stackbase

/-- As many arguments are pushed as announced, the array has the element of the round, and a call
that returns is no tail call and leaves the thread running. -/
structure GoesWell (src : Addr) (nArgs : Int) (t : Round σ) : Prop where
  two_le : 2 ≤ nArgs
  le_four : nArgs ≤ 4
  lt_size : t.n < (array t.machine src).size
  call : ∀ res tailcall m, t.called env src nArgs = (.returned res tailcall, m) →
    tailcall = false ∧ m.vm.suspended = false

namespace ArrayFunction

variable (f : ArrayFunction) (m : State σ)

/-- The array that is mapped. -/
def source : Addr := (m.stk 0).unVal

def callback : SQObject := (f.entered env m).stk 1

def nArgs : Int := nArgsOf env ((f.entered env m).push (f.callback env m)) (f.callback env m)

/-- The rounds that the function begins. -/
def rounds : List (Round σ) :=
  loopRounds env (f.dest env m) (source m) (f.nArgs env m)
    (array (f.entered env m) (source m)).size 0 .ofNull ((f.entered env m).push (f.callback env m))

/-- The elements are taken in order, all of them unless a call fails, and every one is the argument
of a call of the callback. -/
structure MapsRight : Prop where
  inOrder : (f.rounds env m).map Round.n = List.range (f.rounds env m).length
  all : (f.run env m).1 = true →
    (f.rounds env m).length = (array (f.entered env m) (source m)).size
  calls : ∀ t ∈ f.rounds env m,
    CallsRight env (f.dest env m) (source m) (f.callback env m) (f.nArgs env m) t

end ArrayFunction

/-- What `SQVM::Call` leaves to the native function that calls it: its frame, with its own slots. A
native function that tail calls leaves the frame that it was called in. -/
structure CallRules : Prop where
  returned : ∀ o params base m res m', env.call o params base m = (.returned res false, m') →
    m'.vm.top = m.vm.top ∧ m'.vm.stackbase = m.vm.stackbase ∧
      ∀ i, m.vm.stackbase ≤ i → i < base → m'.slot i = m.slot i
  tailcall : ∀ o params base m res m', env.call o params base m = (.returned res true, m') →
    m'.vm.stackbase = base

/-! ## Pushing and popping -/

theorem push_top (m : State σ) (v : SQObject) : (m.push v).vm.top = m.vm.top + 1 := rfl

theorem slot_push (m : State σ) (v : SQObject) (i : Int) :
    (m.push v).slot i = if i = m.vm.top then v else m.slot i :=
  Machine.slot_setSlot _ _ _

theorem pop_top (m : State σ) : m.pop.vm.top = m.vm.top - 1 := rfl

theorem slot_pop (m : State σ) {i : Int} (hi : i < m.vm.top - 1) : m.pop.slot i = m.slot i :=
  (Machine.slot_setSlot _ _ _).trans (if_neg (by show ¬i = m.vm.top - 1; omega))

theorem push_stackbase (m : State σ) (v : SQObject) :
    (m.push v).vm.stackbase = m.vm.stackbase := rfl

theorem popN_spec (k : Nat) (m : State σ) : (m.popN k).vm.top = m.vm.top - k ∧
    (m.popN k).vm.stackbase = m.vm.stackbase ∧
    ∀ i < m.vm.top - k, (m.popN k).slot i = m.slot i := by
  induction k generalizing m with
  | zero => exact ⟨(Int.sub_zero _).symm, rfl, fun _ _ => rfl⟩
  | succ k ih =>
    obtain ⟨htop, hstackbase, hslot⟩ := ih m.pop
    rw [pop_top] at htop hslot
    refine ⟨by rw [Machine.popN, htop]; omega, hstackbase, fun i hi => ?_⟩
    rw [Machine.popN, hslot i (by omega), slot_pop m (by omega)]

/-- What a round needs of the stack: the callback on top of a frame. -/
structure Ready (callback : SQObject) (m : State σ) : Prop where
  callback : m.slot (m.vm.top - 1) = callback
  frame : m.vm.stackbase < m.vm.top

/-- The same frame of the same height, with the same values. -/
structure SameFrame (m m' : State σ) : Prop where
  top : m'.vm.top = m.vm.top
  stackbase : m'.vm.stackbase = m.vm.stackbase
  slot : ∀ i, m.vm.stackbase ≤ i → i < m.vm.top → m'.slot i = m.slot i

theorem Ready.of_sameFrame {callback : SQObject} {m m' : State σ} (h : Ready callback m)
    (hsame : SameFrame m m') : Ready callback m' where
  callback := by
    have hframe := h.frame
    rw [hsame.top, hsame.slot _ (by omega) (by omega)]
    exact h.callback
  frame := by
    rw [hsame.top, hsame.stackbase]
    exact h.frame

section Round

variable {src : Addr} {nArgs : Int} {t : Round σ}

theorem pushArgs_slot (n : Nat) (temp : SQObject) (m : State σ) {i : Int} (hi : i < m.vm.top) :
    (pushArgs src nArgs n temp m).slot i = m.slot i := by
  unfold pushArgs
  dsimp only
  split <;> split <;>
    simp only [slot_push, push_top] <;>
    split_ifs <;> first | rfl | omega

theorem pushArgs_stackbase (n : Nat) (temp : SQObject) (m : State σ) :
    (pushArgs src nArgs n temp m).vm.stackbase = m.vm.stackbase := by
  unfold pushArgs
  dsimp only
  split <;> split <;> rfl

/-- As many values are pushed as are announced, from two to four. -/
theorem pushArgs_top (h2 : 2 ≤ nArgs) (h4 : nArgs ≤ 4) (n : Nat) (temp : SQObject) (m : State σ) :
    (pushArgs src nArgs n temp m).vm.top = m.vm.top + nArgs := by
  unfold pushArgs
  dsimp only
  split <;> split <;> simp only [push_top] <;> omega

theorem args_eq (h2 : 2 ≤ nArgs) (h4 : nArgs ≤ 4) : t.args src nArgs =
    expectedArgs src nArgs t.n ((element t.machine src t.n).getD t.temp) := by
  unfold Round.args Round.base Round.pushed
  rw [pushArgs_top h2 h4]
  obtain rfl | rfl | rfl : nArgs = 2 ∨ nArgs = 3 ∨ nArgs = 4 := by omega
  all_goals
    simp [expectedArgs, pushArgs, List.range_succ, slot_push, push_top, Int.add_assoc]

theorem args_length : (t.args src nArgs).length = nArgs.toNat := by
  rw [Round.args, List.length_map, List.length_range]

theorem expectedArgs_length (n : Nat) (o : SQObject) : (expectedArgs src nArgs n o).length =
    2 + (if nArgs ≥ 3 then 1 else 0) + if nArgs ≥ 4 then 1 else 0 := by
  unfold expectedArgs
  split <;> split <;> rfl

theorem callee_eq (h2 : 2 ≤ nArgs) (h4 : nArgs ≤ 4) :
    t.callee src nArgs = t.machine.slot (t.machine.vm.top - 1) := by
  have hplace : t.machine.vm.top + nArgs + -(nArgs + 1) = t.machine.vm.top - 1 := by omega
  unfold Round.callee getUp Round.pushed
  rw [pushArgs_top h2 h4, hplace]
  exact pushArgs_slot _ _ _ (by omega)

theorem base_eq (h2 : 2 ≤ nArgs) (h4 : nArgs ≤ 4) : t.base src nArgs = t.machine.vm.top := by
  rw [Round.base, Round.pushed, pushArgs_top h2 h4]
  omega

end Round

variable {env} {dest src : Addr} {nArgs : Int} {callback : SQObject}

/-- A round whose call returns goes on. -/
theorem mapStep_of_called {t : Round σ} {res : SQObject} {tailcall : Bool} {m₁ : State σ}
    (h : t.called env src nArgs = (.returned res tailcall, m₁)) :
    ∃ temp m, mapStep env dest src nArgs t.n t.temp t.machine = (some temp, m) := by
  unfold Round.called Round.callee Round.base Round.pushed at h
  unfold mapStep sqCall
  dsimp only
  rw [h]
  exact ⟨_, _, rfl⟩

/-- A round that goes on has made a call that returns, after which the arguments are popped unless
the thread is suspended. -/
theorem mapStep_spec {t : Round σ} {temp : SQObject} {m : State σ}
    (h : mapStep env dest src nArgs t.n t.temp t.machine = (some temp, m)) :
    ∃ res tailcall m₁, t.called env src nArgs = (.returned res tailcall, m₁) ∧
      m.vm.stackbase = m₁.vm.stackbase ∧
      (m₁.vm.suspended = true → m.vm.top = m₁.vm.top) ∧
      (m₁.vm.suspended = false → m.vm.top = m₁.vm.top - nArgs.toNat ∧
        ∀ i < m₁.vm.top - nArgs.toNat, m.slot i = m₁.slot i) := by
  cases hcall : t.called env src nArgs with
  | mk result m₁ =>
    unfold mapStep sqCall at h
    unfold Round.called Round.callee Round.base Round.pushed at hcall
    dsimp only at h
    rw [hcall] at h
    cases result with
    | failed => cases h
    | returned res tailcall =>
      obtain ⟨htop, hstackbase, hslot⟩ := popN_spec nArgs.toNat m₁
      obtain rfl := (Prod.mk.inj h).2
      refine ⟨res, tailcall, m₁, rfl, ?_, fun hsuspended => ?_, fun hrunning => ?_⟩
      · cases m₁.vm.suspended with
        | true => rfl
        | false => exact hstackbase
      · rw [if_pos hsuspended]
        exact Int.add_sub_cancel _ _
      · rw [if_neg (by rw [hrunning]; exact Bool.false_ne_true)]
        refine ⟨(Int.add_sub_cancel _ _).trans htop, fun i hi => ?_⟩
        rw [slot_pop _ (by show i < (m₁.popN nArgs.toNat).vm.top + 1 - 1; omega)]
        show ((m₁.popN nArgs.toNat).push res).slot i = m₁.slot i
        rw [slot_push, if_neg (by omega), hslot i hi]

/-- A call with the right arguments announces as many as are pushed. -/
theorem CallsRight.arity {t : Round σ} (h : CallsRight env dest src callback nArgs t) :
    2 ≤ nArgs ∧ nArgs ≤ 4 ∧ t.n < (array t.machine src).size := by
  obtain ⟨o, helement, hargs⟩ := h.argument
  have hlength := congrArg List.length hargs
  rw [args_length, expectedArgs_length] at hlength
  have hn : t.n < (array t.machine src).size := by
    by_contra hge
    rw [element, Array.getElem?_eq_none (by omega)] at helement
    cases helement
  split_ifs at hlength <;> omega

theorem GoesWell.sameFrame (hrules : CallRules env) {t : Round σ} (h : GoesWell env src nArgs t)
    {temp : SQObject} {m : State σ}
    (hstep : mapStep env dest src nArgs t.n t.temp t.machine = (some temp, m)) :
    SameFrame t.machine m := by
  obtain ⟨res, tailcall, m₁, hcalled, hstackbase, -, hpopped⟩ := mapStep_spec hstep
  obtain ⟨rfl, hrunning⟩ := h.call _ _ _ hcalled
  obtain ⟨htop₁, hstackbase₁, hslot₁⟩ := hrules.returned _ _ _ _ _ _ hcalled
  obtain ⟨htop, hslot⟩ := hpopped hrunning
  have h2 := h.two_le
  rw [base_eq h2 h.le_four] at hslot₁
  rw [Round.pushed, pushArgs_stackbase] at hstackbase₁ hslot₁
  rw [Round.pushed, pushArgs_top h2 h.le_four] at htop₁
  have hheight : m₁.vm.top - nArgs.toNat = t.machine.vm.top := by omega
  rw [hheight] at htop hslot
  refine ⟨htop, hstackbase.trans hstackbase₁, fun i hlow hhigh => ?_⟩
  rw [hslot i hhigh, hslot₁ i hlow hhigh, pushArgs_slot _ _ _ hhigh]

theorem GoesWell.callsRight (hrules : CallRules env) {t : Round σ}
    (hready : Ready callback t.machine) (h : GoesWell env src nArgs t) :
    CallsRight env dest src callback nArgs t where
  argument := by
    have hn := h.lt_size
    have helement : element t.machine src t.n =
        some (realval t.machine (array t.machine src)[t.n]) := by
      rw [element, Array.getElem?_eq_getElem hn, Option.map_some]
    refine ⟨_, helement, ?_⟩
    rw [args_eq h.two_le h.le_four, helement, Option.getD_some]
  callee := (callee_eq h.two_le h.le_four).trans hready.callback
  height temp m hstep := by
    have hsame := h.sameFrame hrules hstep
    exact ⟨hsame.top, hsame.stackbase⟩

/-- After a tail call the frame is another one, and in a suspended thread the arguments stay. -/
theorem CallsRight.goesWell (hrules : CallRules env) {t : Round σ}
    (hready : Ready callback t.machine) (h : CallsRight env dest src callback nArgs t) :
    GoesWell env src nArgs t := by
  obtain ⟨h2, h4, hn⟩ := h.arity
  refine ⟨h2, h4, hn, fun res tailcall m hcalled => ?_⟩
  obtain ⟨temp, m', hstep⟩ := mapStep_of_called hcalled
  obtain ⟨htop, hstackbase⟩ := h.height temp m' hstep
  obtain ⟨res', tailcall', m₁, hcalled', hstackbase', hsuspended, -⟩ := mapStep_spec hstep
  obtain ⟨hreturned, rfl⟩ := Prod.mk.inj (hcalled.symm.trans hcalled')
  obtain ⟨rfl, rfl⟩ := CallEnd.returned.inj hreturned
  have hframe := hready.frame
  cases tailcall with
  | true =>
    have hbase := hrules.tailcall _ _ _ _ _ _ hcalled
    rw [base_eq h2 h4] at hbase
    omega
  | false =>
    refine ⟨rfl, ?_⟩
    cases hs : m.vm.suspended with
    | false => rfl
    | true =>
      have htop₁ := (hrules.returned _ _ _ _ _ _ hcalled).1
      rw [Round.pushed, pushArgs_top h2 h4] at htop₁
      have hkept := hsuspended hs
      omega

/-! ## Runs of the loop -/

theorem loopRounds_succ {left n : Nat} {temp temp' : SQObject} {m m' : State σ}
    (h : mapStep env dest src nArgs n temp m = (some temp', m')) :
    loopRounds env dest src nArgs (left + 1) n temp m =
      ⟨n, temp, m⟩ :: loopRounds env dest src nArgs left (n + 1) temp' m' := by
  rw [loopRounds, h]

theorem loopRounds_failed {left n : Nat} {temp : SQObject} {m m' : State σ}
    (h : mapStep env dest src nArgs n temp m = (none, m')) :
    loopRounds env dest src nArgs (left + 1) n temp m = [⟨n, temp, m⟩] := by
  rw [loopRounds, h]

theorem loopRounds_inOrder {left n : Nat} {temp : SQObject} {m : State σ} :
    (loopRounds env dest src nArgs left n temp m).map Round.n =
      List.range' n (loopRounds env dest src nArgs left n temp m).length := by
  induction left generalizing n temp m with
  | zero => rfl
  | succ left ih =>
    cases hstep : mapStep env dest src nArgs n temp m with
    | mk next m' =>
      cases next with
      | none =>
        rw [loopRounds_failed hstep]
        rfl
      | some temp' =>
        rw [loopRounds_succ hstep, List.map_cons, ih, List.length_cons, List.range'_succ]

theorem loopRounds_length {left n : Nat} {temp : SQObject} {m : State σ}
    (h : (mapLoop env dest src nArgs left n temp m).1 = true) :
    (loopRounds env dest src nArgs left n temp m).length = left := by
  induction left generalizing n temp m with
  | zero => rfl
  | succ left ih =>
    rw [mapLoop] at h
    cases hstep : mapStep env dest src nArgs n temp m with
    | mk next m' =>
      rw [hstep] at h
      cases next with
      | none => cases h
      | some temp' => rw [loopRounds_succ hstep, List.length_cons, ih h]

/-- The callback stays on top of the same frame as long as the rounds go well. -/
theorem callsRight_iff_goesWell (hrules : CallRules env) {left n : Nat} {temp : SQObject}
    {m : State σ} (hready : Ready callback m) :
    (∀ t ∈ loopRounds env dest src nArgs left n temp m,
        CallsRight env dest src callback nArgs t) ↔
      ∀ t ∈ loopRounds env dest src nArgs left n temp m, GoesWell env src nArgs t := by
  induction left generalizing n temp m with
  | zero => simp only [loopRounds, List.not_mem_nil, false_implies, implies_true]
  | succ left ih =>
    have hround : CallsRight env dest src callback nArgs ⟨n, temp, m⟩ ↔
        GoesWell env src nArgs ⟨n, temp, m⟩ :=
      ⟨fun h => h.goesWell hrules hready, fun h => h.callsRight hrules hready⟩
    cases hstep : mapStep env dest src nArgs n temp m with
    | mk next m' =>
      cases next with
      | none =>
        rw [loopRounds_failed hstep, List.forall_mem_singleton, List.forall_mem_singleton]
        exact hround
      | some temp' =>
        rw [loopRounds_succ hstep, List.forall_mem_cons, List.forall_mem_cons, hround]
        refine and_congr_right fun hwell => ih (hready.of_sameFrame ?_)
        exact hwell.sameFrame (t := ⟨n, temp, m⟩) hrules hstep

/-- A loop that ends well has popped the callback. -/
theorem mapLoop_spec (hrules : CallRules env) {left n : Nat} {temp : SQObject} {m m' : State σ}
    (hwell : ∀ t ∈ loopRounds env dest src nArgs left n temp m, GoesWell env src nArgs t)
    (h : mapLoop env dest src nArgs left n temp m = (true, m')) :
    m'.vm.top = m.vm.top - 1 ∧ m'.vm.stackbase = m.vm.stackbase ∧
      ∀ i, m.vm.stackbase ≤ i → i < m.vm.top - 1 → m'.slot i = m.slot i := by
  induction left generalizing n temp m with
  | zero =>
    obtain rfl := (Prod.mk.inj h).2
    exact ⟨rfl, rfl, fun i _ hi => slot_pop m hi⟩
  | succ left ih =>
    rw [mapLoop] at h
    cases hstep : mapStep env dest src nArgs n temp m with
    | mk next m₁ =>
      rw [hstep] at h
      cases next with
      | none => cases h
      | some temp' =>
        rw [loopRounds_succ hstep, List.forall_mem_cons] at hwell
        have hsame := hwell.1.sameFrame (t := ⟨n, temp, m⟩) hrules hstep
        obtain ⟨htop, hstackbase, hslot⟩ := ih hwell.2 h
        rw [hsame.top] at htop hslot
        rw [hsame.stackbase] at hstackbase hslot
        exact ⟨htop, hstackbase, fun i hlow hhigh =>
          (hslot i hlow hhigh).trans (hsame.slot i hlow (by show i < m.vm.top; omega))⟩

namespace ArrayFunction

variable {f : ArrayFunction} {m : State σ}

theorem entered_vm : (f.entered env m).vm = m.vm := by
  cases f <;> rfl

theorem entered_slot (i : Int) : (f.entered env m).slot i = m.slot i := by
  cases f <;> rfl

theorem ready (hframe : m.vm.stackbase ≤ m.vm.top) :
    Ready (f.callback env m) ((f.entered env m).push (f.callback env m)) where
  callback := by
    rw [slot_push, push_top, if_pos (by omega)]
  frame := by
    rw [push_top, push_stackbase, entered_vm]
    omega

/-- Whether the function succeeds is decided by its loop. -/
theorem run_fst : (f.run env m).1 =
    (mapArray env (f.dest env m) (source m) (f.entered env m)).1 := by
  cases f with
  | map =>
    show (arrayMap env m).1 = _
    unfold arrayMap
    dsimp only
    split <;> rename_i h <;> exact (congrArg Prod.fst h).symm
  | apply =>
    show (arrayApply env m).1 = _
    unfold arrayApply
    dsimp only
    split <;> rename_i h <;> exact (congrArg Prod.fst h).symm

theorem run_map {m₁ : State σ}
    (h : mapArray env (map.dest env m) (source m) (map.entered env m) = (true, m₁)) :
    map.run env m = (true, m₁.push (arrayObject (map.dest env m))) := by
  dsimp only [dest, source, entered] at h
  show arrayMap env m = _
  unfold arrayMap
  dsimp only
  rw [h]
  rfl

theorem run_apply {m₁ : State σ}
    (h : mapArray env (apply.dest env m) (source m) (apply.entered env m) = (true, m₁)) :
    apply.run env m = (true, m₁.popN 1) := by
  dsimp only [dest, source, entered] at h
  show arrayApply env m = _
  unfold arrayApply
  dsimp only
  rw [h]

theorem mapsRight_iff (hrules : CallRules env) (f : ArrayFunction) (m : State σ)
    (hframe : m.vm.stackbase ≤ m.vm.top) :
    f.MapsRight env m ↔ ∀ t ∈ f.rounds env m, GoesWell env (source m) (f.nArgs env m) t := by
  refine ⟨fun h => (callsRight_iff_goesWell hrules (ready hframe)).1 h.calls, fun h => ⟨?_, ?_, ?_⟩⟩
  · rw [rounds, loopRounds_inOrder, List.range_eq_range']
  · intro hsuccess
    rw [run_fst] at hsuccess
    exact loopRounds_length hsuccess
  · exact (callsRight_iff_goesWell hrules (ready hframe)).2 h

/-- A native function returns the value on top: the array that has taken the results. -/
theorem run_returns (hrules : CallRules env) {m' : State σ}
    (hargs : m.vm.top = m.vm.stackbase + 2) (harray : (m.stk 0).type = otArray)
    (hright : f.MapsRight env m) (h : f.run env m = (true, m')) :
    getUp m' (-1) = arrayObject (f.dest env m) := by
  have hwell := (mapsRight_iff hrules f m (by omega)).1 hright
  cases hmap : mapArray env (f.dest env m) (source m) (f.entered env m) with
  | mk ok m₁ =>
    have hok : (f.run env m).1 = _ := run_fst
    rw [hmap, h] at hok
    obtain rfl : true = ok := hok
    obtain ⟨htop, -, hslot⟩ := mapLoop_spec hrules hwell hmap
    rw [push_top, entered_vm] at htop hslot
    rw [push_stackbase, entered_vm] at hslot
    cases f with
    | map =>
      obtain rfl := (Prod.mk.inj ((run_map hmap).symm.trans h)).2
      rw [getUp, slot_push, push_top, if_pos (by omega)]
    | apply =>
      obtain rfl := (Prod.mk.inj ((run_apply hmap).symm.trans h)).2
      have hplace : m₁.vm.top - 1 + -1 = m.vm.stackbase := by omega
      show (m₁.popN 1).slot (m₁.vm.top - 1 + -1) = ⟨otArray, (m.stk 0).unVal⟩
      rw [hplace, (popN_spec 1 m₁).2.2 _ (by omega), hslot _ (le_refl _) (by omega), slot_push,
        if_neg (by rw [entered_vm]; omega), entered_slot, ← harray]
      exact congrArg m.slot (Int.add_zero _).symm

/-- Closures of `n` parameters that count their calls in the slot below the frame of `map`, as a
captured local of the caller, and return the element. -/
def counting (n : Int) : MapEnv Unit where
  nparameters _ _ := n
  nparamscheck _ _ := 0
  newArray _ := 9
  call _ _ base m := (.returned (m.slot (base + 1)) false,
    m.setSlot (m.vm.stackbase - 1) ⟨otInteger, (m.slot (m.vm.stackbase - 1)).unVal + 1⟩)

theorem counting_rules (n : Int) : CallRules (counting n) where
  returned o params base m res m' h := by
    obtain rfl := (Prod.mk.inj h).2
    refine ⟨rfl, rfl, fun i hlow _ => ?_⟩
    rw [Machine.slot_setSlot, if_neg (by omega)]
  tailcall o params base m res m' h := by
    cases (CallEnd.returned.inj (Prod.mk.inj h).1).2

/-- The frame of `map`, with an array of three elements and a closure. -/
def threeElements : State Unit where
  vm := { (default : Vm.SQVM) with stackbase := 1, top := 3 }
  heap := { (default : Vm.Heap (ArrayHeap Unit)) with
    cells := fun _ i =>
      if i = 1 then arrayObject 1 else if i = 2 then ⟨otClosure, 2⟩ else .ofInteger 0
    rest := ⟨fun a => if a = 1 then #[.ofInteger 5, .ofInteger 6, .ofInteger 7] else #[], ()⟩ }

theorem mapsRight_counting : (map.rounds (counting 3) threeElements).length = 3 ∧
    (map.run (counting 3) threeElements).1 = true ∧ map.MapsRight (counting 3) threeElements := by
  refine ⟨by decide +kernel, by decide +kernel,
    (mapsRight_iff (counting_rules 3) map threeElements (by decide)).2 fun t ht => ?_⟩
  have hsize : ∀ t ∈ map.rounds (counting 3) threeElements,
      t.n < (array t.machine (source threeElements)).size := by decide +kernel
  have hcall : ∀ t ∈ map.rounds (counting 3) threeElements,
      (t.called (counting 3) (source threeElements) 3).2.vm.suspended = false := by decide +kernel
  refine ⟨by decide, by decide, hsize t ht, fun res tailcall m h => ⟨?_, ?_⟩⟩
  · exact (CallEnd.returned.inj (Prod.mk.inj h).1).2.symm
  · rw [← (Prod.mk.inj h).2]
    exact hcall t ht

/-- A callback of five parameters is called with itself as `this`. -/
theorem not_mapsRight : ¬∀ (σ : Type) (env : MapEnv σ), CallRules env →
    ∀ (f : ArrayFunction) (m : State σ), m.vm.stackbase ≤ m.vm.top → f.MapsRight env m := by
  intro h
  have hright := h Unit (counting 5) (counting_rules 5) map threeElements (by decide)
  have hround : map.rounds (counting 5) threeElements ≠ [] := List.cons_ne_nil _ _
  obtain ⟨t, ht⟩ := List.exists_mem_of_ne_nil _ hround
  exact absurd (hright.calls t ht).arity.2.1 (by decide)

end ArrayFunction
end Sqnim.BaseLib.MapArray
