import Sqnim.Bytecode.ReadBack
import Sqnim.Vm.Execute

/-!
# The start of a call

`CLOSURE_OP` stores in a closure what its default values are, and `StartCall` places the parameters
of a call and enters the frame of the function. A generator function then leaves with its frame in
a generator.
-/
namespace Sqnim.Bytecode.StartCall

open Sqnim.Lib (Prog)
open Sqnim.Object
open Sqnim.Vm
open ReadBack

/-- `SQArray::Create`: an array that was not there, with the elements given. -/
structure Arrays (ρ : Type) where
  create : List SQObject → ρ → SQObject × ρ
  contents : ρ → SQObject → Option (List SQObject)
  fresh : ∀ vs r, contents r (create vs r).1 = none
  created : ∀ vs r, contents (create vs r).2 (create vs r).1 = some vs

/-- What a call uses of the program. The debug hook returns to the frame it was called in. -/
structure CallEnv (ρ : Type) extends Platform ρ where
  arrays : Arrays ρ
  newGenerator : Heap ρ → Addr
  newOuter : Heap ρ → Addr
  closureOf : Heap ρ → SQObject → SQClosure
  hook_callsstack : ∀ c line m, (callDebugHook c line m).vm.callsstack = m.vm.callsstack

variable {ρ : Type} (env : CallEnv ρ)

def createArray (vs : List SQObject) (m : Machine ρ) : SQObject × Machine ρ :=
  let (arr, rest) := env.arrays.create vs m.heap.rest
  (arr, { m with heap := { m.heap with rest } })

/-! ## CLOSURE_OP -/

/-- `_integer(v._src)`; the compiler stores integers. -/
def source (v : SQOuterVar) : Int :=
  match v.src with
  | .integer n => n.toInt
  | _ => 0

def captureOuter (current : SQClosure) (v : SQOuterVar) (m : Machine ρ) : SQObject × Machine ρ :=
  if v.type = otLocal then
    let (p, m) := m.findOuter (env.newOuter m.heap) (m.vm.stackbase + source v)
    (outerObject p, m)
  else if v.type = otOuter then (current.outervalues.toList.getD (source v).toNat .ofNull, m)
  else (.ofNull, m)

def captureOuters (current : SQClosure) :
    List SQOuterVar → Machine ρ → List SQObject × Machine ρ
  | [], m => ([], m)
  | v :: vs, m =>
    let (o, m) := captureOuter env current v m
    let (os, m) := captureOuters current vs m
    (o :: os, m)

theorem captureOuters_length (current : SQClosure) (vs : List SQOuterVar) (m : Machine ρ) :
    (captureOuters env current vs m).1.length = vs.length := by
  induction vs generalizing m with
  | nil => rfl
  | cons v vs ih => exact congrArg (· + 1) (ih _)

/-- `GetWeakRef` -/
def getWeakRef (o : SQObject) (m : Machine ρ) : Addr × Machine ρ :=
  let w := env.weakRefOf m.heap o
  (w, { m with heap := { m.heap with weakrefs := Function.update m.heap.weakrefs w o } })

/-- `CLOSURE_OP`, with the closure unless it fails. -/
def closureOp (func : SQFunctionProto) (boundtarget : Int) : Call ρ SQClosure := fun m =>
  let current := env.closureOf m.heap ((m.ci.map CallInfo.closure).getD .ofNull)
  let (root, m) := getWeakRef env m.vm.roottable m
  let outers := captureOuters env current func.members.outervalues.toList m
  let m := outers.2
  let closure : SQClosure :=
    { SQClosure.create func root with
      outervalues := ⟨outers.1,
        (captureOuters_length ..).trans (List.Vector.toList_length _)⟩
      defaultparams := func.members.defaultparams.map fun spos => m.stk spos.toInt }
  if boundtarget = 0xFF then (some closure, m)
  else
    let val := m.stk boundtarget
    if canBind val.type then
      let (w, m) := getWeakRef env val m
      (some { closure with env := some w }, m)
    else
      (none, m.raiseError env.toPlatform
        ("cannot bind a " ++ Compare.typeName val.type ++ " as environment object"))

/-! ## StartCall -/

/-- `StartCall` up to the first instruction of the function. -/
def enterCall (closure : SQObject) (c : SQClosure) (target args stackbase : Int)
    (tailcall : Bool) : Call ρ Unit := fun m =>
  match placeParameters env.toPlatform (createArray env) c args stackbase m with
  | (none, m) => (none, m)
  | (some (), m) =>
    match m.enterFrame env.toPlatform stackbase
        (stackbase + c.function.members.stacksize.toInt) tailcall with
    | (none, m) => (none, m)
    | (some (), m) =>
      (some (), m.updateCi fun ci =>
        { ci with closure, ip := 0, target := target.bmod (2 ^ 32) })

/-- The debug hook, and the generator that a generator function returns. -/
def beginCall (closure : SQObject) (c : SQClosure) (target : Int) : Call ρ Unit := fun m =>
  let m := if m.vm.debughook then env.callDebugHook 'c' 0 m else m
  if c.function.members.bgenerator then
    let g := env.newGenerator m.heap
    let m := m.setGenerator g ⟨closure, [], default, [], .eRunning⟩
    match m.yieldGenerator env.toPlatform g c.function.members.stacksize.toInt with
    | (none, m) => (none, m)
    | (some (), m) =>
      let (_, _, m) := m.returnFrame env.toPlatform 1 target .ofNull
      (some (), m.setStk target (generatorObject g))
  else (some (), m)

def startCall (closure : SQObject) (c : SQClosure) (target args stackbase : Int)
    (tailcall : Bool) : Call ρ Unit := fun m =>
  match enterCall env closure c target args stackbase tailcall m with
  | (none, m) => (none, m)
  | (some (), m) => beginCall env closure c target m

/-! ## Which calls start -/

variable (c : SQClosure) (args stackbase : Int)

/-- The parameters that a call has to fill, without the array of a function with varargs. -/
def fixedParams : Int :=
  if c.function.members.varparams ≠ 0 then (c.function.counts.nparameters : Int) - 1
  else c.function.counts.nparameters

/-- The count is that of the parameters, or short by no more than the defaults; with varargs it is
not less than that of the fixed parameters. -/
def Accepts : Prop :=
  if c.function.members.varparams ≠ 0 then fixedParams c ≤ args
  else args = c.function.counts.nparameters ∨
    (args < c.function.counts.nparameters ∧
      c.function.counts.nparameters - args ≤ c.function.counts.ndefaultparams)

theorem accepts_iff : Accepts c args ↔ ¬WrongCount c args := by
  unfold Accepts WrongCount fixedParams
  split
  · omega
  · omega

/-- `EnterFrame` grows the stack unless a metamethod runs. -/
def CanEnter (m : Machine ρ) : Prop :=
  m.vm.nmetamethodscall = 0 ∨
    stackbase + c.function.members.stacksize.toInt + minStackOverhead ≤ m.vm.stack.size

/-- The arguments that go into the array. -/
def surplus (pbase nvargs : Int) (m : Machine ρ) : List SQObject :=
  (List.range nvargs.toNat).map fun n : Nat => m.slot (pbase + n)

/-- The slots of a frame that has been entered for a call in the state `m`. -/
structure Bound (m m' : Machine ρ) : Prop where
  this : 0 < args → 0 < fixedParams c →
    m'.slot stackbase = ((c.env.map m.heap.weakrefs).getD (m.slot stackbase))
  environment : 0 < c.function.counts.nparameters → ∀ w, c.env = some w →
    m'.slot stackbase = m.heap.weakrefs w
  passed : ∀ k, 0 < k → k < args → k < fixedParams c →
    m'.slot (stackbase + k) = m.slot (stackbase + k)
  defaults : c.function.members.varparams = 0 → ∀ k : Nat, 0 < k → args ≤ k →
    k < c.function.counts.nparameters →
    m'.slot (stackbase + k) = c.defaultparams.toList.getD
      (c.function.counts.ndefaultparams - (c.function.counts.nparameters - k)) .ofNull
  varargs : c.function.members.varparams ≠ 0 → 0 < fixedParams c →
    env.arrays.contents m.heap.rest (m'.slot (stackbase + fixedParams c)) = none ∧
    env.arrays.contents m'.heap.rest (m'.slot (stackbase + fixedParams c)) =
      some (surplus (stackbase + fixedParams c) (args - fixedParams c) m)

/-! ## Slots -/

section Slots

variable {env c args stackbase} {m : Machine ρ}

theorem slot_nullSlots (lo hi i : Int) :
    (m.nullSlots lo hi).slot i = if lo ≤ i ∧ i ≤ hi then .ofNull else m.slot i := by
  simp [Machine.slot, Machine.nullSlots]

theorem gatherVarargs_eq (pbase nvargs : Int) : gatherVarargs (createArray env) pbase nvargs m =
    (createArray env (surplus pbase nvargs m) (m.nullSlots pbase (pbase + nvargs - 1))).2.setSlot
      pbase (createArray env (surplus pbase nvargs m)
        (m.nullSlots pbase (pbase + nvargs - 1))).1 := by
  have hsurplus : List.map (fun n : Int => m.slot (pbase + n))
      (do let n ← List.range nvargs.toNat; pure (n : Int)) = surplus pbase nvargs m := by
    change List.map _ (List.flatMap (fun n : Nat => [(n : Int)]) (List.range nvargs.toNat)) = _
    rw [← List.map_eq_flatMap, List.map_map]
    rfl
  rw [← hsurplus]
  rfl

/-- The array takes the place of the arguments it holds. -/
theorem slot_gatherVarargs (pbase nvargs i : Int) :
    (gatherVarargs (createArray env) pbase nvargs m).slot i =
      if i = pbase then (env.arrays.create (surplus pbase nvargs m) m.heap.rest).1
      else if pbase ≤ i ∧ i ≤ pbase + nvargs - 1 then .ofNull else m.slot i := by
  rw [gatherVarargs_eq, Machine.slot_setSlot, ← slot_nullSlots]
  rfl

theorem rest_gatherVarargs (pbase nvargs : Int) :
    (gatherVarargs (createArray env) pbase nvargs m).heap.rest =
      (env.arrays.create (surplus pbase nvargs m) m.heap.rest).2 := by
  rw [gatherVarargs_eq]
  rfl

theorem slot_storeDefaults (first : Int) (vs : List SQObject) :
    (storeDefaults first vs m).slot = stored first vs m.slot := by
  have h := storeDefaults_eq first vs m m.slot
  rw [withSlots_self] at h
  rw [h, slot_withSlots]

theorem storeDefaults_heap (first : Int) (vs : List SQObject) :
    (storeDefaults first vs m).heap.weakrefs = m.heap.weakrefs ∧
      (storeDefaults first vs m).heap.rest = m.heap.rest ∧
      (storeDefaults first vs m).vm = m.vm := by
  induction vs generalizing first m with
  | nil => exact ⟨rfl, rfl, rfl⟩
  | cons v vs ih => exact ih (m := m.setSlot first v) (first + 1)

theorem arranged_vm (values : List SQObject) :
    (arranged (createArray env) c args stackbase values m).vm = m.vm := by
  unfold arranged
  split
  · rfl
  · exact (storeDefaults_heap _ _).2.2

theorem arranged_weakrefs (values : List SQObject) :
    (arranged (createArray env) c args stackbase values m).heap.weakrefs = m.heap.weakrefs := by
  unfold arranged
  split
  · rfl
  · exact (storeDefaults_heap _ _).1

theorem slot_bindThis (i : Int) : (bindThis c stackbase m).slot i =
    if i = stackbase then (c.env.map m.heap.weakrefs).getD (m.slot i) else m.slot i := by
  unfold bindThis
  cases c.env with
  | none => rw [Option.map_none, Option.getD_none, ite_self]
  | some w => exact Machine.slot_setSlot ..

theorem bindThis_vm : (bindThis c stackbase m).vm = m.vm := by
  unfold bindThis
  split <;> rfl

theorem bindThis_rest : (bindThis c stackbase m).heap.rest = m.heap.rest := by
  unfold bindThis
  split <;> rfl

theorem slot_resizeStack (P : Platform ρ) (newsize : Int) {i : Int} (hi : i < m.vm.stack.size) :
    (m.resizeStack P newsize).slot i = m.slot i := by
  unfold Machine.resizeStack
  show Function.update m.heap.cells _ _ _ i = _
  rw [Function.update_self, if_neg (by omega)]

/-- Growing the stack keeps the slots it had. -/
theorem enterFrame_slot {P : Platform ρ} {m' : Machine ρ} {newbase newtop : Int} {tailcall : Bool}
    (h : m.enterFrame P newbase newtop tailcall = (some (), m')) :
    (∀ i < m.vm.stack.size, m'.slot i = m.slot i) ∧ m'.heap.rest = m.heap.rest := by
  have hopen : (m.openFrame P newbase newtop tailcall).slot = m.slot ∧
      (m.openFrame P newbase newtop tailcall).heap.rest = m.heap.rest := by
    unfold Machine.openFrame Machine.pushCallInfo Machine.growCallStack
    split
    · exact ⟨rfl, rfl⟩
    · split <;> exact ⟨rfl, rfl⟩
  have hstack := Machine.openFrame_stack P m newbase newtop tailcall
  simp only [Machine.enterFrame] at h
  generalize m.openFrame P newbase newtop tailcall = opened at hopen hstack h
  split at h
  · split at h
    · cases h
    · obtain rfl := (Prod.mk.inj h).2
      refine ⟨fun i hi => ?_, hopen.2⟩
      rw [← hstack] at hi
      rw [← hopen.1]
      exact slot_resizeStack P _ hi
  · obtain rfl := (Prod.mk.inj h).2
    exact ⟨fun i _ => congrFun hopen.1 i, hopen.2⟩

/-- The parameters before the frame is entered. -/
theorem slot_placed (i : Int) :
    (bindThis c stackbase (arranged (createArray env) c args stackbase (neededDefaults c args)
        m)).slot i =
      if i = stackbase then (c.env.map m.heap.weakrefs).getD
        ((arranged (createArray env) c args stackbase (neededDefaults c args) m).slot i)
      else (arranged (createArray env) c args stackbase (neededDefaults c args) m).slot i := by
  rw [slot_bindThis, arranged_weakrefs]

theorem slot_arranged_varargs (hvar : c.function.members.varparams ≠ 0) (values : List SQObject)
    (i : Int) : (arranged (createArray env) c args stackbase values m).slot i =
      if i = stackbase + fixedParams c then (env.arrays.create
        (surplus (stackbase + fixedParams c) (args - fixedParams c) m) m.heap.rest).1
      else if stackbase + fixedParams c ≤ i ∧
        i ≤ stackbase + fixedParams c + (args - fixedParams c) - 1 then .ofNull
      else m.slot i := by
  have hfixed : fixedParams c = (c.function.counts.nparameters : Int) - 1 := if_pos hvar
  rw [arranged, if_pos hvar, slot_gatherVarargs, hfixed]

theorem slot_arranged_defaults (hvar : c.function.members.varparams = 0) (values : List SQObject)
    (i : Int) : (arranged (createArray env) c args stackbase values m).slot i =
      stored (stackbase + args) values m.slot i := by
  rw [arranged, if_neg (not_not_intro hvar), slot_storeDefaults]

/-- What is in the slots when the parameters are placed. -/
theorem bound_placed (h : Accepts c args) : Bound env c args stackbase m
    (bindThis c stackbase (arranged (createArray env) c args stackbase (neededDefaults c args)
      m)) := by
  have hcount := (accepts_iff c args).mp h
  have henvironment : ∀ w, c.env = some w → (bindThis c stackbase (arranged (createArray env) c args
      stackbase (neededDefaults c args) m)).slot stackbase = m.heap.weakrefs w := by
    intro w hw
    rw [slot_placed, if_pos rfl, hw, Option.map_some, Option.getD_some]
  by_cases hvar : c.function.members.varparams = 0
  · have hfixed : fixedParams c = c.function.counts.nparameters := if_neg (not_not_intro hvar)
    have hlen := neededDefaults_length hcount
    have hmissing : missing c args = (c.function.counts.nparameters - args).toNat :=
      if_neg (not_not_intro hvar)
    have hle := missing_le hcount
    constructor
    · intro hargs _
      rw [slot_placed, if_pos rfl, slot_arranged_defaults hvar, stored, if_neg (by omega)]
    · exact fun _ => henvironment
    · intro k hk hkargs hkfixed
      rw [slot_placed, if_neg (by omega), slot_arranged_defaults hvar, stored, if_neg (by omega)]
    · intro _ k hk hkargs hkn
      have hplace : (stackbase + (k : Int) - (stackbase + args)).toNat = (k - args).toNat := by omega
      rw [slot_placed, if_neg (by omega), slot_arranged_defaults hvar, stored, if_pos (by omega),
        hplace, List.getD_eq_getElem _ _ (by omega), List.getD_eq_getElem _ _ (by
          rw [List.Vector.toList_length]
          omega)]
      simp only [neededDefaults, List.getElem_drop]
      congr 1
      omega
    · exact fun hne => absurd hvar hne
  · have hfixed : fixedParams c = (c.function.counts.nparameters : Int) - 1 := if_pos hvar
    have haccept : fixedParams c ≤ args := by
      rw [Accepts, if_pos hvar] at h
      exact h
    constructor
    · intro _ hpos
      rw [slot_placed, if_pos rfl, slot_arranged_varargs hvar, if_neg (by omega),
        if_neg (by omega)]
    · exact fun _ => henvironment
    · intro k hk hkargs hkfixed
      rw [slot_placed, if_neg (by omega), slot_arranged_varargs hvar, if_neg (by omega),
        if_neg (by omega)]
    · exact fun heq => absurd heq hvar
    · intro _ hpos
      have hslot : (bindThis c stackbase (arranged (createArray env) c args stackbase
          (neededDefaults c args) m)).slot (stackbase + fixedParams c) =
            (env.arrays.create (surplus (stackbase + fixedParams c) (args - fixedParams c) m)
              m.heap.rest).1 := by
        rw [slot_placed, if_neg (by omega), slot_arranged_varargs hvar, if_pos rfl]
      have hrest : (bindThis c stackbase (arranged (createArray env) c args stackbase
          (neededDefaults c args) m)).heap.rest =
            (env.arrays.create (surplus (stackbase + fixedParams c) (args - fixedParams c) m)
              m.heap.rest).2 := by
        rw [bindThis_rest, arranged, if_pos hvar, rest_gatherVarargs, ← hfixed]
      rw [hslot, hrest]
      exact ⟨env.arrays.fresh _ _, env.arrays.created _ _⟩

end Slots

/-! ## Starting a call -/

section Start

variable {env c args stackbase} {m : Machine ρ} {closure : SQObject} {target : Int}
  {tailcall : Bool}

theorem placeParameters_accepted (h : Accepts c args) :
    placeParameters env.toPlatform (createArray env) c args stackbase m =
      (some (), bindThis c stackbase
        (arranged (createArray env) c args stackbase (neededDefaults c args) m)) :=
  places ((accepts_iff c args).mp h)

/-- The text for a count that is not accepted. -/
def countError (c : SQClosure) (args : Int) : String :=
  if c.function.members.varparams ≠ 0 then
    "wrong number of parameters (" ++ intText args ++ " passed, at least " ++
      intText ((c.function.counts.nparameters : Int) - 1) ++ " required)"
  else "wrong number of parameters (" ++ intText args ++ " passed, " ++
    intText c.function.counts.nparameters ++ " required)"

/-- A wrong count is an error before anything else happens. -/
theorem placeParameters_refused (h : ¬Accepts c args) :
    placeParameters env.toPlatform (createArray env) c args stackbase m =
      (none, m.raiseError env.toPlatform (countError c args)) := by
  unfold Accepts fixedParams at h
  unfold placeParameters countError
  dsimp only
  by_cases hvar : c.function.members.varparams ≠ 0
  · rw [if_pos hvar, if_pos hvar] at h
    rw [if_pos hvar, if_pos (by omega), if_pos hvar]
  · rw [if_neg hvar] at h
    rw [if_neg hvar, if_neg (by omega), if_neg (by omega), if_neg hvar]

theorem enterCall_refused (h : ¬Accepts c args) :
    enterCall env closure c target args stackbase tailcall m =
      (none, m.raiseError env.toPlatform (countError c args)) := by
  rw [enterCall, placeParameters_refused h]

/-- `EnterFrame` sees the stack that the call began with. -/
theorem placed_vm (values : List SQObject) : (bindThis c stackbase
    (arranged (createArray env) c args stackbase values m)).vm = m.vm :=
  bindThis_vm.trans (arranged_vm values)

theorem enterCall_isSome (h : Accepts c args) :
    (enterCall env closure c target args stackbase tailcall m).1 = none ↔
      ¬CanEnter c stackbase m := by
  have hnone := Machine.enterFrame_none_iff env.toPlatform
    (bindThis c stackbase (arranged (createArray env) c args stackbase (neededDefaults c args) m))
    stackbase (stackbase + c.function.members.stacksize.toInt) tailcall
  rw [placed_vm] at hnone
  rw [enterCall, placeParameters_accepted h]
  dsimp only
  generalize Machine.enterFrame env.toPlatform _ stackbase _ tailcall = r at hnone
  obtain ⟨ok, m'⟩ := r
  have hcan : ok = none ↔ ¬CanEnter c stackbase m := by
    refine hnone.trans ?_
    unfold CanEnter
    omega
  rw [← hcan]
  cases ok with
  | none => exact Iff.rfl
  | some u => exact iff_of_false nofun nofun

/-- Only the slots of the parameters matter. -/
theorem Bound.congr {m' m'' : Machine ρ} (h : Bound env c args stackbase m m')
    (hslot : ∀ i < stackbase + c.function.counts.nparameters, m''.slot i = m'.slot i)
    (hrest : m''.heap.rest = m'.heap.rest) : Bound env c args stackbase m m'' := by
  have hle : fixedParams c ≤ c.function.counts.nparameters := by
    unfold fixedParams
    split <;> omega
  refine ⟨fun hargs hpos => ?_, fun hpos w hw => ?_, fun k hk hkargs hkfixed => ?_,
    fun hvar k hk hkargs hkn => ?_, fun hvar hpos => ?_⟩
  · rw [hslot _ (by omega)]
    exact h.this hargs hpos
  · rw [hslot _ (by omega)]
    exact h.environment hpos w hw
  · rw [hslot _ (by omega)]
    exact h.passed k hk hkargs hkfixed
  · rw [hslot _ (by omega)]
    exact h.defaults hvar k hk hkargs hkn
  · have hlt : stackbase + fixedParams c < stackbase + c.function.counts.nparameters := by
      rw [fixedParams, if_pos hvar]
      omega
    rw [hslot _ hlt, hrest]
    exact h.varargs hvar hpos

theorem bound_enterCall {m' : Machine ρ}
    (h : enterCall env closure c target args stackbase tailcall m = (some (), m'))
    (hfits : stackbase + c.function.counts.nparameters ≤ m.vm.stack.size) :
    Bound env c args stackbase m m' := by
  have haccepts : Accepts c args := by
    by_contra hno
    rw [enterCall_refused hno] at h
    cases h
  have hplaced : (bindThis c stackbase (arranged (createArray env) c args stackbase
      (neededDefaults c args) m)).vm = m.vm := placed_vm _
  rw [enterCall, placeParameters_accepted haccepts] at h
  dsimp only at h
  cases hframe : Machine.enterFrame env.toPlatform (bindThis c stackbase
      (arranged (createArray env) c args stackbase (neededDefaults c args) m)) stackbase
      (stackbase + c.function.members.stacksize.toInt) tailcall with
  | mk ok m₁ =>
    rw [hframe] at h
    cases ok with
    | none => cases h
    | some u =>
      obtain rfl := (Prod.mk.inj h).2
      obtain ⟨hslot, hrest⟩ := enterFrame_slot hframe
      rw [hplaced] at hslot
      exact (bound_placed haccepts).congr (fun i hi => hslot i (by omega)) hrest

/-- A generator that is new can yield in any frame. -/
theorem beginCall_isSome (hframe : m.vm.callsstack ≠ []) :
    (beginCall env closure c target m).1 = some () := by
  have hhook : (if m.vm.debughook then env.callDebugHook 'c' 0 m else m).vm.callsstack ≠ [] := by
    split
    · rw [env.hook_callsstack]
      exact hframe
    · exact hframe
  unfold beginCall
  generalize (if m.vm.debughook then env.callDebugHook 'c' 0 m else m) = hooked at hhook
  dsimp only
  split
  · obtain ⟨ci, cs, hcs⟩ := List.exists_cons_of_ne_nil hhook
    have hnew : ((hooked.setGenerator (env.newGenerator hooked.heap)
        ⟨closure, [], default, [], .eRunning⟩).heap.generators
          (env.newGenerator hooked.heap)).state = .eRunning := by
      rw [Machine.setGenerator]
      dsimp only
      rw [Function.update_self]
    unfold Machine.yieldGenerator
    dsimp only
    rw [hnew]
    dsimp only
    rw [show (hooked.setGenerator (env.newGenerator hooked.heap)
      ⟨closure, [], default, [], .eRunning⟩).vm.callsstack = ci :: cs from hcs]
  · rfl

theorem updateCi_callsstack {f : CallInfo → CallInfo} (h : m.vm.callsstack ≠ []) :
    (m.updateCi f).vm.callsstack ≠ [] := by
  obtain ⟨ci, cs, hcs⟩ := List.exists_cons_of_ne_nil h
  unfold Machine.updateCi
  rw [hcs]
  exact List.cons_ne_nil _ _

theorem enterFrame_callsstack {P : Platform ρ} {m' : Machine ρ} {newbase newtop : Int}
    (hframe : tailcall = true → m.vm.callsstack ≠ [])
    (h : m.enterFrame P newbase newtop tailcall = (some (), m')) : m'.vm.callsstack ≠ [] := by
  have hopen : (m.openFrame P newbase newtop tailcall).vm.callsstack ≠ [] := by
    unfold Machine.openFrame
    cases tailcall with
    | true => exact updateCi_callsstack (hframe rfl)
    | false => exact List.cons_ne_nil _ _
  simp only [Machine.enterFrame] at h
  split at h
  · split at h
    · cases h
    · obtain rfl := (Prod.mk.inj h).2
      exact hopen
  · obtain rfl := (Prod.mk.inj h).2
    exact hopen

theorem enterCall_callsstack {m' : Machine ρ}
    (h : enterCall env closure c target args stackbase tailcall m = (some (), m'))
    (hframe : tailcall = true → m.vm.callsstack ≠ []) : m'.vm.callsstack ≠ [] := by
  have hplaced : ∀ {r m₁}, placeParameters env.toPlatform (createArray env) c args stackbase m =
      (some r, m₁) → m₁.vm = m.vm := by
    intro r m₁ hr
    by_cases haccepts : Accepts c args
    · rw [placeParameters_accepted haccepts] at hr
      obtain rfl := (Prod.mk.inj hr).2
      exact placed_vm _
    · rw [placeParameters_refused haccepts] at hr
      cases hr
  unfold enterCall at h
  cases hplace : placeParameters env.toPlatform (createArray env) c args stackbase m with
  | mk placed m₁ =>
    rw [hplace] at h
    cases placed with
    | none => cases h
    | some u =>
      dsimp only at h
      cases henter : m₁.enterFrame env.toPlatform stackbase
          (stackbase + c.function.members.stacksize.toInt) tailcall with
      | mk ok m₂ =>
        rw [henter] at h
        cases ok with
        | none => cases h
        | some u =>
          obtain rfl := (Prod.mk.inj h).2
          refine updateCi_callsstack (enterFrame_callsstack (fun ht => ?_) henter)
          rw [hplaced hplace]
          exact hframe ht

theorem startCall_isSome (hframe : tailcall = true → m.vm.callsstack ≠ []) :
    (startCall env closure c target args stackbase tailcall m).1 = some () ↔
      Accepts c args ∧ CanEnter c stackbase m := by
  by_cases haccepts : Accepts c args
  · have hnone : (enterCall env closure c target args stackbase tailcall m).1 = none ↔
        ¬CanEnter c stackbase m := enterCall_isSome haccepts
    have hkeeps : ∀ m', enterCall env closure c target args stackbase tailcall m = (some (), m') →
        m'.vm.callsstack ≠ [] := fun m' henter => enterCall_callsstack henter hframe
    unfold startCall
    cases henter : enterCall env closure c target args stackbase tailcall m with
    | mk ok m' =>
      rw [henter] at hnone hkeeps
      cases ok with
      | none => exact iff_of_false nofun fun hboth => hnone.mp rfl hboth.2
      | some u =>
        refine iff_of_true (beginCall_isSome (hkeeps m' rfl)) ⟨haccepts, ?_⟩
        by_contra hno
        cases hnone.mpr hno
  · rw [startCall, enterCall_refused haccepts]
    exact iff_of_false nofun fun hboth => haccepts hboth.1

end Start

/-! ## What a closure keeps -/

section Created

variable {env c} {m : Machine ρ}

/-- The slots, and where the frame begins. -/
structure SameSlots (m m' : Machine ρ) : Prop where
  slot : m'.slot = m.slot
  stackbase : m'.vm.stackbase = m.vm.stackbase

theorem SameSlots.stk {m' : Machine ρ} (h : SameSlots m m') (i : Int) : m'.stk i = m.stk i := by
  rw [Machine.stk, h.slot, h.stackbase]
  rfl

theorem findOuter_same (fresh : Addr) (i : Int) : SameSlots m (m.findOuter fresh i).2 := by
  unfold Machine.findOuter
  split <;> exact ⟨rfl, rfl⟩

theorem captureOuter_same (current : SQClosure) (v : SQOuterVar) :
    SameSlots m (captureOuter env current v m).2 := by
  unfold captureOuter
  split
  · exact findOuter_same ..
  · split <;> exact ⟨rfl, rfl⟩

theorem captureOuters_same (current : SQClosure) (vs : List SQOuterVar) :
    SameSlots m (captureOuters env current vs m).2 := by
  induction vs generalizing m with
  | nil => exact ⟨rfl, rfl⟩
  | cons v vs ih =>
    have hfirst : SameSlots m (captureOuter env current v m).2 := captureOuter_same current v
    have hrest := ih (m := (captureOuter env current v m).2)
    exact ⟨hrest.slot.trans hfirst.slot, hrest.stackbase.trans hfirst.stackbase⟩

/-- Capturing variables leaves the registers as they are. -/
theorem captured_stk (env : CallEnv ρ) (func : SQFunctionProto) (m : Machine ρ) (a : Int) :
    (captureOuters env (env.closureOf m.heap ((m.ci.map CallInfo.closure).getD .ofNull))
      func.members.outervalues.toList (getWeakRef env m.vm.roottable m).2).2.stk a = m.stk a :=
  ((captureOuters_same _ _).stk a).trans (SameSlots.stk ⟨rfl, rfl⟩ a)

/-- What `CLOSURE_OP` stores in a closure: the registers of the defaults, and the environment. -/
structure Keeps (c : SQClosure) (boundtarget : Int) (m m' : Machine ρ) : Prop where
  defaults : c.defaultparams.toList =
    c.function.members.defaultparams.toList.map fun spos => m.stk spos.toInt
  unbound : boundtarget = 0xFF → c.env = none
  bound : boundtarget ≠ 0xFF → ∃ w, c.env = some w ∧ m'.heap.weakrefs w = m.stk boundtarget

theorem closureOp_keeps {func : SQFunctionProto} {boundtarget : Int} {m' : Machine ρ}
    (h : closureOp env func boundtarget m = (some c, m')) :
    c.function = func ∧ Keeps c boundtarget m m' := by
  unfold closureOp at h
  dsimp only at h
  have hdefaults : ∀ captured : Machine ρ, (∀ i, captured.stk i = m.stk i) →
      (func.members.defaultparams.map fun spos => captured.stk spos.toInt).toList =
        func.members.defaultparams.toList.map fun spos => m.stk spos.toInt := by
    intro captured hcaptured
    rw [List.Vector.toList_map]
    exact List.map_congr_left fun spos _ => hcaptured _
  split at h
  · next hno =>
    cases h
    exact ⟨rfl, hdefaults _ (captured_stk env func m), fun _ => rfl, fun hne => absurd hno hne⟩
  · next hyes =>
    split at h
    · cases h
      refine ⟨rfl, hdefaults _ (captured_stk env func m), fun heq => absurd heq hyes,
        fun _ => ⟨_, rfl, ?_⟩⟩
      rw [← captured_stk env func m boundtarget]
      exact Function.update_self ..
    · cases h

/-- The environment that `_OP_CLOSURE` names can be bound. -/
def Binds (boundtarget : Int) (m : Machine ρ) : Prop :=
  boundtarget = 0xFF ∨ canBind (m.stk boundtarget).type = true

theorem closureOp_isSome {func : SQFunctionProto} {boundtarget : Int} :
    (closureOp env func boundtarget m).1.isSome = true ↔ Binds boundtarget m := by
  unfold closureOp Binds
  dsimp only
  split
  · next h => exact iff_of_true rfl (.inl h)
  · next hne =>
    rw [captured_stk env func m, or_iff_right hne]
    split
    · next h => exact iff_of_true rfl h
    · next h => exact iff_of_false Bool.false_ne_true h

theorem run_closureBind (exec : ExecEnv ρ) (closure : SQObject) (boundtarget : Int)
    (s : Activation ρ) :
    ∃ r t, Prog.run (closureBind exec closure boundtarget) s = (.ok r, t) ∧
      (r.isSome = true ↔ Binds boundtarget s.machine) := by
  unfold closureBind Binds
  split
  · next h => exact ⟨_, _, rfl, iff_of_true rfl (.inl h)⟩
  · next hne =>
    have hval : Prog.run (stk boundtarget) s = (.ok (s.machine.stk boundtarget), s) := rfl
    rw [or_iff_right hne, Prog.run_bind, hval, Prog.after_ok]
    split
    · next h => exact ⟨_, _, rfl, iff_of_true rfl h⟩
    · next h => exact ⟨_, _, rfl, iff_of_false Bool.false_ne_true h⟩

/-- The instruction succeeds where `CLOSURE_OP` does. -/
theorem run_closureOp (exec : ExecEnv ρ) (func : SQFunctionProto) (i boundtarget : Int)
    (s : Activation ρ)
    (hcreate : ∀ a, (exec.createClosure i s.machine).2.stk a = s.machine.stk a) :
    ∃ r, (Prog.run (Vm.closureOp exec i boundtarget) s).1 = .ok r ∧
      (r.isSome = true ↔ (closureOp env func boundtarget s.machine).1.isSome = true) := by
  have hcreated : Prog.run (perform (exec.createClosure i)) s =
      (.ok (exec.createClosure i s.machine).1,
        { s with machine := (exec.createClosure i s.machine).2 }) := rfl
  obtain ⟨r, t, hr, hbinds⟩ := run_closureBind exec (exec.createClosure i s.machine).1 boundtarget
    { s with machine := (exec.createClosure i s.machine).2 }
  refine ⟨r, ?_, hbinds.trans ?_⟩
  · rw [Vm.closureOp, Prog.run_bind, hcreated, Prog.after_ok, Prog.run_bind]
    rw [hr, Prog.after_ok]
    rfl
  · rw [closureOp_isSome, Binds, Binds, hcreate]

end Created

/-- How a closure is called. A parameter that is missing has what the register of its default held
when the closure was created; a parameter that would lie beyond the stack is left out. -/
structure CallRules (closure : SQObject) (c : SQClosure) (target args stackbase : Int)
    (tailcall : Bool) (m : Machine ρ) : Prop where
  starts : (tailcall = true → m.vm.callsstack ≠ []) →
    ((startCall env closure c target args stackbase tailcall m).1 = some () ↔
      Accepts c args ∧ CanEnter c stackbase m)
  bound : ∀ m', enterCall env closure c target args stackbase tailcall m = (some (), m') →
    stackbase + c.function.counts.nparameters ≤ m.vm.stack.size → Bound env c args stackbase m m'
  refused : ¬Accepts c args → startCall env closure c target args stackbase tailcall m =
    (none, m.raiseError env.toPlatform (countError c args))
  created : ∀ func boundtarget m₀ m₁, closureOp env func boundtarget m₀ = (some c, m₁) →
    c.function = func ∧ Keeps c boundtarget m₀ m₁

theorem callRules (closure : SQObject) (c : SQClosure) (target args stackbase : Int)
    (tailcall : Bool) (m : Machine ρ) :
    CallRules env closure c target args stackbase tailcall m where
  starts := startCall_isSome
  bound _ h hfits := bound_enterCall h hfits
  refused h := by rw [startCall, enterCall_refused h]
  created _ _ _ _ h := closureOp_keeps h

/-- Every call with an accepted count starts. -/
def StartsByCount (closure : SQObject) (c : SQClosure) (target args stackbase : Int)
    (m : Machine ρ) : Prop :=
  (startCall env closure c target args stackbase false m).1 = some () ↔ Accepts c args

/-- Two addresses, of which the second last array is collected. -/
def twoArrays : Arrays (Bool × List SQObject) where
  create vs r := (⟨SQObjectType.otArray, if r.1 then 0 else 1⟩, (!r.1, vs))
  contents r o := if o.unVal = (if r.1 then 1 else 0) then some r.2 else none
  fresh vs r := by cases r.1 <;> rfl
  created vs r := by cases r.1 <;> rfl

def smallEnv : CallEnv (Bool × List SQObject) where
  toPlatform := { (default : Platform (Bool × List SQObject)) with callDebugHook := fun _ _ m => m }
  arrays := twoArrays
  newGenerator _ := 0
  newOuter _ := 0
  closureOf _ _ := defaultClosure
  hook_callsstack _ _ _ := rfl

/-- A metamethod runs, and the stack has 8 slots. -/
def inMetamethod : Machine (Bool × List SQObject) where
  vm := { (default : SQVM) with nmetamethodscall := 1, stack := ⟨0, 8, 8⟩ }
  heap := default

/-- With the right number of arguments `EnterFrame` fails. -/
theorem not_startsByCount : ¬∀ (ρ : Type) (env : CallEnv ρ) (closure : SQObject) (c : SQClosure)
    (target args stackbase : Int) (m : Machine ρ),
    StartsByCount env closure c target args stackbase m := by
  intro h
  have haccepts : Accepts defaultClosure 2 := by
    unfold Accepts
    decide
  have hstarts := (h _ smallEnv .ofNull defaultClosure (-1) 2 0 inMetamethod).mpr haccepts
  have hcan := ((startCall_isSome fun ht => Bool.noConfusion ht).mp hstarts).2
  rcases hcan with hzero | hfits
  · cases hzero
  · exact absurd hfits (by decide)

end Sqnim.Bytecode.StartCall
