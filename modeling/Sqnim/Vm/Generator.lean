import Sqnim.Vm.Execute

/-!
# Generators over a run

A generator's frame is taken apart by `Yield` and put together again by `Resume`, at another base
and perhaps in another thread. A run of the program is the sequence of what happens to its
generators, with any other code in between.
-/
namespace Sqnim.Vm

open Sqnim.Object
open SQObjectType

variable {ρ : Type}

def newGenerator (closure : SQObject) : SQGenerator where
  closure
  stack := []
  ci := { (default : CallInfo) with generator := none }
  etraps := []
  state := .eRunning

namespace Machine

variable (P : Platform ρ) (m : Machine ρ)

/-- `_OP_YIELD` up to the call of `Yield`. -/
def beforeYield (arg1 : Int) : Machine ρ :=
  let m' : Machine ρ := if arg1 ≠ Compiler.maxFuncStacksize then
    { m with vm := { m.vm with tempReg := m.stk arg1 } } else m
  m'.closeOuters m'.vm.stackbase

/-- `Resume` after the frame is entered at `newbase`, up to the debug hook. -/
def restoreFrame (g : Addr) (target newbase : Int) : Machine ρ :=
  let gen := m.heap.generators g
  let m' := m.updateCi (restoreCi g target gen.ci)
  let n := gen.ci.etraps.toNat
  let m' : Machine ρ := { m' with vm := { m'.vm with
    etraps := ((gen.etraps.take n).map (shiftTrap newbase)).reverse ++ m'.vm.etraps } }
  let m' := m'.fillFrame newbase gen.stack (m'.restoreThis (gen.stack.headD .ofNull))
  m'.setGenerator g
    { gen with
      stack := gen.stack.take 1 ++ List.replicate (gen.stack.length - 1) .ofNull
      etraps := gen.etraps.drop n
      state := .eRunning }

/-- The frame that `Resume` makes of a suspended generator, if it can be entered. -/
def resumedFrame (g : Addr) (target : Int) : Option (Machine ρ) :=
  match (m.heap.generators g).state with
  | .eSuspended =>
    match m.enterFrame P m.vm.top (m.vm.top + (m.heap.generators g).stack.length) false with
    | (none, _) => none
    | (some (), m') => some (m'.restoreFrame g target m.vm.top)
  | _ => none

end Machine

namespace Generator

/-! ## Runs -/

/-- A frame as it stood when it yielded, the stack size that the yield recorded, and what
`GetWeakRef` handed out for `this`. -/
structure Yielded (ρ : Type) where
  machine : Machine ρ
  target : Int
  weakref : Addr

/-- A thread, and for each generator its last yield. -/
structure History (ρ : Type) where
  machine : Machine ρ
  last : Addr → Option (Yielded ρ)

/-- A suspended generator holds its `this` through the weak reference. -/
def Held (m : Machine ρ) (w : Addr) : Prop :=
  ∃ g, (m.heap.generators g).state = .eSuspended ∧
    (m.heap.generators g).stack.head? = some (weakRefObject w)

/-- Only `SQGenerator` touches the fields of a generator, and a weak reference changes only when its
object dies. -/
structure LeavesGenerators (m m' : Machine ρ) : Prop where
  generators : m'.heap.generators = m.heap.generators
  weakrefs : ∀ w, Held m w →
    m'.heap.weakrefs w = m.heap.weakrefs w ∨ m'.heap.weakrefs w = .ofNull

/-- Where `Yield` copies the slots of a frame and pops its traps, they are there; `GetWeakRef` hands
out the weak reference of the object, or a new one. -/
structure CanYield (P : Platform ρ) (m : Machine ρ) (target : Int) : Prop where
  size : 0 < m.vm.top - m.vm.stackbase
  target_le : target ≤ m.vm.top - m.vm.stackbase
  traps : ∀ c ∈ m.ci, 0 ≤ c.etraps ∧ c.etraps ≤ m.vm.etraps.length
  weakref : (m.stk 0).type.isRefCounted = true →
    m.heap.weakrefs (P.weakRefOf m.heap (m.stk 0)) = m.stk 0 ∨
      ¬Held m (P.weakRefOf m.heap (m.stk 0))

/-- What happens to the generators of a program. A call of a generator function yields at once. Any
code runs in between, also that of other threads. -/
inductive Run (P : Platform ρ) : History ρ → Prop
  | init {m : Machine ρ} : (∀ g, (m.heap.generators g).state ≠ .eSuspended) →
      Run P ⟨m, fun _ => none⟩
  | other {h : History ρ} {m' : Machine ρ} : Run P h → LeavesGenerators h.machine m' →
      Run P { h with machine := m' }
  | start {h : History ρ} {g : Addr} {closure : SQObject} {stacksize : Int} {m' : Machine ρ} :
      Run P h → CanYield P (h.machine.setGenerator g (newGenerator closure)) stacksize →
      (h.machine.setGenerator g (newGenerator closure)).yieldGenerator P g stacksize =
        (some (), m') →
      Run P ⟨m', Function.update h.last g (some ⟨h.machine, stacksize, P.weakRefOf
        (h.machine.setGenerator g (newGenerator closure)).heap (h.machine.stk 0)⟩)⟩
  | yield {h : History ρ} {g : Addr} {arg1 target : Int} {m' : Machine ρ} :
      Run P h → CanYield P (h.machine.beforeYield arg1) target →
      (h.machine.beforeYield arg1).yieldGenerator P g target = (some (), m') →
      Run P ⟨m', Function.update h.last g (some ⟨h.machine, target, P.weakRefOf
        (h.machine.beforeYield arg1).heap (h.machine.stk 0)⟩)⟩
  | resume {h : History ρ} {g : Addr} {target : Int} {m' : Machine ρ} :
      Run P h → h.machine.resumedFrame P g target = some m' → Run P { h with machine := m' }
  | kill {h : History ρ} {g : Addr} : Run P h →
      Run P { h with machine := h.machine.killGenerator g }

/-! ## Frames leave generators alone -/

structure SameFrame (m m' : Machine ρ) : Prop where
  slots : ∀ n, m'.stk n = m.stk n
  callsstack : m'.vm.callsstack = m.vm.callsstack
  etraps : m'.vm.etraps = m.vm.etraps
  stackbase : m'.vm.stackbase = m.vm.stackbase
  top : m'.vm.top = m.vm.top

/-- The value to yield is set aside and the captured variables are closed: the frame is as the
instruction found it. -/
theorem beforeYield_frame (m : Machine ρ) (arg1 : Int) : SameFrame m (m.beforeYield arg1) := by
  have hclose : ∀ m' : Machine ρ, SameFrame m m' → SameFrame m (m'.closeOuters m'.vm.stackbase) := by
    intro m' h
    obtain ⟨hvm, hheap⟩ := Machine.closeOuters_same m' m'.vm.stackbase
    constructor
    · intro n
      rw [← h.slots n]
      simp only [Machine.stk, Machine.slot]
      rw [hvm, hheap]
    · rw [hvm, ← h.callsstack]
    · rw [hvm, ← h.etraps]
    · rw [hvm, ← h.stackbase]
    · rw [hvm, ← h.top]
  unfold Machine.beforeYield
  split
  · exact hclose _ ⟨fun _ => rfl, rfl, rfl, rfl, rfl⟩
  · exact hclose _ ⟨fun _ => rfl, rfl, rfl, rfl, rfl⟩

theorem beforeYield_heap (m : Machine ρ) (arg1 : Int) :
    (m.beforeYield arg1).heap = { m.heap with outers := (m.beforeYield arg1).heap.outers } := by
  unfold Machine.beforeYield
  split
  · exact (Machine.closeOuters_same ..).heap
  · exact (Machine.closeOuters_same ..).heap

/-- What a frame entered at `newbase` leaves as it was. -/
structure Entered (m m' : Machine ρ) (newbase : Int) : Prop where
  callsstack : m'.vm.callsstack = m.newCallInfo newbase :: m.vm.callsstack
  etraps : m'.vm.etraps = m.vm.etraps
  stackbase : m'.vm.stackbase = newbase
  generators : m'.heap.generators = m.heap.generators
  weakrefs : m'.heap.weakrefs = m.heap.weakrefs

theorem openFrame_entered (P : Platform ρ) (m : Machine ρ) (newbase newtop : Int) :
    Entered m (m.openFrame P newbase newtop false) newbase := by
  unfold Machine.openFrame Machine.pushCallInfo
  split
  · cases ‹false = true›
  · split
    · exact ⟨rfl, rfl, rfl, rfl, rfl⟩
    · exact ⟨rfl, rfl, rfl, rfl, rfl⟩

/-- `EnterFrame` leaves the frame it opened also where it returns false. -/
theorem enterFrame_callsstack (P : Platform ρ) (m : Machine ρ) (newbase newtop : Int) :
    (m.enterFrame P newbase newtop false).2.vm.callsstack =
      m.newCallInfo newbase :: m.vm.callsstack := by
  have ho := openFrame_entered P m newbase newtop
  simp only [Machine.enterFrame]
  split
  · split
    · exact ho.callsstack
    · exact ho.callsstack
  · exact ho.callsstack

theorem enterFrame_entered {P : Platform ρ} {m m' : Machine ρ} {newbase newtop : Int}
    (h : m.enterFrame P newbase newtop false = (some (), m')) : Entered m m' newbase := by
  have ho := openFrame_entered P m newbase newtop
  simp only [Machine.enterFrame] at h
  split at h
  · split at h
    · cases h
    · obtain rfl := congrArg Prod.snd h
      exact ⟨ho.callsstack, ho.etraps, ho.stackbase, ho.generators, ho.weakrefs⟩
  · obtain rfl := congrArg Prod.snd h
    exact ho

/-! ## What a suspended generator holds -/

structure Stored (y : Yielded ρ) (m : Machine ρ) (gen : SQGenerator) : Prop where
  slots : ∀ n : Nat, 1 ≤ n → (n : Int) < y.target → gen.stack[n]? = some (y.machine.stk n)
  this : gen.stack.head? = some (if (y.machine.stk 0).type.isRefCounted then
    weakRefObject y.weakref else y.machine.stk 0)
  alive : (y.machine.stk 0).type.isRefCounted = true →
    m.heap.weakrefs y.weakref = y.machine.stk 0 ∨ m.heap.weakrefs y.weakref = .ofNull
  frame : ∃ c, y.machine.ci = some c ∧ gen.ci = { c with generator := none } ∧
    c.etraps.toNat ≤ y.machine.vm.etraps.length ∧
    gen.etraps.take c.etraps.toNat = ((y.machine.popTraps c.etraps).1.map
      (Machine.shiftTrap (-y.machine.vm.stackbase))).reverse

/-- What a generator holds matters only through the weak reference of its `this`. -/
theorem Stored.congr {y : Yielded ρ} {m m' : Machine ρ} {gen : SQGenerator} (h : Stored y m gen)
    (hweak : gen.stack.head? = some (weakRefObject y.weakref) →
      m'.heap.weakrefs y.weakref = m.heap.weakrefs y.weakref ∨
        m'.heap.weakrefs y.weakref = .ofNull) : Stored y m' gen := by
  refine ⟨h.slots, h.this, fun href => ?_, h.frame⟩
  have hhead := h.this
  rw [if_pos href] at hhead
  rcases hweak hhead with heq | hnull
  · rw [heq]
    exact h.alive href
  · exact .inr hnull

/-- Every suspended generator holds the frame of its last yield. -/
def Faithful (h : History ρ) : Prop :=
  ∀ g, (h.machine.heap.generators g).state = .eSuspended →
    ∃ y, h.last g = some y ∧ Stored y h.machine (h.machine.heap.generators g)

section Yield

variable {P : Platform ρ}

theorem savedStack_getElem? (m : Machine ρ) (gen : SQGenerator) (this : SQObject) (target : Int)
    {n : Nat} (hn : 1 ≤ n) (ht : (n : Int) < target) (hle : target ≤ m.vm.top - m.vm.stackbase) :
    (m.savedStack gen this target)[n]? = some (m.stk n) := by
  unfold Machine.savedStack
  rw [List.getElem?_map, List.getElem?_range (by omega), Option.map_some, if_neg (by omega),
    if_pos ht]

theorem savedStack_head? (m : Machine ρ) (gen : SQGenerator) (this : SQObject) (target : Int)
    (hsize : 0 < m.vm.top - m.vm.stackbase) :
    (m.savedStack gen this target).head? = some this := by
  obtain ⟨k, hk⟩ : ∃ k, (m.vm.top - m.vm.stackbase).toNat = k + 1 :=
    ⟨(m.vm.top - m.vm.stackbase).toNat - 1, by omega⟩
  unfold Machine.savedStack
  rw [hk, List.range_succ_eq_map]
  rfl

/-- The machine after a `Yield`, and the weak reference it took. -/
structure Yields (P : Platform ρ) (m m' : Machine ρ) (g : Addr) (target : Int) : Prop where
  frame : ∃ c, m.ci = some c ∧ m'.heap.generators = Function.update m.heap.generators g
    { m.heap.generators g with
      stack := m.savedStack (m.heap.generators g) (m.saveThis P (m.stk 0)).1 target
      ci := { c with generator := none }
      etraps := ((m.popTraps c.etraps).1.map (Machine.shiftTrap (-m.vm.stackbase))).reverse ++
        (m.heap.generators g).etraps
      state := .eSuspended }
  weakrefs : m'.heap.weakrefs = (m.saveThis P (m.stk 0)).2.weakrefs

theorem yieldGenerator_yields {m m' : Machine ρ} {g : Addr} {target : Int}
    (h : m.yieldGenerator P g target = (some (), m')) : Yields P m m' g target := by
  have hgenerators : (m.saveThis P (m.stk 0)).2.generators = m.heap.generators := by
    unfold Machine.saveThis
    split <;> rfl
  unfold Machine.yieldGenerator at h
  cases hstate : (m.heap.generators g).state with
  | eSuspended =>
    simp only [hstate] at h
    cases h
  | eDead =>
    simp only [hstate] at h
    cases h
  | eRunning =>
    cases hcs : m.vm.callsstack with
    | nil =>
      simp only [hstate, hcs] at h
      cases h
    | cons c cs =>
      simp only [hstate, hcs] at h
      obtain rfl := congrArg Prod.snd h
      refine ⟨⟨c, ?_, ?_⟩, rfl⟩
      · rw [Machine.ci, hcs]
        rfl
      · show Function.update (m.saveThis P (m.stk 0)).2.generators g _ = _
        rw [hgenerators]

theorem Yields.stored {m m' : Machine ρ} {g : Addr} {target : Int}
    (h : Yields P m m' g target) (hcan : CanYield P m target)
    {y : Yielded ρ} (hsame : SameFrame y.machine m) (htarget : y.target = target)
    (hweak : y.weakref = P.weakRefOf m.heap (m.stk 0)) :
    Stored y m' (m'.heap.generators g) := by
  obtain ⟨c, hc, hgenerators⟩ := h.frame
  rw [hgenerators, Function.update_self]
  have hci : y.machine.ci = m.ci := by rw [Machine.ci, Machine.ci, hsame.callsstack]
  refine ⟨fun n hn ht => ?_, ?_, fun href => ?_, c, hci.trans hc, rfl, ?_, ?_⟩
  · rw [htarget] at ht
    rw [← hsame.slots]
    exact savedStack_getElem? m _ _ target hn ht hcan.target_le
  · show (m.savedStack _ _ _).head? = _
    rw [savedStack_head? m _ _ _ hcan.size, ← hsame.slots, hweak, Machine.saveThis]
    split <;> rfl
  · rw [← hsame.slots] at href ⊢
    rw [h.weakrefs, hweak, Machine.saveThis, if_pos href]
    exact .inl (Function.update_self ..)
  · have htraps := hcan.traps c hc
    rw [← hsame.etraps]
    omega
  · show (_ ++ _ : List SQExceptionTrap).take _ = _
    obtain ⟨hnonneg, hle⟩ := hcan.traps c hc
    rw [List.take_append_of_le_length, List.take_of_length_le]
    · simp only [Machine.popTraps, hsame.etraps, hsame.stackbase]
    all_goals
      simp only [Machine.popTraps, List.length_reverse, List.length_map, List.length_take]
      omega

/-- The weak reference that `Yield` takes for a generator is no other generator's, or it refers to
that object already. -/
theorem Yields.weakref_of_held {m m' : Machine ρ} {g : Addr} {target : Int}
    (h : Yields P m m' g target) (hcan : CanYield P m target) {w : Addr} (hw : Held m w) :
    m'.heap.weakrefs w = m.heap.weakrefs w := by
  rw [h.weakrefs, Machine.saveThis]
  split
  · next href =>
    show Function.update m.heap.weakrefs _ _ w = _
    by_cases heq : w = P.weakRefOf m.heap (m.stk 0)
    · rcases hcan.weakref href with hsame | hfree
      · rw [heq, Function.update_self, hsame]
      · exact absurd (heq ▸ hw) hfree
    · exact Function.update_of_ne heq ..
  · rfl

theorem Faithful.yields {h : History ρ} (hf : Faithful h) {m m' : Machine ρ} {g : Addr}
    {target : Int} (hy : Yields P m m' g target) (hcan : CanYield P m target)
    (hothers : ∀ g' ≠ g, m.heap.generators g' = h.machine.heap.generators g')
    (hweakrefs : m.heap.weakrefs = h.machine.heap.weakrefs) {y : Yielded ρ}
    (hsame : SameFrame y.machine m) (htarget : y.target = target)
    (hweak : y.weakref = P.weakRefOf m.heap (m.stk 0)) :
    Faithful ⟨m', Function.update h.last g (some y)⟩ := by
  intro g' hsusp
  by_cases heq : g' = g
  · rw [heq]
    exact ⟨y, Function.update_self .., hy.stored hcan hsame htarget hweak⟩
  · obtain ⟨c, -, hgenerators⟩ := hy.frame
    have hgen : m'.heap.generators g' = h.machine.heap.generators g' := by
      rw [hgenerators, Function.update_of_ne heq, hothers g' heq]
    obtain ⟨y', hlast, hstored⟩ := hf g' (hgen ▸ hsusp)
    refine ⟨y', (Function.update_of_ne heq ..).trans hlast, ?_⟩
    show Stored y' m' (m'.heap.generators g')
    rw [hgen]
    refine hstored.congr fun hhead => .inl ?_
    have hheld : Held m y'.weakref := ⟨g', by rw [hothers g' heq]; exact hgen ▸ hsusp, by
      rw [hothers g' heq]
      exact hhead⟩
    rw [hy.weakref_of_held hcan hheld, hweakrefs]

theorem Faithful.update {h : History ρ} (hf : Faithful h) {m' : Machine ρ} {g : Addr}
    {gen : SQGenerator} (hgen : m'.heap.generators = Function.update h.machine.heap.generators g gen)
    (hstate : gen.state ≠ .eSuspended) (hweakrefs : m'.heap.weakrefs = h.machine.heap.weakrefs) :
    Faithful { h with machine := m' } := by
  intro g' hsusp
  show ∃ y, h.last g' = some y ∧ Stored y m' (m'.heap.generators g')
  replace hsusp : (m'.heap.generators g').state = .eSuspended := hsusp
  rw [hgen] at hsusp ⊢
  by_cases heq : g' = g
  · rw [heq, Function.update_self] at hsusp
    exact absurd hsusp hstate
  · rw [Function.update_of_ne heq] at hsusp ⊢
    obtain ⟨y, hlast, hstored⟩ := hf g' hsusp
    exact ⟨y, hlast, hstored.congr fun _ => .inl (by rw [hweakrefs])⟩

end Yield

/-! ## Resume -/

section Resume

variable {P : Platform ρ}

/-- `Resume` enters a frame at the top of the stack and fills it from the generator. -/
theorem resumedFrame_some {m m' : Machine ρ} {g : Addr} {target : Int}
    (h : m.resumedFrame P g target = some m') :
    (m.heap.generators g).state = .eSuspended ∧ ∃ m₁, Entered m m₁ m.vm.top ∧
      m' = m₁.restoreFrame g target m.vm.top := by
  unfold Machine.resumedFrame at h
  cases hstate : (m.heap.generators g).state with
  | eDead =>
    simp only [hstate] at h
    cases h
  | eRunning =>
    simp only [hstate] at h
    cases h
  | eSuspended =>
    simp only [hstate] at h
    split at h
    · cases h
    · next m₁ henter => exact ⟨rfl, m₁, enterFrame_entered henter, (Option.some.inj h).symm⟩

theorem generators_restoreFrame (m : Machine ρ) (g : Addr) (target newbase : Int) :
    ∃ gen, (m.restoreFrame g target newbase).heap.generators =
      Function.update m.heap.generators g gen ∧ gen.state = .eRunning := ⟨_, rfl, rfl⟩

/-- In every run, suspended generators hold the frames of their last yields. -/
theorem Run.faithful {h : History ρ} (hrun : Run P h) : Faithful h := by
  induction hrun with
  | init hnone => exact fun g hsusp => absurd hsusp (hnone g)
  | @other h m' _ hleaves ih =>
    intro g hsusp
    show ∃ y, h.last g = some y ∧ Stored y m' (m'.heap.generators g)
    replace hsusp : (m'.heap.generators g).state = .eSuspended := hsusp
    rw [hleaves.generators] at hsusp ⊢
    obtain ⟨y, hlast, hstored⟩ := ih g hsusp
    exact ⟨y, hlast, hstored.congr fun hhead => hleaves.weakrefs _ ⟨g, hsusp, hhead⟩⟩
  | start _ hcan hyield ih =>
    refine ih.yields (yieldGenerator_yields hyield) hcan (fun g' hne => ?_) rfl
      ⟨fun _ => rfl, rfl, rfl, rfl, rfl⟩ rfl rfl
    exact Function.update_of_ne hne ..
  | @yield h _ arg1 _ _ _ hcan hyield ih =>
    have hframe := beforeYield_frame h.machine arg1
    have hheap := beforeYield_heap h.machine arg1
    refine ih.yields (yieldGenerator_yields hyield) hcan (fun g' _ => ?_) ?_ hframe rfl ?_
    · rw [hheap]
    · rw [hheap]
    · rw [hframe.slots]
  | resume _ hresume ih =>
    obtain ⟨-, m₁, hentered, rfl⟩ := resumedFrame_some hresume
    obtain ⟨gen, hgen, hstate⟩ := generators_restoreFrame m₁ _ _ _
    refine ih.update (hgen.trans (by rw [hentered.generators])) (by rw [hstate]; nofun) ?_
    exact hentered.weakrefs
  | kill _ ih => exact ih.update rfl nofun rfl

/-- A resumed frame is the frame of the last yield: its slots, its instruction, its traps and its
`this`, at a new base and above the same frames. -/
structure Restored (y : Yielded ρ) (g : Addr) (m m' : Machine ρ) : Prop where
  below : m'.vm.callsstack.tail = m.vm.callsstack
  stackbase : m'.vm.stackbase = m.vm.top
  slots : ∀ n : Int, 1 ≤ n → n < y.target → m'.stk n = y.machine.stk n
  this : m'.stk 0 = y.machine.stk 0 ∨
    (y.machine.stk 0).type.isRefCounted = true ∧ m.heap.weakrefs y.weakref = .ofNull ∧
      m'.stk 0 = .ofNull
  frame : ∃ c c', y.machine.ci = some c ∧ m'.ci = some c' ∧ c'.generator = some g ∧
    c'.ip = c.ip ∧ c'.closure = c.closure ∧ c'.etraps = c.etraps ∧
    m'.popTraps c.etraps = ((y.machine.popTraps c.etraps).1.map
      (Machine.shiftTrap (m'.vm.stackbase - y.machine.vm.stackbase)), m.vm.etraps)

theorem shiftTrap_shiftTrap (d e : Int) (t : SQExceptionTrap) :
    Machine.shiftTrap d (Machine.shiftTrap (-e) t) = Machine.shiftTrap (d - e) t := by
  simp only [Machine.shiftTrap, SQExceptionTrap.mk.injEq, and_true]
  omega

theorem stk_restoreFrame (m : Machine ρ) (g : Addr) (target n : Int) :
    (m.restoreFrame g target m.vm.stackbase).stk n =
      if n = 0 then m.restoreThis ((m.heap.generators g).stack.headD .ofNull)
      else if 0 < n ∧ n < (m.heap.generators g).stack.length then
        (m.heap.generators g).stack.getD n.toNat .ofNull
      else m.stk n := by
  show Function.update m.heap.cells m.vm.stack.vals _ m.vm.stack.vals (m.vm.stackbase + n) = _
  rw [Function.update_self]
  by_cases hn : n = 0
  · rw [if_pos hn, if_pos (by omega)]
    rfl
  · rw [if_neg hn, if_neg (by omega)]
    by_cases hin : 0 < n ∧ n < (m.heap.generators g).stack.length
    · rw [if_pos hin, if_pos (by omega)]
      congr 2
      omega
    · rw [if_neg hin, if_neg (by omega)]
      rfl

theorem Stored.restored {y : Yielded ρ} {m m₁ : Machine ρ} {g : Addr} {target : Int}
    (h : Stored y m (m.heap.generators g)) (hentered : Entered m m₁ m.vm.top) :
    Restored y g m (m₁.restoreFrame g target m.vm.top) := by
  obtain ⟨c, hc, hci, hle, htraps⟩ := h.frame
  have hgen : m₁.heap.generators g = m.heap.generators g := by rw [hentered.generators]
  have hstk := stk_restoreFrame m₁ g target
  rw [hentered.stackbase, hgen] at hstk
  have hetraps : (m₁.restoreFrame g target m.vm.top).vm.etraps =
      (y.machine.popTraps c.etraps).1.map (Machine.shiftTrap
        (m.vm.top - y.machine.vm.stackbase)) ++ m.vm.etraps := by
    show ((((m₁.heap.generators g).etraps.take
      (m₁.heap.generators g).ci.etraps.toNat).map _).reverse ++ m₁.vm.etraps : List _) = _
    rw [hgen, hci, hentered.etraps]
    show (((m.heap.generators g).etraps.take c.etraps.toNat).map _).reverse ++ _ = _
    rw [htraps, List.map_reverse, List.reverse_reverse, List.map_map]
    simp only [Function.comp_def, shiftTrap_shiftTrap]
  constructor
  · show (m₁.updateCi _).vm.callsstack.tail = _
    rw [Machine.updateCi, hentered.callsstack]
    rfl
  · exact hentered.stackbase
  · intro n hn ht
    obtain ⟨k, rfl⟩ : ∃ k : Nat, n = k := ⟨n.toNat, by omega⟩
    have hslot := h.slots k (by omega) ht
    obtain ⟨hlt, -⟩ := List.getElem?_eq_some_iff.mp hslot
    rw [hstk, if_neg (by omega), if_pos ⟨by omega, by omega⟩, Int.toNat_natCast,
      List.getD_eq_getElem?_getD, hslot]
    rfl
  · rw [hstk, if_pos rfl, List.headD_eq_head?_getD, h.this]
    show m₁.restoreThis _ = _ ∨ _
    by_cases href : (y.machine.stk 0).type.isRefCounted = true
    · rw [if_pos href]
      show m₁.heap.weakrefs y.weakref = _ ∨ _ ∧ _ ∧ m₁.heap.weakrefs y.weakref = _
      rw [hentered.weakrefs]
      rcases h.alive href with halive | hnull
      · exact .inl halive
      · exact .inr ⟨href, hnull, hnull⟩
    · rw [if_neg href]
      left
      refine if_neg fun hweak => href ?_
      replace hweak : (y.machine.stk 0).type = otWeakRef := hweak
      rw [hweak]
      rfl
  · refine ⟨c, Machine.restoreCi g target (m.heap.generators g).ci (m.newCallInfo m.vm.top), hc, ?_,
      rfl, ?_, ?_, ?_, ?_⟩
    · show (m₁.updateCi _).ci = _
      rw [Machine.ci, Machine.updateCi, hentered.callsstack, hgen]
      rfl
    · rw [hci]
      rfl
    · rw [hci]
      rfl
    · rw [hci]
      rfl
    · have hlen : ((y.machine.popTraps c.etraps).1.map (Machine.shiftTrap
          (m.vm.top - y.machine.vm.stackbase))).length = c.etraps.toNat := by
        simp only [Machine.popTraps, List.length_map, List.length_take]
        omega
      rw [Machine.popTraps, hetraps, List.take_left' hlen, List.drop_left' hlen]
      rw [show (m₁.restoreFrame g target m.vm.top).vm.stackbase = m.vm.top from
        hentered.stackbase]

end Resume

end Generator
end Sqnim.Vm
