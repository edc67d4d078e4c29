import Sqnim.Vm.State

/-!
# Frames, captured variables and generators

`EnterFrame`, `LeaveFrame`, `FindOuter`, `CloseOuters`, `Return`, and the two halves of a
generator. A function that reports failure through its result is a `Call`.
-/
namespace Sqnim.Vm

open Sqnim.Object
open SQObjectType

variable {ρ : Type}

/-- A function that returns its out-parameter, or nothing where it returns false. -/
abbrev Call (ρ α : Type) := Machine ρ → Option α × Machine ρ

/-- What the functions of this file use of the rest of the program: the string table, where the
allocator moves a stack or a call stack to, the weak reference that an object hands out, and the
debug hook. -/
structure Platform (ρ : Type) where
  newString : String → SQObject
  realloc : Heap ρ → Nat → Int → Nat
  reallocCalls : Machine ρ → Nat
  weakRefOf : Heap ρ → SQObject → Addr
  callDebugHook : Char → Int → Machine ρ → Machine ρ
  deriving Inhabited

namespace SlotAddr

/-- The order of raw addresses. -/
def le (p q : SlotAddr) : Bool := p.buffer < q.buffer || (p.buffer == q.buffer && p.idx ≤ q.idx)

end SlotAddr

def generatorObject (g : Addr) : SQObject := ⟨otGenerator, g⟩

def outerObject (p : Addr) : SQObject := ⟨otOuter, p⟩

def weakRefObject (w : Addr) : SQObject := ⟨otWeakRef, w⟩

namespace Machine

variable (P : Platform ρ) (m : Machine ρ)

def raiseError (text : String) : Machine ρ :=
  { m with vm := { m.vm with lasterror := P.newString text } }

def addrOf (i : Int) : SlotAddr := ⟨m.vm.stack.vals, i⟩

def read (p : SlotAddr) : SQObject := m.heap.cells p.buffer p.idx

def setOuter (p : Addr) (o : SQOuter) : Machine ρ :=
  { m with heap := { m.heap with outers := Function.update m.heap.outers p o } }

def setGenerator (g : Addr) (o : SQGenerator) : Machine ρ :=
  { m with heap := { m.heap with generators := Function.update m.heap.generators g o } }

/-- The slots from `lo` to `hi` become null. -/
def nullSlots (lo hi : Int) : Machine ρ :=
  { m with heap := { m.heap with
      cells := Function.update m.heap.cells m.vm.stack.vals fun i =>
        if lo ≤ i ∧ i ≤ hi then .ofNull else m.slot i } }

/-- `_stack.resize` to a larger size. The new slots are null. -/
def resizeStack (newsize : Int) : Machine ρ :=
  let s := m.vm.stack
  let vals := if s.allocated < newsize then P.realloc m.heap s.vals newsize else s.vals
  { vm := { m.vm with stack := ⟨vals, newsize, max s.allocated newsize⟩ }
    heap := { m.heap with
      cells := Function.update m.heap.cells vals fun i =>
        if s.size ≤ i then .ofNull else m.slot i } }

def relocateOuter (o : SQOuter) : SQOuter := { o with valptr := .slot (m.addrOf o.idx) }

def relocateOuters : Machine ρ :=
  { m with heap := { m.heap with outers := fun p =>
      if p ∈ m.vm.openouters then m.relocateOuter (m.heap.outers p) else m.heap.outers p } }

/-- The value an outer stands for. -/
def outerValue (o : SQOuter) : SQObject :=
  match o.valptr with
  | .slot q => m.read q
  | .own => o.value

/-- `*(otr->_valptr) = v`. -/
def assignOuter (p : Addr) (v : SQObject) : Machine ρ :=
  match (m.heap.outers p).valptr with
  | .slot q => { m with heap := { m.heap with
      cells := Function.update m.heap.cells q.buffer
        (Function.update (m.heap.cells q.buffer) q.idx v) } }
  | .own => m.setOuter p { m.heap.outers p with value := v }

/-- The walk of `CloseOuters` along the open outers that are left. -/
def closeOutersFrom (limit : SlotAddr) : List Addr → Machine ρ → Machine ρ
  | [], m => { m with vm := { m.vm with openouters := [] } }
  | p :: ps, m =>
    match (m.heap.outers p).valptr with
    | .slot q =>
      if limit.le q then
        closeOutersFrom limit ps
          (m.setOuter p { m.heap.outers p with value := m.read q, valptr := .own })
      else { m with vm := { m.vm with openouters := p :: ps } }
    | .own => { m with vm := { m.vm with openouters := p :: ps } }

def closeOuters (i : Int) : Machine ρ :=
  m.closeOutersFrom (m.addrOf i) m.vm.openouters

/-- The walk of `FindOuter`: the outer of the slot, or the outers above it and those below. -/
def searchOuter (s : SlotAddr) (above : List Addr) : List Addr → Sum Addr (List Addr × List Addr)
  | [] => .inr (above, [])
  | p :: ps =>
    match (m.heap.outers p).valptr with
    | .slot q =>
      if s.le q then
        if q = s then .inl p else searchOuter s (above ++ [p]) ps
      else .inr (above, p :: ps)
    | .own => .inr (above, p :: ps)

/-- `FindOuter`; `fresh` is the address of the outer that it creates. -/
def findOuter (fresh : Addr) (i : Int) : Addr × Machine ρ :=
  match m.searchOuter (m.addrOf i) [] m.vm.openouters with
  | .inl p => (p, m)
  | .inr (above, below) =>
    let m' := m.setOuter fresh ⟨.slot (m.addrOf i), i, .ofNull⟩
    (fresh, { m' with vm := { m'.vm with openouters := above ++ fresh :: below } })

def growCallStack : Machine ρ :=
  { m with vm := { m.vm with
      callsAddr := P.reallocCalls m
      alloccallsstacksize := m.vm.alloccallsstacksize * 2 } }

/-- The record that `EnterFrame` pushes. Its `_ip`, `_closure` and `_target` are set by the caller. -/
def newCallInfo (newbase : Int) : CallInfo where
  ip := 0
  closure := .ofNull
  generator := none
  etraps := 0
  prevstkbase := newbase - m.vm.stackbase
  prevtop := m.vm.top - m.vm.stackbase
  target := 0
  ncalls := 1
  root := false

def pushCallInfo (newbase : Int) : Machine ρ :=
  let m' := if m.vm.callsstack.length = m.vm.alloccallsstacksize then m.growCallStack P else m
  { m' with vm := { m'.vm with callsstack := m.newCallInfo newbase :: m.vm.callsstack } }

/-- The frame that `EnterFrame` opens, or the one it reuses for a tail call. -/
def openFrame (newbase newtop : Int) (tailcall : Bool) : Machine ρ :=
  let m' := if tailcall then m.updateCi fun c => { c with ncalls := c.ncalls + 1 }
    else m.pushCallInfo P newbase
  { m' with vm := { m'.vm with stackbase := newbase, top := newtop } }

def enterFrame (newbase newtop : Int) (tailcall : Bool) : Option Unit × Machine ρ :=
  let m' := m.openFrame P newbase newtop tailcall
  if m'.vm.stack.size < newtop + minStackOverhead then
    if m'.vm.nmetamethodscall ≠ 0 then
      (none, m'.raiseError P "stack overflow, cannot resize stack while in a metamethod")
    else (some (), (m'.resizeStack P (newtop + minStackOverhead * 4)).relocateOuters)
  else (some (), m')

/-- The record popped, and the base and top it restores. -/
def popFrame : Machine ρ :=
  match m.vm.callsstack with
  | [] => m
  | c :: cs =>
    let stackbase := m.vm.stackbase - c.prevstkbase
    { m with vm := { m.vm with callsstack := cs, stackbase, top := stackbase + c.prevtop } }

def leaveFrame : Machine ρ :=
  let m' := m.popFrame
  (m'.closeOuters m.vm.stackbase).nullSlots m'.vm.top m.vm.top

/-- `SQGenerator::Kill`. -/
def killGenerator (g : Addr) : Machine ρ :=
  m.setGenerator g { m.heap.generators g with state := .eDead, stack := [], closure := .ofNull }

/-- The top `n` traps, in the order they are popped in, and the traps below. -/
def popTraps (n : Int) : List SQExceptionTrap × List SQExceptionTrap :=
  (m.vm.etraps.take n.toNat, m.vm.etraps.drop n.toNat)

def shiftTrap (d : Int) (t : SQExceptionTrap) : SQExceptionTrap :=
  { t with stackbase := t.stackbase + d, stacksize := t.stacksize + d }

/-- What a generator keeps for `this`: refcounted objects are held weakly. -/
def saveThis (o : SQObject) : SQObject × Heap ρ :=
  if o.type.isRefCounted then
    let w := P.weakRefOf m.heap o
    (weakRefObject w, { m.heap with weakrefs := Function.update m.heap.weakrefs w o })
  else (o, m.heap)

/-- The vector a generator keeps: `size` slots, of which the first `target` are the frame's and
any others are left over from its last run. -/
def savedStack (g : SQGenerator) (this : SQObject) (target : Int) : List SQObject :=
  (List.range (m.vm.top - m.vm.stackbase).toNat).map fun (n : Nat) =>
    if n = 0 then this
    else if (n : Int) < target then m.stk n
    else g.stack.getD n .ofNull

/-- `SQGenerator::Yield`. -/
def yieldGenerator (g : Addr) (target : Int) : Option Unit × Machine ρ :=
  let gen := m.heap.generators g
  match gen.state with
  | .eSuspended => (none, m.raiseError P "internal vm error, yielding dead generator")
  | .eDead => (none, m.raiseError P "internal vm error, yielding a dead generator")
  | .eRunning =>
    match m.vm.callsstack with
    | [] => (none, m)
    | c :: _ =>
      let (this, heap) := m.saveThis P (m.stk 0)
      let (popped, left) := m.popTraps c.etraps
      let m' : Machine ρ :=
        { heap, vm := { m.vm with etraps := left } }
      let m' := m'.nullSlots m.vm.stackbase (m.vm.top - 1)
      (some (), m'.setGenerator g
        { gen with
          stack := m.savedStack gen this target
          ci := { c with generator := none }
          etraps := (popped.map (shiftTrap (-m.vm.stackbase))).reverse ++ gen.etraps
          state := .eSuspended })

/-- The record that a resumed frame continues with. -/
def restoreCi (g : Addr) (target : Int) (saved c : CallInfo) : CallInfo :=
  { c with
    generator := some g
    target
    closure := saved.closure
    ip := saved.ip
    ncalls := saved.ncalls
    etraps := saved.etraps
    root := saved.root }

/-- `this` of a resumed frame. -/
def restoreThis (o : SQObject) : SQObject :=
  if o.type = otWeakRef then m.heap.weakrefs o.unVal else o

/-- The slots of the frame at `base` are filled from a generator's vector. -/
def fillFrame (base : Int) (saved : List SQObject) (this : SQObject) : Machine ρ :=
  { m with heap := { m.heap with
      cells := Function.update m.heap.cells m.vm.stack.vals fun i =>
        if i = base then this
        else if base < i ∧ i < base + saved.length then saved.getD (i - base).toNat .ofNull
        else m.slot i } }

/-- `SQGenerator::Resume`; `target` is where `dest` lies above the base of the frame. -/
def resumeGenerator (g : Addr) (target : Int) : Option Unit × Machine ρ :=
  let gen := m.heap.generators g
  match gen.state with
  | .eDead => (none, m.raiseError P "resuming dead generator")
  | .eRunning => (none, m.raiseError P "resuming active generator")
  | .eSuspended =>
    let newbase := m.vm.top
    match m.enterFrame P newbase (m.vm.top + gen.stack.length) false with
    | (none, m') => (none, m')
    | (some (), m') =>
      let m' := m'.updateCi (restoreCi g target gen.ci)
      let n := gen.ci.etraps.toNat
      let m' := { m' with vm := { m'.vm with
        etraps := ((gen.etraps.take n).map (shiftTrap newbase)).reverse ++ m'.vm.etraps } }
      let this := m'.restoreThis (gen.stack.headD .ofNull)
      let m' := m'.fillFrame newbase gen.stack this
      let m' := m'.setGenerator g
        { gen with
          stack := gen.stack.take 1 ++ List.replicate (gen.stack.length - 1) .ofNull
          etraps := gen.etraps.drop n
          state := .eRunning }
      (some (), if m'.vm.debughook then P.callDebugHook 'c' 0 m' else m')

/-- Where the value of a frame goes: `retval` in a root frame, no place, or a slot of the caller. -/
def returnValue (arg0 arg1 : Int) : SQObject :=
  if arg0 = 0xFF then .ofNull else m.stk arg1

def callReturnHooks : Nat → Machine ρ → Machine ρ
  | 0, m => m
  | n + 1, m => callReturnHooks n (P.callDebugHook 'r' 0 m)

/-- `Return`: whether the frame was a root, `retval`, and the state without the frame. -/
def returnFrame (arg0 arg1 : Int) (retval : SQObject) : Bool × SQObject × Machine ρ :=
  match m.vm.callsstack with
  | [] => (false, retval, m)
  | c :: _ =>
    let callerbase := m.vm.stackbase - c.prevstkbase
    let m' := if m.vm.debughook then m.callReturnHooks P c.ncalls.toNat else m
    if c.root then (true, m'.returnValue arg0 arg1, m'.leaveFrame)
    else if c.target = -1 then (false, retval, m'.leaveFrame)
    else (false, retval, (m'.setSlot (callerbase + c.target) (m'.returnValue arg0 arg1)).leaveFrame)

/-! ## Opening a frame -/

theorem openFrame_stack (newbase newtop : Int) (tailcall : Bool) :
    (m.openFrame P newbase newtop tailcall).vm.stack = m.vm.stack := by
  unfold openFrame pushCallInfo growCallStack
  split
  · rfl
  · split <;> rfl

theorem openFrame_nmetamethodscall (newbase newtop : Int) (tailcall : Bool) :
    (m.openFrame P newbase newtop tailcall).vm.nmetamethodscall = m.vm.nmetamethodscall := by
  unfold openFrame pushCallInfo growCallStack
  split
  · rfl
  · split <;> rfl

/-- A frame cannot be entered only where the stack would grow within a metamethod. -/
theorem enterFrame_none_iff (newbase newtop : Int) (tailcall : Bool) :
    (m.enterFrame P newbase newtop tailcall).1 = none ↔
      m.vm.nmetamethodscall ≠ 0 ∧ m.vm.stack.size < newtop + minStackOverhead := by
  unfold enterFrame
  simp only [openFrame_stack, openFrame_nmetamethodscall]
  split
  · next hs =>
    split
    · next hn => exact iff_of_true rfl ⟨hn, hs⟩
    · next hn => exact iff_of_false nofun fun h => hn h.1
  · next hs => exact iff_of_false nofun fun h => hs h.2

/-! ## Closing captured variables -/

/-- Only captured variables differ. -/
structure SameButOuters (m m' : Machine ρ) : Prop where
  vm : m'.vm = { m.vm with openouters := m'.vm.openouters }
  heap : m'.heap = { m.heap with outers := m'.heap.outers }

theorem SameButOuters.trans {m₁ m₂ m₃ : Machine ρ} (h : SameButOuters m₁ m₂)
    (h' : SameButOuters m₂ m₃) : SameButOuters m₁ m₃ := by
  constructor
  · rw [h'.vm, h.vm]
  · rw [h'.heap, h.heap]

theorem closeOutersFrom_same (limit : SlotAddr) (l : List Addr) (m : Machine ρ) :
    SameButOuters m (m.closeOutersFrom limit l) := by
  induction l generalizing m with
  | nil => exact ⟨rfl, rfl⟩
  | cons p ps ih =>
    unfold Machine.closeOutersFrom
    split
    · split
      · have hset : ∀ o, SameButOuters m (m.setOuter p o) := fun _ => ⟨rfl, rfl⟩
        exact (hset _).trans (ih _)
      · exact ⟨rfl, rfl⟩
    · exact ⟨rfl, rfl⟩

theorem closeOuters_same (m : Machine ρ) (i : Int) : SameButOuters m (m.closeOuters i) :=
  closeOutersFrom_same ..

end Machine
end Sqnim.Vm
