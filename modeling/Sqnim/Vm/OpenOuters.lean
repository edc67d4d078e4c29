import Sqnim.Vm.Frame

/-!
# Open captured variables and the stack

The variables that closures have captured are shared with the frames they belong to as long as
these live: an outer on the list `_openouters` of a thread points into the thread's stack. The
stack is a buffer that moves when it grows. A run is any sequence of what the threads of a program
do to captured variables and to their stacks, with any other code in between.
-/
namespace Sqnim.Vm

open Sqnim.Object

variable {ρ : Type}

def Machine.reserveStack (P : Platform ρ) (m : Machine ρ) (nsize : Nat) : Machine ρ :=
  if m.vm.stack.size < m.vm.top + nsize then
    if m.vm.nmetamethodscall ≠ 0 then
      m.raiseError P "cannot resize stack while in a metamethod"
    else m.resizeStack P (m.vm.stack.size + (m.vm.top + nsize - m.vm.stack.size))
  else m

namespace OpenOuters

/-- The threads of a program, and what they share. -/
structure System (ρ : Type) where
  threads : List SQVM
  heap : Heap ρ

/-- Other code neither opens nor closes a captured variable, nor does it move a stack. -/
structure LeavesOuters (s s' : System ρ) : Prop where
  threads : s'.threads.map (fun vm => (vm.stack.vals, vm.openouters)) =
    s.threads.map fun vm => (vm.stack.vals, vm.openouters)
  valptr : ∀ p, (s'.heap.outers p).valptr = (s.heap.outers p).valptr
  idx : ∀ p, (s'.heap.outers p).idx = (s.heap.outers p).idx

/-- What happens to captured variables and stacks. A frame is left by `Return`, by `CallNative` and
by `exception_trap`; variables are closed by `_OP_CLOSE`, by a tail call, by a yield, with a frame
and with a thread. -/
inductive Act (ρ : Type) where
  | newThread (vm : SQVM)
  | findOuter (t : Nat) (fresh : Addr) (i : Int)
  | closeOuters (t : Nat) (i : Int)
  | enterFrame (t : Nat) (newbase newtop : Int) (tailcall : Bool)
  | leaveFrame (t : Nat)
  | reserveStack (t : Nat) (nsize : Nat)
  | other (f : System ρ → System ρ) (hf : ∀ s, LeavesOuters s (f s))

namespace System

variable (s : System ρ)

/-- A thread does something; nothing happens where there is no such thread. -/
def onThread (t : Nat) (f : Machine ρ → Machine ρ) : System ρ :=
  match s.threads[t]? with
  | none => s
  | some vm => ⟨s.threads.set t (f ⟨vm, s.heap⟩).vm, (f ⟨vm, s.heap⟩).heap⟩

/-- The address of an outer that some thread has open is not handed out. -/
def inUse (p : Addr) : Bool := s.threads.any fun vm => vm.openouters.contains p

def act (P : Platform ρ) : Act ρ → System ρ
  | .newThread vm => { s with threads := s.threads ++ [{ vm with openouters := [] }] }
  | .findOuter t fresh i =>
    if s.inUse fresh then s else s.onThread t fun m => (m.findOuter fresh i).2
  | .closeOuters t i => s.onThread t fun m => m.closeOuters i
  | .enterFrame t newbase newtop tailcall =>
    s.onThread t fun m => (m.enterFrame P newbase newtop tailcall).2
  | .leaveFrame t => s.onThread t Machine.leaveFrame
  | .reserveStack t nsize => s.onThread t fun m => m.reserveStack P nsize
  | .other f _ => f s

def run (P : Platform ρ) (acts : List (Act ρ)) : System ρ := acts.foldl (fun s => s.act P) s

end System

/-- A program begins without threads and without captured variables. -/
def start (heap : Heap ρ) : System ρ where
  threads := []
  heap := { heap with outers := fun _ => ⟨.own, 0, .ofNull⟩ }

/-! ## What is to hold -/

/-- Each open outer of a thread refers to slot `_idx` of its stack, from the top down. -/
structure Live (heap : Heap ρ) (vm : SQVM) : Prop where
  points : ∀ p ∈ vm.openouters,
    (heap.outers p).valptr = .slot ⟨vm.stack.vals, (heap.outers p).idx⟩
  descending : vm.openouters.Pairwise fun p q => (heap.outers q).idx < (heap.outers p).idx

/-- And an outer that is not open holds its own value. -/
structure OutersLive (s : System ρ) : Prop where
  live : ∀ vm ∈ s.threads, Live s.heap vm
  closed : ∀ p, (∀ vm ∈ s.threads, p ∉ vm.openouters) → (s.heap.outers p).valptr = .own

/-- The stack moves while captured variables point into it. -/
def MovesStack (P : Platform ρ) (m : Machine ρ) (nsize : Nat) : Prop :=
  m.vm.openouters ≠ [] ∧ m.vm.nmetamethodscall = 0 ∧ m.vm.stack.size < m.vm.top + nsize ∧
    m.vm.stack.allocated < m.vm.top + nsize ∧
    P.realloc m.heap m.vm.stack.vals (m.vm.top + nsize) ≠ m.vm.stack.vals

/-- No variable is left pointing into the old stack. -/
def Act.KeepsPointers (P : Platform ρ) (s : System ρ) : Act ρ → Prop
  | .reserveStack t nsize => ∀ vm, s.threads[t]? = some vm → ¬MovesStack P ⟨vm, s.heap⟩ nsize
  | _ => True

/-! ## One thread -/

structure Effect (m m' : Machine ρ) (fresh : Option Addr) : Prop where
  live : Live m'.heap m'.vm
  opened : ∀ p ∈ m'.vm.openouters, p ∈ m.vm.openouters ∨ fresh = some p
  closed : ∀ p ∈ m.vm.openouters, p ∉ m'.vm.openouters → (m'.heap.outers p).valptr = .own
  others : ∀ p ∉ m.vm.openouters, p ∉ m'.vm.openouters → m'.heap.outers p = m.heap.outers p

theorem Effect.refl {m m' : Machine ρ} (h : Live m.heap m.vm)
    (houters : m'.heap.outers = m.heap.outers) (hopen : m'.vm.openouters = m.vm.openouters)
    (hvals : m'.vm.stack.vals = m.vm.stack.vals) : Effect m m' none := by
  refine ⟨⟨?_, ?_⟩, ?_, ?_, ?_⟩
  · rw [hopen, houters, hvals]
    exact h.points
  · rw [hopen, houters]
    exact h.descending
  · rw [hopen]
    exact fun p hp => .inl hp
  · rw [hopen]
    exact fun p hp hnot => absurd hp hnot
  · rw [houters]
    exact fun _ _ _ => rfl

theorem Effect.around {m m₁ m₂ m' : Machine ρ} {fresh : Option Addr} (h : Effect m₁ m₂ fresh)
    (hbefore : m₁.heap.outers = m.heap.outers ∧ m₁.vm.openouters = m.vm.openouters)
    (hafter : m'.heap.outers = m₂.heap.outers ∧ m'.vm.openouters = m₂.vm.openouters ∧
      m'.vm.stack.vals = m₂.vm.stack.vals) : Effect m m' fresh := by
  obtain ⟨houters, hopen, hvals⟩ := hafter
  obtain ⟨houters₁, hopen₁⟩ := hbefore
  constructor
  · refine ⟨?_, ?_⟩
    · rw [hopen, houters, hvals]
      exact h.live.points
    · rw [hopen, houters]
      exact h.live.descending
  · rw [hopen, ← hopen₁]
    exact h.opened
  · rw [hopen, houters, ← hopen₁]
    exact h.closed
  · rw [houters, hopen, ← hopen₁, ← houters₁]
    exact h.others

/-- `CloseOuters` shuts the outers from the limit up, which come first. -/
theorem closeOutersFrom_spec (limit : SlotAddr) {ps : List Addr} {m : Machine ρ}
    (hpoints : ∀ p ∈ ps, (m.heap.outers p).valptr = .slot ⟨limit.buffer, (m.heap.outers p).idx⟩)
    (hdesc : ps.Pairwise fun p q => (m.heap.outers q).idx < (m.heap.outers p).idx) :
    ∃ shut, ps = shut ++ (m.closeOutersFrom limit ps).vm.openouters ∧
      (∀ p ∈ shut, ((m.closeOutersFrom limit ps).heap.outers p).valptr = .own) ∧
      ∀ p ∉ shut, (m.closeOutersFrom limit ps).heap.outers p = m.heap.outers p := by
  induction ps generalizing m with
  | nil => exact ⟨[], rfl, nofun, fun _ _ => rfl⟩
  | cons p ps ih =>
    obtain ⟨hlower, hdesc⟩ := List.pairwise_cons.mp hdesc
    simp only [Machine.closeOutersFrom, hpoints p List.mem_cons_self]
    split
    · set m₁ := m.setOuter p { m.heap.outers p with
        value := m.read ⟨limit.buffer, (m.heap.outers p).idx⟩, valptr := .own } with hm₁
      have hp : p ∉ ps := fun hmem => lt_irrefl _ (hlower p hmem)
      have hsame : ∀ q ≠ p, m₁.heap.outers q = m.heap.outers q := fun q hq =>
        Function.update_of_ne hq ..
      have hne : ∀ q ∈ ps, q ≠ p := fun q hq heq => hp (heq ▸ hq)
      obtain ⟨shut, hsplit, hshut, hothers⟩ := ih (m := m₁)
        (fun q hq => by
          rw [hsame q (hne q hq)]
          exact hpoints q (List.mem_cons_of_mem _ hq))
        (hdesc.imp_of_mem fun {a b} ha hb hab => by
          rw [hsame a (hne a ha), hsame b (hne b hb)]
          exact hab)
      have hpshut : p ∉ shut := fun hmem => hp (hsplit ▸ List.mem_append_left _ hmem)
      refine ⟨p :: shut, congrArg (p :: ·) hsplit, fun q hq => ?_, fun q hq => ?_⟩
      · rcases List.mem_cons.mp hq with rfl | hq
        · rw [hothers q hpshut]
          show (Function.update m.heap.outers q _ q).valptr = _
          rw [Function.update_self]
        · exact hshut q hq
      · rw [List.mem_cons, not_or] at hq
        rw [hothers q hq.2, hsame q hq.1]
    · exact ⟨[], rfl, nofun, fun _ _ => rfl⟩

theorem closeOuters_effect {m : Machine ρ} (h : Live m.heap m.vm) (i : Int) :
    Effect m (m.closeOuters i) none := by
  obtain ⟨shut, hsplit, hshut, hothers⟩ :=
    closeOutersFrom_spec (m.addrOf i) h.points h.descending
  replace hsplit : m.vm.openouters = shut ++ (m.closeOuters i).vm.openouters := hsplit
  replace hshut : ∀ p ∈ shut, ((m.closeOuters i).heap.outers p).valptr = .own := hshut
  replace hothers : ∀ p ∉ shut, (m.closeOuters i).heap.outers p = m.heap.outers p := hothers
  have hvals : (m.closeOuters i).vm.stack.vals = m.vm.stack.vals := by
    rw [(m.closeOuters_same i).vm]
  obtain ⟨-, hrest, hlower⟩ := List.pairwise_append.mp (hsplit ▸ h.descending)
  have hopen : ∀ p ∈ (m.closeOuters i).vm.openouters, p ∉ shut := fun p hp hmem =>
    lt_irrefl _ (hlower p hmem p hp)
  have hmem : ∀ p ∈ (m.closeOuters i).vm.openouters, p ∈ m.vm.openouters := fun p hp => by
    rw [hsplit]
    exact List.mem_append_right _ hp
  refine ⟨⟨fun p hp => ?_, ?_⟩, fun p hp => .inl (hmem p hp), fun p hp hnot => ?_, fun p hp _ => ?_⟩
  · rw [hothers p (hopen p hp), hvals]
    exact h.points p (hmem p hp)
  · refine hrest.imp_of_mem fun {a b} ha hb hab => ?_
    rw [hothers a (hopen a ha), hothers b (hopen b hb)]
    exact hab
  · rw [hsplit] at hp
    exact hshut p ((List.mem_append.mp hp).resolve_right hnot)
  · refine hothers p fun hmem => hp ?_
    rw [hsplit]
    exact List.mem_append_left _ hmem

theorem le_iff (s : SlotAddr) (j : Int) : s.le ⟨s.buffer, j⟩ = true ↔ s.idx ≤ j := by
  simp [SlotAddr.le]

/-- `FindOuter` finds the outer of the slot, or the place where it is missing. -/
theorem searchOuter_spec {m : Machine ρ} (s : SlotAddr) (above : List Addr) {ps : List Addr}
    (hpoints : ∀ p ∈ ps, (m.heap.outers p).valptr = .slot ⟨s.buffer, (m.heap.outers p).idx⟩) :
    match m.searchOuter s above ps with
    | .inl p => p ∈ ps
    | .inr (left, right) => left ++ right = above ++ ps ∧
        (∀ p ∈ left, p ∈ above ∨ s.idx < (m.heap.outers p).idx) ∧
        ∀ p ∈ right.head?, (m.heap.outers p).idx < s.idx := by
  induction ps generalizing above with
  | nil => exact ⟨rfl, fun p hp => .inl hp, nofun⟩
  | cons p ps ih =>
    simp only [Machine.searchOuter, hpoints p List.mem_cons_self]
    by_cases hle : s.le ⟨s.buffer, (m.heap.outers p).idx⟩ = true
    · rw [if_pos hle]
      by_cases heq : (⟨s.buffer, (m.heap.outers p).idx⟩ : SlotAddr) = s
      · rw [if_pos heq]
        exact List.mem_cons_self
      · rw [if_neg heq]
        have hlt : s.idx < (m.heap.outers p).idx := by
          refine lt_of_le_of_ne ((le_iff s _).mp hle) fun hidx => heq ?_
          rw [← hidx]
        have hspec := ih (above ++ [p]) fun q hq => hpoints q (List.mem_cons_of_mem _ hq)
        cases hsearch : m.searchOuter s (above ++ [p]) ps with
        | inl q =>
          rw [hsearch] at hspec
          exact List.mem_cons_of_mem _ hspec
        | inr lr =>
          rw [hsearch] at hspec
          obtain ⟨hsplit, hleft, hright⟩ := hspec
          refine ⟨by rw [hsplit, List.append_assoc]; rfl, fun q hq => ?_, hright⟩
          rcases hleft q hq with hmem | hidx
          · rcases List.mem_append.mp hmem with habove | hlast
            · exact .inl habove
            · rw [List.mem_singleton.mp hlast]
              exact .inr hlt
          · exact .inr hidx
    · rw [if_neg hle]
      refine ⟨rfl, fun q hq => .inl hq, fun q hq => ?_⟩
      obtain rfl := Option.some.inj hq
      exact lt_of_not_ge fun hge => hle ((le_iff s _).mpr hge)

/-- The outer that `FindOuter` opens for a slot comes between those above and below. -/
theorem findOuter_effect {m : Machine ρ} (h : Live m.heap m.vm) (fresh : Addr) (i : Int)
    (hfresh : fresh ∉ m.vm.openouters) : Effect m (m.findOuter fresh i).2 (some fresh) := by
  have hspec := searchOuter_spec (m.addrOf i) [] h.points
  unfold Machine.findOuter
  cases hsearch : m.searchOuter (m.addrOf i) [] m.vm.openouters with
  | inl p =>
    have hrefl : Effect m m none := Effect.refl h rfl rfl rfl
    exact ⟨hrefl.live, fun p hp => .inl hp, hrefl.closed, fun _ _ _ => rfl⟩
  | inr lr =>
    obtain ⟨left, right⟩ := lr
    rw [hsearch] at hspec
    obtain ⟨hsplit, hleft, hright⟩ := hspec
    rw [List.nil_append] at hsplit
    set outers := Function.update m.heap.outers fresh ⟨.slot (m.addrOf i), i, .ofNull⟩ with houters
    have hmem : ∀ p, p ∈ left ∨ p ∈ right ↔ p ∈ m.vm.openouters := fun p => by
      rw [← hsplit, List.mem_append]
    have hold : ∀ p ∈ m.vm.openouters, outers p = m.heap.outers p := fun p hp =>
      Function.update_of_ne (show p ≠ fresh from fun heq => hfresh (heq ▸ hp)) ..
    have hnew : outers fresh = ⟨.slot (m.addrOf i), i, .ofNull⟩ := Function.update_self ..
    obtain ⟨hl, hr, hlr⟩ := List.pairwise_append.mp (hsplit ▸ h.descending)
    have hbelow : ∀ q ∈ right, (m.heap.outers q).idx < i := by
      cases right with
      | nil => exact nofun
      | cons q right =>
        have hq := hright q rfl
        intro r hmem
        rcases List.mem_cons.mp hmem with rfl | hmem
        · exact hq
        · exact ((List.pairwise_cons.mp hr).1 r hmem).trans hq
    refine ⟨⟨fun p hp => ?_, ?_⟩, fun p hp => ?_, fun p hp hnot => ?_, fun p hp hne => ?_⟩
    · show (outers p).valptr = .slot ⟨m.vm.stack.vals, (outers p).idx⟩
      rcases List.mem_append.mp hp with hp | hp
      · rw [hold p ((hmem p).mp (.inl hp))]
        exact h.points p ((hmem p).mp (.inl hp))
      · rcases List.mem_cons.mp hp with rfl | hp
        · rw [hnew]
          rfl
        · rw [hold p ((hmem p).mp (.inr hp))]
          exact h.points p ((hmem p).mp (.inr hp))
    · show (left ++ fresh :: right).Pairwise fun p q => (outers q).idx < (outers p).idx
      refine List.pairwise_append.mpr ⟨?_, List.pairwise_cons.mpr ⟨fun q hq => ?_, ?_⟩,
        fun p hp q hq => ?_⟩
      · exact hl.imp_of_mem fun {a b} ha hb hab => by
          rw [hold a ((hmem a).mp (.inl ha)), hold b ((hmem b).mp (.inl hb))]
          exact hab
      · rw [hold q ((hmem q).mp (.inr hq)), hnew]
        exact hbelow q hq
      · exact hr.imp_of_mem fun {a b} ha hb hab => by
          rw [hold a ((hmem a).mp (.inr ha)), hold b ((hmem b).mp (.inr hb))]
          exact hab
      · rw [hold p ((hmem p).mp (.inl hp))]
        rcases List.mem_cons.mp hq with rfl | hq
        · rw [hnew]
          exact (hleft p hp).resolve_left nofun
        · rw [hold q ((hmem q).mp (.inr hq))]
          exact hlr p hp q hq
    · rcases List.mem_append.mp hp with hp | hp
      · exact .inl ((hmem p).mp (.inl hp))
      · rcases List.mem_cons.mp hp with rfl | hp
        · exact .inr rfl
        · exact .inl ((hmem p).mp (.inr hp))
    · refine absurd ?_ hnot
      rcases (hmem p).mpr hp with hp | hp
      · exact List.mem_append_left _ hp
      · exact List.mem_append_right _ (List.mem_cons_of_mem _ hp)
    · refine Function.update_of_ne (fun heq => hne ?_) ..
      rw [heq]
      exact List.mem_append_right _ List.mem_cons_self

/-- Where the stack has moved, the open outers follow. -/
theorem relocateOuters_effect {m m' : Machine ρ} (h : Live m.heap m.vm)
    (houters : m'.heap.outers = m.heap.outers) (hopen : m'.vm.openouters = m.vm.openouters) :
    Effect m m'.relocateOuters none := by
  have hin : ∀ p ∈ m.vm.openouters, m'.relocateOuters.heap.outers p =
      { m.heap.outers p with valptr := .slot (m'.addrOf (m.heap.outers p).idx) } := fun p hp => by
    show (if p ∈ m'.vm.openouters then m'.relocateOuter (m'.heap.outers p) else _) = _
    rw [hopen, if_pos hp, houters]
    rfl
  have hout : ∀ p ∉ m.vm.openouters, m'.relocateOuters.heap.outers p = m.heap.outers p :=
    fun p hp => by
      show (if p ∈ m'.vm.openouters then _ else m'.heap.outers p) = _
      rw [hopen, if_neg hp, houters]
  have hsame : m'.relocateOuters.vm.openouters = m.vm.openouters := hopen
  refine ⟨⟨?_, ?_⟩, ?_, ?_, fun p hp _ => hout p hp⟩
  · rw [hsame]
    intro p hp
    rw [hin p hp]
    rfl
  · rw [hsame]
    refine h.descending.imp_of_mem fun {a b} ha hb hab => ?_
    rw [hin a ha, hin b hb]
    exact hab
  · rw [hsame]
    exact fun p hp => .inl hp
  · rw [hsame]
    exact fun p hp hnot => absurd hp hnot

theorem openFrame_outers (P : Platform ρ) (m : Machine ρ) (newbase newtop : Int)
    (tailcall : Bool) :
    (m.openFrame P newbase newtop tailcall).heap.outers = m.heap.outers ∧
      (m.openFrame P newbase newtop tailcall).vm.openouters = m.vm.openouters := by
  unfold Machine.openFrame Machine.pushCallInfo
  split
  · exact ⟨rfl, rfl⟩
  · split
    · exact ⟨rfl, rfl⟩
    · exact ⟨rfl, rfl⟩

theorem enterFrame_effect {m : Machine ρ} (h : Live m.heap m.vm) (P : Platform ρ)
    (newbase newtop : Int) (tailcall : Bool) :
    Effect m (m.enterFrame P newbase newtop tailcall).2 none := by
  obtain ⟨houters, hopen⟩ := openFrame_outers P m newbase newtop tailcall
  have hvals := congrArg SQObjectPtrVec.vals (Machine.openFrame_stack P m newbase newtop tailcall)
  simp only [Machine.enterFrame]
  split
  · split
    · exact Effect.refl h houters hopen hvals
    · exact relocateOuters_effect h houters hopen
  · exact Effect.refl h houters hopen hvals

theorem popFrame_outers (m : Machine ρ) :
    m.popFrame.heap.outers = m.heap.outers ∧ m.popFrame.vm.openouters = m.vm.openouters ∧
      m.popFrame.vm.stack.vals = m.vm.stack.vals := by
  unfold Machine.popFrame
  split
  · exact ⟨rfl, rfl, rfl⟩
  · exact ⟨rfl, rfl, rfl⟩

theorem leaveFrame_effect {m : Machine ρ} (h : Live m.heap m.vm) :
    Effect m m.leaveFrame none := by
  obtain ⟨houters, hopen, hvals⟩ := popFrame_outers m
  have hpop : Live m.popFrame.heap m.popFrame.vm := (Effect.refl h houters hopen hvals).live
  exact (closeOuters_effect hpop m.vm.stackbase).around ⟨houters, hopen⟩ ⟨rfl, rfl, rfl⟩

theorem reserveStack_outers (P : Platform ρ) (m : Machine ρ) (nsize : Nat) :
    (m.reserveStack P nsize).heap.outers = m.heap.outers ∧
      (m.reserveStack P nsize).vm.openouters = m.vm.openouters := by
  unfold Machine.reserveStack
  split
  · split
    · exact ⟨rfl, rfl⟩
    · exact ⟨rfl, rfl⟩
  · exact ⟨rfl, rfl⟩

theorem reserveStack_vals (P : Platform ρ) (m : Machine ρ) (nsize : Nat) :
    (m.reserveStack P nsize).vm.stack.vals =
      if m.vm.nmetamethodscall = 0 ∧ m.vm.stack.size < m.vm.top + nsize ∧
          m.vm.stack.allocated < m.vm.top + nsize then
        P.realloc m.heap m.vm.stack.vals (m.vm.top + nsize)
      else m.vm.stack.vals := by
  unfold Machine.reserveStack
  by_cases hsize : m.vm.stack.size < m.vm.top + nsize
  · rw [if_pos hsize]
    by_cases hmeta : m.vm.nmetamethodscall = 0
    · rw [if_neg (not_not_intro hmeta), add_sub_cancel]
      by_cases halloc : m.vm.stack.allocated < m.vm.top + nsize
      · rw [if_pos ⟨hmeta, hsize, halloc⟩]
        exact if_pos halloc
      · rw [if_neg fun h => halloc h.2.2]
        exact if_neg halloc
    · rw [if_pos hmeta, if_neg fun h => hmeta h.1]
      rfl
  · rw [if_neg hsize, if_neg fun h => hsize h.2.1]

/-- `sq_reservestack` does not relocate outers. -/
theorem reserveStack_live_iff {m : Machine ρ} (h : Live m.heap m.vm) (P : Platform ρ)
    (nsize : Nat) : Live (m.reserveStack P nsize).heap (m.reserveStack P nsize).vm ↔
      ¬MovesStack P m nsize := by
  obtain ⟨houters, hopen⟩ := reserveStack_outers P m nsize
  have hvals := reserveStack_vals P m nsize
  constructor
  · intro hlive ⟨hne, hmeta, hsize, halloc, hmoves⟩
    rw [if_pos ⟨hmeta, hsize, halloc⟩] at hvals
    obtain ⟨p, hp⟩ := List.exists_mem_of_ne_nil _ hne
    have hnew := hlive.points p (by rw [hopen]; exact hp)
    rw [houters, hvals, h.points p hp] at hnew
    exact hmoves (congrArg SlotAddr.buffer (ValPtr.slot.inj hnew)).symm
  · intro hnot
    by_cases hnil : m.vm.openouters = []
    · constructor
      · rw [hopen, hnil]
        nofun
      · rw [hopen, hnil]
        exact .nil
    · refine (Effect.refl h houters hopen ?_).live
      rw [hvals]
      split
      · next hcond =>
        by_contra hmoves
        exact hnot ⟨hnil, hcond.1, hcond.2.1, hcond.2.2, hmoves⟩
      · rfl

/-! ## All threads -/

/-- No two threads have the same outer open. -/
structure Sound (s : System ρ) : Prop extends OutersLive s where
  disjoint : ∀ {i j : Nat} {vm vm' : SQVM}, s.threads[i]? = some vm →
    s.threads[j]? = some vm' → i ≠ j → ∀ p ∈ vm.openouters, p ∉ vm'.openouters

theorem sound_start (heap : Heap ρ) : Sound (start heap) := by
  refine ⟨⟨fun vm hvm => ?_, fun _ _ => rfl⟩, fun hi => ?_⟩
  · cases hvm
  · cases hi

/-- What one thread does keeps the outers of all. -/
theorem Sound.onThread {s : System ρ} (h : Sound s) {t : Nat} {f : Machine ρ → Machine ρ}
    {fresh : Option Addr}
    (hf : ∀ {vm}, s.threads[t]? = some vm → Effect ⟨vm, s.heap⟩ (f ⟨vm, s.heap⟩) fresh)
    (hfresh : ∀ p, fresh = some p → ∀ vm ∈ s.threads, p ∉ vm.openouters) :
    Sound (s.onThread t f) := by
  unfold System.onThread
  cases ht : s.threads[t]? with
  | none => exact h
  | some vm =>
    have heffect := hf ht
    have hlt := (List.getElem?_eq_some_iff.mp ht).1
    show Sound ⟨s.threads.set t (f ⟨vm, s.heap⟩).vm, (f ⟨vm, s.heap⟩).heap⟩
    generalize f ⟨vm, s.heap⟩ = m' at heffect ⊢
    -- the outers of the other threads are not touched
    have hother : ∀ {i vm'}, s.threads[i]? = some vm' → i ≠ t → ∀ p ∈ vm'.openouters,
        p ∉ m'.vm.openouters ∧ m'.heap.outers p = s.heap.outers p := by
      intro i vm' hi hne p hp
      have hold : p ∉ vm.openouters := h.disjoint hi ht hne p hp
      have hnew : p ∉ m'.vm.openouters := fun hmem => by
        rcases heffect.opened p hmem with hmem | hfr
        · exact hold hmem
        · exact hfresh p hfr vm' (List.mem_of_getElem? hi) hp
      exact ⟨hnew, heffect.others p hold hnew⟩
    have hget : ∀ i, (s.threads.set t m'.vm)[i]? = if i = t then some m'.vm else s.threads[i]? := by
      intro i
      by_cases hit : i = t
      · rw [if_pos hit, hit, List.getElem?_set_self hlt]
      · rw [if_neg hit, List.getElem?_set_ne (Ne.symm hit)]
    refine ⟨⟨fun vm' hvm' => ?_, fun p hp => ?_⟩, fun {i j vm₁ vm₂} hi hj hij p hp => ?_⟩
    · obtain ⟨i, hi⟩ := List.getElem?_of_mem hvm'
      replace hi : (s.threads.set t m'.vm)[i]? = some vm' := hi
      rw [hget] at hi
      split at hi
      · rw [← Option.some.inj hi]
        exact heffect.live
      · next hne =>
        have hlive := h.live vm' (List.mem_of_getElem? hi)
        refine ⟨fun p hp => ?_, ?_⟩
        · rw [(hother hi hne p hp).2]
          exact hlive.points p hp
        · refine hlive.descending.imp_of_mem fun {a b} ha hb hab => ?_
          rw [(hother hi hne a ha).2, (hother hi hne b hb).2]
          exact hab
    · have hnew : p ∉ m'.vm.openouters :=
        hp m'.vm (List.mem_of_getElem? ((hget t).trans (if_pos rfl)))
      by_cases hold : p ∈ vm.openouters
      · exact heffect.closed p hold hnew
      · show (m'.heap.outers p).valptr = .own
        rw [heffect.others p hold hnew]
        refine h.closed p fun vm' hvm' hmem => ?_
        obtain ⟨i, hi⟩ := List.getElem?_of_mem hvm'
        by_cases hit : i = t
        · rw [hit, ht] at hi
          exact hold (Option.some.inj hi ▸ hmem)
        · exact hp vm' (List.mem_of_getElem? ((hget i).trans ((if_neg hit).trans hi))) hmem
    · replace hi : (s.threads.set t m'.vm)[i]? = some vm₁ := hi
      replace hj : (s.threads.set t m'.vm)[j]? = some vm₂ := hj
      rw [hget] at hi hj
      split at hi
      · next hit =>
        split at hj
        · next hjt => exact absurd (hit.trans hjt.symm) hij
        · next hjt =>
          rw [← Option.some.inj hi] at hp
          exact fun hmem => (hother hj hjt p hmem).1 hp
      · next hit =>
        split at hj
        · rw [← Option.some.inj hj]
          exact (hother hi hit p hp).1
        · exact h.disjoint hi hj hij p hp

theorem Sound.onThread_none {s : System ρ} (h : Sound s) {t : Nat} {f : Machine ρ → Machine ρ}
    (hf : ∀ {vm}, s.threads[t]? = some vm → Effect ⟨vm, s.heap⟩ (f ⟨vm, s.heap⟩) none) :
    Sound (s.onThread t f) :=
  h.onThread hf fun p hp => by cases hp

theorem Sound.newThread {s : System ρ} (h : Sound s) (vm : SQVM) :
    Sound { s with threads := s.threads ++ [{ vm with openouters := [] }] } := by
  have hget : ∀ {i : Nat} {vm' : SQVM},
      (s.threads ++ [{ vm with openouters := [] }])[i]? = some vm' →
        s.threads[i]? = some vm' ∨ vm'.openouters = [] := by
    intro i vm' hi
    rw [List.getElem?_append] at hi
    split at hi
    · exact .inl hi
    · obtain rfl := List.mem_singleton.mp (List.mem_of_getElem? hi)
      exact .inr rfl
  refine ⟨⟨fun vm' hvm' => ?_, fun p hp => ?_⟩, fun {i j vm₁ vm₂} hi hj hij p hp => ?_⟩
  · rcases List.mem_append.mp hvm' with hmem | hnew
    · exact h.live vm' hmem
    · obtain rfl := List.mem_singleton.mp hnew
      exact ⟨nofun, .nil⟩
  · exact h.closed p fun vm' hvm' => hp vm' (List.mem_append_left _ hvm')
  · rcases hget hi with hi | hnil
    · rcases hget hj with hj | hnil
      · exact h.disjoint hi hj hij p hp
      · rw [hnil]
        exact List.not_mem_nil
    · rw [hnil] at hp
      cases hp

theorem Sound.other {s s' : System ρ} (h : Sound s) (hleaves : LeavesOuters s s') : Sound s' := by
  have hsame : ∀ {i : Nat} {vm' : SQVM}, s'.threads[i]? = some vm' → ∃ vm, s.threads[i]? = some vm ∧
      vm'.stack.vals = vm.stack.vals ∧ vm'.openouters = vm.openouters := by
    intro i vm' hi
    have hmap := congrArg (·[i]?) hleaves.threads
    simp only [List.getElem?_map, hi, Option.map_some] at hmap
    obtain ⟨vm, hvm, heq⟩ := Option.map_eq_some_iff.mp hmap.symm
    obtain ⟨hvals, hopen⟩ := Prod.mk.inj heq
    exact ⟨vm, hvm, hvals.symm, hopen.symm⟩
  have hback : ∀ vm ∈ s.threads, ∃ vm' ∈ s'.threads, vm'.openouters = vm.openouters := by
    intro vm hvm
    have hmem := List.mem_map_of_mem (f := fun vm : SQVM => (vm.stack.vals, vm.openouters)) hvm
    rw [← hleaves.threads] at hmem
    obtain ⟨vm', hvm', heq⟩ := List.mem_map.mp hmem
    exact ⟨vm', hvm', (Prod.mk.inj heq).2⟩
  refine ⟨⟨fun vm' hvm' => ?_, fun p hp => ?_⟩, fun {i j vm₁ vm₂} hi hj hij p hp => ?_⟩
  · obtain ⟨i, hi⟩ := List.getElem?_of_mem hvm'
    obtain ⟨vm, hvm, hvals, hopen⟩ := hsame hi
    obtain ⟨hpoints, hdesc⟩ := h.live vm (List.mem_of_getElem? hvm)
    constructor
    · rw [hvals, hopen]
      intro p hp
      rw [hleaves.valptr, hleaves.idx]
      exact hpoints p hp
    · rw [hopen]
      simp only [hleaves.idx]
      exact hdesc
  · rw [hleaves.valptr]
    refine h.closed p fun vm hvm hmem => ?_
    obtain ⟨vm', hvm', hopen⟩ := hback vm hvm
    exact hp vm' hvm' (hopen ▸ hmem)
  · obtain ⟨vm, hvm, -, hopen⟩ := hsame hi
    obtain ⟨vm', hvm', -, hopen'⟩ := hsame hj
    rw [hopen] at hp
    rw [hopen']
    exact h.disjoint hvm hvm' hij p hp

theorem reserveStack_effect {m : Machine ρ} (h : Live m.heap m.vm) {P : Platform ρ} {nsize : Nat}
    (hnot : ¬MovesStack P m nsize) : Effect m (m.reserveStack P nsize) none := by
  obtain ⟨houters, hopen⟩ := reserveStack_outers P m nsize
  refine ⟨(reserveStack_live_iff h P nsize).mpr hnot, ?_, ?_, ?_⟩
  · rw [hopen]
    exact fun p hp => .inl hp
  · rw [hopen]
    exact fun p hp hclosed => absurd hp hclosed
  · rw [houters]
    exact fun _ _ _ => rfl

/-- Every act keeps the outers of all threads, if it does not move a stack under them. -/
theorem Sound.act {s : System ρ} (h : Sound s) {P : Platform ρ} {a : Act ρ}
    (hgood : a.KeepsPointers P s) : Sound (s.act P a) := by
  have hlive : ∀ {t vm}, s.threads[t]? = some vm → Live s.heap vm := fun ht =>
    h.live _ (List.mem_of_getElem? ht)
  cases a with
  | newThread vm => exact h.newThread vm
  | findOuter t fresh i =>
    rw [System.act]
    split
    · exact h
    · next huse =>
      have hfresh : ∀ vm ∈ s.threads, fresh ∉ vm.openouters := by
        intro vm hvm hmem
        refine huse (List.any_eq_true.mpr ⟨vm, hvm, ?_⟩)
        rw [List.contains_iff_mem]
        exact hmem
      refine h.onThread (fun ht => findOuter_effect (hlive ht) fresh i
        (hfresh _ (List.mem_of_getElem? ht))) fun p hp => ?_
      rw [← Option.some.inj hp]
      exact hfresh
  | closeOuters t i =>
    exact h.onThread_none (f := fun m => m.closeOuters i) fun ht => closeOuters_effect (hlive ht) i
  | enterFrame t newbase newtop tailcall =>
    exact h.onThread_none (f := fun m => (m.enterFrame P newbase newtop tailcall).2) fun ht =>
      enterFrame_effect (hlive ht) P newbase newtop tailcall
  | leaveFrame t =>
    exact h.onThread_none (f := Machine.leaveFrame) fun ht => leaveFrame_effect (hlive ht)
  | reserveStack t nsize =>
    exact h.onThread_none (f := fun m => m.reserveStack P nsize) fun ht =>
      reserveStack_effect (hlive ht) (hgood _ ht)
  | other f hf => exact h.other (hf s)

theorem keepsPointers_of_live {s : System ρ} (h : OutersLive s) {P : Platform ρ} {a : Act ρ}
    (hafter : OutersLive (s.act P a)) : a.KeepsPointers P s := by
  cases a with
  | reserveStack t nsize =>
    intro vm ht
    have hlive := h.live vm (List.mem_of_getElem? ht)
    refine (reserveStack_live_iff hlive P nsize).mp ?_
    simp only [System.act, System.onThread, ht] at hafter
    exact hafter.live _ (List.mem_of_getElem?
      (List.getElem?_set_self (List.getElem?_eq_some_iff.mp ht).1))
  | _ => trivial

theorem run_take_succ (P : Platform ρ) (s : System ρ) (acts : List (Act ρ)) (n : Nat) :
    s.run P (acts.take (n + 1)) =
      match acts[n]? with
      | none => s.run P (acts.take n)
      | some a => (s.run P (acts.take n)).act P a := by
  rw [System.run, List.take_add_one, List.foldl_append]
  cases acts[n]? with
  | none => rfl
  | some a => rfl

/-- In every run, open outers point into the live stacks in every state, if and only if no stack
moves under them by `sq_reservestack`. -/
theorem outersLive_iff (P : Platform ρ) (heap : Heap ρ) (acts : List (Act ρ)) :
    (∀ n, OutersLive ((start heap).run P (acts.take n))) ↔
      ∀ (n : Nat) (a : Act ρ), acts[n]? = some a →
        a.KeepsPointers P ((start heap).run P (acts.take n)) := by
  constructor
  · intro hlive n a ha
    have hafter := hlive (n + 1)
    rw [run_take_succ, ha] at hafter
    exact keepsPointers_of_live (hlive n) hafter
  · intro hgood n
    have hsound : Sound ((start heap).run P (acts.take n)) := by
      induction n with
      | zero => exact sound_start heap
      | succ n ih =>
        rw [run_take_succ]
        cases ha : acts[n]? with
        | none => exact ih
        | some a => exact ih.act (hgood n a ha)
    exact hsound.toOutersLive

/-! ### A stack that moves -/

def moving : Platform Unit := { (default : Platform Unit) with realloc := fun _ vals _ => vals + 1 }

/-- A variable in slot 3 of a thread is captured, and then the host reserves slots. -/
def capturing : List (Act Unit) :=
  [.newThread { (default : SQVM) with top := 5, stack := ⟨0, 8, 8⟩ }, .findOuter 0 7 3,
    .reserveStack 0 16]

/-- The outer of slot 3 still points into the old stack. -/
theorem not_outersLive : ¬∀ (ρ : Type) (P : Platform ρ) (heap : Heap ρ) (acts : List (Act ρ))
    (n : Nat), OutersLive ((start heap).run P (acts.take n)) := by
  intro hlive
  have hbefore := hlive Unit moving default capturing 2
  have hafter := hlive Unit moving default capturing 3
  rw [run_take_succ] at hafter
  have hkeeps := keepsPointers_of_live hbefore hafter _ rfl
  exact hkeeps ⟨List.cons_ne_nil _ _, rfl, by decide, by decide, by decide⟩

end OpenOuters
end Sqnim.Vm
