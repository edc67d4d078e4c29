import Sqnim.Gc.Sweep

/-!
# CollectGarbage frees what is unreachable

Where the reference counts are right, the collector frees every object that the roots do not reach,
each once, and leaves a chain of the others, which keep their contents and lose the references that
unreachable objects held.
-/
namespace Sqnim.Gc

open Sqnim.Object Sqnim.Lib Sqnim.Lib.DoublyLinked
open SQObjectType

/-! ## The types of fields -/

/-- What some fields refer to by their types; `b` is the object, and functions do not nest in
themselves. -/
def SQCollectable.Typed (objects : Objects) (nest : Addr → Nat) (b : Addr) : SQCollectable → Prop
  | .thread _ _ _ _ _ stack _ openouters =>
    (∀ a ∈ markObjects stack, (objects a).getType ≠ otOuter) ∧
      ∀ p ∈ openouters, (objects p.1).getType = otOuter
  | .generator _ _ ciClosure => ∀ a ∈ markObjects [ciClosure], (objects a).getType = otClosure
  | .funcproto _ functions =>
    ∀ a ∈ markObjects functions, (objects a).getType = otFuncProto ∧ nest a < nest b
  | .closure base function _ _ =>
    (∀ a ∈ base, (objects a).getType = otClass) ∧ (objects function).getType = otFuncProto
  | _ => True

/-- References that outlive `Finalize` go from a generator to its closure, from a closure to its
class and its function, and from a function to those in it. -/
def rankIn (objects : Objects) (nest : Addr → Nat) (top : Nat) (a : Addr) : Nat :=
  match (objects a).getType with
  | otFuncProto => nest a
  | otClosure => top + 1
  | otGenerator => top + 2
  | otOuter => top + 3
  | _ => 0

section Rank

variable {objects : Objects} {nest : Addr → Nat} {top : Nat} {a : Addr}

theorem rankIn_funcproto (h : (objects a).getType = otFuncProto) :
    rankIn objects nest top a = nest a := by
  rw [rankIn, h]

theorem rankIn_closure (h : (objects a).getType = otClosure) :
    rankIn objects nest top a = top + 1 := by
  rw [rankIn, h]

theorem rankIn_class (h : (objects a).getType = otClass) : rankIn objects nest top a = 0 := by
  rw [rankIn, h]

theorem rankIn_outer (h : (objects a).getType = otOuter) :
    rankIn objects nest top a = top + 3 := by
  rw [rankIn, h]

theorem rankIn_lt (htop : nest a ≤ top) (h : (objects a).getType ≠ otOuter) :
    rankIn objects nest top a < top + 3 := by
  unfold rankIn
  split <;> first | omega | contradiction

/-- The rank decreases along what is left after `Finalize`. -/
theorem SQCollectable.Typed.layered {b : Addr} (h : (objects b).Typed objects nest b)
    (htop : ∀ a ∈ (objects b).holds, nest a ≤ top) :
    ∀ a ∈ (objects b).finalized.holds, rankIn objects nest top a < rankIn objects nest top b := by
  intro a ha
  have hheld := htop a (holds_finalized_subset _ a ha)
  have htype : ∀ c, objects b = c → (objects b).getType = c.getType := fun c hc => by rw [hc]
  cases hb : objects b with
  | generator stack clos ciClosure =>
    rw [hb] at h ha
    simp only [SQCollectable.finalized, SQCollectable.holds, SQCollectable.before,
      SQCollectable.after, given_append, given_dropAll, markObjects_nil, markObjects_ofNull,
      List.nil_append, List.append_nil] at ha
    have hgen : rankIn objects nest top b = top + 2 := by
      rw [rankIn, htype _ hb]
      rfl
    rw [rankIn_closure (h a ha), hgen]
    omega
  | funcproto literals functions =>
    rw [hb] at h ha
    simp only [SQCollectable.finalized, SQCollectable.holds, SQCollectable.before,
      SQCollectable.after, given_append, given_dropAll, markObjects_nulls, List.nil_append,
      List.append_nil] at ha
    obtain ⟨hproto, hless⟩ := h a ha
    rwa [rankIn_funcproto hproto, rankIn_funcproto (htype _ hb)]
  | closure base function outervalues defaultparams =>
    rw [hb] at h ha
    simp only [SQCollectable.finalized, SQCollectable.holds, SQCollectable.before,
      SQCollectable.after, given_append, given_dropAll, given_drop, given_dropPointer,
      markObjects_nulls, List.nil_append, List.append_nil, given_nil, List.mem_append,
      List.mem_singleton] at ha
    rw [rankIn_closure (htype _ hb)]
    rcases ha with rfl | ha
    · rw [rankIn_funcproto h.2]
      omega
    · rw [rankIn_class (h.1 a (Option.mem_toList.mp ha))]
      exact Nat.succ_pos top
  | outer value =>
    rw [hb] at ha
    cases value <;> cases ha
  | _ =>
    rw [hb] at ha
    simp [SQCollectable.finalized, SQCollectable.holds, SQCollectable.before, SQCollectable.after,
      SQCollectable.finalizes, closeOuters] at ha

end Rank

/-! ## What is unreachable -/

namespace SQSharedState

open Classical in
/-- The objects of the chain `l` that the roots do not reach. -/
noncomputable def unreachable (ss : SQSharedState) (l : List Addr) : List Addr :=
  l.filter fun a => ¬ ss.Reachable a

open Classical in
theorem mem_unreachable {ss : SQSharedState} {l : List Addr} {a : Addr} :
    a ∈ ss.unreachable l ↔ a ∈ l ∧ ¬ ss.Reachable a := by
  rw [unreachable, List.mem_filter, decide_eq_true_eq]

/-- The reference counts before the collector runs: an unreachable object is held by unreachable ones
only, as often as its count says. A variable that an unreachable thread has open is unreachable. -/
structure Accounted (ss : SQSharedState) (l : List Addr) (refs nest : Addr → Nat) : Prop where
  counts : ∀ a ∈ ss.unreachable l, refs a = heldIn ss.objects (ss.unreachable l) a
  enough : ∀ a ∈ l, heldIn ss.objects (ss.unreachable l) a ≤ refs a
  inside : ∀ b ∈ ss.unreachable l, ∀ a ∈ (ss.objects b).holds, a ∈ l
  typed : ∀ b ∈ ss.unreachable l, (ss.objects b).Typed ss.objects nest b
  closes : ∀ b ∈ ss.unreachable l, ∀ p v, Action.close p v ∈ (ss.objects b).finalizes →
    p ∈ ss.unreachable l

end SQSharedState

open SQSharedState

section Close

theorem close_mem_finalizes {c : SQCollectable} {p : Addr} {v : SQObject}
    (h : Action.close p v ∈ c.before ∨ Action.close p v ∈ c.after) :
    Action.close p v ∈ c.finalizes := by
  cases c <;>
    simp only [SQCollectable.before, SQCollectable.after, SQCollectable.finalizes, dropAll,
      dropPointer, List.mem_append, List.not_mem_nil, List.mem_singleton, reduceCtorEq,
      or_false, close_notMem_map] at h ⊢
  exact h

theorem mem_markObjects_getD {stack : List SQObject} {idx : Nat} {a : Addr}
    (ha : markObject (stack.getD idx .ofNull) = some a) : a ∈ markObjects stack := by
  by_cases hidx : idx < stack.length
  · rw [List.getD_eq_getElem?_getD, List.getElem?_eq_getElem hidx, Option.getD_some] at ha
    exact List.mem_filterMap.mpr ⟨_, List.getElem_mem hidx, ha⟩
  · rw [List.getD_eq_getElem?_getD, List.getElem?_eq_none (by omega), Option.getD_none] at ha
    cases ha

/-- Only a thread closes variables; their values are on its stack. -/
theorem SQCollectable.Typed.close {objects : Objects} {nest : Addr → Nat} {b p : Addr}
    {c : SQCollectable} {v : SQObject} (h : c.Typed objects nest b)
    (hmem : Action.close p v ∈ c.finalizes) : (objects p).getType = otOuter ∧
      ∀ a, markObject v = some a → a ∈ c.holds ∧ (objects a).getType ≠ otOuter := by
  cases c with
  | thread lasterror errorhandler debughookClosure roottable tempReg stack callsstack openouters =>
    simp only [SQCollectable.finalizes, dropAll, List.mem_append, close_notMem_map,
      or_false] at hmem
    obtain ⟨⟨q, idx⟩, hq, hclose⟩ := List.mem_flatMap.mp hmem
    simp only [List.mem_cons, Action.close.injEq, reduceCtorEq, List.not_mem_nil,
      or_false] at hclose
    obtain ⟨rfl, rfl⟩ := hclose
    refine ⟨h.2 _ hq, fun a ha => ?_⟩
    have hstack := mem_markObjects_getD ha
    refine ⟨given_finalizes_subset _ a ?_, h.1 a hstack⟩
    simp only [SQCollectable.finalizes, given_append, given_dropAll, List.mem_append]
    exact .inr hstack
  | _ =>
    simp [SQCollectable.finalizes, dropAll, dropPointer] at hmem

end Close

/-! ## The collector -/

section Collect

variable {ss : SQSharedState} {l kept : List Addr} {refs nest : Addr → Nat} {m : Marking}

theorem SQSharedState.SameObjects.objects {ss ss' : SQSharedState} (h : ss.SameObjects ss') :
    ss'.objects = ss.objects := by
  rw [h]

theorem SQSharedState.SameObjects.roots {ss ss' : SQSharedState} (h : ss.SameObjects ss') :
    ss'.roots = ss.roots := by
  rw [h]
  rfl

open Classical in
theorem Marked.unreachable_eq (h : Marked ss l m kept) :
    l.filter (fun a => a ∉ kept) = ss.unreachable l := by
  refine List.filter_congr fun a _ => ?_
  rw [decide_eq_decide, h.mem_iff]

/-- The garbage that `RunMark` leaves on the chain. -/
noncomputable def garbageOf (ss : SQSharedState) (l kept : List Addr) (tchain : Option Addr)
    (refs : Addr → Nat) (rank : Addr → Nat) : Garbage where
  lost := ss.unreachable l
  kept
  tchain
  objects := ss.objects
  base a := refs a - heldIn ss.objects (ss.unreachable l) a
  rank
  outers a := (ss.objects a).getType = otOuter

theorem SQSharedState.Accounted.proper (hacc : ss.Accounted l refs nest)
    (hmem : ∀ a, a ∈ kept ↔ ss.Reachable a) {top : Nat} (htop : ∀ a ∈ l, nest a ≤ top)
    {b : Addr} (hb : b ∈ ss.unreachable l) :
    (garbageOf ss l kept m.tchain refs (rankIn ss.objects nest top)).Proper b (ss.objects b) := by
  have hsane : ∀ xs, (∀ p v, Action.close p v ∈ xs →
      Action.close p v ∈ (ss.objects b).finalizes) →
      (garbageOf ss l kept m.tchain refs (rankIn ss.objects nest top)).Sane xs := by
    intro xs hsub p v hv
    obtain ⟨hp, hvalue⟩ := (hacc.typed b hb).close (hsub p v hv)
    refine ⟨hacc.closes b hb p v (hsub p v hv), hp, fun a ha => ?_⟩
    obtain ⟨hheld, hne⟩ := hvalue a ha
    show rankIn ss.objects nest top a < rankIn ss.objects nest top p
    rw [rankIn_outer hp]
    exact rankIn_lt (htop a (hacc.inside b hb a hheld)) hne
  exact
    { inside := fun a ha => by
        by_cases hreach : ss.Reachable a
        · exact .inr ((hmem a).mpr hreach)
        · exact .inl (mem_unreachable.mpr ⟨hacc.inside b hb a ha, hreach⟩)
      finalizes := hsane _ fun p v hv => hv
      before := hsane _ fun p v hv => close_mem_finalizes (.inl hv)
      after := hsane _ fun p v hv => close_mem_finalizes (.inr hv)
      layered := (hacc.typed b hb).layered fun a ha => htop a (hacc.inside b hb a ha) }

theorem alive_nil (c : List Addr) : alive c [] = c :=
  List.filter_eq_self.mpr fun _ _ => decide_eq_true List.not_mem_nil

/-- The account holds when the sweep begins. -/
theorem Marked.counted (h : Marked ss l m kept) (hvalid : ss.Valid l)
    (hacc : ss.Accounted l refs nest) {top : Nat} (htop : ∀ a ∈ l, nest a ≤ top) :
    (garbageOf ss l kept m.tchain refs (rankIn ss.objects nest top)).Counted ⟨m.ss, refs, []⟩
      (ss.unreachable l) [] [] where
  chain := h.unreachable_eq ▸ h.chain
  nodup := h.unreachable_eq ▸ hvalid.nodup.filter _
  lost a ha := ha
  waiting a ha := (List.not_mem_nil ha).elim
  tchain := h.tchain
  apart a ha hlost := (mem_unreachable.mp hlost).2 ((h.mem_iff a).mp ha)
  unmarked a ha := by
    obtain ⟨hl, hreach⟩ := mem_unreachable.mp ha
    refine Bool.eq_false_iff.mpr fun hm => hreach ((h.mem_iff a).mp ((h.marked a hl).mp hm))
  marked a ha := (h.marked a (h.known a ha)).mpr ha
  counts a ha := by
    rw [alive_nil] at ha ⊢
    rw [List.count_nil, Nat.zero_add, h.same.objects]
    exact hacc.counts a ha
  dead a ha hdead := (hdead (mem_alive_nil.mpr ha)).elim
  keptCounts a ha := by
    have henough := hacc.enough a (h.known a ha)
    rw [alive_nil, List.count_nil, h.same.objects]
    show refs a = refs a - _ + 0 + _
    omega
  proper b hb := by
    rw [h.same.objects]
    exact hacc.proper h.mem_iff htop (mem_alive_nil.mp hb)
  outers a _ := by
    rw [h.same.objects]
    rfl
  same a _ := congrFun h.same.objects a

end Collect

/-- `CollectGarbage` ends. It frees exactly the unreachable objects, each of them once, in no more
turns of its loop than there are, and leaves a valid chain of the others; these keep their contents
and lose just the references from unreachable objects. -/
theorem collectGarbage_frees {ss : SQSharedState} {l : List Addr} (h : ss.Valid l)
    {refs nest : Addr → Nat} (hacc : ss.Accounted l refs nest) {fuel : Nat}
    (hfuel : l.length < fuel) :
    ∃ n s l', ss.collectGarbage fuel refs = some (n, s) ∧ s.freed.Perm (ss.unreachable l) ∧
      n ≤ (ss.unreachable l).length ∧ s.ss.Valid l' ∧ (∀ a, a ∈ l' ↔ ss.Reachable a) ∧
      ∀ a ∈ l', s.ss.objects a = ss.objects a ∧
        s.refs a + heldIn ss.objects (ss.unreachable l) a = refs a := by
  obtain ⟨m, kept, hmark, hmarked⟩ := exists_runMark h hfuel
  obtain ⟨top, htop⟩ : ∃ top, ∀ a ∈ l, nest a ≤ top :=
    ⟨l.toFinset.sup nest, fun a ha => Finset.le_sup (List.mem_toFinset.mpr ha)⟩
  have hcounted := hmarked.counted h hacc htop
  have hlength : (ss.unreachable l).length < fuel := by
    rw [← hmarked.unreachable_eq]
    exact (List.length_filter_le ..).trans_lt hfuel
  have hhead : m.ss.gcChain = (ss.unreachable l).head? := hcounted.chain.head_eq
  have hfirst : ∀ b, (ss.unreachable l).head? = some b → b ∈ ss.unreachable l :=
    fun b hb => List.mem_of_head? hb
  obtain ⟨hstart, hstep₀⟩ := hcounted.addNext hfirst
  rw [List.append_nil] at hstart
  obtain ⟨n, s, c, hloop, hend, hpassed, hstep, hn⟩ := @loop_passes _ fuel fuel 0 _ []
    (ss.unreachable l) hstart (fun b hb => (List.not_mem_nil hb).elim) hlength hlength.le
  obtain rfl := hend.eq_nil hpassed
  have hwhole := hstep₀.trans hstep
  obtain ⟨new, hfreed, hperm⟩ := hwhole.freed
  have htchain : Linked s.ss.links m.tchain kept := hend.tchain
  obtain ⟨q, hseg⟩ := htchain
  have hkept : kept.length ≤ fuel :=
    (List.Subperm.length_le (hmarked.nodup.subperm hmarked.known)).trans hfuel.le
  obtain ⟨marked, hunmark, hunmarked, -⟩ := unMarkLoop_eq s.ss hseg hkept
  refine ⟨n, { s with ss := { s.ss with marked, gcChain := m.tchain } }, kept, ?_, ?_, by omega, ?_,
    hmarked.mem_iff, fun a ha => ⟨hend.same a ha, ?_⟩⟩
  · unfold collectGarbage
    rw [hmark, Option.bind_eq_bind, Option.bind_some, hhead]
    show (Sweep.loop fuel fuel _ 0 _ >>= _) = _
    rw [hloop, Option.bind_eq_bind, Option.bind_some]
    show (unMarkLoop fuel m.tchain s.ss >>= _) = _
    rw [hunmark]
    rfl
  · rw [List.append_nil] at hfreed hperm
    exact hfreed ▸ hperm
  · have hroots : s.ss.roots = ss.roots := hwhole.roots.trans hmarked.same.roots
    exact
      { chain := ⟨q, hseg⟩
        nodup := hmarked.nodup
        unmarked := hunmarked
        closed := fun a ha b hb => by
          have hb' : b ∈ marks (s.ss.objects a) := hb
          rw [show s.ss.objects a = ss.objects a from hend.same a ha] at hb'
          obtain ⟨r, hr, hra⟩ := (hmarked.mem_iff a).mp ha
          exact (hmarked.mem_iff b).mpr ⟨r, hr, hra.tail hb'⟩
        roots := fun a ha => (hmarked.mem_iff a).mpr ⟨a, hroots ▸ ha, .refl⟩ }
  · have hcount := hend.keptCounts a ha
    have henough := hacc.enough a (hmarked.known a ha)
    rw [alive_nil, List.count_nil] at hcount
    replace hcount : s.refs a = refs a - heldIn ss.objects (ss.unreachable l) a + 0 + 0 := hcount
    show s.refs a + _ = _
    omega

section Sample

theorem sampleState_unreachable : sampleState.unreachable [0, 1, 2] = [2] := by
  have hclosed : ∀ a, sampleState.Reachable a → a = 0 ∨ a = 1 := by
    rintro a ⟨r, hr, hra⟩
    induction hra with
    | refl => exact .inl (List.mem_singleton.mp hr)
    | tail _ hbc ih =>
      rcases ih with rfl | rfl
      · exact .inr (List.mem_singleton.mp hbc)
      · cases hbc
  have hroot : sampleState.Reachable 0 := ⟨0, by decide, .refl⟩
  have harray : sampleState.Reachable 1 := ⟨0, by decide, .single (by decide)⟩
  have htable : ¬ sampleState.Reachable 2 := fun h => by simpa using hclosed 2 h
  simp [unreachable, hroot, harray, htable]

theorem sampleState_accounted : sampleState.Accounted [0, 1, 2] (fun _ => 1) fun _ => 0 := by
  constructor <;> rw [sampleState_unreachable]
  · decide
  · decide
  · decide
  · intro b hb
    rw [List.mem_singleton.mp hb]
    exact trivial
  · intro b hb p v hclose
    rw [List.mem_singleton.mp hb] at hclose
    have hdrops : Action.close p v ∈ [2].map Action.drop := hclose
    exact (close_notMem_map p v hdrops).elim

theorem collectGarbage_sampleState : ∃ n s l',
    sampleState.collectGarbage 4 (fun _ => 1) = some (n, s) ∧
    s.freed.Perm (sampleState.unreachable [0, 1, 2]) ∧
    n ≤ (sampleState.unreachable [0, 1, 2]).length ∧ s.ss.Valid l' ∧
    (∀ a, a ∈ l' ↔ sampleState.Reachable a) ∧
    ∀ a ∈ l', s.ss.objects a = sampleState.objects a ∧
      s.refs a + heldIn sampleState.objects (sampleState.unreachable [0, 1, 2]) a = 1 :=
  collectGarbage_frees sampleState_valid sampleState_accounted (by decide)

end Sample
end Sqnim.Gc
