import Sqnim.Gc.Collectable
import Sqnim.Lib.Tracing

/-!
# Marking

`RunMark` moves exactly the objects that its roots reach from the chain of the collector to a chain
of its own. The marker follows the walk of `Lib.Tracing` step by step.
-/
namespace Sqnim.Gc

open Sqnim.Object Sqnim.Lib Sqnim.Lib.DoublyLinked
open Tracing (Trace visit visitAll Reaches)

namespace SQSharedState

/-- The collector's chain holds the objects `l`, which are unmarked and refer only to each other. -/
structure Valid (ss : SQSharedState) (l : List Addr) : Prop where
  chain : Linked ss.links ss.gcChain l
  nodup : l.Nodup
  unmarked : ∀ a ∈ l, ss.marked a = false
  closed : ∀ a ∈ l, ∀ b ∈ ss.children a, b ∈ l
  roots : ∀ a ∈ ss.roots, a ∈ l

/-- The objects that the roots reach. -/
def Reachable (ss : SQSharedState) (a : Addr) : Prop := ∃ r ∈ ss.roots, Reaches ss.children r a

/-- Only marks and links differ. -/
def SameObjects (ss ss' : SQSharedState) : Prop :=
  ss' = { ss with marked := ss'.marked, links := ss'.links, gcChain := ss'.gcChain }

theorem SameObjects.children {ss ss' : SQSharedState} (h : ss.SameObjects ss') :
    ss'.children = ss.children := by
  rw [h]
  rfl

theorem SameObjects.trans {ss ss' ss'' : SQSharedState} (h : ss.SameObjects ss')
    (h' : ss'.SameObjects ss'') : ss.SameObjects ss'' := by
  unfold SameObjects at h h' ⊢
  rw [h] at h'
  exact h'

theorem SameObjects.relinked {ss ss' : SQSharedState} (h : ss.SameObjects ss')
    (marked : Addr → Bool) (links : Links Addr) (gcChain : Option Addr) :
    ss.SameObjects { ss' with marked, links, gcChain } := by
  unfold SameObjects at h ⊢
  rw [h]

end SQSharedState

open SQSharedState

/-- The state of the marker at a point of the walk: what the walk has left is on the new chain, the
rest still on the old one. -/
structure Follows (ss : SQSharedState) (l : List Addr) (s : Marking) (t : Trace Addr) : Prop where
  same : ss.SameObjects s.ss
  marked : ∀ a ∈ l, s.ss.marked a = true ↔ a ∈ t.entered
  chain : Linked s.ss.links s.ss.gcChain (l.filter fun a => a ∉ t.left)
  tchain : Linked s.ss.links s.tchain t.left
  nodup : t.left.Nodup
  known : ∀ a ∈ t.left, a ∈ l ∧ a ∈ t.entered

section Steps

variable {ss : SQSharedState} {l : List Addr} {s : Marking} {t : Trace Addr} {a : Addr}

theorem SQSharedState.Valid.follows (h : ss.Valid l) : Follows ss l ⟨ss, none⟩ ⟨[], []⟩ where
  same := rfl
  marked a ha := by
    rw [h.unmarked a ha]
    exact iff_of_false Bool.false_ne_true List.not_mem_nil
  chain := by
    rw [List.filter_eq_self.mpr fun a _ => decide_eq_true List.not_mem_nil]
    exact h.chain
  tchain := .nil ss.links
  nodup := .nil
  known a ha := by cases ha

theorem Follows.startMark (h : Follows ss l s t) : Follows ss l (s.startMark a) (t.enter a) where
  same := h.same.relinked ..
  marked b hb := by
    show Function.update s.ss.marked a true b = true ↔ b ∈ a :: t.entered
    rw [List.mem_cons, ← h.marked b hb]
    by_cases hba : b = a
    · subst hba
      rw [Function.update_self]
      exact iff_of_true rfl (.inl rfl)
    · rw [Function.update_of_ne hba]
      exact (or_iff_right hba).symm
  chain := h.chain
  tchain := h.tchain
  nodup := h.nodup
  known b hb := ⟨(h.known b hb).1, List.mem_cons_of_mem a (h.known b hb).2⟩

/-- One element less passes the filter. -/
theorem filter_notMem_cons (l left : List Addr) {a : Addr} {l₁ l₂ : List Addr}
    (hsplit : l.filter (fun b => b ∉ left) = l₁ ++ a :: l₂) (hnodup : l.Nodup) :
    l.filter (fun b => b ∉ a :: left) = l₁ ++ l₂ := by
  have hfilter : l.filter (fun b => b ∉ a :: left) =
      (l.filter fun b => b ∉ left).filter fun b => b ≠ a := by
    rw [List.filter_filter]
    refine List.filter_congr fun b _ => ?_
    rw [← Bool.decide_and, decide_eq_decide, List.mem_cons, not_or]
  have hsub : (l₁ ++ a :: l₂).Nodup := hsplit ▸ hnodup.filter _
  obtain ⟨-, hnodup₂, hdisj⟩ := List.nodup_append'.mp hsub
  rw [hfilter, hsplit, List.filter_append, List.filter_cons_of_neg (by simp),
    List.filter_eq_self.mpr, List.filter_eq_self.mpr]
  · intro b hb
    refine decide_eq_true fun hba => ?_
    exact (List.nodup_cons.mp hnodup₂).1 (hba ▸ hb)
  · intro b hb
    refine decide_eq_true fun hba => ?_
    exact hdisj (hba ▸ hb) (List.mem_cons_self ..)

theorem Follows.endMark (h : Follows ss l s t) (hnodup : l.Nodup) (ha : a ∈ l) (hleft : a ∉ t.left)
    (hentered : a ∈ t.entered) : Follows ss l (s.endMark a) (t.leave a) := by
  have hmem : a ∈ l.filter fun b => b ∉ t.left := List.mem_filter.mpr ⟨ha, decide_eq_true hleft⟩
  obtain ⟨l₁, l₂, hsplit⟩ := List.append_of_mem hmem
  have hwhole : (l₁ ++ a :: l₂).Nodup := hsplit ▸ hnodup.filter _
  have hchain : Linked s.ss.links s.ss.gcChain (l₁ ++ a :: l₂) := hsplit ▸ h.chain
  have hapart : ∀ b ∈ t.left, b ∉ l₁ ++ a :: l₂ := fun b hb hb' => by
    rw [← hsplit, List.mem_filter, decide_eq_true_eq] at hb'
    exact hb'.2 hb
  have hrest := hchain.unlink hwhole
  have hmarked := h.tchain.unlink_other hchain hwhole hapart
  have hsub : ∀ b ∈ l₁ ++ l₂, b ∈ l₁ ++ a :: l₂ := fun b hb => by
    rcases List.mem_append.mp hb with hb | hb
    · exact List.mem_append_left _ hb
    · exact List.mem_append_right l₁ (List.mem_cons_of_mem a hb)
  refine
    { same := h.same.relinked ..
      marked := h.marked
      chain := ?_
      tchain := hmarked.push h.nodup hleft
      nodup := List.nodup_cons.mpr ⟨hleft, h.nodup⟩
      known := fun b hb => ?_ }
  · rw [show (t.leave a).left = a :: t.left from rfl, filter_notMem_cons l t.left hsplit hnodup]
    refine hrest.push_other hmarked (fun b hb hb' => hapart b hb' (hsub b hb)) fun hself => ?_
    obtain ⟨-, hnodup₂, hdisj⟩ := List.nodup_append'.mp hwhole
    rcases List.mem_append.mp hself with hself | hself
    · exact hdisj hself (List.mem_cons_self ..)
    · exact (List.nodup_cons.mp hnodup₂).1 hself
  · rcases List.mem_cons.mp hb with rfl | hb
    · exact ⟨ha, hentered⟩
    · exact h.known b hb

end Steps

section Simulation

variable {ss : SQSharedState} {l : List Addr}

/-- Marking some objects, from the marking of each of them. -/
theorem markAll_follows {depth : Nat} {as : List Addr} {s : Marking} {t t' : Trace Addr}
    (hmark : ∀ a ∈ as, ∀ (s : Marking) (t t' : Trace Addr), Follows ss l s t →
      visit ss.children depth a t = some t' →
      ∃ s', Marking.mark depth a s = some s' ∧ Follows ss l s' t')
    (h : Follows ss l s t) (hvisit : visitAll ss.children depth as t = some t') :
    ∃ s', as.foldlM (fun s a => Marking.mark depth a s) s = some s' ∧ Follows ss l s' t' := by
  induction as generalizing s t with
  | nil =>
    cases hvisit
    exact ⟨s, rfl, h⟩
  | cons a as ih =>
    rw [visitAll, List.foldlM_cons] at hvisit
    obtain ⟨t₁, hvisit₁, hvisit₂⟩ := Option.bind_eq_some_iff.mp hvisit
    obtain ⟨s₁, hrun₁, h₁⟩ := hmark a (List.mem_cons_self ..) s t t₁ h hvisit₁
    obtain ⟨s₂, hrun₂, h₂⟩ := ih (fun b hb => hmark b (List.mem_cons_of_mem a hb)) h₁ hvisit₂
    refine ⟨s₂, ?_, h₂⟩
    rw [List.foldlM_cons, hrun₁]
    exact hrun₂

/-- `Mark` does what the walk does. -/
theorem mark_follows (hvalid : ss.Valid l) {depth : Nat} {a : Addr} {s : Marking}
    {t t' : Trace Addr} (ha : a ∈ l) (h : Follows ss l s t)
    (hvisit : visit ss.children depth a t = some t') :
    ∃ s', Marking.mark depth a s = some s' ∧ Follows ss l s' t' := by
  induction depth generalizing a s t t' with
  | zero => cases hvisit
  | succ depth ih =>
    rw [visit] at hvisit
    rw [Marking.mark]
    by_cases hknown : a ∈ t.entered
    · rw [if_pos hknown] at hvisit
      cases hvisit
      rw [if_pos ((h.marked a ha).mpr hknown)]
      exact ⟨s, rfl, h⟩
    · rw [if_neg hknown] at hvisit
      rw [if_neg fun hm => hknown ((h.marked a ha).mp hm), h.same.children]
      obtain ⟨t₁, hvisit₁, rfl⟩ := Option.map_eq_some_iff.mp hvisit
      obtain ⟨s₁, hrun₁, h₁⟩ := markAll_follows
        (fun b hb s t t' => ih (hvalid.closed a ha b hb)) (h.startMark (a := a)) hvisit₁
      obtain ⟨new, hwalk⟩ := Tracing.walked_visitAll (fun b _ _ _ => Tracing.walked_visit) hvisit₁
      have hentered : a ∈ t₁.entered := hwalk.mono (List.mem_cons_self ..)
      have hleft : a ∉ t₁.left := by
        rw [hwalk.left, List.mem_append, not_or]
        refine ⟨fun hnew => hwalk.fresh a hnew (List.mem_cons_self ..), fun hold => ?_⟩
        exact hknown (h.known a hold).2
      refine ⟨s₁.endMark a, ?_, h₁.endMark hvalid.nodup ha hleft hentered⟩
      rw [hrun₁]
      rfl

end Simulation

/-- What `RunMark` leaves: the reachable objects on a chain of their own, in the order `kept`. -/
structure Marked (ss : SQSharedState) (l : List Addr) (s : Marking) (kept : List Addr) : Prop where
  same : ss.SameObjects s.ss
  tchain : Linked s.ss.links s.tchain kept
  chain : Linked s.ss.links s.ss.gcChain (l.filter fun a => a ∉ kept)
  marked : ∀ a ∈ l, s.ss.marked a = true ↔ a ∈ kept
  nodup : kept.Nodup
  known : ∀ a ∈ kept, a ∈ l
  mem_iff : ∀ a, a ∈ kept ↔ ss.Reachable a

theorem exists_runMark {ss : SQSharedState} {l : List Addr} (h : ss.Valid l) {depth : Nat}
    (hdepth : l.length < depth) : ∃ s kept, ss.runMark depth = some s ∧ Marked ss l s kept := by
  obtain ⟨t, hvisit, hnodup, hmem, hentered⟩ := Tracing.exists_trace h.closed h.roots hdepth
  obtain ⟨s, hrun, hfollows⟩ := markAll_follows
    (fun a ha s t t' => mark_follows h (h.roots a ha)) h.follows hvisit
  refine ⟨s, t.left, hrun, ?_⟩
  exact
    { same := hfollows.same
      tchain := hfollows.tchain
      chain := hfollows.chain
      marked := fun a ha => (hfollows.marked a ha).trans (hentered a)
      nodup := hnodup
      known := fun a ha => (hfollows.known a ha).1
      mem_iff := hmem }

/-- `RunMark` ends, and tells the reachable objects from the others: it marks them and moves each of
them once to the new chain, while the others stay on the old one in their order. -/
theorem runMark_marks_reachable {ss : SQSharedState} {l : List Addr} (h : ss.Valid l) {depth : Nat}
    (hdepth : l.length < depth) :
    ∃ s kept lost, ss.runMark depth = some s ∧ ss.SameObjects s.ss ∧
      Linked s.ss.links s.tchain kept ∧ Linked s.ss.links s.ss.gcChain lost ∧
      kept.Nodup ∧ lost.Sublist l ∧ (∀ a, a ∈ kept ↔ ss.Reachable a) ∧
      (∀ a ∈ l, a ∈ lost ↔ ¬ ss.Reachable a) ∧
      ∀ a ∈ l, s.ss.marked a = true ↔ ss.Reachable a := by
  obtain ⟨s, kept, hrun, hmarked⟩ := exists_runMark h hdepth
  refine ⟨s, kept, l.filter fun a => a ∉ kept, hrun, hmarked.same, hmarked.tchain, hmarked.chain,
    hmarked.nodup, List.filter_sublist, hmarked.mem_iff, fun a ha => ?_, fun a ha => ?_⟩
  · rw [List.mem_filter, decide_eq_true_eq, hmarked.mem_iff]
    exact and_iff_right ha
  · exact (hmarked.marked a ha).trans (hmarked.mem_iff a)

section Sample

def sampleObjects : Objects
  | 0 => .thread .ofNull .ofNull .ofNull .ofNull .ofNull [⟨.otArray, 1⟩] [] []
  | 1 => .array [.ofInteger 7]
  | _ => .table none [(.ofInteger 0, ⟨.otTable, 2⟩)]

/-- The stack of the root holds an array; a table that holds itself is on no stack. -/
def sampleState : SQSharedState where
  objects := sampleObjects
  marked _ := false
  links := ⟨fun a => if a < 2 then some (a + 1) else none,
    fun a => if a = 0 then none else some (a - 1)⟩
  gcChain := some 0
  rootVm := 0
  refsTable := []
  registry := .ofNull
  consts := .ofNull
  metamethodsmap := .ofNull
  tableDefaultDelegate := .ofNull
  arrayDefaultDelegate := .ofNull
  stringDefaultDelegate := .ofNull
  numberDefaultDelegate := .ofNull
  generatorDefaultDelegate := .ofNull
  threadDefaultDelegate := .ofNull
  closureDefaultDelegate := .ofNull
  classDefaultDelegate := .ofNull
  instanceDefaultDelegate := .ofNull
  weakrefDefaultDelegate := .ofNull

theorem sampleState_valid : sampleState.Valid [0, 1, 2] where
  chain := ⟨some 2, rfl, rfl, rfl, rfl, rfl, rfl, rfl, rfl⟩
  nodup := by decide
  unmarked _ _ := rfl
  closed := by decide
  roots := by decide

theorem runMark_sampleState : ∃ s kept lost, sampleState.runMark 4 = some s ∧
    sampleState.SameObjects s.ss ∧ Linked s.ss.links s.tchain kept ∧
    Linked s.ss.links s.ss.gcChain lost ∧ kept.Nodup ∧ lost.Sublist [0, 1, 2] ∧
    (∀ a, a ∈ kept ↔ sampleState.Reachable a) ∧
    (∀ a ∈ [0, 1, 2], a ∈ lost ↔ ¬ sampleState.Reachable a) ∧
    ∀ a ∈ [0, 1, 2], s.ss.marked a = true ↔ sampleState.Reachable a :=
  runMark_marks_reachable sampleState_valid (by decide)

end Sample
end Sqnim.Gc
