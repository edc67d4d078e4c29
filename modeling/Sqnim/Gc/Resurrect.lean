import Sqnim.Gc.Mark

/-!
# ResurrectUnreachable

The unreachable objects come back on the chain, in front of the others, and a new array holds those
that a script may see. Nothing else changes, and the collector may run again.
-/
namespace Sqnim.Gc

open Sqnim.Object Sqnim.Lib Sqnim.Lib.DoublyLinked
open SQObjectType

namespace SQSharedState

section Loops

theorem unMarkLoop_eq (ss : SQSharedState) {fuel : Nat} {p h q : Option Addr} {l : List Addr}
    (hl : Segment ss.links p h l q none) (hfuel : l.length ≤ fuel) :
    ∃ marked, unMarkLoop fuel h ss = some { ss with marked } ∧ (∀ a ∈ l, marked a = false) ∧
      ∀ a, ss.marked a = false → marked a = false := by
  induction l generalizing fuel p h ss with
  | nil =>
    obtain ⟨-, rfl⟩ := hl
    exact ⟨ss.marked, by cases fuel <;> rfl, fun a ha => (List.not_mem_nil ha).elim, fun a ha => ha⟩
  | cons i l ih =>
    obtain ⟨rfl, -, hrest⟩ := hl
    obtain ⟨fuel, rfl⟩ := Nat.exists_eq_add_of_le hfuel
    rw [List.length_cons, show l.length + 1 + fuel = l.length + fuel + 1 by omega, unMarkLoop]
    obtain ⟨marked, hrun, hl, hold⟩ :=
      ih { ss with marked := Function.update ss.marked i false } hrest
        (Nat.le_add_right _ fuel)
    have hi : marked i = false := hold i (Function.update_self ..)
    refine ⟨marked, hrun, fun a ha => ?_, fun a ha => hold a ?_⟩
    · rcases List.mem_cons.mp ha with rfl | ha
      · exact hi
      · exact hl a ha
    · by_cases hai : a = i
      · subst hai
        exact Function.update_self ..
      · exact (Function.update_of_ne hai ..).trans ha

theorem resurrectLoop_eq (ss : SQSharedState) {fuel : Nat} {p h q : Option Addr} {l : List Addr}
    (hl : Segment ss.links p h l q none) (hfuel : l.length ≤ fuel) (r : Resurrected) :
    ss.resurrectLoop fuel h r = some ⟨l.getLast?.or r.rlast,
      r.values ++ (l.filter ss.visible).map ss.sqo, r.n + l.length⟩ := by
  induction l generalizing fuel p h r with
  | nil =>
    obtain ⟨-, rfl⟩ := hl
    rw [List.filter_nil, List.map_nil, List.append_nil]
    cases fuel <;> rfl
  | cons i l ih =>
    obtain ⟨rfl, -, hrest⟩ := hl
    obtain ⟨fuel, rfl⟩ := Nat.exists_eq_add_of_le hfuel
    rw [List.length_cons, show l.length + 1 + fuel = l.length + fuel + 1 by omega, resurrectLoop,
      ih hrest (Nat.le_add_right _ fuel), List.getLast?_cons]
    congr 2
    · cases l.getLast? <;> rfl
    · by_cases hi : ss.visible i = true
      · rw [if_pos hi, List.filter_cons_of_pos hi, List.map_cons, List.append_assoc]
        rfl
      · rw [if_neg hi, List.filter_cons_of_neg hi]
    · show r.n + 1 + l.length = r.n + (l.length + 1)
      omega

end Loops

section Objects

theorem markObject_sqo {ss : SQSharedState} {a : Addr} (ha : a < 2 ^ 64) :
    markObject (ss.sqo a) = some a := by
  have haddr : (ss.sqo a).addr = a := by
    show (BitVec.ofNat 64 a).toNat = a
    rw [BitVec.toNat_ofNat, Nat.mod_eq_of_lt ha]
  unfold markObject
  rw [haddr]
  unfold sqo SQCollectable.getType
  cases ss.objects a <;> rfl

/-- The objects with a new array of some of them. -/
def withArray (ss : SQSharedState) (malloc : Addr) (shown : List Addr) : Objects :=
  Function.update ss.objects malloc (.array (shown.map ss.sqo))

variable {ss : SQSharedState} {l shown : List Addr} {malloc : Addr}

theorem withArray_of_mem (hmalloc : malloc ∉ l) {a : Addr} (ha : a ∈ l) :
    ss.withArray malloc shown a = ss.objects a :=
  Function.update_of_ne (fun heq : a = malloc => hmalloc (heq ▸ ha)) ..

/-- The array refers to objects of the chain, and they refer to what they did. -/
theorem Valid.closed_withArray (h : ss.Valid l) (hword : ∀ a ∈ l, a < 2 ^ 64) (hmalloc : malloc ∉ l)
    (hshown : ∀ a ∈ shown, a ∈ l) {a b : Addr} (ha : a ∈ malloc :: l)
    (hb : b ∈ marks (ss.withArray malloc shown a)) :
    b ∈ malloc :: l := by
  rcases List.mem_cons.mp ha with rfl | ha
  · rw [withArray, Function.update_self] at hb
    obtain ⟨o, ho, hob⟩ := List.mem_filterMap.mp hb
    obtain ⟨c, hc, rfl⟩ := List.mem_map.mp ho
    have hcl : c ∈ l := hshown c hc
    rw [markObject_sqo (hword c hcl)] at hob
    exact List.mem_cons_of_mem a (Option.some.inj hob ▸ hcl)
  · rw [withArray_of_mem hmalloc ha] at hb
    exact List.mem_cons_of_mem malloc (h.closed a ha b hb)

end Objects
end SQSharedState

open SQSharedState

/-- What `ResurrectUnreachable` leaves, when `lost` are the unreachable objects of the chain `l`. -/
structure Restored (ss ss' : SQSharedState) (malloc : Addr) (l lost l' : List Addr) (n : Nat)
    (o : SQObject) : Prop where
  count : n = lost.length
  valid : ss'.Valid l'
  objects : ∀ a ∈ l, ss'.objects a = ss.objects a
  null : lost = [] → o = .ofNull ∧ l'.Perm l
  array : lost ≠ [] → o = ⟨otArray, BitVec.ofNat 64 malloc⟩ ∧ l'.Perm (malloc :: l) ∧
    ss'.objects malloc = .array ((lost.filter ss.visible).map ss.sqo)

section Restore

variable {ss : SQSharedState} {l kept : List Addr} {s : Marking}

theorem perm_filter_append (hnodup : l.Nodup) (hkept : kept.Nodup) (hmem : ∀ a ∈ kept, a ∈ l) :
    (l.filter (fun a => a ∉ kept) ++ kept).Perm l := by
  refine (List.perm_ext_iff_of_nodup ?_ hnodup).mpr fun a => ?_
  · refine List.nodup_append'.mpr ⟨hnodup.filter _, hkept, fun a ha ha' => ?_⟩
    exact of_decide_eq_true (List.mem_filter.mp ha).2 ha'
  · rw [List.mem_append, List.mem_filter, decide_eq_true_eq]
    constructor
    · rintro (ha | ha)
      · exact ha.1
      · exact hmem a ha
    · intro ha
      by_cases hk : a ∈ kept
      · exact .inr hk
      · exact .inl ⟨ha, hk⟩

/-- Where nothing is lost the chain of the reachable objects is the chain again. -/
theorem Marked.restored_null (h : Marked ss l s kept) (hvalid : ss.Valid l)
    (hlost : l.filter (fun a => a ∉ kept) = []) {fuel : Nat} (hfuel : l.length < fuel)
    (malloc : Addr) : ∃ ss', unMarkLoop fuel s.tchain { s.ss with gcChain := s.tchain } = some ss' ∧
      Restored ss ss' malloc l [] kept 0 .ofNull := by
  have hperm : kept.Perm l := by
    have := perm_filter_append hvalid.nodup h.nodup h.known
    rwa [hlost] at this
  obtain ⟨q, hseg⟩ := h.tchain
  obtain ⟨marked, hrun, hunmarked, -⟩ := unMarkLoop_eq
    { s.ss with gcChain := s.tchain } hseg (hperm.length_eq ▸ hfuel.le)
  have hsame : ss.SameObjects { s.ss with marked, gcChain := s.tchain } :=
    h.same.relinked marked s.ss.links s.tchain
  refine ⟨_, hrun, ?_⟩
  exact
    { count := rfl
      valid :=
        { chain := ⟨q, hseg⟩
          nodup := h.nodup
          unmarked := hunmarked
          closed := fun a ha b hb => by
            rw [hsame.children] at hb
            exact hperm.mem_iff.mpr (hvalid.closed a (h.known a ha) b hb)
          roots := fun a ha => by
            rw [hsame] at ha
            exact hperm.mem_iff.mpr (hvalid.roots a ha) }
      objects := fun a _ => by rw [hsame]
      null := fun _ => ⟨rfl, hperm⟩
      array := fun hne => (hne rfl).elim }

/-- The lost objects, a new one and the reachable objects, as `ResurrectUnreachable` links them. -/
theorem Marked.linked_join (h : Marked ss l s kept) (hvalid : ss.Valid l) {malloc last : Addr}
    (hmalloc : malloc ∉ l) {before : List Addr}
    (hlost : l.filter (fun a => a ∉ kept) = before ++ [last]) :
    Linked ((s.ss.links.push s.tchain malloc).1.join last (s.ss.links.push s.tchain malloc).2)
      s.ss.gcChain (before ++ [last] ++ malloc :: kept) ∧
    (before ++ [last] ++ malloc :: kept).Perm (malloc :: l) := by
  have hperm := perm_filter_append hvalid.nodup h.nodup h.known
  rw [hlost] at hperm
  have hdisj := (List.nodup_append'.mp (hperm.nodup_iff.mpr hvalid.nodup)).2.2
  have hwhole : (before ++ [last] ++ malloc :: kept).Perm (malloc :: l) :=
    List.perm_middle.trans (hperm.cons malloc)
  have hgone : malloc ∉ before ++ [last] := fun hmem =>
    hmalloc (hperm.mem_iff.mp (List.mem_append_left kept hmem))
  have hpushed := h.tchain.push h.nodup fun hmem => hmalloc (h.known malloc hmem)
  have hother := (hlost ▸ h.chain).push_other h.tchain (fun a ha ha' => hdisj ha ha') hgone
  refine ⟨hother.join hpushed ?_, hwhole⟩
  exact hwhole.nodup_iff.mpr (List.nodup_cons.mpr ⟨hmalloc, hvalid.nodup⟩)

/-- The lost objects, the new array and the reachable objects make the new chain. -/
theorem Marked.restored_array (h : Marked ss l s kept) (hvalid : ss.Valid l)
    (hword : ∀ a ∈ l, a < 2 ^ 64) {malloc resurrected : Addr} (hmalloc : malloc ∉ l)
    {lost : List Addr} (hlost : l.filter (fun a => a ∉ kept) = lost) (hne : lost ≠ [])
    (hhead : s.ss.gcChain = some resurrected) {fuel : Nat} (hfuel : l.length < fuel) :
    ∃ ss' l', unMarkLoop fuel (some resurrected) (relinkResurrected malloc resurrected
        ⟨lost.getLast?, (lost.filter ss.visible).map ss.sqo, lost.length⟩
        { s.ss with gcChain := s.tchain }) = some ss' ∧
      Restored ss ss' malloc l lost l' lost.length ⟨otArray, BitVec.ofNat 64 malloc⟩ := by
  obtain ⟨before, last, rfl⟩ : ∃ before last, lost = before ++ [last] :=
    ⟨lost.dropLast, lost.getLast hne, (List.dropLast_concat_getLast hne).symm⟩
  obtain ⟨⟨q, hseg⟩, hwhole⟩ := h.linked_join hvalid hmalloc hlost
  have hshown : ∀ a ∈ (before ++ [last]).filter ss.visible, a ∈ l := fun a ha => by
    have hmem := (List.mem_filter.mp ha).1
    rw [← hlost] at hmem
    exact (List.mem_filter.mp hmem).1
  -- the state before the marks go
  generalize hrelinked : relinkResurrected malloc resurrected ⟨(before ++ [last]).getLast?,
    ((before ++ [last]).filter ss.visible).map ss.sqo, (before ++ [last]).length⟩
    { s.ss with gcChain := s.tchain } = relinked
  have hobjects : relinked.objects =
      ss.withArray malloc ((before ++ [last]).filter ss.visible) := by
    rw [← hrelinked, h.same]
    rfl
  have hroots : relinked.roots = ss.roots := by
    rw [← hrelinked, h.same]
    rfl
  have hchain : Segment relinked.links none (some resurrected)
      (before ++ [last] ++ malloc :: kept) q none := by
    rw [← hrelinked, relinkResurrected, List.getLast?_concat, ← hhead]
    exact hseg
  have hgcChain : relinked.gcChain = some resurrected := by
    rw [← hrelinked]
    rfl
  have hlength : (before ++ [last] ++ malloc :: kept).length ≤ fuel := by
    rw [hwhole.length_eq, List.length_cons]
    exact hfuel
  obtain ⟨marked, hrun, hunmarked, -⟩ := unMarkLoop_eq relinked hchain hlength
  refine ⟨_, before ++ [last] ++ malloc :: kept, hrun, ?_⟩
  exact
    { count := rfl
      valid :=
        { chain := ⟨q, hgcChain ▸ hchain⟩
          nodup := hwhole.nodup_iff.mpr (List.nodup_cons.mpr ⟨hmalloc, hvalid.nodup⟩)
          unmarked := hunmarked
          closed := fun a ha b hb => by
            unfold SQSharedState.children at hb
            rw [hobjects] at hb
            exact hwhole.mem_iff.mpr
              (hvalid.closed_withArray hword hmalloc hshown (hwhole.mem_iff.mp ha) hb)
          roots := fun a ha => by
            have ha' : a ∈ ss.roots := hroots ▸ ha
            exact hwhole.mem_iff.mpr (List.mem_cons_of_mem malloc (hvalid.roots a ha')) }
      objects := fun a ha => by
        show relinked.objects a = _
        rw [hobjects, withArray_of_mem hmalloc ha]
      null := fun hnil => (hne hnil).elim
      array := fun _ => ⟨rfl, hwhole, by
        show relinked.objects malloc = _
        rw [hobjects, withArray, Function.update_self]⟩ }

/-- The loop of `ResurrectUnreachable` finds the unreachable objects. -/
theorem Marked.resurrectLoop_eq (h : Marked ss l s kept) {lost : List Addr}
    (hlost : l.filter (fun a => a ∉ kept) = lost) {fuel : Nat} (hfuel : l.length < fuel) :
    resurrectLoop { s.ss with gcChain := s.tchain } fuel s.ss.gcChain ⟨none, [], 0⟩ =
      some ⟨lost.getLast?, (lost.filter ss.visible).map ss.sqo, lost.length⟩ := by
  obtain ⟨q, hseg⟩ := hlost ▸ h.chain
  have hlength : lost.length ≤ fuel := by
    rw [← hlost]
    exact (List.length_filter_le ..).trans hfuel.le
  have hvisible : visible { s.ss with gcChain := s.tchain } = ss.visible := by
    rw [h.same]
    rfl
  have hsqo : sqo { s.ss with gcChain := s.tchain } = ss.sqo := by
    rw [h.same]
    rfl
  rw [SQSharedState.resurrectLoop_eq { s.ss with gcChain := s.tchain } hseg hlength,
    hvisible, hsqo, Option.or_none, List.nil_append, Nat.zero_add]

end Restore

/-- `ResurrectUnreachable` ends; it counts the unreachable objects, pushes an array of those that a
script may see, or null, and leaves a valid chain of all objects. -/
theorem resurrectUnreachable_restores {ss : SQSharedState} {l : List Addr} (h : ss.Valid l)
    (hword : ∀ a ∈ l, a < 2 ^ 64) {malloc : Addr} (hmalloc : malloc ∉ l) {fuel : Nat}
    (hfuel : l.length < fuel) :
    ∃ n o ss' lost l', ss.resurrectUnreachable fuel malloc = some (n, o, ss') ∧
      lost.Nodup ∧ (∀ a, a ∈ lost ↔ a ∈ l ∧ ¬ ss.Reachable a) ∧
      Restored ss ss' malloc l lost l' n o := by
  obtain ⟨s, kept, hmark, hmarked⟩ := exists_runMark h hfuel
  have hlost : ∀ a, a ∈ l.filter (fun a => a ∉ kept) ↔ a ∈ l ∧ ¬ ss.Reachable a := fun a => by
    rw [List.mem_filter, decide_eq_true_eq, hmarked.mem_iff]
  have hnodup := h.nodup.filter fun a => a ∉ kept
  unfold resurrectUnreachable
  rw [hmark, Option.bind_eq_bind, Option.bind_some]
  cases hhead : s.ss.gcChain with
  | none =>
    have hnil : l.filter (fun a => a ∉ kept) = [] := by
      have := hmarked.chain.head_eq
      rwa [hhead, eq_comm, List.head?_eq_none_iff] at this
    obtain ⟨ss', hrun, hrestored⟩ := hmarked.restored_null h hnil hfuel malloc
    refine ⟨0, .ofNull, ss', [], kept, ?_, .nil, hnil ▸ hlost, hrestored⟩
    show (unMarkLoop fuel s.tchain { s.ss with gcChain := s.tchain } >>= _) = _
    rw [hrun]
    rfl
  | some resurrected =>
    have hne : l.filter (fun a => a ∉ kept) ≠ [] := fun hnil => by
      have := hmarked.chain.head_eq
      rw [hhead, hnil] at this
      cases this
    obtain ⟨ss', l', hrun, hrestored⟩ :=
      hmarked.restored_array h hword hmalloc rfl hne hhead hfuel
    refine ⟨_, _, ss', _, l', ?_, hnodup, hlost, hrestored⟩
    have hloop := hmarked.resurrectLoop_eq rfl hfuel
    rw [hhead] at hloop
    show (resurrectLoop { s.ss with gcChain := s.tchain } fuel (some resurrected) ⟨none, [], 0⟩ >>=
      _) = _
    rw [hloop, Option.bind_eq_bind, Option.bind_some]
    show (unMarkLoop fuel (some resurrected) _ >>= _) = _
    rw [hrun]
    rfl

theorem resurrectUnreachable_sampleState : ∃ n o ss' lost l',
    sampleState.resurrectUnreachable 4 3 = some (n, o, ss') ∧ lost.Nodup ∧
    (∀ a, a ∈ lost ↔ a ∈ [0, 1, 2] ∧ ¬ sampleState.Reachable a) ∧
    Restored sampleState ss' 3 [0, 1, 2] lost l' n o :=
  resurrectUnreachable_restores sampleState_valid (by decide) (by decide) (by decide)

end Sqnim.Gc
