import Mathlib

/-!
# Doubly linked lists

Lists whose nodes carry a link to the next and to the previous node. A node is pushed in front of a
list and taken out of the middle of it, given its address only. An operation on one list leaves the
lists of other nodes alone.
-/
namespace Sqnim.Lib.DoublyLinked

variable {α : Type}

structure Links (α : Type) where
  next : α → Option α
  prev : α → Option α

/-- The nodes of a piece of a list: `p` is before it, `h` leads to it, `q` is its last node, or `p`,
and `t` is the link behind it. -/
def Segment (k : Links α) : Option α → Option α → List α → Option α → Option α → Prop
  | p, h, [], q, t => p = q ∧ h = t
  | p, h, i :: l, q, t => h = some i ∧ k.prev i = p ∧ Segment k (some i) (k.next i) l q t

/-- The nodes of a whole list. -/
def Linked (k : Links α) (h : Option α) (l : List α) : Prop := ∃ q, Segment k none h l q none

section Segment

variable {k k' : Links α}

theorem segment_append {p h q t : Option α} {l₁ l₂ : List α} : Segment k p h (l₁ ++ l₂) q t ↔
    ∃ p' h', Segment k p h l₁ p' h' ∧ Segment k p' h' l₂ q t := by
  induction l₁ generalizing p h with
  | nil =>
    constructor
    · intro hl
      exact ⟨p, h, ⟨rfl, rfl⟩, hl⟩
    · rintro ⟨p', h', ⟨rfl, rfl⟩, hl⟩
      exact hl
  | cons i l₁ ih =>
    constructor
    · rintro ⟨hh, hp, hl⟩
      obtain ⟨p', h', hl₁, hl₂⟩ := ih.mp hl
      exact ⟨p', h', ⟨hh, hp, hl₁⟩, hl₂⟩
    · rintro ⟨p', h', ⟨hh, hp, hl₁⟩, hl₂⟩
      exact ⟨hh, hp, ih.mpr ⟨p', h', hl₁, hl₂⟩⟩

theorem Segment.congr {p h q t : Option α} {l : List α} (hl : Segment k p h l q t)
    (hnext : ∀ i ∈ l, k'.next i = k.next i) (hprev : ∀ i ∈ l, k'.prev i = k.prev i) :
    Segment k' p h l q t := by
  induction l generalizing p h with
  | nil => exact hl
  | cons i l ih =>
    obtain ⟨hh, hp, hrest⟩ := hl
    refine ⟨hh, (hprev i (List.mem_cons_self ..)).trans hp, ?_⟩
    rw [hnext i (List.mem_cons_self ..)]
    exact ih hrest (fun j hj => hnext j (List.mem_cons_of_mem i hj))
      fun j hj => hprev j (List.mem_cons_of_mem i hj)

theorem Segment.last_eq {p h q t : Option α} {l : List α} (hl : Segment k p h l q t) :
    q = l.getLast?.or p := by
  induction l generalizing p h with
  | nil => exact hl.1.symm
  | cons i l ih =>
    rw [ih hl.2.2, List.getLast?_cons]
    cases l.getLast? <;> rfl

/-- The first link of a piece. -/
theorem Segment.head_eq {p h q t : Option α} {l : List α} (hl : Segment k p h l q t) :
    h = l.head?.or t := by
  cases l with
  | nil => exact hl.2
  | cons i l => exact hl.1

/-- The piece starts behind another node. -/
theorem Segment.replace_prev {p p' h q t : Option α} {i : α} {l : List α}
    (hl : Segment k p h (i :: l) q t) (hnext : ∀ j ∈ i :: l, k'.next j = k.next j)
    (hself : k'.prev i = p') (hprev : ∀ j ∈ l, k'.prev j = k.prev j) :
    Segment k' p' h (i :: l) q t := by
  obtain ⟨hh, -, hrest⟩ := hl
  refine ⟨hh, hself, ?_⟩
  rw [hnext i (List.mem_cons_self ..)]
  exact hrest.congr (fun j hj => hnext j (List.mem_cons_of_mem i hj)) hprev

/-- The piece leads to another node. -/
theorem Segment.replace_next {p h q t t' : Option α} {i : α} {l : List α}
    (hl : Segment k p h (l ++ [i]) q t) (hprev : ∀ j ∈ l ++ [i], k'.prev j = k.prev j)
    (hself : k'.next i = t') (hnext : ∀ j ∈ l, k'.next j = k.next j) :
    Segment k' p h (l ++ [i]) q t' := by
  obtain ⟨p', h', hl₁, hh, hp, hq, -⟩ := segment_append.mp hl
  refine segment_append.mpr ⟨p', h', hl₁.congr hnext
    (fun j hj => hprev j (List.mem_append_left [i] hj)), hh, ?_, hq, hself⟩
  rw [hprev i (List.mem_append_right l (List.mem_singleton_self i))]
  exact hp

end Segment

namespace Linked

variable {k k' : Links α} {h : Option α} {l : List α}

theorem congr (hl : Linked k h l) (hnext : ∀ i ∈ l, k'.next i = k.next i)
    (hprev : ∀ i ∈ l, k'.prev i = k.prev i) : Linked k' h l := by
  obtain ⟨q, hl⟩ := hl
  exact ⟨q, hl.congr hnext hprev⟩

theorem head_eq (hl : Linked k h l) : h = l.head? := by
  obtain ⟨q, hl⟩ := hl
  rw [hl.head_eq, Option.or_none]

theorem nil (k : Links α) : Linked k none [] := ⟨none, rfl, rfl⟩

/-- The links of a node in the middle. -/
theorem links_eq {i : α} {l₁ l₂ : List α} (hl : Linked k h (l₁ ++ i :: l₂)) :
    k.prev i = l₁.getLast? ∧ k.next i = l₂.head? := by
  obtain ⟨q, hl⟩ := hl
  obtain ⟨p', h', hl₁, -, hp, hrest⟩ := segment_append.mp hl
  rw [hp, hl₁.last_eq, hrest.head_eq, Option.or_none, Option.or_none]
  exact ⟨rfl, rfl⟩

end Linked

section Operations

variable [DecidableEq α]

/-- Put a node in front of a list, whose first node is `chain`. -/
def Links.push (k : Links α) (chain : Option α) (c : α) : Links α × Option α :=
  let prev := Function.update k.prev c none
  let next := Function.update k.next c chain
  let prev := match chain with
    | some d => Function.update prev d (some c)
    | none => prev
  (⟨next, prev⟩, some c)

/-- Take a node out of a list, whose first node is `chain`. -/
def Links.unlink (k : Links α) (chain : Option α) (c : α) : Links α × Option α :=
  let (next, chain) := match k.prev c with
    | some p => (Function.update k.next p (k.next c), chain)
    | none => (k.next, k.next c)
  let prev := match next c with
    | some n => Function.update k.prev n (k.prev c)
    | none => k.prev
  (⟨Function.update next c none, Function.update prev c none⟩, chain)

/-- Lead the last node of a list, `last`, to a list whose first node is `chain`. -/
def Links.join (k : Links α) (last : α) (chain : Option α) : Links α where
  next := Function.update k.next last chain
  prev := match chain with
    | some d => Function.update k.prev d (some last)
    | none => k.prev

variable {k : Links α} {chain : Option α} {c : α} {l : List α}

theorem push_next_of_ne {i : α} (hi : i ≠ c) : (k.push chain c).1.next i = k.next i :=
  Function.update_of_ne hi ..

theorem push_prev_of_ne {i : α} (hi : i ≠ c) (hchain : chain ≠ some i) :
    (k.push chain c).1.prev i = k.prev i := by
  unfold Links.push
  cases chain with
  | none => exact Function.update_of_ne hi ..
  | some d =>
    have hd : i ≠ d := fun h => hchain (h ▸ rfl)
    exact (Function.update_of_ne hd ..).trans (Function.update_of_ne hi ..)

theorem Linked.push (hl : Linked k chain l) (hnodup : l.Nodup) (hc : c ∉ l) :
    Linked (k.push chain c).1 (k.push chain c).2 (c :: l) := by
  have hnext : (k.push chain c).1.next c = chain := Function.update_self ..
  have hfirst : (k.push chain c).1.prev c = none := by
    unfold Links.push
    cases chain with
    | none => exact Function.update_self ..
    | some d =>
      have hne : c ≠ d := by
        rintro rfl
        exact hc (List.mem_of_head? hl.head_eq.symm)
      exact (Function.update_of_ne hne ..).trans (Function.update_self ..)
  obtain ⟨q, hl⟩ := hl
  cases l with
  | nil =>
    obtain ⟨-, hchain⟩ := hl
    exact ⟨some c, rfl, hfirst, rfl, hnext.trans hchain⟩
  | cons d l =>
    refine ⟨q, rfl, hfirst, ?_⟩
    obtain ⟨hchain, -, hrest⟩ := hl
    obtain ⟨hd, -⟩ := List.nodup_cons.mp hnodup
    rw [hnext]
    subst hchain
    refine ⟨rfl, Function.update_self .., ?_⟩
    have hdc : d ≠ c := by
      rintro rfl
      exact hc (List.mem_cons_self ..)
    rw [push_next_of_ne hdc]
    refine hrest.congr (fun j hj => push_next_of_ne ?_) fun j hj => push_prev_of_ne ?_ ?_
    · rintro rfl
      exact hc (List.mem_cons_of_mem d hj)
    · rintro rfl
      exact hc (List.mem_cons_of_mem d hj)
    · intro h
      exact hd (Option.some.inj h ▸ hj)

/-- A list of other nodes stays when a node is pushed on a list. -/
theorem Linked.push_other {h : Option α} {l' : List α} (hl' : Linked k h l')
    (hl : Linked k chain l) (hdisj : ∀ i ∈ l', i ∉ l) (hc : c ∉ l') :
    Linked (k.push chain c).1 h l' := by
  refine hl'.congr (fun j hj => push_next_of_ne ?_) fun j hj => push_prev_of_ne ?_ ?_
  · rintro rfl
    exact hc hj
  · rintro rfl
    exact hc hj
  · intro h
    exact hdisj j hj (List.mem_of_head? (hl.head_eq.symm.trans h))

theorem unlink_next_of_ne {i : α} (hi : i ≠ c) (hprev : k.prev c ≠ some i) :
    (k.unlink chain c).1.next i = k.next i := by
  unfold Links.unlink
  refine (Function.update_of_ne hi ..).trans ?_
  cases hp : k.prev c with
  | none => rfl
  | some p =>
    have hip : i ≠ p := fun h => hprev (h ▸ hp)
    exact Function.update_of_ne hip ..

theorem unlink_prev_of_ne {i : α} (hi : i ≠ c) (hnext : k.next c ≠ some i)
    (hself : k.prev c ≠ some c) : (k.unlink chain c).1.prev i = k.prev i := by
  unfold Links.unlink
  refine (Function.update_of_ne hi ..).trans ?_
  cases hp : k.prev c with
  | none =>
    cases hn : k.next c with
    | none => simp only [hn]
    | some n =>
      have hin : i ≠ n := fun h => hnext (h ▸ hn)
      simp only [hn]
      exact Function.update_of_ne hin ..
  | some p =>
    have hpc : c ≠ p := fun h => hself (h ▸ hp)
    simp only [Function.update_of_ne hpc]
    cases hn : k.next c with
    | none => rfl
    | some n =>
      have hin : i ≠ n := fun h => hnext (h ▸ hn)
      exact Function.update_of_ne hin ..

theorem unlink_next_prev {a : α} (hp : k.prev c = some a) (hac : a ≠ c) :
    (k.unlink chain c).1.next a = k.next c := by
  unfold Links.unlink
  rw [hp]
  exact (Function.update_of_ne hac ..).trans (Function.update_self ..)

theorem unlink_prev_next {b : α} (hn : k.next c = some b) (hbc : b ≠ c) (hself : k.prev c ≠ some c) :
    (k.unlink chain c).1.prev b = k.prev c := by
  unfold Links.unlink
  refine (Function.update_of_ne hbc ..).trans ?_
  cases hp : k.prev c with
  | none =>
    simp only [hn]
    exact Function.update_self ..
  | some p =>
    have hpc : c ≠ p := fun h => hself (h ▸ hp)
    simp only [Function.update_of_ne hpc, hn]
    exact Function.update_self ..

theorem Linked.unlink {l₁ l₂ : List α} (hl : Linked k chain (l₁ ++ c :: l₂))
    (hnodup : (l₁ ++ c :: l₂).Nodup) :
    Linked (k.unlink chain c).1 (k.unlink chain c).2 (l₁ ++ l₂) := by
  obtain ⟨hprev, hnext⟩ := hl.links_eq
  obtain ⟨hnodup₁, hnodup₂, hdisj⟩ := List.nodup_append'.mp hnodup
  obtain ⟨hc₂, hnodup₂⟩ := List.nodup_cons.mp hnodup₂
  have hc₁ : c ∉ l₁ := fun hc => hdisj hc (List.mem_cons_self ..)
  have hself : k.prev c ≠ some c := by
    rw [hprev]
    exact fun h => hc₁ (List.mem_of_getLast? h)
  -- the links of the other nodes, but the last one before `c` and the first one behind it
  have hold_next : ∀ i ∈ l₁ ++ l₂, l₁.getLast? ≠ some i →
      (k.unlink chain c).1.next i = k.next i := fun i hi hlast =>
    unlink_next_of_ne (fun h => by
      rcases List.mem_append.mp hi with hi | hi
      · exact hc₁ (h ▸ hi)
      · exact hc₂ (h ▸ hi)) (hprev ▸ hlast)
  have hold_prev : ∀ i ∈ l₁ ++ l₂, l₂.head? ≠ some i →
      (k.unlink chain c).1.prev i = k.prev i := fun i hi hfirst =>
    unlink_prev_of_ne (fun h => by
      rcases List.mem_append.mp hi with hi | hi
      · exact hc₁ (h ▸ hi)
      · exact hc₂ (h ▸ hi)) (hnext ▸ hfirst) hself
  obtain ⟨q, hl⟩ := hl
  obtain ⟨p, h', hl₁, hh', hp, hl₂⟩ := segment_append.mp hl
  have hbefore : Segment (k.unlink chain c).1 none (k.unlink chain c).2 l₁ p (k.next c) := by
    rcases List.eq_nil_or_concat l₁ with rfl | ⟨l₁, a, rfl⟩
    · have hchain : (k.unlink chain c).2 = k.next c := by
        unfold Links.unlink
        rw [hprev]
        rfl
      exact ⟨hl₁.1, hchain⟩
    · rw [List.concat_eq_append] at *
      rw [List.getLast?_concat] at hprev hold_next
      have hchain : (k.unlink chain c).2 = chain := by
        unfold Links.unlink
        rw [hprev]
      have hac : a ≠ c := by
        rintro rfl
        exact hc₁ (List.mem_append_right l₁ (List.mem_singleton_self a))
      rw [hchain]
      refine hl₁.replace_next (fun j hj => hold_prev j (List.mem_append_left l₂ hj) fun h => ?_)
        (unlink_next_prev hprev hac) fun j hj => hold_next j
          (List.mem_append_left l₂ (List.mem_append_left [a] hj)) fun h => ?_
      · exact hdisj hj (List.mem_cons_of_mem c (List.mem_of_head? h))
      · obtain rfl := Option.some.inj h
        exact (List.nodup_append'.mp hnodup₁).2.2 hj (List.mem_singleton_self a)
  cases l₂ with
  | nil => exact ⟨p, segment_append.mpr ⟨p, k.next c, hbefore, rfl, hnext⟩⟩
  | cons b l₂ =>
    refine ⟨q, segment_append.mpr ⟨p, k.next c, hbefore, ?_⟩⟩
    have hbc : b ≠ c := by
      rintro rfl
      exact hc₂ (List.mem_cons_self ..)
    refine hl₂.replace_prev (fun j hj => hold_next j (List.mem_append_right l₁ hj) fun h => ?_)
      ((unlink_prev_next hnext hbc hself).trans hp) fun j hj => hold_prev j
        (List.mem_append_right l₁ (List.mem_cons_of_mem b hj)) fun h => ?_
    · exact hdisj (List.mem_of_getLast? h) (List.mem_cons_of_mem c hj)
    · obtain rfl := Option.some.inj h
      exact (List.nodup_cons.mp hnodup₂).1 hj

/-- A list of other nodes stays when a node is taken out of a list. -/
theorem Linked.unlink_other {h : Option α} {l' l₁ l₂ : List α} (hl' : Linked k h l')
    (hl : Linked k chain (l₁ ++ c :: l₂)) (hnodup : (l₁ ++ c :: l₂).Nodup)
    (hdisj : ∀ i ∈ l', i ∉ l₁ ++ c :: l₂) : Linked (k.unlink chain c).1 h l' := by
  obtain ⟨hprev, hnext⟩ := hl.links_eq
  have hself : k.prev c ≠ some c := by
    rw [hprev]
    intro h
    exact (List.nodup_append'.mp hnodup).2.2 (List.mem_of_getLast? h) (List.mem_cons_self ..)
  have hne : ∀ j ∈ l', j ≠ c := by
    rintro j hj rfl
    exact hdisj j hj (List.mem_append_right l₁ (List.mem_cons_self ..))
  refine hl'.congr (fun j hj => unlink_next_of_ne (hne j hj) fun h => ?_)
    fun j hj => unlink_prev_of_ne (hne j hj) (fun h => ?_) hself
  · exact hdisj j hj (List.mem_append_left _ (List.mem_of_getLast? (hprev ▸ h)))
  · exact hdisj j hj (List.mem_append_right l₁
      (List.mem_cons_of_mem c (List.mem_of_head? (hnext ▸ h))))

/-- Two lists make one when the last node of the first leads to the second. -/
theorem Linked.join {h : Option α} {last : α} {l₁ l₂ : List α} (hl₁ : Linked k h (l₁ ++ [last]))
    (hl₂ : Linked k chain l₂) (hnodup : (l₁ ++ [last] ++ l₂).Nodup) :
    Linked (k.join last chain) h (l₁ ++ [last] ++ l₂) := by
  obtain ⟨hnodup₁, hnodup₂, hdisj⟩ := List.nodup_append'.mp hnodup
  have hchain := hl₂.head_eq
  have hlast : last ∉ l₁ := fun hmem =>
    (List.nodup_append'.mp hnodup₁).2.2 hmem (List.mem_singleton_self last)
  have hnext : ∀ j, j ≠ last → (k.join last chain).next j = k.next j := fun j hj =>
    Function.update_of_ne hj ..
  have hprev : ∀ j, l₂.head? ≠ some j → (k.join last chain).prev j = k.prev j := fun j hj => by
    unfold Links.join
    cases hc : chain with
    | none => rfl
    | some d =>
      have hjd : j ≠ d := fun h => hj (by rw [h, ← hchain, hc])
      exact Function.update_of_ne hjd ..
  obtain ⟨q₁, hl₁⟩ := hl₁
  obtain ⟨q, hl₂⟩ := hl₂
  have hq : q₁ = some last := by rw [hl₁.last_eq, List.getLast?_concat, Option.some_or]
  have hfirst : Segment (k.join last chain) none h (l₁ ++ [last]) (some last) chain := by
    refine (hq ▸ hl₁).replace_next (fun j hj => hprev j fun hj' => ?_) (Function.update_self ..)
      fun j hj => hnext j ?_
    · exact hdisj hj (List.mem_of_head? hj')
    · rintro rfl
      exact hlast hj
  cases l₂ with
  | nil => exact ⟨some last, segment_append.mpr ⟨_, _, hfirst, rfl, hl₂.2⟩⟩
  | cons b l₂ =>
    refine ⟨q, segment_append.mpr ⟨_, _, hfirst, ?_⟩⟩
    have hb : (k.join last chain).prev b = some last := by
      unfold Links.join
      rw [hchain]
      exact Function.update_self ..
    refine hl₂.replace_prev (fun j hj => hnext j ?_) hb fun j hj => hprev j fun h => ?_
    · rintro rfl
      exact hdisj (List.mem_append_right l₁ (List.mem_singleton_self j)) hj
    · obtain rfl := Option.some.inj h
      exact (List.nodup_cons.mp hnodup₂).1 hj

end Operations
end Sqnim.Lib.DoublyLinked
