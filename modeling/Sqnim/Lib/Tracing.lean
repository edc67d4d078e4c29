import Mathlib

/-!
# Tracing a graph

A depth-first walk that marks a node when it enters it and lists the node when it leaves it. From
some roots it lists what they reach, each node once, and a walk whose depth is bounded by the number
of nodes ends.
-/
namespace Sqnim.Lib.Tracing

variable {α : Type} [DecidableEq α]

/-- The nodes that the walk has entered, and those that it has left, the last one first. -/
structure Trace (α : Type) where
  entered : List α
  left : List α

def Trace.enter (a : α) (t : Trace α) : Trace α := { t with entered := a :: t.entered }

def Trace.leave (a : α) (t : Trace α) : Trace α := { t with left := a :: t.left }

section Walk
variable (children : α → List α)

/-- Walk through a node and what is behind it, unless the walk has been there. -/
def visit : Nat → α → Trace α → Option (Trace α)
  | 0, _, _ => none
  | depth + 1, a, t =>
    if a ∈ t.entered then some t
    else ((children a).foldlM (fun t b => visit depth b t) (t.enter a)).map (Trace.leave a)

def visitAll (depth : Nat) (as : List α) (t : Trace α) : Option (Trace α) :=
  as.foldlM (fun t a => visit children depth a t) t

abbrev Reaches : α → α → Prop := Relation.ReflTransGen fun a b => b ∈ children a

/-- What a walk through some nodes adds: the nodes `new`, which the walk has left, and whose children
it has entered. -/
structure Walked (as : List α) (t t' : Trace α) (new : List α) : Prop where
  left : t'.left = new ++ t.left
  entered : ∀ b, b ∈ t'.entered ↔ b ∈ new ∨ b ∈ t.entered
  nodup : new.Nodup
  fresh : ∀ b ∈ new, b ∉ t.entered
  covers : ∀ a ∈ as, a ∈ t'.entered
  closed : ∀ b ∈ new, ∀ c ∈ children b, c ∈ t'.entered
  reached : ∀ b ∈ new, ∃ a ∈ as, Reaches children a b

end Walk

variable {children : α → List α}

namespace Walked

omit [DecidableEq α] in
theorem nil (t : Trace α) : Walked children [] t t [] where
  left := rfl
  entered b := by simp
  nodup := .nil
  fresh b hb := by cases hb
  covers a ha := by cases ha
  closed b hb := by cases hb
  reached b hb := by cases hb

omit [DecidableEq α] in
/-- A node that the walk has entered adds nothing. -/
theorem known {a : α} {t : Trace α} (ha : a ∈ t.entered) : Walked children [a] t t [] where
  left := rfl
  entered b := by simp
  nodup := .nil
  fresh b hb := by cases hb
  covers b hb := by rwa [List.mem_singleton.mp hb]
  closed b hb := by cases hb
  reached b hb := by cases hb

omit [DecidableEq α] in
theorem mono {as new : List α} {t t' : Trace α} (h : Walked children as t t' new) {b : α}
    (hb : b ∈ t.entered) : b ∈ t'.entered := (h.entered b).mpr (.inr hb)

omit [DecidableEq α] in
theorem append {as bs new new' : List α} {t t' t'' : Trace α} (h : Walked children as t t' new)
    (h' : Walked children bs t' t'' new') : Walked children (as ++ bs) t t'' (new' ++ new) where
  left := by rw [h'.left, h.left, List.append_assoc]
  entered b := by rw [h'.entered, h.entered, List.mem_append, or_assoc]
  nodup := by
    refine List.nodup_append'.mpr ⟨h'.nodup, h.nodup, fun b hb' hb => ?_⟩
    exact h'.fresh b hb' ((h.entered b).mpr (.inl hb))
  fresh b hb := by
    rcases List.mem_append.mp hb with hb' | hb
    · exact fun hold => h'.fresh b hb' (h.mono hold)
    · exact h.fresh b hb
  covers a ha := by
    rcases List.mem_append.mp ha with ha | ha
    · exact h'.mono (h.covers a ha)
    · exact h'.covers a ha
  closed b hb c hc := by
    rcases List.mem_append.mp hb with hb' | hb
    · exact h'.closed b hb' c hc
    · exact h'.mono (h.closed b hb c hc)
  reached b hb := by
    rcases List.mem_append.mp hb with hb' | hb
    · obtain ⟨a, ha, hab⟩ := h'.reached b hb'
      exact ⟨a, List.mem_append_right as ha, hab⟩
    · obtain ⟨a, ha, hab⟩ := h.reached b hb
      exact ⟨a, List.mem_append_left bs ha, hab⟩

omit [DecidableEq α] in
/-- A node is entered before its children and left behind them. -/
theorem node {a : α} {t t' : Trace α} {new : List α} (ha : a ∉ t.entered)
    (h : Walked children (children a) (t.enter a) t' new) :
    Walked children [a] t (t'.leave a) (a :: new) where
  left := congrArg (a :: ·) h.left
  entered b := by
    rw [List.mem_cons, or_assoc, or_left_comm, ← List.mem_cons]
    exact h.entered b
  nodup := by
    refine List.nodup_cons.mpr ⟨fun hnew => ?_, h.nodup⟩
    exact h.fresh a hnew (List.mem_cons_self ..)
  fresh b hb := by
    rcases List.mem_cons.mp hb with rfl | hb
    · exact ha
    · exact fun hold => h.fresh b hb (List.mem_cons_of_mem a hold)
  covers b hb := by
    rw [List.mem_singleton.mp hb]
    exact h.mono (List.mem_cons_self ..)
  closed b hb c hc := by
    rcases List.mem_cons.mp hb with rfl | hb
    · exact h.covers c hc
    · exact h.closed b hb c hc
  reached b hb := by
    refine ⟨a, List.mem_singleton_self a, ?_⟩
    rcases List.mem_cons.mp hb with rfl | hb
    · exact .refl
    · obtain ⟨c, hc, hcb⟩ := h.reached b hb
      exact .head hc hcb

omit [DecidableEq α] in
/-- From a fresh trace a walk lists exactly what its roots reach. -/
theorem mem_iff {as new : List α} {t' : Trace α} (h : Walked children as ⟨[], []⟩ t' new) (b : α) :
    b ∈ new ↔ ∃ a ∈ as, Reaches children a b := by
  have hall : ∀ c, c ∈ t'.entered → c ∈ new := fun c hc => by
    rcases (h.entered c).mp hc with hnew | hold
    · exact hnew
    · cases hold
  refine ⟨h.reached b, ?_⟩
  rintro ⟨a, ha, hab⟩
  induction hab with
  | refl => exact hall a (h.covers a ha)
  | tail _ hbc ih => exact hall _ (h.closed _ ih _ hbc)

end Walked

section Partial

/-- A walk through some nodes, from walks through each of them. -/
theorem walked_visitAll {depth : Nat} {as : List α} {t t' : Trace α}
    (hvisit : ∀ a ∈ as, ∀ t t' : Trace α, visit children depth a t = some t' →
      ∃ new, Walked children [a] t t' new)
    (h : visitAll children depth as t = some t') : ∃ new, Walked children as t t' new := by
  induction as generalizing t with
  | nil =>
    cases h
    exact ⟨[], .nil _⟩
  | cons a as ih =>
    rw [visitAll, List.foldlM_cons] at h
    obtain ⟨t₁, h₁, h₂⟩ := Option.bind_eq_some_iff.mp h
    obtain ⟨new₁, hwalk₁⟩ := hvisit a (List.mem_cons_self ..) t t₁ h₁
    obtain ⟨new₂, hwalk₂⟩ := ih (fun b hb => hvisit b (List.mem_cons_of_mem a hb)) h₂
    exact ⟨new₂ ++ new₁, hwalk₁.append hwalk₂⟩

theorem walked_visit {depth : Nat} {a : α} {t t' : Trace α}
    (h : visit children depth a t = some t') : ∃ new, Walked children [a] t t' new := by
  induction depth generalizing a t t' with
  | zero => cases h
  | succ depth ih =>
    rw [visit] at h
    by_cases hknown : a ∈ t.entered
    · rw [if_pos hknown] at h
      cases h
      exact ⟨[], .known hknown⟩
    · rw [if_neg hknown] at h
      obtain ⟨t₁, h₁, rfl⟩ := Option.map_eq_some_iff.mp h
      obtain ⟨new, hwalk⟩ := walked_visitAll (fun b _ t t' => ih) h₁
      exact ⟨a :: new, .node hknown hwalk⟩

end Partial

section Total

/-- The nodes that the walk may still enter. -/
def ahead (nodes : List α) (t : Trace α) : Nat := nodes.countP fun a => a ∉ t.entered

theorem ahead_mono {nodes : List α} {t t' : Trace α} (h : ∀ b ∈ t.entered, b ∈ t'.entered) :
    ahead nodes t' ≤ ahead nodes t := by
  refine List.countP_mono_left fun a _ ha => ?_
  rw [decide_eq_true_eq] at ha ⊢
  exact fun hold => ha (h a hold)

theorem ahead_enter {nodes : List α} {t : Trace α} {a : α} (ha : a ∈ nodes) (hnew : a ∉ t.entered) :
    ahead nodes (t.enter a) < ahead nodes t := by
  induction nodes with
  | nil => cases ha
  | cons b nodes ih =>
    have hrest : ahead nodes (t.enter a) ≤ ahead nodes t :=
      ahead_mono fun c hc => List.mem_cons_of_mem a hc
    unfold ahead at ih hrest ⊢
    rw [List.countP_cons, List.countP_cons]
    by_cases hba : b = a
    · subst hba
      rw [if_neg, if_pos]
      · omega
      · exact decide_eq_true hnew
      · rw [decide_eq_true_eq, not_not]
        exact List.mem_cons_self ..
    · have hlt := ih ((List.mem_cons.mp ha).resolve_left (Ne.symm hba))
      have hsame : b ∈ (t.enter a).entered ↔ b ∈ t.entered := by
        rw [Trace.enter, List.mem_cons]
        exact or_iff_right hba
      simp only [hsame]
      omega

variable {nodes : List α}

theorem visit_mono {depth : Nat} {a : α} {t t' : Trace α} (h : visit children depth a t = some t')
    {b : α} (hb : b ∈ t.entered) : b ∈ t'.entered := by
  obtain ⟨new, hwalk⟩ := walked_visit h
  exact hwalk.mono hb

/-- A walk through some nodes ends if the walks through each of them do. -/
theorem exists_visitAll {depth : Nat} {as : List α} {t : Trace α}
    (hvisit : ∀ a ∈ as, ∀ t : Trace α, ahead nodes t < depth →
      ∃ t', visit children depth a t = some t')
    (hdepth : ahead nodes t < depth) : ∃ t', visitAll children depth as t = some t' := by
  induction as generalizing t with
  | nil => exact ⟨t, rfl⟩
  | cons a as ih =>
    obtain ⟨t₁, h₁⟩ := hvisit a (List.mem_cons_self ..) t hdepth
    have hless : ahead nodes t₁ < depth :=
      (ahead_mono fun b hb => visit_mono h₁ hb).trans_lt hdepth
    obtain ⟨t₂, h₂⟩ := ih (fun b hb => hvisit b (List.mem_cons_of_mem a hb)) hless
    refine ⟨t₂, ?_⟩
    rw [visitAll, List.foldlM_cons, h₁]
    exact h₂

/-- In a closed set of nodes a walk that is deeper than the number of nodes ahead ends. -/
theorem exists_visit (hclosed : ∀ a ∈ nodes, ∀ b ∈ children a, b ∈ nodes) (depth : Nat) (a : α)
    (ha : a ∈ nodes) (t : Trace α) (hdepth : ahead nodes t < depth) :
    ∃ t', visit children depth a t = some t' := by
  induction depth generalizing a t with
  | zero => omega
  | succ depth ih =>
    by_cases hknown : a ∈ t.entered
    · exact ⟨t, by rw [visit, if_pos hknown]⟩
    · have hless := ahead_enter ha hknown
      have hdepth' : ahead nodes (t.enter a) < depth := by omega
      obtain ⟨t', hrun⟩ :=
        exists_visitAll (fun b hb t => ih b (hclosed a ha b hb) t) hdepth'
      refine ⟨t'.leave a, ?_⟩
      rw [visit, if_neg hknown]
      exact congrArg (Option.map (Trace.leave a)) hrun

/-- A walk from roots in a closed set of nodes ends, having listed what the roots reach. -/
theorem exists_trace (hclosed : ∀ a ∈ nodes, ∀ b ∈ children a, b ∈ nodes) {roots : List α}
    (hroots : ∀ a ∈ roots, a ∈ nodes) {depth : Nat} (hdepth : nodes.length < depth) :
    ∃ t, visitAll children depth roots ⟨[], []⟩ = some t ∧ t.left.Nodup ∧
      (∀ b, b ∈ t.left ↔ ∃ a ∈ roots, Reaches children a b) ∧ ∀ b, b ∈ t.entered ↔ b ∈ t.left := by
  have hahead : ahead nodes (⟨[], []⟩ : Trace α) < depth := List.countP_le_length.trans_lt hdepth
  obtain ⟨t, hrun⟩ := exists_visitAll
    (fun a ha t => exists_visit hclosed depth a (hroots a ha) t) hahead
  obtain ⟨new, hwalk⟩ := walked_visitAll (fun a _ _ _ => walked_visit) hrun
  have hleft : t.left = new := by rw [hwalk.left, List.append_nil]
  refine ⟨t, hrun, hleft ▸ hwalk.nodup, fun b => hleft ▸ hwalk.mem_iff b, fun b => ?_⟩
  rw [hwalk.entered, hleft]
  exact or_iff_left List.not_mem_nil

end Total
end Sqnim.Lib.Tracing
