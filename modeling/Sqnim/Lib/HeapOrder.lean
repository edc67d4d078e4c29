import Mathlib

/-!
# Heaps whose root is its own child

A sequence as a heap in which the children of position `r` are `2 * r` and `2 * r + 1`. Position 0
would be among its own children; its one child is position 1. The parent of every other position is
half of it.
-/
namespace Sqnim.Lib.HeapOrder

/-- Children of positions from `lo` on, up to `bottom`, are not above their parents. -/
def Ordered {α : Type} (le : α → α → Prop) (a : Nat → α) (lo bottom : Nat) : Prop :=
  ∀ k, 0 < k → k ≤ bottom → lo ≤ k / 2 → le (a k) (a (k / 2))

/-- The element at `root` may be too low for its place; its children are not above its parent. -/
structure Sifting {α : Type} (le : α → α → Prop) (a : Nat → α) (lo root bottom : Nat) : Prop where
  except : ∀ k, 0 < k → k ≤ bottom → lo ≤ k / 2 → k / 2 ≠ root → le (a k) (a (k / 2))
  grand : 0 < root → lo ≤ root / 2 → ∀ k, 0 < k → k ≤ bottom → k / 2 = root →
    le (a k) (a (root / 2))

variable {α : Type} {le : α → α → Prop} {a : Nat → α} {lo root bottom : Nat}

theorem Ordered.sifting (h : Ordered le a (lo + 1) bottom) : Sifting le a lo lo bottom where
  except k hk hb hlo hne := h k hk hb (by omega)
  grand hpos hlo := by omega

/-- No element is above an element of the first position. -/
theorem Ordered.le_root (h : Ordered le a 0 bottom) (hrefl : ∀ k ≤ bottom, le (a k) (a k))
    (htrans : ∀ i ≤ bottom, ∀ j ≤ bottom, ∀ k ≤ bottom,
      le (a i) (a j) → le (a j) (a k) → le (a i) (a k)) :
    ∀ k ≤ bottom, le (a k) (a 0) := by
  intro k
  induction k using Nat.strongRecOn with
  | ind k ih =>
    intro hk
    rcases Nat.eq_zero_or_pos k with rfl | hpos
    · exact hrefl 0 hk
    · have hparent : le (a k) (a (k / 2)) := h k hpos hk (Nat.zero_le _)
      exact htrans k hk (k / 2) (by omega) 0 (by omega) hparent (ih (k / 2) (by omega) (by omega))

theorem Sifting.ordered (h : Sifting le a lo root bottom)
    (hroot : ∀ k, 0 < k → k ≤ bottom → k / 2 = root → le (a k) (a root)) :
    Ordered le a lo bottom := by
  intro k hk hb hlo
  by_cases heq : k / 2 = root
  · rw [heq]
    exact hroot k hk hb heq
  · exact h.except k hk hb hlo heq

theorem Sifting.swap (h : Sifting le a lo root bottom) {child : Nat} (hchild : 0 < child)
    (hparent : child / 2 = root) (hbottom : child ≤ bottom) (hlo : lo ≤ root)
    (hlow : le (a root) (a child))
    (hhigh : ∀ k, 0 < k → k ≤ bottom → k / 2 = root → le (a k) (a child)) :
    Sifting le (a ∘ Equiv.swap root child) lo child bottom := by
  have hne : root ≠ child := by omega
  have hother : ∀ k, k ≠ root → k ≠ child → (a ∘ Equiv.swap root child) k = a k := fun k hr hc =>
    congrArg a (Equiv.swap_apply_of_ne_of_ne hr hc)
  have hatroot : (a ∘ Equiv.swap root child) root = a child :=
    congrArg a (Equiv.swap_apply_left root child)
  have hatchild : (a ∘ Equiv.swap root child) child = a root :=
    congrArg a (Equiv.swap_apply_right root child)
  constructor
  · intro k hk hb hklo hkne
    by_cases hkroot : k / 2 = root
    · rw [hkroot, hatroot]
      by_cases hkchild : k = child
      · rw [hkchild, hatchild]
        exact hlow
      · rw [hother k (by omega) hkchild]
        exact hhigh k hk hb hkroot
    · rw [hother (k / 2) hkroot hkne]
      by_cases hk' : k = root
      · -- the parent of the position saw its children already
        rw [hk', hatroot]
        exact h.grand (by omega) (by omega) child hchild hbottom hparent
      · rw [hother k hk' (by intro hc; rw [hc] at hkroot; exact hkroot hparent)]
        exact h.except k hk hb hklo hkroot
  · intro _ _ k hk hb hkchild
    rw [hparent, hatroot, hother k (by omega) (by omega), ← hkchild]
    exact h.except k hk hb (by omega) (by omega)

end Sqnim.Lib.HeapOrder
