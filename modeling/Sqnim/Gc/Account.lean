import Sqnim.Gc.Collect

/-!
# The account of references

While references are given up, the count of an unreachable object that is alive is the number of
references that live unreachable objects hold to it and of those still to be given up. Giving up the
last one frees the object with all that this sets free, and the account holds again.
-/
namespace Sqnim.Gc

open Sqnim.Object Sqnim.Lib.DoublyLinked
open SQObjectType

/-! ## What an object holds -/

/-- The references that actions give up. -/
def given (xs : List Action) : List Addr :=
  xs.filterMap fun
    | .drop a => some a
    | .close _ _ => none

@[simp] theorem given_nil : given [] = [] := rfl

@[simp] theorem given_drop (a : Addr) (xs : List Action) :
    given (.drop a :: xs) = a :: given xs := rfl

@[simp] theorem given_close (p : Addr) (v : SQObject) (xs : List Action) :
    given (.close p v :: xs) = given xs := rfl

@[simp] theorem given_append (xs ys : List Action) : given (xs ++ ys) = given xs ++ given ys :=
  List.filterMap_append ..

theorem given_map_drop (as : List Addr) : given (as.map .drop) = as := by
  induction as with
  | nil => rfl
  | cons a as ih => rw [List.map_cons, given_drop, ih]

@[simp] theorem given_dropAll (os : List SQObject) : given (dropAll os) = markObjects os :=
  given_map_drop _

@[simp] theorem given_dropPointer (p : Option Addr) : given (dropPointer p) = p.toList :=
  given_map_drop _

@[simp] theorem markObjects_nil : markObjects [] = [] := rfl

@[simp] theorem pairs_nil : pairs [] = [] := rfl

@[simp] theorem markObjects_ofNull (os : List SQObject) :
    markObjects (.ofNull :: os) = markObjects os := rfl

@[simp] theorem markObjects_nulls (os : List SQObject) :
    markObjects (SQCollectable.nulls os) = [] := by
  induction os with
  | nil => rfl
  | cons o os ih => exact ih

@[simp] theorem markObjects_nullPairs (ps : List (SQObject × SQObject)) :
    markObjects (pairs (SQCollectable.nullPairs ps)) = [] := by
  induction ps with
  | nil => rfl
  | cons p ps ih => exact ih

/-- The references of an object that count. -/
def SQCollectable.holds (c : SQCollectable) : List Addr := given (c.before ++ c.after)

/-- `Finalize` gives up what the object does not hold afterwards. -/
theorem holds_perm (c : SQCollectable) : (given c.finalizes ++ c.finalized.holds).Perm c.holds := by
  rw [List.perm_iff_count]
  intro a
  cases c <;>
    simp only [SQCollectable.holds, SQCollectable.before, SQCollectable.after,
      SQCollectable.finalizes, SQCollectable.finalized, given_append, given_dropAll,
      given_dropPointer, given_drop, given_nil, markObjects_nil, markObjects_ofNull,
      markObjects_nulls, markObjects_nullPairs, closeOuters, List.flatMap_nil, List.count_append,
      List.append_nil, List.nil_append, List.map_nil, pairs_nil, Option.toList_none] <;>
    try omega
  case outer value => cases value <;> simp

theorem getType_finalized (c : SQCollectable) : c.finalized.getType = c.getType := by
  cases c <;> rfl

/-- The variables that are closed, and their values, are given up later. -/
def Guarded : List Action → Prop
  | [] => True
  | .drop _ :: xs => Guarded xs
  | .close p value :: xs =>
    p ∈ given xs ∧ (∀ a, markObject value = some a → a ∈ given xs) ∧ Guarded xs

theorem guarded_of_drops {xs : List Action} (h : ∀ p v, Action.close p v ∉ xs) : Guarded xs := by
  induction xs with
  | nil => exact trivial
  | cons x xs ih =>
    have hrest := ih fun p v hmem => h p v (List.mem_cons_of_mem x hmem)
    cases x with
    | drop a => exact hrest
    | close p v => exact (h p v (List.mem_cons_self ..)).elim

theorem close_notMem_map {as : List Addr} (p : Addr) (v : SQObject) :
    Action.close p v ∉ as.map Action.drop := by
  intro hmem
  obtain ⟨a, -, ha⟩ := List.mem_map.mp hmem
  cases ha

theorem Guarded.append {xs ys : List Action} (hx : Guarded xs) (hy : Guarded ys) :
    Guarded (xs ++ ys) := by
  induction xs with
  | nil => exact hy
  | cons x xs ih =>
    cases x with
    | drop a => exact ih hx
    | close p v =>
      obtain ⟨hp, hv, hrest⟩ := hx
      have hleft : ∀ a ∈ given xs, a ∈ given (xs ++ ys) := fun a ha => by
        rw [given_append]
        exact List.mem_append_left _ ha
      exact ⟨hleft p hp, fun a ha => hleft a (hv a ha), ih hrest⟩

theorem guarded_closeOuters {stack : List SQObject} {openouters : List (Addr × Nat)}
    {ys : List Action} (hy : Guarded ys) (hstack : ∀ a ∈ markObjects stack, a ∈ given ys) :
    Guarded (closeOuters stack openouters ++ ys) := by
  induction openouters with
  | nil => exact hy
  | cons p openouters ih =>
    rw [closeOuters, List.flatMap_cons, List.append_assoc]
    refine ⟨List.mem_cons_self .., fun a ha => ?_, ih⟩
    show a ∈ p.1 :: given (closeOuters stack openouters ++ ys)
    rw [given_append]
    refine List.mem_cons_of_mem _ (List.mem_append_right _ (hstack a ?_))
    by_cases hidx : p.2 < stack.length
    · rw [List.getD_eq_getElem?_getD, List.getElem?_eq_getElem hidx, Option.getD_some] at ha
      exact List.mem_filterMap.mpr ⟨_, List.getElem_mem hidx, ha⟩
    · rw [List.getD_eq_getElem?_getD, List.getElem?_eq_none (by omega), Option.getD_none] at ha
      cases ha

theorem guarded_finalizes (c : SQCollectable) : Guarded c.finalizes := by
  cases c with
  | thread lasterror errorhandler debughookClosure roottable tempReg stack callsstack openouters =>
    rw [SQCollectable.finalizes, List.append_assoc, List.append_assoc]
    refine guarded_closeOuters (guarded_of_drops fun p v hmem => ?_) fun a ha => ?_
    · simp only [dropAll, List.mem_append] at hmem
      rcases hmem with hmem | hmem | hmem <;> exact close_notMem_map p v hmem
    · simp only [given_append, given_dropAll, List.mem_append]
      exact .inr (.inr ha)
  | _ =>
    refine guarded_of_drops fun p v hmem => ?_
    simp only [SQCollectable.finalizes, dropAll, dropPointer, List.mem_append, or_assoc] at hmem
    repeat
      first
      | exact close_notMem_map p v hmem
      | rcases hmem with hmem | hmem

theorem guarded_release (c : SQCollectable) : Guarded c.before ∧ Guarded c.after := by
  cases c with
  | thread => exact ⟨guarded_finalizes (.thread _ _ _ _ _ _ _ _), trivial⟩
  | cls => exact ⟨trivial, guarded_finalizes (.cls _ _ _ _ _ _)⟩
  | inst => exact ⟨trivial, guarded_finalizes (.inst _ _)⟩
  | _ =>
    constructor <;> refine guarded_of_drops fun p v hmem => ?_ <;>
      simp only [SQCollectable.before, SQCollectable.after, dropAll, dropPointer, List.mem_append,
        List.mem_singleton, List.not_mem_nil, reduceCtorEq, or_false, or_assoc] at hmem <;>
      repeat
        first
        | exact close_notMem_map p v hmem
        | rcases hmem with hmem | hmem

/-! ## What live objects hold -/

/-- How many references to `a` some objects hold. -/
def heldIn (objects : Objects) (live : List Addr) (a : Addr) : Nat :=
  (live.map fun b => (objects b).holds.count a).sum

section Held

variable (objects : Objects) {live : List Addr} {b : Addr}

theorem heldIn_erase (hb : b ∈ live) (a : Addr) :
    heldIn objects live a = (objects b).holds.count a + heldIn objects (live.erase b) a := by
  unfold heldIn
  rw [((List.perm_cons_erase hb).map _).sum_eq, List.map_cons, List.sum_cons]

theorem heldIn_update_of_notMem (hb : b ∉ live) (c : SQCollectable) (a : Addr) :
    heldIn (Function.update objects b c) live a = heldIn objects live a := by
  unfold heldIn
  refine congrArg List.sum (List.map_congr_left fun d hd => ?_)
  rw [Function.update_of_ne fun heq : d = b => hb (heq ▸ hd)]

/-- New contents of one object change what it holds only. -/
theorem heldIn_update (hnodup : live.Nodup) (hb : b ∈ live) (c : SQCollectable) (a : Addr) :
    heldIn (Function.update objects b c) live a + (objects b).holds.count a =
      heldIn objects live a + c.holds.count a := by
  have hnot : b ∉ live.erase b := hnodup.not_mem_erase
  rw [heldIn_erase _ hb, heldIn_erase objects hb, heldIn_update_of_notMem objects hnot,
    Function.update_self]
  omega

variable {objects} in
theorem exists_holder {a : Addr} (h : 0 < heldIn objects live a) :
    ∃ b ∈ live, a ∈ (objects b).holds := by
  by_contra hnone
  push Not at hnone
  refine h.ne' (List.sum_eq_zero fun n hn => ?_)
  obtain ⟨b, hb, rfl⟩ := List.mem_map.mp hn
  exact List.count_eq_zero.mpr (hnone b hb)

end Held

/-- The objects of a chain that are not being released. -/
def alive (c busy : List Addr) : List Addr := c.filter fun a => a ∉ busy

section Alive

variable {c : List Addr} (busy : List Addr) {a : Addr}

variable {busy} in
theorem mem_alive {b : Addr} : b ∈ alive c busy ↔ b ∈ c ∧ b ∉ busy := by
  rw [alive, List.mem_filter, decide_eq_true_eq]

theorem alive_cons (hnodup : c.Nodup) : alive c (a :: busy) = (alive c busy).erase a := by
  rw [alive, alive, (hnodup.filter _).erase_eq_filter, List.filter_filter]
  refine List.filter_congr fun b _ => ?_
  rw [Bool.eq_iff_iff]
  simp

/-- An object that is being released goes off the chain. -/
theorem alive_unlink {l₁ l₂ : List Addr} (hnodup : (l₁ ++ a :: l₂).Nodup) :
    alive (l₁ ++ l₂) busy = alive (l₁ ++ a :: l₂) (a :: busy) := by
  obtain ⟨-, hnodup₂, hdisj⟩ := List.nodup_append'.mp hnodup
  have hfilter : ∀ l : List Addr, a ∉ l → alive l busy = alive l (a :: busy) := fun l hl => by
    refine List.filter_congr fun b hb => ?_
    have hba : b ≠ a := fun heq => hl (heq ▸ hb)
    exact decide_eq_decide.mpr (by rw [List.mem_cons, or_iff_right hba])
  have hself : alive (a :: l₂) (a :: busy) = alive l₂ (a :: busy) :=
    List.filter_cons_of_neg (by simp)
  show List.filter _ _ = List.filter _ _
  rw [List.filter_append, List.filter_append]
  exact congrArg₂ (· ++ ·) (hfilter l₁ fun hmem => hdisj hmem (List.mem_cons_self ..))
    ((hfilter l₂ (List.nodup_cons.mp hnodup₂).1).trans hself.symm)

end Alive

end Sqnim.Gc
