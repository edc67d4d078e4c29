import Sqnim.Lib.HeapOrder
import Sqnim.BaseLib.Conversion
import Sqnim.Vm.Frame

/-!
# array.sort

`_sort_compare`, `_hsort_sift_down`, `_hsort` and `array_sort` of `sqbaselib.cpp`. The elements are
those of `_values`, and `_vals` tells its buffer apart from another. What a comparison pushes it
pops again.
-/
namespace Sqnim.BaseLib

open Sqnim.Lib Sqnim.Object
open SQObjectType
open Vm (Machine Platform)

/-- The thread, and the vector that is sorted. -/
structure Sorting (ρ : Type) where
  machine : Machine ρ
  vals : Nat
  values : Array SQObject

/-- A call of the compare function with two elements: its result, unless it fails. -/
abbrev CompareFunc (ρ : Type) := SQObject → SQObject → Sorting ρ → Option SQObject × Sorting ρ

/-- What sorting uses of the rest of the program. A comparison of objects with `_cmp` may do
anything to the thread. -/
structure SortEnv (ρ : Type) extends Platform ρ where
  compareEnv : Machine ρ → Vm.Compare.Env
  afterObjCmp : SQObject → SQObject → Machine ρ → Machine ρ
  convert : Conversion.ConvertEnv

variable {ρ : Type}

namespace Sorting

variable (s : Sorting ρ)

/-- `arr->_values[i]` -/
def value (i : Nat) : SQObject := s.values.getD i .ofNull

/-- `_Swap(arr->_values[i], arr->_values[j])` -/
def swap (i j : Nat) : Sorting ρ := { s with values := s.values.swapIfInBounds i j }

def raiseError (env : SortEnv ρ) (text : String) : Sorting ρ :=
  { s with machine := s.machine.raiseError env.toPlatform text }

end Sorting

variable (env : SortEnv ρ)

def objCmp (a b : SQObject) (s : Sorting ρ) : Option Int × Sorting ρ :=
  ((Vm.Compare.objCmp (env.compareEnv s.machine) a b).toOption,
    { s with machine := env.afterObjCmp a b s.machine })

/-- What `_sort_compare` does with the result of the compare function; `before` is the vector as it
was. -/
def compareResult (before : Sorting ρ) : Option SQObject × Sorting ρ → Option Int × Sorting ρ
  | (none, s) =>
    (none, if s.machine.vm.lasterror.type = otString then s
      else s.raiseError env "compare func failed")
  | (some v, s) =>
    match (Conversion.sqGetinteger env.convert v).map BitVec.toInt with
    | none =>
      (none, s.raiseError env "numeric value expected as return value of the compare function")
    | some ret =>
      if before.values.size ≠ s.values.size ∨ before.vals ≠ s.vals then
        (none, s.raiseError env "array resized during sort operation")
      else (some ret, s)

def sortCompare (func : Option (CompareFunc ρ)) (a b : SQObject) (s : Sorting ρ) :
    Option Int × Sorting ρ :=
  match func with
  | none => objCmp env a b s
  | some f => compareResult env s (f a b s)

/-- Whether `maxChild` is `root2 + 1`. -/
def rightChild (func : Option (CompareFunc ρ)) (root2 bottom : Nat) (s : Sorting ρ) :
    Option Bool × Sorting ρ :=
  if root2 = bottom then (some false, s)
  else
    match sortCompare env func (s.value root2) (s.value (root2 + 1)) s with
    | (none, s) => (none, s)
    | (some ret, s) => (some (decide ¬0 < ret), s)

def hsortSiftDown (func : Option (CompareFunc ρ)) (root bottom : Nat) (s : Sorting ρ) :
    Bool × Sorting ρ :=
  if _ : root * 2 ≤ bottom then
    match rightChild env func (root * 2) bottom s with
    | (none, s) => (false, s)
    | (some right, s) =>
      let maxChild := root * 2 + if right then 1 else 0
      match sortCompare env func (s.value root) (s.value maxChild) s with
      | (none, s) => (false, s)
      | (some ret, s) =>
        if ret < 0 then
          if _ : root = maxChild then (false, s.raiseError env "inconsistent compare function")
          else hsortSiftDown func maxChild bottom (s.swap root maxChild)
        else (true, s)
  else (true, s)
termination_by bottom + 1 - root
decreasing_by
  have hle : root ≤ maxChild := (Nat.le_mul_of_pos_right root (by decide)).trans (Nat.le_add_right ..)
  omega

/-- The first loop of `_hsort`, from `i` down. -/
def heapify (func : Option (CompareFunc ρ)) (bottom : Nat) : Nat → Sorting ρ → Bool × Sorting ρ
  | 0, s => hsortSiftDown env func 0 bottom s
  | i + 1, s =>
    match hsortSiftDown env func (i + 1) bottom s with
    | (false, s) => (false, s)
    | (true, s) => heapify func bottom i s

/-- The second loop of `_hsort`, from `i` down. -/
def extract (func : Option (CompareFunc ρ)) : Nat → Sorting ρ → Bool × Sorting ρ
  | 0, s => (true, s)
  | i + 1, s =>
    match hsortSiftDown env func 0 i (s.swap 0 (i + 1)) with
    | (false, s) => (false, s)
    | (true, s) => extract func i s

def hsort (func : Option (CompareFunc ρ)) (s : Sorting ρ) : Bool × Sorting ρ :=
  let arraySize := s.values.size
  match heapify env func (arraySize - 1) (arraySize / 2) s with
  | (false, s) => (false, s)
  | (true, s) => extract env func (arraySize - 1) s

/-- Whether `array_sort` returns the array; otherwise it returns an error. -/
def arraySort (func : Option (CompareFunc ρ)) (s : Sorting ρ) : Bool × Sorting ρ :=
  if 1 < s.values.size then hsort env func s else (true, s)

/-! ## The elements stay -/

/-- The compare function does not modify the array. -/
def LeavesArray (func : Option (CompareFunc ρ)) : Prop :=
  ∀ f, func = some f → ∀ a b s, (f a b s).2.values = s.values ∧ (f a b s).2.vals = s.vals

variable {func : Option (CompareFunc ρ)}

theorem compareResult_values (before : Sorting ρ) (r : Option SQObject × Sorting ρ) :
    (compareResult env before r).2.values = r.2.values := by
  obtain ⟨v, s⟩ := r
  cases v with
  | none =>
    unfold compareResult
    dsimp only
    split <;> rfl
  | some v =>
    unfold compareResult
    dsimp only
    split
    · rfl
    · split <;> rfl

theorem sortCompare_values (hleaves : LeavesArray func) (a b : SQObject) (s : Sorting ρ) :
    (sortCompare env func a b s).2.values = s.values := by
  unfold sortCompare
  cases hfunc : func with
  | none => rfl
  | some f => exact (compareResult_values env s _).trans (hleaves f hfunc a b s).1

theorem rightChild_values (hleaves : LeavesArray func) (root2 bottom : Nat) (s : Sorting ρ) :
    (rightChild env func root2 bottom s).2.values = s.values := by
  have hvalues := sortCompare_values env hleaves (s.value root2) (s.value (root2 + 1)) s
  unfold rightChild
  split
  · rfl
  · split
    · next hr => rwa [hr] at hvalues
    · next hr => rwa [hr] at hvalues

theorem swap_perm (s : Sorting ρ) (i j : Nat) : (s.swap i j).values.Perm s.values := by
  unfold Sorting.swap
  rw [Array.swapIfInBounds_def]
  split
  · split
    · exact Array.swap_perm ..
    · exact .refl _
  · exact .refl _

/-- Sifting down is a sequence of swaps, whatever the comparisons answer. -/
theorem hsortSiftDown_perm (hleaves : LeavesArray func) (root bottom : Nat) (s : Sorting ρ) :
    (hsortSiftDown env func root bottom s).2.values.Perm s.values := by
  induction hmeasure : bottom + 1 - root using Nat.strongRecOn generalizing root s with
  | ind n ih =>
    rw [hsortSiftDown]
    split
    · have hright := rightChild_values env hleaves (root * 2) bottom s
      split
      · next hr =>
        rw [hr] at hright
        exact .of_eq hright
      · next right s₁ hr =>
        rw [hr] at hright
        replace hright : s₁.values = s.values := hright
        dsimp only
        generalize hm : root * 2 + (if right = true then 1 else 0) = maxChild
        have hcmp := sortCompare_values env hleaves (s₁.value root) (s₁.value maxChild) s₁
        split
        · next hr =>
          rw [hr] at hcmp
          exact .of_eq (hcmp.trans hright)
        · next ret s₂ hr =>
          rw [hr] at hcmp
          have hsame : s₂.values = s.values := hcmp.trans hright
          split
          · split
            · exact .of_eq hsame
            · next hne =>
              have hle : root ≤ maxChild := by omega
              have hrec := ih (bottom + 1 - maxChild) (by omega) maxChild (s₂.swap root maxChild) rfl
              exact hrec.trans ((swap_perm ..).trans (.of_eq hsame))
          · exact .of_eq hsame
    · exact .refl _

theorem heapify_perm (hleaves : LeavesArray func) (bottom i : Nat) (s : Sorting ρ) :
    (heapify env func bottom i s).2.values.Perm s.values := by
  induction i generalizing s with
  | zero => exact hsortSiftDown_perm env hleaves 0 bottom s
  | succ i ih =>
    have hsift := hsortSiftDown_perm env hleaves (i + 1) bottom s
    unfold heapify
    split
    · next hr => rwa [hr] at hsift
    · next hr =>
      rw [hr] at hsift
      exact (ih _).trans hsift

theorem extract_perm (hleaves : LeavesArray func) (i : Nat) (s : Sorting ρ) :
    (extract env func i s).2.values.Perm s.values := by
  induction i generalizing s with
  | zero => exact .refl _
  | succ i ih =>
    have hsift := hsortSiftDown_perm env hleaves 0 i (s.swap 0 (i + 1))
    replace hsift := hsift.trans (swap_perm s 0 (i + 1))
    unfold extract
    split
    · next hr => rwa [hr] at hsift
    · next hr =>
      rw [hr] at hsift
      exact (ih _).trans hsift

theorem arraySort_perm (hleaves : LeavesArray func) (s : Sorting ρ) :
    (arraySort env func s).2.values.Perm s.values := by
  have hheap := heapify_perm env hleaves (s.values.size - 1) (s.values.size / 2) s
  unfold arraySort
  split
  · unfold hsort
    dsimp only
    split
    · next hr => rwa [hr] at hheap
    · next hr =>
      rw [hr] at hheap
      exact (extract_perm env hleaves _ _).trans hheap
  · exact .refl _

/-! ## A comparison that is a total preorder -/

/-- Every comparison of two elements succeeds with the value of `c`, in the states of `good` and so
in every state that sorting makes of one of these. -/
structure Answers (func : Option (CompareFunc ρ)) (good : Sorting ρ → Prop) (p : SQObject → Prop)
    (c : SQObject → SQObject → Int) : Prop where
  answer : ∀ a b s, p a → p b → good s → (sortCompare env func a b s).1 = some (c a b)
  keeps : ∀ a b s, p a → p b → good s → good (sortCompare env func a b s).2
  swaps : ∀ i j s, good s → good (s.swap i j)

/-- `c` compares the elements by a total preorder. -/
structure TotalPreorder (p : SQObject → Prop) (c : SQObject → SQObject → Int) : Prop where
  swap : ∀ a b, p a → p b → (c a b < 0 ↔ 0 < c b a)
  trans : ∀ a b d, p a → p b → p d → c a b ≤ 0 → c b d ≤ 0 → c a d ≤ 0

/-- Not above. -/
def NotAbove (c : SQObject → SQObject → Int) (a b : SQObject) : Prop := c a b ≤ 0

variable {good : Sorting ρ → Prop} {p : SQObject → Prop} {c : SQObject → SQObject → Int}

theorem Answers.of_imp {env : SortEnv ρ} {q : SQObject → Prop} (h : Answers env func good p c)
    (himp : ∀ o, q o → p o) : Answers env func good q c where
  answer a b s ha hb := h.answer a b s (himp a ha) (himp b hb)
  keeps a b s ha hb := h.keeps a b s (himp a ha) (himp b hb)
  swaps := h.swaps

theorem TotalPreorder.of_imp {q : SQObject → Prop} (h : TotalPreorder p c)
    (himp : ∀ o, q o → p o) : TotalPreorder q c where
  swap a b ha hb := h.swap a b (himp a ha) (himp b hb)
  trans a b d ha hb hd := h.trans a b d (himp a ha) (himp b hb) (himp d hd)

theorem TotalPreorder.self (h : TotalPreorder p c) {a : SQObject} (ha : p a) : c a a = 0 := by
  have hswap := h.swap a a ha ha
  omega

theorem value_mem {s : Sorting ρ} {i : Nat} (hi : i < s.values.size) : s.value i ∈ s.values := by
  rw [Sorting.value, Array.getD_eq_getD_getElem?, Array.getElem?_eq_getElem hi]
  exact Array.getElem_mem hi

theorem value_congr {s s' : Sorting ρ} (h : s'.values = s.values) : s'.value = s.value := by
  funext i
  rw [Sorting.value, h, Sorting.value]

theorem value_swap {s : Sorting ρ} {i j : Nat} (hi : i < s.values.size) (hj : j < s.values.size) :
    (s.swap i j).value = s.value ∘ Equiv.swap i j := by
  funext k
  show (s.values.swapIfInBounds i j).getD k .ofNull = s.values.getD (Equiv.swap i j k) .ofNull
  rw [Array.getD_eq_getD_getElem?, Array.getD_eq_getD_getElem?, Equiv.swap_apply_def]
  by_cases hk : k < s.values.size
  · rw [Array.getElem?_eq_getElem (by rwa [Array.size_swapIfInBounds]),
      Array.getElem_swapIfInBounds]
    by_cases hki : k = i
    · rw [dif_pos ⟨hki, hj⟩, if_pos hki, Array.getElem?_eq_getElem hj]
    · rw [dif_neg (fun h => hki h.1), if_neg hki]
      by_cases hkj : k = j
      · rw [dif_pos ⟨hkj, hi⟩, if_pos hkj, Array.getElem?_eq_getElem hi]
      · rw [dif_neg (fun h => hkj h.1), if_neg hkj, Array.getElem?_eq_getElem hk]
  · rw [if_neg (by omega), if_neg (by omega), Array.getElem?_eq_none (by
      rw [Array.size_swapIfInBounds]
      omega), Array.getElem?_eq_none (by omega)]

/-- The greater of the two children is chosen, and the second of two that are level. -/
theorem rightChild_spec (hleaves : LeavesArray func) (hanswers : Answers env func good p c)
    (hpre : TotalPreorder p c) {root2 bottom : Nat} (hroot2 : root2 ≤ bottom) {s : Sorting ρ}
    (hgood : good s) (hp : ∀ k ≤ bottom, p (s.value k)) :
    ∃ right s', rightChild env func root2 bottom s = (some right, s') ∧ s'.values = s.values ∧
      good s' ∧
      root2 + (if right then 1 else 0) ≤ bottom ∧
      ∀ k, root2 ≤ k → k ≤ root2 + 1 → k ≤ bottom →
        NotAbove c (s.value k) (s.value (root2 + if right then 1 else 0)) := by
  have hself : ∀ k ≤ bottom, NotAbove c (s.value k) (s.value k) := fun k hk =>
    (hpre.self (hp k hk)).le
  unfold rightChild
  by_cases heq : root2 = bottom
  · refine ⟨false, s, if_pos heq, rfl, hgood, hroot2, fun k hk _ hkb => ?_⟩
    obtain rfl : k = root2 := by omega
    exact hself k hkb
  · rw [if_neg heq]
    have hx := hp root2 hroot2
    have hy := hp (root2 + 1) (by omega)
    have hvalues := sortCompare_values env hleaves (s.value root2) (s.value (root2 + 1)) s
    have hanswer := hanswers.answer _ _ s hx hy hgood
    have hkeeps := hanswers.keeps _ _ s hx hy hgood
    cases hr : sortCompare env func (s.value root2) (s.value (root2 + 1)) s with
    | mk ret s' =>
      rw [hr] at hvalues hanswer hkeeps
      replace hanswer : ret = some (c (s.value root2) (s.value (root2 + 1))) := hanswer
      subst hanswer
      refine ⟨_, s', rfl, hvalues, hkeeps, ?_⟩
      have hswap := hpre.swap (s.value (root2 + 1)) (s.value root2) hy hx
      by_cases hpos : 0 < c (s.value root2) (s.value (root2 + 1))
      · rw [decide_eq_false (not_not_intro hpos)]
        refine ⟨hroot2, fun k hk hk1 hkb => ?_⟩
        obtain rfl | rfl : k = root2 ∨ k = root2 + 1 := by omega
        · exact hself k hkb
        · exact (hswap.mpr hpos).le
      · rw [decide_eq_true hpos]
        refine ⟨by rw [if_pos rfl]; omega, fun k hk hk1 hkb => ?_⟩
        rw [if_pos rfl]
        obtain rfl | rfl : k = root2 ∨ k = root2 + 1 := by omega
        · exact not_lt.mp hpos
        · exact hself _ hkb

/-- What sifting down has made of the vector. -/
structure Sifted (c : SQObject → SQObject → Int) (lo bottom : Nat) (s s' : Sorting ρ) : Prop where
  ordered : HeapOrder.Ordered (NotAbove c) s'.value lo bottom
  inside : ∀ k ≤ bottom, ∃ k' ≤ bottom, s'.value k = s.value k'
  outside : ∀ k, bottom < k → s'.value k = s.value k
  size : s'.values.size = s.values.size

theorem hsortSiftDown_spec (hleaves : LeavesArray func) (hanswers : Answers env func good p c)
    (hpre : TotalPreorder p c) {lo root bottom : Nat} {s : Sorting ρ} (hlo : lo ≤ root)
    (hbottom : bottom < s.values.size) (hgood : good s) (hp : ∀ k ≤ bottom, p (s.value k))
    (h : HeapOrder.Sifting (NotAbove c) s.value lo root bottom) :
    ∃ s', hsortSiftDown env func root bottom s = (true, s') ∧ Sifted c lo bottom s s' ∧
      good s' := by
  induction hmeasure : bottom + 1 - root using Nat.strongRecOn generalizing root s with
  | ind n ih =>
    rw [hsortSiftDown]
    by_cases hchild : root * 2 ≤ bottom
    · rw [dif_pos hchild]
      obtain ⟨right, s₁, hr, hvalues, hgood₁, hle, hhigh⟩ :=
        rightChild_spec env hleaves hanswers hpre hchild hgood hp
      rw [hr]
      dsimp only
      generalize hm : root * 2 + (if right = true then 1 else 0) = maxChild at hle hhigh ⊢
      have hmax : root * 2 ≤ maxChild ∧ maxChild ≤ root * 2 + 1 := by
        rw [← hm]
        split <;> omega
      have hchildren : ∀ k, 0 < k → k ≤ bottom → k / 2 = root →
          NotAbove c (s.value k) (s.value maxChild) := fun k _ hkb hk =>
        hhigh k (by omega) (by omega) hkb
      have hroot := hp root (by omega)
      have hchosen := hp maxChild hle
      have hanswer := hanswers.answer _ _ s₁ hroot hchosen hgood₁
      have hgood₂ := hanswers.keeps _ _ s₁ hroot hchosen hgood₁
      have hvalues₂ := sortCompare_values env hleaves (s.value root) (s.value maxChild) s₁
      rw [value_congr hvalues]
      cases hcmp : sortCompare env func (s.value root) (s.value maxChild) s₁ with
      | mk ret s₂ =>
        rw [hcmp] at hanswer hvalues₂ hgood₂
        replace hanswer : ret = some (c (s.value root) (s.value maxChild)) := hanswer
        subst hanswer
        dsimp only
        replace hvalues₂ : s₂.values = s.values := hvalues₂.trans hvalues
        have hvalue := value_congr hvalues₂
        by_cases hlow : c (s.value root) (s.value maxChild) < 0
        · have hne : root ≠ maxChild := by
            intro heq
            rw [← heq, hpre.self hroot] at hlow
            exact absurd hlow (lt_irrefl 0)
          rw [if_pos hlow, dif_neg hne]
          have hswap := value_swap (s := s₂) (i := root) (j := maxChild)
            (by rw [hvalues₂]; omega) (by rw [hvalues₂]; omega)
          rw [hvalue] at hswap
          have hplace : ∀ k ≤ bottom, Equiv.swap root maxChild k ≤ bottom := fun k hk => by
            rw [Equiv.swap_apply_def]
            split
            · exact hle
            · split
              · omega
              · exact hk
          have hsize : (s₂.swap root maxChild).values.size = s.values.size := by
            rw [← hvalues₂]
            exact Array.size_swapIfInBounds
          have hsifting :
              HeapOrder.Sifting (NotAbove c) (s₂.swap root maxChild).value lo maxChild bottom := by
            rw [hswap]
            exact h.swap (by omega) (by omega) hle hlo hlow.le hchildren
          obtain ⟨s', hrun, hs', hgood'⟩ := ih (bottom + 1 - maxChild) (by omega)
            (s := s₂.swap root maxChild) (by omega) (by rw [hsize]; exact hbottom)
            (hanswers.swaps _ _ _ hgood₂)
            (by
              intro k hk
              rw [hswap]
              exact hp _ (hplace k hk))
            hsifting rfl
          refine ⟨s', hrun, ⟨hs'.ordered, fun k hk => ?_, fun k hk => ?_, hs'.size.trans hsize⟩,
            hgood'⟩
          · obtain ⟨k', hk', heq⟩ := hs'.inside k hk
            rw [hswap] at heq
            exact ⟨_, hplace k' hk', heq⟩
          · rw [hs'.outside k hk, hswap, Function.comp_apply,
              Equiv.swap_apply_of_ne_of_ne (by omega) (by omega)]
        · rw [if_neg hlow]
          refine ⟨s₂, rfl, ⟨?_, fun k hk => ⟨k, hk, by rw [hvalue]⟩, fun k _ => by rw [hvalue], by
            rw [hvalues₂]⟩, hgood₂⟩
          rw [hvalue]
          have htop : NotAbove c (s.value maxChild) (s.value root) := by
            have hswap := hpre.swap _ _ hroot hchosen
            show c _ _ ≤ 0
            omega
          exact h.ordered fun k hk hkb hkroot =>
            hpre.trans _ _ _ (hp k hkb) hchosen hroot (hchildren k hk hkb hkroot) htop
    · rw [dif_neg hchild]
      refine ⟨s, rfl, ⟨?_, fun k hk => ⟨k, hk, rfl⟩, fun _ _ => rfl, rfl⟩, hgood⟩
      exact h.ordered fun k _ hkb hkroot => by omega

theorem Sifted.elements {lo bottom : Nat} {s s' : Sorting ρ} (h : Sifted c lo bottom s s')
    (hp : ∀ k ≤ bottom, p (s.value k)) : ∀ k ≤ bottom, p (s'.value k) := by
  intro k hk
  obtain ⟨k', hk', heq⟩ := h.inside k hk
  rw [heq]
  exact hp k' hk'

theorem heapify_spec (hleaves : LeavesArray func) (hanswers : Answers env func good p c)
    (hpre : TotalPreorder p c) {bottom i : Nat} {s : Sorting ρ} (hbottom : bottom < s.values.size)
    (hgood : good s) (hp : ∀ k ≤ bottom, p (s.value k))
    (h : HeapOrder.Ordered (NotAbove c) s.value (i + 1) bottom) :
    ∃ s', heapify env func bottom i s = (true, s') ∧
      HeapOrder.Ordered (NotAbove c) s'.value 0 bottom ∧ (∀ k ≤ bottom, p (s'.value k)) ∧
      s'.values.size = s.values.size ∧ good s' := by
  induction i generalizing s with
  | zero =>
    obtain ⟨s', hrun, hs', hgood'⟩ :=
      hsortSiftDown_spec env hleaves hanswers hpre (Nat.le_refl 0) hbottom hgood hp h.sifting
    exact ⟨s', hrun, hs'.ordered, hs'.elements hp, hs'.size, hgood'⟩
  | succ i ih =>
    obtain ⟨s₁, hrun, hs₁, hgood₁⟩ :=
      hsortSiftDown_spec env hleaves hanswers hpre (Nat.le_refl (i + 1)) hbottom hgood hp h.sifting
    obtain ⟨s', hrun', hordered, helements, hsize, hgood'⟩ :=
      ih (by rw [hs₁.size]; exact hbottom) hgood₁ (hs₁.elements hp) hs₁.ordered
    unfold heapify
    rw [hrun]
    exact ⟨s', hrun', hordered, helements, hsize.trans hs₁.size, hgood'⟩

/-- The positions above the bottom hold their final elements. -/
def Settled (c : SQObject → SQObject → Int) (bottom : Nat) (s : Sorting ρ) : Prop :=
  ∀ j, bottom < j → j < s.values.size → ∀ k < j, NotAbove c (s.value k) (s.value j)

theorem extract_spec (hleaves : LeavesArray func) (hanswers : Answers env func good p c)
    (hpre : TotalPreorder p c) {i : Nat} {s : Sorting ρ} (hi : i < s.values.size)
    (hgood : good s) (hp : ∀ k ≤ i, p (s.value k)) (h : HeapOrder.Ordered (NotAbove c) s.value 0 i)
    (hsettled : Settled c i s) :
    ∃ s', extract env func i s = (true, s') ∧ Settled c 0 s' ∧
      s'.values.size = s.values.size := by
  induction i generalizing s with
  | zero => exact ⟨s, rfl, hsettled, rfl⟩
  | succ i ih =>
    have htop : ∀ k ≤ i + 1, NotAbove c (s.value k) (s.value 0) :=
      h.le_root (fun k hk => (hpre.self (hp k hk)).le) fun a ha b hb d hd =>
        hpre.trans _ _ _ (hp a ha) (hp b hb) (hp d hd)
    have hvalue : (s.swap 0 (i + 1)).value = s.value ∘ Equiv.swap 0 (i + 1) :=
      value_swap (by omega) hi
    have hsize : (s.swap 0 (i + 1)).values.size = s.values.size := Array.size_swapIfInBounds
    have hlast : (s.swap 0 (i + 1)).value (i + 1) = s.value 0 := by
      rw [hvalue, Function.comp_apply, Equiv.swap_apply_right]
    have hother : ∀ k, k ≠ 0 → k ≠ i + 1 → (s.swap 0 (i + 1)).value k = s.value k := by
      intro k h0 h1
      rw [hvalue, Function.comp_apply, Equiv.swap_apply_of_ne_of_ne h0 h1]
    -- what lies below the new bottom lay below the old one
    have hbelow : ∀ k ≤ i, ∃ k' ≤ i + 1, (s.swap 0 (i + 1)).value k = s.value k' := by
      intro k hk
      by_cases h0 : k = 0
      · refine ⟨i + 1, le_refl _, ?_⟩
        rw [h0, hvalue, Function.comp_apply, Equiv.swap_apply_left]
      · exact ⟨k, by omega, hother k h0 (by omega)⟩
    have hsifting : HeapOrder.Sifting (NotAbove c) (s.swap 0 (i + 1)).value 0 0 i := by
      refine ⟨fun k hk hki _ hne => ?_, fun hpos => absurd hpos (lt_irrefl 0)⟩
      rw [hother k (by omega) (by omega), hother (k / 2) hne (by omega)]
      exact h k hk (by omega) (Nat.zero_le _)
    obtain ⟨s₁, hrun, hs₁, hgood₁⟩ := hsortSiftDown_spec env hleaves hanswers hpre (Nat.le_refl 0)
      (by rw [hsize]; omega) (hanswers.swaps _ _ _ hgood) (by
        intro k hk
        obtain ⟨k', hk', heq⟩ := hbelow k hk
        rw [heq]
        exact hp k' hk') hsifting
    have hold : ∀ k ≤ i, ∃ k' ≤ i + 1, s₁.value k = s.value k' := by
      intro k hk
      obtain ⟨k₁, hk₁, heq₁⟩ := hs₁.inside k hk
      obtain ⟨k', hk', heq⟩ := hbelow k₁ hk₁
      exact ⟨k', hk', heq₁.trans heq⟩
    have hmax : s₁.value (i + 1) = s.value 0 := (hs₁.outside _ (by omega)).trans hlast
    have hrest : ∀ k, i + 1 < k → s₁.value k = s.value k := fun k hk =>
      (hs₁.outside k (by omega)).trans (hother k (by omega) (by omega))
    have hsettled₁ : Settled c i s₁ := by
      intro j hij hj k hk
      rw [hs₁.size, hsize] at hj
      by_cases hj1 : j = i + 1
      · obtain ⟨k', hk', heq⟩ := hold k (by omega)
        rw [hj1, hmax, heq]
        exact htop k' hk'
      · rw [hrest j (by omega)]
        by_cases hki : k ≤ i
        · obtain ⟨k', hk', heq⟩ := hold k hki
          rw [heq]
          exact hsettled j (by omega) hj k' (by omega)
        · by_cases hk1 : k = i + 1
          · rw [hk1, hmax]
            exact hsettled j (by omega) hj 0 (by omega)
          · rw [hrest k (by omega)]
            exact hsettled j (by omega) hj k hk
    obtain ⟨s', hrun', hsettled', hsize'⟩ := ih (by rw [hs₁.size, hsize]; omega) hgood₁
      (by
        intro k hk
        obtain ⟨k', hk', heq⟩ := hold k hk
        rw [heq]
        exact hp k' hk') hs₁.ordered hsettled₁
    unfold extract
    rw [hrun]
    exact ⟨s', hrun', hsettled', hsize'.trans (hs₁.size.trans hsize)⟩

theorem arraySort_spec (hleaves : LeavesArray func) {s : Sorting ρ} (hgood : good s)
    (hanswers : Answers env func good (· ∈ s.values) c) (hpre : TotalPreorder (· ∈ s.values) c) :
    ∃ s', arraySort env func s = (true, s') ∧
      ∀ i j, i < j → j < s'.values.size → c (s'.value i) (s'.value j) ≤ 0 := by
  unfold arraySort
  by_cases hsize : 1 < s.values.size
  · rw [if_pos hsize]
    have hvacuous :
        HeapOrder.Ordered (NotAbove c) s.value (s.values.size / 2 + 1) (s.values.size - 1) :=
      fun k hk hkb hlo => by omega
    obtain ⟨s₁, hrun, hordered, hp, hsize₁, hgood₁⟩ :=
      heapify_spec env hleaves hanswers hpre (by omega) hgood (fun k hk => value_mem (by omega))
        hvacuous
    obtain ⟨s', hrun', hsettled, hsize'⟩ :=
      extract_spec env hleaves hanswers hpre (by omega) hgood₁ hp hordered
        fun j hj hjs => by omega
    unfold hsort
    dsimp only
    rw [hrun]
    exact ⟨s', hrun', fun i j hij hj => hsettled j (by omega) hj i hij⟩
  · rw [if_neg hsize]
    exact ⟨s, rfl, fun i j hij hj => by omega⟩

/-! ## Integers, without a compare function -/

def Integers (o : SQObject) : Prop := ∃ n, o = .ofInteger n

def compareIntegers (a b : SQObject) : Int := (a.integer - b.integer).sign

theorem integers_answer : Answers env none (fun _ => True) Integers compareIntegers where
  answer := by
    rintro _ _ s ⟨m, rfl⟩ ⟨n, rfl⟩ -
    show (Vm.Compare.objCmp _ _ _).toOption = _
    rw [Vm.ScalarOrder.objCmp_integers]
    rfl
  keeps _ _ _ _ _ _ := trivial
  swaps _ _ _ _ := trivial

theorem integers_preorder : TotalPreorder Integers compareIntegers where
  swap a b _ _ := by
    unfold compareIntegers
    rw [Int.sign_neg_iff, Int.sign_pos_iff]
    omega
  trans a b d _ _ _ := by
    unfold compareIntegers
    rw [Int.sign_nonpos_iff, Int.sign_nonpos_iff, Int.sign_nonpos_iff]
    omega

/-! ## Sorting -/

/-- `array_sort` leaves the elements that were there, and orders them where the comparison does. -/
structure Sorts (func : Option (CompareFunc ρ)) (s : Sorting ρ) : Prop where
  perm : (arraySort env func s).2.values.Perm s.values
  preorder : ∀ good c, good s → Answers env func good (· ∈ s.values) c →
    TotalPreorder (· ∈ s.values) c →
    ∃ s', arraySort env func s = (true, s') ∧
      ∀ i j, i < j → j < s'.values.size → c (s'.value i) (s'.value j) ≤ 0
  integers : func = none → (∀ o ∈ s.values, Integers o) →
    ∃ s', arraySort env func s = (true, s') ∧
      ∀ i j, i < j → j < s'.values.size → (s'.value i).integer ≤ (s'.value j).integer

theorem arraySort_sorts (hleaves : LeavesArray func) (s : Sorting ρ) : Sorts env func s where
  perm := arraySort_perm env hleaves s
  preorder good c hgood hanswers hpre := arraySort_spec env hleaves hgood hanswers hpre
  integers := by
    rintro rfl hint
    have hgood : (fun _ : Sorting ρ => True) s := trivial
    obtain ⟨s', hrun, hsorted⟩ := arraySort_spec env hleaves hgood
      ((integers_answer env).of_imp hint) (integers_preorder.of_imp hint)
    refine ⟨s', hrun, fun i j hij hj => ?_⟩
    have hle := hsorted i j hij hj
    unfold compareIntegers at hle
    rw [Int.sign_nonpos_iff] at hle
    omega

def descending : CompareFunc Unit := fun a b s =>
  (some (.ofInteger (BitVec.ofInt 64 (compareIntegers b a))), s)

def oneToThree : Sorting Unit := ⟨default, 0, #[.ofInteger 1, .ofInteger 2, .ofInteger 3]⟩

def noStrings : SortEnv Unit where
  toPlatform := default
  compareEnv _ := ⟨.empty, fun _ _ => .absent, fun _ => []⟩
  afterObjCmp _ _ m := m
  convert := ⟨fun _ => 0, fun _ _ => none, fun _ => none, .empty⟩

theorem arraySort_sorts_descending : Sorts noStrings (some descending) oneToThree :=
  arraySort_sorts noStrings (by rintro _ ⟨rfl⟩ a b s; exact ⟨rfl, rfl⟩) oneToThree

end Sqnim.BaseLib
