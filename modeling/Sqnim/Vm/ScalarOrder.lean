import Sqnim.Vm.Compare

/-!
# The order of null, bool and integer values

On these values `ObjCmp` never fails and its sign has a closed form. It is a
total preorder exactly on the triples whose integers, read as floats from their
low four bytes, stand to the other operand as the integers themselves do.
-/
namespace Sqnim.Vm.ScalarOrder

open Sqnim.Lib Sqnim.Object Sqnim.Vm.Compare
open Binary32 (decode ofInt one)
open SQObjectType

section FloatSign

theorem floatSign_eq_zero {x y : Binary32.Value} : floatSign x y = 0 ↔ Binary32.eq x y = true := by
  unfold floatSign
  split_ifs with he hl <;> simp_all

theorem floatSign_nonpos {x y : Binary32.Value} : floatSign x y ≤ 0 ↔ Binary32.le x y = true := by
  unfold floatSign Binary32.le
  split_ifs with he hl <;> simp_all

/-- Against a finite datum, `lt` excludes `eq`, so the three outcomes are `lt`, `eq` and neither. -/
theorem floatSign_finite (x : Binary32.Value) (k : Int) :
    floatSign x (.finite k) =
      if Binary32.lt x (.finite k) then -1 else if Binary32.le x (.finite k) then 0 else 1 := by
  unfold floatSign Binary32.le
  rcases x with _ | s | m
  · rfl
  · cases s <;> rfl
  · simp only [Binary32.eq_finite, Binary32.lt_finite]
    split_ifs <;> simp_all

theorem floatSign_finite_finite (a b : Int) : floatSign (.finite a) (.finite b) = (a - b).sign := by
  unfold floatSign
  simp only [Binary32.eq_finite, Binary32.lt_finite, decide_eq_true_eq]
  split_ifs with he hl
  · rw [he, sub_self, Int.sign_zero]
  · rw [Int.sign_eq_neg_one_of_neg (by omega)]
  · rw [Int.sign_eq_one_of_pos (by omega)]

/-- An integer of 64 bits is a finite float of its sign, and not a fraction. -/
theorem ofInt_cases {n : Int} (h : n.natAbs < 2^127) :
    ∃ v, ofInt n = .finite v ∧ (n < 0 → v ≤ -one) ∧ (n = 0 → v = 0) ∧ (0 < n → one ≤ v) := by
  refine ⟨_, Binary32.ofInt_finite h, Binary32.ofInt_le_neg_one, ?_, Binary32.one_le_ofInt⟩
  rintro rfl
  rfl

theorem floatSign_zero_ofInt {n : Int} (h : n.natAbs < 2^127) :
    floatSign (.finite 0) (ofInt n) = -n.sign := by
  obtain ⟨v, hv, hneg, hzero, hpos⟩ := ofInt_cases h
  have hone := Binary32.one_pos
  rw [hv, floatSign_finite_finite]
  rcases lt_trichotomy n 0 with hn | rfl | hn
  · have := hneg hn
    rw [Int.sign_eq_neg_one_of_neg hn, Int.sign_eq_one_of_pos (by omega), neg_neg]
  · rw [hzero rfl]
    rfl
  · have := hpos hn
    rw [Int.sign_eq_one_of_pos hn, Int.sign_eq_neg_one_of_neg (by omega)]

/-- A bool read as a float is a subnormal, strictly between zero and one. -/
theorem floatSign_unit_ofInt {n : Int} (h : n.natAbs < 2^127) :
    floatSign (.finite 1) (ofInt n) = if n ≤ 0 then 1 else -1 := by
  obtain ⟨v, hv, hneg, hzero, hpos⟩ := ofInt_cases h
  have hone : 1 < one := by decide
  rw [hv, floatSign_finite_finite]
  rcases lt_trichotomy n 0 with hn | hn | hn
  · have := hneg hn
    rw [if_pos hn.le, Int.sign_eq_one_of_pos (by omega)]
  · rw [if_pos hn.le, hzero hn]
    rfl
  · have := hpos hn
    rw [if_neg (not_le.mpr hn), Int.sign_eq_neg_one_of_neg (by omega)]

end FloatSign

/-- The low four bytes of an integer payload as `_float` reads them. -/
def lowFloat (n : BitVec 64) : Binary32.Value := decode (n.setWidth 32)

/-- The value of a null or a bool as an integer. -/
def level : Scalar → Int
  | .bool true => 1
  | _ => 0

/-- The sign of `ObjCmp` on scalars, by the kinds of its operands. -/
def scalarCmp : Scalar → Scalar → Int
  | .integer m, .integer n => (m.toInt - n.toInt).sign
  | .integer m, y => floatSign (lowFloat m) (.finite (level y * one))
  | .bool true, .integer n => if n.toInt ≤ 0 then 1 else -1
  | _, .integer n => -n.toInt.sign
  | x, y => (level x - level y).sign

theorem natAbs_toInt_lt (n : BitVec 64) : n.toInt.natAbs < 2^127 := by
  have hlo := BitVec.le_toInt n
  have hhi := BitVec.toInt_lt (x := n)
  omega

theorem ofInt_level_bool (b : Bool) :
    ofInt (SQObject.ofBool b).integer = .finite (level (.bool b) * one) := by
  cases b <;> decide

theorem float_ofBool (b : Bool) : (SQObject.ofBool b).float = .finite b.toNat := by
  cases b <;> decide

theorem objCmp_integers (env : Env) (m n : BitVec 64) :
    objCmp env (.ofInteger m) (.ofInteger n) = .ok (m.toInt - n.toInt).sign := by
  by_cases h : m = n
  · simp [objCmp, SQObject.ofInteger, SQObject.rawval, h]
  · have hstep : objCmp env (.ofInteger m) (.ofInteger n) =
        .ok (if m.toInt < n.toInt then -1 else 1) := (if_pos rfl).trans (if_neg h)
    have hne : m.toInt ≠ n.toInt := fun he => h (BitVec.toInt_inj.mp he)
    rw [hstep]
    by_cases hl : m.toInt < n.toInt
    · rw [if_pos hl, Int.sign_eq_neg_one_of_neg (by omega)]
    · rw [if_neg hl, Int.sign_eq_one_of_pos (by omega)]

theorem objCmp_mixed (env : Env) (x y : SQObject) (hne : x.type ≠ y.type)
    (hx : x.type.isNumeric = true) (hy : y.type.isNumeric = true) (hf : y.type ≠ otFloat) :
    objCmp env x y = .ok (floatSign x.float (ofInt y.integer)) := by
  simp only [objCmp, if_neg hne, hx, hy, Bool.and_self, if_true, hf, and_false, if_false]

/-- Every comparison of scalars succeeds, with the sign that `scalarCmp` gives. -/
theorem objCmp_scalar (env : Env) (a b : Scalar) :
    objCmp env a.toObject b.toObject = .ok (scalarCmp a b) := by
  cases a with
  | null =>
    cases b with
    | null => rfl
    | bool b => cases b <;> rfl
    | integer n =>
      have h := objCmp_mixed env .ofNull (.ofInteger n) nofun isNumeric_otNull isNumeric_otInteger nofun
      exact h.trans (congrArg _ (floatSign_zero_ofInt (natAbs_toInt_lt n)))
  | bool a =>
    cases b with
    | null => cases a <;> rfl
    | bool b => cases a <;> cases b <;> rfl
    | integer n =>
      have h := objCmp_mixed env (.ofBool a) (.ofInteger n) nofun isNumeric_otBool isNumeric_otInteger
        nofun
      rw [float_ofBool] at h
      cases a
      · exact h.trans (congrArg _ (floatSign_zero_ofInt (natAbs_toInt_lt n)))
      · exact h.trans (congrArg _ (floatSign_unit_ofInt (natAbs_toInt_lt n)))
  | integer m =>
    cases b with
    | null => exact objCmp_mixed env (.ofInteger m) .ofNull nofun isNumeric_otInteger isNumeric_otNull nofun
    | bool b =>
      have h := objCmp_mixed env (.ofInteger m) (.ofBool b) nofun isNumeric_otInteger isNumeric_otBool
        nofun
      rwa [ofInt_level_bool] at h
    | integer n => exact objCmp_integers env m n

/-- The laws of a total preorder at one triple: the comparison succeeds, swapping the
operands negates the sign, and `<=` composes. -/
structure PreorderAt (env : Env) (a b c : Scalar) : Prop where
  succeeds : ∃ r, objCmp env a.toObject b.toObject = .ok r
  antisymmetric : ∀ r s, objCmp env a.toObject b.toObject = .ok r →
    objCmp env b.toObject a.toObject = .ok s → r.sign = -s.sign
  transitive : ∀ r s t, objCmp env a.toObject b.toObject = .ok r →
    objCmp env b.toObject c.toObject = .ok s → objCmp env a.toObject c.toObject = .ok t →
    r ≤ 0 → s ≤ 0 → t ≤ 0

/-- Seen from the level of a null or bool `y`, the low bytes of `n` read as a float lie on the
side of `n`. One is excluded against `true`, which reads as `2^-149`. -/
structure ReadsAs (n : BitVec 64) (y : Scalar) : Prop where
  below : n.toInt < level y → Binary32.lt (lowFloat n) (.finite (level y * one)) = true
  above : level y < n.toInt → Binary32.le (lowFloat n) (.finite (level y * one)) = false
  not_one : ¬ (n.toInt = 1 ∧ y = .bool true)

def SwapCondition : Scalar → Scalar → Prop
  | .integer _, .integer _ => True
  | .integer n, y => ReadsAs n y
  | x, .integer n => ReadsAs n x
  | _, _ => True

/-- The patterns in which an integer is read both ways along a chain of three. -/
def ChainCondition : Scalar → Scalar → Scalar → Prop
  | _, .integer _, .integer _ => True
  | .integer m, .integer n, y => m.toInt ≤ n.toInt →
      Binary32.le (lowFloat n) (.finite (level y * one)) = true →
      Binary32.le (lowFloat m) (.finite (level y * one)) = true
  | .integer m, y, .integer n => Binary32.le (lowFloat m) (.finite (level y * one)) = true →
      level y ≤ n.toInt → m.toInt ≤ n.toInt
  | .bool true, .integer n, y => level y < 1 → 1 ≤ n.toInt →
      Binary32.le (lowFloat n) (.finite (level y * one)) = false
  | _, _, _ => True

theorem preorderAt_iff_scalarCmp (env : Env) (a b c : Scalar) :
    PreorderAt env a b c ↔ (scalarCmp a b).sign = -(scalarCmp b a).sign ∧
      (scalarCmp a b ≤ 0 → scalarCmp b c ≤ 0 → scalarCmp a c ≤ 0) := by
  constructor
  · intro h
    exact ⟨h.antisymmetric _ _ (objCmp_scalar env a b) (objCmp_scalar env b a),
      h.transitive _ _ _ (objCmp_scalar env a b) (objCmp_scalar env b c) (objCmp_scalar env a c)⟩
  · rintro ⟨hs, ht⟩
    refine ⟨⟨_, objCmp_scalar env a b⟩, ?_, ?_⟩
    · intro r s hr hs'
      rw [objCmp_scalar, Except.ok.injEq] at hr hs'
      rw [← hr, ← hs', hs]
    · intro r s t hr hs' ht'
      rw [objCmp_scalar, Except.ok.injEq] at hr hs' ht'
      rw [← hr, ← hs', ← ht']
      exact ht

theorem level_cases (y : Scalar) : level y = 0 ∨ (level y = 1 ∧ y = .bool true) := by
  rcases y with _ | b | n
  · exact .inl rfl
  · cases b
    · exact .inl rfl
    · exact .inr ⟨rfl, rfl⟩
  · exact .inl rfl

def NotInteger (y : Scalar) : Prop := ∀ n, y ≠ .integer n

theorem scalarCmp_integer_left {y : Scalar} (hy : NotInteger y) (n : BitVec 64) :
    scalarCmp (.integer n) y = floatSign (lowFloat n) (.finite (level y * one)) := by
  cases y with
  | integer m => exact absurd rfl (hy m)
  | _ => rfl

/-- An integer on the right is compared by its value: `true` is below one and above zero. -/
theorem scalarCmp_integer_right {y : Scalar} (hy : NotInteger y) (n : BitVec 64) :
    scalarCmp y (.integer n) = if level y = 1 then (if n.toInt ≤ 0 then 1 else -1)
      else -n.toInt.sign := by
  rcases y with _ | b | m
  · rfl
  · cases b <;> rfl
  · exact absurd rfl (hy m)

theorem lowFloat_zero {n : BitVec 64} (h : n.toInt = 0) : lowFloat n = .finite 0 := by
  have hn : n = 0 := BitVec.toInt_inj.mp (by simpa using h)
  rw [hn]
  decide

theorem lowFloat_one {n : BitVec 64} (h : n.toInt = 1) : lowFloat n = .finite 1 := by
  have hn : n = 1 := BitVec.toInt_inj.mp (by simpa using h)
  rw [hn]
  decide

/-- The sign of a comparison given by `lt` and `le`, against the sign expected of it. -/
theorem sign_of_lt_le {p q : Bool} (hpq : p = true → q = true) :
    ((if p then -1 else if q then 0 else 1 : Int).sign = -1 ↔ p = true) ∧
    ((if p then -1 else if q then 0 else 1 : Int).sign = 1 ↔ q = false) := by
  cases p <;> cases q <;> simp_all

/-- Swapping an integer and a null or bool negates the sign iff the low bytes read well. -/
theorem swap_mixed {y : Scalar} (hy : NotInteger y) (n : BitVec 64) :
    (scalarCmp (.integer n) y).sign = -(scalarCmp y (.integer n)).sign ↔ ReadsAs n y := by
  rw [scalarCmp_integer_left hy, scalarCmp_integer_right hy, floatSign_finite]
  have hle : Binary32.lt (lowFloat n) (.finite (level y * one)) = true →
      Binary32.le (lowFloat n) (.finite (level y * one)) = true := by
    intro h
    rw [Binary32.le, h, Bool.true_or]
  obtain ⟨hminus, hplus⟩ := sign_of_lt_le hle
  have hiff : ReadsAs n y ↔
      (n.toInt < level y → Binary32.lt (lowFloat n) (.finite (level y * one)) = true) ∧
      (level y < n.toInt → Binary32.le (lowFloat n) (.finite (level y * one)) = false) ∧
      ¬ (n.toInt = 1 ∧ y = .bool true) :=
    ⟨fun h => ⟨h.below, h.above, h.not_one⟩, fun h => ⟨h.1, h.2.1, h.2.2⟩⟩
  rw [hiff]
  rcases level_cases y with h | ⟨h, rfl⟩
  · have hne : y ≠ .bool true := by rintro rfl; cases h
    rw [h] at hminus hplus ⊢
    rcases lt_trichotomy n.toInt 0 with hn | hn | hn
    · simp only [zero_ne_one, if_false, Int.sign_eq_neg_one_of_neg hn, neg_neg, hn, hn.not_gt]
      simpa [hne] using hminus
    · simp [hn, lowFloat_zero hn]
    · simp only [zero_ne_one, if_false, Int.sign_eq_one_of_pos hn, hn, hn.not_gt]
      simpa [hne] using hplus
  · rw [h] at hminus hplus ⊢
    by_cases hn : n.toInt ≤ 0
    · have hlt : n.toInt < 1 := by omega
      have hne : n.toInt ≠ 1 := by omega
      simpa [hn, hlt, hlt.not_gt, hne] using hminus
    · rcases (show n.toInt = 1 ∨ 1 < n.toInt by omega) with hone | hgt
      · have hq : Binary32.le (lowFloat n) (.finite (1 * one)) = true := by
          rw [lowFloat_one hone]
          decide
        have hno : ¬ (if Binary32.lt (lowFloat n) (.finite (1 * one)) then -1
            else if Binary32.le (lowFloat n) (.finite (1 * one)) then 0 else 1 : Int).sign = 1 := by
          rw [hplus, hq]
          decide
        simpa [hone] using hno
      · have hne : n.toInt ≠ 1 := by omega
        simpa [hn, hgt, hgt.not_gt, hne] using hplus

theorem scalarCmp_levels {x y : Scalar} (hx : NotInteger x) (hy : NotInteger y) :
    scalarCmp x y = (level x - level y).sign := by
  cases x with
  | integer n => exact absurd rfl (hx n)
  | null =>
    cases y with
    | integer n => exact absurd rfl (hy n)
    | _ => rfl
  | bool a =>
    cases y with
    | integer n => exact absurd rfl (hy n)
    | _ => cases a <;> rfl

/-- Every scalar is an integer or compares through its level. -/
theorem integer_or_not (a : Scalar) : (∃ n, a = .integer n) ∨ NotInteger a := by
  cases a with
  | integer n => exact .inl ⟨n, rfl⟩
  | _ => exact .inr nofun

theorem swap_iff (a b : Scalar) :
    (scalarCmp a b).sign = -(scalarCmp b a).sign ↔ SwapCondition a b := by
  have hsub : ∀ i j : Int, (i - j).sign.sign = -(j - i).sign.sign := by
    intro i j
    rw [Int.sign_sign, Int.sign_sign, ← Int.sign_neg, neg_sub]
  rcases integer_or_not a with ⟨m, rfl⟩ | ha <;> rcases integer_or_not b with ⟨n, rfl⟩ | hb
  · exact iff_of_true (hsub _ _) trivial
  · rw [swap_mixed hb m]
    cases b with
    | integer n => exact absurd rfl (hb n)
    | _ => exact Iff.rfl
  · have hswap : (scalarCmp a (.integer n)).sign = -(scalarCmp (.integer n) a).sign ↔
        (scalarCmp (.integer n) a).sign = -(scalarCmp a (.integer n)).sign := by omega
    rw [hswap, swap_mixed ha n]
    cases a with
    | integer n => exact absurd rfl (ha n)
    | _ => exact Iff.rfl
  · rw [scalarCmp_levels ha hb, scalarCmp_levels hb ha]
    refine iff_of_true (hsub _ _) ?_
    cases a with
    | integer n => exact absurd rfl (ha n)
    | _ =>
      cases b with
      | integer n => exact absurd rfl (hb n)
      | _ => trivial

section Chains

variable {x y : Scalar} (hx : NotInteger x) (hy : NotInteger y) (m n : BitVec 64)

theorem integers_le : scalarCmp (.integer m) (.integer n) ≤ 0 ↔ m.toInt ≤ n.toInt :=
  Int.sign_nonpos_iff.trans sub_nonpos

include hx in
theorem levels_le (hy : NotInteger y) : scalarCmp x y ≤ 0 ↔ level x ≤ level y := by
  rw [scalarCmp_levels hx hy, Int.sign_nonpos_iff, sub_nonpos]

include hy in
theorem integer_le_level : scalarCmp (.integer n) y ≤ 0 ↔
    Binary32.le (lowFloat n) (.finite (level y * one)) = true := by
  rw [scalarCmp_integer_left hy, floatSign_nonpos]

include hx in
theorem level_le_integer : scalarCmp x (.integer n) ≤ 0 ↔ level x ≤ n.toInt := by
  rw [scalarCmp_integer_right hx]
  rcases level_cases x with h | ⟨h, -⟩
  · simp [h]
  · rw [if_pos h, h]
    split_ifs <;> omega

/-- A finite bound carries over to a larger one. -/
theorem le_finite_trans {v : Binary32.Value} {j k : Int}
    (h : Binary32.le v (.finite j) = true) (hjk : j ≤ k) : Binary32.le v (.finite k) = true := by
  rcases v with _ | s | i
  · cases h
  · exact h
  · rw [Binary32.le_finite, decide_eq_true_eq] at *
    exact h.trans hjk

end Chains

/-- Nothing is asked of a chain whose middle is null or bool, unless both ends are integers. -/
theorem chainCondition_of_middle {a b c : Scalar} (hb : NotInteger b)
    (h : NotInteger a ∨ NotInteger c) : ChainCondition a b c := by
  rcases b with _ | _ | n
  · rcases a with _ | (_ | _) | m <;> rcases c with _ | _ | k
    all_goals first
      | trivial
      | exact (h.elim (fun h => h _ rfl) (fun h => h _ rfl)).elim
  · rcases a with _ | (_ | _) | m <;> rcases c with _ | _ | k
    all_goals first
      | trivial
      | exact (h.elim (fun h => h _ rfl) (fun h => h _ rfl)).elim
  · exact absurd rfl (hb n)

theorem chain_through_integer {x y : Scalar} (hx : NotInteger x) (hy : NotInteger y)
    (n : BitVec 64) :
    (level x ≤ n.toInt → Binary32.le (lowFloat n) (.finite (level y * one)) = true →
      level x ≤ level y) ↔ ChainCondition x (.integer n) y := by
  have hnonneg : 0 ≤ level y := by rcases level_cases y with h | ⟨h, -⟩ <;> omega
  rcases level_cases x with h | ⟨h, rfl⟩
  · refine iff_of_true (fun _ _ => h ▸ hnonneg) ?_
    rcases x with _ | (_ | _) | j <;> rcases y with _ | b | k
    all_goals first
      | trivial
      | exact absurd rfl (hx _)
  · have hcond : ChainCondition (.bool true) (.integer n) y ↔ (level y < 1 → 1 ≤ n.toInt →
        Binary32.le (lowFloat n) (.finite (level y * one)) = false) := by
      cases y with
      | integer k => exact absurd rfl (hy k)
      | _ => exact Iff.rfl
    rw [hcond, h]
    constructor
    · intro hc hlt hn
      by_contra hle
      exact absurd (hc hn (by simpa using hle)) (not_le.mpr hlt)
    · intro hc hn hle
      by_contra hlt
      rw [hc (not_le.mp hlt) hn] at hle
      cases hle

theorem chain_iff (a b c : Scalar) :
    (scalarCmp a b ≤ 0 → scalarCmp b c ≤ 0 → scalarCmp a c ≤ 0) ↔ ChainCondition a b c := by
  rcases integer_or_not a with ⟨m, rfl⟩ | ha <;> rcases integer_or_not b with ⟨n, rfl⟩ | hb <;>
    rcases integer_or_not c with ⟨k, rfl⟩ | hc
  · simp only [integers_le]
    exact iff_of_true le_trans trivial
  · simp only [integers_le, integer_le_level hc]
    cases c with
    | integer k => exact absurd rfl (hc k)
    | _ => exact Iff.rfl
  · simp only [integers_le, integer_le_level hb, level_le_integer hb]
    cases b with
    | integer k => exact absurd rfl (hb k)
    | _ => exact Iff.rfl
  · simp only [integer_le_level hb, integer_le_level hc, levels_le hb hc]
    refine iff_of_true (fun h hle => le_finite_trans h ?_) (chainCondition_of_middle hb (.inr hc))
    exact mul_le_mul_of_nonneg_right hle Binary32.one_pos.le
  · simp only [integers_le, level_le_integer ha]
    exact iff_of_true le_trans trivial
  · simp only [integer_le_level hc, level_le_integer ha, levels_le ha hc]
    exact chain_through_integer ha hc n
  · simp only [level_le_integer ha, level_le_integer hb, levels_le ha hb]
    exact iff_of_true le_trans (chainCondition_of_middle hb (.inl ha))
  · simp only [levels_le ha hb, levels_le hb hc, levels_le ha hc]
    exact iff_of_true le_trans (chainCondition_of_middle hb (.inl ha))

/-- `ObjCmp` is a total preorder at a triple of scalars exactly when the integers of the triple
read as floats the way the swapped and the chained comparisons need. -/
theorem preorderAt_iff (env : Env) (a b c : Scalar) :
    PreorderAt env a b c ↔ SwapCondition a b ∧ ChainCondition a b c := by
  rw [preorderAt_iff_scalarCmp, swap_iff, chain_iff]

/-- One and `true` compare below each other. -/
theorem not_preorder : ¬ ∀ (env : Env) (a b c : Scalar), PreorderAt env a b c := by
  intro h
  have env : Env := ⟨.empty, fun _ _ => .absent, fun _ => []⟩
  have hsign := (h env (.integer 1) (.bool true) .null).antisymmetric _ _
    (objCmp_scalar env _ _) (objCmp_scalar env _ _)
  revert hsign
  decide

end Sqnim.Vm.ScalarOrder
