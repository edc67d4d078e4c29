import Mathlib

/-!
# Binary32 data as integers of one scale

Every finite binary32 value is an integer multiple of the least positive
subnormal `2^-149`. A datum is decoded to that integer, so comparisons are
comparisons of integers. Zero has one representative: no comparison tells the
two signed zeros apart.
-/
namespace Sqnim.Lib.Binary32

inductive Value where
  | nan
  | inf (negative : Bool)
  | finite (units : Int)
  deriving DecidableEq, Repr

/-- The number of units in one: `1 = 2^149 * 2^-149`. -/
def one : Int := 2^149

theorem one_pos : 0 < one := by decide

/-! The three fields of the interchange format. -/

def exponent (bits : BitVec 32) : Nat := bits.toNat / 2^23 % 2^8

def significand (bits : BitVec 32) : Nat := bits.toNat % 2^23

def sign (bits : BitVec 32) : Int := if bits.msb then -1 else 1

def decode (bits : BitVec 32) : Value :=
  if exponent bits = 255 then
    if significand bits = 0 then .inf bits.msb else .nan
  else if exponent bits = 0 then .finite (sign bits * significand bits)
  else .finite (sign bits * ((2^23 + significand bits) * 2^(exponent bits - 1) : Nat))

/-- Round to 24 significant bits, ties to even. -/
def roundNat (n : Nat) : Nat :=
  if n < 2^24 then n
  else
    let shift := n.log2 - 23
    let quotient := n / 2^shift
    let rest := n % 2^shift
    if rest < 2^(shift - 1) ∨ (rest = 2^(shift - 1) ∧ quotient % 2 = 0) then quotient * 2^shift
    else (quotient + 1) * 2^shift

/-- Conversion of an integer, overflowing to an infinity. -/
def ofInt (n : Int) : Value :=
  if 2^128 ≤ roundNat n.natAbs then .inf (n < 0)
  else .finite (n.sign * roundNat n.natAbs * one)

/-- No comparison with a NaN holds. -/
def eq : Value → Value → Bool
  | .finite a, .finite b => decide (a = b)
  | .inf s, .inf t => s == t
  | _, _ => false

def lt : Value → Value → Bool
  | .finite a, .finite b => decide (a < b)
  | .inf s, .inf t => s && !t
  | .inf s, .finite _ => s
  | .finite _, .inf t => !t
  | _, _ => false

def le (a b : Value) : Bool := lt a b || eq a b

/-- The order of a finite datum on either side of an arbitrary one. -/
@[simp] theorem eq_finite (a b : Int) : eq (.finite a) (.finite b) = decide (a = b) := rfl

@[simp] theorem lt_finite (a b : Int) : lt (.finite a) (.finite b) = decide (a < b) := rfl

@[simp] theorem le_finite (a b : Int) : le (.finite a) (.finite b) = decide (a ≤ b) := by
  simp only [le, eq_finite, lt_finite, ← Bool.decide_or, Int.le_iff_lt_or_eq]

theorem eq_comm (x y : Value) : eq x y = eq y x := by
  rcases x with _ | s | m <;> rcases y with _ | t | n
  all_goals first
    | rfl
    | exact Bool.beq_comm
    | simp only [eq_finite, Eq.comm]

theorem roundNat_small {n : Nat} (h : n < 2^24) : roundNat n = n := if_pos h

theorem roundNat_pos {n : Nat} (h : 0 < n) : 0 < roundNat n := by
  by_cases hs : n < 2^24
  · rwa [roundNat_small hs]
  · have hn : n ≠ 0 := h.ne'
    have hshift : n.log2 - 23 ≤ n.log2 := Nat.sub_le _ _
    have hq : 0 < n / 2^(n.log2 - 23) := by
      apply Nat.div_pos _ (by positivity)
      exact (Nat.pow_le_pow_right (by decide) hshift).trans (Nat.log2_self_le hn)
    have hp : 0 < 2^(n.log2 - 23) := by positivity
    simp only [roundNat, if_neg hs]
    split
    · exact Nat.mul_pos hq hp
    · exact Nat.mul_pos (Nat.succ_pos _) hp

/-- Rounding at most doubles, so no 64-bit integer overflows the format. -/
theorem roundNat_le (n : Nat) : roundNat n ≤ 2 * n := by
  by_cases hs : n < 2^24
  · rw [roundNat_small hs]; omega
  · simp only [roundNat, if_neg hs]
    have hn : n ≠ 0 := by omega
    have hp : 2^(n.log2 - 23) ≤ n :=
      (Nat.pow_le_pow_right (by decide) (Nat.sub_le _ _)).trans (Nat.log2_self_le hn)
    have hd : n / 2^(n.log2 - 23) * 2^(n.log2 - 23) ≤ n := Nat.div_mul_le_self _ _
    split
    · omega
    · rw [Nat.succ_mul]; omega

/-- An integer below the overflow threshold converts to a finite datum of its sign. -/
theorem ofInt_finite {n : Int} (h : n.natAbs < 2^127) :
    ofInt n = .finite (n.sign * roundNat n.natAbs * one) := by
  have hr := roundNat_le n.natAbs
  exact if_neg (by omega)

/-- A positive integer converts to at least one, a negative one to at most minus one. -/
theorem one_le_ofInt {n : Int} (hn : 0 < n) : one ≤ n.sign * roundNat n.natAbs * one := by
  have hr : 0 < roundNat n.natAbs := roundNat_pos (by omega)
  rw [Int.sign_eq_one_of_pos hn, one_mul]
  have h1 : (1 : Int) ≤ roundNat n.natAbs := by exact_mod_cast hr
  calc one = 1 * one := (one_mul _).symm
    _ ≤ _ := mul_le_mul_of_nonneg_right h1 one_pos.le

theorem ofInt_le_neg_one {n : Int} (hn : n < 0) : n.sign * roundNat n.natAbs * one ≤ -one := by
  have hr : 0 < roundNat n.natAbs := roundNat_pos (by omega)
  rw [Int.sign_eq_neg_one_of_neg hn]
  have h1 : (1 : Int) ≤ roundNat n.natAbs := by exact_mod_cast hr
  have h2 := mul_le_mul_of_nonneg_right h1 one_pos.le
  linarith

section Fields

variable (bits : BitVec 32)

theorem sign_ne_zero : sign bits ≠ 0 := by
  unfold sign
  split_ifs <;> decide

theorem exponent_lt : exponent bits < 2^8 := Nat.mod_lt _ (by decide)

theorem significand_lt : significand bits < 2^23 := Nat.mod_lt _ (by decide)

theorem toNat_fields : bits.toNat = (if bits.msb then 2^31 else 0) +
    2^23 * exponent bits + significand bits := by
  have hb := bits.isLt
  rw [BitVec.msb_eq_decide, exponent, significand]
  split_ifs with h <;> simp only [decide_eq_true_eq] at h <;> omega

theorem not_eq_finite (h : exponent bits = 255) (k : Int) : eq (decode bits) (.finite k) = false := by
  rw [decode, if_pos h]
  split_ifs <;> rfl

theorem decode_subnormal (h : exponent bits = 0) :
    decode bits = .finite (sign bits * significand bits) := by
  rw [decode, if_neg (by rw [h]; decide), if_pos h]

theorem decode_normal (h : exponent bits ≠ 0) (h255 : exponent bits ≠ 255) :
    decode bits = .finite
      (sign bits * ((2^23 + significand bits) * 2^(exponent bits - 1) : Nat)) :=
  (if_neg h255).trans (if_neg h)

/-- The two zeros are the only data equal to zero. -/
theorem eq_zero_iff : eq (decode bits) (.finite 0) = true ↔ bits = 0 ∨ bits = 0x80000000 := by
  have hf := toNat_fields bits
  have hs := significand_lt bits
  have hlt := exponent_lt bits
  have hright : (bits = 0 ∨ bits = 0x80000000) ↔ exponent bits = 0 ∧ significand bits = 0 := by
    rw [← BitVec.toNat_inj, ← BitVec.toNat_inj]
    change bits.toNat = 0 ∨ bits.toNat = 2^31 ↔ _
    split_ifs at hf <;> omega
  rw [hright]
  by_cases h255 : exponent bits = 255
  · rw [not_eq_finite bits h255, h255]
    simp
  · by_cases h0 : exponent bits = 0
    · rw [decode_subnormal bits h0, eq_finite, decide_eq_true_eq, mul_eq_zero, h0]
      simp [sign_ne_zero]
    · rw [decode_normal bits h0 h255, eq_finite, decide_eq_true_eq, mul_eq_zero]
      have hne : (((2^23 + significand bits) * 2^(exponent bits - 1) : Nat) : Int) ≠ 0 := by
        exact_mod_cast (by positivity : (2^23 + significand bits) * 2^(exponent bits - 1) ≠ 0)
      simp only [sign_ne_zero, h0, hne, false_and, or_self]

theorem scaled_eq_one {s k : Nat} (hs : s < 2^23) :
    (2^23 + s) * 2^k = 2^149 ↔ k = 126 ∧ s = 0 := by
  constructor
  · intro h
    rcases lt_trichotomy k 126 with hk | rfl | hk
    · have hpow : 2^k ≤ 2^125 := Nat.pow_le_pow_right (by decide) (by omega)
      have hprod : (2^23 + s) * 2^k < 2^24 * 2^125 :=
        Nat.mul_lt_mul_of_lt_of_le (by omega) hpow (by decide)
      omega
    · exact ⟨rfl, by omega⟩
    · have hpow : 2^127 ≤ 2^k := Nat.pow_le_pow_right (by decide) hk
      have hprod : 2^23 * 2^127 ≤ (2^23 + s) * 2^k := Nat.mul_le_mul (by omega) hpow
      omega
  · rintro ⟨rfl, rfl⟩
    decide

theorem eq_one_iff : eq (decode bits) (.finite one) = true ↔ bits = 0x3F800000 := by
  have hf := toNat_fields bits
  have hs := significand_lt bits
  have hone := one_pos
  have hright : bits = 0x3F800000 ↔
      bits.msb = false ∧ exponent bits = 127 ∧ significand bits = 0 := by
    rw [← BitVec.toNat_inj]
    change bits.toNat = 127 * 2^23 ↔ _
    cases hm : bits.msb <;> rw [hm] at hf <;> simp only [Bool.false_eq_true, if_false, if_true] at hf
    · simp only [true_and]
      omega
    · simp only [Bool.true_eq_false, false_and, iff_false]
      omega
  rw [hright]
  by_cases h255 : exponent bits = 255
  · rw [not_eq_finite bits h255, h255]
    simp
  · by_cases h0 : exponent bits = 0
    · rw [decode_subnormal bits h0, eq_finite, decide_eq_true_eq, h0, sign, one]
      refine iff_of_false ?_ (fun h => absurd h.2.1 (by decide))
      split_ifs <;> omega
    · rw [decode_normal bits h0 h255, eq_finite, decide_eq_true_eq]
      have hscaled := scaled_eq_one (k := exponent bits - 1) hs
      cases hm : bits.msb
      · rw [sign, hm, if_neg Bool.false_ne_true, one_mul,
          show one = ((2^149 : Nat) : Int) from rfl, Int.natCast_inj, hscaled]
        simp only [true_and]
        omega
      · rw [sign, hm, if_pos rfl]
        simp only [Bool.true_eq_false, false_and, iff_false]
        omega

end Fields

example : decode 0x3F800000 = .finite one := by decide
example : decode 0xFFFFFFFF = .nan := by decide
example : roundNat 16777217 = 16777216 := by decide

end Sqnim.Lib.Binary32
