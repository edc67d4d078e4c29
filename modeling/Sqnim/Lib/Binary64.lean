import Sqnim.Lib.Binary32

/-!
# From binary32 to binary64 and back

Every binary32 datum is a binary64 datum, so that the way back rounds nothing; a signaling NaN comes
back quiet.
-/
namespace Sqnim.Lib.Binary64

open Binary32 (exponent significand)

/-- The sign bit of a format of `w` bits. -/
def signBit (w : Nat) (negative : Bool) : Nat := if negative then 2^(w - 1) else 0

def quietBit : Nat := 2^22

def withQuietBit (m : Nat) : Nat := if m < quietBit then m + quietBit else m

/-- The exponent and the significand of the binary64 datum. -/
def widenMagnitude (e m : Nat) : Nat :=
  if e = 255 then 2047 * 2^52 + (if m = 0 then 0 else withQuietBit m * 2^29)
  else if e ≠ 0 then (e + 896) * 2^52 + m * 2^29
  else if m = 0 then 0
  else (m.log2 + 874) * 2^52 + (m - 2^m.log2) * 2^(52 - m.log2)

/-- Conversion to binary64. -/
def widen (bits : BitVec 32) : BitVec 64 :=
  BitVec.ofNat 64 (signBit 64 bits.msb + widenMagnitude (exponent bits) (significand bits))

/-- `n / 2^shift`, rounded to the nearest, ties to even. -/
def roundShift (n shift : Nat) : Nat :=
  let quotient := n / 2^shift
  let rest := n % 2^shift
  if rest < 2^(shift - 1) ∨ (rest = 2^(shift - 1) ∧ quotient % 2 = 0) then quotient
  else quotient + 1

/-- The exponent and the significand of the binary32 datum: a carry goes to the exponent, and the
largest exponent is that of the infinities. -/
def narrowMagnitude (e m : Nat) : Nat :=
  if e = 2047 then 255 * 2^23 + (if m = 0 then 0 else withQuietBit (m / 2^29))
  else
    let scaled := if e = 0 then m else 2^52 + m
    if 897 ≤ e then min ((e - 897) * 2^23 + roundShift scaled 29) (255 * 2^23)
    else roundShift scaled (29 + (897 - max e 1))

/-- Conversion to binary32. -/
def narrow (bits : BitVec 64) : BitVec 32 :=
  BitVec.ofNat 32 (signBit 32 bits.msb +
    narrowMagnitude (bits.toNat / 2^52 % 2^11) (bits.toNat % 2^52))

def isNan (bits : BitVec 32) : Bool := exponent bits = 255 ∧ significand bits ≠ 0

/-- A NaN as conversions leave it. -/
def quiet (bits : BitVec 32) : BitVec 32 :=
  if isNan bits ∧ significand bits < quietBit then BitVec.ofNat 32 (bits.toNat + quietBit) else bits

section Exact

/-- A multiple is not rounded. -/
theorem roundShift_mul (n shift : Nat) : roundShift (n * 2^shift) shift = n := by
  have hpos : 0 < 2^shift := Nat.two_pow_pos shift
  have hhalf : 0 < 2^(shift - 1) := Nat.two_pow_pos _
  unfold roundShift
  rw [Nat.mul_div_cancel _ hpos, Nat.mul_mod_left, if_pos (.inl hhalf)]

theorem roundShift_zero (shift : Nat) : roundShift 0 shift = 0 := by
  have h := roundShift_mul 0 shift
  rwa [Nat.zero_mul] at h

theorem withQuietBit_lt {m : Nat} (hm : m < 2^23) : withQuietBit m < 2^23 := by
  unfold withQuietBit quietBit
  split <;> omega

theorem withQuietBit_idem (m : Nat) : withQuietBit (withQuietBit m) = withQuietBit m := by
  unfold withQuietBit
  split
  · rw [if_neg (by omega)]
  · rfl

variable {e m : Nat}

theorem narrowMagnitude_normal (h : 897 ≤ e) (hinf : e ≠ 2047) : narrowMagnitude e m =
    min ((e - 897) * 2^23 + roundShift (2^52 + m) 29) (255 * 2^23) := by
  unfold narrowMagnitude
  rw [if_neg hinf]
  simp only [if_neg (show e ≠ 0 by omega), if_pos h]

theorem narrowMagnitude_small (h : e < 897) : narrowMagnitude e m =
    roundShift (if e = 0 then m else 2^52 + m) (29 + (897 - max e 1)) := by
  unfold narrowMagnitude
  rw [if_neg (show e ≠ 2047 by omega)]
  simp only [if_neg (show ¬ 897 ≤ e by omega)]

/-- What `widenMagnitude` makes. -/
theorem exists_widened (he : e < 2^8) (hm : m < 2^23) : ∃ e' m', m' < 2^52 ∧ e' < 2^11 ∧
    widenMagnitude e m = e' * 2^52 + m' ∧
    narrowMagnitude e' m' = e * 2^23 + (if e = 255 ∧ m ≠ 0 then withQuietBit m else m) := by
  unfold widenMagnitude
  by_cases h255 : e = 255
  · subst h255
    rw [if_pos rfl]
    by_cases hm0 : m = 0
    · subst hm0
      exact ⟨2047, 0, by decide, by decide, rfl, rfl⟩
    · have hquiet := withQuietBit_lt hm
      have hpos : withQuietBit m ≠ 0 := by
        unfold withQuietBit
        split <;> omega
      refine ⟨2047, withQuietBit m * 2^29, by omega, by decide, by rw [if_neg hm0], ?_⟩
      rw [narrowMagnitude, if_pos rfl, if_neg (by omega), Nat.mul_div_cancel _ (by decide),
        withQuietBit_idem, if_pos ⟨rfl, hm0⟩]
  · rw [if_neg h255, if_neg (show ¬(e = 255 ∧ m ≠ 0) from fun h => h255 h.1)]
    by_cases h0 : e = 0
    · subst h0
      rw [if_neg (not_not.mpr rfl)]
      by_cases hm0 : m = 0
      · subst hm0
        refine ⟨0, 0, by decide, by decide, rfl, ?_⟩
        rw [narrowMagnitude_small (by decide), if_pos rfl, roundShift_zero]
        rfl
      · -- a subnormal number is normal in binary64
        have hlog : m.log2 < 23 := (Nat.log2_lt hm0).mpr hm
        have hle : 2^m.log2 ≤ m := Nat.log2_self_le hm0
        have hlt : m < 2^(m.log2 + 1) := Nat.lt_log2_self
        have hpow : 2^m.log2 * 2^(52 - m.log2) = 2^52 := by
          rw [← pow_add]
          congr 1
          omega
        have hsplit : 2^52 + (m - 2^m.log2) * 2^(52 - m.log2) = m * 2^(52 - m.log2) := by
          rw [← hpow, ← Nat.add_mul, Nat.add_sub_cancel' hle]
        have hless : (m - 2^m.log2) * 2^(52 - m.log2) < 2^52 := by
          rw [← hpow]
          refine Nat.mul_lt_mul_of_pos_right ?_ (Nat.two_pow_pos _)
          rw [pow_succ] at hlt
          omega
        refine ⟨m.log2 + 874, _, hless, by omega, by rw [if_neg hm0], ?_⟩
        rw [narrowMagnitude_small (by omega), if_neg (by omega), hsplit,
          show 29 + (897 - max (m.log2 + 874) 1) = 52 - m.log2 by omega, roundShift_mul]
        omega
    · rw [if_pos h0]
      refine ⟨e + 896, m * 2^29, by omega, by omega, rfl, ?_⟩
      rw [narrowMagnitude_normal (by omega) (by omega),
        show 2^52 + m * 2^29 = (2^23 + m) * 2^29 by ring, roundShift_mul]
      omega

end Exact

/-- A binary32 datum comes back from binary64 as it was, but for the quiet bit of a NaN. -/
theorem narrow_widen (bits : BitVec 32) : narrow (widen bits) = quiet bits := by
  have he := Binary32.exponent_lt bits
  have hm := Binary32.significand_lt bits
  have hfields := Binary32.toNat_fields bits
  obtain ⟨e', m', hm', he', hwide, hnarrow⟩ := exists_widened he hm
  have htoNat : (widen bits).toNat = signBit 64 bits.msb + (e' * 2^52 + m') := by
    unfold widen
    rw [BitVec.toNat_ofNat, hwide, Nat.mod_eq_of_lt]
    unfold signBit
    split <;> omega
  have hmsb : (widen bits).msb = bits.msb := by
    rw [BitVec.msb_eq_decide, htoNat]
    unfold signBit
    cases bits.msb <;> simp only [Bool.false_eq_true, if_true, if_false, decide_eq_true_eq,
      decide_eq_false_iff_not] <;> omega
  have hexp : (widen bits).toNat / 2^52 % 2^11 = e' := by
    rw [htoNat]
    unfold signBit
    split <;> omega
  have hsig : (widen bits).toNat % 2^52 = m' := by
    rw [htoNat]
    unfold signBit
    split <;> omega
  unfold narrow
  rw [hmsb, hexp, hsig, hnarrow]
  have hsign : signBit 32 bits.msb = if bits.msb then 2^31 else 0 := rfl
  have hbits : signBit 32 bits.msb + (exponent bits * 2^23 + significand bits) = bits.toNat := by
    omega
  by_cases hnan : exponent bits = 255 ∧ significand bits ≠ 0
  · rw [if_pos hnan]
    unfold withQuietBit quiet
    by_cases hquiet : significand bits < quietBit
    · rw [if_pos hquiet, if_pos ⟨decide_eq_true hnan, hquiet⟩, ← hbits]
      refine congrArg (BitVec.ofNat 32) ?_
      omega
    · rw [if_neg hquiet, if_neg fun h => hquiet h.2, hbits, BitVec.ofNat_toNat,
        BitVec.setWidth_eq]
  · have hquiet : quiet bits = bits := if_neg fun h => hnan (of_decide_eq_true h.1)
    rw [if_neg hnan, hquiet, hbits, BitVec.ofNat_toNat, BitVec.setWidth_eq]

end Sqnim.Lib.Binary64
