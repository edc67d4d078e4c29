import Mathlib

/-!
# Terminated strings

A buffer of bytes as the C string functions see it: everything up to the first
zero byte.
-/
namespace Sqnim.Lib.CString

def cstr (s : List UInt8) : List UInt8 := s.takeWhile (· ≠ 0)

theorem cstr_nonzero (s : List UInt8) : ∀ a ∈ cstr s, a ≠ 0 := by
  intro a ha
  simpa using List.mem_takeWhile_imp ha

theorem cstr_eq_self {s : List UInt8} : cstr s = s ↔ 0 ∉ s := by
  rw [cstr, List.takeWhile_eq_self_iff]
  constructor
  · intro h hz
    simpa using h 0 hz
  · intro h a ha
    simp only [ne_eq, decide_not, Bool.not_eq_eq_eq_not, Bool.not_true, decide_eq_false_iff_not]
    rintro rfl
    exact h ha

/-- The first difference of two strings, a missing byte counting as zero. -/
def difference : List UInt8 → List UInt8 → Int
  | [], [] => 0
  | [], b :: _ => - b.toNat
  | a :: _, [] => a.toNat
  | a :: s, b :: t => if a = b then difference s t else a.toNat - b.toNat

/-- Only the sign of the result is fixed by the standard. -/
def strcmp (s t : List UInt8) : Int := difference (cstr s) (cstr t)

theorem toNat_pos {a : UInt8} (ha : a ≠ 0) : 0 < a.toNat :=
  Nat.pos_of_ne_zero fun h => ha (UInt8.toNat_inj.mp h)

theorem difference_eq_zero {s t : List UInt8} (hs : ∀ a ∈ s, a ≠ 0) (ht : ∀ a ∈ t, a ≠ 0) :
    difference s t = 0 ↔ s = t := by
  induction s generalizing t with
  | nil =>
    cases t with
    | nil => exact iff_of_true rfl rfl
    | cons b t =>
      have hb := toNat_pos (ht b List.mem_cons_self)
      exact iff_of_false (by simp only [difference]; omega) nofun
  | cons a s ih =>
    cases t with
    | nil =>
      have ha := toNat_pos (hs a List.mem_cons_self)
      exact iff_of_false (by simp only [difference]; omega) nofun
    | cons b t =>
      by_cases hab : a = b
      · subst hab
        have hrest : difference s t = 0 ↔ s = t :=
          ih (fun c hc => hs c (List.mem_cons_of_mem _ hc))
            (fun c hc => ht c (List.mem_cons_of_mem _ hc))
        rw [difference, if_pos rfl, hrest, List.cons.injEq, eq_self, true_and]
      · have hne : a.toNat ≠ b.toNat := fun h => hab (UInt8.toNat_inj.mp h)
        rw [difference, if_neg hab]
        refine iff_of_false (by omega) (fun h => hab ?_)
        exact (List.cons.inj h).1

theorem strcmp_eq_zero (s t : List UInt8) : strcmp s t = 0 ↔ cstr s = cstr t :=
  difference_eq_zero (cstr_nonzero s) (cstr_nonzero t)

/-- `sprintf(buf, "%s", s)` into a buffer of `size` bytes: the text, unless the text and its
terminator overrun the buffer. -/
def sprintf (size : Nat) (s : List UInt8) : Option (List UInt8) :=
  if (cstr s).length < size then some (cstr s) else none

theorem sprintf_eq_self {size : Nat} {s : List UInt8} :
    sprintf size s = some s ↔ s.length < size ∧ 0 ∉ s := by
  rw [sprintf, ← cstr_eq_self]
  split_ifs with h
  · rw [Option.some.injEq]
    refine ⟨fun he => ⟨he ▸ h, he⟩, And.right⟩
  · refine iff_of_false nofun ?_
    rintro ⟨hlen, he⟩
    rw [he] at h
    exact h hlen

end Sqnim.Lib.CString
