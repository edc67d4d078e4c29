import Mathlib

/-!
# Sequences with a position

A file in memory: a sequence, and a position in it at which it is read and written. Writing replaces
what is there and extends the sequence; the position never leaves it.
-/
namespace Sqnim.Lib

/-- `new` in place of as many elements from `pos` on. -/
def overwrite {α : Type} (data : List α) (pos : Nat) (new : List α) : List α :=
  data.take pos ++ new ++ data.drop (pos + new.length)

section Overwrite

variable {α : Type} {data new : List α} {pos : Nat}

theorem length_overwrite (h : pos ≤ data.length) :
    (overwrite data pos new).length = max data.length (pos + new.length) := by
  simp only [overwrite, List.length_append, List.length_take, List.length_drop]
  omega

theorem getElem?_overwrite (h : pos ≤ data.length) (i : Nat) : (overwrite data pos new)[i]? =
    if i < pos then data[i]? else if i < pos + new.length then new[i - pos]? else data[i]? := by
  have hlen : (data.take pos).length = pos := List.length_take_of_le h
  have hfront : (data.take pos ++ new).length = pos + new.length := by
    rw [List.length_append, hlen]
  unfold overwrite
  split
  case isTrue hi =>
    rw [List.append_assoc, List.getElem?_append_left (by omega), List.getElem?_take_of_lt hi]
  case isFalse hi =>
    split
    case isTrue hi' =>
      rw [List.getElem?_append_left (by omega), List.getElem?_append_right (by omega), hlen]
    case isFalse hi' =>
      rw [List.getElem?_append_right (by omega), hfront, List.getElem?_drop]
      congr 1
      omega

/-- The new elements are where they were written. -/
theorem slice_overwrite (new : List α) (h : pos ≤ data.length) :
    ((overwrite data pos new).drop pos).take new.length = new := by
  refine List.ext_getElem? fun i => ?_
  rw [List.getElem?_take, List.getElem?_drop, getElem?_overwrite h]
  split
  case isTrue hi =>
    rw [if_neg (by omega), if_pos (by omega)]
    congr 1
    omega
  case isFalse hi => rw [List.getElem?_eq_none (by omega)]

/-- A front part that the new elements reach the end of is as long as it gets. -/
theorem take_overwrite {n : Nat} (hn : n ≤ data.length) (h : pos ≤ n) :
    (overwrite data pos new).take (max n (pos + new.length)) = overwrite (data.take n) pos new := by
  refine List.ext_getElem? fun i => ?_
  have htake : pos ≤ (data.take n).length := by rwa [List.length_take_of_le hn]
  rw [List.getElem?_take, getElem?_overwrite (Nat.le_trans h hn), getElem?_overwrite htake,
    List.getElem?_take]
  split_ifs <;> first | rfl | omega

end Overwrite

/-- A sequence with a position, which is inside or at its end. -/
structure Seekable (α : Type) where
  data : List α
  pos : Nat
  inside : pos ≤ data.length

namespace Seekable

variable {α : Type}

@[ext] theorem ext {f f' : Seekable α} (hdata : f.data = f'.data) (hpos : f.pos = f'.pos) :
    f = f' := by
  cases f
  cases f'
  cases hdata
  cases hpos
  rfl

def blank (a : α) (n : Nat) : Seekable α := ⟨List.replicate n a, 0, Nat.zero_le _⟩

/-- As many elements from the position on as there are, at most `n`. -/
def read (n : Nat) (f : Seekable α) : List α × Seekable α :=
  let new := (f.data.drop f.pos).take n
  (new, ⟨f.data, f.pos + new.length, by
    have h := f.inside
    simp only [new, List.length_take, List.length_drop]
    omega⟩)

def write (new : List α) (f : Seekable α) : Seekable α :=
  ⟨overwrite f.data f.pos new, f.pos + new.length, by
    rw [length_overwrite f.inside]
    exact Nat.le_max_right ..⟩

/-- There is no position outside. -/
def seek (p : Int) (f : Seekable α) : Option (Seekable α) :=
  if h : 0 ≤ p ∧ p ≤ f.data.length then some ⟨f.data, p.toNat, by omega⟩ else none

/-- Cut off what is behind `n`. -/
def truncate (n : Nat) (f : Seekable α) : Seekable α :=
  ⟨f.data.take n, min f.pos n, by
    have h := f.inside
    rw [List.length_take]
    omega⟩

/-- Other elements, as many. -/
def replace (data : List α) (f : Seekable α) : Seekable α :=
  if h : data.length = f.data.length then ⟨data, f.pos, h ▸ f.inside⟩ else f

/-- What has been written is read back from where it was written. -/
theorem read_write (new : List α) (f : Seekable α) :
    ∃ g, (f.write new).seek f.pos = some g ∧ g.read new.length = (new, f.write new) := by
  have hlen : f.pos ≤ (f.write new).data.length :=
    Nat.le_trans (Nat.le_add_right ..) (f.write new).inside
  refine ⟨⟨(f.write new).data, f.pos, hlen⟩, ?_, ?_⟩
  · unfold seek
    rw [dif_pos ⟨by omega, by exact_mod_cast hlen⟩]
    rfl
  · have hslice : ((f.write new).data.drop f.pos).take new.length = new := slice_overwrite new f.inside
    unfold read
    refine Prod.ext hslice (Seekable.ext rfl ?_)
    show f.pos + (((f.write new).data.drop f.pos).take new.length).length = _
    rw [hslice]
    rfl

end Seekable
end Sqnim.Lib
