import Sqnim.Compiler.LexString

/-!
# The escape function of the string library

`_string_escape` of `sqstdstring.cpp` in a build without `SQUNICODE`, where `SQChar` is a signed
`char`. The scratch pad is reserved for four characters a byte; what is written behind them is kept
by the model, and so is how far the writes reach.
-/
namespace Sqnim.StdLib.Escape

open Sqnim.Compiler SQLexer

def charValue (b : UInt8) : Int := if b.toNat < 128 then b.toNat else (b.toNat : Int) - 256

/-- `scisprint`, true of the printable characters of ASCII. -/
def scisprint (c : Int) : Bool := 32 ≤ c ∧ c ≤ 126

/-- The switch that sets `escch`, and the letters it sets. -/
def escchs : List (Int × UInt8) :=
  [(7, 97), (8, 98), (9, 116), (10, 110), (11, 118), (12, 102), (13, 114), (92, 92), (34, 34),
    (39, 39), (0, 48)]

def maxescsize : Nat := 4

/-- What `printf` makes of `escpat`, `\x%02x`: the character is promoted to `int`, and printed as
an `unsigned`. -/
def escpat (c : Int) : List UInt8 :=
  let digits := (Nat.toDigits 16 (c % 2 ^ 32).toNat).map fun d => UInt8.ofNat d.toNat
  [92, 120] ++ (List.replicate (2 - digits.length) 48 ++ digits)

/-- What `snprintf` writes for a text: all of it if there is room, and a terminator. -/
def scsprintf (size : Nat) (text : List UInt8) : List UInt8 :=
  if size = 0 then [] else text.take (size - 1) ++ [0]

/-- The scratch pad with `dest - resstr`, the end of what was written, and `escaped`. -/
structure Dest where
  pad : Nat → UInt8
  pos : Nat
  reach : Nat
  escaped : Nat

namespace Dest

def store (d : Dest) (bytes : List UInt8) (n : Nat) : Dest where
  pad i := if d.pos ≤ i ∧ i < d.pos + bytes.length then bytes.getD (i - d.pos) 0 else d.pad i
  pos := d.pos + n
  reach := max d.reach (d.pos + bytes.length)
  escaped := d.escaped

def escape (d : Dest) : Dest := { d with escaped := d.escaped + 1 }

def text (d : Dest) : List UInt8 := (List.range d.pos).map d.pad

def put (d : Dest) (destcharsize : Nat) (b : UInt8) : Dest :=
  let c := charValue b
  if scisprint c ∨ c = 0 then
    match escchs.lookup c with
    | some escch => (d.store [92, escch] 2).escape
    | none => d.store [b] 1
  else
    (d.store (scsprintf destcharsize (escpat c)) (escpat c).length).escape

end Dest

/-- The loop, whose counter is an `int`; `none` if it overflows. -/
def escapeLoop (destcharsize : Nat) : Nat → List UInt8 → Dest → Option Dest
  | _, [], d => some d
  | n, b :: bs, d =>
    if n + 1 < 2 ^ 31 then escapeLoop destcharsize (n + 1) bs (d.put destcharsize b) else none

/-- The string that is pushed, and the end of what was written to the scratch pad. -/
structure Escaped where
  text : List UInt8
  reach : Nat
  deriving DecidableEq

def stringEscape (pad : Nat → UInt8) (s : List UInt8) : Option Escaped :=
  if s.length = 0 then some ⟨s, 0⟩
  else (escapeLoop (s.length * maxescsize) 0 s ⟨pad, 0, 0, 0⟩).map fun d =>
    ⟨if d.escaped ≠ 0 then d.text else s, d.reach⟩

/-- A letter and a newline; the terminator stays inside the eight characters reserved. -/
example : stringEscape (fun _ => 0) [97, 10] = some ⟨[97, 92, 120, 48, 97], 6⟩ := by decide

/-! ## The pad -/

namespace Dest

variable {d : Dest}

@[simp] theorem length_text (d : Dest) : d.text.length = d.pos := by simp [text]

theorem text_store (d : Dest) (bytes : List UInt8) (n : Nat) : (d.store bytes n).text = d.text ++
    (List.range n).map fun i => if i < bytes.length then bytes.getD i 0 else d.pad (d.pos + i) := by
  rw [text, text, store, List.range_add, List.map_append, List.map_map]
  congr 1
  · apply List.map_congr_left
    intro i hi
    rw [List.mem_range] at hi
    exact if_neg (by omega)
  · apply List.map_congr_left
    intro i _
    by_cases hi : i < bytes.length
    · simp [hi]
    · simp [hi]

theorem text_store_le {bytes : List UInt8} {n : Nat} (h : n ≤ bytes.length) :
    (d.store bytes n).text = d.text ++ bytes.take n := by
  rw [text_store]
  congr 1
  apply List.ext_getElem
  · simp [h]
  · intro i hi hi'
    simp only [List.length_map, List.length_range] at hi
    have hlt : i < bytes.length := by omega
    simp [hlt]

theorem prefix_text_store {bytes : List UInt8} {n : Nat} (h : bytes.length ≤ n) :
    d.text ++ bytes <+: (d.store bytes n).text := by
  obtain ⟨m, rfl⟩ := Nat.exists_eq_add_of_le h
  have hwritten : (List.range bytes.length).map (fun i =>
      if i < bytes.length then bytes.getD i 0 else d.pad (d.pos + i)) = bytes := by
    apply List.ext_getElem
    · simp
    · intro i hi hi'
      simp [hi']
  rw [text_store, List.range_add, List.map_append, hwritten, ← List.append_assoc]
  exact List.prefix_append _ _

end Dest
end Sqnim.StdLib.Escape
