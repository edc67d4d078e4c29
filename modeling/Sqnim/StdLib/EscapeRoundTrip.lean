import Sqnim.StdLib.Escape

/-!
# Lexing undoes escaping

What `_string_escape` writes for a string, and what the lexer reads of it between two quotes.
-/
namespace Sqnim.StdLib.Escape

open Sqnim.Lib Sqnim.Compiler SQLexer

/-! ## One byte -/

/-- The bytes that `_string_escape` does not print as a number. -/
def direct (b : UInt8) : Bool := scisprint (charValue b) || b = 0

/-- What is written for a byte, if there is room for it. -/
def piece (b : UInt8) : List UInt8 :=
  if direct b then
    match escchs.lookup (charValue b) with
    | some escch => [92, escch]
    | none => [b]
  else escpat (charValue b)

/-- What the lexer reads in a piece: two digits of a number. -/
def content (b : UInt8) : Text :=
  if b.toNat < 128 then [byteChar b] else byteChar 255 :: ((piece b).drop 4).map byteChar

theorem forall_uint8 {P : UInt8 → Prop} (h : ∀ n : Fin 256, P (UInt8.ofFin n)) (b : UInt8) : P b :=
  h b.toFin

theorem charValue_eq_zero (b : UInt8) : charValue b = 0 ↔ b = 0 := by
  revert b
  apply forall_uint8
  decide +kernel

/-- A direct byte is plain, or has a letter that the lexer knows. -/
theorem direct_cases (b : UInt8) (h : direct b = true) :
    (escchs.lookup (charValue b) = none ∧ plain b = true) ∨
      ∃ e, escchs.lookup (charValue b) = some e ∧
        escapes.lookup (byteChar e) = some (byteChar b) ∧
        byteChar e ≠ 'x' ∧ byteChar e ≠ 'U' ∧ byteChar e ≠ 'u' := by
  have hall : ∀ b : UInt8, direct b = true →
      let found := escchs.lookup (charValue b)
      found = none ∧ plain b = true ∨ found = some (found.getD 0) ∧
        escapes.lookup (byteChar (found.getD 0)) = some (byteChar b) ∧
        byteChar (found.getD 0) ≠ 'x' ∧ byteChar (found.getD 0) ≠ 'U' ∧
        byteChar (found.getD 0) ≠ 'u' := by
    apply forall_uint8
    decide +kernel
  obtain hnone | hsome := hall b h
  · exact .inl hnone
  · exact .inr ⟨_, hsome⟩

/-- The other characters of ASCII are two digits. -/
theorem escpat_ascii (b : UInt8) (hd : direct b = false) (hb : b.toNat < 128) :
    ∃ d₁ d₂, escpat (charValue b) = [92, 120, d₁, d₂] ∧ isxdigit (byteChar d₁) = true ∧
      isxdigit (byteChar d₂) = true ∧
      [Char.ofNat (digits 16 ([d₁, d₂].map byteChar))] = [byteChar b] := by
  have hall : ∀ b : UInt8, direct b = false → b.toNat < 128 →
      let p := escpat (charValue b)
      p = [92, 120, p.getD 2 0, p.getD 3 0] ∧ isxdigit (byteChar (p.getD 2 0)) = true ∧
        isxdigit (byteChar (p.getD 3 0)) = true ∧
        [Char.ofNat (digits 16 ([p.getD 2 0, p.getD 3 0].map byteChar))] = [byteChar b] := by
    apply forall_uint8
    decide +kernel
  exact ⟨_, _, hall b hd hb⟩

/-- The bytes above ASCII are negative, and print as eight digits. -/
theorem escpat_high (b : UInt8) (hb : ¬ b.toNat < 128) :
    ∃ d₁ d₂, escpat (charValue b) = [92, 120, 102, 102, 102, 102, 102, 102, d₁, d₂] ∧
      plain d₁ = true ∧ plain d₂ = true := by
  have hall : ∀ b : UInt8, ¬ b.toNat < 128 →
      let p := escpat (charValue b)
      p = [92, 120, 102, 102, 102, 102, 102, 102, p.getD 8 0, p.getD 9 0] ∧
        plain (p.getD 8 0) = true ∧ plain (p.getD 9 0) = true := by
    apply forall_uint8
    decide +kernel
  exact ⟨_, _, hall b hb⟩

theorem not_direct_of_high (b : UInt8) (hb : ¬ b.toNat < 128) : direct b = false := by
  revert b
  apply forall_uint8
  decide +kernel

theorem collects_plains (bs rest : List UInt8) (h : ∀ b ∈ bs, plain b = true) :
    Collects bs (bs.map byteChar) rest := by
  induction bs with
  | nil => exact .nil rest
  | cons b bs ih =>
    have hb := collects_plain (h b List.mem_cons_self) (bs ++ rest)
    exact hb.append (ih fun b' hb' => h b' (List.mem_cons_of_mem b hb'))

theorem collects_piece (b : UInt8) (rest : List UInt8) : Collects (piece b) (content b) rest := by
  by_cases hd : direct b = true
  · have hlow : b.toNat < 128 := by
      refine Decidable.byContradiction fun hb => ?_
      rw [not_direct_of_high b hb] at hd
      cases hd
    rw [piece, if_pos hd, content, if_pos hlow]
    obtain ⟨hnone, hplain⟩ | ⟨e, he, hlookup, hx, hU, hu⟩ := direct_cases b hd
    · rw [hnone]
      exact collects_plain hplain rest
    · rw [he]
      exact collects_escape hlookup hx hU hu rest
  · rw [Bool.not_eq_true] at hd
    have hpiece : piece b = escpat (charValue b) := by
      rw [piece, hd]
      exact if_neg Bool.false_ne_true
    by_cases hb : b.toNat < 128
    · obtain ⟨d₁, d₂, hp, hd₁, hd₂, hvalue⟩ := escpat_ascii b hd hb
      rw [hpiece, hp, content, if_pos hb, ← hvalue]
      exact collects_hex (by simp [hd₁, hd₂]) Nat.one_lt_two (.inl rfl)
    · obtain ⟨d₁, d₂, hp, hd₁, hd₂⟩ := escpat_high b hb
      rw [content, if_neg hb, hpiece, hp]
      have hhex : Collects [92, 120, 102, 102] [byteChar 255]
          ([102, 102, 102, 102, d₁, d₂] ++ rest) :=
        collects_hex (List.all_eq_true.mp rfl) Nat.one_lt_two (.inl rfl)
      have hplains := collects_plains [102, 102, 102, 102, d₁, d₂] rest
        (List.all_eq_true.mp (by simp only [List.all_cons, List.all_nil, hd₁, hd₂]; rfl))
      exact hhex.append hplains

theorem collects_pieces (s rest : List UInt8) :
    Collects (s.flatMap piece) (s.flatMap content) rest := by
  induction s with
  | nil => exact .nil rest
  | cons b s ih =>
    rw [List.flatMap_cons, List.flatMap_cons]
    exact (collects_piece b _).append ih

/-! ## One turn -/

section Put

variable {d : Dest} {b : UInt8} {size : Nat}

theorem direct_iff (b : UInt8) :
    direct b = true ↔ (scisprint (charValue b) = true ∨ charValue b = 0) := by
  rw [direct, Bool.or_eq_true, decide_eq_true_eq, charValue_eq_zero]

/-- A direct byte is written without a terminator. -/
theorem put_direct (h : direct b = true) : (d.put size b).text = d.text ++ piece b ∧
    (d.put size b).reach = max d.reach (d.pos + (piece b).length) ∧
    d.escaped ≤ (d.put size b).escaped ∧
    ((d.put size b).escaped = d.escaped → piece b = [b]) := by
  rw [Dest.put, if_pos ((direct_iff b).mp h), piece, if_pos h]
  cases escchs.lookup (charValue b) with
  | some e =>
    exact ⟨Dest.text_store_le (Nat.le_refl _), rfl, Nat.le_succ _,
      fun h => absurd h (Nat.succ_ne_self _)⟩
  | none => exact ⟨Dest.text_store_le (Nat.le_refl _), rfl, Nat.le_refl _, fun _ => rfl⟩

theorem put_number (h : direct b = false) : d.put size b =
    (d.store (scsprintf size (piece b)) (piece b).length).escape := by
  have hnot : ¬ (scisprint (charValue b) = true ∨ charValue b = 0) := by
    rw [← direct_iff, h]
    exact Bool.false_ne_true
  have hpiece : piece b = escpat (charValue b) := by
    rw [piece, h]
    exact if_neg Bool.false_ne_true
  rw [Dest.put, if_neg hnot, hpiece]

/-- A number is written with a terminator behind it. -/
theorem put_number_text (h : direct b = false) (hroom : (piece b).length < size) :
    (d.put size b).text = d.text ++ piece b ∧
      (d.put size b).reach = max d.reach (d.pos + (piece b).length + 1) ∧
      (d.put size b).escaped = d.escaped + 1 := by
  have hwritten : scsprintf size (piece b) = piece b ++ [0] := by
    rw [scsprintf, if_neg (by omega), List.take_of_length_le (by omega)]
  rw [put_number h, hwritten]
  refine ⟨?_, ?_, rfl⟩
  · refine (Dest.text_store_le ?_).trans ?_
    · rw [List.length_append]
      omega
    · rw [List.take_left' rfl]
  · show max d.reach (d.pos + (piece b ++ [0]).length) = _
    rw [List.length_append]
    rfl

/-- Where there is no room for a number it is cut off, and a zero follows. -/
theorem put_number_cut (h : direct b = false) (hpos : 0 < size) (hroom : size ≤ (piece b).length) :
    d.text ++ ((piece b).take (size - 1) ++ [0]) <+: (d.put size b).text := by
  have hwritten : scsprintf size (piece b) = (piece b).take (size - 1) ++ [0] :=
    if_neg (by omega)
  rw [put_number h, hwritten]
  refine Dest.prefix_text_store ?_
  rw [List.length_append, List.length_take, List.length_singleton]
  omega

theorem prefix_put (d : Dest) (size : Nat) (b : UInt8) : d.text <+: (d.put size b).text := by
  cases h : direct b with
  | true =>
    rw [(put_direct h).1]
    exact List.prefix_append _ _
  | false =>
    rw [put_number h]
    show d.text <+: (d.store _ _).text
    rw [Dest.text_store]
    exact List.prefix_append _ _

end Put

/-! ## The loop -/

section Loop

variable {size : Nat}

theorem escapeLoop_eq (n : Nat) (bs : List UInt8) (d : Dest) : escapeLoop size n bs d =
    if bs = [] ∨ n + bs.length < 2 ^ 31 then some (bs.foldl (Dest.put · size) d) else none := by
  induction bs generalizing n d with
  | nil => rfl
  | cons b bs ih =>
    rw [escapeLoop, ih]
    by_cases hn : n + 1 + bs.length < 2 ^ 31
    · have hcons : n + (b :: bs).length < 2 ^ 31 := by
        rw [List.length_cons]
        omega
      rw [if_pos (by omega), if_pos (.inr hn), if_pos (.inr hcons), List.foldl_cons]
    · have hcons : ¬ (b :: bs = [] ∨ n + (b :: bs).length < 2 ^ 31) := by
        rw [List.length_cons]
        exact not_or.mpr ⟨nofun, by omega⟩
      rw [if_neg hcons]
      by_cases hnil : bs = []
      · rw [hnil, List.length_nil] at hn
        rw [if_neg (by omega)]
      · rw [if_neg (not_or.mpr ⟨hnil, hn⟩), ite_self]

/-- With room for every number the pieces are written one behind the other. -/
theorem foldl_put (bs : List UInt8)
    (hroom : ∀ b ∈ bs, direct b = false → (piece b).length < size) (d : Dest) :
    (bs.foldl (Dest.put · size) d).text = d.text ++ bs.flatMap piece ∧
      d.escaped ≤ (bs.foldl (Dest.put · size) d).escaped ∧
      ((bs.foldl (Dest.put · size) d).escaped = d.escaped → bs.flatMap piece = bs) := by
  induction bs generalizing d with
  | nil => exact ⟨(List.append_nil _).symm, Nat.le_refl _, fun _ => rfl⟩
  | cons b bs ih =>
    obtain ⟨htext, hle, hsame⟩ := ih (fun b' hb' => hroom b' (List.mem_cons_of_mem b hb'))
      (d.put size b)
    rw [List.foldl_cons, List.flatMap_cons]
    have hput : (d.put size b).text = d.text ++ piece b ∧ d.escaped ≤ (d.put size b).escaped ∧
        ((d.put size b).escaped = d.escaped → piece b = [b]) := by
      cases h : direct b with
      | true => exact ⟨(put_direct h).1, (put_direct h).2.2⟩
      | false =>
        obtain ⟨htext, -, hescaped⟩ :=
          put_number_text (d := d) h (hroom b List.mem_cons_self h)
        exact ⟨htext, by omega, fun _ => by omega⟩
    refine ⟨?_, by omega, fun heq => ?_⟩
    · rw [htext, hput.1, List.append_assoc]
    · rw [hput.2.2 (by omega), hsame (by omega)]
      rfl

theorem prefix_foldl (bs : List UInt8) (d : Dest) :
    d.text <+: (bs.foldl (Dest.put · size) d).text := by
  induction bs generalizing d with
  | nil => exact List.prefix_rfl
  | cons b bs ih => exact (prefix_put d size b).trans (ih _)

theorem length_direct {b : UInt8} (h : direct b = true) : (piece b).length ≤ 2 := by
  rw [piece, if_pos h]
  split
  · exact Nat.le_refl 2
  · exact Nat.le_succ 1

theorem piece_number {b : UInt8} (h : direct b = false) : piece b = escpat (charValue b) := by
  rw [piece, h]
  exact if_neg Bool.false_ne_true

theorem length_number {b : UInt8} (h : direct b = false) (hb : b.toNat < 128) :
    (piece b).length = 4 := by
  obtain ⟨d₁, d₂, hp, -⟩ := escpat_ascii b h hb
  rw [piece_number h, hp]
  rfl

theorem pos_put {d : Dest} {b : UInt8} (h : (d.put size b).text = d.text ++ piece b) :
    (d.put size b).pos = d.pos + (piece b).length := by
  have := congrArg List.length h
  simpa using this

/-- After a direct byte there is room for the terminators. -/
theorem reach_le_seen (bs : List UInt8) (hlow : ∀ b ∈ bs, b.toNat < 128)
    (hsize : ∀ b ∈ bs, direct b = false → 4 < size) (d : Dest) (k : Nat) (hpos : d.pos + 2 ≤ 4 * k)
    (hreach : d.reach ≤ 4 * k) : (bs.foldl (Dest.put · size) d).reach ≤ 4 * (k + bs.length) := by
  induction bs generalizing d k with
  | nil => exact hreach
  | cons b bs ih =>
    have hb := hlow b List.mem_cons_self
    have hput : (d.put size b).pos + 2 ≤ 4 * (k + 1) ∧ (d.put size b).reach ≤ 4 * (k + 1) := by
      cases h : direct b with
      | true =>
        obtain ⟨htext, hr, -⟩ := put_direct (d := d) h
        have := length_direct h
        rw [pos_put htext, hr]
        omega
      | false =>
        have hlen := length_number h hb
        obtain ⟨htext, hr, -⟩ := put_number_text (d := d) h
          (hlen ▸ hsize b List.mem_cons_self h)
        rw [pos_put htext, hr]
        omega
    have hrest := ih (fun b' hb' => hlow b' (List.mem_cons_of_mem b hb'))
      (fun b' hb' => hsize b' (List.mem_cons_of_mem b hb')) (d.put size b) (k + 1) hput.1 hput.2
    rw [List.foldl_cons, List.length_cons]
    omega

/-- One direct byte makes room for the terminators. -/
theorem reach_le (bs : List UInt8) (hlow : ∀ b ∈ bs, b.toNat < 128)
    (hsize : ∀ b ∈ bs, direct b = false → 4 < size) (hdirect : ∃ b ∈ bs, direct b = true) (d : Dest)
    (k : Nat) (hpos : d.pos ≤ 4 * k) (hreach : d.reach ≤ 4 * k + 1) :
    (bs.foldl (Dest.put · size) d).reach ≤ 4 * (k + bs.length) := by
  induction bs generalizing d k with
  | nil =>
    obtain ⟨b, hb, -⟩ := hdirect
    cases hb
  | cons b bs ih =>
    have hlow' (b') (hb' : b' ∈ bs) := hlow b' (List.mem_cons_of_mem b hb')
    have hsize' (b') (hb' : b' ∈ bs) := hsize b' (List.mem_cons_of_mem b hb')
    rw [List.foldl_cons, List.length_cons]
    cases h : direct b with
    | true =>
      obtain ⟨htext, hr, -⟩ := put_direct (d := d) h
      have := length_direct h
      have hrest := reach_le_seen bs hlow' hsize' (d.put size b) (k + 1)
        (by rw [pos_put htext]; omega) (by rw [hr]; omega)
      omega
    | false =>
      have hlen := length_number h (hlow b List.mem_cons_self)
      obtain ⟨htext, hr, -⟩ := put_number_text (d := d) h
        (hlen ▸ hsize b List.mem_cons_self h)
      have hothers : ∃ b' ∈ bs, direct b' = true := by
        obtain ⟨b', hb', hd⟩ := hdirect
        obtain rfl | hb' := List.mem_cons.mp hb'
        · rw [h] at hd
          cases hd
        · exact ⟨b', hb', hd⟩
      have hrest := ih hlow' hsize' hothers (d.put size b) (k + 1)
        (by rw [pos_put htext]; omega) (by rw [hr]; omega)
      omega

/-- Where every byte is a number the last terminator lies behind the pad. -/
theorem lt_reach (bs : List UInt8) (hne : bs ≠ []) (hlow : ∀ b ∈ bs, b.toNat < 128)
    (hnumber : ∀ b ∈ bs, direct b = false) (hsize : 4 < size) (d : Dest) :
    d.pos + 4 * bs.length < (bs.foldl (Dest.put · size) d).reach := by
  induction bs generalizing d with
  | nil => exact absurd rfl hne
  | cons b bs ih =>
    have h := hnumber b List.mem_cons_self
    have hlen := length_number h (hlow b List.mem_cons_self)
    obtain ⟨htext, hr, -⟩ := put_number_text (d := d) h (hlen ▸ hsize)
    have hpos := pos_put htext
    rw [List.foldl_cons, List.length_cons]
    by_cases hnil : bs = []
    · rw [hnil, List.foldl_nil, List.length_nil, hr]
      omega
    · have hrest := ih hnil (fun b' hb' => hlow b' (List.mem_cons_of_mem b hb'))
        (fun b' hb' => hnumber b' (List.mem_cons_of_mem b hb')) (d.put size b)
      omega

end Loop

/-! ## The round trip -/

/-- Escaping stays inside the scratch pad that it reserves, and a quote, what it returns and a quote
are lexed as one literal of the same content. -/
def LexesBack (strtod : Text → BitVec 32) (curtoken : Token) (nvalue : Int) (fvalue : BitVec 32)
    (pad : Nat → UInt8) (s : List UInt8) : Prop :=
  ∃ r, stringEscape pad s = some r ∧ r.reach ≤ maxescsize * s.length ∧
    (Prog.run (readLiteral strtod) (init (34 :: (r.text ++ [34])) curtoken nvalue fvalue)).1 =
      .ok (.tkStringLiteral, s.map byteChar, .eob)

/-- The counter of the loop does not overflow, the bytes are ASCII, and one of them is printable or
zero if there are any. -/
def Escapable (s : List UInt8) : Prop :=
  s.length < 2 ^ 31 ∧ (∀ b ∈ s, b.toNat < 128) ∧ (s = [] ∨ ∃ b ∈ s, direct b = true)

variable {strtod : Text → BitVec 32} {curtoken : Token} {nvalue : Int} {fvalue : BitVec 32}
  {pad : Nat → UInt8} {s : List UInt8}

theorem stringEscape_eq (hne : s ≠ []) : stringEscape pad s =
    if s.length < 2 ^ 31 then
      let d := s.foldl (Dest.put · (s.length * 4)) ⟨pad, 0, 0, 0⟩
      some ⟨if d.escaped ≠ 0 then d.text else s, d.reach⟩
    else none := by
  have hlen : ¬ s.length = 0 := fun h => hne (List.length_eq_zero_iff.mp h)
  rw [stringEscape, if_neg hlen, escapeLoop_eq, Nat.zero_add]
  by_cases h : s.length < 2 ^ 31
  · rw [if_pos (.inr h), if_pos h]
    rfl
  · rw [if_neg (not_or.mpr ⟨hne, h⟩), if_neg h]
    rfl

/-- With room for every number the pieces are pushed. -/
theorem text_eq (pad : Nat → UInt8) (hroom : ∀ b ∈ s, direct b = false → (piece b).length < s.length * 4) :
    let d := s.foldl (Dest.put · (s.length * 4)) ⟨pad, 0, 0, 0⟩
    (if d.escaped ≠ 0 then d.text else s) = s.flatMap piece := by
  obtain ⟨htext, -, hsame⟩ := foldl_put s hroom ⟨pad, 0, 0, 0⟩
  dsimp only
  split
  · exact htext
  · next h => exact (hsame (Decidable.not_not.mp h)).symm

theorem headD_pieces (s : List UInt8) {t : List UInt8} (ht : t.headD 0 ≠ 0) :
    (s.flatMap piece ++ t).headD 0 ≠ 0 := by
  cases s with
  | nil => exact ht
  | cons b s =>
    have hall : ∀ b : UInt8, (piece b).headD 0 ≠ 0 ∧ piece b ≠ [] := by
      apply forall_uint8
      decide +kernel
    obtain ⟨hhead, hne⟩ := hall b
    rw [List.flatMap_cons]
    cases hp : piece b with
    | nil => exact absurd hp hne
    | cons c cs =>
      rw [hp] at hhead
      exact hhead

theorem flatMap_content (hlow : ∀ b ∈ s, b.toNat < 128) : s.flatMap content = s.map byteChar := by
  induction s with
  | nil => rfl
  | cons b s ih =>
    rw [List.flatMap_cons, ih fun b' hb' => hlow b' (List.mem_cons_of_mem b hb'), content,
      if_pos (hlow b List.mem_cons_self)]
    rfl

theorem lexesBack_of_escapable (h : Escapable s) :
    LexesBack strtod curtoken nvalue fvalue pad s := by
  obtain ⟨hlen, hlow, hsome⟩ := h
  have hread := run_readLiteral curtoken nvalue fvalue strtod (collects_pieces s [34])
    (headD_pieces s (by decide))
  rw [flatMap_content hlow] at hread
  by_cases hne : s = []
  · subst hne
    exact ⟨⟨[], 0⟩, rfl, Nat.zero_le _, hread⟩
  · obtain ⟨c, hc, hdirect⟩ := hsome.resolve_left hne
    have hroom (b) (hb : b ∈ s) (hd : direct b = false) : 4 < s.length * 4 := by
      -- a number and a direct byte are two
      have hlt : 1 < s.length := by
        obtain ⟨x, rest, rfl⟩ := List.exists_cons_of_ne_nil hne
        cases rest with
        | nil =>
          rw [List.mem_singleton.mp hb] at hd
          rw [List.mem_singleton.mp hc, hd] at hdirect
          cases hdirect
        | cons y rest => simp
      omega
    have htext := text_eq pad fun b hb hd => by
      rw [length_number hd (hlow b hb)]
      exact hroom b hb hd
    have hreach := reach_le s hlow hroom ⟨c, hc, hdirect⟩ ⟨pad, 0, 0, 0⟩ 0 (Nat.zero_le _)
      (Nat.zero_le _)
    refine ⟨_, (stringEscape_eq hne).trans (if_pos hlen), ?_, ?_⟩
    · rw [Nat.zero_add] at hreach
      exact hreach
    · rw [htext]
      exact hread

/-! ## Bytes above ASCII -/

theorem length_content (b : UInt8) : 1 ≤ (content b).length ∧
    (¬ b.toNat < 128 → (content b).length = 7) := by
  revert b
  apply forall_uint8
  decide +kernel

/-- More is read than there was. -/
theorem length_lt_contents (h : ∃ b ∈ s, ¬ b.toNat < 128) :
    s.length < (s.flatMap content).length := by
  have hle (l : List UInt8) : l.length ≤ (l.flatMap content).length := by
    induction l with
    | nil => exact Nat.le_refl _
    | cons b l ih =>
      have := (length_content b).1
      rw [List.flatMap_cons, List.length_append, List.length_cons]
      omega
  obtain ⟨b, hb, hhigh⟩ := h
  obtain ⟨l, r, rfl⟩ := List.append_of_mem hb
  have hl := hle l
  have hr := hle r
  have hseven := (length_content b).2 hhigh
  simp only [List.flatMap_append, List.flatMap_cons, List.length_append, List.length_cons]
  omega

theorem length_piece_le (b : UInt8) : (piece b).length ≤ 10 := by
  revert b
  apply forall_uint8
  decide +kernel

theorem escaped_le_foldl (size : Nat) (bs : List UInt8) (d : Dest) :
    d.escaped ≤ (bs.foldl (Dest.put · size) d).escaped := by
  induction bs generalizing d with
  | nil => exact Nat.le_refl _
  | cons b bs ih =>
    refine Nat.le_trans ?_ (ih (d.put size b))
    cases h : direct b with
    | true => exact (put_direct h).2.2.1
    | false =>
      rw [put_number h]
      exact Nat.le_succ _

/-- A number that is cut off ends the input of the lexer. -/
theorem not_lexesBack_of_cut {size : Nat} (hsize : s.length * 4 = size) {l rest : List UInt8}
    {b : UInt8} (hs : s = l ++ b :: rest)
    (hroom : ∀ b' ∈ l, direct b' = false → (piece b').length < size) (h : direct b = false)
    (hcut : size ≤ (piece b).length) {q : Text}
    (hq : ∀ t, Collects ((piece b).take (size - 1)) q (0 :: t)) :
    ¬ LexesBack strtod curtoken nvalue fvalue pad s := by
  have hne : s ≠ [] := by
    rw [hs]
    exact List.append_ne_nil_of_right_ne_nil _ nofun
  have hpos := List.length_pos_iff.mpr hne
  rintro ⟨r, hr, -, hrun⟩
  rw [stringEscape_eq hne, hsize] at hr
  split at hr
  · obtain ⟨d, hd⟩ : ∃ d, l.foldl (Dest.put · size) ⟨pad, 0, 0, 0⟩ = d := ⟨_, rfl⟩
    have hall : s.foldl (Dest.put · size) ⟨pad, 0, 0, 0⟩ =
        rest.foldl (Dest.put · size) (d.put size b) := by
      rw [hs, List.foldl_append, List.foldl_cons, hd]
    have hescaped : (s.foldl (Dest.put · size) ⟨pad, 0, 0, 0⟩).escaped ≠ 0 := by
      have := escaped_le_foldl size rest (d.put size b)
      have hput : (d.put size b).escaped = d.escaped + 1 := by
        rw [put_number h]
        rfl
      rw [hall]
      omega
    have htext : d.text = l.flatMap piece := by
      rw [← hd]
      exact (foldl_put l hroom _).1
    obtain ⟨tail, htail⟩ := (put_number_cut (d := d) h (by omega) hcut).trans
      (prefix_foldl rest _)
    cases hr
    rw [if_pos hescaped, hall, ← htail, htext] at hrun
    have hcollects := (collects_pieces l ((piece b).take (size - 1) ++
      0 :: (tail ++ [34]))).append (hq (tail ++ [34]))
    have hfirst : (l.flatMap piece ++ (piece b).take (size - 1) ++
        0 :: (tail ++ [34])).headD 0 ≠ 0 := by
      rw [List.append_assoc]
      refine headD_pieces l ?_
      obtain ⟨k, hk⟩ : ∃ k, size - 1 = k + 1 := ⟨size - 2, by omega⟩
      rw [piece_number h, hk]
      exact fun (h92 : (92 : UInt8) = 0) => by cases h92
    have herror := run_readLiteral_error curtoken nvalue fvalue strtod hcollects hfirst
    simp only [List.append_assoc, List.cons_append, List.nil_append] at hrun herror
    rw [herror] at hrun
    cases hrun
  · cases hr

/-- A string of one byte has room for three characters of a number. -/
theorem not_lexesBack_single {b : UInt8} (h : direct b = false) :
    ¬ LexesBack strtod curtoken nvalue fvalue pad [b] := by
  have hdigits : ∃ d, (piece b).take 3 = [92, 120, d] ∧ isxdigit (byteChar d) = true ∧
      4 ≤ (piece b).length := by
    by_cases hb : b.toNat < 128
    · obtain ⟨d₁, d₂, hp, hd₁, -⟩ := escpat_ascii b h hb
      rw [piece_number h, hp]
      exact ⟨d₁, rfl, hd₁, Nat.le_refl _⟩
    · obtain ⟨d₁, d₂, hp, -⟩ := escpat_high b hb
      rw [piece_number h, hp]
      exact ⟨102, rfl, by decide, by simp⟩
  obtain ⟨d, htake, hd, hlen⟩ := hdigits
  have hcut (t : List UInt8) : Collects ((piece b).take 3)
      [Char.ofNat (digits 16 [byteChar d])] (0 :: t) := by
    have hzero : isxdigit (byteChar ((0 :: t).headD 0)) = false := by
      show isxdigit (byteChar 0) = false
      decide
    rw [htake]
    exact collects_hex (by simpa using hd) (by decide) (.inr hzero)
  exact not_lexesBack_of_cut rfl (l := []) rfl nofun h hlen hcut

/-- A string of two bytes has room for seven characters of a number. -/
theorem collects_cut {b : UInt8} (hb : ¬ b.toNat < 128) (t : List UInt8) :
    Collects ((piece b).take 7) [byteChar 255, 'f', 'f', 'f'] (0 :: t) := by
  obtain ⟨d₁, d₂, hp, -⟩ := escpat_high b hb
  rw [piece_number (not_direct_of_high b hb), hp]
  have hhex : Collects [92, 120, 102, 102] [byteChar 255] ([102, 102, 102] ++ 0 :: t) :=
    collects_hex (List.all_eq_true.mp rfl) Nat.one_lt_two (.inl rfl)
  exact hhex.append (collects_plains [102, 102, 102] (0 :: t) (List.all_eq_true.mp rfl))

theorem not_lexesBack_of_high (h : ∃ b ∈ s, ¬ b.toNat < 128) :
    ¬ LexesBack strtod curtoken nvalue fvalue pad s := by
  obtain ⟨c, hc, hhigh⟩ := h
  match s, hc with
  | [b], hc =>
    rw [List.mem_singleton.mp hc] at hhigh
    exact not_lexesBack_single (not_direct_of_high b hhigh)
  | [a, b], hc =>
    have hten (b : UInt8) (hb : ¬ b.toNat < 128) : 8 ≤ (piece b).length := by
      obtain ⟨d₁, d₂, hp, -⟩ := escpat_high b hb
      rw [piece_number (not_direct_of_high b hb), hp]
      simp
    by_cases ha : a.toNat < 128
    · have hb : ¬ b.toNat < 128 := by
        obtain rfl | hc := List.mem_cons.mp hc
        · exact absurd ha hhigh
        · rwa [List.mem_singleton.mp hc] at hhigh
      refine not_lexesBack_of_cut rfl (l := [a]) rfl ?_ (not_direct_of_high b hb)
        (hten b hb) (collects_cut hb)
      intro b' hb' hd
      rw [List.mem_singleton.mp hb'] at hd ⊢
      rw [length_number hd ha]
      show 4 < 8
      decide
    · exact not_lexesBack_of_cut rfl (l := []) rfl nofun (not_direct_of_high a ha)
        (hten a ha) (collects_cut ha)
  | a :: b :: c' :: s, hc =>
    rintro ⟨r, hr, -, hrun⟩
    have hlt := length_lt_contents ⟨c, hc, hhigh⟩
    have htext := text_eq pad (s := a :: b :: c' :: s) fun b' _ _ => by
      have := length_piece_le b'
      simp only [List.length_cons]
      omega
    rw [stringEscape_eq (by nofun)] at hr
    split at hr
    · cases hr
      rw [htext] at hrun
      have hread := run_readLiteral curtoken nvalue fvalue strtod
        (collects_pieces (a :: b :: c' :: s) [34]) (headD_pieces _ (by decide))
      rw [hread] at hrun
      have hsame : (a :: b :: c' :: s).flatMap content = (a :: b :: c' :: s).map byteChar := by
        simpa using hrun
      rw [hsame, List.length_map] at hlt
      omega
    · cases hr

/-- Where every byte is a number the last one is cut off, or its terminator lies behind the pad. -/
theorem not_lexesBack_of_numbers (hne : s ≠ []) (hlow : ∀ b ∈ s, b.toNat < 128)
    (hnumber : ∀ b ∈ s, direct b = false) : ¬ LexesBack strtod curtoken nvalue fvalue pad s := by
  match s, hne with
  | [b], _ => exact not_lexesBack_single (hnumber b List.mem_cons_self)
  | a :: b :: s, _ =>
    rintro ⟨r, hr, hreach, -⟩
    have hsize : 4 < (a :: b :: s).length * 4 := by
      simp only [List.length_cons]
      omega
    have hlt := lt_reach (a :: b :: s) nofun hlow hnumber hsize ⟨pad, 0, 0, 0⟩
    rw [stringEscape_eq (by nofun)] at hr
    split at hr
    · cases hr
      simp only [maxescsize] at hreach
      omega
    · cases hr

/-- The bytes FF 41 42 are written as `\\xffffffffAB`. -/
theorem not_lexesBack_high :
    ¬ LexesBack (fun _ => 0) .none 0 0 (fun _ => 0) [0xFF, 0x41, 0x42] :=
  not_lexesBack_of_high ⟨0xFF, by decide, by decide⟩

/-- Escaping and lexing give the string back exactly if the counter of the loop does not overflow,
there is no byte above ASCII, and not every byte is written as a number. -/
theorem lexesBack_iff (strtod : Text → BitVec 32) (curtoken : Token) (nvalue : Int)
    (fvalue : BitVec 32) (pad : Nat → UInt8) (s : List UInt8) :
    LexesBack strtod curtoken nvalue fvalue pad s ↔ Escapable s := by
  constructor
  · intro h
    by_cases hne : s = []
    · subst hne
      exact ⟨by decide, nofun, .inl rfl⟩
    · have hlow : ∀ b ∈ s, b.toNat < 128 := fun b hb => Decidable.byContradiction fun hhigh =>
        not_lexesBack_of_high ⟨b, hb, hhigh⟩ h
      refine ⟨?_, hlow, .inr ?_⟩
      · obtain ⟨r, hr, -⟩ := h
        rw [stringEscape_eq hne] at hr
        split at hr
        · next hlen => exact hlen
        · cases hr
      · refine Decidable.byContradiction fun hnone => not_lexesBack_of_numbers hne hlow ?_ h
        intro b hb
        cases hd : direct b with
        | true => exact absurd ⟨b, hb, hd⟩ hnone
        | false => rfl
  · exact lexesBack_of_escapable

end Sqnim.StdLib.Escape
