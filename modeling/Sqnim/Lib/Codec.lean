import Mathlib

/-!
# Writers and readers of byte streams

A writer emits bytes or fails, a reader takes bytes off a stream or fails. A
reader fits a writer when it reads back what was written whatever comes behind
it, and runs short on every part of it. This is kept by sequences and by
repetition, so a format is verified field by field.
-/
namespace Sqnim.Lib.Codec

variable {ε α β : Type}

/-- What a writer emits. -/
abbrev Put (ε : Type) := Except ε (List UInt8)

abbrev Get (ε : Type) := StateT (List UInt8) (Except ε)

/-- One writer after the other. -/
def puts : List (Put ε) → Except ε (List UInt8)
  | [] => .ok []
  | w :: ws => do
    let first ← w
    let rest ← puts ws
    .ok (first ++ rest)

def getBytes (short : ε) (n : Nat) : Get ε (List UInt8) := fun s =>
  if n ≤ s.length then .ok (s.take n, s.drop n) else .error short

def repeatGet (r : Get ε α) : (n : Nat) → Get ε (List.Vector α n)
  | 0 => pure List.Vector.nil
  | n + 1 => do
    let a ← r
    let as ← repeatGet r n
    pure (a ::ᵥ as)

section Words

/-- The low `k` bytes of a number, the least significant first. -/
def leBytes : Nat → Nat → List UInt8
  | 0, _ => []
  | k + 1, n => UInt8.ofNat n :: leBytes k (n / 256)

def ofLeBytes : List UInt8 → Nat
  | [] => 0
  | b :: bs => b.toNat + 256 * ofLeBytes bs

@[simp] theorem length_leBytes (k n : Nat) : (leBytes k n).length = k := by
  induction k generalizing n with
  | zero => rfl
  | succ k ih => rw [leBytes, List.length_cons, ih]

theorem ofLeBytes_leBytes (k n : Nat) : ofLeBytes (leBytes k n) = n % 256 ^ k := by
  induction k generalizing n with
  | zero => simp [leBytes, ofLeBytes, Nat.mod_one]
  | succ k ih =>
    rw [leBytes, ofLeBytes, ih, UInt8.toNat_ofNat', pow_succ' 256 k, Nat.mod_mul]

theorem leBytes_ofLeBytes (bytes : List UInt8) : leBytes bytes.length (ofLeBytes bytes) = bytes := by
  induction bytes with
  | nil => rfl
  | cons b bytes ih =>
    have hb : b.toNat < 256 := b.toNat_lt
    have hlow : UInt8.ofNat (b.toNat + 256 * ofLeBytes bytes) = b := by
      refine UInt8.toNat_inj.mp ?_
      rw [UInt8.toNat_ofNat']
      omega
    rw [List.length_cons, ofLeBytes, leBytes, hlow, Nat.add_mul_div_left _ _ (by decide),
      Nat.div_eq_of_lt hb, Nat.zero_add, ih]

theorem getElem?_leBytes {w : Nat} (v : BitVec w) {k i : Nat} (hi : i < k) :
    (leBytes k v.toNat)[i]? = some (UInt8.ofBitVec (v.extractLsb' (8 * i) 8)) := by
  have hdiv : ∀ k i n, i < k → (leBytes k n)[i]? = some (UInt8.ofNat (n / 256 ^ i)) := by
    intro k
    induction k with
    | zero => omega
    | succ k ih =>
      intro i n hi
      cases i with
      | zero => simp [leBytes]
      | succ i =>
        rw [leBytes, List.getElem?_cons_succ, ih i _ (by omega), pow_succ', Nat.div_div_eq_div_mul]
  rw [hdiv k i _ hi, Option.some_inj]
  refine UInt8.toNat_inj.mp ?_
  rw [UInt8.toNat_ofNat', UInt8.toNat_ofBitVec, BitVec.extractLsb'_toNat, Nat.shiftRight_eq_div_pow,
    pow_mul, show (2 : Nat) ^ 8 = 256 from rfl]

theorem ofLeBytes_lt (bytes : List UInt8) : ofLeBytes bytes < 256 ^ bytes.length := by
  have h := ofLeBytes_leBytes bytes.length (ofLeBytes bytes)
  rw [leBytes_ofLeBytes] at h
  rw [h]
  exact Nat.mod_lt _ (Nat.pow_pos (by decide))

def putWord {w : Nat} (v : BitVec w) : Put ε := .ok (leBytes (w / 8) v.toNat)

def getWord (short : ε) (w : Nat) : Get ε (BitVec w) := do
  let bytes ← getBytes short (w / 8)
  pure (BitVec.ofNat w (ofLeBytes bytes))

theorem ofNat_leBytes {w : Nat} (hw : 8 ∣ w) (v : BitVec w) :
    BitVec.ofNat w (ofLeBytes (leBytes (w / 8) v.toNat)) = v := by
  obtain ⟨k, rfl⟩ := hw
  have hpow : 256 ^ k = 2 ^ (8 * k) := by
    rw [pow_mul]
    rfl
  rw [Nat.mul_div_cancel_left k (by decide), ofLeBytes_leBytes, hpow,
    Nat.mod_eq_of_lt v.isLt]
  exact BitVec.ofNat_toNat _ v ▸ BitVec.setWidth_eq v

end Words

section Laws

/-- From `bytes` and anything behind them `r` returns `a` and leaves what is behind; from less it
runs short. -/
structure Reads (short : ε) (r : Get ε α) (bytes : List UInt8) (a : α) : Prop where
  whole : ∀ rest, r (bytes ++ rest) = .ok (a, rest)
  cut : ∀ part, part <+: bytes → part ≠ bytes → r part = .error short

/-- The writer succeeds, and the reader reads `a` from what it emits. -/
def Codes (short : ε) (w : Put ε) (r : Get ε α) (a : α) : Prop :=
  ∃ bytes, w = .ok bytes ∧ Reads short r bytes a

variable {short : ε} {r : Get ε α} {bytes : List UInt8} {a : α}

theorem reads_pure (a : α) : Reads short (pure a : Get ε α) [] a where
  whole _ := rfl
  cut _ hpart hne := absurd (List.prefix_nil.mp hpart) hne

/-- A part of two codes ends in the first one, or behind it in the second one. -/
theorem prefix_append_cases {part xs ys : List UInt8} (h : part <+: xs ++ ys)
    (hne : part ≠ xs ++ ys) : (part <+: xs ∧ part ≠ xs) ∨
      ∃ later, part = xs ++ later ∧ later <+: ys ∧ later ≠ ys := by
  obtain ⟨rest, hrest⟩ := h
  rcases List.append_eq_append_iff.mp hrest with ⟨as, hxs, hrest'⟩ | ⟨bs, hpart, hys⟩
  · by_cases has : as = []
    · right
      refine ⟨[], ?_, List.nil_prefix, ?_⟩
      · rw [hxs, has, List.append_nil, List.append_nil]
      · rintro rfl
        rw [hxs, has] at hne
        simp at hne
    · left
      refine ⟨⟨as, hxs.symm⟩, fun he => has ?_⟩
      rw [he] at hxs
      exact List.self_eq_append_right.mp hxs
  · right
    refine ⟨bs, hpart, ⟨rest, hys.symm⟩, ?_⟩
    rintro rfl
    exact hne hpart

theorem Reads.bind {f : α → Get ε β} {bytes' : List UInt8} {b : β}
    (h : Reads short r bytes a) (h' : Reads short (f a) bytes' b) :
    Reads short (r >>= f) (bytes ++ bytes') b where
  whole rest := by
    show (r (bytes ++ bytes' ++ rest) >>= fun p => f p.1 p.2) = _
    rw [List.append_assoc, h.whole]
    exact h'.whole rest
  cut part hpart hne := by
    show (r part >>= fun p => f p.1 p.2) = _
    rcases prefix_append_cases hpart hne with ⟨hp, hn⟩ | ⟨later, rfl, hp, hn⟩
    · rw [h.cut part hp hn]
      rfl
    · rw [h.whole]
      exact h'.cut later hp hn

theorem reads_getBytes (short : ε) (bytes : List UInt8) :
    Reads short (getBytes short bytes.length) bytes bytes where
  whole rest := by
    rw [getBytes, if_pos (by simp), List.take_left, List.drop_left]
  cut part hpart hne := by
    have hlt : part.length < bytes.length := by
      have hle := hpart.length_le
      have hlen : part.length ≠ bytes.length := fun he => hne (hpart.eq_of_length he)
      omega
    rw [getBytes, if_neg (by omega)]

theorem codes_bytes (short : ε) (bytes : List UInt8) :
    Codes short (.ok bytes) (getBytes short bytes.length) bytes :=
  ⟨bytes, rfl, reads_getBytes short bytes⟩

theorem codes_word (short : ε) {w : Nat} (hw : 8 ∣ w) (v : BitVec w) :
    Codes short (putWord v) (getWord short w) v := by
  refine ⟨_, rfl, ?_⟩
  have htake := reads_getBytes short (leBytes (w / 8) v.toNat)
  rw [length_leBytes] at htake
  have hboth := htake.bind (f := fun bs => pure (BitVec.ofNat w (ofLeBytes bs))) (b := v)
    (by rw [ofNat_leBytes hw]; exact reads_pure v)
  rwa [List.append_nil] at hboth

theorem codes_nil (a : α) : Codes short (puts []) (pure a : Get ε α) a :=
  ⟨[], rfl, reads_pure a⟩

/-- A field is read, and then the fields behind it. -/
theorem Codes.cons {w : Put ε} {ws : List (Put ε)} {f : α → Get ε β} {b : β}
    (h : Codes short w r a) (h' : Codes short (puts ws) (f a) b) :
    Codes short (puts (w :: ws)) (r >>= f) b := by
  obtain ⟨bytes, rfl, hr⟩ := h
  obtain ⟨bytes', hws, hr'⟩ := h'
  refine ⟨bytes ++ bytes', ?_, hr.bind hr'⟩
  rw [puts, hws]
  rfl

/-- A step that reads nothing. -/
theorem Codes.silent {w : Put ε} {f : α → Get ε β} {b : β} (hr : r = pure a)
    (h : Codes short w (f a) b) : Codes short w (r >>= f) b := by
  rw [hr]
  exact h

/-- The last field of a sequence. -/
theorem Codes.single {w : Put ε} (h : Codes short w r a) : Codes short (puts [w]) r a := by
  obtain ⟨bytes, rfl, hr⟩ := h
  refine ⟨bytes, ?_, hr⟩
  show Except.ok (bytes ++ []) = _
  rw [List.append_nil]

/-- What is computed from a field that was read takes no bytes. -/
theorem Codes.ends {w : Put ε} {f : α → Get ε β} {b : β} (h : Codes short w r a)
    (hf : f a = pure b) : Codes short w (r >>= f) b := by
  obtain ⟨bytes, hw, hr⟩ := h
  have hboth := hr.bind (hf ▸ reads_pure b)
  rw [List.append_nil] at hboth
  exact ⟨bytes, hw, hboth⟩

theorem Codes.map {w : Put ε} (h : Codes short w r a) (g : α → β) :
    Codes short w (r >>= fun x => pure (g x)) (g a) := h.ends rfl

/-- A loop over the elements of an array, and a loop that reads as many. -/
theorem codes_repeat {σ : Type} {n : Nat} (v : List.Vector σ n) (w : σ → Put ε) (g : σ → α)
    (h : ∀ s ∈ v.toList, Codes short (w s) r (g s)) :
    Codes short (puts (v.toList.map w)) (repeatGet r n) (v.map g) := by
  induction v with
  | nil => exact codes_nil List.Vector.nil
  | @cons n s v ih =>
    rw [List.Vector.toList_cons] at h ⊢
    have hrest := ih fun s' hs' => h s' (List.mem_cons_of_mem s hs')
    rw [List.Vector.map_cons]
    exact (h s (List.mem_cons_self ..)).cons (hrest.map (g s ::ᵥ ·))

end Laws

end Sqnim.Lib.Codec
