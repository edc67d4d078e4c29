import Sqnim.StdLib.Blob

/-!
# Blobs are files in memory

What a script sees of its blobs is what it would see of byte sequences with a position: the space
that a blob has allocated in advance never shows, and growing loses nothing.
-/
namespace Sqnim.StdLib.Blob

open Sqnim.Lib Sqnim.Object

/-! ## Files -/

/-- A seekable sequence of bytes in place of a blob. -/
def file : BlobClass (Seekable UInt8) where
  create := Seekable.blank 0
  read n f := if n < 0 then none else some (f.read n.toNat)
  write src f :=
    some <| f.write <|
      match src with
      | .other bytes => bytes
      | .own size => f.data.take size
  seek offset origin f :=
    let base : Int := match origin with
      | .set => 0
      | .cur => f.pos
      | .fin => f.data.length
    match f.seek (base + offset) with
    | some f => (0, f)
    | none => (-1, f)
  tell := Seekable.pos
  len f := f.data.length
  eos f := f.pos == f.data.length
  resize n f := if n < 0 then none else some (f.truncate n.toNat)
  getBuf := Seekable.data
  setBuf := Seekable.replace

/-! ## Simulation of one class by another -/

/-- A change of a buffer that concerns its first `n` bytes only. -/
structure Within (n : Nat) (change : List UInt8 → List UInt8) : Prop where
  length : ∀ buf : List UInt8, n ≤ buf.length → (change buf).length = buf.length
  take : ∀ buf : List UInt8, n ≤ buf.length → (change buf).take n = change (buf.take n)

section Simulation

variable {A B : Type}

/-- Where the first has a result, so has the second: the same, and related blobs. -/
def Follows {α : Type} (R : A → B → Prop) (x : Option (α × A)) (y : Option (α × B)) : Prop :=
  ∀ r a, x = some (r, a) → ∃ b, y = some (r, b) ∧ R a b

/-- `own` tells whether blobs are written to themselves. -/
structure Simulates (own : Prop) (I : BlobClass A) (J : BlobClass B) (R : A → B → Prop) : Prop where
  len : ∀ {a b}, R a b → I.len a = J.len b
  tell : ∀ {a b}, R a b → I.tell a = J.tell b
  eos : ∀ {a b}, R a b → I.eos a = J.eos b
  bytes : ∀ {a b}, R a b → (I.getBuf a).take (I.len a) = (J.getBuf b).take (J.len b)
  filled : ∀ bytes, R (filled I bytes) (filled J bytes)
  create : ∀ n, R (I.create n) (J.create n)
  change : ∀ {a b} {f : List UInt8 → List UInt8}, R a b → Within (I.len a) f →
    R (I.setBuf (f (I.getBuf a)) a) (J.setBuf (f (J.getBuf b)) b)
  read : ∀ {a b}, R a b → ∀ n, Follows R (I.read n a) (J.read n b)
  seek : ∀ {a b}, R a b → ∀ offset origin, (I.seek offset origin a).1 = (J.seek offset origin b).1 ∧
    R (I.seek offset origin a).2 (J.seek offset origin b).2
  resize : ∀ {a b a'}, R a b → ∀ n, I.resize n a = some a' → ∃ b', J.resize n b = some b' ∧ R a' b'
  write : ∀ {a b a'}, R a b → ∀ bytes, I.write (.other bytes) a = some a' →
    ∃ b', J.write (.other bytes) b = some b' ∧ R a' b'
  writeOwn : own → ∀ {a b a'}, R a b → I.write (.own (I.len a)) a = some a' →
    ∃ b', J.write (.own (J.len b)) b = some b' ∧ R a' b'

variable {own : Prop} {I : BlobClass A} {J : BlobClass B} {R : A → B → Prop}

theorem Follows.pure {α : Type} {r : α} {a : A} {b : B} (h : R a b) :
    Follows R (some (r, a)) (some (r, b)) := by
  intro r' a' ha
  cases ha
  exact ⟨b, rfl, h⟩

theorem Follows.bind {α β : Type} {C D : Type} {S : C → D → Prop} {x : Option (α × A)}
    {y : Option (α × B)} {f : α × A → Option (β × C)} {g : α × B → Option (β × D)}
    (h : Follows R x y) (hf : ∀ r a b, R a b → Follows S (f (r, a)) (g (r, b))) :
    Follows S (x >>= f) (y >>= g) := by
  intro r c hc
  obtain ⟨⟨r₁, a₁⟩, hx, hc⟩ := Option.bind_eq_some_iff.mp hc
  obtain ⟨b₁, hy, hR⟩ := h r₁ a₁ hx
  obtain ⟨d, hd, hS⟩ := hf r₁ a₁ b₁ hR r c hc
  exact ⟨d, by rw [hy]; exact hd, hS⟩

/-- The same with results that are not blobs only. -/
theorem Follows.bind' {β : Type} {C D : Type} {S : C → D → Prop} {x : Option A} {y : Option B}
    {f : A → Option (β × C)} {g : B → Option (β × D)}
    (h : ∀ a, x = some a → ∃ b, y = some b ∧ R a b)
    (hf : ∀ a b, R a b → Follows S (f a) (g b)) : Follows S (x >>= f) (y >>= g) := by
  intro r c hc
  obtain ⟨a₁, hx, hc⟩ := Option.bind_eq_some_iff.mp hc
  obtain ⟨b₁, hy, hR⟩ := h a₁ hx
  obtain ⟨d, hd, hS⟩ := hf a₁ b₁ hR r c hc
  exact ⟨d, by rw [hy]; exact hd, hS⟩

namespace Simulates

variable (h : Simulates own I J R) (env : StreamEnv) {a : A} {b : B}

include h

theorem blobResize (hR : R a b) (size : SQObject) :
    Follows R (blobResize env I size a) (blobResize env J size b) :=
  .bind' (fun _ ha => h.resize hR _ ha) fun _ _ hR => .pure hR

omit h in
theorem within_swapLoop {k num : Nat} {swap : Nat → Nat} {n : Nat} (hn : num * k ≤ n) :
    Within n (swapLoop k swap num) := by
  have hlength : ∀ (num : Nat) (buf : List UInt8), num * k ≤ buf.length →
      (swapLoop k swap num buf).length = buf.length := by
    intro num
    induction num with
    | zero => exact fun _ _ => rfl
    | succ num ih =>
      intro buf hbuf
      rw [Nat.succ_mul] at hbuf
      rw [swapLoop, List.length_append, Codec.length_leBytes,
        ih _ (by rw [List.length_drop]; omega), List.length_drop]
      omega
  constructor
  · exact fun buf hbuf => hlength num buf (hn.trans hbuf)
  · induction num generalizing n with
    | zero => exact fun _ _ => rfl
    | succ num ih =>
      intro buf hbuf
      rw [Nat.succ_mul] at hn
      have hk : k ≤ n := by omega
      rw [swapLoop, swapLoop, List.take_take, Nat.min_eq_left hk, List.take_append,
        Codec.length_leBytes, List.take_of_length_le (by rw [Codec.length_leBytes]; exact hk),
        ih (n := n - k) (by omega) _ (by rw [List.length_drop]; omega), List.drop_take]

theorem blobSwap (hR : R a b) {k num num' : Nat} {swap : Nat → Nat} (hnum : num * k ≤ I.len a)
    (heq : num' = num) : Follows R
      (some (Reply.nothing, I.setBuf (swapLoop k swap num (I.getBuf a)) a))
      (some (Reply.nothing, J.setBuf (swapLoop k swap num' (J.getBuf b)) b)) := by
  rw [heq]
  exact .pure (h.change hR (within_swapLoop hnum))

theorem blobSwap4 (hR : R a b) : Follows R (blobSwap4 I a) (blobSwap4 J b) := by
  refine h.blobSwap hR ?_ (by rw [h.len hR])
  rw [Nat.shiftRight_eq_div_pow]
  omega

theorem blobSwap2 (hR : R a b) : Follows R (blobSwap2 I a) (blobSwap2 J b) := by
  refine h.blobSwap hR ?_ (by rw [h.len hR])
  rw [Nat.shiftRight_eq_div_pow]
  omega

omit h in
theorem within_set {n i : Nat} {byte : UInt8} : Within n fun buf => buf.set i byte where
  length _ _ := List.length_set ..
  take _ _ := List.take_set ..

theorem blobSet (hR : R a b) (idx val : SQObject) :
    Follows R (blobSet env I idx val a) (blobSet env J idx val b) := by
  unfold Blob.blobSet
  rw [← h.len hR]
  simp only []
  split
  · exact .pure hR
  · exact .pure (h.change hR within_set)

theorem getD_getBuf (hR : R a b) {i : Nat} (hi : i < I.len a) :
    (I.getBuf a).getD i 0 = (J.getBuf b).getD i 0 := by
  have htake := congrArg (fun l : List UInt8 => l.getD i 0) (h.bytes hR)
  simp only [List.getD_eq_getElem?_getD] at htake ⊢
  rwa [List.getElem?_take_of_lt hi, List.getElem?_take_of_lt (h.len hR ▸ hi)] at htake

theorem blobGet (hR : R a b) (idx : SQObject) :
    Follows R (blobGet env I idx a) (blobGet env J idx b) := by
  unfold Blob.blobGet
  split
  · exact .pure hR
  · rw [← h.len hR]
    simp only []
    split
    · exact .pure hR
    · rw [h.getD_getBuf hR (by omega)]
      exact .pure hR

theorem blobNexti (hR : R a b) (idx : SQObject) :
    Follows R (blobNexti env I idx a) (blobNexti env J idx b) := by
  unfold Blob.blobNexti
  rw [h.len hR]
  split
  · exact .pure hR
  · split
    · exact .pure hR
    · exact .pure hR

theorem streamReadn (hR : R a b) (format : SQObject) :
    Follows R (streamReadn env I format a) (streamReadn env J format b) := by
  unfold Blob.streamReadn
  cases Format.ofInteger (getinteger env format) with
  | none => exact .pure hR
  | some fmt =>
    refine .bind (h.read hR _) fun bytes a' b' hR' => ?_
    by_cases hlen : bytes.length ≠ fmt.size
    · simp only [if_pos hlen]
      exact .pure hR'
    · simp only [if_neg hlen]
      exact .pure hR'

theorem streamWriten (hR : R a b) (value format : SQObject) :
    Follows R (streamWriten env I value format a) (streamWriten env J value format b) := by
  unfold Blob.streamWriten
  cases Format.ofInteger (getinteger env format) with
  | none => exact .pure hR
  | some fmt => exact .bind' (fun _ ha => h.write hR _ ha) fun _ _ hR => .pure hR

theorem streamSeek (hR : R a b) (offset : SQObject) (origin : Option SQObject) :
    Follows R (streamSeek env I offset origin a) (streamSeek env J offset origin b) := by
  unfold Blob.streamSeek
  cases origin.elim (some .set) fun t => originOf (getinteger env t) with
  | none => exact .pure hR
  | some origin =>
    obtain ⟨heq, hR'⟩ := h.seek hR (getinteger env offset).toInt origin
    show Follows R (some (Reply.integer (I.seek _ origin a).1, (I.seek _ origin a).2))
      (some (Reply.integer (J.seek _ origin b).1, (J.seek _ origin b).2))
    rw [heq]
    exact .pure hR'

theorem streamTell (hR : R a b) : Follows R (streamTell I a) (streamTell J b) := by
  unfold Blob.streamTell
  rw [h.tell hR]
  exact .pure hR

theorem streamLen (hR : R a b) : Follows R (streamLen I a) (streamLen J b) := by
  unfold Blob.streamLen
  rw [h.len hR]
  exact .pure hR

theorem streamEos (hR : R a b) : Follows R (streamEos I a) (streamEos J b) := by
  unfold Blob.streamEos
  rw [h.eos hR]
  exact .pure hR

end Simulates

/-! ## Runs -/

section Stores

variable {as : List A} {bs : List B}

theorem forall₂_getElem? (hR : List.Forall₂ R as bs) (i : Nat) :
    (as[i]? = none ∧ bs[i]? = none) ∨ ∃ a b, as[i]? = some a ∧ bs[i]? = some b ∧ R a b := by
  induction hR generalizing i with
  | nil => exact .inl ⟨rfl, rfl⟩
  | cons hab _ ih =>
    cases i with
    | zero => exact .inr ⟨_, _, rfl, rfl, hab⟩
    | succ i => exact ih i

theorem forall₂_set (hR : List.Forall₂ R as bs) {a : A} {b : B} (hab : R a b) (i : Nat) :
    List.Forall₂ R (as.set i a) (bs.set i b) := by
  induction hR generalizing i with
  | nil => exact .nil
  | cons hcd htail ih =>
    cases i with
    | zero => exact .cons hab htail
    | succ i => exact .cons hcd (ih i)

theorem forall₂_snoc (hR : List.Forall₂ R as bs) {a : A} {b : B} (hab : R a b) :
    List.Forall₂ R (as ++ [a]) (bs ++ [b]) :=
  List.rel_append hR (.cons hab .nil)

theorem Follows.onBlob {f : A → Option (Reply × A)} {g : B → Option (Reply × B)}
    (hfg : ∀ a b, R a b → Follows R (f a) (g b)) (invalid : String) (self : Nat)
    (hR : List.Forall₂ R as bs) :
    Follows (List.Forall₂ R) (onBlob invalid f self as) (onBlob invalid g self bs) := by
  unfold Blob.onBlob
  rcases forall₂_getElem? hR self with ⟨ha, hb⟩ | ⟨a, b, ha, hb, hab⟩
  · rw [ha, hb]
    exact .pure hR
  · rw [ha, hb]
    exact .bind (hfg a b hab) fun reply a' b' hab' => .pure (forall₂_set hR hab' self)

end Stores

/-- The call writes a blob to itself. -/
def Call.ownWrite : Call → Prop
  | .writeblob other self => other = self
  | _ => False

namespace Simulates

variable (h : Simulates own I J R) (env : StreamEnv) {as : List A} {bs : List B}

include h

theorem blobConstructor (hR : List.Forall₂ R as bs) (args : List SQObject) :
    Follows (List.Forall₂ R) (blobConstructor env I args as) (blobConstructor env J args bs) := by
  unfold Blob.blobConstructor
  rw [hR.length_eq]
  simp only []
  split
  · split
    · exact .pure hR
    · exact .pure (forall₂_snoc hR (h.create _))
  · split
    · exact .pure hR
    · exact .pure (forall₂_snoc hR (h.create _))

theorem blobCloned (hR : List.Forall₂ R as bs) (other : Nat) :
    Follows (List.Forall₂ R) (blobCloned I other as) (blobCloned J other bs) := by
  unfold Blob.blobCloned
  rcases forall₂_getElem? hR other with ⟨ha, hb⟩ | ⟨a, b, ha, hb, hab⟩
  · rw [ha, hb]
    exact nofun
  · rw [ha, hb, Option.bind_eq_bind, Option.bind_some, Option.bind_eq_bind, Option.bind_some,
      h.bytes hab, hR.length_eq]
    exact .pure (forall₂_snoc hR (h.filled _))

theorem streamReadblob (hR : List.Forall₂ R as bs) (size : SQObject) (self : Nat) :
    Follows (List.Forall₂ R) (streamReadblob env I size self as)
      (streamReadblob env J size self bs) := by
  unfold Blob.streamReadblob
  rcases forall₂_getElem? hR self with ⟨ha, hb⟩ | ⟨a, b, ha, hb, hab⟩
  · rw [ha, hb]
    exact .pure hR
  · rw [ha, hb]
    simp only [h.len hab]
    refine .bind (h.read hab _) fun data a' b' hab' => ?_
    have hR' := forall₂_set hR hab' self
    by_cases hdata : data.length = 0
    · simp only [if_pos hdata]
      exact .pure hR'
    · simp only [if_neg hdata, hR'.length_eq]
      exact .pure (forall₂_snoc hR' (h.filled _))

theorem streamWriteblob (hR : List.Forall₂ R as bs) (other self : Nat) (hown : other = self → own) :
    Follows (List.Forall₂ R) (streamWriteblob I other self as)
      (streamWriteblob J other self bs) := by
  unfold Blob.streamWriteblob
  rcases forall₂_getElem? hR self with ⟨ha, hb⟩ | ⟨a, b, ha, hb, hab⟩
  · rw [ha, hb]
    exact .pure hR
  · rw [ha, hb]
    rcases forall₂_getElem? hR other with ⟨hc, hd⟩ | ⟨c, d, hc, hd, hcd⟩
    · rw [hc, hd]
      exact nofun
    · rw [hc, hd]
      simp only [Option.bind_eq_bind, Option.bind_some]
      refine .bind' (R := R) (fun a' ha' => ?_) fun a' b' hab' => ?_
      · by_cases heq : other = self
        · subst heq
          cases ha.symm.trans hc
          cases hb.symm.trans hd
          rw [if_pos rfl] at ha' ⊢
          exact h.writeOwn (hown rfl) hab ha'
        · rw [if_neg heq] at ha' ⊢
          rw [← h.bytes hcd]
          exact h.write hab _ ha'
      · rw [h.len hcd]
        exact .pure (forall₂_set hR hab' self)

/-- A call has the same result. -/
theorem call (hR : List.Forall₂ R as bs) (c : Call) (hown : c.ownWrite → own) :
    Follows (List.Forall₂ R) (call env I c as) (call env J c bs) := by
  cases c with
  | construct args => exact h.blobConstructor env hR args
  | cloned other => exact h.blobCloned hR other
  | resize size self => exact .onBlob (fun a b hab => h.blobResize env hab size) _ self hR
  | swap4 self => exact .onBlob (fun a b hab => h.blobSwap4 hab) _ self hR
  | swap2 self => exact .onBlob (fun a b hab => h.blobSwap2 hab) _ self hR
  | set idx val self => exact .onBlob (fun a b hab => h.blobSet env hab idx val) _ self hR
  | get idx self => exact .onBlob (fun a b hab => h.blobGet env hab idx) _ self hR
  | nexti idx self => exact .onBlob (fun a b hab => h.blobNexti env hab idx) _ self hR
  | readblob size self => exact h.streamReadblob env hR size self
  | readn format self => exact .onBlob (fun a b hab => h.streamReadn env hab format) _ self hR
  | writeblob other self => exact h.streamWriteblob hR other self hown
  | writen value format self =>
    exact .onBlob (fun a b hab => h.streamWriten env hab value format) _ self hR
  | seek offset origin self =>
    exact .onBlob (fun a b hab => h.streamSeek env hab offset origin) _ self hR
  | tell self => exact .onBlob (fun a b hab => h.streamTell hab) _ self hR
  | len self => exact .onBlob (fun a b hab => h.streamLen hab) _ self hR
  | eos self => exact .onBlob (fun a b hab => h.streamEos hab) _ self hR
  | flush self => exact .onBlob (fun a b hab => .pure hab) _ self hR

/-- So has a run. -/
theorem run {cs : List Call} (hR : List.Forall₂ R as bs) (hown : ∀ c ∈ cs, c.ownWrite → own) :
    Follows (List.Forall₂ R) (run env I cs as) (run env J cs bs) := by
  induction cs generalizing as bs with
  | nil => exact .pure hR
  | cons c cs ih =>
    refine .bind (h.call env hR c (hown c (List.mem_cons_self ..))) fun reply as' bs' hR' => ?_
    refine .bind (ih hR' fun d hd => hown d (List.mem_cons_of_mem c hd)) fun replies _ _ hR'' => ?_
    exact .pure hR''

end Simulates
end Simulation
/-! ## What a blob represents -/

/-- The blob holds the bytes of the file, and may have space behind them. -/
structure Represents (b : SQBlob) (f : Seekable UInt8) : Prop where
  length : b.buf.length = b.allocated
  fits : b.size ≤ b.allocated
  data : b.buf.take b.size = f.data
  pos : b.ptr = f.pos

theorem canAdvance_eq (b : SQBlob) (n : Int) : b.canAdvance n = decide (b.ptr + n ≤ b.size) := by
  unfold SQBlob.canAdvance
  rw [Bool.eq_iff_iff]
  simp only [Bool.not_eq_true', decide_eq_false_iff_not, decide_eq_true_eq]
  omega

namespace Represents

variable {b : SQBlob} {f : Seekable UInt8}

theorem len (h : Represents b f) : b.size = f.data.length := by
  rw [← h.data, List.length_take_of_le (h.length ▸ h.fits)]

theorem ptr_le (h : Represents b f) : b.ptr ≤ b.size := by
  rw [h.len, h.pos]
  exact f.inside

theorem create (n : Nat) : Represents (SQBlob.create n) (Seekable.blank 0 n) where
  length := List.length_replicate ..
  fits := Nat.le_refl n
  data := List.take_of_length_le (List.length_replicate ..).le
  pos := rfl

theorem resizeTo (h : Represents b f) (n : Nat) : Represents (b.resizeTo n) (f.truncate n) := by
  have hlen := h.len
  have hptr := h.ptr_le
  have hfits := h.fits
  unfold SQBlob.resizeTo
  by_cases hn : n ≠ b.allocated
  · rw [if_pos hn]
    have hbuf : ∀ m ≤ n, m ≤ b.size →
        (overwrite (List.replicate n 0) 0 (b.buf.take m)).length = n ∧
          (overwrite (List.replicate n 0) 0 (b.buf.take m)).take m = f.data.take m := by
      intro m hmn hms
      have hm : (b.buf.take m).length = m := List.length_take_of_le (by rw [h.length]; omega)
      refine ⟨?_, ?_⟩
      · rw [length_overwrite (Nat.zero_le _), List.length_replicate, hm]
        omega
      · have hslice := slice_overwrite (b.buf.take m)
          (Nat.zero_le (List.replicate n (0 : UInt8)).length)
        rw [hm, List.drop_zero] at hslice
        rw [hslice, ← h.data, List.take_take, Nat.min_eq_left hms]
    by_cases hsize : b.size > n
    · obtain ⟨hlength, htake⟩ := hbuf n (Nat.le_refl n) (by omega)
      simp only [if_pos hsize]
      exact
        { length := hlength
          fits := Nat.le_refl n
          data := htake
          pos := by
            show (if b.ptr > n then n else b.ptr) = min f.pos n
            rw [← h.pos]
            split <;> omega }
    · obtain ⟨hlength, htake⟩ := hbuf b.size (by omega) (Nat.le_refl _)
      simp only [if_neg hsize, if_neg (show ¬ b.ptr > n by omega)]
      exact
        { length := hlength
          fits := by show b.size ≤ n; omega
          data := by
            show _ = f.data.take n
            rw [htake, List.take_of_length_le (by omega), List.take_of_length_le (by omega)]
          pos := by
            show b.ptr = min f.pos n
            rw [← h.pos]
            omega }
  · rw [if_neg hn]
    exact
      { length := h.length
        fits := hfits
        data := by
          show _ = f.data.take n
          rw [h.data, List.take_of_length_le (by omega)]
        pos := by
          show b.ptr = min f.pos n
          rw [← h.pos]
          omega }

/-- Space is made behind the bytes. -/
theorem growBufOf (h : Represents b f) (n : Nat) : (b.growBufOf n).size = b.size + n ∧
    (b.growBufOf n).ptr = b.ptr ∧ (b.growBufOf n).buf.take b.size = f.data ∧
    (b.growBufOf n).buf.length = (b.growBufOf n).allocated ∧
    b.size + n ≤ (b.growBufOf n).allocated := by
  have hgrow : ∀ m, b.size + n ≤ m → (b.resizeTo m).size = b.size ∧ (b.resizeTo m).ptr = b.ptr ∧
      (b.resizeTo m).buf.take b.size = f.data ∧
      (b.resizeTo m).buf.length = (b.resizeTo m).allocated ∧
      b.size + n ≤ (b.resizeTo m).allocated := by
    intro m hm
    have hrep := h.resizeTo m
    have hlen := h.len
    have hptr := h.ptr_le
    have htrunc : f.truncate m = f := by
      refine Seekable.ext (List.take_of_length_le (by omega)) (Nat.min_eq_left ?_)
      have := f.inside
      omega
    rw [htrunc] at hrep
    have hsize : (b.resizeTo m).size = b.size := hrep.len.trans hlen.symm
    refine ⟨hsize, hrep.pos.trans h.pos.symm, hsize ▸ hrep.data, hrep.length, ?_⟩
    have halloc : (b.resizeTo m).allocated = m := by
      unfold SQBlob.resizeTo
      split
      · rfl
      case isFalse hn => exact (not_not.mp hn).symm
    omega
  unfold SQBlob.growBufOf
  simp only []
  split
  · split
    · obtain ⟨hsize, hptr, hdata, hlength, hfits⟩ := hgrow (b.size + n) (Nat.le_refl _)
      exact ⟨congrArg (· + n) hsize, hptr, hdata, hlength, hfits⟩
    · obtain ⟨hsize, hptr, hdata, hlength, hfits⟩ := hgrow (b.size * 2) (by omega)
      exact ⟨congrArg (· + n) hsize, hptr, hdata, hlength, hfits⟩
  · exact ⟨rfl, rfl, h.data, h.length, by omega⟩

/-- Bytes at the position of a blob that has the space for them. -/
theorem stored (h : Represents b f) {grown : SQBlob} {bytes : List UInt8}
    (hsize : grown.size = max b.size (b.ptr + bytes.length)) (hptr : grown.ptr = b.ptr)
    (hdata : grown.buf.take b.size = f.data) (hlength : grown.buf.length = grown.allocated)
    (hfits : grown.size ≤ grown.allocated) :
    Represents { grown with
      buf := overwrite grown.buf grown.ptr bytes
      ptr := grown.ptr + bytes.length } (f.write bytes) where
  length := by
    have hle := h.ptr_le
    show (overwrite grown.buf grown.ptr bytes).length = grown.allocated
    rw [length_overwrite (by omega)]
    omega
  fits := hfits
  data := by
    have hle := h.ptr_le
    show (overwrite grown.buf grown.ptr bytes).take grown.size = overwrite f.data f.pos bytes
    rw [hsize, hptr, take_overwrite (by omega) hle, hdata, h.pos]
  pos := by
    show grown.ptr + bytes.length = f.pos + bytes.length
    rw [hptr, h.pos]

/-- The blob with the space for `n` bytes at its position. -/
theorem grown (h : Represents b f) {n : Nat} {grown : SQBlob}
    (hgrown : (if !b.canAdvance n then b.growBufOf (b.ptr + n - b.size) else b) = grown) :
    grown.size = max b.size (b.ptr + n) ∧ grown.ptr = b.ptr ∧ grown.buf.take b.size = f.data ∧
      grown.buf.length = grown.allocated ∧ grown.size ≤ grown.allocated := by
  subst hgrown
  by_cases hfit : b.ptr + n ≤ b.size
  · rw [if_neg (by rw [canAdvance_eq, decide_eq_true (by omega)]; decide)]
    exact ⟨by omega, rfl, h.data, h.length, h.fits⟩
  · rw [if_pos (by rw [canAdvance_eq, decide_eq_false (by omega)]; decide)]
    obtain ⟨hsize, hptr, hdata, hlength, hfits⟩ := h.growBufOf (b.ptr + n - b.size)
    exact ⟨by omega, hptr, hdata, hlength, by omega⟩

theorem write (h : Represents b f) (bytes : List UInt8) :
    ∃ b', b.write (.other bytes) = some b' ∧ Represents b' (f.write bytes) := by
  unfold SQBlob.write
  generalize hgrown : (if !b.canAdvance (Source.other bytes).size then
    b.growBufOf (b.ptr + (Source.other bytes).size - b.size) else b) = grown
  obtain ⟨hsize, hptr, hdata, hlength, hfits⟩ := h.grown hgrown
  exact ⟨_, rfl, h.stored hsize hptr hdata hlength hfits⟩

/-- A blob is written to itself where the buffer stays; then the bytes are still there. -/
theorem writeOwn (h : Represents b f) {b' : SQBlob} (hrun : b.write (.own b.size) = some b') :
    Represents b' (f.write f.data) := by
  unfold SQBlob.write at hrun
  generalize hgrown : (if !b.canAdvance (Source.own b.size).size then
    b.growBufOf (b.ptr + (Source.own b.size).size - b.size) else b) = grown at hrun
  obtain ⟨hsize, hptr, hdata, hlength, hfits⟩ := h.grown hgrown
  have hsame : (Source.own b.size).size = f.data.length := h.len
  rw [hsame] at hsize hrun
  obtain ⟨copied, hcopy, hrun⟩ := Option.bind_eq_some_iff.mp hrun
  cases hrun
  unfold SQBlob.copyIn at hcopy
  simp only [hdata] at hcopy
  split at hcopy
  · cases hcopy
  · split at hcopy
    · cases hcopy
    · cases hcopy
      exact h.stored hsize hptr hdata hlength hfits

theorem read (h : Represents b f) (n : Int) : Option.Rel
    (fun p q => p.1 = q.1 ∧ Represents p.2 q.2) (b.read n) (file.read n f) := by
  have hlen := h.len
  have hptr := h.ptr_le
  have hpos := h.pos
  have hslice : ∀ m, b.ptr + m ≤ b.size →
      (b.buf.drop b.ptr).take m = (f.data.drop f.pos).take m := by
    intro m hm
    rw [← h.data, ← h.pos, List.drop_take, List.take_take, Nat.min_eq_left (by omega)]
  show Option.Rel _ _ (if n < 0 then none else some (f.read n.toNat))
  unfold SQBlob.read
  rw [canAdvance_eq]
  by_cases hneg : n < 0
  · rw [if_pos hneg]
    simp only [decide_eq_true (show b.ptr + n ≤ b.size by omega), Bool.not_true, Bool.false_eq_true,
      if_false, if_pos hneg]
    exact .none
  · rw [if_neg hneg]
    by_cases hfit : b.ptr + n ≤ b.size
    · simp only [decide_eq_true hfit, Bool.not_true, Bool.false_eq_true, if_false, if_neg hneg]
      have hbytes := hslice n.toNat (by omega)
      refine .some ⟨hbytes, { h with pos := ?_ }⟩
      show b.ptr + n.toNat = f.pos + ((f.data.drop f.pos).take n.toNat).length
      rw [List.length_take, List.length_drop]
      omega
    · have hbytes := hslice (b.size - b.ptr) (by omega)
      have hall : (f.data.drop f.pos).take n.toNat = (f.data.drop f.pos).take (b.size - b.ptr) := by
        rw [List.take_of_length_le (by rw [List.length_drop]; omega),
          List.take_of_length_le (by rw [List.length_drop]; omega)]
      simp only [decide_eq_false hfit, Bool.not_false, if_true]
      have hmoved : f.pos + ((f.data.drop f.pos).take n.toNat).length = b.size := by
        rw [List.length_take, List.length_drop]
        omega
      split
      case isTrue hrest =>
        rw [if_neg (by omega)]
        refine .some ⟨?_, { h with pos := ?_ }⟩
        · show (b.buf.drop b.ptr).take _ = (f.data.drop f.pos).take n.toNat
          rw [hall, ← hbytes]
          congr 1
          omega
        · show b.ptr + _ = f.pos + ((f.data.drop f.pos).take n.toNat).length
          rw [hmoved]
          omega
      case isFalse hrest =>
        refine .some ⟨?_, { h with pos := ?_ }⟩
        · show [] = (f.data.drop f.pos).take n.toNat
          rw [List.drop_of_length_le (by omega), List.take_nil]
        · show b.ptr = f.pos + ((f.data.drop f.pos).take n.toNat).length
          rw [hmoved]
          omega

theorem seek (h : Represents b f) (offset : Int) (origin : Origin) :
    (b.seek offset origin).1 = (file.seek offset origin f).1 ∧
      Represents (b.seek offset origin).2 (file.seek offset origin f).2 := by
  have hlen := h.len
  have hpos := h.pos
  have hgo : ∀ p : Int,
      (if p > b.size ∨ p < 0 then (-1, b) else (0, { b with ptr := p.toNat }) : Int × SQBlob).1 =
        (match f.seek p with | some f => (0, f) | none => (-1, f) : Int × Seekable UInt8).1 ∧
      Represents
        (if p > b.size ∨ p < 0 then (-1, b) else (0, { b with ptr := p.toNat }) : Int × SQBlob).2
        (match f.seek p with | some f => (0, f) | none => (-1, f) : Int × Seekable UInt8).2 := by
    intro p
    unfold Seekable.seek
    by_cases hp : p > b.size ∨ p < 0
    · rw [if_pos hp, dif_neg (by omega)]
      exact ⟨rfl, h⟩
    · rw [if_neg hp, dif_pos (by omega)]
      exact ⟨rfl, { h with pos := rfl }⟩
  cases origin with
  | set =>
    have hset := hgo offset
    rw [← Int.zero_add offset] at hset ⊢
    simpa [SQBlob.seek, file] using hset
  | cur =>
    have hcur := hgo (f.pos + offset)
    rw [← hpos] at hcur
    simpa [SQBlob.seek, file, hpos] using hcur
  | fin =>
    have hfin := hgo (f.data.length + offset)
    rw [← hlen] at hfin
    simpa [SQBlob.seek, file, hlen] using hfin

theorem resize (h : Represents b f) (n : Int) :
    Option.Rel Represents (b.resize n) (file.resize n f) := by
  have hfits := h.fits
  have hlen := h.len
  show Option.Rel _ _ (if n < 0 then none else some (f.truncate n.toNat))
  unfold SQBlob.resize
  by_cases hsame : n = b.allocated
  · rw [if_pos hsame, if_neg (by omega)]
    have hrep := h.resizeTo n.toNat
    unfold SQBlob.resizeTo at hrep
    rw [if_neg (by omega)] at hrep
    exact .some hrep
  · rw [if_neg hsame]
    by_cases hneg : n < 0
    · rw [if_pos hneg, if_pos hneg]
      exact .none
    · rw [if_neg hneg, if_neg hneg]
      exact .some (h.resizeTo n.toNat)

theorem change (h : Represents b f) {g : List UInt8 → List UInt8} (hg : Within b.size g) :
    Represents { b with buf := g b.buf } (f.replace (g f.data)) := by
  have hbuf : b.size ≤ b.buf.length := h.length ▸ h.fits
  have hdata : (g b.buf).take b.size = g f.data := by rw [hg.take _ hbuf, h.data]
  have hlength : (g b.buf).length = b.buf.length := hg.length _ hbuf
  have hsame : (g f.data).length = f.data.length := by
    rw [← hdata, List.length_take_of_le (hlength ▸ hbuf), h.len]
  rw [Seekable.replace, dif_pos hsame]
  exact { length := hlength.trans h.length, fits := h.fits, data := hdata, pos := h.pos }

theorem filled (bytes : List UInt8) : Represents (filled sqBlob bytes) (filled file bytes) := by
  have hlen : bytes.length = (Seekable.blank (0 : UInt8) bytes.length).data.length :=
    (List.length_replicate ..).symm
  unfold Blob.filled
  show Represents { SQBlob.create bytes.length with buf := bytes }
    ((Seekable.blank 0 bytes.length).replace bytes)
  rw [Seekable.replace, dif_pos hlen]
  exact
    { length := rfl
      fits := Nat.le_refl _
      data := List.take_length ..
      pos := rfl }

end Represents

theorem Follows.of_rel {A B α : Type} {R : A → B → Prop} {x : Option (α × A)} {y : Option (α × B)}
    (h : Option.Rel (fun p q => p.1 = q.1 ∧ R p.2 q.2) x y) : Follows R x y := by
  cases h with
  | none => exact nofun
  | some hpq =>
    obtain ⟨heq, hR⟩ := hpq
    intro r a ha
    cases ha
    exact ⟨_, congrArg some (Prod.ext heq.symm rfl), hR⟩

theorem Follows.of_rel_flip {A B α : Type} {R : A → B → Prop} {x : Option (α × A)}
    {y : Option (α × B)} (h : Option.Rel (fun p q => p.1 = q.1 ∧ R p.2 q.2) x y) :
    Follows (flip R) y x := by
  cases h with
  | none => exact nofun
  | some hpq =>
    obtain ⟨heq, hR⟩ := hpq
    intro r b hb
    cases hb
    exact ⟨_, congrArg some (Prod.ext heq rfl), hR⟩

/-- A file behaves as the blob. -/
theorem sqBlob_simulates : Simulates True sqBlob file Represents where
  len h := h.len
  tell h := h.pos
  eos {b f} h := by
    show (b.ptr == b.size) = (f.pos == f.data.length)
    rw [h.pos, h.len]
  bytes {b f} h := by
    show b.buf.take b.size = f.data.take f.data.length
    rw [h.data, List.take_length]
  filled := Represents.filled
  create := Represents.create
  change h hg := h.change hg
  read h n := .of_rel (h.read n)
  seek h := h.seek
  resize {b f b'} h n hrun := by
    have hrel := h.resize n
    rw [show b.resize n = some b' from hrun] at hrel
    cases hf : file.resize n f with
    | none =>
      rw [hf] at hrel
      cases hrel
    | some f' =>
      rw [hf] at hrel
      cases hrel with
      | some hR => exact ⟨f', rfl, hR⟩
  write {b f b'} h bytes hrun := by
    obtain ⟨b'', hrun', hR⟩ := h.write bytes
    cases hrun.symm.trans hrun'
    exact ⟨_, rfl, hR⟩
  writeOwn _ {b f b'} h hrun := by
    have hR := h.writeOwn hrun
    refine ⟨_, rfl, ?_⟩
    show Represents b' (f.write (f.data.take f.data.length))
    rwa [List.take_length]

/-- The blob behaves as a file, unless it is written to itself. -/
theorem file_simulates : Simulates False file sqBlob (flip Represents) where
  len h := (Represents.len h).symm
  tell h := (Represents.pos h).symm
  eos h := (sqBlob_simulates.eos h).symm
  bytes h := (sqBlob_simulates.bytes h).symm
  filled := Represents.filled
  create := Represents.create
  change {f b} g h hg := Represents.change h (Represents.len h ▸ hg)
  read h n := .of_rel_flip (Represents.read h n)
  seek h offset origin := ⟨(Represents.seek h offset origin).1.symm,
    (Represents.seek h offset origin).2⟩
  resize {f b f'} h n hrun := by
    have hrel := Represents.resize h n
    rw [show file.resize n f = some f' from hrun] at hrel
    cases hb : b.resize n with
    | none =>
      rw [hb] at hrel
      cases hrel
    | some b' =>
      rw [hb] at hrel
      cases hrel with
      | some hR => exact ⟨b', hb, hR⟩
  write h bytes hrun := by
    cases hrun
    exact Represents.write h bytes
  writeOwn := False.elim

/-- Whatever a script does with its blobs, it gets the replies that files would give; and where
files give replies and no blob is written to itself, blobs do. -/
theorem run_blobs_iff_files (env : StreamEnv) (cs : List Call) {blobs : List SQBlob}
    {files : List (Seekable UInt8)} (h : List.Forall₂ Represents blobs files) :
    (∀ replies blobs', run env sqBlob cs blobs = some (replies, blobs') →
      ∃ files', run env file cs files = some (replies, files') ∧
        List.Forall₂ Represents blobs' files') ∧
    ((∀ c ∈ cs, ¬ c.ownWrite) → ∀ replies files', run env file cs files = some (replies, files') →
      ∃ blobs', run env sqBlob cs blobs = some (replies, blobs') ∧
        List.Forall₂ Represents blobs' files') := by
  refine ⟨sqBlob_simulates.run env h fun c hc _ => trivial, fun hown => ?_⟩
  intro replies files' hrun
  obtain ⟨blobs', hrun', hR⟩ := file_simulates.run env (List.Forall₂.flip (a := files) h) hown
    replies files' hrun
  exact ⟨blobs', hrun', hR.flip⟩

section Sample

def sampleEnv : StreamEnv := ⟨⟨fun _ => 0, fun _ _ => none, fun _ => none, .empty⟩, fun _ => 0⟩

def sampleFile : Seekable UInt8 := ⟨[1, 2, 3], 1, by decide⟩

/-- A blob of three bytes with space for five more. -/
def sampleBlob : SQBlob := ⟨3, 8, 1, [1, 2, 3, 0, 0, 0, 0, 0]⟩

theorem sampleBlob_represents : Represents sampleBlob sampleFile := ⟨rfl, by decide, rfl, rfl⟩

/-- From the end on, a clone of the blob is written to it, which is then cut; the position stays at
the end. -/
def sampleCalls : List Call :=
  [.seek (.ofInteger 0) (some (.ofInteger 101)) 0, .cloned 0, .writeblob 1 0,
    .resize (.ofInteger 2) 1, .readblob (.ofInteger 4) 0]

def sampleReplies : List Reply :=
  [.integer 0, .blob 1, .integer 3, .nothing, .error "no data left to read"]

theorem run_sampleBlob :
    (∃ files', run sampleEnv file sampleCalls [sampleFile] = some (sampleReplies, files') ∧
      List.Forall₂ Represents [⟨6, 8, 6, [1, 2, 3, 1, 2, 3, 0, 0]⟩, ⟨2, 2, 0, [1, 2]⟩] files') ∧
    ∀ replies files', run sampleEnv file sampleCalls [sampleFile] = some (replies, files') →
      ∃ blobs', run sampleEnv sqBlob sampleCalls [sampleBlob] = some (replies, blobs') ∧
        List.Forall₂ Represents blobs' files' := by
  have hsample : List.Forall₂ Represents [sampleBlob] [sampleFile] :=
    .cons sampleBlob_represents .nil
  obtain ⟨hblobs, hfiles⟩ := run_blobs_iff_files sampleEnv sampleCalls hsample
  have hown : ∀ c ∈ sampleCalls, ¬ c.ownWrite := by
    simp [sampleCalls, Call.ownWrite]
  exact ⟨hblobs _ _ (by decide), hfiles hown⟩

/-- A blob that is written to itself from the end on. -/
example : run sampleEnv sqBlob [.seek (.ofInteger 0) (some (.ofInteger 101)) 0, .writeblob 0 0]
    [sampleBlob] = some ([.integer 0, .integer 3], [⟨6, 8, 6, [1, 2, 3, 1, 2, 3, 0, 0]⟩]) := by
  decide

end Sample
end Sqnim.StdLib.Blob
