import Sqnim.StdLib.BlobRefinement

/-!
# Numbers in blobs

`readn` reads what `writen` has written in the same format, as the C type of the format holds it.
`swap2` and `swap4` turn the bytes of each whole word around.
-/
namespace Sqnim.StdLib.Blob

open Sqnim.Lib Sqnim.Object
open Codec (leBytes ofLeBytes)

section Formats

variable (env : StreamEnv)

theorem word_leBytes {w k : Nat} (hw : w = 8 * k) (v : BitVec w) :
    BitVec.ofNat w (ofLeBytes (leBytes k v.toNat)) = v := by
  have hword := Codec.ofNat_leBytes ⟨k, hw⟩ v
  rwa [show w / 8 = k by omega] at hword

theorem Format.length_encode (fmt : Format) (o : SQObject) :
    (fmt.encode env o).length = fmt.size := by
  cases fmt <;> exact Codec.length_leBytes ..

/-- The C type of the format holds the number. -/
theorem Format.decode_encode (fmt : Format) (o : SQObject) :
    fmt.decode (fmt.encode env o) = fmt.stored env o := by
  cases fmt <;> simp only [decode, encode, stored]
  case d => rw [word_leBytes (by decide), Binary64.narrow_widen]
  all_goals rw [word_leBytes (by decide)]

/-- The character of a format names it. -/
theorem Format.ofInteger_char (fmt : Format) :
    Format.ofInteger (BitVec.ofNat 64 fmt.char.toNat) = some fmt := by
  cases fmt <;> decide

end Formats

/-! ## Writing and reading back -/

section ReadBack

variable (env : StreamEnv)

variable {blobs : List SQBlob} {self : Nat} {b b' : SQBlob} {reply : Reply}

theorem onBlob_of_some (hself : blobs[self]? = some b) {f : SQBlob → Option (Reply × SQBlob)}
    (hf : f b = some (reply, b')) (invalid : String) :
    onBlob invalid f self blobs = some (reply, blobs.set self b') := by
  unfold onBlob
  rw [hself]
  show (f b >>= _) = _
  rw [hf]
  rfl

/-- A number that is written to a blob is read back from where it was written, as the C type of the
format holds it. The bytes before and behind it stay, and so do the other blobs. -/
theorem readn_writen {f : Seekable UInt8} (h : Represents b f) (hself : blobs[self]? = some b)
    {fmt : Format} {format : SQObject}
    (hformat : Format.ofInteger (getinteger env format) = some fmt) {back : SQObject}
    (hback : (getinteger env back).toInt = b.ptr) (value : SQObject) :
    ∃ b', run env sqBlob [.writen value format self, .seek back none self, .readn format self]
        blobs = some ([.nothing, .integer 0, .value (fmt.stored env value)], blobs.set self b') ∧
      b'.size = max b.size (b.ptr + fmt.size) ∧ b'.ptr = b.ptr + fmt.size ∧
      ∀ i, i < b.ptr ∨ b.ptr + fmt.size ≤ i → i < b.size → b'.buf[i]? = b.buf[i]? := by
  have hin : self < blobs.length := (List.getElem?_eq_some_iff.mp hself).1
  have hset : ∀ c, (blobs.set self c)[self]? = some c := fun c => List.getElem?_set_self hin
  have hsize := Format.length_encode env fmt value
  -- the number is written
  obtain ⟨b₁, hwrite, h₁⟩ := h.write (fmt.encode env value)
  have hwriten : streamWriten env sqBlob value format b = some (.nothing, b₁) := by
    unfold streamWriten
    rw [hformat]
    show (b.write (.other (fmt.encode env value)) >>= _) = _
    rw [hwrite]
    rfl
  -- the blob goes back
  obtain ⟨g, hgo, hread⟩ := f.read_write (fmt.encode env value)
  have hfile : file.seek b.ptr .set (f.write (fmt.encode env value)) = (0, g) := by
    simp only [file, Int.zero_add, h.pos, hgo]
  obtain ⟨hreply, h₂⟩ := h₁.seek b.ptr .set
  rw [hfile] at hreply h₂
  have hseek : streamSeek env sqBlob back none b₁ = some (.integer 0, (b₁.seek b.ptr .set).2) := by
    show some (Reply.integer (b₁.seek (getinteger env back).toInt .set).1,
      (b₁.seek (getinteger env back).toInt .set).2) = _
    rw [hback, hreply]
  -- the bytes are read
  have hrel := h₂.read fmt.size
  have hbytes : file.read fmt.size g =
      some (fmt.encode env value, f.write (fmt.encode env value)) := by
    rw [hsize] at hread
    show (if (fmt.size : Int) < 0 then none else some (g.read (fmt.size : Int).toNat)) = _
    rw [if_neg (by omega), Int.toNat_natCast, hread]
  rw [hbytes] at hrel
  obtain ⟨b₃, hread, h₃⟩ : ∃ b₃, (b₁.seek b.ptr .set).2.read fmt.size =
      some (fmt.encode env value, b₃) ∧ Represents b₃ (f.write (fmt.encode env value)) := by
    generalize (b₁.seek b.ptr .set).2.read fmt.size = r at hrel
    cases hrel with
    | some hpq => exact ⟨_, congrArg some (Prod.ext hpq.1 rfl), hpq.2⟩
  have hreadn : streamReadn env sqBlob format (b₁.seek b.ptr .set).2 =
      some (.value (fmt.stored env value), b₃) := by
    unfold streamReadn
    rw [hformat]
    show ((b₁.seek b.ptr .set).2.read fmt.size >>= _) = _
    rw [hread, Option.bind_eq_bind, Option.bind_some]
    show (if (fmt.encode env value).length ≠ fmt.size then _ else _) = _
    rw [if_neg (not_not.mpr hsize), Format.decode_encode]
    rfl
  have hcalls : run env sqBlob
      [.writen value format self, .seek back none self, .readn format self] blobs =
      some ([.nothing, .integer 0, .value (fmt.stored env value)], blobs.set self b₃) := by
    have hset₁ := onBlob_of_some hself hwriten "the stream is invalid"
    have hset₂ := onBlob_of_some (hset b₁) hseek "the stream is invalid"
    have hset₃ := onBlob_of_some (hset (b₁.seek b.ptr .set).2) hreadn "the stream is invalid"
    rw [List.set_set] at hset₂ hset₃
    simp only [run, call, hset₁, hset₂, hset₃, Option.bind_eq_bind, Option.bind_some,
      Option.pure_def]
  have hlen : b₃.size = max b.size (b.ptr + fmt.size) := by
    rw [h₃.len, h.len, h.pos, ← hsize]
    exact length_overwrite f.inside
  refine ⟨b₃, hcalls, hlen, ?_, fun i hi hib => ?_⟩
  · rw [h₃.pos, h.pos, ← hsize]
    rfl
  · have hnew : (b₃.buf.take b₃.size)[i]? = (b.buf.take b.size)[i]? := by
      rw [h₃.data, h.data]
      show (overwrite f.data f.pos (fmt.encode env value))[i]? = f.data[i]?
      rw [getElem?_overwrite f.inside, hsize, ← h.pos]
      split_ifs <;> first | rfl | omega
    rwa [List.getElem?_take_of_lt (by omega), List.getElem?_take_of_lt hib] at hnew

end ReadBack

/-! ## Swapping -/

section Words

theorem byte_swapDword (n : BitVec 32) (i : Nat) (hi : i < 4) :
    (swapDword n).extractLsb' (8 * i) 8 = n.extractLsb' (8 * (3 - i)) 8 := by
  unfold swapDword
  ext j hj
  interval_cases i <;> interval_cases j <;> simp

theorem byte_swapWord (n : BitVec 16) (i : Nat) (hi : i < 2) :
    (swapWord n).extractLsb' (8 * i) 8 = n.extractLsb' (8 * (1 - i)) 8 := by
  unfold swapWord
  ext j hj
  interval_cases i <;> interval_cases j <;> simp

/-- Where the bytes of a word change places, those in memory are turned around. -/
theorem turned {w k : Nat} (hw : w = 8 * k) {swap : BitVec w → BitVec w}
    (hswap : ∀ n i, i < k → (swap n).extractLsb' (8 * i) 8 = n.extractLsb' (8 * (k - 1 - i)) 8)
    (bytes : List UInt8) (hlen : bytes.length = k) :
    leBytes k (swap (BitVec.ofNat w (ofLeBytes bytes))).toNat = bytes.reverse := by
  have hlt : ofLeBytes bytes < 2 ^ w := by
    have hlt := Codec.ofLeBytes_lt bytes
    rwa [hlen, show (256 : Nat) = 2 ^ 8 from rfl, ← pow_mul, ← hw] at hlt
  refine List.ext_getElem? fun i => ?_
  by_cases hi : i < k
  · have hback := Codec.getElem?_leBytes (BitVec.ofNat w (ofLeBytes bytes))
      (show k - 1 - i < k by omega)
    rw [BitVec.toNat_ofNat, Nat.mod_eq_of_lt hlt, ← hlen, Codec.leBytes_ofLeBytes] at hback
    rw [Codec.getElem?_leBytes _ hi, hswap _ i hi, List.getElem?_reverse (by omega), hback, hlen]
  · rw [List.getElem?_eq_none (by rw [Codec.length_leBytes]; omega),
      List.getElem?_eq_none (by rw [List.length_reverse]; omega)]

/-- The words of `k` bytes, turned around one by one. -/
theorem swapLoop_swapLoop {k : Nat} {swap : Nat → Nat}
    (hturn : ∀ bytes : List UInt8, bytes.length = k →
      leBytes k (swap (ofLeBytes bytes)) = bytes.reverse) :
    ∀ (num : Nat) (buf : List UInt8), num * k ≤ buf.length →
      swapLoop k swap num (swapLoop k swap num buf) = buf := by
  intro num
  induction num with
  | zero => exact fun _ _ => rfl
  | succ num ih =>
    intro buf hbuf
    rw [Nat.succ_mul] at hbuf
    have hfirst : (buf.take k).length = k := List.length_take_of_le (by omega)
    have hrev : (buf.take k).reverse.length = k := by rw [List.length_reverse, hfirst]
    rw [swapLoop, swapLoop, hturn _ hfirst, List.take_left' hrev, List.drop_left' hrev,
      hturn _ hrev, List.reverse_reverse, ih _ (by rw [List.length_drop]; omega),
      List.take_append_drop]

/-- A byte comes from the other end of its word. -/
theorem getElem?_swapLoop {k : Nat} (hk : 0 < k) {swap : Nat → Nat}
    (hturn : ∀ bytes : List UInt8, bytes.length = k →
      leBytes k (swap (ofLeBytes bytes)) = bytes.reverse) :
    ∀ (num : Nat) (buf : List UInt8), num * k ≤ buf.length → ∀ i,
      (swapLoop k swap num buf)[i]? =
        buf[if i < num * k then i / k * k + (k - 1 - i % k) else i]? := by
  intro num
  induction num with
  | zero => exact fun buf _ i => by rw [swapLoop, if_neg (by omega)]
  | succ num ih =>
    intro buf hbuf i
    rw [Nat.succ_mul] at hbuf ⊢
    have hfirst : (buf.take k).length = k := List.length_take_of_le (by omega)
    have hrev : (buf.take k).reverse.length = k := by rw [List.length_reverse, hfirst]
    rw [swapLoop, hturn _ hfirst]
    by_cases hi : i < k
    · rw [List.getElem?_append_left (by omega), List.getElem?_reverse (by omega), hfirst,
        List.getElem?_take_of_lt (by omega), if_pos (by omega), Nat.div_eq_of_lt hi,
        Nat.mod_eq_of_lt hi, Nat.zero_mul, Nat.zero_add]
    · obtain ⟨j, rfl⟩ := Nat.exists_eq_add_of_le (not_lt.mp hi)
      rw [List.getElem?_append_right (by omega), hrev, Nat.add_sub_cancel_left,
        ih _ (by rw [List.length_drop]; omega), List.getElem?_drop, Nat.add_div_left _ hk,
        Nat.add_mod_left, Nat.succ_mul]
      congr 1
      split_ifs <;> omega

end Words

/-- The functions that swap, by the size of the words. -/
inductive Swaps (self : Nat) : Nat → Call → Prop where
  | swap2 : Swaps self 2 (.swap2 self)
  | swap4 : Swaps self 4 (.swap4 self)

/-- `swap2` and `swap4` turn each whole word of a blob around and leave the bytes behind them, the
position and the other blobs; a second call restores the blob. -/
theorem swap_turns (env : StreamEnv) {blobs : List SQBlob} {self : Nat} {b : SQBlob}
    {f : Seekable UInt8} (h : Represents b f) (hself : blobs[self]? = some b) {k : Nat} {c : Call}
    (hc : Swaps self k c) :
    ∃ b', call env sqBlob c blobs = some (.nothing, blobs.set self b') ∧
      call env sqBlob c (blobs.set self b') = some (.nothing, blobs) ∧
      b'.size = b.size ∧ b'.ptr = b.ptr ∧
      ∀ i, b'.buf[i]? = b.buf[if i < b.size / k * k then i / k * k + (k - 1 - i % k) else i]? := by
  have hin : self < blobs.length := (List.getElem?_eq_some_iff.mp hself).1
  have hset : ∀ b', (blobs.set self b')[self]? = some b' := fun b' => List.getElem?_set_self hin
  have hrestored : blobs.set self b = blobs := by
    obtain ⟨_, rfl⟩ := List.getElem?_eq_some_iff.mp hself
    exact List.set_getElem_self hin
  have hbuf : b.size ≤ b.buf.length := h.length ▸ h.fits
  -- what the two have in common
  have hswap : ∀ (k : Nat) (swap : Nat → Nat) (body : SQBlob → Option (Reply × SQBlob)), 0 < k →
      (∀ bytes : List UInt8, bytes.length = k →
        leBytes k (swap (ofLeBytes bytes)) = bytes.reverse) →
      (∀ b, body b = some (.nothing, { b with buf := swapLoop k swap (b.size / k) b.buf })) →
      ∃ b', onBlob "the blob is invalid" body self blobs = some (.nothing, blobs.set self b') ∧
        onBlob "the blob is invalid" body self (blobs.set self b') = some (.nothing, blobs) ∧
        b'.size = b.size ∧ b'.ptr = b.ptr ∧
        ∀ i, b'.buf[i]? =
          b.buf[if i < b.size / k * k then i / k * k + (k - 1 - i % k) else i]? := by
    intro k swap body hk hturn hbody
    have hwords : b.size / k * k ≤ b.buf.length := (Nat.div_mul_le_self ..).trans hbuf
    refine ⟨_, onBlob_of_some hself (hbody b) _, ?_, rfl, rfl,
      getElem?_swapLoop hk hturn _ _ hwords⟩
    rw [onBlob_of_some (hset _) (hbody _), List.set_set]
    simp only [swapLoop_swapLoop hturn _ _ hwords, hrestored]
  cases hc with
  | swap2 =>
    refine hswap 2 (fun n => (swapWord (BitVec.ofNat 16 n)).toNat) (blobSwap2 sqBlob) (by decide)
      (turned (w := 16) rfl byte_swapWord) fun b => ?_
    have hnum : (b.size - b.size % 2) >>> 1 = b.size / 2 := by
      rw [Nat.shiftRight_eq_div_pow]
      omega
    show some (Reply.nothing,
      ({ b with buf := swapLoop 2 _ ((b.size - b.size % 2) >>> 1) b.buf } : SQBlob)) = _
    rw [hnum]
  | swap4 =>
    refine hswap 4 (fun n => (swapDword (BitVec.ofNat 32 n)).toNat) (blobSwap4 sqBlob) (by decide)
      (turned (w := 32) rfl byte_swapDword) fun b => ?_
    have hnum : (b.size - b.size % 4) >>> 2 = b.size / 4 := by
      rw [Nat.shiftRight_eq_div_pow]
      omega
    show some (Reply.nothing,
      ({ b with buf := swapLoop 4 _ ((b.size - b.size % 4) >>> 2) b.buf } : SQBlob)) = _
    rw [hnum]

section Sample

theorem readn_writen_sampleBlob : ∃ b', run sampleEnv sqBlob
      [.writen (.ofInteger 700) (.ofInteger 115) 0, .seek (.ofInteger 1) none 0,
        .readn (.ofInteger 115) 0] [sampleBlob] =
      some ([.nothing, .integer 0, .value (Format.s.stored sampleEnv (.ofInteger 700))],
        [sampleBlob].set 0 b') ∧
    b'.size = max 3 (1 + Format.s.size) ∧ b'.ptr = 1 + Format.s.size ∧
    ∀ i, i < 1 ∨ 1 + Format.s.size ≤ i → i < 3 → b'.buf[i]? = sampleBlob.buf[i]? :=
  readn_writen sampleEnv sampleBlob_represents rfl
    (show Format.ofInteger _ = some Format.s from by decide) rfl (.ofInteger 700)

theorem swap_turns_sampleBlob : ∃ b',
    call sampleEnv sqBlob (.swap2 0) [sampleBlob] = some (.nothing, [sampleBlob].set 0 b') ∧
    call sampleEnv sqBlob (.swap2 0) ([sampleBlob].set 0 b') = some (.nothing, [sampleBlob]) ∧
    b'.size = 3 ∧ b'.ptr = 1 ∧ ∀ i, b'.buf[i]? =
      sampleBlob.buf[if i < 3 / 2 * 2 then i / 2 * 2 + (2 - 1 - i % 2) else i]? :=
  swap_turns sampleEnv sampleBlob_represents rfl .swap2

end Sample
end Sqnim.StdLib.Blob
