import Sqnim.BaseLib.Conversion
import Sqnim.Lib.Binary64
import Sqnim.Lib.Codec
import Sqnim.Lib.Seekable

/-!
# Blobs

`SQBlob` and the functions of the blob and stream libraries, under their names without underscores.
The functions are written for a class of streams, as the virtual functions of `SQStream` let them
be; `SQBlob` is one. Allocation is taken to succeed and signed sums to wrap around. There is no
result where the code reads freed memory or gives `memcpy` or `sq_malloc` a negative size.
-/
namespace Sqnim.StdLib.Blob

open Sqnim.Lib Sqnim.Object
open Codec (leBytes ofLeBytes)

inductive Origin where
  | set | cur | fin
  deriving DecidableEq, Repr

/-- What `Write` is given: bytes of other memory, or the first bytes of the buffer of the blob
itself. -/
inductive Source where
  | other (bytes : List UInt8)
  | own (size : Nat)

def Source.size : Source → Nat
  | .other bytes => bytes.length
  | .own size => size

/-- The virtual functions of `SQStream` and what the blob library uses besides. -/
structure BlobClass (B : Type) where
  create : Nat → B
  read : Int → B → Option (List UInt8 × B)
  write : Source → B → Option B
  seek : Int → Origin → B → Int × B
  tell : B → Nat
  len : B → Nat
  eos : B → Bool
  resize : Int → B → Option B
  getBuf : B → List UInt8
  /-- what a caller of `GetBuf` stores through the pointer -/
  setBuf : List UInt8 → B → B

/-- `SQBlob`. The buffer has `allocated` bytes. -/
structure SQBlob where
  size : Nat
  allocated : Nat
  ptr : Nat
  buf : List UInt8
  deriving DecidableEq, Repr

namespace SQBlob

def create (size : Nat) : SQBlob := ⟨size, size, 0, List.replicate size 0⟩

def canAdvance (n : Int) (b : SQBlob) : Bool := !(b.ptr + n > b.size)

/-- `Resize`, to a size that is not negative; `_owns` is true. -/
def resizeTo (n : Nat) (b : SQBlob) : SQBlob :=
  if n ≠ b.allocated then
    let newbuf := List.replicate n 0
    { buf := if b.size > n then overwrite newbuf 0 (b.buf.take n)
        else overwrite newbuf 0 (b.buf.take b.size)
      allocated := n
      size := if b.size > n then n else b.size
      ptr := if b.ptr > n then n else b.ptr }
  else b

def resize (n : Int) (b : SQBlob) : Option SQBlob :=
  if n = b.allocated then some b
  else if n < 0 then none
  else some (b.resizeTo n.toNat)

def growBufOf (n : Nat) (b : SQBlob) : SQBlob :=
  let b :=
    if b.size + n > b.allocated then
      if b.size + n > b.size * 2 then b.resizeTo (b.size + n) else b.resizeTo (b.size * 2)
    else b
  { b with size := b.size + n }

/-- `memcpy` to the position. From the buffer itself it is defined if this is the buffer still and
the two parts are one or apart. -/
def copyIn (src : Source) (old b : SQBlob) : Option SQBlob :=
  match src with
  | .other bytes => some { b with buf := overwrite b.buf b.ptr bytes }
  | .own size =>
    if b.allocated ≠ old.allocated then none
    else if 0 < b.ptr ∧ b.ptr < size then none
    else some { b with buf := overwrite b.buf b.ptr (b.buf.take size) }

def write (src : Source) (b : SQBlob) : Option SQBlob := do
  let grown := if !b.canAdvance src.size then b.growBufOf (b.ptr + src.size - b.size) else b
  let b ← copyIn src b grown
  pure { b with ptr := b.ptr + src.size }

def read (size : Int) (b : SQBlob) : Option (List UInt8 × SQBlob) :=
  let memcpy (n : Int) : Option (List UInt8 × SQBlob) :=
    if n < 0 then none
    else some ((b.buf.drop b.ptr).take n.toNat, { b with ptr := b.ptr + n.toNat })
  if !b.canAdvance size then
    if (b.size : Int) - b.ptr > 0 then memcpy (b.size - b.ptr) else some ([], b)
  else memcpy size

def seek (offset : Int) (origin : Origin) (b : SQBlob) : Int × SQBlob :=
  match origin with
  | .set => if offset > b.size ∨ offset < 0 then (-1, b) else (0, { b with ptr := offset.toNat })
  | .cur =>
    if b.ptr + offset > b.size ∨ b.ptr + offset < 0 then (-1, b)
    else (0, { b with ptr := (b.ptr + offset).toNat })
  | .fin =>
    if b.size + offset > b.size ∨ b.size + offset < 0 then (-1, b)
    else (0, { b with ptr := (b.size + offset).toNat })

end SQBlob

def sqBlob : BlobClass SQBlob where
  create := SQBlob.create
  read := SQBlob.read
  write := SQBlob.write
  seek := SQBlob.seek
  tell := SQBlob.ptr
  len := SQBlob.size
  eos b := b.ptr == b.size
  resize := SQBlob.resize
  getBuf := SQBlob.buf
  setBuf buf b := { b with buf }

/-! ## Numbers in a stream -/

/-- Conversions of numbers, and the strings. -/
structure StreamEnv where
  convert : BaseLib.Conversion.ConvertEnv
  floatOfInteger : BitVec 64 → BitVec 32

variable (env : StreamEnv)

def getinteger (o : SQObject) : BitVec 64 := BaseLib.Conversion.tointeger env.convert o

def getfloat (o : SQObject) : BitVec 32 :=
  if o.type = .otInteger then env.floatOfInteger o.rawval else o.floatBits

/-- The characters that `readn` and `writen` know, for an `SQInteger`, an `SQInt32`, a short, an
unsigned short, a char, an unsigned char, a float and a double. -/
inductive Format where
  | l | i | s | w | c | b | f | d
  deriving DecidableEq, Repr

namespace Format

def char : Format → Char
  | l => 'l'
  | i => 'i'
  | s => 's'
  | w => 'w'
  | c => 'c'
  | b => 'b'
  | f => 'f'
  | d => 'd'

def all : List Format := [l, i, s, w, c, b, f, d]

def ofInteger (n : BitVec 64) : Option Format := all.find? fun fmt => n = fmt.char.toNat

def size : Format → Nat
  | l | d => 8
  | i | f => 4
  | s | w => 2
  | c | b => 1

def encode (fmt : Format) (o : SQObject) : List UInt8 :=
  match fmt with
  | l => leBytes 8 (getinteger env o).toNat
  | i => leBytes 4 ((getinteger env o).setWidth 32).toNat
  | s | w => leBytes 2 ((getinteger env o).setWidth 16).toNat
  | c | b => leBytes 1 ((getinteger env o).setWidth 8).toNat
  | f => leBytes 4 (getfloat env o).toNat
  | d => leBytes 8 (Binary64.widen (getfloat env o)).toNat

def decode (fmt : Format) (bytes : List UInt8) : SQObject :=
  match fmt with
  | l => .ofInteger (BitVec.ofNat 64 (ofLeBytes bytes))
  | i => .ofInteger ((BitVec.ofNat 32 (ofLeBytes bytes)).signExtend 64)
  | s => .ofInteger ((BitVec.ofNat 16 (ofLeBytes bytes)).signExtend 64)
  | w => .ofInteger ((BitVec.ofNat 16 (ofLeBytes bytes)).setWidth 64)
  | c => .ofInteger ((BitVec.ofNat 8 (ofLeBytes bytes)).signExtend 64)
  | b => .ofInteger ((BitVec.ofNat 8 (ofLeBytes bytes)).setWidth 64)
  | f => .ofFloat (BitVec.ofNat 32 (ofLeBytes bytes))
  | d => .ofFloat (Binary64.narrow (BitVec.ofNat 64 (ofLeBytes bytes)))

/-- The number that comes back: what the C type holds of it. -/
def stored (fmt : Format) (o : SQObject) : SQObject :=
  match fmt with
  | l => .ofInteger (getinteger env o)
  | i => .ofInteger (((getinteger env o).setWidth 32).signExtend 64)
  | s => .ofInteger (((getinteger env o).setWidth 16).signExtend 64)
  | w => .ofInteger (((getinteger env o).setWidth 16).setWidth 64)
  | c => .ofInteger (((getinteger env o).setWidth 8).signExtend 64)
  | b => .ofInteger (((getinteger env o).setWidth 8).setWidth 64)
  | f => .ofFloat (getfloat env o)
  | d => .ofFloat (Binary64.quiet (getfloat env o))

end Format

/-! ## Swapping -/

def swapDword (n : BitVec 32) : BitVec 32 :=
  ((n &&& 0xFF000000) >>> 24) ||| ((n &&& 0x00FF0000) >>> 8) ||| ((n &&& 0x0000FF00) <<< 8) |||
    ((n &&& 0x000000FF) <<< 24)

/-- `__swap_word`: the shifts are those of `int`. -/
def swapWord (n : BitVec 16) : BitVec 16 :=
  let n := n.setWidth 32
  (((n >>> 8) &&& 0x00FF).setWidth 16).setWidth 32 ||| ((n <<< 8) &&& 0xFF00) |>.setWidth 16

/-- The loop over the first `num` words of `k` bytes. -/
def swapLoop (k : Nat) (swap : Nat → Nat) : Nat → List UInt8 → List UInt8
  | 0, buf => buf
  | num + 1, buf =>
    leBytes k (swap (ofLeBytes (buf.take k))) ++ swapLoop k swap num (buf.drop k)

/-! ## The functions of the libraries -/

inductive Reply where
  | nothing
  | null
  | integer (n : Int)
  | value (o : SQObject)
  /-- a new blob, by its number -/
  | blob (id : Nat)
  | error (message : String)
  | thrown (o : SQObject)
  deriving DecidableEq, Repr

section Functions

variable {B : Type} (cls : BlobClass B)

/-- `_blob_resize`; `Resize` fails only where the buffer is not owned. -/
def blobResize (size : SQObject) (self : B) : Option (Reply × B) := do
  let self ← cls.resize (getinteger env size).toInt self
  pure (.nothing, self)

def blobSwap4 (self : B) : Option (Reply × B) :=
  let num := (cls.len self - cls.len self % 4) >>> 2
  let swap (n : Nat) := (swapDword (BitVec.ofNat 32 n)).toNat
  some (.nothing, cls.setBuf (swapLoop 4 swap num (cls.getBuf self)) self)

def blobSwap2 (self : B) : Option (Reply × B) :=
  let num := (cls.len self - cls.len self % 2) >>> 1
  let swap (n : Nat) := (swapWord (BitVec.ofNat 16 n)).toNat
  some (.nothing, cls.setBuf (swapLoop 2 swap num (cls.getBuf self)) self)

def blobSet (idx val : SQObject) (self : B) : Option (Reply × B) :=
  let i := (getinteger env idx).toInt
  if i < 0 ∨ i ≥ cls.len self then some (.error "index out of range", self)
  else
    let byte := UInt8.ofNat (getinteger env val).toNat
    some (.value val, cls.setBuf ((cls.getBuf self).set i.toNat byte) self)

def blobGet (idx : SQObject) (self : B) : Option (Reply × B) :=
  if !idx.type.isNumeric then some (.thrown .ofNull, self)
  else
    let i := (getinteger env idx).toInt
    if i < 0 ∨ i ≥ cls.len self then some (.error "index out of range", self)
    else some (.integer ((cls.getBuf self).getD i.toNat 0).toNat, self)

def blobNexti (idx : SQObject) (self : B) : Option (Reply × B) :=
  if idx.type = .otNull then some (.integer 0, self)
  else
    match BaseLib.Conversion.sqGetinteger env.convert idx with
    | some i =>
      let next := (i + 1).toInt
      some (if next < cls.len self then .integer next else .null, self)
    | none => some (.error "internal error (_nexti) wrong argument type", self)

def streamReadn (format : SQObject) (self : B) : Option (Reply × B) :=
  match Format.ofInteger (getinteger env format) with
  | none => some (.error "invalid format", self)
  | some fmt => do
    let (bytes, self) ← cls.read fmt.size self
    if bytes.length ≠ fmt.size then pure (.error "io error", self)
    else pure (.value (fmt.decode bytes), self)

def streamWriten (value format : SQObject) (self : B) : Option (Reply × B) :=
  match Format.ofInteger (getinteger env format) with
  | none => some (.error "invalid format", self)
  | some fmt => do
    let self ← cls.write (.other (fmt.encode env value)) self
    pure (.nothing, self)

def originOf (n : BitVec 64) : Option Origin :=
  if n = 'b'.toNat then some .set
  else if n = 'c'.toNat then some .cur
  else if n = 'e'.toNat then some .fin
  else none

def streamSeek (offset : SQObject) (origin : Option SQObject) (self : B) : Option (Reply × B) :=
  match origin.elim (some .set) fun t => originOf (getinteger env t) with
  | none => some (.error "invalid origin", self)
  | some origin =>
    let (n, self) := cls.seek (getinteger env offset).toInt origin self
    some (.integer n, self)

def streamTell (self : B) : Option (Reply × B) := some (.integer (cls.tell self), self)

def streamLen (self : B) : Option (Reply × B) := some (.integer (cls.len self), self)

def streamEos (self : B) : Option (Reply × B) :=
  some (if cls.eos self then .integer 1 else .null, self)

/-- `_stream_flush`; `Flush` of a blob gives zero. -/
def streamFlush (self : B) : Option (Reply × B) := some (.integer 1, self)

/-! The blobs of a script have numbers. -/

/-- The number of an instance without a blob finds none. -/
def onBlob (invalid : String) (f : B → Option (Reply × B)) (self : Nat) (blobs : List B) :
    Option (Reply × List B) :=
  match blobs[self]? with
  | none => some (.error invalid, blobs)
  | some b => do
    let (reply, b) ← f b
    pure (reply, blobs.set self b)

def blobConstructor (args : List SQObject) (blobs : List B) : Option (Reply × List B) :=
  let size := match args with
    | [size] => (getinteger env size).toInt
    | _ => 0
  if size < 0 then some (.error "cannot create blob with negative size", blobs)
  else some (.blob blobs.length, blobs ++ [cls.create size.toNat])

def filled (bytes : List UInt8) : B := cls.setBuf bytes (cls.create bytes.length)

def blobCloned (other : Nat) (blobs : List B) : Option (Reply × List B) := do
  let other ← blobs[other]?
  let bytes := (cls.getBuf other).take (cls.len other)
  pure (.blob blobs.length, blobs ++ [filled cls bytes])

def streamReadblob (size : SQObject) (self : Nat) (blobs : List B) : Option (Reply × List B) :=
  match blobs[self]? with
  | none => some (.error "the stream is invalid", blobs)
  | some b => do
    let size := (getinteger env size).toInt
    let (data, b) ← cls.read (if size > cls.len b then cls.len b else size) b
    let blobs := blobs.set self b
    if data.length = 0 then pure (.error "no data left to read", blobs)
    else pure (.blob blobs.length, blobs ++ [filled cls data])

def streamWriteblob (other self : Nat) (blobs : List B) : Option (Reply × List B) :=
  match blobs[self]? with
  | none => some (.error "the stream is invalid", blobs)
  | some b => do
    let data ← blobs[other]?
    let size := cls.len data
    let b ← cls.write
      (if other = self then .own size else .other ((cls.getBuf data).take size)) b
    pure (.integer size, blobs.set self b)

inductive Call where
  | construct (args : List SQObject)
  | cloned (other : Nat)
  | resize (size : SQObject)  (self : Nat)
  | swap4 (self : Nat)
  | swap2 (self : Nat)
  | set (idx val : SQObject) (self : Nat)
  | get (idx : SQObject) (self : Nat)
  | nexti (idx : SQObject) (self : Nat)
  | readblob (size : SQObject) (self : Nat)
  | readn (format : SQObject) (self : Nat)
  | writeblob (other self : Nat)
  | writen (value format : SQObject) (self : Nat)
  | seek (offset : SQObject) (origin : Option SQObject) (self : Nat)
  | tell (self : Nat)
  | len (self : Nat)
  | eos (self : Nat)
  | flush (self : Nat)

def call (c : Call) (blobs : List B) : Option (Reply × List B) :=
  let onStream := onBlob (B := B) "the stream is invalid"
  let onBlob := onBlob (B := B) "the blob is invalid"
  match c with
  | .construct args => blobConstructor env cls args blobs
  | .cloned other => blobCloned cls other blobs
  | .resize size self => onBlob (blobResize env cls size) self blobs
  | .swap4 self => onBlob (blobSwap4 cls) self blobs
  | .swap2 self => onBlob (blobSwap2 cls) self blobs
  | .set idx val self => onBlob (blobSet env cls idx val) self blobs
  | .get idx self => onBlob (blobGet env cls idx) self blobs
  | .nexti idx self => onBlob (blobNexti env cls idx) self blobs
  | .readblob size self => streamReadblob env cls size self blobs
  | .readn format self => onStream (streamReadn env cls format) self blobs
  | .writeblob other self => streamWriteblob cls other self blobs
  | .writen value format self => onStream (streamWriten env cls value format) self blobs
  | .seek offset origin self => onStream (streamSeek env cls offset origin) self blobs
  | .tell self => onStream (streamTell cls) self blobs
  | .len self => onStream (streamLen cls) self blobs
  | .eos self => onStream (streamEos cls) self blobs
  | .flush self => onStream streamFlush self blobs

/-- Calls one after the other; an error does not end the script. -/
def run : List Call → List B → Option (List Reply × List B)
  | [], blobs => some ([], blobs)
  | c :: cs, blobs => do
    let (reply, blobs) ← call env cls c blobs
    let (replies, blobs) ← run cs blobs
    pure (reply :: replies, blobs)

end Functions
end Sqnim.StdLib.Blob
