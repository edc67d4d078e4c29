import Sqnim.Lib.Codec
import Sqnim.Vm.Compare

/-!
# Serialised function prototypes

`SQFunctionProto::Save` and `SQFunctionProto::Load` of `sqobject.cpp`, with the
functions that they call. The callbacks transfer exactly the bytes they are
given: writing appends to what has been written, and a read that the stream
cannot serve is short. Words are little-endian.
-/
namespace Sqnim.Bytecode

open Sqnim.Lib.Codec
open Sqnim.Object
open SQObjectType
open Sqnim.Vm.Compare (typeName)

/-- The characters of an `SQString`, whose length is an `SQInteger`. -/
structure Text where
  chars : List UInt8
  short : chars.length < 2 ^ 63
  deriving DecidableEq

/-- The types that `WriteObject` and `ReadObject` know. -/
def serializable : SQObjectType → Bool
  | otNull | otBool | otInteger | otFloat | otString => true
  | _ => false

/-- A value that a prototype refers to. A bool keeps the integer that its union holds. -/
inductive Constant where
  | null
  | bool (n : BitVec 64)
  | integer (n : BitVec 64)
  | float (f : BitVec 32)
  | string (s : Text)
  | object (t : SQObjectType) (other : serializable t = false) (o : BitVec 64)
  deriving DecidableEq

def Constant.type : Constant → SQObjectType
  | null => otNull
  | bool _ => otBool
  | integer _ => otInteger
  | float _ => otFloat
  | string _ => otString
  | object t _ _ => t

/-- An `SQOuterType` and the four bytes that the alignment leaves behind it. -/
structure SQOuterVar where
  type : BitVec 32
  padding : BitVec 32
  name : Constant
  src : Constant
  deriving DecidableEq

def otLocal : BitVec 32 := 0
def otOuter : BitVec 32 := 1

structure SQLocalVarInfo where
  name : Constant
  startOp : BitVec 64
  endOp : BitVec 64
  pos : BitVec 64
  deriving DecidableEq

structure SQLineInfo where
  line : BitVec 64
  op : BitVec 64
  deriving DecidableEq

/-- The eight bytes of an instruction, in the order of memory. -/
structure SQInstruction where
  arg1 : BitVec 32
  op : BitVec 8
  arg0 : BitVec 8
  arg2 : BitVec 8
  arg3 : BitVec 8
  deriving DecidableEq

structure Counts where
  nliterals : Nat
  nparameters : Nat
  noutervalues : Nat
  nlocalvarinfos : Nat
  nlineinfos : Nat
  ndefaultparams : Nat
  ninstructions : Nat
  nfunctions : Nat
  deriving DecidableEq, Repr

/-- `_FUNC_SIZE`, without the part of the object itself. -/
def Counts.size (n : Counts) : Nat :=
  n.ninstructions * 8 + n.nliterals * 16 + n.nparameters * 16 + n.nfunctions * 16 +
    n.noutervalues * 40 + n.nlineinfos * 16 + n.nlocalvarinfos * 40 + n.ndefaultparams * 8

/-- The members of a prototype that are not functions. -/
structure Members (n : Counts) where
  sourcename : Constant
  name : Constant
  literals : List.Vector Constant n.nliterals
  parameters : List.Vector Constant n.nparameters
  outervalues : List.Vector SQOuterVar n.noutervalues
  localvarinfos : List.Vector SQLocalVarInfo n.nlocalvarinfos
  lineinfos : List.Vector SQLineInfo n.nlineinfos
  defaultparams : List.Vector (BitVec 64) n.ndefaultparams
  instructions : List.Vector SQInstruction n.ninstructions
  stacksize : BitVec 64
  bgenerator : Bool
  varparams : BitVec 64

/-- A prototype is one allocation, whose size is an `SQInteger`. -/
inductive SQFunctionProto where
  | mk (n : Counts) (allocated : n.size < 2 ^ 63) (members : Members n)
    (functions : Fin n.nfunctions → SQFunctionProto)

namespace SQFunctionProto

def counts : SQFunctionProto → Counts
  | mk n _ _ _ => n

def members : (p : SQFunctionProto) → Members p.counts
  | mk _ _ members _ => members

/-- How deep functions are nested in functions. -/
def depth : SQFunctionProto → Nat
  | mk n _ _ functions => (Finset.univ.sup fun i : Fin n.nfunctions => (functions i).depth) + 1

end SQFunctionProto

/-- Why `Save` or `Load` returns false: `Raise_Error` with a text. The other two are outside the
source: the behaviour is undefined, or the model's bound on the nesting is reached. -/
inductive Fault where
  | raised (text : String)
  | undefined
  | depth
  deriving DecidableEq, Repr

def readFailure : Fault :=
  .raised "io error, read function failure, the origin stream could be corrupted/trucated"

def corrupted : Fault := .raised "invalid or corrupted closure stream"

def closureStreamHead : BitVec 32 := 0x53514952
def closureStreamPart : BitVec 32 := 0x50415254
def closureStreamTail : BitVec 32 := 0x5441494C

section Write

def writeTag (tag : BitVec 32) : Put Fault := putWord tag

def writeInteger (n : BitVec 64) : Put Fault := putWord n

def writeCount (n : Nat) : Put Fault := writeInteger (BitVec.ofNat 64 n)

/-- What follows the type of an object. -/
def writePayload : Constant → Put Fault
  | .null => puts []
  | .bool n | .integer n => puts [writeInteger n]
  | .float f => puts [putWord f]
  | .string s => puts [writeCount s.chars.length, .ok s.chars]
  | .object t _ _ => .error (.raised ("cannot serialize a " ++ typeName t))

def writeObject (o : Constant) : Put Fault := puts [putWord o.type.code, writePayload o]

/-- Eight bytes from the address of the type. -/
def writeOuterVar (ov : SQOuterVar) : Put Fault :=
  puts [putWord (ov.padding ++ ov.type), writeObject ov.src, writeObject ov.name]

def writeLocalVarInfo (lvi : SQLocalVarInfo) : Put Fault :=
  puts [writeObject lvi.name, writeInteger lvi.pos, writeInteger lvi.startOp,
    writeInteger lvi.endOp]

def writeLineInfo (li : SQLineInfo) : Put Fault := puts [writeInteger li.line, writeInteger li.op]

def writeInstruction (i : SQInstruction) : Put Fault :=
  puts [putWord i.arg1, putWord i.op, putWord i.arg0, putWord i.arg2, putWord i.arg3]

def writeArray {α : Type} {n : Nat} (write : α → Put Fault) (v : List.Vector α n) : Put Fault :=
  puts (v.toList.map write)

def writeCounts (n : Counts) : Put Fault :=
  puts [writeCount n.nliterals, writeCount n.nparameters, writeCount n.noutervalues,
    writeCount n.nlocalvarinfos, writeCount n.nlineinfos, writeCount n.ndefaultparams,
    writeCount n.ninstructions, writeCount n.nfunctions]

def SQFunctionProto.save : SQFunctionProto → Put Fault
  | .mk n _ p functions =>
    puts [writeTag closureStreamPart,
      writeObject p.sourcename,
      writeObject p.name,
      writeTag closureStreamPart,
      writeCounts n,
      writeTag closureStreamPart,
      writeArray writeObject p.literals,
      writeTag closureStreamPart,
      writeArray writeObject p.parameters,
      writeTag closureStreamPart,
      writeArray writeOuterVar p.outervalues,
      writeTag closureStreamPart,
      writeArray writeLocalVarInfo p.localvarinfos,
      writeTag closureStreamPart,
      writeArray writeLineInfo p.lineinfos,
      writeTag closureStreamPart,
      writeArray writeInteger p.defaultparams,
      writeTag closureStreamPart,
      writeArray writeInstruction p.instructions,
      writeTag closureStreamPart,
      puts (List.ofFn fun i => (functions i).save),
      writeInteger p.stacksize,
      putWord (if p.bgenerator then 1#8 else 0#8),
      writeInteger p.varparams]

end Write

section Read

def checkTag (tag : BitVec 32) : Get Fault Unit := do
  let t ← getWord readFailure 32
  if t = tag then pure () else throw corrupted

def readInteger : Get Fault (BitVec 64) := getWord readFailure 64

/-- As a natural, a negative length is longer than any stream. -/
def readChars (len : BitVec 64) : Get Fault Text := do
  let chars ← getBytes readFailure len.toNat
  if h : chars.length < 2 ^ 63 then pure ⟨chars, h⟩ else throw .undefined

/-- The name that `IdType2Name` finds for a type that was read, or a null pointer. -/
def unserializable (type : BitVec 32) : Fault :=
  match SQObjectType.all.find? fun t => t.rawType == type &&& 0x00FFFFFF with
  | some t => .raised ("cannot serialize a " ++ typeName t)
  | none => .undefined

def readPayload (type : BitVec 32) : Get Fault Constant :=
  if type = otString.code then do
    let len ← readInteger
    let s ← readChars len
    pure (.string s)
  else if type = otInteger.code then do
    let i ← readInteger
    pure (.integer i)
  else if type = otBool.code then do
    let i ← readInteger
    pure (.bool i)
  else if type = otFloat.code then do
    let f ← getWord readFailure 32
    pure (.float f)
  else if type = otNull.code then
    pure .null
  else
    throw (unserializable type)

def readObject : Get Fault Constant := do
  let type ← getWord readFailure 32
  readPayload type

/-- The kind is read as eight bytes and converted to the enumeration. The bytes behind it keep what
the memory held. -/
def readOuterVar (memory : BitVec 32) : Get Fault SQOuterVar := do
  let type ← getWord readFailure 64
  let src ← readObject
  let name ← readObject
  pure ⟨type.setWidth 32, memory, name, src⟩

def readLocalVarInfo : Get Fault SQLocalVarInfo := do
  let name ← readObject
  let pos ← readInteger
  let startOp ← readInteger
  let endOp ← readInteger
  pure ⟨name, startOp, endOp, pos⟩

def readLineInfo : Get Fault SQLineInfo := do
  let line ← readInteger
  let op ← readInteger
  pure ⟨line, op⟩

def readInstruction : Get Fault SQInstruction := do
  let arg1 ← getWord readFailure 32
  let op ← getWord readFailure 8
  let arg0 ← getWord readFailure 8
  let arg2 ← getWord readFailure 8
  let arg3 ← getWord readFailure 8
  pure ⟨arg1, op, arg0, arg2, arg3⟩

/-- `SQFunctionProto::Create` with a negative count, or with a size that no allocation has, is
undefined. As naturals, both are too large. -/
def create (n : Counts) : Get Fault (PLift (n.size < 2 ^ 63)) :=
  if h : n.size < 2 ^ 63 then pure ⟨h⟩ else throw .undefined

def readCount : Get Fault Nat := do
  let n ← readInteger
  pure n.toNat

def readCounts : Get Fault Counts := do
  let nliterals ← readCount
  let nparameters ← readCount
  let noutervalues ← readCount
  let nlocalvarinfos ← readCount
  let nlineinfos ← readCount
  let ndefaultparams ← readCount
  let ninstructions ← readCount
  let nfunctions ← readCount
  pure ⟨nliterals, nparameters, noutervalues, nlocalvarinfos, nlineinfos, ndefaultparams,
    ninstructions, nfunctions⟩

def readBool : Get Fault Bool := do
  let b ← getWord readFailure 8
  pure (b != 0)

/-- `memory` is what the padding of an outer variable holds before it is constructed. `depth` bounds
the nesting, which the source leaves to the C++ stack. -/
def load (memory : BitVec 32) : Nat → Get Fault SQFunctionProto
  | 0 => throw .depth
  | depth + 1 => do
    checkTag closureStreamPart
    let sourcename ← readObject
    let name ← readObject
    checkTag closureStreamPart
    let n ← readCounts
    let allocated ← create n
    checkTag closureStreamPart
    let literals ← repeatGet readObject n.nliterals
    checkTag closureStreamPart
    let parameters ← repeatGet readObject n.nparameters
    checkTag closureStreamPart
    let outervalues ← repeatGet (readOuterVar memory) n.noutervalues
    checkTag closureStreamPart
    let localvarinfos ← repeatGet readLocalVarInfo n.nlocalvarinfos
    checkTag closureStreamPart
    let lineinfos ← repeatGet readLineInfo n.nlineinfos
    checkTag closureStreamPart
    let defaultparams ← repeatGet readInteger n.ndefaultparams
    checkTag closureStreamPart
    let instructions ← repeatGet readInstruction n.ninstructions
    checkTag closureStreamPart
    let functions ← repeatGet (load memory depth) n.nfunctions
    let stacksize ← readInteger
    let bgenerator ← readBool
    let varparams ← readInteger
    pure (.mk n allocated.down ⟨sourcename, name, literals, parameters, outervalues, localvarinfos,
      lineinfos, defaultparams, instructions, stacksize, bgenerator, varparams⟩ functions.get)

end Read

end Sqnim.Bytecode
