import Sqnim.Lib.Progress

/-!
# SQLexer

The lexer of `sqlexer.cpp` in a build without `SQUNICODE` and in the C locale. A
character is the byte that was read, shown as the Latin-1 character of its code.
-/
namespace Sqnim.Compiler

open Sqnim.Lib
open Prog (raise gets update when loop Turn)

/-- What `Lex` returns: a character, or one of the `TK_` constants. `none` is the -1 that
`_prevtoken` starts from. -/
inductive Token where
  | eob
  | none
  | ch (c : Char)
  | tkIdentifier | tkStringLiteral | tkInteger | tkFloat | tkBase | tkDelete | tkEq | tkNe | tkLe
  | tkGe | tkSwitch | tkAnd | tkOr | tkIf | tkElse | tkWhile | tkBreak | tkFor | tkDo | tkNull
  | tkForeach | tkIn | tkNewslot | tkLocal | tkClone | tkFunction | tkReturn | tkTypeof | tkPluseq
  | tkMinuseq | tkContinue | tkYield | tkTry | tkCatch | tkThrow | tkShiftl | tkShiftr | tkResume
  | tkDoubleColon | tkCase | tkDefault | tkThis | tkPlusplus | tkMinusminus | tk3wayscmp
  | tkUshiftr | tkClass | tkExtends | tkConstructor | tkInstanceof | tkVarparams | tkLine | tkFile
  | tkTrue | tkFalse | tkMuleq | tkDiveq | tkModeq | tkAttrOpen | tkAttrClose | tkStatic | tkEnum
  | tkConst | tkRawcall
  deriving DecidableEq, Repr

/-- The bytes of a string. -/
abbrev Text := List Char

/-- The table `_keywords`. -/
def keywords : List (Text × Token) :=
  [(['w', 'h', 'i', 'l', 'e'], .tkWhile), (['d', 'o'], .tkDo), (['i', 'f'], .tkIf),
    (['e', 'l', 's', 'e'], .tkElse), (['b', 'r', 'e', 'a', 'k'], .tkBreak),
    (['c', 'o', 'n', 't', 'i', 'n', 'u', 'e'], .tkContinue),
    (['r', 'e', 't', 'u', 'r', 'n'], .tkReturn), (['n', 'u', 'l', 'l'], .tkNull),
    (['f', 'u', 'n', 'c', 't', 'i', 'o', 'n'], .tkFunction),
    (['s', 'c', 'r', 'i', 'p', 't'], .tkFunction), (['l', 'o', 'c', 'a', 'l'], .tkLocal),
    (['f', 'o', 'r'], .tkFor), (['f', 'o', 'r', 'e', 'a', 'c', 'h'], .tkForeach),
    (['i', 'n'], .tkIn), (['t', 'y', 'p', 'e', 'o', 'f'], .tkTypeof),
    (['b', 'a', 's', 'e'], .tkBase), (['d', 'e', 'l', 'e', 't', 'e'], .tkDelete),
    (['t', 'r', 'y'], .tkTry), (['c', 'a', 't', 'c', 'h'], .tkCatch),
    (['t', 'h', 'r', 'o', 'w'], .tkThrow), (['c', 'l', 'o', 'n', 'e'], .tkClone),
    (['y', 'i', 'e', 'l', 'd'], .tkYield), (['r', 'e', 's', 'u', 'm', 'e'], .tkResume),
    (['s', 'w', 'i', 't', 'c', 'h'], .tkSwitch), (['c', 'a', 's', 'e'], .tkCase),
    (['d', 'e', 'f', 'a', 'u', 'l', 't'], .tkDefault), (['t', 'h', 'i', 's'], .tkThis),
    (['c', 'l', 'a', 's', 's'], .tkClass), (['e', 'x', 't', 'e', 'n', 'd', 's'], .tkExtends),
    (['c', 'o', 'n', 's', 't', 'r', 'u', 'c', 't', 'o', 'r'], .tkConstructor),
    (['i', 'n', 's', 't', 'a', 'n', 'c', 'e', 'o', 'f'], .tkInstanceof),
    (['t', 'r', 'u', 'e'], .tkTrue), (['f', 'a', 'l', 's', 'e'], .tkFalse),
    (['s', 't', 'a', 't', 'i', 'c'], .tkStatic), (['e', 'n', 'u', 'm'], .tkEnum),
    (['c', 'o', 'n', 's', 't'], .tkConst),
    (['_', '_', 'L', 'I', 'N', 'E', '_', '_'], .tkLine),
    (['_', '_', 'F', 'I', 'L', 'E', '_', '_'], .tkFile),
    (['r', 'a', 'w', 'c', 'a', 'l', 'l'], .tkRawcall)]

/-- `input` is what `_readf` has not returned yet; it returns 0 after that. `_svalue` points into
`_longstr`, which `longstr` holds without its terminator, and is read while that token is
current. -/
structure SQLexer where
  input : List UInt8
  currdata : Char
  curtoken : Token
  prevtoken : Token
  currentline : Int
  lasttokenline : Int
  currentcolumn : Int
  svalue : Text
  nvalue : Int
  fvalue : BitVec 32
  longstr : Text
  deriving DecidableEq, Repr

namespace SQLexer

/-- The lexer reports nothing. -/
abbrev LexM := Prog SQLexer Empty String Unit

/-- `SQUIRREL_EOB` as a character. -/
def eob : Char := Char.ofNat 0

/-- The bytes not looked at yet. -/
def charsLeft (l : SQLexer) : Nat := l.input.length + if l.currdata = eob then 0 else 1

instance : Supply SQLexer where
  left := charsLeft
  pending l := l.currdata ≠ eob

def maxChar : Int := 0xFF

/-- `(LexChar)t`. -/
def lexChar (t : Int) : Char := Char.ofNat (t % 256).toNat

/-- What `_readf` returns. -/
def readf : LexM Int := gets fun l => (l.input.headD 0).toNat

def next : LexM Unit := do
  let t ← readf
  when (t > maxChar) (raise "Invalid character")
  update fun l => { l with input := l.input.tail, currdata := lexChar t }

/-- The macro `NEXT`. -/
def advance : LexM Unit := do
  next
  update fun l => { l with currentcolumn := l.currentcolumn + 1 }

def curChar : LexM Char := gets currdata

def initTempString : LexM Unit := update fun l => { l with longstr := [] }

def appendText (s : Text) : LexM Unit := update fun l => { l with longstr := l.longstr ++ s }

def appendChar (c : Char) : LexM Unit := appendText [c]

def countLine : LexM Unit := update fun l => { l with currentline := l.currentline + 1 }

def setToken (t : Token) : LexM Unit :=
  update fun l => { l with prevtoken := l.curtoken, curtoken := t }

/-- Set `_nvalue` from the characters collected. -/
def setNvalue (v : Text → Int) : LexM Unit := update fun l => { l with nvalue := v l.longstr }

def setFvalue (v : Text → BitVec 32) : LexM Unit :=
  update fun l => { l with fvalue := v l.longstr }

def setSvalue : LexM Unit := update fun l => { l with svalue := l.longstr }

/-- The macro `RETURN_TOKEN`. -/
def returnToken (t : Token) : LexM (Turn Unit Token) := do
  setToken t
  pure (.done t)

/-- `toupper(c) == 'X'`, and the classes of `ctype.h`. -/
def isX (c : Char) : Bool := c = 'x' || c = 'X'

def isxdigit (c : Char) : Bool :=
  c.isDigit || ('a' ≤ c && c ≤ 'f') || ('A' ≤ c && c ≤ 'F')

def iscntrl (c : Char) : Bool := c.toNat < 32 || c.toNat = 127

def scisodigit (c : Char) : Bool := '0' ≤ c && c ≤ '7'

def isexponent (c : Char) : Bool := c = 'e' || c = 'E'

def lexBlockComment : LexM Unit :=
  loop (fun _ => do
    let c ← curChar
    if c = eob then raise "missing \"*/\" in comment"
    else if c = '*' then do
      advance
      if (← curChar) = '/' then do
        advance
        pure (.done ())
      else pure (.again ())
    else do
      when (c = '\n') countLine
      advance
      pure (.again ())) ()

/-- The characters of a line comment after its first one. -/
def skipLine : LexM Unit :=
  loop (fun _ => do
    let c ← curChar
    if c ≠ '\n' ∧ c ≠ eob then do
      advance
      pure (.again ())
    else pure (.done ())) ()

def lexLineComment : LexM Unit := do
  advance
  skipLine

def hexDigit (c : Char) : Nat :=
  if c.isDigit then c.toNat - '0'.toNat
  else if 'a' ≤ c then c.toNat - 'a'.toNat + 10
  else c.toNat - 'A'.toNat + 10

/-- Digits read in a base, in a machine word. -/
def digits (base : Nat) (s : Text) : Nat :=
  s.foldl (fun res c => (res * base + hexDigit c) % 2 ^ 64) 0

/-- A machine word read as `SQInteger`. -/
def toSQInteger (n : Nat) : Int := if n < 2 ^ 63 then n else (n : Int) - 2 ^ 64

/-- `AddUTF8`: the bytes of a code, none above 0x10FFFF. -/
def addUTF8 (ch : Nat) : Text :=
  if ch < 0x80 then [Char.ofNat ch]
  else if ch < 0x800 then [Char.ofNat (ch / 64 ||| 0xC0), Char.ofNat (ch % 64 ||| 0x80)]
  else if ch < 0x10000 then
    [Char.ofNat (ch / 4096 ||| 0xE0), Char.ofNat (ch / 64 % 64 ||| 0x80),
      Char.ofNat (ch % 64 ||| 0x80)]
  else if ch < 0x110000 then
    [Char.ofNat (ch / 262144 ||| 0xF0), Char.ofNat (ch / 4096 % 64 ||| 0x80),
      Char.ofNat (ch / 64 % 64 ||| 0x80), Char.ofNat (ch % 64 ||| 0x80)]
  else []

/-- The digits after `\x`, `\u` or `\U`, as the value of `strtoul` on them. -/
def processStringHexEscape (maxdigits : Nat) : LexM Nat := do
  advance
  when (!isxdigit (← curChar)) (raise "hexadecimal number expected")
  let dest ← loop (fun dest => do
    let c ← curChar
    if isxdigit c ∧ dest.length < maxdigits then do
      advance
      pure (.again (dest ++ [c]))
    else pure (.done dest)) []
  pure (digits 16 dest)

/-- The escapes that stand for one character. -/
def escapes : List (Char × Char) :=
  [('t', '\t'), ('a', Char.ofNat 7), ('b', Char.ofNat 8), ('n', '\n'), ('r', '\r'),
    ('v', Char.ofNat 11), ('f', Char.ofNat 12), ('0', Char.ofNat 0), ('\\', '\\'), ('"', '"'),
    ('\'', '\'')]

/-- What follows a backslash in a string that is not verbatim. -/
def escapeSequence : LexM Unit := do
  let c ← curChar
  if c = 'x' then do
    let n ← processStringHexEscape 2
    appendChar (Char.ofNat n)
  else if c = 'U' ∨ c = 'u' then do
    let n ← processStringHexEscape (if c = 'u' then 4 else 8)
    appendText (addUTF8 n)
  else if (escapes.lookup c).isSome then do
    appendChar ((escapes.lookup c).getD c)
    advance
  else raise "unrecognised escaper char"

/-- The characters up to the closing delimiter. -/
def stringBody (ndelim : Char) (verbatim : Bool) : LexM Unit :=
  loop (fun _ => do
    let x ← curChar
    if x = ndelim then pure (.done ())
    else if x = eob then raise "unfinished string"
    else if x = '\n' then do
      when (!verbatim) (raise "newline in a constant")
      appendChar x
      advance
      countLine
      pure (.again ())
    else if x = '\\' ∧ !verbatim then do
      advance
      escapeSequence
      pure (.again ())
    else do
      appendChar x
      advance
      pure (.again ())) ()

/-- The value of a character constant: `_longstr[0]`, a signed `char`. -/
def charConstant (c : Char) : Int := if c.toNat < 128 then c.toNat else (c.toNat : Int) - 256

/-- The tail of `ReadString`, after its closing delimiter. -/
def stringToken (ndelim : Char) : LexM Token := do
  let s ← gets longstr
  if ndelim = '\'' then do
    when (s.length = 0) (raise "empty constant")
    when (s.length > 1) (raise "constant too long")
    setNvalue fun s => charConstant (s.headD eob)
    pure .tkInteger
  else do
    setSvalue
    pure .tkStringLiteral

/-- A turn of the outer loop of `ReadString`. -/
def stringPiece (ndelim : Char) (verbatim : Bool) : LexM (Turn Unit Unit) := do
  stringBody ndelim verbatim
  advance
  let c ← curChar
  -- a doubled quote stands for one in a verbatim string
  if verbatim ∧ c = '"' then do
    appendChar c
    advance
    pure (.again ())
  else pure (.done ())

/-- `ReadString`; at the end of the input it returns -1, for which `Lex` raises the error. -/
def readString (ndelim : Char) (verbatim : Bool) : LexM Token := do
  initTempString
  advance
  when ((← curChar) = eob) (raise "error parsing the string")
  loop (fun _ => stringPiece ndelim verbatim) ()
  stringToken ndelim

def readWhile (p : Char → Bool) : LexM Unit :=
  loop (fun _ => do
    let c ← curChar
    if p c then do
      appendChar c
      advance
      pure (.again ())
    else pure (.done ())) ()

def maxHexDigits : Nat := 16

/-- `TINT`, `TFLOAT` and `TSCIENTIFIC`. -/
inductive NumberType where
  | tint | tfloat | tscientific
  deriving DecidableEq, Repr

/-- The sign and the first digit of an exponent. -/
def readExponent : LexM Unit := do
  appendChar (← curChar)
  advance
  let c ← curChar
  when (c = '+' ∨ c = '-') (do
    appendChar c
    advance)
  when (!(← curChar).isDigit) (raise "exponent expected")

/-- The loop over a number that is neither octal nor hexadecimal. Any exponent passes the check of
its format, because the type was just set to `TFLOAT`. -/
def readDecimal : LexM NumberType :=
  loop (fun type => do
    let c ← curChar
    if isexponent c then do
      readExponent
      appendChar (← curChar)
      advance
      pure (.again .tscientific)
    else if c = '.' ∨ c.isDigit then do
      appendChar c
      advance
      pure (.again (if c = '.' then .tfloat else type))
    else pure (.done type)) .tint

/-- `ReadNumber`; `strtod` is the C function, its result narrowed to `SQFloat`. -/
def readNumber (strtod : Text → BitVec 32) : LexM Token := do
  let firstchar ← curChar
  initTempString
  advance
  let c ← curChar
  if firstchar = '0' ∧ scisodigit c then do
    readWhile scisodigit
    when (← curChar).isDigit (raise "invalid octal number")
    setNvalue fun s => toSQInteger (digits 8 s)
    pure .tkInteger
  else if firstchar = '0' ∧ isX c then do
    advance
    readWhile isxdigit
    when ((← gets longstr).length > maxHexDigits) (raise "too many digits for an Hex number")
    setNvalue fun s => toSQInteger (digits 16 s)
    pure .tkInteger
  else do
    appendChar firstchar
    if (← readDecimal) = .tint then do
      setNvalue fun s => toSQInteger (digits 10 s)
      pure .tkInteger
    else do
      setFvalue strtod
      pure .tkFloat

/-- `GetIDType`. -/
def getIDType (s : Text) : Token := (keywords.lookup s).getD .tkIdentifier

def readID : LexM Token := do
  initTempString
  appendChar (← curChar)
  advance
  readWhile fun c => c.isAlphanum || c = '_'
  let s ← gets longstr
  when (getIDType s = .tkIdentifier ∨ getIDType s = .tkConstructor) setSvalue
  pure (getIDType s)

/-- A token of one character, or of two if `c` follows. -/
def oneOrTwo (one : Token) (c : Char) (two : Token) : LexM (Turn Unit Token) := do
  advance
  if (← curChar) = c then do
    advance
    returnToken two
  else returnToken one

def setColumn (n : Int) : LexM Unit := update fun l => { l with currentcolumn := n }

def lexNewline : LexM (Turn Unit Token) := do
  countLine
  setToken (.ch '\n')
  advance
  setColumn 1
  pure (.again ())

def lexSlash : LexM (Turn Unit Token) := do
  advance
  let c ← curChar
  if c = '*' then do
    advance
    lexBlockComment
    pure (.again ())
  else if c = '/' then do
    lexLineComment
    pure (.again ())
  else if c = '=' then do
    advance
    returnToken .tkDiveq
  else if c = '>' then do
    advance
    returnToken .tkAttrClose
  else returnToken (.ch '/')

def lexLess : LexM (Turn Unit Token) := do
  advance
  let c ← curChar
  if c = '=' then oneOrTwo .tkLe '>' .tk3wayscmp
  else if c = '-' then do
    advance
    returnToken .tkNewslot
  else if c = '<' then do
    advance
    returnToken .tkShiftl
  else if c = '/' then do
    advance
    returnToken .tkAttrOpen
  else returnToken (.ch '<')

def lexGreater : LexM (Turn Unit Token) := do
  advance
  let c ← curChar
  if c = '=' then do
    advance
    returnToken .tkGe
  else if c = '>' then oneOrTwo .tkShiftr '>' .tkUshiftr
  else returnToken (.ch '>')

def lexAt : LexM (Turn Unit Token) := do
  advance
  if (← curChar) ≠ '"' then returnToken (.ch '@')
  else do
    let stype ← readString '"' true
    returnToken stype

def lexDot : LexM (Turn Unit Token) := do
  advance
  if (← curChar) ≠ '.' then returnToken (.ch '.')
  else do
    advance
    when ((← curChar) ≠ '.') (raise "invalid token '..'")
    advance
    returnToken .tkVarparams

/-- A sign, alone, before `=`, or doubled. -/
def lexSign (sign : Char) (eq double : Token) : LexM (Turn Unit Token) := do
  advance
  let c ← curChar
  if c = '=' then do
    advance
    returnToken eq
  else if c = sign then do
    advance
    returnToken double
  else returnToken (.ch sign)

def punctuation : List Char := ['{', '}', '(', ')', '[', ']', ';', ',', '?', '^', '~']

/-- The default case of the switch of `Lex`, and the one-character tokens. -/
def lexOther (strtod : Text → BitVec 32) (c : Char) : LexM (Turn Unit Token) :=
  if c ∈ punctuation then do
    advance
    returnToken (.ch c)
  else if c.isDigit then do
    let ret ← readNumber strtod
    returnToken ret
  else if c.isAlpha ∨ c = '_' then do
    let t ← readID
    returnToken t
  else do
    when (iscntrl c) (raise "unexpected character(control)")
    advance
    returnToken (.ch c)

def startToken : LexM Unit := update fun l => { l with lasttokenline := l.currentline }

/-- A turn of the loop of `Lex`. -/
def lexTurn (strtod : Text → BitVec 32) : LexM (Turn Unit Token) := do
  let c ← curChar
  if c = eob then pure (.done .eob)
  else if c = '\t' ∨ c = '\r' ∨ c = ' ' then do
    advance
    pure (.again ())
  else if c = '\n' then lexNewline
  else if c = '#' then do
    lexLineComment
    pure (.again ())
  else if c = '/' then lexSlash
  else if c = '=' then oneOrTwo (.ch '=') '=' .tkEq
  else if c = '<' then lexLess
  else if c = '>' then lexGreater
  else if c = '!' then oneOrTwo (.ch '!') '=' .tkNe
  else if c = '@' then lexAt
  else if c = '"' ∨ c = '\'' then do
    let stype ← readString c false
    returnToken stype
  else if c = '.' then lexDot
  else if c = '&' then oneOrTwo (.ch '&') '&' .tkAnd
  else if c = '|' then oneOrTwo (.ch '|') '|' .tkOr
  else if c = ':' then oneOrTwo (.ch ':') ':' .tkDoubleColon
  else if c = '*' then oneOrTwo (.ch '*') '=' .tkMuleq
  else if c = '%' then oneOrTwo (.ch '%') '=' .tkModeq
  else if c = '-' then lexSign '-' .tkMinuseq .tkMinusminus
  else if c = '+' then lexSign '+' .tkPluseq .tkPlusplus
  else lexOther strtod c

def lex (strtod : Text → BitVec 32) : LexM Token := do
  startToken
  loop (fun _ => lexTurn strtod) ()

/-- The lexer after `Init`, before its first `Next`; `_curtoken` and the values have no value
yet. -/
def init (input : List UInt8) (curtoken : Token) (nvalue : Int) (fvalue : BitVec 32) : SQLexer where
  input
  currdata := eob
  curtoken
  prevtoken := .none
  currentline := 1
  lasttokenline := 1
  currentcolumn := 0
  svalue := []
  nvalue
  fvalue
  longstr := []

end SQLexer
end Sqnim.Compiler
