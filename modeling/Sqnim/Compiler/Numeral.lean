import Sqnim.Compiler.LexString

/-!
# Integer literals

The numerals of the three bases, and the runs of `ReadNumber` on them.
-/
namespace Sqnim.Compiler.SQLexer

open Sqnim.Lib
open Prog (raise gets update when loop Turn)

/-! ## Digits -/

/-- The number that digits stand for. -/
def horner (base : Nat) (s : Text) : Nat := s.foldl (fun res c => res * base + hexDigit c) 0

theorem foldl_digits (base : Nat) (s : Text) (a : Nat) :
    s.foldl (fun res c => (res * base + hexDigit c) % 2 ^ 64) (a % 2 ^ 64) =
      s.foldl (fun res c => res * base + hexDigit c) a % 2 ^ 64 := by
  induction s generalizing a with
  | nil => rfl
  | cons c s ih =>
    have hstep : (a % 2 ^ 64 * base + hexDigit c) % 2 ^ 64 = (a * base + hexDigit c) % 2 ^ 64 := by
      rw [Nat.add_mod, Nat.mul_mod, Nat.mod_mod, ← Nat.mul_mod, ← Nat.add_mod]
    rw [List.foldl_cons, List.foldl_cons, hstep]
    exact ih _

/-- `LexInteger`, `LexOctal` and `LexHexadecimal` wrap. -/
theorem digits_eq (base : Nat) (s : Text) : digits base s = horner base s % 2 ^ 64 :=
  foldl_digits base s 0

/-! ## Numerals -/

inductive Base where
  | decimal
  | octal
  /-- After `0X`, or after `0x`. -/
  | hexadecimal (upper : Bool)
  deriving DecidableEq, Repr

namespace Base

def radix : Base → Nat
  | decimal => 10
  | octal => 8
  | hexadecimal _ => 16

/-- What stands before the digits. -/
def mark : Base → List UInt8
  | decimal => []
  | octal => [48]
  | hexadecimal upper => [48, if upper then 88 else 120]

def digit : Base → Char → Bool
  | decimal => Char.isDigit
  | octal => scisodigit
  | hexadecimal _ => isxdigit

/-- A character that the loop over the digits would read, or reject, as a part of the number. -/
def goesOn : Base → Char → Bool
  | decimal => fun c => c.isDigit || c = '.' || isexponent c
  | octal => Char.isDigit
  | hexadecimal _ => isxdigit

end Base

/-- A decimal numeral of more than one digit does not start with a zero. -/
structure Numeral where
  base : Base
  first : UInt8
  others : List UInt8
  valid : ∀ d ∈ first :: others, base.digit (byteChar d) = true
  leading : base = .decimal → first = 48 → others = []

namespace Numeral

variable (n : Numeral)

def text : List UInt8 := n.base.mark ++ n.first :: n.others

def value : Nat := horner n.base.radix ((n.first :: n.others).map byteChar)

/-- The numeral ends where this text follows. -/
structure Ends (rest : List UInt8) : Prop where
  stop : n.base.goesOn (byteChar (rest.headD 0)) = false
  notHex : n.base = .decimal → n.first = 48 → isX (byteChar (rest.headD 0)) = false

/-- `MAX_HEX_DIGITS` bounds the digits after `0x`, leading zeros included. -/
def TooLong : Prop := n.base ≠ .decimal ∧ n.base ≠ .octal ∧ maxHexDigits ≤ n.others.length

instance : Decidable n.TooLong := inferInstanceAs (Decidable (_ ∧ _ ∧ _))

end Numeral

/-! ## Loops that collect characters -/

section Collect

variable {β γ : Type} {step : β → LexM (Turn β γ)} {x : β}

/-- A turn that keeps the character it looks at. -/
def Keeps (step : β → LexM (Turn β γ)) (x : β) (c : Char) : Prop :=
  ∀ l : SQLexer, l.currdata = c →
    Prog.run (step x) l = (.ok (.again x), forward { l with longstr := l.longstr ++ [c] })

theorem rounds_keep (ds rest : List UInt8) (hds : ∀ d ∈ ds, Keeps step x (byteChar d))
    (l : SQLexer) (hl : l.At (ds ++ rest)) : ∃ l' : SQLexer,
      Rounds step x l x l' ∧ l'.At rest ∧ l'.longstr = l.longstr ++ ds.map byteChar := by
  induction ds generalizing l with
  | nil => exact ⟨l, .refl x l, hl, (List.append_nil _).symm⟩
  | cons d ds ih =>
    have hturn := hds d List.mem_cons_self l (At.curChar hl)
    have hnext : (forward { l with longstr := l.longstr ++ [byteChar d] }).At (ds ++ rest) :=
      At.forward (l := { l with longstr := _ }) ⟨hl.currdata, hl.input⟩
    obtain ⟨l', hrest, hat, hlong⟩ :=
      ih (fun d' hd' => hds d' (List.mem_cons_of_mem d hd')) _ hnext
    refine ⟨l', .again hturn hrest, hat, ?_⟩
    rw [hlong, List.map_cons]
    exact List.append_assoc _ _ _

end Collect

/-- A turn of the loops over octal and hexadecimal digits. -/
def whileTurn (p : Char → Bool) : LexM (Turn Unit Unit) := do
  let c ← SQLexer.curChar
  if p c then do
    appendChar c
    advance
    pure (.again ())
  else pure (.done ())

theorem run_readWhile (p : Char → Bool) (ds rest : List UInt8) (hp : p eob = false)
    (hds : ∀ d ∈ ds, p (byteChar d) = true) (hstop : p (byteChar (rest.headD 0)) = false)
    (l : SQLexer) (hl : l.At (ds ++ rest)) : ∃ l' : SQLexer,
      Prog.run (readWhile p) l = (.ok (), l') ∧ l'.At rest ∧
        l'.longstr = l.longstr ++ ds.map byteChar := by
  have hkeep : ∀ d ∈ ds, Keeps (fun _ => whileTurn p) () (byteChar d) := by
    intro d hd m hm
    rw [whileTurn, SQLexer.curChar, Prog.run_gets_bind, hm, if_pos (hds d hd), Prog.run_bind,
      run_appendChar, Prog.after_ok, Prog.run_bind, run_advance]
    rfl
  obtain ⟨l', hrounds, hat, hlong⟩ := rounds_keep ds rest hkeep l hl
  have hlast : Prog.run (whileTurn p) l' = (.ok (.done ()), l') := by
    rw [whileTurn, SQLexer.curChar, Prog.run_gets_bind, hat.currdata,
      if_neg (Bool.eq_false_iff.mp hstop)]
    rfl
  have : ∀ b, Ends b .start (readWhile p : LexM Unit) := fun b => readWhile_ends p hp
  exact ⟨l', hrounds.run_loop hlast (enough (readWhile p) l), hat, hlong⟩

/-- A turn of the loop over a decimal number. -/
def decimalTurn (type : NumberType) : LexM (Turn NumberType NumberType) := do
  let c ← SQLexer.curChar
  if isexponent c then do
    readExponent
    appendChar (← SQLexer.curChar)
    advance
    pure (.again .tscientific)
  else if c = '.' ∨ c.isDigit then do
    appendChar c
    advance
    pure (.again (if c = '.' then .tfloat else type))
  else pure (.done type)

theorem ne_of_isDigit {c x : Char} (h : c.isDigit = true) (hx : x.isDigit = false) : c ≠ x := by
  intro hc
  rw [hc, hx] at h
  cases h

theorem run_readDecimal (ds rest : List UInt8) (hds : ∀ d ∈ ds, (byteChar d).isDigit = true)
    (hstop : Base.decimal.goesOn (byteChar (rest.headD 0)) = false) (l : SQLexer)
    (hl : l.At (ds ++ rest)) : ∃ l' : SQLexer,
      Prog.run readDecimal l = (.ok .tint, l') ∧ l'.At rest ∧
        l'.longstr = l.longstr ++ ds.map byteChar := by
  have hkeep : ∀ d ∈ ds, Keeps decimalTurn .tint (byteChar d) := by
    intro d hd m hm
    have hdigit := hds d hd
    have hexp : ¬ isexponent (byteChar d) = true := by
      have he := ne_of_isDigit hdigit (x := 'e') rfl
      have hE := ne_of_isDigit hdigit (x := 'E') rfl
      simp [isexponent, he, hE]
    rw [decimalTurn, SQLexer.curChar, Prog.run_gets_bind, hm, if_neg hexp, if_pos (.inr hdigit),
      if_neg (ne_of_isDigit hdigit rfl), Prog.run_bind, run_appendChar, Prog.after_ok,
      Prog.run_bind, run_advance]
    rfl
  obtain ⟨l', hrounds, hat, hlong⟩ := rounds_keep ds rest hkeep l hl
  simp only [Base.goesOn, Bool.or_eq_false_iff, decide_eq_false_iff_not] at hstop
  obtain ⟨⟨hdigit, hdot⟩, hexp⟩ := hstop
  have hlast : Prog.run (decimalTurn .tint) l' = (.ok (.done .tint), l') := by
    rw [decimalTurn, SQLexer.curChar, Prog.run_gets_bind, hat.currdata,
      if_neg (Bool.eq_false_iff.mp hexp),
      if_neg (not_or.mpr ⟨hdot, Bool.eq_false_iff.mp hdigit⟩)]
    rfl
  exact ⟨l', hrounds.run_loop hlast (enough readDecimal l), hat, hlong⟩

/-! ## `ReadNumber` on a numeral -/

section Numeral

variable {n : Numeral} {rest : List UInt8} {l : SQLexer}

theorem Numeral.others_valid (n : Numeral) : ∀ d ∈ n.others, n.base.digit (byteChar d) = true :=
  fun d hd => n.valid d (List.mem_cons_of_mem n.first hd)

/-- The number is read, or has too many digits. -/
structure NumeralRead (n : Numeral) (rest : List UInt8) (m : LexM Token) (l : SQLexer) : Prop where
  found : ¬ n.TooLong → ∃ l' : SQLexer, Prog.run m l = (.ok .tkInteger, l') ∧ l'.At rest ∧
    l'.nvalue = toSQInteger (n.value % 2 ^ 64)
  tooLong : n.TooLong → ∃ l' : SQLexer,
    Prog.run m l = (.error (.raised "too many digits for an Hex number"), l')

theorem isDigit_of_scisodigit {c : Char} (h : scisodigit c = true) : c.isDigit = true := by
  simp only [scisodigit, Char.isDigit, Bool.and_eq_true, decide_eq_true_eq] at h ⊢
  exact ⟨h.1, Nat.le_trans h.2 (by decide)⟩

/-- The start of `ReadNumber`. -/
theorem run_readNumber (strtod : Text → BitVec 32) (l : SQLexer) :
    Prog.run (readNumber strtod) l =
      Prog.run (do
        let c ← SQLexer.curChar
        if l.currdata = '0' ∧ scisodigit c then do
          readWhile scisodigit
          when (← SQLexer.curChar).isDigit (raise "invalid octal number")
          setNvalue fun s => toSQInteger (digits 8 s)
          pure .tkInteger
        else if l.currdata = '0' ∧ isX c then do
          advance
          readWhile isxdigit
          when ((← gets longstr).length > maxHexDigits)
            (raise "too many digits for an Hex number")
          setNvalue fun s => toSQInteger (digits 16 s)
          pure .tkInteger
        else do
          appendChar l.currdata
          if (← readDecimal) = .tint then do
            setNvalue fun s => toSQInteger (digits 10 s)
            pure .tkInteger
          else do
            setFvalue strtod
            pure .tkFloat) (forward { l with longstr := [] }) := by
  rw [readNumber, SQLexer.curChar, Prog.run_gets_bind, initTempString, Prog.run_update_bind,
    Prog.run_bind, run_advance, Prog.after_ok]

theorem at_started {b : UInt8} {t : List UInt8} (hl : l.At (b :: t)) :
    (forward { l with longstr := [] }).At t :=
  At.forward (l := { l with longstr := [] }) ⟨hl.currdata, hl.input⟩

theorem reads_decimal (strtod : Text → BitVec 32) (hbase : n.base = .decimal) (hends : n.Ends rest)
    (hl : l.At (n.text ++ rest)) : NumeralRead n rest (readNumber strtod) l := by
  have htext : n.text ++ rest = n.first :: (n.others ++ rest) := by
    rw [Numeral.text, hbase]
    rfl
  rw [htext] at hl
  have hchar : l.currdata = byteChar n.first := At.curChar hl
  have hm := at_started hl
  have hstop := hends.stop
  rw [hbase] at hstop
  have hnext : l.currdata = '0' → scisodigit (byteChar ((n.others ++ rest).headD 0)) = false ∧
      isX (byteChar ((n.others ++ rest).headD 0)) = false := by
    intro hzero
    have hfirst : n.first = 48 := (byteChar_eq_iff _ 48).mp (hchar.symm.trans hzero)
    rw [n.leading hbase hfirst]
    refine ⟨Bool.eq_false_iff.mpr fun hoct => ?_, hends.notHex hbase hfirst⟩
    simp only [Base.goesOn, Bool.or_eq_false_iff] at hstop
    exact Bool.eq_false_iff.mp hstop.1.1 (isDigit_of_scisodigit hoct)
  have hds : ∀ d ∈ n.others, (byteChar d).isDigit = true := by
    have h := n.others_valid
    rw [hbase] at h
    exact h
  obtain ⟨l', hrun, hat, hlong⟩ := run_readDecimal n.others rest hds hstop
    { forward { l with longstr := [] } with longstr := [l.currdata] } ⟨hm.currdata, hm.input⟩
  have hvalue : n.value = horner 10 l'.longstr := by
    rw [hlong, Numeral.value, hbase, hchar]
    rfl
  constructor
  · intro _
    refine ⟨{ l' with nvalue := toSQInteger (digits 10 l'.longstr) }, ?_,
      ⟨hat.currdata, hat.input⟩, ?_⟩
    · rw [run_readNumber, SQLexer.curChar, Prog.run_gets_bind, hm.currdata,
        if_neg (fun h => Bool.eq_false_iff.mp (hnext h.1).1 h.2),
        if_neg (fun h => Bool.eq_false_iff.mp (hnext h.1).2 h.2), Prog.run_bind, run_appendChar,
        Prog.after_ok, Prog.run_bind]
      exact congrArg (Prog.after · _) hrun
    · rw [hvalue, ← digits_eq]
  · intro h
    exact absurd hbase h.1

theorem reads_octal (strtod : Text → BitVec 32) (hbase : n.base = .octal) (hends : n.Ends rest)
    (hl : l.At (n.text ++ rest)) : NumeralRead n rest (readNumber strtod) l := by
  have htext : n.text ++ rest = 48 :: (n.first :: n.others ++ rest) := by
    rw [Numeral.text, hbase]
    rfl
  rw [htext] at hl
  have hzero : l.currdata = '0' := At.curChar hl
  have hm := at_started hl
  have hstop := hends.stop
  have hds := n.valid
  rw [hbase] at hstop hds
  have hfirst : scisodigit (byteChar n.first) = true := hds n.first List.mem_cons_self
  have hdigit : ¬ (byteChar (rest.headD 0)).isDigit = true := Bool.eq_false_iff.mp hstop
  have hnot : scisodigit (byteChar (rest.headD 0)) = false :=
    Bool.eq_false_iff.mpr fun h => hdigit (isDigit_of_scisodigit h)
  obtain ⟨l', hrun, hat, hlong⟩ := run_readWhile scisodigit (n.first :: n.others) rest (by decide)
    hds hnot _ hm
  have hlast : ¬ l'.currdata.isDigit = true := hat.currdata ▸ hdigit
  have hvalue : n.value = horner 8 l'.longstr := by
    rw [hlong, Numeral.value, hbase]
    rfl
  constructor
  · intro _
    refine ⟨{ l' with nvalue := toSQInteger (digits 8 l'.longstr) }, ?_,
      ⟨hat.currdata, hat.input⟩, ?_⟩
    · rw [run_readNumber, SQLexer.curChar, Prog.run_gets_bind, hm.currdata,
        if_pos ⟨hzero, hfirst⟩, Prog.run_bind, hrun, Prog.after_ok, Prog.run_gets_bind,
        Prog.when, if_neg hlast]
      rfl
    · rw [hvalue, ← digits_eq]
  · intro h
    exact absurd hbase h.2.1

theorem reads_hexadecimal (strtod : Text → BitVec 32) {upper : Bool}
    (hbase : n.base = .hexadecimal upper) (hends : n.Ends rest) (hl : l.At (n.text ++ rest)) :
    NumeralRead n rest (readNumber strtod) l := by
  have htext : n.text ++ rest =
      48 :: (if upper then 88 else 120) :: (n.first :: n.others ++ rest) := by
    rw [Numeral.text, hbase]
    rfl
  rw [htext] at hl
  have hzero : l.currdata = '0' := At.curChar hl
  have hm := at_started hl
  have hx : (forward { l with longstr := [] }).currdata = byteChar (if upper then 88 else 120) :=
    hm.currdata
  have hoct : ¬ scisodigit (byteChar (if upper then 88 else 120)) = true := by
    cases upper <;> decide
  have hX : isX (byteChar (if upper then 88 else 120)) = true := by
    cases upper <;> decide
  have hstop := hends.stop
  have hds := n.valid
  rw [hbase] at hstop hds
  obtain ⟨l', hrun, hat, hlong⟩ := run_readWhile isxdigit (n.first :: n.others) rest (by decide)
    hds hstop _ (At.forward hm)
  have hlen : l'.longstr.length = n.others.length + 1 := by
    rw [hlong]
    simp [forward, stepped]
  have hvalue : n.value = horner 16 l'.longstr := by
    rw [hlong, Numeral.value, hbase]
    rfl
  have hlong : n.TooLong ↔ maxHexDigits < n.others.length + 1 := by
    rw [Numeral.TooLong, hbase]
    simp
  constructor
  · intro h
    rw [hlong, ← hlen] at h
    refine ⟨{ l' with nvalue := toSQInteger (digits 16 l'.longstr) }, ?_,
      ⟨hat.currdata, hat.input⟩, ?_⟩
    · rw [run_readNumber, SQLexer.curChar, Prog.run_gets_bind, hx, if_neg (fun h => hoct h.2),
        if_pos ⟨hzero, hX⟩, Prog.run_bind, run_advance, Prog.after_ok, Prog.run_bind, hrun,
        Prog.after_ok, Prog.run_gets_bind, Prog.when, if_neg h]
      rfl
    · rw [hvalue, ← digits_eq]
  · intro h
    rw [hlong, ← hlen] at h
    refine ⟨l', ?_⟩
    rw [run_readNumber, SQLexer.curChar, Prog.run_gets_bind, hx, if_neg (fun h => hoct h.2),
      if_pos ⟨hzero, hX⟩, Prog.run_bind, run_advance, Prog.after_ok, Prog.run_bind, hrun,
      Prog.after_ok, Prog.run_gets_bind, Prog.when, if_pos h]
    rfl

theorem reads_readNumber (strtod : Text → BitVec 32) (hends : n.Ends rest)
    (hl : l.At (n.text ++ rest)) : NumeralRead n rest (readNumber strtod) l := by
  cases hbase : n.base with
  | decimal => exact reads_decimal strtod hbase hends hl
  | octal => exact reads_octal strtod hbase hends hl
  | hexadecimal upper => exact reads_hexadecimal strtod hbase hends hl

/-! ## `Lex` on a numeral -/

def blank (w : UInt8) : Bool := w = 32 ∨ w = 9 ∨ w = 13 ∨ w = 10

/-- A blank is one turn of the loop of `Lex`. -/
theorem run_lexTurn_blank (strtod : Text → BitVec 32) {w : UInt8} (hw : blank w = true)
    {t : List UInt8} (hl : l.At (w :: t)) : ∃ l' : SQLexer,
      Prog.run (lexTurn strtod) l = (.ok (.again ()), l') ∧ l'.At t := by
  have hchar := At.curChar hl
  simp only [blank, decide_eq_true_eq] at hw
  by_cases hline : w = 10
  · refine ⟨{ forward { l with
        currentline := l.currentline + 1, prevtoken := l.curtoken, curtoken := .ch '\n' } with
      currentcolumn := 1 }, ?_, ?_⟩
    · rw [lexTurn, SQLexer.curChar, Prog.run_gets_bind, hchar, hline, if_neg (by decide),
        if_neg (by decide), if_pos (by decide), lexNewline, countLine, Prog.run_update_bind,
        SQLexer.setToken, Prog.run_update_bind, Prog.run_bind, run_advance]
      rfl
    · have hnext := At.forward (b := w) (t := t) (l := { l with
        currentline := l.currentline + 1, prevtoken := l.curtoken, curtoken := .ch '\n' })
        ⟨hl.currdata, hl.input⟩
      exact ⟨hnext.currdata, hnext.input⟩
  · refine ⟨l.forward, ?_, At.forward hl⟩
    have hnot : ¬ byteChar w = eob := by
      obtain rfl | rfl | rfl | rfl := hw
      all_goals decide
    have hskip : byteChar w = '\t' ∨ byteChar w = '\r' ∨ byteChar w = ' ' := by
      obtain rfl | rfl | rfl | rfl := hw
      · decide
      · decide
      · decide
      · exact absurd rfl hline
    rw [lexTurn, SQLexer.curChar, Prog.run_gets_bind, hchar, if_neg hnot, if_pos hskip,
      Prog.run_bind, run_advance]
    rfl

theorem rounds_blanks (strtod : Text → BitVec 32) (ws t : List UInt8)
    (hws : ∀ w ∈ ws, blank w = true) (l : SQLexer) (hl : l.At (ws ++ t)) : ∃ l' : SQLexer,
      Rounds (fun _ => lexTurn strtod) () l () l' ∧ l'.At t := by
  induction ws generalizing l with
  | nil => exact ⟨l, .refl () l, hl⟩
  | cons w ws ih =>
    obtain ⟨m, hturn, hm⟩ := run_lexTurn_blank strtod (hws w List.mem_cons_self) hl
    obtain ⟨l', hrest, hat⟩ := ih (fun w' hw' => hws w' (List.mem_cons_of_mem w hw')) m hm
    exact ⟨l', .again hturn hrest, hat⟩

/-- A digit starts a number. -/
theorem run_lexTurn_digit (strtod : Text → BitVec 32) (h : l.currdata.isDigit = true) :
    Prog.run (lexTurn strtod) l = Prog.run (do
      let ret ← readNumber strtod
      returnToken ret) l := by
  have hne : ∀ x : Char, x.isDigit = false → ¬ l.currdata = x := fun x => ne_of_isDigit h
  have hother : lexOther strtod l.currdata = (do
      let ret ← readNumber strtod
      returnToken ret) := by
    rw [lexOther, if_neg, if_pos h]
    intro hp
    have hno : punctuation.all (fun c => !c.isDigit) = true := rfl
    have hnot := List.all_eq_true.mp hno _ hp
    rw [h] at hnot
    cases hnot
  rw [lexTurn, SQLexer.curChar, Prog.run_gets_bind]
  simp only [hne eob rfl, hne '\t' rfl, hne '\r' rfl, hne ' ' rfl, hne '\n' rfl, hne '#' rfl,
    hne '/' rfl, hne '=' rfl, hne '<' rfl, hne '>' rfl, hne '!' rfl, hne '@' rfl, hne '"' rfl,
    hne '\'' rfl, hne '.' rfl, hne '&' rfl, hne '|' rfl, hne ':' rfl, hne '*' rfl, hne '%' rfl,
    hne '-' rfl, hne '+' rfl, or_self, ↓reduceIte]
  rw [hother]

/-- A numeral starts with a digit. -/
theorem Numeral.isDigit_head (n : Numeral) (rest : List UInt8) :
    (byteChar ((n.text ++ rest).headD 0)).isDigit = true := by
  cases hbase : n.base with
  | decimal =>
    have h := n.valid n.first List.mem_cons_self
    rw [hbase] at h
    rw [Numeral.text, hbase]
    exact h
  | octal =>
    rw [Numeral.text, hbase]
    rfl
  | hexadecimal upper =>
    rw [Numeral.text, hbase]
    rfl

/-- `Lex` reads a numeral behind blanks. -/
theorem reads_lex (strtod : Text → BitVec 32) {ws : List UInt8}
    (hws : ∀ w ∈ ws, blank w = true) (hends : n.Ends rest)
    (hl : l.At (ws ++ (n.text ++ rest))) : NumeralRead n rest (lex strtod) l := by
  obtain ⟨m, hrounds, hm⟩ := rounds_blanks strtod ws (n.text ++ rest) hws
    { l with lasttokenline := l.currentline } ⟨hl.currdata, hl.input⟩
  have hdigit : m.currdata.isDigit = true := hm.currdata ▸ n.isDigit_head rest
  have hturn := run_lexTurn_digit strtod hdigit
  obtain ⟨hfound, htooLong⟩ := reads_readNumber strtod hends hm
  constructor
  · intro h
    obtain ⟨l', hrun, hat, hvalue⟩ := hfound h
    have hlast : Prog.run (lexTurn strtod) m = (.ok (.done .tkInteger),
        { l' with prevtoken := l'.curtoken, curtoken := .tkInteger }) := by
      rw [hturn, Prog.run_bind, hrun]
      rfl
    refine ⟨{ l' with prevtoken := l'.curtoken, curtoken := .tkInteger }, ?_,
      ⟨hat.currdata, hat.input⟩, hvalue⟩
    rw [lex, startToken, Prog.run_update_bind]
    exact hrounds.run_loop hlast (enough_lexTurn _)
  · intro h
    obtain ⟨l', hrun⟩ := htooLong h
    have hlast : Prog.run (lexTurn strtod) m =
        (.error (.raised "too many digits for an Hex number"), l') := by
      rw [hturn, Prog.run_bind, hrun]
      rfl
    refine ⟨l', ?_⟩
    rw [lex, startToken, Prog.run_update_bind]
    exact hrounds.run_loop_error hlast (enough_lexTurn _)

/-! ## A sign before it -/

/-- A blank or a digit follows the sign. -/
theorem start_ne (n : Numeral) (rest : List UInt8) {ws : List UInt8}
    (hws : ∀ w ∈ ws, blank w = true) (b : UInt8) (hblank : blank b = false)
    (hdigit : (byteChar b).isDigit = false) :
    byteChar ((ws ++ (n.text ++ rest)).headD 0) ≠ byteChar b := by
  intro h
  cases ws with
  | nil => exact ne_of_isDigit (n.isDigit_head rest) hdigit h
  | cons w ws =>
    have hw := hws w List.mem_cons_self
    rw [(byteChar_eq_iff w b).mp h, hblank] at hw
    cases hw

/-- A token of the last turn, behind blanks. -/
theorem run_lex_behind (strtod : Text → BitVec 32) {ws t t' : List UInt8} {tok : Token}
    (hws : ∀ w ∈ ws, blank w = true) (hl : l.At (ws ++ t))
    (hturn : ∀ m : SQLexer, m.At t → ∃ m' : SQLexer,
      Prog.run (lexTurn strtod) m = (.ok (.done tok), m') ∧ m'.At t') :
    ∃ l' : SQLexer, Prog.run (lex strtod) l = (.ok tok, l') ∧ l'.At t' := by
  obtain ⟨m, hrounds, hm⟩ := rounds_blanks strtod ws t hws
    { l with lasttokenline := l.currentline } ⟨hl.currdata, hl.input⟩
  obtain ⟨m', hlast, hat⟩ := hturn m hm
  refine ⟨m', ?_, hat⟩
  rw [lex, startToken, Prog.run_update_bind]
  exact hrounds.run_loop hlast (enough_lexTurn _)

theorem run_lex_minus (strtod : Text → BitVec 32) {ws ws' : List UInt8}
    (hws : ∀ w ∈ ws, blank w = true) (hws' : ∀ w ∈ ws', blank w = true)
    (hl : l.At (ws ++ 45 :: (ws' ++ (n.text ++ rest)))) : ∃ l' : SQLexer,
      Prog.run (lex strtod) l = (.ok (.ch '-'), l') ∧ l'.At (ws' ++ (n.text ++ rest)) := by
  refine run_lex_behind strtod hws hl fun m hm => ?_
  have hnext := At.forward hm
  have heq : ¬ byteChar ((ws' ++ (n.text ++ rest)).headD 0) = '=' :=
    start_ne n rest hws' 61 rfl rfl
  have hminus : ¬ byteChar ((ws' ++ (n.text ++ rest)).headD 0) = '-' :=
    start_ne n rest hws' 45 rfl rfl
  refine ⟨{ m.forward with prevtoken := m.forward.curtoken, curtoken := .ch '-' }, ?_,
    ⟨hnext.currdata, hnext.input⟩⟩
  rw [lexTurn, SQLexer.curChar, Prog.run_gets_bind, At.curChar hm]
  iterate 17 rw [if_neg (by decide)]
  rw [if_pos (by decide), lexSign, Prog.run_bind, run_advance, Prog.after_ok, SQLexer.curChar,
    Prog.run_gets_bind, hnext.currdata, if_neg heq, if_neg hminus]
  rfl

theorem run_lex_tilde (strtod : Text → BitVec 32) {ws t : List UInt8}
    (hws : ∀ w ∈ ws, blank w = true) (hl : l.At (ws ++ 126 :: t)) : ∃ l' : SQLexer,
      Prog.run (lex strtod) l = (.ok (.ch '~'), l') ∧ l'.At t := by
  refine run_lex_behind strtod hws hl fun m hm => ?_
  have hnext := At.forward hm
  refine ⟨{ m.forward with prevtoken := m.forward.curtoken, curtoken := .ch '~' }, ?_,
    ⟨hnext.currdata, hnext.input⟩⟩
  rw [lexTurn, SQLexer.curChar, Prog.run_gets_bind, At.curChar hm]
  iterate 19 rw [if_neg (by decide)]
  rw [lexOther, if_pos (by decide), Prog.run_bind, run_advance]
  rfl

end Numeral

end Sqnim.Compiler.SQLexer
