import Sqnim.Compiler.Lexer

/-!
# The lexer ends

Every loop of the lexer reads a character in each turn but the last one.
-/
namespace Sqnim.Compiler.SQLexer

open Sqnim.Lib
open Prog (raise gets update when loop Turn)

variable {b : Nat} {st : Stage} {α : Type}

/-- An update that leaves the input alone. -/
theorem still_note (f : SQLexer → SQLexer) (hi : ∀ l, (f l).input = l.input)
    (hc : ∀ l, (f l).currdata = l.currdata) : Still (update f : LexM Unit) := by
  apply still_update
  · intro l
    show charsLeft (f l) = charsLeft l
    simp only [charsLeft, hi l, hc l]
  · intro l
    show l.currdata ≠ eob → (f l).currdata ≠ eob
    rw [hc l]
    exact id

/-- The lexer after `Next`. -/
def stepped (l : SQLexer) : SQLexer :=
  { l with input := l.input.tail, currdata := lexChar (l.input.headD 0).toNat }

theorem next_run (l : SQLexer) : (next : LexM Unit) l = .ok () (stepped l) := by
  have ht : ¬ ((l.input.headD 0).toNat : Int) > maxChar := by
    have := (l.input.headD 0).toNat_lt
    unfold maxChar
    omega
  have hw : (when (((l.input.headD 0).toNat : Int) > maxChar) (raise "Invalid character") :
      LexM Unit) l = .ok () l := by
    rw [when, if_neg ht]
    rfl
  unfold next
  rw [Prog.bind_of_ok _ _ l (show readf l = .ok _ l from rfl), Prog.bind_of_ok _ _ l hw]
  rfl

theorem charsLeft_stepped (l : SQLexer) :
    charsLeft (stepped l) + (if l.currdata = eob then 0 else 1) ≤ charsLeft l := by
  unfold charsLeft stepped
  cases l.input with
  | nil => simp [lexChar, eob]
  | cons x xs =>
    simp only [List.tail_cons, List.length_cons]
    split <;> split <;> omega

theorem advance_run (l : SQLexer) : (advance : LexM Unit) l =
    .ok () { stepped l with currentcolumn := l.currentcolumn + 1 } := by
  unfold advance
  rw [Prog.bind_of_ok _ _ l (next_run l)]
  rfl

instance : Ends b st (advance : LexM Unit) where
  fuel l _ := by
    rw [advance_run]
    intro h
    cases h
  le l _ _ _ := by
    rw [advance_run]
    have := charsLeft_stepped l
    show charsLeft (stepped l) ≤ charsLeft l
    omega

instance : Eats b .pending (advance : LexM Unit) where
  fuel l _ := by
    rw [advance_run]
    intro h
    cases h
  le l _ h _ := by
    rw [advance_run]
    have := charsLeft_stepped l
    have hp : l.currdata ≠ eob := h.2
    rw [if_neg hp] at this
    exact this

instance : Still (curChar : LexM Char) := inferInstanceAs (Still (gets _))

instance : Still (initTempString : LexM Unit) :=
  still_note _ (fun _ => rfl) fun _ => rfl

instance (s : Text) : Still (appendText s : LexM Unit) :=
  still_note _ (fun _ => rfl) fun _ => rfl

instance (c : Char) : Still (appendChar c : LexM Unit) := inferInstanceAs (Still (appendText _))

instance : Still (countLine : LexM Unit) := still_note _ (fun _ => rfl) fun _ => rfl

instance (t : Token) : Still (setToken t : LexM Unit) :=
  still_note _ (fun _ => rfl) fun _ => rfl

instance (v : Text → Int) : Still (setNvalue v : LexM Unit) :=
  still_note _ (fun _ => rfl) fun _ => rfl

instance (v : Text → BitVec 32) : Still (setFvalue v : LexM Unit) :=
  still_note _ (fun _ => rfl) fun _ => rfl

instance : Still (setSvalue : LexM Unit) := still_note _ (fun _ => rfl) fun _ => rfl

instance (n : Int) : Still (setColumn n : LexM Unit) :=
  still_note _ (fun _ => rfl) fun _ => rfl

instance : Still (startToken : LexM Unit) := still_note _ (fun _ => rfl) fun _ => rfl

instance (t : Token) : Still (returnToken t : LexM (Turn Unit Token)) := by
  unfold returnToken
  infer_instance

/-- A case analysis of the current character: where it is not the end of the input, there is
something to read. -/
theorem takes_curChar (cost : α → Nat) (k : Char → LexM α)
    (he : Takes b .start cost (k eob)) (hk : ∀ c, c ≠ eob → Takes b .pending cost (k c)) :
    Takes b .start cost (curChar >>= k) where
  fuel l hs h := by
    obtain h | ⟨c, hc, h⟩ := Prog.bind_error_inv curChar k l h
    · cases h
    · cases hc
      by_cases hl : l.currdata = eob
      · rw [hl] at h
        exact he.fuel l hs h
      · exact (hk _ hl).fuel l ⟨hs, hl⟩ h
  le l a hs h := by
    obtain ⟨c, hc, hr, hf, _⟩ := Prog.bind_ok_inv curChar k l h
    cases hc
    rw [hf]
    by_cases hl : l.currdata = eob
    · rw [hl] at hr ⊢
      exact he.le l a hs hr
    · exact (hk _ hl).le l a ⟨hs, hl⟩ hr

/-- A loop whose turns look at the current character first. -/
theorem curChar_loop {β γ : Type} (k : β → Char → LexM (Turn β γ)) (x : β)
    (he : ∀ x, Turns b .start (k x eob)) (hk : ∀ x c, c ≠ eob → Turns b .pending (k x c)) :
    Ends b st (loop (fun x => curChar >>= k x) x) :=
  (loop_takes _ _ _ fun x => takes_curChar _ _ (he x) (hk x)).at_any

instance : Ends b st (lexBlockComment : LexM Unit) := by
  apply curChar_loop
  · intro _
    simp only [↓reduceIte]
    infer_instance
  · intro _ c hc
    simp only [if_neg hc]
    infer_instance

instance : Ends b st (skipLine : LexM Unit) := by
  apply curChar_loop
  · intro _
    simp only [ne_eq, not_true_eq_false, and_false, ↓reduceIte]
    infer_instance
  · intro _ c hc
    infer_instance

instance : Ends b st (lexLineComment : LexM Unit) := by
  unfold lexLineComment
  infer_instance

instance : Eats b .pending (lexLineComment : LexM Unit) := by
  unfold lexLineComment
  infer_instance

theorem readWhile_ends (p : Char → Bool) (hp : p eob = false) :
    Ends b st (readWhile p : LexM Unit) := by
  apply curChar_loop
  · intro _
    simp only [hp, Bool.false_eq_true, ↓reduceIte]
    infer_instance
  · intro _ c hc
    infer_instance

/-- A turn of the loop of `ProcessStringHexEscape`. -/
def hexTurn (maxdigits : Nat) (dest : Text) : LexM (Turn Text Text) := do
  let c ← curChar
  if isxdigit c ∧ dest.length < maxdigits then do
    advance
    pure (.again (dest ++ [c]))
  else pure (.done dest)

instance (n : Nat) : Ends b st (loop (hexTurn n) []) := by
  apply curChar_loop
  · intro dest
    have he : isxdigit eob = false := by decide
    simp only [he, Bool.false_eq_true, false_and, ↓reduceIte]
    infer_instance
  · intro _ c hc
    infer_instance

theorem processStringHexEscape_eq (maxdigits : Nat) : processStringHexEscape maxdigits = (do
    advance
    when (!isxdigit (← curChar)) (raise "hexadecimal number expected")
    let dest ← loop (hexTurn maxdigits) []
    pure (digits 16 dest)) := rfl

instance (n : Nat) : Ends b st (processStringHexEscape n : LexM Nat) := by
  rw [processStringHexEscape_eq]
  infer_instance

instance : Ends b st (escapeSequence : LexM Unit) := by
  unfold escapeSequence
  infer_instance

instance (ndelim : Char) (verbatim : Bool) :
    Ends b st (stringBody ndelim verbatim : LexM Unit) := by
  apply curChar_loop
  · intro _
    simp only [↓reduceIte]
    infer_instance
  · intro _ c hc
    infer_instance

instance (ndelim : Char) : Still (stringToken ndelim : LexM Token) := by
  unfold stringToken
  infer_instance

instance (ndelim : Char) (verbatim : Bool) :
    Turns b st (stringPiece ndelim verbatim : LexM (Turn Unit Unit)) := by
  have : Turns b .start (do
      let c ← curChar
      if verbatim ∧ c = '"' then do
        appendChar c
        advance
        pure (.again ())
      else pure (.done ()) : LexM (Turn Unit Unit)) := by
    apply takes_curChar
    · have he : ¬ eob = '"' := by decide
      simp only [he, and_false, ↓reduceIte]
      infer_instance
    · intro c hc
      infer_instance
  apply Takes.at_any
  unfold stringPiece
  infer_instance

instance (ndelim : Char) (verbatim : Bool) :
    Eats b .pending (readString ndelim verbatim : LexM Token) := by
  unfold readString
  infer_instance

instance (ndelim : Char) (verbatim : Bool) :
    Ends b st (readString ndelim verbatim : LexM Token) := by
  unfold readString
  infer_instance

instance : Eats b .pending (readExponent : LexM Unit) := by
  unfold readExponent
  infer_instance

instance : Ends b st (readDecimal : LexM NumberType) := by
  apply curChar_loop
  · intro type
    have he : isexponent eob = false := by decide
    have hd : ¬ (eob = '.' ∨ eob.isDigit = true) := by decide
    simp only [he, Bool.false_eq_true, hd, ↓reduceIte]
    infer_instance
  · intro type c hc
    infer_instance

set_option synthInstance.maxSize 400 in
instance (strtod : Text → BitVec 32) : Eats b .pending (readNumber strtod : LexM Token) := by
  have h₁ : Ends b .fed (readWhile scisodigit : LexM Unit) := readWhile_ends _ (by decide)
  have h₂ : Ends b .fed (readWhile isxdigit : LexM Unit) := readWhile_ends _ (by decide)
  unfold readNumber
  infer_instance

instance : Eats b .pending (readID : LexM Token) := by
  have h : Ends b .fed (readWhile fun c => c.isAlphanum || c = '_' : LexM Unit) :=
    readWhile_ends _ (by decide)
  unfold readID
  infer_instance

instance (one : Token) (c : Char) (two : Token) :
    Eats b .pending (oneOrTwo one c two : LexM (Turn Unit Token)) := by
  unfold oneOrTwo
  infer_instance

instance (one : Token) (c : Char) (two : Token) :
    Ends b st (oneOrTwo one c two : LexM (Turn Unit Token)) := by
  unfold oneOrTwo
  infer_instance

instance : Eats b .pending (lexNewline : LexM (Turn Unit Token)) := by
  unfold lexNewline
  infer_instance

instance : Eats b .pending (lexSlash : LexM (Turn Unit Token)) := by
  unfold lexSlash
  infer_instance

instance : Eats b .pending (lexLess : LexM (Turn Unit Token)) := by
  unfold lexLess
  infer_instance

instance : Eats b .pending (lexGreater : LexM (Turn Unit Token)) := by
  unfold lexGreater
  infer_instance

instance : Eats b .pending (lexAt : LexM (Turn Unit Token)) := by
  unfold lexAt
  infer_instance

instance : Eats b .pending (lexDot : LexM (Turn Unit Token)) := by
  unfold lexDot
  infer_instance

instance (sign : Char) (eq double : Token) :
    Eats b .pending (lexSign sign eq double : LexM (Turn Unit Token)) := by
  unfold lexSign
  infer_instance

instance (strtod : Text → BitVec 32) (c : Char) :
    Eats b .pending (lexOther strtod c : LexM (Turn Unit Token)) := by
  unfold lexOther
  infer_instance

/-- Every token but the end of the input costs a character. -/
def tokenCost (t : Token) : Nat := if t = .eob then 0 else 1

instance : AtMostOne tokenCost where
  le t := by
    unfold tokenCost
    split <;> omega

theorem lexTurn_takes (strtod : Text → BitVec 32) :
    Takes b .start (turn tokenCost) (lexTurn strtod : LexM (Turn Unit Token)) := by
  apply takes_curChar
  · simp only [↓reduceIte]
    exact done_takes tokenCost .eob rfl
  · intro c hc
    simp only [if_neg hc]
    infer_instance

instance (strtod : Text → BitVec 32) : Takes b st tokenCost (lex strtod : LexM Token) := by
  apply Takes.at_any
  have : Takes b .start tokenCost (loop (fun _ => lexTurn strtod) () : LexM Token) :=
    loop_takes tokenCost _ () fun _ => lexTurn_takes strtod
  unfold lex
  infer_instance

/-- A program of the lexer that ends has enough fuel. -/
theorem enough {α : Type} (m : LexM α) [h : ∀ b, Ends b .start m] (l : SQLexer) :
    (m l).result ≠ .error (.outOfFuel ()) := (h l.charsLeft).fuel l (Nat.le_refl _)

end Sqnim.Compiler.SQLexer
