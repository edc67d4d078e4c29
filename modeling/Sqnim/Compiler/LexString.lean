import Sqnim.Compiler.LexProgress
import Sqnim.Lib.Rounds

/-!
# What the lexer reads between double quotes

The turns of the loop of `ReadString` on a text in front of it.
-/
namespace Sqnim.Compiler.SQLexer

open Sqnim.Lib
open Prog (raise gets update when loop Turn)

/-- A byte as the lexer shows it. -/
def byteChar (b : UInt8) : Char := Char.ofNat b.toNat

theorem toNat_byteChar (b : UInt8) : (byteChar b).toNat = b.toNat := by
  have h := b.toNat_lt
  have hvalid : b.toNat.isValidChar := .inl (by omega)
  rw [byteChar, Char.ofNat, dif_pos hvalid]
  rfl

theorem byteChar_eq_iff (a b : UInt8) : byteChar a = byteChar b ↔ a = b := by
  constructor
  · intro h
    apply UInt8.toNat_inj.mp
    rw [← toNat_byteChar a, h, toNat_byteChar]
  · intro h
    rw [h]

/-- The lexer is in front of a text; it reads zeros behind the end. -/
structure At (l : SQLexer) (t : List UInt8) : Prop where
  currdata : l.currdata = byteChar (t.headD 0)
  input : l.input = t.tail

/-- The lexer after `NEXT`. -/
def forward (l : SQLexer) : SQLexer := { stepped l with currentcolumn := l.currentcolumn + 1 }

theorem lexChar_toNat (b : UInt8) : lexChar b.toNat = byteChar b := by
  have h := b.toNat_lt
  rw [lexChar, byteChar]
  congr 1
  omega

theorem run_advance (l : SQLexer) : Prog.run advance l = (.ok (), l.forward) := by
  unfold Prog.run
  rw [advance_run]
  rfl

variable {l : SQLexer}

theorem At.forward {b : UInt8} {t : List UInt8} (h : l.At (b :: t)) : l.forward.At t where
  currdata := by
    show lexChar (l.input.headD 0).toNat = _
    rw [h.input, lexChar_toNat]
    rfl
  input := by
    show l.input.tail = _
    rw [h.input]
    rfl

theorem At.curChar {b : UInt8} {t : List UInt8} (h : l.At (b :: t)) : l.currdata = byteChar b :=
  h.currdata

/-! ## The turns of `ReadString` -/

/-- A turn of the inner loop of `ReadString`. -/
def stringTurn (ndelim : Char) (verbatim : Bool) : LexM (Turn Unit Unit) := do
  let x ← SQLexer.curChar
  if x = ndelim then pure (.done ())
  else if x = eob then raise "unfinished string"
  else if x = '\n' then do
    when (!verbatim) (raise "newline in a constant")
    appendChar x
    advance
    countLine
    pure (.again ())
  else if x = '\\' ∧ !verbatim then do
    advance
    escapeSequence
    pure (.again ())
  else do
    appendChar x
    advance
    pure (.again ())

/-- The turns of a double-quoted string that read `p` in front of `rest` and append `q`. -/
def Collects (p : List UInt8) (q : Text) (rest : List UInt8) : Prop :=
  ∀ l : SQLexer, l.At (p ++ rest) → ∃ l' : SQLexer,
    Rounds (fun _ => stringTurn '"' false) () l () l' ∧ l'.At rest ∧ l'.longstr = l.longstr ++ q

theorem Collects.nil (rest : List UInt8) : Collects [] [] rest := fun l h =>
  ⟨l, .refl () l, h, (List.append_nil _).symm⟩

theorem Collects.append {p p' : List UInt8} {q q' : Text} {rest : List UInt8}
    (h : Collects p q (p' ++ rest)) (h' : Collects p' q' rest) :
    Collects (p ++ p') (q ++ q') rest := by
  intro l hl
  rw [List.append_assoc] at hl
  obtain ⟨m, hm, hat, hlong⟩ := h l hl
  obtain ⟨n, hn, hat', hlong'⟩ := h' m hat
  refine ⟨n, hm.trans hn, hat', ?_⟩
  rw [hlong', hlong, List.append_assoc]

/-- The bytes that stand for themselves. -/
def plain (b : UInt8) : Bool := b ≠ 34 ∧ b ≠ 0 ∧ b ≠ 10 ∧ b ≠ 92

theorem collects_plain {b : UInt8} (hb : plain b = true) (rest : List UInt8) :
    Collects [b] [byteChar b] rest := by
  intro l hl
  have hchar := At.curChar hl
  simp only [plain, ne_eq, decide_eq_true_eq] at hb
  have hquote : ¬ byteChar b = '"' := fun h => hb.1 ((byteChar_eq_iff b 34).mp h)
  have heob : ¬ byteChar b = eob := fun h => hb.2.1 ((byteChar_eq_iff b 0).mp h)
  have hline : ¬ byteChar b = '\n' := fun h => hb.2.2.1 ((byteChar_eq_iff b 10).mp h)
  have hslash : ¬ byteChar b = '\\' := fun h => hb.2.2.2 ((byteChar_eq_iff b 92).mp h)
  refine ⟨forward { l with longstr := l.longstr ++ [byteChar b] }, .single ?_,
    At.forward (l := { l with longstr := _ }) ⟨hl.currdata, hl.input⟩, rfl⟩
  rw [stringTurn, SQLexer.curChar, Prog.run_gets_bind, hchar, if_neg hquote, if_neg heob,
    if_neg hline, if_neg (fun h => hslash h.1), appendChar, appendText, Prog.run_update_bind,
    Prog.run_bind, run_advance]
  rfl

/-! ## Escapes -/

theorem run_appendChar (c : Char) (l : SQLexer) :
    Prog.run (appendChar c) l = (.ok (), { l with longstr := l.longstr ++ [c] }) := rfl

/-- A backslash and the turn that it starts. -/
theorem run_escape (h : l.currdata = '\\') {l' : SQLexer}
    (hesc : Prog.run escapeSequence l.forward = (.ok (), l')) :
    Prog.run (stringTurn '"' false) l = (.ok (.again ()), l') := by
  rw [stringTurn, SQLexer.curChar, Prog.run_gets_bind, h, if_neg (by decide), if_neg (by decide),
    if_neg (by decide), if_pos ⟨rfl, rfl⟩, Prog.run_bind, run_advance, Prog.after_ok, Prog.run_bind,
    hesc]
  rfl

/-- The escapes of one letter. -/
theorem collects_escape {b : UInt8} {c : Char} (hb : escapes.lookup (byteChar b) = some c)
    (hx : byteChar b ≠ 'x') (hU : byteChar b ≠ 'U') (hu : byteChar b ≠ 'u') (rest : List UInt8) :
    Collects [92, b] [c] rest := by
  intro l hl
  have hnext : l.forward.At (b :: rest) := hl.forward
  refine ⟨forward { l.forward with longstr := l.longstr ++ [c] }, .single ?_,
    At.forward (l := { l.forward with longstr := _ }) ⟨hnext.currdata, hnext.input⟩, rfl⟩
  refine run_escape (At.curChar hl) ?_
  rw [escapeSequence, SQLexer.curChar, Prog.run_gets_bind, At.curChar hnext, if_neg hx,
    if_neg (not_or.mpr ⟨hU, hu⟩), hb, if_pos (show (some c).isSome = true from rfl), Prog.run_bind,
    run_appendChar, Prog.after_ok, run_advance]
  rfl

theorem rounds_hex (maxdigits : Nat) (ds : List UInt8) (rest : List UInt8) (dest : Text)
    (hds : ∀ d ∈ ds, isxdigit (byteChar d) = true) (hlen : dest.length + ds.length ≤ maxdigits)
    (l : SQLexer) (hl : l.At (ds ++ rest)) : ∃ l' : SQLexer,
      Rounds (hexTurn maxdigits) dest l (dest ++ ds.map byteChar) l' ∧ l'.At rest ∧
        l'.longstr = l.longstr := by
  induction ds generalizing dest l with
  | nil =>
    rw [List.map_nil, List.append_nil]
    exact ⟨l, .refl dest l, hl, rfl⟩
  | cons d ds ih =>
    rw [List.length_cons] at hlen
    have hnext : l.forward.At (ds ++ rest) := At.forward hl
    obtain ⟨l', hrounds, hat, hlong⟩ := ih (dest ++ [byteChar d])
      (fun d' hd' => hds d' (List.mem_cons_of_mem d hd'))
      (by rw [List.length_append, List.length_singleton]; omega) l.forward hnext
    rw [List.append_assoc] at hrounds
    refine ⟨l', .again ?_ hrounds, hat, hlong⟩
    rw [hexTurn, SQLexer.curChar, Prog.run_gets_bind, At.curChar hl,
      if_pos ⟨hds d List.mem_cons_self, by omega⟩, Prog.run_bind, run_advance]
    rfl

theorem run_processStringHexEscape {maxdigits : Nat} {x d : UInt8} {ds rest : List UInt8}
    (hds : ∀ d' ∈ d :: ds, isxdigit (byteChar d') = true) (hlen : ds.length < maxdigits)
    (hstop : ds.length + 1 = maxdigits ∨ isxdigit (byteChar (rest.headD 0)) = false)
    (l : SQLexer) (hl : l.At (x :: d :: ds ++ rest)) : ∃ l' : SQLexer,
      Prog.run (processStringHexEscape maxdigits) l =
        (.ok (digits 16 ((d :: ds).map byteChar)), l') ∧ l'.At rest ∧ l'.longstr = l.longstr := by
  have hnext : l.forward.At (d :: ds ++ rest) := At.forward hl
  obtain ⟨l', hrounds, hat, hlong⟩ := rounds_hex maxdigits (d :: ds) rest [] hds
    (by rw [List.length_cons, List.length_nil]; omega) l.forward hnext
  rw [List.nil_append] at hrounds
  have hlast : Prog.run (hexTurn maxdigits ((d :: ds).map byteChar)) l' =
      (.ok (.done ((d :: ds).map byteChar)), l') := by
    rw [hexTurn, SQLexer.curChar, Prog.run_gets_bind, hat.currdata, if_neg]
    · rfl
    · intro ⟨hx, hlt⟩
      rw [List.length_map, List.length_cons] at hlt
      obtain hmax | hstop := hstop
      · omega
      · rw [hstop] at hx
        cases hx
  have hloop := hrounds.run_loop hlast (enough _ _)
  refine ⟨l', ?_, hat, hlong⟩
  rw [processStringHexEscape_eq, Prog.run_bind, run_advance, Prog.after_ok, SQLexer.curChar,
    Prog.run_gets_bind, At.curChar hnext, hds d List.mem_cons_self, Prog.run_bind]
  show Prog.after (Prog.run (pure () : LexM Unit) _) _ = _
  rw [Prog.run_pure, Prog.after_ok, Prog.run_bind, hloop]
  rfl

/-- `\x` and one or two digits. -/
theorem collects_hex {d : UInt8} {ds rest : List UInt8}
    (hds : ∀ d' ∈ d :: ds, isxdigit (byteChar d') = true) (hlen : ds.length < 2)
    (hstop : ds.length + 1 = 2 ∨ isxdigit (byteChar (rest.headD 0)) = false) :
    Collects (92 :: 120 :: d :: ds) [Char.ofNat (digits 16 ((d :: ds).map byteChar))] rest := by
  intro l hl
  have hnext : l.forward.At (120 :: d :: ds ++ rest) := At.forward hl
  obtain ⟨m, hrun, hat, hlong⟩ := run_processStringHexEscape hds hlen hstop l.forward hnext
  refine ⟨{ m with longstr := m.longstr ++ [_] }, .single ?_, ⟨hat.currdata, hat.input⟩,
    congrArg (· ++ _) hlong⟩
  refine run_escape (At.curChar hl) ?_
  rw [escapeSequence, SQLexer.curChar, Prog.run_gets_bind, At.curChar hnext, if_pos (by decide),
    Prog.run_bind, hrun]
  rfl

/-! ## Literals -/

/-- Everything up to the closing quote. -/
theorem run_stringBody {t rest : List UInt8} {q : Text} (h : Collects t q (34 :: rest))
    (hl : l.At (t ++ 34 :: rest)) : ∃ l' : SQLexer,
      Prog.run (stringBody '"' false) l = (.ok (), l') ∧ l'.At (34 :: rest) ∧
        l'.longstr = l.longstr ++ q := by
  obtain ⟨l', hrounds, hat, hlong⟩ := h l hl
  refine ⟨l', hrounds.run_loop ?_ (enough (stringBody '"' false) l), hat, hlong⟩
  rw [stringTurn, SQLexer.curChar, Prog.run_gets_bind, At.curChar hat, if_pos (by decide)]
  rfl

/-- A zero ends the input. -/
theorem run_stringBody_error {t rest : List UInt8} {q : Text} (h : Collects t q (0 :: rest))
    (hl : l.At (t ++ 0 :: rest)) : ∃ l' : SQLexer,
      Prog.run (stringBody '"' false) l = (.error (.raised "unfinished string"), l') := by
  obtain ⟨l', hrounds, hat, hlong⟩ := h l hl
  refine ⟨l', hrounds.run_loop_error ?_ (enough (stringBody '"' false) l)⟩
  rw [stringTurn, SQLexer.curChar, Prog.run_gets_bind, At.curChar hat, if_neg (by decide),
    if_pos (by decide)]
  rfl

/-- `ReadString` after its first `NEXT`. -/
def restOfString : LexM Token := do
  when ((← SQLexer.curChar) = eob) (raise "error parsing the string")
  loop (fun _ => stringPiece '"' false) ()
  stringToken '"'

theorem run_readString (l : SQLexer) : Prog.run (readString '"' false) l =
    Prog.run restOfString (forward { l with longstr := [] }) := by
  rw [readString, initTempString, Prog.run_update_bind, Prog.run_bind, run_advance]
  rfl

theorem run_restOfString {m : SQLexer} (hm : l.currdata ≠ eob)
    (hbody : Prog.run (stringBody '"' false) l = (.ok (), m)) : Prog.run restOfString l =
      (.ok .tkStringLiteral, { m.forward with svalue := m.longstr }) := by
  have hpiece : Prog.run (stringPiece '"' false) l = (.ok (.done ()), m.forward) := by
    rw [stringPiece, Prog.run_bind, hbody, Prog.after_ok, Prog.run_bind, run_advance, Prog.after_ok,
      SQLexer.curChar, Prog.run_gets_bind, if_neg nofun]
    rfl
  have hloop : Prog.run (loop (fun _ => stringPiece '"' false) ()) l = (.ok (), m.forward) :=
    (Rounds.refl () l).run_loop hpiece (enough _ l)
  rw [restOfString, SQLexer.curChar, Prog.run_gets_bind, Prog.when, if_neg hm, Prog.run_bind,
    Prog.run_pure, Prog.after_ok, Prog.run_bind, hloop]
  rfl

theorem run_restOfString_error {m : SQLexer} {e : Stop Empty String Unit}
    (hm : l.currdata ≠ eob) (hbody : Prog.run (stringBody '"' false) l = (.error e, m)) :
    Prog.run restOfString l = (.error e, m) := by
  have hpiece : Prog.run (stringPiece '"' false) l = (.error e, m) := by
    rw [stringPiece, Prog.run_bind, hbody, Prog.after_error]
  have hloop : Prog.run (loop (fun _ => stringPiece '"' false) ()) l = (.error e, m) :=
    (Rounds.refl () l).run_loop_error hpiece (enough _ l)
  rw [restOfString, SQLexer.curChar, Prog.run_gets_bind, Prog.when, if_neg hm, Prog.run_bind,
    Prog.run_pure, Prog.after_ok, Prog.run_bind, hloop, Prog.after_error]

/-- A turn of `Lex` in front of a double quote. -/
theorem run_lexTurn (strtod : Text → BitVec 32) (h : l.currdata = '"') :
    Prog.run (lexTurn strtod) l =
      Prog.after (Prog.run restOfString (forward { l with longstr := [] }))
      fun t l' => (.ok (.done t), { l' with prevtoken := l'.curtoken, curtoken := t }) := by
  rw [lexTurn, SQLexer.curChar, Prog.run_gets_bind, h]
  iterate 10 rw [if_neg (by decide)]
  rw [if_pos (by decide), Prog.run_bind, run_readString]
  rfl

/-- The first token of a text, the characters collected for it, and the token after it. -/
def readLiteral (strtod : Text → BitVec 32) : LexM (Token × Text × Token) := do
  next
  let t ← lex strtod
  let s ← gets longstr
  let t' ← lex strtod
  pure (t, s, t')

variable {strtod : Text → BitVec 32}

theorem enough_lexTurn (l : SQLexer) :
    (loop (fun _ => lexTurn strtod) () l).result ≠ .error (.outOfFuel ()) := by
  have h : Takes l.charsLeft .start tokenCost (loop (fun _ => lexTurn strtod) () : LexM Token) :=
    loop_takes tokenCost _ () fun _ => lexTurn_takes strtod
  exact h.fuel l (Nat.le_refl _)

/-- The first turn of `Lex` finds a token. -/
theorem run_lex_of_turn {t : Token} {u : SQLexer} (h : Prog.run (lexTurn strtod)
    { l with lasttokenline := l.currentline } = (.ok (.done t), u)) :
    Prog.run (lex strtod) l = (.ok t, u) := by
  rw [lex, startToken, Prog.run_update_bind]
  exact (Rounds.refl () _).run_loop h (enough_lexTurn _)

theorem run_lex_of_error {e : Stop Empty String Unit} {u : SQLexer} (h : Prog.run (lexTurn strtod)
    { l with lasttokenline := l.currentline } = (.error e, u)) :
    Prog.run (lex strtod) l = (.error e, u) := by
  rw [lex, startToken, Prog.run_update_bind]
  exact (Rounds.refl () _).run_loop_error h (enough_lexTurn _)

theorem run_lex_eob (strtod : Text → BitVec 32) (h : l.At []) :
    (Prog.run (lex strtod) l).1 = .ok .eob := by
  have hturn : Prog.run (lexTurn strtod) { l with lasttokenline := l.currentline } =
      (.ok (.done .eob), { l with lasttokenline := l.currentline }) := by
    rw [lexTurn, SQLexer.curChar, Prog.run_gets_bind, if_pos]
    · rfl
    · exact h.currdata
  rw [run_lex_of_turn hturn]

/-- A literal is read up to its closing quote. -/
theorem run_lex_string (strtod : Text → BitVec 32) {t rest : List UInt8} {q : Text}
    (h : Collects t q (34 :: rest)) (hfirst : (t ++ 34 :: rest).headD 0 ≠ 0)
    (hl : l.At (34 :: (t ++ 34 :: rest))) :
    ∃ l' : SQLexer, Prog.run (lex strtod) l = (.ok .tkStringLiteral, l') ∧ l'.At rest ∧
      l'.longstr = q := by
  let m : SQLexer := forward { l with lasttokenline := l.currentline, longstr := [] }
  have hm : m.At (t ++ 34 :: rest) :=
    At.forward (l := { l with lasttokenline := _, longstr := _ }) ⟨hl.currdata, hl.input⟩
  have hm' : m.currdata ≠ eob := fun he =>
    hfirst ((byteChar_eq_iff _ 0).mp (hm.currdata.symm.trans he))
  obtain ⟨n, hbody, hat, hlong⟩ := run_stringBody h hm
  have hturn := run_lexTurn (l := { l with lasttokenline := l.currentline }) strtod hl.currdata
  rw [run_restOfString hm' hbody, Prog.after_ok] at hturn
  have hnext := At.forward hat
  exact ⟨_, run_lex_of_turn hturn, ⟨hnext.currdata, hnext.input⟩, hlong⟩

/-- A zero in a literal is an error. -/
theorem run_lex_error (strtod : Text → BitVec 32) {t rest : List UInt8} {q : Text}
    (h : Collects t q (0 :: rest)) (hfirst : (t ++ 0 :: rest).headD 0 ≠ 0)
    (hl : l.At (34 :: (t ++ 0 :: rest))) :
    ∃ l' : SQLexer,
      Prog.run (lex strtod) l = (.error (.raised "unfinished string"), l') := by
  let m : SQLexer := forward { l with lasttokenline := l.currentline, longstr := [] }
  have hm : m.At (t ++ 0 :: rest) :=
    At.forward (l := { l with lasttokenline := _, longstr := _ }) ⟨hl.currdata, hl.input⟩
  have hm' : m.currdata ≠ eob := fun he =>
    hfirst ((byteChar_eq_iff _ 0).mp (hm.currdata.symm.trans he))
  obtain ⟨n, hbody⟩ := run_stringBody_error h hm
  have hturn := run_lexTurn (l := { l with lasttokenline := l.currentline }) strtod hl.currdata
  rw [run_restOfString_error hm' hbody, Prog.after_error] at hturn
  exact ⟨n, run_lex_of_error hturn⟩

section Source

variable (curtoken : Token) (nvalue : Int) (fvalue : BitVec 32)

theorem at_init (source : List UInt8) :
    (stepped (init source curtoken nvalue fvalue)).At source where
  currdata := lexChar_toNat _
  input := rfl

theorem run_readLiteral (strtod : Text → BitVec 32) {t : List UInt8} {q : Text}
    (h : Collects t q [34]) (hfirst : (t ++ [34]).headD 0 ≠ 0) :
    (Prog.run (readLiteral strtod) (init (34 :: (t ++ [34])) curtoken nvalue fvalue)).1 =
      .ok (.tkStringLiteral, q, .eob) := by
  obtain ⟨l', hlex, hat, hlong⟩ := run_lex_string strtod h hfirst
    (at_init curtoken nvalue fvalue _)
  have hnext : Prog.run next (init (34 :: (t ++ [34])) curtoken nvalue fvalue) =
      (.ok (), stepped (init (34 :: (t ++ [34])) curtoken nvalue fvalue)) := by
    rw [Prog.run, next_run]
    rfl
  have heob := run_lex_eob strtod hat
  rw [readLiteral, Prog.run_bind, hnext, Prog.after_ok, Prog.run_bind, hlex, Prog.after_ok,
    Prog.run_gets_bind, hlong, Prog.run_bind]
  obtain ⟨r, s', hrun⟩ : ∃ r s', Prog.run (lex strtod) l' = (r, s') := ⟨_, _, rfl⟩
  rw [hrun] at heob ⊢
  rw [show r = .ok .eob from heob]
  rfl

theorem run_readLiteral_error (strtod : Text → BitVec 32) {t rest : List UInt8} {q : Text}
    (h : Collects t q (0 :: rest)) (hfirst : (t ++ 0 :: rest).headD 0 ≠ 0) :
    (Prog.run (readLiteral strtod) (init (34 :: (t ++ 0 :: rest)) curtoken nvalue fvalue)).1 =
      .error (.raised "unfinished string") := by
  obtain ⟨l', hlex⟩ := run_lex_error strtod h hfirst
    (at_init curtoken nvalue fvalue _)
  have hnext : Prog.run next (init (34 :: (t ++ 0 :: rest)) curtoken nvalue fvalue) =
      (.ok (), stepped (init (34 :: (t ++ 0 :: rest)) curtoken nvalue fvalue)) := by
    rw [Prog.run, next_run]
    rfl
  rw [readLiteral, Prog.run_bind, hnext, Prog.after_ok, Prog.run_bind, hlex, Prog.after_error]

end Source

end Sqnim.Compiler.SQLexer
