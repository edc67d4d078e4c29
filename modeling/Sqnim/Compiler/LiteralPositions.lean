import Sqnim.Compiler.IntegerLiteral
import Sqnim.Compiler.StepClause

/-!
# The positions of an integer literal

A literal as a factor, behind `-` or `~`, as an element of an array, and as the value of a constant
or of a field of an enumeration.
-/
namespace Sqnim.Compiler

open Sqnim.Lib Sqnim.Vm SQFuncState SQLexer
open Prog (raise gets update when report demand loop Turn)

/-! ## Tokens -/

section Runs

variable {α : Type} {s : SQCompiler}

theorem run_onFunc {m : FuncM α} {a : α} {fs : SQFuncState}
    (h : Prog.run m s.fs = (.ok a, fs)) : Prog.run (onFunc m) s = (.ok a, { s with fs }) := by
  have hr : (m s.fs).result = .ok a := congrArg Prod.fst h
  have hf : (m s.fs).final = fs := congrArg Prod.snd h
  refine Prod.ext ?_ ?_
  · show Except.mapError _ (m s.fs).result = _
    rw [hr]
    rfl
  · show { s with fs := (m s.fs).final } = _
    rw [hf]

theorem run_lex {t : Token} {l : SQLexer}
    (h : Prog.run (SQLexer.lex s.strtod) s.lexer = (.ok t, l)) :
    Prog.run lex s = (.ok (), { s with lexer := l, token := t }) := by
  have hr : (SQLexer.lex s.strtod s.lexer).result = .ok t := congrArg Prod.fst h
  have hf : (SQLexer.lex s.strtod s.lexer).final = l := congrArg Prod.snd h
  have hlexer : Prog.run (onLexer (SQLexer.lex s.strtod)) s = (.ok t, { s with lexer := l }) := by
    refine Prod.ext ?_ ?_
    · show Except.mapError _ (SQLexer.lex s.strtod s.lexer).result = _
      rw [hr]
      rfl
    · show { s with lexer := (SQLexer.lex s.strtod s.lexer).final } = _
      rw [hf]
  rw [lex, Prog.run_gets_bind, Prog.run_bind, hlexer]
  rfl

theorem run_lex_raised {e : String} {l : SQLexer}
    (h : Prog.run (SQLexer.lex s.strtod) s.lexer = (.error (.raised e), l)) :
    Prog.run lex s = (.error (.raised e), { s with lexer := l }) := by
  have hr : (SQLexer.lex s.strtod s.lexer).result = .error (.raised e) := congrArg Prod.fst h
  have hf : (SQLexer.lex s.strtod s.lexer).final = l := congrArg Prod.snd h
  have hlexer : Prog.run (onLexer (SQLexer.lex s.strtod)) s =
      (.error (.raised e), { s with lexer := l }) := by
    refine Prod.ext ?_ ?_
    · show Except.mapError _ (SQLexer.lex s.strtod s.lexer).result = _
      rw [hr]
      rfl
    · show { s with lexer := (SQLexer.lex s.strtod s.lexer).final } = _
      rw [hf]
  rw [lex, Prog.run_gets_bind, Prog.run_bind, hlexer]
  rfl

/-- Reading a token leaves the function state alone. -/
theorem fs_of_run_lex {s' : SQCompiler} (h : Prog.run lex s = (.ok (), s')) : s'.fs = s.fs := by
  rw [lex, Prog.run_gets_bind] at h
  obtain ⟨t, u, hlexer, hset⟩ := Prog.run_bind_inv h
  have hu : u.fs = s.fs := congrArg (fun r => r.2.fs) hlexer.symm
  rw [← hu]
  exact congrArg (fun r => r.2.fs) hset.symm

end Runs

/-! ## The sign -/

/-- The operators that the compiler applies to a literal itself. -/
inductive Sign where
  | plain
  | minus
  | complement
  deriving DecidableEq, Repr

namespace Sign

def text : Sign → List UInt8
  | plain => []
  | minus => [45]
  | complement => [126]

/-- The integer that is meant. -/
def apply : Sign → Int → Int
  | plain, v => v
  | minus, v => -v
  | complement, v => -v - 1

/-- The integer that is loaded. -/
def fold : Sign → Int → Int
  | plain => id
  | minus => negInt
  | complement => notInt

theorem ofInt_congr {x y : Int} (h : x % 2 ^ 64 = y % 2 ^ 64) :
    BitVec.ofInt 64 x = BitVec.ofInt 64 y := by
  apply BitVec.eq_of_toNat_eq
  rw [BitVec.toNat_ofInt, BitVec.toNat_ofInt]
  exact congrArg Int.toNat h

theorem ofInt_fold (sign : Sign) (v : Nat) :
    BitVec.ofInt 64 (sign.fold (toSQInteger (v % 2 ^ 64))) = BitVec.ofInt 64 (sign.apply v) := by
  have hv : toSQInteger (v % 2 ^ 64) % 2 ^ 64 = (v : Int) % 2 ^ 64 := by
    rw [toSQInteger]
    split <;> omega
  apply ofInt_congr
  cases sign with
  | plain => exact hv
  | minus =>
    have hmod : Int.bmod (-toSQInteger (v % 2 ^ 64)) (2 ^ 64) % 2 ^ 64 =
        -toSQInteger (v % 2 ^ 64) % 2 ^ 64 := Int.bmod_emod
    show Int.bmod (-toSQInteger (v % 2 ^ 64)) (2 ^ 64) % 2 ^ 64 = -(v : Int) % 2 ^ 64
    omega
  | complement =>
    show (-toSQInteger (v % 2 ^ 64) - 1) % 2 ^ 64 = (-(v : Int) - 1) % 2 ^ 64
    omega

end Sign

/-- The lexer is in front of a numeral with a sign, with blanks before both. -/
structure InFront (n : Numeral) (sign : Sign) (rest : List UInt8) (l : SQLexer) : Prop where
  blanks : ∃ ws ws' : List UInt8, (∀ w ∈ ws, blank w = true) ∧ (∀ w ∈ ws', blank w = true) ∧
    l.At (ws ++ (sign.text ++ (ws' ++ (n.text ++ rest))))
  ends : n.Ends rest

section Literal

variable {n : Numeral} {sign : Sign} {rest : List UInt8} {s : SQCompiler} (self : Self)

/-- The sign or the numeral is read, and what is left to read of the literal. -/
inductive Started (n : Numeral) (rest : List UInt8) (s : SQCompiler) :
    Sign → Except (Stop Event String Unit) Unit × SQCompiler → Prop
  | found (l : SQLexer) (hat : l.At rest) (hvalue : l.nvalue = toSQInteger (n.value % 2 ^ 64))
      (hshort : ¬ n.TooLong) :
      Started n rest s .plain (.ok (), { s with lexer := l, token := .tkInteger })
  | rejected (l : SQLexer) (hlong : n.TooLong) : Started n rest s .plain
      (.error (.raised "too many digits for an Hex number"), { s with lexer := l })
  | minus (l : SQLexer) (h : InFront n .plain rest l) :
      Started n rest s .minus (.ok (), { s with lexer := l, token := .ch '-' })
  | complement (l : SQLexer) (h : InFront n .plain rest l) :
      Started n rest s .complement (.ok (), { s with lexer := l, token := .ch '~' })

theorem started (h : InFront n sign rest s.lexer) : Started n rest s sign (Prog.run lex s) := by
  obtain ⟨ws, ws', hws, hws', hat⟩ := h.blanks
  cases sign with
  | plain =>
    have hblanks : ∀ w ∈ ws ++ ws', blank w = true := fun w hw =>
      (List.mem_append.mp hw).elim (hws w) (hws' w)
    have hat' : s.lexer.At (ws ++ ws' ++ (n.text ++ rest)) := by
      rw [List.append_assoc]
      exact hat
    obtain ⟨hfound, htooLong⟩ := reads_lex s.strtod hblanks h.ends hat'
    by_cases hlong : n.TooLong
    · obtain ⟨l, hrun⟩ := htooLong hlong
      rw [run_lex_raised hrun]
      exact .rejected l hlong
    · obtain ⟨l, hrun, hl, hvalue⟩ := hfound hlong
      rw [run_lex hrun]
      exact .found l hl hvalue hlong
  | minus =>
    obtain ⟨l, hrun, hl⟩ := run_lex_minus s.strtod hws hws' hat
    rw [run_lex hrun]
    exact .minus l ⟨⟨[], ws', nofun, hws', hl⟩, h.ends⟩
  | complement =>
    obtain ⟨l, hrun, hl⟩ := run_lex_tilde s.strtod hws hat
    rw [run_lex hrun]
    exact .complement l ⟨⟨[], ws', nofun, hws', hl⟩, h.ends⟩

theorem run_factor_integer (h : s.token = .tkInteger) : Prog.run (factor self) s =
    Prog.run (do tokenFactor (emitInt s.lexer.nvalue); setEtype .expr) s := by
  rw [factor, token, Prog.run_gets_bind, h]
  rfl

theorem run_factor_minus (h : s.token = .ch '-') : Prog.run (factor self) s =
    Prog.run (do minusFactor self; setEtype .expr) s := by
  rw [factor, token, Prog.run_gets_bind, h]
  rfl

theorem run_factor_tilde (h : s.token = .ch '~') : Prog.run (factor self) s =
    Prog.run (do tildeFactor self; setEtype .expr) s := by
  rw [factor, token, Prog.run_gets_bind, h]
  rfl

/-- A token behind `-` or `~` that is an integer. -/
theorem run_folded {s' : SQCompiler} (hlex : Prog.run lex s = (.ok (), s'))
    (htoken : s'.token = .tkInteger) :
    Prog.run (minusFactor self) s = Prog.run (tokenFactor (emitInt (negInt s'.lexer.nvalue))) s' ∧
      Prog.run (tildeFactor self) s =
        Prog.run (tokenFactor (emitInt (notInt s'.lexer.nvalue))) s' := by
  constructor
  · rw [minusFactor, Prog.run_bind, hlex, Prog.after_ok, token, Prog.run_gets_bind, if_pos htoken,
      Prog.run_gets_bind]
    rfl
  · rw [tildeFactor, Prog.run_bind, hlex, Prog.after_ok, token, Prog.run_gets_bind, if_pos htoken,
      Prog.run_gets_bind]
    rfl

/-- The code of a literal, and what follows it. -/
theorem run_tokenFactor (w : Int) (hroom : s.fs.Room) : ∃ gs : SQFuncState,
    Prog.run (do tokenFactor (emitInt w); setEtype .expr) s =
        Prog.run (do lex; setEtype .expr) { s with fs := gs } ∧ Emitted w s.fs gs := by
  obtain ⟨gs, hrun, hemitted⟩ := run_emitInt w hroom
  refine ⟨gs, ?_, hemitted⟩
  rw [Prog.run_bind, tokenFactor, Prog.run_bind, run_onFunc hrun, Prog.after_ok, ← Prog.run_bind]

/-- The first token of a literal has been read. -/
inductive Began (n : Numeral) (rest : List UInt8) (s : SQCompiler) : Sign → Prop
  | plain (htoken : s.token = .tkInteger) (hat : s.lexer.At rest)
      (hvalue : s.lexer.nvalue = toSQInteger (n.value % 2 ^ 64)) : Began n rest s .plain
  | minus (htoken : s.token = .ch '-') (h : InFront n .plain rest s.lexer) : Began n rest s .minus
  | complement (htoken : s.token = .ch '~') (h : InFront n .plain rest s.lexer) :
      Began n rest s .complement

theorem began (h : InFront n sign rest s.lexer) (hshort : ¬ n.TooLong) :
    ∃ (l : SQLexer) (t : Token), Prog.run lex s = (.ok (), { s with lexer := l, token := t }) ∧
      Began n rest { s with lexer := l, token := t } sign := by
  have hstart := started h
  generalize Prog.run lex s = r at hstart
  cases hstart with
  | found l hat hvalue _ => exact ⟨l, .tkInteger, rfl, .plain rfl hat hvalue⟩
  | rejected _ hlong => exact absurd hlong hshort
  | minus l hplain => exact ⟨l, .ch '-', rfl, .minus rfl hplain⟩
  | complement l hplain => exact ⟨l, .ch '~', rfl, .complement rfl hplain⟩

/-- A literal is compiled to the load of its value. -/
theorem run_factor (h : Began n rest s sign) (hroom : s.fs.Room) (hshort : ¬ n.TooLong) :
    ∃ (w : Int) (s₁ : SQCompiler),
      Prog.run (factor self) s = Prog.run (do lex; setEtype .expr) s₁ ∧ s₁.lexer.At rest ∧
        Emitted w s.fs s₁.fs ∧ BitVec.ofInt 64 w = BitVec.ofInt 64 (sign.apply n.value) := by
  have hfold := Sign.ofInt_fold sign n.value
  cases h with
  | plain htoken hat hvalue =>
    obtain ⟨gs, hfactor, hemitted⟩ := run_tokenFactor s.lexer.nvalue hroom
    rw [← hvalue] at hfold
    exact ⟨s.lexer.nvalue, { s with fs := gs }, (run_factor_integer self htoken).trans hfactor, hat,
      hemitted, hfold⟩
  | minus htoken hplain =>
    obtain ⟨l, t, hlex, hbegan⟩ := began hplain hshort
    obtain ⟨htoken', hat, hvalue⟩ := hbegan
    obtain ⟨gs, hfactor, hemitted⟩ :=
      run_tokenFactor (s := { s with lexer := l, token := t }) (negInt l.nvalue) hroom
    rw [← hvalue] at hfold
    refine ⟨negInt l.nvalue, { s with lexer := l, token := t, fs := gs }, ?_, hat, hemitted, hfold⟩
    rw [run_factor_minus self htoken, Prog.run_bind, (run_folded self hlex htoken').1,
      ← Prog.run_bind]
    exact hfactor
  | complement htoken hplain =>
    obtain ⟨l, t, hlex, hbegan⟩ := began hplain hshort
    obtain ⟨htoken', hat, hvalue⟩ := hbegan
    obtain ⟨gs, hfactor, hemitted⟩ :=
      run_tokenFactor (s := { s with lexer := l, token := t }) (notInt l.nvalue) hroom
    rw [← hvalue] at hfold
    refine ⟨notInt l.nvalue, { s with lexer := l, token := t, fs := gs }, ?_, hat, hemitted, hfold⟩
    rw [run_factor_tilde self htoken, Prog.run_bind, (run_folded self hlex htoken').2,
      ← Prog.run_bind]
    exact hfactor

theorem run_literal (h : InFront n sign rest s.lexer) (hroom : s.fs.Room) (hshort : ¬ n.TooLong) :
    ∃ (w : Int) (s₁ : SQCompiler), Prog.run (do lex; factor self) s =
        Prog.run (do lex; setEtype .expr) s₁ ∧ s₁.lexer.At rest ∧ Emitted w s.fs s₁.fs ∧
      BitVec.ofInt 64 w = BitVec.ofInt 64 (sign.apply n.value) := by
  obtain ⟨l, t, hlex, hbegan⟩ := began h hshort
  obtain ⟨w, s₁, hfactor, hrest⟩ := run_factor self hbegan hroom hshort
  refine ⟨w, s₁, ?_, hrest⟩
  rw [Prog.run_bind, hlex, Prog.after_ok, hfactor]

/-- The program stops with an error of the compiler. -/
def Rejected {α : Type} (m : CompM α) (s : SQCompiler) : Prop :=
  ∃ (e : String) (s' : SQCompiler), Prog.run m s = (.error (.raised e), s')

theorem Rejected.bind {α β : Type} {m : CompM α} (h : Rejected m s) (k : α → CompM β) :
    Rejected (m >>= k) s := by
  obtain ⟨e, s', hrun⟩ := h
  exact ⟨e, s', by rw [Prog.run_bind, hrun, Prog.after_error]⟩

theorem Rejected.of_run {α β : Type} {m : CompM α} {s' : SQCompiler} {a : α} {k : α → CompM β}
    (h : Prog.run m s = (.ok a, s')) (hk : Rejected (k a) s') : Rejected (m >>= k) s := by
  obtain ⟨e, t, hrun⟩ := hk
  exact ⟨e, t, by rw [Prog.run_bind, h, Prog.after_ok, hrun]⟩

/-- A numeral with too many digits is rejected as a factor. -/
theorem rejected_literal (h : InFront n sign rest s.lexer) (hlong : n.TooLong) :
    Rejected (do lex; factor self) s := by
  have hstart := started h
  generalize hlex : Prog.run lex s = r at hstart
  cases hstart with
  | found _ _ _ hshort => exact absurd hlong hshort
  | rejected l _ => exact Rejected.bind ⟨_, _, hlex⟩ _
  | minus l hplain =>
    have hnext := started (s := { s with lexer := l, token := .ch '-' }) hplain
    generalize hlex' : Prog.run lex { s with lexer := l, token := .ch '-' } = r at hnext
    cases hnext with
    | found _ _ _ hshort => exact absurd hlong hshort
    | rejected l' _ =>
      have hminus : Rejected (minusFactor self) { s with lexer := l, token := .ch '-' } :=
        Rejected.bind ⟨_, _, hlex'⟩ _
      obtain ⟨e, t, hrun⟩ := hminus.bind fun _ => setEtype .expr
      exact .of_run hlex ⟨e, t, (run_factor_minus self rfl).trans hrun⟩
  | complement l hplain =>
    have hnext := started (s := { s with lexer := l, token := .ch '~' }) hplain
    generalize hlex' : Prog.run lex { s with lexer := l, token := .ch '~' } = r at hnext
    cases hnext with
    | found _ _ _ hshort => exact absurd hlong hshort
    | rejected l' _ =>
      have htilde : Rejected (tildeFactor self) { s with lexer := l, token := .ch '~' } :=
        Rejected.bind ⟨_, _, hlex'⟩ _
      obtain ⟨e, t, hrun⟩ := htilde.bind fun _ => setEtype .expr
      exact .of_run hlex ⟨e, t, (run_factor_tilde self rfl).trans hrun⟩

/-! ## Constants -/

theorem run_scalar_minus (h : s.token = .ch '-') :
    Prog.run scalar s = Prog.run (do lex; negativeScalar) s := by
  rw [scalar, Prog.run_gets_bind, id, h]
  rfl

/-- The value of a constant, and what follows it. -/
theorem run_expectScalar (h : InFront n sign rest s.lexer) (hsign : sign ≠ .complement)
    (hshort : ¬ n.TooLong) : ∃ (w : Int) (s₁ : SQCompiler),
      Prog.run (do lex; expectScalar) s = Prog.run (do lex; pure (.int w)) s₁ ∧
        s₁.lexer.At rest ∧ BitVec.ofInt 64 w = BitVec.ofInt 64 (sign.apply n.value) := by
  obtain ⟨l, t, hlex, hbegan⟩ := began h hshort
  have hfold := Sign.ofInt_fold sign n.value
  rw [Prog.run_bind, hlex, Prog.after_ok]
  cases hbegan with
  | plain htoken hat hvalue =>
    obtain rfl : t = .tkInteger := htoken
    rw [← hvalue] at hfold
    exact ⟨l.nvalue, { s with lexer := l, token := .tkInteger }, rfl, hat, hfold⟩
  | minus htoken hplain =>
    obtain ⟨l', t', hlex', hbegan'⟩ := began hplain hshort
    obtain ⟨htoken', hat, hvalue⟩ := hbegan'
    obtain rfl : t' = .tkInteger := htoken'
    rw [← hvalue] at hfold
    refine ⟨negInt l'.nvalue, { s with lexer := l', token := .tkInteger }, ?_, hat, hfold⟩
    have hscalar : Prog.run scalar { s with lexer := l, token := t } =
        (.ok (.int (negInt l'.nvalue)), { s with lexer := l', token := .tkInteger }) := by
      rw [run_scalar_minus htoken, Prog.run_bind, hlex']
      rfl
    rw [expectScalar, Prog.run_bind, hscalar, Prog.after_ok]
  | complement _ _ => exact absurd rfl hsign

/-- A numeral with too many digits is rejected as a constant. -/
theorem rejected_scalar (h : InFront n sign rest s.lexer) (hlong : n.TooLong) :
    Rejected (do lex; expectScalar) s := by
  have hstart := started h
  generalize hlex : Prog.run lex s = r at hstart
  cases hstart with
  | found _ _ _ hshort => exact absurd hlong hshort
  | rejected l _ => exact Rejected.bind ⟨_, _, hlex⟩ _
  | minus l hplain =>
    have hnext := started (s := { s with lexer := l, token := .ch '-' }) hplain
    generalize hlex' : Prog.run lex { s with lexer := l, token := .ch '-' } = r at hnext
    cases hnext with
    | found _ _ _ hshort => exact absurd hlong hshort
    | rejected l' _ =>
      have hscalar : Rejected scalar { s with lexer := l, token := .ch '-' } := by
        obtain ⟨e, t, hrun⟩ := Rejected.bind ⟨_, _, hlex'⟩ fun _ => negativeScalar
        exact ⟨e, t, (run_scalar_minus rfl).trans hrun⟩
      exact .of_run hlex (hscalar.bind _)
  -- `~` is no part of a constant
  | complement l hplain => exact .of_run hlex ⟨_, _, rfl⟩

/-- `const` behind the name. -/
def constRest (id : Text) : CompM Unit := do
  expect (.ch '=')
  let val ← expectScalar
  optionalSemicolon
  newConstant id (.value val)

theorem constStatement_eq : constStatement = (do
    lex
    let id ← expectText .tkIdentifier
    constRest id) := rfl

theorem run_expect (h : s.token = .ch '=') : Prog.run (expect (.ch '=')) s = Prog.run lex s := by
  rw [expect, token, Prog.run_gets_bind, h]
  rfl

theorem consts_of_run_constRest {s' : SQCompiler} {id : Text} (htoken : s.token = .ch '=')
    (h : InFront n sign rest s.lexer) (hsign : sign ≠ .complement) (hshort : ¬ n.TooLong)
    (hrun : Prog.run (constRest id) s = (.ok (), s')) : ∃ w : Int,
      s'.consts.lookup id = some (.value (.int w)) ∧
        BitVec.ofInt 64 w = BitVec.ofInt 64 (sign.apply n.value) := by
  obtain ⟨w, s₁, hscalar, -, hw⟩ := run_expectScalar h hsign hshort
  obtain ⟨_, t₁, hexpect, hrest⟩ := Prog.run_bind_inv hrun
  rw [run_expect htoken] at hexpect
  obtain ⟨val, t₂, hval, hrest⟩ := Prog.run_bind_inv hrest
  have hboth : Prog.run (do lex; expectScalar) s = (.ok val, t₂) := by
    rw [Prog.run_bind, hexpect, Prog.after_ok, hval]
  rw [hscalar] at hboth
  obtain ⟨_, t₃, -, hpure⟩ := Prog.run_bind_inv hboth
  cases hpure
  obtain ⟨_, t₄, -, hnew⟩ := Prog.run_bind_inv hrest
  cases hnew
  exact ⟨w, List.lookup_cons_self, hw⟩

theorem value_of_run_enumValue {s' : SQCompiler} {nval : Int} {r : Scalar × Int}
    (htoken : s.token = .ch '=') (h : InFront n sign rest s.lexer) (hsign : sign ≠ .complement)
    (hshort : ¬ n.TooLong) (hrun : Prog.run (enumValue nval) s = (.ok r, s')) : ∃ w : Int,
      r = (.int w, nval) ∧ BitVec.ofInt 64 w = BitVec.ofInt 64 (sign.apply n.value) := by
  obtain ⟨w, s₁, hscalar, -, hw⟩ := run_expectScalar h hsign hshort
  rw [enumValue, token, Prog.run_gets_bind, if_pos htoken] at hrun
  obtain ⟨_, t₁, hlex, hrest⟩ := Prog.run_bind_inv hrun
  obtain ⟨val, t₂, hval, hrest⟩ := Prog.run_bind_inv hrest
  have hboth : Prog.run (do lex; expectScalar) s = (.ok val, t₂) := by
    rw [Prog.run_bind, hlex, Prog.after_ok, hval]
  rw [hscalar] at hboth
  obtain ⟨_, t₃, -, hpure⟩ := Prog.run_bind_inv hboth
  cases hpure
  cases hrest
  exact ⟨w, rfl, hw⟩

/-! ## Elements of an array -/

/-- The tokens that go on with an expression behind a factor. -/
def continuing : List Token :=
  [.ch '.', .ch '[', .tkMinusminus, .tkPlusplus, .ch '(', .ch '*', .ch '/', .ch '%', .ch '+',
    .ch '-', .tkUshiftr, .tkShiftl, .tkShiftr, .ch '>', .ch '<', .tkGe, .tkLe, .tkIn,
    .tkInstanceof, .tkEq, .tkNe, .tk3wayscmp, .ch '&', .ch '^', .ch '|', .tkAnd, .tkOr, .ch '=',
    .tkNewslot, .tkMinuseq, .tkPluseq, .tkMuleq, .tkDiveq, .tkModeq, .ch '?']

theorem run_binLevel {f : CompM Unit} {ops : Token → Option (SQOpcode × Int)} {s' : SQCompiler}
    (h : Prog.run f s = (.ok (), s')) (hops : ops s'.token = none) :
    Prog.run (binLevel f ops) s = (.ok (), s') := by
  rw [binLevel, Prog.run_bind, h, Prog.after_ok]
  apply Rounds.run_loop_done
  rw [token, Prog.run_gets_bind, hops]
  rfl

/-- A factor that no operator follows is the whole expression. -/
theorem run_logicalOrExp {s' : SQCompiler} (h : Prog.run (factor self) s = (.ok (), s'))
    (hend : s'.token ∉ continuing) : Prog.run (logicalOrExp self) s = (.ok (), s') := by
  simp only [continuing, List.mem_cons, List.not_mem_nil, or_false, not_or] at hend
  have hprefixed : Prog.run (prefixedExpr self) s = (.ok (), s') := by
    rw [prefixedExpr, Prog.run_bind, h, Prog.after_ok]
    apply Rounds.run_loop_done
    rw [prefixedTurn, token, Prog.run_gets_bind]
    split
    all_goals first | rfl | simp_all
  have hor : Prog.run (bitwiseOrExp self) s = (.ok (), s') := by
    iterate 8 refine run_binLevel ?_ (by split <;> simp_all)
    exact hprefixed
  have hand : Prog.run (logicalAndExp self) s = (.ok (), s') := by
    rw [logicalAndExp, Prog.run_bind, hor, Prog.after_ok, token, Prog.run_gets_bind, when,
      if_neg (by simp_all)]
    rfl
  rw [logicalOrExp, Prog.run_bind, hand, Prog.after_ok, token, Prog.run_gets_bind, when,
    if_neg (by simp_all)]
  rfl

theorem run_expression {s' : SQCompiler}
    (h : Prog.run (factor self) { s with es := ⟨.expr, -1, false⟩ } = (.ok (), s'))
    (hend : s'.token ∉ continuing) :
    Prog.run (expression self) s = (.ok (), { s' with es := s.es }) := by
  have hor := run_logicalOrExp self h hend
  simp only [continuing, List.mem_cons, List.not_mem_nil, or_false, not_or] at hend
  rw [expression, invokeExp, Prog.run_gets_bind, setEs, Prog.run_update_bind, Prog.run_bind,
    Prog.run_bind, hor, Prog.after_ok, token, Prog.run_gets_bind,
    if_neg (by simp_all [compoundTokens]), when, if_neg (by simp_all)]
  rfl

theorem run_expression_error {e : Stop Event String Unit} {s' : SQCompiler}
    (h : Prog.run (factor self) { s with es := ⟨.expr, -1, false⟩ } = (.error e, s')) :
    Prog.run (expression self) s = (.error e, s') := by
  rw [expression, invokeExp, Prog.run_gets_bind, setEs, Prog.run_update_bind, Prog.run_bind,
    Prog.run_bind, logicalOrExp, Prog.run_bind, logicalAndExp, Prog.run_bind]
  simp only [bitwiseOrExp, bitwiseXorExp, bitwiseAndExp, eqExp, compExp, shiftExp, plusExp, multExp,
    binLevel, prefixedExpr, Prog.run_bind, h, Prog.after_error]

/-- A turn of the loop over the elements of an array. -/
def elementTurn (exp : CompM Unit) (key : Int) : CompM (Turn Int Int) := do
  if (← token) = .ch ']' then pure (.done key)
  else do
    exp
    when ((← token) = .ch ',') lex
    onFunc appendElement
    pure (.again (key + 1))

theorem arrayLiteral_eq : arrayLiteral self = (do
    let apos ← onFunc (do
      let trg ← pushTarget
      addInstruction .opNewobj [.reg trg, .imm 0, .imm 0, .imm notArray]
      getCurrentPos)
    lex
    let key ← loop (elementTurn self.expression) 0
    onFunc (setInstructionParam1 apos key)
    lex) := rfl

/-- No operator is the next token of a text. -/
def NoOperator (rest : List UInt8) : Prop :=
  ∀ (strtod : Text → BitVec 32) (l l' : SQLexer) (t : Token), l.At rest →
    Prog.run (SQLexer.lex strtod) l = (.ok t, l') → t ∉ continuing

theorem token_of_run_lex {s' : SQCompiler} (h : Prog.run lex s = (.ok (), s')) :
    ∃ l : SQLexer, Prog.run (SQLexer.lex s.strtod) s.lexer = (.ok s'.token, l) := by
  rw [lex, Prog.run_gets_bind] at h
  obtain ⟨t, u, hlexer, hset⟩ := Prog.run_bind_inv h
  have ht : s'.token = t := congrArg (fun r => r.2.token) hset.symm
  rw [ht]
  exact ⟨_, Prod.ext (Prog.silent_ok _ _ (congrArg Prod.fst hlexer)) rfl⟩

theorem Began.of_es (es : SQExpState) (h : Began n rest s sign) :
    Began n rest { s with es } sign := by
  cases h with
  | plain htoken hat hvalue => exact .plain htoken hat hvalue
  | minus htoken h => exact .minus htoken h
  | complement htoken h => exact .complement htoken h

theorem Began.token_ne (h : Began n rest s sign) : s.token ≠ .ch ']' := by
  cases h with
  | plain htoken _ _ => rw [htoken]; nofun
  | minus htoken _ => rw [htoken]; decide
  | complement htoken _ => rw [htoken]; decide

/-- An element that is a literal. -/
theorem run_element {s' : SQCompiler} {key : Int} {r : Turn Int Int}
    (h : InFront n sign rest s.lexer) (hroom : s.fs.Room) (hshort : ¬ n.TooLong)
    (hend : NoOperator rest)
    (hrun : Prog.run (do lex; elementTurn (expression self) key) s = (.ok r, s')) :
    ∃ (w : Int) (gs : SQFuncState), Emitted w s.fs gs ∧
      BitVec.ofInt 64 w = BitVec.ofInt 64 (sign.apply n.value) ∧
        Prog.run appendElement gs = (.ok (), s'.fs) := by
  obtain ⟨l, t, hlex, hbegan⟩ := began h hshort
  rw [Prog.run_bind, hlex, Prog.after_ok, elementTurn, token, Prog.run_gets_bind,
    if_neg hbegan.token_ne] at hrun
  obtain ⟨_, s₂, hexp, hrun⟩ := Prog.run_bind_inv hrun
  obtain ⟨w, s₁, hfactor, hat, hemitted, hw⟩ :=
    run_factor self (hbegan.of_es ⟨.expr, -1, false⟩) hroom hshort
  refine ⟨w, s₁.fs, hemitted, hw, ?_⟩
  -- the expression is no more than the factor
  have hfs : s₂.fs = s₁.fs := by
    rw [Prog.run_bind] at hfactor
    rcases hnext : Prog.run lex s₁ with ⟨e | ⟨⟩, u⟩
    · rw [hnext, Prog.after_error] at hfactor
      rw [run_expression_error self hfactor] at hexp
      cases hexp
    · rw [hnext, Prog.after_ok] at hfactor
      obtain ⟨l', hread⟩ := token_of_run_lex hnext
      have hclose := hend s₁.strtod s₁.lexer l' u.token hat hread
      rw [run_expression self hfactor hclose] at hexp
      cases hexp
      show u.fs = s₁.fs
      exact fs_of_run_lex hnext
  obtain ⟨_, s₃, htoken, hrun⟩ := Prog.run_bind_inv hrun
  cases htoken
  obtain ⟨_, s₄, hcomma, hrun⟩ := Prog.run_bind_inv hrun
  have hfs' : s₄.fs = s₂.fs := by
    rw [when] at hcomma
    split at hcomma
    · exact fs_of_run_lex hcomma
    · cases hcomma
      rfl
  obtain ⟨_, s₅, happend, hrun⟩ := Prog.run_bind_inv hrun
  cases hrun
  obtain ⟨fs, hemit, rfl⟩ := run_onFunc_inv happend
  rw [hfs', hfs] at hemit
  exact hemit

end Literal

/-! ## What a literal is worth -/

/-- A state of the compiler in which a literal is about to be read; `unsigned char` is the type of
operand 0. -/
structure Place where
  s : SQCompiler
  room : s.fs.Room
  bytes : ∀ i ∈ s.fs.instructions, i.arg0.value < 256

/-- The place with another text in front of the lexer. -/
def Place.reading (p : Place) (l : SQLexer) : SQCompiler := { p.s with lexer := l }

/-- Wherever the literal stands, it is an integer with these low bits. -/
structure Meant (v : Int) (sign : Sign) (rest : List UInt8) (s : SQCompiler) : Prop where
  single : ∀ self : Self, ∃ s₁ : SQCompiler, Prog.run (do lex; factor self) s =
    Prog.run (do lex; setEtype .expr) s₁ ∧ s₁.lexer.At rest ∧ Loads v s.fs s₁.fs
  element : NoOperator rest → ∀ (self : Self) (key : Int) (r : Turn Int Int) (s' : SQCompiler),
    Prog.run (do lex; elementTurn (expression self) key) s = (.ok r, s') → Appends v s.fs s'.fs
  scalar : sign ≠ .complement → ∃ (w : Int) (s₁ : SQCompiler),
    Prog.run (do lex; expectScalar) s = Prog.run (do lex; pure (.int w)) s₁ ∧ s₁.lexer.At rest ∧
      BitVec.ofInt 64 w = BitVec.ofInt 64 v
  constant : sign ≠ .complement → s.token = .ch '=' → ∀ (id : Text) (s' : SQCompiler),
    Prog.run (constRest id) s = (.ok (), s') → ∃ w : Int,
      s'.consts.lookup id = some (.value (.int w)) ∧ BitVec.ofInt 64 w = BitVec.ofInt 64 v
  enumerated : sign ≠ .complement → s.token = .ch '=' →
    ∀ (nval : Int) (r : Scalar × Int) (s' : SQCompiler),
      Prog.run (enumValue nval) s = (.ok r, s') → ∃ w : Int,
        r = (.int w, nval) ∧ BitVec.ofInt 64 w = BitVec.ofInt 64 v
  named : ∀ w : Int, BitVec.ofInt 64 w = BitVec.ofInt 64 v → ∃ gs : SQFuncState,
    Prog.run (do
      let trg ← pushTarget
      emitConstant (.int w) trg) s.fs = (.ok (), gs) ∧ Loads v s.fs gs

/-- Below 2^64 a numeral is the integer of its value, negated or complemented where a sign stands
before it; from there on it is an error. -/
structure Denotes (n : Numeral) (p : Place) : Prop where
  below : n.value < 2 ^ 64 → ∀ (sign : Sign) (rest : List UInt8) (l : SQLexer),
    InFront n sign rest l → Meant (sign.apply n.value) sign rest (p.reading l)
  above : 2 ^ 64 ≤ n.value → ∀ (sign : Sign) (rest : List UInt8) (l : SQLexer),
    InFront n sign rest l → ∀ self : Self, Rejected (do lex; factor self) (p.reading l) ∧
      Rejected (do lex; expectScalar) (p.reading l)

/-- The value does not wrap, has at most sixteen digits behind `0x`, and its register is one that an
operand can name; or it is too large and its digits are too many. -/
def Faithful (n : Numeral) (p : Place) : Prop :=
  if n.value < 2 ^ 64 then ¬ n.TooLong ∧ p.s.fs.vlocals.length < 256 else n.TooLong

instance (n : Numeral) (p : Place) : Decidable (Faithful n p) :=
  inferInstanceAs (Decidable (if n.value < 2 ^ 64 then _ else _))

theorem meant_of_short {n : Numeral} {p : Place} {sign : Sign} {rest : List UInt8} {l : SQLexer}
    (hshort : ¬ n.TooLong) (hbyte : p.s.fs.vlocals.length < 256) (h : InFront n sign rest l) :
    Meant (sign.apply n.value) sign rest (p.reading l) where
  single self := by
    obtain ⟨w, s₁, hrun, hat, hemitted, hw⟩ :=
      run_literal (s := p.reading l) self h p.room hshort
    exact ⟨s₁, hrun, hat, hemitted.loads hw hbyte⟩
  element hend self key r s' hrun := by
    obtain ⟨w, gs, hemitted, hw, happend⟩ :=
      run_element (s := p.reading l) self h p.room hshort hend hrun
    exact hemitted.appends hw hbyte happend
  scalar hsign := run_expectScalar (s := p.reading l) h hsign hshort
  constant hsign htoken id s' hrun :=
    consts_of_run_constRest (s := p.reading l) htoken h hsign hshort hrun
  enumerated hsign htoken nval r s' hrun :=
    value_of_run_enumValue (s := p.reading l) htoken h hsign hshort hrun
  named w hw := by
    obtain ⟨gs, hrun, hemitted⟩ := run_emitLoadConstInt w p.room
    refine ⟨gs, ?_, hemitted.loads hw hbyte⟩
    rw [Prog.run_bind]
    show Prog.after (Prog.run pushTarget p.s.fs) _ = _
    rw [run_pushTarget p.room, Prog.after_ok]
    exact hrun

theorem denotes_of_faithful {n : Numeral} {p : Place} (h : Faithful n p) : Denotes n p where
  below hvalue sign rest l hfront := by
    rw [Faithful, if_pos hvalue] at h
    exact meant_of_short h.1 h.2 hfront
  above hvalue sign rest l hfront self := by
    rw [Faithful, if_neg (by omega)] at h
    exact ⟨rejected_literal (s := p.reading l) self hfront h,
      rejected_scalar (s := p.reading l) hfront h⟩

/-- A lexer in front of a numeral that ends the text. -/
theorem exists_inFront (n : Numeral) : ∃ l : SQLexer, InFront n .plain [] l := by
  have hstop : n.base.goesOn (byteChar 0) = false := by
    cases n.base with
    | decimal => rfl
    | octal => rfl
    | hexadecimal upper => rfl
  exact ⟨_, ⟨[], [], nofun, nofun, at_init .eob 0 0 (n.text ++ [])⟩, hstop, fun _ _ => rfl⟩

theorem run_lex_end {s : SQCompiler} (h : s.lexer.At []) : ∃ l : SQLexer,
    Prog.run lex s = (.ok (), { s with lexer := l, token := .eob }) :=
  ⟨_, run_lex (Prod.ext (run_lex_eob s.strtod h) rfl)⟩

/-- A numeral that ends the text is accepted as a constant. -/
theorem not_rejected_scalar {n : Numeral} {s : SQCompiler} (h : InFront n .plain [] s.lexer)
    (hshort : ¬ n.TooLong) : ¬ Rejected (do lex; expectScalar) s := by
  rintro ⟨e, s', hrun⟩
  obtain ⟨w, s₁, hscalar, hat, -⟩ := run_expectScalar h nofun hshort
  obtain ⟨l, hlex⟩ := run_lex_end hat
  rw [hscalar, Prog.run_bind, hlex] at hrun
  cases hrun

/-- The code of a numeral that ends the text. -/
theorem fs_eq_of_run {s₁ s₂ : SQCompiler} (h₁ : s₁.lexer.At []) (h₂ : s₂.lexer.At [])
    (h : Prog.run (do lex; setEtype .expr) s₁ = Prog.run (do lex; setEtype .expr) s₂) :
    s₁.fs = s₂.fs := by
  obtain ⟨l₁, hlex₁⟩ := run_lex_end h₁
  obtain ⟨l₂, hlex₂⟩ := run_lex_end h₂
  rw [Prog.run_bind, hlex₁, Prog.run_bind, hlex₂] at h
  exact congrArg (fun r => r.2.fs) h

theorem faithful_of_denotes {n : Numeral} {p : Place} (h : Denotes n p) : Faithful n p := by
  obtain ⟨l, hfront⟩ := exists_inFront n
  rw [Faithful]
  split
  · next hvalue =>
    obtain ⟨s₁, hsingle, hat, hloads⟩ := (h.below hvalue .plain [] l hfront).single (selfAt 0)
    have hshort : ¬ n.TooLong := by
      intro hlong
      obtain ⟨e, s', hreject⟩ := rejected_literal (s := p.reading l) (selfAt 0) hfront hlong
      obtain ⟨l', hlex⟩ := run_lex_end hat
      rw [hreject, Prog.run_bind, hlex] at hsingle
      cases hsingle
    refine ⟨hshort, Nat.lt_of_not_le fun hbyte => ?_⟩
    obtain ⟨w, s₂, hrun, hat', hemitted, -⟩ :=
      run_literal (s := p.reading l) (selfAt 0) hfront p.room hshort
    have hfs := fs_eq_of_run hat hat' (hsingle.symm.trans hrun)
    rw [hfs] at hloads
    exact hemitted.not_loads p.bytes hbyte hloads
  · next hvalue =>
    by_cases hlong : n.TooLong
    · exact hlong
    · have hreject := (h.above (by omega) .plain [] l hfront (selfAt 0)).2
      exact absurd hreject (not_rejected_scalar (s := p.reading l) hfront hlong)

/-- An integer literal denotes its value exactly where it is faithful. -/
theorem denotes_iff (n : Numeral) (p : Place) : Denotes n p ↔ Faithful n p :=
  ⟨faithful_of_denotes, denotes_of_faithful⟩

/-! ### A numeral that wraps -/

/-- `18446744073709551616` -/
def twoPow64 : Numeral where
  base := .decimal
  first := 49
  others := [56, 52, 52, 54, 55, 52, 52, 48, 55, 51, 55, 48, 57, 53, 53, 49, 54, 49, 54]
  valid := List.all_eq_true.mp rfl
  leading _ h := by cases h

/-- The start of a program. -/
def atStart : Place where
  s := StepClause.firstStatement plainConfig []
  room := ⟨by decide +kernel, by decide +kernel⟩
  bytes := by decide +kernel

/-- `return 18446744073709551616` compiles. -/
theorem not_denotes_twoPow64 : twoPow64.value = 2 ^ 64 ∧ ¬ Denotes twoPow64 atStart ∧
    ∃ proto, (compile 30 plainConfig ([114, 101, 116, 117, 114, 110, 32] ++ twoPow64.text)).result =
      .ok proto := by
  have hvalue : twoPow64.value = 2 ^ 64 := by decide +kernel
  refine ⟨hvalue, fun h => ?_, exists_of_isOk _ (by decide +kernel)⟩
  have hfaithful := faithful_of_denotes h
  rw [Faithful, if_neg (by omega)] at hfaithful
  exact hfaithful.1 rfl

end Sqnim.Compiler
