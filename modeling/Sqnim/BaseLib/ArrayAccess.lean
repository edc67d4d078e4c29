import Sqnim.BaseLib.Conversion
import Sqnim.Vm.State

/-!
# Elements of an array

`SQVM::Get` and `SQVM::Set` of an array, behind `a[k]`, `a[k] = v`, `in`, `sq_get`, `sq_set` and
`sq_rawset`; `sq_rawget`, which has a test of its own; and the method `remove`, which is called
through its typemask.
-/
namespace Sqnim.BaseLib.ArrayAccess

open Sqnim.Object
open Conversion Vm Vm.Compare
open SQObjectType

/-- An array, the error recorded, and the rest of the machine. -/
structure ArrayState (ρ : Type) where
  self : Addr
  values : Array SQObject
  lasterror : List UInt8
  rest : ρ

/-- What accesses use of the machine: weak references, the default delegate of arrays, and `Get` on
the root of the running closure, which may run a metamethod. -/
structure ArrayEnv (ρ : Type) where
  compare : Compare.Env
  convert : ConvertEnv
  weakref : ρ → Addr → SQObject
  arrayDdel : ρ → SQObject → Option SQObject
  rootGet : SQObject → ArrayState ρ → Option SQObject × ArrayState ρ

structure GetFlags where
  raw : Bool
  doNotRaiseError : Bool
  deriving DecidableEq, Repr

variable {ρ : Type} (env : ArrayEnv ρ)

namespace ArrayState

variable (s : ArrayState ρ)

def raiseError (text : List UInt8) : ArrayState ρ := { s with lasterror := text }

def raiseIdxError (key : SQObject) : ArrayState ρ :=
  s.raiseError (ascii "the index '" ++ formatted (printObjVal env.compare key) ++
    ascii "' does not exist")

/-- `_realval` -/
def realval (o : SQObject) : SQObject :=
  if o.type = otWeakRef then env.weakref s.rest o.unVal else o

/-- `SQArray::Get` -/
def arrayGet (nidx : Int) : Option SQObject :=
  if nidx ≥ 0 ∧ nidx < s.values.size then some (s.realval env (s.values.getD nidx.toNat .ofNull))
  else none

/-- `SQArray::Set` -/
def arraySet (nidx : Int) (val : SQObject) : Option (ArrayState ρ) :=
  if nidx ≥ 0 ∧ nidx < s.values.size then
    some { s with values := s.values.setIfInBounds nidx.toNat val }
  else none

/-- `SQArray::Remove` -/
def arrayRemove (idx : Int) : Option (ArrayState ρ) :=
  if idx < 0 ∨ idx ≥ s.values.size then none
  else some { s with values := s.values.eraseIdxIfInBounds idx.toNat }

end ArrayState

/-- The index of a numeric key. -/
def nidx (key : SQObject) : Int := (tointeger env.convert key).toInt

/-- `Get` of an array. Its `FallBackGet` matches nothing. -/
def get (key : SQObject) (flags : GetFlags) (selfidx : Int) (s : ArrayState ρ) :
    Option SQObject × ArrayState ρ :=
  let notFound (s : ArrayState ρ) : Option SQObject × ArrayState ρ :=
    (none, if flags.doNotRaiseError then s else s.raiseIdxError env key)
  if key.type.isNumeric then
    match s.arrayGet env (nidx env key) with
    | some o => (some o, s)
    | none => notFound s
  else
    match if flags.raw then none else env.arrayDdel s.rest key with
    | some o => (some o, s)
    | none =>
      if selfidx = 0 then
        match env.rootGet key s with
        | (some o, s) => (some o, s)
        | (none, s) => notFound s
      else notFound s

/-- `Set` of an array, whatever `selfidx` is. -/
def set (key val : SQObject) (s : ArrayState ρ) : Bool × ArrayState ρ :=
  if key.type.isNumeric then
    match s.arraySet (nidx env key) val with
    | some s => (true, s)
    | none => (false, s.raiseIdxError env key)
  else
    (false, s.raiseError (ascii ("indexing " ++ typeName otArray ++ " with " ++ typeName key.type)))

/-- `a[k]`, with `a` in the register `selfidx`. -/
def opGet (selfidx : Int) (key : SQObject) (s : ArrayState ρ) : Option SQObject × ArrayState ρ :=
  get env key ⟨false, false⟩ selfidx s

/-- `k in a` -/
def opExists (key : SQObject) (s : ArrayState ρ) : Bool × ArrayState ρ :=
  ((get env key ⟨true, true⟩ dontFallBack s).1.isSome,
    (get env key ⟨true, true⟩ dontFallBack s).2)

/-- `a[k] = v` -/
def opSet (key val : SQObject) (s : ArrayState ρ) : Bool × ArrayState ρ := set env key val s

def sqGet (key : SQObject) (s : ArrayState ρ) : Option SQObject × ArrayState ρ :=
  get env key ⟨false, false⟩ dontFallBack s

def sqSet (key val : SQObject) (s : ArrayState ρ) : Bool × ArrayState ρ := set env key val s

def sqRawget (key : SQObject) (s : ArrayState ρ) : Option SQObject × ArrayState ρ :=
  if key.type.isNumeric then
    match s.arrayGet env (nidx env key) with
    | some o => (some o, s)
    | none => (none, s.raiseError (ascii "the index doesn't exist"))
  else (none, s.raiseError (ascii "invalid index type for an array"))

def sqRawset (key val : SQObject) (s : ArrayState ρ) : Bool × ArrayState ρ :=
  if key.type = otNull then (false, s.raiseError (ascii "null key"))
  else
    match set env key val s with
    | (true, s) => (true, s)
    | (false, s) => (false, s.raiseIdxError env key)

/-- `array_remove` -/
def arrayRemove (key : SQObject) (s : ArrayState ρ) : Option SQObject × ArrayState ρ :=
  if key.type.isNumeric then
    match s.arrayGet env (nidx env key) with
    | some val => (some val, (s.arrayRemove (nidx env key)).getD s)
    | none => (none, s.raiseError (ascii "idx out of range"))
  else (none, s.raiseError (ascii "wrong type"))

def removeEntry : SQRegFunction := ⟨"remove", 2, some "an"⟩

/-- `a.remove(k)` -/
def callRemove (key : SQObject) (s : ArrayState ρ) : Option SQObject × ArrayState ρ :=
  match removeEntry.check [⟨otArray, s.self⟩, key] with
  | some (.ok ()) => arrayRemove env key s
  | some (.error e) => (none, s.raiseError e.message)
  | none => (none, s)

/-! ## Keys -/

/-- A null, bool or integer, or a value that is not numeric. -/
inductive Key where
  | scalar (a : Scalar)
  | other (o : SQObject) (h : o.type.isNumeric = false)

namespace Key

def toObject : Key → SQObject
  | scalar a => a.toObject
  | other o _ => o

/-- The position a key stands for. -/
def index : Key → Option Int
  | scalar a => some (number a).toInt
  | other _ _ => none

/-- The typemask of `remove` lets integers pass. -/
def passesN : Key → Bool
  | scalar (.integer _) => true
  | _ => false

end Key

/-- The position in the array that `k` selects. -/
def selected (s : ArrayState ρ) (k : Key) : Option Nat :=
  k.index.bind fun n => if 0 ≤ n ∧ n < s.values.size then some n.toNat else none

/-- The value there. -/
def element (s : ArrayState ρ) (k : Key) : Option SQObject :=
  (selected s k).map fun n => s.realval env (s.values.getD n .ofNull)

/-- An error is raised, and nothing else changes. -/
def Rejected (s s' : ArrayState ρ) : Prop := ∃ text, s' = s.raiseError text

/-- What is found, without a change, or an error. -/
structure Reads (s : ArrayState ρ) (o : Option SQObject) (r : Option SQObject × ArrayState ρ) :
    Prop where
  found : r.1 = o
  accepted : o ≠ none → r.2 = s
  rejected : o = none → Rejected s r.2

/-- Exactly the element at the position is changed to what `f` makes of the array, or an error. -/
structure Changes (s : ArrayState ρ) (n : Option Nat) (f : Nat → Array SQObject)
    (r : Bool × ArrayState ρ) : Prop where
  answer : r.1 = n.isSome
  accepted : ∀ i, n = some i → i < s.values.size ∧ r.2 = { s with values := f i }
  rejected : n = none → Rejected s r.2

/-- What the accesses with the key `k` find and change. -/
structure Accesses (s : ArrayState ρ) (k : Key) (found raw : Option SQObject)
    (stored rawStored removed : Option Nat) : Prop where
  opGet : ∀ selfidx ≠ 0, Reads s found (opGet env selfidx k.toObject s)
  sqGet : Reads s found (sqGet env k.toObject s)
  sqRawget : Reads s raw (sqRawget env k.toObject s)
  opExists : opExists env k.toObject s = (raw.isSome, s)
  opSet : ∀ v, Changes s stored (s.values.setIfInBounds · v) (opSet env k.toObject v s)
  sqSet : ∀ v, Changes s stored (s.values.setIfInBounds · v) (sqSet env k.toObject v s)
  sqRawset : ∀ v, Changes s rawStored (s.values.setIfInBounds · v) (sqRawset env k.toObject v s)
  remove : Changes s removed s.values.eraseIdxIfInBounds ((callRemove env k.toObject s).1.isSome,
    (callRemove env k.toObject s).2)
  removed : (callRemove env k.toObject s).1 =
    removed.map fun n => s.realval env (s.values.getD n .ofNull)

/-- `a[k]` and `sq_get` find members of the default delegate too. -/
def found (s : ArrayState ρ) : Key → Option SQObject
  | .scalar a => element env s (.scalar a)
  | .other o _ => env.arrayDdel s.rest o

/-- `sq_rawset` refuses null. -/
def rawStored (s : ArrayState ρ) : Key → Option Nat
  | .scalar .null => none
  | k => selected s k

/-- `remove` takes numbers by type. -/
def removed (s : ArrayState ρ) (k : Key) : Option Nat := if k.passesN then selected s k else none

section Keys

variable (s : ArrayState ρ)

theorem nidx_scalar (a : Scalar) : nidx env a.toObject = (number a).toInt := by
  rcases a with _ | (_ | _) | n <;> rfl

theorem selected_scalar (a : Scalar) : selected s (.scalar a) =
    if 0 ≤ (number a).toInt ∧ (number a).toInt < s.values.size then some (number a).toInt.toNat
    else none := rfl

theorem selected_lt {k : Key} {n : Nat} (h : selected s k = some n) : n < s.values.size := by
  cases k with
  | scalar a =>
    rw [selected_scalar] at h
    split at h
    · next hrange =>
      obtain rfl := Option.some.inj h
      omega
    · cases h
  | other o ho => cases h

theorem arrayGet_scalar (a : Scalar) :
    s.arrayGet env (nidx env a.toObject) = element env s (.scalar a) := by
  rw [nidx_scalar, element, selected_scalar]
  unfold ArrayState.arrayGet
  by_cases hrange : 0 ≤ (number a).toInt ∧ (number a).toInt < s.values.size
  · rw [if_pos hrange, if_pos hrange, Option.map_some]
  · rw [if_neg hrange, if_neg hrange, Option.map_none]

theorem arraySet_scalar (a : Scalar) (v : SQObject) : s.arraySet (nidx env a.toObject) v =
    (selected s (.scalar a)).map fun n => { s with values := s.values.setIfInBounds n v } := by
  rw [nidx_scalar, selected_scalar]
  unfold ArrayState.arraySet
  by_cases hrange : 0 ≤ (number a).toInt ∧ (number a).toInt < s.values.size
  · rw [if_pos hrange, if_pos hrange, Option.map_some]
  · rw [if_neg hrange, if_neg hrange, Option.map_none]

theorem get_scalar (a : Scalar) (flags : GetFlags) (selfidx : Int) :
    get env a.toObject flags selfidx s = (element env s (.scalar a),
      if (element env s (.scalar a)).isSome ∨ flags.doNotRaiseError then s
      else s.raiseIdxError env a.toObject) := by
  unfold get
  dsimp only
  rw [if_pos (Vm.EqualityOrder.isNumeric_scalar a), arrayGet_scalar]
  cases element env s (.scalar a) with
  | some o => rfl
  | none => cases flags.doNotRaiseError <;> rfl

theorem get_other {o : SQObject} (ho : o.type.isNumeric = false) (flags : GetFlags)
    {selfidx : Int} (hself : selfidx ≠ 0) : get env o flags selfidx s =
      (if flags.raw then none else env.arrayDdel s.rest o,
        if (if flags.raw then none else env.arrayDdel s.rest o).isSome ∨ flags.doNotRaiseError then s
        else s.raiseIdxError env o) := by
  unfold get
  dsimp only
  rw [if_neg (by rw [ho]; exact Bool.false_ne_true)]
  cases (if flags.raw then none else env.arrayDdel s.rest o) with
  | some o => rfl
  | none =>
    dsimp only
    rw [if_neg hself]
    cases flags.doNotRaiseError <;> rfl

theorem reads_of (o : Option SQObject) {text : List UInt8} :
    Reads s o (o, if o.isSome ∨ (false : Bool) then s else s.raiseError text) := by
  cases o with
  | some o => exact ⟨rfl, fun _ => rfl, nofun⟩
  | none => exact ⟨rfl, fun h => absurd rfl h, fun _ => ⟨text, rfl⟩⟩

/-- Raw or not, with or without the root, a key that raises finds what it finds or is rejected. -/
theorem reads_get (k : Key) {selfidx : Int} (hself : selfidx ≠ 0) :
    Reads s (found env s k) (get env k.toObject ⟨false, false⟩ selfidx s) := by
  cases k with
  | scalar a =>
    rw [Key.toObject, get_scalar]
    exact reads_of s _
  | other o ho =>
    rw [Key.toObject, get_other env s ho _ hself]
    exact reads_of s _

theorem exists_eq (k : Key) : opExists env k.toObject s = ((element env s k).isSome, s) := by
  have hself : dontFallBack ≠ 0 := by decide
  unfold opExists
  cases k with
  | scalar a =>
    rw [Key.toObject, get_scalar, if_pos (.inr rfl)]
  | other o ho =>
    rw [Key.toObject, get_other env s ho _ hself, if_pos rfl, if_pos (.inr rfl)]
    rfl

theorem reads_rawget (k : Key) : Reads s (element env s k) (sqRawget env k.toObject s) := by
  unfold sqRawget
  cases k with
  | scalar a =>
    rw [Key.toObject, if_pos (Vm.EqualityOrder.isNumeric_scalar a), arrayGet_scalar]
    cases element env s (.scalar a) with
    | some o => exact ⟨rfl, fun _ => rfl, nofun⟩
    | none => exact ⟨rfl, fun h => absurd rfl h, fun _ => ⟨_, rfl⟩⟩
  | other o ho =>
    rw [Key.toObject, if_neg (by rw [ho]; exact Bool.false_ne_true)]
    exact ⟨rfl, fun h => absurd rfl h, fun _ => ⟨_, rfl⟩⟩

theorem changes_set (k : Key) (v : SQObject) :
    Changes s (selected s k) (s.values.setIfInBounds · v) (set env k.toObject v s) := by
  unfold set
  cases k with
  | scalar a =>
    rw [Key.toObject, if_pos (Vm.EqualityOrder.isNumeric_scalar a), arraySet_scalar]
    cases hn : selected s (.scalar a) with
    | some n => exact ⟨rfl, fun i hi => ⟨selected_lt s (hn.trans hi), by cases hi; rfl⟩, nofun⟩
    | none => exact ⟨rfl, nofun, fun _ => ⟨_, rfl⟩⟩
  | other o ho =>
    rw [Key.toObject, if_neg (by rw [ho]; exact Bool.false_ne_true)]
    exact ⟨rfl, nofun, fun _ => ⟨_, rfl⟩⟩

theorem changes_rawset (k : Key) (v : SQObject) :
    Changes s (rawStored s k) (s.values.setIfInBounds · v) (sqRawset env k.toObject v s) := by
  have hset := changes_set env s k v
  have hcases : (k = .scalar .null) ∨ (k.toObject.type ≠ otNull ∧ rawStored s k = selected s k) := by
    rcases k with (_ | _ | _) | ⟨o, ho⟩
    · exact .inl rfl
    · exact .inr ⟨nofun, rfl⟩
    · exact .inr ⟨nofun, rfl⟩
    · refine .inr ⟨fun ht => ?_, rfl⟩
      rw [show o.type = otNull from ht] at ho
      exact absurd ho (by decide)
  unfold sqRawset
  rcases hcases with rfl | ⟨hne, hstored⟩
  · exact ⟨rfl, nofun, fun _ => ⟨_, rfl⟩⟩
  · rw [if_neg hne, hstored]
    obtain ⟨hanswer, haccepted, hrejected⟩ := hset
    cases hr : set env k.toObject v s with
    | mk b s' =>
      rw [hr] at hanswer haccepted hrejected
      replace hanswer : b = (selected s k).isSome := hanswer
      cases hn : selected s k with
      | some n =>
        rw [hn] at hanswer
        subst hanswer
        exact ⟨rfl, fun i hi => haccepted i (hn.trans hi), nofun⟩
      | none =>
        rw [hn] at hanswer
        subst hanswer
        obtain ⟨text, hs'⟩ := hrejected hn
        replace hs' : s' = s.raiseError text := hs'
        subst hs'
        exact ⟨rfl, nofun, fun _ => ⟨_, rfl⟩⟩

/-- The call passes the typemask and reaches `array_remove`, or it is rejected. -/
theorem callRemove_eq (o : SQObject) : callRemove env o s =
    if o.type = otInteger ∨ o.type = otFloat then arrayRemove env o s
    else (none, s.raiseError
      (ParamError.paramType 1 (otFloat.rawType ||| otInteger.rawType) o.type).message) := by
  have hcompiled : compileTypemask "an".toList 0 =
      some [otArray.rawType, otFloat.rawType ||| otInteger.rawType] := by decide
  have hself : typePasses otArray.rawType otArray = true := by decide
  have hpasses : ∀ t, typePasses (otFloat.rawType ||| otInteger.rawType) t = true ↔
      t = otInteger ∨ t = otFloat := by
    intro t
    cases t <;> decide
  have hcheck : removeEntry.check [⟨otArray, s.self⟩, o] =
      some (if o.type = otInteger ∨ o.type = otFloat then .ok ()
        else .error (.paramType 1 (otFloat.rawType ||| otInteger.rawType) o.type)) := by
    simp only [SQRegFunction.check, SQRegFunction.typecheck, removeEntry, hcompiled,
      Option.map_some, checkParams, List.length_cons, List.length_nil, checkTypes, hself, hpasses,
      if_true]
    rfl
  unfold callRemove
  rw [hcheck]
  split_ifs <;> rfl

theorem remove_spec (k : Key) :
    Changes s (removed s k) s.values.eraseIdxIfInBounds ((callRemove env k.toObject s).1.isSome,
        (callRemove env k.toObject s).2) ∧
      (callRemove env k.toObject s).1 =
        (removed s k).map fun n => s.realval env (s.values.getD n .ofNull) := by
  rw [callRemove_eq]
  have hother : k.passesN = false →
      ¬(k.toObject.type = otInteger ∨ k.toObject.type = otFloat) ∧ removed s k = none := by
    intro hk
    refine ⟨?_, by rw [removed, hk]; rfl⟩
    rcases k with (_ | _ | _) | ⟨o, ho⟩
    · decide
    · rintro (h | h) <;> cases h
    · cases hk
    · rintro (h | h) <;>
      · rw [show o.type = _ from h] at ho
        exact absurd ho (by decide)
  cases hk : k.passesN with
  | false =>
    obtain ⟨htype, hnone⟩ := hother hk
    rw [if_neg htype, hnone]
    exact ⟨⟨rfl, nofun, fun _ => ⟨_, rfl⟩⟩, rfl⟩
  | true =>
    obtain ⟨n, rfl⟩ : ∃ n, k = .scalar (.integer n) := by
      rcases k with (_ | _ | n) | _
      · cases hk
      · cases hk
      · exact ⟨n, rfl⟩
      · cases hk
    have hremoved : removed s (.scalar (.integer n)) = selected s (.scalar (.integer n)) := rfl
    rw [Key.toObject, if_pos (.inl rfl), hremoved]
    unfold arrayRemove
    rw [if_pos (Vm.EqualityOrder.isNumeric_scalar _), arrayGet_scalar, nidx_scalar, element]
    cases hn : selected s (.scalar (.integer n)) with
    | none => exact ⟨⟨rfl, nofun, fun _ => ⟨_, rfl⟩⟩, rfl⟩
    | some i =>
      have hlt := selected_lt s hn
      have hi : i = (number (.integer n)).toInt.toNat ∧ 0 ≤ (number (.integer n)).toInt := by
        rw [selected_scalar] at hn
        split at hn
        · next hrange => exact ⟨(Option.some.inj hn).symm, hrange.1⟩
        · cases hn
      have hrem : s.arrayRemove (number (.integer n)).toInt =
          some { s with values := s.values.eraseIdxIfInBounds i } := by
        unfold ArrayState.arrayRemove
        rw [if_neg (by omega), ← hi.1]
      refine ⟨⟨rfl, ?_, nofun⟩, rfl⟩
      rintro _ ⟨rfl⟩
      exact ⟨hlt, by rw [Option.map_some]; dsimp only; rw [hrem]; rfl⟩

/-- In the first register `a[k]` looks in the root too, where `Get` may run a metamethod. -/
theorem opGet_this {o : SQObject} (ho : o.type.isNumeric = false) : opGet env 0 o s =
    match env.arrayDdel s.rest o with
    | some v => (some v, s)
    | none => ((env.rootGet o s).1, if (env.rootGet o s).1.isSome then (env.rootGet o s).2
        else (env.rootGet o s).2.raiseIdxError env o) := by
  unfold opGet get
  dsimp only
  rw [if_neg (by rw [ho]; exact Bool.false_ne_true), if_neg Bool.false_ne_true]
  cases env.arrayDdel s.rest o with
  | some v => rfl
  | none =>
    dsimp only
    rw [if_pos rfl]
    obtain ⟨v, s'⟩ := env.rootGet o s
    cases v <;> rfl

theorem opGet_this_scalar (a : Scalar) :
    Reads s (element env s (.scalar a)) (opGet env 0 a.toObject s) := by
  unfold opGet
  rw [get_scalar]
  exact reads_of s _

end Keys

/-- A number selects a position for every access but two: `sq_rawset` refuses null, and `remove`
null and bool. No other key selects one, and `a[k]` and `sq_get` look such a key up elsewhere. -/
structure AccessRules (s : ArrayState ρ) (k : Key) : Prop where
  accesses : Accesses env s k (found env s k) (element env s k) (selected s k) (rawStored s k)
    (removed s k)
  number : ∀ a, k = .scalar a → Reads s (element env s k) (opGet env 0 k.toObject s)
  this : ∀ o h, k = .other o h → opGet env 0 k.toObject s =
    match env.arrayDdel s.rest o with
    | some v => (some v, s)
    | none => ((env.rootGet o s).1, if (env.rootGet o s).1.isSome then (env.rootGet o s).2
        else (env.rootGet o s).2.raiseIdxError env o)

theorem accessRules (s : ArrayState ρ) (k : Key) : AccessRules env s k where
  accesses := {
    opGet := fun _ hself => reads_get env s k hself
    sqGet := reads_get env s k (by decide)
    sqRawget := reads_rawget env s k
    opExists := exists_eq env s k
    opSet := changes_set env s k
    sqSet := changes_set env s k
    sqRawset := changes_rawset env s k
    remove := (remove_spec env s k).1
    removed := (remove_spec env s k).2 }
  number := by
    rintro a rfl
    exact opGet_this_scalar env s a
  this := by
    rintro o h rfl
    exact opGet_this env s h

/-- Every access takes the integers inside the array and nothing else. -/
structure PathsAgree (s : ArrayState ρ) (k : Key) : Prop where
  accesses : Accesses env s k ((removed s k).map fun n => s.realval env (s.values.getD n .ofNull))
    ((removed s k).map fun n => s.realval env (s.values.getD n .ofNull)) (removed s k) (removed s k)
    (removed s k)
  this : Reads s ((removed s k).map fun n => s.realval env (s.values.getD n .ofNull))
    (opGet env 0 k.toObject s)

def twoElements : ArrayState Unit := ⟨1, #[.ofInteger 5, .ofInteger 6], [], ()⟩

/-- `a[true]` is the second element, and `a.remove(true)` an error. -/
theorem not_pathsAgree : ¬∀ (ρ : Type) (env : ArrayEnv ρ) (s : ArrayState ρ) (k : Key),
    PathsAgree env s k := by
  intro h
  have env : ArrayEnv Unit :=
    { compare := ⟨.empty, fun _ _ => .absent, fun _ => []⟩
      convert := ⟨fun _ => 0, fun _ _ => none, fun _ => none, .empty⟩
      weakref := fun _ _ => .ofNull
      arrayDdel := fun _ _ => none
      rootGet := fun _ s => (none, s) }
  have hraw := (h Unit env twoElements (.scalar (.bool true))).accesses.sqRawget.found
  cases hraw

end Sqnim.BaseLib.ArrayAccess
