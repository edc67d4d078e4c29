import Sqnim.Bytecode.Closure
import Sqnim.Bytecode.RoundTrip

/-!
# A closure read back

The stream of a closure holds its prototype only. A closure that is read back
runs the same code, but its default values are null and nothing is bound to it,
so a call starts as one of the original does exactly when the call makes no use
of what was lost.
-/
namespace Sqnim.Bytecode.ReadBack

open Sqnim.Lib.Codec
open Sqnim.Object
open Sqnim.Vm
open RoundTrip

section Writing

theorem ok_of_puts {ws : List (Put Fault)} {bytes : List UInt8} (h : puts ws = .ok bytes)
    {w : Put Fault} (hw : w ∈ ws) : ∃ part, w = .ok part := by
  induction ws generalizing bytes with
  | nil => cases hw
  | cons w' ws ih =>
    cases hfirst : w' with
    | error e =>
      rw [puts, hfirst] at h
      cases h
    | ok part =>
      rcases List.mem_cons.mp hw with rfl | hmem
      · exact ⟨part, hfirst⟩
      · cases hrest : puts ws with
        | error e =>
          rw [puts, hfirst, hrest] at h
          cases h
        | ok rest => exact ih hrest hmem

theorem serializable_of_writeObject {o : Constant} {bytes : List UInt8}
    (h : writeObject o = .ok bytes) : serializable o.type = true := by
  obtain ⟨part, hpayload⟩ := ok_of_puts h (w := writePayload o) (by simp)
  cases o with
  | object t other o => cases hpayload
  | _ => rfl

theorem ok_of_writeArray {α : Type} {n : Nat} {write : α → Put Fault}
    {v : List.Vector α n} {bytes : List UInt8} (h : writeArray write v = .ok bytes) {a : α}
    (ha : a ∈ v.toList) : ∃ part, write a = .ok part :=
  ok_of_puts h (List.mem_map_of_mem ha)

/-- Only plain prototypes are written. -/
theorem plain_of_save {p : SQFunctionProto} {bytes : List UInt8} (h : p.save = .ok bytes) :
    PlainProto p := by
  induction p generalizing bytes with
  | mk n allocated p functions ih =>
    have hpart : ∀ {w : Put Fault}, w ∈ [writeObject p.sourcename, writeObject p.name,
        writeArray writeObject p.literals, writeArray writeObject p.parameters,
        writeArray writeOuterVar p.outervalues, writeArray writeLocalVarInfo p.localvarinfos,
        puts (List.ofFn fun i => (functions i).save)] → ∃ part, w = .ok part := by
      intro w hw
      refine ok_of_puts h ?_
      simp only [List.mem_cons, List.not_mem_nil, or_false] at hw ⊢
      tauto
    have hobjects : ∀ {k : Nat} {v : List.Vector Constant k}, (∃ part, writeArray writeObject v =
        .ok part) → ∀ o ∈ v.toList, serializable o.type = true := by
      rintro k v ⟨part, hv⟩ o ho
      obtain ⟨_, hobject⟩ := ok_of_writeArray hv ho
      exact serializable_of_writeObject hobject
    have houters : ∀ ov ∈ p.outervalues.toList, serializable ov.src.type = true ∧
        serializable ov.name.type = true := by
      intro ov hov
      obtain ⟨part, hv⟩ := hpart (w := writeArray writeOuterVar p.outervalues) (by simp)
      obtain ⟨part', hvar⟩ := ok_of_writeArray hv hov
      obtain ⟨_, hsrc⟩ := ok_of_puts hvar (w := writeObject ov.src) (by simp)
      obtain ⟨_, hname⟩ := ok_of_puts hvar (w := writeObject ov.name) (by simp)
      exact ⟨serializable_of_writeObject hsrc, serializable_of_writeObject hname⟩
    have hlocals : ∀ lvi ∈ p.localvarinfos.toList, serializable lvi.name.type = true := by
      intro lvi hlvi
      obtain ⟨part, hv⟩ := hpart (w := writeArray writeLocalVarInfo p.localvarinfos) (by simp)
      obtain ⟨part', hinfo⟩ := ok_of_writeArray hv hlvi
      obtain ⟨_, hname⟩ := ok_of_puts hinfo (w := writeObject lvi.name) (by simp)
      exact serializable_of_writeObject hname
    obtain ⟨_, hsource⟩ := hpart (w := writeObject p.sourcename) (by simp)
    obtain ⟨_, hname⟩ := hpart (w := writeObject p.name) (by simp)
    obtain ⟨_, hfunctions⟩ :=
      hpart (w := puts (List.ofFn fun i => (functions i).save)) (by simp)
    refine ⟨⟨serializable_of_writeObject hsource, serializable_of_writeObject hname,
      hobjects (hpart (by simp)), hobjects (hpart (by simp)), fun ov hov => (houters ov hov).2,
      fun ov hov => (houters ov hov).1, hlocals⟩, fun i => ?_⟩
    obtain ⟨_, hsave⟩ := ok_of_puts hfunctions (w := (functions i).save)
      (List.mem_ofFn.mpr ⟨i, rfl⟩)
    exact ih i hsave

end Writing

section Reading

/-- What `sq_readclosure` makes of the stream of `c`. -/
def readBack (memory : BitVec 32) (root : Addr) (c : SQClosure) : SQClosure :=
  .create (repadded memory c.function) root

theorem fits_closure (memory : BitVec 32) (root : Addr) (c : SQClosure)
    (hp : PlainProto c.function) {depth : Nat} (hdepth : c.function.depth ≤ depth) :
    Fits c.save (SQClosure.load memory depth root) (readBack memory root c) :=
  (fits_tag closureStreamHead).cons ((fits_tag 1).cons ((fits_tag 8).cons ((fits_tag 4).cons
    ((fits_proto memory c.function hp hdepth).cons
      ((fits_tag closureStreamTail).cons (codes_nil _))))))

/-- A closure that is written is read. -/
theorem read_of_written {c : SQClosure} {bytes : List UInt8} (h : writeClosure c = .ok bytes)
    (memory : BitVec 32) (root : Addr) {depth : Nat} (hdepth : c.function.depth ≤ depth)
    (rest : List UInt8) :
    (readClosure memory depth root).run (bytes ++ rest) = .ok (readBack memory root c, rest) := by
  rw [writeClosure] at h
  split at h
  · cases h
  · have hplain : PlainProto c.function := by
      obtain ⟨part, hsave⟩ := ok_of_puts h (w := c.save) (by simp)
      obtain ⟨part', hproto⟩ := ok_of_puts hsave (w := c.function.save) (by simp)
      exact plain_of_save hproto
    obtain ⟨body, hbody, hreads⟩ := fits_closure memory root c hplain hdepth
    obtain ⟨tag, htag, hword⟩ :=
      codes_word (Fault.raised "io error") (w := 16) (by decide) bytecodeStreamTag
    have hbytes : puts [putWord bytecodeStreamTag, c.save] = .ok (tag ++ (body ++ [])) := by
      rw [puts, htag, puts, hbody]
      rfl
    obtain rfl : tag ++ (body ++ []) = bytes := Except.ok.inj (hbytes.symm.trans h)
    rw [List.append_nil, List.append_assoc]
    show (getWord (Fault.raised "io error") 16 (tag ++ (body ++ rest)) >>= fun p =>
      (if p.1 = bytecodeStreamTag then SQClosure.load memory depth root
        else throw (.raised "invalid stream")) p.2) = _
    rw [hword.whole]
    exact hreads.whole rest

end Reading

section Slots

variable {ρ : Type}

/-- The machine with other values in the slots of its stack. -/
def withSlots (m : Machine ρ) (f : Int → SQObject) : Machine ρ :=
  { m with heap := { m.heap with cells := Function.update m.heap.cells m.vm.stack.vals f } }

theorem withSlots_self (m : Machine ρ) : withSlots m m.slot = m := by
  have hcells : Function.update m.heap.cells m.vm.stack.vals m.slot = m.heap.cells :=
    Function.update_eq_self _ _
  rw [withSlots, hcells]

theorem slot_withSlots (m : Machine ρ) (f : Int → SQObject) : (withSlots m f).slot = f := by
  funext j
  simp [Machine.slot, withSlots]

theorem withSlots_inj {m : Machine ρ} {f g : Int → SQObject} :
    withSlots m f = withSlots m g ↔ f = g := by
  constructor
  · intro h
    rw [← slot_withSlots m f, h, slot_withSlots]
  · rintro rfl
    rfl

theorem setSlot_withSlots (m : Machine ρ) (f : Int → SQObject) (i : Int) (v : SQObject) :
    (withSlots m f).setSlot i v = withSlots m (Function.update f i v) := by
  simp [withSlots, Machine.setSlot]

/-- What is in a slot once values are stored from slot `first` on. -/
def stored (first : Int) (vs : List SQObject) (f : Int → SQObject) (j : Int) : SQObject :=
  if first ≤ j then vs.getD (j - first).toNat (f j) else f j

theorem stored_cons (first : Int) (v : SQObject) (vs : List SQObject) (f : Int → SQObject) :
    stored first (v :: vs) f = stored (first + 1) vs (Function.update f first v) := by
  funext j
  rcases lt_trichotomy j first with hlt | rfl | hgt
  · rw [stored, stored, if_neg (by omega), if_neg (by omega), Function.update_of_ne hlt.ne]
  · rw [stored, stored, if_pos (le_refl j), if_neg (by omega), Function.update_self]
    simp
  · have hnat : (j - first).toNat = (j - (first + 1)).toNat + 1 := by omega
    rw [stored, stored, if_pos (by omega), if_pos (by omega), hnat, List.getD_cons_succ,
      Function.update_of_ne hgt.ne']

theorem storeDefaults_eq (first : Int) (vs : List SQObject) (m : Machine ρ) (f : Int → SQObject) :
    storeDefaults first vs (withSlots m f) = withSlots m (stored first vs f) := by
  induction vs generalizing first f with
  | nil =>
    have hsame : stored first [] f = f := by
      funext j
      simp [stored]
    rw [hsame]
    rfl
  | cons v vs ih =>
    rw [storeDefaults, setSlot_withSlots, ih, stored_cons]

theorem stored_at {first : Int} {vs : List SQObject} (f : Int → SQObject) {k : Nat}
    (hk : k < vs.length) : stored first vs f (first + k) = vs[k] := by
  have hnat : (first + (k : Int) - first).toNat = k := by omega
  rw [stored, if_pos (by omega), hnat, List.getD_eq_getElem _ _ hk]

/-- Outside the slots from `first` on nothing is stored. -/
theorem stored_outside {first : Int} {vs : List SQObject} (f : Int → SQObject) {j : Int}
    (hj : ∀ k < vs.length, j ≠ first + k) : stored first vs f j = f j := by
  rw [stored]
  split
  · refine List.getD_eq_default _ _ ?_
    by_contra hlt
    exact hj (j - first).toNat (by omega) (by omega)
  · rfl

theorem bind_eq_iff {first base : Int} {vs ws : List SQObject} (hlen : vs.length = ws.length)
    (f : Int → SQObject) (this : Option SQObject) :
    (match this with
      | none => stored first vs f
      | some v => Function.update (stored first vs f) base v) = stored first ws f ↔
      (∀ k (hv : k < vs.length) (hw : k < ws.length), (this = none ∨ first + k ≠ base) →
        vs[k] = ws[k]) ∧ ∀ v, this = some v → v = stored first ws f base := by
  constructor
  · intro h
    refine ⟨fun k hv hw hor => ?_, ?_⟩
    · have hat := congrFun h (first + k)
      rw [stored_at f hw] at hat
      rcases hor with rfl | hne
      · exact (stored_at f hv).symm.trans hat
      · cases this with
        | none => exact (stored_at f hv).symm.trans hat
        | some v => exact (stored_at f hv).symm.trans ((Function.update_of_ne hne ..).symm.trans hat)
    · rintro v rfl
      exact (Function.update_self ..).symm.trans (congrFun h base)
  · rintro ⟨hvalues, hthis⟩
    have hsame : ∀ j, (this = none ∨ j ≠ base) → stored first vs f j = stored first ws f j := by
      intro j hj
      by_cases hin : ∃ k < vs.length, j = first + (k : Int)
      · obtain ⟨k, hv, rfl⟩ := hin
        rw [stored_at f hv, stored_at f (hlen ▸ hv)]
        exact hvalues k hv (hlen ▸ hv) hj
      · have hout : ∀ k < vs.length, j ≠ first + (k : Int) := fun k hk he => hin ⟨k, hk, he⟩
        rw [stored_outside f hout, stored_outside f (hlen ▸ hout)]
    funext j
    cases this with
    | none => exact hsame j (.inl rfl)
    | some v =>
      by_cases hj : j = base
      · rw [hj]
        exact (Function.update_self ..).trans (hthis v rfl)
      · exact (Function.update_of_ne hj ..).trans (hsame j (.inr hj))

end Slots

section Calls

variable {ρ : Type} (P : Platform ρ) (createArray : List SQObject → Machine ρ → SQObject × Machine ρ)
  (c : SQClosure) (args stackbase : Int) (m : Machine ρ)

/-- The function does not take that many arguments. -/
def WrongCount : Prop :=
  if c.function.members.varparams ≠ 0 then args < (c.function.counts.nparameters : Int) - 1
  else (c.function.counts.nparameters : Int) ≠ args ∧
    ¬ ((c.function.counts.ndefaultparams : Int) ≠ 0 ∧ args < c.function.counts.nparameters ∧
      c.function.counts.nparameters - args ≤ c.function.counts.ndefaultparams)

/-- The parameters that the call leaves to default values. -/
def missing : Nat :=
  if c.function.members.varparams ≠ 0 then 0 else (c.function.counts.nparameters - args).toNat

/-- The default values of the parameters that the call leaves out: the last ones. -/
def neededDefaults : List SQObject :=
  c.defaultparams.toList.drop (c.function.counts.ndefaultparams - missing c args)

/-- The arguments of the call alone: the extra ones gathered, null for a missing one. -/
def passed : Machine ρ :=
  if c.function.members.varparams ≠ 0 then
    gatherVarargs createArray (stackbase + ((c.function.counts.nparameters : Int) - 1))
      (args - ((c.function.counts.nparameters : Int) - 1)) m
  else storeDefaults (stackbase + args) (List.replicate (missing c args) .ofNull) m

/-- The call needs none of the values that the closure captured: each needed default is null (one
for `this` does not matter where an environment is bound), and a bound environment is the `this`
that the call passes. -/
structure CapturedUnused : Prop where
  defaults : ∀ k (hk : k < (neededDefaults c args).length), (c.env = none ∨ args + k ≠ 0) →
    (neededDefaults c args)[k] = .ofNull
  this : ∀ w, c.env = some w → (passed createArray c args stackbase m).heap.weakrefs w =
    (passed createArray c args stackbase m).slot stackbase

variable {P createArray c args stackbase m} {memory : BitVec 32} {root : Addr}

theorem readBack_counts : (readBack memory root c).function.counts = c.function.counts := by
  obtain ⟨⟨n, allocated, p, functions⟩, env, root', base, outers, defaults⟩ := c
  rfl

theorem readBack_varparams :
    (readBack memory root c).function.members.varparams = c.function.members.varparams := by
  obtain ⟨⟨n, allocated, p, functions⟩, env, root', base, outers, defaults⟩ := c
  rfl

theorem wrongCount_readBack : WrongCount (readBack memory root c) args ↔ WrongCount c args := by
  rw [WrongCount, readBack_varparams, readBack_counts]
  rfl

theorem missing_readBack : missing (readBack memory root c) args = missing c args := by
  rw [missing, readBack_varparams, readBack_counts]
  rfl

theorem missing_le (h : ¬ WrongCount c args) : missing c args ≤ c.function.counts.ndefaultparams := by
  rw [WrongCount] at h
  rw [missing]
  split at h
  · rw [if_pos ‹_›]
    omega
  · rw [if_neg ‹_›]
    omega

theorem neededDefaults_length (h : ¬ WrongCount c args) :
    (neededDefaults c args).length = missing c args := by
  have hle := missing_le h
  rw [neededDefaults, List.length_drop, List.Vector.toList_length]
  omega

theorem neededDefaults_readBack (h : ¬ WrongCount c args) :
    neededDefaults (readBack memory root c) args = List.replicate (missing c args) .ofNull := by
  have hle := missing_le h
  rw [neededDefaults, missing_readBack]
  show (List.replicate (readBack memory root c).function.counts.ndefaultparams _).drop
    ((readBack memory root c).function.counts.ndefaultparams - _) = _
  rw [readBack_counts, List.drop_replicate]
  congr 1
  omega

/-- A call with a wrong count fails with one message for both closures. -/
theorem places_of_wrongCount (h : WrongCount c args) :
    placeParameters P createArray (readBack memory root c) args stackbase m =
      placeParameters P createArray c args stackbase m := by
  rw [WrongCount] at h
  simp only [placeParameters, readBack_counts, readBack_varparams]
  by_cases hvar : c.function.members.varparams ≠ 0
  · rw [if_pos hvar] at h
    simp only [if_pos hvar, if_pos h]
  · rw [if_neg hvar] at h
    simp only [if_neg hvar, if_neg h.1, if_neg h.2]

/-- The arguments of a call, with values for those that it leaves out. -/
def arranged (createArray : List SQObject → Machine ρ → SQObject × Machine ρ) (c : SQClosure)
    (args stackbase : Int) (values : List SQObject) (m : Machine ρ) : Machine ρ :=
  if c.function.members.varparams ≠ 0 then
    gatherVarargs createArray (stackbase + ((c.function.counts.nparameters : Int) - 1))
      (args - ((c.function.counts.nparameters : Int) - 1)) m
  else storeDefaults (stackbase + args) values m

theorem places (h : ¬ WrongCount c args) :
    placeParameters P createArray c args stackbase m =
      (some (), bindThis c stackbase (arranged createArray c args stackbase (neededDefaults c args) m)) := by
  have hle := missing_le h
  rw [WrongCount] at h
  simp only [placeParameters, arranged]
  by_cases hvar : c.function.members.varparams ≠ 0
  · rw [if_pos hvar] at h
    simp only [if_pos hvar, if_neg h]
  · rw [if_neg hvar] at h
    simp only [if_neg hvar]
    by_cases heq : (c.function.counts.nparameters : Int) = args
    · have hnone : neededDefaults c args = [] := by
        have hzero : missing c args = 0 := by
          rw [missing, if_neg hvar]
          omega
        rw [← List.length_eq_zero_iff, neededDefaults, List.length_drop, List.Vector.toList_length]
        omega
      rw [if_pos heq, hnone]
      rfl
    · have hdefaults := not_not.mp fun hn => h ⟨heq, hn⟩
      have hdrop : ((c.function.counts.ndefaultparams : Int) -
          (c.function.counts.nparameters - args)).toNat =
            c.function.counts.ndefaultparams - missing c args := by
        rw [missing, if_neg hvar]
        omega
      rw [if_neg heq, if_pos hdefaults, hdrop]
      rfl

/-- A call of the closure read back places the arguments alone. -/
theorem readBack_places (h : ¬ WrongCount c args) :
    placeParameters P createArray (readBack memory root c) args stackbase m =
      (some (), passed createArray c args stackbase m) := by
  rw [places (mt wrongCount_readBack.mp h), neededDefaults_readBack h, arranged,
    readBack_varparams, readBack_counts]
  rfl

theorem setSlot_eq_self_iff {m : Machine ρ} {i : Int} {v : SQObject} :
    m.setSlot i v = m ↔ v = m.slot i := by
  constructor
  · intro h
    have hslot := congrArg (fun m => Machine.slot m i) h
    simpa [Machine.slot_setSlot] using hslot
  · rintro rfl
    simp [Machine.setSlot, Machine.slot]

/-- Binding changes nothing exactly when the environment is the `this` that is there. -/
theorem bindThis_eq_self_iff {m : Machine ρ} :
    bindThis c stackbase m = m ↔ ∀ w, c.env = some w → m.heap.weakrefs w = m.slot stackbase := by
  rw [bindThis]
  cases c.env with
  | none => simp
  | some w => simp [setSlot_eq_self_iff]

theorem weakrefs_withSlots (m : Machine ρ) (f : Int → SQObject) :
    (withSlots m f).heap.weakrefs = m.heap.weakrefs := rfl

/-- Without varargs, the original places what the closure read back places exactly when its captured
values are not used. -/
theorem bindThis_storeDefaults_iff (h : ¬ WrongCount c args)
    (hvar : ¬ c.function.members.varparams ≠ 0) :
    bindThis c stackbase (storeDefaults (stackbase + args) (neededDefaults c args) m) =
      passed createArray c args stackbase m ↔ CapturedUnused createArray c args stackbase m := by
  have hlen : (neededDefaults c args).length =
      (List.replicate (missing c args) SQObject.ofNull).length := by
    rw [neededDefaults_length h, List.length_replicate]
  have hpassed : passed createArray c args stackbase m = withSlots m
      (stored (stackbase + args) (List.replicate (missing c args) .ofNull) m.slot) := by
    rw [passed, if_neg hvar, ← storeDefaults_eq, withSlots_self]
  have hbound : bindThis c stackbase (storeDefaults (stackbase + args) (neededDefaults c args) m) =
      withSlots m (match c.env.map m.heap.weakrefs with
        | none => stored (stackbase + args) (neededDefaults c args) m.slot
        | some v => Function.update
            (stored (stackbase + args) (neededDefaults c args) m.slot) stackbase v) := by
    have hstored := storeDefaults_eq (stackbase + args) (neededDefaults c args) m m.slot
    rw [withSlots_self] at hstored
    rw [hstored, bindThis]
    cases c.env with
    | none => rfl
    | some w => exact setSlot_withSlots ..
  rw [hbound, hpassed, withSlots_inj, bind_eq_iff hlen]
  constructor
  · rintro ⟨hdefaults, hthis⟩
    refine ⟨fun k hk hor => ?_, fun w hw => ?_⟩
    · have hvalue := hdefaults k hk (hlen ▸ hk) (by
        rcases hor with hnone | hne
        · exact .inl (by rw [hnone]; rfl)
        · exact .inr (by omega))
      rw [hvalue, List.getElem_replicate]
    · rw [hpassed, slot_withSlots, weakrefs_withSlots]
      exact hthis _ (by rw [hw]; rfl)
  · rintro ⟨hdefaults, hthis⟩
    refine ⟨fun k hk hk' hor => ?_, fun v hv => ?_⟩
    · rw [List.getElem_replicate]
      refine hdefaults k hk ?_
      rcases hor with hnone | hne
      · exact .inl (Option.map_eq_none_iff.mp hnone)
      · exact .inr (by omega)
    · obtain ⟨w, hw, rfl⟩ := Option.map_eq_some_iff.mp hv
      have hbound := hthis w hw
      rwa [hpassed, slot_withSlots, weakrefs_withSlots] at hbound

/-- The two closures start a call alike exactly when its count is wrong or it makes no use of what
was captured. -/
theorem placeParameters_eq_iff :
    placeParameters P createArray (readBack memory root c) args stackbase m =
      placeParameters P createArray c args stackbase m ↔
      WrongCount c args ∨ CapturedUnused createArray c args stackbase m := by
  by_cases h : WrongCount c args
  · exact ⟨fun _ => .inl h, fun _ => places_of_wrongCount h⟩
  · have hpair : ∀ m' : Machine ρ, (some (), passed createArray c args stackbase m) = (some (), m') ↔
        m' = passed createArray c args stackbase m := by
      intro m'
      rw [Prod.mk.injEq, eq_comm]
      exact ⟨fun hm => hm.2.symm, fun hm => ⟨rfl, hm.symm⟩⟩
    rw [readBack_places h, places h, hpair, arranged]
    by_cases hvar : c.function.members.varparams ≠ 0
    · have hgathered : passed createArray c args stackbase m =
          gatherVarargs createArray (stackbase + ((c.function.counts.nparameters : Int) - 1))
            (args - ((c.function.counts.nparameters : Int) - 1)) m := if_pos hvar
      have hnone : neededDefaults c args = [] := by
        rw [← List.length_eq_zero_iff, neededDefaults_length h, missing, if_pos hvar]
      rw [if_pos hvar, ← hgathered, bindThis_eq_self_iff]
      refine ⟨fun hthis => .inr ⟨fun k hk _ => ?_, hthis⟩, fun hor => (hor.resolve_left h).this⟩
      rw [hnone] at hk
      exact absurd hk (Nat.not_lt_zero k)
    · rw [if_neg hvar, bindThis_storeDefaults_iff h hvar]
      exact ⟨.inr, fun hor => hor.resolve_left h⟩

end Calls

section Behaviour

/-- The two closures start a call with the same parameters, or fail with the same error. -/
def StartsAlike {ρ : Type} (P : Platform ρ)
    (createArray : List SQObject → Machine ρ → SQObject × Machine ρ) (c c' : SQClosure)
    (args stackbase : Int) (m : Machine ρ) : Prop :=
  placeParameters P createArray c' args stackbase m = placeParameters P createArray c args stackbase m

/-- A closure that is read from the stream of another has its code, and starts a call alike exactly
when the call has a wrong count or uses neither a default value nor a bound environment. -/
theorem startsAlike_iff {c : SQClosure} {bytes : List UInt8} (h : writeClosure c = .ok bytes)
    (memory : BitVec 32) (root : Addr) {depth : Nat} (hdepth : c.function.depth ≤ depth)
    (rest : List UInt8) :
    ∃ c', (readClosure memory depth root).run (bytes ++ rest) = .ok (c', rest) ∧
      c'.function = repadded memory c.function ∧
      ∀ (ρ : Type) (P : Platform ρ)
        (createArray : List SQObject → Machine ρ → SQObject × Machine ρ) (args stackbase : Int)
        (m : Machine ρ), StartsAlike P createArray c c' args stackbase m ↔
          WrongCount c args ∨ CapturedUnused createArray c args stackbase m :=
  ⟨readBack memory root c, read_of_written h memory root hdepth rest, rfl,
    fun _ _ _ _ _ _ => placeParameters_eq_iff⟩

/-- `function f(x = 1)`, whose body returns. -/
def defaultProto : SQFunctionProto :=
  .mk ⟨0, 2, 0, 0, 0, 1, 1, 0⟩ (by decide)
    { sourcename := .null
      name := outerProto.members.name
      literals := List.Vector.nil
      parameters := outerProto.members.parameters
      outervalues := List.Vector.nil
      localvarinfos := List.Vector.nil
      lineinfos := List.Vector.nil
      defaultparams := ⟨[1], rfl⟩
      instructions := leafProto.members.instructions
      stacksize := 2
      bgenerator := false
      varparams := 0 }
    fun i => i.elim0

def defaultClosure : SQClosure where
  function := defaultProto
  env := none
  root := 64
  base := none
  outervalues := List.Vector.nil
  defaultparams := ⟨[.ofInteger 1], rfl⟩

theorem defaultClosure_written : ∃ bytes, writeClosure defaultClosure = .ok bytes := ⟨_, rfl⟩

theorem startsAlike_iff_defaultClosure :
    ∃ bytes, writeClosure defaultClosure = .ok bytes ∧
      ∃ c', (readClosure 0 1 64).run (bytes ++ [7]) = .ok (c', [7]) ∧
        c'.function = repadded 0 defaultProto ∧
        ∀ (ρ : Type) (P : Platform ρ)
          (createArray : List SQObject → Machine ρ → SQObject × Machine ρ) (args stackbase : Int)
          (m : Machine ρ), StartsAlike P createArray defaultClosure c' args stackbase m ↔
            WrongCount defaultClosure args ∨
              CapturedUnused createArray defaultClosure args stackbase m := by
  obtain ⟨bytes, hwritten⟩ := defaultClosure_written
  exact ⟨bytes, hwritten, startsAlike_iff hwritten 0 64 (by decide) [7]⟩

/-- A call of `f` without an argument starts with 1, one of what is read back with null. -/
theorem not_startsAlike :
    ¬ ∀ (c : SQClosure) (bytes : List UInt8), writeClosure c = .ok bytes →
      ∀ (memory : BitVec 32) (root : Addr) (depth : Nat), c.function.depth ≤ depth →
        ∃ c', (readClosure memory depth root).run bytes = .ok (c', []) ∧
          ∀ (P : Platform Unit)
            (createArray : List SQObject → Machine Unit → SQObject × Machine Unit)
            (args stackbase : Int) (m : Machine Unit),
            StartsAlike P createArray c c' args stackbase m := by
  intro hall
  obtain ⟨bytes, hwritten⟩ := defaultClosure_written
  obtain ⟨c', hread, halike⟩ := hall defaultClosure bytes hwritten 0 64 1 (by decide)
  have hdepth : defaultClosure.function.depth ≤ 1 := by decide
  have hread' := read_of_written hwritten 0 64 hdepth []
  rw [List.append_nil, hread] at hread'
  obtain rfl : c' = readBack 0 64 defaultClosure := congrArg Prod.fst (Except.ok.inj hread')
  rcases placeParameters_eq_iff.mp (halike default (fun _ m => (.ofNull, m)) 1 0 default) with
    hcount | hunused
  · have hcount' : (2 : Int) ≠ 1 ∧ ¬ ((1 : Int) ≠ 0 ∧ (1 : Int) < 2 ∧ (2 : Int) - 1 ≤ 1) := hcount
    exact hcount'.2 (by decide)
  · exact absurd (hunused.defaults 0 (by decide) (.inl rfl)) (by decide)

end Behaviour

end Sqnim.Bytecode.ReadBack
