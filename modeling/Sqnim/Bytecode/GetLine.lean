import Sqnim.Compiler.FuncState

/-!
# SQFunctionProto::GetLine

A binary search that stops early, and a scan back from where it stops. In a line table whose offsets
do not decrease they find the last entry before an instruction.
-/
namespace Sqnim.Bytecode.GetLine

open Sqnim.Compiler

def opAt (t : List SQLineInfo) (i : Int) : Option Int :=
  if 0 ≤ i then t[i.toNat]?.map (·.op) else none

/-- The first loop, which leaves `mid`. -/
def search (t : List SQLineInfo) (op low high mid : Int) : Option Int :=
  if low ≤ high then do
    let mid := low + (high - low) / 2
    let curop ← opAt t mid
    if curop > op then search t op low (mid - 1) mid
    else if curop < op then
      if mid < t.length - 1 then do
        if (← opAt t (mid + 1)) ≥ op then some mid
        else search t op (mid + 1) high mid
      else search t op (mid + 1) high mid
    else some mid
  else some mid
termination_by (high + 1 - low).toNat
decreasing_by all_goals omega

/-- The second loop. -/
def scanBack (t : List SQLineInfo) (op : Int) : Nat → Option Nat
  | 0 => some 0
  | mid + 1 => do
    if (← opAt t (mid + 1 : Nat)) ≥ op then scanBack t op mid else some (mid + 1)

/-- `GetLine` of the instruction at the offset `op`; `none` is an access outside the table. -/
def getLine (t : List SQLineInfo) (op : Int) : Option Int := do
  let _ ← t[0]?
  let mid ← search t op 0 (t.length - 1) 0
  let mid ← scanBack t op mid.toNat
  let li ← t[mid]?
  some li.line

/-- The line of the last entry before an offset, or of the first entry if there is none. -/
def lineBefore (t : List SQLineInfo) (p : Int) : Option Int :=
  ((t.filter (·.op < p)).getLast?.or t.head?).map (·.line)

section Sorted

variable {t : List SQLineInfo} {p : Int}

def before (t : List SQLineInfo) (p : Int) : List SQLineInfo := t.takeWhile (·.op < p)

theorem before_length_le (t : List SQLineInfo) (p : Int) : (before t p).length ≤ t.length :=
  (List.takeWhile_prefix _).length_le

theorem opAt_eq {i : Int} (hi : 0 ≤ i) (hlt : i < t.length) :
    ∃ e, t[i.toNat]? = some e ∧ opAt t i = some e.op := by
  have hn : i.toNat < t.length := by omega
  refine ⟨t[i.toNat], List.getElem?_eq_getElem hn, ?_⟩
  rw [opAt, if_pos hi, List.getElem?_eq_getElem hn]
  rfl

theorem op_lt_iff (hs : t.Pairwise (·.op ≤ ·.op)) {i : Nat} {e : SQLineInfo} (he : t[i]? = some e) :
    e.op < p ↔ i < (before t p).length := by
  induction t generalizing i with
  | nil => cases he
  | cons d t ih =>
    obtain ⟨hd, hs⟩ := List.pairwise_cons.mp hs
    rw [before, List.takeWhile_cons]
    by_cases hdp : d.op < p
    · rw [if_pos (decide_eq_true hdp), List.length_cons]
      cases i with
      | zero =>
        cases he
        exact iff_of_true hdp (Nat.succ_pos _)
      | succ i =>
        rw [ih hs he]
        exact Nat.succ_lt_succ_iff.symm
    · rw [if_neg (by simpa using hdp)]
      refine iff_of_false (fun hep => hdp ?_) (Nat.not_lt_zero i)
      cases i with
      | zero =>
        cases he
        exact hep
      | succ i => exact Int.lt_of_le_of_lt (hd e (List.mem_of_getElem? he)) hep

theorem filter_eq_before (hs : t.Pairwise (·.op ≤ ·.op)) :
    t.filter (·.op < p) = before t p := by
  induction t with
  | nil => rfl
  | cons d t ih =>
    obtain ⟨hd, hs⟩ := List.pairwise_cons.mp hs
    rw [before, List.takeWhile_cons]
    by_cases hdp : d.op < p
    · rw [if_pos (decide_eq_true hdp), List.filter_cons, if_pos (decide_eq_true hdp), ih hs]
      rfl
    · rw [if_neg (by simpa using hdp), List.filter_eq_nil_iff]
      intro e he hep
      rw [decide_eq_true_eq] at hep
      obtain rfl | he := List.mem_cons.mp he
      · exact hdp hep
      · have hde := hd e he
        omega

theorem search_spec (hs : t.Pairwise (·.op ≤ ·.op)) {low high mid : Int} (hlow : 0 ≤ low)
    (hhigh : high < t.length) (hend : ((before t p).length : Int) ≤ high + 1) (hmid : 0 ≤ mid)
    (hmid' : mid < t.length) (hstop : high < low → ((before t p).length : Int) ≤ mid + 1) :
    ∃ m, search t p low high mid = some m ∧ 0 ≤ m ∧ m < t.length ∧
      ((before t p).length : Int) ≤ m + 1 := by
  induction hn : (high + 1 - low).toNat using Nat.strong_induction_on generalizing low high mid with
  | _ n ih =>
    rw [search]
    by_cases hle : low ≤ high
    · rw [if_pos hle]
      obtain ⟨m, hm⟩ : ∃ m, low + (high - low) / 2 = m := ⟨_, rfl⟩
      have hm0 : 0 ≤ m := by omega
      have hmlt : m < t.length := by omega
      obtain ⟨e, he, hop⟩ := opAt_eq hm0 hmlt
      have hlt := op_lt_iff (p := p) hs he
      simp only [hm, hop, Option.bind_eq_bind, Option.bind_some]
      split_ifs with hgt hless hnext
      · have hk : ¬ m.toNat < (before t p).length := fun h => by
          have := hlt.mpr h
          omega
        exact ih _ (by omega) hlow (by omega) (by omega) hm0 hmlt (fun _ => by omega) rfl
      · obtain ⟨e', he', hop'⟩ := opAt_eq (t := t) (i := m + 1) (by omega) (by omega)
        have hlt' := op_lt_iff (p := p) hs he'
        simp only [hop', Option.bind_some]
        split_ifs with hge
        · have hk : ¬ (m + 1).toNat < (before t p).length := fun h => by
            have := hlt'.mpr h
            omega
          exact ⟨m, rfl, hm0, hmlt, by omega⟩
        · exact ih _ (by omega) (by omega) hhigh hend hm0 hmlt (fun _ => by omega) rfl
      · exact ih _ (by omega) (by omega) hhigh hend hm0 hmlt (fun _ => by omega) rfl
      · have hk : ¬ m.toNat < (before t p).length := fun h => by
          have := hlt.mpr h
          omega
        exact ⟨m, rfl, hm0, hmlt, by omega⟩
    · rw [if_neg hle]
      exact ⟨mid, rfl, hmid, hmid', hstop (by omega)⟩

/-- The scan goes back to the last entry before `p`, or to the first entry. -/
theorem scanBack_spec (hs : t.Pairwise (·.op ≤ ·.op)) {mid : Nat} (hmid : mid < t.length)
    (hle : (before t p).length ≤ mid + 1) :
    scanBack t p mid = some ((before t p).length - 1) := by
  induction mid with
  | zero =>
    have hzero : (before t p).length - 1 = 0 := by omega
    rw [hzero, scanBack]
  | succ mid ih =>
    obtain ⟨e, he, hop⟩ := opAt_eq (t := t) (i := ((mid + 1 : Nat) : Int)) (by omega) (by omega)
    have hlt := op_lt_iff (p := p) hs he
    rw [Int.toNat_natCast] at hlt
    rw [scanBack, hop]
    simp only [Option.bind_eq_bind, Option.bind_some]
    split_ifs with hge
    · refine ih (by omega) (Nat.le_of_not_lt fun h => ?_)
      have hin : mid + 1 < (before t p).length := by omega
      have := hlt.mpr hin
      omega
    · have hin := hlt.mp (by omega)
      exact congrArg some (by omega)

/-- `GetLine` stays inside a table that is not empty and sorted, and finds the entry. -/
theorem getLine_eq (hne : t ≠ []) (hs : t.Pairwise (·.op ≤ ·.op)) (p : Int) :
    getLine t p = lineBefore t p ∧ (getLine t p).isSome := by
  have hlen := List.length_pos_iff.mpr hne
  have hle := before_length_le t p
  obtain ⟨m, hm, hm0, hmlt, hmk⟩ := @search_spec t p hs 0 (t.length - 1) 0 (by omega) (by omega)
    (by omega) (by omega) (by omega) (fun _ => by omega)
  have hback := @scanBack_spec t p hs m.toNat (by omega) (by omega)
  have hfirst : t[0]? = some t[0] := List.getElem?_eq_getElem hlen
  have hin : (before t p).length - 1 < t.length := by omega
  have hlast : t[(before t p).length - 1]? = some t[(before t p).length - 1] :=
    List.getElem?_eq_getElem hin
  have hline : getLine t p = some t[(before t p).length - 1].line := by
    simp only [getLine, hfirst, hm, hback, hlast, Option.bind_eq_bind, Option.bind_some]
  refine ⟨?_, by rw [hline]; rfl⟩
  rw [hline, lineBefore, filter_eq_before hs]
  by_cases hk : (before t p).length = 0
  · have hnil := List.length_eq_zero_iff.mp hk
    simp only [hnil, List.length_nil, List.getLast?_nil, Option.none_or, List.head?_eq_getElem?,
      hfirst, Option.map_some]
  · have hprefix : (before t p)[(before t p).length - 1]? = t[(before t p).length - 1]? := by
      rw [List.getElem?_eq_getElem (Nat.sub_lt (by omega) Nat.one_pos), List.getElem?_eq_getElem hin]
      exact congrArg some (List.IsPrefix.getElem (List.takeWhile_prefix _) _)
    rw [List.getLast?_eq_getElem?, hprefix, hlast]
    rfl

end Sorted

end Sqnim.Bytecode.GetLine
