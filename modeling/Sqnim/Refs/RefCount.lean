import Sqnim.Refs.Balances

/-!
# Asking for a reference count

`GetRefCount` looks an object up with the flag that adds it where it is absent. A host that asks for
objects it holds changes nothing; asking for another one makes the table hold it.
-/
namespace Sqnim.Refs

open Sqnim.Object
open SQObjectType

namespace RefTable

def getRefCount (hash : SQObject → Nat) (t : RefTable) (obj : SQObject) :
    Except Fault (RefTable × Nat) := do
  let l ← t.get hash obj true
  match l.ref with
  | none => .error .nullPointer
  | some ref => .ok (l.table, (l.table.nodes ref).refs)

end RefTable

def sqGetrefcount (hash : SQObject → Nat) (t : RefTable) (po : SQObject) :
    Except Fault (RefTable × Nat) :=
  if po.type.isRefCounted then t.getRefCount hash po else .ok (t, 0)

namespace RefCount

open RefTable Balances

inductive HostCall where
  | addref (po : SQObject)
  | release (po : SQObject)
  | getrefcount (po : SQObject)
  deriving DecidableEq, Repr

/-- What a call returns. -/
inductive Answer where
  | nothing
  | released (last : Bool)
  | count (refs : Nat)
  deriving DecidableEq, Repr

def HostCall.asks : HostCall → Bool
  | .getrefcount _ => true
  | _ => false

def Answer.counts : Answer → Bool
  | .count _ => true
  | _ => false

section Run

variable (hash : SQObject → Nat)

def step (t : RefTable) : HostCall → Except Fault (RefTable × Answer)
  | .addref po => (sqAddref hash t po).map fun t => (t, .nothing)
  | .release po => (sqRelease hash t po).map fun r => (r.1, .released r.2)
  | .getrefcount po => (sqGetrefcount hash t po).map fun r => (r.1, .count r.2)

/-- The answers so far, and the table or the fault that ended the run. -/
structure Play where
  answers : List Answer
  table : Except Fault RefTable

def Play.step (p : Play) (c : HostCall) : Play :=
  match p.table with
  | .error e => ⟨p.answers, .error e⟩
  | .ok t =>
    match RefCount.step hash t c with
    | .error e => ⟨p.answers, .error e⟩
    | .ok (t, a) => ⟨p.answers ++ [a], .ok t⟩

def play (calls : List HostCall) : Play := calls.foldl (Play.step hash) ⟨[], .ok init⟩

theorem play_append (calls : List HostCall) (c : HostCall) :
    play hash (calls ++ [c]) = (play hash calls).step hash c := by
  rw [play, List.foldl_append]
  rfl

end Run

/-- The calls without the questions. -/
def others (calls : List HostCall) : List HostCall := calls.filter fun c => !c.asks

def othersAnswers (answers : List Answer) : List Answer := answers.filter fun a => !a.counts

/-- The objects that the table keeps alive. -/
def keptAlive (t : RefTable) : Set SQObject :=
  { o | ∃ i < t.numofslots, (t.nodes i).obj = o ∧ o.type ≠ otNull }

/-- The property of a run: without its questions the other calls have the same results and the table
keeps the same objects alive, and each question is answered with the number of `sq_addref` calls
less the number of `sq_release` calls so far. -/
structure ChangesNothing (hash : SQObject → Nat) (calls : List HostCall) : Prop where
  answers : (play hash (others calls)).answers = othersAnswers (play hash calls).answers
  faults : ∀ e, (play hash (others calls)).table = .error e ↔ (play hash calls).table = .error e
  alive : ∀ t t', (play hash calls).table = .ok t → (play hash (others calls)).table = .ok t' →
    keptAlive t = keptAlive t'
  count : ∀ (k : Nat) o a, calls[k]? = some (.getrefcount o) →
    (play hash calls).answers[k]? = some a →
      ∃ n, a = .count n ∧ (n : Int) = (calls.take k).count (.addref o) -
        (calls.take k).count (.release o)

/-- The call that reaches the table. -/
def HostCall.reaches : HostCall → Option Call
  | .addref po => if po.type.isRefCounted then some (.addref po) else none
  | .release po => if po.type.isRefCounted then some (.release po) else none
  | .getrefcount _ => none

def tracked (calls : List HostCall) : List Call := calls.filterMap HostCall.reaches

/-- As long as no object is released more often than it was added, the host asks for an object that
it holds; of a value that is not reference counted, it asks when as many calls added it as released
it. -/
def AsksForHeld (calls : List HostCall) : Prop :=
  ∀ (k : Nat) o, calls[k]? = some (.getrefcount o) → Balanced (tracked (calls.take k)) →
    if o.type.isRefCounted then 0 < balance (tracked (calls.take k)) o
    else (calls.take k).count (.addref o) = (calls.take k).count (.release o)

/-! ## One call -/

section Step

variable {hash : SQObject → Nat} {t : RefTable} {m : SQObject → Nat} {o : SQObject}

/-- A question about an object that is held finds its node. -/
theorem getRefCount_held (h : Holds hash t m) (ho : Counted o) (hm : 0 < m o) :
    t.getRefCount hash o = .ok (t, m o) := by
  obtain ⟨free, chain, hs, hc⟩ := h
  obtain ⟨i, ⟨hi, hobj⟩, -⟩ := hc.unique o ho hm
  obtain ⟨prev, rest, -, hget⟩ := get_present hs ho hi hobj true
  have hrefs := (hc.held i hi (by rw [hobj]; exact ho.ne_null)).2.2
  rw [hobj] at hrefs
  rw [getRefCount, hget]
  show Except.ok (t, (t.nodes i).refs) = _
  rw [hrefs]

theorem release_absent (h : Holds hash t m) (ho : Counted o) (hm : m o = 0) :
    t.release hash o = .error .assertion := by
  obtain ⟨free, chain, hs, hc⟩ := h
  obtain ⟨prev, hget⟩ := get_absent hs ((absent_iff hc ho).mpr hm) false
  rw [release, hget]
  rfl

/-- A question about an object that is not held adds it. -/
theorem getRefCount_absent (h : Holds hash t m) (ho : Counted o) (hm : m o = 0) :
    ∃ t' n, t.getRefCount hash o = .ok (t', n) ∧ o ∈ keptAlive t' := by
  obtain ⟨free, chain, hs, hc⟩ := h
  obtain ⟨prev, hget⟩ := get_absent hs ((absent_iff hc ho).mpr hm) true
  obtain ⟨t₁, i, free₁, chain₁, hs₁, hc₁, hadd⟩ := getOrAdd_fresh hs hc prev (o := o)
  have hadded := added_fill hs₁ (t₁.mainPosition hash o) o
  refine ⟨_, ((t₁.fill (t₁.mainPosition hash o) i o).nodes i).refs, ?_, i, ?_, hadded.obj,
    ho.ne_null⟩
  · rw [getRefCount, hget, hadd]
    rfl
  · exact hadded.size ▸ hadded.slot

theorem not_kept (h : Holds hash t m) (ho : Counted o) (hm : m o = 0) : o ∉ keptAlive t := by
  obtain ⟨free, chain, hs, hc⟩ := h
  rintro ⟨i, hi, hobj, -⟩
  exact (absent_iff hc ho).mpr hm i hi hobj

end Step

theorem tracked_append (calls : List HostCall) (c : HostCall) :
    tracked (calls ++ [c]) = tracked calls ++ c.reaches.toList := by
  rw [tracked, List.filterMap_append, List.filterMap_cons]
  cases c.reaches <;> rfl

/-- The question of a call is one that a host may ask. -/
def Held (m : SQObject → Nat) : HostCall → Prop
  | .getrefcount o => Counted o → 0 < m o
  | _ => True

/-- What a call answers when it is a question. -/
def reply (m : SQObject → Nat) (o : SQObject) : Nat := if o.type.isRefCounted then m o else 0

/-- A call that the table can serve. -/
structure Served (hash : SQObject → Nat) (t : RefTable) (calls : List HostCall) (c : HostCall) :
    Prop where
  balanced : Balanced (tracked (calls ++ [c]))
  run : ∃ t' a, step hash t c = .ok (t', a) ∧
    Holds hash t' (balance (tracked (calls ++ [c]))) ∧ a.counts = c.asks ∧
    (c.asks = true → t' = t) ∧
    ∀ o, c = .getrefcount o → a = .count (reply (balance (tracked calls)) o)

section Step

variable {hash : SQObject → Nat} {t : RefTable} {calls : List HostCall} {c : HostCall}
  (h : Holds hash t (balance (tracked calls))) (hb : Balanced (tracked calls))
include h hb

theorem served_addref (o : SQObject) : Served hash t calls (.addref o) := by
  by_cases ho : Counted o
  · have hreaches : (HostCall.addref o).reaches = some (.addref o) := if_pos ho
    have hcalls : tracked (calls ++ [.addref o]) = tracked calls ++ [.addref o] := by
      rw [tracked_append, hreaches]
      rfl
    have hb' := hb.append_addref o
    obtain ⟨t', hrun, hholds⟩ := apply_spec h hb'
    have hrun' : sqAddref hash t o = .ok t' := hrun
    rw [← hcalls] at hb' hholds
    refine ⟨hb', t', .nothing, ?_, hholds, rfl, nofun, nofun⟩
    rw [step, hrun']
    rfl
  · have hreaches : (HostCall.addref o).reaches = none := if_neg ho
    have hcalls : tracked (calls ++ [.addref o]) = tracked calls := by
      rw [tracked_append, hreaches]
      exact List.append_nil _
    have hrun : sqAddref hash t o = .ok t := if_neg ho
    refine ⟨hcalls ▸ hb, t, .nothing, ?_, hcalls ▸ h, rfl, nofun, nofun⟩
    rw [step, hrun]
    rfl

theorem served_release (o : SQObject) :
    Served hash t calls (.release o) ∨
      (¬ Balanced (tracked (calls ++ [.release o])) ∧ step hash t (.release o) = .error .assertion) := by
  by_cases ho : Counted o
  · have hreaches : (HostCall.release o).reaches = some (.release o) := if_pos ho
    have hcalls : tracked (calls ++ [.release o]) = tracked calls ++ [.release o] := by
      rw [tracked_append, hreaches]
      rfl
    have hcall : sqRelease hash t o = t.release hash o := if_pos ho
    by_cases hm : balance (tracked calls) o = 0
    · refine .inr ⟨?_, ?_⟩
      · intro hb'
        rw [hcalls] at hb'
        have hpos := hb'.pos
        omega
      · rw [step, hcall, release_absent h ho hm]
        rfl
    · have hpos : 0 < balance (tracked calls) o := by omega
      obtain ⟨t', hrun, hholds⟩ := release_spec h ho hpos
      rw [← balance_release, ← hcalls] at hholds
      have hb' := hb.append_release hpos
      rw [← hcalls] at hb'
      refine .inl ⟨hb', t', .released (decide (balance (tracked calls) o = 1)), ?_, hholds, rfl, nofun, nofun⟩
      rw [step, hcall, hrun]
      rfl
  · have hreaches : (HostCall.release o).reaches = none := if_neg ho
    have hcalls : tracked (calls ++ [.release o]) = tracked calls := by
      rw [tracked_append, hreaches]
      exact List.append_nil _
    have hrun : sqRelease hash t o = .ok (t, true) := if_neg ho
    refine .inl ⟨hcalls ▸ hb, t, .released true, ?_, hcalls ▸ h, rfl, nofun, nofun⟩
    rw [step, hrun]
    rfl

theorem served_getrefcount (o : SQObject) (hask : Held (balance (tracked calls)) (.getrefcount o)) :
    Served hash t calls (.getrefcount o) := by
  have hcalls : tracked (calls ++ [.getrefcount o]) = tracked calls := by
    rw [tracked_append]
    exact List.append_nil _
  have hrun : sqGetrefcount hash t o = .ok (t, reply (balance (tracked calls)) o) := by
    rw [sqGetrefcount, reply]
    split
    · next ho => exact getRefCount_held h ho (hask ho)
    · rfl
  refine ⟨hcalls ▸ hb, t, .count (reply (balance (tracked calls)) o), ?_, hcalls ▸ h, rfl,
    fun _ => rfl, ?_⟩
  · rw [step, hrun]
    rfl
  · rintro _ ⟨⟩
    rfl

/-- A call of a host that asks for what it holds is served, or releases too often. -/
theorem step_spec (hask : Held (balance (tracked calls)) c) :
    Served hash t calls c ∨
      (¬ Balanced (tracked (calls ++ [c])) ∧ c.asks = false ∧ step hash t c = .error .assertion) := by
  cases c with
  | addref o => exact .inl (served_addref h hb o)
  | release o =>
    obtain hserved | ⟨hnot, hrun⟩ := served_release h hb o
    · exact .inl hserved
    · exact .inr ⟨hnot, rfl, hrun⟩
  | getrefcount o => exact .inl (served_getrefcount h hb o hask)

end Step

/-! ## A run -/

/-- What holds along a run of a host that asks for what it holds. -/
structure Agrees (hash : SQObject → Nat) (calls : List HostCall) : Prop where
  same : play hash (others calls) =
    ⟨othersAnswers (play hash calls).answers, (play hash calls).table⟩
  held : Balanced (tracked calls) → ∃ t, (play hash calls).table = .ok t ∧
    Holds hash t (balance (tracked calls)) ∧ (play hash calls).answers.length = calls.length
  faulted : ¬ Balanced (tracked calls) → ∃ e, (play hash calls).table = .error e
  le : (play hash calls).answers.length ≤ calls.length
  replies : ∀ (k : Nat) o a, calls[k]? = some (.getrefcount o) →
    (play hash calls).answers[k]? = some a → Balanced (tracked (calls.take k)) ∧
      a = .count (reply (balance (tracked (calls.take k))) o)

section Run

variable {hash : SQObject → Nat} {calls : List HostCall} {c : HostCall} {p : Play}

theorem Play.step_error {e : Fault} (h : p.table = .error e) : p.step hash c = p := by
  obtain ⟨answers, table⟩ := p
  cases h
  rfl

theorem Play.step_ok {t t' : RefTable} {a : Answer} (h : p.table = .ok t)
    (hrun : RefCount.step hash t c = .ok (t', a)) :
    p.step hash c = ⟨p.answers ++ [a], .ok t'⟩ := by
  obtain ⟨answers, table⟩ := p
  cases h
  simp only [Play.step, hrun]

theorem Play.step_fault {t : RefTable} {e : Fault} (h : p.table = .ok t)
    (hrun : RefCount.step hash t c = .error e) : p.step hash c = ⟨p.answers, .error e⟩ := by
  obtain ⟨answers, table⟩ := p
  cases h
  simp only [Play.step, hrun]

theorem others_append (calls : List HostCall) (c : HostCall) :
    others (calls ++ [c]) = others calls ++ if c.asks then [] else [c] := by
  rw [others, List.filter_append]
  cases c <;> rfl

theorem othersAnswers_append (answers : List Answer) (a : Answer) :
    othersAnswers (answers ++ [a]) = othersAnswers answers ++ if a.counts then [] else [a] := by
  rw [othersAnswers, List.filter_append]
  cases a <;> rfl

theorem agrees_nil (hash : SQObject → Nat) : Agrees hash [] where
  same := rfl
  held _ := ⟨init, rfl, holds_init hash, rfl⟩
  faulted h := absurd (fun _ _ => by simp [tracked]) h
  le := Nat.le_refl _
  replies _ _ _ h := by cases h

/-- The answers of earlier calls stay. -/
theorem Agrees.replies_append (h : Agrees hash calls)
    (hold : ∀ k < calls.length, ∀ a, (play hash (calls ++ [c])).answers[k]? = some a →
      (play hash calls).answers[k]? = some a)
    (hnew : ∀ o a, c = .getrefcount o →
      (play hash (calls ++ [c])).answers[calls.length]? = some a →
        Balanced (tracked calls) ∧ a = .count (reply (balance (tracked calls)) o))
    (k : Nat) (o : SQObject) (a : Answer) (hk : (calls ++ [c])[k]? = some (.getrefcount o))
    (ha : (play hash (calls ++ [c])).answers[k]? = some a) :
    Balanced (tracked ((calls ++ [c]).take k)) ∧
      a = .count (reply (balance (tracked ((calls ++ [c]).take k))) o) := by
  obtain hlt | hge := Nat.lt_or_ge k calls.length
  · rw [List.getElem?_append_left hlt] at hk
    rw [List.take_append_of_le_length (Nat.le_of_lt hlt)]
    exact h.replies k o a hk (hold k hlt a ha)
  · obtain rfl : k = calls.length := by
      have hbound := (List.getElem?_eq_some_iff.mp hk).1
      rw [List.length_append, List.length_singleton] at hbound
      omega
    rw [List.getElem?_append_right (Nat.le_refl _), Nat.sub_self] at hk
    rw [List.take_left]
    exact hnew o a (Option.some.inj hk) ha

theorem Agrees.append (h : Agrees hash calls)
    (hask : Balanced (tracked calls) → Held (balance (tracked calls)) c) :
    Agrees hash (calls ++ [c]) := by
  have hplay := play_append hash calls c
  by_cases hb : Balanced (tracked calls)
  · obtain ⟨t, htable, hholds, hlen⟩ := h.held hb
    obtain ⟨hb', t', a, hrun, hholds', hcounts, hsame, hreply⟩ | ⟨hnot, hother, hrun⟩ :=
      step_spec hholds hb (hask hb)
    · rw [Play.step_ok htable hrun] at hplay
      have hlen' : (play hash (calls ++ [c])).answers.length = (calls ++ [c]).length := by
        rw [hplay, List.length_append, List.length_append, hlen]
        rfl
      refine ⟨?_, fun _ => ⟨t', by rw [hplay], hholds', hlen'⟩, fun hno => absurd hb' hno,
        Nat.le_of_eq hlen', h.replies_append ?_ ?_⟩
      · rw [others_append, hplay, othersAnswers_append, hcounts]
        cases hasks : c.asks with
        | true =>
          rw [if_pos rfl, if_pos rfl, List.append_nil, List.append_nil, h.same, htable,
            hsame hasks]
        | false =>
          rw [if_neg Bool.false_ne_true, if_neg Bool.false_ne_true, play_append, h.same]
          exact Play.step_ok htable hrun
      · intro k hk a' ha'
        rwa [hplay, List.getElem?_append_left (by omega)] at ha'
      · intro o a' hc ha'
        rw [hplay, ← hlen, List.getElem?_append_right (Nat.le_refl _), Nat.sub_self] at ha'
        cases ha'
        exact ⟨hb, hreply o hc⟩
    · rw [Play.step_fault htable hrun] at hplay
      refine ⟨?_, fun hb' => absurd hb' hnot, fun _ => ⟨_, by rw [hplay]⟩, ?_,
        h.replies_append ?_ ?_⟩
      · rw [others_append, hplay, hother, if_neg Bool.false_ne_true, play_append, h.same]
        exact Play.step_fault htable hrun
      · rw [hplay, List.length_append]
        exact Nat.le_add_right_of_le h.le
      · intro k _ a' ha'
        rwa [hplay] at ha'
      · intro o a' _ ha'
        rw [hplay] at ha'
        have hbound : calls.length < (play hash calls).answers.length :=
          (List.getElem?_eq_some_iff.mp ha').1
        have hle := h.le
        omega
  · obtain ⟨e, htable⟩ := h.faulted hb
    rw [Play.step_error htable] at hplay
    have hnot : ¬ Balanced (tracked (calls ++ [c])) := by
      intro hb'
      rw [tracked_append] at hb'
      cases hreaches : c.reaches with
      | none =>
        rw [hreaches] at hb'
        exact hb ((List.append_nil (tracked calls)) ▸ hb')
      | some call =>
        rw [hreaches] at hb'
        exact hb hb'.prefix
    refine ⟨?_, fun hb' => absurd hb' hnot, fun _ => ⟨e, by rw [hplay, htable]⟩, ?_,
      h.replies_append ?_ ?_⟩
    · rw [others_append, hplay]
      cases hasks : c.asks with
      | true => rw [if_pos rfl, List.append_nil, h.same]
      | false =>
        rw [if_neg Bool.false_ne_true, play_append, h.same]
        exact Play.step_error htable
    · rw [hplay, List.length_append]
      exact Nat.le_add_right_of_le h.le
    · intro k _ a' ha'
      rwa [hplay] at ha'
    · intro o a' _ ha'
      rw [hplay] at ha'
      have hbound := (List.getElem?_eq_some_iff.mp ha').1
      have hle := h.le
      omega

theorem AsksForHeld.take (h : AsksForHeld calls) (n : Nat) : AsksForHeld (calls.take n) := by
  intro k o hk hb
  have hlt : k < n := by
    have hbound := (List.getElem?_eq_some_iff.mp hk).1
    rw [List.length_take] at hbound
    omega
  rw [List.getElem?_take_of_lt hlt] at hk
  rw [List.take_take, Nat.min_eq_left (Nat.le_of_lt hlt)] at hb ⊢
  exact h k o hk hb

theorem agrees_of_asks (hash : SQObject → Nat) (h : AsksForHeld calls) : Agrees hash calls := by
  induction calls using List.reverseRecOn with
  | nil => exact agrees_nil hash
  | append_singleton calls c ih =>
    have hpre : AsksForHeld calls := by
      have htake := h.take calls.length
      rwa [List.take_left] at htake
    refine (ih hpre).append fun hb => ?_
    cases c with
    | addref o => trivial
    | release o => trivial
    | getrefcount o =>
      intro ho
      have hheld := h calls.length o (by simp)
      rw [List.take_left] at hheld
      have hcond := hheld hb
      rwa [if_pos (show o.type.isRefCounted = true from ho)] at hcond

/-- For a tracked object, the balance is the number of all calls. -/
theorem count_tracked {o : SQObject} (ho : Counted o) (calls : List HostCall) :
    (tracked calls).count (.addref o) = calls.count (.addref o) ∧
      (tracked calls).count (.release o) = calls.count (.release o) := by
  induction calls with
  | nil => exact ⟨rfl, rfl⟩
  | cons c calls ih =>
    rw [tracked, List.filterMap_cons]
    obtain ⟨iha, ihr⟩ := ih
    rw [tracked] at iha ihr
    cases c with
    | addref po =>
      by_cases hpo : Counted po
      · have hreaches : (HostCall.addref po).reaches = some (.addref po) := if_pos hpo
        simp [hreaches, List.count_cons, iha, ihr]
      · have hreaches : (HostCall.addref po).reaches = none := if_neg hpo
        have hne : po ≠ o := by
          rintro rfl
          exact hpo ho
        simp [hreaches, iha, ihr, hne]
    | release po =>
      by_cases hpo : Counted po
      · have hreaches : (HostCall.release po).reaches = some (.release po) := if_pos hpo
        simp [hreaches, List.count_cons, iha, ihr]
      · have hreaches : (HostCall.release po).reaches = none := if_neg hpo
        have hne : po ≠ o := by
          rintro rfl
          exact hpo ho
        simp [hreaches, iha, ihr, hne]
    | getrefcount po => simp [HostCall.reaches, iha, ihr]

theorem changesNothing_of_asks (hash : SQObject → Nat) (h : AsksForHeld calls) :
    ChangesNothing hash calls := by
  have hagrees := agrees_of_asks hash h
  refine ⟨congrArg Play.answers hagrees.same, ?_, ?_, ?_⟩
  · intro e
    rw [hagrees.same]
  · intro t t' ht ht'
    rw [hagrees.same, ht] at ht'
    cases ht'
    rfl
  · intro k o a hk ha
    obtain ⟨hb, rfl⟩ := hagrees.replies k o a hk ha
    refine ⟨_, rfl, ?_⟩
    have hheld := h k o hk hb
    rw [reply]
    split at hheld
    · next ho =>
      obtain ⟨hadd, hrel⟩ := count_tracked ho (calls.take k)
      have hle := hb.count_le o
      rw [if_pos ho, balance, hadd, hrel]
      omega
    · next ho =>
      rw [if_neg ho]
      omega

/-- The first question about an object that is not held makes a difference. -/
theorem held_of_changesNothing {o : SQObject} (hagrees : Agrees hash calls)
    (hb : Balanced (tracked calls)) (h : ChangesNothing hash (calls ++ [.getrefcount o])) :
    if o.type.isRefCounted then 0 < balance (tracked calls) o
    else calls.count (.addref o) = calls.count (.release o) := by
  obtain ⟨t, htable, hholds, hlen⟩ := hagrees.held hb
  have hplay := play_append hash calls (.getrefcount o)
  split
  · next ho =>
    refine Nat.pos_of_ne_zero fun hm => ?_
    obtain ⟨t', n, hget, hmem⟩ := getRefCount_absent hholds ho hm
    have hcall : sqGetrefcount hash t o = .ok (t', n) := (if_pos ho).trans hget
    have hrun : step hash t (.getrefcount o) = .ok (t', .count n) := by
      rw [step, hcall]
      rfl
    rw [Play.step_ok htable hrun] at hplay
    have hsame : (play hash (others (calls ++ [.getrefcount o]))).table = .ok t := by
      have hothers : others (calls ++ [.getrefcount o]) = others calls :=
        (others_append calls _).trans (List.append_nil _)
      rw [hothers, hagrees.same, htable]
    have halive := h.alive t' t (by rw [hplay]) hsame
    rw [halive] at hmem
    exact not_kept hholds ho hm hmem
  · next ho =>
    have hcall : sqGetrefcount hash t o = .ok (t, 0) := if_neg ho
    have hrun : step hash t (.getrefcount o) = .ok (t, .count 0) := by
      rw [step, hcall]
      rfl
    rw [Play.step_ok htable hrun] at hplay
    obtain ⟨n, hn, hcount⟩ := h.count calls.length o (.count 0) (by simp) (by
      rw [hplay, ← hlen]
      simp)
    cases hn
    rw [List.take_left] at hcount
    omega

/-- In every state of a run asking for reference counts has changed nothing, if and only if the host
asks only for objects that it holds. -/
theorem changesNothing_iff (hash : SQObject → Nat) (calls : List HostCall) :
    (∀ n, ChangesNothing hash (calls.take n)) ↔ AsksForHeld calls := by
  constructor
  · intro hall
    have hasks : ∀ n, AsksForHeld (calls.take n) := by
      intro n
      induction n with
      | zero =>
        intro k o hk
        simp at hk
      | succ n ih =>
        intro k o hk hb
        have hlt : k < n + 1 := by
          have hbound := (List.getElem?_eq_some_iff.mp hk).1
          rw [List.length_take] at hbound
          omega
        rw [List.take_take, Nat.min_eq_left (Nat.le_of_lt hlt)] at hb ⊢
        rw [List.getElem?_take_of_lt hlt] at hk
        have hpre : AsksForHeld (calls.take k) := by
          have htake := ih.take k
          rwa [List.take_take, Nat.min_eq_left (by omega)] at htake
        refine held_of_changesNothing (agrees_of_asks hash hpre) hb ?_
        have hlaw := hall (k + 1)
        rwa [List.take_add_one, hk] at hlaw
    have hlast := hasks calls.length
    rwa [List.take_length] at hlast
  · intro h n
    exact changesNothing_of_asks hash (h.take n)

/-- A question about a string that was never added keeps it alive. -/
theorem not_changesNothing : ¬ ChangesNothing (fun _ => 0) [.getrefcount (.ofString 16)] := by
  intro h
  have hcounted : Counted (.ofString 16) := rfl
  obtain ⟨t', n, hget, hmem⟩ := getRefCount_absent (holds_init fun _ => 0) hcounted rfl
  have hrun : step (fun _ => 0) init (.getrefcount (.ofString 16)) = .ok (t', .count n) := by
    have hcall : sqGetrefcount (fun _ => 0) init (.ofString 16) = .ok (t', n) := hget
    rw [step, hcall]
    rfl
  have hplay := Play.step_ok (p := ⟨[], .ok init⟩) rfl hrun
  have halive := h.alive t' init (congrArg Play.table hplay) rfl
  rw [halive] at hmem
  exact not_kept (holds_init fun _ => 0) hcounted rfl hmem

end Run

end RefCount

end Sqnim.Refs
