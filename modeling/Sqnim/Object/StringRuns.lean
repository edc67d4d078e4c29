import Sqnim.Compiler.FuncState
import Sqnim.Object.Interning
import Sqnim.Table.Model
import Sqnim.Vm.Compare

/-!
# What interning gives

In every state that creations and releases of strings lead to, a live string is its content. So the
comparisons of addresses in `IsEqual`, in the lookup of a table and in that of a local variable are
comparisons of contents.
-/
namespace Sqnim.Object.SQStringTable

open Sqnim.Lib Sqnim.Lib.LinkedList

variable {α : Type} [DecidableEq α]

/-- The states of the string table, with the strings that are live in them. The allocator gives no
memory that is in use, and only live strings are released. -/
inductive Runs : SQStringTable α → List α → Prop
  | start (strings : α → SQString α) : Runs (init strings) []
  | create {t t' : SQStringTable α} {live : List α} {s : α} {content : List UInt8} (malloc : α)
    (news : List UInt8) (len : Int) (ht : Runs t live) (hgiven : given news len = .ok content)
    (hmalloc : malloc ∉ live) (h : t.add malloc news len = .ok (t', s)) : Runs t' (live.insert s)
  | release {t t' : SQStringTable α} {live : List α} (s : α) (ht : Runs t live) (hs : s ∈ live)
    (h : t.remove s = .ok t') : Runs t' (live.erase s)

variable {t : SQStringTable α} {live : List α}

omit [DecidableEq α] in
theorem holds_init (strings : α → SQString α) : Holds (init strings) [] fun _ => [] where
  shape := shape_allocNodes _ (by decide)
  mem_iff := fun _ => Iff.rfl
  nodup := List.nodup_nil
  used := rfl
  stored := fun _ hs => absurd hs List.not_mem_nil
  distinct := fun _ hs => absurd hs List.not_mem_nil

theorem Runs.holds (h : Runs t live) :
    live.length ≤ t.numofslots ∧ ∃ chain, Holds t live chain := by
  induction h with
  | start strings => exact ⟨Nat.zero_le _, _, holds_init strings⟩
  | create malloc news len ht hgiven hmalloc h ih =>
    obtain ⟨hcrowded, chain, hholds⟩ := ih
    obtain ⟨t', s, chain', hrun, hholds', hcrowded', -⟩ := hholds.add hcrowded hmalloc hgiven
    obtain ⟨rfl, rfl⟩ := Prod.mk.inj (Except.ok.inj (h.symm.trans hrun))
    exact ⟨hcrowded', chain', hholds'⟩
  | release s ht hs h ih =>
    obtain ⟨hcrowded, chain, hholds⟩ := ih
    obtain ⟨t', hrun, hholds', hsize, -⟩ := hholds.remove hcrowded hs
    obtain rfl := Except.ok.inj (h.symm.trans hrun)
    refine ⟨?_, _, hholds'⟩
    rw [hsize]
    exact List.length_erase_le.trans hcrowded

/-! ## Comparisons of addresses -/

section Lookups

open Sqnim.Vm.Compare Sqnim.Table Sqnim.Compiler

variable {t : SQStringTable (BitVec 64)} {live : List (BitVec 64)}

/-- Two objects agree, strings by their contents. -/
def sameObject (t : SQStringTable (BitVec 64)) (a b : SQObject) : Bool :=
  if a.type = .otString ∧ b.type = .otString then t.content a.unVal == t.content b.unVal else a == b

/-- A string that the object refers to is live. -/
def Refers (live : List (BitVec 64)) (o : SQObject) : Prop := o.type = .otString → o.unVal ∈ live

/-- `_Get` with the keys compared by content. -/
def getNodeByContent {V : Type} (strings : SQStringTable (BitVec 64)) (t : SQTable SQObject V)
    (key : SQObject) (h : Nat) : Except Table.Fault (Option Nat) :=
  match Chain.search t.links
      (fun i => match (t.nodes i).key with
        | some k => strings.sameObject k key
        | none => false) t.numOfNodes h with
  | .at n => .ok (some n)
  | .nowhere => .ok none
  | .outOfFuel => .error .walk

/-- `GetLocalVariable` on the names as objects, which compares the addresses of strings. -/
def getLocalVariable (names : List SQObject) (name : SQObject) : Option StackPos :=
  (names.reverse.findIdx? fun o => o.type = .otString ∧ o.unVal = name.unVal).map fun k =>
    ⟨names.length - 1 - k⟩

/-- The characters of a string, as the compiler's names have them. -/
def characters (t : SQStringTable (BitVec 64)) (s : BitVec 64) : Text :=
  (t.content s).map fun b => Char.ofNat b.toNat

def nameOf (t : SQStringTable (BitVec 64)) (o : SQObject) : Option Text :=
  if o.type = .otString then some (t.characters o.unVal) else none

/-- What a state of the string table promises to the rest of the machine. -/
structure Interned (t : SQStringTable (BitVec 64)) (live : List (BitVec 64)) : Prop where
  identity : ∀ s ∈ live, ∀ u ∈ live, s = u ↔
    (t.strings s).len = (t.strings u).len ∧
      (t.strings s).val.take (t.strings s).len = (t.strings u).val.take (t.strings u).len
  /-- `Add` makes a string of any bytes, and the live ones stay what they are. -/
  create : ∀ (news content : List UInt8) (len : Int) (malloc : BitVec 64),
    given news len = .ok content → malloc ∉ live →
      ∃ t' s, t.add malloc news len = .ok (t', s) ∧ t'.content s = content ∧
        ∀ u ∈ live, t'.text u = t.text u
  found : ∀ s ∈ live, ∀ (news : List UInt8) (len : Int) (malloc : BitVec 64),
    given news len = .ok (t.content s) → malloc ∉ live → t.add malloc news len = .ok (t, s)
  /-- `Remove` takes the string off its chain, and nothing else changes. -/
  unlinks : ∀ s ∈ live, ∃ t', t.remove s = .ok t' ∧ t'.numofslots = t.numofslots ∧
    (∀ u, t'.text u = t.text u) ∧
    ∀ b < t.numofslots, ∃ l, Linked t.links (t.buckets b) l ∧
      Linked t'.links (t'.buckets b) (l.erase s) ∧ (b = t.position s → s ∈ l) ∧ s ∉ l.erase s
  used : t.slotused = live.length
  isEqual : ∀ s ∈ live, ∀ u ∈ live,
    Vm.Compare.isEqual (.ofString s) (.ofString u) = true ↔ t.content s = t.content u
  lookup : ∀ (V : Type) (table : SQTable SQObject V) (key : SQObject) (h : Nat),
    Refers live key → (∀ i k, (table.nodes i).key = some k → Refers live k) →
      table.getNode (some key) h = getNodeByContent t table key h
  localVariable : ∀ (fs : SQFuncState) (names : List SQObject) (name : BitVec 64),
    fs.vlocals.map (·.name) = names.map t.nameOf → (∀ o ∈ names, Refers live o) → name ∈ live →
      getLocalVariable names (.ofString name) = fs.getLocalVariable (t.characters name)

theorem ptr_eq_iff (h : Runs t live) {s u : BitVec 64} (hs : s ∈ live) (hu : u ∈ live) :
    s = u ↔ t.content s = t.content u := by
  obtain ⟨-, chain, hholds⟩ := h.holds
  exact ⟨congrArg _, hholds.distinct s hs u hu⟩

theorem sameObject_iff (h : Runs t live) {a b : SQObject} (ha : Refers live a)
    (hb : Refers live b) : t.sameObject a b = true ↔ a = b := by
  rw [sameObject]
  split_ifs with hab
  · rw [beq_iff_eq, ← ptr_eq_iff h (ha hab.1) (hb hab.2)]
    refine ⟨fun hval => ?_, congrArg _⟩
    cases a
    cases b
    exact SQObject.mk.injEq .. |>.mpr ⟨hab.1.trans hab.2.symm, hval⟩
  · exact beq_iff_eq

theorem toNat_ofNat_byte (b : UInt8) : (Char.ofNat b.toNat).toNat = b.toNat := by
  have hb := b.toNat_lt
  have hvalid : b.toNat.isValidChar := .inl (by omega)
  rw [Char.ofNat, dif_pos hvalid]
  rfl

theorem characters_inj {s u : BitVec 64} :
    t.characters s = t.characters u ↔ t.content s = t.content u := by
  refine ⟨fun h => List.map_injective_iff.mpr (fun a b hab => ?_) h, congrArg _⟩
  have hnat := congrArg Char.toNat hab
  rw [toNat_ofNat_byte, toNat_ofNat_byte] at hnat
  exact UInt8.toNat_inj.mp hnat

theorem findIdx_names (h : Runs t live) {names : List SQObject} {name : BitVec 64}
    (hnames : ∀ o ∈ names, Refers live o) (hname : name ∈ live) :
    (names.findIdx? fun o => o.type = .otString ∧ o.unVal = name) =
      (names.map t.nameOf).findIdx? fun n => n = some (t.characters name) := by
  induction names with
  | nil => rfl
  | cons o names ih =>
    have ho := hnames o List.mem_cons_self
    have hhead : (o.type = .otString ∧ o.unVal = name) ↔ t.nameOf o = some (t.characters name) := by
      rw [nameOf]
      split_ifs with htype
      · rw [and_iff_right htype, Option.some.injEq, characters_inj, ptr_eq_iff h (ho htype) hname]
      · exact iff_of_false (fun hand => htype hand.1) nofun
    rw [List.map_cons, List.findIdx?_cons, List.findIdx?_cons,
      ih fun o' ho' => hnames o' (List.mem_cons_of_mem o ho')]
    simp only [hhead]

theorem getLocalVariable_eq (h : Runs t live) {fs : SQFuncState} {names : List SQObject}
    {name : BitVec 64} (hfs : fs.vlocals.map (·.name) = names.map t.nameOf)
    (hnames : ∀ o ∈ names, Refers live o) (hname : name ∈ live) :
    getLocalVariable names (.ofString name) = fs.getLocalVariable (t.characters name) := by
  have hlen : fs.vlocals.length = names.length := by
    have := congrArg List.length hfs
    rwa [List.length_map, List.length_map] at this
  have hrev : fs.vlocals.reverse.map (·.name) = names.reverse.map t.nameOf := by
    rw [List.map_reverse, hfs, List.map_reverse]
  have hfind := findIdx_names h (fun o ho => hnames o (List.mem_reverse.mp ho)) hname
  rw [← hrev, List.findIdx?_map] at hfind
  rw [getLocalVariable, SQFuncState.getLocalVariable, hlen]
  exact congrArg _ hfind

theorem getNode_eq (h : Runs t live) {V : Type} (table : SQTable SQObject V) {key : SQObject}
    (hkey : Refers live key) (hkeys : ∀ i k, (table.nodes i).key = some k → Refers live k)
    (start : Nat) : table.getNode (some key) start = getNodeByContent t table key start := by
  have hsame : (fun i => (table.nodes i).key == some key) = fun i =>
      match (table.nodes i).key with
      | some k => t.sameObject k key
      | none => false := by
    funext i
    cases hi : (table.nodes i).key with
    | none => rfl
    | some k =>
      rw [Bool.eq_iff_iff, sameObject_iff h (hkeys i k hi) hkey, beq_iff_eq, Option.some.injEq]
  rw [SQTable.getNode, hsame]
  rfl

theorem interned_of_runs (h : Runs t live) : Interned t live := by
  obtain ⟨hcrowded, chain, hholds⟩ := h.holds
  refine ⟨?_, ?_, ?_, ?_, hholds.used, ?_, fun V table key start hkey hkeys =>
    getNode_eq h table hkey hkeys start, fun fs names name => getLocalVariable_eq h⟩
  · intro s hs u hu
    constructor
    · rintro rfl
      exact ⟨rfl, rfl⟩
    · rintro ⟨-, hbytes⟩
      exact hholds.distinct s hs u hu hbytes
  · intro news content len malloc hgiven hmalloc
    obtain ⟨t', s, chain', hrun, -, -, hcontent, hold, -⟩ := hholds.add hcrowded hmalloc hgiven
    exact ⟨t', s, hrun, hcontent, hold⟩
  · intro s hs news len malloc hgiven hmalloc
    obtain ⟨t', u, chain', hrun, hholds', -, hcontent, hold, hsame, hnew⟩ :=
      hholds.add hcrowded hmalloc hgiven
    have hsu : s = u := by
      refine hholds'.distinct s (List.mem_insert_of_mem hs) u List.mem_insert_self ?_
      rw [content_eq_of_text (hold s hs), hcontent]
    rw [hrun, ← hsu, hsame (hsu ▸ hs)]
  · intro s hs
    obtain ⟨t', hrun, hholds', hsize, htext⟩ := hholds.remove hcrowded hs
    refine ⟨t', hrun, hsize, htext, fun b hb => ⟨chain b, hholds.shape.linked b hb, ?_, ?_, ?_⟩⟩
    · exact hholds'.shape.linked b (hsize.symm ▸ hb)
    · rintro rfl
      exact (hholds.mem_iff s).mpr hs
    · exact (hholds.shape.nodup b hb).not_mem_erase
  · intro s hs u hu
    rw [← ptr_eq_iff h hs hu]
    simp [Vm.Compare.isEqual, SQObject.ofString, SQObject.rawval]

/-- Two strings, of which the first is released. -/
theorem interned_release : ∃ t : SQStringTable (BitVec 64), Runs t [0x20] ∧ Interned t [0x20] := by
  have hstart : Runs (init fun _ : BitVec 64 => ⟨none, 0, 0, []⟩) [] := .start _
  have hfirst := Runs.create 0x10 [97, 0] (-1) hstart rfl (by decide) rfl
  have hsecond := Runs.create 0x20 [98, 0, 99] 3 hfirst rfl (by decide) rfl
  have hrelease := Runs.release 0x10 hsecond (by decide) rfl
  exact ⟨_, hrelease, interned_of_runs hrelease⟩

end Lookups

end Sqnim.Object.SQStringTable
